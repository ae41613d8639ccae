import Ratputer.Lib.Effect
import Mathlib.Logic.Relation

/-!
# Polled jobs

A job that is polled until it is done: each poll is a computation that may fail, changes the state, and leaves the job for the next
one. What one poll preserves holds after every run of polls; polls that chain lead to where the last one stands.
-/

namespace Effect

universe u

variable {ε τ σ : Type u}

/-- Poll a job up to `n` times, until it is done or fails: what it leaves, and whether it is done. -/
def polls (step : σ → EStateM ε τ (σ × Bool)) : Nat → σ → EStateM ε τ (σ × Bool)
  | 0, s => pure (s, false)
  | n + 1, s => do
    let (s, done) ← step s
    if done then pure (s, true) else polls step n s

/-- One poll goes from a job on a state to another, which is not done. -/
def Goes (step : σ → EStateM ε τ (σ × Bool)) (a b : σ × τ) : Prop := step a.1 a.2 = .ok (b.1, false) b.2

/-- Polls lead from a job on a state to another, which is not done. -/
abbrev Leads (step : σ → EStateM ε τ (σ × Bool)) : σ × τ → σ × τ → Prop := Relation.ReflTransGen (Goes step)

variable {step : σ → EStateM ε τ (σ × Bool)}

theorem polls_succ_of_goes {a b : σ × τ} (h : Goes step a b) (n : Nat) : polls step (n + 1) a.1 a.2 = polls step n b.1 b.2 := by
  show (step a.1 >>= fun r => if r.2 then pure (r.1, true) else polls step n r.1) a.2 = _
  rw [bind_of_ok h]
  rfl

/-- The polls that lead somewhere are followed by those from there. -/
theorem Leads.followed {a b : σ × τ} (h : Leads step a b) : ∃ n, ∀ m, polls step (n + m) a.1 a.2 = polls step m b.1 b.2 := by
  induction h using Relation.ReflTransGen.head_induction_on with
  | refl => exact ⟨0, fun m => by rw [Nat.zero_add]⟩
  | head hgo _ ih =>
    obtain ⟨n, hn⟩ := ih
    refine ⟨n + 1, fun m => ?_⟩
    rw [Nat.add_right_comm, polls_succ_of_goes hgo, hn]

/-- A job led to where the next poll is the last is done after finitely many polls. -/
theorem Leads.done {a b : σ × τ} (h : Leads step a b) {s : σ} {t : τ} (hlast : step b.1 b.2 = .ok (s, true) t) :
    ∃ n, polls step n a.1 a.2 = .ok (s, true) t := by
  obtain ⟨n, hn⟩ := h.followed
  refine ⟨n + 1, (hn 1).trans ?_⟩
  show (step b.1 >>= fun r => if r.2 then pure (r.1, true) else polls step 0 r.1) b.2 = _
  rw [bind_of_ok hlast]
  rfl

/-- A job led to where the next poll fails fails after finitely many polls. -/
theorem Leads.fails {a b : σ × τ} (h : Leads step a b) {e : ε} {t : τ} (hlast : step b.1 b.2 = .error e t) :
    ∃ n, polls step n a.1 a.2 = .error e t := by
  obtain ⟨n, hn⟩ := h.followed
  refine ⟨n + 1, (hn 1).trans ?_⟩
  show (step b.1 >>= fun r => if r.2 then pure (r.1, true) else polls step 0 r.1) b.2 = _
  rw [bind_of_error hlast]

/-- The rule of invariants: what each poll keeps, whether it succeeds or fails, every run of polls keeps. -/
theorem polls_invariant {I : σ → τ → Prop} {E : τ → Prop}
    (hstep : ∀ s t, I s t → Ends (step s) t (fun r t' => I r.1 t') fun _ t' => E t') (n : Nat) {s : σ} {t : τ} (h : I s t) :
    Ends (polls step n s) t (fun r t' => I r.1 t') fun _ t' => E t' := by
  induction n generalizing s t with
  | zero => exact h
  | succ n ih =>
    refine ends_bind ((hstep s t h).mono (fun r t' hr => ?_) fun _ _ he => he)
    obtain ⟨s', done⟩ := r
    cases done with
    | true => exact hr
    | false => exact ih hr

end Effect
