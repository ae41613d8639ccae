import Mathlib.Data.List.Basic

/-!
# Runs of a deterministic machine

A machine reads events one at a time, moves its state and answers each event with an output. Environment choices (a schedule,
a failing device, the keys of a pass) are part of the event, so a statement about every run is a statement about every list
of events. `Along G` says that every step of a run meets the condition `G` on the state before it and the event it reads.
-/

namespace Mealy

variable {σ τ ε ω : Type*}

/-- The states and outputs of the machine `step` over a list of events. -/
def run (step : σ → ε → σ × ω) (s : σ) : List ε → σ × List ω
  | [] => (s, [])
  | e :: es =>
    let r := step s e
    let rest := run step r.1 es
    (rest.1, r.2 :: rest.2)

/-- The state after a list of events. -/
def final (step : σ → ε → σ × ω) (s : σ) (es : List ε) : σ := (run step s es).1

/-- The outputs of a list of events, in order. -/
def outputs (step : σ → ε → σ × ω) (s : σ) (es : List ε) : List ω := (run step s es).2

/-- Every step of the run meets the condition `G` on the state it starts from and its event. -/
def Along (step : σ → ε → σ × ω) (G : σ → ε → Prop) (s : σ) : List ε → Prop
  | [] => True
  | e :: es => G s e ∧ Along step G (step s e).1 es

variable (step : σ → ε → σ × ω) (step' : τ → ε → τ × ω)

@[simp] theorem final_nil (s : σ) : final step s [] = s := rfl

@[simp] theorem final_cons (s : σ) (e : ε) (es : List ε) : final step s (e :: es) = final step (step s e).1 es := rfl

@[simp] theorem outputs_nil (s : σ) : outputs step s [] = [] := rfl

@[simp] theorem outputs_cons (s : σ) (e : ε) (es : List ε) :
    outputs step s (e :: es) = (step s e).2 :: outputs step (step s e).1 es := rfl

/-- The state after two lists of events is the state after the second, from the state after the first. -/
theorem final_append (s : σ) (es es' : List ε) : final step s (es ++ es') = final step (final step s es) es' := by
  induction es generalizing s with
  | nil => rfl
  | cons e es ih => exact ih _

/-- The outputs of two lists of events, put end to end. -/
theorem outputs_append (s : σ) (es es' : List ε) :
    outputs step s (es ++ es') = outputs step s es ++ outputs step (final step s es) es' := by
  induction es generalizing s with
  | nil => rfl
  | cons e es ih =>
    rw [List.cons_append, outputs_cons, outputs_cons, ih, List.cons_append]
    rfl

variable {step step'}

/-- A run meets a condition along a concatenation exactly when it does along both parts. -/
theorem along_append {G : σ → ε → Prop} {s : σ} {es es' : List ε} :
    Along step G s (es ++ es') ↔ Along step G s es ∧ Along step G (final step s es) es' := by
  induction es generalizing s with
  | nil => simp [Along]
  | cons e es ih => simp only [List.cons_append, Along, ih, final_cons, and_assoc]

/-- A condition holds along a run exactly when every event meets it in the state that the events before it lead to. -/
theorem along_iff_forall {G : σ → ε → Prop} {s : σ} {es : List ε} :
    Along step G s es ↔ ∀ before e after, es = before ++ e :: after → G (final step s before) e := by
  constructor
  · rintro ha before e after rfl
    exact (along_append.mp ha).2.1
  · intro h
    induction es generalizing s with
    | nil => trivial
    | cons e es ih =>
      refine ⟨h [] e es rfl, ih fun before e' after heq => ?_⟩
      exact h (e :: before) e' after (by rw [heq, List.cons_append])

instance decidableAlong (G : σ → ε → Prop) [∀ s e, Decidable (G s e)] (s : σ) : (es : List ε) → Decidable (Along step G s es)
  | [] => .isTrue trivial
  | e :: es => @instDecidableAnd _ _ _ (decidableAlong G (step s e).1 es)

/-- A condition that every step meets holds along every run. -/
theorem along_of_forall {G : σ → ε → Prop} (h : ∀ s e, G s e) (s : σ) (es : List ε) : Along step G s es := by
  induction es generalizing s with
  | nil => trivial
  | cons e es ih => exact ⟨h s e, ih _⟩

/-- A condition that the events meet in every state holds along the run. -/
theorem along_of_mem {G : σ → ε → Prop} {es : List ε} (h : ∀ e ∈ es, ∀ s, G s e) (s : σ) : Along step G s es := by
  induction es generalizing s with
  | nil => trivial
  | cons e es ih => exact ⟨h e (List.mem_cons_self ..) s, ih (fun e' he' => h e' (List.mem_cons_of_mem _ he')) _⟩

/-- A weaker condition holds along a run that meets a stronger one. -/
theorem Along.mono {G G' : σ → ε → Prop} (h : ∀ s e, G s e → G' s e) {s : σ} {es : List ε} (ha : Along step G s es) :
    Along step G' s es := by
  induction es generalizing s with
  | nil => trivial
  | cons e es ih => exact ⟨h s e ha.1, ih ha.2⟩

/-- The invariant rule for steps: what an invariant, preserved by every step, says of each step holds along every run. -/
theorem along_of_invariant (I : σ → Prop) {G : σ → ε → Prop} (hstep : ∀ s e, I s → I (step s e).1 ∧ G s e) {s : σ}
    (hi : I s) (es : List ε) : Along step G s es := by
  induction es generalizing s with
  | nil => trivial
  | cons e es ih => exact ⟨(hstep s e hi).2, ih (hstep s e hi).1⟩

/-- Two conditions that agree wherever an invariant holds, and keep it, agree along every run. -/
theorem along_iff (I : σ → Prop) {G G' : σ → ε → Prop}
    (hstep : ∀ s e, I s → (G s e ↔ G' s e) ∧ (G' s e → I (step s e).1)) {s : σ} (hi : I s) (es : List ε) :
    Along step G s es ↔ Along step G' s es := by
  induction es generalizing s with
  | nil => exact Iff.rfl
  | cons e es ih =>
    obtain ⟨hiff, hkeep⟩ := hstep s e hi
    constructor
    · rintro ⟨hg, hrest⟩
      exact ⟨hiff.mp hg, (ih (hkeep (hiff.mp hg))).mp hrest⟩
    · rintro ⟨hg, hrest⟩
      exact ⟨hiff.mpr hg, (ih (hkeep hg)).mpr hrest⟩

/-- The invariant rule: what every step that meets the condition preserves holds at the end of a run that meets it. -/
theorem invariant (I : σ → Prop) {G : σ → ε → Prop} (hstep : ∀ s e, I s → G s e → I (step s e).1) {s : σ} {es : List ε}
    (hi : I s) (hg : Along step G s es) : I (final step s es) := by
  induction es generalizing s with
  | nil => exact hi
  | cons e es ih => exact ih (hstep s e hi hg.1) hg.2

/-- The invariant rule without a condition: what every step preserves holds at the end of every run. -/
theorem invariant_of_forall (I : σ → Prop) (hstep : ∀ s e, I s → I (step s e).1) {s : σ} (hi : I s) (es : List ε) :
    I (final step s es) :=
  invariant I (G := fun _ _ => True) (fun s e h _ => hstep s e h) hi (along_of_forall (fun _ _ => trivial) s es)

/-- The invariant rule for outputs: what every step that meets the condition establishes of its event and output, beside the
invariant, holds of every event and output of a run that meets it. -/
theorem invariant_outputs (I : σ → Prop) {G : σ → ε → Prop} (P : ε → ω → Prop)
    (hstep : ∀ s e, I s → G s e → I (step s e).1 ∧ P e (step s e).2) {s : σ} {es : List ε} (hi : I s)
    (hg : Along step G s es) : I (final step s es) ∧ ∀ x ∈ es.zip (outputs step s es), P x.1 x.2 := by
  induction es generalizing s with
  | nil => exact ⟨hi, nofun⟩
  | cons e es ih =>
    obtain ⟨h1, h2⟩ := hstep s e hi hg.1
    obtain ⟨h3, h4⟩ := ih h1 hg.2
    refine ⟨h3, fun x hx => ?_⟩
    rcases List.mem_cons.mp hx with rfl | hx
    · exact h2
    · exact h4 x hx

/-- The simulation rule: two machines whose related states answer every event alike, and stay related, answer every run
alike and end in related states. -/
theorem simulation {R : σ → τ → Prop} {G : σ → ε → Prop}
    (hstep : ∀ s t e, R s t → G s e → R (step s e).1 (step' t e).1 ∧ (step s e).2 = (step' t e).2) {s : σ} {t : τ}
    {es : List ε} (hr : R s t) (hg : Along step G s es) :
    R (final step s es) (final step' t es) ∧ outputs step s es = outputs step' t es := by
  induction es generalizing s t with
  | nil => exact ⟨hr, rfl⟩
  | cons e es ih =>
    obtain ⟨h1, h2⟩ := hstep s t e hr hg.1
    obtain ⟨h3, h4⟩ := ih h1 hg.2
    exact ⟨h3, by rw [outputs_cons, outputs_cons, h2, h4]⟩

/-! ## Events of one kind -/

/-- The invariant rule for the events of a list. -/
theorem invariant_of_mem (I : σ → Prop) {es : List ε} (h : ∀ e ∈ es, ∀ s, I s → I (step s e).1) {s : σ} (hi : I s) :
    I (final step s es) := by
  induction es generalizing s with
  | nil => exact hi
  | cons e es ih => exact ih (fun e' he' => h e' (List.mem_cons_of_mem _ he')) (h e (List.mem_cons_self ..) s hi)

/-- What every event of a list establishes holds after them, if there are any. -/
theorem final_of_mem (I : σ → Prop) {es : List ε} (h : ∀ e ∈ es, ∀ s, I (step s e).1) (hne : es ≠ []) (s : σ) :
    I (final step s es) := by
  cases es with
  | nil => exact absurd rfl hne
  | cons e es =>
    exact invariant_of_mem I (fun e' he' s _ => h e' (List.mem_cons_of_mem _ he') s) (h e (List.mem_cons_self ..) s)

/-- Where every event leaves a state in which the next one meets its condition, the first event decides. -/
theorem along_iff_first (I : σ → Prop) {G : σ → ε → Prop} {P : σ → Prop} {es : List ε}
    (hI : ∀ e ∈ es, ∀ s, I (step s e).1) (hG : ∀ e ∈ es, ∀ s, G s e ↔ P s) (hP : ∀ s, I s → P s) (s : σ) :
    Along step G s es ↔ (es ≠ [] → P s) := by
  induction es generalizing s with
  | nil => exact iff_of_true trivial fun hne => absurd rfl hne
  | cons e es ih =>
    have hrest := ih (fun e' he' => hI e' (List.mem_cons_of_mem _ he')) (fun e' he' => hG e' (List.mem_cons_of_mem _ he'))
      (step s e).1
    constructor
    · intro ha _
      exact (hG e (List.mem_cons_self ..) s).mp ha.1
    · intro hp
      refine ⟨(hG e (List.mem_cons_self ..) s).mpr (hp (List.cons_ne_nil e es)), hrest.mpr fun _ => ?_⟩
      exact hP _ (hI e (List.mem_cons_self ..) s)

/-! ## A machine that watches another -/

/-- A machine with lists of outputs, beside one that reads them in order. -/
def beside {υ : Type*} (step : σ → ε → σ × List ω) (watch : τ → ω → τ × υ) (x : σ × τ) (e : ε) : (σ × τ) × List ω :=
  (((step x.1 e).1, final watch x.2 (step x.1 e).2), (step x.1 e).2)

/-- The watching machine meets a condition along all outputs of a run exactly when it does along those of every step. -/
theorem along_flatten {υ : Type*} {step : σ → ε → σ × List ω} {watch : τ → ω → τ × υ} {G : τ → ω → Prop} {s : σ} {t : τ}
    {es : List ε} :
    Along watch G t (outputs step s es).flatten ↔
      Along (beside step watch) (fun x e => Along watch G x.2 (step x.1 e).2) (s, t) es := by
  induction es generalizing s t with
  | nil => exact Iff.rfl
  | cons e es ih =>
    rw [outputs_cons, List.flatten_cons, along_append, ih]
    exact Iff.rfl

end Mealy
