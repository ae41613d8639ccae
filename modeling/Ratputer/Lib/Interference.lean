import Ratputer.Lib.Coroutine

/-!
# Coroutines under interference

A coroutine that waits gives way to others, which may change the state it shares with them. `spec` says for each operation when
it may be asked, and what it may end in: all answers and all states, so those that the others can leave for an operation that
waits. `wp` is the weakest precondition of a coroutine over such operations, and `wp_advance` its soundness for a handler that
keeps to the specification. Where all that is known of an operation is a relation between the states before and after it, `Ends`
are the runs and `wp_all` says that the precondition is about all of them.
-/

namespace Coroutine

variable {Op : Type} {Ret : Op → Type} {α β σ τ : Type}

/-- From the state every operation of the coroutine is asked when it may be, and every result satisfies `Q`. -/
def wp (spec : (o : Op) → σ → (Ret o → σ → Prop) → Prop) : Coroutine Ret α → σ → (α → σ → Prop) → Prop
  | done a, s, Q => Q a s
  | ask o k, s, Q => spec o s fun r s' => wp spec (k r) s' Q

variable {spec : (o : Op) → σ → (Ret o → σ → Prop) → Prop}

@[simp] theorem wp_pure (a : α) (s : σ) (Q : α → σ → Prop) : wp spec (pure a) s Q ↔ Q a s := Iff.rfl

/-- The condition of one operation is what its specification asks. -/
@[simp] theorem wp_perform (o : Op) (s : σ) (Q : Ret o → σ → Prop) : wp spec (perform o) s Q ↔ spec o s Q := Iff.rfl

/-- The precondition of a sequence is that of the first part, for what the second needs. -/
theorem wp_bind (t : Coroutine Ret α) (f : α → Coroutine Ret β) (s : σ) (Q : β → σ → Prop) :
    wp spec (t >>= f) s Q ↔ wp spec t s fun a s' => wp spec (f a) s' Q := by
  induction t generalizing s with
  | done a => exact Iff.rfl
  | ask o k ih =>
    rw [ask_bind, wp, wp]
    have hrest : (fun r s' => wp spec (k r >>= f) s' Q) = fun r s' => wp spec (k r) s' fun a s' => wp spec (f a) s' Q := by
      funext r s'
      exact propext (ih r s')
    rw [hrest]

/-- A specification whose operations end in fewer states with a stronger postcondition. -/
def Monotone (spec : (o : Op) → σ → (Ret o → σ → Prop) → Prop) : Prop :=
  ∀ o s (Q Q' : Ret o → σ → Prop), (∀ r s', Q r s' → Q' r s') → spec o s Q → spec o s Q'

/-- A program that is asked less meets it. -/
theorem wp_mono (hm : Monotone spec) {t : Coroutine Ret α} {s : σ} {Q Q' : α → σ → Prop} (hQ : ∀ a s', Q a s' → Q' a s')
    (h : wp spec t s Q) : wp spec t s Q' := by
  induction t generalizing s with
  | done a => exact hQ a s h
  | ask o k ih => exact hm o s _ _ (fun r s' hr => ih r hr) h

/-- Soundness: a handler whose answers keep to the specification, on states of its own that `view` reads, runs a coroutine into
what is left of it with its precondition; and it keeps every property of its states that its answers do. -/
theorem wp_advance {h : (o : Op) → τ → Option (Ret o × τ)} (view : τ → σ) (I : τ → Prop) {Q : α → σ → Prop}
    (hh : ∀ o s r s' (Q : Ret o → σ → Prop), I s → spec o (view s) Q → h o s = some (r, s') → Q r (view s') ∧ I s')
    {t : Coroutine Ret α} {s : τ} (hi : I s) (hw : wp spec t (view s) Q) :
    wp spec (advance h t s).1 (view (advance h t s).2) Q ∧ I (advance h t s).2 := by
  induction t generalizing s with
  | done a => exact ⟨hw, hi⟩
  | ask o k ih =>
    rw [advance]
    split
    · exact ⟨hw, hi⟩
    · rename_i r s' hr
      obtain ⟨hq, hi'⟩ := hh o s r s' _ hi hw hr
      exact ih r hi' hq

/-! ## Runs over a relation -/

/-- The runs of a coroutine to its end. `answers o s r s'` says that the operation `o` in the state `s` may be answered with `r`
and end in `s'`. -/
inductive Ends (answers : (o : Op) → σ → Ret o → σ → Prop) : Coroutine Ret α → σ → α → σ → Prop
  | done (a : α) (s : σ) : Ends answers (done a) s a s
  | ask {o : Op} {k : Ret o → Coroutine Ret α} {s s' s'' : σ} {r : Ret o} {a : α} (h : answers o s r s')
      (rest : Ends answers (k r) s' a s'') : Ends answers (ask o k) s a s''

/-- The specification of operations of which a relation is all that is known: every answer it allows. -/
def All (answers : (o : Op) → σ → Ret o → σ → Prop) (o : Op) (s : σ) (Q : Ret o → σ → Prop) : Prop :=
  ∀ r s', answers o s r s' → Q r s'

/-- The specification that allows every answer is monotone. -/
theorem all_monotone (answers : (o : Op) → σ → Ret o → σ → Prop) : Monotone (All answers) :=
  fun _ _ _ _ hQ h r s' ha => hQ r s' (h r s' ha)

/-- The precondition for every allowed answer is about every run. -/
theorem wp_all {answers : (o : Op) → σ → Ret o → σ → Prop} {t : Coroutine Ret α} {s : σ} {Q : α → σ → Prop} :
    wp (All answers) t s Q ↔ ∀ a s', Ends answers t s a s' → Q a s' := by
  constructor
  · intro h a s' he
    induction he with
    | done a s => exact h
    | ask ha _ ih => exact ih (h _ _ ha)
  · intro h
    induction t generalizing s with
    | done a => exact h a s (.done a s)
    | ask o k ih => exact fun r s' ha => ih r fun a s'' he => h a s'' (.ask ha he)

/-- A postcondition of a coroutine from every state. -/
def Always (answers : (o : Op) → σ → Ret o → σ → Prop) (P : α → σ → Prop) (t : Coroutine Ret α) : Prop :=
  ∀ s, wp (All answers) t s P

section

variable {answers : (o : Op) → σ → Ret o → σ → Prop} {P P' : α → σ → Prop}

/-- A value. -/
theorem always_pure {a : α} (h : ∀ s, P a s) : Always answers P (pure a) := h

/-- A postcondition that the second part has from every state needs nothing of the first. -/
theorem always_bind {t : Coroutine Ret β} {f : β → Coroutine Ret α} (h : ∀ b, Always answers P (f b)) :
    Always answers P (t >>= f) := by
  intro s
  rw [wp_bind, wp_all]
  exact fun b s' _ => h b s'

/-- A postcondition that the second part has for the results that the first can end in. -/
theorem always_bind_of {R : β → σ → Prop} {t : Coroutine Ret β} {f : β → Coroutine Ret α} (ht : Always answers R t)
    (h : ∀ b s, R b s → wp (All answers) (f b) s P) : Always answers P (t >>= f) := by
  intro s
  rw [wp_bind]
  exact wp_mono (all_monotone answers) h (ht s)

/-- Both branches, each under its condition. -/
theorem always_ite {c : Prop} [Decidable c] {t u : Coroutine Ret α} (h : c → Always answers P t)
    (h' : ¬c → Always answers P u) : Always answers P (if c then t else u) := by
  split
  · exact h ‹_›
  · exact h' ‹_›

/-- Less may be said of the result. -/
theorem always_mono {t : Coroutine Ret α} (h : ∀ a s, P a s → P' a s) (ht : Always answers P t) : Always answers P' t :=
  fun s => wp_mono (all_monotone answers) h (ht s)

end

/-- What is left of a coroutine is done, or waits. -/
theorem advance_waits (h : (o : Op) → τ → Option (Ret o × τ)) (t : Coroutine Ret α) (s : τ) :
    (∃ a, (advance h t s).1 = done a) ∨ ∃ o k, (advance h t s).1 = ask o k ∧ h o (advance h t s).2 = none := by
  induction t generalizing s with
  | done a => exact Or.inl ⟨a, rfl⟩
  | ask o k ih =>
    rw [advance]
    split
    · rename_i hn
      exact Or.inr ⟨o, k, rfl, hn⟩
    · exact ih _ _

end Coroutine
