import Mathlib.Order.WellFounded
import Mathlib.Data.Nat.Init

/-!
# What happens whatever the environment does

A system whose every step takes a choice of the environment. A property is inevitable in a state when it is met after finitely
many steps whatever is chosen; how many may depend on the choices. A measure that every step decreases makes it so.
-/

variable {ι σ α : Type*}

/-- `P` is met now, or is inevitable after every step. -/
inductive Inevitable (next : ι → σ → σ) (P : σ → Prop) : σ → Prop
  | now {s : σ} (h : P s) : Inevitable next P s
  | later {s : σ} (h : ∀ i, Inevitable next P (next i s)) : Inevitable next P s

/-- The state after `n` steps under a sequence of choices. -/
def along (next : ι → σ → σ) (choices : ℕ → ι) (s : σ) : ℕ → σ
  | 0 => s
  | n + 1 => next (choices n) (along next choices s n)

variable {next : ι → σ → σ} {P Q : σ → Prop} {s : σ}

/-- Steps after the first are steps under the rest of the choices. -/
theorem along_succ (choices : ℕ → ι) (s : σ) (n : ℕ) :
    along next choices s (n + 1) = along next (fun k => choices (k + 1)) (next (choices 0) s) n := by
  induction n with
  | zero => rfl
  | succ n ih => exact congrArg (next (choices (n + 1))) ih

namespace Inevitable

/-- Under every sequence of choices, what is inevitable is met. -/
theorem met (h : Inevitable next P s) (choices : ℕ → ι) : ∃ n, P (along next choices s n) := by
  induction h generalizing choices with
  | now h => exact ⟨0, h⟩
  | later _ ih =>
    obtain ⟨n, hn⟩ := ih (choices 0) fun k => choices (k + 1)
    exact ⟨n + 1, by rw [along_succ]; exact hn⟩

/-- What is inevitable wherever an inevitable property is met is inevitable. -/
theorem trans (h : Inevitable next P s) (hP : ∀ t, P t → Inevitable next Q t) : Inevitable next Q s := by
  induction h with
  | now h => exact hP _ h
  | later _ ih => exact .later ih

theorem mono (h : Inevitable next P s) (hP : ∀ t, P t → Q t) : Inevitable next Q s := h.trans fun t ht => .now (hP t ht)

/-- The rule of measures: an invariant, and a measure that decreases with every step that does not meet the property. -/
theorem of_measure [LT α] [WellFoundedLT α] (I : σ → Prop) (measure : σ → α)
    (hstep : ∀ s, I s → ¬P s → ∀ i, I (next i s) ∧ (P (next i s) ∨ measure (next i s) < measure s)) {s : σ} (hi : I s) :
    Inevitable next (fun t => I t ∧ P t) s := by
  induction h : measure s using WellFoundedLT.induction generalizing s with
  | ind m ih =>
    by_cases hp : P s
    · exact .now ⟨hi, hp⟩
    · refine .later fun i => ?_
      obtain ⟨hi', hmet | hlt⟩ := hstep s hi hp i
      · exact .now ⟨hi', hmet⟩
      · exact ih _ (h ▸ hlt) hi' rfl

end Inevitable
