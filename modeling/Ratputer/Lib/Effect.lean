import Mathlib.Order.Defs.Unbundled

/-!
# Rules for actions with state and errors

What an action of `EStateM` can end in, from a state: a rule for each way to build an action, and the frame rule for actions
that move the state along a preorder.
-/

namespace Effect

universe u

variable {ε σ α β : Type u}

/-- From `s` the action ends with a value and a state in `Q`, or with an error and a state in `E`. -/
def Ends (m : EStateM ε σ α) (s : σ) (Q : α → σ → Prop) (E : ε → σ → Prop) : Prop :=
  match m s with
  | .ok a s' => Q a s'
  | .error e s' => E e s'

section rules

variable {m : EStateM ε σ α} {f : α → EStateM ε σ β} {s : σ} {Q Q' : α → σ → Prop} {E E' : ε → σ → Prop}
  {F : β → σ → Prop}

/-- A value. -/
theorem ends_pure {a : α} (h : Q a s) : Ends (pure a) s Q E := h

/-- An error. -/
theorem ends_throw {e : ε} (h : E e s) : Ends (throw e : EStateM ε σ α) s Q E := h

/-- The rule of sequence. -/
theorem ends_bind (h : Ends m s (fun a s' => Ends (f a) s' F E) E) : Ends (m >>= f) s F E := by
  unfold Ends at h ⊢
  show match EStateM.bind m f s with | .ok b s' => F b s' | .error e s' => E e s'
  unfold EStateM.bind
  cases hm : m s with
  | ok a s' => rw [hm] at h; exact h
  | error e s' => rw [hm] at h; exact h

/-- The rule of consequence. -/
theorem Ends.mono (h : Ends m s Q E) (hQ : ∀ a s', Q a s' → Q' a s') (hE : ∀ e s', E e s' → E' e s') : Ends m s Q' E' := by
  unfold Ends at h ⊢
  cases hm : m s with
  | ok a s' => rw [hm] at h; exact hQ _ _ h
  | error e s' => rw [hm] at h; exact hE _ _ h

/-- A contract, used where the program ends with a value. -/
theorem Ends.ok (h : Ends m s Q E) {a : α} {s' : σ} (hm : m s = .ok a s') : Q a s' := by
  rw [Ends, hm] at h
  exact h

/-- A contract, used where it ends with an error. -/
theorem Ends.error (h : Ends m s Q E) {e : ε} {s' : σ} (hm : m s = .error e s') : E e s' := by
  rw [Ends, hm] at h
  exact h

/-- A sequence that ends with a value ends its first part with one. -/
theorem bind_eq_ok {b : β} {s' : σ} (h : (m >>= f) s = .ok b s') : ∃ a t, m s = .ok a t ∧ f a t = .ok b s' := by
  change EStateM.bind m f s = .ok b s' at h
  unfold EStateM.bind at h
  cases hm : m s with
  | ok a t => rw [hm] at h; exact ⟨a, t, rfl, h⟩
  | error e t => rw [hm] at h; nomatch h

/-- A sequence whose first part ends with a value goes on from there. -/
theorem bind_of_ok {a : α} {t : σ} (h : m s = .ok a t) : (m >>= f) s = f a t := by
  show EStateM.bind m f s = _
  unfold EStateM.bind
  rw [h]

/-- A sequence whose first part ends with an error ends with it. -/
theorem bind_of_error {e : ε} {t : σ} (h : m s = .error e t) : (m >>= f) s = .error e t := by
  show EStateM.bind m f s = _
  unfold EStateM.bind
  rw [h]

end rules

/-! ## Frames -/

/-- The action moves the state along `R`, its values are in `Q` and its errors in `P`. -/
def Frames (R : σ → σ → Prop) (P : ε → Prop) (Q : α → Prop) (m : EStateM ε σ α) : Prop :=
  ∀ s, Ends m s (fun a s' => R s s' ∧ Q a) fun e s' => R s s' ∧ P e

section frames

variable {R : σ → σ → Prop} {P : ε → Prop} {Q : α → Prop} {F : β → Prop} {m : EStateM ε σ α} {f : α → EStateM ε σ β}

/-- A value, within any frame. -/
theorem frames_pure [Std.Refl R] {a : α} (h : Q a) : Frames R P Q (pure a) := fun s => ends_pure ⟨refl_of R s, h⟩

/-- An error, within any frame. -/
theorem frames_throw [Std.Refl R] {e : ε} (h : P e) : Frames R P Q (throw e) := fun s => ends_throw ⟨refl_of R s, h⟩

/-- Programs within a frame, one after the other. -/
theorem frames_bind [IsTrans σ R] (hm : Frames R P Q m) (hf : ∀ a, Q a → Frames R P F (f a)) : Frames R P F (m >>= f) := by
  intro s
  refine ends_bind ((hm s).mono ?_ fun _ _ h => h)
  intro a s' ⟨hR, hQ⟩
  exact (hf a hQ s').mono (fun _ _ h => ⟨trans_of R hR h.1, h.2⟩) fun _ _ h => ⟨trans_of R hR h.1, h.2⟩

/-- The values of a framed program may be said less of. -/
theorem Frames.mono {Q' : α → Prop} (h : Frames R P Q m) (hQ : ∀ a, Q a → Q' a) : Frames R P Q' m :=
  fun s => (h s).mono (fun _ _ h => ⟨h.1, hQ _ h.2⟩) fun _ _ h => h

/-- The frame rule: before an action that can start anywhere, one that moves the state along `R` changes nothing that the
outcomes can tell. -/
theorem Frames.ends_bind (hm : Frames R P Q m) {s : σ} {Qs : β → σ → Prop} {E : ε → σ → Prop}
    (hf : ∀ a s', R s s' → Q a → Ends (f a) s' Qs E) (hE : ∀ e s', R s s' → P e → E e s') : Ends (m >>= f) s Qs E :=
  Effect.ends_bind ((hm s).mono (fun _ _ h => hf _ _ h.1 h.2) fun _ _ h => hE _ _ h.1 h.2)

end frames

/-! ## Two runs -/

/-- The action ends alike from both states: with values related by `Q`, or the same error, in states related by `R`. -/
def Alike (R : σ → σ → Prop) (Q : α → α → Prop) (m m' : EStateM ε σ α) (s s' : σ) : Prop :=
  match m s, m' s' with
  | .ok a t, .ok a' t' => Q a a' ∧ R t t'
  | .error e t, .error e' t' => e = e' ∧ R t t'
  | _, _ => False

section alike

variable {R : σ → σ → Prop} {Q : α → α → Prop} {P : β → β → Prop} {m m' : EStateM ε σ α} {f f' : α → EStateM ε σ β} {s s' : σ}

/-- Two values that are related. -/
theorem alike_pure {a a' : α} (hQ : Q a a') (hR : R s s') : Alike R Q (pure a : EStateM ε σ α) (pure a') s s' :=
  ⟨hQ, hR⟩

/-- The same error on both sides. -/
theorem alike_throw {e : ε} (hR : R s s') : Alike R Q (throw e : EStateM ε σ α) (throw e) s s' := ⟨rfl, hR⟩

/-- Programs alike, one after the other. -/
theorem alike_bind (hm : Alike R Q m m' s s') (hf : ∀ a a' t t', Q a a' → R t t' → Alike R P (f a) (f' a') t t') :
    Alike R P (m >>= f) (m' >>= f') s s' := by
  unfold Alike at hm
  show Alike R P (EStateM.bind m f) (EStateM.bind m' f') s s'
  unfold Alike EStateM.bind
  cases hrun : m s with
  | ok a t =>
    cases hrun' : m' s' with
    | ok a' t' =>
      rw [hrun, hrun'] at hm
      exact hf a a' t t' hm.1 hm.2
    | error e' t' => rw [hrun, hrun'] at hm; exact hm.elim
  | error e t =>
    cases hrun' : m' s' with
    | ok a' t' => rw [hrun, hrun'] at hm; exact hm.elim
    | error e' t' =>
      rw [hrun, hrun'] at hm
      exact hm

/-- The action ends with `r` and leaves the state alone. -/
def Looks (m : EStateM ε σ α) (s : σ) (r : Except ε α) : Prop :=
  m s = match r with
    | .ok a => .ok a s
    | .error e => .error e s

/-- Before the rest of two runs, an action that only looks, and sees the same. -/
theorem alike_look {r : Except ε α} (hm : Looks m s r) (hm' : Looks m' s' r) (hR : ∀ e, r = .error e → R s s')
    (hf : ∀ a, r = .ok a → Alike R P (f a) (f' a) s s') : Alike R P (m >>= f) (m' >>= f') s s' := by
  unfold Looks at hm hm'
  unfold Alike
  cases r with
  | ok a =>
    rw [bind_of_ok hm, bind_of_ok hm']
    exact hf a rfl
  | error e =>
    rw [bind_of_error hm, bind_of_error hm']
    exact ⟨rfl, hR e rfl⟩

/-- Two conditionals on one condition. -/
theorem alike_ite {c : Prop} [Decidable c] {n n' : EStateM ε σ α} (h : c → Alike R Q m m' s s')
    (h' : ¬c → Alike R Q n n' s s') : Alike R Q (if c then m else n) (if c then m' else n') s s' := by
  split
  · exact h ‹_›
  · exact h' ‹_›

/-- A guard that throws. -/
theorem alike_guard {c : Prop} [Decidable c] {e : ε} {g g' : PUnit → EStateM ε σ α} (hR : R s s')
    (h : ¬c → Alike R Q (g ⟨⟩) (g' ⟨⟩) s s') :
    Alike R Q (if c then throw e >>= g else g ⟨⟩) (if c then throw e >>= g' else g' ⟨⟩) s s' :=
  alike_ite (fun _ => alike_bind (alike_throw (Q := fun _ _ => False) hR) fun _ _ _ _ h _ => h.elim) h

/-- The relations may be weakened. -/
theorem Alike.mono {R' : σ → σ → Prop} {Q' : α → α → Prop} (h : Alike R Q m m' s s') (hR : ∀ t t', R t t' → R' t t')
    (hQ : ∀ a a', Q a a' → Q' a a') : Alike R' Q' m m' s s' := by
  unfold Alike at h ⊢
  split at h
  · exact ⟨hQ _ _ h.1, hR _ _ h.2⟩
  · exact ⟨h.1, hR _ _ h.2⟩
  · exact h.elim

end alike

/-! ## Costs -/

/-- Whatever the action ends with, the measure `μ` has grown by at most `k`. -/
def Costs (μ : σ → Nat) (k : Nat) (m : EStateM ε σ α) : Prop :=
  ∀ s, Ends m s (fun _ s' => μ s' ≤ μ s + k) fun _ s' => μ s' ≤ μ s + k

section costs

variable {μ : σ → Nat} {k l : Nat} {m : EStateM ε σ α} {f : α → EStateM ε σ β}

/-- A bound may be raised. -/
theorem Costs.mono (h : Costs μ k m) (hk : k ≤ l) : Costs μ l m := fun s =>
  (h s).mono (fun _ _ h => Nat.le_trans h (Nat.add_le_add_left hk _)) fun _ _ h => Nat.le_trans h (Nat.add_le_add_left hk _)

/-- What a program that succeeds has cost. -/
theorem Costs.ok (h : Costs μ k m) {s s' : σ} {a : α} (hm : m s = .ok a s') : μ s' ≤ μ s + k := (h s).ok hm

/-- What a program that fails has cost. -/
theorem Costs.error (h : Costs μ k m) {s s' : σ} {e : ε} (hm : m s = .error e s') : μ s' ≤ μ s + k := (h s).error hm

/-- A value costs nothing. -/
theorem costs_pure (a : α) : Costs μ k (pure a : EStateM ε σ α) := fun s => ends_pure (Nat.le_add_right (μ s) k)

/-- Nor does an error. -/
theorem costs_throw (e : ε) : Costs μ k (throw e : EStateM ε σ α) := fun s => ends_throw (Nat.le_add_right (μ s) k)

/-- A sequence costs what its parts cost. -/
theorem costs_bind (hm : Costs μ k m) (hf : ∀ a, Costs μ l (f a)) : Costs μ (k + l) (m >>= f) := fun s =>
  ends_bind ((hm s).mono
    (fun a s' h => (hf a s').mono (fun _ _ _ => by omega) fun _ _ _ => by omega)
    fun _ _ h => Nat.le_trans h (by omega))

/-- Before an action that costs nothing the rest decides. -/
theorem costs_bind_free (hm : Costs μ 0 m) (hf : ∀ a, Costs μ l (f a)) : Costs μ l (m >>= f) :=
  (costs_bind hm hf).mono (Nat.le_of_eq (Nat.zero_add l))

/-- After an action only free ones follow. -/
theorem costs_bind_last (hm : Costs μ k m) (hf : ∀ a, Costs μ 0 (f a)) : Costs μ k (m >>= f) := costs_bind hm hf

/-- Both branches within one bound. -/
theorem costs_ite {c : Prop} [Decidable c] {m' : EStateM ε σ α} (h : Costs μ k m) (h' : Costs μ k m') :
    Costs μ k (if c then m else m') := by
  split
  · exact h
  · exact h'

/-- A guard that throws costs nothing. -/
theorem costs_guard {c : Prop} [Decidable c] {e : ε} {f : PUnit → EStateM ε σ α} (hf : Costs μ k (f ⟨⟩)) :
    Costs μ k (if c then throw e >>= f else f ⟨⟩) :=
  costs_ite (costs_bind_free (costs_throw e) fun _ => hf) hf

end costs

end Effect
