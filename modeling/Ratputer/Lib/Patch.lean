import Mathlib.Data.List.Basic
import Mathlib.Data.List.GetD

/-!
# Reading and overwriting ranges

An image is a function from addresses to cells. `window f p n` reads `n` cells from address `p`; `patch f p d` overwrites the
cells from `p` on with the list `d`. `writeAt z l p d` is the same on a list that grows: it fills up to `p` with `z`, then
overwrites, and keeps the tail.
-/

namespace Patch

variable {α : Type*}

/-- The `n` cells of an image from address `p` on. -/
def window (f : ℕ → α) (p n : ℕ) : List α := (List.range n).map fun i => f (p + i)

/-- An image with the cells from `p` on replaced by `d`. -/
def patch (f : ℕ → α) (p : ℕ) (d : List α) : ℕ → α :=
  fun a => if h : p ≤ a ∧ a < p + d.length then d.get ⟨a - p, by omega⟩ else f a

@[simp] theorem length_window (f : ℕ → α) (p n : ℕ) : (window f p n).length = n := by simp [window]

@[simp] theorem getElem_window (f : ℕ → α) (p n i : ℕ) (h : i < (window f p n).length) : (window f p n)[i] = f (p + i) := by
  simp [window]

@[simp] theorem window_zero (f : ℕ → α) (p : ℕ) : window f p 0 = [] := rfl

/-- A list is the window of an image as soon as it agrees with it cell by cell. -/
theorem eq_window {f : ℕ → α} {p : ℕ} {l : List α} (h : ∀ i (hi : i < l.length), l[i] = f (p + i)) :
    l = window f p l.length := by
  apply List.ext_getElem (by simp)
  intro i h1 h2
  rw [getElem_window, h i h1]

/-- A window is its first part followed by the window after it. -/
theorem window_add (f : ℕ → α) (p m n : ℕ) : window f p (m + n) = window f p m ++ window f (p + m) n := by
  apply List.ext_getElem (by simp)
  intro i h1 h2
  rw [getElem_window]
  by_cases hi : i < m
  · rw [List.getElem_append_left (by simpa using hi), getElem_window]
  · rw [List.getElem_append_right (by simpa using hi), getElem_window]
    congr 1
    simp only [length_window]
    omega

@[simp] theorem window_one (f : ℕ → α) (p : ℕ) : window f p 1 = [f p] := rfl

/-- The first cells of a window are a window. -/
theorem take_window (f : ℕ → α) (p : ℕ) {m n : ℕ} (h : m ≤ n) : (window f p n).take m = window f p m := by
  obtain ⟨k, rfl⟩ := Nat.exists_eq_add_of_le h
  rw [window_add, List.take_left' (by simp)]

/-- The last cells of a window are a window. -/
theorem drop_window (f : ℕ → α) (p m n : ℕ) : (window f p n).drop m = window f (p + m) (n - m) := by
  rcases Nat.le_total m n with h | h
  · obtain ⟨k, rfl⟩ := Nat.exists_eq_add_of_le h
    rw [window_add, List.drop_left' (by simp), Nat.add_sub_cancel_left]
  · rw [List.drop_of_length_le (by simpa using h), Nat.sub_eq_zero_of_le h, window_zero]

/-- Images that agree on a range have the same window there. -/
theorem window_congr {f g : ℕ → α} {p n : ℕ} (h : ∀ a, p ≤ a → a < p + n → f a = g a) : window f p n = window g p n := by
  apply List.ext_getElem (by simp)
  intro i h1 h2
  simp only [length_window] at h1
  rw [getElem_window, getElem_window, h _ (by omega) (by omega)]

/-- Outside the patched range nothing changes. -/
theorem patch_of_not_mem (f : ℕ → α) {p a : ℕ} {d : List α} (h : a < p ∨ p + d.length ≤ a) : patch f p d a = f a := by
  rw [patch, dif_neg (by omega)]

/-- Inside the patched range the cells are those of the list. -/
theorem patch_of_mem (f : ℕ → α) {p a : ℕ} {d : List α} (h1 : p ≤ a) (h2 : a < p + d.length) :
    patch f p d a = d[a - p] := by
  rw [patch, dif_pos ⟨h1, h2⟩]
  rfl

@[simp] theorem patch_nil (f : ℕ → α) (p : ℕ) : patch f p [] = f := by
  funext a
  exact patch_of_not_mem f (by simp; omega)

/-- Patching a range and then the range after it is patching both at once. -/
theorem patch_patch_append (f : ℕ → α) (p : ℕ) (d e : List α) :
    patch (patch f p d) (p + d.length) e = patch f p (d ++ e) := by
  funext a
  by_cases h1 : p + d.length ≤ a ∧ a < p + d.length + e.length
  · rw [patch_of_mem _ h1.1 h1.2, patch_of_mem f (by omega) (by simp; omega),
      List.getElem_append_right (by omega)]
    congr 1
    omega
  · rw [patch_of_not_mem _ (by omega)]
    by_cases h2 : p ≤ a ∧ a < p + d.length
    · rw [patch_of_mem f h2.1 h2.2, patch_of_mem f h2.1 (by simp; omega), List.getElem_append_left (by omega)]
    · rw [patch_of_not_mem f (by omega), patch_of_not_mem f (by simp; omega)]

/-- Writing back what was read changes nothing. -/
@[simp] theorem patch_window (f : ℕ → α) (p n : ℕ) : patch f p (window f p n) = f := by
  funext a
  by_cases h : p ≤ a ∧ a < p + n
  · rw [patch_of_mem f h.1 (by simpa using h.2), getElem_window]
    congr 1
    omega
  · exact patch_of_not_mem f (by simp; omega)

/-- Reading back the range just written gives the list written. -/
@[simp] theorem window_patch (f : ℕ → α) (p : ℕ) (d : List α) : window (patch f p d) p d.length = d := by
  symm
  apply eq_window
  intro i hi
  rw [patch_of_mem f (by omega) (by omega)]
  congr 1
  omega

/-- A patch cut short leaves every cell as it was or as the whole patch leaves it. -/
theorem patch_take (f : ℕ → α) (p : ℕ) (d : List α) (n a : ℕ) :
    patch f p (d.take n) a = f a ∨ patch f p (d.take n) a = patch f p d a := by
  by_cases h : p ≤ a ∧ a < p + (d.take n).length
  · have hlen : (d.take n).length ≤ d.length := List.length_take_le' ..
    rw [patch_of_mem f h.1 h.2, patch_of_mem f h.1 (by omega), List.getElem_take]
    exact Or.inr rfl
  · exact Or.inl (patch_of_not_mem f (by omega))

/-- A window beside the patched range is the old window. -/
theorem window_patch_of_disjoint (f : ℕ → α) {p q n : ℕ} {d : List α} (h : q + n ≤ p ∨ p + d.length ≤ q) :
    window (patch f p d) q n = window f q n :=
  window_congr fun a h1 h2 => patch_of_not_mem f (by omega)

/-- Writing back what was read beside the patched range changes nothing more. -/
theorem patch_window_of_disjoint (f : ℕ → α) {p q n : ℕ} {d : List α} (h : q + n ≤ p ∨ p + d.length ≤ q) :
    patch (patch f p d) q (window f q n) = patch f p d := by
  rw [← window_patch_of_disjoint f h, patch_window]

/-! ## Lists that grow -/

/-- `l` with the cells from `p` on replaced by `d`: the gap, if `p` lies past the end, is filled with `z`, and the cells
behind `p + d.length` stay. -/
def writeAt (z : α) (l : List α) (p : ℕ) (d : List α) : List α :=
  (l ++ List.replicate (p - l.length) z).take p ++ d ++ l.drop (p + d.length)

/-- Cut to `n` cells, or filled up to `n` cells with `z`. -/
def resize (z : α) (l : List α) (n : ℕ) : List α := l.take n ++ List.replicate (n - l.length) z

theorem length_writeAt (z : α) (l : List α) (p : ℕ) (d : List α) :
    (writeAt z l p d).length = max l.length (p + d.length) := by
  simp only [writeAt, List.length_append, List.length_take, List.length_replicate, List.length_drop]
  omega

@[simp] theorem length_resize (z : α) (l : List α) (n : ℕ) : (resize z l n).length = n := by
  simp only [resize, List.length_append, List.length_take, List.length_replicate]
  omega

/-- Writing at the end is appending. -/
theorem writeAt_length (z : α) (l d : List α) : writeAt z l l.length d = l ++ d := by
  simp [writeAt]

/-- Writing inside the list needs no filling. -/
theorem writeAt_of_le (z : α) {l : List α} {p : ℕ} (d : List α) (h : p ≤ l.length) :
    writeAt z l p d = l.take p ++ d ++ l.drop (p + d.length) := by
  simp [writeAt, Nat.sub_eq_zero_of_le h]

@[simp] theorem resize_length (z : α) (l : List α) : resize z l l.length = l := by simp [resize]

theorem resize_of_ge (z : α) {l : List α} {n : ℕ} (h : l.length ≤ n) :
    resize z l n = l ++ List.replicate (n - l.length) z := by
  rw [resize, List.take_of_length_le h]

/-- Filling a list and then filling it further is filling it once. -/
theorem resize_resize (z : α) {l : List α} {m n : ℕ} (h1 : l.length ≤ m) (h2 : m ≤ n) :
    resize z (resize z l m) n = resize z l n := by
  have hsum : m - l.length + (n - m) = n - l.length := by omega
  rw [resize_of_ge z (by simpa using h2), length_resize, resize_of_ge z h1, resize_of_ge z (by omega), List.append_assoc,
    List.replicate_append_replicate, hsum]

/-- A write past the end is a fill up to its offset, then a write. -/
theorem writeAt_resize (z : α) {l : List α} {p : ℕ} (d : List α) (h : l.length ≤ p) :
    writeAt z (resize z l p) p d = writeAt z l p d := by
  rw [writeAt_of_le z d (by simp), resize_of_ge z h, writeAt, List.take_of_length_le (by simp; omega),
    List.drop_of_length_le (by simp; omega), List.drop_of_length_le (by omega)]

/-- Two writes side by side are one write of both parts. -/
theorem writeAt_append (z : α) {l : List α} {p : ℕ} (d e : List α) (h : p ≤ l.length) :
    writeAt z (writeAt z l p d) (p + d.length) e = writeAt z l p (d ++ e) := by
  rw [writeAt_of_le z e (by rw [length_writeAt]; omega), writeAt_of_le z d h, writeAt_of_le z _ h]
  have h1 : (l.take p ++ d ++ l.drop (p + d.length)).take (p + d.length) = l.take p ++ d := by
    have hlen : (l.take p ++ d).length = p + d.length := by
      rw [List.length_append, List.length_take, Nat.min_eq_left h]
    rw [List.take_append_of_le_length (Nat.le_of_eq hlen.symm), List.take_of_length_le (Nat.le_of_eq hlen)]
  have h2 : (l.take p ++ d ++ l.drop (p + d.length)).drop (p + d.length + e.length) =
      l.drop (p + d.length + e.length) := by
    rw [List.drop_append, List.drop_of_length_le (by simp; omega), List.nil_append, List.drop_drop]
    congr 1
    simp only [List.length_append, List.length_take]
    omega
  rw [h1, h2, List.append_assoc (l.take p) d e, List.length_append, Nat.add_assoc p]

/-- The same wherever the writes start: the gap before the first is filled by it. -/
theorem writeAt_writeAt (z : α) (l : List α) (p : ℕ) (d e : List α) :
    writeAt z (writeAt z l p d) (p + d.length) e = writeAt z l p (d ++ e) := by
  rcases Nat.le_total p l.length with h | h
  · exact writeAt_append z d e h
  · rw [← writeAt_resize z d h, ← writeAt_resize z (d ++ e) h]
    exact writeAt_append z d e (Nat.le_of_eq (length_resize z l p).symm)

/-- Beside the range that is written the cells stay. -/
theorem getElem?_writeAt_of_outside (z : α) {l : List α} {p : ℕ} (d : List α) {i : ℕ} (hi : i < l.length)
    (h : i < p ∨ p + d.length ≤ i) : (writeAt z l p d)[i]? = l[i]? := by
  unfold writeAt
  rcases h with h | h
  · rw [List.append_assoc, List.getElem?_append_left (by simp; omega), List.getElem?_take_of_lt h,
      List.getElem?_append_left hi]
  · have hlen : ((l ++ List.replicate (p - l.length) z).take p ++ d).length = p + d.length := by
      simp only [List.length_append, List.length_take, List.length_replicate]
      omega
    rw [List.getElem?_append_right (by omega), hlen, List.getElem?_drop]
    congr 1
    omega

theorem getElem?_resize_of_lt (z : α) {l : List α} {n i : ℕ} (hi : i < l.length) (h : l.length ≤ n) :
    (resize z l n)[i]? = l[i]? := by
  rw [resize_of_ge z h, List.getElem?_append_left hi]

/-- Filling cells written at the end are a fill. -/
theorem writeAt_replicate (z : α) (l : List α) (k : ℕ) :
    writeAt z l l.length (List.replicate k z) = resize z l (l.length + k) := by
  rw [writeAt_length, resize_of_ge z (Nat.le_add_right _ _), Nat.add_sub_cancel_left]

end Patch
