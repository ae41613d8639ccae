import Mathlib.Data.List.Basic

/-!
# Lists cut into chunks

`chunks n l` cuts `l` into pieces of `n` cells, the last one shorter when `n` does not divide the length.
-/

namespace Chunks

variable {α : Type*}

/-- The pieces of `n` cells of a list, in order. -/
def chunks (n : ℕ) (l : List α) : List (List α) :=
  (List.range ((l.length + (n - 1)) / n)).map fun i => (l.drop (i * n)).take n

@[simp] theorem chunks_nil (n : ℕ) : chunks n ([] : List α) = [] := by
  have h : (n - 1) / n = 0 := Nat.div_eq_zero_iff.mpr (by omega)
  simp [chunks, h]

/-- A list that is not empty is its first chunk and the chunks of the rest. -/
theorem chunks_of_ne_nil {n : ℕ} (hn : 0 < n) {l : List α} (hl : l ≠ []) :
    chunks n l = l.take n :: chunks n (l.drop n) := by
  have hpos : 0 < l.length := List.length_pos_iff.mpr hl
  have hcount : (l.length + (n - 1)) / n = ((l.drop n).length + (n - 1)) / n + 1 := by
    rw [List.length_drop]
    rcases Nat.le_total n l.length with h | h
    · rw [← Nat.add_div_right _ hn]
      congr 1
      omega
    · rw [Nat.sub_eq_zero_of_le h, Nat.zero_add, Nat.div_eq_of_lt (Nat.sub_lt hn Nat.one_pos), Nat.zero_add]
      exact Nat.div_eq_of_lt_le (by omega) (by omega)
  rw [chunks, chunks, hcount, List.range_succ_eq_map, List.map_cons, List.map_map, Nat.zero_mul, List.drop_zero]
  congr 1
  apply List.map_congr_left
  intro i _
  simp only [Function.comp_apply, List.drop_drop, Nat.succ_mul, Nat.add_comm]

/-- Induction on a list chunk by chunk. -/
theorem induction {n : ℕ} (hn : 0 < n) {P : List α → Prop} (nil : P [])
    (step : ∀ l, l ≠ [] → P (l.drop n) → P l) (l : List α) : P l := by
  induction hk : l.length using Nat.strongRecOn generalizing l with
  | ind k ih =>
    by_cases hl : l = []
    · exact hl ▸ nil
    · have hpos : 0 < l.length := List.length_pos_iff.mpr hl
      exact step l hl (ih _ (by rw [List.length_drop]; omega) (l.drop n) rfl)

/-- The chunks put end to end are the list. -/
theorem flatten_chunks {n : ℕ} (hn : 0 < n) (l : List α) : (chunks n l).flatten = l := by
  refine induction (P := fun l => (chunks n l).flatten = l) hn (by simp) (fun l hl ih => ?_) l
  rw [chunks_of_ne_nil hn hl, List.flatten_cons, ih, List.take_append_drop]

/-- No chunk is empty or longer than `n`. -/
theorem length_of_mem_chunks {n : ℕ} (hn : 0 < n) (l : List α) : ∀ c ∈ chunks n l, 0 < c.length ∧ c.length ≤ n := by
  refine induction (P := fun l => ∀ c ∈ chunks n l, 0 < c.length ∧ c.length ≤ n) hn (by simp) (fun l hl ih => ?_) l
  intro c hc
  rw [chunks_of_ne_nil hn hl] at hc
  rcases List.mem_cons.mp hc with rfl | hc
  · have hpos : 0 < l.length := List.length_pos_iff.mpr hl
    rw [List.length_take]
    omega
  · exact ih c hc

/-- When `n` divides the length, every chunk has `n` cells. -/
theorem length_of_mem_chunks_of_dvd {n : ℕ} (hn : 0 < n) {l : List α} (hd : n ∣ l.length) :
    ∀ c ∈ chunks n l, c.length = n := by
  refine induction (P := fun l => n ∣ l.length → ∀ c ∈ chunks n l, c.length = n) hn (by simp) (fun l hl ih hd => ?_) l hd
  have hle : n ≤ l.length := Nat.le_of_dvd (List.length_pos_iff.mpr hl) hd
  intro c hc
  rw [chunks_of_ne_nil hn hl] at hc
  rcases List.mem_cons.mp hc with rfl | hc
  · exact List.length_take_of_le hle
  · exact ih (by rw [List.length_drop]; exact Nat.dvd_sub hd (Nat.dvd_refl n)) c hc

/-- The chunks of a list whose first part is a whole number of chunks. -/
theorem chunks_append {n : ℕ} (hn : 0 < n) {l : List α} (m : List α) (hd : n ∣ l.length) :
    chunks n (l ++ m) = chunks n l ++ chunks n m := by
  refine induction (P := fun l => n ∣ l.length → chunks n (l ++ m) = chunks n l ++ chunks n m) hn (by simp)
    (fun l hl ih hd => ?_) l hd
  have hle : n ≤ l.length := Nat.le_of_dvd (List.length_pos_iff.mpr hl) hd
  rw [chunks_of_ne_nil hn (by simp [hl]), chunks_of_ne_nil hn hl, List.take_append_of_le_length hle,
    List.drop_append_of_le_length hle, ih (by rw [List.length_drop]; exact Nat.dvd_sub hd (Nat.dvd_refl n)), List.cons_append]

/-- In a partition of distinct elements each is in exactly one piece. -/
theorem countP_mem_of_nodup_flatten [BEq α] [LawfulBEq α] {pieces : List (List α)} (h : pieces.flatten.Nodup) {a : α}
    (ha : a ∈ pieces.flatten) : pieces.countP (a ∈ ·) = 1 := by
  induction pieces with
  | nil => nomatch ha
  | cons piece pieces ih =>
    rw [List.flatten_cons, List.nodup_append] at h
    obtain ⟨-, hrest, hdisjoint⟩ := h
    rw [List.flatten_cons, List.mem_append] at ha
    rw [List.countP_cons]
    by_cases hpiece : a ∈ piece
    · have hnone : pieces.countP (a ∈ ·) = 0 := by
        rw [List.countP_eq_zero]
        intro other hother hmem
        exact hdisjoint a hpiece a (List.mem_flatten.mpr ⟨other, hother, of_decide_eq_true hmem⟩) rfl
      simp [hpiece, hnone]
    · simp [hpiece, ih hrest (ha.resolve_left hpiece)]

end Chunks
