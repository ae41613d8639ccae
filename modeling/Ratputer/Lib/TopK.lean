import Mathlib.Data.List.Dedup
import Mathlib.Data.List.Perm.Subperm
import Mathlib.Order.Lattice

/-!
# The best of a stream, kept in a short list

Elements have a key and a value. `Top k all kept` says that `kept` holds the `k` keys of largest value in `all`, each once with its
largest value, in descending order. It survives a merge: the maxima of what was kept and of new elements, sorted and cut to `k`
again, are the top of everything, although what was cut before is gone. A key that was cut has `k` better ones, and these stay
better.
-/

namespace TopK

variable {α κ ν : Type*} [LinearOrder ν] (key : α → κ) (value : α → ν)

/-- The element has its key's largest value. -/
structure IsMax (all : List α) (a : α) : Prop where
  attained : ∃ r ∈ all, key r = key a ∧ value r = value a
  le : ∀ r ∈ all, key r = key a → value r ≤ value a

/-- Every key once, with its largest value. -/
structure Maxima (all l : List α) : Prop where
  nodup : (l.map key).Nodup
  isMax : ∀ a ∈ l, IsMax key value all a
  covers : ∀ r ∈ all, key r ∈ l.map key

variable {key value}

/-- One more element, which is no better. -/
theorem IsMax.append {all : List α} {a r : α} (h : IsMax key value all a) (hr : key r = key a → value r ≤ value a) :
    IsMax key value (all ++ [r]) a := by
  obtain ⟨⟨r', hr', hkey, hvalue⟩, hle⟩ := h
  refine ⟨⟨r', List.mem_append_left _ hr', hkey, hvalue⟩, fun s hs hkey => ?_⟩
  rcases List.mem_append.mp hs with hs | hs
  · exact hle s hs hkey
  · obtain rfl := List.mem_singleton.mp hs
    exact hr hkey

/-- A list of distinct keys is its own maxima. -/
theorem Maxima.of_nodup {l : List α} (h : (l.map key).Nodup) : Maxima key value l l where
  nodup := h
  isMax a ha := ⟨⟨a, ha, rfl, rfl⟩, fun _ hr hkey => le_of_eq (congrArg value (List.inj_on_of_nodup_map h hr ha hkey))⟩
  covers _ hr := List.mem_map_of_mem hr

/-- The maxima in another order. -/
theorem Maxima.perm {all l l' : List α} (h : Maxima key value all l) (hperm : l'.Perm l) : Maxima key value all l' where
  nodup := (hperm.map key).nodup_iff.mpr h.nodup
  isMax a ha := h.isMax a (hperm.mem_iff.mp ha)
  covers r hr := (hperm.map key).mem_iff.mpr (h.covers r hr)

/-- Distinct keys of a list are at most as many as the keys of one that has them. -/
theorem length_le_of_keys {l l' : List α} (h : (l.map key).Nodup) (hsub : ∀ a ∈ l, key a ∈ l'.map key) : l.length ≤ l'.length := by
  have hle := (List.Nodup.subperm h fun x hx => by
    obtain ⟨a, ha, rfl⟩ := List.mem_map.mp hx
    exact hsub a ha : (l.map key).Subperm (l'.map key)).length_le
  rwa [List.length_map, List.length_map] at hle

/-- More elements behind both lists. -/
theorem append_subset_append {l l' : List κ} (h : l ⊆ l') (m : List κ) : l ++ m ⊆ l' ++ m :=
  List.append_subset.mpr ⟨List.Subset.trans h (List.subset_append_left l' m), List.subset_append_right l' m⟩

section top

variable (key value) [DecidableEq κ]

/-- The `k` keys of largest value (ties at the cut in any way), with their largest values, in descending order. -/
structure Top (k : ℕ) (all kept : List α) : Prop where
  nodup : (kept.map key).Nodup
  sorted : kept.Pairwise fun a b => value b ≤ value a
  isMax : ∀ a ∈ kept, IsMax key value all a
  largest : ∀ r ∈ all, key r ∉ kept.map key → ∀ a ∈ kept, value r ≤ value a
  length : kept.length = min k (all.map key).dedup.length

variable {key value}

theorem top_nil (k : ℕ) : Top key value k ([] : List α) [] where
  nodup := List.nodup_nil
  sorted := List.Pairwise.nil
  isMax a h := by nomatch h
  largest r h := by nomatch h
  length := by simp

/-- The maxima have as many elements as there are keys. -/
theorem Maxima.length_eq {all l : List α} (h : Maxima key value all l) : l.length = (all.map key).dedup.length := by
  have hperm : (l.map key).Perm (all.map key).dedup := by
    refine (List.perm_ext_iff_of_nodup h.nodup (List.nodup_dedup _)).mpr fun x => ?_
    rw [List.mem_dedup]
    constructor
    · intro hx
      obtain ⟨a, ha, rfl⟩ := List.mem_map.mp hx
      obtain ⟨r, hr, hkey, -⟩ := (h.isMax a ha).attained
      exact hkey ▸ List.mem_map_of_mem hr
    · intro hx
      obtain ⟨r, hr, rfl⟩ := List.mem_map.mp hx
      exact h.covers r hr
  rw [← hperm.length_eq, List.length_map]

/-- A list has no more distinct elements than one that has them all. -/
theorem length_dedup_le {l l' : List κ} (h : l ⊆ l') : l.dedup.length ≤ l'.dedup.length :=
  (List.Nodup.subperm (List.nodup_dedup l) fun _ hx => List.mem_dedup.mpr (h (List.mem_dedup.mp hx))).length_le

section merge

variable {k : ℕ} {all kept new merged sorted : List α}

/-- A key that is not kept has `k` better ones. -/
theorem Top.full (h : Top key value k all kept) {r : α} (hr : r ∈ all) (hout : key r ∉ kept.map key) : kept.length = k := by
  have hlt : kept.length < (all.map key).dedup.length := by
    have hcons : ((r :: kept).map key).Nodup := List.nodup_cons.mpr ⟨hout, h.nodup⟩
    have hsub : (r :: kept).map key ⊆ (all.map key).dedup := by
      intro x hx
      rw [List.mem_dedup]
      rcases List.mem_cons.mp hx with rfl | hx
      · exact List.mem_map_of_mem hr
      · obtain ⟨a, ha, rfl⟩ := List.mem_map.mp hx
        obtain ⟨r', hr', hkey, -⟩ := (h.isMax a ha).attained
        exact hkey ▸ List.mem_map_of_mem hr'
    have hle := (List.Nodup.subperm hcons hsub).length_le
    rwa [List.map_cons, List.length_cons, List.length_map] at hle
  have hlength := h.length
  omega

/-- An element of the cut list is before one of the rest, so its value is no smaller. -/
theorem le_of_cut (hsorted : sorted.Pairwise fun a b => value b ≤ value a) {a b : α} (ha : a ∈ sorted.take k)
    (hb : b ∈ sorted.drop k) : value b ≤ value a := by
  rw [← List.take_append_drop k sorted, List.pairwise_append] at hsorted
  exact hsorted.2.2 a ha b hb

/-- What was cut before is no better than what is kept now. -/
theorem Top.cut_le (h : Top key value k all kept) (hmerged : Maxima key value (kept ++ new) merged) (hperm : sorted.Perm merged)
    (hsorted : sorted.Pairwise fun a b => value b ≤ value a) {r : α} (hr : r ∈ all) (hout : key r ∉ kept.map key) :
    ∀ a ∈ sorted.take k, value r ≤ value a := by
  intro a ha
  by_contra hlt
  rw [not_le] at hlt
  obtain ⟨pre, post, hsplit⟩ := List.append_of_mem ha
  -- The `k` keys that were kept are in front of `a`, where there is room for fewer.
  have hfront : ∀ b ∈ kept, key b ∈ pre.map key := by
    intro b hb
    obtain ⟨c, hc, hkey⟩ := List.mem_map.mp (hmerged.covers b (List.mem_append_left _ hb))
    have hvalue : value a < value c :=
      (hlt.trans_le (h.largest r hr hout b hb)).trans_le ((hmerged.isMax c hc).le b (List.mem_append_left _ hb) hkey.symm)
    have hmem : c ∈ sorted.take k := by
      have hc' := hperm.mem_iff.mpr hc
      rw [← List.take_append_drop k sorted] at hc'
      exact (List.mem_append.mp hc').resolve_right fun hdrop => absurd (le_of_cut hsorted ha hdrop) (not_le.mpr hvalue)
    have htake : (sorted.take k).Pairwise fun a b => value b ≤ value a := hsorted.sublist (List.take_sublist k sorted)
    rw [hsplit] at hmem htake
    rcases List.mem_append.mp hmem with hpre | hmem
    · exact hkey ▸ List.mem_map_of_mem hpre
    · rcases List.mem_cons.mp hmem with rfl | hpost
      · exact absurd hvalue (lt_irrefl _)
      · exact absurd ((List.pairwise_cons.mp (List.pairwise_append.mp htake).2.1).1 c hpost) (not_le.mpr hvalue)
  have hle := length_le_of_keys h.nodup hfront
  have hfull := h.full hr hout
  have hlen := congrArg List.length hsplit
  rw [List.length_append, List.length_cons] at hlen
  have := List.length_take_le k sorted
  omega

/-- Merging new elements into the top, sorting and cutting again gives the top of everything. -/
theorem Top.merge (h : Top key value k all kept) (hmerged : Maxima key value (kept ++ new) merged) (hperm : sorted.Perm merged)
    (hsorted : sorted.Pairwise fun a b => value b ≤ value a) : Top key value k (all ++ new) (sorted.take k) := by
  have hmax := hmerged.perm hperm
  have hsub : (sorted.take k).Sublist sorted := List.take_sublist k sorted
  -- Every element so far is no better than the merged one of its key, if that key was not cut before.
  have hle : ∀ r ∈ all ++ new, (r ∈ all ∧ key r ∉ kept.map key) ∨ ∃ c ∈ sorted, key c = key r ∧ value r ≤ value c := by
    intro r hr
    rcases List.mem_append.mp hr with hr | hr
    · by_cases hin : key r ∈ kept.map key
      · obtain ⟨b, hb, hkey⟩ := List.mem_map.mp hin
        obtain ⟨c, hc, hkey'⟩ := List.mem_map.mp (hmax.covers b (List.mem_append_left _ hb))
        have h1 := (h.isMax b hb).le r hr hkey.symm
        have h2 := (hmax.isMax c hc).le b (List.mem_append_left _ hb) hkey'.symm
        exact .inr ⟨c, hc, hkey'.trans hkey, h1.trans h2⟩
      · exact .inl ⟨hr, hin⟩
    · obtain ⟨c, hc, hkey⟩ := List.mem_map.mp (hmax.covers r (List.mem_append_right _ hr))
      exact .inr ⟨c, hc, hkey, (hmax.isMax c hc).le r (List.mem_append_right _ hr) hkey.symm⟩
  refine ⟨(hsub.map key).nodup hmax.nodup, hsorted.sublist hsub, fun a ha => ⟨?_, fun r hr hkey => ?_⟩, fun r hr hout a ha => ?_, ?_⟩
  · obtain ⟨r, hr, hkey, hvalue⟩ := (hmax.isMax a (hsub.subset ha)).attained
    rcases List.mem_append.mp hr with hr | hr
    · obtain ⟨r', hr', hkey', hvalue'⟩ := (h.isMax r hr).attained
      exact ⟨r', List.mem_append_left _ hr', hkey'.trans hkey, hvalue'.trans hvalue⟩
    · exact ⟨r, List.mem_append_right _ hr, hkey, hvalue⟩
  · rcases hle r hr with ⟨hall, hcut⟩ | ⟨c, hc, hkey', hvalue⟩
    · exact h.cut_le hmerged hperm hsorted hall hcut a ha
    · obtain rfl := List.inj_on_of_nodup_map hmax.nodup hc (hsub.subset ha) (hkey'.trans hkey)
      exact hvalue
  · rcases hle r hr with ⟨hall, hcut⟩ | ⟨c, hc, hkey', hvalue⟩
    · exact h.cut_le hmerged hperm hsorted hall hcut a ha
    · have hdrop : c ∈ sorted.drop k := by
        rw [← List.take_append_drop k sorted] at hc
        exact (List.mem_append.mp hc).resolve_left fun htake => hout (hkey' ▸ List.mem_map_of_mem htake)
      exact hvalue.trans (le_of_cut hsorted ha hdrop)
  · rw [List.length_take, hmax.length_eq, List.map_append, List.map_append]
    have hkept : kept.map key ⊆ all.map key := by
      intro x hx
      obtain ⟨a, ha, rfl⟩ := List.mem_map.mp hx
      obtain ⟨r, hr, hkey, -⟩ := (h.isMax a ha).attained
      exact hkey ▸ List.mem_map_of_mem hr
    have hmore := length_dedup_le (append_subset_append hkept (new.map key))
    by_cases hfull : kept.length = k
    · -- With `k` keys kept there are `k` now, and `k` among everything.
      have hk := length_dedup_le (List.subset_append_left (kept.map key) (new.map key))
      rw [List.dedup_eq_self.mpr h.nodup, List.length_map] at hk
      omega
    · -- With fewer, nothing was cut.
      have hall : all.map key ⊆ kept.map key := by
        intro x hx
        obtain ⟨r, hr, rfl⟩ := List.mem_map.mp hx
        by_contra hout
        exact hfull (h.full hr hout)
      have hless := length_dedup_le (append_subset_append hall (new.map key))
      omega

end merge

end top

end TopK
