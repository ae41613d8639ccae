import Mathlib.Data.Finset.Card
import Mathlib.Data.List.Nodup

/-!
# Chains in a table of links

A table says of each node that it is free, the last of a chain, or linked to another. A chain is determined by its first node and
has no node twice. Where chains that share no node hold all nodes that are not free, replacing one of them by nodes of its own
and free ones, and freeing what it no longer holds, keeps that and moves the number of free nodes by the change of its length.
-/

namespace Chains

universe u v

variable {α : Type u} {ι : Type v}

/-- What a table holds for a node. -/
inductive Cell (α : Type u)
  | free
  | last
  | link (next : α)

/-- The cell of a node before another, or of the last. -/
def Cell.to : Option α → Cell α
  | none => .last
  | some next => .link next

theorem Cell.to_ne_free (a : Option α) : Cell.to a ≠ .free := by
  cases a <;> intro h <;> cases h

/-- A cell says which node follows. -/
theorem Cell.to_inj {a b : Option α} (h : Cell.to a = Cell.to b) : a = b := by
  cases a <;> cases b <;> cases h <;> rfl

/-- Each node of the list is linked to the one after it, and the last is the end. -/
def Chained (T : α → Cell α) (l : List α) : Prop := ∀ i a, l[i]? = some a → T a = Cell.to l[i + 1]?

section

variable {T T' : α → Cell α} {l l' : List α} {a b : α}

theorem chained_nil : Chained T [] := fun _ _ h => absurd h.symm (Option.some_ne_none _)

/-- A chain starts with the link to its rest. -/
theorem chained_cons : Chained T (a :: l) ↔ T a = Cell.to l.head? ∧ Chained T l := by
  constructor
  · intro h
    refine ⟨?_, fun i b hb => h (i + 1) b hb⟩
    rw [List.head?_eq_getElem?]
    exact h 0 a rfl
  · rintro ⟨hhead, h⟩ i b hb
    cases i with
    | zero =>
      cases hb
      rw [hhead, List.head?_eq_getElem?]
      rfl
    | succ i => exact h i b hb

/-- The rest of a chain is one. -/
theorem Chained.drop (h : Chained T l) (n : Nat) : Chained T (l.drop n) := fun i a ha => by
  rw [List.getElem?_drop] at ha ⊢
  exact h (n + i) a ha

/-- No node of a chain is free. -/
theorem Chained.ne_free (h : Chained T l) (ha : a ∈ l) : T a ≠ .free := by
  obtain ⟨i, hi⟩ := List.mem_iff_getElem?.mp ha
  rw [h i a hi]
  exact Cell.to_ne_free _

/-- A table that agrees on the chain has it too. -/
theorem Chained.congr (h : Chained T l) (heq : ∀ a ∈ l, T' a = T a) : Chained T' l := fun i a ha => by
  rw [heq a (List.mem_of_getElem? ha)]
  exact h i a ha

/-- A chain is determined by its first node. -/
theorem Chained.unique (h : Chained T (a :: l)) (h' : Chained T (a :: l')) : l = l' := by
  induction l generalizing a l' with
  | nil =>
    have hcells := (chained_cons.mp h).1.symm.trans (chained_cons.mp h').1
    exact (List.head?_eq_none_iff.mp (Cell.to_inj hcells).symm).symm
  | cons b l ih =>
    have hcells := Cell.to_inj ((chained_cons.mp h).1.symm.trans (chained_cons.mp h').1)
    cases l' with
    | nil => cases hcells
    | cons c l' =>
      obtain rfl : b = c := Option.some.inj hcells
      rw [ih (chained_cons.mp h).2 (chained_cons.mp h').2]

/-- A chain comes by no node twice. -/
theorem Chained.nodup (h : Chained T l) : l.Nodup := by
  induction l with
  | nil => exact List.nodup_nil
  | cons a l ih =>
    refine List.nodup_cons.mpr ⟨fun ha => ?_, ih (chained_cons.mp h).2⟩
    -- from the second occurrence the chain would go on as from the first
    obtain ⟨s, t, rfl⟩ := List.append_of_mem ha
    have htail : Chained T (a :: t) := by simpa using (chained_cons.mp h).2.drop s.length
    have hlen := congrArg List.length (h.unique htail)
    rw [List.length_append, List.length_cons] at hlen
    omega

/-- Two chains that share a node share all that comes after it. -/
theorem Chained.after (h : Chained T l) (h' : Chained T l') {i j : Nat} (hi : l[i]? = some a) (hj : l'[j]? = some a) :
    l.drop (i + 1) = l'.drop (j + 1) := by
  obtain ⟨hlt, rfl⟩ := List.getElem?_eq_some_iff.mp hi
  obtain ⟨hlt', heq⟩ := List.getElem?_eq_some_iff.mp hj
  have hl := h.drop i
  have hl' := h'.drop j
  rw [List.drop_eq_getElem_cons hlt] at hl
  rw [List.drop_eq_getElem_cons hlt', heq] at hl'
  exact hl.unique hl'

/-- A node after the last makes the chain longer. -/
theorem Chained.concat (h : Chained T l) (hnew : T' b = .last) (hlast : ∀ a, l.getLast? = some a → T' a = .link b)
    (hsame : ∀ a ∈ l, l.getLast? ≠ some a → T' a = T a) : Chained T' (l ++ [b]) := by
  have hnodup := h.nodup
  intro i a ha
  by_cases hi : i < l.length
  · rw [List.getElem?_append_left hi] at ha
    by_cases hend : i + 1 = l.length
    · rw [List.getElem?_append_right hend.ge, hend, Nat.sub_self]
      refine hlast a ?_
      rw [List.getLast?_eq_getElem?, ← hend]
      exact ha
    · rw [List.getElem?_append_left (by omega), hsame a (List.mem_of_getElem? ha) fun heq => hend ?_]
      · exact h i a ha
      · rw [List.getLast?_eq_getElem?] at heq
        have hpos := (List.getElem?_inj hi hnodup).mp (ha.trans heq.symm)
        omega
  · rw [List.getElem?_append_right (by omega)] at ha
    obtain ⟨hlt, rfl⟩ := List.getElem?_eq_some_iff.mp ha
    have hi' : i = l.length := by
      rw [List.length_singleton] at hlt
      omega
    subst hi'
    rw [List.getElem?_eq_none (by simp), List.getElem_singleton]
    exact hnew

/-- A chain that ends sooner. -/
theorem Chained.take (h : Chained T l) {n : Nat} (hend : ∀ a, (l.take n).getLast? = some a → T' a = .last)
    (hsame : ∀ a ∈ l.take n, (l.take n).getLast? ≠ some a → T' a = T a) : Chained T' (l.take n) := by
  have hnodup : (l.take n).Nodup := h.nodup.sublist (List.take_sublist n l)
  intro i a ha
  obtain ⟨hi, _⟩ := List.getElem?_eq_some_iff.mp ha
  by_cases hlast : i + 1 = (l.take n).length
  · rw [List.getElem?_eq_none hlast.ge]
    refine hend a ?_
    rw [List.getLast?_eq_getElem?, ← hlast]
    exact ha
  · rw [hsame a (List.mem_of_getElem? ha) fun heq => hlast ?_]
    · have hn : i + 1 < n := by
        have hlen := List.length_take (i := n) (l := l)
        omega
      rw [List.getElem?_take_of_lt hn]
      refine h i a ?_
      rw [List.getElem?_take_of_lt (by omega)] at ha
      exact ha
    · rw [List.getLast?_eq_getElem?] at heq
      have hpos := (List.getElem?_inj hi hnodup).mp (ha.trans heq.symm)
      omega

end

/-! ## Chains that share no node -/

/-- Chains in a domain that share no node and hold all nodes that are not free, but for some that are lost to all. -/
structure Laid (T : α → Cell α) (domain lost : Finset α) (chains : ι → List α) : Prop where
  chained : ∀ i, Chained T (chains i)
  inside : ∀ i, ∀ a ∈ chains i, a ∈ domain
  apart : ∀ i j, i ≠ j → ∀ a ∈ chains i, a ∉ chains j
  used : ∀ a ∈ domain, T a ≠ .free → a ∈ lost ∨ ∃ i, a ∈ chains i
  lost : ∀ a ∈ lost, T a ≠ .free ∧ ∀ i, a ∉ chains i

/-- The free nodes of a domain. -/
def IsFree (T : α → Cell α) (a : α) : Prop := T a = .free

instance (T : α → Cell α) : DecidablePred (IsFree T) := fun a =>
  match h : T a with
  | .free => .isTrue h
  | .last => .isFalse fun hfree => by cases h.symm.trans hfree
  | .link _ => .isFalse fun hfree => by cases h.symm.trans hfree

/-- The number of free nodes of a domain. -/
def freeCount (T : α → Cell α) (domain : Finset α) : Nat := (domain.filter (IsFree T)).card

/-- A list of nodes becomes another of them and of free ones, which is a chain; what it does not keep becomes free. -/
structure Changes (T T' : α → Cell α) (domain : Finset α) (old l : List α) : Prop where
  chained : Chained T' l
  inside : ∀ a ∈ l, a ∈ domain
  taken : ∀ a ∈ l, a ∈ old ∨ T a = .free
  freed : ∀ a ∈ old, a ∉ l → T' a = .free
  same : ∀ a, a ∉ old → a ∉ l → T' a = T a

theorem Changes.refl {T : α → Cell α} {domain : Finset α} {l : List α} (h : Chained T l) (hin : ∀ a ∈ l, a ∈ domain) :
    Changes T T domain l l :=
  ⟨h, hin, fun _ ha => .inl ha, fun _ ha hno => absurd ha hno, fun _ _ _ => rfl⟩

/-- Two changes of one chain. -/
theorem Changes.trans {T T' T'' : α → Cell α} {domain : Finset α} {old mid l : List α} (h : Changes T T' domain old mid)
    (h' : Changes T' T'' domain mid l) : Changes T T'' domain old l := by
  refine ⟨h'.chained, h'.inside, fun a ha => ?_, fun a hold hno => ?_, fun a hold hno => ?_⟩
  · by_cases hmid : a ∈ mid
    · exact h.taken a hmid
    · have hfree := (h'.taken a ha).resolve_left hmid
      by_cases hold : a ∈ old
      · exact .inl hold
      · exact .inr ((h.same a hold hmid).symm.trans hfree)
  · by_cases hmid : a ∈ mid
    · exact h'.freed a hmid hno
    · rw [h'.same a hmid hno, h.freed a hold hmid]
  · by_cases hmid : a ∈ mid
    · rw [h'.freed a hmid hno, (h.taken a hmid).resolve_left hold]
    · rw [h'.same a hmid hno, h.same a hold hmid]

/-- The free nodes change by what the list takes and gives back. -/
theorem Changes.freeCount {T T' : α → Cell α} {domain : Finset α} {old l : List α} (hc : Changes T T' domain old l)
    (hold : Chained T old) (hin : ∀ a ∈ old, a ∈ domain) :
    freeCount T' domain + l.length = freeCount T domain + old.length := by
  classical
  have hfree' : Disjoint (domain.filter (IsFree T')) l.toFinset := by
    refine Finset.disjoint_left.mpr fun a ha hl => ?_
    exact hc.chained.ne_free (List.mem_toFinset.mp hl) (Finset.mem_filter.mp ha).2
  have hfree : Disjoint (domain.filter (IsFree T)) old.toFinset := by
    refine Finset.disjoint_left.mpr fun a ha hl => ?_
    exact hold.ne_free (List.mem_toFinset.mp hl) (Finset.mem_filter.mp ha).2
  have hunion : domain.filter (IsFree T') ∪ l.toFinset = domain.filter (IsFree T) ∪ old.toFinset := by
    ext a
    simp only [Finset.mem_union, Finset.mem_filter, List.mem_toFinset, IsFree]
    constructor
    · rintro (⟨ha, hfree⟩ | hl)
      · by_cases hmem : a ∈ old
        · exact .inr hmem
        · refine .inl ⟨ha, ?_⟩
          rwa [← hc.same a hmem fun hl => hc.chained.ne_free hl hfree]
      · rcases hc.taken a hl with hmem | hfree
        · exact .inr hmem
        · exact .inl ⟨hc.inside a hl, hfree⟩
    · rintro (⟨ha, hfree⟩ | hmem)
      · by_cases hl : a ∈ l
        · exact .inr hl
        · refine .inl ⟨ha, ?_⟩
          rw [hc.same a (fun hmem => hold.ne_free hmem hfree) hl]
          exact hfree
      · by_cases hl : a ∈ l
        · exact .inr hl
        · exact .inl ⟨hin a hmem, hc.freed a hmem hl⟩
  have hcard := congrArg Finset.card hunion
  rw [Finset.card_union_of_disjoint hfree', Finset.card_union_of_disjoint hfree, List.toFinset_card_of_nodup hc.chained.nodup,
    List.toFinset_card_of_nodup hold.nodup] at hcard
  exact hcard

section

variable {T T' : α → Cell α} {domain lost : Finset α} {chains : ι → List α} {i : ι} {l : List α} {a : α}

/-- A node of another chain is neither in the one that changes nor in what it becomes. -/
theorem Laid.not_mem_changes (h : Laid T domain lost chains) (hc : Changes T T' domain (chains i) l) {j : ι} (hj : j ≠ i)
    (ha : a ∈ chains j) : a ∉ chains i ∧ a ∉ l := by
  have hold : a ∉ chains i := h.apart j i hj a ha
  exact ⟨hold, fun hl => (hc.taken a hl).elim hold ((h.chained j).ne_free ha)⟩

/-- What becomes of one chain leaves the others. -/
theorem Laid.same (h : Laid T domain lost chains) (hc : Changes T T' domain (chains i) l) {j : ι} (hj : j ≠ i) (ha : a ∈ chains j) :
    T' a = T a := by
  obtain ⟨hold, hl⟩ := h.not_mem_changes hc hj ha
  exact hc.same a hold hl

/-- A change of one chain keeps all of them apart. -/
theorem Laid.change [DecidableEq ι] (h : Laid T domain lost chains) (hc : Changes T T' domain (chains i) l) :
    Laid T' domain lost (Function.update chains i l) := by
  have hother {j : ι} (hj : j ≠ i) {a : α} (ha : a ∈ chains j) := h.not_mem_changes hc hj ha
  have hmem (j : ι) (a : α) : a ∈ Function.update chains i l j ↔ j = i ∧ a ∈ l ∨ j ≠ i ∧ a ∈ chains j := by
    by_cases hj : j = i
    · subst hj
      simp
    · simp [hj]
  refine ⟨fun j => ?_, fun j a ha => ?_, fun j k hjk a ha hak => ?_, fun a ha hused => ?_, fun a ha => ?_⟩
  · by_cases hj : j = i
    · subst hj
      rw [Function.update_self]
      exact hc.chained
    · rw [Function.update_of_ne hj]
      exact (h.chained j).congr fun a ha => h.same hc hj ha
  · rcases (hmem j a).mp ha with ⟨_, hl⟩ | ⟨_, hj⟩
    · exact hc.inside a hl
    · exact h.inside j a hj
  · rcases (hmem j a).mp ha with ⟨hj, hl⟩ | ⟨hj, hold⟩
    · rcases (hmem k a).mp hak with ⟨hk, _⟩ | ⟨hk, hold⟩
      · exact hjk (hj.trans hk.symm)
      · exact (hother hk hold).2 hl
    · rcases (hmem k a).mp hak with ⟨_, hl⟩ | ⟨_, hold'⟩
      · exact (hother hj hold).2 hl
      · exact h.apart j k hjk a hold hold'
  · by_cases hl : a ∈ l
    · exact .inr ⟨i, (hmem i a).mpr (.inl ⟨rfl, hl⟩)⟩
    · have hold : a ∉ chains i := fun hold => hused (hc.freed a hold hl)
      rw [hc.same a hold hl] at hused
      rcases h.used a ha hused with hlost | ⟨j, hj⟩
      · exact .inl hlost
      · exact .inr ⟨j, (hmem j a).mpr (.inr ⟨fun heq => hold (heq ▸ hj), hj⟩)⟩
  · obtain ⟨hused, hout⟩ := h.lost a ha
    have hl : a ∉ l := fun hl => (hc.taken a hl).elim (hout i) hused
    refine ⟨by rwa [hc.same a (hout i) hl], fun j hj => ?_⟩
    rcases (hmem j a).mp hj with ⟨_, hl'⟩ | ⟨_, hold⟩
    · exact hl hl'
    · exact hout j hold

end

end Chains
