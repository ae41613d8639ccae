import Ratputer.Fat32
import Mathlib.Order.Interval.Finset.Nat
import Mathlib.Data.List.Induction

/-!
# The table as chains

An entry of the table read as a cell, and the routines of the driver as changes of chains: what a step along a chain finds, what a
search takes, and what freeing and cutting a chain give back.
-/

namespace Ratputer.Fat32

open Chains

/-- What an entry of the table says. -/
def cellOf (entry : Nat) : Cell Nat :=
  if isEndOfChain entry then .last else if entry = FREE_CLUSTER then .free else .link entry

def FatVolume.cell (v : FatVolume) (cluster : Nat) : Cell Nat := cellOf (v.readClus cluster)

/-- The data clusters of a volume. -/
def clusters (g : Geometry) : Finset Nat := Finset.Icc FIRST_DATA_CLUSTER g.maxCluster

variable {g : Geometry} {v : FatVolume} {l : List Nat} {c : Nat}

/-- Clusters are numbered from two. -/
theorem mem_clusters : c ∈ clusters g ↔ 2 ≤ c ∧ c ≤ g.maxCluster := Finset.mem_Icc

/-- Cluster numbers lie below the mark for bad clusters. -/
theorem lt_of_mem_clusters (h : c ∈ clusters g) : 2 ≤ c ∧ c < BAD_CLUSTER := by
  obtain ⟨hlo, hhi⟩ := mem_clusters.mp h
  exact ⟨hlo, Nat.lt_of_le_of_lt hhi g.maxCluster_lt⟩

/-- There are fewer clusters than the greatest number. -/
theorem card_clusters_lt : (clusters g).card ≤ g.maxCluster := by
  unfold clusters FIRST_DATA_CLUSTER
  rw [Nat.card_Icc]
  omega

/-! ## Entries -/

/-- An entry ends a chain where the driver takes it for an end. -/
theorem entry_eq_last_iff {entry : Nat} : cellOf entry = .last ↔ isEndOfChain entry = true := by
  unfold cellOf
  by_cases h : isEndOfChain entry = true
  · simp [h]
  · by_cases h0 : entry = FREE_CLUSTER <;> simp [h, h0]

/-- An entry that links is the number of the next cluster. -/
theorem entry_of_link {entry c : Nat} (h : cellOf entry = .link c) : entry = c ∧ isEndOfChain entry = false := by
  unfold cellOf at h
  split at h
  · cases h
  · next hend =>
    split at h
    · cases h
    · cases h
      exact ⟨rfl, Bool.eq_false_iff.mpr hend⟩

/-- A free cluster's entry is zero. -/
theorem entry_of_free {entry : Nat} : cellOf entry = .free ↔ entry = FREE_CLUSTER := by
  unfold cellOf
  by_cases h : isEndOfChain entry = true
  · rw [if_pos h]
    refine ⟨fun hcell => (by cases hcell), fun hfree => ?_⟩
    rw [hfree] at h
    cases h
  · rw [if_neg h]
    by_cases h0 : entry = FREE_CLUSTER <;> simp [h0]

/-- The number of a cluster is a link to it. -/
theorem cellOf_link (h : c ∈ clusters g) : cellOf c = .link c := by
  obtain ⟨hlo, hhi⟩ := lt_of_mem_clusters h
  unfold BAD_CLUSTER at hhi
  unfold cellOf isEndOfChain END_OF_CHAIN_MIN FREE_CLUSTER
  rw [if_neg (by simp; omega), if_neg (by omega)]

/-- The value of an entry that is written, its reserved bits kept. -/
theorem masked_write (old : BitVec 32) (value : Nat) :
    (((old &&& ~~~ENTRY_MASK) ||| (BitVec.ofNat 32 value &&& ENTRY_MASK)) &&& ENTRY_MASK).toNat = value % 2 ^ 28 := by
  have hmask : ((old &&& ~~~ENTRY_MASK) ||| (BitVec.ofNat 32 value &&& ENTRY_MASK)) &&& ENTRY_MASK =
      BitVec.ofNat 32 value &&& ENTRY_MASK := by
    refine BitVec.eq_of_getLsbD_eq fun i hi => ?_
    simp only [BitVec.getLsbD_and, BitVec.getLsbD_or, BitVec.getLsbD_not, hi, decide_true, Bool.true_and]
    cases old.getLsbD i <;> cases ENTRY_MASK.getLsbD i <;> simp
  rw [hmask, BitVec.toNat_and, BitVec.toNat_ofNat, show ENTRY_MASK.toNat = 2 ^ 28 - 1 from rfl, Nat.and_two_pow_sub_one_eq_mod,
    Nat.mod_mod_of_dvd _ (by decide)]

/-- The reserved bits of every entry are kept. -/
theorem reserved_writeClus (cluster value c : Nat) :
    (v.writeClus cluster value).fat c &&& ~~~ENTRY_MASK = v.fat c &&& ~~~ENTRY_MASK := by
  unfold FatVolume.writeClus
  dsimp only
  by_cases h : c = cluster
  · subst h
    rw [Function.update_self]
    refine BitVec.eq_of_getLsbD_eq fun i hi => ?_
    simp only [BitVec.getLsbD_and, BitVec.getLsbD_or, BitVec.getLsbD_not, hi, decide_true, Bool.true_and]
    cases (v.fat c).getLsbD i <;> cases ENTRY_MASK.getLsbD i <;> simp
  · rw [Function.update_of_ne h]

/-- An entry reads as it was written, in 28 bits. -/
theorem read_writeClus (cluster value c : Nat) :
    (v.writeClus cluster value).readClus c = if c = cluster then value % 2 ^ 28 else v.readClus c := by
  unfold FatVolume.writeClus FatVolume.readClus
  dsimp only
  by_cases h : c = cluster
  · rw [if_pos h, h, Function.update_self, masked_write]
  · rw [if_neg h, Function.update_of_ne h]

/-- A write changes one cell of the table. -/
theorem cell_writeClus (cluster value : Nat) :
    (v.writeClus cluster value).cell = Function.update v.cell cluster (cellOf (value % 2 ^ 28)) := by
  funext c
  unfold FatVolume.cell
  rw [read_writeClus]
  by_cases h : c = cluster
  · rw [if_pos h, h, Function.update_self]
  · rw [if_neg h, Function.update_of_ne h]

/-- The mark that the driver writes ends the chain. -/
theorem cell_write_end (cluster : Nat) : (v.writeClus cluster END_OF_CHAIN).cell = Function.update v.cell cluster .last :=
  cell_writeClus cluster END_OF_CHAIN

/-- So does an entry of ones. -/
theorem cell_write_max (cluster : Nat) : (v.writeClus cluster 0xFFFFFFFF).cell = Function.update v.cell cluster .last :=
  cell_writeClus cluster 0xFFFFFFFF

/-- A cluster is freed. -/
theorem cell_write_free (cluster : Nat) : (v.writeClus cluster FREE_CLUSTER).cell = Function.update v.cell cluster .free :=
  cell_writeClus cluster FREE_CLUSTER

/-- A cluster is linked to another. -/
theorem cell_write_link (cluster : Nat) (h : c ∈ clusters g) :
    (v.writeClus cluster c).cell = Function.update v.cell cluster (.link c) := by
  have hlt := (lt_of_mem_clusters h).2
  unfold BAD_CLUSTER at hlt
  rw [cell_writeClus, Nat.mod_eq_of_lt (by omega), cellOf_link h]

/-! ## Along a chain -/

/-- A chain of data clusters. -/
structure Runs (g : Geometry) (v : FatVolume) (l : List Nat) : Prop where
  chained : Chained v.cell l
  inside : ∀ a ∈ l, a ∈ clusters g

/-- What is left of a chain is a chain. -/
theorem Runs.drop (h : Runs g v l) (n : Nat) : Runs g v (l.drop n) :=
  ⟨h.chained.drop n, fun a ha => h.inside a (List.mem_of_mem_drop ha)⟩

/-- A chain has fewer clusters than there are. -/
theorem Runs.length_le (h : Runs g v l) : l.length ≤ g.maxCluster := by
  refine le_trans ?_ (card_clusters_lt (g := g))
  rw [← List.toFinset_card_of_nodup h.chained.nodup]
  exact Finset.card_le_card fun a ha => h.inside a (List.mem_toFinset.mp ha)

/-- A step along a chain finds the next cluster, or its end. -/
theorem Runs.nextCluster (h : Runs g v l) {i : Nat} (hi : l[i]? = some c) : nextCluster g v c = .ok l[i + 1]? := by
  have hcell := h.chained i c hi
  unfold FatVolume.cell at hcell
  unfold Fat32.nextCluster
  dsimp only
  cases hnext : l[i + 1]? with
  | none =>
    rw [hnext] at hcell
    rw [if_pos (entry_eq_last_iff.mp hcell)]
  | some next =>
    rw [hnext] at hcell
    obtain ⟨hentry, hend⟩ := entry_of_link hcell
    obtain ⟨hlo, hhi⟩ := mem_clusters.mp (h.inside next (List.mem_of_getElem? hnext))
    have hbad : isBadCluster next = false := decide_eq_false (Nat.ne_of_lt (Nat.lt_of_le_of_lt hhi g.maxCluster_lt))
    have hvalid : validateCluster g next = .ok () := by
      unfold validateCluster FIRST_DATA_CLUSTER
      rw [if_neg (by omega), if_neg (by omega)]
    rw [hentry] at hend ⊢
    rw [if_neg (by rw [hend]; decide), if_neg (by rw [hbad]; decide), hvalid]
    rfl

/-- The walk to a chain's end arrives there when it may take as many steps as the chain has clusters. -/
theorem Runs.walkChain (h : Runs g v l) {steps i : Nat} (hi : l[i]? = some c) (hsteps : l.length ≤ i + steps) :
    ∃ last, walkChain g v steps c = .ok last ∧ l.getLast? = some last := by
  induction steps generalizing i c with
  | zero =>
    obtain ⟨hlt, _⟩ := List.getElem?_eq_some_iff.mp hi
    omega
  | succ steps ih =>
    unfold Fat32.walkChain
    rw [h.nextCluster hi]
    cases hnext : l[i + 1]? with
    | none =>
      refine ⟨c, rfl, ?_⟩
      obtain ⟨hlt, _⟩ := List.getElem?_eq_some_iff.mp hi
      have hend := List.getElem?_eq_none_iff.mp hnext
      rw [List.getLast?_eq_getElem?, show l.length - 1 = i by omega]
      exact hi
    | some next => exact ih hnext (by omega)

/-- Hops along a chain arrive where the chain says. -/
theorem Runs.hops (h : Runs g v l) {n i last : Nat} (hi : l[i]? = some c) (hn : l[i + n]? = some last) : hops g v n c = .ok last := by
  induction n generalizing i c with
  | zero =>
    rw [Nat.add_zero, hi] at hn
    cases hn
    rfl
  | succ n ih =>
    unfold Fat32.hops
    rw [h.nextCluster hi]
    have hlt := (List.getElem?_eq_some_iff.mp hn).1
    have hnext : l[i + 1]? = some l[i + 1] := List.getElem?_eq_getElem (by omega)
    rw [hnext]
    exact ih hnext (by rw [← hn]; congr 1; omega)

/-- The hops of a truncation arrive there too. -/
theorem Runs.hopsOrEnd (h : Runs g v l) {n i last : Nat} (hi : l[i]? = some c) (hn : l[i + n]? = some last) :
    truncate.hopsOrEnd g v n c = .ok last := by
  induction n generalizing i c with
  | zero =>
    rw [Nat.add_zero, hi] at hn
    cases hn
    rfl
  | succ n ih =>
    unfold truncate.hopsOrEnd
    rw [h.nextCluster hi]
    have hlt := (List.getElem?_eq_some_iff.mp hn).1
    have hnext : l[i + 1]? = some l[i + 1] := List.getElem?_eq_getElem (by omega)
    rw [hnext]
    exact ih hnext (by rw [← hn]; congr 1; omega)

/-! ## Taking and giving back -/

/-- The search for a free cluster comes by every cluster. -/
theorem mem_searchOrder {hint : Nat} : c ∈ searchOrder g hint ↔ c ∈ clusters g := by
  have hstart : 2 ≤ searchStart g hint ∧ (searchStart g hint ≤ g.maxCluster ∨ searchStart g hint = 2) := by
    unfold searchStart FIRST_DATA_CLUSTER
    split
    · next h => exact ⟨h.1, .inl h.2⟩
    · exact ⟨le_rfl, .inr rfl⟩
  unfold searchOrder FIRST_DATA_CLUSTER
  rw [mem_clusters, List.mem_append, List.mem_range'_1, List.mem_range'_1]
  omega

/-- A search takes a free cluster, unless there is none. -/
theorem allocate_cases (g : Geometry) (v : FatVolume) (hint : Nat) :
    (∃ c, allocateCluster g hint v = .ok (c, v.writeClus c END_OF_CHAIN) ∧ c ∈ clusters g ∧ v.cell c = .free) ∨
    allocateCluster g hint v = .error .noFreeSpace ∧ freeCount v.cell (clusters g) = 0 := by
  unfold allocateCluster
  cases hfind : (searchOrder g hint).find? fun cluster => v.readClus cluster = FREE_CLUSTER with
  | some c =>
    have hfree := List.find?_some hfind
    exact .inl ⟨c, rfl, mem_searchOrder.mp (List.mem_of_find?_eq_some hfind), entry_of_free.mpr (of_decide_eq_true hfree)⟩
  | none =>
    refine .inr ⟨rfl, Finset.card_eq_zero.mpr (Finset.filter_eq_empty_iff.mpr fun c hc hfree => ?_)⟩
    have hused := List.find?_eq_none.mp hfind c (mem_searchOrder.mpr hc)
    exact hused (decide_eq_true (entry_of_free.mp hfree))

/-- Freeing a chain frees its clusters, counts them, and nothing else. -/
theorem Runs.freeChainLoop {fuel : Nat} (h : Runs g v (c :: l)) (hfuel : l.length < fuel) :
    ∃ fat, freeChainLoop g fuel c v = (l.length + 1, { v with fat }) ∧
      ∀ a, ({ v with fat } : FatVolume).cell a = if a ∈ c :: l then .free else v.cell a := by
  induction l generalizing c v fuel with
  | nil =>
    cases fuel with
    | zero => omega
    | succ fuel =>
      obtain ⟨hlo, hhi⟩ := mem_clusters.mp (h.inside c List.mem_cons_self)
      have hend := entry_eq_last_iff.mp ((chained_cons.mp h.chained).1)
      refine ⟨(v.writeClus c FREE_CLUSTER).fat, ?_, fun a => ?_⟩
      · unfold Fat32.freeChainLoop FIRST_DATA_CLUSTER
        rw [if_neg (by omega)]
        dsimp only
        rw [if_pos (.inl hend)]
        rfl
      · refine (congrFun (cell_write_free (v := v) c) a).trans ?_
        by_cases ha : a = c
        · rw [if_pos (by rw [ha]; exact List.mem_cons_self), ha, Function.update_self]
        · rw [if_neg (by simpa using ha), Function.update_of_ne ha]
  | cons d l ih =>
    cases fuel with
    | zero => omega
    | succ fuel =>
      rw [List.length_cons] at hfuel
      obtain ⟨hlo, hhi⟩ := mem_clusters.mp (h.inside c List.mem_cons_self)
      have hd := h.inside d (List.mem_cons_of_mem _ List.mem_cons_self)
      obtain ⟨hentry, hend⟩ := entry_of_link (chained_cons.mp h.chained).1
      have hnotin : c ∉ d :: l := (List.nodup_cons.mp h.chained.nodup).1
      have hrest : Runs g (v.writeClus c FREE_CLUSTER) (d :: l) := by
        refine ⟨(chained_cons.mp h.chained).2.congr fun a ha => ?_, fun a ha => h.inside a (List.mem_cons_of_mem _ ha)⟩
        have hac : a ≠ c := fun heq => hnotin (heq ▸ ha)
        rw [cell_write_free, Function.update_of_ne hac]
      obtain ⟨fat, hloop, hcells⟩ := ih hrest (Nat.lt_of_succ_lt_succ hfuel)
      refine ⟨fat, ?_, fun a => ?_⟩
      · have hgo : ¬(isEndOfChain (v.readClus c) = true ∨ isBadCluster (v.readClus c) = true ∨
            v.readClus c = FREE_CLUSTER) := by
          obtain ⟨hlo', hhi'⟩ := lt_of_mem_clusters hd
          rw [hend, hentry]
          unfold isBadCluster FREE_CLUSTER
          rw [decide_eq_true_iff]
          rintro (h | h | h)
          · cases h
          · omega
          · omega
        unfold Fat32.freeChainLoop FIRST_DATA_CLUSTER
        rw [if_neg (by omega)]
        dsimp only
        rw [if_neg hgo, hentry, hloop]
        rfl
      · refine (hcells a).trans ?_
        by_cases ha : a ∈ d :: l
        · rw [if_pos ha, if_pos (List.mem_cons_of_mem _ ha)]
        · rw [if_neg ha, cell_write_free]
          by_cases hc : a = c
          · rw [hc, Function.update_self, if_pos List.mem_cons_self]
          · rw [Function.update_of_ne hc, if_neg (List.not_mem_cons_of_ne_of_not_mem hc ha)]

/-- A chain is freed: its clusters are, no other cell changes, and they are counted. -/
theorem Runs.freeChain (h : Runs g v l) (hc : l.head? = some c) :
    ∃ fat, freeChain g c v = (l.length, { v with fat }) ∧
      ∀ a, ({ v with fat } : FatVolume).cell a = if a ∈ l then .free else v.cell a := by
  obtain ⟨rest, rfl⟩ := List.head?_eq_some_iff.mp hc
  exact h.freeChainLoop (Nat.lt_of_succ_le (by simpa using h.length_le))

/-- Cutting a chain at a cluster frees what came after it, and counts it. -/
theorem Runs.truncateChain (h : Runs g v l) {i : Nat} (hi : l[i]? = some c) :
    ∃ fat, truncateChain g c v = (l.length - (i + 1), { v with fat }) ∧
      ∀ a, ({ v with fat } : FatVolume).cell a = if a ∈ l.drop (i + 1) then .free else if a = c then .last else v.cell a := by
  obtain ⟨hlo, hhi⟩ := mem_clusters.mp (h.inside c (List.mem_of_getElem? hi))
  have hcell := h.chained i c hi
  have hnotin : c ∉ l.drop (i + 1) := by
    obtain ⟨hlt, rfl⟩ := List.getElem?_eq_some_iff.mp hi
    have hnodup := h.chained.nodup.sublist (List.drop_sublist i l)
    rw [List.drop_eq_getElem_cons hlt] at hnodup
    exact (List.nodup_cons.mp hnodup).1
  have hcut (a : Nat) : (v.writeClus c END_OF_CHAIN).cell a = if a = c then .last else v.cell a := by
    rw [cell_write_end]
    by_cases ha : a = c
    · rw [ha, Function.update_self, if_pos rfl]
    · rw [Function.update_of_ne ha, if_neg ha]
  unfold Fat32.truncateChain
  rw [if_neg (by unfold FIRST_DATA_CLUSTER; omega)]
  dsimp only
  cases hnext : l[i + 1]? with
  | none =>
    rw [hnext] at hcell
    have hend := List.getElem?_eq_none_iff.mp hnext
    refine ⟨(v.writeClus c END_OF_CHAIN).fat, ?_, fun a => ?_⟩
    · rw [if_neg (by rw [entry_eq_last_iff.mp hcell]; simp), Nat.sub_eq_zero_of_le hend]
      rfl
    · rw [List.drop_of_length_le hend, if_neg List.not_mem_nil]
      exact hcut a
  | some next =>
    rw [hnext] at hcell
    obtain ⟨hentry, hend⟩ := entry_of_link hcell
    obtain ⟨hlo', hhi'⟩ := mem_clusters.mp (h.inside next (List.mem_of_getElem? hnext))
    have hrest : Runs g (v.writeClus c END_OF_CHAIN) (l.drop (i + 1)) := by
      refine ⟨(h.drop (i + 1)).chained.congr fun a ha => ?_, (h.drop (i + 1)).inside⟩
      have hac : a ≠ c := fun heq => hnotin (heq ▸ ha)
      rw [hcut, if_neg hac]
    have hhead : (l.drop (i + 1)).head? = some next := by rw [List.head?_drop, hnext]
    obtain ⟨fat, hfree, hcells⟩ := hrest.freeChain hhead
    refine ⟨fat, ?_, fun a => ?_⟩
    · rw [if_pos ⟨by rw [hend]; rfl, hentry ▸ hlo', hentry ▸ hhi'⟩, hentry, hfree, List.length_drop]
      rfl
    · rw [← hcut]
      exact hcells a

/-! ## Changes of a chain -/

variable {T' : Nat → Cell Nat}

/-- A free cluster that is linked behind a chain makes the chain longer, and changes no other. -/
theorem Runs.changes_concat (h : Runs g v l) (hc : c ∈ clusters g) (hfree : v.cell c = .free) (hnew : T' c = .last)
    (hlast : ∀ a, l.getLast? = some a → T' a = .link c) (hsame : ∀ a, a ≠ c → l.getLast? ≠ some a → T' a = v.cell a) :
    Changes v.cell T' (clusters g) l (l ++ [c]) := by
  have hnotin : c ∉ l := fun hl => h.chained.ne_free hl hfree
  refine ⟨h.chained.concat hnew hlast fun a ha => hsame a fun heq => hnotin (heq ▸ ha), fun a ha => ?_, fun a ha => ?_,
    fun a ha hno => absurd (List.mem_append_left _ ha) hno, fun a ha hno => ?_⟩
  · rcases List.mem_append.mp ha with ha | ha
    · exact h.inside a ha
    · rw [List.mem_singleton.mp ha]
      exact hc
  · rcases List.mem_append.mp ha with ha | ha
    · exact .inl ha
    · rw [List.mem_singleton.mp ha]
      exact .inr hfree
  · refine hsame a (fun heq => ?_) fun heq => ha (List.mem_of_getLast? heq)
    rw [heq] at hno
    exact hno (List.mem_append_right _ (List.mem_singleton_self c))

/-- A chain that is cut keeps its front, and the rest is free. -/
theorem Runs.changes_cut (h : Runs g v l) {i : Nat} (hi : l[i]? = some c)
    (hT : ∀ a, T' a = if a ∈ l.drop (i + 1) then .free else if a = c then .last else v.cell a) :
    Changes v.cell T' (clusters g) l (l.take (i + 1)) := by
  obtain ⟨hlt, hget⟩ := List.getElem?_eq_some_iff.mp hi
  have hlast : (l.take (i + 1)).getLast? = some c := by
    rw [List.getLast?_eq_getElem?, List.length_take, Nat.min_eq_left hlt]
    exact (List.getElem?_take_of_lt (Nat.lt_succ_self i)).trans hi
  have hapart {a : Nat} (ha : a ∈ l.take (i + 1)) : a ∉ l.drop (i + 1) := by
    have hnodup := h.chained.nodup
    rw [← List.take_append_drop (i + 1) l] at hnodup
    exact fun hdrop => (List.disjoint_of_nodup_append hnodup) ha hdrop
  refine ⟨h.chained.take (fun a ha => ?_) fun a ha hne => ?_, fun a ha => h.inside a (List.mem_of_mem_take ha),
    fun a ha => .inl (List.mem_of_mem_take ha), fun a ha hno => ?_, fun a ha hno => ?_⟩
  · obtain rfl : c = a := Option.some.inj (hlast.symm.trans ha)
    rw [hT, if_neg (hapart (List.mem_of_getLast? hlast)), if_pos rfl]
  · rw [hT, if_neg (hapart ha), if_neg]
    rintro rfl
    exact hne hlast
  · rw [← List.take_append_drop (i + 1) l] at ha
    rw [hT, if_pos ((List.mem_append.mp ha).resolve_left hno)]
  · rw [hT, if_neg fun hdrop => ha (List.mem_of_mem_drop hdrop), if_neg]
    rintro rfl
    exact ha (List.mem_of_getElem? hi)

/-- A chain that is freed is gone. -/
theorem changes_free (hT : ∀ a, T' a = if a ∈ l then .free else v.cell a) : Changes v.cell T' (clusters g) l [] where
  chained := chained_nil
  inside _ ha := (List.not_mem_nil ha).elim
  taken _ ha := (List.not_mem_nil ha).elim
  freed a ha _ := by rw [hT, if_pos ha]
  same a ha _ := by rw [hT, if_neg ha]

/-! ## The count -/

/-- The count of free clusters is unknown, or right. -/
def Counted (g : Geometry) (v : FatVolume) : Prop := v.freeCount = UNKNOWN_COUNT ∨ v.freeCount = freeCount v.cell (clusters g)

/-- There are fewer free clusters than the mark for an unknown count. -/
theorem freeCount_lt (g : Geometry) (T : Nat → Cell Nat) : freeCount T (clusters g) < UNKNOWN_COUNT := by
  have hle : freeCount T (clusters g) ≤ g.maxCluster := (Finset.card_filter_le _ _).trans card_clusters_lt
  have hlt := g.maxCluster_lt
  unfold UNKNOWN_COUNT
  unfold BAD_CLUSTER at hlt
  omega

/-- The count stays exact when clusters are freed. -/
theorem counted_increment {v' : FatVolume} {n : Nat} (h : Counted g v) (hcount : v'.freeCount = (v.incrementFreeCount n).freeCount)
    (hn : freeCount v'.cell (clusters g) = freeCount v.cell (clusters g) + n) : Counted g v' := by
  have hlt := freeCount_lt g v'.cell
  unfold Counted
  rw [hcount]
  unfold FatVolume.incrementFreeCount
  dsimp only
  rcases h with hunknown | hknown
  · rw [if_neg fun hne => hne hunknown]
    exact .inl hunknown
  · have hsum : v.freeCount + n = freeCount v'.cell (clusters g) := (congrArg (· + n) hknown).trans hn.symm
    have hne : v.freeCount ≠ UNKNOWN_COUNT := by
      unfold UNKNOWN_COUNT at *
      omega
    rw [if_pos hne, hsum]
    exact .inr (Nat.min_eq_left hlt.le)

/-- The count stays exact when one is taken. -/
theorem counted_decrement {v' : FatVolume} (h : Counted g v) (hcount : v'.freeCount = v.decrementFreeCount.freeCount)
    (hn : freeCount v'.cell (clusters g) + 1 = freeCount v.cell (clusters g)) : Counted g v' := by
  have hlt := freeCount_lt g v.cell
  unfold Counted
  rw [hcount]
  unfold FatVolume.decrementFreeCount
  dsimp only
  rcases h with hunknown | hknown
  · rw [if_neg fun hne => hne.2 hunknown]
    exact .inl hunknown
  · have hpos : 0 < v.freeCount ∧ v.freeCount ≠ UNKNOWN_COUNT := by
      unfold UNKNOWN_COUNT at *
      omega
    rw [if_pos hpos]
    exact .inr (Nat.sub_eq_of_eq_add (hknown.trans hn.symm))

/-- A chain is freed, and counted. -/
theorem Runs.releaseChain (h : Runs g v l) (hc : Counted g v) :
    ∃ fat freeCount, releaseChain g l.head? v = { v with fat, freeCount } ∧
      Changes v.cell ({ v with fat, freeCount } : FatVolume).cell (clusters g) l [] ∧ Counted g { v with fat, freeCount } := by
  cases hhead : l.head? with
  | none =>
    obtain rfl := List.head?_eq_none_iff.mp hhead
    exact ⟨v.fat, v.freeCount, rfl, .refl chained_nil h.inside, hc⟩
  | some first =>
    obtain ⟨fat, hfree, hcells⟩ := h.freeChain hhead
    have hchanges : Changes v.cell ({ v with fat } : FatVolume).cell (clusters g) l [] := changes_free hcells
    have hcount := hchanges.freeCount h.chained h.inside
    refine ⟨fat, (v.incrementFreeCount l.length).freeCount, ?_, hchanges, counted_increment hc rfl hcount⟩
    show release (Fat32.freeChain g first v) = _
    rw [hfree]
    rfl

/-- What comes after a cluster of a chain is freed, and counted. -/
theorem Runs.release_after (h : Runs g v l) (hc : Counted g v) {i : Nat} (hi : l[i]? = some c) :
    ∃ fat freeCount, release (Fat32.truncateChain g c v) = { v with fat, freeCount } ∧
      Changes v.cell ({ v with fat, freeCount } : FatVolume).cell (clusters g) l (l.take (i + 1)) ∧
      Counted g { v with fat, freeCount } := by
  obtain ⟨fat, hfree, hcells⟩ := h.truncateChain hi
  have hchanges := h.changes_cut hi hcells
  have hcount := hchanges.freeCount h.chained h.inside
  have hlen : (l.take (i + 1)).length = i + 1 := List.length_take_of_le (List.getElem?_eq_some_iff.mp hi).1
  have hlt := (List.getElem?_eq_some_iff.mp hi).1
  refine ⟨fat, (v.incrementFreeCount (l.length - (i + 1))).freeCount, ?_, hchanges, counted_increment hc rfl ?_⟩
  · rw [hfree]
    rfl
  · show Chains.freeCount ({ v with fat } : FatVolume).cell (clusters g) = _
    omega

/-- A chain is cut behind the clusters to keep: the walk ends at the last of them, and what follows it is freed. -/
theorem Runs.cut (h : Runs g v l) (hc : Counted g v) {first n : Nat} (hfirst : l[0]? = some first) (hn : 0 < n) (hle : n ≤ l.length) :
    ∃ last fat freeCount, truncate.hopsOrEnd g v (min (n - 1) g.maxCluster) first = .ok last ∧
      release (Fat32.truncateChain g last v) = { v with fat, freeCount } ∧
      Changes v.cell ({ v with fat, freeCount } : FatVolume).cell (clusters g) l (l.take n) ∧
      Counted g { v with fat, freeCount } := by
  have hmax := h.length_le
  obtain ⟨last, hlast⟩ : ∃ last, l[n - 1]? = some last := ⟨_, List.getElem?_eq_getElem (by omega)⟩
  obtain ⟨fat, freeCount, hrelease, hchanges, hcounted⟩ := h.release_after hc hlast
  rw [Nat.sub_add_cancel hn] at hchanges
  refine ⟨last, fat, freeCount, ?_, hrelease, hchanges, hcounted⟩
  rw [Nat.min_eq_left (by omega)]
  exact h.hopsOrEnd hfirst (by rw [Nat.zero_add]; exact hlast)

end Ratputer.Fat32
