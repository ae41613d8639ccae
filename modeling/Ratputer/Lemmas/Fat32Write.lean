import Ratputer.Lemmas.Fat32
import Mathlib.Data.List.GetD

/-!
# Writing along a chain

Where a writer stands in the chain of its file, what it has written, and what it would give back; what each call does to these.
-/

namespace Ratputer.Fat32

open Chains

variable {g : Geometry}

/-! ## Positions -/

/-- A size needs at most so many clusters as hold it. -/
theorem clustersFor_le {size k : Nat} : clustersFor g size ≤ k ↔ size ≤ k * g.clusterSize := by
  have hpos := g.clusterSize_pos
  unfold clustersFor
  rw [Nat.div_le_iff_le_mul_add_pred hpos, Nat.mul_comm]
  omega

/-- A size needs more clusters than hold less. -/
theorem lt_clustersFor {size k : Nat} : k < clustersFor g size ↔ k * g.clusterSize < size := by
  rw [← not_le, clustersFor_le, not_le]

theorem clustersFor_zero : clustersFor g 0 = 0 := Nat.le_zero.mp (clustersFor_le.mpr (Nat.zero_le _))

/-- Whole clusters need as many. -/
theorem clustersFor_mul (k : Nat) : clustersFor g (k * g.clusterSize) = k := by
  refine le_antisymm (clustersFor_le.mpr le_rfl) (Nat.le_of_not_lt fun h => ?_)
  rcases Nat.eq_zero_or_pos k with rfl | hk
  · cases h
  · have hle := clustersFor_le.mp (Nat.le_sub_one_of_lt h)
    have hmul := Nat.mul_lt_mul_of_pos_right (Nat.sub_one_lt (Nat.ne_of_gt hk)) g.clusterSize_pos
    omega

/-- More octets need no fewer clusters. -/
theorem clustersFor_mono {m n : Nat} (h : m ≤ n) : clustersFor g m ≤ clustersFor g n :=
  clustersFor_le.mpr (h.trans (clustersFor_le.mp le_rfl))

/-- The cluster of the last of so many octets is the last of those that hold them. -/
theorem clustersFor_succ (n : Nat) : clustersFor g (n + 1) = n / g.clusterSize + 1 := by
  unfold clustersFor
  rw [Nat.add_right_comm, Nat.add_sub_cancel, Nat.add_div_right _ g.clusterSize_pos]

/-- Where a writer stands at a position: past the octet before it. -/
def stand (g : Geometry) (l : List Nat) (pos : Nat) : Option Nat × Nat :=
  if pos = 0 then (l.head?, 0) else (l[(pos - 1) / g.clusterSize]?, (pos - 1) % g.clusterSize + 1)

/-- Where a writer stands at the end of the last cluster. -/
theorem stand_end (l : List Nat) : stand g l (l.length * g.clusterSize) = (l.getLast?, if l = [] then 0 else g.clusterSize) := by
  have hpos := g.clusterSize_pos
  rcases List.eq_nil_or_concat l with rfl | ⟨init, last, rfl⟩
  · simp [stand]
  · rw [List.concat_eq_append, List.length_append, List.length_singleton, Nat.add_mul, Nat.one_mul]
    unfold stand
    have hlast : init.length * g.clusterSize + g.clusterSize - 1 = g.clusterSize - 1 + g.clusterSize * init.length := by
      rw [Nat.mul_comm]
      omega
    rw [if_neg (by omega), hlast, Nat.add_mul_div_left _ _ hpos, Nat.add_mul_mod_self_left,
      Nat.div_eq_of_lt (by omega), Nat.mod_eq_of_lt (by omega), if_neg (by simp)]
    refine Prod.ext ?_ (Nat.sub_add_cancel hpos)
    simp

/-- The position is in the cluster that it is past an octet of, unless that is full. -/
theorem div_mod_of_lt {pos : Nat} (hpos : 0 < pos) (h : (pos - 1) % g.clusterSize + 1 < g.clusterSize) :
    pos / g.clusterSize = (pos - 1) / g.clusterSize ∧ pos % g.clusterSize = (pos - 1) % g.clusterSize + 1 := by
  have hsplit := Nat.div_add_mod (pos - 1) g.clusterSize
  have heq : pos = (pos - 1) % g.clusterSize + 1 + g.clusterSize * ((pos - 1) / g.clusterSize) := by omega
  constructor
  · conv_lhs => rw [heq]
    rw [Nat.add_mul_div_left _ _ g.clusterSize_pos, Nat.div_eq_of_lt h, Nat.zero_add]
  · conv_lhs => rw [heq]
    rw [Nat.add_mul_mod_self_left, Nat.mod_eq_of_lt h]

/-- Behind a full cluster the next one begins. -/
theorem div_mod_of_full {pos : Nat} (hpos : 0 < pos) (h : g.clusterSize ≤ (pos - 1) % g.clusterSize + 1) :
    pos / g.clusterSize = (pos - 1) / g.clusterSize + 1 ∧ pos % g.clusterSize = 0 := by
  have hcs := g.clusterSize_pos
  have hlt := Nat.mod_lt (pos - 1) hcs
  have hsplit := Nat.div_add_mod (pos - 1) g.clusterSize
  have heq : pos = g.clusterSize * ((pos - 1) / g.clusterSize + 1) := by
    rw [Nat.mul_add, Nat.mul_one]
    omega
  constructor
  · conv_lhs => rw [heq]
    rw [Nat.mul_div_cancel_left _ hcs]
  · conv_lhs => rw [heq]
    rw [Nat.mul_mod_right]

/-- Positions that stay in a cluster. -/
theorem div_mod_add {pos n : Nat} (hn : 0 < n) (h : pos % g.clusterSize + n ≤ g.clusterSize) :
    (pos + n - 1) / g.clusterSize = pos / g.clusterSize ∧ (pos + n - 1) % g.clusterSize + 1 = pos % g.clusterSize + n := by
  have hsplit := Nat.div_add_mod pos g.clusterSize
  have heq : pos + n - 1 = pos % g.clusterSize + n - 1 + g.clusterSize * (pos / g.clusterSize) := by omega
  constructor
  · rw [heq, Nat.add_mul_div_left _ _ g.clusterSize_pos, Nat.div_eq_of_lt (by omega), Nat.zero_add]
  · rw [heq, Nat.add_mul_mod_self_left, Nat.mod_eq_of_lt (by omega)]
    omega

/-! ## Contents -/

/-- The octet at an offset of the file that these clusters hold. -/
def octet (g : Geometry) (v : FatVolume) (l : List Nat) (i : Nat) : UInt8 := v.data (l.getD (i / g.clusterSize) 0) (i % g.clusterSize)

/-- Octets with others put over them from an offset on. -/
def overlay (old : Nat → UInt8) (off : Nat) (D : List UInt8) (i : Nat) : UInt8 := if i < off then old i else (D[i - off]?).getD (old i)

/-- No data lies over nothing. -/
theorem overlay_nil (old : Nat → UInt8) (off : Nat) : overlay old off [] = old := by
  funext i
  unfold overlay
  split <;> rfl

/-- More data lies over what is behind. -/
theorem overlay_append (old : Nat → UInt8) (off : Nat) (D D' : List UInt8) (i : Nat) :
    overlay old off (D ++ D') i = if off + D.length ≤ i then (D'[i - (off + D.length)]?).getD (old i) else overlay old off D i := by
  unfold overlay
  by_cases hoff : i < off
  · rw [if_pos hoff, if_neg (by omega), if_pos hoff]
  · rw [if_neg hoff, if_neg hoff]
    by_cases hend : off + D.length ≤ i
    · rw [if_pos hend, List.getElem?_append_right (by omega), Nat.sub_sub]
    · rw [if_neg hend, List.getElem?_append_left (by omega)]

/-- The front of a longer chain has the same octets. -/
theorem octet_append {v : FatVolume} {l r : List Nat} {i : Nat} (h : i < l.length * g.clusterSize) :
    octet g v (l ++ r) i = octet g v l i := by
  have hi : i / g.clusterSize < l.length := (Nat.div_lt_iff_lt_mul g.clusterSize_pos).mpr h
  unfold octet
  rw [List.getD_append _ _ _ _ hi]

/-- Octets put into a cluster of a chain are seen at their place in the file, and nowhere else. -/
theorem octet_writeData {v : FatVolume} {l : List Nat} (hnodup : l.Nodup) {pos c : Nat} (hc : l[pos / g.clusterSize]? = some c)
    {bytes : List UInt8} (hfits : pos % g.clusterSize + bytes.length ≤ g.clusterSize) {i : Nat} (hi : i < l.length * g.clusterSize) :
    octet g (v.writeData c (pos % g.clusterSize) bytes) l i =
      if pos ≤ i then (bytes[i - pos]?).getD (octet g v l i) else octet g v l i := by
  have hpos := Nat.div_add_mod pos g.clusterSize
  have hsplit := Nat.div_add_mod i g.clusterSize
  have hcs := g.clusterSize_pos
  have hmod := Nat.mod_lt i hcs
  have hlt : i / g.clusterSize < l.length := (Nat.div_lt_iff_lt_mul hcs).mpr hi
  have hget : l.getD (i / g.clusterSize) 0 = l[i / g.clusterSize] := List.getD_eq_getElem l 0 hlt
  unfold octet FatVolume.writeData
  dsimp only
  by_cases hsame : i / g.clusterSize = pos / g.clusterSize
  · -- the octet is in the cluster that is written
    have hcluster : l.getD (i / g.clusterSize) 0 = c := by
      rw [hsame, List.getD_eq_getElem?_getD, hc]
      rfl
    rw [hcluster, Function.update_self]
    rw [hsame] at hsplit
    by_cases hle : pos ≤ i
    · rw [if_pos hle, if_pos (by omega), show i % g.clusterSize - pos % g.clusterSize = i - pos by omega]
    · rw [if_neg hle, if_neg (by omega)]
  · -- it is in another, which is another of the list
    have hne : l.getD (i / g.clusterSize) 0 ≠ c := by
      rw [hget]
      intro heq
      rw [← heq, ← List.getElem?_eq_getElem hlt] at hc
      obtain ⟨hlt', _⟩ := List.getElem?_eq_some_iff.mp (hc.trans (List.getElem?_eq_getElem hlt))
      exact hsame ((List.getElem?_inj hlt hnodup).mp hc.symm)
    rw [Function.update_of_ne hne]
    by_cases hle : pos ≤ i
    · have hout : bytes.length ≤ i - pos := by
        have hdiv : pos / g.clusterSize + 1 ≤ i / g.clusterSize := by
          have hmono := Nat.div_le_div_right (c := g.clusterSize) hle
          omega
        have hmul := Nat.mul_le_mul_left g.clusterSize hdiv
        rw [Nat.mul_add, Nat.mul_one] at hmul
        omega
      rw [if_pos hle, List.getElem?_eq_none hout]
      rfl
    · rw [if_neg hle]

/-! ## Writers -/

/-- What a writer was opened on: the volume, the chain of the file, its entry, what to preserve, and where it stood. -/
structure Opened where
  volume : FatVolume
  committed : List Nat
  id : EntryId
  preserve : Nat
  off : Nat

/-- What a writer would give back: nothing, or all after the committed chain, which it would stand at the end of again. -/
inductive Noted (g : Geometry) (committed l : List Nat) (w : FileWriter) : Prop
  | nothing : l = committed → w.firstAllocatedCluster = none → Noted g committed l w
  | clusters (c : Nat) : l[committed.length]? = some c → w.firstAllocatedCluster = some c →
      (w.allocationPredecessor, w.allocationStartOffset) = stand g committed (committed.length * g.clusterSize) →
      w.allocationStartTotalWritten = committed.length * g.clusterSize → Noted g committed l w

/-- What a writer has made of the volume: the chain of its file has grown, and holds what it has written. -/
structure Held (g : Geometry) (o : Opened) (D : List UInt8) (l : List Nat) (w : FileWriter) (v : FatVolume) : Prop where
  changes : Changes o.volume.cell v.cell (clusters g) o.committed l
  grown : o.committed <+: l
  counted : Counted g v
  slots : v.slots = o.volume.slots
  openWriters : v.openWriters = o.volume.openWriters
  spared : ∀ c, c ∉ o.committed → o.volume.cell c ≠ .free → v.data c = o.volume.data c
  octets : ∀ i < l.length * g.clusterSize, i < o.off + D.length ∨ i < o.committed.length * g.clusterSize →
    octet g v l i = overlay (octet g o.volume o.committed) o.off D i
  entry : w.toEntryId = o.id
  preserve : w.preserveLen = o.preserve
  first : w.firstCluster = l.head?
  noted : Noted g o.committed l w

/-- Between two writes: past the last octet written. The chain is no longer than that needs. -/
structure Stands (g : Geometry) (committed l : List Nat) (w : FileWriter) : Prop where
  place : (w.currentCluster, w.offsetInCluster) = stand g l w.totalWritten
  within : w.totalWritten ≤ l.length * g.clusterSize
  length : l.length = max committed.length (clustersFor g w.totalWritten)

/-- Before a write: at the octet to write next. -/
structure Ready (g : Geometry) (committed l : List Nat) (w : FileWriter) : Prop where
  current : w.currentCluster = l[w.totalWritten / g.clusterSize]?
  offset : w.offsetInCluster = w.totalWritten % g.clusterSize
  within : w.totalWritten < l.length * g.clusterSize
  length : l.length = max committed.length (clustersFor g (w.totalWritten + 1))

variable {o : Opened} {D : List UInt8} {l committed : List Nat} {w : FileWriter} {v : FatVolume}

/-- What a writer holds is a chain. -/
theorem Held.runs (h : Held g o D l w v) : Runs g v l := ⟨h.changes.chained, h.changes.inside⟩

/-- A writer in the middle of a cluster is ready to write. -/
theorem Stands.ready (h : Stands g committed l w) (hin : ¬(w.currentCluster.isNone = true ∨ g.clusterSize ≤ w.offsetInCluster)) :
    Ready g committed l w := by
  obtain ⟨hsome, hoff⟩ := not_or.mp hin
  have hplace := h.place
  unfold stand at hplace
  by_cases hzero : w.totalWritten = 0
  · rw [if_pos hzero] at hplace
    obtain ⟨hcurrent, hoffset⟩ := Prod.mk.inj hplace
    have hne : l ≠ [] := by
      rintro rfl
      rw [hcurrent] at hsome
      exact hsome rfl
    have hlen := List.length_pos_iff.mpr hne
    have hlength := h.length
    rw [hzero, clustersFor_zero, Nat.max_zero] at hlength
    refine ⟨?_, by rw [hoffset, hzero, Nat.zero_mod], ?_, ?_⟩
    · rw [hcurrent, hzero, Nat.zero_div, List.head?_eq_getElem?]
    · rw [hzero]
      exact Nat.mul_pos hlen g.clusterSize_pos
    · rw [hzero, clustersFor_succ, Nat.zero_div]
      omega
  · rw [if_neg hzero] at hplace
    obtain ⟨hcurrent, hoffset⟩ := Prod.mk.inj hplace
    have hpos := Nat.pos_of_ne_zero hzero
    obtain ⟨hdiv, hmod⟩ := div_mod_of_lt (g := g) hpos (by omega)
    have hlt : w.totalWritten / g.clusterSize < l.length := by
      rw [hcurrent, Option.isNone_iff_eq_none, List.getElem?_eq_none_iff] at hsome
      omega
    refine ⟨by rw [hdiv, hcurrent], by rw [hmod, hoffset], (Nat.div_lt_iff_lt_mul g.clusterSize_pos).mp hlt, ?_⟩
    have hsucc := clustersFor_succ (g := g) (w.totalWritten - 1)
    rw [Nat.sub_add_cancel hpos] at hsucc
    rw [clustersFor_succ, hdiv, ← hsucc]
    exact h.length

/-- A writer at the end of a cluster, or without one, is before the next of the chain, or at its end. -/
theorem Stands.existingNext (h : Stands g committed l w) (hruns : Runs g v l)
    (hout : w.currentCluster.isNone = true ∨ g.clusterSize ≤ w.offsetInCluster) :
    w.totalWritten % g.clusterSize = 0 ∧ w.existingNext g v = .ok l[w.totalWritten / g.clusterSize]? := by
  have hplace := h.place
  unfold stand at hplace
  unfold FileWriter.existingNext
  by_cases hzero : w.totalWritten = 0
  · rw [if_pos hzero] at hplace
    obtain ⟨hcurrent, hoffset⟩ := Prod.mk.inj hplace
    have hcs := g.clusterSize_pos
    have hnone : w.currentCluster = none := Option.isNone_iff_eq_none.mp (hout.resolve_right (by omega))
    rw [hnone, hzero, Nat.zero_mod, Nat.zero_div, ← List.head?_eq_getElem?, ← hcurrent, hnone]
    exact ⟨rfl, rfl⟩
  · rw [if_neg hzero] at hplace
    obtain ⟨hcurrent, hoffset⟩ := Prod.mk.inj hplace
    have hpos := Nat.pos_of_ne_zero hzero
    have hlt : (w.totalWritten - 1) / g.clusterSize < l.length := by
      refine (Nat.div_lt_iff_lt_mul g.clusterSize_pos).mpr ?_
      have hwithin := h.within
      omega
    have hget := List.getElem?_eq_getElem hlt
    have hfull : g.clusterSize ≤ (w.totalWritten - 1) % g.clusterSize + 1 := by
      rw [← hoffset]
      refine hout.resolve_left fun hnone => ?_
      rw [hcurrent, hget] at hnone
      cases hnone
    obtain ⟨hdiv, hmod⟩ := div_mod_of_full hpos hfull
    rw [hcurrent, hget]
    exact ⟨hmod, by rw [hdiv]; exact hruns.nextCluster hget⟩

/-- A full chain is stood at the end of. -/
theorem Stands.at_end (h : Stands g committed l w) (hmod : w.totalWritten % g.clusterSize = 0)
    (hend : l[w.totalWritten / g.clusterSize]? = none) : w.totalWritten = l.length * g.clusterSize := by
  have hle := List.getElem?_eq_none_iff.mp hend
  have hsplit := Nat.div_add_mod w.totalWritten g.clusterSize
  refine le_antisymm h.within ?_
  rw [hmod, Nat.add_zero] at hsplit
  rw [← hsplit, Nat.mul_comm]
  exact Nat.mul_le_mul_left _ hle

/-- At the end of its clusters a writer stands on the last. -/
theorem getLast?_of_place (h : Stands g committed l w) (hend : w.totalWritten = l.length * g.clusterSize) :
    w.currentCluster = l.getLast? := by
  have hplace := h.place
  rw [hend, stand_end] at hplace
  exact (Prod.mk.inj hplace).1

/-- The next of the file's own clusters is entered. -/
theorem Held.enter (h : Held g o D l w v) (hs : Stands g o.committed l w) {c : Nat}
    (hmod : w.totalWritten % g.clusterSize = 0) (hc : l[w.totalWritten / g.clusterSize]? = some c) :
    Held g o D l (w.enter c) v ∧ Ready g o.committed l (w.enter c) := by
  have hlt := (List.getElem?_eq_some_iff.mp hc).1
  have hfirst : some (w.firstCluster.getD c) = l.head? := by
    rw [h.first]
    cases l with
    | nil => cases hc
    | cons a l => rfl
  have hsucc : l.length = max o.committed.length (clustersFor g (w.totalWritten + 1)) := by
    rw [clustersFor_succ]
    have hlength := hs.length
    have hle := h.grown.length_le
    have hfor : clustersFor g w.totalWritten ≤ w.totalWritten / g.clusterSize := by
      refine clustersFor_le.mpr ?_
      have hsplit := Nat.div_add_mod w.totalWritten g.clusterSize
      rw [hmod, Nat.add_zero, Nat.mul_comm] at hsplit
      exact hsplit.ge
    omega
  refine ⟨{ h with first := hfirst, noted := ?_ }, ?_⟩
  · rcases h.noted with ⟨hl, hnone⟩ | ⟨first, hget, hfirst, hplace, htotal⟩
    · exact .nothing hl hnone
    · exact .clusters first hget hfirst hplace htotal
  · exact ⟨hc.symm, hmod.symm, (Nat.div_lt_iff_lt_mul g.clusterSize_pos).mp hlt, hsucc⟩

/-- A link changes the table alone. -/
theorem link_eq (v : FatVolume) (c : Nat) : w.link v c = { v with fat := (w.link v c).fat } := by
  unfold FileWriter.link
  cases w.currentCluster <;> rfl

/-- A new cluster, linked to the last of the chain, is the last. -/
theorem cell_link (hruns : Runs g v l) (hlast : w.currentCluster = l.getLast?) {c : Nat} (hc : c ∈ clusters g)
    (hfree : v.cell c = .free) {v' : FatVolume} (hv' : v'.cell = Function.update v.cell c .last) :
    Changes v.cell (w.link v' c).cell (clusters g) l (l ++ [c]) := by
  have hnotin : c ∉ l := fun hl => hruns.chained.ne_free hl hfree
  unfold FileWriter.link
  cases hcurrent : w.currentCluster with
  | none =>
    dsimp only
    rw [hv']
    refine hruns.changes_concat hc hfree (Function.update_self ..) (fun a ha => ?_) fun a ha _ => Function.update_of_ne ha ..
    cases (hcurrent.symm.trans hlast).trans ha
  | some previous =>
    have hprevious : l.getLast? = some previous := hlast.symm.trans hcurrent
    have hne : c ≠ previous := fun heq => hnotin (heq ▸ List.mem_of_getLast? hprevious)
    dsimp only
    rw [cell_write_link (g := g) previous hc, hv']
    refine hruns.changes_concat hc hfree ?_ (fun a ha => ?_) fun a ha hno => ?_
    · rw [Function.update_of_ne hne, Function.update_self]
    · obtain rfl : previous = a := Option.some.inj (hprevious.symm.trans ha)
      exact Function.update_self ..
    · have hap : a ≠ previous := fun heq => hno (heq ▸ hprevious)
      rw [Function.update_of_ne hap, Function.update_of_ne ha]

/-- A new cluster is entered. -/
theorem Held.extend (h : Held g o D l w v) (hs : Stands g o.committed l w) (hD : w.totalWritten = o.off + D.length)
    (hend : w.totalWritten = l.length * g.clusterSize) {c : Nat} (hc : c ∈ clusters g) (hfree : v.cell c = .free) :
    Held g o D (l ++ [c]) ((w.noteAllocation c).enter c)
      (w.link (updateNextFreeHint g (v.writeClus c END_OF_CHAIN).decrementFreeCount c) c) ∧
    Ready g o.committed (l ++ [c]) ((w.noteAllocation c).enter c) := by
  have hlast := getLast?_of_place hs hend
  have hchange : Changes v.cell (w.link (updateNextFreeHint g (v.writeClus c END_OF_CHAIN).decrementFreeCount c) c).cell
      (clusters g) l (l ++ [c]) := cell_link h.runs hlast hc hfree (cell_write_end c)
  have hcount := hchange.freeCount h.changes.chained h.changes.inside
  have hfirst : some (w.firstCluster.getD c) = (l ++ [c]).head? := by
    rw [h.first]
    cases l <;> rfl
  have hfor : clustersFor g w.totalWritten = l.length := by rw [hend, clustersFor_mul]
  have hlen : l.length = max o.committed.length (clustersFor g w.totalWritten) := hs.length
  rw [List.length_append, List.length_singleton] at hcount
  have hnew : (w.noteAllocation c).enter c = { w.noteAllocation c with
      firstCluster := some ((w.noteAllocation c).firstCluster.getD c), currentCluster := some c, offsetInCluster := 0 } := rfl
  have hsame : (w.noteAllocation c).toEntryId = w.toEntryId ∧ (w.noteAllocation c).preserveLen = w.preserveLen ∧
      (w.noteAllocation c).firstCluster = w.firstCluster ∧ (w.noteAllocation c).totalWritten = w.totalWritten := by
    unfold FileWriter.noteAllocation
    split <;> exact ⟨rfl, rfl, rfl, rfl⟩
  obtain ⟨hid, hpreserve, hfirst', htotal⟩ := hsame
  rw [link_eq] at hchange hcount ⊢
  refine ⟨⟨h.changes.trans hchange, h.grown.trans (List.prefix_append l [c]), ?_, h.slots, h.openWriters, h.spared, ?_,
    hid.trans h.entry, hpreserve.trans h.preserve, ?_, ?_⟩, ?_⟩
  · exact counted_decrement h.counted rfl (by omega)
  · -- all that is to be seen is in the clusters before the new one
    intro i _ hin
    have hi : i < l.length * g.clusterSize := by
      rcases hin with hin | hin
      · omega
      · exact hin.trans_le (Nat.mul_le_mul_right _ h.grown.length_le)
    rw [octet_append hi]
    exact h.octets i hi hin
  · show some ((w.noteAllocation c).firstCluster.getD c) = _
    rw [hfirst']
    exact hfirst
  · rcases h.noted with ⟨hl, hnone⟩ | ⟨first, hget, hfirst, hplace, hstart⟩
    · have hnote : w.noteAllocation c = { w with
          firstAllocatedCluster := some c
          allocationPredecessor := w.currentCluster
          allocationStartOffset := w.offsetInCluster
          allocationStartTotalWritten := w.totalWritten } := by
        rw [FileWriter.noteAllocation, hnone]
        rfl
      rw [hnote]
      refine .clusters c ?_ rfl ?_ ?_
      · rw [← hl, List.getElem?_append_right le_rfl, Nat.sub_self]
        rfl
      · rw [← hl, ← hend]
        exact hs.place
      · rw [← hl, ← hend]
        rfl
    · have hnote : w.noteAllocation c = w := by
        rw [FileWriter.noteAllocation, hfirst]
        rfl
      rw [hnote]
      refine .clusters first ?_ hfirst hplace hstart
      rw [List.getElem?_append_left (List.getElem?_eq_some_iff.mp hget).1]
      exact hget
  · have hdiv : w.totalWritten / g.clusterSize = l.length := by rw [hend, Nat.mul_div_cancel _ g.clusterSize_pos]
    refine ⟨?_, ?_, ?_, ?_⟩
    · show some c = _
      rw [hnew, htotal, hdiv, List.getElem?_append_right le_rfl, Nat.sub_self]
      rfl
    · show 0 = _
      rw [hnew, htotal, hend, Nat.mul_mod_left]
    · rw [hnew, htotal, hend, List.length_append, List.length_singleton]
      exact Nat.mul_lt_mul_of_pos_right (Nat.lt_succ_self _) g.clusterSize_pos
    · rw [hnew, htotal, clustersFor_succ, hdiv, List.length_append, List.length_singleton]
      have hle := h.grown.length_le
      omega

/-- So does taking it back. -/
theorem unlink_eq (v : FatVolume) : w.unlink v = { v with fat := (w.unlink v).fat } := by
  unfold FileWriter.unlink
  cases w.allocationPredecessor <;> rfl

/-- Ending the chain where it was extended and freeing the extension leaves the chain before it. -/
theorem changes_unlink (hruns : Runs g v l) (hgrown : committed <+: l) (hlast : w.allocationPredecessor = committed.getLast?)
    {T' : Nat → Cell Nat} (hT : ∀ a, T' a = if a ∈ l.drop committed.length then .free else (w.unlink v).cell a) :
    Changes v.cell T' (clusters g) l committed := by
  unfold FileWriter.unlink at hT
  rcases List.eq_nil_or_concat committed with rfl | ⟨init, last, hcommitted⟩
  · rw [show w.allocationPredecessor = none from hlast] at hT
    exact changes_free hT
  · rw [List.concat_eq_append] at hcommitted
    have hlen : committed.length = init.length + 1 := by rw [hcommitted, List.length_append, List.length_singleton]
    have hget : l[init.length]? = some last := by
      obtain ⟨r, rfl⟩ := hgrown
      rw [List.getElem?_append_left (by omega), hcommitted, List.getElem?_append_right le_rfl, Nat.sub_self]
      rfl
    have hpredecessor : w.allocationPredecessor = some last := by
      rw [hlast, hcommitted]
      simp
    have hcut : committed = l.take (init.length + 1) := hlen ▸ List.prefix_iff_eq_take.mp hgrown
    rw [hcut]
    refine hruns.changes_cut hget fun a => ?_
    rw [hT, hlen, hpredecessor]
    dsimp only
    rw [cell_write_max]
    by_cases ha : a = last
    · rw [ha, Function.update_self, if_pos (rfl : last = last)]
    · rw [Function.update_of_ne ha, if_neg ha]

/-- What was allocated is given back, and the writer stands at the end of the committed chain again. -/
theorem Held.rollback (h : Held g o D l w v) (hs : Stands g o.committed l w) (hend : w.totalWritten = l.length * g.clusterSize) :
    Held g o D o.committed (w.rollbackAllocatedClusters g v).1 (w.rollbackAllocatedClusters g v).2 ∧
    Stands g o.committed o.committed (w.rollbackAllocatedClusters g v).1 ∧
    (w.rollbackAllocatedClusters g v).1.totalWritten = o.committed.length * g.clusterSize := by
  unfold FileWriter.rollbackAllocatedClusters
  rcases h.noted with ⟨rfl, hnone⟩ | ⟨first, hget, hfirst, hplace, hstart⟩
  · rw [hnone]
    exact ⟨h, hs, hend⟩
  obtain ⟨r, hl⟩ := h.grown
  have hlast : w.allocationPredecessor = o.committed.getLast? := by
    rw [stand_end] at hplace
    exact (Prod.mk.inj hplace).1
  have hrest : Runs g (w.unlink v) (l.drop o.committed.length) := by
    refine ⟨(h.runs.drop _).chained.congr fun a ha => ?_, (h.runs.drop _).inside⟩
    have hnotin : a ∉ o.committed := fun hmem => by
      have hnodup := h.changes.chained.nodup
      rw [← hl] at hnodup ha
      rw [List.drop_left] at ha
      exact List.disjoint_of_nodup_append hnodup hmem ha
    unfold FileWriter.unlink
    cases hprevious : w.allocationPredecessor with
    | none => rfl
    | some previous =>
      have hap : a ≠ previous := by
        rintro rfl
        exact hnotin (List.mem_of_getLast? (hlast.symm.trans hprevious))
      dsimp only
      rw [cell_write_max, Function.update_of_ne hap]
  obtain ⟨fat, hfree, hcells⟩ := hrest.freeChain (by rw [List.head?_drop, hget])
  have hback : Changes v.cell ({ w.unlink v with fat } : FatVolume).cell (clusters g) l o.committed :=
    changes_unlink h.runs h.grown hlast hcells
  have hcount := hback.freeCount h.changes.chained h.changes.inside
  rw [hfirst]
  dsimp only
  rw [hfree]
  rw [unlink_eq] at hback hcount ⊢
  refine ⟨⟨h.changes.trans hback, List.prefix_refl _, ?_, h.slots, h.openWriters, h.spared, ?_, h.entry, h.preserve, ?_,
    .nothing rfl rfl⟩, ?_⟩
  · refine counted_increment h.counted rfl (Nat.add_right_cancel (m := o.committed.length) (hcount.trans ?_))
    have hle := h.grown.length_le
    rw [List.length_drop]
    omega
  · intro i hi hin
    rw [← h.octets i (hi.trans_le (Nat.mul_le_mul_right _ h.grown.length_le)) hin, ← hl, octet_append hi]
    rfl
  · dsimp only
    rw [h.first, hlast, ← hl]
    rcases List.eq_nil_or_concat o.committed with hnil | ⟨init, last, hconcat⟩
    · rw [hnil]
      rfl
    · rw [hconcat, List.concat_eq_append]
      cases init <;> simp
  · refine ⟨⟨?_, ?_, ?_⟩, hstart⟩
    · dsimp only
      rw [hplace, hstart]
    · exact hstart.le
    · show _ = max _ (clustersFor g w.allocationStartTotalWritten)
      rw [hstart, clustersFor_mul, Nat.max_self]

/-! ## A write -/

/-- What a volume has room for in a file: the clusters that are free, and those that the file has. -/
def Opened.room (g : Geometry) (o : Opened) : Nat := freeCount o.volume.cell (clusters g) + o.committed.length

/-- A cluster to write in is there, or is found, or there is none. -/
theorem Held.makeRoom (h : Held g o D l w v) (hs : Stands g o.committed l w) (ho : Runs g o.volume o.committed)
    (hD : w.totalWritten = o.off + D.length) :
    (∃ l' w' v', FileWriter.makeRoom g (w, v) = .ok () (w', v') ∧ Held g o D l' w' v' ∧ Ready g o.committed l' w' ∧
      w'.totalWritten = o.off + D.length) ∨
    (∃ w' v', FileWriter.makeRoom g (w, v) = .error .noFreeSpace (w', v') ∧ Held g o D o.committed w' v' ∧
      Stands g o.committed o.committed w' ∧ w'.totalWritten = o.committed.length * g.clusterSize ∧
      o.off + D.length = o.room g * g.clusterSize) := by
  unfold FileWriter.makeRoom
  dsimp only
  by_cases hout : w.currentCluster.isNone = true ∨ g.clusterSize ≤ w.offsetInCluster
  · rw [if_pos hout]
    obtain ⟨hmod, hnext⟩ := hs.existingNext h.runs hout
    unfold FileWriter.advance
    dsimp only
    rw [hnext]
    cases hget : l[w.totalWritten / g.clusterSize]? with
    | some c =>
      obtain ⟨hheld, hready⟩ := h.enter hs hmod hget
      exact .inl ⟨l, w.enter c, v, rfl, hheld, hready, hD⟩
    | none =>
      have hend := hs.at_end hmod hget
      dsimp only
      rcases allocate_cases g v ((w.currentCluster.map (· + 1)).getD 2) with ⟨c, halloc, hc, hfree⟩ | ⟨halloc, hnone⟩
      · rw [halloc]
        obtain ⟨hheld, hready⟩ := h.extend hs hD hend hc hfree
        have htotal : ((w.noteAllocation c).enter c).totalWritten = w.totalWritten := by
          unfold FileWriter.noteAllocation
          split <;> rfl
        exact .inl ⟨_, _, _, rfl, hheld, hready, htotal.trans hD⟩
      · rw [halloc]
        obtain ⟨hheld, hstands, htotal⟩ := h.rollback hs hend
        refine .inr ⟨_, _, rfl, hheld, hstands, htotal, ?_⟩
        have hcount := h.changes.freeCount ho.chained ho.inside
        rw [hnone, Nat.zero_add] at hcount
        rw [← hD, hend, hcount]
        rfl
  · rw [if_neg hout]
    exact .inl ⟨l, w, v, rfl, h, hs.ready hout, hD⟩

/-- What fits into the cluster is written. -/
theorem Held.put (h : Held g o D l w v) (hr : Ready g o.committed l w) (hD : w.totalWritten = o.off + D.length) {buf : List UInt8}
    (hbuf : buf ≠ []) :
    ∃ n w' v', FileWriter.put g buf (w, v) = .ok n (w', v') ∧ 0 < n ∧ n ≤ buf.length ∧ Held g o (D ++ buf.take n) l w' v' ∧
      Stands g o.committed l w' ∧ w'.totalWritten = o.off + (D ++ buf.take n).length := by
  have hcs := g.clusterSize_pos
  have hmod := Nat.mod_lt w.totalWritten hcs
  have hlen := List.length_pos_iff.mpr hbuf
  have hlt : w.totalWritten / g.clusterSize < l.length := (Nat.div_lt_iff_lt_mul hcs).mpr hr.within
  obtain ⟨c, hc⟩ : ∃ c, l[w.totalWritten / g.clusterSize]? = some c := ⟨_, List.getElem?_eq_getElem hlt⟩
  obtain ⟨n, hn⟩ : ∃ n, n = min buf.length (g.clusterSize - w.totalWritten % g.clusterSize) := ⟨_, rfl⟩
  have hpos : 0 < n := by omega
  have hfits : w.totalWritten % g.clusterSize + n ≤ g.clusterSize := by omega
  have htake : (buf.take n).length = n := List.length_take_of_le (by omega)
  obtain ⟨hdiv', hmod'⟩ := div_mod_add (g := g) hpos hfits
  have hput : FileWriter.put g buf (w, v) = .ok n ({ w with
      offsetInCluster := w.totalWritten % g.clusterSize + n
      totalWritten := w.totalWritten + n }, v.writeData c (w.totalWritten % g.clusterSize) (buf.take n)) := by
    unfold FileWriter.put
    dsimp only
    rw [hr.current, hc, hr.offset, ← hn]
    rfl
  refine ⟨n, _, _, hput, hpos, by omega, ⟨h.changes, h.grown, h.counted, h.slots, h.openWriters, fun a ha hused => ?_,
    fun i hi hin => ?_, h.entry, h.preserve, h.first, ?_⟩, ⟨?_, ?_, ?_⟩, ?_⟩
  · have hac : a ≠ c := by
      rintro rfl
      exact (h.changes.taken a (List.mem_of_getElem? hc)).elim ha hused
    exact (Function.update_of_ne hac ..).trans (h.spared a ha hused)
  · rw [octet_writeData h.changes.chained.nodup hc (by omega) hi, overlay_append, ← hD]
    rw [List.length_append, htake] at hin
    by_cases hle : w.totalWritten ≤ i
    · rw [if_pos hle, if_pos hle]
      by_cases hlast : i < w.totalWritten + n
      · rw [List.getElem?_eq_getElem (by omega)]
        rfl
      · rw [List.getElem?_eq_none (by omega)]
        have hold := h.octets i hi (.inr (hin.resolve_left (by omega)))
        unfold overlay at hold
        rw [if_neg (by omega), List.getElem?_eq_none (by omega)] at hold
        exact hold
    · rw [if_neg hle, if_neg hle]
      exact h.octets i hi (.inl (by omega))
  · rcases h.noted with ⟨hl, hnone⟩ | ⟨first, hget, hfirst, hplace, hstart⟩
    · exact .nothing hl hnone
    · exact .clusters first hget hfirst hplace hstart
  · dsimp only
    unfold stand
    rw [if_neg (by omega), hdiv', hmod', hr.current]
  · dsimp only
    have hstep := (Nat.div_lt_iff_lt_mul hcs).mp (hdiv' ▸ hlt)
    omega
  · dsimp only
    rw [hr.length]
    congr 1
    have hsucc := clustersFor_succ (g := g) (w.totalWritten + n - 1)
    rw [Nat.sub_add_cancel (by omega)] at hsucc
    rw [clustersFor_succ, hsucc, hdiv']
  · dsimp only
    rw [List.length_append, htake]
    omega

/-- A write puts all its octets into the file, or finds the volume full and gives back what the writer allocated. -/
theorem Held.writeLoop (ho : Runs g o.volume o.committed) (fuel : Nat) {buf : List UInt8} (hfuel : buf.length ≤ fuel)
    (h : Held g o D l w v) (hs : Stands g o.committed l w) (hD : w.totalWritten = o.off + D.length) :
    (∃ l' w' v', FileWriter.writeLoop g fuel buf (w, v) = .ok () (w', v') ∧ Held g o (D ++ buf) l' w' v' ∧
      Stands g o.committed l' w' ∧
      w'.totalWritten = o.off + (D ++ buf).length) ∨
    (∃ D' w' v', FileWriter.writeLoop g fuel buf (w, v) = .error .noFreeSpace (w', v') ∧ D' <+: D ++ buf ∧
      D'.length < (D ++ buf).length ∧
      Held g o D' o.committed w' v' ∧ Stands g o.committed o.committed w' ∧ w'.totalWritten = o.committed.length * g.clusterSize ∧
      o.off + D'.length = o.room g * g.clusterSize) := by
  induction fuel generalizing buf D l w v with
  | zero =>
    obtain rfl := List.length_eq_zero_iff.mp (Nat.le_zero.mp hfuel)
    rw [List.append_nil]
    exact .inl ⟨l, w, v, rfl, h, hs, hD⟩
  | succ fuel ih =>
    cases buf with
    | nil =>
      rw [List.append_nil]
      exact .inl ⟨l, w, v, rfl, h, hs, hD⟩
    | cons a rest =>
      unfold FileWriter.writeLoop
      rcases h.makeRoom hs ho hD with ⟨l', w', v', hroom, h', hr, hD'⟩ | ⟨w', v', hroom, h', hs', htotal, hfull⟩
      · rw [Effect.bind_of_ok hroom]
        obtain ⟨n, w'', v'', hput, hpos, hle, h'', hs'', hD''⟩ := h'.put hr hD' (List.cons_ne_nil a rest)
        rw [Effect.bind_of_ok hput]
        have hrest : ((a :: rest).drop n).length ≤ fuel := by
          rw [List.length_drop]
          omega
        have hsplit : D ++ (a :: rest).take n ++ (a :: rest).drop n = D ++ a :: rest := by
          rw [List.append_assoc, List.take_append_drop]
        have hgo := ih hrest h'' hs'' hD''
        rw [hsplit] at hgo
        exact hgo
      · refine .inr ⟨D, w', v', Effect.bind_of_error hroom, List.prefix_append _ _, ?_, h', hs', htotal, hfull⟩
        rw [List.length_append, List.length_cons]
        omega

/-! ## Committing -/

/-- A shorter chain has the same octets. -/
theorem octet_within {l' : List Nat} (h : l' <+: l) {i : Nat} (hi : i < l'.length * g.clusterSize) :
    octet g v l' i = octet g v l i := by
  obtain ⟨r, rfl⟩ := h
  exact (octet_append hi).symm

/-- The clusters that the content no longer needs are freed, and counted. -/
theorem Held.trim (h : Held g o D l w v) (hs : Stands g o.committed l w)
    (hpreserve : o.preserve = 0 ∨ o.committed.length = clustersFor g o.preserve) :
    ∃ l' fat freeCount, w.trim g v = (l'.head?, { v with fat, freeCount }) ∧ l' <+: l ∧
      Changes v.cell ({ v with fat, freeCount } : FatVolume).cell (clusters g) l l' ∧ Counted g { v with fat, freeCount } ∧
      l'.length = clustersFor g (max w.totalWritten w.preserveLen) := by
  unfold FileWriter.trim
  by_cases hnothing : w.totalWritten = 0 ∧ w.preserveLen = 0
  · obtain ⟨fat, freeCount, hrelease, hchanges, hcounted⟩ := h.runs.releaseChain h.counted
    rw [if_pos hnothing, h.first, hnothing.1, hnothing.2, hrelease]
    exact ⟨[], fat, freeCount, rfl, List.nil_prefix, hchanges, hcounted, clustersFor_zero.symm⟩
  · rw [if_neg hnothing]
    by_cases hcut : w.preserveLen ≤ w.totalWritten
    · have hpos : 0 < w.totalWritten := by omega
      have hlt : (w.totalWritten - 1) / g.clusterSize < l.length := by
        refine (Nat.div_lt_iff_lt_mul g.clusterSize_pos).mpr ?_
        have hwithin := hs.within
        omega
      obtain ⟨last, hlast⟩ : ∃ last, l[(w.totalWritten - 1) / g.clusterSize]? = some last := ⟨_, List.getElem?_eq_getElem hlt⟩
      have hcurrent : w.currentCluster = some last := by
        have hplace := congrArg Prod.fst hs.place
        unfold stand at hplace
        rw [if_neg (Nat.ne_of_gt hpos), hlast] at hplace
        exact hplace
      have hfor := clustersFor_succ (g := g) (w.totalWritten - 1)
      rw [Nat.sub_add_cancel hpos] at hfor
      obtain ⟨fat, freeCount, hrelease, hchanges, hcounted⟩ := h.runs.release_after h.counted hlast
      rw [if_pos hcut, hcurrent]
      dsimp only
      rw [hrelease, h.first]
      refine ⟨l.take ((w.totalWritten - 1) / g.clusterSize + 1), fat, freeCount, ?_, List.take_prefix _ _, hchanges, hcounted, ?_⟩
      · rw [List.head?_take, if_neg (Nat.succ_ne_zero _)]
      · rw [Nat.max_eq_left hcut, hfor]
        exact List.length_take_of_le (Nat.succ_le_of_lt hlt)
    · rw [if_neg hcut, h.first]
      refine ⟨l, v.fat, v.freeCount, rfl, List.prefix_refl _, .refl h.changes.chained h.changes.inside, h.counted, ?_⟩
      have hmono := clustersFor_mono (g := g) (Nat.le_of_not_le hcut)
      have hlen := hs.length
      rw [h.preserve] at hcut hmono ⊢
      rw [Nat.max_eq_right (by omega), hlen, hpreserve.resolve_left (by omega)]
      exact Nat.max_eq_left hmono

end Ratputer.Fat32
