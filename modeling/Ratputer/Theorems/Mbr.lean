import Ratputer.Theorems.SdBlock

/-!
# The partition table under the partition

`mount` adopts the first entry of the table with a type and a length, and checks where it ends, not where it starts: an entry
that starts at block 0 is a partition over its own table. Of any other partition no call reaches the table.
-/

namespace Ratputer

open Octets Patch

/-! ## The table -/

/-- The type field of an entry. -/
def partitionType (mbr : List UInt8) (index : ℕ) : UInt8 := mbr.getD (MBR_PARTITION_TABLE + index * 16 + 4) 0

/-- First block of an entry, 32 bits. -/
def partitionStart (mbr : List UInt8) (index : ℕ) : ℕ := leNat ((mbr.drop (MBR_PARTITION_TABLE + index * 16 + 8)).take 4)

/-- Number of blocks of an entry, 32 bits. -/
def partitionLength (mbr : List UInt8) (index : ℕ) : ℕ := leNat ((mbr.drop (MBR_PARTITION_TABLE + index * 16 + 12)).take 4)

/-- An entry with a type and a length. -/
def Usable (mbr : List UInt8) (index : ℕ) : Prop := partitionType mbr index ≠ 0 ∧ partitionLength mbr index ≠ 0

instance (mbr : List UInt8) (index : ℕ) : Decidable (Usable mbr index) := by unfold Usable; infer_instance

/-- The first of the four entries that is usable. -/
structure FirstUsable (mbr : List UInt8) (index : ℕ) : Prop where
  lt : index < 4
  usable : Usable mbr index
  first : ∀ j < index, ¬ Usable mbr j

namespace MbrAux

/-- Fields of an entry are read from its sixteen bytes. -/
theorem entry_take (mbr : List UInt8) (offset : ℕ) {i : ℕ} (hi : i + 4 ≤ 16) :
    (((mbr.drop offset).take 16).drop i).take 4 = (mbr.drop (offset + i)).take 4 := by
  rw [List.drop_take, List.take_take, List.drop_drop, Nat.min_eq_left (by omega)]

theorem entry_type (mbr : List UInt8) (offset : ℕ) : ((mbr.drop offset).take 16).getD 4 0 = mbr.getD (offset + 4) 0 := by
  simp only [List.getD_eq_getElem?_getD, List.getElem?_take, List.getElem?_drop]
  rfl

/-- One step of the scan. -/
theorem firstPartition_cons (mbr : List UInt8) (index : ℕ) (rest : List ℕ) :
    firstPartition mbr (index :: rest) = if Usable mbr index then
      some (partitionStart mbr index * BLOCK_LEN, partitionLength mbr index * BLOCK_LEN) else firstPartition mbr rest := by
  rw [firstPartition]
  dsimp only
  rw [entry_type, entry_take _ _ (by decide), entry_take _ _ (by decide)]
  change (if partitionType mbr index = 0 then _ else if partitionLength mbr index = 0 then _ else _) = _
  by_cases htype : partitionType mbr index = 0
  · rw [if_pos htype, if_neg fun h => h.1 htype]
  · by_cases hlength : partitionLength mbr index = 0
    · rw [if_neg htype, if_pos hlength, if_neg fun h => h.2 hlength]
    · rw [if_neg htype, if_neg hlength, if_pos ⟨htype, hlength⟩]
      rfl

/-- The scan from an entry on finds the first usable one. -/
theorem firstPartition_some {mbr : List UInt8} {base size : ℕ} {n k : ℕ}
    (h : firstPartition mbr (List.range' k n) = some (base, size)) :
    ∃ index < k + n, Usable mbr index ∧ (∀ j, k ≤ j → j < index → ¬ Usable mbr j) ∧
      base = partitionStart mbr index * BLOCK_LEN ∧ size = partitionLength mbr index * BLOCK_LEN := by
  induction n generalizing k with
  | zero => nomatch h
  | succ n ih =>
    rw [List.range'_succ, firstPartition_cons] at h
    split_ifs at h with hk
    · injection h with h
      injection h with hbase hsize
      exact ⟨k, by omega, hk, fun j hj hj' => absurd hj (by omega), hbase.symm, hsize.symm⟩
    · obtain ⟨index, hlt, husable, hfirst, hrange⟩ := ih h
      refine ⟨index, by omega, husable, fun j hj hj' => ?_, hrange⟩
      rcases Nat.eq_or_lt_of_le hj with rfl | hj
      · exact hk
      · exact hfirst j hj hj'

end MbrAux

variable {D : Type} {dev : BlockDevice D} {image : D → ℕ → Block}

namespace MbrAux

/-- What `mount` adopts: the first usable entry, where it lies on the card. -/
theorem mount_adopts (law : dev.Lawful image) {card : D} {s : SdBlockDevice D} (h : SdBlockDevice.mount dev card = .ok s) :
    ∃ index, FirstUsable (image card 0).bytes index ∧ s.base = partitionStart (image card 0).bytes index * BLOCK_LEN ∧
      s.size = partitionLength (image card 0).bytes index * BLOCK_LEN := by
  unfold SdBlockDevice.mount at h
  split at h
  · cases h
  rename_i mbr card' hread
  have hmbr : mbr = [image card 0] := law.read_some card 0 1 mbr (by rw [hread])
  subst hmbr
  dsimp only at h
  split_ifs at h
  split at h
  · cases h
  rename_i base size hfound
  split at h
  · cases h
  split_ifs at h
  obtain rfl := Except.ok.inj h
  have hbytes : [image card 0].flatMap Block.bytes = (image card 0).bytes := List.flatMap_singleton ..
  rw [hbytes] at hfound
  obtain ⟨index, hlt, husable, hfirst, hbase, hsize⟩ := firstPartition_some (n := 4) (k := 0) hfound
  exact ⟨index, ⟨by omega, husable, fun j hj => hfirst j (Nat.zero_le j) hj⟩, hbase, hsize⟩

/-- No call moves the range. -/
theorem sdStep_range (s : SdBlockDevice D) (call : SdCall) :
    (sdStep dev s call).1.base = s.base ∧ (sdStep dev s call).1.size = s.size := by
  cases call with
  | seek pos =>
    simp only [sdStep, SdBlockDevice.seek]
    constructor <;> split_ifs <;> rfl
  | read len =>
    simp only [sdStep, SdBlockDevice.read]
    split
    · exact ⟨rfl, rfl⟩
    · split
      · exact ⟨rfl, rfl⟩
      · split <;> exact ⟨rfl, rfl⟩
  | write buf =>
    simp only [sdStep, SdBlockDevice.write]
    split
    · exact ⟨rfl, rfl⟩
    · split
      · exact ⟨rfl, rfl⟩
      · split <;> exact ⟨rfl, rfl⟩

/-- A call changes no byte before the range. -/
theorem sdStep_before (law : dev.Lawful image) {n : ℕ} {s : SdBlockDevice D} (hs : s.Mounted dev n) (call : SdCall) {a : ℕ}
    (ha : a < s.base) : byteAt (image (sdStep dev s call).1.card) a = byteAt (image s.card) a := by
  obtain ⟨-, hrange⟩ | ⟨-, -, -, hfail⟩ := (call_refines law hs call).1
  · have hbytes : byteAt (image (sdStep dev s call).1.card) = ((s.range image).step call).1.bytes := congrArg ByteRange.bytes hrange
    rw [hbytes]
    cases call with
    | seek pos =>
      rw [ByteRange.step]
      split <;> rfl
    | read len =>
      rw [ByteRange.step]
      split <;> rfl
    | write buf =>
      rw [ByteRange.step]
      split
      · rfl
      · exact patch_of_not_mem _ (.inl (Nat.lt_add_right _ ha))
  · cases call with
    | seek pos => exact hfail.elim
    | read len => rw [hfail]
    | write buf => exact hfail a (.inl (Nat.lt_add_right _ ha))

end MbrAux

variable (dev image) in
/-- The range has no byte of block 0, and no sequence of calls changes one. -/
structure SparesTable (s : SdBlockDevice D) : Prop where
  outside : ∀ a, s.base ≤ a → a < s.base + s.size → BLOCK_LEN ≤ a
  unchanged : ∀ calls, ∀ a < BLOCK_LEN, byteAt (image (Mealy.final (sdStep dev) s calls).card) a = byteAt (image s.card) a

/-- A mounted adapter has the range of the first entry with a type and a length, on the card; and it spares the partition table
if and only if that entry does not start at block 0. -/
theorem spares_table_iff (law : dev.Lawful image) {card : D} {s : SdBlockDevice D} (hm : SdBlockDevice.mount dev card = .ok s) :
    ∃ index, FirstUsable (image card 0).bytes index ∧ s.base = partitionStart (image card 0).bytes index * BLOCK_LEN ∧
      s.size = partitionLength (image card 0).bytes index * BLOCK_LEN ∧
      (∃ n, dev.numBlocks s.card = some n ∧ s.base + s.size ≤ n * BLOCK_LEN) ∧
      (SparesTable dev image s ↔ partitionStart (image card 0).bytes index ≠ 0) := by
  obtain ⟨index, hfirst, hbase, hsize⟩ := MbrAux.mount_adopts law hm
  obtain ⟨n, hs, -, -, -⟩ := SdBlockAux.mounted_of_mount law hm
  refine ⟨index, hfirst, hbase, hsize, ⟨n, hs.numBlocks, hs.onCard⟩, ?_, ?_⟩
  · intro hspares hzero
    have hlength := hfirst.usable.2
    have hin := hspares.outside 0 (by rw [hbase, hzero]; omega) (by rw [hsize, BLOCK_LEN]; omega)
    exact absurd hin (by decide)
  · intro hstart
    have hlow : BLOCK_LEN ≤ s.base := by
      rw [hbase]
      exact Nat.le_mul_of_pos_left _ (Nat.pos_of_ne_zero hstart)
    refine ⟨fun a ha _ => hlow.trans ha, fun calls a ha => ?_⟩
    have hinv : (Mealy.final (sdStep dev) s calls).Mounted dev n ∧ (Mealy.final (sdStep dev) s calls).base = s.base ∧
        byteAt (image (Mealy.final (sdStep dev) s calls).card) a = byteAt (image s.card) a :=
      Mealy.invariant (fun s' => s'.Mounted dev n ∧ s'.base = s.base ∧ byteAt (image s'.card) a = byteAt (image s.card) a)
        (fun s' call hi _ => ⟨(call_refines law hi.1 call).2, (MbrAux.sdStep_range s' call).1.trans hi.2.1,
          (MbrAux.sdStep_before law hi.1 call (by rw [hi.2.1]; omega)).trans hi.2.2⟩)
        ⟨hs, rfl, rfl⟩ (Mealy.along_of_forall (fun _ _ => trivial) s calls)
    exact hinv.2.2

/-- The small card's partition starts behind the table. -/
theorem spares_table_iff_smallCard :
    ∃ index, FirstUsable (ramImage smallCard 0).bytes index ∧
      (SparesTable ramCard ramImage smallAdapter ↔ partitionStart (ramImage smallCard 0).bytes index ≠ 0) := by
  have hmount : SdBlockDevice.mount ramCard smallCard = .ok smallAdapter := by decide +kernel
  obtain ⟨index, hfirst, -, -, -, hiff⟩ := spares_table_iff ramCard_lawful hmount
  exact ⟨index, hfirst, hiff⟩

/-- A card of two blocks whose partition table gives both to the first entry. -/
def overlaidCard : List Block :=
  [(Block.new.splice MBR_PARTITION_TABLE ([0, 0, 0, 0, 0x0C, 0, 0, 0] ++ leBytes 4 0 ++ leBytes 4 2)).splice MBR_SIGNATURE
    [0x55, 0xAA], Block.new]

/-- The adapter mounts on it, and its first write of a block of zeros erases the table. -/
theorem table_overwritten :
    SdBlockDevice.mount ramCard overlaidCard = .ok ⟨overlaidCard, 0, 1024, 0⟩ ∧
      partitionType (ramImage overlaidCard 0).bytes 0 = 0x0C ∧
      (Mealy.final (sdStep ramCard) ⟨overlaidCard, 0, 1024, 0⟩ [.write (List.replicate 512 0)]).card =
        [Block.new, Block.new] := by
  refine ⟨by decide +kernel, by decide +kernel, by decide +kernel⟩

end Ratputer
