import Ratputer.Lib.Patch
import Mathlib.Tactic.Ring

/-!
# The raw card

`embedded_sdmmc::BlockDevice`, the trait that the partition adapter and the USB class reach the card through. A device is a
parameter: its three calls on a device state, and, as `Lawful`, what the driver documents about the card's contents. A read
delivers the blocks asked for or nothing; a write that fails may have stored any of the blocks of that call, each whole.
-/

namespace Ratputer

open Patch

/-- `Block::LEN`, and `BLOCK_LEN` of the partition adapter. -/
def BLOCK_LEN : ℕ := 512

/-- One block of the card. -/
structure Block where
  bytes : List UInt8
  length_bytes : bytes.length = 512
  deriving DecidableEq

/-- `Block::new()`. -/
def Block.new : Block := ⟨List.replicate 512 0, List.length_replicate⟩

instance : Inhabited Block := ⟨Block.new⟩

/-- A block filled from `bytes` (`copy_from_slice` of 512 bytes). -/
def Block.ofBytes (bytes : List UInt8) : Block :=
  ⟨(bytes ++ List.replicate 512 0).take 512, by simp only [List.length_take, List.length_append, List.length_replicate]; omega⟩

/-- A block with `data` copied over its bytes from `offset` on. -/
def Block.splice (b : Block) (offset : ℕ) (data : List UInt8) : Block :=
  .ofBytes (b.bytes.take offset ++ data ++ b.bytes.drop (offset + data.length))

/-- The `BlockDevice` calls. `read` and `write` name the first block; a read also names how many blocks its buffer holds. -/
structure BlockDevice (D : Type) where
  numBlocks : D → Option ℕ
  read : D → ℕ → ℕ → Option (List Block) × D
  write : D → ℕ → List Block → Bool × D

/-- What the driver documents: the contents of the card as an image, and what each call does to it. -/
structure BlockDevice.Lawful {D : Type} (dev : BlockDevice D) (image : D → ℕ → Block) : Prop where
  numBlocks_lt : ∀ d n, dev.numBlocks d = some n → n < 2 ^ 32
  read_some : ∀ d start count blocks, (dev.read d start count).1 = some blocks → blocks = window (image d) start count
  read_image : ∀ d start count, image (dev.read d start count).2 = image d
  read_numBlocks : ∀ d start count, dev.numBlocks (dev.read d start count).2 = dev.numBlocks d
  write_true : ∀ d start blocks, (dev.write d start blocks).1 = true →
    image (dev.write d start blocks).2 = patch (image d) start blocks
  write_any : ∀ d start blocks a, image (dev.write d start blocks).2 a = image d a ∨
    image (dev.write d start blocks).2 a = patch (image d) start blocks a
  write_numBlocks : ∀ d start blocks, dev.numBlocks (dev.write d start blocks).2 = dev.numBlocks d

/-- A device whose transfers inside the card succeed. -/
structure BlockDevice.Succeeds {D : Type} (dev : BlockDevice D) : Prop where
  read : ∀ d n start count, dev.numBlocks d = some n → start + count ≤ n → (dev.read d start count).1.isSome
  write : ∀ d n start blocks, dev.numBlocks d = some n → start + blocks.length ≤ n → (dev.write d start blocks).1 = true

/-- The byte at an absolute address of an image. -/
def byteAt (image : ℕ → Block) (a : ℕ) : UInt8 := (image (a / 512)).bytes.getD (a % 512) 0

/-! ## Blocks as bytes -/

namespace CardAux

attribute [simp] Block.length_bytes

/-- A block is the list of its bytes. -/
theorem ext_bytes {a b : Block} (h : a.bytes = b.bytes) : a = b := by
  obtain ⟨a, _⟩ := a
  obtain ⟨b, _⟩ := b
  obtain rfl : a = b := h
  rfl

/-- A block built from 512 bytes holds them. -/
theorem bytes_ofBytes {l : List UInt8} (h : l.length = 512) : (Block.ofBytes l).bytes = l :=
  List.take_left' h

/-- The bytes of a block at its own addresses are the bytes of the image. -/
theorem byteAt_block (image : ℕ → Block) (n i : ℕ) (h : i < (image n).bytes.length) :
    byteAt image (n * 512 + i) = (image n).bytes[i] := by
  rw [Block.length_bytes] at h
  have h1 : (n * 512 + i) / 512 = n := by omega
  have h2 : (n * 512 + i) % 512 = i := by omega
  rw [byteAt, h1, h2]
  exact List.getD_eq_getElem _ _ (by simpa using h)

/-- The bytes of a range of blocks are the window of bytes at that range. -/
theorem flatMap_bytes_window (image : ℕ → Block) (start count : ℕ) :
    (window image start count).flatMap Block.bytes = window (byteAt image) (start * 512) (count * 512) := by
  induction count with
  | zero => simp
  | succ count ih =>
    have hone : (window image (start + count) 1).flatMap Block.bytes = window (byteAt image) ((start + count) * 512) 512 := by
      have hb : (image (start + count)).bytes = window (byteAt image) ((start + count) * 512) 512 := by
        have := eq_window (f := byteAt image) (p := (start + count) * 512) (l := (image (start + count)).bytes)
          (fun i hi => (byteAt_block image _ i (by simpa using hi)).symm)
        simpa using this
      simpa [window] using hb
    rw [window_add, List.flatMap_append, ih, hone, Nat.succ_mul, window_add, Nat.add_mul]

/-- Overwriting whole blocks overwrites exactly their bytes. -/
theorem byteAt_patch (image : ℕ → Block) (start : ℕ) (blocks : List Block) :
    byteAt (patch image start blocks) = patch (byteAt image) (start * 512) (blocks.flatMap Block.bytes) := by
  have hlen : (blocks.flatMap Block.bytes).length = blocks.length * 512 := by
    simp [List.length_flatMap]
  funext a
  by_cases h : start ≤ a / 512 ∧ a / 512 < start + blocks.length
  · have hb : start * 512 ≤ a ∧ a < start * 512 + blocks.length * 512 := by omega
    have hw := congrArg (fun l => l[a - start * 512]?) (flatMap_bytes_window (patch image start blocks) start blocks.length)
    simp only [window_patch] at hw
    rw [List.getElem?_eq_getElem (by omega), List.getElem?_eq_getElem (by simp; omega)] at hw
    rw [patch_of_mem _ hb.1 (by omega), Option.some.inj hw, getElem_window]
    congr 1
    omega
  · rw [patch_of_not_mem _ (by omega)]
    simp only [byteAt, patch_of_not_mem image (show a / 512 < start ∨ start + blocks.length ≤ a / 512 by omega)]

/-- The bytes of a spliced block: the old bytes around the data. -/
theorem bytes_splice (b : Block) (offset : ℕ) (data : List UInt8) (h : offset + data.length ≤ 512) :
    (b.splice offset data).bytes = b.bytes.take offset ++ data ++ b.bytes.drop (offset + data.length) := by
  apply bytes_ofBytes
  simp only [List.length_append, List.length_take, List.length_drop, Block.length_bytes]
  omega

/-- Splicing a block and writing it back overwrites exactly the spliced bytes. -/
theorem byteAt_patch_splice (image : ℕ → Block) (n offset : ℕ) (data : List UInt8) (h : offset + data.length ≤ 512) :
    byteAt (patch image n [(image n).splice offset data]) = patch (byteAt image) (n * 512 + offset) data := by
  have hblock := flatMap_bytes_window image n 1
  simp only [window_one, List.flatMap_cons, List.flatMap_nil, List.append_nil, Nat.one_mul] at hblock
  have hlen : ((image n).bytes.take offset).length = offset := List.length_take_of_le (by simp; omega)
  have hhead : (image n).bytes.take offset = window (byteAt image) (n * 512) offset := by
    rw [hblock, take_window _ _ (by omega)]
  have htail : (image n).bytes.drop (offset + data.length) =
      window (byteAt image) (n * 512 + offset + data.length) (512 - (offset + data.length)) := by
    rw [hblock, drop_window, Nat.add_assoc]
  -- The head and the tail of the block write back what was there.
  rw [byteAt_patch, List.flatMap_cons, List.flatMap_nil, List.append_nil, bytes_splice _ _ _ h, List.append_assoc,
    ← patch_patch_append, hlen, hhead, patch_window, ← patch_patch_append, htail]
  exact patch_window_of_disjoint _ (Or.inr le_rfl)

end CardAux

/-! ## A card in memory -/

/-- The contents of a card in memory; behind its end, empty blocks. -/
def ramImage (d : List Block) : ℕ → Block := fun i => d.getD i Block.new

/-- A card that never fails: its blocks, in order. -/
def ramCard : BlockDevice (List Block) where
  numBlocks d := if d.length < 2 ^ 32 then some d.length else none
  read d start count := (some (window (ramImage d) start count), d)
  write d start blocks :=
    if start + blocks.length ≤ d.length then (true, d.take start ++ blocks ++ d.drop (start + blocks.length)) else (false, d)

/-- Storing blocks inside the card overwrites exactly their range. -/
theorem ramImage_write (d : List Block) (start : ℕ) (blocks : List Block) (h : start + blocks.length ≤ d.length) :
    ramImage (d.take start ++ blocks ++ d.drop (start + blocks.length)) = patch (ramImage d) start blocks := by
  have htake : (d.take start).length = start := List.length_take_of_le (by omega)
  funext a
  rcases Nat.lt_or_ge a start with h1 | h1
  · rw [patch_of_not_mem _ (Or.inl h1), ramImage, ramImage, List.getD_eq_getElem?_getD, List.getD_eq_getElem?_getD,
      List.append_assoc, List.getElem?_append_left (by omega), List.getElem?_take_of_lt h1]
  · rcases Nat.lt_or_ge a (start + blocks.length) with h2 | h2
    · rw [patch_of_mem _ h1 h2, ramImage, List.getD_eq_getElem?_getD, List.append_assoc,
        List.getElem?_append_right (by omega), htake, List.getElem?_append_left (by omega),
        List.getElem?_eq_getElem (by omega), Option.getD_some]
    · rw [patch_of_not_mem _ (Or.inr h2), ramImage, ramImage, List.getD_eq_getElem?_getD, List.getD_eq_getElem?_getD,
        List.getElem?_append_right (by simp only [List.length_append]; omega), List.getElem?_drop, List.length_append, htake]
      congr 2
      omega

/-- The card in memory does what the driver documents. -/
theorem ramCard_lawful : ramCard.Lawful ramImage where
  numBlocks_lt d n h := by
    simp only [ramCard] at h
    split at h
    · simp_all
    · cases h
  read_some d start count blocks h := by
    simp only [ramCard, Option.some.injEq] at h
    exact h.symm
  read_image d start count := rfl
  read_numBlocks d start count := rfl
  write_true d start blocks h := by
    simp only [ramCard] at h ⊢
    split at h
    · rename_i hle
      rw [if_pos hle]
      exact ramImage_write d start blocks hle
    · cases h
  write_any d start blocks a := by
    simp only [ramCard]
    split
    · rename_i hle
      exact Or.inr (congrFun (ramImage_write d start blocks hle) a)
    · exact Or.inl rfl
  write_numBlocks d start blocks := by
    simp only [ramCard]
    split
    · have hlen : (d.take start ++ blocks ++ d.drop (start + blocks.length)).length = d.length := by
        simp only [List.length_append, List.length_take, List.length_drop]
        omega
      rw [hlen]
    · rfl

/-- Every transfer inside the card in memory succeeds. -/
theorem ramCard_succeeds : ramCard.Succeeds where
  read d n start count _ _ := rfl
  write d n start blocks hn h := by
    simp only [ramCard] at hn ⊢
    split at hn
    · rw [if_pos (by simp_all)]
    · cases hn

/-! ## A card with worn blocks -/

/-- A card in memory some of whose blocks cannot be transferred. A read that covers one delivers nothing. A write that covers one
fails, and stores the blocks before it when `torn`, else nothing. -/
def wornCard (worn : ℕ → Bool) (torn : Bool) : BlockDevice (List Block) where
  numBlocks := ramCard.numBlocks
  read d start count := if (List.range count).any fun i => worn (start + i) then (none, d) else ramCard.read d start count
  write d start blocks :=
    let good := ((List.range blocks.length).takeWhile fun i => !worn (start + i)).length
    if good = blocks.length then ramCard.write d start blocks
    else (false, if torn then (ramCard.write d start (blocks.take good)).2 else d)

/-- A worn card does what the driver documents. -/
theorem wornCard_lawful (worn : ℕ → Bool) (torn : Bool) : (wornCard worn torn).Lawful ramImage where
  numBlocks_lt := ramCard_lawful.numBlocks_lt
  read_some d start count blocks h := by
    simp only [wornCard] at h
    split at h
    · cases h
    · exact ramCard_lawful.read_some d start count blocks h
  read_image d start count := by
    simp only [wornCard]
    split
    · rfl
    · rfl
  read_numBlocks d start count := by
    simp only [wornCard]
    split
    · rfl
    · rfl
  write_true d start blocks h := by
    simp only [wornCard] at h ⊢
    split
    · rename_i hgood
      rw [if_pos hgood] at h
      exact ramCard_lawful.write_true d start blocks h
    · rename_i hgood
      rw [if_neg hgood] at h
      cases h
  write_any d start blocks a := by
    simp only [wornCard]
    split
    · exact ramCard_lawful.write_any d start blocks a
    · split
      · rcases ramCard_lawful.write_any d start (blocks.take _) a with h | h
        · exact Or.inl h
        · rw [h]
          exact patch_take ..
      · exact Or.inl rfl
  write_numBlocks d start blocks := by
    simp only [wornCard]
    split
    · exact ramCard_lawful.write_numBlocks d start blocks
    · split
      · exact ramCard_lawful.write_numBlocks d start _
      · rfl

/-- A worn card refuses exactly the reads that cover a worn block. -/
theorem wornCard_read_none (worn : ℕ → Bool) (torn : Bool) (d : List Block) (start count : ℕ) :
    ((wornCard worn torn).read d start count).1 = none ↔ ∃ a, start ≤ a ∧ a < start + count ∧ worn a = true := by
  simp only [wornCard]
  split
  · rename_i h
    obtain ⟨i, hi, hw⟩ := List.any_eq_true.mp h
    exact iff_of_true rfl ⟨start + i, Nat.le_add_right .., Nat.add_lt_add_left (List.mem_range.mp hi) _, hw⟩
  · rename_i h
    refine iff_of_false nofun ?_
    rintro ⟨a, h1, h2, hw⟩
    refine h (List.any_eq_true.mpr ⟨a - start, List.mem_range.mpr (by omega), ?_⟩)
    rwa [Nat.add_sub_cancel' h1]

end Ratputer
