import Ratputer.Lemmas.SdBlock
import Ratputer.Lib.Mealy

/-!
# The partition adapter is a byte array

`ByteRange` says what the adapter is for: a range of bytes with a position. Every sequence of `seek`, `read` and `write` calls
on a mounted adapter answers and changes the card as the byte range does; a failing transfer moves no position and touches no
byte outside the range of its call.
-/

namespace Ratputer

open Patch

/-! ## The byte range -/

/-- A call on the adapter, and on the byte range. -/
inductive SdCall where
  | seek (pos : SeekFrom)
  | read (len : ℕ)
  | write (buf : List UInt8)

/-- What a successful call returns. -/
inductive SdReply where
  | position (value : ℕ)
  | bytes (data : List UInt8)
  | count (value : ℕ)
  deriving DecidableEq

/-- A card as bytes, a range of it and a position in the range. -/
structure ByteRange where
  bytes : ℕ → UInt8
  base : ℕ
  size : ℕ
  pos : ℕ

/-- Where a seek goes, from a range of `size` bytes at position `pos`. -/
def SeekFrom.target (size pos : ℕ) : SeekFrom → ℤ
  | .start value => value
  | .fromEnd value => size + value
  | .current value => pos + value

/-- One call on the byte range. -/
def ByteRange.step (r : ByteRange) : SdCall → ByteRange × Except SdBlockError SdReply
  | .seek pos =>
    if 0 ≤ pos.target r.size r.pos ∧ pos.target r.size r.pos ≤ r.size then
      ({ r with pos := (pos.target r.size r.pos).toNat }, .ok (.position (pos.target r.size r.pos).toNat))
    else
      (r, .error .invalidPosition)
  | .read len =>
    if r.pos + len > r.size then
      (r, .error .outOfRange)
    else
      ({ r with pos := r.pos + len }, .ok (.bytes (window r.bytes (r.base + r.pos) len)))
  | .write buf =>
    if r.pos + buf.length > r.size then
      (r, .error .outOfRange)
    else
      ({ r with bytes := patch r.bytes (r.base + r.pos) buf, pos := r.pos + buf.length }, .ok (.count buf.length))

variable {D : Type} (dev : BlockDevice D) (image : D → ℕ → Block)

/-- One call on the adapter. -/
def sdStep (s : SdBlockDevice D) : SdCall → SdBlockDevice D × Except SdBlockError SdReply
  | .seek pos => ((s.seek pos).2, (s.seek pos).1.map .position)
  | .read len => ((s.read dev len).2, (s.read dev len).1.map .bytes)
  | .write buf => ((s.write dev buf).2, (s.write dev buf).1.map .count)

/-- The byte range that an adapter stands for. -/
def SdBlockDevice.range (s : SdBlockDevice D) : ByteRange :=
  { bytes := byteAt (image s.card), base := s.base, size := s.size, pos := s.pos }

/-- A call does what the byte range does; or a transfer fails, and then the position stays, and so does every byte outside
the range that a write names. -/
def CallRefines (s : SdBlockDevice D) (call : SdCall) : Prop :=
  (sdStep dev s call).2 = ((s.range image).step call).2 ∧
      (sdStep dev s call).1.range image = ((s.range image).step call).1 ∨
    ¬ dev.Succeeds ∧ (sdStep dev s call).2 = .error .device ∧ (sdStep dev s call).1.pos = s.pos ∧
      match call with
      | .seek _ => False
      | .read _ => image (sdStep dev s call).1.card = image s.card
      | .write buf => ∀ a, a < s.base + s.pos ∨ s.base + s.pos + buf.length ≤ a →
          byteAt (image (sdStep dev s call).1.card) a = byteAt (image s.card) a

/-- What holds of an adapter after `mount` and after every call: the partition lies on the card and the position in it. -/
structure SdBlockDevice.Mounted (n : ℕ) (s : SdBlockDevice D) : Prop where
  numBlocks : dev.numBlocks s.card = some n
  onCard : s.base + s.size ≤ n * BLOCK_LEN
  inRange : s.pos ≤ s.size

namespace SdBlockAux

variable {dev image}

theorem checkRange_eq {n : ℕ} {s : SdBlockDevice D} (hn : n < 2 ^ 32) (hs : s.Mounted dev n) (len : ℕ) :
    s.checkRange len = if s.pos + len > s.size then .error .outOfRange else .ok () := by
  have hcard := hs.onCard
  simp only [BLOCK_LEN] at hcard
  unfold SdBlockDevice.checkRange
  simp only
  split_ifs with h1 h2 <;> first | rfl | omega

/-- `mount` accepts a partition only when it lies on the card, and starts at its first byte. -/
theorem mounted_of_mount (law : dev.Lawful image) {card : D} {s : SdBlockDevice D}
    (h : SdBlockDevice.mount dev card = .ok s) :
    ∃ n, s.Mounted dev n ∧ n < 2 ^ 32 ∧ image s.card = image card ∧ s.pos = 0 := by
  unfold SdBlockDevice.mount at h
  split at h
  · cases h
  · rename_i mbr card' hread
    have hcard : card' = (dev.read card 0 1).2 := by rw [hread]
    simp only at h
    split_ifs at h
    split at h
    · cases h
    · rename_i base size _
      split at h
      · cases h
      · rename_i n hn
        split_ifs at h with hle
        obtain rfl := Except.ok.inj h
        exact ⟨n, ⟨hn, by simp only; omega, Nat.zero_le _⟩, law.numBlocks_lt card' n hn, by rw [hcard, law.read_image], rfl⟩

end SdBlockAux

open SdBlockAux

variable {dev image}

/-- A call that ends in `s'` with the answer `o`, where the byte range ends in the range of `s'` with the same answer. -/
theorem CallRefines.of_step {s s' : SdBlockDevice D} {call : SdCall} {o : Except SdBlockError SdReply}
    (h : sdStep dev s call = (s', o)) (hr : (s.range image).step call = (s'.range image, o)) :
    CallRefines dev image s call :=
  Or.inl ⟨by rw [h, hr], by rw [h, hr]⟩

/-- A seek is the seek of the byte range and leaves the card alone. -/
theorem seek_refines {n : ℕ} {s : SdBlockDevice D} (hs : s.Mounted dev n) (pos : SeekFrom) :
    CallRefines dev image s (.seek pos) ∧ (sdStep dev s (.seek pos)).1.Mounted dev n := by
  have htarget : s.seek pos = if 0 ≤ pos.target s.size s.pos ∧ pos.target s.size s.pos ≤ s.size then
      (.ok (pos.target s.size s.pos).toNat, { s with pos := (pos.target s.size s.pos).toNat })
    else (.error .invalidPosition, s) := by
    cases pos <;> rfl
  by_cases h : 0 ≤ pos.target s.size s.pos ∧ pos.target s.size s.pos ≤ s.size
  · have hstep : sdStep dev s (.seek pos) =
        ({ s with pos := (pos.target s.size s.pos).toNat }, .ok (.position (pos.target s.size s.pos).toNat)) := by
      rw [sdStep, htarget, if_pos h]
      rfl
    refine ⟨.of_step hstep (if_pos h), ?_⟩
    rw [hstep]
    exact ⟨hs.numBlocks, hs.onCard, by simp only; omega⟩
  · have hstep : sdStep dev s (.seek pos) = (s, .error .invalidPosition) := by
      rw [sdStep, htarget, if_neg h]
      rfl
    refine ⟨.of_step hstep (if_neg h), ?_⟩
    rw [hstep]
    exact hs

/-- A read is the read of the byte range, or fails without moving the position. -/
theorem read_refines (law : dev.Lawful image) {n : ℕ} {s : SdBlockDevice D} (hs : s.Mounted dev n) (len : ℕ) :
    CallRefines dev image s (.read len) ∧ (sdStep dev s (.read len)).1.Mounted dev n := by
  have hn := law.numBlocks_lt _ _ hs.numBlocks
  have hpos := hs.inRange
  have hcard := hs.onCard
  by_cases hrange : s.pos + len > s.size
  · have hstep : sdStep dev s (.read len) = (s, .error .outOfRange) := by
      rw [sdStep, SdBlockDevice.read, if_neg (by omega), checkRange_eq hn hs, if_pos hrange]
      rfl
    refine ⟨.of_step hstep (if_pos hrange), ?_⟩
    rw [hstep]
    exact hs
  · have hspec := readLoop_spec law (s.base + s.pos) len 0 [] s.card hs.numBlocks (by omega) len.zero_le rfl
    have hread : s.read dev len = ((readLoop dev (s.base + s.pos) len 0 [] s.card).1,
        { s with
          card := (readLoop dev (s.base + s.pos) len 0 [] s.card).2
          pos := if (readLoop dev (s.base + s.pos) len 0 [] s.card).1.toBool then s.pos + len else s.pos }) := by
      by_cases h0 : len = 0
      · subst h0
        rw [SdBlockDevice.read, if_pos rfl, readLoop, dif_neg (by omega)]
        rfl
      · rw [SdBlockDevice.read, if_neg h0, checkRange_eq hn hs]
        rcases readLoop dev (s.base + s.pos) len 0 [] s.card with ⟨_ | _, _⟩
        · exact if_neg hrange ▸ rfl
        · exact if_neg hrange ▸ rfl
    generalize readLoop dev (s.base + s.pos) len 0 [] s.card = r at hspec hread
    obtain ⟨r, card'⟩ := r
    obtain ⟨h1, h2, rfl | ⟨rfl, hfail⟩⟩ := hspec
    · have hstep : sdStep dev s (.read len) = ({ s with card := card', pos := s.pos + len },
          .ok (.bytes (window (byteAt (image s.card)) (s.base + s.pos) len))) := by
        rw [sdStep, hread]
        rfl
      refine ⟨.of_step hstep ?_, ?_⟩
      · refine (if_neg hrange).trans ?_
        simp only [SdBlockDevice.range, h1]
      · rw [hstep]
        exact ⟨h2, hcard, by simp only; omega⟩
    · have hstep : sdStep dev s (.read len) = ({ s with card := card' }, .error .device) := by
        rw [sdStep, hread]
        rfl
      refine ⟨Or.inr ⟨hfail, by rw [hstep], by rw [hstep], by rw [hstep]; exact h1⟩, ?_⟩
      rw [hstep]
      exact ⟨h2, hcard, hpos⟩

/-- A write is the write of the byte range, or fails without moving the position or touching a byte outside its range. -/
theorem write_refines (law : dev.Lawful image) {n : ℕ} {s : SdBlockDevice D} (hs : s.Mounted dev n) (buf : List UInt8) :
    CallRefines dev image s (.write buf) ∧ (sdStep dev s (.write buf)).1.Mounted dev n := by
  have hn := law.numBlocks_lt _ _ hs.numBlocks
  have hpos := hs.inRange
  have hcard := hs.onCard
  by_cases hrange : s.pos + buf.length > s.size
  · have hne : buf ≠ [] := by
      rintro rfl
      simp only [List.length_nil] at hrange
      omega
    have hstep : sdStep dev s (.write buf) = (s, .error .outOfRange) := by
      rw [sdStep, SdBlockDevice.write, if_neg hne, checkRange_eq hn hs, if_pos hrange]
      rfl
    refine ⟨.of_step hstep (if_pos hrange), ?_⟩
    rw [hstep]
    exact hs
  · have hspec := writeLoop_spec law (s.base + s.pos) buf 0 s.card hs.numBlocks (by omega) (Nat.zero_le _)
    have hwrite : s.write dev buf = ((writeLoop dev (s.base + s.pos) buf 0 s.card).1.map fun _ => buf.length,
        { s with
          card := (writeLoop dev (s.base + s.pos) buf 0 s.card).2
          pos := if (writeLoop dev (s.base + s.pos) buf 0 s.card).1.toBool then s.pos + buf.length else s.pos }) := by
      by_cases h0 : buf = []
      · subst h0
        rw [SdBlockDevice.write, if_pos rfl, writeLoop, dif_neg (by simp)]
        rfl
      · rw [SdBlockDevice.write, if_neg h0, checkRange_eq hn hs]
        rcases writeLoop dev (s.base + s.pos) buf 0 s.card with ⟨_ | _, _⟩
        · exact if_neg hrange ▸ rfl
        · exact if_neg hrange ▸ rfl
    generalize writeLoop dev (s.base + s.pos) buf 0 s.card = r at hspec hwrite
    obtain ⟨r, card'⟩ := r
    obtain ⟨h1, ⟨rfl, h2⟩ | ⟨rfl, hfail, h2⟩⟩ := hspec
    · have hstep : sdStep dev s (.write buf) =
          ({ s with card := card', pos := s.pos + buf.length }, .ok (.count buf.length)) := by
        rw [sdStep, hwrite]
        rfl
      refine ⟨.of_step hstep ?_, ?_⟩
      · simp only [Nat.add_zero, List.drop_zero] at h2
        refine (if_neg hrange).trans ?_
        simp only [SdBlockDevice.range, h2]
      · rw [hstep]
        exact ⟨h1, hcard, by simp only; omega⟩
    · have hstep : sdStep dev s (.write buf) = ({ s with card := card' }, .error .device) := by
        rw [sdStep, hwrite]
        rfl
      refine ⟨Or.inr ⟨hfail, by rw [hstep], by rw [hstep], by rw [hstep]; exact h2⟩, ?_⟩
      rw [hstep]
      exact ⟨h1, hcard, hpos⟩

/-- Every call on a mounted adapter refines the byte range and leaves the adapter mounted. -/
theorem call_refines (law : dev.Lawful image) {n : ℕ} {s : SdBlockDevice D} (hs : s.Mounted dev n) (call : SdCall) :
    CallRefines dev image s call ∧ (sdStep dev s call).1.Mounted dev n := by
  cases call with
  | seek pos => exact seek_refines hs pos
  | read len => exact read_refines law hs len
  | write buf => exact write_refines law hs buf

/-- From a mounted adapter, after every sequence of calls: each further call refines the byte range, the block number of
every byte of the partition survives its cast, and with a device that succeeds the whole sequence answers as the byte range
does and leaves the card as the byte range does. -/
theorem adapter_refines_bytes (law : dev.Lawful image) {card : D} {s : SdBlockDevice D}
    (hm : SdBlockDevice.mount dev card = .ok s) (calls : List SdCall) :
    (∀ call, CallRefines dev image (Mealy.final (sdStep dev) s calls) call) ∧
    (∀ a, a < s.base + s.size → cardBlockOf a = a / BLOCK_LEN) ∧
    (dev.Succeeds → Mealy.outputs (sdStep dev) s calls = Mealy.outputs ByteRange.step (s.range image) calls ∧
      (Mealy.final (sdStep dev) s calls).range image = Mealy.final ByteRange.step (s.range image) calls) := by
  obtain ⟨n, hs, hn, -, -⟩ := mounted_of_mount law hm
  refine ⟨?_, ?_, ?_⟩
  · intro call
    have hfinal : (Mealy.final (sdStep dev) s calls).Mounted dev n :=
      Mealy.invariant (fun s => s.Mounted dev n) (fun s e hi _ => (call_refines law hi e).2) hs
        (Mealy.along_of_forall (fun _ _ => trivial) s calls)
    exact (call_refines law hfinal call).1
  · intro a ha
    exact cardBlockOf_eq hn (ha.trans_le hs.onCard)
  · intro hsucc
    have hstep : ∀ (s : SdBlockDevice D) (r : ByteRange) (call : SdCall), s.Mounted dev n ∧ s.range image = r → True →
        ((sdStep dev s call).1.Mounted dev n ∧ (sdStep dev s call).1.range image = (r.step call).1) ∧
          (sdStep dev s call).2 = (r.step call).2 := by
      rintro s r call ⟨hmount, rfl⟩ -
      obtain ⟨⟨h1, h2⟩ | ⟨hfail, -⟩, hmount'⟩ := call_refines law hmount call
      · exact ⟨⟨hmount', h2⟩, h1⟩
      · exact absurd hsucc hfail
    obtain ⟨h1, h2⟩ := Mealy.simulation hstep ⟨hs, rfl⟩ (Mealy.along_of_forall (fun _ _ => trivial) s calls)
    exact ⟨h2, h1.2⟩

/-- A card of three blocks whose partition table gives its last two blocks to the first entry. -/
def smallCard : List Block :=
  [(Block.new.splice MBR_PARTITION_TABLE ([0, 0, 0, 0, 0x0C, 0, 0, 0] ++ Octets.leBytes 4 1 ++ Octets.leBytes 4 2)).splice
    MBR_SIGNATURE [0x55, 0xAA], Block.new, Block.new]

/-- The adapter of the small card, as mounted. -/
def smallAdapter : SdBlockDevice (List Block) := ⟨smallCard, 512, 1024, 0⟩

/-- The adapter mounts on the small card, and a write across the block boundary reads back. -/
theorem adapter_refines_bytes_smallCard :
    SdBlockDevice.mount ramCard smallCard = .ok smallAdapter ∧
    Mealy.outputs (sdStep ramCard) smallAdapter
        [.seek (.start 510), .write [1, 2, 3, 4], .seek (.current (-5)), .read 6, .seek (.fromEnd 1)] =
      [.ok (.position 510), .ok (.count 4), .ok (.position 509), .ok (.bytes [0, 1, 2, 3, 4, 0]),
        .error .invalidPosition] := by
  have hmount : SdBlockDevice.mount ramCard smallCard = .ok smallAdapter := by decide +kernel
  refine ⟨hmount, ((adapter_refines_bytes ramCard_lawful hmount _).2.2 ramCard_succeeds).1.trans ?_⟩
  decide +kernel

end Ratputer
