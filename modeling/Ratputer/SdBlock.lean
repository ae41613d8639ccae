import Ratputer.Card
import Ratputer.Lib.Octets

/-!
# The partition adapter (`sdblock.rs`)

`SdBlockDevice` shows the first partition of the card to the FAT driver as a seekable range of bytes: `mount` adopts the
partition, `read` and `write` cut a range into an unaligned head, aligned runs of at most sixteen blocks and a tail, and
`seek` moves the position. Offsets are 64-bit and block numbers 32-bit; `as u32` is `% 2 ^ 32`.
-/

namespace Ratputer

open Octets

def MBR_PARTITION_TABLE : ℕ := 0x1BE

def MBR_SIGNATURE : ℕ := 0x1FE

/-- Blocks transferred per card command in the aligned fast path. -/
def MAX_IO_BLOCKS : ℕ := 16

inductive SdBlockError where
  | device
  | noPartition
  | outOfRange
  | invalidPosition
  deriving DecidableEq, Repr

/-- `embedded_io::SeekFrom`: an unsigned 64-bit start, a signed distance from the end or from the position. -/
inductive SeekFrom where
  | start (value : ℕ)
  | fromEnd (value : ℤ)
  | current (value : ℤ)

/-- Byte-seekable view of one FAT partition: where it starts on the card, its size and the position, in bytes. -/
structure SdBlockDevice (D : Type) where
  card : D
  base : ℕ
  size : ℕ
  pos : ℕ
  deriving DecidableEq

variable {D : Type} (dev : BlockDevice D)

/-- The scan of the partition table: start and length in bytes of the first entry with a type and a length. -/
def firstPartition (bytes : List UInt8) : List ℕ → Option (ℕ × ℕ)
  | [] => none
  | index :: rest =>
    let entry := (bytes.drop (MBR_PARTITION_TABLE + index * 16)).take 16
    if entry.getD 4 0 = 0 then
      firstPartition bytes rest
    else
      let start := leNat ((entry.drop 8).take 4)
      let length := leNat ((entry.drop 12).take 4)
      if length = 0 then firstPartition bytes rest else some (start * BLOCK_LEN, length * BLOCK_LEN)

/-- `SdBlockDevice::mount`. -/
def SdBlockDevice.mount (card : D) : Except SdBlockError (SdBlockDevice D) :=
  match dev.read card 0 1 with
  | (none, _) => .error .device
  | (some mbr, card) =>
    let bytes := mbr.flatMap Block.bytes
    if bytes.getD MBR_SIGNATURE 0 ≠ 0x55 ∨ bytes.getD (MBR_SIGNATURE + 1) 0 ≠ 0xAA then
      .error .noPartition
    else
      match firstPartition bytes [0, 1, 2, 3] with
      | none => .error .noPartition
      | some (base, size) =>
        match dev.numBlocks card with
        | none => .error .device
        | some cardBlocks =>
          if base + size > cardBlocks * BLOCK_LEN then .error .outOfRange else .ok { card, base, size, pos := 0 }

/-- `check_range`: the end is computed in 64 bits. -/
def SdBlockDevice.checkRange (s : SdBlockDevice D) (byteLen : ℕ) : Except SdBlockError Unit :=
  let fin := s.pos + byteLen
  if 2 ^ 64 ≤ fin then .error .outOfRange else if fin > s.size then .error .outOfRange else .ok ()

/-- The block that holds an absolute byte address, `(absolute / BLOCK_LEN as u64) as u32`. -/
def cardBlockOf (absolute : ℕ) : ℕ := absolute / BLOCK_LEN % 2 ^ 32

/-- `read_card_block`. -/
def readCardBlock (card : D) (cardBlock : ℕ) : Except SdBlockError Block × D :=
  match dev.read card cardBlock 1 with
  | (some [block], card) => (.ok block, card)
  | (_, card) => (.error .device, card)

/-- `write_card_block`. -/
def writeCardBlock (card : D) (cardBlock : ℕ) (block : Block) : Except SdBlockError Unit × D :=
  match dev.write card cardBlock [block] with
  | (true, card) => (.ok (), card)
  | (false, card) => (.error .device, card)

/-- The loop of `read`: `out` is the part of the buffer filled so far, `done` bytes of `len`. -/
def readLoop (start len : ℕ) (done : ℕ) (out : List UInt8) (card : D) : Except SdBlockError (List UInt8) × D :=
  if _h : done < len then
    let absolute := start + done
    let cardBlock := cardBlockOf absolute
    let blockOffset := absolute % BLOCK_LEN
    let remaining := len - done
    if _hb : blockOffset = 0 ∧ remaining ≥ BLOCK_LEN then
      -- Aligned run: single card command for up to MAX_IO_BLOCKS.
      let blocks := min (remaining / BLOCK_LEN) MAX_IO_BLOCKS
      match dev.read card cardBlock blocks with
      | (none, card) => (.error .device, card)
      | (some scratch, card) =>
        readLoop start len (done + blocks * BLOCK_LEN) (out ++ scratch.flatMap Block.bytes) card
    else
      let take := min remaining (BLOCK_LEN - blockOffset)
      match readCardBlock dev card cardBlock with
      | (.error e, card) => (.error e, card)
      | (.ok block, card) =>
        readLoop start len (done + take) (out ++ (block.bytes.drop blockOffset).take take) card
  else
    (.ok out, card)
termination_by len - done
decreasing_by
  all_goals simp only [BLOCK_LEN, MAX_IO_BLOCKS] at *; omega

/-- `SdBlockDevice::read` into a buffer of `len` bytes: the bytes delivered, or the error. -/
def SdBlockDevice.read (s : SdBlockDevice D) (len : ℕ) : Except SdBlockError (List UInt8) × SdBlockDevice D :=
  if len = 0 then
    (.ok [], s)
  else
    match s.checkRange len with
    | .error e => (.error e, s)
    | .ok () =>
      match readLoop dev (s.base + s.pos) len 0 [] s.card with
      | (.error e, card) => (.error e, { s with card })
      | (.ok out, card) => (.ok out, { s with card, pos := s.pos + len })

/-- The loop of `write`: `done` bytes of `buf` are on the card. -/
def writeLoop (start : ℕ) (buf : List UInt8) (done : ℕ) (card : D) : Except SdBlockError Unit × D :=
  if _h : done < buf.length then
    let absolute := start + done
    let cardBlock := cardBlockOf absolute
    let blockOffset := absolute % BLOCK_LEN
    let remaining := buf.length - done
    if _hb : blockOffset = 0 ∧ remaining ≥ BLOCK_LEN then
      -- Aligned run: single card command for up to MAX_IO_BLOCKS.
      let blocks := min (remaining / BLOCK_LEN) MAX_IO_BLOCKS
      let scratch := (List.range blocks).map fun index =>
        Block.ofBytes ((buf.drop (done + index * BLOCK_LEN)).take BLOCK_LEN)
      match dev.write card cardBlock scratch with
      | (false, card) => (.error .device, card)
      | (true, card) => writeLoop start buf (done + blocks * BLOCK_LEN) card
    else
      -- Sub-sector write: read-modify-write the one affected block.
      let take := min remaining (BLOCK_LEN - blockOffset)
      match readCardBlock dev card cardBlock with
      | (.error e, card) => (.error e, card)
      | (.ok block, card) =>
        match writeCardBlock dev card cardBlock (block.splice blockOffset ((buf.drop done).take take)) with
        | (.error e, card) => (.error e, card)
        | (.ok (), card) => writeLoop start buf (done + take) card
  else
    (.ok (), card)
termination_by buf.length - done
decreasing_by
  all_goals simp only [BLOCK_LEN, MAX_IO_BLOCKS] at *; omega

/-- `SdBlockDevice::write`: the number of bytes written, or the error. -/
def SdBlockDevice.write (s : SdBlockDevice D) (buf : List UInt8) : Except SdBlockError ℕ × SdBlockDevice D :=
  if buf = [] then
    (.ok 0, s)
  else
    match s.checkRange buf.length with
    | .error e => (.error e, s)
    | .ok () =>
      match writeLoop dev (s.base + s.pos) buf 0 s.card with
      | (.error e, card) => (.error e, { s with card })
      | (.ok (), card) => (.ok buf.length, { s with card, pos := s.pos + buf.length })

/-- `SdBlockDevice::seek`, computed in 128-bit signed arithmetic. -/
def SdBlockDevice.seek (s : SdBlockDevice D) (pos : SeekFrom) : Except SdBlockError ℕ × SdBlockDevice D :=
  let target : ℤ :=
    match pos with
    | .start value => value
    | .fromEnd value => s.size + value
    | .current value => s.pos + value
  if 0 ≤ target ∧ target ≤ s.size then
    (.ok target.toNat, { s with pos := target.toNat })
  else
    (.error .invalidPosition, s)

end Ratputer
