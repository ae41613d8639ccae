import Ratputer.Card
import Ratputer.Lib.Chunks
import Ratputer.Lib.Coroutine
import Ratputer.Lib.Octets
import Mathlib.Logic.Function.Basic
import Mathlib.Data.Fintype.Basic

/-!
# The mass-storage class (`msc.rs`)

`MscClass` answers the Bulk-Only Transport: it reads a command block wrapper, executes its SCSI command and sends a command
status wrapper. Reads go through a block cache of two LRU lines and one stream line. The `async` functions are coroutines over
the class's operations: the state it shares with the firmware, the backend calls and the two bulk endpoints. `u32` fields are
numbers below `2 ^ 32`.
-/

namespace Ratputer

open Octets Chunks

def BULK_PACKET_SIZE : ℕ := 64
def CBW_SIGNATURE : ℕ := 0x43425355
def CSW_SIGNATURE : ℕ := 0x53425355
def CBW_LEN : ℕ := 31

def SCSI_TEST_UNIT_READY : UInt8 := 0x00
def SCSI_REQUEST_SENSE : UInt8 := 0x03
def SCSI_INQUIRY : UInt8 := 0x12
def SCSI_MODE_SENSE_6 : UInt8 := 0x1a
def SCSI_START_STOP_UNIT : UInt8 := 0x1b
def SCSI_PREVENT_ALLOW_REMOVAL : UInt8 := 0x1e
def SCSI_READ_FORMAT_CAPACITIES : UInt8 := 0x23
def SCSI_READ_CAPACITY_10 : UInt8 := 0x25
def SCSI_READ_10 : UInt8 := 0x28
def SCSI_WRITE_10 : UInt8 := 0x2a
def SCSI_VERIFY_10 : UInt8 := 0x2f
def SCSI_SYNCHRONIZE_CACHE_10 : UInt8 := 0x35
def SCSI_MODE_SENSE_10 : UInt8 := 0x5a
def SCSI_SERVICE_ACTION_IN_16 : UInt8 := 0x9e
def SCSI_REPORT_LUNS : UInt8 := 0xa0

def SENSE_NOT_READY : UInt8 := 0x02
def SENSE_MEDIUM_ERROR : UInt8 := 0x03
def SENSE_ILLEGAL_REQUEST : UInt8 := 0x05

def ASC_MEDIUM_NOT_PRESENT : UInt8 := 0x3a
def ASC_UNRECOVERED_READ : UInt8 := 0x11
def ASC_WRITE_ERROR : UInt8 := 0x0c
def ASC_INVALID_COMMAND : UInt8 := 0x20
def ASC_INVALID_FIELD : UInt8 := 0x24

/-- Blocks moved by one SD multi-block command and held by one cache line. -/
def LINE_BLOCKS : ℕ := 8

/-- LRU lines for small, repeated reads. -/
def CACHE_LINES : ℕ := 2

/-! ## Shared state -/

/-- `Backend`: no device, or the device behind a context pointer. -/
inductive Backend where
  | none
  | device (context : ℕ)
  deriving DecidableEq, Repr

structure Sense where
  key : UInt8
  asc : UInt8
  ascq : UInt8
  deriving DecidableEq, Repr

def Sense.default : Sense := ⟨0, 0, 0⟩

/-- Transfer counters, in blocks. -/
structure Stats where
  readBlocks : ℕ
  writeBlocks : ℕ
  cacheHitBlocks : ℕ
  deriving DecidableEq, Repr

def Stats.default : Stats := ⟨0, 0, 0⟩

structure SharedState where
  backend : Backend
  /-- Card capacity, read once on attach. -/
  blocks : ℕ
  /-- Bumped on every attach so the class drops blocks cached in an earlier session. -/
  generation : ℕ
  attached : Bool
  configured : Bool
  ejected : Bool
  sense : Sense
  stats : Stats
  deriving DecidableEq, Repr

namespace SharedState

def default : SharedState := ⟨.none, 0, 0, false, false, false, .default, .default⟩

/-- `attach`: `count` is what `num_blocks` of the device behind `context` reports, 0 on an error. -/
def attach (s : SharedState) (context count : ℕ) : SharedState :=
  { s with backend := .device context, blocks := count, generation := (s.generation + 1) % 2 ^ 32, attached := true,
           ejected := false, sense := .default, stats := .default }

def detach (s : SharedState) : SharedState :=
  { s with backend := .none, blocks := 0, attached := false, configured := false, ejected := false }

def blockCount (s : SharedState) : ℕ := if s.attached && !s.ejected then s.blocks else 0

def ready (s : SharedState) : Bool := s.blockCount != 0

def setSense (key asc ascq : UInt8) (s : SharedState) : SharedState := { s with sense := ⟨key, asc, ascq⟩ }

end SharedState

/-! ## The block cache -/

structure Line where
  valid : Bool
  /-- First LBA held by the line. -/
  start : ℕ
  len : ℕ
  lastUsed : ℕ
  data : List Block

def Line.contains (line : Line) (lba : ℕ) : Bool := line.valid && lba ≥ line.start && lba - line.start < line.len

/-- Index of a cache line; the last one is the stream line. -/
abbrev LineIndex : Type := Fin (CACHE_LINES + 1)

/-- Index of the extra line used for large sequential transfers. -/
def STREAM_LINE : LineIndex := Fin.last CACHE_LINES

/-- Read cache in front of the SD card. -/
structure BlockCache where
  lines : LineIndex → Line
  clock : ℕ

namespace BlockCache

/-- The zeroed cache that `MscClass::new` takes over. -/
def zeroed : BlockCache := ⟨fun _ => ⟨false, 0, 0, 0, List.replicate LINE_BLOCKS Block.new⟩, 0⟩

def setLine (c : BlockCache) (index : LineIndex) (line : Line) : BlockCache :=
  { c with lines := Function.update c.lines index line }

def invalidate (c : BlockCache) : BlockCache := { c with lines := fun i => { c.lines i with valid := false } }

/-- Bumps the clock and stamps a line with it. -/
def touch (c : BlockCache) (index : LineIndex) : BlockCache :=
  let clock := (c.clock + 1) % 2 ^ 32
  { c with clock }.setLine index { c.lines index with lastUsed := clock }

/-- `find`: the first line that contains `lba`, marked as used. -/
def find (c : BlockCache) (lba : ℕ) : Option (LineIndex × BlockCache) :=
  ((List.finRange (CACHE_LINES + 1)).find? fun i => (c.lines i).contains lba).map fun index => (index, c.touch index)

/-- The scan of `victim` over the LRU lines: the first invalid line, else the least recently used. -/
def victimScan (c : BlockCache) (index : LineIndex) : List LineIndex → LineIndex
  | [] => index
  | candidate :: rest =>
    if !(c.lines candidate).valid then candidate
    else if (c.lines candidate).lastUsed < (c.lines index).lastUsed then c.victimScan candidate rest
    else c.victimScan index rest

def victim (c : BlockCache) (streaming : Bool) : LineIndex :=
  if streaming then STREAM_LINE else c.victimScan 0 ((List.finRange CACHE_LINES).map Fin.castSucc)

/-- A line with the cached copies of the blocks from `lba` on refreshed. -/
def updateLine (line : Line) (lba : ℕ) : List Block → Line
  | [] => line
  | block :: rest =>
    updateLine (if line.contains lba then { line with data := line.data.set (lba - line.start) block } else line) (lba + 1) rest

/-- `update_from_stream`: refreshes the LRU lines' copies of `count` blocks just written from the stream line. -/
def updateFromStream (c : BlockCache) (lba count : ℕ) : BlockCache :=
  { c with lines := fun i =>
      if i = STREAM_LINE then c.lines i else updateLine (c.lines i) lba ((c.lines STREAM_LINE).data.take count) }

end BlockCache

/-! ## Wrappers -/

inductive Direction where
  | out
  | in_
  deriving DecidableEq, Repr

structure Cbw where
  tag : ℕ
  transferLen : ℕ
  direction : Direction
  lun : ℕ
  commandLen : ℕ
  command : List UInt8
  deriving DecidableEq, Repr

/-- `Cbw::parse`. -/
def Cbw.parse (bytes : List UInt8) : Option Cbw :=
  if bytes.length ≠ CBW_LEN ∨ leNat (bytes.take 4) ≠ CBW_SIGNATURE then
    none
  else
    let commandLen := (bytes.getD 14 0).toNat % 32
    if commandLen = 0 ∨ commandLen > 16 ∨ (bytes.getD 13 0).toNat > 15 ∨ (bytes.getD 12 0).toNat % 128 ≠ 0 then
      none
    else
      some {
        tag := leNat ((bytes.drop 4).take 4)
        transferLen := leNat ((bytes.drop 8).take 4)
        direction := if (bytes.getD 12 0).toNat / 128 = 0 then .out else .in_
        lun := (bytes.getD 13 0).toNat
        commandLen
        command := (bytes.drop 15).take 16 }

/-- The byte of the command at an index. -/
def Cbw.byte (cbw : Cbw) (i : ℕ) : UInt8 := cbw.command.getD i 0

inductive CommandStatus where
  | passed
  | failed
  | phaseError
  deriving DecidableEq, Repr

def CommandStatus.toByte : CommandStatus → UInt8
  | .passed => 0
  | .failed => 1
  | .phaseError => 2

/-- The bytes of a CSW. -/
def cswBytes (tag residue : ℕ) (status : CommandStatus) : List UInt8 :=
  leBytes 4 CSW_SIGNATURE ++ leBytes 4 tag ++ leBytes 4 residue ++ [status.toByte]

/-! ## Operations -/

inductive EndpointError where
  | bufferOverflow
  | disabled
  deriving DecidableEq, Repr

/-- The phase of the transport that a packet belongs to: at the device the call site that transfers it, at the host what it
was sent as. -/
inductive Phase where
  | command
  | data
  | status
  deriving DecidableEq, Repr

/-- What the class asks of its surroundings. -/
inductive MscOp where
  /-- A borrow of the shared state; the answer is the state before the update. -/
  | shared (f : SharedState → SharedState)
  | blockRead (backend : Backend) (lba len : ℕ)
  | blockWrite (backend : Backend) (lba : ℕ) (blocks : List Block)
  | endpointRead (phase : Phase) (len : ℕ)
  | endpointWrite (phase : Phase) (data : List UInt8)
  | waitEnabled

@[reducible] def MscOp.Ret : MscOp → Type
  | shared _ => SharedState
  | blockRead .. => Option (List Block)
  | blockWrite .. => Bool
  | endpointRead .. => Except EndpointError (List UInt8)
  | endpointWrite .. => Except EndpointError Unit
  | waitEnabled => Unit

abbrev MscM (α : Type) : Type := Coroutine MscOp.Ret α

/-- One operation. -/
def perform (o : MscOp) : MscM o.Ret := Coroutine.perform o

def borrow : MscM SharedState := perform (.shared id)

def modifyShared (f : SharedState → SharedState) : MscM Unit := do
  let _ ← perform (.shared f)

def blockRead (backend : Backend) (lba len : ℕ) : MscM (Option (List Block)) := perform (.blockRead backend lba len)

def blockWrite (backend : Backend) (lba : ℕ) (blocks : List Block) : MscM Bool := perform (.blockWrite backend lba blocks)

def endpointRead (phase : Phase) (len : ℕ) : MscM (Except EndpointError (List UInt8)) := perform (.endpointRead phase len)

def endpointWrite (phase : Phase) (data : List UInt8) : MscM (Except EndpointError Unit) :=
  perform (.endpointWrite phase data)

def waitEnabled : MscM Unit := perform .waitEnabled

/-- Residue and status of a command. -/
abbrev CommandResult : Type := ℕ × CommandStatus

/-- The loop of `write_packets`. -/
def writeChunks : List (List UInt8) → MscM (Except EndpointError Unit)
  | [] => pure (.ok ())
  | chunk :: rest => do
    match ← endpointWrite .data chunk with
    | .error e => pure (.error e)
    | .ok () => writeChunks rest

/-- `write_packets`: the data in packets of 64 bytes. -/
def writePackets (data : List UInt8) : MscM (Except EndpointError Unit) := writeChunks (chunks BULK_PACKET_SIZE data)

/-- `read_packets` into chunks of the given sizes: every packet must fill its chunk. -/
def readChunks : List ℕ → MscM (Except EndpointError (List UInt8))
  | [] => pure (.ok [])
  | size :: rest => do
    match ← endpointRead .data size with
    | .error e => pure (.error e)
    | .ok packet =>
      if packet.length ≠ size then pure (.error .bufferOverflow)
      else
        match ← readChunks rest with
        | .error e => pure (.error e)
        | .ok data => pure (.ok (packet ++ data))

/-- `read_packets` into one block. -/
def readBlock : MscM (Except EndpointError Block) := do
  match ← readChunks (List.replicate (BLOCK_LEN / BULK_PACKET_SIZE) BULK_PACKET_SIZE) with
  | .error e => pure (.error e)
  | .ok data => pure (.ok (Block.ofBytes data))

/-- The blocks of one line read from USB, in `write_10`. -/
def readBlocks : ℕ → MscM (Except EndpointError (List Block))
  | 0 => pure (.ok [])
  | count + 1 => do
    match ← readBlock with
    | .error e => pure (.error e)
    | .ok block =>
      match ← readBlocks count with
      | .error e => pure (.error e)
      | .ok blocks => pure (.ok (block :: blocks))

/-- `discard_out`. -/
def discardOut (length : ℕ) : MscM (Except EndpointError Unit) :=
  if _h : length = 0 then
    pure (.ok ())
  else do
    let wanted := min length BULK_PACKET_SIZE
    match ← endpointRead .data wanted with
    | .error e => pure (.error e)
    | .ok packet => if packet.length ≠ wanted then pure (.error .bufferOverflow) else discardOut (length - wanted)
termination_by length
decreasing_by simp only [BULK_PACKET_SIZE] at *; omega

/-- `send_data`. -/
def sendData (cbw : Cbw) (data : List UInt8) : MscM CommandResult :=
  if cbw.direction ≠ .in_ ∧ cbw.transferLen ≠ 0 then
    pure (cbw.transferLen, .phaseError)
  else do
    let count := min data.length cbw.transferLen
    match ← writePackets (data.take count) with
    | .error _ => pure (cbw.transferLen, .phaseError)
    | .ok () =>
      if count < cbw.transferLen ∧ count % BULK_PACKET_SIZE = 0 then
        match ← endpointWrite .data [] with
        | .error _ => pure (cbw.transferLen - count, .phaseError)
        | .ok () => pure (cbw.transferLen - count, .passed)
      else
        pure (cbw.transferLen - count, .passed)

/-! ## Commands without data on the card -/

def noData (cbw : Cbw) : MscM CommandResult :=
  if cbw.transferLen = 0 then
    pure (0, .passed)
  else do
    modifyShared (·.setSense SENSE_ILLEGAL_REQUEST ASC_INVALID_FIELD 0)
    pure (cbw.transferLen, .phaseError)

def testUnitReady (cbw : Cbw) : MscM CommandResult :=
  if cbw.transferLen ≠ 0 then
    pure (cbw.transferLen, .phaseError)
  else do
    if (← borrow).ready then
      pure (0, .passed)
    else
      modifyShared (·.setSense SENSE_NOT_READY ASC_MEDIUM_NOT_PRESENT 0)
      pure (0, .failed)

def startStop (cbw : Cbw) : MscM CommandResult :=
  if cbw.transferLen ≠ 0 then
    pure (cbw.transferLen, .phaseError)
  else do
    let loadEject := (cbw.byte 4).toNat / 2 % 2 = 1
    let start := (cbw.byte 4).toNat % 2 = 1
    if loadEject then
      modifyShared fun s => { s with ejected := !start }
    pure (0, .passed)

/-- Fixed-format sense data. -/
def Sense.bytes (sense : Sense) : List UInt8 :=
  [0x70, 0, sense.key, 0, 0, 0, 0, 10, 0, 0, 0, 0, sense.asc, sense.ascq, 0, 0, 0, 0]

def requestSense (cbw : Cbw) : MscM CommandResult := do
  let result ← sendData cbw (← borrow).sense.bytes
  if result.2 = .passed then
    modifyShared fun s => { s with sense := .default }
  pure result

/-- `RATPUTER`, `SD CARD         ` and `1.0 `, behind the five bytes of the standard inquiry header and three zero bytes. -/
def standardInquiry : List UInt8 :=
  [0x00, 0x80, 0x05, 0x02, 31, 0, 0, 0,
   0x52, 0x41, 0x54, 0x50, 0x55, 0x54, 0x45, 0x52,
   0x53, 0x44, 0x20, 0x43, 0x41, 0x52, 0x44, 0x20, 0x20, 0x20, 0x20, 0x20, 0x20, 0x20, 0x20, 0x20,
   0x31, 0x2e, 0x30, 0x20]

/-- The unit serial number page: a four-byte header and `RATPUTER-ADV`. -/
def serialPage : List UInt8 :=
  [0x00, 0x80, 0x00, 12, 0x52, 0x41, 0x54, 0x50, 0x55, 0x54, 0x45, 0x52, 0x2d, 0x41, 0x44, 0x56]

/-- The data that answers an INQUIRY for a page, with or without `evpd`; nothing for a page it does not have. -/
def inquiryData (evpd : Bool) (page : UInt8) : Option (List UInt8) :=
  if !evpd then
    if page ≠ 0 then none else some standardInquiry
  else if page = 0x00 then some [0x00, 0x00, 0x00, 0x03, 0x00, 0x80, 0x83]
  else if page = 0x80 then some serialPage
  else if page = 0x83 then some [0x00, 0x83, 0x00, 0x00]
  else none

def inquiry (cbw : Cbw) : MscM CommandResult :=
  match inquiryData ((cbw.byte 1).toNat % 2 = 1) (cbw.byte 2) with
  | some response => sendData cbw response
  | none => do
    modifyShared (·.setSense SENSE_ILLEGAL_REQUEST ASC_INVALID_FIELD 0)
    pure (cbw.transferLen, .failed)

def modeSense6 (cbw : Cbw) : MscM CommandResult := sendData cbw [3, 0, 0, 0]

def modeSense10 (cbw : Cbw) : MscM CommandResult := sendData cbw [0, 6, 0, 0, 0, 0, 0, 0]

def readCapacity10 (cbw : Cbw) : MscM CommandResult := do
  let count := (← borrow).blockCount
  if count = 0 then
    modifyShared (·.setSense SENSE_NOT_READY ASC_MEDIUM_NOT_PRESENT 0)
    pure (cbw.transferLen, .failed)
  else
    sendData cbw (beBytes 4 (count - 1) ++ beBytes 4 BLOCK_LEN)

def readCapacity16 (cbw : Cbw) : MscM CommandResult := do
  let count := (← borrow).blockCount
  if count = 0 then
    pure (cbw.transferLen, .failed)
  else
    sendData cbw (beBytes 8 (count - 1) ++ beBytes 4 BLOCK_LEN ++ List.replicate 20 0)

def readFormatCapacities (cbw : Cbw) : MscM CommandResult := do
  let count := (← borrow).blockCount
  sendData cbw ([0, 0, 0, 8] ++ beBytes 4 count ++ [0x02] ++ beBytes 3 BLOCK_LEN)

def reportLuns (cbw : Cbw) : MscM CommandResult := sendData cbw (beBytes 4 8 ++ List.replicate 12 0)

/-! ## READ(10) and WRITE(10) -/

/-- First block and number of blocks of a READ(10) or WRITE(10). -/
def Cbw.lba (cbw : Cbw) : ℕ := beNat ((cbw.command.drop 2).take 4)

def Cbw.blocks (cbw : Cbw) : ℕ := beNat ((cbw.command.drop 7).take 2)

/-- A READ(10) or WRITE(10) that transfers: the direction and the length match and its blocks lie on the card. -/
structure Cbw.InRange (cbw : Cbw) (direction : Direction) (count : ℕ) : Prop where
  direction : cbw.direction = direction
  transferLen : cbw.transferLen = cbw.blocks * BLOCK_LEN
  blocks : cbw.blocks ≠ 0
  lt : cbw.lba + cbw.blocks < 2 ^ 32
  le : cbw.lba + cbw.blocks ≤ count

/-- A line filled from the card and stamped: the end of the miss branch of `read_10`. -/
def BlockCache.fill (c : BlockCache) (index : LineIndex) (start len : ℕ) (blocks : List Block) : BlockCache :=
  (c.setLine index { c.lines index with
    valid := true, start, len, data := blocks ++ (c.lines index).data.drop blocks.length }).touch index

/-- A line marked invalid. -/
def BlockCache.drop (c : BlockCache) (index : LineIndex) : BlockCache :=
  c.setLine index { c.lines index with valid := false }

/-- The line that holds block `current`, from the cache or from the card; the answer says whether it was cached. -/
def lookup (cache : BlockCache) (count current : ℕ) (streaming : Bool) : MscM (Option (LineIndex × Bool) × BlockCache) :=
  match cache.find current with
  | some (index, cache) => pure (some (index, true), cache)
  | none => do
    let index := cache.victim streaming
    -- `current & !(LINE_BLOCKS - 1)`: lines are aligned and clipped at the end of the card.
    let start := current / LINE_BLOCKS * LINE_BLOCKS
    let len := min LINE_BLOCKS (count - start)
    let backend := (← borrow).backend
    let cache := cache.drop index
    match ← blockRead backend start len with
    | none =>
      modifyShared (·.setSense SENSE_MEDIUM_ERROR ASC_UNRECOVERED_READ 0)
      pure (none, cache)
    | some blocks => pure (some (index, false), cache.fill index start len blocks)

/-- The loop over the blocks of one line that a READ(10) sends; on an endpoint error, the residue reached. -/
def sendBlocks (residue : ℕ) : List Block → MscM (Except ℕ ℕ)
  | [] => pure (.ok residue)
  | block :: rest => do
    match ← writePackets block.bytes with
    | .error _ => pure (.error residue)
    | .ok () => sendBlocks (residue - BLOCK_LEN) rest

def Stats.countRead (moved : ℕ) (hit : Bool) (stats : Stats) : Stats :=
  { stats with
    readBlocks := (stats.readBlocks + moved) % 2 ^ 32
    cacheHitBlocks := if hit then (stats.cacheHitBlocks + moved) % 2 ^ 32 else stats.cacheHitBlocks }

/-- The loop of `read_10`. Every pass sends at least one block, so `fuel` is the number of blocks to send. -/
def read10Loop (count fin : ℕ) (streaming : Bool) : ℕ → BlockCache → ℕ → ℕ → MscM (CommandResult × BlockCache)
  | 0, cache, _, residue => pure ((residue, .passed), cache)
  | fuel + 1, cache, current, residue =>
    if current < fin then do
      match ← lookup cache count current streaming with
      | (none, cache) => pure ((residue, .failed), cache)
      | (some (index, hit), cache) =>
        let line := cache.lines index
        let first := current - line.start
        let last := min (fin - line.start) line.len
        match ← sendBlocks residue ((line.data.drop first).take (last - first)) with
        | .error residue => pure ((residue, .phaseError), cache)
        | .ok residue =>
          modifyShared fun s => { s with stats := s.stats.countRead (last - first) hit }
          read10Loop count fin streaming fuel cache (line.start + last) residue
    else
      pure ((residue, .passed), cache)

def read10 (cache : BlockCache) (cbw : Cbw) : MscM (CommandResult × BlockCache) :=
  if cbw.direction ≠ .in_ ∨ cbw.transferLen ≠ cbw.blocks * BLOCK_LEN then
    pure ((cbw.transferLen, .phaseError), cache)
  else if cbw.blocks = 0 then
    pure ((0, .passed), cache)
  else do
    let count := (← borrow).blockCount
    if 2 ^ 32 ≤ cbw.lba + cbw.blocks ∨ cbw.lba + cbw.blocks > count then
      modifyShared (·.setSense SENSE_ILLEGAL_REQUEST ASC_INVALID_FIELD 0)
      pure ((cbw.transferLen, .failed), cache)
    else
      read10Loop count (cbw.lba + cbw.blocks) (cbw.blocks > LINE_BLOCKS) cbw.blocks cache cbw.lba cbw.transferLen

/-- The stream line with the first blocks of its buffer replaced, as left by the USB reads of `write_10`. -/
def BlockCache.stage (c : BlockCache) (blocks : List Block) : BlockCache :=
  c.setLine STREAM_LINE { c.lines STREAM_LINE with
    valid := false, data := blocks ++ (c.lines STREAM_LINE).data.drop blocks.length }

/-- The loop of `write_10`, a line at a time; `fuel` is the number of blocks to write. -/
def write10Loop (fin : ℕ) : ℕ → BlockCache → ℕ → ℕ → MscM (CommandResult × BlockCache)
  | 0, cache, _, residue => pure ((residue, .passed), cache)
  | fuel + 1, cache, current, residue =>
    if current < fin then do
      let count := min (fin - current) LINE_BLOCKS
      match ← readBlocks count with
      | .error _ => pure ((residue, .phaseError), cache.drop STREAM_LINE)
      | .ok blocks =>
        let cache := cache.stage blocks
        let backend := (← borrow).backend
        let written ← blockWrite backend current ((cache.lines STREAM_LINE).data.take count)
        if !written then
          modifyShared (·.setSense SENSE_MEDIUM_ERROR ASC_WRITE_ERROR 0)
          match ← discardOut (residue - count * BLOCK_LEN) with
          | .error _ => pure ((residue, .phaseError), cache)
          | .ok () => pure ((residue, .failed), cache)
        else
          modifyShared fun s => { s with stats.writeBlocks := (s.stats.writeBlocks + count) % 2 ^ 32 }
          write10Loop fin fuel (cache.updateFromStream current count) (current + count) (residue - count * BLOCK_LEN)
    else
      pure ((residue, .passed), cache)

def write10 (cache : BlockCache) (cbw : Cbw) : MscM (CommandResult × BlockCache) :=
  if cbw.direction ≠ .out ∨ cbw.transferLen ≠ cbw.blocks * BLOCK_LEN then
    pure ((cbw.transferLen, .phaseError), cache)
  else if cbw.blocks = 0 then
    pure ((0, .passed), cache)
  else do
    let count := (← borrow).blockCount
    if 2 ^ 32 ≤ cbw.lba + cbw.blocks ∨ cbw.lba + cbw.blocks > count then
      modifyShared (·.setSense SENSE_ILLEGAL_REQUEST ASC_INVALID_FIELD 0)
      match ← discardOut cbw.transferLen with
      | .error _ => pure ((cbw.transferLen, .phaseError), cache)
      | .ok () => pure ((cbw.transferLen, .failed), cache)
    else
      write10Loop (cbw.lba + cbw.blocks) cbw.blocks cache cbw.lba cbw.transferLen

/-! ## The class -/

structure MscClass where
  cache : BlockCache
  cacheGeneration : ℕ

/-- The commands that do not touch the cache. -/
def executeOther (cbw : Cbw) : MscM CommandResult :=
  let opcode := cbw.byte 0
  if opcode = SCSI_TEST_UNIT_READY then testUnitReady cbw
  else if opcode = SCSI_REQUEST_SENSE then requestSense cbw
  else if opcode = SCSI_INQUIRY then inquiry cbw
  else if opcode = SCSI_MODE_SENSE_6 then modeSense6 cbw
  else if opcode = SCSI_MODE_SENSE_10 then modeSense10 cbw
  else if opcode = SCSI_START_STOP_UNIT then startStop cbw
  else if opcode = SCSI_PREVENT_ALLOW_REMOVAL ∨ opcode = SCSI_SYNCHRONIZE_CACHE_10 then noData cbw
  else if opcode = SCSI_READ_FORMAT_CAPACITIES then readFormatCapacities cbw
  else if opcode = SCSI_READ_CAPACITY_10 then readCapacity10 cbw
  else if opcode = SCSI_SERVICE_ACTION_IN_16 ∧ (cbw.byte 1).toNat % 32 = 0x10 then readCapacity16 cbw
  else if opcode = SCSI_REPORT_LUNS then reportLuns cbw
  else if opcode = SCSI_VERIFY_10 ∧ (cbw.byte 1).toNat / 2 % 2 = 0 then noData cbw
  else do
    modifyShared (·.setSense SENSE_ILLEGAL_REQUEST ASC_INVALID_COMMAND 0)
    pure (cbw.transferLen, .failed)

namespace MscClass

def new : MscClass := ⟨BlockCache.zeroed.invalidate, 0⟩

/-- The generation check at the head of `execute`: blocks cached before the last attach are dropped. -/
def refresh (self : MscClass) (generation : ℕ) : MscClass :=
  if generation ≠ self.cacheGeneration then ⟨self.cache.invalidate, generation⟩ else self

/-- `execute`. -/
def execute (self : MscClass) (cbw : Cbw) : MscM (CommandResult × MscClass) := do
  let self := self.refresh (← borrow).generation
  if cbw.byte 0 = SCSI_READ_10 then
    let (result, cache) ← read10 self.cache cbw
    pure (result, { self with cache })
  else if cbw.byte 0 = SCSI_WRITE_10 then
    let (result, cache) ← write10 self.cache cbw
    pure (result, { self with cache })
  else
    let result ← executeOther cbw
    pure (result, self)

def sendCsw (tag residue : ℕ) (status : CommandStatus) : MscM Unit := do
  match ← endpointWrite .status (cswBytes tag residue status) with
  | .error _ => waitEnabled
  | .ok () => pure ()

/-- One pass of the loop of `run`. -/
def pass (self : MscClass) : MscM MscClass := do
  match ← endpointRead .command BULK_PACKET_SIZE with
  | .error .disabled =>
    waitEnabled
    pure self
  | .error .bufferOverflow => pure self
  | .ok received =>
    match Cbw.parse received with
    | none => pure self
    | some cbw =>
      if cbw.lun ≠ 0 then
        sendCsw cbw.tag cbw.transferLen .failed
        pure self
      else
        let ((residue, status), self) ← self.execute cbw
        sendCsw cbw.tag residue status
        pure self

end MscClass

end Ratputer
