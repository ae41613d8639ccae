import Ratputer.Sftp.Server

/-!
# The SFTP session

The input side of `sftp.rs`: `feed`, `step` and the framing of requests. A step does one bounded unit of work. Sizes are
computed as the 32-bit target computes them, in `usize` arithmetic that wraps.
-/

namespace Ratputer

open Octets

/-- The values of `usize` on the 32-bit target. -/
def USIZE : Nat := 2 ^ 32

variable {V : Type}

/-- The server with its input side, and the volume it works on. -/
structure Sftp (F : Fat V) extends World F where
  input : List UInt8 := []
  /-- Bytes of an oversized request still to discard. -/
  skip : Nat := 0
  /-- One card read or write per `beginPoll`. -/
  cardBudget : Bool := true

/-- The big-endian `u32` at an offset of the input. -/
def u32At (bytes : List UInt8) (offset : Nat) : Nat := beNat ((bytes.drop offset).take 4)

/-- The type octet of the packet at the head of the input. -/
def kindOf (bytes : List UInt8) : Nat := ((bytes.drop 4).headD 0).toNat

variable {F : Fat V}

namespace Sftp

def new (volume : V) : Sftp F := { server := {}, volume }

variable (s : Sftp F)

/-- How many bytes the caller may feed now. -/
def inputSpace : Nat := MAX_INPUT - s.input.length

def feed (bytes : List UInt8) : Sftp F := { s with input := s.input ++ bytes }

def output : List UInt8 := s.server.out

def consumeOutput (count : Nat) : Sftp F :=
  { s with server := { s.server with out := s.server.out.drop (min count s.server.out.length) } }

/-- Allow one more card read or write. -/
def beginPoll : Sftp F := { s with cardBudget := true }

/-- What a WRITE's header is checked for. -/
def checkWrite (token : List UInt8) (offset dataLen : Nat) : Except Status Slot := do
  let slot ← s.server.slotOf token
  let file ← s.server.file slot
  if !file.writable then throw (.failure "Handle not open for writing")
  if U32_MAX < offset + dataLen then throw (.failure "File exceeds FAT's 4 GiB limit")
  return slot

/-- The fields of a WRITE's header after length and type: id, handle string, offset, data length. -/
structure WriteHeader where
  id : Nat
  token : List UInt8
  offset : Nat
  dataLen : Nat
  deriving Repr, DecidableEq

/-- The header at the head of the input, its handle string `handleLen` bytes long. -/
def writeHeader (bytes : List UInt8) (handleLen : Nat) : WriteHeader :=
  { id := u32At bytes 5
    token := (bytes.drop 13).take handleLen
    offset := beNat ((bytes.drop (13 + handleLen)).take 8)
    dataLen := u32At bytes (21 + handleLen) }

/-- The stream that a WRITE's header starts; a refused one discards its payload. -/
def writeStreamOf (header : WriteHeader) : WriteStream :=
  match s.checkWrite header.token header.offset header.dataLen with
  | .ok slot => { id := header.id, slot, remaining := header.dataLen, offset := header.offset, failed := none }
  | .error status =>
    { id := header.id, slot := ⟨0, by decide⟩, remaining := header.dataLen, offset := header.offset, failed := some status }

/-- The start of a WRITE, once its header is there. -/
def beginWrite (length : Nat) : Sftp F × Bool :=
  if s.input.length < 13 then (s, false)
  else
    let handleLen := u32At s.input 9
    let header := (13 + handleLen + 12) % USIZE
    if 64 < handleLen then ({ s with toWorld := s.setFatal }, false)
    else if s.input.length < header then (s, false)
    else
      let fields := writeHeader s.input handleLen
      let s := { s with input := s.input.drop header }
      if length = (header - 4 + fields.dataLen) % USIZE then
        ({ s with server.writeStream := some (s.writeStreamOf fields) }, true)
      else ({ s with toWorld := s.setFatal }, false)

/-- The next packet at the head of the input. -/
def parseNext (mounted : Bool) (ctx : Ctx) : Sftp F × Bool :=
  if s.input.length < 5 then (s, false)
  else
    let length := u32At s.input 0
    let kind := kindOf s.input
    if length = 0 then ({ s with toWorld := s.setFatal }, false)
    else if kind = FXP_WRITE then s.beginWrite length
    else if MAX_REQUEST < length then
      if s.input.length < 9 then (s, false)
      else
        -- answer, then discard the body
        let whole := (4 + length) % USIZE
        let have' := min s.input.length whole
        ({ s with
            toWorld := s.emit (statusPacket (u32At s.input 5) ⟨FX_BAD_MESSAGE, "Request too large"⟩)
            input := s.input.drop have'
            skip := whole - have' }, true)
    else if s.input.length < 4 + length then (s, false)
    else if !s.cardBudget then (s, false)
    else
      ({ s with
          toWorld := s.dispatch kind ((s.input.take (4 + length)).drop 5) mounted ctx
          input := s.input.drop (4 + length)
          cardBudget := false }, true)

/-- Take `count` bytes of payload off the input; the WRITE is answered when none remain. -/
def advanceWrite (stream : WriteStream) (count : Nat) : Sftp F :=
  let remaining := stream.remaining - count
  let s := { s with input := s.input.drop count }
  if remaining = 0 then
    let s := { s with server.writeStream := none }
    { s with toWorld := s.emit (statusPacket stream.id (stream.failed.getD ⟨FX_OK, "OK"⟩)) }
  else { s with server.writeStream := some { stream with remaining } }

/-- One chunk of a WRITE's payload. It waits for a full chunk, or for the tail of the payload. -/
def continueWrite (mounted : Bool) : Sftp F × Bool :=
  match s.server.writeStream with
  | none => (s, false)
  | some stream =>
    if stream.remaining = 0 then (s.advanceWrite stream 0, true)
    else
      let available := min s.input.length stream.remaining
      if available = 0 ∨ (available < WRITE_CHUNK ∧ available < stream.remaining) then (s, false)
      else
        let count := min available WRITE_CHUNK
        if stream.failed.isSome then (s.advanceWrite stream count, true)
        else if !s.cardBudget then (s, false)
        else
          let (w, error, taken) :=
            writePayload stream (s.input.take count) mounted { s.toWorld with server.writeStream := none }
          let s : Sftp F := { s with toWorld := w, cardBudget := false }
          if taken then
            let offset := if error.isNone then stream.offset + count else stream.offset
            (s.advanceWrite { stream with offset, failed := error } count, true)
          else ({ s with server.writeStream := some { stream with failed := error } }, true)

/-- One bounded unit of work, and whether anything happened. Replies leave first; then a pending reply, a payload, the rest of
an oversized request, and only then the next packet. -/
def step (mounted : Bool) (ctx : Ctx) : Sftp F × Bool :=
  if s.server.fatal then (s, false)
  else if s.server.out ≠ [] then (s, false)
  else if s.server.resize.isSome then
    if !s.cardBudget then (s, false)
    else ({ s with toWorld := s.continueResize mounted ctx, cardBudget := false }, true)
  else if s.server.readStream.isSome then
    if !s.cardBudget then (s, false)
    else ({ s with toWorld := s.continueRead mounted, cardBudget := false }, true)
  else if s.server.writeStream.isSome then s.continueWrite mounted
  else if 0 < s.skip then
    let count := min s.skip s.input.length
    ({ s with input := s.input.drop count, skip := s.skip - count }, 0 < count)
  else s.parseNext mounted ctx

/-- What the session is driven with. -/
inductive Event
  | feed (bytes : List UInt8)
  | consume (count : Nat)
  | beginPoll
  | step (mounted : Bool) (ctx : Ctx)
  deriving Repr, DecidableEq

/-- What the driver of the session sees: the output bytes it took, and whether the step did anything. -/
structure Seen where
  taken : List UInt8 := []
  progress : Bool := false
  deriving Repr, DecidableEq

/-- One event of a session. -/
def serve : Event → Sftp F × Seen
  | .feed bytes => (s.feed bytes, {})
  | .consume count => (s.consumeOutput count, { taken := s.output.take count })
  | .beginPoll => (s.beginPoll, {})
  | .step mounted ctx =>
    let r := s.step mounted ctx
    (r.1, { progress := r.2 })

end Sftp

end Ratputer
