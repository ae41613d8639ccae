import Ratputer.Msc

/-!
# The class on its bus

`Bus` is what surrounds the mass-storage class: the state it shares with the firmware, the card behind the backend, and the
packets on the two bulk endpoints. An endpoint never fails here: a read takes the oldest OUT packet and waits when there is
none, and a write always goes out. `commands` keeps the packets that the class has read as command blocks.
-/

namespace Ratputer

open Octets

structure Packet where
  phase : Phase
  bytes : List UInt8
  deriving DecidableEq, Repr

structure Bus (D : Type) where
  shared : SharedState
  card : D
  /-- Sent by the host and not yet read. -/
  outQueue : List Packet
  /-- Sent by the device and not yet read. -/
  inQueue : List Packet
  /-- Read by the device as command blocks. -/
  commands : List Packet

variable {D : Type} (dev : BlockDevice D)

/-- The answers to the operations of the class. -/
def Bus.handle : (o : MscOp) → Bus D → Option (o.Ret × Bus D)
  | .shared f, b => some (b.shared, { b with shared := f b.shared })
  | .blockRead .none _ _, b => some (none, b)
  | .blockRead (.device _) lba len, b => some ((dev.read b.card lba len).1, { b with card := (dev.read b.card lba len).2 })
  | .blockWrite .none _ _, b => some (false, b)
  | .blockWrite (.device _) lba blocks, b =>
    some ((dev.write b.card lba blocks).1, { b with card := (dev.write b.card lba blocks).2 })
  | .endpointRead phase len, b =>
    match b.outQueue with
    | [] => none
    | packet :: rest =>
      let b := { b with outQueue := rest, commands := if phase = .command then b.commands ++ [packet] else b.commands }
      if packet.bytes.length ≤ len then some (.ok packet.bytes, b) else some (.error .bufferOverflow, b)
  | .endpointWrite phase data, b => some (.ok (), { b with inQueue := b.inQueue ++ [⟨phase, data⟩] })
  | .waitEnabled, b => some ((), b)

/-- The result of a coroutine of the class on a bus, if it does not wait for the host. -/
def Bus.exec {α : Type} (t : MscM α) (b : Bus D) : Option (α × Bus D) := Coroutine.exec (Bus.handle dev) t b

/-- Data packets as the host sends them and the device does: 64 bytes each, the last one shorter. -/
def dataPackets (data : List UInt8) : List Packet := (Chunks.chunks BULK_PACKET_SIZE data).map (Packet.mk .data)

/-- The data that a command other than READ(10) and WRITE(10) answers with, if it has any. -/
def answer (cbw : Cbw) (s : SharedState) : Option (List UInt8) :=
  let opcode := cbw.byte 0
  if opcode = SCSI_TEST_UNIT_READY then none
  else if opcode = SCSI_REQUEST_SENSE then some s.sense.bytes
  else if opcode = SCSI_INQUIRY then inquiryData ((cbw.byte 1).toNat % 2 = 1) (cbw.byte 2)
  else if opcode = SCSI_MODE_SENSE_6 then some [3, 0, 0, 0]
  else if opcode = SCSI_MODE_SENSE_10 then some [0, 6, 0, 0, 0, 0, 0, 0]
  else if opcode = SCSI_START_STOP_UNIT then none
  else if opcode = SCSI_PREVENT_ALLOW_REMOVAL ∨ opcode = SCSI_SYNCHRONIZE_CACHE_10 then none
  else if opcode = SCSI_READ_FORMAT_CAPACITIES then
    some ([0, 0, 0, 8] ++ beBytes 4 s.blockCount ++ [0x02] ++ beBytes 3 BLOCK_LEN)
  else if opcode = SCSI_READ_CAPACITY_10 then
    if s.blockCount = 0 then none else some (beBytes 4 (s.blockCount - 1) ++ beBytes 4 BLOCK_LEN)
  else if opcode = SCSI_SERVICE_ACTION_IN_16 ∧ (cbw.byte 1).toNat % 32 = 0x10 then
    if s.blockCount = 0 then none
    else some (beBytes 8 (s.blockCount - 1) ++ beBytes 4 BLOCK_LEN ++ List.replicate 20 0)
  else if opcode = SCSI_REPORT_LUNS then some (beBytes 4 8 ++ List.replicate 12 0)
  else none

end Ratputer
