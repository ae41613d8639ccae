import Ratputer.Bus
import Ratputer.Lib.Mealy

/-!
# The Bulk-Only Transport, host and device

The class in its loop on one side; on the other a host that sends a command block, moves the data it announced and takes one
packet as the command status. Both work on the packets of the two endpoints and know nothing else of each other. Between two
commands the firmware may leave the shared state and the card as it likes.
-/

namespace Ratputer

variable {D : Type} (dev : BlockDevice D)

/-- The device in its loop and the bus: the class when the current pass began, and what is left of the pass behind the read
that it waits in. -/
structure Transport (D : Type) where
  cls : MscClass
  device : MscM MscClass
  bus : Bus D

/-- Runs the device until it waits for the host. Every pass reads a packet, so `fuel` is the number of packets and one more. -/
def Transport.pump : ℕ → Transport D → Transport D
  | 0, s => s
  | fuel + 1, s =>
    match Coroutine.advance (Bus.handle dev) s.device s.bus with
    | (.done cls, bus) => pump fuel ⟨cls, cls.pass, bus⟩
    | (device, bus) => ⟨s.cls, device, bus⟩

/-- What is left to read after an IN data phase of `n` bytes: packets are read until `n` bytes are in or one is short. -/
def dataPhase : ℕ → List Packet → List Packet
  | _, [] => []
  | n, packet :: rest =>
    if n = 0 then packet :: rest
    else if packet.bytes.length < BULK_PACKET_SIZE then rest
    else dataPhase (n - packet.bytes.length) rest

inductive BotEvent (D : Type) where
  /-- The host sends a command block and, when the command is an OUT command, its data. -/
  | command (cbw : Cbw) (packet : List UInt8) (payload : List UInt8)
  | firmware (shared : SharedState) (card : D)

/-- A command as the host sees it, and the packets that the device has read as command blocks meanwhile. -/
structure Exchange where
  csw : Option Packet
  commands : List Packet

/-- The packets of a command that the host sends. -/
def hostPackets (cbw : Cbw) (packet payload : List UInt8) : List Packet :=
  ⟨.command, packet⟩ :: if cbw.direction = .out then dataPackets payload else []

/-- What the host leaves on the IN endpoint after the data phase of a command. -/
def hostDataPhase (cbw : Cbw) (packets : List Packet) : List Packet :=
  if cbw.direction = .in_ then dataPhase cbw.transferLen packets else packets

def Transport.step (s : Transport D) : BotEvent D → Transport D × Exchange
  | .command cbw packet payload =>
    let outQueue := s.bus.outQueue ++ hostPackets cbw packet payload
    let t := pump dev (outQueue.length + 1) { s with bus := { s.bus with outQueue, commands := [] } }
    let left := hostDataPhase cbw t.bus.inQueue
    ({ t with bus := { t.bus with inQueue := left.tail } }, ⟨left.head?, t.bus.commands⟩)
  | .firmware shared card => ({ s with bus := { s.bus with shared, card } }, ⟨none, []⟩)

/-- A command block as the host may send it: 31 bytes that parse, and with an OUT command the announced data. -/
def BotEvent.Valid : BotEvent D → Prop
  | .command cbw packet payload => Cbw.parse packet = some cbw ∧ (cbw.direction = .out → payload.length = cbw.transferLen)
  | .firmware .. => True

/-- The host took the device's CSW for its command as the CSW, and the device read only command blocks as command blocks. -/
def BotEvent.InPhase : BotEvent D → Exchange → Prop
  | .command cbw _ _, exchange => (∃ residue status, exchange.csw = some ⟨.status, cswBytes cbw.tag residue status⟩) ∧
      ∀ packet ∈ exchange.commands, packet.phase = .command
  | .firmware .., _ => True

/-- The lines of a cache hold as many blocks as they say. -/
def BlockCache.WellFormed (c : BlockCache) : Prop :=
  ∀ i, (c.lines i).valid = true → (c.lines i).len ≤ (c.lines i).data.length

/-- Host and device between two commands: the device waits for a command block and nothing is under way. -/
structure Transport.Idle (s : Transport D) : Prop where
  device : s.device = s.cls.pass
  cache : s.cls.cache.WellFormed
  outQueue : s.bus.outQueue = []
  inQueue : s.bus.inQueue = []

/-- The buffer of a backend read is filled: a read that succeeds delivers as many blocks as it was asked for. -/
def FillsBuffer : Prop :=
  ∀ card start count blocks, (dev.read card start count).1 = some blocks → blocks.length = count

/-- The block behind the part of a line that a READ(10) up to `fin` takes. -/
def Line.next (line : Line) (fin : ℕ) : ℕ := line.start + min (fin - line.start) line.len

/-- The backend delivers every line that the loop of READ(10) asks it for, from this cache and card on. -/
def Fetches (backend : Backend) (count fin : ℕ) (streaming : Bool) : ℕ → BlockCache → D → ℕ → Prop
  | 0, _, _, _ => True
  | fuel + 1, cache, card, current =>
    current < fin →
      match cache.find current with
      | some (index, cache) => Fetches backend count fin streaming fuel cache card ((cache.lines index).next fin)
      | none =>
        let index := cache.victim streaming
        let start := current / LINE_BLOCKS * LINE_BLOCKS
        let len := min LINE_BLOCKS (count - start)
        backend ≠ .none ∧ ∃ blocks, (dev.read card start len).1 = some blocks ∧
          let cache := (cache.drop index).fill index start len blocks
          Fetches backend count fin streaming fuel cache (dev.read card start len).2 ((cache.lines index).next fin)

/-- The commands whose data phase the class brings to its end: those without one; READ(10) that transfers, while the backend
delivers; the other IN commands that answer with data; and WRITE(10) whose length is that of its blocks. -/
def Terminates (cls : MscClass) (shared : SharedState) (card : D) (cbw : Cbw) : Prop :=
  cbw.transferLen = 0 ∨ cbw.lun = 0 ∧
    match cbw.direction with
    | .in_ =>
      if cbw.byte 0 = SCSI_READ_10 then
        cbw.InRange .in_ shared.blockCount ∧
          Fetches dev shared.backend shared.blockCount (cbw.lba + cbw.blocks) (cbw.blocks > LINE_BLOCKS) cbw.blocks
            (cls.refresh shared.generation).cache card cbw.lba
      else cbw.byte 0 ≠ SCSI_WRITE_10 ∧ (answer cbw shared).isSome = true
    | .out => cbw.byte 0 = SCSI_WRITE_10 ∧ cbw.transferLen = cbw.blocks * BLOCK_LEN

/-- A step of the host that keeps the transport in phase. -/
def Transport.Keeps (s : Transport D) (e : BotEvent D) : Prop :=
  e.Valid ∧
    match e with
    | .command cbw _ _ => Terminates dev s.cls s.bus.shared s.bus.card cbw
    | .firmware .. => True

end Ratputer
