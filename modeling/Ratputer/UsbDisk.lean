import Ratputer.Msc
import Ratputer.Lib.Mealy

/-!
# The USB disk

`usbdisk.rs`: the firmware's side of the mass-storage class. The class runs as a task that is only polled while a card is
attached, and waits at its endpoints; between two polls the main loop may detach the card and attach another one. A poll that
brings the task forward answers the operation it waits for, and runs it to the next one. `D` is the state of a card, and a context
pointer is a number. A step yields what it does: the main loop's calls, the calls on the card, and the commands that start.
-/

namespace Ratputer

/-- What a step of the disk does. -/
inductive Observed
  | attach (context : ℕ)
  | detach
  | count (context : ℕ)
  | read (context lba len : ℕ)
  | write (context lba : ℕ) (blocks : List Block)
  | command (cbw : Cbw)

/-- The requests that `ControlHandler` changes the shared state on. -/
inductive ControlRequest
  | reset
  | enabled (enabled : Bool)
  | configured (configured : Bool)
  | bulkOnlyReset
  deriving DecidableEq, Repr

def SharedState.control (s : SharedState) : ControlRequest → SharedState
  | .reset => { s with configured := false }
  | .enabled enabled => if enabled then s else { s with configured := false }
  | .configured configured => { s with configured }
  | .bulkOnlyReset => { s with sense := .default }

/-- The command that starts with the answer to an operation. -/
def started : (o : MscOp) → o.Ret → List Observed
  | .endpointRead .command _, .ok received =>
    match Cbw.parse received with
    | some cbw => if cbw.lun = 0 then [.command cbw] else []
    | none => []
  | _, _ => []

structure UsbDisk (D : Type) where
  /-- The peripheral, until the first attach takes it. -/
  usb : Bool := true
  task : Option (MscM MscClass) := none
  shared : SharedState := .default
  active : Bool := false
  /-- The cards behind the context pointers. -/
  cards : ℕ → D

/-- The calls of the main loop, and what happens while it polls the task. -/
inductive UsbDiskEvent (D : Type)
  | attach (context : ℕ) (card : D)
  | detach
  | control (request : ControlRequest)
  | poll (answer : (o : MscOp) → o.Ret)

/-- The state that a running task works on, with what it has done. -/
structure TaskState (D : Type) where
  shared : SharedState
  cards : ℕ → D
  log : List Observed

variable {D : Type} (dev : BlockDevice D)

/-- The operations that the task does not wait at. -/
def TaskState.handle : (o : MscOp) → TaskState D → Option (o.Ret × TaskState D)
  | .shared f, s => some (s.shared, { s with shared := f s.shared })
  | .blockRead .none _ _, s => some (none, s)
  | .blockRead (.device context) lba len, s =>
    let r := dev.read (s.cards context) lba len
    some (r.1, { s with cards := Function.update s.cards context r.2, log := s.log ++ [.read context lba len] })
  | .blockWrite .none _ _, s => some (false, s)
  | .blockWrite (.device context) lba blocks, s =>
    let r := dev.write (s.cards context) lba blocks
    some (r.1, { s with cards := Function.update s.cards context r.2, log := s.log ++ [.write context lba blocks] })
  | .endpointRead .., _ => none
  | .endpointWrite .., _ => none
  | .waitEnabled, _ => none

/-- The task brought forward with an answer to the operation it waits for; `run` goes on with its next pass. -/
def resume (answer : (o : MscOp) → o.Ret) (task : MscM MscClass) (s : TaskState D) : MscM MscClass × TaskState D :=
  match task with
  | .done self => (self.pass, s)
  | .ask o k =>
    let r := Coroutine.advance (TaskState.handle dev) (k (answer o)) { s with log := s.log ++ started o (answer o) }
    match r.1 with
    | .done self => (self.pass, r.2)
    | task => (task, r.2)

namespace UsbDisk

/-- `initialize`: build the USB device once; its task is kept for later attachments. -/
def initializeTask (self : UsbDisk D) : UsbDisk D × Bool :=
  if self.task.isSome then (self, true)
  else if self.usb then ({ self with usb := false, task := some MscClass.new.pass }, true)
  else (self, false)

def attach (self : UsbDisk D) (context : ℕ) (card : D) : UsbDisk D × List Observed :=
  let r := self.initializeTask
  if r.2 then
    ({ r.1 with
      shared := r.1.shared.attach context ((dev.numBlocks card).getD 0)
      cards := Function.update r.1.cards context card
      active := true }, [.attach context, .count context])
  else (r.1, [])

def detach (self : UsbDisk D) : UsbDisk D × List Observed :=
  (if self.active then { self with shared := self.shared.detach, active := false } else self, [.detach])

/-- One wake-up of `poll`. -/
def poll (self : UsbDisk D) (answer : (o : MscOp) → o.Ret) : UsbDisk D × List Observed :=
  match self.active, self.task with
  | true, some task =>
    let r := resume dev answer task { shared := self.shared, cards := self.cards, log := [] }
    ({ self with task := some r.1, shared := r.2.shared, cards := r.2.cards }, r.2.log)
  | _, _ => (self, [])

def step (self : UsbDisk D) : UsbDiskEvent D → UsbDisk D × List Observed
  | .attach context card => self.attach dev context card
  | .detach => self.detach
  | .control request => (if self.active then { self with shared := self.shared.control request } else self, [])
  | .poll answer => self.poll dev answer

end UsbDisk

end Ratputer
