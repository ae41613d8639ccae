import Ratputer.Fat32

/-!
# Files on a FAT32 volume

What the firmware does to files, one call after another: chunks are appended, written in the middle or replace the content, and are
read, each call with a writer or reader of its own that is resumed from the cursor of the one before. Beside it what this is for: a
file is a list of octets, a write changes it, and it fails when the free clusters run out.
-/

namespace Ratputer.Fat32

/-- Where a call writes. -/
inductive How
  | replace
  | append
  | writeAt (offset : Nat)

inductive Request
  | create (slot : Slot) (name : List UInt8) (now : FatDateTime)
  | createDir (slot : Slot) (name dots : List UInt8) (now : FatDateTime)
  /-- Write chunks with one writer. When one fails the writer is given up, or still commits what there was room for. -/
  | write (slot : Slot) (how : How) (chunks : List (List UInt8)) (commit : Bool) (now : FatDateTime)
  | read (slot : Slot) (offset count : Nat)
  | truncate (slot : Slot) (size : Nat) (now : FatDateTime)
  | setTimes (slot : Slot) (modified : Option FatDateTime) (accessedDate : Option Nat)
  | delete (slot : Slot)

inductive Answer
  | done
  | bytes (bytes : List UInt8)
  /-- The slot is taken, or holds no file, or the file would get a gap or pass 4 GiB. -/
  | refused
  | failed (error : Error)
  deriving DecidableEq

/-- The offset that a call writes at first. -/
def How.start (size : Nat) : How → Nat
  | replace => 0
  | append => size
  | .writeAt offset => offset

/-- A call is refused that would leave a gap, or make the file too long. -/
def How.refuses (how : How) (size count : Nat) : Bool := size < how.start size ∨ 2 ^ 32 ≤ how.start size + count

variable (g : Geometry)

/-! ## With cursors -/

/-- The cursors kept for a slot: where the file ends, and where the last read did. -/
structure Kept where
  append : Option AppendCursor := none
  readAt : Option (Nat × ReadCursor) := none

structure Client where
  volume : FatVolume
  kept : Slot → Kept

/-- Write chunks, until one fails. -/
def FileWriter.writeAll : List (List UInt8) → WriteM Unit
  | [] => pure ()
  | chunk :: rest => do
    let _ ← write g chunk
    writeAll rest

namespace Client

variable (c : Client)

/-- The volume after a call on a slot, and the cursors that are kept for the slot. -/
def put (slot : Slot) (volume : FatVolume) (kept : Kept) : Client := ⟨volume, Function.update c.kept slot kept⟩

/-- The file in a slot. -/
def find (slot : Slot) : Option FileEntry := (c.volume.lookup slot).filter fun entry => !entry.directory

/-- A writer; at the end of the file the last one is resumed. -/
def openWriter (entry : FileEntry) : How → Except Error (FileWriter × FatVolume)
  | .replace => FileWriter.new entry c.volume
  | .append =>
    match (c.kept entry.entrySlot).append with
    | some cursor => FileWriter.newAppendFromCursor g entry cursor c.volume
    | none => FileWriter.newAppend g entry c.volume
  | .writeAt offset => FileWriter.newAt g entry offset c.volume

/-- Commit a writer, and keep its cursor if it is at the end of the file. -/
def commit (entry : FileEntry) (writer : FileWriter) (now : FatDateTime) (v : FatVolume) : Client × Answer :=
  match writer.finish g now v with
  | .error error v => (c.put entry.entrySlot v {}, .failed error)
  | .ok () v =>
    let at_end := 0 < writer.totalWritten ∧ entry.size ≤ writer.totalWritten
    (c.put entry.entrySlot v { append := if at_end then some writer.appendCursor else none }, .done)

def write (slot : Slot) (how : How) (chunks : List (List UInt8)) (commit : Bool) (now : FatDateTime) : Client × Answer :=
  match c.find slot with
  | none => (c, .refused)
  | some entry =>
    if how.refuses entry.size chunks.flatten.length then (c, .refused)
    else
      match c.openWriter g entry how with
      | .error error => (c.put slot c.volume { c.kept slot with append := none }, .failed error)
      | .ok opened =>
        match FileWriter.writeAll g chunks opened with
        | .ok () (writer, v) => c.commit g entry writer now v
        | .error error (writer, v) =>
          if commit then ((c.commit g entry writer now v).1.put slot (c.commit g entry writer now v).1.volume {}, .failed error)
          else (c.put slot (v.unregisterWriter slot) { c.kept slot with append := none }, .failed error)

/-- A reader at an offset; where the last one ended it is resumed. -/
def openReader (entry : FileEntry) (offset : Nat) : Except Error FileReader :=
  match (c.kept entry.entrySlot).readAt.filter fun kept => kept.1 = offset with
  | some (_, cursor) => FileReader.newFromCursor g entry cursor
  | none => do
    let reader ← FileReader.new entry
    reader.seek g c.volume offset

def read (slot : Slot) (offset count : Nat) : Client × Answer :=
  match c.find slot with
  | none => (c, .refused)
  | some entry =>
    match c.openReader g entry offset >>= fun reader => reader.read g c.volume count with
    | .error error => (c.put slot c.volume { c.kept slot with readAt := none }, .failed error)
    | .ok (bytes, reader) =>
      let readAt := if bytes = [] then none else some (offset + bytes.length, reader.cursor)
      (c.put slot c.volume { c.kept slot with readAt }, .bytes bytes)

/-- A call after which no cursor is kept. -/
def change (slot : Slot) (call : EStateM Error FatVolume Unit) : Client × Answer :=
  match call c.volume with
  | .ok () v => (c.put slot v {}, .done)
  | .error error v => (c.put slot v {}, .failed error)

/-- A call that leaves the content and the cursors. -/
def touch (call : EStateM Error FatVolume Unit) : Client × Answer :=
  match call c.volume with
  | .ok () v => ({ c with volume := v }, .done)
  | .error error v => ({ c with volume := v }, .failed error)

def step : Request → Client × Answer
  | .create slot name now =>
    if (c.volume.slots slot).isSome then (c, .refused) else (c.put slot (createFile slot name now c.volume) {}, .done)
  | .createDir slot name dots now =>
    if (c.volume.slots slot).isSome then (c, .refused) else c.change slot (Fat32.createDir g slot name dots now)
  | .write slot how chunks commit now => c.write g slot how chunks commit now
  | .read slot offset count => c.read g slot offset count
  | .truncate slot size now =>
    match c.find slot with
    | none => (c, .refused)
    | some entry => c.change slot (Fat32.truncate g entry size now)
  | .setTimes slot modified accessedDate =>
    match c.volume.lookup slot with
    | none => (c, .refused)
    | some entry => c.touch (Fat32.setTimes entry modified accessedDate)
  | .delete slot =>
    match c.volume.lookup slot with
    | none => (c, .refused)
    | some entry => c.change slot (Fat32.delete g entry)

end Client

/-! ## Without a table -/

/-- What a slot holds: a directory of so many clusters, or a file. -/
inductive Stored
  | directory (clusters : Nat)
  | file (content : List UInt8)

/-- What the slots hold, and how many clusters are free. -/
structure Disk where
  stored : Slot → Option Stored
  free : Nat

/-- The clusters that it takes. -/
def Stored.clusters : Stored → Nat
  | directory clusters => clusters
  | file content => clustersFor g content.length

/-- Octets put over others from an offset on. -/
def splice (old : List UInt8) (offset : Nat) (data : List UInt8) : List UInt8 :=
  old.take offset ++ data ++ old.drop (offset + data.length)

/-- The content after a write. -/
def How.result (old data : List UInt8) : How → List UInt8
  | replace => data
  | append => old ++ data
  | .writeAt offset => splice old offset data

namespace Disk

variable (d : Disk)

/-- Put something into a slot, for what was there. -/
def put (slot : Slot) (stored : Option Stored) : Disk where
  stored := Function.update d.stored slot stored
  free := d.free + ((d.stored slot).map (Stored.clusters g)).getD 0 - (stored.map (Stored.clusters g)).getD 0

def write (slot : Slot) (how : How) (chunks : List (List UInt8)) (commit : Bool) : Disk × Answer :=
  match d.stored slot with
  | some (.file old) =>
    let data := chunks.flatten
    let own := clustersFor g old.length
    if how.refuses old.length data.length then (d, .refused)
    else if how.start old.length + data.length ≤ (d.free + own) * g.clusterSize then
      (d.put g slot (some (.file (how.result old data))), .done)
    else
      -- what fits into the file's own clusters has been written there; its size changes only if that is committed
      let kept := (old.take (how.start old.length) ++ data).take (if commit then own * g.clusterSize else old.length)
      (d.put g slot (some (.file kept)), .failed .noFreeSpace)
  | _ => (d, .refused)

def step : Request → Disk × Answer
  | .create slot _ _ => if (d.stored slot).isSome then (d, .refused) else (d.put g slot (some (.file [])), .done)
  | .createDir slot _ _ _ =>
    if (d.stored slot).isSome then (d, .refused)
    else if d.free = 0 then (d, .failed .noFreeSpace)
    else (d.put g slot (some (.directory 1)), .done)
  | .write slot how chunks commit _ => d.write g slot how chunks commit
  | .read slot offset count =>
    match d.stored slot with
    | some (.file content) => (d, .bytes ((content.drop offset).take count))
    | _ => (d, .refused)
  | .truncate slot size _ =>
    match d.stored slot with
    | some (.file content) => (d.put g slot (some (.file (content.take size))), .done)
    | _ => (d, .refused)
  | .setTimes slot _ _ => (d, if (d.stored slot).isSome then .done else .refused)
  | .delete slot => if (d.stored slot).isSome then (d.put g slot none, .done) else (d, .refused)

end Disk

end Ratputer.Fat32
