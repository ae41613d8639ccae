import Ratputer.Fat

/-!
# A volume in memory

A driver small enough to run the server on: one directory of files, each with an identity of its own that cursors are
checked against. Names are found up to ASCII case. It has no subdirectories.
-/

namespace Ratputer.Ram

/-- A file of the volume. -/
structure Record where
  id : Nat
  name : { name : Str // (asBytes name).length ≤ 765 }
  content : { content : List UInt8 // content.length < 2 ^ 32 }
  attributes : Nat := 0x20
  modified : FatDateTime := default
  accessedDate : Nat := 0

theorem length_nil_lt : ([] : List UInt8).length < 2 ^ 32 := by decide

theorem length_a_le : (asBytes ['a']).length ≤ 765 := by decide

structure Volume where
  files : List Record := []
  nextId : Nat := 0

/-- The directory entry of a file. -/
def Record.entry (r : Record) : FileEntry Nat :=
  { identity := r.id
    name := r.name.1
    name_le := r.name.2
    isDirectory := false
    attributes := r.attributes
    len := r.content.1.length
    len_lt := r.content.2
    modified := r.modified
    accessedDate := r.accessedDate }

/-- A position in a file: what readers and writers are, and what cursors keep. -/
structure Place where
  id : Nat
  len : Nat
  offset : Nat
  deriving DecidableEq

namespace Volume

variable (v : Volume)

/-- The file of an identity. -/
def file (id : Nat) : Option Record := v.files.find? (·.id = id)

/-- The file of a name. -/
def find (name : Str) : Option Record := v.files.find? fun r => eqIgnoreAsciiCase r.name.1 name

/-- Change the file of an identity. -/
def change (id : Nat) (f : Record → Record) : Volume := { v with files := v.files.map fun r => if r.id = id then f r else r }

/-- A change of a file that keeps its name is seen under its name. -/
theorem find_change {id : Nat} {f : Record → Record} (hname : ∀ r, (f r).name = r.name) (leaf : Str) :
    (v.change id f).find leaf = (v.find leaf).map fun r => if r.id = id then f r else r := by
  unfold find change
  dsimp only
  rw [List.find?_map]
  congr 2
  funext r
  dsimp only [Function.comp]
  split
  · rw [hname]
  · rfl

end Volume

/-- The content with `data` put at an offset, and zeros before it where the content does not reach so far. -/
def splice (content : List UInt8) (offset : Nat) (data : List UInt8) : List UInt8 :=
  content.take offset ++ List.replicate (offset - content.length) 0 ++ data ++ content.drop (offset + data.length)

/-- The file with other content; it stays as it is where the content would be too long. -/
def Record.withContent (r : Record) (content : List UInt8) : Record :=
  if h : content.length < 2 ^ 32 then { r with content := ⟨content, h⟩ } else r

theorem Record.name_withContent (r : Record) (content : List UInt8) : (r.withContent content).name = r.name := by
  unfold withContent
  split <;> rfl

def createFile (name : Str) : FatM Volume Unit := fun v =>
  if h : (asBytes name).length ≤ 765 then
    if (v.find name).isSome then .error .alreadyExists v
    else
      .ok () { files := v.files ++ [{ id := v.nextId, name := ⟨name, h⟩, content := ⟨[], by decide⟩ }]
               nextId := v.nextId + 1 }
  else .error .other v

def rename (entry : FileEntry Nat) (name : Str) : FatM Volume Unit := fun v =>
  if h : (asBytes name).length ≤ 765 then
    if (v.find name).isSome then .error .alreadyExists v
    else .ok () (v.change entry.identity fun r => { r with name := ⟨name, h⟩ })
  else .error .other v

def truncate (entry : FileEntry Nat) (size : Nat) : FatM Volume Unit := fun v =>
  .ok () (v.change entry.identity fun r => r.withContent (r.content.1.take size))

/-- A reader or writer from a cursor, refused when the file is not the one it was captured on. -/
def resume (entry : FileEntry Nat) (cursor : Place) : FatM Volume Place := fun v =>
  if cursor.id = entry.identity ∧ cursor.len = entry.len then .ok cursor v else .error .staleEntry v

/-- A writer at the end from a cursor, refused also when the cursor does not stand there. -/
def resumeAppend (entry : FileEntry Nat) (cursor : Place) : FatM Volume Place := fun v =>
  if cursor.offset = entry.len then resume entry cursor v else .error .staleEntry v

def read (place : Place) (count : Nat) : FatM Volume (List UInt8 × Place) := fun v =>
  match v.file place.id with
  | none => .error .other v
  | some r =>
    let bytes := (r.content.1.drop place.offset).take count
    .ok (bytes, { place with offset := place.offset + bytes.length }) v

def write (place : Place) (data : List UInt8) : FatM Volume (Nat × Place) := fun v =>
  match v.file place.id with
  | none => .error .other v
  | some r =>
    let content := splice r.content.1 place.offset data
    if content.length < 2 ^ 32 then
      .ok (data.length, { place with len := content.length, offset := place.offset + data.length })
        (v.change place.id fun r => r.withContent content)
    else .error .other v

/-- A read gives no more than it was asked for. -/
theorem read_le (place : Place) (count : Nat) (v : Volume) (bytes : List UInt8) (place' : Place) (v' : Volume)
    (h : read place count v = .ok (bytes, place') v') : bytes.length ≤ count := by
  unfold read at h
  split at h
  · nomatch h
  · injection h with h
    injection h with h
    rw [← h]
    exact List.length_take_le _ _

/-- The driver. -/
def fat : Fat Volume where
  Dir := Unit
  Identity := Nat
  Reader := Place
  Writer := Place
  ReadCursor := Place
  AppendCursor := Place
  rootDir _ := ()
  openDir _ _ := throw .other
  find _ name := do return ((← get).find name).map Record.entry
  entries _ := do return (← get).files.map fun r => .ok r.entry
  createFile _ name := createFile name
  createDir _ _ := throw .other
  delete entry := modify fun v => { v with files := v.files.filter (·.id ≠ entry.identity) }
  rename entry _ name := rename entry name
  truncate := truncate
  setTimes entry modified accessed := modify (·.change entry.identity fun r => { r with modified, accessedDate := accessed })
  setAttributes entry attributes := modify (·.change entry.identity fun r => { r with attributes })
  sync := pure ()
  freeClusterCount _ := some 1000
  maxCluster _ := 2001
  clusterSize _ := 512
  volumeId _ := 0x1234
  readerNew entry := pure ⟨entry.identity, entry.len, 0⟩
  readerFromCursor := resume
  readerSeek place offset := pure { place with offset }
  readerRead := read
  readerCursor place := place
  readerRead_le := read_le
  writerNewAppend entry := pure ⟨entry.identity, entry.len, entry.len⟩
  writerFromCursor := resumeAppend
  writerNewAt entry offset := pure ⟨entry.identity, entry.len, offset⟩
  writerWrite := write
  writerAppendCursor place := place
  writerFinish _ := pure ()
  writerDrop _ v := v

end Ratputer.Ram
