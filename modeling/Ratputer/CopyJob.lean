import Ratputer.Fat
import Ratputer.FileManager

/-!
# Copying in the SD browser

`CopyJob`, which the browser polls once a main-loop pass: a file goes over in chunks of 2 KiB, a directory as a stack of the
directories that are being copied, each with the number of its next entry. No directory, reader or writer outlives a poll; a file
keeps a cursor for each side. A poll that fails ends the job, so what it leaves is the volume only.
-/

namespace Ratputer

def COPY_CHUNK : Nat := 2048
def MAX_COPY_DEPTH : Nat := 12

/-- The driver with the calls that only the browser makes. -/
structure CopyFat (V : Type) extends Fat V where
  /-- `createFile` with the entry it returns. -/
  createFileEntry : Dir → Str → FatM V (FileEntry Identity)
  writerNew : FileEntry Identity → FatM V Writer
  /-- `finish` of a writer whose last write failed or came back short; its result is not looked at. -/
  writerAbandon : Writer → V → V

variable {V : Type}

structure DirectoryCopy where
  source : List Str
  target : List Str
  next : Nat
  deriving DecidableEq

structure FileCopy (F : CopyFat V) where
  source : List Str
  target : List Str
  name : Str
  readCursor : Option F.ReadCursor := none
  writeCursor : Option F.AppendCursor := none
  started : Bool := false

structure CopyJob (F : CopyFat V) where
  /-- The directories being copied, the innermost first. -/
  directories : List DirectoryCopy := []
  file : Option (FileCopy F) := none
  copied : Nat := 0
  files : Nat := 0

/-- The loop of `itemAt`: the item of a number, `.` and `..` not counted. -/
def itemIn {Identity : Type} : List (Except FatError (FileEntry Identity)) → Nat → Nat → Except FatError (Option Item)
  | [], _, _ => .ok none
  | .error _ :: _, _, _ => .error .other
  | .ok entry :: records, position, index =>
    if entry.name = ['.'] ∨ entry.name = ['.', '.'] then itemIn records position index
    else if position = index then .ok (some ⟨String.ofList entry.name, entry.isDirectory, entry.len⟩)
    else itemIn records (position + 1) index

/-- Fail unless a condition holds. -/
def require (c : Prop) [Decidable c] : FatM V Unit := if c then pure () else throw .other

section

variable (F : CopyFat V)

/-- One directory item, by its number. -/
def itemAt (path : List Str) (index : Nat) : FatM V (Option Item) := do
  let dir ← F.openDirPath path
  match itemIn (← F.entries dir) 0 index with
  | .ok item => return item
  | .error error => throw error

/-- The entry of a name; an error when there is none. -/
def findOrFail (dir : F.Dir) (name : Str) : FatM V F.Entry := do
  match ← F.find dir name with
  | some entry => return entry
  | none => throw .other

/-- Fail unless the search for a name finds nothing. -/
def requireFree (dir : F.Dir) (name : Str) : FatM V Unit := do
  let found ← F.find dir name
  require found.isNone

/-- Write all of a chunk, if there is one; otherwise commit the partial size, and fail. -/
def writeOut (writer : F.Writer) (chunk : List UInt8) : FatM V F.Writer := fun v =>
  if chunk = [] then .ok writer v
  else
    match F.writerWrite writer chunk v with
    | .ok (written, writer) v => if written = chunk.length then .ok writer v else .error .other (F.writerAbandon writer v)
    | .error _ v => .error .other (F.writerAbandon writer v)

/-- Write a chunk and commit it. -/
def appendChunk (writer : F.Writer) (chunk : List UInt8) : FatM V F.AppendCursor := do
  let writer ← writeOut F writer chunk
  F.writerFinish writer
  return F.writerAppendCursor writer

end

namespace FileCopy

variable {F : CopyFat V} (file : FileCopy F)

/-- The file to write to: on the first poll a new one, never one that is there. -/
def targetEntry : FatM V F.Entry := do
  let dest ← F.openDirPath file.target
  if file.started then findOrFail F dest file.name
  else do
    requireFree F dest file.name
    F.createFileEntry dest file.name

def openSource (source : F.Entry) : FatM V F.Reader :=
  match file.readCursor with
  | some cursor => F.readerFromCursor source cursor
  | none => F.readerNew source

def openTarget (target : F.Entry) : FatM V F.Writer :=
  if file.started then
    match file.writeCursor with
    | some cursor => F.writerFromCursor target cursor
    | none => throw .other
  else F.writerNew target

/-- One chunk of the file, with the octets it copies. -/
def chunk : FatM V (FileCopy F × Nat) := do
  let parent ← F.openDirPath file.source
  let source ← findOrFail F parent file.name
  require (source.isDirectory = false)
  let target ← file.targetEntry
  let reader ← file.openSource source
  let (bytes, reader) ← F.readerRead reader COPY_CHUNK
  let writer ← file.openTarget target
  let cursor ← appendChunk F writer bytes
  return ({ file with
    readCursor := some (F.readerCursor reader)
    writeCursor := some cursor
    started := true }, bytes.length)

end FileCopy

namespace CopyJob

variable {F : CopyFat V} (job : CopyJob F)

/-- A poll on the file: it is over with the chunk that is empty. -/
def stepFile (file : FileCopy F) : FatM V (CopyJob F × Bool) := do
  let (file, count) ← file.chunk
  let job := { job with copied := job.copied + count }
  return (if count = 0 then { job with files := job.files + 1, file := none } else { job with file := some file }, false)

/-- A poll on the innermost directory: its next entry, or back to the directory around it. -/
def stepDirectory (frame : DirectoryCopy) (outer : List DirectoryCopy) : FatM V (CopyJob F × Bool) := do
  match ← itemAt F frame.source frame.next with
  | none => return ({ job with directories := outer }, false)
  | some item =>
    let frame := { frame with next := frame.next + 1 }
    let name := item.name.toList
    if item.directory then
      require (job.directories.length < MAX_COPY_DEPTH)
      let target ← F.openDirPath frame.target
      requireFree F target name
      F.createDir target name
      return ({ job with directories := ⟨frame.source ++ [name], frame.target ++ [name], 0⟩ :: frame :: outer }, false)
    else
      return ({ job with
        directories := frame :: outer
        file := some { source := frame.source, target := frame.target, name } }, false)

/-- One poll: whether the job is complete. -/
def step : FatM V (CopyJob F × Bool) :=
  match job.file with
  | some file => job.stepFile file
  | none =>
    match job.directories with
    | [] => return (job, true)
    | frame :: outer => job.stepDirectory frame outer

end CopyJob

/-! ## Pasting -/

/-- A call whose error is only told apart from its success. -/
def attempt {α : Type} (call : FatM V α) : FatM V (Option α) := fun v =>
  match call v with
  | .ok a v => .ok (some a) v
  | .error _ v => .ok none v

/-- What `paste` comes to: a refusal with the status it shows, a move, or a copy job. -/
inductive Pasted (F : CopyFat V)
  | refused (status : String)
  | moved
  | copying (job : CopyJob F)

/-- The components of a path of the browser. -/
def components (path : List String) : List Str := path.map String.toList

/-- `FileManager::paste` on the volume. -/
def FileManager.pasteOn (fm : FileManager) (F : CopyFat V) : FatM V (Pasted F) :=
  match fm.clipboard with
  | none => return .refused "CLIPBOARD EMPTY"
  | some clip => do
    let sourcePath := clip.parent ++ [clip.name]
    let name := clip.name.toList
    if clip.directory ∧ inside fm.cwd sourcePath then return .refused "CANNOT PASTE INTO SELF"
    if fm.cwd = clip.parent then return .refused "SAME DIRECTORY"
    let some (some source) ← attempt (F.findIn (components clip.parent) name) | return .refused "SOURCE NOT FOUND"
    if source.isDirectory ≠ clip.directory then return .refused "SOURCE CHANGED"
    let some target ← attempt (F.openDirPath (components fm.cwd)) | return .refused "DESTINATION ERROR"
    let some none ← attempt (F.find target name) | return .refused "NAME EXISTS OR SD ERROR"
    if clip.moving then
      let some _ ← attempt (F.rename source target name) | return .refused "MOVE FAILED"
      return .moved
    else if clip.directory then
      let some _ ← attempt (F.createDir target name) | return .refused "COPY FAILED"
      return .copying { directories := [⟨components sourcePath, components fm.cwd ++ [name], 0⟩] }
    else
      return .copying { file := some { source := components clip.parent, target := components fm.cwd, name } }

end Ratputer
