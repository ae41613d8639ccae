import Ratputer.Sftp.Wire

/-!
# The SFTP server's requests

The request handlers of `sftp.rs` and the three multi-step replies: a DATA stream, a WRITE payload and a growing SETSTAT. A
handler works on the server and the volume together, and may end with a `Status`, which `dispatch` turns into a reply. The
counters and durations of `SftpStats`, which only the log reads, are left out.
-/

namespace Ratputer

open Octets

/-- A place in the handle table. -/
abbrev Slot := Fin MAX_HANDLES

/-- A `DATA` reply whose header is already queued. -/
structure ReadStream where
  slot : Slot
  offset : Nat
  remaining : Nat
  deriving Repr, DecidableEq

/-- A `WRITE` request whose payload is still arriving. -/
structure WriteStream where
  id : Nat
  slot : Slot
  remaining : Nat
  offset : Nat
  /-- First error; the rest of the payload is discarded. -/
  failed : Option Status
  deriving Repr, DecidableEq

/-- What a step reads besides the volume: the clock's settings and the current time, as `nowYmdhms` gives it. -/
structure Ctx where
  clock : ClockConfig := {}
  now : Str := "19800101000000".toList
  deriving Repr, DecidableEq

variable {V : Type}

structure FileHandle (F : Fat V) where
  parent : List Str
  leaf : Str
  readable : Bool
  writable : Bool
  appendMode : Bool
  /-- Last observed committed size; compared with the entry on writes. -/
  size : Nat
  /-- Validated tail position for the next WRITE. -/
  append : Option F.AppendCursor
  /-- Cached reader position for sequential reads: offset and cursor. -/
  readAt : Option (Nat × F.ReadCursor)

structure DirHandle where
  components : List Str
  /-- Visible entries already returned. -/
  next : Nat
  deriving Repr, DecidableEq

inductive Handle (F : Fat V)
  | file (file : FileHandle F)
  | dir (dir : DirHandle)

/-- Zero-filled growth, one chunk a step. -/
structure ResizeJob (F : Fat V) where
  id : Nat
  components : List Str
  attrs : RequestedAttrs
  file : FileHandle F

/-- The server without its input side. -/
structure Server (F : Fat V) where
  out : List UInt8 := []
  readStream : Option ReadStream := none
  writeStream : Option WriteStream := none
  resize : Option (ResizeJob F) := none
  handles : Slot → Option (Handle F) := fun _ => none
  /-- Mixed into handle strings so that a closed handle is not mistaken for a later one in its slot. -/
  generation : Nat := 0
  tokens : Slot → Nat := fun _ => 0
  fatal : Bool := false

/-- The server and the mounted volume. -/
structure World (F : Fat V) where
  server : Server F
  volume : V

/-- A request handler: it may end with a `Status`, and what it did until then stays. -/
abbrev SftpM (F : Fat V) (α : Type) := EStateM Status (World F) α

/-- Card I/O on one open file, apart from the server. -/
abbrev FileM (F : Fat V) (α : Type) := EStateM Status (FileHandle F × V) α

variable {F : Fat V}

/-! ## Effects -/

/-- A driver call; its error is a value. -/
def call {α : Type} (op : FatM V α) : SftpM F (Except FatError α) := fun w =>
  match op w.volume with
  | .ok a v => .ok (.ok a) { w with volume := v }
  | .error e v => .ok (.error e) { w with volume := v }

/-- A driver call whose error becomes a status. -/
def callOr {α : Type} (op : FatM V α) (status : Status) : SftpM F α := do
  match ← call op with
  | .ok a => return a
  | .error _ => throw status

/-- A field of the server. -/
def view {α : Type} (f : Server F → α) : SftpM F α := fun w => .ok (f w.server) w

/-- A value computed from the volume without card access. -/
def viewVolume {α : Type} (f : V → α) : SftpM F α := fun w => .ok (f w.volume) w

def update (f : Server F → Server F) : SftpM F Unit := fun w => .ok () { w with server := f w.server }

/-- A checked value. -/
def check {α : Type} : Except Status α → SftpM F α
  | .ok a => return a
  | .error status => throw status

/-- Read from the request body; what is too short or malformed is a bad message. -/
def parse {α : Type} (reader : ReaderM α) (body : List UInt8) : SftpM F (α × List UInt8) :=
  match reader body with
  | some r => return r
  | none => throw .badMessage

/-- Queue a whole packet. -/
def reply (bytes : List UInt8) : SftpM F Unit := update fun s => { s with out := s.out ++ bytes }

def ok (id : Nat) : SftpM F Unit := reply (statusPacket id ⟨FX_OK, "OK"⟩)

/-- The entry at a path, `No such file` when it is not found or cannot be searched for. -/
def findEntry (parent : List Str) (leaf : Str) : SftpM F F.Entry := do
  match ← call (F.findIn parent leaf) with
  | .ok (some entry) => return entry
  | _ => throw .noSuchFile

/-- The directory at a path, `No such file` when it cannot be opened. -/
def openDirEntry (components : List Str) : SftpM F F.Dir := callOr (F.openDirPath components) .noSuchFile

/-! ## Handles -/

/-- Validate a handle string from the client and return its slot. -/
def Server.slotOf (s : Server F) (token : List UInt8) : Except Status Slot :=
  if token.length ≠ 4 then .error (.failure "Invalid handle")
  else
    let number := beNat token
    if h : number &&& 0xff < MAX_HANDLES then
      let slot : Slot := ⟨number &&& 0xff, h⟩
      if (s.handles slot).isNone ∨ s.tokens slot ≠ number then .error (.failure "Invalid handle") else .ok slot
    else .error (.failure "Invalid handle")

def Server.file (s : Server F) (slot : Slot) : Except Status (FileHandle F) :=
  match s.handles slot with
  | some (.file file) => .ok file
  | _ => .error (.failure "Not a file handle")

def slotOf (token : List UInt8) : SftpM F Slot := do check (← view (·.slotOf token))

def fileAt (slot : Slot) : SftpM F (FileHandle F) := do check (← view (·.file slot))

/-- The first free slot. -/
def Server.freeSlot (s : Server F) : Option Slot := (List.finRange MAX_HANDLES).find? fun slot => (s.handles slot).isNone

/-- Put a handle into a slot under a new token. -/
def Server.insert (s : Server F) (slot : Slot) (handle : Handle F) : Server F :=
  let generation := (s.generation + 1) &&& 0x00ffffff
  { s with
    generation
    tokens := Function.update s.tokens slot (generation <<< 8 ||| slot.val)
    handles := Function.update s.handles slot (some handle) }

def allocate (handle : Handle F) : SftpM F Slot := do
  match ← view (·.freeSlot) with
  | some slot =>
    update (·.insert slot handle)
    return slot
  | none => throw (.failure "Too many open handles")

def handleReply (id : Nat) (slot : Slot) : SftpM F Unit := do
  let token ← view (·.tokens slot)
  reply (packet FXP_HANDLE (putU32 id ++ putString (putU32 token)))

/-- A file handle without its cached cursors. -/
def FileHandle.forget (file : FileHandle F) : FileHandle F := { file with append := none, readAt := none }

/-- Drop the cached cursors of every handle on a path. -/
def Server.invalidateFile (s : Server F) (parent : List Str) (leaf : Str) : Server F :=
  { s with
    handles := fun slot =>
      match s.handles slot with
      | some (.file file) =>
        some (.file (if samePath file.parent file.leaf parent leaf then file.forget else file))
      | handle => handle }

/-- After a write through a slot: its read cursor goes, and both cursors of every other handle on the same path. -/
def Server.invalidateWritten (s : Server F) (slot : Slot) : Server F :=
  match s.handles slot with
  | some (.file written) =>
    { s with
      handles := fun i =>
        match s.handles i with
        | some (.file other) =>
          if i = slot then some (.file { other with readAt := none })
          else if samePath written.parent written.leaf other.parent other.leaf then some (.file other.forget)
          else some (.file other)
        | handle => handle }
  | _ => s

/-- The components a handle addresses. -/
def Server.handleComponents (s : Server F) (slot : Slot) : Except Status (List Str) :=
  match s.handles slot with
  | some (.file file) => .ok (file.parent ++ [file.leaf])
  | some (.dir dir) => .ok dir.components
  | none => .error (.failure "Invalid handle")

/-- The last component and those before it. -/
def splitLast (components : List Str) (status : Status) : Except Status (Str × List Str) :=
  match components.getLast? with
  | some leaf => .ok (leaf, components.dropLast)
  | none => .error status

/-! ## Metadata -/

def fatTime (unix : Nat) (clock : ClockConfig) : Except Status FatDateTime :=
  let time := dateTime (localSeconds unix clock)
  if 1980 ≤ time.year ∧ time.year ≤ 2107 then
    .ok (.new time.year.toNat time.month time.day time.hour time.minute time.second)
  else .error ⟨FX_OP_UNSUPPORTED, "Timestamp is outside FAT's date range"⟩

/-- Reject metadata that FAT cannot hold, before any file data changes. -/
def validateAttrs (attrs : RequestedAttrs) (clock : ClockConfig) : Except Status Unit := do
  if attrs.owner then throw ⟨FX_OP_UNSUPPORTED, "FAT has no UID/GID"⟩
  if attrs.size.any (U32_MAX < ·) then throw (.failure "File exceeds FAT's 4 GiB limit")
  match attrs.times with
  | some (atime, mtime) =>
    let _ ← fatTime atime clock
    let _ ← fatTime mtime clock
  | none => return

/-- The timestamps that a request sets. -/
def applyTimes (entry : F.Entry) (attrs : RequestedAttrs) (clock : ClockConfig) : SftpM F Unit :=
  match attrs.times with
  | some (atime, mtime) => do
    let modified ← check (fatTime mtime clock)
    let accessed ← check (fatTime atime clock)
    callOr (F.setTimes entry modified accessed.date) (.failure "Cannot set FAT timestamps")
  | none => pure ()

/-- The read-only bit that a request's permissions set. -/
def applyPermissions (entry : F.Entry) (attrs : RequestedAttrs) : SftpM F Unit :=
  match attrs.permissions with
  | some permissions =>
    callOr (F.setAttributes entry (entry.withReadOnly (permissions &&& 0o222 = 0)))
      (.failure "Cannot set FAT attributes")
  | none => pure ()

def applyMetadata (entry : F.Entry) (attrs : RequestedAttrs) (clock : ClockConfig) : SftpM F Unit := do
  applyTimes entry attrs clock
  applyPermissions entry attrs

/-! ## Card I/O on one file -/

/-- A driver call on behalf of a file. -/
def fileCall {α : Type} (op : FatM V α) : FileM F (Except FatError α) := fun w =>
  match op w.2 with
  | .ok a v => .ok (.ok a) (w.1, v)
  | .error e v => .ok (.error e) (w.1, v)

def fileCallOr {α : Type} (op : FatM V α) (status : Status) : FileM F α := do
  match ← fileCall op with
  | .ok a => return a
  | .error _ => throw status

def fileView {α : Type} (f : FileHandle F → α) : FileM F α := fun w => .ok (f w.1) w

def fileUpdate (f : FileHandle F → FileHandle F) : FileM F Unit := fun w => .ok () (f w.1, w.2)

/-- The entry of the file. -/
def fileEntry : FileM F F.Entry := do
  let file ← fileView id
  match ← fileCall (F.findIn file.parent file.leaf) with
  | .ok (some entry) => return entry
  | _ => throw .noSuchFile

/-- A reader at an offset: resumed from the cached cursor when it stands there, else opened and moved. -/
def openReader (entry : F.Entry) (offset : Nat) : FileM F F.Reader := do
  let readAt ← fileView (·.readAt)
  fileUpdate fun file => { file with readAt := none }
  match readAt with
  | some (at', cursor) =>
    if at' = offset then fileCallOr (F.readerFromCursor entry cursor) (.failure "")
    else
      let reader ← fileCallOr (F.readerNew entry) (.failure "")
      fileCallOr (F.readerSeek reader offset) (.failure "")
  | none =>
    let reader ← fileCallOr (F.readerNew entry) (.failure "")
    fileCallOr (F.readerSeek reader offset) (.failure "")

/-- Read up to `count` bytes at `offset`. The error carries no message: the caller does not answer it. -/
def readChunk (offset count : Nat) : FileM F (List UInt8) := do
  let entry ← fileEntry
  let reader ← openReader entry offset
  let (bytes, reader) ← fileCallOr (F.readerRead reader count) (.failure "")
  fileUpdate fun file => { file with readAt := some (offset + bytes.length, F.readerCursor reader) }
  return bytes

def writeFailed : Status := .failure "SD write failed"

/-- A writer at an offset: at the end of the file, resumed from the cached cursor if there is one. -/
def openWriter (entry : F.Entry) (offset : Nat) : FileM F F.Writer := do
  if offset = entry.len then
    let append ← fileView (·.append)
    fileUpdate fun file => { file with append := none }
    match append with
    | some cursor => fileCallOr (F.writerFromCursor entry cursor) writeFailed
    | none => fileCallOr (F.writerNewAppend entry) writeFailed
  else
    fileUpdate fun file => { file with append := none }
    fileCallOr (F.writerNewAt entry offset) writeFailed

/-- Write all of the data; a short write gives the writer up. -/
def writeAll (writer : F.Writer) (data : List UInt8) : FileM F F.Writer := do
  let (count, writer) ← fileCallOr (F.writerWrite writer data) writeFailed
  if count ≠ data.length then
    let _ ← fileCall (modify (F.writerDrop writer))
    throw (.failure "SD card full")
  else return writer

/-- Write at an existing offset, keeping the tail, or append at the end. -/
def writeChunk (offset : Nat) (data : List UInt8) : FileM F Unit := do
  let entry ← fileEntry
  if entry.readOnly then throw ⟨FX_PERMISSION_DENIED, "File is read-only"⟩
  let fin := offset + data.length
  if U32_MAX < fin then throw (.failure "File exceeds FAT's 4 GiB limit")
  if entry.len < offset then throw (.failure "Gap must be zero-filled first")
  fileUpdate fun file => if file.size ≠ entry.len then { file with append := none } else file
  let writer ← openWriter entry offset
  let writer ← writeAll writer data
  let cursor := if entry.len ≤ fin then some (F.writerAppendCursor writer) else none
  fileCallOr (F.writerFinish writer) writeFailed
  fileUpdate fun file => { file with append := cursor, readAt := none, size := max entry.len fin }

/-- Run card I/O on the file of a slot and keep what it leaves of the handle; `status` when there is no file. -/
def onFile {α : Type} (slot : Slot) (status : Status) (op : FileM F α) : SftpM F α := fun w =>
  match w.server.handles slot with
  | some (.file file) =>
    let store (r : FileHandle F × V) : World F :=
      { server := { w.server with handles := Function.update w.server.handles slot (some (.file r.1)) }
        volume := r.2 }
    match op (file, w.volume) with
    | .ok a r => .ok a (store r)
    | .error e r => .error e (store r)
  | _ => .error status w

/-! ## Request handlers -/

def realpath (id : Nat) (body : List UInt8) : SftpM F Unit := do
  let (path, _) ← parse Reader.path body
  let canonical := asBytes (display (resolve [] path))
  reply (packet FXP_NAME (putU32 id ++ putU32 1 ++ putString canonical ++ putString canonical ++ putU32 0))

def statComponents (id : Nat) (components : List Str) (ctx : Ctx) : SftpM F Unit := do
  let attrs ← match components.getLast? with
    | none => pure Attrs.root
    | some leaf => do
      let entry ← findEntry components.dropLast leaf
      pure (Attrs.of entry ctx.clock)
  reply (packet FXP_ATTRS (putU32 id ++ attrs.encode))

def statPath (id : Nat) (body : List UInt8) (ctx : Ctx) : SftpM F Unit := do
  let (path, _) ← parse Reader.path body
  statComponents id (resolve [] path) ctx

def fstat (id : Nat) (body : List UInt8) (ctx : Ctx) : SftpM F Unit := do
  let (token, _) ← parse Reader.string body
  let slot ← slotOf token
  let components ← check (← view (·.handleComponents slot))
  statComponents id components ctx

def opendir (id : Nat) (body : List UInt8) : SftpM F Unit := do
  let (path, _) ← parse Reader.path body
  let components := resolve [] path
  match ← call (F.openDirPath components) with
  | .ok _ =>
    let slot ← allocate (.dir { components, next := 0 })
    handleReply id slot
  | .error _ =>
    match components.getLast? with
    | some leaf =>
      match ← call (F.findIn components.dropLast leaf) with
      | .ok (some _) => throw (.failure "Not a directory")
      | _ => throw .noSuchFile
    | none => throw .noSuchFile

/-- The entries of one READDIR reply: their encoding and their number. Entries already sent are skipped; the reply closes at
its entry or byte budget, and a record that cannot be read is an error. -/
def readdirEntries (ctx : Ctx) :
    List (Except FatError F.Entry) → Nat → List UInt8 → Nat → Except Status (List UInt8 × Nat)
  | [], _, entries, count => .ok (entries, count)
  | .error _ :: _, _, _, _ => .error (.failure "Directory read error")
  | .ok entry :: rest, skip, entries, count =>
    if entry.name = ['.'] ∨ entry.name = ['.', '.'] then readdirEntries ctx rest skip entries count
    else if 0 < skip then readdirEntries ctx rest (skip - 1) entries count
    else if READDIR_MAX_ENTRIES ≤ count ∨ READDIR_MAX_BYTES ≤ entries.length then .ok (entries, count)
    else
      readdirEntries ctx rest 0
        (entries ++ putString (asBytes entry.name) ++ putString (asBytes (longListingLine entry ctx.now)) ++
          (Attrs.of entry ctx.clock).encode)
        (count + 1)

def readdir (id : Nat) (body : List UInt8) (ctx : Ctx) : SftpM F Unit := do
  let (token, _) ← parse Reader.string body
  let slot ← slotOf token
  match ← view (·.handles slot) with
  | some (.dir dir) =>
    let fatDir ← openDirEntry dir.components
    let records ← callOr (F.entries fatDir) (.failure "Directory read error")
    let (entries, count) ← check (readdirEntries ctx records dir.next [] 0)
    update fun s => { s with
      handles := Function.update s.handles slot (some (.dir { dir with next := dir.next + count })) }
    if count = 0 then reply (statusPacket id ⟨FX_EOF, "End of directory"⟩)
    else reply (packet FXP_NAME (putU32 id ++ putU32 count ++ entries))
  | _ => throw (.failure "Not a directory handle")

/-- The size of the file that OPEN finds, truncates or creates, and whether it was created. -/
def openTarget (parent : List Str) (leaf : Str) (flags : Nat) : SftpM F (Nat × Bool) := do
  let writable := hasFlag flags FXF_WRITE
  let dir ← openDirEntry parent
  let existing ← callOr (F.find dir leaf) (.failure "Directory read error")
  match existing with
  | some entry =>
    if entry.isDirectory then throw (.failure "Is a directory")
    else if hasFlag flags FXF_CREAT && hasFlag flags FXF_EXCL then throw (.failure "File exists")
    else if writable && entry.readOnly then throw ⟨FX_PERMISSION_DENIED, "File is read-only"⟩
    else if writable && hasFlag flags FXF_TRUNC then
      callOr (F.truncate entry 0) (.failure "Cannot truncate file")
      update (·.invalidateFile parent leaf)
      return (0, false)
    else return (entry.len, false)
  | none =>
    if writable && hasFlag flags FXF_CREAT then
      callOr (F.createFile dir leaf) (.failure "Cannot create file")
      return (0, true)
    else throw .noSuchFile

/-- The metadata of a file that OPEN has created. -/
def applyCreated (parent : List Str) (leaf : Str) (attrs : RequestedAttrs) (clock : ClockConfig) (created : Bool) :
    SftpM F Unit :=
  if created then do
    let entry ← findEntry parent leaf
    applyMetadata entry attrs clock
  else pure ()

/-- `open`. -/
def openFile (id : Nat) (body : List UInt8) (ctx : Ctx) : SftpM F Unit := do
  let ((path, flags, attrs), _) ← parse (do
    let path ← Reader.path
    let flags ← Reader.u32
    let attrs ← Reader.attrs
    return (path, flags, attrs)) body
  check (validateAttrs attrs ctx.clock)
  let (leaf, parent) ← check (splitLast (resolve [] path) (.failure "Is a directory"))
  let writable := hasFlag flags FXF_WRITE
  let (size, created) ← openTarget parent leaf flags
  applyCreated parent leaf attrs ctx.clock created
  let slot ← allocate (.file {
    parent, leaf, size, writable
    readable := hasFlag flags FXF_READ || !writable
    appendMode := hasFlag flags FXF_APPEND
    append := none
    readAt := none })
  handleReply id slot

def close (id : Nat) (body : List UInt8) : SftpM F Unit := do
  let (token, _) ← parse Reader.string body
  let slot ← slotOf token
  update fun s => { s with handles := Function.update s.handles slot none }
  ok id

/-- The header of a `DATA` reply of `length` bytes; the payload follows chunk by chunk. -/
def dataHeader (id length : Nat) : List UInt8 :=
  putU32 (9 + length) ++ UInt8.ofNat FXP_DATA :: (putU32 id ++ putU32 length)

/-- `read`. -/
def readFile (id : Nat) (body : List UInt8) : SftpM F Unit := do
  let ((token, offset, wanted), _) ← parse (do
    let token ← Reader.string
    let offset ← Reader.u64
    let wanted ← Reader.u32
    return (token, offset, wanted)) body
  let slot ← slotOf token
  let file ← fileAt slot
  if !file.readable then throw (.failure "Handle not open for reading")
  let entry ← findEntry file.parent file.leaf
  if entry.len ≤ offset ∨ wanted = 0 then reply (statusPacket id ⟨FX_EOF, "End of file"⟩)
  else
    let length := min (min wanted MAX_READ_REPLY) (min (entry.len - offset) U32_MAX)
    update fun s => { s with
      out := s.out ++ dataHeader id length
      readStream := some { slot, offset, remaining := length } }

def remove (id : Nat) (body : List UInt8) : SftpM F Unit := do
  let (path, _) ← parse Reader.path body
  let (leaf, parent) ← check (splitLast (resolve [] path) (.failure "Is a directory"))
  let entry ← findEntry parent leaf
  if entry.isDirectory then throw (.failure "Is a directory")
  if entry.readOnly then throw ⟨FX_PERMISSION_DENIED, "File is read-only"⟩
  callOr (F.delete entry) (.failure "Cannot delete")
  ok id

def mkdir (id : Nat) (body : List UInt8) (ctx : Ctx) : SftpM F Unit := do
  let ((path, attrs), _) ← parse (do
    let path ← Reader.path
    let attrs ← Reader.attrs
    return (path, attrs)) body
  check (validateAttrs attrs ctx.clock)
  if attrs.size.isSome then throw (.failure "Directory size cannot be set")
  let (leaf, parent) ← check (splitLast (resolve [] path) (.failure "Exists"))
  let dir ← openDirEntry parent
  match ← call (F.createDir dir leaf) with
  | .ok _ =>
    let entry ← findEntry parent leaf
    applyMetadata entry attrs ctx.clock
    ok id
  | .error .alreadyExists => throw (.failure "File exists")
  | .error _ => throw (.failure "Cannot create directory")

def rmdir (id : Nat) (body : List UInt8) : SftpM F Unit := do
  let (path, _) ← parse Reader.path body
  let (leaf, parent) ← check (splitLast (resolve [] path) (.failure "Cannot remove the root"))
  let entry ← findEntry parent leaf
  if !entry.isDirectory then throw (.failure "Not a directory")
  match ← call (F.delete entry) with
  | .ok _ => ok id
  | .error .directoryNotEmpty => throw (.failure "Directory not empty")
  | .error _ => throw (.failure "Cannot remove directory")

/-- The target lies below the source, up to ASCII case. -/
def below (source target : List Str) : Bool :=
  source.length < target.length && (target.zip source).all fun p => eqIgnoreAsciiCase p.1 p.2

def rename (id : Nat) (body : List UInt8) : SftpM F Unit := do
  let ((sourcePath, targetPath), _) ← parse (do
    let source ← Reader.path
    let target ← Reader.path
    return (source, target)) body
  let source := resolve [] sourcePath
  let target := resolve [] targetPath
  let (sourceLeaf, sourceParent) ← check (splitLast source (.failure "Cannot rename the root"))
  let (targetLeaf, targetParent) ← check (splitLast target (.failure "Invalid target"))
  if below source target then throw (.failure "Cannot move a directory into itself")
  let entry ← findEntry sourceParent sourceLeaf
  let dest ← openDirEntry targetParent
  match ← call (F.rename entry dest targetLeaf) with
  | .ok _ => ok id
  | .error .alreadyExists => throw (.failure "Target exists")
  | .error _ => throw (.failure "Rename failed")

/-- The handle under which a SETSTAT grows its file. -/
def resizeFile (parent : List Str) (leaf : Str) (size : Nat) : FileHandle F :=
  { parent, leaf, size, readable := false, writable := true, appendMode := false, append := none, readAt := none }

/-- Cut a file to a smaller size that a request sets. -/
def shrink (entry : F.Entry) (attrs : RequestedAttrs) : SftpM F Unit :=
  match attrs.size with
  | some size => if size < entry.len then callOr (F.truncate entry size) (.failure "Cannot truncate file") else pure ()
  | none => pure ()

def applySetstat (id : Nat) (components : List Str) (attrs : RequestedAttrs) (ctx : Ctx) : SftpM F Unit := do
  check (validateAttrs attrs ctx.clock)
  let (leaf, parent) ← check (splitLast components ⟨FX_OP_UNSUPPORTED, "Root metadata cannot be changed"⟩)
  let entry ← findEntry parent leaf
  if attrs.size.isSome && entry.isDirectory then throw (.failure "Cannot resize a directory")
  else if attrs.size.any (· ≠ entry.len) && entry.readOnly then throw ⟨FX_PERMISSION_DENIED, "File is read-only"⟩
  else if attrs.size.any (entry.len < ·) then
    -- answered only once all zero chunks are committed
    update fun s => { s with resize := some { id, components, attrs, file := resizeFile parent leaf entry.len } }
  else
    shrink entry attrs
    let entry ← findEntry parent leaf
    applyMetadata entry attrs ctx.clock
    update (·.invalidateFile parent leaf)
    ok id

def setstat (id : Nat) (body : List UInt8) (ctx : Ctx) : SftpM F Unit := do
  let ((path, attrs), _) ← parse (do
    let path ← Reader.path
    let attrs ← Reader.attrs
    return (path, attrs)) body
  applySetstat id (resolve [] path) attrs ctx

/-- A size is set through a file handle open for writing. -/
def requireWritable (slot : Slot) (attrs : RequestedAttrs) : SftpM F Unit :=
  if attrs.size.isSome then do
    let file ← fileAt slot
    if !file.writable then throw ⟨FX_PERMISSION_DENIED, "Handle not open for writing"⟩
  else pure ()

def fsetstat (id : Nat) (body : List UInt8) (ctx : Ctx) : SftpM F Unit := do
  let ((token, attrs), _) ← parse (do
    let token ← Reader.string
    let attrs ← Reader.attrs
    return (token, attrs)) body
  let slot ← slotOf token
  requireWritable slot attrs
  let components ← check (← view (·.handleComponents slot))
  applySetstat id components attrs ctx

/-- A path other than the root names an entry. -/
def requireEntry (components : List Str) : SftpM F Unit :=
  match components.getLast? with
  | some leaf => do
    let _ ← findEntry components.dropLast leaf
  | none => pure ()

/-- The free-space reply of both statvfs extensions. -/
def statvfsReply (id : Nat) (components : List Str) : SftpM F Unit := do
  requireEntry components
  match ← viewVolume F.freeClusterCount with
  | none => throw ⟨FX_OP_UNSUPPORTED, "FAT free-space count is unknown"⟩
  | some free =>
    let total ← viewVolume (F.maxCluster · - 1)
    if total < free then throw (.failure "Invalid FAT free-space count")
    let clusterSize ← viewVolume F.clusterSize
    let volumeId ← viewVolume F.volumeId
    reply (packet FXP_EXTENDED_REPLY (putU32 id ++
      [clusterSize, clusterSize, total, free, free, 0, 0, 0, volumeId, 0, 255].flatMap putU64))

def extended (id : Nat) (body : List UInt8) : SftpM F Unit := do
  let (name, body) ← parse Reader.string body
  if name = messageBytes "limits@openssh.com" then
    reply (packet FXP_EXTENDED_REPLY (putU32 id ++
      [65536, MAX_READ_REPLY, 32768, MAX_HANDLES].flatMap putU64))
  else if name = messageBytes "fsync@openssh.com" then
    let (token, _) ← parse Reader.string body
    let slot ← slotOf token
    let _ ← fileAt slot
    callOr F.sync (.failure "SD sync failed")
    ok id
  else if name = messageBytes "statvfs@openssh.com" then
    let (path, _) ← parse Reader.path body
    statvfsReply id (resolve [] path)
  else if name = messageBytes "fstatvfs@openssh.com" then
    let (token, _) ← parse Reader.string body
    let slot ← slotOf token
    let components ← check (← view (·.handleComponents slot))
    statvfsReply id components
  else throw ⟨FX_OP_UNSUPPORTED, "Extension not supported"⟩

/-- The handler of a request type. -/
def handleRequest (kind id : Nat) (body : List UInt8) (ctx : Ctx) : SftpM F Unit :=
  if kind = FXP_REALPATH then realpath id body
  else if kind = FXP_STAT ∨ kind = FXP_LSTAT then statPath id body ctx
  else if kind = FXP_FSTAT then fstat id body ctx
  else if kind = FXP_OPENDIR then opendir id body
  else if kind = FXP_READDIR then readdir id body ctx
  else if kind = FXP_OPEN then openFile id body ctx
  else if kind = FXP_CLOSE then close id body
  else if kind = FXP_READ then readFile id body
  else if kind = FXP_REMOVE then remove id body
  else if kind = FXP_MKDIR then mkdir id body ctx
  else if kind = FXP_RMDIR then rmdir id body
  else if kind = FXP_RENAME then rename id body
  else if kind = FXP_SETSTAT then setstat id body ctx
  else if kind = FXP_FSETSTAT then fsetstat id body ctx
  else if kind = FXP_EXTENDED then extended id body
  else throw ⟨FX_OP_UNSUPPORTED, "Operation not supported"⟩

namespace World

variable (w : World F)

/-- Queue a packet outside a handler. -/
def emit (bytes : List UInt8) : World F := { w with server := { w.server with out := w.server.out ++ bytes } }

def setFatal : World F := { w with server := { w.server with fatal := true } }

/-- Run a handler; a status it ends with is its reply. -/
def answer (id : Nat) (handler : SftpM F Unit) : World F :=
  match handler w with
  | .ok _ w' => w'
  | .error status w' => w'.emit (statusPacket id status)

/-- A complete request of at most `MAX_REQUEST` bytes, WRITE aside. -/
def dispatch (kind : Nat) (body : List UInt8) (mounted : Bool) (ctx : Ctx) : World F :=
  if kind = FXP_INIT then w.emit versionPacket
  else
    match Reader.u32 body with
    | none => w.setFatal
    | some (id, body) =>
      w.answer id (if mounted then handleRequest kind id body ctx
        else throw (.failure "SD card is in use by USB DISK"))

/-- One chunk of a `DATA` reply. A chunk that cannot be delivered breaks the length already promised and ends the session. -/
def continueRead (mounted : Bool) : World F :=
  match w.server.readStream with
  | none => w
  | some stream =>
    let w := { w with server := { w.server with readStream := none } }
    let chunkLen := min stream.remaining IO_CHUNK
    if mounted then
      match onFile stream.slot (.failure "") (readChunk stream.offset chunkLen) w with
      | .ok bytes w' =>
        if bytes = [] then w'.setFatal
        else
          let remaining := stream.remaining - bytes.length
          { w' with
            server := { w'.server with
              out := w'.server.out ++ bytes
              readStream :=
                if 0 < remaining then some { stream with offset := stream.offset + bytes.length, remaining } else none } }
      | .error _ w' => w'.setFatal
    else w.setFatal

end World

/-- Card I/O on the file of a growing SETSTAT, which is in no slot. -/
def onJob (job : ResizeJob F) (op : FileM F Unit) : SftpM F (ResizeJob F) := fun w =>
  match op (job.file, w.volume) with
  | .ok _ r => .ok { job with file := r.1 } { w with volume := r.2 }
  | .error status r => .error status { w with volume := r.2 }

/-- One chunk of a SETSTAT's growth, or its metadata once the size is reached; whether the job is complete. -/
def resizeChunk (job : ResizeJob F) (ctx : Ctx) : SftpM F (ResizeJob F × Bool) := do
  let (leaf, parent) ← check (splitLast job.components .noSuchFile)
  let entry ← findEntry parent leaf
  let target := job.attrs.size.getD 0
  if entry.len < target then
    let count := min (target - entry.len) WRITE_CHUNK
    let job ← onJob job (writeChunk entry.len (List.replicate count 0))
    update (·.invalidateFile parent leaf)
    return (job, false)
  else
    applyMetadata entry job.attrs ctx.clock
    update (·.invalidateFile parent leaf)
    return (job, true)

/-- One chunk of a WRITE payload, or of the zeros in the gap before it: what it leaves, the error it ends with, and whether the
payload was taken up or still waits. -/
def writePayload (stream : WriteStream) (payload : List UInt8) (mounted : Bool) (w : World F) :
    World F × Option Status × Bool :=
  if !mounted then (w, some (.failure "SD card is in use by USB DISK"), true)
  else
    match w.server.handles stream.slot with
    | some (.file file) =>
      match F.findIn file.parent file.leaf w.volume with
      | .ok (some entry) v =>
        let offset := if file.appendMode then entry.len else stream.offset
        let gap : Bool := entry.len < offset
        let start := if gap then entry.len else offset
        let data := if gap then List.replicate (min (offset - entry.len) WRITE_CHUNK) 0 else payload
        match onFile stream.slot (.failure "Invalid handle") (writeChunk start data) { w with volume := v } with
        | .ok _ w => ({ w with server := w.server.invalidateWritten stream.slot }, none, !gap)
        | .error status w => (w, some status, !gap)
      | .ok none v => ({ w with volume := v }, some .noSuchFile, false)
      | .error _ v => ({ w with volume := v }, some .noSuchFile, false)
    | _ => (w, some (.failure "Invalid handle"), true)

namespace World

variable (w : World F)

def continueResize (mounted : Bool) (ctx : Ctx) : World F :=
  match w.server.resize with
  | none => w
  | some job =>
    let w := { w with server := { w.server with resize := none } }
    if mounted then
      match resizeChunk job ctx w with
      | .ok (job, false) w' => { w' with server := { w'.server with resize := some job } }
      | .ok (_, true) w' => w'.emit (statusPacket job.id ⟨FX_OK, "OK"⟩)
      | .error status w' => w'.emit (statusPacket job.id status)
    else w.emit (statusPacket job.id (.failure "SD unavailable"))

end World

end Ratputer
