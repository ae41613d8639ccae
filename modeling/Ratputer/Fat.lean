import Ratputer.FsPath

/-!
# The FAT driver

The calls of the FAT library that the SFTP server makes on the mounted volume. The driver is a parameter: a `Fat V` is any
implementation of the calls over volume states `V`, where every call may fail and may change the volume. What a group of results
assumes of it is stated with that group. Only what the types of the source already promise is part of the structure: names
are at most 255 UTF-16 units, sizes are 32-bit, and a read returns at most what was asked for.
-/

namespace Ratputer

/-- The errors the server tells apart. -/
inductive FatError
  | alreadyExists | directoryNotEmpty | staleEntry | other
  deriving Repr, DecidableEq

/-- A directory entry. Its `identity` is what cursors are checked against: slot, short name, creation time, first cluster. -/
structure FileEntry (Identity : Type) where
  identity : Identity
  name : Str
  name_le : (asBytes name).length ≤ 765
  isDirectory : Bool
  attributes : Nat
  len : Nat
  len_lt : len < 2 ^ 32
  modified : FatDateTime
  accessedDate : Nat
  deriving DecidableEq

namespace FileEntry

variable {Identity : Type}

/-- The READ_ONLY attribute, bit 0. -/
def readOnly (entry : FileEntry Identity) : Bool := entry.attributes.testBit 0

/-- The attributes with the READ_ONLY bit set or cleared. -/
def withReadOnly (entry : FileEntry Identity) (flag : Bool) : Nat :=
  if flag then entry.attributes ||| 0x01 else entry.attributes &&& 0xfe

end FileEntry

/-- A call on the volume: it returns a value or an error, and leaves the volume in some state. -/
abbrev FatM (V α : Type) := EStateM FatError V α

structure Fat (V : Type) where
  Dir : Type
  Identity : Type
  Reader : Type
  Writer : Type
  ReadCursor : Type
  AppendCursor : Type
  rootDir : V → Dir
  openDir : Dir → Str → FatM V Dir
  find : Dir → Str → FatM V (Option (FileEntry Identity))
  /-- The records that the directory's iterator yields, in order. -/
  entries : Dir → FatM V (List (Except FatError (FileEntry Identity)))
  createFile : Dir → Str → FatM V Unit
  createDir : Dir → Str → FatM V Unit
  delete : FileEntry Identity → FatM V Unit
  rename : FileEntry Identity → Dir → Str → FatM V Unit
  truncate : FileEntry Identity → Nat → FatM V Unit
  /-- Set the modification time and the access date. -/
  setTimes : FileEntry Identity → FatDateTime → Nat → FatM V Unit
  setAttributes : FileEntry Identity → Nat → FatM V Unit
  sync : FatM V Unit
  freeClusterCount : V → Option Nat
  maxCluster : V → Nat
  clusterSize : V → Nat
  volumeId : V → Nat
  readerNew : FileEntry Identity → FatM V Reader
  readerFromCursor : FileEntry Identity → ReadCursor → FatM V Reader
  readerSeek : Reader → Nat → FatM V Reader
  readerRead : Reader → Nat → FatM V (List UInt8 × Reader)
  readerCursor : Reader → ReadCursor
  readerRead_le : ∀ r n v bytes r' v', readerRead r n v = .ok (bytes, r') v' → bytes.length ≤ n
  writerNewAppend : FileEntry Identity → FatM V Writer
  writerFromCursor : FileEntry Identity → AppendCursor → FatM V Writer
  writerNewAt : FileEntry Identity → Nat → FatM V Writer
  writerWrite : Writer → List UInt8 → FatM V (Nat × Writer)
  writerAppendCursor : Writer → AppendCursor
  writerFinish : Writer → FatM V Unit
  /-- Give up a writer whose last write came back short. -/
  writerDrop : Writer → V → V

namespace Fat

variable {V : Type} (F : Fat V)

/-- The directory entries of a driver. -/
abbrev Entry := FileEntry F.Identity

/-- Open the directory at absolute components, from an open one. -/
def openDirFrom (dir : F.Dir) : List Str → FatM V F.Dir
  | [] => pure dir
  | component :: rest => do
    let current ← F.openDir dir component
    openDirFrom current rest

/-- Open the directory at absolute components. -/
def openDirPath (components : List Str) : FatM V F.Dir := do
  F.openDirFrom (F.rootDir (← get)) components

/-- Find an entry by name in a directory addressed by components; `none` also when the search fails. -/
def findIn (parent : List Str) (leaf : Str) : FatM V (Option F.Entry) := do
  let dir ← F.openDirPath parent
  F.find dir leaf

end Fat

/-- The `ls -l` style line of `READDIR`'s long names; `now` is the current time as `nowYmdhms` gives it. -/
def longListingLine {Identity : Type} (entry : FileEntry Identity) (now : Str) : Str :=
  let (year, month, day) := unpackDate entry.modified.date
  let (hour, minute, _) := unpackTime entry.modified.time
  let permissions :=
    if entry.isDirectory then (if entry.readOnly then "dr-xr-xr-x" else "drwxr-xr-x")
    else if entry.readOnly then "-r--r--r--" else "-rw-r--r--"
  let monthName := (MONTHS[min (month - 1) 11]?).getD ""
  let sameYear := now.take 4 = padLeft 4 '0' year
  let moment := if sameYear then padLeft 2 '0' hour ++ [':'] ++ padLeft 2 '0' minute else padLeft 5 ' ' year
  permissions.toList ++ " 1 rat rat ".toList ++ padLeft 13 ' ' entry.len ++ [' '] ++ monthName.toList ++ [' '] ++
    padLeft 2 ' ' day ++ [' '] ++ moment ++ [' '] ++ entry.name

end Ratputer
