import Ratputer.Clock
import Ratputer.Lib.Chains
import Ratputer.Lib.Effect

/-!
# Files on a FAT32 volume

The file layer of the vendored `hadris-fat`: the allocation table, the readers and writers with the cursors that resume them, and
what makes, commits or frees a file. The volume is its table, the contents of its clusters, its directory slots and the free-cluster
count; the card under it works. A read masks an entry to 28 bits and a write keeps the four above them. The names in a directory, and
how its slots lie in its clusters, are not of this layer: where an entry is made, its slot has been found.
-/

namespace Ratputer.Fat32

open Chains

def ENTRY_MASK : BitVec 32 := 0x0FFFFFFF#32
def END_OF_CHAIN_MIN : Nat := 0x0FFFFFF8
def BAD_CLUSTER : Nat := 0x0FFFFFF7
def FIRST_DATA_CLUSTER : Nat := 2
def FREE_CLUSTER : Nat := 0
def END_OF_CHAIN : Nat := 0x0FFFFFF8

/-- The free-cluster count that stands for an unknown one. -/
def UNKNOWN_COUNT : Nat := 0xFFFFFFFF

inductive Error
  | clusterOutOfBounds (cluster max : Nat)
  | badCluster (cluster : Nat)
  | unexpectedEndOfChain (cluster : Nat)
  | corruptFilesystem (context : String)
  | clusterLoop (cluster : Nat)
  | notAFile
  | invalidPath
  | noFreeSpace
  | staleEntry
  | writerConflict
  deriving Repr, DecidableEq

/-- What mounting fixes; the root directory starts at `rootClus`. A volume has fewer clusters than there are markers above them. -/
structure Geometry where
  clusterSize : Nat
  maxCluster : Nat
  rootClus : Nat
  clusterSize_pos : 0 < clusterSize
  maxCluster_lt : maxCluster < BAD_CLUSTER

/-- A directory slot: the cluster of the directory it is in, and its offset there. -/
abbrev Slot := Nat × Nat

/-- The entry in a directory slot. -/
structure RawFileEntry where
  name : List UInt8
  directory : Bool
  created : FatDateTime
  modified : FatDateTime
  lastAccessDate : Nat
  firstCluster : Nat
  size : Nat
  deriving DecidableEq

structure FatVolume where
  /-- The table, its entries with their reserved bits. -/
  fat : Nat → BitVec 32
  /-- The octet at an offset of a cluster. -/
  data : Nat → Nat → UInt8
  slots : Slot → Option RawFileEntry
  freeCount : Nat
  nextFree : Nat
  /-- The count and the hint in the FSInfo sector. -/
  fsInfo : Nat × Nat
  /-- The slots that a writer is open on; their order does not matter. -/
  openWriters : List Slot

/-- What a handle is checked against: the slot, and the name and creation time of the entry in it. -/
structure EntryId where
  entrySlot : Slot
  entryShortName : List UInt8
  entryCreated : FatDateTime
  deriving DecidableEq

/-- A handle of an entry, as a lookup returns it. -/
structure FileEntry extends EntryId where
  directory : Bool
  cluster : Nat
  size : Nat
  deriving DecidableEq

/-- The entry's first cluster; below 2 there is none. -/
def FileEntry.firstCluster (entry : FileEntry) : Option Nat := if FIRST_DATA_CLUSTER ≤ entry.cluster then some entry.cluster else none

/-! ## The allocation table -/

def isEndOfChain (value : Nat) : Bool := END_OF_CHAIN_MIN ≤ value

def isBadCluster (value : Nat) : Bool := value = BAD_CLUSTER

namespace FatVolume

/-- An entry of the table, its reserved bits masked. -/
def readClus (v : FatVolume) (cluster : Nat) : Nat := (v.fat cluster &&& ENTRY_MASK).toNat

def writeClus (v : FatVolume) (cluster value : Nat) : FatVolume :=
  { v with fat := Function.update v.fat cluster ((v.fat cluster &&& ~~~ENTRY_MASK) ||| (BitVec.ofNat 32 value &&& ENTRY_MASK)) }

def decrementFreeCount (v : FatVolume) : FatVolume :=
  { v with freeCount := if 0 < v.freeCount ∧ v.freeCount ≠ UNKNOWN_COUNT then v.freeCount - 1 else v.freeCount }

def incrementFreeCount (v : FatVolume) (amount : Nat) : FatVolume :=
  { v with freeCount := if v.freeCount ≠ UNKNOWN_COUNT then min (v.freeCount + amount) 0xFFFFFFFF else v.freeCount }

def writeFsinfo (v : FatVolume) : FatVolume := { v with fsInfo := (v.freeCount, v.nextFree) }

end FatVolume

variable (g : Geometry)

def validateCluster (cluster : Nat) : Except Error Unit :=
  if cluster < FIRST_DATA_CLUSTER then .error (.clusterOutOfBounds cluster g.maxCluster)
  else if g.maxCluster < cluster then .error (.clusterOutOfBounds cluster g.maxCluster)
  else .ok ()

/-- The next cluster of a chain; `none` at its end. -/
def nextCluster (v : FatVolume) (cluster : Nat) : Except Error (Option Nat) :=
  let entry := v.readClus cluster
  if isEndOfChain entry then .ok none
  else if isBadCluster entry then .error (.badCluster cluster)
  else do
    validateCluster g entry
    return some entry

/-- The last cluster of a chain, after so many steps at most. -/
def walkChain (v : FatVolume) : Nat → Nat → Except Error Nat
  | 0, current => .error (.clusterLoop current)
  | steps + 1, current => do
    match ← nextCluster g v current with
    | some next => walkChain v steps next
    | none => return current

/-- So many hops along a chain. -/
def hops (v : FatVolume) : Nat → Nat → Except Error Nat
  | 0, current => .ok current
  | n + 1, current => do
    match ← nextCluster g v current with
    | some next => hops v n next
    | none => .error (.unexpectedEndOfChain current)

def updateNextFreeHint (v : FatVolume) (cluster : Nat) : FatVolume :=
  { v with nextFree := if g.maxCluster ≤ cluster then 2 else max (cluster + 1) 2 }

/-- Where the search for a free cluster starts. -/
def searchStart (hint : Nat) : Nat := if FIRST_DATA_CLUSTER ≤ hint ∧ hint ≤ g.maxCluster then hint else FIRST_DATA_CLUSTER

/-- The clusters in the order of the search: from the start to the last, then from the first to the start. -/
def searchOrder (hint : Nat) : List Nat :=
  List.range' (searchStart g hint) (g.maxCluster + 1 - searchStart g hint) ++
    List.range' FIRST_DATA_CLUSTER (searchStart g hint - FIRST_DATA_CLUSTER)

/-- The first free cluster of the search becomes a chain of its own. -/
def allocateCluster (hint : Nat) (v : FatVolume) : Except Error (Nat × FatVolume) :=
  match (searchOrder g hint).find? fun cluster => v.readClus cluster = FREE_CLUSTER with
  | some cluster => .ok (cluster, v.writeClus cluster END_OF_CHAIN)
  | none => .error .noFreeSpace

/-- Free a chain, so many clusters at most: the number freed. -/
def freeChainLoop : Nat → Nat → FatVolume → Nat × FatVolume
  | 0, _, v => (0, v)
  | fuel + 1, current, v =>
    if current < FIRST_DATA_CLUSTER ∨ g.maxCluster < current then (0, v)
    else
      let next := v.readClus current
      let v := v.writeClus current FREE_CLUSTER
      if isEndOfChain next ∨ isBadCluster next ∨ next = FREE_CLUSTER then (1, v)
      else
        let (count, v) := freeChainLoop fuel next v
        (count + 1, v)

/-- Free a chain. A cluster that is met again is free, which ends the loop, so it frees no more than there are. -/
def freeChain (start : Nat) (v : FatVolume) : Nat × FatVolume := freeChainLoop g g.maxCluster start v

/-- End a chain at a cluster, and free what came after it. -/
def truncateChain (cluster : Nat) (v : FatVolume) : Nat × FatVolume :=
  if cluster < FIRST_DATA_CLUSTER ∨ g.maxCluster < cluster then (0, v)
  else
    let next := v.readClus cluster
    let v := v.writeClus cluster END_OF_CHAIN
    if !isEndOfChain next ∧ FIRST_DATA_CLUSTER ≤ next ∧ next ≤ g.maxCluster then freeChain g next v else (0, v)

/-- Free a chain, or what comes after a cluster, and count it. -/
def release (freed : Nat × FatVolume) : FatVolume := freed.2.incrementFreeCount freed.1

/-- Free and count the chain that starts at a cluster, if one does. -/
def releaseChain (first : Option Nat) (v : FatVolume) : FatVolume :=
  match first with
  | some first => release (freeChain g first v)
  | none => v

/-! ## Handles -/

namespace FatVolume

/-- A lookup of the entry in a slot. -/
def lookup (v : FatVolume) (slot : Slot) : Option FileEntry :=
  (v.slots slot).map fun raw =>
    { entrySlot := slot
      entryShortName := raw.name
      entryCreated := raw.created
      directory := raw.directory
      cluster := raw.firstCluster
      size := raw.size }

/-- The slot still holds an entry of that name and creation time. -/
def revalidateSlot (v : FatVolume) (id : EntryId) : Except Error RawFileEntry :=
  match v.slots id.entrySlot with
  | none => .error .staleEntry
  | some raw => if raw.name = id.entryShortName ∧ raw.created = id.entryCreated then .ok raw else .error .staleEntry

def registerWriter (v : FatVolume) (slot : Slot) : Except Error FatVolume :=
  if v.openWriters.contains slot then .error .writerConflict else .ok { v with openWriters := v.openWriters ++ [slot] }

def unregisterWriter (v : FatVolume) (slot : Slot) : FatVolume := { v with openWriters := v.openWriters.erase slot }

/-- Put a new size, first cluster and time into a slot. -/
def updateEntry (v : FatVolume) (slot : Slot) (raw : RawFileEntry) (size firstCluster : Nat) (now : FatDateTime) : FatVolume :=
  { v with slots := Function.update v.slots slot (some { raw with
      size := size % 2 ^ 32, firstCluster, modified := now, lastAccessDate := now.date }) }

/-- Put octets at an offset of a cluster. -/
def writeData (v : FatVolume) (cluster offset : Nat) (bytes : List UInt8) : FatVolume :=
  { v with data := Function.update v.data cluster fun o =>
      if offset ≤ o then (bytes[o - offset]?).getD (v.data cluster o) else v.data cluster o }

/-- Octets from an offset of a cluster. -/
def readData (v : FatVolume) (cluster offset count : Nat) : List UInt8 := (List.range count).map fun i => v.data cluster (offset + i)

end FatVolume

/-! ## Writers -/

structure AppendCursor extends EntryId where
  firstCluster : Option Nat
  currentCluster : Option Nat
  offsetInCluster : Nat
  totalWritten : Nat
  deriving DecidableEq

structure FileWriter extends EntryId where
  firstCluster : Option Nat
  currentCluster : Option Nat
  offsetInCluster : Nat := 0
  totalWritten : Nat := 0
  /-- What a write in the middle must not cut off. -/
  preserveLen : Nat := 0
  /-- The first cluster that this writer allocated, and where it stood then. -/
  firstAllocatedCluster : Option Nat := none
  allocationPredecessor : Option Nat := none
  allocationStartOffset : Nat := 0
  allocationStartTotalWritten : Nat := 0
  deriving DecidableEq

/-- A writer beside its volume. -/
abbrev WriteM (α : Type) := EStateM Error (FileWriter × FatVolume) α

namespace FileWriter

/-- A writer that replaces the content. -/
def new (entry : FileEntry) (v : FatVolume) : Except Error (FileWriter × FatVolume) :=
  if entry.directory then .error .notAFile
  else do
    let v ← v.registerWriter entry.entrySlot
    return ({ toEntryId := entry.toEntryId, firstCluster := entry.firstCluster, currentCluster := entry.firstCluster }, v)

/-- A writer at the end, found by walking the chain. -/
def newAppend (entry : FileEntry) (v : FatVolume) : Except Error (FileWriter × FatVolume) :=
  if entry.directory then .error .notAFile
  else
    match entry.firstCluster with
    | none => new entry v
    | some first =>
      if entry.size = 0 then new entry v
      else do
        let last ← walkChain g v g.maxCluster first
        let v ← v.registerWriter entry.entrySlot
        return ({
          toEntryId := entry.toEntryId
          firstCluster := some first
          currentCluster := some last
          -- a full last cluster is stood past, so that the first write takes a new one
          offsetInCluster := if entry.size % g.clusterSize = 0 then g.clusterSize else entry.size % g.clusterSize
          totalWritten := entry.size }, v)

/-- A writer at the end that a cursor remembers. -/
def newAppendFromCursor (entry : FileEntry) (cursor : AppendCursor) (v : FatVolume) : Except Error (FileWriter × FatVolume) :=
  if entry.directory then .error .notAFile
  else if entry.toEntryId ≠ cursor.toEntryId ∨ entry.firstCluster ≠ cursor.firstCluster ∨ entry.size ≠ cursor.totalWritten ∨
      g.clusterSize < cursor.offsetInCluster ∨ (0 < cursor.totalWritten ∧ cursor.currentCluster.isNone) then .error .staleEntry
  else do
    match cursor.currentCluster with
    | some current => if (← nextCluster g v current).isSome then throw .staleEntry
    | none => pure ()
    let v ← v.registerWriter entry.entrySlot
    return ({
      toEntryId := cursor.toEntryId
      firstCluster := cursor.firstCluster
      currentCluster := cursor.currentCluster
      offsetInCluster := cursor.offsetInCluster
      totalWritten := cursor.totalWritten }, v)

/-- The cluster that an offset is past an octet of; none in a file without clusters. -/
def clusterBefore (entry : FileEntry) (offset : Nat) (v : FatVolume) : Except Error (Option Nat) :=
  let steps := (offset - 1) / g.clusterSize
  if g.maxCluster < steps then .error (.clusterLoop entry.cluster)
  else
    match entry.firstCluster with
    | some first => some <$> hops g v steps first
    | none => if steps = 0 then .ok none else .error (.corruptFilesystem "file size exceeds cluster chain")

/-- A writer at an offset, which keeps what is after it. -/
def newAt (entry : FileEntry) (offset : Nat) (v : FatVolume) : Except Error (FileWriter × FatVolume) := do
  let _ ← v.revalidateSlot entry.toEntryId
  if entry.size < offset ∨ 0xFFFFFFFF < entry.size then .error .invalidPath
  else
    let current ← clusterBefore g entry offset v
    if 0 < entry.size ∧ current.isNone then .error (.corruptFilesystem "nonempty file has no cluster")
    else
      let (writer, v) ← new entry v
      return ({ writer with
        currentCluster := current
        offsetInCluster := if offset = 0 then 0 else (offset - 1) % g.clusterSize + 1
        totalWritten := offset
        preserveLen := entry.size }, v)

variable (w : FileWriter)

/-- Stand at the start of a cluster, the first of the file if it had none. -/
def enter (cluster : Nat) : FileWriter :=
  { w with firstCluster := some (w.firstCluster.getD cluster), currentCluster := some cluster, offsetInCluster := 0 }

/-- Remember the first cluster allocated, and where the writer stood. -/
def noteAllocation (cluster : Nat) : FileWriter :=
  if w.firstAllocatedCluster.isNone then
    { w with
      firstAllocatedCluster := some cluster
      allocationPredecessor := w.currentCluster
      allocationStartOffset := w.offsetInCluster
      allocationStartTotalWritten := w.totalWritten }
  else w

/-- End the chain again where it was extended. -/
def unlink (v : FatVolume) : FatVolume :=
  match w.allocationPredecessor with
  | some previous => v.writeClus previous 0xFFFFFFFF
  | none => v

/-- Give back what this writer allocated. -/
def rollbackAllocatedClusters (v : FatVolume) : FileWriter × FatVolume :=
  match w.firstAllocatedCluster with
  | none => (w, v)
  | some first =>
    let v := release (freeChain g first (w.unlink v))
    let v := (updateNextFreeHint g v (first - 1)).writeFsinfo
    ({ w with
      firstCluster := if w.allocationPredecessor.isNone then none else w.firstCluster
      firstAllocatedCluster := none
      allocationPredecessor := none
      currentCluster := w.allocationPredecessor
      offsetInCluster := w.allocationStartOffset
      totalWritten := w.allocationStartTotalWritten }, v)

/-- The next cluster of the file's own chain. -/
def existingNext (v : FatVolume) : Except Error (Option Nat) :=
  match w.currentCluster with
  | some current => nextCluster g v current
  | none => .ok none

/-- Link the current cluster to a new one. -/
def link (v : FatVolume) (newCluster : Nat) : FatVolume :=
  match w.currentCluster with
  | some previous => v.writeClus previous newCluster
  | none => v

/-- Go to the next cluster: the chain's own, or a new one at its end. -/
def advance : WriteM Unit := fun (w, v) =>
  match w.existingNext g v with
  | .error error => .error error (w, v)
  | .ok (some next) => .ok () (w.enter next, v)
  | .ok none =>
    match allocateCluster g ((w.currentCluster.map (· + 1)).getD 2) v with
    | .error error => .error error (w.rollbackAllocatedClusters g v)
    | .ok (newCluster, v) =>
      let v := w.link (updateNextFreeHint g v.decrementFreeCount newCluster) newCluster
      .ok () ((w.noteAllocation newCluster).enter newCluster, v)

/-- Write into the current cluster what it has room for: how much. -/
def put (buf : List UInt8) : WriteM Nat := fun (w, v) =>
  let toWrite := min buf.length (g.clusterSize - w.offsetInCluster)
  -- there is a current cluster, or `unwrap` would panic
  let v := v.writeData (w.currentCluster.getD 0) w.offsetInCluster (buf.take toWrite)
  .ok toWrite ({ w with
    offsetInCluster := w.offsetInCluster + toWrite
    totalWritten := w.totalWritten + toWrite }, v)

/-- A cluster with room to write in. -/
def makeRoom : WriteM Unit := fun (w, v) =>
  if w.currentCluster.isNone ∨ g.clusterSize ≤ w.offsetInCluster then advance g (w, v) else .ok () (w, v)

/-- The loop of `write`; each round writes something. -/
def writeLoop : Nat → List UInt8 → WriteM Unit
  | _, [] => pure ()
  | 0, _ :: _ => pure ()
  | fuel + 1, octet :: rest => do
    makeRoom g
    let written ← put g (octet :: rest)
    writeLoop fuel ((octet :: rest).drop written)

def write (buf : List UInt8) : WriteM Nat := do
  writeLoop g buf.length buf
  return buf.length

def appendCursor : AppendCursor :=
  { toEntryId := w.toEntryId
    firstCluster := w.firstCluster
    currentCluster := w.currentCluster
    offsetInCluster := w.offsetInCluster
    totalWritten := w.totalWritten }

/-- Free what the content no longer needs: the first cluster that is left. -/
def trim (v : FatVolume) : Option Nat × FatVolume :=
  if w.totalWritten = 0 ∧ w.preserveLen = 0 then (none, releaseChain g w.firstCluster v)
  else if w.preserveLen ≤ w.totalWritten then
    match w.currentCluster with
    | some last => (w.firstCluster, release (truncateChain g last v))
    | none => (w.firstCluster, v)
  else (w.firstCluster, v)

/-- Commit the size and the first cluster; the writer is gone, also when that fails. -/
def finish (now : FatDateTime) : EStateM Error FatVolume Unit := fun v =>
  match v.revalidateSlot w.toEntryId with
  | .error error => .error error (v.unregisterWriter w.entrySlot)
  | .ok raw =>
    let (firstCluster, v) := w.trim g v
    let v := v.updateEntry w.entrySlot raw (max w.totalWritten w.preserveLen) (firstCluster.getD 0) now
    .ok () (v.writeFsinfo.unregisterWriter w.entrySlot)

end FileWriter

/-! ## Making and freeing -/

/-- The entry of a new file, in the slot found for it. -/
def createFile (slot : Slot) (name : List UInt8) (now : FatDateTime) (v : FatVolume) : FatVolume :=
  { v with slots := Function.update v.slots slot (some {
      name, directory := false, created := now, modified := now, lastAccessDate := now.date,
      firstCluster := 0, size := 0 }) }.writeFsinfo

/-- Zero the cluster of a new directory, but for the records of itself and of its parent. -/
def initDirectoryCluster (v : FatVolume) (cluster : Nat) (dots : List UInt8) : FatVolume :=
  { v with data := Function.update v.data cluster fun o => (dots[o]?).getD 0 }

/-- The cluster and the entry of a new directory, in the slot found for it. -/
def createDir (slot : Slot) (name dots : List UInt8) (now : FatDateTime) : EStateM Error FatVolume Unit := fun v =>
  match allocateCluster g 2 v with
  | .error error => .error error v
  | .ok (newCluster, v) =>
    let v := updateNextFreeHint g (initDirectoryCluster v newCluster dots).decrementFreeCount newCluster
    .ok () { v with slots := Function.update v.slots slot (some {
      name, directory := true, created := now, modified := now, lastAccessDate := now.date,
      firstCluster := newCluster, size := 0 }) }.writeFsinfo

/-- Set the times that are given; the time of creation stays. -/
def setTimes (entry : FileEntry) (modified : Option FatDateTime) (accessedDate : Option Nat) : EStateM Error FatVolume Unit := fun v =>
  if modified.isNone ∧ accessedDate.isNone then .ok () v
  else
    match v.revalidateSlot entry.toEntryId with
    | .error error => .error error v
    | .ok raw => .ok () { v with slots := Function.update v.slots entry.entrySlot (some { raw with
        modified := modified.getD raw.modified, lastAccessDate := accessedDate.getD raw.lastAccessDate }) }

/-- The number of clusters that hold so many octets. -/
def clustersFor (size : Nat) : Nat := (size + g.clusterSize - 1) / g.clusterSize

/-- Cut a file down. -/
def truncate (entry : FileEntry) (newSize : Nat) (now : FatDateTime) : EStateM Error FatVolume Unit := fun v =>
  if entry.directory then .error .notAFile v
  else
    match v.revalidateSlot entry.toEntryId with
    | .error error => .error error v
    | .ok raw =>
      if entry.size ≤ newSize then .ok () v
      else if newSize = 0 then
        .ok () ((releaseChain g entry.firstCluster v).updateEntry entry.entrySlot raw 0 0 now).writeFsinfo
      else
        let clustersNeeded := clustersFor g newSize
        match hopsOrEnd v (min (clustersNeeded - 1) g.maxCluster) entry.cluster with
        | .error error => .error error v
        | .ok current =>
          let v := release (truncateChain g current v)
          .ok () (v.updateEntry entry.entrySlot raw newSize (entry.firstCluster.getD 0) now).writeFsinfo
where
  /-- So many hops along a chain, or to its end. -/
  hopsOrEnd (v : FatVolume) : Nat → Nat → Except Error Nat
    | 0, current => .ok current
    | n + 1, current => do
      match ← nextCluster g v current with
      | some next => hopsOrEnd v n next
      | none => return current

/-- Delete a file: its slot first, then its chain. -/
def delete (entry : FileEntry) : EStateM Error FatVolume Unit := fun v =>
  match v.revalidateSlot entry.toEntryId with
  | .error error => .error error v
  | .ok _ =>
    .ok () (releaseChain g entry.firstCluster { v with slots := Function.update v.slots entry.entrySlot none }).writeFsinfo

/-! ## Readers -/

/-- A reader; its cursor is a copy of all it holds. -/
structure FileReader extends EntryId where
  firstCluster : Nat
  cluster : Nat
  offsetInCluster : Nat := 0
  position : Nat := 0
  size : Nat
  clusterSteps : Nat := 0
  deriving DecidableEq

abbrev ReadCursor := FileReader

namespace FileReader

def new (entry : FileEntry) : Except Error FileReader :=
  if entry.directory then .error .notAFile
  else .ok { toEntryId := entry.toEntryId, firstCluster := entry.cluster, cluster := entry.cluster, size := entry.size }

def newFromCursor (entry : FileEntry) (cursor : ReadCursor) : Except Error FileReader :=
  if entry.directory then .error .notAFile
  else if entry.cluster = cursor.firstCluster ∧ entry.size = cursor.size ∧ cursor.position ≤ cursor.size ∧
      cursor.offsetInCluster ≤ g.clusterSize ∧ (cursor.size = 0 ∨ FIRST_DATA_CLUSTER ≤ cursor.cluster) ∧
      entry.toEntryId = cursor.toEntryId then .ok cursor
  else .error .staleEntry

variable (r : FileReader)

def cursor : ReadCursor := r

/-- Count a step, and take it if the chain goes on: whether it does. -/
def follow (v : FatVolume) : Except Error (FileReader × Bool) :=
  let r := { r with clusterSteps := r.clusterSteps + 1 }
  if g.maxCluster < r.clusterSteps then .error (.clusterLoop r.cluster)
  else do
    match ← nextCluster g v r.cluster with
    | some next => return ({ r with cluster := next, offsetInCluster := 0 }, true)
    | none => return (r, false)

/-- At the end of a cluster, go on to the next: whether there is one. -/
def nextIfFull (v : FatVolume) : Except Error (FileReader × Bool) :=
  if g.clusterSize ≤ r.offsetInCluster then r.follow g v else .ok (r, true)

/-- At most what is left of the current cluster, and of the file. -/
def readOneChunk (v : FatVolume) (count : Nat) : Except Error (List UInt8 × FileReader) :=
  if r.size ≤ r.position then .ok ([], r)
  else if r.cluster < FIRST_DATA_CLUSTER then .ok ([], r)
  else
    match r.nextIfFull g v with
    | .error error => .error error
    | .ok (r, false) => .ok ([], r)
    | .ok (r, true) =>
      let readMax := min (min count (g.clusterSize - r.offsetInCluster)) (r.size - r.position)
      .ok (v.readData r.cluster r.offsetInCluster readMax, { r with
        offsetInCluster := r.offsetInCluster + readMax
        position := r.position + readMax })

/-- The loop of `read`; a round that reads nothing ends it. -/
def readLoop (v : FatVolume) : Nat → FileReader → Nat → Except Error (List UInt8 × FileReader)
  | 0, r, _ => .ok ([], r)
  | fuel + 1, r, count =>
    if count = 0 then .ok ([], r)
    else do
      let (bytes, r) ← r.readOneChunk g v count
      if bytes = [] then .ok ([], r)
      else
        let (rest, r) ← readLoop v fuel r (count - bytes.length)
        return (bytes ++ rest, r)

/-- Up to `count` octets; the slot is checked before any is served. -/
def read (v : FatVolume) (count : Nat) : Except Error (List UInt8 × FileReader) :=
  let max := min count (r.size - r.position)
  if max = 0 then .ok ([], r)
  else do
    let _ ← v.revalidateSlot r.toEntryId
    readLoop g v max r max

/-- `seek` from the start. -/
def seek (v : FatVolume) (target : Nat) : Except Error FileReader :=
  if r.size ≤ target ∨ r.firstCluster < FIRST_DATA_CLUSTER then .ok { r with position := target }
  else
    let targetCluster := target / g.clusterSize
    let currentCluster := (r.position - r.offsetInCluster) / g.clusterSize
    let (cluster, hops, clusterSteps) :=
      if r.size ≤ r.position then (r.firstCluster, targetCluster, 0)
      else if currentCluster ≤ targetCluster then (r.cluster, targetCluster - currentCluster, r.clusterSteps)
      else (r.firstCluster, targetCluster, 0)
    do
      let (cluster, clusterSteps) ← seekHops v hops cluster clusterSteps
      return { r with cluster, clusterSteps, offsetInCluster := target % g.clusterSize, position := target }
where
  seekHops (v : FatVolume) : Nat → Nat → Nat → Except Error (Nat × Nat)
    | 0, cluster, steps => .ok (cluster, steps)
    | n + 1, cluster, steps =>
      if g.maxCluster < steps + 1 then .error (.clusterLoop cluster)
      else do
        match ← nextCluster g v cluster with
        | some next => seekHops v n next (steps + 1)
        | none => .error (.unexpectedEndOfChain cluster)

end FileReader

end Ratputer.Fat32
