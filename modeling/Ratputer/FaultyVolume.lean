import Ratputer.Storage

/-!
# Rewriting a file while card writes fail

A volume that holds the configuration file, under `hadris-fat`'s `FileReader` and `FileWriter`. Every card write of the writer is
counted, and a plan says which of them fail. A failing sector write reaches the card whole or not at all; a failing payload write
may have stored any of its octets. A run that stops is a plan in which every later write fails and stores nothing.

The allocation table is seen from the file: `chain` are the octets of the clusters it links from the file's first one (or, while
the entry names none, from the first one of the writer), and a cluster is named by its place in the chain.
-/

namespace Ratputer.Faulty

structure Volume where
  clusterSize : Nat
  chain : List UInt8
  /-- The directory entry names the chain's first cluster. -/
  entryCluster : Bool := true
  /-- The last cluster of the chain carries the end mark; following another one is an error. -/
  endMarked : Bool := true
  /-- The size in the file's directory entry. -/
  size : Nat
  /-- How many clusters are free, and what the one claimed at a card write holds. -/
  free : Nat := 0
  stale : Nat → Nat → UInt8 := fun _ _ => 0
  /-- The card writes that fail, by number, with the octets that they store all the same. -/
  plan : Nat → Option (Nat → Bool) := fun _ => none
  writes : Nat := 0

/-- What the file holds. -/
def Volume.stored (v : Volume) : List UInt8 := if v.entryCluster then v.chain.take v.size else []

/-- A card write: all of it, or the part that a failing one stores. -/
def cardWrite (whole : Volume → Volume) (part : (Nat → Bool) → Volume → Volume) : FatM Volume Unit := fun v =>
  match v.plan v.writes with
  | none => .ok () (whole { v with writes := v.writes + 1 })
  | some reached => .error .other (part reached { v with writes := v.writes + 1 })

/-- A card write of one sector. -/
def sectorWrite (effect : Volume → Volume) : FatM Volume Unit :=
  cardWrite effect fun reached v => if reached 0 then effect v else v

/-- The octets with `data` over them from a place on. -/
def overwrite (octets : List UInt8) (place : Nat) (data : List UInt8) : List UInt8 :=
  octets.take place ++ data ++ octets.drop (place + data.length)

/-- The data that a failing write leaves: its own octets where they have reached the card, the old ones elsewhere. -/
def reachedData (reached : Nat → Bool) (octets : List UInt8) (place : Nat) (data : List UInt8) : List UInt8 :=
  data.mapIdx fun i octet => if reached i then octet else octets.getD (place + i) 0

/-- The payload write of `FileWriter::write`. -/
def payloadWrite (place : Nat) (data : List UInt8) : FatM Volume Unit :=
  cardWrite (fun v => { v with chain := overwrite v.chain place data }) fun reached v =>
    { v with chain := overwrite v.chain place (reachedData reached v.chain place data) }

/-- The directory entry as `find` returns it. -/
structure Entry where
  /-- The entry names a first cluster. -/
  cluster : Bool
  len : Nat

structure Writer where
  firstCluster : Bool
  currentCluster : Option Nat
  offsetInCluster : Nat := 0
  totalWritten : Nat := 0
  preserveLen : Nat := 0
  firstAllocatedCluster : Option Nat := none
  allocationPredecessor : Option Nat := none
  allocationStartOffset : Nat := 0
  allocationStartTotalWritten : Nat := 0

namespace Writer

/-- `FileWriter::new`: at the file's first octet, keeping nothing. -/
def new (entry : Entry) : Writer :=
  { firstCluster := entry.cluster
    currentCluster := if entry.cluster then some 0 else none }

end Writer

/-- The cluster that the table links to a cluster. -/
def Volume.nextCluster (v : Volume) (cluster : Nat) : Option Nat :=
  if (cluster + 1) * v.clusterSize < v.chain.length then some (cluster + 1) else none

/-- The chain ended after a cluster. -/
def Volume.endedAt (v : Volume) (cluster : Nat) : Volume :=
  { v with chain := v.chain.take ((cluster + 1) * v.clusterSize) }

/-- Claim a free cluster; the table does not link it yet. -/
def allocateCluster : FatM Volume Unit := do
  if (← get).free = 0 then throw .other
  else sectorWrite fun v => { v with free := v.free - 1 }

/-- What the cluster claimed last holds. -/
def Volume.claimed (v : Volume) : List UInt8 := (List.range v.clusterSize).map (v.stale v.writes)

/-- The chain with a claimed cluster linked to its end. -/
def Volume.linked (v : Volume) : Volume := { v with chain := v.chain ++ v.claimed }

/-- Free so many clusters that the file's chain no longer reaches. -/
def freeClusters : Nat → FatM Volume Unit
  | 0 => pure ()
  | count + 1 => do
    sectorWrite fun v => { v with free := v.free + 1 }
    freeClusters count

/-- `freeChain` on the file's whole chain: a reader still finds the first cluster, but no end mark after it. -/
def freeChain : FatM Volume Unit := do
  let v ← get
  let count := v.chain.length / v.clusterSize
  if count = 0 then pure ()
  else
    sectorWrite fun v => { v with chain := v.chain.take v.clusterSize, endMarked := false, free := v.free + 1 }
    freeClusters (count - 1)

/-- `truncateChain`: end the chain after a cluster, then free the rest of it. -/
def truncateChain (cluster : Nat) : FatM Volume Unit := do
  let v ← get
  let rest := v.chain.length / v.clusterSize - (cluster + 1)
  sectorWrite (·.endedAt cluster)
  freeClusters rest

/-- `writeFsinfo`, of which the file shows nothing. -/
def writeFsinfo : FatM Volume Unit := sectorWrite id

/-- `rollbackAllocatedClusters`: give back the clusters that the writer has added. -/
def rollbackAllocatedClusters (w : Writer) : FatM Volume Unit :=
  match w.firstAllocatedCluster with
  | none => pure ()
  | some first => do
    let v ← get
    let count := v.chain.length / v.clusterSize - first
    match w.allocationPredecessor with
    | some previous => sectorWrite (·.endedAt previous)
    | none => modify fun v => { v with chain := [] }
    freeClusters count
    writeFsinfo

/-- `try … { Ok(x) => x, Err(error) => { cleanup?; return Err(error) } }`. -/
def orElse {α : Type} (call : FatM Volume α) (cleanup : FatM Volume Unit) : FatM Volume α := fun v =>
  match call v with
  | .ok a v => .ok a v
  | .error error v => (do cleanup; throw error : FatM Volume α) v

/-- The writer on a cluster that it has added, with the place to go back to if this is its first. -/
def Writer.extended (w : Writer) (added : Nat) : Writer :=
  let w :=
    if w.firstAllocatedCluster.isNone then
      { w with
        firstAllocatedCluster := some added
        allocationPredecessor := w.currentCluster
        allocationStartOffset := w.offsetInCluster
        allocationStartTotalWritten := w.totalWritten }
    else w
  { w with firstCluster := true, currentCluster := some added, offsetInCluster := 0 }

/-- Add a cluster to the chain and move to it. -/
def extendChain (w : Writer) : FatM Volume Writer := do
  orElse allocateCluster (rollbackAllocatedClusters w)
  match w.currentCluster with
  | some previous =>
    orElse (sectorWrite Volume.linked) do
      sectorWrite (·.endedAt previous)
      freeClusters 1
      if w.firstAllocatedCluster.isSome then rollbackAllocatedClusters w else writeFsinfo
  | none => modify fun v => { v with chain := v.claimed, endMarked := true }
  pure (w.extended (w.currentCluster.elim 0 (· + 1)))

/-- Make room at the writer's place: the chain's next cluster, or a new one. -/
def makeRoom (w : Writer) : FatM Volume Writer := do
  let v ← get
  if w.currentCluster.isNone ∨ v.clusterSize ≤ w.offsetInCluster then
    match w.currentCluster.bind v.nextCluster with
    | some next => pure { w with firstCluster := true, currentCluster := some next, offsetInCluster := 0 }
    | none => extendChain w
  else pure w

/-- The loop of `FileWriter::write`, one cluster at a time; every round takes an octet at least, so the length of the buffer
is rounds enough. -/
def writeLoop : Nat → Writer → List UInt8 → FatM Volume Writer
  | 0, w, _ => pure w
  | fuel + 1, w, buf => do
    if buf = [] then pure w
    else
      let w ← makeRoom w
      let v ← get
      let toWrite := min buf.length (v.clusterSize - w.offsetInCluster)
      payloadWrite (w.currentCluster.getD 0 * v.clusterSize + w.offsetInCluster) (buf.take toWrite)
      writeLoop fuel
        { w with
          offsetInCluster := w.offsetInCluster + toWrite
          totalWritten := w.totalWritten + toWrite }
        (buf.drop toWrite)

def write (w : Writer) (buf : List UInt8) : FatM Volume (Nat × Writer) := do
  let w ← writeLoop buf.length w buf
  pure (buf.length, w)

/-- The directory entry with the writer's size and first cluster. -/
def Volume.committed (v : Volume) (w : Writer) : Volume :=
  { v with
    size := max w.totalWritten w.preserveLen
    entryCluster := w.firstCluster }

/-- The first part of `finish`: give up the clusters that the rewrite no longer needs. -/
def releaseClusters (w : Writer) : FatM Volume Writer := do
  if w.totalWritten = 0 ∧ w.preserveLen = 0 then
    if w.firstCluster then freeChain
    pure { w with firstCluster := false }
  else if w.preserveLen ≤ w.totalWritten then
    match w.currentCluster with
    | some last =>
      truncateChain last
      pure w
    | none => pure w
  else pure w

/-- `FileWriter::finish`: release clusters, then commit the size. -/
def finish (w : Writer) : FatM Volume Unit := do
  let w ← releaseClusters w
  sectorWrite (·.committed w)
  writeFsinfo

/-- Where a reader stands, and the size it was opened with. -/
structure Reader where
  size : Nat
  position : Nat := 0

/-- `FileReader::read`: what is left of the file, short where the chain ends first. -/
def read (r : Reader) (count : Nat) : FatM Volume (List UInt8 × Reader) := fun v =>
  let wanted := if v.entryCluster then min count (r.size - r.position) else 0
  let bytes := (v.chain.drop r.position).take wanted
  if bytes.length < wanted ∧ !v.endMarked then .error .other v
  else .ok (bytes, { r with position := r.position + bytes.length }) v

/-- The driver, on a volume whose `RATPUTER` directory and file are there. Card reads succeed. -/
def volume : ConfigVolume Volume where
  Dir := Unit
  Entry := Entry
  Reader := Reader
  Writer := Writer
  rootDir _ := ()
  openDir _ _ := pure ()
  createDir _ _ := throw .alreadyExists
  openFile _ _ := do return { size := (← get).size }
  read := read
  find _ _ := do
    let v ← get
    return some { cluster := v.entryCluster, len := v.size }
  isDirectory _ := false
  createFile _ _ := throw .alreadyExists
  writerNew entry := pure (.new entry)
  write := write
  finish := finish

end Ratputer.Faulty
