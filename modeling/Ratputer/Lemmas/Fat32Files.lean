import Ratputer.Lemmas.Fat32Write
import Ratputer.Fat32Files

/-!
# Files on the table

The chain of each slot, the volumes whose chains share nothing and fit their entries, and what a change of one slot's chain and
entry does to them.
-/

namespace Ratputer.Fat32

open Chains

variable {g : Geometry}

/-! ## The chains of a volume -/

/-- The clusters from one on, so many at most. -/
def collect (g : Geometry) (v : FatVolume) : Nat → Nat → List Nat
  | 0, _ => []
  | fuel + 1, cluster => cluster ::
    match nextCluster g v cluster with
    | .ok (some next) => collect g v fuel next
    | _ => []

def chainFrom (g : Geometry) (v : FatVolume) : Option Nat → List Nat
  | none => []
  | some cluster => collect g v (g.maxCluster + 1) cluster

/-- The first cluster that an entry names; below 2 there is none. -/
def RawFileEntry.first (raw : RawFileEntry) : Option Nat :=
  if FIRST_DATA_CLUSTER ≤ raw.firstCluster then some raw.firstCluster else none

/-- The first cluster of the root directory, and of the entry in a slot. -/
def FatVolume.first (g : Geometry) (v : FatVolume) : Option Slot → Option Nat
  | none => some g.rootClus
  | some slot => (v.slots slot).bind RawFileEntry.first

/-- The chain of the root directory, and of the entry in a slot. -/
def FatVolume.chains (g : Geometry) (v : FatVolume) (owner : Option Slot) : List Nat := chainFrom g v (v.first g owner)

variable {v v' : FatVolume} {l : List Nat}

/-- The clusters that are collected are those of the chain. -/
theorem Runs.collect {fuel c : Nat} (h : Runs g v (c :: l)) (hfuel : l.length < fuel) : collect g v fuel c = c :: l := by
  induction l generalizing c fuel with
  | nil =>
    obtain ⟨fuel, rfl⟩ := Nat.exists_eq_succ_of_ne_zero (Nat.ne_of_gt hfuel)
    unfold Fat32.collect
    rw [h.nextCluster (i := 0) rfl]
    rfl
  | cons d l ih =>
    obtain ⟨fuel, rfl⟩ := Nat.exists_eq_succ_of_ne_zero (Nat.ne_of_gt (Nat.zero_lt_of_lt hfuel))
    unfold Fat32.collect
    rw [h.nextCluster (i := 0) rfl]
    exact congrArg _ (ih (h.drop 1) (Nat.lt_of_succ_lt_succ hfuel))

/-- The chain from the first of its clusters. -/
theorem Runs.chainFrom (h : Runs g v l) : chainFrom g v l.head? = l := by
  cases l with
  | nil => rfl
  | cons c l => exact h.collect (Nat.lt_succ_of_le (Nat.le_of_succ_le h.length_le))

/-- A chain found starts where it was looked for. -/
theorem head?_chainFrom (first : Option Nat) : (chainFrom g v first).head? = first := by
  cases first <;> rfl

/-! ## Sound volumes -/

/-- The chains of a volume share nothing and hold all that is not free, but for what is lost to all; the count is unknown or right;
a file has the clusters that its size needs; and nobody is writing. -/
structure Sound (g : Geometry) (lost : Finset Nat) (v : FatVolume) : Prop where
  laid : Laid v.cell (clusters g) lost (v.chains g)
  counted : Counted g v
  sizes : ∀ slot raw, v.slots slot = some raw →
    raw.size < 2 ^ 32 ∧ (raw.directory = false → (v.chains g (some slot)).length = clustersFor g raw.size)
  idle : v.openWriters = []

variable {lost : Finset Nat} {slot : Slot} {raw : RawFileEntry} {entry : FileEntry}

/-- Each slot's clusters are a chain. -/
theorem Sound.runs (h : Sound g lost v) (owner : Option Slot) : Runs g v (v.chains g owner) :=
  ⟨h.laid.chained owner, h.laid.inside owner⟩

/-- A chain that nobody else's change touches is still there. -/
theorem Sound.chains_of_ne (h : Sound g lost v) (hc : Changes v.cell v'.cell (clusters g) (v.chains g (some slot)) l)
    {owner : Option Slot} (hne : owner ≠ some slot) : chainFrom g v' (v.chains g owner).head? = v.chains g owner := by
  have hruns := h.runs owner
  exact Runs.chainFrom ⟨hruns.chained.congr fun a ha => h.laid.same hc hne ha, hruns.inside⟩

/-- The chain of one slot becomes another, which its new entry names. -/
theorem Sound.chains_change (h : Sound g lost v) {stored : Option RawFileEntry}
    (hslots : v'.slots = Function.update v.slots slot stored)
    (hc : Changes v.cell v'.cell (clusters g) (v.chains g (some slot)) l) (hfirst : stored.bind RawFileEntry.first = l.head?) :
    v'.chains g = Function.update (v.chains g) (some slot) l := by
  funext owner
  by_cases howner : owner = some slot
  · subst howner
    rw [Function.update_self]
    unfold FatVolume.chains FatVolume.first
    dsimp only
    rw [hslots, Function.update_self, hfirst]
    exact Runs.chainFrom ⟨hc.chained, hc.inside⟩
  · rw [Function.update_of_ne howner, ← h.chains_of_ne hc howner]
    unfold FatVolume.chains
    rw [head?_chainFrom]
    cases owner with
    | none => rfl
    | some other =>
      have hne : other ≠ slot := fun heq => howner (congrArg some heq)
      unfold FatVolume.first
      dsimp only
      rw [hslots, Function.update_of_ne hne]

/-- A change of one slot and its chain keeps the volume sound. -/
theorem Sound.change (h : Sound g lost v) {stored : Option RawFileEntry} (hslots : v'.slots = Function.update v.slots slot stored)
    (hc : Changes v.cell v'.cell (clusters g) (v.chains g (some slot)) l) (hfirst : stored.bind RawFileEntry.first = l.head?)
    (hcounted : Counted g v') (hidle : v'.openWriters = [])
    (hfits : ∀ raw, stored = some raw → raw.size < 2 ^ 32 ∧ (raw.directory = false → l.length = clustersFor g raw.size)) :
    Sound g lost v' := by
  have hchains := h.chains_change hslots hc hfirst
  refine ⟨?_, hcounted, fun other raw hraw => ?_, hidle⟩
  · rw [hchains]
    exact h.laid.change hc
  · rw [hslots] at hraw
    rw [hchains]
    by_cases hother : other = slot
    · subst hother
      rw [Function.update_self] at hraw ⊢
      exact hfits raw hraw
    · rw [Function.update_of_ne hother] at hraw
      rw [Function.update_of_ne fun heq => hother (Option.some.inj heq)]
      exact h.sizes other raw hraw

/-! ## What the slots hold -/

/-- The first octets of what these clusters hold. -/
def content (g : Geometry) (v : FatVolume) (l : List Nat) (size : Nat) : List UInt8 := (List.range size).map (octet g v l)

/-- A file's content is as long as its entry says. -/
theorem length_content (l : List Nat) (size : Nat) : (content g v l size).length = size := by
  rw [content, List.length_map, List.length_range]

/-- What an entry with these clusters is. -/
def view (g : Geometry) (v : FatVolume) (l : List Nat) (raw : RawFileEntry) : Stored :=
  if raw.directory then .directory l.length else .file (content g v l raw.size)

/-- What the slots of a volume hold, and how many clusters are free. -/
def FatVolume.disk (g : Geometry) (v : FatVolume) : Disk where
  stored slot := (v.slots slot).map (view g v (v.chains g (some slot)))
  free := Chains.freeCount v.cell (clusters g)

/-- What is stored takes the clusters of its chain. -/
theorem clusters_view {stored : Option RawFileEntry} (hfirst : stored.bind RawFileEntry.first = l.head?)
    (hfits : ∀ raw, stored = some raw → raw.directory = false → l.length = clustersFor g raw.size) :
    ((stored.map (view g v l)).map (Stored.clusters g)).getD 0 = l.length := by
  cases stored with
  | none =>
    rw [List.head?_eq_none_iff.mp hfirst.symm]
    rfl
  | some raw =>
    show (view g v l raw).clusters g = _
    unfold view
    cases hdirectory : raw.directory with
    | true => rfl
    | false =>
      show clustersFor g (content g v l raw.size).length = _
      rw [length_content]
      exact (hfits raw rfl hdirectory).symm

/-- Clusters that keep their octets hold what they held. -/
theorem view_congr {raw : RawFileEntry} (hdata : ∀ c ∈ l, v'.data c = v.data c)
    (hfits : raw.directory = false → l.length = clustersFor g raw.size) : view g v' l raw = view g v l raw := by
  unfold view
  cases hdirectory : raw.directory with
  | true => rfl
  | false =>
    refine congrArg Stored.file (List.map_congr_left fun i hi => ?_)
    have hlt : i / g.clusterSize < l.length := by
      rw [hfits hdirectory]
      refine (Nat.div_lt_iff_lt_mul g.clusterSize_pos).mpr (Nat.lt_of_lt_of_le (List.mem_range.mp hi) ?_)
      exact clustersFor_le.mp le_rfl
    unfold octet
    rw [List.getD_eq_getElem l 0 hlt, hdata _ (List.getElem_mem hlt)]

/-- A change of one slot's chain and entry, and of the octets of its own and of free clusters, puts what the slot holds then. -/
theorem Sound.disk_change (h : Sound g lost v) {stored : Option RawFileEntry} (hslots : v'.slots = Function.update v.slots slot stored)
    (hc : Changes v.cell v'.cell (clusters g) (v.chains g (some slot)) l) (hfirst : stored.bind RawFileEntry.first = l.head?)
    (hdata : ∀ c, c ∉ v.chains g (some slot) → v.cell c ≠ .free → v'.data c = v.data c)
    (hfits : ∀ raw, stored = some raw → raw.directory = false → l.length = clustersFor g raw.size) :
    v'.disk g = (v.disk g).put g slot (stored.map (view g v' l)) := by
  have hchains := h.chains_change hslots hc hfirst
  have hold : (((v.disk g).stored slot).map (Stored.clusters g)).getD 0 = (v.chains g (some slot)).length := by
    refine clusters_view ?_ fun raw hraw => (h.sizes slot raw hraw).2
    exact (head?_chainFrom _).symm
  have hcount := hc.freeCount (h.runs (some slot)).chained (h.runs (some slot)).inside
  unfold Disk.put
  rw [hold, clusters_view hfirst hfits, FatVolume.disk]
  congr 1
  · funext other
    rw [hchains, hslots]
    by_cases hother : other = slot
    · rw [hother, Function.update_self, Function.update_self, Function.update_self]
    · have hne : some other ≠ some slot := fun heq => hother (Option.some.inj heq)
      rw [Function.update_of_ne hother, Function.update_of_ne hne, Function.update_of_ne hother]
      refine Option.map_congr fun raw hraw => view_congr (fun c hin => ?_) (h.sizes other raw hraw).2
      refine hdata c (h.laid.apart _ _ hne c hin) ((h.runs _).chained.ne_free hin)
  · show _ = freeCount v.cell (clusters g) + _ - _
    omega

/-! ## Opening -/

/-- The position after so many octets of a file is at its last. -/
theorem stand_size {size : Nat} (hpos : 0 < size) (hlen : l.length = clustersFor g size) :
    stand g l size = (l.getLast?, if size % g.clusterSize = 0 then g.clusterSize else size % g.clusterSize) := by
  have hcs := g.clusterSize_pos
  have hmod := Nat.mod_lt (size - 1) hcs
  have hsucc := clustersFor_succ (g := g) (size - 1)
  rw [Nat.sub_add_cancel hpos, ← hlen] at hsucc
  unfold stand
  rw [if_neg (Nat.ne_of_gt hpos), List.getLast?_eq_getElem?, hsucc, Nat.add_sub_cancel]
  rcases Nat.lt_or_ge ((size - 1) % g.clusterSize + 1) g.clusterSize with hlt | hge
  · rw [(div_mod_of_lt hpos hlt).2, if_neg (Nat.succ_ne_zero _)]
  · rw [(div_mod_of_full hpos hge).2, if_pos rfl, le_antisymm hmod hge]

/-- A place in a cluster lies within it. -/
theorem stand_le (l : List Nat) (pos : Nat) : (stand g l pos).2 ≤ g.clusterSize := by
  unfold stand
  split
  · exact Nat.zero_le _
  · exact Nat.mod_lt _ g.clusterSize_pos

/-- Within a chain, a position past the start is past an octet of one of its clusters. -/
theorem stand_isSome {pos : Nat} (hpos : 0 < pos) (hle : pos ≤ l.length * g.clusterSize) :
    ∃ c, l[(pos - 1) / g.clusterSize]? = some c ∧ (stand g l pos).1 = some c := by
  have hlt : (pos - 1) / g.clusterSize < l.length := (Nat.div_lt_iff_lt_mul g.clusterSize_pos).mpr (by omega)
  refine ⟨l[(pos - 1) / g.clusterSize], List.getElem?_eq_getElem hlt, ?_⟩
  unfold stand
  rw [if_neg (Nat.ne_of_gt hpos), List.getElem?_eq_getElem hlt]

/-- What a handle of the entry is checked against. -/
def RawFileEntry.id (raw : RawFileEntry) (slot : Slot) : EntryId := ⟨slot, raw.name, raw.created⟩

/-- A handle of the entry in a slot. -/
structure Handle (g : Geometry) (v : FatVolume) (slot : Slot) (raw : RawFileEntry) (entry : FileEntry) : Prop where
  stored : v.slots slot = some raw
  id : entry.toEntryId = raw.id slot
  size : entry.size = raw.size
  directory : entry.directory = raw.directory
  cluster : entry.cluster = raw.firstCluster
  first : entry.firstCluster = (v.chains g (some slot)).head?

/-- The entry is still there. -/
theorem revalidate (hraw : v.slots slot = some raw) : v.revalidateSlot (raw.id slot) = .ok raw := by
  unfold FatVolume.revalidateSlot RawFileEntry.id
  dsimp only
  rw [hraw]
  exact if_pos ⟨rfl, rfl⟩

/-- A writer on the file in a slot that has not written yet. -/
structure Begins (g : Geometry) (v : FatVolume) (slot : Slot) (raw : RawFileEntry) (preserve pos : Nat) (w : FileWriter) : Prop where
  id : w.toEntryId = raw.id slot
  first : w.firstCluster = (v.chains g (some slot)).head?
  nothing : w.firstAllocatedCluster = none
  preserve : w.preserveLen = preserve
  total : w.totalWritten = pos
  place : (w.currentCluster, w.offsetInCluster) = stand g (v.chains g (some slot)) pos

/-- A lookup returns a handle of the entry that it was read from. -/
theorem lookup_cases (g : Geometry) (v : FatVolume) (slot : Slot) :
    v.lookup slot = none ∧ v.slots slot = none ∨ ∃ raw entry, v.lookup slot = some entry ∧ Handle g v slot raw entry := by
  unfold FatVolume.lookup
  cases hraw : v.slots slot with
  | none => exact .inl ⟨rfl, rfl⟩
  | some raw =>
    refine .inr ⟨raw, _, rfl, hraw, rfl, rfl, rfl, rfl, ?_⟩
    unfold FatVolume.chains
    rw [head?_chainFrom]
    unfold FatVolume.first
    dsimp only
    rw [hraw]
    rfl

/-- A writer is registered where nobody else is writing. -/
theorem Sound.registerWriter (h : Sound g lost v) (slot : Slot) : v.registerWriter slot = .ok { v with openWriters := [slot] } := by
  unfold FatVolume.registerWriter
  rw [h.idle]
  rfl

section

variable (h : Sound g lost v) (hin : Handle g v slot raw entry) (hfile : raw.directory = false)

include h hin hfile

omit h hfile in
/-- The entry is that of its slot. -/
theorem Handle.entrySlot : entry.entrySlot = slot := congrArg EntryId.entrySlot hin.id

/-- The chain has the clusters that the size needs. -/
theorem Handle.length : (v.chains g (some slot)).length = clustersFor g raw.size := (h.sizes slot raw hin.stored).2 hfile

/-- The file fits in its chain. -/
theorem Handle.size_le : raw.size ≤ (v.chains g (some slot)).length * g.clusterSize := clustersFor_le.mp (hin.length h hfile).ge

/-- A writer that replaces begins. -/
theorem Handle.new :
    ∃ w, FileWriter.new entry v = .ok (w, { v with openWriters := [slot] }) ∧ Begins g v slot raw 0 0 w := by
  unfold FileWriter.new
  rw [hin.directory, hfile, hin.entrySlot, h.registerWriter]
  exact ⟨_, rfl, hin.id, hin.first, rfl, rfl, rfl, congrArg (·, 0) hin.first⟩

/-- A writer that appends begins at the end. -/
theorem Handle.newAppend :
    ∃ w, FileWriter.newAppend g entry v = .ok (w, { v with openWriters := [slot] }) ∧ Begins g v slot raw 0 raw.size w := by
  have hlen := hin.length h hfile
  unfold FileWriter.newAppend
  rw [hin.directory, hfile]
  rcases Nat.eq_zero_or_pos raw.size with hzero | hpos
  · rw [hzero]
    cases hfirst : entry.firstCluster with
    | none => exact hin.new h hfile
    | some first =>
      dsimp only
      rw [if_neg (by decide), if_pos (hin.size.trans hzero)]
      exact hin.new h hfile
  · obtain ⟨first, hfirst⟩ : ∃ first, (v.chains g (some slot))[0]? = some first := by
      refine ⟨_, List.getElem?_eq_getElem ?_⟩
      rw [hlen]
      exact lt_clustersFor.mpr (by omega)
    have hhead : entry.firstCluster = some first := by rw [hin.first, List.head?_eq_getElem?, hfirst]
    obtain ⟨last, hwalk, hlast⟩ := (h.runs (some slot)).walkChain hfirst (Nat.zero_add g.maxCluster ▸ (h.runs _).length_le)
    have hbegins : Begins g v slot raw 0 raw.size {
        toEntryId := entry.toEntryId
        firstCluster := some first
        currentCluster := some last
        offsetInCluster := if entry.size % g.clusterSize = 0 then g.clusterSize else entry.size % g.clusterSize
        totalWritten := entry.size } := by
      refine ⟨hin.id, ?_, rfl, rfl, hin.size, ?_⟩
      · rw [List.head?_eq_getElem?, hfirst]
      · rw [stand_size hpos hlen, hlast, hin.size]
    refine ⟨_, ?_, hbegins⟩
    rw [hhead]
    dsimp only
    rw [if_neg (by decide), if_neg (by rw [hin.size]; omega), hwalk]
    show (v.registerWriter entry.entrySlot >>= _) = _
    rw [hin.entrySlot, h.registerWriter]
    rfl

/-- A cursor that stands at the end of the file. -/
structure AtEnd (g : Geometry) (v : FatVolume) (slot : Slot) (raw : RawFileEntry) (cursor : AppendCursor) : Prop where
  id : cursor.toEntryId = raw.id slot
  first : cursor.firstCluster = (v.chains g (some slot)).head?
  total : cursor.totalWritten = raw.size
  place : (cursor.currentCluster, cursor.offsetInCluster) = stand g (v.chains g (some slot)) raw.size

/-- So does one from a good cursor. -/
theorem Handle.newAppendFromCursor {cursor : AppendCursor} (hend : AtEnd g v slot raw cursor) :
    ∃ w, FileWriter.newAppendFromCursor g entry cursor v = .ok (w, { v with openWriters := [slot] }) ∧
      Begins g v slot raw 0 raw.size w := by
  have hcurrent : cursor.currentCluster = (stand g (v.chains g (some slot)) raw.size).1 := congrArg Prod.fst hend.place
  have hoffset : cursor.offsetInCluster = (stand g (v.chains g (some slot)) raw.size).2 := congrArg Prod.snd hend.place
  have hlen := hin.length h hfile
  have hvalid : ¬(entry.toEntryId ≠ cursor.toEntryId ∨ entry.firstCluster ≠ cursor.firstCluster ∨
      entry.size ≠ cursor.totalWritten ∨ g.clusterSize < cursor.offsetInCluster ∨
      (0 < cursor.totalWritten ∧ cursor.currentCluster.isNone = true)) := by
    rintro (hne | hne | hne | hlt | ⟨hpos, hnone⟩)
    · exact hne (hin.id.trans hend.id.symm)
    · exact hne (hin.first.trans hend.first.symm)
    · exact hne (hin.size.trans hend.total.symm)
    · rw [hoffset] at hlt
      exact absurd hlt (Nat.not_lt.mpr (stand_le _ _))
    · rw [hend.total] at hpos
      obtain ⟨c, _, hc⟩ := stand_isSome hpos (hin.size_le h hfile)
      rw [hcurrent, hc] at hnone
      cases hnone
  -- the cursor is at the last cluster, or there is none
  have htail : ∀ current, cursor.currentCluster = some current → nextCluster g v current = .ok none := by
    intro current hsome
    rw [hcurrent] at hsome
    rcases Nat.eq_zero_or_pos raw.size with hzero | hpos
    · rw [hzero, clustersFor_zero] at hlen
      rw [hzero, List.length_eq_zero_iff.mp hlen] at hsome
      cases hsome
    · rw [stand_size hpos hlen, List.getLast?_eq_getElem?] at hsome
      have hnext := (h.runs (some slot)).nextCluster hsome
      rwa [List.getElem?_eq_none (by omega)] at hnext
  have hbegins : Begins g v slot raw 0 raw.size {
      toEntryId := cursor.toEntryId
      firstCluster := cursor.firstCluster
      currentCluster := cursor.currentCluster
      offsetInCluster := cursor.offsetInCluster
      totalWritten := cursor.totalWritten } := ⟨hend.id, hend.first, rfl, rfl, hend.total, hend.place⟩
  unfold FileWriter.newAppendFromCursor
  refine ⟨_, ?_, hbegins⟩
  have hregister := h.registerWriter slot
  rw [← hin.entrySlot] at hregister
  rw [hin.directory, hfile, if_neg (by decide), if_neg hvalid, ← hin.entrySlot]
  cases hsome : cursor.currentCluster with
  | none =>
    dsimp only
    rw [hregister]
    rfl
  | some current =>
    dsimp only
    rw [htail current hsome]
    show (v.registerWriter entry.entrySlot >>= _) = _
    rw [hregister]
    rfl

/-- The cluster before an offset is the one that the chain has there. -/
theorem Handle.clusterBefore {offset : Nat} (hle : offset ≤ raw.size) :
    FileWriter.clusterBefore g entry offset v = .ok (stand g (v.chains g (some slot)) offset).1 := by
  have hcs := g.clusterSize_pos
  have hwithin := hle.trans (hin.size_le h hfile)
  have hmax := (h.runs (some slot)).length_le
  have hsteps : (offset - 1) / g.clusterSize ≤ (v.chains g (some slot)).length :=
    Nat.div_le_of_le_mul (by rw [Nat.mul_comm]; omega)
  unfold FileWriter.clusterBefore
  dsimp only
  rw [if_neg (by omega), hin.first]
  rcases Nat.eq_zero_or_pos offset with rfl | hpos
  · cases hhead : (v.chains g (some slot)).head? with
    | none =>
      dsimp only
      rw [if_pos (Nat.zero_div _)]
      exact congrArg _ hhead.symm
    | some first =>
      dsimp only
      rw [Nat.zero_sub, Nat.zero_div]
      exact congrArg _ hhead.symm
  · obtain ⟨c, hc, hstand⟩ := stand_isSome hpos hwithin
    obtain ⟨first, hfirst⟩ : ∃ first, (v.chains g (some slot))[0]? = some first :=
      ⟨_, List.getElem?_eq_getElem (Nat.zero_lt_of_lt (List.getElem?_eq_some_iff.mp hc).1)⟩
    rw [List.head?_eq_getElem?, hfirst, hstand]
    dsimp only
    rw [(h.runs (some slot)).hops hfirst (by rw [Nat.zero_add]; exact hc)]
    rfl

/-- A writer at an offset begins there. -/
theorem Handle.newAt {offset : Nat} (hle : offset ≤ raw.size) :
    ∃ w, FileWriter.newAt g entry offset v = .ok (w, { v with openWriters := [slot] }) ∧ Begins g v slot raw raw.size offset w := by
  have hlt := (h.sizes slot raw hin.stored).1
  obtain ⟨w, hnew, hbegins⟩ := hin.new h hfile
  have hsome : ¬(0 < raw.size ∧ (stand g (v.chains g (some slot)) offset).1.isNone = true) := by
    rintro ⟨hpos, hnone⟩
    rcases Nat.eq_zero_or_pos offset with rfl | hoffset
    · have hempty : v.chains g (some slot) = [] := List.head?_eq_none_iff.mp (Option.isNone_iff_eq_none.mp hnone)
      have hle := hin.size_le h hfile
      rw [hempty, List.length_nil, Nat.zero_mul] at hle
      omega
    · obtain ⟨c, _, hc⟩ := stand_isSome hoffset (hle.trans (hin.size_le h hfile))
      rw [hc] at hnone
      cases hnone
  refine ⟨{ w with
    currentCluster := (stand g (v.chains g (some slot)) offset).1
    offsetInCluster := if offset = 0 then 0 else (offset - 1) % g.clusterSize + 1
    totalWritten := offset
    preserveLen := entry.size }, ?_, hbegins.id, hbegins.first, hbegins.nothing, hin.size, rfl, ?_⟩
  · unfold FileWriter.newAt
    rw [hin.id, revalidate hin.stored]
    show (if _ then _ else _) = _
    rw [hin.size, if_neg (by omega), hin.clusterBefore h hfile hle]
    show (if _ then _ else _) = _
    rw [if_neg hsome, hnew]
    rfl
  · unfold stand
    by_cases hoffset : offset = 0
    · rw [if_pos hoffset, if_pos hoffset]
    · rw [if_neg hoffset, if_neg hoffset]

end

/-! ## Writing -/

/-- What a writer on the file in a slot is opened on. -/
def opened (g : Geometry) (v : FatVolume) (slot : Slot) (raw : RawFileEntry) (preserve pos : Nat) : Opened where
  volume := { v with openWriters := [slot] }
  committed := v.chains g (some slot)
  id := raw.id slot
  preserve := preserve
  off := pos

/-- A writer that has begun holds the file's chain and has written nothing. -/
theorem Begins.held {preserve pos : Nat} {w : FileWriter} (hb : Begins g v slot raw preserve pos w) (h : Sound g lost v)
    (hpos : pos ≤ (v.chains g (some slot)).length * g.clusterSize) :
    Held g (opened g v slot raw preserve pos) [] (v.chains g (some slot)) w { v with openWriters := [slot] } ∧
    Stands g (v.chains g (some slot)) (v.chains g (some slot)) w ∧ w.totalWritten = pos := by
  have hruns := h.runs (some slot)
  refine ⟨⟨.refl hruns.chained hruns.inside, List.prefix_refl _, h.counted, rfl, rfl, fun _ _ _ => rfl, fun i _ _ => ?_, hb.id,
    hb.preserve, hb.first, .nothing rfl hb.nothing⟩, ⟨?_, ?_, ?_⟩, hb.total⟩
  · exact (congrFun (overlay_nil _ _) i).symm
  · rw [hb.total]
    exact hb.place
  · rw [hb.total]
    exact hpos
  · rw [hb.total]
    exact (Nat.max_eq_left (clustersFor_le.mpr hpos)).symm

variable {o : Opened} {D : List UInt8} {w : FileWriter}

/-- Chunks are all written, or one finds the volume full. -/
theorem Held.writeAll (ho : Runs g o.volume o.committed) (chunks : List (List UInt8)) (h : Held g o D l w v)
    (hs : Stands g o.committed l w) (hD : w.totalWritten = o.off + D.length) :
    (∃ l' w' v', FileWriter.writeAll g chunks (w, v) = .ok () (w', v') ∧ Held g o (D ++ chunks.flatten) l' w' v' ∧
      Stands g o.committed l' w' ∧ w'.totalWritten = o.off + (D ++ chunks.flatten).length) ∨
    (∃ D' w' v', FileWriter.writeAll g chunks (w, v) = .error .noFreeSpace (w', v') ∧ D' <+: D ++ chunks.flatten ∧
      D'.length < (D ++ chunks.flatten).length ∧ Held g o D' o.committed w' v' ∧ Stands g o.committed o.committed w' ∧
      w'.totalWritten = o.committed.length * g.clusterSize ∧ o.off + D'.length = o.room g * g.clusterSize) := by
  induction chunks generalizing D l w v with
  | nil =>
    rw [List.flatten_nil, List.append_nil]
    exact .inl ⟨l, w, v, rfl, h, hs, hD⟩
  | cons chunk rest ih =>
    unfold FileWriter.writeAll
    rw [List.flatten_cons, ← List.append_assoc]
    rcases Held.writeLoop ho chunk.length (le_refl chunk.length) h hs hD with
      ⟨l', w', v', hloop, h', hs', hD'⟩ | ⟨D', w', v', hloop, hwithin, hlt, h', hs', htotal, hfull⟩
    · have hwrite : FileWriter.write g chunk (w, v) = .ok chunk.length (w', v') := Effect.bind_of_ok hloop
      rw [Effect.bind_of_ok hwrite]
      exact ih h' hs' hD'
    · have hwrite : FileWriter.write g chunk (w, v) = .error .noFreeSpace (w', v') := Effect.bind_of_error hloop
      refine .inr ⟨D', w', v', Effect.bind_of_error hwrite, hwithin.trans (List.prefix_append _ _), ?_, h', hs', htotal, hfull⟩
      rw [List.length_append]
      omega

/-- What is written fits into the room there is. -/
theorem Held.length_le (h : Held g o D l w v) (hs : Stands g o.committed l w) (ho : Runs g o.volume o.committed) :
    w.totalWritten ≤ o.room g * g.clusterSize := by
  have hcount := h.changes.freeCount ho.chained ho.inside
  refine hs.within.trans (Nat.mul_le_mul_right _ ?_)
  unfold Opened.room
  omega

/-- Committing a writer: the chain that is left, the entry, and the octets. -/
theorem Held.finish (h : Held g o D l w v) (hs : Stands g o.committed l w)
    (hpreserve : o.preserve = 0 ∨ o.committed.length = clustersFor g o.preserve) (hraw : v.slots slot = some raw)
    (hid : o.id = raw.id slot) (now : FatDateTime) :
    ∃ l' v', w.finish g now v = .ok () v' ∧ l' <+: l ∧ Changes v.cell v'.cell (clusters g) l l' ∧ Counted g v' ∧
      l'.length = clustersFor g (max w.totalWritten o.preserve) ∧
      v'.slots = Function.update v.slots slot (some { raw with
        size := max w.totalWritten o.preserve % 2 ^ 32, firstCluster := l'.head?.getD 0, modified := now,
        lastAccessDate := now.date }) ∧
      v'.openWriters = v.openWriters.erase slot ∧ v'.data = v.data := by
  obtain ⟨l', fat, freeCount, htrim, hwithin, hchanges, hcounted, hlen⟩ := h.trim hs hpreserve
  have hentry : w.toEntryId = raw.id slot := h.entry.trans hid
  rw [h.preserve] at hlen
  refine ⟨l', ({ v with fat, freeCount }.updateEntry slot raw (max w.totalWritten o.preserve) (l'.head?.getD 0)
    now).writeFsinfo.unregisterWriter slot, ?_, hwithin, hchanges, hcounted, hlen, rfl, rfl, rfl⟩
  have hslot : w.entrySlot = slot := congrArg EntryId.entrySlot hentry
  unfold FileWriter.finish
  rw [hslot, hentry, revalidate hraw]
  dsimp only
  rw [htrim, h.preserve]

/-- The first cluster that is put into an entry is read from it. -/
theorem first_head (hin : ∀ a ∈ l, a ∈ clusters g) :
    (if FIRST_DATA_CLUSTER ≤ l.head?.getD 0 then some (l.head?.getD 0) else none) = l.head? := by
  cases hhead : l.head? with
  | none => rfl
  | some c => exact if_pos (lt_of_mem_clusters (hin c (List.mem_of_head? hhead))).1

/-- Octets put over a content, as octets put over a list. -/
theorem range_overlay {f : Nat → UInt8} {n pos m : Nat} (hpos : pos ≤ n) (hm : m ≤ max (pos + D.length) n) :
    (List.range m).map (overlay f pos D) = (splice ((List.range n).map f) pos D).take m := by
  have htake : (((List.range n).map f).take pos).length = pos := by simp [hpos]
  refine List.ext_getElem? fun i => ?_
  rw [List.getElem?_map, List.getElem?_take, splice, List.append_assoc]
  by_cases hi : i < m
  · rw [List.getElem?_range hi, if_pos hi]
    unfold overlay
    by_cases hbefore : i < pos
    · rw [List.getElem?_append_left (by omega), List.getElem?_take_of_lt hbefore, List.getElem?_map, List.getElem?_range (by omega)]
      exact congrArg some (if_pos hbefore)
    · rw [List.getElem?_append_right (by omega), htake]
      refine (congrArg some (if_neg hbefore)).trans ?_
      by_cases hin : i - pos < D.length
      · rw [List.getElem?_append_left hin, List.getElem?_eq_getElem hin]
        rfl
      · rw [List.getElem?_append_right (by omega), List.getElem?_eq_none (by omega), List.getElem?_drop,
          show pos + D.length + (i - pos - D.length) = i by omega, List.getElem?_map, List.getElem?_range (by omega)]
        rfl
  · rw [if_neg hi, List.getElem?_eq_none (by simpa using hi)]
    rfl

/-- A volume after a writer on the file in a slot has been committed. -/
structure Commits (g : Geometry) (lost : Finset Nat) (v : FatVolume) (slot : Slot) (raw : RawFileEntry) (l : List Nat)
    (size : Nat) (octets : Nat → UInt8) (v' : FatVolume) : Prop where
  sound : Sound g lost v'
  disk : v'.disk g = (v.disk g).put g slot (some (.file ((List.range size).map octets)))
  slots : ∃ raw', v'.slots = Function.update v.slots slot (some raw') ∧ raw'.id slot = raw.id slot ∧
    raw'.directory = raw.directory ∧ raw'.size = size
  chains : ∃ l', v'.chains g = Function.update (v.chains g) (some slot) l' ∧ l' <+: l ∧ l'.length = clustersFor g size

/-- What a writer holds is what it commits. -/
theorem Held.commit {preserve pos : Nat} (hheld : Held g (opened g v slot raw preserve pos) D l w v')
    (hs : Stands g (v.chains g (some slot)) l w) (h : Sound g lost v) (hraw : v.slots slot = some raw) (hfile : raw.directory = false)
    (hpreserve : preserve = 0 ∨ preserve = raw.size) (hlt : max w.totalWritten preserve < 2 ^ 32)
    (hknown : ∀ i < max w.totalWritten preserve, i < pos + D.length ∨ i < (v.chains g (some slot)).length * g.clusterSize)
    (now : FatDateTime) :
    ∃ v'', w.finish g now v' = .ok () v'' ∧ Commits g lost v slot raw l (max w.totalWritten preserve)
      (overlay (octet g v (v.chains g (some slot))) pos D) v'' := by
  have hsize := (h.sizes slot raw hraw).2 hfile
  have hraw' : v'.slots slot = some raw := by
    rw [hheld.slots]
    exact hraw
  have hkeep : preserve = 0 ∨ (v.chains g (some slot)).length = clustersFor g preserve := by
    rcases hpreserve with hzero | heq
    · exact .inl hzero
    · exact .inr (heq ▸ hsize)
  obtain ⟨l', v'', hfinish, hwithin, hlast, hcounted, hlen, hslots, hwriters, hdata⟩ := hheld.finish hs hkeep hraw' rfl now
  have hchanges : Changes v.cell v''.cell (clusters g) (v.chains g (some slot)) l' := hheld.changes.trans hlast
  have hfirst := first_head hchanges.inside
  have hmod : max w.totalWritten preserve % 2 ^ 32 = max w.totalWritten preserve := Nat.mod_eq_of_lt hlt
  have hslots' : v''.slots = Function.update v.slots slot (some { raw with
      size := max w.totalWritten preserve % 2 ^ 32, firstCluster := l'.head?.getD 0, modified := now,
      lastAccessDate := now.date }) := by
    rw [hslots, hheld.slots]
    rfl
  have hview : view g v'' l' { raw with
      size := max w.totalWritten preserve % 2 ^ 32, firstCluster := l'.head?.getD 0, modified := now,
      lastAccessDate := now.date } =
      .file ((List.range (max w.totalWritten preserve)).map (overlay (octet g v (v.chains g (some slot))) pos D)) := by
    unfold view
    rw [if_neg (by rw [hfile]; decide), hmod]
    refine congrArg Stored.file (List.map_congr_left fun i hi => ?_)
    have hi' : i < max w.totalWritten preserve := List.mem_range.mp hi
    have hin : i < l'.length * g.clusterSize := by
      rw [hlen]
      exact Nat.lt_of_lt_of_le hi' (clustersFor_le.mp le_rfl)
    have hin' : i < l.length * g.clusterSize := hin.trans_le (Nat.mul_le_mul_right _ hwithin.length_le)
    have hoct := hheld.octets i hin' (hknown i hi')
    rw [← octet_within hwithin hin] at hoct
    unfold octet at hoct ⊢
    rw [hdata]
    exact hoct
  refine ⟨v'', hfinish, ?_, ?_, ⟨_, hslots', rfl, rfl, hmod⟩, l', ?_, hwithin, hlen⟩
  · refine h.change hslots' hchanges hfirst hcounted ?_ fun raw' heq => ?_
    · rw [hwriters, hheld.openWriters]
      exact List.erase_cons_head ..
    · obtain rfl := Option.some.inj heq
      refine ⟨Nat.mod_lt _ (by decide), fun _ => ?_⟩
      rw [hlen]
      exact congrArg _ hmod.symm
  · rw [h.disk_change hslots' hchanges hfirst (fun c hc hused => ?_) fun raw' heq _ => ?_]
    · exact congrArg (fun x => (v.disk g).put g slot (some x)) hview
    · rw [hdata]
      exact hheld.spared c hc hused
    · obtain rfl := Option.some.inj heq
      rw [hlen]
      exact congrArg _ hmod.symm
  · exact h.chains_change hslots' hchanges hfirst

end Ratputer.Fat32
