import Ratputer.Lemmas.Fat32Files

/-!
# What each call puts

Each call of the file layer changes what one slot holds and nothing else: the entries and the chains of all other slots stay.
-/

namespace Ratputer.Fat32

open Chains

variable {g : Geometry} {v v' : FatVolume} {l : List Nat} {lost : Finset Nat} {slot : Slot} {raw : RawFileEntry} {entry : FileEntry}

/-- A sound volume on which one slot holds something else. -/
structure Puts (g : Geometry) (lost : Finset Nat) (v : FatVolume) (slot : Slot) (new : Option Stored) (v' : FatVolume) : Prop where
  sound : Sound g lost v'
  disk : v'.disk g = (v.disk g).put g slot new
  slots : ∀ other, other ≠ slot → v'.slots other = v.slots other
  chains : ∀ other, other ≠ slot → v'.chains g (some other) = v.chains g (some other)

/-- A call that changes one slot and its chain keeps the volume sound and puts what is in the slot. -/
theorem Sound.puts (h : Sound g lost v) (stored : Option RawFileEntry) (l : List Nat) (v' : FatVolume)
    (hslots : v'.slots = Function.update v.slots slot stored)
    (hc : Changes v.cell v'.cell (clusters g) (v.chains g (some slot)) l) (hfirst : stored.bind RawFileEntry.first = l.head?)
    (hcounted : Counted g v') (hidle : v'.openWriters = [])
    (hdata : ∀ c, c ∉ v.chains g (some slot) → v.cell c ≠ .free → v'.data c = v.data c)
    (hfits : ∀ raw, stored = some raw → raw.size < 2 ^ 32 ∧ (raw.directory = false → l.length = clustersFor g raw.size)) :
    Puts g lost v slot (stored.map (view g v' l)) v' where
  sound := h.change hslots hc hfirst hcounted hidle hfits
  disk := h.disk_change hslots hc hfirst hdata fun raw hraw => (hfits raw hraw).2
  slots other hne := by rw [hslots, Function.update_of_ne hne]
  chains other hne := by
    rw [h.chains_change hslots hc hfirst, Function.update_of_ne fun heq => hne (Option.some.inj heq)]

/-- A writer that commits puts its octets. -/
theorem Commits.puts {size : Nat} {octets : Nat → UInt8} (hc : Commits g lost v slot raw l size octets v') :
    Puts g lost v slot (some (.file ((List.range size).map octets))) v' where
  sound := hc.sound
  disk := hc.disk
  slots other hne := by
    obtain ⟨raw', hslots, _⟩ := hc.slots
    rw [hslots, Function.update_of_ne hne]
  chains other hne := by
    obtain ⟨l', hchains, _⟩ := hc.chains
    rw [hchains, Function.update_of_ne fun heq => hne (Option.some.inj heq)]

/-- What a slot holds is put there again. -/
theorem Disk.put_self (d : Disk) (slot : Slot) : d.put g slot (d.stored slot) = d := by
  unfold Disk.put
  rw [Function.update_eq_self, Nat.add_sub_cancel]

/-- A slot with a file stores the octets of its chain. -/
theorem stored_of_file (hraw : v.slots slot = some raw) (hfile : raw.directory = false) :
    (v.disk g).stored slot = some (.file (content g v (v.chains g (some slot)) raw.size)) := by
  unfold FatVolume.disk
  dsimp only
  rw [hraw]
  exact congrArg some (if_neg (by rw [hfile]; decide))

/-- A call that leaves a slot as it is. -/
theorem Sound.puts_self (h : Sound g lost v) (slot : Slot) : Puts g lost v slot ((v.disk g).stored slot) v where
  sound := h
  disk := (Disk.put_self _ _).symm
  slots _ _ := rfl
  chains _ _ := rfl

/-- Less of a content. -/
theorem take_content {size : Nat} (hle : size ≤ raw.size) : (content g v l raw.size).take size = content g v l size := by
  unfold content
  rw [← List.map_take, List.take_range, Nat.min_eq_left hle]

/-- An entry that was found has the first cluster of its chain. -/
theorem Handle.cluster_of_head (hin : Handle g v slot raw entry) {c : Nat} (hc : (v.chains g (some slot)).head? = some c) :
    entry.cluster = c := by
  have hfirst := hin.first
  unfold FileEntry.firstCluster at hfirst
  rw [hc] at hfirst
  split at hfirst
  · exact Option.some.inj hfirst
  · cases hfirst

/-- Freeing the chain of a slot, with an entry that has none. -/
theorem Sound.puts_released (h : Sound g lost v) (slot : Slot) (stored : Option RawFileEntry) (v₀ : FatVolume)
    (hcell : v₀.cell = v.cell)
    (hcounted : Counted g v₀) (hdata : v₀.data = v.data) (hidle : v₀.openWriters = [])
    (hnone : stored.bind RawFileEntry.first = none) (hsize : ∀ raw, stored = some raw → raw.size = 0) :
    ∃ fat freeCount, releaseChain g (v.chains g (some slot)).head? v₀ = { v₀ with fat, freeCount } ∧
      ∀ v', v' = { v₀ with
          fat, freeCount, slots := Function.update v.slots slot stored, fsInfo := (freeCount, v₀.nextFree) } →
        Puts g lost v slot (stored.map (view g v' [])) v' := by
  have hruns : Runs g v₀ (v.chains g (some slot)) := by
    refine ⟨?_, (h.runs _).inside⟩
    rw [hcell]
    exact (h.runs _).chained
  obtain ⟨fat, freeCount, hrelease, hchanges, hcounted'⟩ := hruns.releaseChain hcounted
  rw [hcell] at hchanges
  refine ⟨fat, freeCount, hrelease, ?_⟩
  rintro v' rfl
  refine h.puts stored [] _ rfl hchanges hnone hcounted' hidle (fun c _ _ => congrFun hdata c) fun raw hraw => ?_
  rw [hsize raw hraw]
  exact ⟨Nat.two_pow_pos 32, fun _ => clustersFor_zero.symm⟩

/-- Deleting frees the slot and its chain. -/
theorem Handle.delete (hin : Handle g v slot raw entry) (h : Sound g lost v) :
    ∃ v', delete g entry v = .ok () v' ∧ Puts g lost v slot none v' := by
  obtain ⟨fat, freeCount, hrelease, hputs⟩ := h.puts_released slot none
    { v with slots := Function.update v.slots slot none } rfl h.counted rfl h.idle rfl
    fun raw hraw => absurd hraw.symm (Option.some_ne_none raw)
  refine ⟨_, ?_, hputs _ rfl⟩
  have hslot : entry.entrySlot = slot := congrArg EntryId.entrySlot hin.id
  unfold Fat32.delete
  rw [hslot, hin.id, revalidate hin.stored]
  dsimp only
  rw [hin.first, hrelease]
  rfl

/-- Truncating cuts the file to the size. -/
theorem Handle.truncate (hin : Handle g v slot raw entry) (h : Sound g lost v) (hfile : raw.directory = false) (size : Nat)
    (now : FatDateTime) :
    ∃ v', truncate g entry size now v = .ok () v' ∧
      Puts g lost v slot (some (.file ((content g v (v.chains g (some slot)) raw.size).take size))) v' := by
  have hslot : entry.entrySlot = slot := congrArg EntryId.entrySlot hin.id
  have hlen := hin.length h hfile
  unfold Fat32.truncate
  rw [hin.directory, hfile, if_neg (by decide), hslot, hin.id, revalidate hin.stored, hin.size]
  dsimp only
  by_cases hlong : raw.size ≤ size
  · rw [if_pos hlong, List.take_of_length_le (by rw [length_content]; exact hlong), ← stored_of_file hin.stored hfile]
    exact ⟨v, rfl, h.puts_self slot⟩
  rw [if_neg hlong, take_content (Nat.le_of_not_le hlong)]
  by_cases hzero : size = 0
  · obtain ⟨fat, freeCount, hrelease, hputs⟩ := h.puts_released slot
      (some { raw with size := 0, firstCluster := 0, modified := now, lastAccessDate := now.date }) v rfl h.counted rfl h.idle rfl
      fun raw' hraw => by
        obtain rfl := Option.some.inj hraw
        rfl
    rw [if_pos hzero, hin.first, hrelease]
    refine ⟨_, rfl, ?_⟩
    refine (congrArg (fun new => Puts g lost v slot new _) ?_).mpr (hputs _ rfl)
    refine congrArg some (Eq.trans ?_ (if_neg (by rw [hfile]; decide)).symm)
    rw [hzero]
    rfl
  · have hsize := (h.sizes slot raw hin.stored).1
    have hpos := Nat.pos_of_ne_zero hzero
    have hone : 0 < clustersFor g size := lt_clustersFor.mpr (by rw [Nat.zero_mul]; exact hpos)
    have hle : clustersFor g size ≤ (v.chains g (some slot)).length := hlen ▸ clustersFor_mono (Nat.le_of_not_le hlong)
    obtain ⟨first, hfirst⟩ : ∃ first, (v.chains g (some slot))[0]? = some first := ⟨_, List.getElem?_eq_getElem (by omega)⟩
    have hhead : (v.chains g (some slot)).head? = some first := by rw [List.head?_eq_getElem?, hfirst]
    obtain ⟨last, fat, freeCount, hhops, hrelease, hchanges, hcounted⟩ := (h.runs (some slot)).cut h.counted hfirst hone hle
    have hkeep : ((v.chains g (some slot)).take (clustersFor g size)).length = clustersFor g size := List.length_take_of_le hle
    have hheads : ((v.chains g (some slot)).take (clustersFor g size)).head? = some first := by
      rw [List.head?_take, if_neg (by omega), hhead]
    have hmod : size % 2 ^ 32 = size := Nat.mod_eq_of_lt (by omega)
    rw [if_neg hzero, hin.cluster_of_head hhead, hhops]
    dsimp only
    rw [hrelease, hin.first, hhead]
    refine ⟨_, rfl, ?_⟩
    have hputs : Puts g lost v slot
        ((some { raw with size := size % 2 ^ 32, firstCluster := first, modified := now, lastAccessDate := now.date }).map
          (view g (({ v with fat, freeCount } : FatVolume).updateEntry slot raw size first now).writeFsinfo
            ((v.chains g (some slot)).take (clustersFor g size))))
        (({ v with fat, freeCount } : FatVolume).updateEntry slot raw size first now).writeFsinfo := by
      refine h.puts _ _ _ rfl hchanges ?_ hcounted h.idle (fun _ _ _ => rfl) fun raw' heq => ?_
      · rw [hheads]
        exact first_head (l := [first]) fun a ha => by
          rw [List.mem_singleton.mp ha]
          exact (h.runs (some slot)).inside first (List.mem_of_getElem? hfirst)
      · obtain rfl := Option.some.inj heq
        refine ⟨Nat.mod_lt _ (by decide), fun _ => ?_⟩
        rw [hkeep]
        exact congrArg _ hmod.symm
    refine (congrArg (fun new => Puts g lost v slot new _) ?_).mpr hputs
    refine congrArg some (Eq.trans ?_ (if_neg (by rw [hfile]; decide)).symm)
    dsimp only
    rw [hmod]
    refine congrArg Stored.file (List.map_congr_left fun i hi => ?_)
    have hwithin : (v.chains g (some slot)).take (clustersFor g size) <+: v.chains g (some slot) := List.take_prefix _ _
    refine (octet_within hwithin ?_).symm
    rw [hkeep]
    exact Nat.lt_of_lt_of_le (List.mem_range.mp hi) (clustersFor_le.mp le_rfl)

/-! ## New entries -/

/-- A slot without an entry has no chain. -/
theorem chains_of_none (hnone : v.slots slot = none) : v.chains g (some slot) = [] := by
  unfold FatVolume.chains FatVolume.first
  dsimp only
  rw [hnone]
  rfl

/-- A new file is empty. -/
theorem Sound.createFile (h : Sound g lost v) (hnone : v.slots slot = none) (name : List UInt8) (now : FatDateTime) :
    Puts g lost v slot (some (.file [])) (createFile slot name now v) := by
  have hempty := chains_of_none (g := g) hnone
  refine h.puts (some {
    name, directory := false, created := now, modified := now, lastAccessDate := now.date, firstCluster := 0, size := 0 }) [] _
    rfl ?_ rfl h.counted h.idle (fun _ _ _ => rfl) fun raw heq => ?_
  · rw [hempty]
    exact .refl chained_nil fun a ha => absurd ha List.not_mem_nil
  · obtain rfl := Option.some.inj heq
    exact ⟨Nat.two_pow_pos 32, fun _ => clustersFor_zero.symm⟩

/-- A new directory takes a cluster; there is none when the volume is full. -/
theorem Sound.createDir (h : Sound g lost v) (hnone : v.slots slot = none) (name dots : List UInt8) (now : FatDateTime) :
    (∃ v', createDir g slot name dots now v = .ok () v' ∧ (v.disk g).free ≠ 0 ∧ Puts g lost v slot (some (.directory 1)) v') ∨
    createDir g slot name dots now v = .error .noFreeSpace v ∧ (v.disk g).free = 0 := by
  have hempty := chains_of_none (g := g) hnone
  unfold Fat32.createDir
  rcases allocate_cases g v 2 with ⟨c, halloc, hc, hfree⟩ | ⟨halloc, hfull⟩
  · have hchanges : Changes v.cell (v.writeClus c END_OF_CHAIN).cell (clusters g) [] [c] := by
      refine (Runs.changes_concat (g := g) (l := []) ⟨chained_nil, fun a ha => absurd ha List.not_mem_nil⟩ hc hfree ?_ ?_ ?_)
      · rw [cell_write_end, Function.update_self]
      · exact fun a ha => absurd ha (Option.some_ne_none a).symm
      · intro a hne _
        rw [cell_write_end, Function.update_of_ne hne]
    have hcount := hchanges.freeCount chained_nil fun a ha => absurd ha List.not_mem_nil
    replace hcount : Chains.freeCount (v.writeClus c END_OF_CHAIN).cell (clusters g) + 1 = Chains.freeCount v.cell (clusters g) :=
      hcount
    rw [halloc]
    refine .inl ⟨_, rfl, ?_, ?_⟩
    · show Chains.freeCount v.cell (clusters g) ≠ 0
      omega
    · refine h.puts (some {
        name, directory := true, created := now, modified := now, lastAccessDate := now.date, firstCluster := c, size := 0 }) [c] _
        rfl ?_ ?_ (counted_decrement h.counted rfl hcount) h.idle (fun a _ hused => ?_) fun raw heq => ?_
      · rw [hempty]
        exact hchanges
      · exact first_head (l := [c]) fun a ha => by
          rw [List.mem_singleton.mp ha]
          exact hc
      · refine Function.update_of_ne ?_ _ _
        rintro rfl
        exact hused hfree
      · obtain rfl := Option.some.inj heq
        exact ⟨Nat.two_pow_pos 32, fun hfile => absurd hfile.symm Bool.false_ne_true⟩
  · rw [halloc]
    exact .inr ⟨rfl, hfull⟩

/-- Setting the times of an entry leaves what is stored, and what a handle is checked against. -/
theorem Handle.setTimes (hin : Handle g v slot raw entry) (h : Sound g lost v) (modified : Option FatDateTime)
    (accessedDate : Option Nat) :
    ∃ v', setTimes entry modified accessedDate v = .ok () v' ∧ Puts g lost v slot ((v.disk g).stored slot) v' ∧
      v'.chains g = v.chains g ∧ ∃ raw', v'.slots slot = some raw' ∧ raw'.id slot = raw.id slot ∧ raw'.directory = raw.directory ∧
        raw'.size = raw.size ∧ raw'.firstCluster = raw.firstCluster := by
  have hslot : entry.entrySlot = slot := congrArg EntryId.entrySlot hin.id
  unfold Fat32.setTimes
  by_cases hnothing : modified.isNone = true ∧ accessedDate.isNone = true
  · rw [if_pos hnothing]
    exact ⟨v, rfl, h.puts_self slot, rfl, raw, hin.stored, rfl, rfl, rfl, rfl⟩
  · rw [if_neg hnothing, hslot, hin.id, revalidate hin.stored]
    have hfirst : raw.first = (v.chains g (some slot)).head? := by
      unfold FatVolume.chains
      rw [head?_chainFrom]
      unfold FatVolume.first
      dsimp only
      rw [hin.stored]
      rfl
    have hruns := h.runs (some slot)
    obtain ⟨raw', heq, hid, hdirectory, hsize, hcluster, hfirst', hview⟩ : ∃ raw' : RawFileEntry, { raw with
        modified := modified.getD raw.modified, lastAccessDate := accessedDate.getD raw.lastAccessDate } = raw' ∧
        raw'.id slot = raw.id slot ∧ raw'.directory = raw.directory ∧ raw'.size = raw.size ∧
        raw'.firstCluster = raw.firstCluster ∧ raw'.first = raw.first ∧
        view g v (v.chains g (some slot)) raw' = view g v (v.chains g (some slot)) raw := ⟨_, rfl, rfl, rfl, rfl, rfl, rfl, rfl⟩
    dsimp only
    rw [heq]
    refine ⟨_, rfl, ?_, ?_, raw', Function.update_self .., hid, hdirectory, hsize, hcluster⟩
    · have hputs := h.puts (some raw') (v.chains g (some slot)) { v with slots := Function.update v.slots slot (some raw') } rfl
        (.refl hruns.chained hruns.inside) (hfirst'.trans hfirst) h.counted h.idle (fun _ _ _ => rfl) fun raw'' heq' => by
          obtain rfl := Option.some.inj heq'
          rw [hsize, hdirectory]
          exact h.sizes slot raw hin.stored
      refine (congrArg (fun new => Puts g lost v slot new _) ?_).mpr hputs
      unfold FatVolume.disk
      dsimp only
      rw [hin.stored]
      exact congrArg some hview.symm
    · have hchains : ({ v with slots := Function.update v.slots slot (some raw') } : FatVolume).chains g =
          Function.update (v.chains g) (some slot) (v.chains g (some slot)) :=
        h.chains_change rfl (.refl hruns.chained hruns.inside) (hfirst'.trans hfirst)
      rw [hchains, Function.update_eq_self]

end Ratputer.Fat32
