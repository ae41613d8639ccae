import Ratputer.Lemmas.Fat32Calls

/-!
# Reading along a chain

Where a reader stands in the chain of its file, and what it reads from there.
-/

namespace Ratputer.Fat32

open Chains

variable {g : Geometry} {v : FatVolume} {l : List Nat} {lost : Finset Nat} {slot : Slot} {raw : RawFileEntry} {entry : FileEntry}

/-- A reader on the file in a slot, at a place of it. -/
structure Reads (g : Geometry) (v : FatVolume) (slot : Slot) (raw : RawFileEntry) (pos : Nat) (r : FileReader) : Prop where
  id : r.toEntryId = raw.id slot
  first : r.firstCluster = raw.firstCluster
  size : r.size = raw.size
  position : r.position = pos
  place : pos < raw.size → (v.chains g (some slot))[r.clusterSteps]? = some r.cluster ∧
    pos = r.clusterSteps * g.clusterSize + r.offsetInCluster ∧ r.offsetInCluster ≤ g.clusterSize

/-- A reader that has read something can be resumed. -/
structure Rests (g : Geometry) (raw : RawFileEntry) (pos : Nat) (r : FileReader) : Prop where
  within : pos ≤ raw.size
  offset : r.offsetInCluster ≤ g.clusterSize
  cluster : FIRST_DATA_CLUSTER ≤ r.cluster

/-- The first octets of a content from a place on. -/
theorem drop_take_content {pos count size : Nat} (h : pos + count ≤ size) :
    ((content g v l size).drop pos).take count = (List.range count).map fun i => octet g v l (pos + i) := by
  refine List.ext_getElem? fun i => ?_
  rw [List.getElem?_take, List.getElem?_drop, List.getElem?_map]
  by_cases hi : i < count
  · rw [if_pos hi, content, List.getElem?_map, List.getElem?_range (by omega), List.getElem?_range hi]
    rfl
  · rw [if_neg hi, List.getElem?_eq_none (by simpa using hi)]
    rfl

/-- What is left of a cluster is what is next in the file. -/
theorem readData_eq {k c offset count : Nat} (hc : l[k]? = some c) (h : offset + count ≤ g.clusterSize) :
    v.readData c offset count = (List.range count).map fun i => octet g v l (k * g.clusterSize + offset + i) := by
  refine List.map_congr_left fun i hi => ?_
  have hlt : offset + i < g.clusterSize := by
    have hi' := List.mem_range.mp hi
    omega
  unfold octet
  rw [Nat.add_assoc, Nat.mul_comm, Nat.mul_add_div g.clusterSize_pos, Nat.div_eq_of_lt hlt, Nat.mul_add_mod, Nat.mod_eq_of_lt hlt,
    Nat.add_zero, List.getD_eq_getElem?_getD, hc]
  rfl

section

variable (h : Sound g lost v) (hraw : v.slots slot = some raw) (hfile : raw.directory = false)

include h hraw hfile

/-- A chunk is what is next in the file, and a reader that has something to read reads some of it. -/
theorem Reads.readOneChunk {pos count : Nat} {r : FileReader} (hr : Reads g v slot raw pos r) (hlt : pos < raw.size)
    (hcount : 0 < count) :
    ∃ n r', r.readOneChunk g v count = .ok (((content g v (v.chains g (some slot)) raw.size).drop pos).take n, r') ∧
      0 < n ∧ n ≤ count ∧ Reads g v slot raw (pos + n) r' ∧ Rests g raw (pos + n) r' := by
  have hcs := g.clusterSize_pos
  have hlen := (h.sizes slot raw hraw).2 hfile
  have hruns := h.runs (some slot)
  have hmax := hruns.length_le
  obtain ⟨hcluster, hpos, hoffset⟩ := hr.place hlt
  have hdata : ∀ {k c}, (v.chains g (some slot))[k]? = some c → FIRST_DATA_CLUSTER ≤ c := fun hc =>
    (lt_of_mem_clusters (hruns.inside _ (List.mem_of_getElem? hc))).1
  -- the reader of the cluster that the place is in
  obtain ⟨r₁, hroom, hid, hfirst, hsize, hposition, hcluster₁, hpos₁, hoffset₁⟩ : ∃ r₁ : FileReader,
      r.nextIfFull g v = .ok (r₁, true) ∧
      r₁.toEntryId = raw.id slot ∧ r₁.firstCluster = raw.firstCluster ∧ r₁.size = raw.size ∧ r₁.position = pos ∧
      (v.chains g (some slot))[r₁.clusterSteps]? = some r₁.cluster ∧
      pos = r₁.clusterSteps * g.clusterSize + r₁.offsetInCluster ∧ r₁.offsetInCluster < g.clusterSize := by
    unfold FileReader.nextIfFull
    by_cases hfull : g.clusterSize ≤ r.offsetInCluster
    · have hnext : r.clusterSteps + 1 < (v.chains g (some slot)).length := by
        rw [hlen]
        refine lt_clustersFor.mpr ?_
        rw [Nat.succ_mul]
        omega
      have hget := List.getElem?_eq_getElem hnext
      rw [if_pos hfull]
      refine ⟨{ r with
        clusterSteps := r.clusterSteps + 1, cluster := (v.chains g (some slot))[r.clusterSteps + 1], offsetInCluster := 0 },
        ?_, hr.id, hr.first, hr.size, hr.position, hget, ?_, hcs⟩
      · unfold FileReader.follow
        dsimp only
        rw [if_neg (by omega), hruns.nextCluster hcluster, hget]
        rfl
      · dsimp only
        rw [Nat.succ_mul]
        omega
    · rw [if_neg hfull]
      exact ⟨r, rfl, hr.id, hr.first, hr.size, hr.position, hcluster, hpos, Nat.lt_of_not_le hfull⟩
  obtain ⟨n, hn⟩ : ∃ n, n = min (min count (g.clusterSize - r₁.offsetInCluster)) (raw.size - pos) := ⟨_, rfl⟩
  refine ⟨n, { r₁ with offsetInCluster := r₁.offsetInCluster + n, position := r₁.position + n }, ?_, by omega, by omega,
    ⟨hid, hfirst, hsize, congrArg (· + n) hposition, fun _ => ⟨hcluster₁, ?_, ?_⟩⟩, ⟨by omega, ?_, hdata hcluster₁⟩⟩
  · rw [drop_take_content (by omega), hpos₁, ← readData_eq hcluster₁ (by omega)]
    unfold FileReader.readOneChunk
    rw [hr.size, hr.position, if_neg (by omega), if_neg (Nat.not_lt.mpr (hdata hcluster)), hroom, hn, ← hsize, ← hposition]
  all_goals
    dsimp only
    omega

/-- A read is the next octets of the file, as many as it asked for and as there are. -/
theorem Reads.readLoop (fuel : Nat) {pos count : Nat} {r : FileReader} (hr : Reads g v slot raw pos r) (hcount : pos + count ≤ raw.size)
    (hfuel : count ≤ fuel) :
    ∃ r', r.readLoop g v fuel count = .ok (((content g v (v.chains g (some slot)) raw.size).drop pos).take count, r') ∧
      Reads g v slot raw (pos + count) r' ∧ (0 < count ∨ Rests g raw pos r → Rests g raw (pos + count) r') := by
  induction fuel generalizing pos count r with
  | zero =>
    obtain rfl := Nat.le_zero.mp hfuel
    exact ⟨r, rfl, hr, fun hrests => hrests.resolve_left (Nat.lt_irrefl 0)⟩
  | succ fuel ih =>
    unfold FileReader.readLoop
    rcases Nat.eq_zero_or_pos count with rfl | hpos
    · exact ⟨r, rfl, hr, fun hrests => hrests.resolve_left (Nat.lt_irrefl 0)⟩
    · obtain ⟨n, r₁, hchunk, hn, hle, hr₁, hrests⟩ := hr.readOneChunk h hraw hfile (by omega) hpos
      have hlength : (((content g v (v.chains g (some slot)) raw.size).drop pos).take n).length = n := by
        rw [List.length_take, List.length_drop, length_content]
        have hwithin := hrests.within
        omega
      have hcount₂ : pos + n + (count - n) ≤ raw.size := by omega
      obtain ⟨r₂, hrest, hr₂, hrests₂⟩ := ih hr₁ hcount₂ (by omega)
      have hne : ((content g v (v.chains g (some slot)) raw.size).drop pos).take n ≠ [] := fun hnil => by
        rw [hnil, List.length_nil] at hlength
        omega
      have hlast := hrests₂ (.inr hrests)
      rw [Nat.add_assoc, Nat.add_sub_cancel' hle] at hr₂ hlast
      refine ⟨r₂, ?_, hr₂, fun _ => hlast⟩
      rw [if_neg (Nat.ne_of_gt hpos), hchunk]
      show (if _ then _ else _) = _
      rw [if_neg hne, hlength, hrest]
      show Except.ok _ = _
      rw [← List.drop_drop, ← List.take_add, Nat.add_sub_cancel' hle]

theorem Reads.read {pos : Nat} {r : FileReader} (hr : Reads g v slot raw pos r) (count : Nat) :
    ∃ r', r.read g v count = .ok (((content g v (v.chains g (some slot)) raw.size).drop pos).take count, r') ∧
      (((content g v (v.chains g (some slot)) raw.size).drop pos).take count ≠ [] →
        Reads g v slot raw (pos + (((content g v (v.chains g (some slot)) raw.size).drop pos).take count).length) r' ∧
        Rests g raw (pos + (((content g v (v.chains g (some slot)) raw.size).drop pos).take count).length) r') := by
  have hlength : (((content g v (v.chains g (some slot)) raw.size).drop pos).take count).length = min count (raw.size - pos) := by
    rw [List.length_take, List.length_drop, length_content]
  unfold FileReader.read
  rw [hr.size, hr.position]
  dsimp only
  by_cases hnone : min count (raw.size - pos) = 0
  · have hnil := List.length_eq_zero_iff.mp (hlength.trans hnone)
    rw [if_pos hnone, hnil]
    exact ⟨r, rfl, fun hne => absurd rfl hne⟩
  · have hmin : pos + min count (raw.size - pos) ≤ raw.size := by omega
    obtain ⟨r', hloop, hr', hrests⟩ := hr.readLoop h hraw hfile _ hmin le_rfl
    rw [if_neg hnone, hr.id, revalidate hraw, hlength]
    refine ⟨r', hloop.trans (congrArg (fun bytes => Except.ok (bytes, r')) ?_), fun _ => ?_⟩
    · rw [List.take_eq_take_iff, List.length_drop, length_content, Nat.min_assoc, Nat.min_self]
    · exact ⟨hr', hrests (.inl (Nat.pos_of_ne_zero hnone))⟩

end

/-! ## Opening -/

theorem Runs.seekHops (h : Runs g v l) {n i c last : Nat} (hi : l[i]? = some c) (hn : l[i + n]? = some last) :
    FileReader.seek.seekHops g v n c i = .ok (last, i + n) := by
  have hmax := h.length_le
  induction n generalizing i c with
  | zero =>
    rw [Nat.add_zero, hi] at hn
    cases hn
    rfl
  | succ n ih =>
    have hlt := (List.getElem?_eq_some_iff.mp hn).1
    have hnext : l[i + 1]? = some l[i + 1] := List.getElem?_eq_getElem (by omega)
    unfold FileReader.seek.seekHops
    rw [if_neg (by omega), h.nextCluster hi, hnext]
    rw [Nat.add_comm n 1, ← Nat.add_assoc] at hn ⊢
    exact ih hnext hn

section

variable (h : Sound g lost v) (hin : Handle g v slot raw entry) (hfile : raw.directory = false)

include h hin hfile

/-- A reader opened at an offset stands there. -/
theorem Handle.readerAt (offset : Nat) :
    ∃ r, (FileReader.new entry >>= fun reader => reader.seek g v offset) = .ok r ∧ Reads g v slot raw offset r := by
  have hnew : FileReader.new entry = .ok {
      toEntryId := raw.id slot, firstCluster := raw.firstCluster, cluster := raw.firstCluster, size := raw.size } := by
    unfold FileReader.new
    rw [hin.directory, hfile, if_neg (by decide), hin.id, hin.cluster, hin.size]
  rw [hnew]
  show ∃ r, FileReader.seek g _ v offset = .ok r ∧ _
  unfold FileReader.seek
  by_cases hend : raw.size ≤ offset
  · rw [if_pos (.inl hend)]
    exact ⟨_, rfl, rfl, rfl, rfl, rfl, fun hlt => absurd hlt (Nat.not_lt.mpr hend)⟩
  · have hlt := Nat.lt_of_not_le hend
    have hlen := hin.length h hfile
    have hcluster : offset / g.clusterSize < (v.chains g (some slot)).length := by
      rw [hlen]
      refine (Nat.div_lt_iff_lt_mul g.clusterSize_pos).mpr (hlt.trans_le ?_)
      exact clustersFor_le.mp le_rfl
    obtain ⟨first, hfirst⟩ : ∃ first, (v.chains g (some slot))[0]? = some first :=
      ⟨_, List.getElem?_eq_getElem (Nat.zero_lt_of_lt hcluster)⟩
    have hget := List.getElem?_eq_getElem hcluster
    have hdata := (lt_of_mem_clusters ((h.runs (some slot)).inside first (List.mem_of_getElem? hfirst))).1
    have hhead : raw.firstCluster = first := by
      rw [← hin.cluster]
      exact hin.cluster_of_head (by rw [List.head?_eq_getElem?, hfirst])
    have hhops := (h.runs (some slot)).seekHops hfirst (n := offset / g.clusterSize) (by rw [Nat.zero_add]; exact hget)
    rw [if_neg (by rintro (hle | hle) <;> dsimp only [FIRST_DATA_CLUSTER] at hle <;> omega)]
    dsimp only
    rw [if_neg (by omega), if_pos (by rw [Nat.zero_sub, Nat.zero_div]; exact Nat.zero_le _), hhead]
    dsimp only
    rw [Nat.zero_sub, Nat.zero_div, Nat.sub_zero, hhops]
    refine ⟨_, rfl, rfl, hhead.symm, rfl, rfl, fun _ => ⟨?_, ?_, ?_⟩⟩
    · dsimp only
      rw [Nat.zero_add]
      exact hget
    · dsimp only
      rw [Nat.zero_add, Nat.mul_comm]
      exact (Nat.div_add_mod _ _).symm
    · exact (Nat.mod_lt _ g.clusterSize_pos).le

omit h in
/-- A cursor opens the reader that it was taken from. -/
theorem Handle.readerFromCursor {pos : Nat} {cursor : ReadCursor} (hr : Reads g v slot raw pos cursor)
    (hrests : Rests g raw pos cursor) :
    FileReader.newFromCursor g entry cursor = .ok cursor := by
  unfold FileReader.newFromCursor
  rw [hin.directory, hfile, if_neg (by decide), if_pos]
  refine ⟨hin.cluster.trans hr.first.symm, hin.size.trans hr.size.symm, ?_, hrests.offset, .inr hrests.cluster, hin.id.trans hr.id.symm⟩
  rw [hr.position, hr.size]
  exact hrests.within

end

end Ratputer.Fat32
