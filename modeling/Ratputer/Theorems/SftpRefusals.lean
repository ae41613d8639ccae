import Ratputer.Lemmas.SftpVain
import Ratputer.Theorems.SftpProgress

/-!
# A refused request changes nothing, unless it is in vain

Whatever a request is, WRITE aside: when its reply is a status other than OK, what one sees of the volume and the handle table are
as before, as long as the calls that change the volume succeed. There are requests of which this is not true: the request at the
head of the input may be one that is refused after its first change, and a SETSTAT that grows its file may be stopped on the way.
Everywhere else it is true.
-/

namespace Ratputer

open Effect

variable {V X : Type} {F : Fat V}

namespace Sftp

/-- The request at the head of the input is refused after it has changed the volume. -/
def HeadInVain (s : Sftp F.watched) (mounted : Bool) (ctx : Ctx) : Prop :=
  mounted = true ∧ u32At s.input 0 ≤ MAX_REQUEST ∧ ∃ id body,
    Reader.u32 ((s.input.take (4 + u32At s.input 0)).drop 5) = some (id, body) ∧
    RequestInVain F s.server s.volume.1 ctx (kindOf s.input) body

section

variable (view : V → X) (entryAt : X → List Str → Str → Option F.Entry) (s : Sftp F.watched)

/-- A step that takes up a growing SETSTAT, and stops it when its file has become longer than it was in `s`. -/
def StopsInVain (u : Sftp F.watched) (mounted : Bool) (ctx : Ctx) : Prop :=
  u.server.fatal = false ∧ u.server.out = [] ∧ u.cardBudget = true ∧ ∃ job, u.server.resize = some job ∧
    job.Grown entryAt (view s.volume.1) (view u.volume.1) ∧ job.Stops F u.volume.1 mounted ctx

/-- The request at the head of the input is in vain, or a step among `es` stops the growth that it began. -/
def InVain (mounted : Bool) (ctx : Ctx) (es : List Event) : Prop :=
  s.HeadInVain mounted ctx ∨ ∃ before mounted' ctx' after, es = before ++ .step mounted' ctx' :: after ∧
    s.StopsInVain view entryAt (Mealy.final serve (s.step mounted ctx).1 before) mounted' ctx'

end

section

variable {view : V → X} {entryAt : X → List Str → Str → Option F.Entry} {s u : Sftp F.watched} {mounted : Bool} {ctx : Ctx}

namespace RefusalAux

/-- The step that takes up a request. -/
theorem settled_step (law : Sees F view entryAt) (hp : s.AtPacket) (hkind : kindOf s.input ≠ FXP_WRITE)
    (htaken : (s.step mounted ctx).2 = true) :
    Settled view entryAt s.toWorld (s.HeadInVain mounted ctx) (s.step mounted ctx).1.toWorld := by
  generalize hstep : s.step mounted ctx = r at htaken
  have hstepped := step_stepped s mounted ctx
  rw [hstep] at hstepped
  cases hstepped with
  | idle => cases htaken
  | malformed count _ => cases htaken
  | resize job _ _ h => cases hp.resize.symm.trans h
  | read stream _ _ _ h => cases hp.readStream.symm.trans h
  | payload stream _ _ _ _ _ _ _ _ h => cases hp.writeStream.symm.trans h
  | skip _ _ _ _ _ _ hpos => exact absurd hp.skip (Nat.ne_of_gt hpos)
  | write _ h => exact absurd h hkind
  | oversized _ _ _ hbig =>
    exact .fair (fun hvain => Nat.not_le.mpr hbig hvain.2.1) hp.resize fun _ => ⟨rfl, rfl⟩
  | request _ _ _ hle =>
    refine (settled_dispatch law ⟨hp.drained, hp.resize⟩ _ _ mounted ctx).congr ⟨?_, ?_⟩
    · exact fun ⟨hmounted, _, id, body, hid, hvain⟩ => ⟨hmounted, id, body, hid, hvain⟩
    · exact fun ⟨hmounted, id, body, hid, hvain⟩ => ⟨hmounted, hle, id, body, hid, hvain⟩

/-- An event while a SETSTAT grows its file. -/
theorem settled_serve (law : Sees F view entryAt) {job : ResizeJob F.watched} (hresize : u.server.resize = some job)
    (hout : u.server.out = []) (h : Pending view entryAt s.toWorld u.toWorld job) (e : Event) :
    Settled view entryAt s.toWorld (∃ mounted ctx, e = .step mounted ctx ∧ s.StopsInVain view entryAt u mounted ctx)
      (u.serve e).1.toWorld := by
  cases e with
  | feed bytes =>
    refine .growing ?_ job hresize hout h
    rintro ⟨_, _, heq, _⟩
    cases heq
  | consume count =>
    refine .growing ?_ job hresize ?_ ⟨h.valid, h.size, h.file⟩
    · rintro ⟨_, _, heq, _⟩
      cases heq
    · show u.server.out.drop _ = []
      rw [hout, List.drop_nil]
  | beginPoll =>
    refine .growing ?_ job hresize hout h
    rintro ⟨_, _, heq, _⟩
    cases heq
  | step mounted ctx =>
    have hwaits (hidle : ¬s.StopsInVain view entryAt u mounted ctx) : Settled view entryAt s.toWorld
        (∃ mounted' ctx', Event.step mounted ctx = .step mounted' ctx' ∧ s.StopsInVain view entryAt u mounted' ctx') u.toWorld := by
      refine .growing ?_ job hresize hout h
      rintro ⟨_, _, heq, hstops⟩
      cases heq
      exact hidle hstops
    show Settled view entryAt s.toWorld _ (u.step mounted ctx).1.toWorld
    unfold step
    split
    · rename_i hfatal
      exact hwaits fun hstops => by cases hfatal.symm.trans hstops.1
    rename_i hlive
    split
    · exact hwaits fun hstops => absurd hout ‹_›
    rw [hresize, Option.isSome_some, if_pos rfl]
    split
    · rename_i hspent
      refine hwaits fun hstops => ?_
      rw [hstops.2.2.1] at hspent
      cases hspent
    · rename_i hbudget
      rw [Bool.not_eq_true, Bool.not_eq_false'] at hbudget
      refine (settled_continueResize law hresize hout h mounted ctx).congr ⟨?_, ?_⟩
      · rintro ⟨_, _, heq, _, _, _, job', hresize', hgrown, hstops⟩
        cases heq
        cases hresize.symm.trans hresize'
        exact ⟨hgrown, hstops⟩
      · exact fun ⟨hgrown, hstops⟩ => ⟨mounted, ctx, rfl, Bool.eq_false_of_not_eq_true hlive, hout, hbudget, job, hresize, hgrown,
        hstops⟩

/-- The events until a growing SETSTAT is answered. -/
theorem settled_run (law : Sees F view entryAt) {es : List Event} {vain : Prop}
    (hrun : Mealy.Along serve (fun u _ => u.server.resize.isSome = true ∧ u.volume.2 = false) u es)
    (h : Settled view entryAt s.toWorld vain u.toWorld) :
    Settled view entryAt s.toWorld (vain ∨ ∃ before mounted ctx after, es = before ++ .step mounted ctx :: after ∧
      s.StopsInVain view entryAt (Mealy.final serve u before) mounted ctx) (Mealy.final serve u es).toWorld := by
  induction es generalizing u vain with
  | nil =>
    refine h.congr ⟨?_, .inl⟩
    rintro (hvain | ⟨before, _, _, after, heq, _⟩)
    · exact hvain
    · exact absurd heq.symm (by simp)
  | cons e es ih =>
    obtain ⟨⟨hgrows, hsucceeds⟩, hrest⟩ := hrun
    cases h with
    | failed h => exact absurd (h.symm.trans hsucceeds) (by decide)
    | fair _ hresize => rw [hresize] at hgrows; cases hgrows
    | unfair _ hresize => rw [hresize] at hgrows; cases hgrows
    | growing hvain job hresize hout h =>
      refine (ih hrest (settled_serve law hresize hout h e)).congr ⟨?_, ?_⟩
      · rintro (hvain' | ⟨before, mounted, ctx, after, heq, hstops⟩)
        · exact absurd hvain' hvain
        cases before with
        | nil =>
          injection heq with he hes
          exact .inl ⟨mounted, ctx, he, hstops⟩
        | cons b before =>
          injection heq with he hes
          subst he
          exact .inr ⟨before, mounted, ctx, after, hes, hstops⟩
      · rintro (⟨mounted, ctx, rfl, hstops⟩ | ⟨before, mounted, ctx, after, rfl, hstops⟩)
        · exact .inr ⟨[], mounted, ctx, es, rfl, hstops⟩
        · exact .inr ⟨e :: before, mounted, ctx, after, rfl, hstops⟩

end RefusalAux

/-- A request other than WRITE that is taken up, and while a SETSTAT grows its file the events `es` after it. When no call that
changes the volume has failed, a reply that is a status other than OK means that what one sees of the volume and the handle table
are as they were, exactly when the request is not in vain. -/
theorem refused_changes_nothing_iff (law : Sees F view entryAt) (hp : s.AtPacket) (hkind : kindOf s.input ≠ FXP_WRITE)
    (htaken : (s.step mounted ctx).2 = true) {es : List Event}
    (hgrows : Mealy.Along serve (fun u _ => u.server.resize.isSome = true ∧ u.volume.2 = false) (s.step mounted ctx).1 es)
    (hsucceeded : (Mealy.final serve (s.step mounted ctx).1 es).volume.2 = false) :
    let t := Mealy.final serve (s.step mounted ctx).1 es
    (Refusal t.output → view t.volume.1 = view s.volume.1 ∧ t.server.table = s.server.table) ↔
      ¬s.InVain view entryAt mounted ctx es :=
  (RefusalAux.settled_run law hgrows (RefusalAux.settled_step law hp hkind htaken)).iff hsucceeded

end

/-- The entry that a path of the volume in memory names. -/
def ramEntryAt (v : Ram.Volume) (parent : List Str) (leaf : Str) : Option (FileEntry Nat) :=
  if parent = [] then (v.find leaf).map Ram.Record.entry else none

/-- The driver in memory with the names and the lengths of the real one: a name that does not read back is not found, and a file is
not cut to more than it holds. -/
def readingBack : Fat Ram.Volume :=
  { Ram.fat with
    find := fun _ name => do
      let v ← get
      return if readsBack name then (v.find name).map Ram.Record.entry else none
    truncate := fun entry size => if size < entry.len then Ram.truncate entry size else pure () }

/-- The entry that a path names for this driver. -/
def readEntryAt (v : Ram.Volume) (parent : List Str) (leaf : Str) : Option (FileEntry Nat) :=
  if readsBack leaf then ramEntryAt v parent leaf else none

namespace RefusalAux

/-- A call that hands back a value, or an error, and the volume as it was. -/
theorem leaves_of_same {α : Type} {op : FatM Ram.Volume α} (h : ∀ v, Ends op v (fun _ v' => v' = v) fun _ v' => v' = v) :
    Leaves (fun v : Ram.Volume => v) op := fun v => (h v).mono (fun _ _ h => ⟨h, trivial⟩) fun _ _ h => ⟨h, trivial⟩

/-- A change of records that keeps their names keeps what paths name. -/
theorem is_some_change {v : Ram.Volume} {id : Nat} {f : Ram.Record → Ram.Record} (hname : ∀ r, (f r).name = r.name) (parent : List Str)
    (leaf : Str) : (readEntryAt (v.change id f) parent leaf).isSome = (readEntryAt v parent leaf).isSome := by
  unfold readEntryAt ramEntryAt
  rw [v.find_change hname]
  split
  · split
    · rw [Option.isSome_map, Option.isSome_map, Option.isSome_map]
    · rfl
  · rfl

/-- A path that names an entry names a file of the root directory. -/
theorem readEntryAt_eq {v : Ram.Volume} {parent : List Str} {leaf : Str} {entry : FileEntry Nat}
    (h : readEntryAt v parent leaf = some entry) :
    parent = [] ∧ readsBack leaf = true ∧ ∃ r, v.find leaf = some r ∧ r.entry = entry := by
  unfold readEntryAt ramEntryAt at h
  split at h
  · rename_i hreads
    split at h
    · rename_i hroot
      exact ⟨hroot, hreads, Option.map_eq_some_iff.mp h⟩
    · cases h
  · cases h

theorem readEntryAt_of {v : Ram.Volume} {leaf : Str} {r : Ram.Record} (hreads : readsBack leaf = true) (h : v.find leaf = some r) :
    readEntryAt v [] leaf = some r.entry := by
  rw [readEntryAt, if_pos hreads, ramEntryAt, if_pos rfl, h]
  rfl

/-- A file is there once it is created, under a name that reads back. -/
theorem created_ram {v v' : Ram.Volume} {leaf : Str} (h : Ram.createFile leaf v = .ok () v') :
    v' ≠ v ∧ (readEntryAt v' [] leaf).isSome = readsBack leaf := by
  unfold Ram.createFile at h
  split at h
  · rename_i hlength
    split at h
    · cases h
    rename_i hnone
    injection h with _ hv
    refine ⟨fun heq => ?_, ?_⟩
    · have hlengths := congrArg (fun v : Ram.Volume => v.files.length) (hv.trans heq)
      simp at hlengths
    · have hmatch : eqIgnoreAsciiCase leaf leaf = true := by simp [eqIgnoreAsciiCase]
      rw [Bool.not_eq_true, Option.isSome_eq_false_iff, Option.isNone_iff_eq_none, Ram.Volume.find] at hnone
      rw [← hv, readEntryAt, ramEntryAt, if_pos rfl, Ram.Volume.find, List.find?_append, hnone, Option.none_or,
        List.find?_singleton, if_pos hmatch]
      cases readsBack leaf <;> rfl
  · cases h

/-- A write at the end makes the file longer, and leaves its attributes alone. -/
theorem appended_ram {v v' : Ram.Volume} {leaf : Str} {r : Ram.Record} {place place' : Ram.Place} {data : List UInt8} {count : Nat}
    (hfind : v.find leaf = some r) (hid : place.id = r.id) (h : Ram.write place data v = .ok (count, place') v') :
    ∃ r', v'.find leaf = some r' ∧ place.offset + data.length ≤ r'.content.1.length ∧ r'.attributes = r.attributes := by
  unfold Ram.write at h
  split at h
  · cases h
  rename_i found _
  dsimp only at h
  split at h
  · rename_i hfits
    injection h with _ hv
    rw [← hv, v.find_change fun r => r.name_withContent _, hfind]
    refine ⟨_, rfl, ?_⟩
    dsimp only
    rw [if_pos hid.symm, Ram.Record.withContent, dif_pos hfits]
    refine ⟨?_, rfl⟩
    simp only [Ram.splice, List.length_append, List.length_replicate, List.length_take, List.length_drop]
    omega
  · cases h

/-- All of the volume in memory is seen. -/
theorem sees_ram : Sees readingBack (fun v : Ram.Volume => v) readEntryAt where
  openDir _ _ := leaves_of_same fun _ => rfl
  find _ _ := leaves_of_same fun _ => rfl
  entries _ := leaves_of_same fun _ => rfl
  found := by
    intro parent leaf v entry v' h
    cases parent with
    | nil =>
      injection h with h _
      rw [← h]
      rfl
    | cons component rest => cases h
  created := by
    intro parent leaf dir v₀ v₁ v v' hdir _ h
    have hroot : parent = [] := by
      cases parent with
      | nil => rfl
      | cons component rest => cases hdir
    rcases h with h | h
    · rw [hroot]
      exact created_ram h
    · cases h
  cut := by
    intro parent leaf entry size v v' hentry h
    obtain ⟨rfl, hreads, r, hfind, rfl⟩ := readEntryAt_eq hentry
    split
    · rename_i hshort
      have hrun : Ram.truncate r.entry size v = .ok () v' := by
        have hif : (if size < r.entry.len then Ram.truncate r.entry size else pure ()) v = .ok () v' := h
        rwa [if_pos hshort] at hif
      injection hrun with _ hv
      have hfits : (r.content.1.take size).length < 2 ^ 32 := lt_of_le_of_lt (List.length_take_le _ _) (lt_trans hshort r.content.2)
      refine ⟨_, readEntryAt_of hreads (r := r.withContent (r.content.1.take size)) ?_, ?_⟩
      · rw [← hv, v.find_change fun r => r.name_withContent _, hfind, Option.map_some]
        exact congrArg some (if_pos rfl)
      · rw [Ram.Record.withContent, dif_pos hfits]
        exact List.length_take_of_le (Nat.le_of_lt hshort)
    · rename_i hlong
      have hif : (if size < r.entry.len then Ram.truncate r.entry size else pure ()) v = .ok () v' := h
      rw [if_neg hlong] at hif
      injection hif with _ hv
      exact hv.symm
  setTimes := by
    intro entry modified accessed v v' h parent leaf
    injection h with _ hv
    rw [← hv]
    exact is_some_change (f := fun r => { r with modified, accessedDate := accessed }) (fun _ => rfl) parent leaf
  setAttributes := by
    intro entry attributes v v' h parent leaf
    injection h with _ hv
    rw [← hv]
    exact is_some_change (f := fun r => { r with attributes }) (fun _ => rfl) parent leaf
  appended := by
    intro parent leaf entry append data writer writer' v v₁ v₂ v₃ hentry hopens hwrite hfinish
    obtain ⟨rfl, hreads, r, hfind, rfl⟩ := readEntryAt_eq hentry
    have hopens : ChunkAux.Opens (F := Ram.fat) r.entry r.entry.len append v writer v₁ := by
      unfold ChunkAux.Opens at hopens ⊢
      cases append with
      | none => exact hopens
      | some cursor => exact hopens
    obtain ⟨hv, hid, hoffset⟩ := ProgressAux.ram_opens hopens
    rw [hv] at hwrite
    injection hfinish with _ hv₃
    obtain ⟨r', hfind', hlonger, hattributes⟩ := appended_ram hfind hid hwrite
    rw [hoffset] at hlonger
    refine ⟨r'.entry, ?_, hlonger, ?_⟩
    · rw [← hv₃]
      exact readEntryAt_of hreads hfind'
    · unfold FileEntry.readOnly
      rw [show r'.entry.attributes = r.entry.attributes from hattributes]

end RefusalAux

theorem length_seven_lt : ([7] : List UInt8).length < 2 ^ 32 := by decide

/-- A volume with a file `a` of one byte. -/
def oneByteFile : Ram.Volume :=
  { files := [{ id := 0, name := ⟨"a".toList, Ram.length_a_le⟩, content := ⟨[7], length_seven_lt⟩ }], nextId := 1 }

/-- Before the SETSTAT that is to make `/a` longer. -/
def beforeGrow : Sftp readingBack.watched := Mealy.final serve (new (oneByteFile, false)) [.feed growRequest, .beginPoll]

namespace RefusalAux

/-- The SETSTAT that is to make `/a` longer does not cut it. -/
theorem grow_cuts_nothing : ¬beforeGrow.HeadInVain true {} := by
  rintro ⟨-, -, id, body, hid, hvain⟩
  have hkind : kindOf beforeGrow.input = FXP_SETSTAT := by decide +kernel
  rw [hkind] at hvain
  cases hvain with
  | opens h => cases h
  | makes h => cases h
  | handleCuts h => cases h
  | cuts _ path attrs rest hbody h =>
    obtain ⟨leaf, parent, size, entry, v₁, _, _, hpath, hsize, hfind, _, _, hcut, _⟩ := h
    have hid' : Reader.u32 ((growRequest.take 27).drop 5) = some (7, growRequest.drop 9) := by decide +kernel
    cases hid'.symm.trans hid
    have hbody' : setstatBody (growRequest.drop 9) =
        some ((['/', 'a'], { size := some 20000, owner := false, permissions := none, times := none }), []) := by decide +kernel
    cases hbody'.symm.trans hbody
    have hpath' : resolve [] ['/', 'a'] = [] ++ [['a']] := by decide
    obtain ⟨rfl, rfl⟩ := append_leaf_inj (hpath'.symm.trans hpath)
    cases hsize
    have hlen : (some entry).map FileEntry.len = some 1 := by
      rw [sees_ram.found _ _ _ _ _ hfind]
      decide +kernel
    injection hlen with hlen
    rw [hlen] at hcut
    exact absurd hcut (by decide)

/-- The card goes before `/a` has become any longer. -/
theorem grow_not_in_vain : ¬beforeGrow.InVain (fun v => v) readEntryAt true {} [.beginPoll, .step false {}] := by
  have hstill : (Mealy.final serve (beforeGrow.step true {}).1 [.beginPoll]).volume.1 = oneByteFile := rfl
  rintro (hvain | ⟨before, mounted, ctx, after, heq, _, _, _, job, _, hgrown, _⟩)
  · exact grow_cuts_nothing hvain
  cases before with
  | nil =>
    injection heq with he
    cases he
  | cons b before =>
    injection heq with hb heq
    cases before with
    | nil =>
      rw [← hb] at hgrown
      exact hgrown.ne hstill
    | cons b' before =>
      injection heq with _ heq
      exact absurd (congrArg List.length heq) (by simp)

end RefusalAux

/-- The card goes before a SETSTAT has made `/a` any longer. -/
theorem refused_changes_nothing_unmounted :
    let t := Mealy.final serve (beforeGrow.step true {}).1 [.beginPoll, .step false {}]
    Refusal t.output ∧ t.volume.1 = beforeGrow.volume.1 ∧ t.server.table = beforeGrow.server.table := by
  intro t
  have hrefusal : Refusal t.output := by decide +kernel
  exact ⟨hrefusal, (refused_changes_nothing_iff RefusalAux.sees_ram ⟨rfl, rfl, rfl, rfl, rfl, rfl⟩ (by decide +kernel)
    (by decide +kernel) (by decide +kernel) (by decide +kernel)).mpr RefusalAux.grow_not_in_vain hrefusal⟩

/-- OPEN of `/a`. -/
def openA (flags : UInt8) : List UInt8 := [0, 0, 0, 19, 3, 0, 0, 0, 2, 0, 0, 0, 2, 47, 97, 0, 0, 0, flags, 0, 0, 0, 0]

/-- OPENDIR of the root, and its reply is taken. -/
def opendirRoot : List Event :=
  [.feed [0, 0, 0, 10, 11, 0, 0, 0, 1, 0, 0, 0, 1, 47], .beginPoll, .step true {}, .consume 17]

/-- With every slot taken an OPEN that truncates is answered with an error, and the file is empty. -/
theorem open_in_vain_empties :
    ¬∀ (es : List Event) (mounted : Bool) (ctx : Ctx),
      let s := Mealy.final serve (new (F := readingBack.watched) (oneByteFile, false)) es
      let t := (s.step mounted ctx).1
      s.AtPacket → s.volume.2 = false → kindOf s.input ≠ FXP_WRITE → t.volume.2 = false → Refusal t.output →
        t.volume.1 = s.volume.1 ∧ t.server.table = s.server.table := by
  intro h
  have hsame := h ((List.replicate MAX_HANDLES opendirRoot).flatten ++ [.feed (openA 0x12), .beginPoll]) true {}
    ⟨by decide +kernel, by decide +kernel, by decide +kernel, by decide +kernel, by decide +kernel, by decide +kernel⟩
    (by decide +kernel) (by decide +kernel) (by decide +kernel) (by decide +kernel)
  have hcontents := congrArg (fun v : Ram.Volume => v.files.map (·.content.1)) hsame.1
  revert hcontents
  decide +kernel

/-- OPEN of a name that does not read back: it is refused, and the file is there. -/
example :
    let openLast := [0, 0, 0, 21, 3, 0, 0, 0, 2, 0, 0, 0, 4, 47, 0xEF, 0xBF, 0xBF, 0, 0, 0, 0x0A, 0, 0, 0, 0]
    let s := Mealy.final serve (new (F := readingBack.watched) (oneByteFile, false)) [.feed openLast, .beginPoll]
    let t := (s.step true {}).1
    Refusal t.output ∧ t.volume.1.files.length = 2 := by decide +kernel

end Sftp

end Ratputer
