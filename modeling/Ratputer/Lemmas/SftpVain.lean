import Ratputer.Lemmas.SftpRefusals

/-!
# Requests in vain

The four requests that can be refused after they have changed the volume, each with the exact condition on which they are. OPEN
looks for a free slot last of all, and OPEN, MKDIR and SETSTAT search for their entry once more after the first change.
-/

namespace Ratputer

open Effect Octets

variable {V X : Type} {F : Fat V} {view : V → X} {entryAt : X → List Str → Str → Option F.Entry}

/-! ## Metadata -/

/-- A check that passed. -/
theorem except_guard_ok {β : Type} {c : Prop} [Decidable c] {status : Status} {f : PUnit → Except Status β} {b : β}
    (h : (if c then throw status >>= f else f ()) = .ok b) : ¬c ∧ f () = .ok b := by
  split at h
  · cases h
  · exact ⟨‹_›, h⟩

/-- The times that a request sets are in FAT's range, by the clock's settings. -/
def TimesFit (attrs : RequestedAttrs) (clock : ClockConfig) : Prop :=
  ∀ atime mtime, attrs.times = some (atime, mtime) →
    (∃ accessed, fatTime atime clock = .ok accessed) ∧ ∃ modified, fatTime mtime clock = .ok modified

/-- Metadata that was validated fits. -/
theorem validateAttrs_ok {attrs : RequestedAttrs} {clock : ClockConfig} (h : validateAttrs attrs clock = .ok ()) :
    (∀ size, attrs.size = some size → size ≤ U32_MAX) ∧ TimesFit attrs clock := by
  have hfits (hsize : ¬attrs.size.any (U32_MAX < ·) = true) : ∀ size, attrs.size = some size → size ≤ U32_MAX := by
    intro size hsome
    rw [hsome] at hsize
    simpa using hsize
  unfold validateAttrs at h
  split at h
  · rename_i atime mtime htimes
    obtain ⟨_, h⟩ := except_guard_ok h
    obtain ⟨hsize, h⟩ := except_guard_ok h
    refine ⟨hfits hsize, fun atime' mtime' htimes' => ?_⟩
    rw [htimes] at htimes'
    injection htimes' with htimes'
    injection htimes' with hatime hmtime
    rw [← hatime, ← hmtime]
    dsimp only at h
    cases ha : fatTime atime clock with
    | error status => rw [ha] at h; cases h
    | ok accessed =>
      cases hm : fatTime mtime clock with
      | error status => rw [ha, hm] at h; cases h
      | ok modified => exact ⟨⟨_, rfl⟩, _, rfl⟩
  · rename_i htimes
    obtain ⟨_, h⟩ := except_guard_ok h
    obtain ⟨hsize, _⟩ := except_guard_ok h
    refine ⟨hfits hsize, fun _ _ hsome => ?_⟩
    rw [htimes] at hsome
    cases hsome

/-- A time out of range is answered with an error. -/
theorem fatTime_bad {unix : Nat} {clock : ClockConfig} {status : Status} (h : fatTime unix clock = .error status) : status.Bad := by
  unfold fatTime at h
  dsimp only at h
  split at h
  · cases h
  · injection h with h
    rw [← h]
    decide

/-- Metadata that fits is refused by the driver only, and keeps what is there. -/
theorem ends_applyMetadata (law : Sees F view entryAt) {w : World F.watched} {entry : F.watched.Entry} {attrs : RequestedAttrs}
    {clock : ClockConfig} (h : TimesFit attrs clock) : Ends (applyMetadata entry attrs clock) w
      (fun _ w' => w'.Failed ∨ w'.server = w.server ∧ w'.volume.2 = w.volume.2 ∧ ∀ parent leaf,
        (entryAt (view w'.volume.1) parent leaf).isSome = (entryAt (view w.volume.1) parent leaf).isSome)
      fun _ w' => w'.Failed := by
  have htimes : Ends (applyTimes entry attrs clock) w
      (fun _ w' => w'.Failed ∨ w'.server = w.server ∧ w'.volume.2 = w.volume.2 ∧ ∀ parent leaf,
        (entryAt (view w'.volume.1) parent leaf).isSome = (entryAt (view w.volume.1) parent leaf).isSome)
      fun _ w' => w'.Failed := by
    unfold applyTimes
    split
    · rename_i atime mtime hsome
      obtain ⟨⟨accessed, ha⟩, modified, hm⟩ := h _ _ hsome
      rw [ha, hm]
      refine ends_bind (show Ends (check (.ok modified)) w _ _ from ends_bind (show Ends (check (.ok accessed)) w _ _ from ?_))
      exact (ends_change_or _ _ _).mono (fun _ _ h => h.imp id fun h => ⟨h.1, h.2.1, law.setTimes _ _ _ _ _ h.2.2⟩) fun _ _ h => h
    · exact ends_pure (.inr ⟨rfl, rfl, fun _ _ => rfl⟩)
  refine ends_bind (htimes.mono ?_ fun _ _ h => h)
  intro _ w₁ h₁
  unfold applyPermissions
  split
  · refine (ends_change_or _ _ _).mono ?_ fun _ _ h => h
    rintro _ w₂ (hfailed | ⟨hserver, hwatch, hrun⟩)
    · exact .inl hfailed
    rcases h₁ with hfailed | ⟨hserver₁, hwatch₁, hsome₁⟩
    · exact .inl (hwatch.trans hfailed)
    refine .inr ⟨hserver.trans hserver₁, hwatch.trans hwatch₁, fun parent leaf => ?_⟩
    rw [law.setAttributes _ _ _ _ hrun parent leaf]
    exact hsome₁ parent leaf
  · exact ends_pure h₁

/-- Times outside the range are refused before anything is set. -/
theorem applyMetadata_refused {w : World F.watched} (entry : F.watched.Entry) {attrs : RequestedAttrs} {clock : ClockConfig}
    (h : ¬TimesFit attrs clock) : ∃ status, status.Bad ∧ applyMetadata entry attrs clock w = .error status w := by
  unfold applyMetadata applyTimes
  cases htimes : attrs.times with
  | none => exact absurd (fun _ _ hsome => by rw [htimes] at hsome; cases hsome) h
  | some times =>
    obtain ⟨atime, mtime⟩ := times
    dsimp only
    cases hm : fatTime mtime clock with
    | error status => exact ⟨status, fatTime_bad hm, rfl⟩
    | ok modified =>
      cases ha : fatTime atime clock with
      | error status => exact ⟨status, fatTime_bad ha, rfl⟩
      | ok accessed =>
        refine absurd (fun atime' mtime' hsome => ?_) h
        rw [htimes] at hsome
        injection hsome with hsome
        injection hsome with ha' hm'
        rw [← ha', ← hm']
        exact ⟨⟨accessed, ha⟩, modified, hm⟩

/-! ## Requests and their paths -/

/-- The fields of a request, or the status for a bad message. -/
theorem ends_parse {α : Type} {reader : ReaderM α} {body : List UInt8} {w : World F.watched}
    {Q : α × List UInt8 → World F.watched → Prop} {E : Status → World F.watched → Prop}
    (hok : ∀ r, reader body = some r → Q r w) (herror : reader body = none → E .badMessage w) : Ends (parse reader body) w Q E := by
  unfold parse
  cases hread : reader body with
  | some r => exact hok r hread
  | none => exact herror hread

/-- The path of a request, taken apart. -/
theorem ends_split {components : List Str} {status : Status} {w : World F.watched} {Q : Str × List Str → World F.watched → Prop}
    {E : Status → World F.watched → Prop} (hok : ∀ leaf parent, components = parent ++ [leaf] → Q (leaf, parent) w)
    (herror : ∀ status, (∀ leaf parent, components ≠ parent ++ [leaf]) → E status w) :
    Ends (check (splitLast components status)) w Q E := by
  refine ends_check (fun r h => ?_) fun _ h => herror _ fun leaf parent hpath => ?_
  · exact hok r.1 r.2 (splitLast_eq h)
  · rw [hpath, ChunkAux.splitLast_append] at h
    cases h

/-- Paths with a last component are equal part by part. -/
theorem append_leaf_inj {parent parent' : List Str} {leaf leaf' : Str} (h : parent ++ [leaf] = parent' ++ [leaf']) :
    parent = parent' ∧ leaf = leaf' := by
  obtain ⟨hparent, hleaf⟩ := List.append_inj' h rfl
  exact ⟨hparent, (List.cons.inj hleaf).1⟩

/-- A handler, or the rest of one, has its verdict, where `vain` is the condition on which it is refused after a change. -/
def Judged (view : V → X) (entryAt : X → List Str → Str → Option F.Entry) (w : World F.watched) (vain : Prop)
    (m : SftpM F.watched Unit) : Prop :=
  Ends m w (fun _ w' => Settled view entryAt w vain w') fun status w' => Rejected view w vain status w'

/-- A fair handler is judged so under any condition that is not met. -/
theorem Fair.judged {w : World F.watched} {m : SftpM F.watched Unit} {vain : Prop} (h : Fair view entryAt w m) (hvain : ¬vain) :
    Judged view entryAt w vain m := (h w (refl_of _ w)).mono (fun _ _ h => h.of_not hvain) fun _ _ h => h.of_not hvain

/-- The condition of a verdict may be put in other words. -/
theorem Judged.congr {w : World F.watched} {m : SftpM F.watched Unit} {vain vain' : Prop} (h : Judged view entryAt w vain m)
    (hiff : vain' ↔ vain) : Judged view entryAt w vain' m := propext hiff ▸ h

/-! ## Searches that can fail -/

/-- What a search that has found something says about the next one from there. -/
theorem not_search_fails {parent : List Str} {leaf : Str} {v v' : V} {r : Option F.Entry} (h : F.findIn parent leaf v = .ok r v') :
    ¬F.SearchFails parent leaf v := by
  rintro ⟨e, v'', herror⟩
  cases h.symm.trans herror

/-- What is found in the directory of a path is found at the path. -/
theorem findIn_eq {parent : List Str} {leaf : Str} {dir : F.Dir} {v v₁ : V} (hdir : F.openDirPath parent v = .ok dir v₁) :
    F.findIn parent leaf v = F.find dir leaf v₁ := by
  show (F.openDirPath parent >>= fun dir => F.find dir leaf) v = _
  rw [bind_of_ok hdir]

/-! ## OPEN -/

/-- Opening with these flags empties the file that is there, or creates one. -/
def changesTarget {Identity : Type} (flags : Nat) : Option (FileEntry Identity) → Bool
  | some entry => !entry.isDirectory && !(hasFlag flags FXF_CREAT && hasFlag flags FXF_EXCL) &&
      !(hasFlag flags FXF_WRITE && entry.readOnly) && (hasFlag flags FXF_WRITE && hasFlag flags FXF_TRUNC)
  | none => hasFlag flags FXF_WRITE && hasFlag flags FXF_CREAT

/-- OPEN truncates a file that no check keeps it from. -/
theorem changesTarget_some {Identity : Type} {flags : Nat} {entry : FileEntry Identity} (hdirectory : entry.isDirectory = false)
    (hexists : (hasFlag flags FXF_CREAT && hasFlag flags FXF_EXCL) = false)
    (hreadonly : (hasFlag flags FXF_WRITE && entry.readOnly) = false)
    (htruncates : (hasFlag flags FXF_WRITE && hasFlag flags FXF_TRUNC) = true) : changesTarget flags (some entry) = true := by
  rw [changesTarget, hdirectory, hexists, hreadonly, htruncates]
  rfl

/-- The fields of an OPEN. -/
def openRequest : ReaderM (Str × Nat × RequestedAttrs) := do
  let path ← Reader.path
  let flags ← Reader.u32
  let attrs ← Reader.attrs
  return (path, flags, attrs)

/-- OPEN empties or creates its file in vain: no slot is free for the handle, or what was created is not found again. To empty a file
that is empty loses the cursors on it at most. -/
inductive TargetInVain (F : Fat V) (s : Server F.watched) (parent : List Str) (leaf : Str) (flags : Nat) (v : V) : Prop
  | emptied (entry : F.Entry) (v' : V) (hfind : F.findIn parent leaf v = .ok (some entry) v')
      (hchanges : changesTarget flags (some entry) = true) (hfull : s.freeSlot = none)
      (hloses : 0 < entry.len ∨ (s.invalidateFile parent leaf).table ≠ s.table)
  | created (dir : F.Dir) (v₁ v₂ v₃ : V) (hdir : F.openDirPath parent v = .ok dir v₁) (hfind : F.find dir leaf v₁ = .ok none v₂)
      (hchanges : changesTarget flags (none : Option F.Entry) = true) (hcreate : F.createFile dir leaf v₂ = .ok () v₃)
      (hlost : s.freeSlot = none ∨ readsBack leaf = false ∨ F.SearchFails parent leaf v₃)

/-- An OPEN that passes its checks and is in vain. -/
def OpensInVain (F : Fat V) (s : Server F.watched) (v : V) (body : List UInt8) (ctx : Ctx) : Prop :=
  ∃ path flags attrs rest leaf parent, openRequest body = some ((path, flags, attrs), rest) ∧
    validateAttrs attrs ctx.clock = .ok () ∧ resolve [] path = parent ++ [leaf] ∧ TargetInVain F s parent leaf flags v

section

variable {s : Server F.watched} {parent : List Str} {leaf : Str} {flags : Nat} {v v' v₁ v₂ : V}

/-- A search that fails keeps OPEN from changing anything. -/
theorem not_target_of_error {e : FatError} (h : F.findIn parent leaf v = .error e v') : ¬TargetInVain F s parent leaf flags v := by
  intro hvain
  cases hvain with
  | emptied entry v'' hfind => cases h.symm.trans hfind
  | created dir v₁ v₂ v₃ hdir hfind => cases h.symm.trans ((findIn_eq hdir).trans hfind)

/-- What it is to be in vain for an OPEN that finds its file. -/
theorem target_in_vain_some {entry : F.Entry} (h : F.findIn parent leaf v = .ok (some entry) v') :
    TargetInVain F s parent leaf flags v ↔ changesTarget flags (some entry) = true ∧ s.freeSlot = none ∧
      (0 < entry.len ∨ (s.invalidateFile parent leaf).table ≠ s.table) := by
  constructor
  · intro hvain
    cases hvain with
    | emptied entry' v'' hfind hchanges hfull hloses =>
      cases h.symm.trans hfind
      exact ⟨hchanges, hfull, hloses⟩
    | created dir v₁ v₂ v₃ hdir hfind => cases h.symm.trans ((findIn_eq hdir).trans hfind)
  · rintro ⟨hchanges, hfull, hloses⟩
    exact .emptied entry v' h hchanges hfull hloses

/-- What it is to be in vain for an OPEN that finds nothing. -/
theorem target_in_vain_none {dir : F.Dir} (hdir : F.openDirPath parent v = .ok dir v₁) (hfind : F.find dir leaf v₁ = .ok none v₂) :
    TargetInVain F s parent leaf flags v ↔ changesTarget flags (none : Option F.Entry) = true ∧
      ∃ v₃, F.createFile dir leaf v₂ = .ok () v₃ ∧ (s.freeSlot = none ∨ readsBack leaf = false ∨ F.SearchFails parent leaf v₃) := by
  constructor
  · intro hvain
    cases hvain with
    | emptied entry v' hfind' => cases (findIn_eq hdir).symm.trans hfind' |>.symm.trans hfind
    | created dir' v₁' v₂' v₃ hdir' hfind' hchanges hcreate hlost =>
      cases hdir.symm.trans hdir'
      cases hfind.symm.trans hfind'
      exact ⟨hchanges, v₃, hcreate, hlost⟩
  · rintro ⟨hchanges, v₃, hcreate, hlost⟩
    exact .created dir v₁ v₂ v₃ hdir hfind hchanges hcreate hlost

/-- What OPEN has found, emptied or created. -/
inductive Target (view : V → X) (w : World F.watched) (parent : List Str) (leaf : Str) (flags : Nat) :
    Nat × Bool → World F.watched → Prop
  | kept (entry : F.Entry) (v' : V) (w' : World F.watched) (hfind : F.findIn parent leaf w.volume.1 = .ok (some entry) v')
      (hkeeps : changesTarget flags (some entry) = false) (hlook : w.Looked view w') :
      Target view w parent leaf flags (entry.len, false) w'
  | emptied (entry : F.Entry) (v' : V) (w' : World F.watched) (hfind : F.findIn parent leaf w.volume.1 = .ok (some entry) v')
      (hview : view v' = view w.volume.1) (hchanges : changesTarget flags (some entry) = true)
      (htruncate : F.truncate entry 0 v' = .ok () w'.volume.1) (hserver : w'.server = w.server.invalidateFile parent leaf)
      (hwatch : w'.volume.2 = w.volume.2) : Target view w parent leaf flags (0, false) w'
  | created (dir : F.Dir) (v₁ v₂ : V) (w' : World F.watched) (hdir : F.openDirPath parent w.volume.1 = .ok dir v₁)
      (hfind : F.find dir leaf v₁ = .ok none v₂) (hview₁ : view v₁ = view w.volume.1) (hview₂ : view v₂ = view w.volume.1)
      (hchanges : changesTarget flags (none : Option F.Entry) = true) (hcreate : F.createFile dir leaf v₂ = .ok () w'.volume.1)
      (hserver : w'.server = w.server) (hwatch : w'.volume.2 = w.volume.2) : Target view w parent leaf flags (0, true) w'

/-- A directory is opened with a look, or the volume has none at the path. -/
theorem ends_openDir (law : Sees F view entryAt) (components : List Str) {w : World F.watched} :
    Ends (openDirEntry (F := F.watched) components) w
      (fun dir w' => w.Looked view w' ∧ F.openDirPath components w.volume.1 = .ok dir w'.volume.1)
      fun _ w' => w.Looked view w' ∧ ∃ e, F.openDirPath components w.volume.1 = .error e w'.volume.1 := by
  unfold openDirEntry
  rw [watched_openDirPath]
  exact (ends_read_or (law.openDirPath components) _).mono (fun _ _ h => h) fun _ _ h => ⟨h.1, h.2.2⟩

/-- The file of an OPEN is found, truncated or created, or the handler ends with a verdict on the condition. -/
theorem ends_openTarget (law : Sees F view entryAt) (parent : List Str) (leaf : Str) (flags : Nat) {w : World F.watched} :
    Ends (openTarget (F := F.watched) parent leaf flags) w
      (fun r w' => w'.Failed ∨ Target view w parent leaf flags r w')
      fun _ w' => w'.Failed ∨ w.Looked view w' ∧ ¬TargetInVain F w.server parent leaf flags w.volume.1 := by
  unfold openTarget
  refine ends_bind ((ends_openDir law parent).mono ?_ ?_)
  swap
  · rintro _ w₁ ⟨hlook, e, herror⟩
    exact .inr ⟨hlook, not_target_of_error (bind_of_error herror)⟩
  rintro dir w₁ ⟨hlook₁, hdir⟩
  refine ends_bind ((ends_read_or (law.find dir leaf) _).mono ?_ ?_)
  swap
  · rintro _ w₂ ⟨hlook₂, -, e, herror⟩
    exact .inr ⟨hlook₁.trans hlook₂, not_target_of_error ((findIn_eq hdir).trans herror)⟩
  rintro existing w₂ ⟨hlook₂, hfind⟩
  have hlook := hlook₁.trans hlook₂
  cases existing with
  | none =>
    dsimp only
    split
    · rename_i hchanges
      refine ends_bind ((ends_change_or _ _ _).mono ?_ fun _ _ h => .inl h)
      rintro _ w₃ (hfailed | ⟨hserver, hwatch, hcreate⟩)
      · exact ends_pure (.inl hfailed)
      · exact ends_pure (.inr (.created (F := F) dir _ _ w₃ hdir hfind hlook₁.view hlook.view hchanges hcreate
          (hserver.trans hlook.server) (hwatch.trans hlook.watch)))
    · rename_i hkeeps
      exact ends_throw (.inr ⟨hlook, fun hvain => hkeeps ((target_in_vain_none hdir hfind).mp hvain).1⟩)
  | some entry =>
    have hfind' : F.findIn parent leaf w.volume.1 = .ok (some entry) w₂.volume.1 := (findIn_eq hdir).trans hfind
    have hthrow (status : Status) (hkeeps : changesTarget flags (some entry) = false) :
        Ends (throw status : SftpM F.watched (Nat × Bool)) w₂ (fun r w' => w'.Failed ∨ Target view w parent leaf flags r w')
          fun _ w' => w'.Failed ∨ w.Looked view w' ∧ ¬TargetInVain F w.server parent leaf flags w.volume.1 := by
      refine ends_throw (.inr ⟨hlook, fun hvain => ?_⟩)
      exact Bool.false_ne_true (hkeeps.symm.trans ((target_in_vain_some hfind').mp hvain).1)
    dsimp only
    split
    · rename_i hdirectory
      exact hthrow _ (by rw [changesTarget, hdirectory]; rfl)
    split
    · rename_i hexists
      exact hthrow _ (by rw [changesTarget, hexists, Bool.not_true, Bool.and_false, Bool.false_and, Bool.false_and])
    split
    · rename_i hreadonly
      have hdenied : (hasFlag flags FXF_WRITE && (FileEntry.readOnly entry : Bool)) = true := hreadonly
      exact hthrow _ (by rw [changesTarget, hdenied, Bool.not_true, Bool.and_false, Bool.false_and])
    split
    · rename_i hdirectory hexists hreadonly htruncates
      rw [Bool.not_eq_true] at hdirectory hexists hreadonly
      have hchanges := changesTarget_some hdirectory hexists hreadonly htruncates
      refine ends_bind ((ends_change_or _ _ _).mono ?_ fun _ _ h => .inl h)
      rintro _ w₃ (hfailed | ⟨hserver, hwatch, htruncate⟩)
      · exact ends_bind (ends_update (ends_pure (.inl hfailed)))
      · refine ends_bind (ends_update (ends_pure (.inr ?_)))
        refine .emptied entry _ _ hfind' hlook.view hchanges htruncate ?_ (hwatch.trans hlook.watch)
        rw [hserver, hlook.server]
    · rename_i htruncates
      refine ends_pure (.inr (.kept entry _ w₂ hfind' ?_ hlook))
      rw [Bool.not_eq_true] at htruncates
      rw [changesTarget, htruncates, Bool.and_false]

/-- The search for what was created, and its metadata. -/
theorem ends_applyCreated (law : Sees F view entryAt) {w : World F.watched} {attrs : RequestedAttrs} {clock : ClockConfig}
    (hfit : TimesFit attrs clock) : Ends (applyCreated (F := F.watched) parent leaf attrs clock true) w
      (fun _ w' => w'.Failed ∨ w'.server = w.server ∧ ¬F.SearchFails parent leaf w.volume.1 ∧
        (entryAt (view w.volume.1) parent leaf).isSome = true ∧ (entryAt (view w'.volume.1) parent leaf).isSome = true)
      fun status w' => w'.Failed ∨ w.Looked view w' ∧ status = .noSuchFile ∧
        (F.SearchFails parent leaf w.volume.1 ∨ entryAt (view w.volume.1) parent leaf = none) := by
  unfold applyCreated
  rw [if_pos rfl]
  refine ends_bind ((ends_find law parent leaf).mono ?_ fun _ _ h => .inr h)
  rintro entry w₁ ⟨hlook, hfind⟩
  refine (ends_applyMetadata law hfit).mono ?_ fun _ _ h => .inl h
  rintro _ w₂ (hfailed | ⟨hserver, _, hsome⟩)
  · exact .inl hfailed
  have hthere : (entryAt (view w.volume.1) parent leaf).isSome = true := by
    rw [← law.found _ _ _ _ _ hfind]
    rfl
  refine .inr ⟨hserver.trans hlook.server, not_search_fails hfind, hthere, ?_⟩
  rw [hsome, hlook.view]
  exact hthere

/-- The handle comes last: it is given out when a slot is free. -/
theorem ends_allocate {w w₁ : World F.watched} {vain : Prop} (hw : w.Ready) (hout : w₁.server.out = w.server.out)
    (hresize : w₁.server.resize = w.server.resize) (hslots : w₁.server.freeSlot = w.server.freeSlot)
    (hfree : w.server.freeSlot ≠ none → ¬vain)
    (hfull : w.server.freeSlot = none → Rejected view w vain (.failure "Too many open handles") w₁)
    (handle : Handle F.watched) (id : Nat) :
    Ends (do let slot ← allocate handle; handleReply id slot) w₁
      (fun _ w' => Settled view entryAt w vain w') fun status w' => Rejected view w vain status w' := by
  refine ends_bind (ends_bind (ends_view ?_))
  rw [hslots]
  split
  · rename_i slot hslot
    refine ends_bind (ends_update (ends_pure (ends_bind (ends_view (ends_reply ?_)))))
    refine .answered hw ?_ ?_ (hfree fun hnone => ?_) (not_refusal_packet (by decide) (by decide) _)
    · exact hout
    · exact hresize
    · cases hslot.symm.trans hnone
  · rename_i hnone
    exact ends_throw (hfull hnone)

/-- The end of an OPEN, from what it has found, emptied or created. -/
theorem settled_target (law : Sees F view entryAt) {w w₁ : World F.watched} (hw : w.Ready) {attrs : RequestedAttrs}
    {clock : ClockConfig} (hfit : TimesFit attrs clock) {r : Nat × Bool} (htarget : Target view w parent leaf flags r w₁)
    (handle : Handle F.watched) (id : Nat) :
    Ends (do applyCreated (F := F.watched) parent leaf attrs clock r.2; let slot ← allocate handle; handleReply id slot) w₁
      (fun _ w' => Settled view entryAt w (TargetInVain F w.server parent leaf flags w.volume.1) w')
      fun status w' => Rejected view w (TargetInVain F w.server parent leaf flags w.volume.1) status w' := by
  cases htarget with
  | kept entry v' _ hfind hkeeps hlook =>
    have hvain : ¬TargetInVain F w.server parent leaf flags w.volume.1 := fun hvain =>
      Bool.false_ne_true (hkeeps.symm.trans ((target_in_vain_some hfind).mp hvain).1)
    refine ends_bind (show Ends (pure ()) w₁ _ _ from ?_)
    exact (Fair.allocate hw handle id w₁ hlook).mono (fun _ _ h => h.of_not hvain) fun _ _ h => h.of_not hvain
  | emptied entry v' _ hfind hview hchanges htruncate hserver hwatch =>
    have hsame := (Quiet.invalidateFile (F := F.watched) parent leaf w).1
    have hthere : entryAt (view v') parent leaf = some entry := by
      rw [hview]
      exact (law.found _ _ _ _ _ hfind).symm
    have hcut := law.cut _ _ _ _ _ _ hthere htruncate
    have hout : w₁.server.out = w.server.out := by rw [hserver]; rfl
    have hresize : w₁.server.resize = w.server.resize := by rw [hserver]; rfl
    have hslots : w₁.server.freeSlot = w.server.freeSlot := by rw [hserver]; exact hsame.freeSlot
    refine ends_bind (show Ends (pure ()) w₁ _ _ from ends_allocate hw hout hresize hslots (fun hfree hvain => ?_)
      (fun hfull => ?_) _ _)
    · exact hfree ((target_in_vain_some hfind).mp hvain).2.1
    by_cases hloses : 0 < entry.len ∨ (w.server.invalidateFile parent leaf).table ≠ w.server.table
    · refine .unfair ((target_in_vain_some hfind).mpr ⟨hchanges, hfull, hloses⟩) hout hresize (by decide) ?_
      rintro ⟨hview₁, htable⟩
      rcases hloses with hlen | htable'
      · rw [if_pos hlen] at hcut
        obtain ⟨entry', hentry', hlen'⟩ := hcut
        rw [hview₁, ← hview, hthere] at hentry'
        injection hentry' with hentry'
        rw [hentry', hlen'] at hlen
        exact absurd hlen (by decide)
      · rw [hserver] at htable
        exact htable' htable
    · rw [not_or, not_not] at hloses
      rw [if_neg hloses.1] at hcut
      refine .fair (fun hvain => ?_) hout hresize ⟨hcut.trans hview, ?_⟩
      · exact (not_or.mpr ⟨hloses.1, not_not.mpr hloses.2⟩) ((target_in_vain_some hfind).mp hvain).2.2
      · rw [hserver]
        exact hloses.2
  | created dir v₁ v₂ _ hdir hfind hview₁ hview₂ hchanges hcreate hserver hwatch =>
    have hnone : entryAt (view w.volume.1) parent leaf = none := (law.found _ _ _ _ _ ((findIn_eq hdir).trans hfind)).symm
    obtain ⟨hmoved, hthere⟩ := law.created parent leaf dir _ _ v₂ _ hdir (hview₂.trans hview₁.symm) (.inl hcreate)
    rw [hview₂] at hmoved
    have hvain (h : w.server.freeSlot = none ∨ readsBack leaf = false ∨ F.SearchFails parent leaf w₁.volume.1) :
        TargetInVain F w.server parent leaf flags w.volume.1 := (target_in_vain_none hdir hfind).mpr ⟨hchanges, _, hcreate, h⟩
    refine ends_bind ((ends_applyCreated law hfit).mono ?_ ?_)
    · rintro _ w₂ (hfailed | ⟨hserver₂, hfound, hthere₁, hthere₂⟩)
      · exact ((Watched.allocate handle id).failed hfailed).mono (fun _ _ h => .failed h) fun _ _ h => .failed h
      have hserver₂ := hserver₂.trans hserver
      have hout : w₂.server.out = w.server.out := congrArg Server.out hserver₂
      have hresize : w₂.server.resize = w.server.resize := congrArg Server.resize hserver₂
      refine ends_allocate hw hout hresize (congrArg Server.freeSlot hserver₂) (fun hfree hvain => ?_) (fun hfull => ?_) _ _
      · obtain ⟨_, v₃, hcreate', hlost⟩ := (target_in_vain_none hdir hfind).mp hvain
        cases hcreate.symm.trans hcreate'
        rcases hlost with hfull | hlost | hlost
        · exact hfree hfull
        · exact absurd ((hlost.symm.trans hthere.symm).trans hthere₁) (by decide)
        · exact hfound hlost
      · refine .unfair (hvain (.inl hfull)) hout hresize (by decide) fun hunchanged => ?_
        rw [hunchanged.1, hnone] at hthere₂
        cases hthere₂
    · rintro status w₂ (hfailed | ⟨hlook, rfl, hmissed⟩)
      · exact .failed hfailed
      · have hserver₂ := hlook.server.trans hserver
        refine .unfair (hvain ?_) (congrArg Server.out hserver₂) (congrArg Server.resize hserver₂) (by decide) fun hunchanged => ?_
        · rcases hmissed with hfails | hmissed
          · exact .inr (.inr hfails)
          · rw [hmissed] at hthere
            exact .inr (.inl hthere.symm)
        · exact hmoved (hlook.view.symm.trans hunchanged.1)

/-- OPEN is refused after a change exactly where it is in vain. -/
theorem judged_openFile (law : Sees F view entryAt) {w : World F.watched} (hw : w.Ready) (id : Nat) (body : List UInt8) (ctx : Ctx) :
    Judged view entryAt w (OpensInVain F w.server w.volume.1 body ctx) (openFile (F := F.watched) id body ctx) := by
  have hstill : w.Looked view w := refl_of _ w
  refine ends_bind (ends_parse (fun request hparse => ?_) fun hparse => .of_looked hstill ?_)
  swap
  · rintro ⟨_, _, _, _, _, _, hopen, _⟩
    cases hparse.symm.trans hopen
  obtain ⟨⟨path, flags, attrs⟩, rest⟩ := request
  refine ends_bind (ends_check (fun _ hvalid => ?_) fun _ herror => .of_looked hstill ?_)
  swap
  · rintro ⟨_, _, _, _, _, _, hopen, hvalid, _⟩
    cases hparse.symm.trans hopen
    cases herror.symm.trans hvalid
  refine ends_bind (ends_split (fun leaf parent hpath => ?_) fun _ hroot => .of_looked hstill ?_)
  swap
  · rintro ⟨_, _, _, _, leaf, parent, hopen, _, hpath, _⟩
    cases hparse.symm.trans hopen
    exact hroot leaf parent hpath
  have hvain : OpensInVain F w.server w.volume.1 body ctx ↔ TargetInVain F w.server parent leaf flags w.volume.1 := by
    constructor
    · rintro ⟨_, _, _, _, leaf', parent', hopen, _, hpath', htarget⟩
      cases hparse.symm.trans hopen
      obtain ⟨rfl, rfl⟩ := append_leaf_inj (hpath.symm.trans hpath')
      exact htarget
    · exact fun htarget => ⟨path, flags, attrs, rest, leaf, parent, hparse, hvalid, hpath, htarget⟩
  rw [hvain]
  refine ends_bind ((ends_openTarget law parent leaf flags).mono ?_ ?_)
  · rintro r w₁ (hfailed | htarget)
    · refine (Watched.failed ?_ hfailed).mono (fun _ _ h => .failed h) fun _ _ h => .failed h
      exact .bind (.applyCreated law _ _ _ _ _) fun _ => .allocate _ _
    · exact settled_target law hw (validateAttrs_ok hvalid).2 htarget _ id
  · rintro status w₁ (hfailed | ⟨hlook, hfair⟩)
    · exact .failed hfailed
    · exact .of_looked hlook hfair

end

/-! ## MKDIR -/

/-- A MKDIR that creates its directory and does not find it again. -/
def MakesInVain (F : Fat V) (v : V) (body : List UInt8) (ctx : Ctx) : Prop :=
  ∃ path attrs rest leaf parent dir v₁ v₂, setstatBody body = some ((path, attrs), rest) ∧ validateAttrs attrs ctx.clock = .ok () ∧
    attrs.size = none ∧ resolve [] path = parent ++ [leaf] ∧ F.openDirPath parent v = .ok dir v₁ ∧
    F.createDir dir leaf v₁ = .ok () v₂ ∧ (readsBack leaf = false ∨ F.SearchFails parent leaf v₂)

section

variable {w : World F.watched} {parent : List Str} {leaf : Str}

/-- What is to be done when an entry has been created or cut: it is searched for, its metadata is set, and the request is answered. -/
theorem judged_finish (law : Sees F view entryAt) {w₁ : World F.watched} {vain : Prop} (hserver : w₁.server = w.server)
    {attrs : RequestedAttrs} {clock : ClockConfig} (hfit : TimesFit attrs clock)
    (hfound : ∀ entry v, F.findIn parent leaf w₁.volume.1 = .ok (some entry) v → ¬vain)
    (hmissed : ∀ w₂ : World F.watched, w₁.Looked view w₂ →
      (F.SearchFails parent leaf w₁.volume.1 ∨ entryAt (view w₁.volume.1) parent leaf = none) → Rejected view w vain .noSuchFile w₂)
    {last : SftpM F.watched Unit} (hwatched : Watched last) (hlast : ¬vain → ∀ w₂ : World F.watched, w₂.server = w.server →
      Ends last w₂ (fun _ w' => Settled view entryAt w vain w') fun status w' => Rejected view w vain status w') :
    Ends (do
      let entry ← findEntry (F := F.watched) parent leaf
      applyMetadata entry attrs clock
      last) w₁ (fun _ w' => Settled view entryAt w vain w') fun status w' => Rejected view w vain status w' := by
  refine ends_bind ((ends_find law parent leaf).mono ?_ fun status w₂ h => ?_)
  · rintro entry w₂ ⟨hlook, hfind⟩
    refine ends_bind ((ends_applyMetadata law hfit).mono ?_ fun _ _ h => .failed h)
    rintro _ w₃ (hfailed | ⟨hserver₃, -⟩)
    · exact (hwatched.failed hfailed).mono (fun _ _ h => .failed h) fun _ _ h => .failed h
    · exact hlast (hfound _ _ hfind) w₃ (hserver₃.trans (hlook.server.trans hserver))
  · obtain ⟨hlook, rfl, hnot⟩ := h
    exact hmissed w₂ hlook hnot

/-- MKDIR is refused after a change exactly on its condition. -/
theorem judged_mkdir (law : Sees F view entryAt) (hw : w.Ready) (id : Nat) (body : List UInt8) (ctx : Ctx) :
    Judged view entryAt w (MakesInVain F w.volume.1 body ctx) (mkdir (F := F.watched) id body ctx) := by
  have hstill : w.Looked view w := refl_of _ w
  refine ends_bind (ends_parse (fun request hparse => ?_) fun hparse => .of_looked hstill ?_)
  swap
  · rintro ⟨_, _, _, _, _, _, _, _, hopen, _⟩
    cases hparse.symm.trans hopen
  obtain ⟨⟨path, attrs⟩, rest⟩ := request
  refine ends_bind (ends_check (fun _ hvalid => ?_) fun _ herror => .of_looked hstill ?_)
  swap
  · rintro ⟨_, _, _, _, _, _, _, _, hopen, hvalid, _⟩
    cases hparse.symm.trans hopen
    cases herror.symm.trans hvalid
  dsimp only
  split
  · rename_i hsize
    refine ends_bind (ends_throw (.of_looked hstill ?_))
    rintro ⟨_, _, _, _, _, _, _, _, hopen, _, hnone, _⟩
    cases hparse.symm.trans hopen
    rw [hnone] at hsize
    cases hsize
  rename_i hsize
  refine ends_bind (ends_split (fun leaf parent hpath => ?_) fun _ hroot => .of_looked hstill ?_)
  swap
  · rintro ⟨_, _, _, leaf, parent, _, _, _, hopen, _, _, hpath, _⟩
    cases hparse.symm.trans hopen
    exact hroot leaf parent hpath
  have hvain : MakesInVain F w.volume.1 body ctx ↔ ∃ dir v₁ v₂, F.openDirPath parent w.volume.1 = .ok dir v₁ ∧
      F.createDir dir leaf v₁ = .ok () v₂ ∧ (readsBack leaf = false ∨ F.SearchFails parent leaf v₂) := by
    constructor
    · rintro ⟨_, _, _, leaf', parent', dir, v₁, v₂, hopen, _, _, hpath', h⟩
      cases hparse.symm.trans hopen
      obtain ⟨rfl, rfl⟩ := append_leaf_inj (hpath.symm.trans hpath')
      exact ⟨dir, v₁, v₂, h⟩
    · rintro ⟨dir, v₁, v₂, h⟩
      rw [Bool.not_eq_true, Option.isSome_eq_false_iff, Option.isNone_iff_eq_none] at hsize
      exact ⟨path, attrs, rest, leaf, parent, dir, v₁, v₂, hparse, hvalid, hsize, hpath, h⟩
  rw [hvain]
  refine ends_bind ((ends_openDir law parent).mono ?_ ?_)
  swap
  · rintro status w₁ ⟨hlook, e, herror⟩
    refine .of_looked hlook ?_
    rintro ⟨_, _, _, hdir, _⟩
    cases herror.symm.trans hdir
  rintro dir w₁ ⟨hlook, hdir⟩
  refine ends_bind ((ends_change _ _).mono ?_ fun _ _ h => h)
  rintro r w₂ hchanged
  cases hchanged with
  | failed _ hfailed =>
    cases r with
    | ok _ =>
      refine (Watched.failed ?_ hfailed).mono (fun _ _ h => .failed h) fun _ _ h => .failed h
      exact .bind (.calm (.findEntry law _ _)) fun _ => .bind (.applyMetadata _ _ _) fun _ => .reply _
    | error e => cases e <;> exact ends_throw (.failed hfailed)
  | ok _ hserver hwatch hcreate =>
    obtain ⟨hmoved, hthere⟩ := law.created parent leaf dir _ _ _ _ hdir rfl (.inr hcreate)
    refine judged_finish law (hserver.trans hlook.server) (validateAttrs_ok hvalid).2 ?_ ?_ (.reply _)
      fun hfair w₃ hserver₃ => ends_reply (.ok hw hserver₃ hfair id)
    · rintro entry v hfind ⟨_, _, _, hdir', hcreate', hlost⟩
      cases hdir.symm.trans hdir'
      cases hcreate.symm.trans hcreate'
      rcases hlost with hlost | hlost
      · rw [← law.found _ _ _ _ _ hfind, hlost] at hthere
        cases hthere
      · exact not_search_fails hfind hlost
    · intro w₃ hlook₃ hmissed
      have hserver₃ : w₃.server = w.server := hlook₃.server.trans (hserver.trans hlook.server)
      refine .unfair ⟨dir, _, _, hdir, hcreate, ?_⟩ (congrArg Server.out hserver₃) (congrArg Server.resize hserver₃) (by decide) ?_
      · rcases hmissed with hfails | hnone
        · exact .inr hfails
        · rw [hnone] at hthere
          exact .inl hthere.symm
      · rintro ⟨hview, -⟩
        exact hmoved (hlook₃.view.symm.trans (hview.trans hlook.view.symm))

end

/-! ## SETSTAT -/

/-- A SETSTAT that cuts its file, which cannot be searched for after that. -/
def CutsInVain (F : Fat V) (components : List Str) (attrs : RequestedAttrs) (v : V) (ctx : Ctx) : Prop :=
  ∃ leaf parent size entry v₁ v₂, validateAttrs attrs ctx.clock = .ok () ∧ components = parent ++ [leaf] ∧ attrs.size = some size ∧
    F.findIn parent leaf v = .ok (some entry) v₁ ∧ entry.isDirectory = false ∧ entry.readOnly = false ∧ size < entry.len ∧
    F.truncate entry size v₁ = .ok () v₂ ∧ F.SearchFails parent leaf v₂

/-- An FSETSTAT, through a file handle open for writing, that cuts its file in vain. -/
def HandleCutsInVain (F : Fat V) (s : Server F.watched) (v : V) (body : List UInt8) (ctx : Ctx) : Prop :=
  ∃ token attrs rest slot file, fsetstatBody body = some ((token, attrs), rest) ∧ s.slotOf token = .ok slot ∧
    s.file slot = .ok file ∧ file.writable = true ∧ CutsInVain F (file.parent ++ [file.leaf]) attrs v ctx

section

variable {w w₁ : World F.watched} {parent : List Str} {leaf : Str} {attrs : RequestedAttrs} {ctx : Ctx} {entry : F.Entry} {v : V}

/-- What it is to be in vain for a SETSTAT that finds its entry. -/
theorem cuts_in_vain_iff (hvalid : validateAttrs attrs ctx.clock = .ok ())
    (hfind : F.findIn parent leaf w.volume.1 = .ok (some entry) v) :
    CutsInVain F (parent ++ [leaf]) attrs w.volume.1 ctx ↔ ∃ size v', attrs.size = some size ∧ entry.isDirectory = false ∧
      entry.readOnly = false ∧ size < entry.len ∧ F.truncate entry size v = .ok () v' ∧ F.SearchFails parent leaf v' := by
  constructor
  · rintro ⟨leaf', parent', size, entry', v₁, v₂, _, hpath, hsize, hfind', hdirectory, hreadonly, hcut, htruncate, hfails⟩
    obtain ⟨rfl, rfl⟩ := append_leaf_inj hpath
    cases hfind.symm.trans hfind'
    exact ⟨size, v₂, hsize, hdirectory, hreadonly, hcut, htruncate, hfails⟩
  · rintro ⟨size, v', hsize, hdirectory, hreadonly, hcut, htruncate, hfails⟩
    exact ⟨leaf, parent, size, entry, v, v', hvalid, rfl, hsize, hfind, hdirectory, hreadonly, hcut, htruncate, hfails⟩

/-- A SETSTAT that cuts its file, or leaves its size alone. -/
theorem judged_cut (law : Sees F view entryAt) (hw : w.Ready) (hvalid : validateAttrs attrs ctx.clock = .ok ())
    (hlook : w.Looked view w₁) (hfind : F.findIn parent leaf w.volume.1 = .ok (some entry) w₁.volume.1)
    (hdirectory : ¬(attrs.size.isSome && entry.isDirectory) = true)
    (hreadonly : ¬(attrs.size.any (· ≠ entry.len) && entry.readOnly) = true) (id : Nat) :
    Ends (do
      shrink (F := F.watched) entry attrs
      let entry ← findEntry parent leaf
      applyMetadata entry attrs ctx.clock
      update (·.invalidateFile parent leaf)
      ok id) w₁ (fun _ w' => Settled view entryAt w (CutsInVain F (parent ++ [leaf]) attrs w.volume.1 ctx) w')
      fun status w' => Rejected view w (CutsInVain F (parent ++ [leaf]) attrs w.volume.1 ctx) status w' := by
  rw [cuts_in_vain_iff hvalid hfind]
  have hthere : entryAt (view w₁.volume.1) parent leaf = some entry := by
    rw [hlook.view]
    exact (law.found _ _ _ _ _ hfind).symm
  have hwatched : Watched (F := F) (do update (·.invalidateFile parent leaf); ok id) := .bind (.update _) fun _ => .reply _
  have hlast {vain : Prop} (hfair : ¬vain) (w₂ : World F.watched) (hserver : w₂.server = w.server) :
      Ends (do update (·.invalidateFile parent leaf); ok id) w₂ (fun _ w' => Settled view entryAt w vain w')
        fun status w' => Rejected view w vain status w' := by
    have hout : w₂.server.out = w.server.out := congrArg Server.out hserver
    have hresize : w₂.server.resize = w.server.resize := congrArg Server.resize hserver
    refine ends_bind (ends_update (show Ends (reply _) _ _ _ from ends_reply (.answered hw ?_ ?_ hfair (not_refusal_ok id))))
    · exact hout
    · exact hresize
  unfold shrink
  cases hsize : attrs.size with
  | none =>
    refine ends_bind (ends_pure (judged_finish law hlook.server (validateAttrs_ok hvalid).2 ?_ ?_ hwatched hlast))
    · rintro _ _ _ ⟨_, _, h, _⟩
      cases h
    · rintro w₂ hlook₂ _
      refine .of_looked (hlook.trans hlook₂) ?_
      rintro ⟨_, _, h, _⟩
      cases h
  | some size =>
    dsimp only
    split
    · rename_i hcuts
      have hfile : entry.isDirectory = false := by simpa [hsize] using hdirectory
      have hwritable : entry.readOnly = false := by simpa [hsize, (Nat.ne_of_lt hcuts)] using hreadonly
      refine ends_bind ((ends_change_or _ _ _).mono ?_ fun _ _ h => .failed h)
      rintro _ w₂ (hfailed | ⟨hserver, hwatch, htruncate⟩)
      · refine (Watched.failed ?_ hfailed).mono (fun _ _ h => .failed h) fun _ _ h => .failed h
        exact .bind (.calm (.findEntry law _ _)) fun _ => .bind (.applyMetadata _ _ _) fun _ => hwatched
      have hcut := law.cut _ _ _ _ _ _ hthere htruncate
      rw [if_pos hcuts] at hcut
      obtain ⟨entry', hentry', hlen'⟩ := hcut
      refine judged_finish law (hserver.trans hlook.server) (validateAttrs_ok hvalid).2 ?_ ?_ hwatched hlast
      · rintro _ _ hfound ⟨_, _, h, _, _, _, htruncate', hfails⟩
        cases h
        cases htruncate.symm.trans htruncate'
        exact not_search_fails hfound hfails
      · rintro w₃ hlook₃ hmissed
        have hserver₃ := hlook₃.server.trans (hserver.trans hlook.server)
        have hfails : F.SearchFails parent leaf w₂.volume.1 := hmissed.resolve_right fun hnone => by
          rw [hnone] at hentry'
          cases hentry'
        refine .unfair ⟨size, _, rfl, hfile, hwritable, hcuts, htruncate, hfails⟩ (congrArg Server.out hserver₃)
          (congrArg Server.resize hserver₃) (by decide) ?_
        rintro ⟨hview, -⟩
        rw [← hlook₃.view, hview, ← hlook.view, hthere] at hentry'
        injection hentry' with hentry'
        rw [hentry', hlen'] at hcuts
        exact lt_irrefl _ hcuts
    · rename_i hkeeps
      refine ends_bind (ends_pure (judged_finish law hlook.server (validateAttrs_ok hvalid).2 ?_ ?_ hwatched hlast))
      · rintro _ _ _ ⟨_, _, h, _, _, hcuts, _⟩
        cases h
        exact hkeeps hcuts
      · rintro w₂ hlook₂ _
        refine .of_looked (hlook.trans hlook₂) ?_
        rintro ⟨_, _, h, _, _, hcuts, _⟩
        cases h
        exact hkeeps hcuts

/-- SETSTAT of a path's components is refused after a change exactly where its cut is in vain. -/
theorem judged_applySetstat (law : Sees F view entryAt) (hw : w.Ready) (id : Nat) (components : List Str) (attrs : RequestedAttrs)
    (ctx : Ctx) : Judged view entryAt w (CutsInVain F components attrs w.volume.1 ctx)
      (applySetstat (F := F.watched) id components attrs ctx) := by
  have hstill : w.Looked view w := refl_of _ w
  refine ends_bind (ends_check (fun _ hvalid => ?_) fun _ herror => .of_looked hstill ?_)
  swap
  · rintro ⟨_, _, _, _, _, _, hvalid, _⟩
    cases herror.symm.trans hvalid
  refine ends_bind (ends_split (fun leaf parent hpath => ?_) fun _ hroot => .of_looked hstill ?_)
  swap
  · rintro ⟨leaf, parent, _, _, _, _, _, hpath, _⟩
    exact hroot leaf parent hpath
  subst hpath
  refine ends_bind ((ends_find law parent leaf).mono ?_ ?_)
  swap
  · rintro status w₁ ⟨hlook, -, hmissed⟩
    refine .of_looked hlook ?_
    rintro ⟨leaf', parent', _, entry, _, _, _, hpath, _, hfind, _⟩
    obtain ⟨rfl, rfl⟩ := append_leaf_inj hpath
    rcases hmissed with hfails | hnone
    · exact not_search_fails hfind hfails
    · rw [← law.found _ _ _ _ _ hfind] at hnone
      cases hnone
  rintro entry w₁ ⟨hlook, hfind⟩
  split
  · rename_i hdirectory
    refine ends_throw (.of_looked hlook fun hvain => ?_)
    obtain ⟨_, _, _, hfile, _⟩ := (cuts_in_vain_iff hvalid hfind).mp hvain
    have hdir : entry.isDirectory = true := (Bool.and_eq_true_iff.mp hdirectory).2
    exact absurd (hfile.symm.trans hdir) (by decide)
  rename_i hdirectory
  split
  · rename_i hreadonly
    refine ends_throw (.of_looked hlook fun hvain => ?_)
    obtain ⟨_, _, _, _, hwritable, _⟩ := (cuts_in_vain_iff hvalid hfind).mp hvain
    have hprotected : entry.readOnly = true := (Bool.and_eq_true_iff.mp hreadonly).2
    exact absurd (hwritable.symm.trans hprotected) (by decide)
  rename_i hreadonly
  split
  swap
  · exact judged_cut law hw hvalid hlook hfind hdirectory hreadonly id
  rename_i hgrow
  obtain ⟨size, hsize⟩ : ∃ size, attrs.size = some size := by
    cases hsome : attrs.size with
    | none => rw [hsome] at hgrow; cases hgrow
    | some size => exact ⟨size, rfl⟩
  have hlonger : entry.len < size := by simpa [hsize] using hgrow
  have hwritable : entry.readOnly = false := by simpa [hsize, (Nat.ne_of_lt hlonger).symm] using hreadonly
  refine ends_update (.growing (fun hvain => ?_) _ rfl (hlook.out.trans hw.out)
    ⟨rfl, ⟨size, hsize, ?_⟩, entry, ?_, hwritable, .inl ⟨⟨?_, ?_⟩, ?_⟩⟩)
  · obtain ⟨_, _, h, _, _, hcuts, _⟩ := (cuts_in_vain_iff hvalid hfind).mp hvain
    cases hsize.symm.trans h
    exact lt_asymm hlonger hcuts
  · exact (validateAttrs_ok hvalid).1 size hsize
  · show entryAt (view w₁.volume.1) parent leaf = some entry
    rw [hlook.view]
    exact (law.found _ _ _ _ _ hfind).symm
  · exact hlook.view
  · show w₁.server.table = w.server.table
    rw [hlook.server]
  · show entry.len < attrs.size.getD 0
    rw [hsize]
    exact hlonger

/-- SETSTAT is judged by the path and attributes that it carries. -/
theorem judged_setstat (law : Sees F view entryAt) (hw : w.Ready) (id : Nat) (body : List UInt8) (ctx : Ctx) :
    Judged view entryAt w (∃ path attrs rest, setstatBody body = some ((path, attrs), rest) ∧
      CutsInVain F (resolve [] path) attrs w.volume.1 ctx) (setstat (F := F.watched) id body ctx) := by
  refine ends_bind (ends_parse (fun request hparse => ?_) fun hparse => .of_looked (refl_of _ w) ?_)
  swap
  · rintro ⟨_, _, _, hopen, _⟩
    cases hparse.symm.trans hopen
  obtain ⟨⟨path, attrs⟩, rest⟩ := request
  refine (judged_applySetstat law hw id (resolve [] path) attrs ctx).congr ⟨?_, fun hvain => ⟨path, attrs, rest, hparse, hvain⟩⟩
  rintro ⟨_, _, _, hopen, hvain⟩
  cases hparse.symm.trans hopen
  exact hvain

/-- The components of an open file's path. -/
theorem handleComponents_of_file {s : Server F.watched} {slot : Slot} {file : FileHandle F.watched} (h : s.file slot = .ok file) :
    s.handleComponents slot = .ok (file.parent ++ [file.leaf]) := by
  unfold Server.file at h
  unfold Server.handleComponents
  split at h
  · rename_i hhandle
    cases h
    rw [hhandle]
  · cases h

/-- FSETSTAT is judged by the file of its handle. -/
theorem judged_fsetstat (law : Sees F view entryAt) (hw : w.Ready) (id : Nat) (body : List UInt8) (ctx : Ctx) :
    Judged view entryAt w (HandleCutsInVain F w.server w.volume.1 body ctx) (fsetstat (F := F.watched) id body ctx) := by
  have hstill : w.Looked view w := refl_of _ w
  refine ends_bind (ends_parse (fun request hparse => ?_) fun hparse => .of_looked hstill ?_)
  swap
  · rintro ⟨_, _, _, _, _, hopen, _⟩
    cases hparse.symm.trans hopen
  obtain ⟨⟨token, attrs⟩, rest⟩ := request
  refine ends_bind (ends_bind (ends_view (ends_check (fun slot hslot => ?_) fun _ herror => .of_looked hstill ?_)))
  swap
  · rintro ⟨_, _, _, _, _, hopen, hslot, _⟩
    cases hparse.symm.trans hopen
    cases herror.symm.trans hslot
  -- what is wrong with the handle is wrong for a cut only
  have hrefuse (hnot : ∀ file, w.server.file slot = .ok file → file.writable = true → attrs.size.isSome = true → False) :
      ¬HandleCutsInVain F w.server w.volume.1 body ctx := by
    rintro ⟨_, _, _, _, file, hopen, hslot', hfile, hwritable, _, _, size, _, _, _, _, _, hsize, _⟩
    cases hparse.symm.trans hopen
    cases hslot.symm.trans hslot'
    exact hnot file hfile hwritable (by rw [hsize]; rfl)
  have hset (hvain : ∀ components, w.server.handleComponents slot = .ok components →
      (HandleCutsInVain F w.server w.volume.1 body ctx ↔ CutsInVain F components attrs w.volume.1 ctx)) :
      Judged view entryAt w (HandleCutsInVain F w.server w.volume.1 body ctx)
        (Ratputer.view (·.handleComponents slot) >>= fun r => check r >>= fun components => applySetstat id components attrs ctx) := by
    refine ends_bind (ends_view (ends_bind (ends_check (fun components h => ?_) fun _ herror => .of_looked hstill ?_)))
    · exact (judged_applySetstat law hw id components attrs ctx).congr (hvain components h)
    · exact hrefuse fun file hfile _ _ => by cases herror.symm.trans (handleComponents_of_file hfile)
  unfold requireWritable
  split
  · rename_i hsize
    refine ends_bind (ends_bind (ends_bind (ends_view (ends_check (fun file hfile => ?_) fun _ herror => .of_looked hstill ?_))))
    swap
    · exact hrefuse fun _ hfile _ _ => by cases herror.symm.trans hfile
    split
    · rename_i hdenied
      refine ends_throw (.of_looked hstill (hrefuse fun _ hfile' hwritable _ => ?_))
      cases hfile.symm.trans hfile'
      rw [hwritable] at hdenied
      cases hdenied
    · rename_i hwritable
      rw [Bool.not_eq_true, Bool.not_eq_false'] at hwritable
      refine ends_pure (hset fun components h => ⟨?_, fun hvain => ?_⟩)
      · rintro ⟨_, _, _, _, _, hopen, hslot', hfile', _, hvain⟩
        cases hparse.symm.trans hopen
        cases hslot.symm.trans hslot'
        cases (handleComponents_of_file hfile').symm.trans h
        exact hvain
      · cases (handleComponents_of_file hfile).symm.trans h
        exact ⟨token, attrs, rest, slot, file, hparse, hslot, hfile, hwritable, hvain⟩
  · rename_i hsize
    refine ends_bind (ends_pure (hset fun components _ => iff_of_false (hrefuse fun _ _ _ h => hsize h) ?_))
    rintro ⟨_, _, _, _, _, _, _, _, h, _⟩
    exact hsize (by rw [h]; rfl)

end

/-! ## Every request -/

/-- A request of type `kind` that is refused after it has changed the volume. -/
inductive RequestInVain (F : Fat V) (s : Server F.watched) (v : V) (ctx : Ctx) (kind : Nat) (body : List UInt8) : Prop
  | opens (hkind : kind = FXP_OPEN) (h : OpensInVain F s v body ctx)
  | makes (hkind : kind = FXP_MKDIR) (h : MakesInVain F v body ctx)
  | cuts (hkind : kind = FXP_SETSTAT) (path : Str) (attrs : RequestedAttrs) (rest : List UInt8)
      (hbody : setstatBody body = some ((path, attrs), rest)) (h : CutsInVain F (resolve [] path) attrs v ctx)
  | handleCuts (hkind : kind = FXP_FSETSTAT) (h : HandleCutsInVain F s v body ctx)

/-- The types of the requests that can be in vain. -/
theorem RequestInVain.mem {s : Server F.watched} {v : V} {ctx : Ctx} {kind : Nat} {body : List UInt8}
    (h : RequestInVain F s v ctx kind body) : kind ∈ [FXP_OPEN, FXP_MKDIR, FXP_SETSTAT, FXP_FSETSTAT] := by
  cases h with
  | opens hkind => rw [hkind]; decide
  | makes hkind => rw [hkind]; decide
  | cuts hkind => rw [hkind]; decide
  | handleCuts hkind => rw [hkind]; decide

/-- What it is for a request to be in vain depends on its type. -/
theorem requestInVain_iff {s : Server F.watched} {v : V} {ctx : Ctx} {kind : Nat} {body : List UInt8} :
    RequestInVain F s v ctx kind body ↔
      kind = FXP_OPEN ∧ OpensInVain F s v body ctx ∨ kind = FXP_MKDIR ∧ MakesInVain F v body ctx ∨
        (kind = FXP_SETSTAT ∧ ∃ path attrs rest, setstatBody body = some ((path, attrs), rest) ∧
          CutsInVain F (resolve [] path) attrs v ctx) ∨
        kind = FXP_FSETSTAT ∧ HandleCutsInVain F s v body ctx := by
  constructor
  · intro h
    cases h with
    | opens hkind h => exact .inl ⟨hkind, h⟩
    | makes hkind h => exact .inr (.inl ⟨hkind, h⟩)
    | cuts hkind path attrs rest hbody h => exact .inr (.inr (.inl ⟨hkind, path, attrs, rest, hbody, h⟩))
    | handleCuts hkind h => exact .inr (.inr (.inr ⟨hkind, h⟩))
  · rintro (⟨hkind, h⟩ | ⟨hkind, h⟩ | ⟨hkind, path, attrs, rest, hbody, h⟩ | ⟨hkind, h⟩)
    · exact .opens hkind h
    · exact .makes hkind h
    · exact .cuts hkind path attrs rest hbody h
    · exact .handleCuts hkind h

section

variable {w : World F.watched}

/-- The types of which every request is fair. -/
theorem fair_handleRequest (law : Sees F view entryAt) (hw : w.Ready) {kind : Nat}
    (hkind : kind ∉ [FXP_OPEN, FXP_MKDIR, FXP_SETSTAT, FXP_FSETSTAT]) (id : Nat) (body : List UInt8) (ctx : Ctx) :
    Fair view entryAt w (handleRequest (F := F.watched) kind id body ctx) := by
  have hpacket {kind : Nat} (h : kind < 256) (hkind : kind ≠ FXP_STATUS) (bytes : List UInt8) :
      Fair (F := F) view entryAt w (reply (packet kind bytes)) := .reply hw (not_refusal_packet h hkind _)
  simp only [List.mem_cons, List.not_mem_nil, or_false, not_or] at hkind
  obtain ⟨hopen, hmkdir, hsetstat, hfsetstat⟩ := hkind
  unfold handleRequest
  rw [if_neg hopen, if_neg hmkdir, if_neg hsetstat, if_neg hfsetstat]
  refine .ite (.calm (.parse _ _) fun _ => hpacket (by decide) (by decide) _) ?_
  refine .ite (.calm (.parse _ _) fun _ => fair_statComponents law hw _ _ _) (.ite ?_ ?_)
  · refine .calm (.parse _ _) fun _ => .calm (.slotOf _) fun _ => .calm (.view_server _) fun _ => ?_
    exact .calm (.check _) fun _ => fair_statComponents law hw _ _ _
  refine .ite (fair_opendir law hw id body) (.ite (fair_readdir law hw id body ctx) ?_)
  refine .ite (fair_close hw id body) (.ite (fair_readFile law hw id body) ?_)
  refine .ite (fair_remove law hw id body) (.ite (fair_rmdir law hw id body) ?_)
  exact .ite (fair_rename law hw id body) (.ite (fair_extended law hw id body) (.throw _))

/-- A request is refused after a change exactly where it is in vain. -/
theorem judged_handleRequest (law : Sees F view entryAt) (hw : w.Ready) (kind id : Nat) (body : List UInt8) (ctx : Ctx) :
    Judged view entryAt w (RequestInVain F w.server w.volume.1 ctx kind body) (handleRequest (F := F.watched) kind id body ctx) := by
  by_cases hkind : kind ∈ [FXP_OPEN, FXP_MKDIR, FXP_SETSTAT, FXP_FSETSTAT]
  swap
  · exact (fair_handleRequest law hw hkind id body ctx).judged fun hvain => hkind hvain.mem
  simp only [List.mem_cons, List.not_mem_nil, or_false] at hkind
  rcases hkind with rfl | rfl | rfl | rfl
  · exact (judged_openFile law hw id body ctx).congr (by simp [requestInVain_iff, FXP_OPEN, FXP_MKDIR, FXP_SETSTAT, FXP_FSETSTAT])
  · exact (judged_mkdir law hw id body ctx).congr (by simp [requestInVain_iff, FXP_OPEN, FXP_MKDIR, FXP_SETSTAT, FXP_FSETSTAT])
  · exact (judged_setstat law hw id body ctx).congr (by simp [requestInVain_iff, FXP_OPEN, FXP_MKDIR, FXP_SETSTAT, FXP_FSETSTAT])
  · exact (judged_fsetstat law hw id body ctx).congr (by simp [requestInVain_iff, FXP_OPEN, FXP_MKDIR, FXP_SETSTAT, FXP_FSETSTAT])

/-- A complete request. -/
theorem settled_dispatch (law : Sees F view entryAt) (hw : w.Ready) (kind : Nat) (body : List UInt8) (mounted : Bool) (ctx : Ctx) :
    Settled view entryAt w (mounted = true ∧ ∃ id rest, Reader.u32 body = some (id, rest) ∧
      RequestInVain F w.server w.volume.1 ctx kind rest) (w.dispatch kind body mounted ctx) := by
  have hstill : w.Unchanged view w := ⟨rfl, rfl⟩
  unfold World.dispatch
  split
  · rename_i hinit
    refine .fair ?_ hw.resize fun _ => hstill
    rintro ⟨_, _, _, _, hvain⟩
    have hmem := hvain.mem
    rw [hinit] at hmem
    exact absurd hmem (by decide)
  split
  · rename_i hid
    refine .fair ?_ hw.resize fun _ => hstill
    rintro ⟨_, _, _, hid', _⟩
    cases hid.symm.trans hid'
  rename_i id rest hid
  unfold World.answer
  cases mounted with
  | false => exact .fair (fun hvain => Bool.false_ne_true hvain.1) hw.resize fun _ => hstill
  | true =>
    have hjudged : Judged view entryAt w (true = true ∧ ∃ id rest, Reader.u32 body = some (id, rest) ∧
        RequestInVain F w.server w.volume.1 ctx kind rest) (handleRequest kind id rest ctx) := by
      refine (judged_handleRequest law hw kind id rest ctx).congr ⟨?_, fun hvain => ⟨rfl, id, rest, hid, hvain⟩⟩
      rintro ⟨_, _, _, hid', hvain⟩
      cases hid.symm.trans hid'
      exact hvain
    rw [if_pos rfl]
    cases hrun : handleRequest kind id rest ctx w with
    | ok _ w' => exact hjudged.ok hrun
    | error status w' => exact (hjudged.error hrun).settled hw _

end

/-! ## A growing SETSTAT -/

/-- The step of a growing SETSTAT that is refused: the card is away, the file cannot be searched for, or by the clock of this step
the times do not fit. -/
def ResizeJob.Stops (F : Fat V) (job : ResizeJob F.watched) (v : V) (mounted : Bool) (ctx : Ctx) : Prop :=
  mounted = false ∨ F.SearchFails job.file.parent job.file.leaf v ∨
    ∃ entry v', F.findIn job.file.parent job.file.leaf v = .ok (some entry) v' ∧
    (entry.len < job.attrs.size.getD 0 ∧ F.SearchFails job.file.parent job.file.leaf v' ∨
      job.attrs.size.getD 0 ≤ entry.len ∧ ¬TimesFit job.attrs ctx.clock)

section

variable {w u z : World F.watched} {job : ResizeJob F.watched} {ctx : Ctx}

/-- A SETSTAT that has grown its file has changed the volume. -/
theorem ResizeJob.Grown.ne {x x' : X} (h : job.Grown entryAt x x') : x' ≠ x := by
  rintro rfl
  obtain ⟨entry, entry', hentry, hentry', hlonger⟩ := h
  cases hentry.symm.trans hentry'
  exact lt_irrefl _ hlonger

/-- A growing SETSTAT that is refused has changed the volume if its file has grown. -/
theorem Pending.refused (h : Pending view entryAt w u job) (hout : u.server.out = []) (hview : view z.volume.1 = view u.volume.1)
    (hserver : z.server = { u.server with resize := none }) {stops : Prop} (hstops : stops) {status : Status} (hbad : status.Bad)
    (id : Nat) : Settled view entryAt w (job.Grown entryAt (view w.volume.1) (view u.volume.1) ∧ stops)
      (z.emit (statusPacket id status)) := by
  have hresize : z.server.resize = none := by rw [hserver]
  have htable : z.server.table = u.server.table := by rw [hserver]; rfl
  obtain ⟨_, _, _, ⟨hunchanged, hshort⟩ | hgrown⟩ := h.file
  · refine .fair ?_ hresize fun _ => ⟨hview.trans hunchanged.1, htable.trans hunchanged.2⟩
    rintro ⟨hgrown, -⟩
    exact hgrown.ne hunchanged.1
  · refine .unfair ⟨hgrown, hstops⟩ hresize ?_ ?_
    · show Refusal (z.server.out ++ _)
      rw [hserver, hout, List.nil_append]
      exact refusal_of_bad id hbad
    · rintro ⟨hsame, -⟩
      exact hgrown.ne (hview.symm.trans hsame)

/-- A growing SETSTAT whose file has grown longer goes on growing. -/
theorem Pending.next (h : Pending view entryAt w u job) {job' : ResizeJob F.watched} (hcomponents : job'.components = job.components)
    (hattrs : job'.attrs = job.attrs) (hparent : job'.file.parent = job.file.parent) (hleaf : job'.file.leaf = job.file.leaf)
    {entry entry' : F.Entry} (hentry : entryAt (view u.volume.1) job.file.parent job.file.leaf = some entry)
    (hentry' : entryAt (view z.volume.1) job.file.parent job.file.leaf = some entry') (hlonger : entry.len < entry'.len)
    (hwritable : entry'.readOnly = false) : Pending view entryAt w z job' := by
  obtain ⟨size, hsize, hmax⟩ := h.size
  obtain ⟨entry₁, hentry₁, -, hsince⟩ := h.file
  cases hentry.symm.trans hentry₁
  have hgrown : job.Grown entryAt (view w.volume.1) (view z.volume.1) := by
    rcases hsince with ⟨hunchanged, -⟩ | ⟨entry₀, _, hentry₀, hgrown, hlonger₀⟩
    · exact ⟨entry, entry', hunchanged.1 ▸ hentry, hentry', hlonger⟩
    · cases hentry.symm.trans hgrown
      exact ⟨entry₀, entry', hentry₀, hentry', hlonger₀.trans hlonger⟩
  refine ⟨?_, ⟨size, hattrs ▸ hsize, hmax⟩, entry', ?_, hwritable, .inr ?_⟩
  · show job'.components = job'.file.parent ++ [job'.file.leaf]
    rw [hcomponents, hparent, hleaf]
    exact h.valid
  · rw [hparent, hleaf]
    exact hentry'
  · unfold ResizeJob.Grown
    rw [hparent, hleaf]
    exact hgrown

/-- With the file found, the step stops where the next search fails or the last step's times do not fit. -/
theorem ResizeJob.stops_iff {size : Nat} (hsize : job.attrs.size = some size) {entry : F.Entry} {v v' : V}
    (hfind : F.findIn job.file.parent job.file.leaf v = .ok (some entry) v') : job.Stops F v true ctx ↔
      entry.len < size ∧ F.SearchFails job.file.parent job.file.leaf v' ∨ size ≤ entry.len ∧ ¬TimesFit job.attrs ctx.clock := by
  unfold ResizeJob.Stops
  rw [hsize, Option.getD_some]
  constructor
  · rintro (haway | hfails | ⟨_, _, hfind', hstop⟩)
    · cases haway
    · exact absurd hfails (not_search_fails hfind)
    · cases hfind.symm.trans hfind'
      exact hstop
  · exact fun hstop => .inr (.inr ⟨entry, _, hfind, hstop⟩)

/-- Zeros at the end of the file of a growing SETSTAT. -/
theorem ends_onJob (law : Sees F view entryAt) {entry : F.Entry}
    (hentry : entryAt (view u.volume.1) job.file.parent job.file.leaf = some entry) (hwritable : entry.readOnly = false)
    (data : List UInt8) (hle : entry.len + data.length ≤ U32_MAX) :
    Ends (onJob job (writeChunk entry.len data)) u
      (fun job' u' => u'.Failed ∨ u'.server = u.server ∧ ¬F.SearchFails job.file.parent job.file.leaf u.volume.1 ∧
        job'.components = job.components ∧ job'.attrs = job.attrs ∧ job'.file.parent = job.file.parent ∧
        job'.file.leaf = job.file.leaf ∧
        ∃ entry', entryAt (view u'.volume.1) job.file.parent job.file.leaf = some entry' ∧
          entry.len + data.length ≤ entry'.len ∧ entry'.readOnly = false)
      fun status u' => u'.Failed ∨ u.Looked view u' ∧ status = .noSuchFile ∧
        F.SearchFails job.file.parent job.file.leaf u.volume.1 := by
  have hchunk := ends_appendChunk law (job.file, u.volume) hentry hwritable data hle
  have hpath := ShortFile.writeChunk (F := F.watched) entry.len data (job.file, u.volume)
  unfold onJob Ends
  dsimp only
  cases hrun : writeChunk (F := F.watched) entry.len data (job.file, u.volume) with
  | ok _ r =>
    obtain ⟨⟨hparent, hleaf⟩, _⟩ := hpath.ok hrun
    exact (hchunk.ok hrun).imp id fun h => ⟨rfl, h.2.1, rfl, rfl, hparent, hleaf, h.2.2⟩
  | error status r =>
    exact (hchunk.error hrun).imp id fun h => ⟨⟨rfl, h.1, h.2.1⟩, h.2.2.1, h.2.2.2⟩

/-- A chunk of zeros goes to a file that goes on growing, and the metadata comes last. -/
theorem ends_resizeChunk (law : Sees F view entryAt) (h : Pending view entryAt w u job) : Ends (resizeChunk job ctx) u
    (fun r u' => u'.Failed ∨ u'.server.out = u.server.out ∧ u'.server.resize = u.server.resize ∧ ¬job.Stops F u.volume.1 true ctx ∧
      (r.2 = false → ∀ z : World F.watched, z.volume = u'.volume → Pending view entryAt w z r.1))
    fun status u' => u'.Failed ∨ u.Looked view u' ∧ status.Bad ∧ job.Stops F u.volume.1 true ctx := by
  obtain ⟨size, hsize, hmax⟩ := h.size
  obtain ⟨entry, hentry, hwritable, -⟩ := h.file
  unfold resizeChunk
  rw [h.valid, ChunkAux.splitLast_append]
  refine ends_bind (show Ends (check (.ok (job.file.leaf, job.file.parent))) u _ _ from ?_)
  refine ends_bind ((ends_find law _ _).mono ?_ ?_)
  swap
  · rintro status u₁ ⟨hlook, rfl, hmissed⟩
    refine .inr ⟨hlook, by decide, .inr (.inl (hmissed.resolve_right fun hnone => ?_))⟩
    cases hentry.symm.trans hnone
  rintro found u₁ ⟨hlook, hfind⟩
  obtain rfl : entry = found := Option.some.inj (hentry.symm.trans (law.found _ _ _ _ _ hfind).symm)
  have hentry₁ : entryAt (view u₁.volume.1) job.file.parent job.file.leaf = some entry := by
    rw [hlook.view]
    exact hentry
  rw [ResizeJob.stops_iff hsize hfind]
  dsimp only
  rw [hsize, Option.getD_some]
  split
  · rename_i hshort
    refine ends_bind ((ends_onJob law hentry₁ hwritable _ ?_).mono ?_ ?_)
    · rw [List.length_replicate]
      omega
    · rintro job' u₂ (hfailed | ⟨hserver, hfound, hcomponents, hattrs, hparent, hleaf, entry', hentry', hlonger, hwritable'⟩)
      · exact ends_bind (ends_update (ends_pure (.inl hfailed)))
      have hserver := hserver.trans hlook.server
      have hout : u₂.server.out = u.server.out := congrArg Server.out hserver
      have hresize : u₂.server.resize = u.server.resize := congrArg Server.resize hserver
      have hgoes : ¬(entry.len < size ∧ F.SearchFails job.file.parent job.file.leaf u₁.volume.1 ∨
          size ≤ entry.len ∧ ¬TimesFit job.attrs ctx.clock) := by
        rintro (⟨_, hfails⟩ | ⟨hreached, _⟩)
        · exact hfound hfails
        · exact absurd hshort (Nat.not_lt.mpr hreached)
      refine ends_bind (ends_update (ends_pure (.inr ⟨hout, hresize, hgoes, fun _ z hz => ?_⟩)))
      rw [List.length_replicate] at hlonger
      have hpos : 0 < WRITE_CHUNK := by decide
      exact h.next hcomponents hattrs hparent hleaf hentry (hz ▸ hentry') (by omega) hwritable'
    · rintro status u₂ (hfailed | ⟨hlook₂, rfl, hfails⟩)
      · exact .inl hfailed
      · exact .inr ⟨hlook.trans hlook₂, by decide, .inl ⟨hshort, hfails⟩⟩
  · rename_i hreached
    by_cases hfit : TimesFit job.attrs ctx.clock
    · refine ends_bind ((ends_applyMetadata law hfit).mono ?_ fun _ _ h => .inl h)
      rintro _ u₂ (hfailed | ⟨hserver, -⟩)
      · exact ends_bind (ends_update (ends_pure (.inl hfailed)))
      have hserver := hserver.trans hlook.server
      have hout : u₂.server.out = u.server.out := congrArg Server.out hserver
      have hresize : u₂.server.resize = u.server.resize := congrArg Server.resize hserver
      refine ends_bind (ends_update (ends_pure (.inr ⟨hout, hresize, ?_, fun h => ?_⟩)))
      · rintro (⟨hshort, _⟩ | ⟨_, hnot⟩)
        · exact hreached hshort
        · exact hnot hfit
      · cases h
    · obtain ⟨status, hbad, hrefused⟩ := applyMetadata_refused entry hfit
      refine ends_bind ?_
      unfold Ends
      rw [hrefused]
      exact .inr ⟨hlook, hbad, .inr ⟨Nat.not_lt.mp hreached, hfit⟩⟩

/-- A step of a growing SETSTAT is refused after a change exactly where the file has grown and the step stops it. -/
theorem settled_continueResize (law : Sees F view entryAt) (hresize : u.server.resize = some job) (hout : u.server.out = [])
    (h : Pending view entryAt w u job) (mounted : Bool) (ctx : Ctx) :
    Settled view entryAt w (job.Grown entryAt (view w.volume.1) (view u.volume.1) ∧ job.Stops F u.volume.1 mounted ctx)
      (u.continueResize mounted ctx) := by
  unfold World.continueResize
  rw [hresize]
  dsimp only
  cases mounted with
  | false =>
    rw [if_neg Bool.false_ne_true]
    refine h.refused (z := { u with server := { u.server with resize := none } }) hout rfl rfl (Or.inl rfl) ?_ _
    decide
  | true =>
    rw [if_pos rfl]
    have hpending : Pending view entryAt w { u with server := { u.server with resize := none } } job := ⟨h.valid, h.size, h.file⟩
    have hchunk : Ends (resizeChunk job ctx) _ _ _ := ends_resizeChunk law hpending
    cases hrun : resizeChunk job ctx { u with server := { u.server with resize := none } } with
    | error status u' =>
      rcases hchunk.error hrun with hfailed | ⟨hlook, hbad, hstops⟩
      · exact .failed hfailed
      · exact h.refused hout hlook.view hlook.server hstops hbad _
    | ok r u' =>
      obtain ⟨job', done⟩ := r
      rcases hchunk.ok hrun with hfailed | ⟨hout', hresize', hgoes, hnext⟩
      · cases done with
        | true => exact .failed hfailed
        | false => exact .failed hfailed
      cases done with
      | true =>
        refine .fair (fun hvain => hgoes hvain.2) hresize' fun hrefusal => absurd hrefusal ?_
        show ¬Refusal (u'.server.out ++ _)
        rw [hout', hout, List.nil_append]
        exact not_refusal_ok _
      | false => exact .growing (fun hvain => hgoes hvain.2) job' rfl (hout'.trans hout) (hnext rfl _ rfl)

end

end Ratputer
