import Ratputer.Lemmas.SftpWatch

/-!
# What a refused request has changed

A handler looks and checks first and changes the volume last, so that one that ends with a status has changed nothing. The handlers
of which this is true without a condition are here, with the verdict on an answer that all of them come to.
-/

namespace Ratputer

open Effect Octets

variable {V X : Type} {F : Fat V}

/-! ## Parts of a handler that only look -/

section

variable {α β : Type} {view : V → X} {entryAt : X → List Str → Str → Option F.Entry}

/-- A part of a handler that only looks and checks. -/
abbrev Calm (view : V → X) (m : SftpM F.watched α) : Prop := Frames (World.Looked view) (fun _ => True) (fun _ => True) m

namespace Calm

/-- Doing nothing is calm. -/
theorem pure (a : α) : Calm (F := F) view (pure a) := frames_pure trivial

/-- So is ending with a status. -/
theorem throw (status : Status) : Calm (F := F) view (throw status : SftpM F.watched α) := frames_throw trivial

/-- Calm parts, one after the other. -/
theorem bind {m : SftpM F.watched α} {f : α → SftpM F.watched β} (hm : Calm view m) (hf : ∀ a, Calm view (f a)) :
    Calm view (m >>= f) := frames_bind hm fun a _ => hf a

/-- Both branches are calm. -/
theorem ite {c : Prop} [Decidable c] {m m' : SftpM F.watched α} (h : Calm view m) (h' : Calm view m') :
    Calm view (if c then m else m') := by
  split
  · exact h
  · exact h'

/-- Looking at the server is calm. -/
theorem view_server (f : Server F.watched → α) : Calm view (Ratputer.view f) := fun w => ⟨refl_of _ w, trivial⟩

/-- Looking at the volume's figures is calm. -/
theorem viewVolume (f : V × Bool → α) : Calm (F := F) view (viewVolume f) := fun w => ⟨refl_of _ w, trivial⟩

/-- A checked result is calm. -/
theorem check (r : Except Status α) : Calm (F := F) view (check r) := by
  cases r with
  | ok a => exact pure a
  | error status => exact throw status

/-- Reading the fields of a request is calm. -/
theorem parse (reader : ReaderM α) (body : List UInt8) : Calm (F := F) view (parse reader body) := by
  unfold Ratputer.parse
  split
  · exact pure _
  · exact throw _

/-- Looking up a handle string is calm. -/
theorem slotOf (token : List UInt8) : Calm (F := F) view (slotOf token) := bind (view_server _) fun _ => check _

/-- Looking up the file of a slot is calm. -/
theorem fileAt (slot : Slot) : Calm (F := F) view (fileAt slot) := bind (view_server _) fun _ => check _

/-- A call of the driver that only reads. -/
theorem read {op : FatM V α} (hop : Leaves view op) : Calm (F := F) view (call op.reading) := fun _ =>
  (ends_read hop).mono (fun _ _ h => ⟨h.1, trivial⟩) fun _ _ h => h

/-- A call that leaves what one sees of the volume alone is calm, under any status for its failure. -/
theorem read_or {op : FatM V α} (hop : Leaves view op) (status : Status) : Calm (F := F) view (callOr op.reading status) :=
  fun _ => (ends_read_or hop status).mono (fun _ _ h => ⟨h.1, trivial⟩) fun _ _ h => ⟨h.1, trivial⟩

/-- Finding the entry of a path is calm. -/
theorem findEntry (law : Sees F view entryAt) (parent : List Str) (leaf : Str) :
    Calm view (findEntry (F := F.watched) parent leaf) := fun _ =>
  (ends_find law parent leaf).mono (fun _ _ h => ⟨h.1, trivial⟩) fun _ _ h => ⟨h.1, trivial⟩

/-- Opening the directory of a path is calm. -/
theorem openDirPath (law : Sees F view entryAt) (components : List Str) :
    Calm (F := F) view (call (F.watched.openDirPath components)) := by
  rw [watched_openDirPath]
  exact read (law.openDirPath components)

/-- Searching a directory is calm. -/
theorem findIn (law : Sees F view entryAt) (parent : List Str) (leaf : Str) :
    Calm (F := F) view (call (F.watched.findIn parent leaf)) := by
  rw [watched_findIn]
  exact read (law.findIn parent leaf)

/-- Opening a directory under the status for its failure is calm. -/
theorem openDirEntry (law : Sees F view entryAt) (components : List Str) :
    Calm view (openDirEntry (F := F.watched) components) := by
  unfold Ratputer.openDirEntry
  rw [watched_openDirPath]
  exact read_or (law.openDirPath components) _

/-- The check of an FSETSTAT's handle is calm. -/
theorem requireWritable (slot : Slot) (attrs : RequestedAttrs) : Calm (F := F) view (requireWritable slot attrs) :=
  ite (bind (fileAt slot) fun _ => ite (throw _) (pure _)) (pure _)

/-- The check that a path is there is calm. -/
theorem requireEntry (law : Sees F view entryAt) (components : List Str) :
    Calm view (requireEntry (F := F.watched) components) := by
  unfold Ratputer.requireEntry
  split
  · exact bind (findEntry law _ _) fun _ => pure _
  · exact pure _

end Calm

/-! ## Calls that have failed -/

/-- What has failed stays so. -/
def World.Stays (w w' : World F.watched) : Prop := w.Failed → w'.Failed

instance : Std.Refl (World.Stays (F := F)) := ⟨fun _ h => h⟩

instance : IsTrans (World F.watched) World.Stays := ⟨fun _ _ _ h h' hw => h' (h hw)⟩

/-- A part of a handler under watch. -/
abbrev Watched (m : SftpM F.watched α) : Prop := Frames (World.Stays (F := F)) (fun _ => True) (fun _ => True) m

namespace Watched

/-- A part that only looks lets what has failed stay so. -/
theorem calm {m : SftpM F.watched α} (h : Calm view m) : Watched m := fun w =>
  (h w).mono (fun _ _ h => ⟨fun hw => h.1.watch.trans hw, trivial⟩) fun _ _ h => ⟨fun hw => h.1.watch.trans hw, trivial⟩

/-- Watched parts, one after the other. -/
theorem bind {m : SftpM F.watched α} {f : α → SftpM F.watched β} (hm : Watched m) (hf : ∀ a, Watched (f a)) : Watched (m >>= f) :=
  frames_bind hm fun a _ => hf a

theorem pure (a : α) : Watched (F := F) (pure a) := frames_pure trivial

theorem throw (status : Status) : Watched (F := F) (throw status : SftpM F.watched α) := frames_throw trivial

/-- A change of the server is no call. -/
theorem update (f : Server F.watched → Server F.watched) : Watched (F := F) (update f) := fun _ => ⟨fun hw => hw, trivial⟩

/-- A reply that is no refusal is fair. -/
theorem reply (bytes : List UInt8) : Watched (F := F) (reply bytes) := update _

theorem view_server (f : Server F.watched → α) : Watched (Ratputer.view f) := fun _ => ⟨fun hw => hw, trivial⟩

theorem check (r : Except Status α) : Watched (F := F) (check r) := by
  cases r with
  | ok a => exact pure a
  | error status => exact throw status

/-- A changing call that fails, or that does less than all, is marked as failed. -/
theorem change_or (op : FatM V α) (whole : α → Bool) (status : Status) : Watched (F := F) (callOr (op.changing whole) status) :=
  fun _ => (ends_change_or op whole status).mono
    (fun _ _ h => ⟨fun hw => h.elim (fun hfailed => hfailed) fun h => h.2.1.trans hw, trivial⟩) fun _ _ h => ⟨fun _ => h, trivial⟩

/-- Times and the read-only bit are set by changing calls. -/
theorem applyMetadata (entry : F.watched.Entry) (attrs : RequestedAttrs) (clock : ClockConfig) :
    Watched (F := F) (applyMetadata entry attrs clock) := by
  refine bind ?_ fun _ => ?_
  · unfold applyTimes
    split
    · exact bind (check _) fun _ => bind (check _) fun _ => change_or _ _ _
    · exact pure _
  · unfold applyPermissions
    split
    · exact change_or _ _ _
    · exact pure _

/-- The metadata of a file that OPEN has created is set by changing calls. -/
theorem applyCreated (law : Sees F view entryAt) (parent : List Str) (leaf : Str) (attrs : RequestedAttrs) (clock : ClockConfig)
    (created : Bool) : Watched (F := F) (applyCreated parent leaf attrs clock created) := by
  unfold Ratputer.applyCreated
  split
  · exact bind (calm (.findEntry law _ _)) fun entry => applyMetadata entry attrs clock
  · exact pure _

/-- Handing out a slot is no call. -/
theorem allocate (handle : Handle F.watched) (id : Nat) : Watched (F := F) (do let slot ← allocate handle; handleReply id slot) := by
  refine bind (bind (view_server _) fun r => ?_) fun slot => bind (view_server _) fun token => update _
  split
  · exact bind (update _) fun _ => pure _
  · exact throw _

/-- From a failed world on, all ends are failed. -/
theorem failed {m : SftpM F.watched α} (h : Watched m) {w : World F.watched} (hw : w.Failed) :
    Ends m w (fun _ w' => w'.Failed) fun _ w' => w'.Failed := (h w).mono (fun _ _ h => h.1 hw) fun _ _ h => h.1 hw

end Watched

end

/-! ## Answers -/

/-- The output is a status other than OK. -/
def Refusal (out : List UInt8) : Prop := kindOf out = FXP_STATUS ∧ u32At out 9 ≠ FX_OK

instance (out : List UInt8) : Decidable (Refusal out) := inferInstanceAs (Decidable (_ ∧ _))

/-- Nothing is no refusal. -/
theorem not_refusal_nil : ¬Refusal [] := by decide

/-- A packet that is no STATUS is no refusal. -/
theorem not_refusal_packet {kind : Nat} (h : kind < 256) (hkind : kind ≠ FXP_STATUS) (body : List UInt8) :
    ¬Refusal (packet kind body) := fun hrefusal => hkind ((kindOf_packet h body).symm.trans hrefusal.1)

/-- A STATUS that says OK is no refusal. -/
theorem not_refusal_ok (id : Nat) : ¬Refusal (statusPacket id ⟨FX_OK, "OK"⟩) := fun hrefusal =>
  hrefusal.2 (code_of_status id _ (by decide))

/-- The header of DATA is no refusal. -/
theorem not_refusal_data (id length : Nat) : ¬Refusal (dataHeader id length) := by
  have hdrop : (dataHeader id length).drop 4 = UInt8.ofNat FXP_DATA :: (putU32 id ++ putU32 length) := by
    rw [dataHeader]
    exact List.drop_left' (length_putU32 _)
  rintro ⟨hkind, _⟩
  rw [kindOf, hdrop, List.headD_cons] at hkind
  revert hkind
  decide

/-- A status that refuses. -/
def Status.Bad (status : Status) : Prop := status.code ≠ FX_OK ∧ status.code < 2 ^ 32

instance (status : Status) : Decidable status.Bad := inferInstanceAs (Decidable (_ ∧ _))

/-- A STATUS that says anything else is one. -/
theorem refusal_of_bad (id : Nat) {status : Status} (h : status.Bad) : Refusal (statusPacket id status) := by
  refine ⟨kindOf_packet (by decide) _, ?_⟩
  rw [code_of_status id status h.2]
  exact h.1

/-! ## The verdict -/

section

variable {view : V → X} {entryAt : X → List Str → Str → Option F.Entry}

/-- The file that a pending SETSTAT grows has become longer than it was. -/
def ResizeJob.Grown (entryAt : X → List Str → Str → Option F.Entry) (x x' : X) (job : ResizeJob F.watched) : Prop :=
  ∃ entry entry', entryAt x job.file.parent job.file.leaf = some entry ∧
    entryAt x' job.file.parent job.file.leaf = some entry' ∧ entry.len < entry'.len

/-- A SETSTAT that grows its file, since `w`: the file can be written, and nothing has changed yet, or it has grown. -/
structure Pending (view : V → X) (entryAt : X → List Str → Str → Option F.Entry) (w w' : World F.watched)
    (job : ResizeJob F.watched) : Prop where
  valid : job.Valid
  size : ∃ size, job.attrs.size = some size ∧ size ≤ U32_MAX
  file : ∃ entry, entryAt (view w'.volume.1) job.file.parent job.file.leaf = some entry ∧ entry.readOnly = false ∧
    (w.Unchanged view w' ∧ entry.len < job.attrs.size.getD 0 ∨ job.Grown entryAt (view w.volume.1) (view w'.volume.1))

/-- What an answered request, or a growing SETSTAT, has come to since `w`, where `vain` is the condition on which it is refused
after a change. -/
inductive Settled (view : V → X) (entryAt : X → List Str → Str → Option F.Entry) (w : World F.watched) (vain : Prop)
    (w' : World F.watched) : Prop
  | failed (h : w'.Failed)
  | fair (hvain : ¬vain) (hresize : w'.server.resize = none) (h : Refusal w'.server.out → w.Unchanged view w')
  | unfair (hvain : vain) (hresize : w'.server.resize = none) (hrefusal : Refusal w'.server.out) (h : ¬w.Unchanged view w')
  | growing (hvain : ¬vain) (job : ResizeJob F.watched) (hresize : w'.server.resize = some job) (hout : w'.server.out = [])
      (h : Pending view entryAt w w' job)

/-- What a handler that ends with a status has come to since `w`. -/
inductive Rejected (view : V → X) (w : World F.watched) (vain : Prop) (status : Status) (w' : World F.watched) : Prop
  | failed (h : w'.Failed)
  | fair (hvain : ¬vain) (hout : w'.server.out = w.server.out) (hresize : w'.server.resize = w.server.resize)
      (h : w.Unchanged view w')
  | unfair (hvain : vain) (hout : w'.server.out = w.server.out) (hresize : w'.server.resize = w.server.resize)
      (hbad : status.Bad) (h : ¬w.Unchanged view w')

variable {w w' : World F.watched} {vain : Prop}

/-- When no call has failed, the answer refuses what has changed nothing exactly where the condition is not met. -/
theorem Settled.iff (h : Settled view entryAt w vain w') (hsucceeded : w'.volume.2 = false) :
    (Refusal w'.server.out → w.Unchanged view w') ↔ ¬vain := by
  cases h with
  | failed h => exact absurd (h.symm.trans hsucceeded) (by decide)
  | fair hvain _ h => exact iff_of_true h hvain
  | unfair hvain _ hrefusal h => exact iff_of_false (fun hall => h (hall hrefusal)) (fun hnot => hnot hvain)
  | growing hvain _ _ hout =>
    refine iff_of_true (fun hrefusal => ?_) hvain
    rw [hout] at hrefusal
    exact absurd hrefusal not_refusal_nil

/-- A verdict without a condition is one under any condition that is not met. -/
theorem Settled.of_not (h : Settled view entryAt w False w') (hvain : ¬vain) : Settled view entryAt w vain w' := by
  cases h with
  | failed h => exact .failed h
  | fair _ hresize h => exact .fair hvain hresize h
  | unfair hfalse => exact hfalse.elim
  | growing _ job hresize hout h => exact .growing hvain job hresize hout h

/-- The condition of a verdict may be put in other words. -/
theorem Settled.congr {vain' : Prop} (h : Settled view entryAt w vain w') (hiff : vain' ↔ vain) :
    Settled view entryAt w vain' w' := propext hiff ▸ h

/-- The same of a handler that ends with a status. -/
theorem Rejected.of_not {status : Status} (h : Rejected view w False status w') (hvain : ¬vain) : Rejected view w vain status w' := by
  cases h with
  | failed h => exact .failed h
  | fair _ hout hresize h => exact .fair hvain hout hresize h
  | unfair hfalse => exact hfalse.elim

/-- A handler that ends with a status after looks alone has changed nothing. -/
theorem Rejected.of_looked {status : Status} (h : w.Looked view w') (hvain : ¬vain) : Rejected view w vain status w' :=
  .fair hvain h.out h.resize h.unchanged

/-- Nothing is queued, and no SETSTAT is pending. -/
structure World.Ready (w : World F.watched) : Prop where
  out : w.server.out = []
  resize : w.server.resize = none

/-- The answer that a status becomes. -/
theorem Rejected.settled {status : Status} (h : Rejected view w vain status w') (hw : w.Ready) (id : Nat) :
    Settled view entryAt w vain (w'.emit (statusPacket id status)) := by
  cases h with
  | failed h => exact .failed h
  | fair hvain _ hresize h => exact .fair hvain (hresize.trans hw.resize) fun _ => h
  | unfair hvain hout hresize hbad h =>
    refine .unfair hvain (hresize.trans hw.resize) ?_ h
    show Refusal (w'.server.out ++ _)
    rw [hout, hw.out, List.nil_append]
    exact refusal_of_bad id hbad

/-- An answer that is no refusal. -/
theorem Settled.answered (hw : w.Ready) (hout : w'.server.out = w.server.out) (hresize : w'.server.resize = w.server.resize)
    (hvain : ¬vain) {bytes : List UInt8} (h : ¬Refusal bytes) : Settled view entryAt w vain (w'.emit bytes) := by
  refine .fair hvain (hresize.trans hw.resize) fun hrefusal => absurd hrefusal ?_
  show ¬Refusal (w'.server.out ++ _)
  rw [hout, hw.out, List.nil_append]
  exact h

/-- The answer OK is no refusal. -/
theorem Settled.ok (hw : w.Ready) (hserver : w'.server = w.server) (hvain : ¬vain) (id : Nat) :
    Settled view entryAt w vain (w'.emit (statusPacket id ⟨FX_OK, "OK"⟩)) :=
  .answered hw (congrArg Server.out hserver) (congrArg Server.resize hserver) hvain (not_refusal_ok id)

/-- A handler, or the rest of one that has only looked since `w`. -/
def Fair (view : V → X) (entryAt : X → List Str → Str → Option F.Entry) (w : World F.watched) (m : SftpM F.watched Unit) : Prop :=
  ∀ w₁, w.Looked view w₁ → Ends m w₁ (fun _ w' => Settled view entryAt w False w') fun status w' => Rejected view w False status w'

namespace Fair

variable {α : Type}

/-- What follows a calm part is judged from the same world. -/
theorem calm {m : SftpM F.watched α} {f : α → SftpM F.watched Unit} (hm : Calm view m) (hf : ∀ a, Fair view entryAt w (f a)) :
    Fair view entryAt w (m >>= f) := fun _ hlook =>
  hm.ends_bind (fun a w' h _ => hf a w' (hlook.trans h)) fun _ _ h _ => .of_looked (hlook.trans h) id

/-- Ending with a status right away is fair. -/
theorem throw (status : Status) : Fair (F := F) view entryAt w (throw status) := fun _ hlook => ends_throw (.of_looked hlook id)

/-- Both branches are fair. -/
theorem ite {c : Prop} [Decidable c] {m m' : SftpM F.watched Unit} (h : Fair view entryAt w m) (h' : Fair view entryAt w m') :
    Fair view entryAt w (if c then m else m') := by
  split
  · exact h
  · exact h'

/-- A guard that throws. -/
theorem guard {c : Prop} [Decidable c] {status : Status} {f : PUnit → SftpM F.watched Unit} (hf : Fair view entryAt w (f ())) :
    Fair view entryAt w (if c then MonadExcept.throw status >>= f else f ()) := ite (calm (.throw status) fun _ => hf) hf

/-- A step of the server whose output is no refusal. -/
theorem update (hw : w.Ready) {f : Server F.watched → Server F.watched} (hout : ∀ s : Server F.watched, s.out = [] → ¬Refusal (f s).out)
    (hresize : ∀ s, (f s).resize = s.resize) : Fair view entryAt w (update f) := by
  intro w₁ hlook
  refine ends_update (.fair id ?_ fun hrefusal => absurd hrefusal (hout _ ?_))
  · show (f w₁.server).resize = none
    rw [hresize, hlook.server]
    exact hw.resize
  · rw [hlook.server]
    exact hw.out

theorem reply (hw : w.Ready) {bytes : List UInt8} (h : ¬Refusal bytes) : Fair (F := F) view entryAt w (reply bytes) :=
  update hw (fun s hs => by rw [hs, List.nil_append]; exact h) fun _ => rfl

/-- The reply OK is fair. -/
theorem ok (hw : w.Ready) (id : Nat) : Fair (F := F) view entryAt w (ok id) := reply hw (not_refusal_ok id)

/-- Any reply, while nothing has changed. -/
theorem calm_reply (hw : w.Ready) (bytes : List UInt8) : Fair (F := F) view entryAt w (Ratputer.reply bytes) := fun _ hlook =>
  ends_reply (.fair id (hlook.resize.trans hw.resize) fun _ => hlook.unchanged)

/-- A change that is the last thing but the answer. -/
theorem change (hw : w.Ready) (op : FatM V α) (whole : α → Bool) {f : Except FatError α → SftpM F.watched Unit} {id : Nat}
    (hok : ∀ a, f (.ok a) = Ratputer.ok id) (herror : ∀ e, ∃ status, f (.error e) = MonadExcept.throw status) :
    Fair view entryAt w (call (F := F.watched) (op.changing whole) >>= f) := by
  intro w₁ hlook
  refine ends_bind ((ends_change op whole).mono ?_ fun _ _ h => h)
  rintro r w₂ hchanged
  cases hchanged with
  | failed _ h =>
    cases r with
    | ok a =>
      rw [hok]
      exact ends_reply (.failed h)
    | error e =>
      obtain ⟨status, heq⟩ := herror e
      rw [heq]
      exact ends_throw (.failed h)
  | ok a hserver _ _ =>
    rw [hok]
    exact ends_reply (.ok hw (hserver.trans hlook.server) not_false id)

/-- A changing call followed by OK is fair: where it fails, the run is one with a failed call. -/
theorem change_or (hw : w.Ready) (op : FatM V α) (whole : α → Bool) (status : Status) (id : Nat) :
    Fair (F := F) view entryAt w (callOr (op.changing whole) status >>= fun _ => Ratputer.ok id) := by
  intro w₁ hlook
  refine ends_bind ((ends_change_or op whole status).mono ?_ fun _ _ h => .failed h)
  rintro _ w₂ (hfailed | ⟨hserver, _, _⟩)
  · exact ends_reply (.failed hfailed)
  · exact ends_reply (.ok hw (hserver.trans hlook.server) not_false id)

/-- A handle is given out when a slot is free. -/
theorem allocate (hw : w.Ready) (handle : Handle F.watched) (id : Nat) :
    Fair view entryAt w (do let slot ← allocate handle; handleReply id slot) := by
  intro w₁ hlook
  refine ends_bind (ends_bind (ends_view ?_))
  split
  · refine ends_bind (ends_update (ends_pure (ends_bind (ends_view (ends_reply ?_)))))
    refine .answered hw ?_ ?_ not_false (not_refusal_packet (by decide) (by decide) _)
    · exact hlook.out
    · exact hlook.resize
  · exact ends_throw (.of_looked hlook not_false)

end Fair

/-! ## Requests -/

/-- STAT and LSTAT are fair. -/
theorem fair_statComponents (law : Sees F view entryAt) (hw : w.Ready) (id : Nat) (components : List Str) (ctx : Ctx) :
    Fair view entryAt w (statComponents (F := F.watched) id components ctx) := by
  unfold statComponents
  dsimp only
  split
  · exact .reply hw (not_refusal_packet (by decide) (by decide) _)
  · exact .calm (.findEntry law _ _) fun _ => .reply hw (not_refusal_packet (by decide) (by decide) _)

/-- OPENDIR is fair. -/
theorem fair_opendir (law : Sees F view entryAt) (hw : w.Ready) (id : Nat) (body : List UInt8) :
    Fair view entryAt w (opendir (F := F.watched) id body) := by
  refine .calm (.parse _ _) fun r => .calm (.openDirPath law _) fun r => ?_
  split
  · exact .allocate hw _ _
  · split
    · refine .calm (.findIn law _ _) fun r => ?_
      split
      · exact .throw _
      · exact .throw _
    · exact .throw _

/-- READDIR moves its handle only when it sends entries. -/
theorem fair_readdir (law : Sees F view entryAt) (hw : w.Ready) (id : Nat) (body : List UInt8) (ctx : Ctx) :
    Fair view entryAt w (readdir (F := F.watched) id body ctx) := by
  refine .calm (.parse _ _) fun r => .calm (.slotOf _) fun slot w₁ hlook₁ => ends_bind (ends_view ?_)
  split
  swap
  · exact Fair.throw _ w₁ hlook₁
  rename_i dir hdir
  refine Fair.calm (.openDirEntry law _) (fun fatDir => .calm (.read_or (law.entries fatDir) _) fun records => ?_) w₁ hlook₁
  refine .calm (.check _) fun result w₂ hlook₂ => ends_bind (ends_update ?_)
  obtain ⟨entries, count⟩ := result
  dsimp only
  split
  · rename_i hcount
    subst hcount
    refine ends_reply (.fair not_false (hlook₂.resize.trans hw.resize) fun _ => ⟨hlook₂.view, ?_⟩)
    have hsame : Function.update w₂.server.handles slot (some (.dir { dir with next := dir.next + 0 })) = w₂.server.handles :=
      Function.update_eq_self_iff.mpr (by rw [hlook₂.server, ← hlook₁.server, hdir]; rfl)
    show (Function.update w₂.server.handles slot _, w₂.server.tokens) = _
    rw [hsame, hlook₂.server]
    rfl
  · refine ends_reply (.answered hw ?_ ?_ not_false (not_refusal_packet (by decide) (by decide) _))
    · exact hlook₂.out
    · exact hlook₂.resize

/-- READ is fair. -/
theorem fair_readFile (law : Sees F view entryAt) (hw : w.Ready) (id : Nat) (body : List UInt8) :
    Fair view entryAt w (readFile (F := F.watched) id body) := by
  refine .calm (.parse _ _) fun r => .calm (.slotOf _) fun slot => .calm (.fileAt _) fun file => .guard ?_
  refine .calm (.findEntry law _ _) fun entry => .ite (.calm_reply hw _) (.update hw (fun s hs => ?_) fun _ => rfl)
  rw [hs, List.nil_append]
  exact not_refusal_data _ _

/-- REMOVE is fair. -/
theorem fair_remove (law : Sees F view entryAt) (hw : w.Ready) (id : Nat) (body : List UInt8) :
    Fair view entryAt w (remove (F := F.watched) id body) := by
  refine .calm (.parse _ _) fun r => .calm (.check _) fun path => .calm (.findEntry law _ _) fun entry => .guard (.guard ?_)
  exact .change_or hw _ _ _ id

/-- RMDIR is fair. -/
theorem fair_rmdir (law : Sees F view entryAt) (hw : w.Ready) (id : Nat) (body : List UInt8) :
    Fair view entryAt w (rmdir (F := F.watched) id body) := by
  refine .calm (.parse _ _) fun r => .calm (.check _) fun path => .calm (.findEntry law _ _) fun entry => .guard ?_
  refine .change hw _ _ (fun _ => rfl) fun e => ?_
  cases e with
  | _ => exact ⟨_, rfl⟩

/-- RENAME is fair: the call that renames is its last. -/
theorem fair_rename (law : Sees F view entryAt) (hw : w.Ready) (id : Nat) (body : List UInt8) :
    Fair view entryAt w (rename (F := F.watched) id body) := by
  refine .calm (.parse _ _) fun r => .calm (.check _) fun source => .calm (.check _) fun target => .guard ?_
  refine .calm (.findEntry law _ _) fun entry => .calm (.openDirEntry law _) fun dest => ?_
  refine .change hw _ _ (fun _ => rfl) fun e => ?_
  cases e with
  | _ => exact ⟨_, rfl⟩

/-- The answer to statvfs is fair. -/
theorem fair_statvfsReply (law : Sees F view entryAt) (hw : w.Ready) (id : Nat) (components : List Str) :
    Fair view entryAt w (statvfsReply (F := F.watched) id components) := by
  refine .calm (.requireEntry law _) fun _ => .calm (.viewVolume _) fun free => ?_
  split
  · exact .throw _
  · refine .calm (.viewVolume _) fun total => .guard ?_
    refine .calm (.viewVolume _) fun clusterSize => .calm (.viewVolume _) fun volumeId => ?_
    exact .reply hw (not_refusal_packet (by decide) (by decide) _)

/-- EXTENDED is fair. -/
theorem fair_extended (law : Sees F view entryAt) (hw : w.Ready) (id : Nat) (body : List UInt8) :
    Fair view entryAt w (extended (F := F.watched) id body) := by
  refine .calm (.parse _ _) fun r => .ite (.reply hw (not_refusal_packet (by decide) (by decide) _)) (.ite ?_ (.ite ?_ (.ite ?_ ?_)))
  · exact .calm (.parse _ _) fun _ => .calm (.slotOf _) fun _ => .calm (.fileAt _) fun _ => .change_or hw _ _ _ id
  · exact .calm (.parse _ _) fun _ => fair_statvfsReply law hw _ _
  · refine .calm (.parse _ _) fun _ => .calm (.slotOf _) fun slot => .calm (.view_server _) fun components => ?_
    exact .calm (.check _) fun components => fair_statvfsReply law hw _ _
  · exact .throw _

/-- CLOSE is fair. -/
theorem fair_close (hw : w.Ready) (id : Nat) (body : List UInt8) : Fair (F := F) view entryAt w (close (F := F.watched) id body) := by
  refine .calm (.parse _ _) fun r => .calm (.slotOf _) fun slot w₁ hlook => ?_
  refine ends_bind (ends_update (show Ends (reply _) _ _ _ from ends_reply (.answered hw ?_ ?_ not_false (not_refusal_ok id))))
  · exact hlook.out
  · exact hlook.resize

end

end Ratputer
