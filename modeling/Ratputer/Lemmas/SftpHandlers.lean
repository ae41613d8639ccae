import Ratputer.Lemmas.SftpFrames
import Ratputer.Lemmas.SftpSizes

/-!
# What a request handler does

Every handler ends in exactly one of five ways: a whole reply, a `DATA` header with its stream, a growing SETSTAT, an opened
handle with its reply, a closed one with its reply. When it ends with a status it has changed nothing but the volume and what
open handles hold.
-/

namespace Ratputer

open Effect Octets

variable {V : Type} {F : Fat V}

/-- The types of whole replies, HANDLE aside. -/
def REPLY_TYPES : List Nat := [FXP_STATUS, FXP_NAME, FXP_ATTRS, FXP_EXTENDED_REPLY]

/-- A whole reply packet to the request `id`, which fits the reply buffer. -/
def IsReply (id : Nat) (p : List UInt8) : Prop :=
  ∃ kind body, kind ∈ REPLY_TYPES ∧ p = packet kind (putU32 id ++ body) ∧ p.length ≤ MAX_OUTPUT

/-- A packet with the id of a request and a body that is not too long is a reply. -/
theorem is_reply {id kind : Nat} {body : List UInt8} (hk : kind ∈ REPLY_TYPES) (h : body.length ≤ MAX_OUTPUT - 9) :
    IsReply id (packet kind (putU32 id ++ body)) := by
  refine ⟨kind, body, hk, rfl, ?_⟩
  have : MAX_OUTPUT = 8256 := rfl
  rw [length_packet, List.length_append, length_putU32]
  omega

/-- A status with a short message is a reply. -/
theorem is_reply_status (id : Nat) {status : Status} (h : status.Short) : IsReply id (statusPacket id status) := by
  have hm : MAX_OUTPUT = 8256 := rfl
  unfold Status.Short at h
  have hbody : IsReply id (packet FXP_STATUS
      (putU32 id ++ (putU32 status.code ++ putString (messageBytes status.message) ++ putString []))) := is_reply (by decide)
    (by simp only [List.length_append, length_putU32, length_putString, List.length_nil]; omega)
  simpa only [statusPacket, List.append_assoc] using hbody

/-- The file of a growing SETSTAT is the one its components name. -/
def ResizeJob.Valid (job : ResizeJob F) : Prop := job.components = job.file.parent ++ [job.file.leaf]

/-- What a handler for the request `id` of type `kind` has done when it ends without a status. Only OPEN and OPENDIR open a
handle, and only CLOSE closes one. -/
inductive Handled (kind id : Nat) (w w' : World F) : Prop
  | replied (p : List UInt8) (hp : IsReply id p) (h : (w.emit p).Same w')
  | data (stream : ReadStream) (hpos : 0 < stream.remaining) (hle : stream.remaining ≤ MAX_READ_REPLY)
      (h : World.Same { w with server := { w.server with
        out := w.server.out ++ dataHeader id stream.remaining
        readStream := some stream } } w')
  | growing (job : ResizeJob F) (hid : job.id = id) (hjob : job.Valid)
      (h : World.Same { w with server := { w.server with resize := some job } } w')
  | opened (hkind : kind = FXP_OPEN ∨ kind = FXP_OPENDIR) (slot : Slot) (handle : Handle F) (hfree : w.server.freeSlot = some slot)
      (h : World.Same (World.emit { w with server := w.server.insert slot handle }
        (packet FXP_HANDLE (putU32 id ++ putString (putU32 ((w.server.insert slot handle).tokens slot))))) w')
  | closed (hkind : kind = FXP_CLOSE) (slot : Slot) (token : List UInt8) (htoken : w.server.slotOf token = .ok slot)
      (h : World.Same (World.emit
        { w with server := { w.server with handles := Function.update w.server.handles slot none } }
        (statusPacket id ⟨FX_OK, "OK"⟩)) w')

namespace World.Same

variable {w w' : World F}

/-- The same reply queued in both worlds. -/
theorem emit (h : w.Same w') (p : List UInt8) : (w.emit p).Same (w'.emit p) :=
  ⟨congrArg (· ++ p) h.out, h.readStream, h.writeStream, h.resize, h.generation, h.tokens, h.fatal, h.open_slots⟩

/-- Changes of the handle table act alike on worlds that are the same up to what handles hold. -/
theorem table (h : w.Same w') (slot : Slot) (a a' : Option (Handle F)) (ha : a'.isNone = a.isNone) (g : Nat)
    (t : Slot → Nat) :
    World.Same
      { w with server := { w.server with
        generation := g, tokens := t, handles := Function.update w.server.handles slot a } }
      { w' with server := { w'.server with
        generation := g, tokens := t, handles := Function.update w'.server.handles slot a' } } := by
  refine ⟨h.out, h.readStream, h.writeStream, h.resize, rfl, rfl, h.fatal, fun i => ?_⟩
  by_cases hi : i = slot
  · subst hi
    simpa using ha
  · simpa [Function.update_of_ne hi] using h.open_slots i

end World.Same

/-- What a handler does from a world it does from any world that differs in the volume and in what handles hold. -/
theorem Handled.of_same {kind id : Nat} {w w1 w' : World F} (hs : w.Same w1) (h : Handled kind id w1 w') :
    Handled kind id w w' := by
  cases h with
  | replied p hp h => exact .replied p hp ((hs.emit p).trans h)
  | data stream hpos hle h =>
    refine .data stream hpos hle (.trans ?_ h)
    exact ⟨congrArg (· ++ _) hs.out, rfl, hs.writeStream, hs.resize, hs.generation, hs.tokens, hs.fatal, hs.open_slots⟩
  | growing job hid hjob h =>
    refine .growing job hid hjob (.trans ?_ h)
    exact ⟨hs.out, hs.readStream, hs.writeStream, rfl, hs.generation, hs.tokens, hs.fatal, hs.open_slots⟩
  | opened hkind slot handle hfree h =>
    refine .opened hkind slot handle (hs.freeSlot ▸ hfree) (.trans ?_ h)
    have htable := hs.table slot (some handle) (some handle) rfl ((w.server.generation + 1) &&& 0x00ffffff)
      (Function.update w.server.tokens slot (((w.server.generation + 1) &&& 0x00ffffff) <<< 8 ||| slot.val))
    simp only [Server.insert, hs.generation, hs.tokens] at htable ⊢
    exact htable.emit _
  | closed hkind slot token htoken h =>
    refine .closed hkind slot token (by rw [← hs.slotOf, htoken]) (.trans ?_ h)
    have htable := hs.table slot none none rfl w.server.generation w.server.tokens
    have hw' : (World.mk { w1.server with
        generation := w.server.generation, tokens := w.server.tokens
        handles := Function.update w1.server.handles slot none } w1.volume) =
        { w1 with server := { w1.server with handles := Function.update w1.server.handles slot none } } := by
      rw [← hs.generation, ← hs.tokens]
    rw [hw'] at htable
    exact htable.emit _

/-- A handler for the request `id` of type `kind`. -/
def Handles (kind id : Nat) (m : SftpM F Unit) : Prop :=
  ∀ w, Ends m w (fun _ w' => Handled kind id w w') fun status w' => w.Same w' ∧ status.Short

namespace Handles

variable {kind id : Nat} {α : Type} {Q : α → Prop}

/-- A short status ends a handler well. -/
theorem throw {status : Status} (h : status.Short) : Handles (F := F) kind id (throw status) := fun w =>
  ends_throw ⟨.refl w, h⟩

/-- Before its reply a handler moves the volume and what open handles hold only. -/
theorem bind {m : SftpM F α} {f : α → SftpM F Unit} (hm : Quiet Q m) (hf : ∀ a, Q a → Handles kind id (f a)) :
    Handles kind id (m >>= f) := fun _ =>
  hm.ends_bind (fun a _ hs hQ => (hf a hQ _).mono (fun _ _ h => h.of_same hs) fun _ _ h => ⟨hs.trans h.1, h.2⟩)
    fun _ _ hs h => ⟨hs, h⟩

/-- A guard that throws. -/
theorem guard {c : Prop} [Decidable c] {status : Status} {f : PUnit → SftpM F Unit} (h : status.Short)
    (hf : Handles kind id (f ())) : Handles kind id (if c then MonadExcept.throw status >>= f else f ()) := by
  split
  · exact bind (Q := fun _ => False) (.throw h) fun _ h => h.elim
  · exact hf

/-- Both branches handle the request, the first under its condition. -/
theorem ite {c : Prop} [Decidable c] {m m' : SftpM F Unit} (h : c → Handles kind id m) (h' : Handles kind id m') :
    Handles kind id (if c then m else m') := by
  split
  · exact h ‹_›
  · exact h'

/-- A reply handles the request. -/
theorem reply {p : List UInt8} (h : IsReply id p) : Handles (F := F) kind id (reply p) := fun _ => .replied p h (.refl _)

/-- So does the status OK. -/
theorem ok : Handles (F := F) kind id (ok id) := reply (is_reply_status id (by decide))

/-- A handler that ends with an opened handle. -/
theorem allocate (hkind : kind = FXP_OPEN ∨ kind = FXP_OPENDIR) (handle : Handle F) :
    Handles (F := F) kind id (do let slot ← allocate handle; handleReply id slot) := by
  intro w
  refine ends_bind (ends_bind (ends_view ?_))
  split
  · rename_i slot hfree
    refine ends_bind (ends_update (ends_pure ?_))
    exact ends_bind (ends_view (ends_update (.opened hkind slot handle hfree (.refl _))))
  · exact ends_throw ⟨.refl w, by decide⟩

end Handles

/-! ## Requests on paths -/

variable {kind : Nat}

/-- Looking up a handle string is quiet. -/
theorem Quiet.slotOf (token : List UInt8) : Quiet (fun _ => True) (slotOf (F := F) token) :=
  Quiet.bind (Q := ShortErrors) (.view _ fun s => s.slotOf_short token) fun _ h => .check (fun _ _ => trivial) h

/-- Looking up the file of a slot is quiet. -/
theorem Quiet.fileAt (slot : Slot) : Quiet (fun _ => True) (fileAt (F := F) slot) :=
  Quiet.bind (Q := ShortErrors) (.view _ fun s => s.file_short slot) fun _ h => .check (fun _ _ => trivial) h

/-- STAT of a path's components. -/
theorem handles_statComponents (id : Nat) (components : List Str) (ctx : Ctx) :
    Handles (F := F) kind id (statComponents id components ctx) := by
  unfold statComponents
  have hreply (attrs : Attrs) : Handles (F := F) kind id (reply (packet FXP_ATTRS (putU32 id ++ attrs.encode))) :=
    .reply (is_reply (by decide) (le_trans (length_encode_attrs attrs) (by decide)))
  dsimp only
  split
  · exact hreply _
  · exact .bind (.findEntry _ _) fun entry _ => hreply _

/-- STAT and LSTAT. -/
theorem handles_statPath (id : Nat) (body : List UInt8) (ctx : Ctx) : Handles (F := F) kind id (statPath id body ctx) :=
  .bind (.parse _ _) fun _ _ => handles_statComponents id _ ctx

/-- FSTAT. -/
theorem handles_fstat (id : Nat) (body : List UInt8) (ctx : Ctx) : Handles (F := F) kind id (fstat id body ctx) := by
  refine .bind (.parse _ _) fun _ _ => .bind (.slotOf _) fun slot _ => ?_
  refine .bind (Q := ShortErrors) (.view _ fun s => s.handleComponents_short slot) fun r h => ?_
  exact .bind (.check (fun _ _ => trivial) h) fun _ _ => handles_statComponents id _ ctx

/-- OPENDIR, which fills a slot. -/
theorem handles_opendir (hkind : kind = FXP_OPENDIR) (id : Nat) (body : List UInt8) :
    Handles (F := F) kind id (opendir id body) := by
  refine .bind (.parse _ _) fun _ _ => .bind (.call _) fun r _ => ?_
  split
  · exact .allocate (.inr hkind) _
  · split
    · refine .bind (.call _) fun r _ => ?_
      split
      · exact .throw (by decide)
      · exact .throw (by decide)
    · exact .throw (by decide)

/-- A token that `slotOf` accepts. -/
theorem ends_slotOf {w : World F} {token : List UInt8} {Q : Slot → World F → Prop} {E : Status → World F → Prop}
    (hok : ∀ slot, w.server.slotOf token = .ok slot → Q slot w) (herror : ∀ status, status.Short → E status w) :
    Ends (slotOf token) w Q E :=
  ends_bind (ends_view (ends_check hok fun _ h => herror _ (w.server.slotOf_short token _ h)))

/-- CLOSE, which empties one. -/
theorem handles_close (hkind : kind = FXP_CLOSE) (id : Nat) (body : List UInt8) :
    Handles (F := F) kind id (close id body) := by
  refine .bind (.parse _ _) fun r _ w => ends_bind (ends_slotOf (fun slot hslot => ?_) fun _ h => ⟨.refl w, h⟩)
  exact ends_bind (ends_update (show Ends (reply _) _ _ _ from ends_reply (.closed hkind slot r.1 hslot (.refl _))))

/-! ## Requests on entries -/

/-- REMOVE. -/
theorem handles_remove (id : Nat) (body : List UInt8) : Handles (F := F) kind id (remove id body) := by
  refine .bind (.parse _ _) fun _ _ => .bind (.check (fun _ _ => trivial) (splitLast_short _ (by decide))) fun _ _ => ?_
  refine .bind (.findEntry _ _) fun entry _ => .guard (by decide) (.guard (by decide) ?_)
  exact .bind (.callOr _ (by decide)) fun _ _ => .ok

/-- Setting times and the read-only bit is quiet. -/
theorem Quiet.applyMetadata (entry : F.Entry) (attrs : RequestedAttrs) (clock : ClockConfig) :
    Quiet (fun _ => True) (applyMetadata entry attrs clock) := by
  refine .bind (Q := fun _ => True) ?_ fun _ _ => ?_
  · unfold applyTimes
    split
    · refine .bind (.check (fun _ _ => trivial) (fatTime_short _ _)) fun modified _ => ?_
      exact .bind (.check (fun _ _ => trivial) (fatTime_short _ _)) fun accessed _ => .callOr _ (by decide)
    · exact .pure trivial
  · unfold applyPermissions
    split
    · exact .callOr _ (by decide)
    · exact .pure trivial

/-- RMDIR. -/
theorem handles_rmdir (id : Nat) (body : List UInt8) : Handles (F := F) kind id (rmdir id body) := by
  refine .bind (.parse _ _) fun _ _ => .bind (.check (fun _ _ => trivial) (splitLast_short _ (by decide))) fun _ _ => ?_
  refine .bind (.findEntry _ _) fun entry _ => .guard (by decide) (.bind (.call _) fun r _ => ?_)
  split
  · exact .ok
  · exact .throw (by decide)
  · exact .throw (by decide)

/-- RENAME. -/
theorem handles_rename (id : Nat) (body : List UInt8) : Handles (F := F) kind id (rename id body) := by
  refine .bind (.parse _ _) fun _ _ => .bind (.check (fun _ _ => trivial) (splitLast_short _ (by decide))) fun _ _ => ?_
  refine .bind (.check (fun _ _ => trivial) (splitLast_short _ (by decide))) fun _ _ => .guard (by decide) ?_
  refine .bind (.findEntry _ _) fun entry _ => .bind (.openDirEntry _) fun dest _ => .bind (.call _) fun r _ => ?_
  split
  · exact .ok
  · exact .throw (by decide)
  · exact .throw (by decide)

/-- MKDIR. -/
theorem handles_mkdir (id : Nat) (body : List UInt8) (ctx : Ctx) : Handles (F := F) kind id (mkdir id body ctx) := by
  refine .bind (.parse _ _) fun _ _ => .bind (.check (fun _ _ => trivial) (validateAttrs_short _ _)) fun _ _ => ?_
  refine .guard (by decide) (.bind (.check (fun _ _ => trivial) (splitLast_short _ (by decide))) fun _ _ => ?_)
  refine .bind (.openDirEntry _) fun dir _ => .bind (.call _) fun r _ => ?_
  split
  · exact .bind (.findEntry _ _) fun entry _ => .bind (.applyMetadata _ _ _) fun _ _ => .ok
  · exact .throw (by decide)
  · exact .throw (by decide)

/-- Dropping the cursors of a file is quiet. -/
theorem Quiet.invalidateFile (parent : List Str) (leaf : Str) :
    Quiet (fun _ => True) (update (F := F) (·.invalidateFile parent leaf)) := by
  refine fun w => ends_update ⟨.handles w _ _ fun slot => ?_, trivial⟩
  cases hs : w.server.handles slot with
  | none => rfl
  | some handle => cases handle <;> rfl

/-- Finding, truncating or creating the file of an OPEN is quiet. -/
theorem Quiet.openTarget (parent : List Str) (leaf : Str) (flags : Nat) :
    Quiet (fun _ => True) (openTarget (F := F) parent leaf flags) := by
  refine .bind (.openDirEntry _) fun dir _ => .bind (.callOr _ (by decide)) fun existing _ => ?_
  split
  · split
    · exact .throw (by decide)
    split
    · exact .throw (by decide)
    split
    · exact .throw (by decide)
    split
    · exact .bind (.callOr _ (by decide)) fun _ _ => .bind (.invalidateFile _ _) fun _ _ => .pure trivial
    · exact .pure trivial
  · split
    · exact .bind (.callOr _ (by decide)) fun _ _ => .pure trivial
    · exact .throw (by decide)

/-- SETSTAT of a path's components, which may leave a growing file pending. -/
theorem handles_setstat_components (id : Nat) (components : List Str) (attrs : RequestedAttrs) (ctx : Ctx) :
    Handles (F := F) kind id (applySetstat id components attrs ctx) := by
  refine .bind (.check (fun _ _ => trivial) (validateAttrs_short _ _)) fun _ _ => ?_
  refine .bind (.check (fun _ h => splitLast_eq h) (splitLast_short _ (by decide))) fun r hr => ?_
  refine .bind (.findEntry _ _) fun entry _ => ?_
  obtain ⟨leaf, parent⟩ := r
  dsimp only
  split
  · exact .throw (by decide)
  split
  · exact .throw (by decide)
  split
  · exact fun w => ends_update (.growing
      { id, components, attrs, file := resizeFile parent leaf entry.len } rfl hr (.refl _))
  refine .bind (Q := fun _ => True) ?_ fun _ _ => ?_
  · unfold shrink
    split
    · split
      · exact .callOr _ (by decide)
      · exact .pure trivial
    · exact .pure trivial
  refine .bind (.findEntry _ _) fun entry _ => .bind (.applyMetadata _ _ _) fun _ _ => ?_
  exact .bind (.invalidateFile _ _) fun _ _ => .ok

/-- SETSTAT. -/
theorem handles_setstat (id : Nat) (body : List UInt8) (ctx : Ctx) : Handles (F := F) kind id (setstat id body ctx) :=
  .bind (.parse _ _) fun _ _ => handles_setstat_components id _ _ ctx

/-- FSETSTAT. -/
theorem handles_fsetstat (id : Nat) (body : List UInt8) (ctx : Ctx) : Handles (F := F) kind id (fsetstat id body ctx) := by
  refine .bind (.parse _ _) fun r _ => .bind (.slotOf _) fun slot _ => .bind (Q := fun _ => True) ?_ fun _ _ => ?_
  · unfold requireWritable
    split
    · refine .bind (.fileAt _) fun file _ => ?_
      split
      · exact .throw (by decide)
      · exact .pure trivial
    · exact .pure trivial
  · refine .bind (Q := ShortErrors) (.view _ fun s => s.handleComponents_short slot) fun components h => ?_
    exact .bind (.check (fun _ _ => trivial) h) fun _ _ => handles_setstat_components id _ _ ctx

/-! ## Requests on handles -/

/-- OPEN, which fills a slot. -/
theorem handles_openFile (hkind : kind = FXP_OPEN) (id : Nat) (body : List UInt8) (ctx : Ctx) :
    Handles (F := F) kind id (openFile id body ctx) := by
  refine .bind (.parse _ _) fun r _ => .bind (.check (fun _ _ => trivial) (validateAttrs_short _ _)) fun _ _ => ?_
  refine .bind (.check (fun _ _ => trivial) (splitLast_short _ (by decide))) fun path _ => ?_
  refine .bind (.openTarget _ _ _) fun target _ => .bind (Q := fun _ => True) ?_ fun _ _ => .allocate (.inl hkind) _
  unfold applyCreated
  split
  · exact .bind (.findEntry _ _) fun entry _ => .applyMetadata _ _ _
  · exact .pure trivial

/-- READ, which leaves its payload to be streamed. -/
theorem handles_readFile (id : Nat) (body : List UInt8) : Handles (F := F) kind id (readFile id body) := by
  refine .bind (.parse _ _) fun r _ => .bind (.slotOf _) fun slot _ => .bind (.fileAt _) fun file _ => ?_
  refine .guard (by decide) (.bind (.findEntry _ _) fun entry _ => ?_)
  split
  · exact .reply (is_reply_status _ (by decide))
  · rename_i hrange
    obtain ⟨⟨token, offset, wanted⟩, rest⟩ := r
    dsimp only at hrange ⊢
    have hmax : 0 < MAX_READ_REPLY := by decide
    have hu32 : 0 < U32_MAX := by decide
    generalize hn : min (min wanted MAX_READ_REPLY) (min (entry.len - offset) U32_MAX) = length
    refine fun w => ends_update (.data { slot, offset, remaining := length } ?_ ?_ (.refl _))
    · show 0 < length
      omega
    · show length ≤ MAX_READ_REPLY
      omega

/-- READDIR. -/
theorem handles_readdir (id : Nat) (body : List UInt8) (ctx : Ctx) : Handles (F := F) kind id (readdir id body ctx) := by
  refine .bind (.parse _ _) fun r _ => .bind (.slotOf _) fun slot _ w => ends_bind (ends_view ?_)
  split
  swap
  · exact ends_throw ⟨.refl w, by decide⟩
  rename_i dir hdir
  refine (Quiet.openDirEntry _).ends_bind (fun fatDir w1 h1 _ => ?_) fun _ _ hs h => ⟨hs, h⟩
  refine (Quiet.callOr _ (by decide)).ends_bind (fun records w2 h2 _ => ?_) fun _ _ hs h => ⟨h1.trans hs, h⟩
  have h02 := h1.trans h2
  refine ends_bind (ends_check (fun result hresult => ?_) fun _ h => ⟨h02, readdirEntries_short _ _ _ _ _ _ h⟩)
  refine ends_bind (ends_update ?_)
  obtain ⟨entries, count⟩ := result
  have hlen := length_readdirEntries ctx records dir.next [] 0 hresult (Nat.zero_le _)
  have hbudget : READDIR_MAX_BYTES + 1754 = 4826 := rfl
  -- the directory handle moves on, and stays a handle
  have h3 : w.Same { w2 with server := { w2.server with
      handles := Function.update w2.server.handles slot (some (.dir { dir with next := dir.next + count })) } } := by
    refine h02.trans (.handles w2 _ _ fun i => ?_)
    by_cases hi : i = slot
    · subst hi
      rw [Function.update_self, h02.open_slots, hdir]
      rfl
    · rw [Function.update_of_ne hi]
  dsimp only
  split
  · exact ends_reply (Handled.of_same h3 (.replied _ (is_reply_status _ (by decide)) (.refl _)))
  · refine ends_reply (Handled.of_same h3 (.replied _ ?_ (.refl _)))
    rw [List.append_assoc]
    refine is_reply (by decide) ?_
    have hmax : MAX_OUTPUT = 8256 := rfl
    rw [List.length_append, length_putU32]
    dsimp only at hlen
    omega

/-- The path of an accepted request fits the reply twice. -/
theorem handles_realpath (id : Nat) (body : List UInt8) (hbody : body.length ≤ MAX_REQUEST) :
    Handles (F := F) kind id (realpath id body) := by
  have hname (c : List UInt8) (hc : c.length ≤ 4093) :
      IsReply id (packet FXP_NAME (putU32 id ++ putU32 1 ++ putString c ++ putString c ++ putU32 0)) := by
    have hmax : MAX_OUTPUT = 8256 := rfl
    rw [List.append_assoc, List.append_assoc, List.append_assoc]
    refine is_reply (by decide) ?_
    simp only [List.length_append, length_putU32, length_putString]
    omega
  refine .bind (.parse _ _) fun r hr => .reply (hname _ ?_)
  have hpath := reader_path hr
  have hcanonical := length_canonical r.1
  have hrequest : MAX_REQUEST = 4096 := rfl
  omega

/-! ## Extensions -/

/-- The answer to statvfs. -/
theorem handles_statvfsReply (id : Nat) (components : List Str) :
    Handles (F := F) kind id (statvfsReply id components) := by
  refine .bind (Q := fun _ => True) ?_ fun _ _ => .bind (.viewVolume _) fun free _ => ?_
  · unfold requireEntry
    split
    · exact .bind (.findEntry _ _) fun _ _ => .pure trivial
    · exact .pure trivial
  split
  · exact .throw (by decide)
  · refine .bind (.viewVolume _) fun total _ => .guard (by decide) ?_
    refine .bind (.viewVolume _) fun clusterSize _ => .bind (.viewVolume _) fun volumeId _ => .reply ?_
    exact is_reply (by decide) (by simp; decide)

/-- EXTENDED. -/
theorem handles_extended (id : Nat) (body : List UInt8) : Handles (F := F) kind id (extended id body) := by
  refine .bind (.parse _ _) fun r _ => ?_
  dsimp only
  split
  · exact .reply (is_reply (by decide) (by simp; decide))
  split
  · refine .bind (.parse _ _) fun _ _ => .bind (.slotOf _) fun _ _ => .bind (.fileAt _) fun _ _ => ?_
    exact .bind (.callOr _ (by decide)) fun _ _ => .ok
  split
  · exact .bind (.parse _ _) fun _ _ => handles_statvfsReply id _
  split
  · refine .bind (.parse _ _) fun _ _ => .bind (.slotOf _) fun slot _ => ?_
    refine .bind (Q := ShortErrors) (.view _ fun s => s.handleComponents_short slot) fun components h => ?_
    exact .bind (.check (fun _ _ => trivial) h) fun _ _ => handles_statvfsReply id _
  · exact .throw (by decide)

/-! ## Every request -/

/-- Every handler of an accepted request handles it. -/
theorem handles_request (kind id : Nat) (body : List UInt8) (ctx : Ctx) (hbody : body.length ≤ MAX_REQUEST) :
    Handles (F := F) kind id (handleRequest kind id body ctx) := by
  unfold handleRequest
  refine .ite (fun _ => handles_realpath id body hbody) (.ite (fun _ => handles_statPath id body ctx) ?_)
  refine .ite (fun _ => handles_fstat id body ctx) (.ite (fun h => handles_opendir h id body) ?_)
  refine .ite (fun _ => handles_readdir id body ctx) (.ite (fun h => handles_openFile h id body ctx) ?_)
  refine .ite (fun h => handles_close h id body) (.ite (fun _ => handles_readFile id body) ?_)
  refine .ite (fun _ => handles_remove id body) (.ite (fun _ => handles_mkdir id body ctx) ?_)
  refine .ite (fun _ => handles_rmdir id body) (.ite (fun _ => handles_rename id body) ?_)
  refine .ite (fun _ => handles_setstat id body ctx) (.ite (fun _ => handles_fsetstat id body ctx) ?_)
  exact .ite (fun _ => handles_extended id body) (.throw (by decide))

namespace Handled

variable {id : Nat} {w w' : World F}

/-- No handler starts or ends a WRITE. -/
theorem writeStream (h : Handled kind id w w') : w'.server.writeStream = w.server.writeStream := by
  cases h with
  | replied _ _ h => exact h.writeStream
  | data _ _ _ h => exact h.writeStream
  | growing _ _ _ h => exact h.writeStream
  | opened _ _ _ _ h => exact h.writeStream
  | closed _ _ _ _ h => exact h.writeStream

/-- No handler gives the session up. -/
theorem fatal (h : Handled kind id w w') : w'.server.fatal = w.server.fatal := by
  cases h with
  | replied _ _ h => exact h.fatal
  | data _ _ _ h => exact h.fatal
  | growing _ _ _ h => exact h.fatal
  | opened _ _ _ _ h => exact h.fatal
  | closed _ _ _ _ h => exact h.fatal

end Handled

end Ratputer
