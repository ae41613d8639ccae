import Ratputer.Lemmas.SftpListing
import Ratputer.Theorems.SftpTokens
import Ratputer.Lib.Chunks
import Ratputer.Lib.Mealy
import Ratputer.Ram

/-!
# Listing a directory that changes

READDIR counts the entries it has returned and skips as many on its next walk. It lists every entry once as long as nothing
changes before that position; an entry that goes there moves the others up, and one of them is skipped.
-/

namespace Ratputer

open Effect

variable {V : Type} {F : Fat V}

/-- A request as the client sends it. -/
structure ClientRequest where
  kind : Nat
  id : Nat
  body : List UInt8
  ctx : Ctx := {}

/-- Answer a request: its reply goes out. -/
def World.request (w : World F) (p : ClientRequest) : World F × List UInt8 :=
  let w' := World.dispatch { w with server.out := [] } p.kind (putU32 p.id ++ p.body) true p.ctx
  (w', w'.server.out)

/-- A READDIR on a handle string. -/
def ClientRequest.Reads (token : List UInt8) (p : ClientRequest) : Prop :=
  p.kind = FXP_READDIR ∧ ∃ rest, Reader.string p.body = some (token, rest)

/-- A request that may create, delete or rename entries. -/
def ClientRequest.Changes (p : ClientRequest) : Prop := p.kind ∈ [FXP_OPEN, FXP_MKDIR, FXP_REMOVE, FXP_RMDIR, FXP_RENAME]

instance (p : ClientRequest) : Decidable p.Changes := inferInstanceAs (Decidable (_ ∈ _))

/-- A turn of a client that lists a directory: the reply is kept where it answers a READDIR. -/
def World.turn (w : World F) (p : ClientRequest) : World F × Option (List UInt8) :=
  ((w.request p).1, if p.kind = FXP_READDIR then some (w.request p).2 else none)

/-- The reply is the end of the directory. -/
def IsEof (reply : List UInt8) : Prop := kindOf reply = FXP_STATUS ∧ u32At reply 9 = FX_EOF

instance (reply : List UInt8) : Decidable (IsEof reply) := inferInstanceAs (Decidable (_ ∧ _))

/-- The batches of names that replies list. -/
def batches (replies : List (Option (List UInt8))) : List (List (List UInt8)) :=
  replies.filterMap fun reply => reply.bind listedNames

/-- The directory at the components has these names on each volume: a walk over it comes by all of them, unless a record cannot
be read, and leaves them as they are. -/
structure Lists (F : Fat V) (components : List Str) (names : V → List (List UInt8)) : Prop where
  opened : ∀ v, Ends (F.openDirPath components) v (fun _ v' => names v' = names v) fun _ v' => names v' = names v
  walked : ∀ v dir v', F.openDirPath components v = .ok dir v' →
    Ends (F.entries dir) v'
      (fun records v'' => names v'' = names v' ∧ (visible records).map (asBytes ·.name) <+: names v' ∧
        (Readable records → (visible records).map (asBytes ·.name) = names v'))
      fun _ v'' => names v'' = names v'

/-- The directory can be read from one end to the other. -/
def Sound (F : Fat V) (components : List Str) (v : V) : Prop :=
  ∃ dir v' records v'', F.openDirPath components v = .ok dir v' ∧ F.entries dir v' = .ok records v'' ∧ Readable records

/-- A handle string stands for a directory and a position in it. -/
structure HoldsDir (w : World F) (token : List UInt8) (slot : Slot) (components : List Str) (next : Nat) : Prop where
  slotOf : w.server.slotOf token = .ok slot
  dir : w.server.handles slot = some (.dir { components, next })

/-- The position of the directory handle that a handle string stands for. -/
def World.position (w : World F) (token : List UInt8) : Nat :=
  match w.server.slotOf token with
  | .ok slot =>
    match w.server.handles slot with
    | some (.dir dir) => dir.next
    | _ => 0
  | .error _ => 0

/-- A request that changes directories leaves the names before the position of the handle as they are. -/
def Undisturbed (names : V → List (List UInt8)) (token : List UInt8) (w : World F) (p : ClientRequest) : Prop :=
  p.Changes → (names (w.request p).1.volume).take (w.position token) = (names w.volume).take (w.position token)

/-! ## Directory handles stay -/

/-- Directory handles stay open, where they stand. -/
structure KeepsDirs (w w' : World F) : Prop where
  dirs : ∀ slot dir, w.server.handles slot = some (.dir dir) → w'.server.handles slot = some (.dir dir)
  tokens : ∀ slot dir, w.server.handles slot = some (.dir dir) → w'.server.tokens slot = w.server.tokens slot

namespace KeepsDirs

variable {w w' w'' : World F}

theorem refl (w : World F) : KeepsDirs w w := ⟨fun _ _ h => h, fun _ _ _ => rfl⟩

/-- Directory handles that are kept twice are kept. -/
theorem trans (h : KeepsDirs w w') (h' : KeepsDirs w' w'') : KeepsDirs w w'' :=
  ⟨fun slot dir hd => h'.dirs slot dir (h.dirs slot dir hd),
    fun slot dir hd => (h'.tokens slot dir (h.dirs slot dir hd)).trans (h.tokens slot dir hd)⟩

instance : Std.Refl (KeepsDirs (F := F)) := ⟨refl⟩

instance : IsTrans (World F) KeepsDirs := ⟨fun _ _ _ => trans⟩

/-- Only the volume and the output differ. -/
theorem of_eq (hhandles : w'.server.handles = w.server.handles) (htokens : w'.server.tokens = w.server.tokens) :
    KeepsDirs w w' := ⟨fun _ _ h => by rw [hhandles, h], fun _ _ _ => by rw [htokens]⟩

/-- A handle string stands for the directory and the position that it stood for. -/
theorem holds (h : KeepsDirs w w') {token : List UInt8} {slot : Slot} {components : List Str} {next : Nat}
    (hw : HoldsDir w token slot components next) : HoldsDir w' token slot components next := by
  have hdir := h.dirs slot _ hw.dir
  obtain ⟨hlen, hslot, -, htoken⟩ := (Server.slotOf_iff _ _ _).mp hw.slotOf
  refine ⟨(Server.slotOf_iff _ _ _).mpr ⟨hlen, hslot, ?_, (h.tokens slot _ hw.dir).trans htoken⟩, hdir⟩
  rw [hdir]
  rfl

end KeepsDirs

/-- An action that keeps directory handles. -/
abbrev DirSteady {α : Type} (m : SftpM F α) : Prop := Frames KeepsDirs (fun _ => True) (fun _ => True) m

namespace DirSteady

variable {α : Type}

/-- A look at the server. -/
theorem view (f : Server F → α) : DirSteady (view f) := fun w => ⟨.refl w, trivial⟩

/-- A checked result. -/
theorem check (r : Except Status α) : DirSteady (F := F) (check r) := by
  cases r with
  | ok a => exact frames_pure trivial
  | error status => exact frames_throw trivial

/-- The fields of a request. -/
theorem parse (reader : ReaderM α) (body : List UInt8) : DirSteady (F := F) (parse reader body) := by
  unfold Ratputer.parse
  split
  · exact frames_pure trivial
  · exact frames_throw trivial

/-- A driver call. -/
theorem call (op : FatM V α) : DirSteady (F := F) (call op) := by
  intro w
  unfold Ratputer.call Ends
  cases hop : op w.volume with
  | ok a v => simp only [hop]; exact ⟨.of_eq rfl rfl, trivial⟩
  | error e v => simp only [hop]; exact ⟨.of_eq rfl rfl, trivial⟩

/-- A driver call under the status for its failure. -/
theorem callOr (op : FatM V α) (status : Status) : DirSteady (F := F) (callOr op status) :=
  fun _ => ends_callOr (fun _ _ _ => ⟨.of_eq rfl rfl, trivial⟩) fun _ _ _ => ⟨.of_eq rfl rfl, trivial⟩

/-- Finding the entry of a path. -/
theorem findEntry (parent : List Str) (leaf : Str) : DirSteady (findEntry (F := F) parent leaf) := by
  refine frames_bind (call _) fun r _ => ?_
  split
  · exact frames_pure trivial
  · exact frames_throw trivial

/-- A guard that throws. -/
theorem guard {c : Prop} [Decidable c] {status : Status} {f : PUnit → SftpM F α} (hf : DirSteady (f ())) :
    DirSteady (if c then MonadExcept.throw status >>= f else f ()) := by
  split
  · exact frames_bind (frames_throw (Q := fun _ => False) trivial) fun _ h => h.elim
  · exact hf

/-- A reply. -/
theorem reply (bytes : List UInt8) : DirSteady (F := F) (reply bytes) := fun _ => ⟨.of_eq rfl rfl, trivial⟩

/-- Dropping the cursors of files leaves directories alone. -/
theorem invalidateFile (parent : List Str) (leaf : Str) : DirSteady (F := F) (update (·.invalidateFile parent leaf)) := by
  refine fun w => ends_update ⟨⟨fun slot dir h => ?_, fun _ _ _ => rfl⟩, trivial⟩
  simp only [Server.invalidateFile, h]

/-- A new handle goes to a free slot. -/
theorem allocate (handle : Handle F) : DirSteady (allocate handle) := by
  refine fun w => ends_bind (ends_view ?_)
  split
  · rename_i slot hfree
    have hnone : (w.server.handles slot).isNone = true := List.find?_some (p := fun i => (w.server.handles i).isNone) hfree
    have hne (i : Slot) (dir : DirHandle) (h : w.server.handles i = some (.dir dir)) : i ≠ slot := by
      rintro rfl
      rw [h] at hnone
      nomatch hnone
    refine ends_bind (ends_update (ends_pure ⟨⟨fun i dir h => ?_, fun i dir h => ?_⟩, trivial⟩))
    · exact (Function.update_of_ne (hne i dir h) _ _).trans h
    · exact Function.update_of_ne (hne i dir h) _ _
  · exact ends_throw ⟨.refl w, trivial⟩

/-- A HANDLE reply. -/
theorem handleReply (id : Nat) (slot : Slot) : DirSteady (F := F) (handleReply id slot) :=
  frames_bind (view _) fun _ _ => reply _

/-- Times and the read-only bit. -/
theorem applyMetadata (entry : F.Entry) (attrs : RequestedAttrs) (clock : ClockConfig) :
    DirSteady (applyMetadata entry attrs clock) := by
  refine frames_bind (Q := fun _ => True) ?_ fun _ _ => ?_
  · unfold applyTimes
    split
    · exact frames_bind (check _) fun _ _ => frames_bind (check _) fun _ _ => callOr _ _
    · exact frames_pure trivial
  · unfold applyPermissions
    split
    · exact callOr _ _
    · exact frames_pure trivial

/-! ### The requests that change directories -/

/-- Finding, truncating or creating the file of an OPEN. -/
theorem openTarget (parent : List Str) (leaf : Str) (flags : Nat) : DirSteady (openTarget (F := F) parent leaf flags) := by
  refine frames_bind (callOr _ _) fun dir _ => frames_bind (callOr _ _) fun existing _ => ?_
  split
  · split
    · exact frames_throw trivial
    split
    · exact frames_throw trivial
    split
    · exact frames_throw trivial
    split
    · exact frames_bind (callOr _ _) fun _ _ => frames_bind (invalidateFile _ _) fun _ _ => frames_pure trivial
    · exact frames_pure trivial
  · split
    · exact frames_bind (callOr _ _) fun _ _ => frames_pure trivial
    · exact frames_throw trivial

/-- OPEN fills a free slot, and no other. -/
theorem openFile (id : Nat) (body : List UInt8) (ctx : Ctx) : DirSteady (F := F) (openFile id body ctx) := by
  refine frames_bind (parse _ _) fun r _ => frames_bind (check _) fun _ _ => frames_bind (check _) fun path _ => ?_
  refine frames_bind (openTarget _ _ _) fun target _ => frames_bind (Q := fun _ => True) ?_ fun _ _ => ?_
  · unfold applyCreated
    split
    · exact frames_bind (findEntry _ _) fun _ _ => applyMetadata _ _ _
    · exact frames_pure trivial
  · exact frames_bind (allocate _) fun _ _ => handleReply _ _

/-- REMOVE. -/
theorem remove (id : Nat) (body : List UInt8) : DirSteady (F := F) (remove id body) := by
  refine frames_bind (parse _ _) fun r _ => frames_bind (check _) fun path _ => frames_bind (findEntry _ _) fun entry _ => ?_
  exact guard (guard (frames_bind (callOr _ _) fun _ _ => reply _))

/-- MKDIR. -/
theorem mkdir (id : Nat) (body : List UInt8) (ctx : Ctx) : DirSteady (F := F) (mkdir id body ctx) := by
  refine frames_bind (parse _ _) fun r _ => frames_bind (check _) fun _ _ => guard (frames_bind (check _) fun path _ => ?_)
  refine frames_bind (callOr _ _) fun dir _ => frames_bind (call _) fun r _ => ?_
  split
  · exact frames_bind (findEntry _ _) fun _ _ => frames_bind (applyMetadata _ _ _) fun _ _ => reply _
  · exact frames_throw trivial
  · exact frames_throw trivial

/-- RMDIR. -/
theorem rmdir (id : Nat) (body : List UInt8) : DirSteady (F := F) (rmdir id body) := by
  refine frames_bind (parse _ _) fun r _ => frames_bind (check _) fun path _ => frames_bind (findEntry _ _) fun entry _ => ?_
  refine guard (frames_bind (call _) fun r _ => ?_)
  split
  · exact reply _
  · exact frames_throw trivial
  · exact frames_throw trivial

/-- RENAME. -/
theorem rename (id : Nat) (body : List UInt8) : DirSteady (F := F) (rename id body) := by
  refine frames_bind (parse _ _) fun r _ => frames_bind (check _) fun _ _ => frames_bind (check _) fun _ _ => guard ?_
  refine frames_bind (findEntry _ _) fun entry _ => frames_bind (callOr _ _) fun dest _ => ?_
  refine frames_bind (call _) fun r _ => ?_
  split
  · exact reply _
  · exact frames_throw trivial
  · exact frames_throw trivial

/-- The handlers of these requests keep directory handles. -/
theorem handleRequest {p : ClientRequest} (h : p.Changes) (id : Nat) (body : List UInt8) :
    DirSteady (F := F) (handleRequest p.kind id body p.ctx) := by
  simp only [ClientRequest.Changes, List.mem_cons, List.not_mem_nil, or_false] at h
  rcases h with h | h | h | h | h
  · rw [h]; exact openFile id body p.ctx
  · rw [h]; exact mkdir id body p.ctx
  · rw [h]; exact remove id body
  · rw [h]; exact rmdir id body
  · rw [h]; exact rename id body

end DirSteady

/-! ## One request -/

namespace ReaddirAux

variable {w : World F} {token : List UInt8} {slot : Slot} {components : List Str} {next : Nat}

/-- A request with an id runs its handler, and a status it ends with is its reply. -/
theorem request_eq (w : World F) (p : ClientRequest) (hinit : p.kind ≠ FXP_INIT) :
    ∃ id, (w.request p).1 = ({ w with server.out := [] }).answer id (handleRequest p.kind id p.body p.ctx) := by
  have hid : Reader.u32 (putU32 p.id ++ p.body) = some (u32At (putU32 p.id ++ p.body) 0, p.body) := by
    rw [reader_u32_eq (by simp)]
    rw [List.drop_left' (length_putU32 _)]
  refine ⟨u32At (putU32 p.id ++ p.body) 0, ?_⟩
  unfold World.request World.dispatch
  dsimp only
  rw [if_neg hinit, hid]
  simp only [if_true]

/-- What a handler ends in is what the request ends in. -/
theorem ends_request {w : World F} {p : ClientRequest} (hinit : p.kind ≠ FXP_INIT) {Q : World F → Prop}
    (h : ∀ id, Ends (handleRequest p.kind id p.body p.ctx) { w with server.out := [] } (fun _ w' => Q w')
      fun status w' => Q (w'.emit (statusPacket id status))) : Q (w.request p).1 := by
  obtain ⟨id, heq⟩ := request_eq w p hinit
  rw [heq, World.answer]
  have hid := h id
  unfold Ends at hid
  split at hid
  · rename_i hrun
    rw [hrun]
    exact hid
  · rename_i hrun
    rw [hrun]
    exact hid

/-- A request that changes directories keeps the handle. -/
theorem holds_change {p : ClientRequest} (hp : p.Changes) (h : HoldsDir w token slot components next) :
    HoldsDir (w.request p).1 token slot components next := by
  have hinit : p.kind ≠ FXP_INIT := by
    intro h
    rw [ClientRequest.Changes, h] at hp
    exact absurd hp (by decide)
  refine KeepsDirs.holds (w := { w with server.out := [] }) (ends_request hinit fun id => ?_) ⟨h.slotOf, h.dir⟩
  refine (DirSteady.handleRequest hp id p.body _).mono (fun _ _ h => h.1) fun _ _ h => h.1.trans (.of_eq rfl rfl)

/-- The three replies to a READDIR: names that follow those already sent, the end of the directory when all were sent, or an
error where the directory could not be read. -/
inductive Batch (F : Fat V) (components : List Str) (names : V → List (List UInt8)) (next : Nat) (v : V) (reply : List UInt8) :
    List (List UInt8) → Prop
  | listed (batch : List (List UInt8)) (hreply : listedNames reply = some batch) (hne : batch ≠ []) (heof : ¬ IsEof reply)
      (hstart : batch <+: (names v).drop next) : Batch F components names next v reply batch
  | finished (hreply : listedNames reply = none) (heof : IsEof reply) (hdone : (names v).length ≤ next) :
      Batch F components names next v reply []
  | failed (hreply : listedNames reply = none) (heof : ¬ IsEof reply) (hunsound : ¬ Sound F components v) :
      Batch F components names next v reply []

/-- A STATUS ends a listing exactly if it says so. -/
theorem isEof_status (id : Nat) {status : Status} (h : status.code < 2 ^ 32) :
    IsEof (statusPacket id status) ↔ status.code = FX_EOF := by
  unfold IsEof
  rw [code_of_status id status h, statusPacket, kindOf_packet (by decide)]
  simp

/-- A NAME reply does not. -/
theorem not_isEof_name (body : List UInt8) : ¬ IsEof (packet FXP_NAME body) := by
  rintro ⟨hkind, -⟩
  rw [kindOf_packet (by decide)] at hkind
  exact absurd hkind (by decide)

/-- The error that ends a READDIR whose directory could not be read. -/
theorem batch_failed {names : V → List (List UInt8)} {v : V} (id : Nat) {status : Status} (h : status.code < 2 ^ 32)
    (hcode : status.code ≠ FX_EOF) (hunsound : ¬ Sound F components v) :
    Batch F components names next v (statusPacket id status) [] :=
  .failed (listedNames_status id status) (by rwa [isEof_status id h]) hunsound

/-- A directory that can be read gives readable records as soon as it is open. -/
theorem sound_records {v v' : V} {dir : F.Dir} (h : Sound F components v) (hopen : F.openDirPath components v = .ok dir v') :
    ∃ records v'', F.entries dir v' = .ok records v'' ∧ Readable records := by
  obtain ⟨dir', v₁, records, v₂, hopen', hread, hreadable⟩ := h
  rw [hopen] at hopen'
  injection hopen' with h1 h2
  subst h1 h2
  exact ⟨records, v₂, hread, hreadable⟩

/-- No names are left to send. -/
theorem batch_finished {names : V → List (List UInt8)} {v : V} {records : List (Except FatError F.Entry)} (id : Nat)
    (hall : (visible records).map (asBytes ·.name) = names v) (hrest : (visible records).drop next = []) :
    Batch F components names next v (statusPacket id ⟨FX_EOF, "End of directory"⟩) [] := by
  have hlength := congrArg List.length hrest
  rw [List.length_drop, List.length_nil] at hlength
  refine .finished (listedNames_status _ _) ((isEof_status _ (by decide)).mpr rfl) ?_
  rw [← hall, List.length_map]
  omega

/-- Some of the names that are left are sent. -/
theorem batch_listed {names : V → List (List UInt8)} {v : V} {records : List (Except FatError F.Entry)} {batch : List F.Entry}
    (id : Nat) (ctx : Ctx) (hstart : (visible records).map (asBytes ·.name) <+: names v)
    (hbatch : batch <+: (visible records).drop next) (hne : batch ≠ []) (hcount : batch.length ≤ READDIR_MAX_ENTRIES) :
    Batch F components names next v
      (packet FXP_NAME (putU32 id ++ putU32 batch.length ++ batch.flatMap (nameEntry ctx)))
      (batch.map (asBytes ·.name)) := by
  refine .listed _ ?_ (by rwa [ne_eq, List.map_eq_nil_iff]) (not_isEof_name _) ?_
  · exact listedNames_packet ctx (hcount.trans_lt (by decide))
  · exact (hbatch.map _).trans (List.map_drop ▸ hstart.drop next)

/-- The handle is put back with another position. -/
theorem holds_moved {v : V} {out : List UInt8} (h : HoldsDir w token slot components next) (next' : Nat) :
    HoldsDir
      { server := { w.server with
          out
          handles := Function.update w.server.handles slot (some (.dir { components, next := next' })) }
        volume := v } token slot components next' := by
  obtain ⟨hlen, hslot, -, htok⟩ := (Server.slotOf_iff _ _ _).mp h.slotOf
  have hopen : Function.update w.server.handles slot (some (.dir { components, next := next' })) slot =
    some (.dir { components, next := next' }) := Function.update_self ..
  exact ⟨(Server.slotOf_iff _ _ _).mpr ⟨hlen, hslot, congrArg Option.isNone hopen, htok⟩, hopen⟩

/-- A batch starts where the handle stands, and the handle moves behind it. -/
theorem request_readdir {names : V → List (List UInt8)} (hF : Lists F components names) {p : ClientRequest}
    (hp : p.Reads token) (h : HoldsDir w token slot components next) :
    ∃ batch, Batch F components names next w.volume (w.request p).2 batch ∧
      HoldsDir (w.request p).1 token slot components (next + batch.length) ∧
      names (w.request p).1.volume = names w.volume := by
  obtain ⟨hkind, rest, htoken⟩ := hp
  have hinit : p.kind ≠ FXP_INIT := by rw [hkind]; decide
  refine ends_request (Q := fun w' => ∃ batch, Batch F components names next w.volume w'.server.out batch ∧
    HoldsDir w' token slot components (next + batch.length) ∧ names w'.volume = names w.volume) hinit fun id => ?_
  rw [hkind]
  show Ends (readdir id p.body p.ctx) _ _ _
  unfold readdir
  refine ends_bind ?_
  rw [parse, htoken]
  refine ends_pure (ends_bind ?_)
  refine ends_bind (ends_view (ends_check (fun slot' hslot => ?_) fun status hstatus => ?_))
  swap
  · exact absurd (hstatus.symm.trans h.slotOf) (by simp)
  obtain rfl : slot' = slot := by
    have := hslot.symm.trans h.slotOf
    injection this
  refine ends_bind (ends_view ?_)
  have hdir : w.server.handles slot' = some (.dir { components, next }) := h.dir
  simp only [hdir]
  have hopened := hF.opened w.volume
  -- the directory is opened
  refine ends_bind (ends_callOr (fun dir v hopen => ?_) fun e v hopen => ?_)
  swap
  · refine ⟨[], batch_failed id (by decide) (by decide) ?_, ⟨h.slotOf, h.dir⟩, hopened.error hopen⟩
    rintro ⟨dir, v', -, -, hsound, -⟩
    rw [hopen] at hsound
    cases hsound
  have hwalked := hF.walked w.volume dir v hopen
  -- its records are read
  refine ends_bind (ends_callOr (fun records v' hread => ?_) fun e v' hread => ?_)
  swap
  · refine ⟨[], batch_failed id (by decide) (by decide) fun hsound => ?_, ⟨h.slotOf, h.dir⟩,
      (hwalked.error hread).trans (hopened.ok hopen)⟩
    obtain ⟨records, v'', hread', -⟩ := sound_records hsound hopen
    rw [hread] at hread'
    cases hread'
  obtain ⟨hnames, hstart, hall⟩ := hwalked.ok hread
  rw [hopened.ok hopen] at hnames hstart hall
  refine ends_bind (ends_check (fun result hresult => ?_) fun status hstatus => ?_)
  swap
  · obtain ⟨rfl, hunreadable⟩ := readdirEntries_error hstatus
    refine ⟨[], batch_failed id (by decide) (by decide) fun hsound => ?_, ⟨h.slotOf, h.dir⟩, hnames⟩
    obtain ⟨records', v'', hread', hreadable⟩ := sound_records hsound hopen
    rw [hread] at hread'
    injection hread' with heq _
    exact hunreadable (heq ▸ hreadable)
  have hcount := count_readdirEntries hresult (Nat.zero_le _)
  obtain ⟨batch, rfl, hbatch, hcomplete⟩ := readdirEntries_ok hresult
  rw [List.nil_append, Nat.zero_add] at hcomplete hcount ⊢
  -- the handle moves behind the batch
  refine ends_bind (ends_update ?_)
  dsimp only
  by_cases hnil : batch = []
  · rw [if_pos (by rw [hnil]; rfl)]
    obtain ⟨hreadable, hrest⟩ := hcomplete (by rw [hnil]; exact Nat.zero_lt_succ _) (by rw [hnil]; exact Nat.zero_lt_succ _)
    have hnext : next + ([] : List (List UInt8)).length = next + batch.length := by rw [hnil]; rfl
    refine ends_reply ⟨[], batch_finished id (hall hreadable) (hrest.symm.trans hnil), ?_, hnames⟩
    rw [hnext]
    exact holds_moved h _
  · rw [if_neg (by rwa [List.length_eq_zero_iff])]
    refine ends_reply ⟨batch.map (asBytes ·.name), batch_listed id p.ctx hstart hbatch hnil hcount, ?_, hnames⟩
    rw [List.length_map]
    exact holds_moved h _

/-- The handle string of a HANDLE reply. -/
def handleOf (reply : List UInt8) : List UInt8 := (reply.drop 13).take 4

/-- The handle string of the reply for a handle that has just been put into a slot stands for it. -/
theorem holds_insert (s : Server F) (id : Nat) (dir : DirHandle) {w' : World F}
    (hserver : w'.server.handles = (s.insert slot (.dir dir)).handles)
    (htokens : w'.server.tokens = (s.insert slot (.dir dir)).tokens) :
    HoldsDir w' (handleOf ([] ++ packet FXP_HANDLE (putU32 id ++ putString (putU32 ((s.insert slot (.dir dir)).tokens slot)))))
      slot dir.components dir.next := by
  have hgeneration : (s.generation + 1) &&& 0x00ffffff < 2 ^ 24 := Nat.and_lt_two_pow _ (by decide)
  have htoken : (s.insert slot (.dir dir)).tokens slot = ((s.generation + 1) &&& 0x00ffffff) <<< 8 ||| slot.val :=
    Function.update_self ..
  have hdir : w'.server.handles slot = some (.dir dir) := by
    rw [hserver]
    exact Function.update_self ..
  refine ⟨(Server.slotOf_iff _ _ _).mpr ?_, hdir⟩
  rw [List.nil_append, handleOf, Sftp.TokensAux.token_of_handle, htoken, Sftp.TokensAux.beNat_putU32 hgeneration,
    htokens, htoken, hdir]
  exact ⟨length_putU32 _, Sftp.TokensAux.token_slot _ _, rfl, rfl⟩

/-- An OPENDIR that is answered with a handle opens the directory at its start. -/
theorem request_opendir {p : ClientRequest} (hkind : p.kind = FXP_OPENDIR) {path : Str} {rest : List UInt8}
    (hpath : Reader.path p.body = some (path, rest)) (hreply : kindOf (w.request p).2 = FXP_HANDLE) :
    ∃ slot, HoldsDir (w.request p).1 (handleOf (w.request p).2) slot (resolve [] path) 0 := by
  have hinit : p.kind ≠ FXP_INIT := by rw [hkind]; decide
  have hstatus (id : Nat) (status : Status) : kindOf ([] ++ statusPacket id status) ≠ FXP_HANDLE := by
    rw [List.nil_append, statusPacket, kindOf_packet (by decide)]
    decide
  refine ends_request (Q := fun w' => kindOf w'.server.out = FXP_HANDLE →
    ∃ slot, HoldsDir w' (handleOf w'.server.out) slot (resolve [] path) 0) hinit (fun id => ?_) hreply
  rw [hkind]
  show Ends (opendir id p.body) _ _ _
  unfold opendir
  refine ends_bind ?_
  rw [parse, hpath]
  refine ends_pure (ends_bind (ends_call (fun dir v _ => ?_) fun e v _ => ?_))
  · refine ends_bind (ends_bind (ends_view ?_))
    split
    swap
    · exact ends_throw fun h => absurd h (hstatus _ _)
    rename_i slot hfree
    refine ends_bind (ends_update (ends_pure ?_))
    refine ends_bind (ends_view (ends_reply fun _ => ⟨slot, ?_⟩))
    exact holds_insert _ _ _ rfl rfl
  · dsimp only
    split
    swap
    · exact ends_throw fun h => absurd h (hstatus _ _)
    refine ends_bind (ends_call (fun found v' _ => ?_) fun e v' _ => ends_throw fun h => absurd h (hstatus _ _))
    split
    · exact ends_throw fun h => absurd h (hstatus _ _)
    · exact ends_throw fun h => absurd h (hstatus _ _)

/-! ### Runs -/

/-- The position of a handle that stands for a directory. -/
theorem position_eq (h : HoldsDir w token slot components next) : w.position token = next := by
  unfold World.position
  rw [h.slotOf]
  dsimp only
  rw [h.dir]

/-- A READDIR of the client under watch is answered on record. -/
theorem turn_reads {p : ClientRequest} (hp : p.Reads token) (w : World F) :
    w.turn p = ((w.request p).1, some (w.request p).2) := by
  unfold World.turn
  rw [if_pos hp.1]

/-- A request that changes directories is no READDIR. -/
theorem kindOf_changes {p : ClientRequest} (hp : p.Changes) : p.kind ≠ FXP_READDIR := by
  intro h
  rw [ClientRequest.Changes, h] at hp
  exact absurd hp (by decide)

/-- It is not on record. -/
theorem turn_changes {p : ClientRequest} (hp : p.Changes) (w : World F) : w.turn p = ((w.request p).1, none) := by
  unfold World.turn
  rw [if_neg (kindOf_changes hp)]

/-- A reply with names is a batch. -/
theorem batches_listed {reply : List UInt8} {batch : List (List UInt8)} (h : listedNames reply = some batch)
    (replies : List (Option (List UInt8))) : batches (some reply :: replies) = batch :: batches replies :=
  List.filterMap_cons_some h

/-- Another reply is none. -/
theorem batches_unlisted {reply : List UInt8} (h : listedNames reply = none) (replies : List (Option (List UInt8))) :
    batches (some reply :: replies) = batches replies := List.filterMap_cons_none h

/-- What the replies list is what their batches hold. -/
theorem batches_some_flatten {names : V → List (List UInt8)} {v : V} {reply : List UInt8} {batch : List (List UInt8)}
    (h : Batch F components names next v reply batch) (replies : List (Option (List UInt8))) :
    (batches (some reply :: replies)).flatten = batch ++ (batches replies).flatten := by
  cases h with
  | listed _ hreply => rw [batches_listed hreply, List.flatten_cons]
  | finished hreply => rw [batches_unlisted hreply, List.nil_append]
  | failed hreply => rw [batches_unlisted hreply, List.nil_append]

/-- A batch lies behind the position, within the directory. -/
theorem Batch.prefix {names : V → List (List UInt8)} {v : V} {reply : List UInt8} {batch : List (List UInt8)}
    (h : Batch F components names next v reply batch) : batch <+: (names v).drop next := by
  cases h with
  | listed _ _ _ _ hstart => exact hstart
  | finished => exact List.nil_prefix
  | failed => exact List.nil_prefix

/-- As long as nothing changes before the position, the names before it are those returned so far. -/
theorem run_listed {names : V → List (List UInt8)} (hF : Lists F components names) {ps : List ClientRequest}
    (hps : ∀ p ∈ ps, p.Reads token ∨ p.Changes) (hsafe : Mealy.Along World.turn (Undisturbed names token) w ps)
    (h : HoldsDir w token slot components next) (hle : next ≤ (names w.volume).length) :
    ∃ next', HoldsDir (Mealy.final World.turn w ps) token slot components next' ∧
      next' ≤ (names (Mealy.final World.turn w ps).volume).length ∧
      (names (Mealy.final World.turn w ps).volume).take next' =
        (names w.volume).take next ++ (batches (Mealy.outputs World.turn w ps)).flatten := by
  induction ps generalizing w next with
  | nil => exact ⟨next, h, hle, (List.append_nil _).symm⟩
  | cons p ps ih =>
    have hrest : ∀ p ∈ ps, p.Reads token ∨ p.Changes := fun p hp => hps p (List.mem_cons_of_mem _ hp)
    obtain ⟨hfirst, hlater⟩ := hsafe
    rw [Mealy.final_cons, Mealy.outputs_cons]
    rcases hps p (List.mem_cons_self ..) with hp | hp
    · rw [turn_reads hp] at hlater ⊢
      obtain ⟨batch, hbatch, hholds, hnames⟩ := request_readdir hF hp h
      have hstart := hbatch.prefix
      have hlen := hstart.length_le
      rw [List.length_drop] at hlen
      obtain ⟨next', hholds', hle', htake⟩ := ih hrest hlater hholds (by rw [hnames]; omega)
      refine ⟨next', hholds', hle', htake.trans ?_⟩
      rw [batches_some_flatten hbatch, hnames, List.take_add, ← List.append_assoc,
        ← List.prefix_iff_eq_take.mp hstart]
    · have hkeep := hfirst hp
      rw [position_eq h] at hkeep
      rw [turn_changes hp] at hlater ⊢
      have hlen : next ≤ (names (w.request p).1.volume).length := by
        have hlength := congrArg List.length hkeep
        rw [List.length_take, List.length_take] at hlength
        omega
      obtain ⟨next', hholds', hle', htake⟩ := ih hrest hlater (holds_change hp h) hlen
      exact ⟨next', hholds', hle', by rw [htake, hkeep]; rfl⟩

/-- Every batch moves the handle, and never behind the end of the directory. -/
theorem run_bounded {names : V → List (List UInt8)} (hF : Lists F components names) {bound : Nat} {ps : List ClientRequest}
    (hps : ∀ p ∈ ps, p.Reads token ∨ p.Changes)
    (hbound : Mealy.Along World.turn (fun w _ => (names w.volume).length ≤ bound) w ps)
    (h : HoldsDir w token slot components next) (hle : next ≤ bound) :
    next + (batches (Mealy.outputs World.turn w ps)).length ≤ bound := by
  induction ps generalizing w next with
  | nil => exact hle
  | cons p ps ih =>
    have hrest : ∀ p ∈ ps, p.Reads token ∨ p.Changes := fun p hp => hps p (List.mem_cons_of_mem _ hp)
    obtain ⟨hfirst, hlater⟩ := hbound
    rw [Mealy.outputs_cons]
    rcases hps p (List.mem_cons_self ..) with hp | hp
    · rw [turn_reads hp] at hlater ⊢
      obtain ⟨batch, hbatch, hholds, hnames⟩ := request_readdir hF hp h
      have hlen := hbatch.prefix.length_le
      rw [List.length_drop] at hlen
      have hlast := ih hrest hlater hholds
      cases hbatch with
      | listed _ hreply hne =>
        have hpos := List.length_pos_iff.mpr hne
        have hmore := hlast (by omega)
        rw [batches_listed hreply, List.length_cons]
        omega
      | finished hreply =>
        rw [batches_unlisted hreply]
        exact hlast hle
      | failed hreply =>
        rw [batches_unlisted hreply]
        exact hlast hle
    · rw [turn_changes hp] at hlater ⊢
      exact ih hrest hlater (holds_change hp h) hle

/-- A READDIR of a directory that can be read returns a batch or the end of the directory. -/
theorem run_sound {names : V → List (List UInt8)} (hF : Lists F components names) {ps : List ClientRequest}
    (hps : ∀ p ∈ ps, p.Reads token ∨ p.Changes)
    (hsound : Mealy.Along World.turn (fun w _ => Sound F components w.volume) w ps)
    (h : HoldsDir w token slot components next)
    (hnone : ∀ reply, some reply ∈ Mealy.outputs World.turn w ps → ¬ IsEof reply) :
    (batches (Mealy.outputs World.turn w ps)).length = ps.countP (·.kind = FXP_READDIR) := by
  induction ps generalizing w next with
  | nil => rfl
  | cons p ps ih =>
    have hrest : ∀ p ∈ ps, p.Reads token ∨ p.Changes := fun p hp => hps p (List.mem_cons_of_mem _ hp)
    obtain ⟨hfirst, hlater⟩ := hsound
    rw [Mealy.outputs_cons] at hnone ⊢
    rcases hps p (List.mem_cons_self ..) with hp | hp
    · rw [turn_reads hp] at hlater hnone ⊢
      obtain ⟨batch, hbatch, hholds, -⟩ := request_readdir hF hp h
      have hlast := ih hrest hlater hholds fun reply hmem => hnone reply (List.mem_cons_of_mem _ hmem)
      have heof := hnone _ (List.mem_cons_self ..)
      rw [List.countP_cons_of_pos (by exact decide_eq_true hp.1), ← hlast]
      cases hbatch with
      | listed _ hreply => rw [batches_listed hreply, List.length_cons]
      | finished _ heof' => exact absurd heof' heof
      | failed _ _ hunsound => exact absurd hfirst hunsound
    · rw [turn_changes hp] at hlater hnone ⊢
      rw [List.countP_cons_of_neg (by simpa using kindOf_changes hp)]
      exact ih hrest hlater (holds_change hp h) fun reply hmem => hnone reply (List.mem_cons_of_mem _ hmem)

end ReaddirAux

open ReaddirAux

/-- A listing returns every entry once. A client opens a directory and sends READDIRs of the handle among requests that open,
create, delete and rename. If none of these changes the names before the position of the handle, then at a READDIR that is
answered with the end of the directory the batches returned so far are, one behind the other, the names of the directory, and a
name that is there once is in exactly one of them. Whatever is changed, a directory of at most `bound` names gives at most as
many batches, so that one more READDIR reaches its end, unless it cannot be read. -/
theorem lists_each_once {names : V → List (List UInt8)} (w₀ : World F) {p₀ : ClientRequest} (hkind : p₀.kind = FXP_OPENDIR)
    {path : Str} {rest : List UInt8} (hpath : Reader.path p₀.body = some (path, rest)) (hF : Lists F (resolve [] path) names)
    (hreply : kindOf (w₀.request p₀).2 = FXP_HANDLE) (ps : List ClientRequest)
    (hps : ∀ p ∈ ps, p.Reads (handleOf (w₀.request p₀).2) ∨ p.Changes) :
    let w := (w₀.request p₀).1
    let token := handleOf (w₀.request p₀).2
    let w' := Mealy.final World.turn w ps
    let listed := batches (Mealy.outputs World.turn w ps)
    (Mealy.Along World.turn (Undisturbed names token) w ps → ∀ p, p.Reads token → IsEof (w'.request p).2 →
      listed.flatten = names w'.volume ∧
        ((names w'.volume).Nodup → ∀ name ∈ names w'.volume, listed.countP (name ∈ ·) = 1)) ∧
      ∀ bound, Mealy.Along World.turn (fun w _ => (names w.volume).length ≤ bound) w ps →
        listed.length ≤ bound ∧
          (Mealy.Along World.turn (fun w _ => Sound F (resolve [] path) w.volume) w ps →
            bound < ps.countP (·.kind = FXP_READDIR) →
            ∃ reply, some reply ∈ Mealy.outputs World.turn w ps ∧ IsEof reply) := by
  obtain ⟨slot, hholds⟩ := request_opendir hkind hpath hreply
  refine ⟨fun hsafe p hp heof => ?_, fun bound hbound => ?_⟩
  · obtain ⟨next, hholds', -, htake⟩ := run_listed hF hps hsafe hholds (Nat.zero_le _)
    obtain ⟨batch, hbatch, -, -⟩ := request_readdir hF hp hholds'
    have hall : (batches (Mealy.outputs World.turn (w₀.request p₀).1 ps)).flatten =
        names (Mealy.final World.turn (w₀.request p₀).1 ps).volume := by
      cases hbatch with
      | listed _ _ _ heof' => exact absurd heof heof'
      | finished _ _ hdone => rw [← List.take_of_length_le hdone, htake, List.take_zero, List.nil_append]
      | failed _ heof' => exact absurd heof heof'
    refine ⟨hall, fun hnodup name hmem => ?_⟩
    rw [← hall] at hnodup hmem
    exact Chunks.countP_mem_of_nodup_flatten hnodup hmem
  · have hle := run_bounded hF hps hbound hholds (Nat.zero_le _)
    rw [Nat.zero_add] at hle
    refine ⟨hle, fun hsound hmany => ?_⟩
    by_contra hnone
    push Not at hnone
    have hcount := run_sound hF hps hsound hholds hnone
    omega

/-! ## A volume in memory -/

namespace Ram

/-- The names of the files of the volume. -/
def names (v : Volume) : List (List UInt8) :=
  (visible (F := fat) (v.files.map fun r => .ok r.entry)).map (asBytes ·.name)

/-- The root of the volume in memory is a directory of these names. -/
theorem lists : Lists fat [] names where
  opened _ := rfl
  walked := by
    intro v dir v' h
    injection h with _ h
    subst h
    exact ⟨rfl, List.prefix_refl _, fun _ => rfl⟩

/-- A name of 190 characters, most of them of three bytes: three such entries fill a batch. -/
def longName (last : Char) : Str := List.replicate 189 '€' ++ [last]

theorem length_longName (last : Char) : (asBytes (longName last)).length ≤ 765 := by
  refine (Utf8.length_encode_le _).trans ?_
  rw [longName, List.length_append, List.length_replicate, List.length_singleton]
  decide

/-- Five files with such names. -/
def longNames : Volume where
  files := ['a', 'b', 'c', 'd', 'e'].zipIdx.map fun (last, id) =>
    { id, name := ⟨longName last, length_longName last⟩, content := ⟨[], length_nil_lt⟩ }
  nextId := 5

end Ram

/-- An OPENDIR of the root. -/
def opendirRoot : ClientRequest := { kind := FXP_OPENDIR, id := 1, body := putString (asBytes ['/']) }

/-- A READDIR of the first handle of a session. -/
def readdirFirst (id : Nat) : ClientRequest := { kind := FXP_READDIR, id, body := putString (putU32 256) }

/-- A REMOVE of one of the files. -/
def removeFile (id : Nat) (name : Char) : ClientRequest :=
  { kind := FXP_REMOVE, id, body := putString (asBytes ('/' :: Ram.longName name)) }

/-- The entry behind the position goes while a directory of five files is listed: the batches are the four others. -/
theorem lists_each_once_removed :
    let w₀ : World Ram.fat := { server := {}, volume := Ram.longNames }
    let ps := [readdirFirst 2, removeFile 3 'd', readdirFirst 4]
    let w' := Mealy.final World.turn (w₀.request opendirRoot).1 ps
    let listed := batches (Mealy.outputs World.turn (w₀.request opendirRoot).1 ps)
    listed.flatten = Ram.names w'.volume ∧ listed.length ≤ 5 := by
  intro w₀ ps w' listed
  have hhandle : handleOf (w₀.request opendirRoot).2 = putU32 256 := by decide +kernel
  have hread (id : Nat) : (readdirFirst id).Reads (handleOf (w₀.request opendirRoot).2) := ⟨rfl, [], by rw [hhandle]; rfl⟩
  have hps : ∀ p ∈ ps, p.Reads (handleOf (w₀.request opendirRoot).2) ∨ p.Changes := by
    intro p hp
    simp only [ps, List.mem_cons, List.not_mem_nil, or_false] at hp
    rcases hp with rfl | rfl | rfl
    · exact .inl (hread 2)
    · exact .inr (by decide)
    · exact .inl (hread 4)
  obtain ⟨hlisted, hfinite⟩ := lists_each_once w₀ (rfl : opendirRoot.kind = FXP_OPENDIR)
    (rfl : Reader.path opendirRoot.body = some (['/'], [])) Ram.lists (by decide +kernel) ps hps
  refine ⟨(hlisted ?_ (readdirFirst 5) (hread 5) (by decide +kernel)).1, (hfinite 5 (by decide +kernel)).1⟩
  rw [hhandle]
  unfold Undisturbed
  decide +kernel

/-- A file that is removed before the position of the handle makes the listing skip another: `d` is there from the OPENDIR to the
end of the directory, and in no batch. -/
theorem removed_entry_hides_another :
    let w₀ : World Ram.fat := { server := {}, volume := Ram.longNames }
    let w := (w₀.request opendirRoot).1
    let ps := [readdirFirst 2, removeFile 3 'a', readdirFirst 4]
    let w' := Mealy.final World.turn w ps
    handleOf (w₀.request opendirRoot).2 = putU32 256 ∧ IsEof (w'.request (readdirFirst 5)).2 ∧
      Mealy.Along World.turn (fun w _ => asBytes (Ram.longName 'd') ∈ Ram.names w.volume) w (ps ++ [readdirFirst 5]) ∧
      (batches (Mealy.outputs World.turn w ps)).countP (asBytes (Ram.longName 'd') ∈ ·) = 0 := by
  decide +kernel

end Ratputer
