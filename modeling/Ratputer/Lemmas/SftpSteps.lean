import Ratputer.Lemmas.SftpHandlers
import Ratputer.Lemmas.Serial

/-!
# What a step of the session does

The multi-step replies, the dispatch of a complete request and the framing of the input, each by its outcomes.
-/

namespace Ratputer

open Effect

variable {V : Type} {F : Fat V}

/-! ## Card I/O on one file -/

section ends

variable {α : Type} {w : FileHandle F × V} {E : Status → FileHandle F × V → Prop}

/-- A driver call on behalf of a file. -/
theorem ends_fileCall {op : FatM V α} {Q : Except FatError α → FileHandle F × V → Prop}
    (h : Ends op w.2 (fun a v => Q (.ok a) (w.1, v)) fun e v => Q (.error e) (w.1, v)) : Ends (fileCall op) w Q E := by
  unfold Ends fileCall
  cases hop : op w.2 with
  | ok a v => exact h.ok hop
  | error e v => exact h.error hop

/-- A driver call on behalf of a file, an error becoming a status. -/
theorem ends_fileCallOr {op : FatM V α} {status : Status} {Q : α → FileHandle F × V → Prop}
    (h : Ends op w.2 (fun a v => Q a (w.1, v)) fun _ v => E status (w.1, v)) : Ends (fileCallOr op status) w Q E :=
  ends_bind (ends_fileCall (h.mono (fun _ _ h => ends_pure h) fun _ _ h => ends_throw h))

end ends

/-- Card I/O stays on its file. -/
def SamePath (w w' : FileHandle F × V) : Prop := w'.1.parent = w.1.parent ∧ w'.1.leaf = w.1.leaf

instance : Std.Refl (SamePath (F := F)) := ⟨fun _ => ⟨rfl, rfl⟩⟩

instance : IsTrans (FileHandle F × V) SamePath := ⟨fun _ _ _ h h' => ⟨h'.1.trans h.1, h'.2.trans h.2⟩⟩

/-- Card I/O that fails with short messages; its values are in `Q`. -/
def ShortFile {α : Type} (Q : α → Prop) (m : FileM F α) : Prop := Frames SamePath Status.Short Q m

namespace ShortFile

variable {α β : Type} {Q : α → Prop}

theorem pure {a : α} (h : Q a) : ShortFile (F := F) Q (pure a) := frames_pure h

theorem throw {status : Status} (h : status.Short) : ShortFile (F := F) Q (throw status) := frames_throw h

/-- Parts of card I/O on a file, one after the other. -/
theorem bind {m : FileM F α} {f : α → FileM F β} {Qf : β → Prop} (hm : ShortFile Q m)
    (hf : ∀ a, Q a → ShortFile Qf (f a)) : ShortFile Qf (m >>= f) := frames_bind hm hf

/-- A guard that throws. -/
theorem guard {c : Prop} [Decidable c] {status : Status} {f : PUnit → FileM F α} (h : status.Short)
    (hf : ShortFile Q (f ())) : ShortFile Q (if c then MonadExcept.throw status >>= f else f ()) := by
  split
  · exact (throw (Q := fun _ => False) h).bind fun _ h => h.elim
  · exact hf

/-- A driver call on the file whose result is looked at. -/
theorem fileCall (op : FatM V α) : ShortFile (F := F) (fun _ => True) (fileCall op) := by
  intro w
  unfold Ratputer.fileCall Ends
  cases hop : op w.2 with
  | ok a v => simp only [hop]; exact ⟨⟨rfl, rfl⟩, trivial⟩
  | error e v => simp only [hop]; exact ⟨⟨rfl, rfl⟩, trivial⟩

/-- A driver call whose values are in `Q`. -/
theorem fileCallOr (op : FatM V α) {status : Status} (h : status.Short) (hQ : ∀ v a v', op v = .ok a v' → Q a) :
    ShortFile (F := F) Q (fileCallOr op status) := by
  have hcall : ShortFile (F := F) (fun r => ∀ a, r = .ok a → Q a) (Ratputer.fileCall op) := by
    intro w
    unfold Ratputer.fileCall Ends
    cases hop : op w.2 with
    | ok a v =>
      simp only [hop]
      refine ⟨⟨rfl, rfl⟩, fun b hb => ?_⟩
      injection hb with hb
      exact hb ▸ hQ _ _ _ hop
    | error e v => simp only [hop]; exact ⟨⟨rfl, rfl⟩, fun b hb => nomatch hb⟩
  refine hcall.bind fun r hr => ?_
  split
  · exact .pure (hr _ rfl)
  · exact .throw h

theorem fileView (f : FileHandle F → α) : ShortFile (fun _ => True) (fileView f) := fun _ => ⟨⟨rfl, rfl⟩, trivial⟩

/-- A change of the handle that keeps the file's path and its end. -/
theorem fileUpdate (f : FileHandle F → FileHandle F)
    (h : ∀ file, (f file).parent = file.parent ∧ (f file).leaf = file.leaf := by exact fun _ => ⟨rfl, rfl⟩) :
    ShortFile (fun _ => True) (fileUpdate f) := fun w => ⟨h w.1, trivial⟩

/-- Finding the entry of the file. -/
theorem fileEntry : ShortFile (fun _ => True) (fileEntry (F := F)) := by
  refine (fileView _).bind fun file _ => (fileCall _).bind fun r _ => ?_
  split
  · exact .pure trivial
  · exact .throw (by decide)

/-- Opening a reader. -/
theorem openReader (entry : F.Entry) (offset : Nat) : ShortFile (fun _ => True) (openReader entry offset) := by
  have hopen : ShortFile (F := F) (fun _ => True) (do
      let reader ← Ratputer.fileCallOr (F.readerNew entry) (.failure "")
      Ratputer.fileCallOr (F.readerSeek reader offset) (.failure "")) :=
    (fileCallOr (Q := fun _ => True) _ (by decide) fun _ _ _ _ => trivial).bind fun _ _ =>
      fileCallOr _ (by decide) fun _ _ _ _ => trivial
  refine (fileView _).bind fun readAt _ => (fileUpdate _).bind fun _ _ => ?_
  split
  · split
    · exact fileCallOr _ (by decide) fun _ _ _ _ => trivial
    · exact hopen
  · exact hopen

/-- A chunk that was read is not longer than asked for. -/
theorem readChunk (offset count : Nat) :
    ShortFile (F := F) (fun bytes => bytes.length ≤ count) (readChunk offset count) := by
  refine fileEntry.bind fun entry _ => (openReader entry offset).bind fun reader _ => ?_
  refine (fileCallOr (Q := fun r : List UInt8 × F.Reader => r.1.length ≤ count) _ (by decide) ?_).bind fun r hr => ?_
  · exact fun v r v' h => F.readerRead_le _ _ _ r.1 r.2 v' h
  · exact (fileUpdate _).bind fun _ _ => .pure hr

/-- Opening a writer. -/
theorem openWriter (entry : F.Entry) (offset : Nat) : ShortFile (fun _ => True) (openWriter entry offset) := by
  unfold Ratputer.openWriter
  split
  · refine (fileView _).bind fun append _ => (fileUpdate _).bind fun _ _ => ?_
    split
    · exact fileCallOr _ (by decide) fun _ _ _ _ => trivial
    · exact fileCallOr _ (by decide) fun _ _ _ _ => trivial
  · exact (fileUpdate _).bind fun _ _ => fileCallOr _ (by decide) fun _ _ _ _ => trivial

/-- Writing data. -/
theorem writeAll (writer : F.Writer) (data : List UInt8) : ShortFile (fun _ => True) (writeAll writer data) := by
  refine (fileCallOr (Q := fun _ => True) _ (by decide) fun _ _ _ _ => trivial).bind fun r _ => ?_
  obtain ⟨count, writer⟩ := r
  dsimp only
  split
  · exact (fileCall _).bind fun _ _ => .throw (by decide)
  · exact .pure trivial

/-- Writing a chunk. -/
theorem writeChunk (offset : Nat) (data : List UInt8) : ShortFile (fun _ => True) (writeChunk (F := F) offset data) := by
  refine fileEntry.bind fun entry _ => .guard (by decide) (.guard (by decide) (.guard (by decide) ?_))
  refine (fileUpdate _ fun file => by split <;> exact ⟨rfl, rfl⟩).bind fun _ _ => ?_
  refine (openWriter _ _).bind fun writer _ => (writeAll _ _).bind fun writer _ => ?_
  refine (fileCallOr (Q := fun _ => True) _ (by decide) fun _ _ _ _ => trivial).bind fun _ _ => fileUpdate _

end ShortFile

/-- Card I/O on the file of a slot moves the volume and what the handle holds. -/
theorem Quiet.onFile {α : Type} {Q : α → Prop} (slot : Slot) {status : Status} (h : status.Short) {op : FileM F α}
    (hop : ShortFile Q op) : Quiet Q (onFile slot status op) := by
  intro w
  unfold Ratputer.onFile Ends
  cases hs : w.server.handles slot with
  | none => simp only [hs]; exact ⟨.refl w, h⟩
  | some handle =>
    cases handle with
    | dir dir => simp only [hs]; exact ⟨.refl w, h⟩
    | file file =>
      have hstore (r : FileHandle F × V) : w.Same
          { server := { w.server with handles := Function.update w.server.handles slot (some (.file r.1)) }
            volume := r.2 } := by
        refine .handles w _ _ fun i => ?_
        by_cases hi : i = slot
        · subst hi
          rw [Function.update_self, hs]
          rfl
        · rw [Function.update_of_ne hi]
      have hend := hop (file, w.volume)
      simp only [hs]
      cases hrun : op (file, w.volume) with
      | ok a r => exact ⟨hstore r, (hend.ok hrun).2⟩
      | error e r => exact ⟨hstore r, (hend.error hrun).2⟩

/-- Card I/O on the file of a pending SETSTAT keeps the request's id and keeps its job valid. -/
theorem Quiet.onJob (job : ResizeJob F) {op : FileM F Unit} (hop : ShortFile (fun _ => True) op) :
    Quiet (fun job' => job'.id = job.id ∧ (job.Valid → job'.Valid)) (onJob job op) := by
  intro w
  unfold Ratputer.onJob Ends
  have hend := hop (job.file, w.volume)
  cases hrun : op (job.file, w.volume) with
  | ok a r =>
    simp only [hrun]
    obtain ⟨⟨hparent, hleaf⟩, _⟩ := hend.ok hrun
    refine ⟨.volume w _, trivial, fun hjob => ?_⟩
    show job.components = r.1.parent ++ [r.1.leaf]
    rw [hparent, hleaf]
    exact hjob
  | error e r => simp only [hrun]; exact ⟨.volume w _, (hend.error hrun).2⟩

/-- So does a step of the SETSTAT. -/
theorem Quiet.resizeChunk (job : ResizeJob F) (ctx : Ctx) :
    Quiet (fun r => r.1.id = job.id ∧ (job.Valid → r.1.Valid)) (resizeChunk job ctx) := by
  refine .bind (.check (fun _ _ => trivial) (splitLast_short _ (by decide))) fun path _ => ?_
  refine .bind (.findEntry _ _) fun entry _ => ?_
  dsimp only
  split
  · refine .bind (.onJob _ (.writeChunk _ _)) fun job' hid => ?_
    exact .bind (.invalidateFile _ _) fun _ _ => .pure hid
  · exact .bind (.applyMetadata _ _ _) fun _ _ => .bind (.invalidateFile _ _) fun _ _ => .pure ⟨rfl, id⟩

namespace World

variable {w : World F}

/-! ## A pending reply -/

/-- The world without its pending `DATA` reply. -/
def dropRead (w : World F) : World F := { w with server := { w.server with readStream := none } }

/-- The world without its pending growth. -/
def dropResize (w : World F) : World F := { w with server := { w.server with resize := none } }

/-- A chunk of a `DATA` reply is a piece of its payload of the size it owes at most, or the end of the session. -/
theorem continueRead_cases {stream : ReadStream} (h : w.server.readStream = some stream) (mounted : Bool) :
    w.dropRead.setFatal.Same (w.continueRead mounted) ∨
      ∃ bytes : List UInt8, 0 < bytes.length ∧ bytes.length ≤ IO_CHUNK ∧ bytes.length ≤ stream.remaining ∧
        World.Same (World.emit { w with server := { w.server with
          readStream := if 0 < stream.remaining - bytes.length then some { stream with
            offset := stream.offset + bytes.length
            remaining := stream.remaining - bytes.length } else none } } bytes) (w.continueRead mounted) := by
  unfold continueRead
  simp only [h]
  cases mounted with
  | false => exact .inl (.refl _)
  | true =>
    have hend := Quiet.onFile (F := F) stream.slot (by decide : (Status.failure "").Short)
      (ShortFile.readChunk stream.offset (min stream.remaining IO_CHUNK)) w.dropRead
    simp only [if_true]
    cases hrun : onFile stream.slot (.failure "") (readChunk stream.offset (min stream.remaining IO_CHUNK)) w.dropRead with
    | error status w' =>
      have hrun' := hrun
      unfold dropRead at hrun'
      simp only [hrun']
      have hs := (hend.error hrun).1
      exact .inl ⟨hs.out, hs.readStream, hs.writeStream, hs.resize, hs.generation, hs.tokens, rfl, hs.open_slots⟩
    | ok bytes w' =>
      have hrun' := hrun
      unfold dropRead at hrun'
      simp only [hrun']
      obtain ⟨hs, hlen⟩ := hend.ok hrun
      split
      · exact .inl ⟨hs.out, hs.readStream, hs.writeStream, hs.resize, hs.generation, hs.tokens, rfl, hs.open_slots⟩
      · rename_i hne
        refine .inr ⟨bytes, List.length_pos_iff.mpr hne, by omega, by omega, ?_⟩
        exact ⟨congrArg (· ++ bytes) hs.out, rfl, hs.writeStream, hs.resize, hs.generation, hs.tokens, hs.fatal,
          hs.open_slots⟩

/-- A step of a growing SETSTAT leaves it growing, or answers it. -/
theorem continueResize_cases {job : ResizeJob F} (h : w.server.resize = some job) (mounted : Bool) (ctx : Ctx) :
    (∃ job', job'.id = job.id ∧ (job.Valid → job'.Valid) ∧ World.Same { w with server := { w.server with resize := some job' } }
        (w.continueResize mounted ctx)) ∨
      ∃ status, status.Short ∧ World.Same (w.dropResize.emit (statusPacket job.id status)) (w.continueResize mounted ctx) := by
  unfold continueResize
  simp only [h]
  cases mounted with
  | false => exact .inr ⟨_, by decide, .refl _⟩
  | true =>
    have hend := Quiet.resizeChunk job ctx w.dropResize
    simp only [if_true]
    cases hrun : resizeChunk job ctx w.dropResize with
    | error status w' =>
      obtain ⟨hs, hshort⟩ := hend.error hrun
      unfold dropResize at hrun
      simp only [hrun]
      exact .inr ⟨status, hshort, hs.emit _⟩
    | ok r w' =>
      obtain ⟨hs, hid⟩ := hend.ok hrun
      obtain ⟨job', done⟩ := r
      unfold dropResize at hrun
      simp only [hrun]
      cases done with
      | false =>
        refine .inl ⟨job', hid.1, hid.2, ?_⟩
        exact ⟨hs.out, hs.readStream, hs.writeStream, rfl, hs.generation, hs.tokens, hs.fatal, hs.open_slots⟩
      | true =>
        dsimp only at hid
        rw [← hid.1] at *
        exact .inr ⟨_, by decide, hs.emit _⟩

/-! ## A complete request -/

/-- A handler's outcome, or its status, answers the request. -/
theorem handled_answer {kind id : Nat} {m : SftpM F Unit} (h : Handles kind id m) : Handled kind id w (w.answer id m) := by
  have hend := h w
  unfold answer
  cases hrun : m w with
  | ok _ w' => exact hend.ok hrun
  | error status w' =>
    obtain ⟨hs, hshort⟩ := hend.error hrun
    exact .replied _ (is_reply_status id hshort) (hs.emit _)

/-- A complete request is INIT, or is handled under its id, or is too short to have one. -/
theorem dispatch_cases (kind : Nat) (body : List UInt8) (hbody : body.length ≤ MAX_REQUEST) (mounted : Bool) (ctx : Ctx) :
    kind = FXP_INIT ∧ w.dispatch kind body mounted ctx = w.emit versionPacket ∨
      kind ≠ FXP_INIT ∧ body.length < 4 ∧ w.dispatch kind body mounted ctx = w.setFatal ∨
      kind ≠ FXP_INIT ∧ 4 ≤ body.length ∧ Handled kind (u32At body 0) w (w.dispatch kind body mounted ctx) := by
  unfold dispatch
  by_cases hk : kind = FXP_INIT
  · exact .inl ⟨hk, by rw [if_pos hk]⟩
  simp only [if_neg hk]
  by_cases hlen : body.length < 4
  · have hnone : Reader.u32 body = none := by
      show (Reader.take 4 >>= _) body = none
      simp [Reader.take, hlen, bind, StateT.bind]
    exact .inr (.inl ⟨hk, hlen, by rw [hnone]⟩)
  · have hsome := reader_u32_eq (Nat.not_lt.mp hlen)
    refine .inr (.inr ⟨hk, by omega, ?_⟩)
    rw [hsome]
    refine handled_answer ?_
    cases mounted with
    | false => exact .throw (by decide)
    | true => exact handles_request _ _ _ _ (by rw [List.length_drop]; omega)

end World

/-! ## A payload -/

/-- What a WRITE's status may be: nothing yet, or a short one. -/
def ShortOption (failed : Option Status) : Prop := ∀ status, failed = some status → status.Short

/-- Dropping cursors changes what open handles hold, at most. -/
theorem World.Same.invalidateWritten (w : World F) (slot : Slot) :
    w.Same { w with server := w.server.invalidateWritten slot } := by
  unfold Server.invalidateWritten
  split
  · refine .handles w _ _ fun i => ?_
    cases hs : w.server.handles i with
    | none => rfl
    | some handle =>
      cases handle with
      | dir dir => rfl
      | file other =>
        dsimp only
        split
        · rfl
        · split <;> rfl
  · exact .refl w

/-- A chunk of payload moves the volume and what handles hold. -/
theorem writePayload_same (stream : WriteStream) (payload : List UInt8) (mounted : Bool) (w : World F) :
    w.Same (writePayload stream payload mounted w).1 ∧ ShortOption (writePayload stream payload mounted w).2.1 := by
  have hshort {status : Status} (h : status.Short) : ShortOption (some status) := by
    intro s hs
    injection hs with hs
    exact hs ▸ h
  unfold writePayload
  split
  · exact ⟨.refl w, hshort (by decide)⟩
  split
  · rename_i file hfile
    split
    · rename_i entry v hfind
      dsimp only
      have hend (start : Nat) (data : List UInt8) := Quiet.onFile (F := F) stream.slot
        (by decide : (Status.failure "Invalid handle").Short) (ShortFile.writeChunk start data) { w with volume := v }
      split
      · rename_i w' hrun
        exact ⟨((World.Same.volume w v).trans ((hend _ _).ok hrun).1).trans (.invalidateWritten w' _), nofun⟩
      · rename_i status w' hrun
        exact ⟨(World.Same.volume w v).trans ((hend _ _).error hrun).1, hshort ((hend _ _).error hrun).2⟩
    · exact ⟨.volume w _, hshort (by decide)⟩
    · exact ⟨.volume w _, hshort (by decide)⟩
  · exact ⟨.refl w, hshort (by decide)⟩

/-! ## Every step -/

namespace Sftp

variable {s : Sftp F} {mounted : Bool} {ctx : Ctx}

/-- Nothing is pending, and the next packet is looked at. -/
structure AtPacket (s : Sftp F) : Prop where
  alive : s.server.fatal = false
  drained : s.server.out = []
  resize : s.server.resize = none
  readStream : s.server.readStream = none
  writeStream : s.server.writeStream = none
  skip : s.skip = 0

/-- The session after an oversized request is answered. -/
def oversized (s : Sftp F) : Sftp F :=
  { s with
    toWorld := s.emit (statusPacket (u32At s.input 5) ⟨FX_BAD_MESSAGE, "Request too large"⟩)
    input := s.input.drop (min s.input.length ((4 + u32At s.input 0) % USIZE))
    skip := (4 + u32At s.input 0) % USIZE - min s.input.length ((4 + u32At s.input 0) % USIZE) }

/-- The session after a WRITE's header is accepted. -/
def begunWrite (s : Sftp F) (handleLen : Nat) : Sftp F :=
  let rest := { s with input := s.input.drop (25 + handleLen) }
  { rest with server.writeStream := some (rest.writeStreamOf (writeHeader s.input handleLen)) }

/-- The session after a complete request is dispatched. -/
def dispatched (s : Sftp F) (mounted : Bool) (ctx : Ctx) : Sftp F :=
  { s with
    toWorld := s.dispatch (kindOf s.input) ((s.input.take (4 + u32At s.input 0)).drop 5) mounted ctx
    input := s.input.drop (4 + u32At s.input 0)
    cardBudget := false }

/-- What a step can do. -/
inductive Stepped (s : Sftp F) (mounted : Bool) (ctx : Ctx) : Sftp F × Bool → Prop
  | idle : Stepped s mounted ctx (s, false)
  | malformed (count : Nat) (h : s.AtPacket) :
      Stepped s mounted ctx ({ s with toWorld := s.setFatal, input := s.input.drop count }, false)
  | resize (job : ResizeJob F) (hlive : s.server.fatal = false) (hout : s.server.out = [])
      (h : s.server.resize = some job) :
      Stepped s mounted ctx ({ s with toWorld := s.continueResize mounted ctx, cardBudget := false }, true)
  | read (stream : ReadStream) (hlive : s.server.fatal = false) (hout : s.server.out = []) (hz : s.server.resize = none)
      (h : s.server.readStream = some stream) :
      Stepped s mounted ctx ({ s with toWorld := s.continueRead mounted, cardBudget := false }, true)
  | payload (stream stream' : WriteStream) (w' : World F) (count : Nat) (budget : Bool) (hlive : s.server.fatal = false)
      (hout : s.server.out = []) (hz : s.server.resize = none) (hr : s.server.readStream = none)
      (h : s.server.writeStream = some stream) (hid : stream'.id = stream.id)
      (hremaining : stream'.remaining = stream.remaining)
      (hfailed : ShortOption stream.failed → ShortOption stream'.failed) (hinput : count ≤ s.input.length)
      (hcount : count ≤ stream.remaining)
      (hw : World.Same { s.toWorld with server.writeStream := none } w') :
      Stepped s mounted ctx (({ s with toWorld := w', cardBudget := budget } : Sftp F).advanceWrite stream' count, true)
  | skip (count : Nat) (hlive : s.server.fatal = false) (hout : s.server.out = []) (hz : s.server.resize = none)
      (hr : s.server.readStream = none) (hw : s.server.writeStream = none) (hpos : 0 < s.skip) (hcount : count ≤ s.skip)
      (hinput : count ≤ s.input.length) (progress : Bool) :
      Stepped s mounted ctx ({ s with input := s.input.drop count, skip := s.skip - count }, progress)
  | oversized (h : s.AtPacket) (hlen : 9 ≤ s.input.length) (hkind : kindOf s.input ≠ FXP_WRITE)
      (hbig : MAX_REQUEST < u32At s.input 0) : Stepped s mounted ctx (s.oversized, true)
  | write (h : s.AtPacket) (hkind : kindOf s.input = FXP_WRITE) (hhandle : u32At s.input 9 ≤ 64)
      (hlen : 25 + u32At s.input 9 ≤ s.input.length)
      (hlength : u32At s.input 0 = (21 + u32At s.input 9 + (writeHeader s.input (u32At s.input 9)).dataLen) % USIZE) :
      Stepped s mounted ctx (s.begunWrite (u32At s.input 9), true)
  | request (h : s.AtPacket) (hpos : 0 < u32At s.input 0) (hkind : kindOf s.input ≠ FXP_WRITE)
      (hle : u32At s.input 0 ≤ MAX_REQUEST) (hlen : 4 + u32At s.input 0 ≤ s.input.length) :
      Stepped s mounted ctx (s.dispatched mounted ctx, true)

/-- The header of a WRITE. -/
theorem beginWrite_stepped (h : s.AtPacket) (hkind : kindOf s.input = FXP_WRITE) :
    Stepped s mounted ctx (s.beginWrite (u32At s.input 0)) := by
  unfold beginWrite
  split
  · exact .idle
  dsimp only
  split
  · exact .malformed 0 h
  rename_i hhandle
  rw [header_eq hhandle]
  split
  · exact .idle
  rename_i hlen
  split
  · rename_i hlength
    exact .write h hkind (by omega) (by omega) (by rw [hlength]; congr 2; omega)
  · exact .malformed _ h

/-- The next packet. -/
theorem parseNext_stepped (h : s.AtPacket) : Stepped s mounted ctx (s.parseNext mounted ctx) := by
  unfold parseNext
  split
  · exact .idle
  dsimp only
  split
  · exact .malformed 0 h
  split
  · exact beginWrite_stepped h ‹_›
  split
  · split
    · exact .idle
    · exact .oversized h (by omega) ‹_› ‹_›
  split
  · exact .idle
  split
  · exact .idle
  · exact .request h (by omega) ‹_› (by omega) (by omega)

/-- What becomes of a WRITE does not depend on the stream in the server. -/
theorem advanceWrite_forget (s : Sftp F) (stream : WriteStream) (count : Nat) :
    s.advanceWrite stream count = ({ s with
      toWorld := { s.toWorld with server.writeStream := none }
      cardBudget := s.cardBudget } : Sftp F).advanceWrite stream count := by
  rfl

/-- A payload that still waits is as far as it was. -/
theorem put_back_eq (s : Sftp F) (stream : WriteStream) (failed : Option Status) (h : ¬stream.remaining = 0) :
    ({ s with server.writeStream := some { stream with failed } } : Sftp F) =
      s.advanceWrite { stream with failed } 0 := by
  unfold advanceWrite
  simp [h]

/-- A chunk of a WRITE's payload. -/
theorem continueWrite_stepped (hlive : s.server.fatal = false) (hout : s.server.out = []) (hz : s.server.resize = none)
    (hr : s.server.readStream = none) {stream : WriteStream} (h : s.server.writeStream = some stream) :
    Stepped s mounted ctx (s.continueWrite mounted) := by
  have hplain {count : Nat} (hinput : count ≤ s.input.length) (hcount : count ≤ stream.remaining) :
      Stepped s mounted ctx (s.advanceWrite stream count, true) := by
    rw [advanceWrite_forget]
    exact .payload stream stream _ count s.cardBudget hlive hout hz hr h rfl rfl id hinput hcount (.refl _)
  unfold continueWrite
  simp only [h]
  by_cases h0 : stream.remaining = 0
  · rw [if_pos h0]
    exact hplain (Nat.zero_le _) (Nat.zero_le _)
  rw [if_neg h0]
  split
  · exact .idle
  split
  · exact hplain (by omega) (by omega)
  rename_i hfailed
  split
  · exact .idle
  obtain ⟨hsame, hshort⟩ := writePayload_same stream
    (s.input.take (min (min s.input.length stream.remaining) WRITE_CHUNK)) mounted
    { s.toWorld with server.writeStream := none }
  generalize writePayload stream _ mounted _ = r at hsame hshort ⊢
  obtain ⟨w', error, taken⟩ := r
  cases taken with
  | true =>
    exact .payload stream _ w' _ false hlive hout hz hr h rfl rfl (fun _ => hshort) (by omega) (by omega) hsame
  | false =>
    have hstep : Stepped s mounted ctx _ := .payload stream { stream with failed := error } w' 0 false hlive
      hout hz hr h rfl rfl (fun _ => hshort) (Nat.zero_le _) (Nat.zero_le _) hsame
    rw [← put_back_eq _ stream error h0] at hstep
    exact hstep

/-- Every step does one of these things. -/
theorem step_stepped (s : Sftp F) (mounted : Bool) (ctx : Ctx) : Stepped s mounted ctx (s.step mounted ctx) := by
  unfold step
  split
  · exact .idle
  rename_i hlive
  rw [Bool.not_eq_true] at hlive
  split
  · exact .idle
  rename_i hout
  rw [not_not] at hout
  cases hz : s.server.resize with
  | some job =>
    simp only [Option.isSome_some, if_true]
    split
    · exact .idle
    · exact .resize job hlive hout hz
  | none =>
    simp only [Option.isSome_none, Bool.false_eq_true, if_false]
    cases hr : s.server.readStream with
    | some stream =>
      simp only [Option.isSome_some, if_true]
      split
      · exact .idle
      · exact .read stream hlive hout hz hr
    | none =>
      simp only [Option.isSome_none, Bool.false_eq_true, if_false]
      cases hw : s.server.writeStream with
      | some stream => simpa using continueWrite_stepped hlive hout hz hr hw
      | none =>
        simp only [Option.isSome_none, Bool.false_eq_true, if_false]
        split
        · exact .skip _ hlive hout hz hr hw ‹_› (Nat.min_le_left _ _) (Nat.min_le_right _ _) _
        · exact parseNext_stepped ⟨hlive, hout, hz, hr, hw, by omega⟩

end Sftp

end Ratputer
