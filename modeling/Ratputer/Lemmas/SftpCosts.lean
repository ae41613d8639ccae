import Ratputer.Sftp.Session
import Ratputer.Lib.Effect

/-!
# What requests cost

A driver that counts the bytes of file payload it is asked to read or write. Request handlers cost nothing: they only look at
directories, at allocation and at metadata. A chunk of a file costs at most its length.
-/

namespace Ratputer

open Effect

variable {V : Type}

/-- What a driver has been asked for: the number of calls, and the bytes of file payload they were to move. -/
structure Meter where
  calls : Nat := 0
  payload : Nat := 0
  deriving Repr, DecidableEq

/-- A call on the volume beside the meter: one more call, and `cost` bytes of payload. -/
def FatM.counted {α : Type} (cost : Nat) (op : FatM V α) : FatM (V × Meter) α := fun v =>
  match op v.1 with
  | .ok a v' => .ok a (v', { calls := v.2.calls + 1, payload := v.2.payload + cost })
  | .error e v' => .error e (v', { calls := v.2.calls + 1, payload := v.2.payload + cost })

/-- A metered call answers as the call itself does. -/
theorem FatM.counted_ok {α : Type} {cost : Nat} {op : FatM V α} {v v' : V × Meter} {a : α} (h : op.counted cost v = .ok a v') :
    op v.1 = .ok a v'.1 := by
  unfold counted at h
  cases hop : op v.1 with
  | ok b v₁ =>
    rw [hop] at h
    injection h with h1 h2
    rw [← h1, ← h2]
  | error e v₁ =>
    rw [hop] at h
    nomatch h

/-- The driver with a meter of its calls, and of the bytes its readers and writers are asked to move. -/
def Fat.metered (F : Fat V) : Fat (V × Meter) where
  Dir := F.Dir
  Identity := F.Identity
  Reader := F.Reader
  Writer := F.Writer
  ReadCursor := F.ReadCursor
  AppendCursor := F.AppendCursor
  rootDir v := F.rootDir v.1
  openDir dir name := (F.openDir dir name).counted 0
  find dir name := (F.find dir name).counted 0
  entries dir := (F.entries dir).counted 0
  createFile dir name := (F.createFile dir name).counted 0
  createDir dir name := (F.createDir dir name).counted 0
  delete entry := (F.delete entry).counted 0
  rename entry dir name := (F.rename entry dir name).counted 0
  truncate entry size := (F.truncate entry size).counted 0
  setTimes entry modified accessed := (F.setTimes entry modified accessed).counted 0
  setAttributes entry attributes := (F.setAttributes entry attributes).counted 0
  sync := F.sync.counted 0
  freeClusterCount v := F.freeClusterCount v.1
  maxCluster v := F.maxCluster v.1
  clusterSize v := F.clusterSize v.1
  volumeId v := F.volumeId v.1
  readerNew entry := (F.readerNew entry).counted 0
  readerFromCursor entry cursor := (F.readerFromCursor entry cursor).counted 0
  readerSeek reader offset := (F.readerSeek reader offset).counted 0
  readerRead reader count := (F.readerRead reader count).counted count
  readerCursor := F.readerCursor
  readerRead_le reader count _ _ _ _ h := F.readerRead_le reader count _ _ _ _ (FatM.counted_ok h)
  writerNewAppend entry := (F.writerNewAppend entry).counted 0
  writerFromCursor entry cursor := (F.writerFromCursor entry cursor).counted 0
  writerNewAt entry offset := (F.writerNewAt entry offset).counted 0
  writerWrite writer data := (F.writerWrite writer data).counted data.length
  writerAppendCursor := F.writerAppendCursor
  writerFinish writer := (F.writerFinish writer).counted 0
  writerDrop writer v := (F.writerDrop writer v.1, { v.2 with calls := v.2.calls + 1 })

/-- The payload that a metered volume has counted. -/
def volumePayload (v : V × Meter) : Nat := v.2.payload

/-- A metered call costs what it is counted for, whether it succeeds or fails. -/
theorem costs_counted {α : Type} (cost : Nat) (op : FatM V α) : Costs volumePayload cost (op.counted cost) := by
  intro v
  unfold FatM.counted Ends
  cases hop : op v.1 with
  | ok a v' => simp only [hop]; exact le_rfl
  | error e v' => simp only [hop]; exact le_rfl

variable {F : Fat V} {α β : Type}

/-- Looking for an entry by path moves no payload. -/
theorem costs_openDirPath (components : List Str) : Costs volumePayload 0 (F.metered.openDirPath components) := by
  have hfrom (dir : F.Dir) : Costs volumePayload 0 (F.metered.openDirFrom dir components) := by
    induction components generalizing dir with
    | nil => exact costs_pure dir
    | cons component rest ih => exact costs_bind_free (costs_counted 0 _) ih
  intro v
  exact hfrom (F.rootDir v.1) v

/-- Looking for an entry in a directory moves no payload. -/
theorem costs_findIn (parent : List Str) (leaf : Str) : Costs volumePayload 0 (F.metered.findIn parent leaf) :=
  costs_bind_free (costs_openDirPath parent) fun _ => costs_counted 0 _

/-! ## Requests -/

/-- Payload moved so far, as the volume of a server's world has counted it. -/
def World.payload (w : World F.metered) : Nat := volumePayload w.volume

/-- A part of a handler that moves no payload. -/
abbrev Free (m : SftpM F.metered α) : Prop := Costs World.payload 0 m

namespace Free

/-- Doing nothing moves no payload. -/
theorem pure (a : α) : Free (F := F) (pure a) := costs_pure a

/-- A status moves no payload. -/
theorem throw (status : Status) : Free (F := F) (throw status : SftpM F.metered α) := costs_throw status

/-- Parts that move no payload, one after the other. -/
theorem bind {m : SftpM F.metered α} {f : α → SftpM F.metered β} (hm : Free m) (hf : ∀ a, Free (f a)) : Free (m >>= f) :=
  costs_bind_free hm hf

/-- Neither branch moves payload. -/
theorem ite {c : Prop} [Decidable c] {m m' : SftpM F.metered α} (h : Free m) (h' : Free m') : Free (if c then m else m') :=
  costs_ite h h'

/-- A check that may end the handler moves no payload. -/
theorem guard {c : Prop} [Decidable c] {status : Status} {f : PUnit → SftpM F.metered α} (hf : Free (f ())) :
    Free (if c then MonadExcept.throw status >>= f else f ()) := costs_guard hf

/-- A driver call costs what it costs on the volume. -/
theorem call {op : FatM (V × Meter) α} (h : Costs volumePayload 0 op) : Free (F := F) (call op) := by
  intro w
  have hop := h w.volume
  unfold Ratputer.call Ends at *
  cases hrun : op w.volume with
  | ok a v => simp only [hrun] at hop ⊢; exact hop
  | error e v => simp only [hrun] at hop ⊢; exact hop

/-- A call that costs nothing, under the status for its failure. -/
theorem callOr {op : FatM (V × Meter) α} (h : Costs volumePayload 0 op) (status : Status) : Free (F := F) (callOr op status) := by
  refine bind (call h) fun r => ?_
  split
  · exact pure _
  · exact throw _

theorem view (f : Server F.metered → α) : Free (view f) := fun w => Nat.le_add_right w.payload 0

/-- Reading the volume's figures moves no payload. -/
theorem viewVolume (f : V × Meter → α) : Free (F := F) (viewVolume f) := fun w => Nat.le_add_right w.payload 0

theorem update (f : Server F.metered → Server F.metered) : Free (update f) := fun w => Nat.le_add_right w.payload 0

/-- A checked result moves no payload. -/
theorem check (r : Except Status α) : Free (F := F) (check r) := by
  cases r with
  | ok a => exact pure a
  | error status => exact throw status

/-- Reading the fields of a request moves no payload. -/
theorem parse (reader : ReaderM α) (body : List UInt8) : Free (F := F) (parse reader body) := by
  unfold Ratputer.parse
  split
  · exact pure _
  · exact throw _

/-- A reply is queued, which moves nothing on the card. -/
theorem reply (bytes : List UInt8) : Free (F := F) (reply bytes) := update _

theorem ok (id : Nat) : Free (F := F) (ok id) := reply _

/-- The entry of a path is found without payload. -/
theorem findEntry (parent : List Str) (leaf : Str) : Free (F := F) (findEntry parent leaf) := by
  refine bind (call (costs_findIn parent leaf)) fun r => ?_
  split
  · exact pure _
  · exact throw _

/-- The directory of a path is opened without payload. -/
theorem openDirEntry (components : List Str) : Free (F := F) (openDirEntry components) :=
  callOr (costs_openDirPath components) _

theorem slotOf (token : List UInt8) : Free (F := F) (slotOf token) := bind (view _) fun _ => check _

theorem fileAt (slot : Slot) : Free (F := F) (fileAt slot) := bind (view _) fun _ => check _

/-- A slot is filled, which moves nothing on the card. -/
theorem allocate (handle : Handle F.metered) : Free (allocate handle) := by
  refine bind (view _) fun slot => ?_
  split
  · exact bind (update _) fun _ => pure _
  · exact throw _

theorem handleReply (id : Nat) (slot : Slot) : Free (F := F) (handleReply id slot) := bind (view _) fun _ => reply _

/-- Times and the read-only bit are no payload. -/
theorem applyMetadata (entry : F.metered.Entry) (attrs : RequestedAttrs) (clock : ClockConfig) :
    Free (applyMetadata entry attrs clock) := by
  refine bind ?_ fun _ => ?_
  · unfold applyTimes
    split
    · exact bind (check _) fun _ => bind (check _) fun _ => callOr (costs_counted 0 _) _
    · exact pure _
  · unfold applyPermissions
    split
    · exact callOr (costs_counted 0 _) _
    · exact pure _

/-- STAT and LSTAT move no payload. -/
theorem statComponents (id : Nat) (components : List Str) (ctx : Ctx) : Free (F := F) (statComponents id components ctx) := by
  unfold Ratputer.statComponents
  dsimp only
  split
  · exact reply _
  · exact bind (findEntry _ _) fun _ => reply _

/-- OPENDIR moves no payload. -/
theorem opendir (id : Nat) (body : List UInt8) : Free (F := F) (opendir id body) := by
  refine bind (parse _ _) fun r => bind (call (costs_openDirPath _)) fun r => ?_
  split
  · exact bind (allocate _) fun _ => handleReply _ _
  · split
    · refine bind (call (costs_findIn _ _)) fun r => ?_
      split
      · exact throw _
      · exact throw _
    · exact throw _

/-- READDIR moves no payload: the records of a directory are not file content. -/
theorem readdir (id : Nat) (body : List UInt8) (ctx : Ctx) : Free (F := F) (readdir id body ctx) := by
  refine bind (parse _ _) fun r => bind (slotOf _) fun slot => bind (view _) fun handle => ?_
  split
  · refine bind (openDirEntry _) fun dir => bind (callOr (costs_counted 0 _) _) fun records => ?_
    refine bind (check _) fun result => bind (update _) fun _ => ?_
    exact ite (reply _) (reply _)
  · exact throw _

/-- Finding, truncating or creating a file for OPEN moves no payload. -/
theorem openTarget (parent : List Str) (leaf : Str) (flags : Nat) : Free (F := F) (openTarget parent leaf flags) := by
  refine bind (openDirEntry _) fun dir => bind (callOr (costs_counted 0 _) _) fun existing => ?_
  split
  · refine ite (throw _) (ite (throw _) (ite (throw _) (ite ?_ (pure _))))
    exact bind (callOr (costs_counted 0 _) _) fun _ => bind (update _) fun _ => pure _
  · exact ite (bind (callOr (costs_counted 0 _) _) fun _ => pure _) (throw _)

/-- OPEN moves no payload. -/
theorem openFile (id : Nat) (body : List UInt8) (ctx : Ctx) : Free (F := F) (openFile id body ctx) := by
  refine bind (parse _ _) fun r => bind (check _) fun _ => bind (check _) fun path => bind (openTarget _ _ _) fun target => ?_
  refine bind ?_ fun _ => bind (allocate _) fun _ => handleReply _ _
  unfold applyCreated
  split
  · exact bind (findEntry _ _) fun _ => applyMetadata _ _ _
  · exact pure _

/-- READ only checks its request; the payload is streamed later. -/
theorem readFile (id : Nat) (body : List UInt8) : Free (F := F) (readFile id body) := by
  refine bind (parse _ _) fun r => bind (slotOf _) fun slot => bind (fileAt _) fun file => guard ?_
  exact bind (findEntry _ _) fun entry => ite (reply _) (update _)

/-- REMOVE moves no payload. -/
theorem remove (id : Nat) (body : List UInt8) : Free (F := F) (remove id body) := by
  refine bind (parse _ _) fun r => bind (check _) fun path => bind (findEntry _ _) fun entry => guard (guard ?_)
  exact bind (callOr (costs_counted 0 _) _) fun _ => ok _

/-- MKDIR moves no payload. -/
theorem mkdir (id : Nat) (body : List UInt8) (ctx : Ctx) : Free (F := F) (mkdir id body ctx) := by
  refine bind (parse _ _) fun r => bind (check _) fun _ => guard (bind (check _) fun path => ?_)
  refine bind (openDirEntry _) fun dir => bind (call (costs_counted 0 _)) fun r => ?_
  split
  · exact bind (findEntry _ _) fun _ => bind (applyMetadata _ _ _) fun _ => ok _
  · exact throw _
  · exact throw _

/-- RMDIR moves no payload. -/
theorem rmdir (id : Nat) (body : List UInt8) : Free (F := F) (rmdir id body) := by
  refine bind (parse _ _) fun r => bind (check _) fun path => bind (findEntry _ _) fun entry => guard ?_
  refine bind (call (costs_counted 0 _)) fun r => ?_
  split
  · exact ok _
  · exact throw _
  · exact throw _

/-- RENAME moves no payload. -/
theorem rename (id : Nat) (body : List UInt8) : Free (F := F) (rename id body) := by
  refine bind (parse _ _) fun r => bind (check _) fun source => bind (check _) fun target => guard ?_
  refine bind (findEntry _ _) fun entry => bind (openDirEntry _) fun dest => bind (call (costs_counted 0 _)) fun r => ?_
  split
  · exact ok _
  · exact throw _
  · exact throw _

/-- SETSTAT and FSETSTAT themselves move no payload: a growing file is filled step by step. -/
theorem applySetstat (id : Nat) (components : List Str) (attrs : RequestedAttrs) (ctx : Ctx) :
    Free (F := F) (applySetstat id components attrs ctx) := by
  refine bind (check _) fun _ => bind (check _) fun path => bind (findEntry _ _) fun entry => ?_
  refine ite (throw _) (ite (throw _) (ite (update _) ?_))
  refine bind ?_ fun _ => bind (findEntry _ _) fun _ => bind (applyMetadata _ _ _) fun _ => bind (update _) fun _ => ok _
  unfold shrink
  split
  · exact ite (callOr (costs_counted 0 _) _) (pure _)
  · exact pure _

theorem requireWritable (slot : Slot) (attrs : RequestedAttrs) : Free (F := F) (requireWritable slot attrs) :=
  ite (bind (fileAt _) fun _ => ite (throw _) (pure _)) (pure _)

/-- The answer to statvfs is made of the volume's figures. -/
theorem statvfsReply (id : Nat) (components : List Str) : Free (F := F) (statvfsReply id components) := by
  refine bind ?_ fun _ => bind (viewVolume _) fun free => ?_
  · unfold requireEntry
    split
    · exact bind (findEntry _ _) fun _ => pure _
    · exact pure _
  split
  · exact throw _
  · refine bind (viewVolume _) fun total => guard ?_
    exact bind (viewVolume _) fun _ => bind (viewVolume _) fun _ => reply _

theorem handleComponents (slot : Slot) {f : List Str → SftpM F.metered α} (hf : ∀ components, Free (f components)) :
    Free (do let components ← Ratputer.check (← Ratputer.view (·.handleComponents slot)); f components) :=
  bind (view _) fun _ => bind (check _) hf

/-- EXTENDED moves no payload. -/
theorem extended (id : Nat) (body : List UInt8) : Free (F := F) (extended id body) := by
  refine bind (parse _ _) fun r => ite (reply _) (ite ?_ (ite ?_ (ite ?_ (throw _))))
  · refine bind (parse _ _) fun r => bind (slotOf _) fun _ => bind (fileAt _) fun _ => ?_
    exact bind (callOr (costs_counted 0 _) _) fun _ => ok _
  · exact bind (parse _ _) fun r => statvfsReply _ _
  · exact bind (parse _ _) fun r => bind (slotOf _) fun slot => handleComponents slot fun _ => statvfsReply _ _

/-- No request handler moves payload. -/
theorem handleRequest (kind id : Nat) (body : List UInt8) (ctx : Ctx) : Free (F := F) (handleRequest kind id body ctx) := by
  unfold Ratputer.handleRequest
  refine ite (bind (parse _ _) fun _ => reply _) (ite (bind (parse _ _) fun _ => statComponents _ _ _) ?_)
  refine ite (bind (parse _ _) fun _ => bind (slotOf _) fun slot => handleComponents slot fun _ => statComponents _ _ _) ?_
  refine ite (opendir id body) (ite (readdir id body ctx) (ite (openFile id body ctx) ?_))
  refine ite (bind (parse _ _) fun _ => bind (slotOf _) fun _ => bind (update _) fun _ => ok _) ?_
  refine ite (readFile id body) (ite (remove id body) (ite (mkdir id body ctx) (ite (rmdir id body) (ite (rename id body) ?_))))
  refine ite (bind (parse _ _) fun _ => applySetstat _ _ _ _) (ite ?_ (ite (extended id body) (throw _)))
  refine bind (parse _ _) fun _ => bind (slotOf _) fun slot => bind (requireWritable _ _) fun _ => ?_
  exact handleComponents slot fun _ => applySetstat _ _ _ _

end Free

/-! ## Chunks -/

/-- The payload counter beside the file that card I/O works on. -/
def filePayload (w : FileHandle F.metered × V × Meter) : Nat := volumePayload w.2

/-- A call on an open file costs what the driver's call costs. -/
theorem costs_fileCall {cost : Nat} {op : FatM (V × Meter) α} (h : Costs volumePayload cost op) :
    Costs filePayload cost (fileCall (F := F.metered) op) := by
  intro w
  have hop := h w.2
  unfold fileCall Ends at *
  cases hrun : op w.2 with
  | ok a v => simp only [hrun] at hop ⊢; exact hop
  | error e v => simp only [hrun] at hop ⊢; exact hop

/-- The same under the status for its failure. -/
theorem costs_fileCallOr {cost : Nat} {op : FatM (V × Meter) α} (h : Costs volumePayload cost op) (status : Status) :
    Costs filePayload cost (fileCallOr (F := F.metered) op status) := by
  refine costs_bind_last (costs_fileCall h) fun r => ?_
  split
  · exact costs_pure _
  · exact costs_throw _

/-- Looking at the handle costs nothing. -/
theorem costs_fileView (f : FileHandle F.metered → α) : Costs filePayload 0 (fileView f) := fun w =>
  Nat.le_add_right (filePayload w) 0

/-- Changing the handle costs nothing. -/
theorem costs_fileUpdate (f : FileHandle F.metered → FileHandle F.metered) : Costs filePayload 0 (fileUpdate f) := fun w =>
  Nat.le_add_right (filePayload w) 0

/-- Finding the entry of an open file costs nothing. -/
theorem costs_fileEntry : Costs filePayload 0 (fileEntry (F := F.metered)) := by
  refine costs_bind_free (costs_fileView _) fun file => costs_bind_free (costs_fileCall (costs_findIn _ _)) fun r => ?_
  split
  · exact costs_pure _
  · exact costs_throw _

/-- Opening a reader moves no payload. -/
theorem costs_openReader (entry : F.metered.Entry) (offset : Nat) : Costs filePayload 0 (openReader entry offset) := by
  have hnew : Costs filePayload 0 (do
      let reader ← fileCallOr (F := F.metered) (F.metered.readerNew entry) (.failure "")
      fileCallOr (F.metered.readerSeek reader offset) (.failure "")) :=
    costs_bind_free (costs_fileCallOr (costs_counted 0 _) _) fun _ => costs_fileCallOr (costs_counted 0 _) _
  refine costs_bind_free (costs_fileView _) fun readAt => costs_bind_free (costs_fileUpdate _) fun _ => ?_
  split
  · exact costs_ite (costs_fileCallOr (costs_counted 0 _) _) hnew
  · exact hnew

/-- A chunk is read at the cost of its length. -/
theorem costs_readChunk (offset count : Nat) : Costs filePayload count (readChunk (F := F.metered) offset count) := by
  refine costs_bind_free costs_fileEntry fun entry => costs_bind_free (costs_openReader entry offset) fun reader => ?_
  refine costs_bind_last (costs_fileCallOr (costs_counted count _) _) fun r => ?_
  exact costs_bind_free (costs_fileUpdate _) fun _ => costs_pure _

/-- Opening a writer moves no payload. -/
theorem costs_openWriter (entry : F.metered.Entry) (offset : Nat) : Costs filePayload 0 (openWriter entry offset) := by
  refine costs_ite ?_ ?_
  · refine costs_bind_free (costs_fileView _) fun append => costs_bind_free (costs_fileUpdate _) fun _ => ?_
    split
    · exact costs_fileCallOr (costs_counted 0 _) _
    · exact costs_fileCallOr (costs_counted 0 _) _
  · exact costs_bind_free (costs_fileUpdate _) fun _ => costs_fileCallOr (costs_counted 0 _) _

/-- Writing data costs its length, also when the card takes less of it. -/
theorem costs_writeAll (writer : F.metered.Writer) (data : List UInt8) :
    Costs filePayload data.length (writeAll writer data) := by
  refine costs_bind_last (costs_fileCallOr (costs_counted data.length _) _) fun r => costs_ite ?_ (costs_pure _)
  exact costs_bind_free (costs_fileCall fun v => Nat.le_add_right (volumePayload v) 0) fun _ => costs_throw _

/-- A chunk is written at the cost of its length. -/
theorem costs_writeChunk (offset : Nat) (data : List UInt8) :
    Costs filePayload data.length (writeChunk (F := F.metered) offset data) := by
  refine costs_bind_free costs_fileEntry fun entry => costs_guard (costs_guard (costs_guard ?_))
  refine costs_bind_free (costs_fileUpdate _) fun _ => costs_bind_free (costs_openWriter entry offset) fun writer => ?_
  refine costs_bind_last (costs_writeAll writer data) fun writer => ?_
  exact costs_bind_free (costs_fileCallOr (costs_counted 0 _) _) fun _ => costs_fileUpdate _

/-- Card I/O on the file of a slot costs what it costs. -/
theorem costs_onFile {cost : Nat} {op : FileM F.metered α} (h : Costs filePayload cost op) (slot : Slot) (status : Status) :
    Costs World.payload cost (onFile slot status op) := by
  intro w
  unfold onFile Ends
  cases hslot : w.server.handles slot with
  | none =>
    simp only [hslot]
    exact Nat.le_add_right _ _
  | some handle =>
    cases handle with
    | dir dir =>
      simp only [hslot]
      exact Nat.le_add_right _ _
    | file file =>
      have hop := h (file, w.volume)
      unfold Ends at hop
      cases hrun : op (file, w.volume) with
      | ok a r => simp only [hslot, hrun] at hop ⊢; exact hop
      | error e r => simp only [hslot, hrun] at hop ⊢; exact hop

/-- An operation on the file of a pending SETSTAT costs what it costs on an open file. -/
theorem costs_onJob {cost : Nat} {op : FileM F.metered Unit} (h : Costs filePayload cost op) (job : ResizeJob F.metered) :
    Costs World.payload cost (onJob job op) := by
  intro w
  have hop := h (job.file, w.volume)
  unfold onJob Ends at *
  cases hrun : op (job.file, w.volume) with
  | ok a r => simp only [hrun] at hop ⊢; exact hop
  | error e r => simp only [hrun] at hop ⊢; exact hop

/-- One step of a growing SETSTAT writes at most a chunk. -/
theorem costs_resizeChunk (job : ResizeJob F.metered) (ctx : Ctx) : Costs World.payload WRITE_CHUNK (resizeChunk job ctx) := by
  refine costs_bind_free (Free.check _) fun path => costs_bind_free (Free.findEntry _ _) fun entry => costs_ite ?_ ?_
  · have hlen : (List.replicate (min (job.attrs.size.getD 0 - entry.len) WRITE_CHUNK) (0 : UInt8)).length ≤ WRITE_CHUNK := by
      rw [List.length_replicate]
      exact Nat.min_le_right _ _
    refine costs_bind_last ((costs_onJob (costs_writeChunk _ _) job).mono hlen) fun job => ?_
    exact costs_bind_free (Free.update _) fun _ => costs_pure _
  · exact costs_bind_free (Free.applyMetadata _ _ _) fun _ => costs_bind_free (Free.update _) fun _ => costs_pure _

end Ratputer
