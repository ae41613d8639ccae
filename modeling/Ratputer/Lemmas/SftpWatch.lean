import Ratputer.Lemmas.SftpChunks
import Ratputer.LongName

/-!
# A volume under watch

A driver that keeps watch over its volume: whether a call that changes it has failed. And what its calls do to what one sees of the
volume, when they succeed.
-/

namespace Ratputer

open Effect

variable {V : Type}

/-- A call that changes the volume, beside the watch; `whole` tells when it has done all of its work. -/
def FatM.changing {α : Type} (whole : α → Bool) (op : FatM V α) : FatM (V × Bool) α := fun v =>
  match op v.1 with
  | .ok a v' => .ok a (v', v.2 || !whole a)
  | .error e v' => .error e (v', true)

/-- A call that only reads, beside the watch. -/
def FatM.reading {α : Type} (op : FatM V α) : FatM (V × Bool) α := fun v =>
  match op v.1 with
  | .ok a v' => .ok a (v', v.2)
  | .error e v' => .error e (v', v.2)

/-- A call under watch that only reads answers as the call itself does. -/
theorem FatM.reading_ok {α : Type} {op : FatM V α} {v v' : V × Bool} {a : α} (h : op.reading v = .ok a v') :
    op v.1 = .ok a v'.1 := by
  unfold reading at h
  cases hop : op v.1 with
  | ok b v₁ =>
    rw [hop] at h
    injection h with h1 h2
    rw [← h1, ← h2]
  | error e v₁ =>
    rw [hop] at h
    cases h

/-- The driver under watch. To open a writer and to sync count as changes. -/
def Fat.watched (F : Fat V) : Fat (V × Bool) where
  Dir := F.Dir
  Identity := F.Identity
  Reader := F.Reader
  Writer := F.Writer
  ReadCursor := F.ReadCursor
  AppendCursor := F.AppendCursor
  rootDir v := F.rootDir v.1
  openDir dir name := (F.openDir dir name).reading
  find dir name := (F.find dir name).reading
  entries dir := (F.entries dir).reading
  createFile dir name := (F.createFile dir name).changing fun _ => true
  createDir dir name := (F.createDir dir name).changing fun _ => true
  delete entry := (F.delete entry).changing fun _ => true
  rename entry dir name := (F.rename entry dir name).changing fun _ => true
  truncate entry size := (F.truncate entry size).changing fun _ => true
  setTimes entry modified accessed := (F.setTimes entry modified accessed).changing fun _ => true
  setAttributes entry attributes := (F.setAttributes entry attributes).changing fun _ => true
  sync := F.sync.changing fun _ => true
  freeClusterCount v := F.freeClusterCount v.1
  maxCluster v := F.maxCluster v.1
  clusterSize v := F.clusterSize v.1
  volumeId v := F.volumeId v.1
  readerNew entry := (F.readerNew entry).reading
  readerFromCursor entry cursor := (F.readerFromCursor entry cursor).reading
  readerSeek reader offset := (F.readerSeek reader offset).reading
  readerRead reader count := (F.readerRead reader count).reading
  readerCursor := F.readerCursor
  readerRead_le reader count _ _ _ _ h := F.readerRead_le reader count _ _ _ _ (FatM.reading_ok h)
  writerNewAppend entry := (F.writerNewAppend entry).changing fun _ => true
  writerFromCursor entry cursor := (F.writerFromCursor entry cursor).changing fun _ => true
  writerNewAt entry offset := (F.writerNewAt entry offset).changing fun _ => true
  writerWrite writer data := (F.writerWrite writer data).changing fun r => r.1 = data.length
  writerAppendCursor := F.writerAppendCursor
  writerFinish writer := (F.writerFinish writer).changing fun _ => true
  writerDrop writer v := (F.writerDrop writer v.1, v.2)

/-! ## What one sees of a volume -/

/-- The search for a path cannot be carried out. -/
def Fat.SearchFails (F : Fat V) (parent : List Str) (leaf : Str) (v : V) : Prop := ∃ e v', F.findIn parent leaf v = .error e v'

section

variable {X : Type}

/-- The volumes look the same. -/
def SameView (view : V → X) (v v' : V) : Prop := view v' = view v

instance (view : V → X) : Std.Refl (SameView view) := ⟨fun _ => rfl⟩

instance (view : V → X) : IsTrans V (SameView view) := ⟨fun _ _ _ h h' => Eq.trans h' h⟩

/-- The call changes nothing that one sees of the volume. -/
def Leaves {α : Type} (view : V → X) (op : FatM V α) : Prop := Frames (SameView view) (fun _ => True) (fun _ => True) op

/-- What the driver's calls do to what one sees of the volume, when they succeed. `view` takes in the directories with their
entries, the contents, attributes and times, and decides which entry a path names. An entry that is created under a name that
does not read back is there, and its path does not name it. -/
structure Sees (F : Fat V) (view : V → X) (entryAt : X → List Str → Str → Option F.Entry) : Prop where
  openDir : ∀ dir name, Leaves view (F.openDir dir name)
  find : ∀ dir name, Leaves view (F.find dir name)
  entries : ∀ dir, Leaves view (F.entries dir)
  found : ∀ parent leaf v entry v', F.findIn parent leaf v = .ok entry v' → entry = entryAt (view v) parent leaf
  created : ∀ parent leaf dir v₀ v₁ v v', F.openDirPath parent v₀ = .ok dir v₁ → view v = view v₁ →
    F.createFile dir leaf v = .ok () v' ∨ F.createDir dir leaf v = .ok () v' →
    view v' ≠ view v ∧ (entryAt (view v') parent leaf).isSome = readsBack leaf
  cut : ∀ parent leaf entry size v v', entryAt (view v) parent leaf = some entry → F.truncate entry size v = .ok () v' →
    if size < entry.len then ∃ entry', entryAt (view v') parent leaf = some entry' ∧ entry'.len = size else view v' = view v
  setTimes : ∀ entry modified accessed v v', F.setTimes entry modified accessed v = .ok () v' → ∀ parent leaf,
    (entryAt (view v') parent leaf).isSome = (entryAt (view v) parent leaf).isSome
  setAttributes : ∀ entry attributes v v', F.setAttributes entry attributes v = .ok () v' → ∀ parent leaf,
    (entryAt (view v') parent leaf).isSome = (entryAt (view v) parent leaf).isSome
  appended : ∀ parent leaf entry append data writer writer' v v₁ v₂ v₃, entryAt (view v) parent leaf = some entry →
    ChunkAux.Opens entry entry.len append v writer v₁ → F.writerWrite writer data v₁ = .ok (data.length, writer') v₂ →
    F.writerFinish writer' v₂ = .ok () v₃ →
    ∃ entry', entryAt (view v₃) parent leaf = some entry' ∧ entry.len + data.length ≤ entry'.len ∧
      entry'.readOnly = entry.readOnly

variable {F : Fat V} {view : V → X} {entryAt : X → List Str → Str → Option F.Entry}

/-- Opening a directory leaves what one sees of the volume. -/
theorem Sees.openDirPath (law : Sees F view entryAt) (components : List Str) : Leaves view (F.openDirPath components) := by
  have hfrom (dir : F.Dir) : Leaves view (F.openDirFrom dir components) := by
    induction components generalizing dir with
    | nil => exact frames_pure trivial
    | cons component rest ih => exact frames_bind (law.openDir dir component) fun current _ => ih current
  intro v
  exact hfrom (F.rootDir v) v

/-- Searching a directory does too. -/
theorem Sees.findIn (law : Sees F view entryAt) (parent : List Str) (leaf : Str) : Leaves view (F.findIn parent leaf) :=
  frames_bind (law.openDirPath parent) fun dir _ => law.find dir leaf

end

/-! ## Searches under watch -/

section

variable {α β : Type}

/-- A search in steps is watched as a whole. -/
theorem FatM.reading_bind (op : FatM V α) (f : α → FatM V β) : (op.reading >>= fun a => (f a).reading) = FatM.reading (op >>= f) := by
  funext v
  show EStateM.bind op.reading (fun a => (f a).reading) v = _
  unfold EStateM.bind reading
  show _ = match EStateM.bind op f v.1 with
    | .ok a v' => EStateM.Result.ok a (v', v.2)
    | .error e v' => .error e (v', v.2)
  unfold EStateM.bind
  cases op v.1 with
  | error e v₁ => rfl
  | ok a v₁ => rfl

variable {F : Fat V}

/-- Under watch a directory is opened by calls that only read. -/
theorem watched_openDirPath (components : List Str) : F.watched.openDirPath components = (F.openDirPath components).reading := by
  have hfrom (dir : F.Dir) : F.watched.openDirFrom dir components = (F.openDirFrom dir components).reading := by
    induction components generalizing dir with
    | nil => rfl
    | cons component rest ih =>
      show ((F.openDir dir component).reading >>= fun current => F.watched.openDirFrom current rest) = _
      simp only [ih]
      exact FatM.reading_bind _ _
  funext v
  exact congrFun (hfrom (F.rootDir v.1)) v

/-- Under watch a directory is searched by calls that only read. -/
theorem watched_findIn (parent : List Str) (leaf : Str) : F.watched.findIn parent leaf = (F.findIn parent leaf).reading := by
  show (F.watched.openDirPath parent >>= fun dir => (F.find dir leaf).reading) = _
  rw [watched_openDirPath]
  exact FatM.reading_bind _ _

end

/-! ## Calls under watch -/

section

variable {α X : Type}

/-- A call that only reads does what it does without the watch. -/
theorem ends_reading {view : V → X} {op : FatM V α} (hop : Leaves view op) (v : V × Bool) : Ends op.reading v
    (fun a v' => v'.2 = v.2 ∧ view v'.1 = view v.1 ∧ op v.1 = .ok a v'.1)
    fun e v' => v'.2 = v.2 ∧ view v'.1 = view v.1 ∧ op v.1 = .error e v'.1 := by
  have hlook := hop v.1
  unfold Ends FatM.reading
  cases hrun : op v.1 with
  | error e v₁ => exact ⟨rfl, (hlook.error hrun).1, rfl⟩
  | ok a v₁ => exact ⟨rfl, (hlook.ok hrun).1, rfl⟩

/-- A call that changes the volume fails, or does what it does without the watch. -/
theorem ends_changing (op : FatM V α) (whole : α → Bool) (v : V × Bool) : Ends (op.changing whole) v
    (fun a v' => v'.2 = true ∨ v'.2 = v.2 ∧ op v.1 = .ok a v'.1 ∧ whole a = true) fun _ v' => v'.2 = true := by
  unfold Ends FatM.changing
  cases op v.1 with
  | error e v₁ => rfl
  | ok a v₁ =>
    cases hwhole : whole a with
    | true => exact .inr ⟨by simp [hwhole], rfl, hwhole⟩
    | false => exact .inl (by simp [hwhole])

end

/-! ## Worlds under watch -/

variable {F : Fat V} {X : Type}

/-- The handle table: the handles, and the strings under which the client knows them. -/
def Server.table {F : Fat V} (s : Server F) : (Slot → Option (Handle F)) × (Slot → Nat) := (s.handles, s.tokens)

namespace World

/-- A call that changes the volume has failed, or has done its work in part only. -/
def Failed (w : World F.watched) : Prop := w.volume.2 = true

/-- What one sees of the volume is the same, and so is the handle table. -/
def Unchanged (view : V → X) (w w' : World F.watched) : Prop :=
  view w'.volume.1 = view w.volume.1 ∧ w'.server.table = w.server.table

/-- What a search does. -/
structure Looked (view : V → X) (w w' : World F.watched) : Prop where
  server : w'.server = w.server
  watch : w'.volume.2 = w.volume.2
  view : view w'.volume.1 = view w.volume.1

variable {view : V → X} {w w' w'' : World F.watched}

/-- What only looks has changed nothing. -/
theorem Looked.unchanged (h : w.Looked view w') : w.Unchanged view w' := ⟨h.view, congrArg Server.table h.server⟩

theorem Looked.out (h : w.Looked view w') : w'.server.out = w.server.out := by rw [h.server]

theorem Looked.resize (h : w.Looked view w') : w'.server.resize = w.server.resize := by rw [h.server]

/-- Two looks, one after the other. -/
theorem Looked.trans (h : w.Looked view w') (h' : w'.Looked view w'') : w.Looked view w'' :=
  ⟨h'.server.trans h.server, h'.watch.trans h.watch, h'.view.trans h.view⟩

instance : Std.Refl (World.Looked (F := F) view) := ⟨fun _ => ⟨rfl, rfl, rfl⟩⟩

instance : IsTrans (World F.watched) (World.Looked view) := ⟨fun _ _ _ h h' => h.trans h'⟩

end World

section

variable {α : Type} {view : V → X} {entryAt : X → List Str → Str → Option F.Entry} {w : World F.watched}
  {E : Status → World F.watched → Prop}

/-- What comes of a call that only reads. -/
inductive Ran (op : FatM V α) (v v' : V) : Except FatError α → Prop
  | ok (a : α) (h : op v = .ok a v') : Ran op v v' (.ok a)
  | error (e : FatError) (h : op v = .error e v') : Ran op v v' (.error e)

/-- A call that only reads, in a handler that looks at its result. -/
theorem ends_read {op : FatM V α} (hop : Leaves view op) : Ends (call (F := F.watched) op.reading) w
    (fun r w' => w.Looked view w' ∧ Ran op w.volume.1 w'.volume.1 r) E := by
  have hread := ends_reading hop w.volume
  refine ends_call (fun a v hrun => ?_) fun e v hrun => ?_
  · obtain ⟨hwatch, hview, h⟩ := hread.ok hrun
    exact ⟨⟨rfl, hwatch, hview⟩, .ok a h⟩
  · obtain ⟨hwatch, hview, h⟩ := hread.error hrun
    exact ⟨⟨rfl, hwatch, hview⟩, .error e h⟩

/-- A call that only reads, under the status for its failure. -/
theorem ends_read_or {op : FatM V α} (hop : Leaves view op) (status : Status) : Ends (callOr (F := F.watched) op.reading status) w
    (fun a w' => w.Looked view w' ∧ op w.volume.1 = .ok a w'.volume.1)
    fun s w' => w.Looked view w' ∧ s = status ∧ ∃ e, op w.volume.1 = .error e w'.volume.1 := by
  refine ends_bind ((ends_read hop).mono ?_ fun _ _ h => h)
  rintro r w' ⟨hlook, hran⟩
  cases hran with
  | ok a h => exact ⟨hlook, h⟩
  | error e h => exact ⟨hlook, rfl, e, h⟩

/-- What comes of a call that changes the volume: it has failed, or has done its work. -/
inductive Changed (op : FatM V α) (w w' : World F.watched) : Except FatError α → Prop
  | failed (r : Except FatError α) (h : w'.Failed) : Changed op w w' r
  | ok (a : α) (hserver : w'.server = w.server) (hwatch : w'.volume.2 = w.volume.2) (h : op w.volume.1 = .ok a w'.volume.1) :
      Changed op w w' (.ok a)

/-- A changing call that fails, or that does less than all, marks the run. -/
theorem ends_change (op : FatM V α) (whole : α → Bool) : Ends (call (F := F.watched) (op.changing whole)) w
    (fun r w' => Changed op w w' r) E := by
  have hchange := ends_changing op whole w.volume
  refine ends_call (fun a v hrun => ?_) fun e v hrun => ?_
  · rcases hchange.ok hrun with hfailed | ⟨hwatch, h, _⟩
    · exact .failed _ hfailed
    · exact .ok a rfl hwatch h
  · exact .failed _ (hchange.error hrun)

/-- The same under the status for its failure. -/
theorem ends_change_or (op : FatM V α) (whole : α → Bool) (status : Status) :
    Ends (callOr (F := F.watched) (op.changing whole) status) w
      (fun a w' => w'.Failed ∨ w'.server = w.server ∧ w'.volume.2 = w.volume.2 ∧ op w.volume.1 = .ok a w'.volume.1)
      fun _ w' => w'.Failed := by
  refine ends_bind ((ends_change op whole).mono ?_ fun _ _ h => h)
  rintro r w' hchanged
  cases hchanged with
  | failed _ h =>
    cases r with
    | ok a => exact .inl h
    | error e => exact h
  | ok a hserver hwatch h => exact .inr ⟨hserver, hwatch, h⟩

/-- The entry at a path, or why there is none. -/
theorem ends_find (law : Sees F view entryAt) (parent : List Str) (leaf : Str) : Ends (findEntry (F := F.watched) parent leaf) w
    (fun entry w' => w.Looked view w' ∧ F.findIn parent leaf w.volume.1 = .ok (some entry) w'.volume.1)
    fun status w' => w.Looked view w' ∧ status = .noSuchFile ∧
      (F.SearchFails parent leaf w.volume.1 ∨ entryAt (view w.volume.1) parent leaf = none) := by
  unfold findEntry
  rw [watched_findIn]
  refine ends_bind ((ends_read (law.findIn parent leaf)).mono ?_ fun _ _ h => h)
  rintro r w' ⟨hlook, hran⟩
  cases hran with
  | error e h => exact ⟨hlook, rfl, .inl ⟨e, _, h⟩⟩
  | ok a h =>
    cases a with
    | none => exact ⟨hlook, rfl, .inr (law.found _ _ _ _ _ h).symm⟩
    | some entry => exact ⟨hlook, h⟩

end

/-! ## Card I/O under watch -/

section

variable {view : V → X} {entryAt : X → List Str → Str → Option F.Entry}

/-- The entry of a file, or why there is none. -/
theorem ends_fileEntry (law : Sees F view entryAt) (w : FileHandle F.watched × V × Bool) : Ends (fileEntry (F := F.watched)) w
    (fun entry w' => w'.1 = w.1 ∧ w'.2.2 = w.2.2 ∧ view w'.2.1 = view w.2.1 ∧
      F.findIn w.1.parent w.1.leaf w.2.1 = .ok (some entry) w'.2.1)
    fun status w' => w'.2.2 = w.2.2 ∧ view w'.2.1 = view w.2.1 ∧ status = .noSuchFile ∧
      (F.SearchFails w.1.parent w.1.leaf w.2.1 ∨ entryAt (view w.2.1) w.1.parent w.1.leaf = none) := by
  unfold fileEntry
  refine ends_bind (show Ends (fileView _) w _ _ from ends_bind (ends_fileCall ?_))
  rw [watched_findIn]
  refine (ends_reading (law.findIn _ _) w.2).mono ?_ ?_
  · rintro found v ⟨hwatch, hview, hrun⟩
    cases found with
    | none => exact ⟨hwatch, hview, rfl, .inr (law.found _ _ _ _ _ hrun).symm⟩
    | some entry => exact ⟨rfl, hwatch, hview, hrun⟩
  · rintro e v ⟨hwatch, hview, hrun⟩
    exact ⟨hwatch, hview, rfl, .inl ⟨e, _, hrun⟩⟩

/-- A call of a writer. -/
theorem ends_file_change {α : Type} {op : FatM V α} {whole : α → Bool} {status : Status} {w : FileHandle F.watched × V × Bool} :
    Ends (fileCallOr (F := F.watched) (op.changing whole) status) w
      (fun a w' => w'.2.2 = true ∨ w'.1 = w.1 ∧ w'.2.2 = w.2.2 ∧ op w.2.1 = .ok a w'.2.1 ∧ whole a = true)
      fun _ w' => w'.2.2 = true :=
  ends_fileCallOr ((ends_changing op whole w.2).mono (fun _ _ h => h.imp id fun h => ⟨rfl, h⟩) fun _ _ h => h)

/-- A writer at the end of a file. -/
theorem ends_openWriter (entry : F.watched.Entry) (w : FileHandle F.watched × V × Bool) :
    Ends (openWriter entry entry.len) w
      (fun writer w' => w'.2.2 = true ∨ w'.1 = { w.1 with append := none } ∧ w'.2.2 = w.2.2 ∧
        ChunkAux.Opens (F := F) entry entry.len w.1.append w.2.1 writer w'.2.1)
      fun _ w' => w'.2.2 = true := by
  unfold openWriter ChunkAux.Opens
  rw [if_pos rfl]
  refine ends_bind (show Ends (fileView _) w _ _ from ends_bind (show Ends (fileUpdate _) w _ _ from ?_))
  dsimp only
  cases w.1.append with
  | some cursor =>
    exact ends_file_change.mono (fun _ _ h => h.imp id fun h => ⟨h.1, h.2.1, by rw [if_pos rfl]; exact h.2.2.1⟩) fun _ _ h => h
  | none =>
    exact ends_file_change.mono (fun _ _ h => h.imp id fun h => ⟨h.1, h.2.1, by rw [if_pos rfl]; exact h.2.2.1⟩) fun _ _ h => h

/-- All of the data is written, or the card has failed. -/
theorem ends_writeAll (writer : F.watched.Writer) (data : List UInt8) (w : FileHandle F.watched × V × Bool) :
    Ends (writeAll writer data) w
      (fun writer' w' => w'.2.2 = true ∨ w'.1 = w.1 ∧ w'.2.2 = w.2.2 ∧
        F.writerWrite writer data w.2.1 = .ok (data.length, writer') w'.2.1)
      fun _ w' => w'.2.2 = true := by
  unfold writeAll
  refine ends_bind (ends_file_change.mono ?_ fun _ _ h => h)
  rintro ⟨count, writer'⟩ w' h
  dsimp only
  split
  · rename_i hshort
    refine ends_bind (ends_fileCall ?_)
    exact h.resolve_right fun h => hshort (of_decide_eq_true h.2.2.2)
  · rename_i hwhole
    rw [not_not] at hwhole
    exact ends_pure (h.imp id fun h => ⟨h.1, h.2.1, hwhole ▸ h.2.2.1⟩)

/-- A chunk at the end of a file that can be written and does not get too long: it is written, or the card fails, or the file
cannot be searched for. -/
theorem ends_appendChunk (law : Sees F view entryAt) (w : FileHandle F.watched × V × Bool) {entry : F.Entry}
    (hentry : entryAt (view w.2.1) w.1.parent w.1.leaf = some entry) (hwritable : entry.readOnly = false) (data : List UInt8)
    (hle : entry.len + data.length ≤ U32_MAX) :
    Ends (writeChunk (F := F.watched) entry.len data) w
      (fun _ w' => w'.2.2 = true ∨ w'.2.2 = w.2.2 ∧ ¬F.SearchFails w.1.parent w.1.leaf w.2.1 ∧
        ∃ entry', entryAt (view w'.2.1) w.1.parent w.1.leaf = some entry' ∧ entry.len + data.length ≤ entry'.len ∧
          entry'.readOnly = false)
      fun status w' => w'.2.2 = true ∨ w'.2.2 = w.2.2 ∧ view w'.2.1 = view w.2.1 ∧ status = .noSuchFile ∧
        F.SearchFails w.1.parent w.1.leaf w.2.1 := by
  unfold writeChunk
  refine ends_bind ((ends_fileEntry law w).mono ?_ ?_)
  swap
  · rintro status w' ⟨hwatch, hview, hstatus, hmissed⟩
    refine .inr ⟨hwatch, hview, hstatus, hmissed.resolve_right fun hnone => ?_⟩
    rw [hentry] at hnone
    cases hnone
  rintro found w₁ ⟨hfile₁, hwatch₁, hview₁, hfind⟩
  have hsearched : ¬F.SearchFails w.1.parent w.1.leaf w.2.1 := by
    rintro ⟨e, v, herror⟩
    cases hfind.symm.trans herror
  obtain rfl : entry = found := Option.some.inj (hentry.symm.trans (law.found _ _ _ _ _ hfind).symm)
  dsimp only
  split
  · rename_i hreadonly
    exact absurd (hreadonly.symm.trans hwritable) (by decide)
  split
  · omega
  split
  · omega
  refine ends_bind (show Ends (fileUpdate _) w₁ _ _ from ?_)
  refine ends_bind ((ends_openWriter entry _).mono (fun writer w₂ h₂ => ?_) fun _ _ h => .inl h)
  refine ends_bind ((ends_writeAll writer data w₂).mono (fun writer' w₃ h₃ => ?_) fun _ _ h => .inl h)
  have hfinish : Ends (fileCallOr (F.watched.writerFinish writer') writeFailed) w₃ _ _ := ends_file_change
  refine ends_bind (hfinish.mono ?_ fun _ _ h => .inl h)
  rintro _ w₄ h₄
  show w₄.2.2 = true ∨ w₄.2.2 = w.2.2 ∧ _
  rcases h₄ with hfailed | ⟨_, hwatch₄, hfinished, _⟩
  · exact .inl hfailed
  rcases h₃ with hfailed | ⟨_, hwatch₃, hwritten⟩
  · exact .inl (hwatch₄.trans hfailed)
  rcases h₂ with hfailed | ⟨_, hwatch₂, hopens⟩
  · exact .inl (hwatch₄.trans (hwatch₃.trans hfailed))
  refine .inr ⟨hwatch₄.trans (hwatch₃.trans (hwatch₂.trans hwatch₁)), hsearched, ?_⟩
  rw [← hwritable]
  refine law.appended _ _ entry _ data _ _ _ _ _ _ ?_ hopens hwritten hfinished
  show entryAt (view w₁.2.1) _ _ = some entry
  rw [hview₁]
  exact hentry

end

end Ratputer
