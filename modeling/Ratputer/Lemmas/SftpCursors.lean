import Ratputer.Lemmas.SftpWatch

/-!
# Cursors of open files

What is assumed of the driver's cursors: a cursor is good for a file when it opens the very reader, or writer, that the file's
entry opens; a cursor captured from a reader or writer is good, and stays good while the file by its path is left alone. Card I/O
on a file with good cursors does what it does without them.
-/

namespace Ratputer

open Effect

variable {V : Type}

namespace Fat

variable (F : Fat V)

/-- The entry that a path names on a volume. -/
def found (v : V) (parent : List Str) (leaf : Str) : Option F.Entry :=
  match F.findIn parent leaf v with
  | .ok entry _ => entry
  | .error _ _ => none

/-- A reader at an offset of a file, opened anew. -/
def readerAt (entry : F.Entry) (offset : Nat) : FatM V F.Reader := do
  let reader ← F.readerNew entry
  F.readerSeek reader offset

/-- Read from an offset of a file, opened anew. -/
def readFrom (entry : F.Entry) (offset count : Nat) : FatM V (List UInt8 × F.Reader) := do
  let reader ← F.readerAt entry offset
  F.readerRead reader count

/-- A writer at an offset of a file, opened anew. -/
def writerAt (entry : F.Entry) (offset : Nat) : FatM V F.Writer :=
  if offset = entry.len then F.writerNewAppend entry else F.writerNewAt entry offset

/-- Write all of the data and commit it: the cursor at its end, `none` when the write came back short. -/
def put (writer : F.Writer) (data : List UInt8) : FatM V (Option F.AppendCursor) := do
  let (count, writer) ← F.writerWrite writer data
  if count ≠ data.length then
    modify (F.writerDrop writer)
    return none
  else
    F.writerFinish writer
    return some (F.writerAppendCursor writer)

/-- Write data at an offset of a file with a writer opened anew. -/
def writeTo (entry : F.Entry) (offset : Nat) (data : List UInt8) : FatM V (Option F.AppendCursor) := do
  let writer ← F.writerAt entry offset
  F.put writer data

/-- A read cursor opens the very reader that its offset does. -/
def ReadsOn (v : V) (entry : F.Entry) (offset : Nat) (cursor : F.ReadCursor) : Prop :=
  F.readerFromCursor entry cursor v = F.readerAt entry offset v

/-- An append cursor opens the very writer that the end of the file does. -/
def AppendsOn (v : V) (entry : F.Entry) (cursor : F.AppendCursor) : Prop :=
  F.writerFromCursor entry cursor v = F.writerNewAppend entry v

/-- The file by a path is still there, and its cursors are as good as before. -/
def Keeps (v v' : V) (parent : List Str) (leaf : Str) : Prop :=
  ∀ entry, F.found v parent leaf = some entry → ∃ entry', F.found v' parent leaf = some entry' ∧
    entry'.identity = entry.identity ∧ (∀ offset cursor, F.ReadsOn v entry offset cursor → F.ReadsOn v' entry' offset cursor) ∧
    ∀ cursor, F.AppendsOn v entry cursor → F.AppendsOn v' entry' cursor

/-- The volume stays good, and the files by the paths in `P` are kept. -/
structure Spares (Good : V → Prop) (v v' : V) (P : List Str → Str → Prop) : Prop where
  good : Good v'
  keeps : ∀ parent leaf, P parent leaf → F.Keeps v v' parent leaf

/-- Whatever else the call does, it spares the files by the paths in `P`; when it fails it spares all files. -/
def Changes {α : Type} (Good : V → Prop) (v : V) (op : FatM V α) (P : List Str → Str → Prop) : Prop :=
  Ends op v (fun _ v' => F.Spares Good v v' P) fun _ v' => F.Spares Good v v' fun _ _ => True

/-- What writing up to an offset of an entry has come to: the files that other paths name are spared, and the cursor is good where
it stands at the end of the file; a write that came back short spares all files. -/
def Puts (Good : V → Prop) (v : V) (entry : F.Entry) (fin : Nat) : Option F.AppendCursor → V → Prop
  | some cursor, v' => F.Spares Good v v' (fun parent leaf => F.found v parent leaf ≠ some entry) ∧
      (entry.len ≤ fin → ∀ parent leaf, F.found v parent leaf = some entry →
        ∃ entry', F.found v' parent leaf = some entry' ∧ F.AppendsOn v' entry' cursor)
  | none, v' => F.Spares Good v v' fun _ _ => True

/-- The entry is one that a path names. -/
def Named (v : V) (entry : F.Entry) : Prop := ∃ parent leaf, F.found v parent leaf = some entry

/-- A path names the entry, whose times and attributes may have changed since. -/
def Known (v : V) (entry : F.Entry) : Prop :=
  ∃ parent leaf entry', F.found v parent leaf = some entry' ∧ entry'.identity = entry.identity

/-- The path goes through the entry. -/
def Passes (v : V) (entry : F.Entry) (parent : List Str) (leaf : Str) : Prop :=
  ∃ before name after, before ++ name :: after = parent ++ [leaf] ∧ F.found v before name = some entry

end Fat

/-- What the server relies on when it keeps cursors, on volumes in `Good` and a card without errors: searches and readers leave
the volume alone; the cursor of a reader that has read, and of a writer that has written to the end, is good; a call that changes
one entry leaves the files that other paths name alone; and an entry that is there takes its times and attributes. -/
structure Cursors (F : Fat V) (Good : V → Prop) : Prop where
  openDir : ∀ dir name, Leaves id (F.openDir dir name)
  find : ∀ dir name, Leaves id (F.find dir name)
  entries : ∀ dir, Leaves id (F.entries dir)
  readerNew : ∀ entry, Leaves id (F.readerNew entry)
  readerSeek : ∀ reader offset, Leaves id (F.readerSeek reader offset)
  readerRead : ∀ reader count, Leaves id (F.readerRead reader count)
  read : ∀ v entry offset count bytes reader, Good v → F.readFrom entry offset count v = .ok (bytes, reader) v →
    F.ReadsOn v entry (offset + bytes.length) (F.readerCursor reader)
  write : ∀ v entry offset data, Good v → F.Named v entry → offset ≤ entry.len → offset + data.length ≤ U32_MAX →
    Ends (F.writeTo entry offset data) v (F.Puts Good v entry (offset + data.length)) fun _ v' => F.Spares Good v v' fun _ _ => True
  truncate : ∀ v entry size, Good v → F.Named v entry →
    Ends (F.truncate entry size) v
      (fun _ v' => F.Spares Good v v' (fun parent leaf => F.found v parent leaf ≠ some entry) ∧
        ∀ parent leaf, F.found v parent leaf = some entry → (F.found v' parent leaf).isSome)
      fun _ v' => F.Spares Good v v' fun _ _ => True
  delete : ∀ v entry, Good v → F.Named v entry →
    F.Changes Good v (F.delete entry) fun parent leaf => F.found v parent leaf ≠ some entry
  rename : ∀ v entry dir name, Good v → F.Named v entry →
    F.Changes Good v (F.rename entry dir name) fun parent leaf => ¬F.Passes v entry parent leaf
  createFile : ∀ v dir name, Good v → F.Changes Good v (F.createFile dir name) fun _ _ => True
  createDir : ∀ v dir name, Good v → F.Changes Good v (F.createDir dir name) fun _ _ => True
  setTimes : ∀ v entry modified accessed, Good v → F.Known v entry →
    ∃ v', F.setTimes entry modified accessed v = .ok () v' ∧ F.Spares Good v v' fun _ _ => True
  setAttributes : ∀ v entry attributes, Good v → F.Known v entry →
    ∃ v', F.setAttributes entry attributes v = .ok () v' ∧ F.Spares Good v v' fun _ _ => True
  sync : ∀ v, Good v → F.Changes Good v F.sync fun _ _ => True

variable {F : Fat V} {Good : V → Prop}

namespace Fat

theorem Keeps.refl (v : V) (parent : List Str) (leaf : Str) : F.Keeps v v parent leaf := fun entry h =>
  ⟨entry, h, rfl, fun _ _ h => h, fun _ h => h⟩

/-- A file that is kept twice is kept. -/
theorem Keeps.trans {v v' v'' : V} {parent : List Str} {leaf : Str} (h : F.Keeps v v' parent leaf) (h' : F.Keeps v' v'' parent leaf) :
    F.Keeps v v'' parent leaf := by
  intro entry hfound
  obtain ⟨entry', hfound', hidentity, hreads, happends⟩ := h entry hfound
  obtain ⟨entry'', hfound'', hidentity', hreads', happends'⟩ := h' entry' hfound'
  exact ⟨entry'', hfound'', hidentity'.trans hidentity, fun offset cursor h => hreads' offset cursor (hreads offset cursor h),
    fun cursor h => happends' cursor (happends cursor h)⟩

/-- Spared twice is spared. -/
theorem Spares.trans {v v' v'' : V} {P : List Str → Str → Prop} (h : F.Spares Good v v' P) (h' : F.Spares Good v' v'' P) :
    F.Spares Good v v'' P := ⟨h'.good, fun parent leaf hP => (h.keeps parent leaf hP).trans (h'.keeps parent leaf hP)⟩

/-- An entry that is there stays there. -/
theorem Known.spared {v v' : V} {entry : F.Entry} (h : F.Known v entry) (hspares : F.Spares Good v v' fun _ _ => True) :
    F.Known v' entry := by
  obtain ⟨parent, leaf, entry₁, hfound, hidentity⟩ := h
  obtain ⟨entry₂, hfound', hidentity', _⟩ := hspares.keeps parent leaf trivial entry₁ hfound
  exact ⟨parent, leaf, entry₂, hfound', hidentity'.trans hidentity⟩

/-- An entry that a path names is known. -/
theorem Named.known {v : V} {entry : F.Entry} (h : F.Named v entry) : F.Known v entry := by
  obtain ⟨parent, leaf, hfound⟩ := h
  exact ⟨parent, leaf, entry, hfound, rfl⟩

/-- Nothing done spares everything. -/
theorem Spares.refl {v : V} (h : Good v) (P : List Str → Str → Prop) : F.Spares Good v v P := ⟨h, fun _ _ _ => .refl v _ _⟩

end Fat

namespace Cursors

/-- Opening a directory leaves the volume alone. -/
theorem openDirPath (law : Cursors F Good) (components : List Str) : Leaves id (F.openDirPath components) := by
  have hfrom (dir : F.Dir) : Leaves id (F.openDirFrom dir components) := by
    induction components generalizing dir with
    | nil => exact frames_pure trivial
    | cons component rest ih => exact frames_bind (law.openDir dir component) fun current _ => ih current
  intro v
  exact hfrom (F.rootDir v) v

/-- Searching a directory leaves the volume alone. -/
theorem findIn (law : Cursors F Good) (parent : List Str) (leaf : Str) : Leaves id (F.findIn parent leaf) :=
  frames_bind (law.openDirPath parent) fun dir _ => law.find dir leaf

/-- A reader at an offset leaves the volume alone. -/
theorem readerAt (law : Cursors F Good) (entry : F.Entry) (offset : Nat) : Leaves id (F.readerAt entry offset) :=
  frames_bind (law.readerNew entry) fun reader _ => law.readerSeek reader offset

/-- Reading leaves the volume alone. -/
theorem readFrom (law : Cursors F Good) (entry : F.Entry) (offset count : Nat) : Leaves id (F.readFrom entry offset count) :=
  frames_bind (law.readerAt entry offset) fun reader _ => law.readerRead reader count

end Cursors

/-! ## Card I/O without cursors -/

/-- The cursors of a file are good for what its path names. -/
structure FileHandle.Fresh (v : V) (file : FileHandle F) : Prop where
  read : ∀ offset cursor, file.readAt = some (offset, cursor) →
    ∃ entry, F.found v file.parent file.leaf = some entry ∧ F.ReadsOn v entry offset cursor
  append : ∀ cursor, file.append = some cursor →
    ∃ entry, F.found v file.parent file.leaf = some entry ∧ F.AppendsOn v entry cursor

/-- The file keeps no cursor. -/
def FileHandle.Bare (file : FileHandle F) : Prop := file.readAt = none ∧ file.append = none

namespace FileHandle

variable {file : FileHandle F} {v v' : V}

/-- A handle that has forgotten its cursors has none. -/
theorem bare_forget (file : FileHandle F) : file.forget.Bare := ⟨rfl, rfl⟩

/-- A handle without cursors is fresh. -/
theorem Bare.fresh (h : file.Bare) (v : V) : file.Fresh v :=
  ⟨fun _ _ hread => (nomatch h.1.symm.trans hread), fun _ happend => (nomatch h.2.symm.trans happend)⟩

/-- Good cursors stay good while their file is kept. -/
theorem Fresh.kept (h : file.Fresh v) (hkeeps : F.Keeps v v' file.parent file.leaf) : file.Fresh v' := by
  constructor
  · intro offset cursor hread
    obtain ⟨entry, hfound, hreads⟩ := h.read offset cursor hread
    obtain ⟨entry', hfound', _, hgood, _⟩ := hkeeps entry hfound
    exact ⟨entry', hfound', hgood offset cursor hreads⟩
  · intro cursor happend
    obtain ⟨entry, hfound, happends⟩ := h.append cursor happend
    obtain ⟨entry', hfound', _, _, hgood⟩ := hkeeps entry hfound
    exact ⟨entry', hfound', hgood cursor happends⟩

end FileHandle

/-- What a chunk is read as, whatever cursors the file keeps. -/
def readPlainly (offset count : Nat) (file : FileHandle F) (v : V) : EStateM.Result Status (FileHandle F × V) (List UInt8) :=
  match F.found v file.parent file.leaf with
  | none => .error .noSuchFile (file, v)
  | some entry =>
    match F.readFrom entry offset count v with
    | .ok (bytes, reader) _ => .ok bytes ({ file with readAt := some (offset + bytes.length, F.readerCursor reader) }, v)
    | .error _ _ => .error (.failure "") ({ file with readAt := none }, v)

/-- What a chunk is written as, whatever cursors the file keeps. -/
def writePlainly (offset : Nat) (data : List UInt8) (file : FileHandle F) (v : V) :
    EStateM.Result Status (FileHandle F × V) Unit :=
  match F.found v file.parent file.leaf with
  | none => .error .noSuchFile (file, v)
  | some entry =>
    if entry.readOnly then .error ⟨FX_PERMISSION_DENIED, "File is read-only"⟩ (file, v)
    else if U32_MAX < offset + data.length then .error (.failure "File exceeds FAT's 4 GiB limit") (file, v)
    else if entry.len < offset then .error (.failure "Gap must be zero-filled first") (file, v)
    else
      match F.writeTo entry offset data v with
      | .ok (some cursor) v' =>
        .ok () ({ file with
          append := if entry.len ≤ offset + data.length then some cursor else none
          readAt := none
          size := max entry.len (offset + data.length) }, v')
      | .ok none v' => .error (.failure "SD card full") ({ file with append := none }, v')
      | .error _ v' => .error writeFailed ({ file with append := none }, v')

section

variable {α β : Type} {file : FileHandle F} {v v' : V}

/-- A call on an open file that succeeds. -/
theorem fileCall_eq_ok {op : FatM V α} {a : α} (h : op v = .ok a v') : fileCall op (file, v) = .ok (.ok a) (file, v') := by
  unfold fileCall
  rw [h]

/-- A call on an open file that fails. -/
theorem fileCall_eq_error {op : FatM V α} {e : FatError} (h : op v = .error e v') :
    fileCall op (file, v) = .ok (.error e) (file, v') := by
  unfold fileCall
  rw [h]

/-- The call that succeeds, in a handler that names a status. -/
theorem fileCallOr_eq_ok {op : FatM V α} {a : α} {status : Status} (h : op v = .ok a v') :
    fileCallOr op status (file, v) = .ok a (file, v') := by
  unfold fileCallOr
  rw [bind_of_ok (fileCall_eq_ok h)]
  rfl

/-- The call that fails is answered with that status. -/
theorem fileCallOr_eq_error {op : FatM V α} {e : FatError} {status : Status} (h : op v = .error e v') :
    fileCallOr op status (file, v) = .error status (file, v') := by
  unfold fileCallOr
  rw [bind_of_ok (fileCall_eq_error h)]
  rfl

/-- Two calls in sequence are one call. -/
theorem fileCallOr_bind (op : FatM V α) (f : α → FatM V β) (status : Status) :
    (fileCallOr (F := F) op status >>= fun a => fileCallOr (f a) status) = fileCallOr (op >>= f) status := by
  funext ⟨file, v⟩
  cases hop : op v with
  | error e v₁ => rw [bind_of_error (fileCallOr_eq_error hop), fileCallOr_eq_error (bind_of_error hop)]
  | ok a v₁ =>
    rw [bind_of_ok (fileCallOr_eq_ok hop)]
    cases hf : f a v₁ with
    | ok b v₂ => rw [fileCallOr_eq_ok hf, fileCallOr_eq_ok ((bind_of_ok hop).trans hf)]
    | error e v₂ => rw [fileCallOr_eq_error hf, fileCallOr_eq_error ((bind_of_ok hop).trans hf)]

/-- The entry of an open file is the one at its path, if there is one. -/
theorem fileEntry_eq (law : Cursors F Good) (file : FileHandle F) (v : V) : fileEntry (file, v) =
    match F.found v file.parent file.leaf with
    | some entry => .ok entry (file, v)
    | none => .error .noSuchFile (file, v) := by
  have hlook := law.findIn file.parent file.leaf v
  unfold fileEntry Fat.found
  rw [bind_of_ok (show fileView id (file, v) = .ok file (file, v) from rfl)]
  cases hfind : F.findIn file.parent file.leaf v with
  | error e v₁ =>
    obtain rfl : v₁ = v := (hlook.error hfind).1
    rw [bind_of_ok (fileCall_eq_error hfind)]
    rfl
  | ok entry v₁ =>
    obtain rfl : v₁ = v := (hlook.ok hfind).1
    rw [bind_of_ok (fileCall_eq_ok hfind)]
    cases entry <;> rfl

/-- With a good cursor a reader is opened as without one. -/
theorem openReader_eq {entry : F.Entry} {offset : Nat}
    (h : ∀ cursor, file.readAt = some (offset, cursor) → F.ReadsOn v entry offset cursor) :
    openReader entry offset (file, v) = fileCallOr (F.readerAt entry offset) (.failure "") ({ file with readAt := none }, v) := by
  unfold openReader
  rw [bind_of_ok (show fileView (·.readAt) (file, v) = .ok file.readAt (file, v) from rfl),
    bind_of_ok (show fileUpdate (fun file => { file with readAt := none }) (file, v) = .ok () ({ file with readAt := none }, v)
      from rfl)]
  have hnew := fileCallOr_bind (F := F) (F.readerNew entry) (fun reader => F.readerSeek reader offset) (.failure "")
  cases hread : file.readAt with
  | none => exact congrFun hnew _
  | some kept =>
    obtain ⟨at', cursor⟩ := kept
    dsimp only
    split
    · rename_i hat
      subst hat
      have hcursor : F.readerFromCursor entry cursor v = F.readerAt entry at' v := h cursor hread
      cases hreader : F.readerAt entry at' v with
      | ok reader v₁ => rw [fileCallOr_eq_ok (hcursor.trans hreader), fileCallOr_eq_ok hreader]
      | error e v₁ => rw [fileCallOr_eq_error (hcursor.trans hreader), fileCallOr_eq_error hreader]
    · exact congrFun hnew _

/-- With good cursors a chunk is read as without them. -/
theorem readChunk_eq (law : Cursors F Good) (hfresh : file.Fresh v) (offset count : Nat) :
    readChunk offset count (file, v) = readPlainly offset count file v := by
  unfold readChunk readPlainly
  have hentry := fileEntry_eq law file v
  cases hfound : F.found v file.parent file.leaf with
  | none =>
    rw [hfound] at hentry
    rw [bind_of_error hentry]
  | some entry =>
    rw [hfound] at hentry
    rw [bind_of_ok hentry]
    have hgood (cursor : F.ReadCursor) (hread : file.readAt = some (offset, cursor)) : F.ReadsOn v entry offset cursor := by
      obtain ⟨entry', hfound', hreads⟩ := hfresh.read offset cursor hread
      rw [hfound] at hfound'
      injection hfound' with hfound'
      exact hfound' ▸ hreads
    have hlook := law.readerAt entry offset v
    cases hreader : F.readerAt entry offset v with
    | error e v₁ =>
      obtain rfl : v₁ = v := (hlook.error hreader).1
      have hread : F.readFrom entry offset count v₁ = .error e v₁ := bind_of_error hreader
      rw [bind_of_error ((openReader_eq hgood).trans (fileCallOr_eq_error hreader))]
      simp only [hread]
    | ok reader v₁ =>
      obtain rfl : v₁ = v := (hlook.ok hreader).1
      have hread : F.readFrom entry offset count v₁ = F.readerRead reader count v₁ := bind_of_ok hreader
      rw [bind_of_ok ((openReader_eq hgood).trans (fileCallOr_eq_ok hreader))]
      have hlook' := law.readerRead reader count v₁
      cases hbytes : F.readerRead reader count v₁ with
      | error e v₂ =>
        obtain rfl : v₂ = v₁ := (hlook'.error hbytes).1
        rw [bind_of_error (fileCallOr_eq_error hbytes)]
        simp only [hread, hbytes]
      | ok r v₂ =>
        obtain rfl : v₂ = v₁ := (hlook'.ok hbytes).1
        rw [bind_of_ok (fileCallOr_eq_ok hbytes)]
        simp only [hread, hbytes]
        rfl

/-- With a good cursor a writer is opened as without one. -/
theorem openWriter_eq {entry : F.Entry} (offset : Nat) (h : ∀ cursor, file.append = some cursor → F.AppendsOn v entry cursor) :
    openWriter entry offset (file, v) =
      fileCallOr (F.writerAt entry offset) writeFailed ({ file with append := none }, v) := by
  unfold openWriter Fat.writerAt
  split
  · rw [bind_of_ok (show fileView (·.append) (file, v) = .ok file.append (file, v) from rfl),
      bind_of_ok (show fileUpdate (fun file => { file with append := none }) (file, v) = .ok () ({ file with append := none }, v)
        from rfl)]
    cases happend : file.append with
    | none => rfl
    | some cursor =>
      have hcursor : F.writerFromCursor entry cursor v = F.writerNewAppend entry v := h cursor happend
      dsimp only
      cases hwriter : F.writerNewAppend entry v with
      | ok writer v₁ => rw [fileCallOr_eq_ok (hcursor.trans hwriter), fileCallOr_eq_ok hwriter]
      | error e v₁ => rw [fileCallOr_eq_error (hcursor.trans hwriter), fileCallOr_eq_error hwriter]
  · rfl

/-- What becomes of a chunk once its writer is open. -/
theorem put_eq (writer : F.Writer) (data : List UInt8) (cursorOf : F.AppendCursor → Option F.AppendCursor) (size : Nat) :
    (do
      let writer ← writeAll writer data
      let cursor := cursorOf (F.writerAppendCursor writer)
      fileCallOr (F.writerFinish writer) writeFailed
      fileUpdate fun file => { file with append := cursor, readAt := none, size } : FileM F Unit) (file, v) =
      match F.put writer data v with
      | .ok (some cursor) v' => .ok () ({ file with append := cursorOf cursor, readAt := none, size }, v')
      | .ok none v' => .error (.failure "SD card full") (file, v')
      | .error _ v' => .error writeFailed (file, v') := by
  cases hwrite : F.writerWrite writer data v with
  | error e v₁ =>
    have hall : writeAll writer data (file, v) = .error writeFailed (file, v₁) :=
      bind_of_error (fileCallOr_eq_error hwrite)
    have hput : F.put writer data v = .error e v₁ := bind_of_error hwrite
    rw [bind_of_error hall, hput]
  | ok r v₁ =>
    obtain ⟨count, writer'⟩ := r
    by_cases hcount : count = data.length
    · have hall : writeAll writer data (file, v) = .ok writer' (file, v₁) :=
        (bind_of_ok (fileCallOr_eq_ok hwrite)).trans (by simp only [hcount, ne_eq, not_true_eq_false, if_false]; rfl)
      have hput : F.put writer data v = (F.writerFinish writer' >>= fun _ => pure (some (F.writerAppendCursor writer'))) v₁ :=
        (bind_of_ok hwrite).trans (by simp only [hcount, ne_eq, not_true_eq_false, if_false])
      rw [bind_of_ok hall, hput]
      cases hfinish : F.writerFinish writer' v₁ with
      | error e v₂ => rw [bind_of_error (fileCallOr_eq_error hfinish), bind_of_error hfinish]
      | ok _ v₂ =>
        rw [bind_of_ok (fileCallOr_eq_ok hfinish), bind_of_ok hfinish]
        rfl
    · have hall : writeAll writer data (file, v) = .error (.failure "SD card full") (file, F.writerDrop writer' v₁) :=
        (bind_of_ok (fileCallOr_eq_ok hwrite)).trans (by simp only [hcount, ne_eq, not_false_eq_true, if_true]; rfl)
      have hput : F.put writer data v = .ok none (F.writerDrop writer' v₁) :=
        (bind_of_ok hwrite).trans (by simp only [hcount, ne_eq, not_false_eq_true, if_true]; rfl)
      rw [bind_of_error hall, hput]

/-- With a good cursor a chunk is written as without one. -/
theorem writeChunk_eq (law : Cursors F Good) (hfresh : file.Fresh v) (offset : Nat) (data : List UInt8) :
    writeChunk offset data (file, v) = writePlainly offset data file v := by
  unfold writeChunk writePlainly
  have hentry := fileEntry_eq law file v
  cases hfound : F.found v file.parent file.leaf with
  | none =>
    rw [hfound] at hentry
    rw [bind_of_error hentry]
  | some entry =>
    rw [hfound] at hentry
    rw [bind_of_ok hentry]
    dsimp only
    split
    · rfl
    split
    · rfl
    split
    · rfl
    have hgood (cursor : F.AppendCursor) (happend : file.append = some cursor) : F.AppendsOn v entry cursor := by
      obtain ⟨entry', hfound', happends⟩ := hfresh.append cursor happend
      rw [hfound] at hfound'
      injection hfound' with hfound'
      exact hfound' ▸ happends
    rw [bind_of_ok (show fileUpdate (fun file => if file.size ≠ entry.len then { file with append := none } else file) (file, v) =
      .ok () (if file.size ≠ entry.len then { file with append := none } else file, v) from rfl)]
    have hopen : openWriter entry offset (if file.size ≠ entry.len then { file with append := none } else file, v) =
        fileCallOr (F.writerAt entry offset) writeFailed ({ file with append := none }, v) := by
      split
      · exact openWriter_eq offset nofun
      · exact openWriter_eq offset hgood
    cases hwriter : F.writerAt entry offset v with
    | error e v₁ =>
      have hput : F.writeTo entry offset data v = .error e v₁ := bind_of_error hwriter
      rw [bind_of_error (hopen.trans (fileCallOr_eq_error hwriter))]
      simp only [hput]
    | ok writer v₁ =>
      have hput : F.writeTo entry offset data v = F.put writer data v₁ := bind_of_ok hwriter
      rw [bind_of_ok (hopen.trans (fileCallOr_eq_ok hwriter))]
      simp only [hput]
      exact put_eq writer data (fun cursor => if entry.len ≤ offset + data.length then some cursor else none) _

/-- A chunk is read, with or without cursors: the file has the cursor at its end. -/
theorem readChunk_forget (law : Cursors F Good) (hgood : Good v) (hfresh : file.Fresh v) (offset count : Nat) :
    (∃ bytes file' file'', readChunk offset count (file, v) = .ok bytes (file', v) ∧
      readChunk offset count (file.forget, v) = .ok bytes (file'', v) ∧ file''.forget = file'.forget ∧ file'.Fresh v) ∨
    ∃ status file' file'', readChunk offset count (file, v) = .error status (file', v) ∧
      readChunk offset count (file.forget, v) = .error status (file'', v) ∧ file''.forget = file'.forget ∧ file'.Fresh v := by
  rw [readChunk_eq law hfresh, readChunk_eq law (file.bare_forget.fresh v)]
  unfold readPlainly
  have hpath : F.found v file.forget.parent file.forget.leaf = F.found v file.parent file.leaf := rfl
  rw [hpath]
  cases hfound : F.found v file.parent file.leaf with
  | none => exact .inr ⟨_, _, _, rfl, rfl, rfl, hfresh⟩
  | some entry =>
    dsimp only
    cases hread : F.readFrom entry offset count v with
    | error e v' => exact .inr ⟨_, _, _, rfl, rfl, rfl, ⟨nofun, hfresh.append⟩⟩
    | ok r v' =>
      obtain ⟨bytes, reader⟩ := r
      obtain rfl : v' = v := (law.readFrom entry offset count v |>.ok hread).1
      refine .inl ⟨_, _, _, rfl, rfl, rfl, ⟨fun offset' cursor hcursor => ?_, hfresh.append⟩⟩
      injection hcursor with hcursor
      injection hcursor with hoffset hcursor
      exact ⟨entry, hfound, hoffset ▸ hcursor ▸ law.read _ entry offset count bytes reader hgood hread⟩

/-- A chunk has been written to the entry of the file, on a volume that has become `v'`: the file has the cursor at its end, and the
files that other paths name are spared. -/
structure Wrote (Good : V → Prop) (offset : Nat) (data : List UInt8) (file file' : FileHandle F) (v v' : V) : Prop where
  samePath : file'.parent = file.parent ∧ file'.leaf = file.leaf
  read : file'.readAt = none
  fresh : file'.Fresh v'
  target : ∃ entry cursor, F.found v file.parent file.leaf = some entry ∧ entry.readOnly = false ∧
    F.writeTo entry offset data v = .ok (some cursor) v' ∧
    F.Spares Good v v' fun parent leaf => ¬F.found v parent leaf = some entry

/-- A chunk is written, with or without cursors. -/
theorem writeChunk_forget (law : Cursors F Good) (hgood : Good v) (hfresh : file.Fresh v) (offset : Nat) (data : List UInt8) :
    (∃ file' file'' v', writeChunk offset data (file, v) = .ok () (file', v') ∧
      writeChunk offset data (file.forget, v) = .ok () (file'', v') ∧ file''.forget = file'.forget ∧
      Wrote Good offset data file file' v v') ∨
    ∃ status file' file'' v', writeChunk offset data (file, v) = .error status (file', v') ∧
      writeChunk offset data (file.forget, v) = .error status (file'', v') ∧ file''.forget = file'.forget ∧
      file'.Fresh v' ∧ F.Spares Good v v' fun _ _ => True := by
  rw [writeChunk_eq law hfresh, writeChunk_eq law (file.bare_forget.fresh v)]
  unfold writePlainly
  have hpath : F.found v file.forget.parent file.forget.leaf = F.found v file.parent file.leaf := rfl
  rw [hpath]
  have hrefused (status : Status) : ∃ status' file' file'' v',
      (.error status (file, v) : EStateM.Result Status (FileHandle F × V) Unit) = .error status' (file', v') ∧
      (.error status (file.forget, v) : EStateM.Result Status (FileHandle F × V) Unit) = .error status' (file'', v') ∧
      file''.forget = file'.forget ∧ file'.Fresh v' ∧ F.Spares Good v v' fun _ _ => True :=
    ⟨_, _, _, _, rfl, rfl, rfl, hfresh, .refl hgood _⟩
  cases hfound : F.found v file.parent file.leaf with
  | none => exact .inr (hrefused _)
  | some entry =>
    dsimp only
    cases hwritable : entry.readOnly with
    | true => exact .inr (hrefused _)
    | false =>
      simp only [Bool.false_eq_true, if_false]
      split
      · exact .inr (hrefused _)
      rename_i hshort
      split
      · exact .inr (hrefused _)
      rename_i hwithin
      have hwrite := law.write v entry offset data hgood ⟨_, _, hfound⟩ (by omega) (by omega)
      have hfailed {v' : V} (hspares : F.Spares Good v v' fun _ _ => True) : ({ file with append := none } : FileHandle F).Fresh v' :=
        ⟨(hfresh.kept (hspares.keeps _ _ trivial)).read, nofun⟩
      cases hput : F.writeTo entry offset data v with
      | error e v' =>
        have hspares := hwrite.error hput
        exact .inr ⟨_, _, _, _, rfl, rfl, rfl, hfailed hspares, hspares⟩
      | ok cursor v' =>
        have hdone := hwrite.ok hput
        cases cursor with
        | none => exact .inr ⟨_, _, _, _, rfl, rfl, rfl, hfailed hdone, hdone⟩
        | some cursor =>
          obtain ⟨hspares, hend⟩ := hdone
          refine .inl ⟨_, _, _, rfl, rfl, rfl, ⟨rfl, rfl⟩, rfl, ⟨nofun, fun cursor' hcursor => ?_⟩,
            entry, cursor, hfound, hwritable, hput, hspares⟩
          dsimp only at hcursor
          split at hcursor
          · rename_i hreaches
            injection hcursor with hcursor
            exact hcursor ▸ hend hreaches _ _ hfound
          · cases hcursor

end

end Ratputer
