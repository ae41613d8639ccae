import Ratputer.CopyJob
import Ratputer.Lib.Polls
import Mathlib.Data.Option.Basic
import Mathlib.Data.List.Forall2
import Mathlib.Data.List.Induction

/-!
# What a copy relies on

A volume seen as a tree: what stands at a path, and which handles of the driver are of which path. What the browser relies on is in
two parts: what each call leaves alone, whether it succeeds or fails, and what it does while the card works and has room.
-/

namespace Ratputer

open Effect

variable {V : Type}

/-- What stands at a path: a directory with its names, or a file with its content. -/
inductive Node
  | directory (names : List Str)
  | file (content : List UInt8)

/-- Two nodes that hold the same, the names in whatever order. -/
def Node.Same : Node → Node → Prop
  | .directory names, .directory names' => names.Perm names'
  | .file content, .file content' => content = content'
  | _, _ => False

/-- A driver's volumes as trees. -/
structure TreeView (F : CopyFat V) where
  node : V → List Str → Option Node
  /-- The handle is of the directory at the path. -/
  opens : V → F.Dir → List Str → Prop
  /-- The entry is the one at the path. -/
  stands : V → F.Entry → List Str → Prop
  /-- The reader, or the reader that the cursor resumes, is at an offset of the file at the path. -/
  reads : V → F.Reader → List Str → Nat → Prop
  readsOn : V → F.ReadCursor → List Str → Nat → Prop
  /-- The writer is of the file at the path; it stands at its end; the cursor resumes one there. -/
  writes : V → F.Writer → List Str → Prop
  appends : V → F.Writer → List Str → Prop
  appendsOn : V → F.AppendCursor → List Str → Prop
  /-- The driver takes the name for a new entry. -/
  plain : Str → Prop
  /-- An entry of the first name may be found under the second, by its case or its short name. -/
  clash : Str → Str → Prop
  /-- The card works, and has room for so many calls that write. -/
  room : V → Nat → Prop

namespace TreeView

variable {F : CopyFat V} (T : TreeView F)

/-- What stands at a path stays, with the entry and the cursors that are of it. -/
structure Spares (v v' : V) (p : List Str) : Prop where
  node : T.node v' p = T.node v p
  stands : ∀ entry, T.stands v entry p → T.stands v' entry p
  readsOn : ∀ cursor offset, T.readsOn v cursor p offset → T.readsOn v' cursor p offset
  appendsOn : ∀ cursor, T.appendsOn v cursor p → T.appendsOn v' cursor p

/-- The entry of a name in a directory may change or be new; nothing else does. -/
structure Adds (v v' : V) (p : List Str) (name : Str) : Prop where
  spares : ∀ q, q ≠ p → q ≠ p ++ [name] → T.Spares v v' q
  listed : ∀ names, T.node v p = some (.directory names) →
    ∃ names', T.node v' p = some (.directory names') ∧ names ⊆ names' ∧ names' ⊆ name :: names

/-- A file may change; nothing else does. -/
structure Changes (v v' : V) (p : List Str) : Prop where
  spares : ∀ q, q ≠ p → T.Spares v v' q
  file : ∃ content, T.node v' p = some (.file content)

/-- An entry that a directory lists: not `.` or `..`. -/
def isListed (entry : F.Entry) : Bool := !(decide (entry.name = ['.'] ∨ entry.name = ['.', '.']))

/-- A call that leaves the volume alone. -/
def ReadOnly {α : Type} (call : FatM V α) : Prop := ∀ v, Ends call v (fun _ v' => v' = v) fun _ v' => v' = v

/-- What the calls leave alone, whether they succeed or fail. -/
structure Contained : Prop where
  openDir : ∀ dir name, ReadOnly (F.openDir dir name)
  find : ∀ dir name, ReadOnly (F.find dir name)
  entries : ∀ dir, ReadOnly (F.entries dir)
  readerNew : ∀ entry, ReadOnly (F.readerNew entry)
  readerFromCursor : ∀ entry cursor, ReadOnly (F.readerFromCursor entry cursor)
  readerRead : ∀ reader count, ReadOnly (F.readerRead reader count)
  writerNew : ∀ entry, ReadOnly (F.writerNew entry)
  writerFromCursor : ∀ entry cursor, ReadOnly (F.writerFromCursor entry cursor)
  root : ∀ v, T.opens v (F.rootDir v) []
  closed : ∀ v p name, (T.node v (p ++ [name])).isSome → ∃ names, T.node v p = some (.directory names) ∧ name ∈ names
  listed : ∀ v p names name, T.node v p = some (.directory names) → name ∈ names → (T.node v (p ++ [name])).isSome
  opened : ∀ v dir p name dir' v', T.opens v dir p → (T.node v (p ++ [name])).isSome → F.openDir dir name v = .ok dir' v' →
    T.opens v dir' (p ++ [name])
  found : ∀ v dir p name r v', T.opens v dir p → (T.node v (p ++ [name])).isSome → F.find dir name v = .ok r v' →
    ∃ entry, r = some entry ∧ T.stands v entry (p ++ [name])
  stood : ∀ v entry p, T.stands v entry p → (entry.isDirectory = true ↔ ∃ names, T.node v p = some (.directory names))
  writer_of_new : ∀ v entry p writer v', T.stands v entry p → F.writerNew entry v = .ok writer v' → T.writes v writer p
  writer_of_cursor : ∀ v entry p cursor writer v', T.stands v entry p → F.writerFromCursor entry cursor v = .ok writer v' →
    T.writes v writer p
  createFile : ∀ v dir p name, T.opens v dir p →
    Ends (F.createFileEntry dir name) v
      (fun entry v' => T.Adds v v' p name ∧ T.stands v' entry (p ++ [name]) ∧ ∃ content, T.node v' (p ++ [name]) = some (.file content))
      fun _ v' => T.Adds v v' p name
  createDir : ∀ v dir p name, T.opens v dir p →
    Ends (F.createDir dir name) v
      (fun _ v' => T.Adds v v' p name ∧ ∃ names, T.node v' (p ++ [name]) = some (.directory names)) fun _ v' => T.Adds v v' p name
  write : ∀ v writer p data, T.writes v writer p →
    Ends (F.writerWrite writer data) v (fun r v' => T.Changes v v' p ∧ T.writes v' r.2 p)
      fun _ v' => T.Changes v v' p ∧ T.writes v' writer p
  finish : ∀ v writer p, T.writes v writer p →
    Ends (F.writerFinish writer) v (fun _ v' => T.Changes v v' p) fun _ v' => T.Changes v v' p
  abandon : ∀ v writer p, T.writes v writer p → T.Changes v (F.writerAbandon writer v) p

/-- What the calls do while the card works and has room. -/
structure Succeeds : Prop where
  clash_self : ∀ name, T.clash name name
  small : ∀ v p content, T.node v p = some (.file content) → content.length < 2 ^ 32
  openDir : ∀ v k dir p name names, T.room v k → T.opens v dir p → T.node v (p ++ [name]) = some (.directory names) →
    ∃ dir', F.openDir dir name v = .ok dir' v
  find : ∀ v k dir p name, T.room v k → T.opens v dir p → (T.node v (p ++ [name])).isSome → ∃ r, F.find dir name v = .ok r v
  find_free : ∀ v k dir p name names, T.room v k → T.opens v dir p → T.node v p = some (.directory names) →
    (∀ n ∈ names, ¬T.clash n name) → F.find dir name v = .ok none v
  entries : ∀ v k dir p names, T.room v k → T.opens v dir p → T.node v p = some (.directory names) →
    ∃ records : List F.Entry, F.entries dir v = .ok (records.map .ok) v ∧
      List.Forall₂ (fun entry name => entry.name = name ∧ T.stands v entry (p ++ [name])) (records.filter isListed) names
  createFile : ∀ v k dir p name names, T.room v (k + 1) → T.opens v dir p → T.node v p = some (.directory names) → T.plain name →
    (∀ n ∈ names, ¬T.clash n name) → ∃ entry v' names', F.createFileEntry dir name v = .ok entry v' ∧ T.room v' k ∧
      T.node v' (p ++ [name]) = some (.file []) ∧ T.node v' p = some (.directory names') ∧ names'.Perm (name :: names)
  createDir : ∀ v k dir p name names, T.room v (k + 1) → T.opens v dir p → T.node v p = some (.directory names) → T.plain name →
    (∀ n ∈ names, ¬T.clash n name) → ∃ v' names', F.createDir dir name v = .ok () v' ∧ T.room v' k ∧
      T.node v' (p ++ [name]) = some (.directory []) ∧ T.node v' p = some (.directory names') ∧ names'.Perm (name :: names)
  readerNew : ∀ v k entry p content, T.room v k → T.stands v entry p → T.node v p = some (.file content) →
    ∃ reader, F.readerNew entry v = .ok reader v ∧ T.reads v reader p 0
  readerFromCursor : ∀ v k entry cursor p offset, T.room v k → T.stands v entry p → T.readsOn v cursor p offset →
    ∃ reader, F.readerFromCursor entry cursor v = .ok reader v ∧ T.reads v reader p offset
  readerRead : ∀ v k reader p offset content count, T.room v k → T.reads v reader p offset → T.node v p = some (.file content) →
    ∃ reader', F.readerRead reader count v = .ok ((content.drop offset).take count, reader') v ∧
      T.readsOn v (F.readerCursor reader') p (offset + ((content.drop offset).take count).length)
  writerNew : ∀ v k entry p, T.room v k → T.stands v entry p → T.node v p = some (.file []) →
    ∃ writer, F.writerNew entry v = .ok writer v ∧ T.appends v writer p
  writerFromCursor : ∀ v k entry cursor p, T.room v k → T.stands v entry p → T.appendsOn v cursor p →
    ∃ writer, F.writerFromCursor entry cursor v = .ok writer v ∧ T.appends v writer p
  write_nil : ∀ v writer, F.writerWrite writer [] v = .ok (0, writer) v
  put : ∀ v k writer p content data, T.room v (k + 1) → T.appends v writer p → T.node v p = some (.file content) →
    (content ++ data).length < 2 ^ 32 → ∃ writer' v₁ v₂, F.writerWrite writer data v = .ok (data.length, writer') v₁ ∧
      F.writerFinish writer' v₁ = .ok () v₂ ∧ T.room v₂ k ∧ T.node v₂ p = some (.file (content ++ data)) ∧
      T.appendsOn v₂ (F.writerAppendCursor writer') p

/-! ## Frames -/

variable {T}

theorem Spares.refl (v : V) (p : List Str) : T.Spares v v p := ⟨rfl, fun _ h => h, fun _ _ h => h, fun _ h => h⟩

/-- A path that is spared twice is spared. -/
theorem Spares.trans {v v' v'' : V} {p : List Str} (h : T.Spares v v' p) (h' : T.Spares v' v'' p) : T.Spares v v'' p :=
  ⟨h'.node.trans h.node, fun entry hs => h'.stands entry (h.stands entry hs),
    fun cursor offset hr => h'.readsOn cursor offset (h.readsOn cursor offset hr),
    fun cursor ha => h'.appendsOn cursor (h.appendsOn cursor ha)⟩

theorem Adds.refl (v : V) (p : List Str) (name : Str) : T.Adds v v p name :=
  ⟨fun _ _ _ => .refl v _, fun names hnames => ⟨names, hnames, List.Subset.refl _, List.subset_cons_self _ _⟩⟩

/-- A name that is added twice is added. -/
theorem Adds.trans {v v' v'' : V} {p : List Str} {name : Str} (h : T.Adds v v' p name) (h' : T.Adds v' v'' p name) :
    T.Adds v v'' p name := by
  refine ⟨fun q hq hentry => (h.spares q hq hentry).trans (h'.spares q hq hentry), fun names hnames => ?_⟩
  obtain ⟨names', hnames', hsub, hsup⟩ := h.listed names hnames
  obtain ⟨names'', hnames'', hsub', hsup'⟩ := h'.listed names' hnames'
  exact ⟨names'', hnames'', List.Subset.trans hsub hsub', List.Subset.trans hsup' (List.cons_subset.mpr ⟨List.mem_cons_self, hsup⟩)⟩

/-- A change of a file is one of its entry. -/
theorem Changes.adds {v v' : V} {p : List Str} {name : Str} (h : T.Changes v v' (p ++ [name])) : T.Adds v v' p name := by
  refine ⟨fun q _ hentry => h.spares q hentry, fun names hnames => ⟨names, ?_, List.Subset.refl _, List.subset_cons_self _ _⟩⟩
  rw [(h.spares p fun heq => ?_).node, hnames]
  exact absurd (congrArg List.length heq) (by simp)

/-- What follows a call that only reads starts from the same volume. -/
theorem ReadOnly.bind_ends {α β : Type} {m : FatM V α} {f : α → FatM V β} {v : V} {Q : β → V → Prop} {E : FatError → V → Prop}
    (h : ReadOnly m) (hf : ∀ a, m v = .ok a v → Ends (f a) v Q E) (hE : ∀ e, E e v) : Ends (m >>= f) v Q E := by
  have hcall := h v
  cases hrun : m v with
  | ok a v' =>
    obtain rfl : v' = v := hcall.ok hrun
    unfold Ends
    rw [bind_of_ok hrun]
    exact hf a hrun
  | error e v' =>
    obtain rfl : v' = v := hcall.error hrun
    unfold Ends
    rw [bind_of_error hrun]
    exact hE e

/-- A check only reads. -/
theorem readOnly_require (c : Prop) [Decidable c] : ReadOnly (require c : FatM V Unit) := by
  intro v
  unfold require
  split
  · exact ends_pure rfl
  · exact ends_throw rfl

/-! ## Paths -/

section Paths

variable (frame : T.Contained)

include frame

/-- What has something below it is there. -/
theorem Contained.isSome_of_append {v : V} {p r : List Str} (h : (T.node v (p ++ r)).isSome) : (T.node v p).isSome := by
  induction r using List.reverseRecOn with
  | nil => rwa [List.append_nil] at h
  | append_singleton r name ih =>
    rw [← List.append_assoc] at h
    obtain ⟨names, hnames, _⟩ := frame.closed v _ name h
    exact ih (by rw [hnames]; rfl)

/-- What has something below it, or is a directory, is a directory. -/
theorem Contained.directory_of_append {v : V} {p r : List Str} {names : List Str}
    (h : T.node v (p ++ r) = some (.directory names)) : ∃ names', T.node v p = some (.directory names') := by
  cases r with
  | nil => exact ⟨names, by rwa [List.append_nil] at h⟩
  | cons name r =>
    have hbelow : (T.node v ((p ++ [name]) ++ r)).isSome := by
      rw [List.append_assoc]
      exact Option.isSome_of_eq_some h
    obtain ⟨names', hnames', _⟩ := frame.closed v p name (frame.isSome_of_append hbelow)
    exact ⟨names', hnames'⟩

/-- A name that leads to something is listed. -/
theorem Contained.mem_of_isSome {v : V} {p r : List Str} {name : Str} {names : List Str}
    (hnode : T.node v p = some (.directory names)) (h : (T.node v (p ++ name :: r)).isSome) : name ∈ names := by
  have hbelow : (T.node v ((p ++ [name]) ++ r)).isSome := by rwa [List.append_assoc]
  obtain ⟨names', hnames', hmem⟩ := frame.closed v p name (frame.isSome_of_append hbelow)
  rw [hnode] at hnames'
  cases hnames'
  exact hmem

/-- Opening a path that is there gives a handle of it. -/
theorem Contained.ends_openDirPath {v : V} {p : List Str} (h : (T.node v p).isSome) :
    Ends (F.openDirPath p) v (fun dir v' => v' = v ∧ T.opens v dir p) fun _ v' => v' = v := by
  have hfrom (rest : List Str) : ∀ (before : List Str) (dir : F.Dir), T.opens v dir before → before ++ rest = p →
      Ends (F.openDirFrom dir rest) v (fun dir' v' => v' = v ∧ T.opens v dir' p) fun _ v' => v' = v := by
    induction rest with
    | nil =>
      intro before dir hopens hp
      rw [List.append_nil] at hp
      exact ends_pure ⟨rfl, hp ▸ hopens⟩
    | cons name rest ih =>
      intro before dir hopens hp
      have hthere : (T.node v (before ++ [name])).isSome := by
        refine frame.isSome_of_append (r := rest) ?_
        rw [List.append_assoc]
        exact hp ▸ h
      refine (frame.openDir dir name).bind_ends (fun dir' hrun => ?_) fun _ => rfl
      refine ih (before ++ [name]) dir' (frame.opened v dir before name dir' v hopens hthere hrun) ?_
      rw [List.append_assoc]
      exact hp
  exact hfrom p [] (F.rootDir v) (frame.root v) rfl

/-- A search that finds nothing looked for a name that leads to nothing. -/
theorem Contained.ends_requireFree {v : V} {dir : F.Dir} {p : List Str} (hopens : T.opens v dir p) (name : Str) :
    Ends (requireFree F dir name) v (fun _ v' => v' = v ∧ T.node v (p ++ [name]) = none) fun _ v' => v' = v := by
  unfold requireFree
  refine (frame.find dir name).bind_ends (fun r hrun => ?_) fun _ => rfl
  unfold require
  cases r with
  | some entry => exact ends_throw rfl
  | none =>
    refine ends_pure ⟨rfl, ?_⟩
    by_contra hthere
    obtain ⟨entry, hr, _⟩ := frame.found v dir p name none v hopens (Option.isSome_iff_ne_none.mpr hthere) hrun
    nomatch hr

/-- An entry that is found stands for its path. -/
theorem Contained.ends_findOrFail {v : V} {dir : F.Dir} {p : List Str} {name : Str} (hopens : T.opens v dir p)
    (hthere : (T.node v (p ++ [name])).isSome) :
    Ends (findOrFail F dir name) v (fun entry v' => v' = v ∧ T.stands v entry (p ++ [name])) fun _ v' => v' = v := by
  unfold findOrFail
  refine (frame.find dir name).bind_ends (fun r hrun => ?_) fun _ => rfl
  obtain ⟨entry, rfl, hstands⟩ := frame.found v dir p name r v hopens hthere hrun
  exact ends_pure ⟨rfl, hstands⟩

/-- Writing a chunk out changes the file alone. -/
theorem Contained.ends_writeOut {v : V} {writer : F.Writer} {p : List Str} (h : T.writes v writer p)
    (hfile : ∃ content, T.node v p = some (.file content)) (chunk : List UInt8) :
    Ends (writeOut F writer chunk) v (fun writer' v' => T.Changes v v' p ∧ T.writes v' writer' p) fun _ v' => T.Changes v v' p := by
  have habandon {v' : V} {writer' : F.Writer} (hchanges : T.Changes v v' p) (hwrites : T.writes v' writer' p) :
      T.Changes v (F.writerAbandon writer' v') p := by
    have hlast := frame.abandon v' writer' p hwrites
    exact ⟨fun q hq => (hchanges.spares q hq).trans (hlast.spares q hq), hlast.file⟩
  by_cases hempty : chunk = []
  · unfold Ends writeOut
    rw [if_pos hempty]
    exact ⟨⟨fun _ _ => .refl v _, hfile⟩, h⟩
  have hcall := frame.write v writer p chunk h
  unfold Ends writeOut
  rw [if_neg hempty]
  cases hrun : F.writerWrite writer chunk v with
  | error e v' =>
    obtain ⟨hchanges, hwrites⟩ := hcall.error hrun
    exact habandon hchanges hwrites
  | ok r v' =>
    obtain ⟨hchanges, hwrites⟩ := hcall.ok hrun
    obtain ⟨written, writer'⟩ := r
    dsimp only
    by_cases hall : written = chunk.length
    · rw [if_pos hall]
      exact ⟨hchanges, hwrites⟩
    · rw [if_neg hall]
      exact habandon hchanges hwrites

/-- The file to write to is at its path, which was not a directory's. -/
theorem Contained.ends_targetEntry {v : V} {file : FileCopy F} (htarget : (T.node v file.target).isSome)
    (hstarted : file.started = true → ∃ content, T.node v (file.target ++ [file.name]) = some (.file content)) :
    Ends file.targetEntry v
      (fun entry v' => T.Adds v v' file.target file.name ∧ T.stands v' entry (file.target ++ [file.name]) ∧
        (∃ content, T.node v' (file.target ++ [file.name]) = some (.file content)) ∧
        ∀ names, T.node v (file.target ++ [file.name]) ≠ some (.directory names))
      fun _ v' => T.Adds v v' file.target file.name := by
  unfold FileCopy.targetEntry
  refine ends_bind ((frame.ends_openDirPath htarget).mono ?_ fun _ v' hv => hv ▸ .refl _ _ _)
  rintro dest _ ⟨rfl, hopens⟩
  cases hfirst : file.started with
  | true =>
    obtain ⟨content, hcontent⟩ := hstarted hfirst
    rw [if_pos rfl]
    refine (frame.ends_findOrFail hopens (Option.isSome_of_eq_some hcontent)).mono ?_ fun _ v' hv => hv ▸ .refl _ _ _
    rintro entry _ ⟨rfl, hstands⟩
    refine ⟨.refl _ _ _, hstands, ⟨content, hcontent⟩, fun names hnames => ?_⟩
    rw [hcontent] at hnames
    nomatch hnames
  | false =>
    rw [if_neg (by decide)]
    refine ends_bind ((frame.ends_requireFree hopens file.name).mono ?_ fun _ v' hv => hv ▸ .refl _ _ _)
    rintro _ _ ⟨rfl, hfree⟩
    refine (frame.createFile _ dest _ _ hopens).mono ?_ fun _ _ hadds => hadds
    rintro entry v' ⟨hadds, hstands, hfile⟩
    refine ⟨hadds, hstands, hfile, fun names hnames => ?_⟩
    rw [hfree] at hnames
    nomatch hnames

/-- Opening the source only reads. -/
theorem Contained.readOnly_openSource (file : FileCopy F) (source : F.Entry) : ReadOnly (file.openSource source) := by
  unfold FileCopy.openSource
  split
  · exact frame.readerFromCursor _ _
  · exact frame.readerNew _

/-- Opening the target only reads. -/
theorem Contained.readOnly_openTarget (file : FileCopy F) (target : F.Entry) : ReadOnly (file.openTarget target) := by
  unfold FileCopy.openTarget
  split
  · split
    · exact frame.writerFromCursor _ _
    · exact fun _ => ends_throw rfl
  · exact frame.writerNew _

/-- A writer on the target writes the file at its path. -/
theorem Contained.writes_of_openTarget {v : V} {file : FileCopy F} {target : F.Entry} {p : List Str} {writer : F.Writer}
    (hstands : T.stands v target p) (h : file.openTarget target v = .ok writer v) : T.writes v writer p := by
  unfold FileCopy.openTarget at h
  cases hstarted : file.started with
  | true =>
    rw [hstarted, if_pos rfl] at h
    cases hcursor : file.writeCursor with
    | some cursor =>
      rw [hcursor] at h
      exact frame.writer_of_cursor v target p cursor writer v hstands h
    | none =>
      rw [hcursor] at h
      nomatch h
  | false =>
    rw [hstarted, if_neg (by decide)] at h
    exact frame.writer_of_new v target p writer v hstands h

/-- Opening a directory only reads. -/
theorem Contained.readOnly_openDirPath (path : List Str) : ReadOnly (F.openDirPath path) := by
  have hfrom (dir : F.Dir) : ReadOnly (F.openDirFrom dir path) := by
    induction path generalizing dir with
    | nil => exact fun _ => ends_pure rfl
    | cons name rest ih => exact fun v => (frame.openDir dir name).bind_ends (fun dir' _ => ih dir' v) fun _ => rfl
  exact fun v => hfrom (F.rootDir v) v

/-- Finding an entry only reads. -/
theorem Contained.readOnly_findOrFail (dir : F.Dir) (name : Str) : ReadOnly (findOrFail F dir name) := by
  intro v
  unfold findOrFail
  refine (frame.find dir name).bind_ends (fun r _ => ?_) fun _ => rfl
  cases r with
  | some entry => exact ends_pure rfl
  | none => exact ends_throw rfl

/-- Appending a chunk changes the file alone. -/
theorem Contained.ends_appendChunk {v : V} {writer : F.Writer} {p : List Str} (h : T.writes v writer p)
    (hfile : ∃ content, T.node v p = some (.file content)) (chunk : List UInt8) :
    Ends (appendChunk F writer chunk) v (fun _ v' => T.Changes v v' p) fun _ v' => T.Changes v v' p := by
  unfold appendChunk
  refine ends_bind ((frame.ends_writeOut h hfile chunk).mono ?_ fun _ _ hchanges => hchanges)
  rintro writer' v' ⟨hchanges, hwrites⟩
  have hjoin {v'' : V} (hlast : T.Changes v' v'' p) : T.Changes v v'' p :=
    ⟨fun q hq => (hchanges.spares q hq).trans (hlast.spares q hq), hlast.file⟩
  refine ends_bind ((frame.finish v' writer' p hwrites).mono ?_ fun _ _ hlast => hjoin hlast)
  exact fun _ _ hlast => ends_pure (hjoin hlast)

/-- A chunk, whole or failed, changes nothing but the file's entry in the target directory. -/
theorem Contained.ends_chunk {v : V} {file : FileCopy F} (htarget : (T.node v file.target).isSome)
    (hstarted : file.started = true → ∃ content, T.node v (file.target ++ [file.name]) = some (.file content)) :
    Ends file.chunk v
      (fun r v' => T.Adds v v' file.target file.name ∧ r.1.target = file.target ∧ r.1.name = file.name ∧
        (∃ content, T.node v' (file.target ++ [file.name]) = some (.file content)) ∧
        ∀ names, T.node v (file.target ++ [file.name]) ≠ some (.directory names))
      fun _ v' => T.Adds v v' file.target file.name := by
  unfold FileCopy.chunk
  have hnone (e : FatError) : (fun (_ : FatError) v' => T.Adds v v' file.target file.name) e v := .refl _ _ _
  refine (frame.readOnly_openDirPath file.source).bind_ends (fun parent _ => ?_) hnone
  refine (frame.readOnly_findOrFail parent file.name).bind_ends (fun source _ => ?_) hnone
  refine (readOnly_require _).bind_ends (fun _ _ => ?_) hnone
  refine ends_bind ((frame.ends_targetEntry htarget hstarted).mono ?_ fun _ _ hadds => hadds)
  rintro target v₁ ⟨hadds, hstands, hfile, hbefore⟩
  have hnone (e : FatError) : (fun (_ : FatError) v' => T.Adds v v' file.target file.name) e v₁ := hadds
  refine (frame.readOnly_openSource file source).bind_ends (fun reader _ => ?_) hnone
  refine (frame.readerRead reader COPY_CHUNK).bind_ends (fun r _ => ?_) hnone
  obtain ⟨bytes, reader'⟩ := r
  refine (frame.readOnly_openTarget file target).bind_ends (fun writer hwriter => ?_) hnone
  have happend := frame.ends_appendChunk (frame.writes_of_openTarget hstands hwriter) hfile bytes
  refine ends_bind (happend.mono ?_ fun _ _ hchanges => hadds.trans hchanges.adds)
  exact fun cursor v₂ hchanges => ends_pure ⟨hadds.trans hchanges.adds, rfl, rfl, hchanges.file, hbefore⟩

end Paths

end TreeView

end Ratputer
