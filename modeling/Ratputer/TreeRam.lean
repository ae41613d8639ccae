import Ratputer.Lemmas.CopyJob
import Mathlib.Logic.Function.Basic

/-!
# A tree of directories in memory

A driver that the browser can copy on: what stands at each path, kept so that a directory lists what is in it and nothing else. Its
volume only grows, and is never full.
-/

namespace Ratputer.TreeRam

open Effect

/-- A name for a new entry. -/
def Plain (name : Str) : Prop := (name ≠ ['.'] ∧ name ≠ ['.', '.']) ∧ (asBytes name).length ≤ 765

instance (name : Str) : Decidable (Plain name) := inferInstanceAs (Decidable (_ ∧ _))

structure Volume where
  node : List Str → Option Node
  closed : ∀ p name, (node (p ++ [name])).isSome → ∃ names, node p = some (.directory names) ∧ name ∈ names
  listed : ∀ p names name, node p = some (.directory names) → name ∈ names → (node (p ++ [name])).isSome
  plain : ∀ p names name, node p = some (.directory names) → name ∈ names → Plain name
  nodup : ∀ p names, node p = some (.directory names) → names.Nodup
  small : ∀ p content, node p = some (.file content) → content.length < 2 ^ 32

/-- A path is not one below itself. -/
theorem append_ne {p : List Str} {name : Str} : p ≠ p ++ [name] := fun h => absurd (congrArg List.length h) (by simp)

/-- A path with a name at its end is not the root. -/
theorem ne_nil_of_append {p : List Str} {name : Str} : p ++ [name] ≠ [] := by simp

/-- A node with nothing in it. -/
def Bare (node : Node) : Prop := node = .directory [] ∨ node = .file []

namespace Volume

/-- The root directory alone. -/
def empty : Volume where
  node p := if p = [] then some (.directory []) else none
  closed p name h := by
    rw [if_neg ne_nil_of_append] at h
    nomatch h
  listed p names name h hname := by
    split at h <;> cases h
    nomatch hname
  plain p names name h hname := by
    split at h <;> cases h
    nomatch hname
  nodup p names h := by
    split at h <;> cases h
    exact List.nodup_nil
  small p content h := by
    split at h <;> nomatch h

variable (v : Volume) {p : List Str}

/-- The nodes with a new one in a directory. -/
def added (p : List Str) (names : List Str) (name : Str) (node : Node) : List Str → Option Node :=
  Function.update (Function.update v.node p (some (.directory (names ++ [name])))) (p ++ [name]) (some node)

variable {names : List Str} {name : Str} {node : Node}

/-- The node that was added is there. -/
theorem added_new : v.added p names name node (p ++ [name]) = some node := Function.update_self ..

/-- Its directory lists it last. -/
theorem added_parent : v.added p names name node p = some (.directory (names ++ [name])) := by
  unfold added
  rw [Function.update_of_ne append_ne, Function.update_self]

/-- Every other path is as it was. -/
theorem added_of_ne {q : List Str} (hparent : q ≠ p) (hnew : q ≠ p ++ [name]) : v.added p names name node q = v.node q := by
  unfold added
  rw [Function.update_of_ne hnew, Function.update_of_ne hparent]

/-- What stands at a path after one is added: the new one, its directory, or what stood there. -/
theorem added_cases (p names : List Str) (name : Str) (node : Node) (q : List Str) :
    (q = p ++ [name] ∧ v.added p names name node q = some node) ∨
    (q = p ∧ v.added p names name node q = some (.directory (names ++ [name]))) ∨
    (q ≠ p ++ [name] ∧ v.added p names name node q = v.node q) := by
  by_cases hnew : q = p ++ [name]
  · exact .inl ⟨hnew, by rw [hnew, added_new]⟩
  · by_cases hparent : q = p
    · exact .inr (.inl ⟨hparent, by rw [hparent, added_parent]⟩)
    · exact .inr (.inr ⟨hnew, added_of_ne v hparent hnew⟩)

/-- What was there is there. -/
theorem added_isSome {q : List Str} (hthere : (v.node q).isSome) : (v.added p names name node q).isSome := by
  rcases v.added_cases p names name node q with ⟨_, hnow⟩ | ⟨_, hnow⟩ | ⟨_, hsame⟩
  · rw [hnow]
    rfl
  · rw [hnow]
    rfl
  · rwa [hsame]

/-- A directory after one is added: the new one, the one it was added to, or one that was there. -/
theorem added_directory (hbare : Bare node) {q names' : List Str} (hdir : v.added p names name node q = some (.directory names')) :
    names' = [] ∨ (q = p ∧ names' = names ++ [name]) ∨ v.node q = some (.directory names') := by
  rcases v.added_cases p names name node q with ⟨_, hnow⟩ | ⟨hparent, hnow⟩ | ⟨_, hsame⟩
  · rw [hnow] at hdir
    rcases hbare with heq | heq
    · rw [heq] at hdir
      cases hdir
      exact .inl rfl
    · rw [heq] at hdir
      nomatch hdir
  · rw [hnow] at hdir
    cases hdir
    exact .inr (.inl ⟨hparent, rfl⟩)
  · exact .inr (.inr (hsame.symm.trans hdir))

/-- Add an entry to a directory. -/
def add (h : v.node p = some (.directory names)) (hfree : v.node (p ++ [name]) = none) (hplain : Plain name) (hbare : Bare node) :
    Volume where
  node := v.added p names name node
  closed q n hthere := by
    rcases v.added_cases p names name node (q ++ [n]) with ⟨hnew, _⟩ | hold
    · obtain ⟨rfl, hn⟩ := List.append_inj' hnew rfl
      exact ⟨_, v.added_parent, List.mem_append_right _ (hn ▸ List.mem_singleton_self n)⟩
    · have hbefore : (v.node (q ++ [n])).isSome := by
        rcases hold with ⟨heq, _⟩ | ⟨_, hsame⟩
        · rw [heq, h]
          rfl
        · rwa [hsame] at hthere
      obtain ⟨names', hnames', hn⟩ := v.closed q n hbefore
      rcases v.added_cases p names name node q with ⟨hnew, _⟩ | ⟨hparent, hnow⟩ | ⟨_, hsame⟩
      · rw [hnew, hfree] at hnames'
        nomatch hnames'
      · rw [hparent, h] at hnames'
        cases hnames'
        exact ⟨_, hnow, List.mem_append_left _ hn⟩
      · exact ⟨names', hsame.trans hnames', hn⟩
  listed q names' n hdir hn := by
    rcases v.added_directory hbare hdir with rfl | ⟨rfl, rfl⟩ | hbefore
    · nomatch hn
    · rcases List.mem_append.mp hn with hn | hn
      · exact v.added_isSome (v.listed q names n h hn)
      · rw [List.mem_singleton.mp hn, added_new]
        rfl
    · exact v.added_isSome (v.listed q names' n hbefore hn)
  plain q names' n hdir hn := by
    rcases v.added_directory hbare hdir with rfl | ⟨rfl, rfl⟩ | hbefore
    · nomatch hn
    · rcases List.mem_append.mp hn with hn | hn
      · exact v.plain q names n h hn
      · rwa [List.mem_singleton.mp hn]
    · exact v.plain q names' n hbefore hn
  nodup q names' hdir := by
    rcases v.added_directory hbare hdir with rfl | ⟨rfl, rfl⟩ | hbefore
    · exact List.nodup_nil
    · refine List.nodup_append.mpr ⟨v.nodup q names h, List.nodup_singleton name, fun n hn m hm heq => ?_⟩
      have hthere := v.listed q names n h hn
      rw [heq, List.mem_singleton.mp hm, hfree] at hthere
      nomatch hthere
    · exact v.nodup q names' hbefore
  small q content hfile := by
    rcases v.added_cases p names name node q with ⟨_, hnow⟩ | ⟨_, hnow⟩ | ⟨_, hsame⟩
    · rw [hnow] at hfile
      rcases hbare with heq | heq
      · rw [heq] at hfile
        nomatch hfile
      · rw [heq] at hfile
        cases hfile
        exact Nat.two_pow_pos 32
    · rw [hnow] at hfile
      nomatch hfile
    · exact v.small q content (hsame.symm.trans hfile)

/-- The nodes with another content at a path. -/
def changed (p : List Str) (content : List UInt8) : List Str → Option Node := Function.update v.node p (some (.file content))

/-- The file has its new content. -/
theorem changed_self {content : List UInt8} : v.changed p content p = some (.file content) := Function.update_self ..

/-- Every other path is as it was. -/
theorem changed_of_ne {q : List Str} {content : List UInt8} (h : q ≠ p) : v.changed p content q = v.node q :=
  Function.update_of_ne h ..

/-- A change of a content changes no directory. -/
theorem changed_eq_directory {q : List Str} {old content : List UInt8} (h : v.node p = some (.file old)) :
    v.changed p content q = some (.directory names) ↔ v.node q = some (.directory names) := by
  by_cases hq : q = p
  · rw [hq, changed_self, h]
    exact ⟨nofun, nofun⟩
  · rw [changed_of_ne v hq]

/-- It leaves each path as full or as empty as it was. -/
theorem changed_isSome {q : List Str} {old content : List UInt8} (h : v.node p = some (.file old)) :
    (v.changed p content q).isSome = (v.node q).isSome := by
  by_cases hq : q = p
  · rw [hq, changed_self, h]
    rfl
  · rw [changed_of_ne v hq]

/-- Change the content of a file. -/
def change {old content : List UInt8} (h : v.node p = some (.file old)) (hsmall : content.length < 2 ^ 32) : Volume where
  node := v.changed p content
  closed q name hthere := by
    rw [v.changed_isSome h] at hthere
    obtain ⟨names, hnames, hname⟩ := v.closed q name hthere
    exact ⟨names, (v.changed_eq_directory h).mpr hnames, hname⟩
  listed q names name hdir hname := by
    rw [v.changed_isSome h]
    exact v.listed q names name ((v.changed_eq_directory h).mp hdir) hname
  plain q names name hdir := v.plain q names name ((v.changed_eq_directory h).mp hdir)
  nodup q names hdir := v.nodup q names ((v.changed_eq_directory h).mp hdir)
  small q content' hfile := by
    by_cases hq : q = p
    · rw [hq, changed_self] at hfile
      cases hfile
      exact hsmall
    · rw [changed_of_ne v hq] at hfile
      exact v.small q content' hfile

end Volume

/-! ## The driver -/

/-- The entry of a node. -/
def record (p : List Str) (name : Str) (hname : (asBytes name).length ≤ 765) (node : Node) : FileEntry (List Str) where
  identity := p
  name := name
  name_le := hname
  isDirectory := match node with | .directory _ => true | .file _ => false
  attributes := match node with | .directory _ => 0x10 | .file _ => 0x20
  len := match node with | .directory _ => 0 | .file content => min content.length (2 ^ 32 - 1)
  len_lt := by
    cases node with
    | directory _ => exact Nat.two_pow_pos 32
    | file content => exact Nat.lt_of_le_of_lt (Nat.min_le_right _ _) (by decide)
  modified := default
  accessedDate := 0

/-- The entry of a name in a directory. -/
def Volume.entry (v : Volume) (p : List Str) (name : Str) : Option (FileEntry (List Str)) :=
  if h : (asBytes name).length ≤ 765 then (v.node (p ++ [name])).map (record (p ++ [name]) name h) else none

def openDir (dir : List Str) (name : Str) : FatM Volume (List Str) := fun v =>
  match v.node (dir ++ [name]) with
  | some (.directory _) => .ok (dir ++ [name]) v
  | _ => .error .other v

def entries (dir : List Str) : FatM Volume (List (Except FatError (FileEntry (List Str)))) := fun v =>
  match v.node dir with
  | some (.directory names) => .ok ((names.filterMap (v.entry dir)).map .ok) v
  | _ => .error .other v

/-- A new entry, unless there is one of the name. -/
def create (node : Node) (hbare : Bare node) (dir : List Str) (name : Str) : FatM Volume (FileEntry (List Str)) := fun v =>
  match h : v.node dir with
  | some (.directory _) =>
    if hnew : v.node (dir ++ [name]) = none ∧ Plain name then
      .ok (record (dir ++ [name]) name hnew.2.2 node) (v.add h hnew.1 hnew.2 hbare)
    else .error .alreadyExists v
  | _ => .error .other v

/-- Whether there is a file to write to. -/
def openFile (p : List Str) : FatM Volume (List Str) := fun v =>
  match v.node p with
  | some (.file _) => .ok p v
  | _ => .error .other v

/-- A position or a writer from a cursor, refused when the file is another. -/
def resumeRead (entry : FileEntry (List Str)) (place : List Str × Nat) : FatM Volume (List Str × Nat) := fun v =>
  if place.1 = entry.identity then .ok place v else .error .staleEntry v

def resumeWrite (entry : FileEntry (List Str)) (p : List Str) : FatM Volume (List Str) := fun v =>
  if p = entry.identity then openFile p v else .error .staleEntry v

def read (place : List Str × Nat) (count : Nat) : FatM Volume (List UInt8 × List Str × Nat) := fun v =>
  match v.node place.1 with
  | some (.file content) =>
    let bytes := (content.drop place.2).take count
    .ok (bytes, place.1, place.2 + bytes.length) v
  | _ => .error .other v

/-- A read gives no more than it was asked for. -/
theorem read_le (place : List Str × Nat) (count : Nat) (v : Volume) (bytes : List UInt8) (place' : List Str × Nat) (v' : Volume)
    (h : read place count v = .ok (bytes, place') v') : bytes.length ≤ count := by
  unfold read at h
  split at h
  · cases h
    exact List.length_take_le _ _
  · nomatch h

/-- Append to a file. -/
def write (p : List Str) (data : List UInt8) : FatM Volume (Nat × List Str) := fun v =>
  if data = [] then .ok (0, p) v
  else
    match h : v.node p with
    | some (.file content) =>
      if hsmall : (content ++ data).length < 2 ^ 32 then .ok (data.length, p) (v.change h hsmall) else .error .other v
    | _ => .error .other v

/-- The driver; what a copy does not ask for, it refuses. -/
def fat : CopyFat Volume where
  Dir := List Str
  Identity := List Str
  Reader := List Str × Nat
  Writer := List Str
  ReadCursor := List Str × Nat
  AppendCursor := List Str
  rootDir _ := []
  openDir := openDir
  find dir name := fun v => .ok (v.entry dir name) v
  entries := entries
  createFile dir name := do
    let _ ← create (.file []) (.inr rfl) dir name
  createDir dir name := do
    let _ ← create (.directory []) (.inl rfl) dir name
  delete _ := throw .other
  rename _ _ _ := throw .other
  truncate _ _ := throw .other
  setTimes _ _ _ := throw .other
  setAttributes _ _ := throw .other
  sync := pure ()
  freeClusterCount _ := none
  maxCluster _ := 2001
  clusterSize _ := 512
  volumeId _ := 0x1234
  readerNew entry := pure (entry.identity, 0)
  readerFromCursor := resumeRead
  readerSeek place offset := pure (place.1, offset)
  readerRead := read
  readerCursor place := place
  readerRead_le := read_le
  writerNewAppend entry := openFile entry.identity
  writerFromCursor := resumeWrite
  writerNewAt _ _ := throw .other
  writerWrite := write
  writerAppendCursor p := p
  writerFinish _ := pure ()
  writerDrop _ v := v
  createFileEntry := create (.file []) (.inr rfl)
  writerNew entry := openFile entry.identity
  writerAbandon _ v := v

/-- What the volume holds, as a tree. -/
def view : TreeView fat where
  node := Volume.node
  opens _ dir p := dir = p
  stands v entry p := entry.identity = p ∧ ∃ node, v.node p = some node ∧
    (entry.isDirectory = true ↔ ∃ names, node = .directory names)
  reads _ place p offset := place = (p, offset)
  readsOn _ place p offset := place = (p, offset)
  writes v writer p := writer = p ∧ ∃ content, v.node p = some (.file content)
  appends v writer p := writer = p ∧ ∃ content, v.node p = some (.file content)
  appendsOn v cursor p := cursor = p ∧ ∃ content, v.node p = some (.file content)
  plain := Plain
  clash := Eq
  room _ _ := True

/-! ## Its laws -/

/-- A path with the same node is spared. -/
theorem spares_of_node {v v' : Volume} {p : List Str} (h : v'.node p = v.node p) : view.Spares v v' p where
  node := h
  stands _ hs := ⟨hs.1, by rw [h]; exact hs.2⟩
  readsOn _ _ hr := hr
  appendsOn _ ha := ⟨ha.1, by rw [h]; exact ha.2⟩

/-- Adding a node adds its name to its directory and spares the rest. -/
theorem adds_add {v : Volume} {p names : List Str} {name : Str} {node : Node} (h : v.node p = some (.directory names))
    (hfree : v.node (p ++ [name]) = none) (hplain : Plain name) (hbare : Bare node) :
    view.Adds v (v.add h hfree hplain hbare) p name where
  spares q hparent hnew := spares_of_node (v.added_of_ne hparent hnew)
  listed names' hnames' := by
    obtain rfl : names = names' := Node.directory.inj (Option.some.inj (h.symm.trans hnames'))
    exact ⟨names ++ [name], v.added_parent, List.subset_append_left _ _, fun n hn => by
      rcases List.mem_append.mp hn with hn | hn
      · exact List.mem_cons_of_mem _ hn
      · rw [List.mem_singleton.mp hn]
        exact List.mem_cons_self⟩

/-- A change of content spares everything but the file. -/
theorem changes_change {v : Volume} {p : List Str} {old content : List UInt8} (h : v.node p = some (.file old))
    (hsmall : content.length < 2 ^ 32) : view.Changes v (v.change h hsmall) p :=
  ⟨fun _ hq => spares_of_node (v.changed_of_ne hq), content, v.changed_self⟩

/-- Doing nothing to a file changes no more than that file. -/
theorem changes_refl {v : Volume} {p : List Str} (h : ∃ content, v.node p = some (.file content)) : view.Changes v v p :=
  ⟨fun _ _ => .refl v _, h⟩

/-- The record of a node stands for its path. -/
theorem stands_record {v : Volume} {p : List Str} {name : Str} {node : Node} (hname : (asBytes name).length ≤ 765)
    (h : v.node p = some node) : view.stands v (record p name hname node) p := by
  refine ⟨rfl, node, h, ?_⟩
  cases node with
  | directory names => exact ⟨fun _ => ⟨names, rfl⟩, fun _ => rfl⟩
  | file content => exact ⟨nofun, fun ⟨_, hdir⟩ => nomatch hdir⟩

/-- What is there has an entry. -/
theorem entry_of_isSome {v : Volume} {p : List Str} {name : Str} (h : (v.node (p ++ [name])).isSome) :
    ∃ entry, v.entry p name = some entry ∧ entry.name = name ∧ view.stands v entry (p ++ [name]) := by
  obtain ⟨names, hnames, hname⟩ := v.closed p name h
  obtain ⟨node, hnode⟩ := Option.isSome_iff_exists.mp h
  have hplain := v.plain p names name hnames hname
  refine ⟨record (p ++ [name]) name hplain.2 node, ?_, rfl, stands_record hplain.2 hnode⟩
  unfold Volume.entry
  rw [dif_pos hplain.2, hnode]
  rfl

/-- Creating succeeds where the directory is there and the name is free and plain. -/
theorem create_ok {v : Volume} {p names : List Str} {name : Str} {node : Node} (hbare : Bare node)
    (h : v.node p = some (.directory names)) (hfree : v.node (p ++ [name]) = none) (hplain : Plain name) :
    create node hbare p name v = .ok (record (p ++ [name]) name hplain.2 node) (v.add h hfree hplain hbare) := by
  unfold create
  split
  · next names' h' =>
    obtain rfl : names = names' := Node.directory.inj (Option.some.inj (h.symm.trans h'))
    rw [dif_pos ⟨hfree, hplain⟩]
  · next hno => exact absurd h (hno names)

/-- Creating adds the name, and where it fails no more than the name. -/
theorem ends_create {v : Volume} {p : List Str} {name : Str} {node : Node} (hbare : Bare node) :
    Ends (create node hbare p name) v
      (fun entry v' => view.Adds v v' p name ∧ view.stands v' entry (p ++ [name]) ∧ v'.node (p ++ [name]) = some node)
      fun _ v' => view.Adds v v' p name := by
  unfold Ends create
  split
  · next r hr =>
    split at hr
    · next h =>
      split at hr
      · next hnew =>
        cases hr
        exact ⟨adds_add h hnew.1 hnew.2 hbare, stands_record hnew.2.2 (v.added_new), v.added_new⟩
      · nomatch hr
    · nomatch hr
  · next hr =>
    split at hr
    · split at hr
      · nomatch hr
      · cases hr
        exact .refl v p name
    · cases hr
      exact .refl v p name

/-- A write succeeds while the file stays below 4 GiB. -/
theorem write_ok {v : Volume} {p : List Str} {content data : List UInt8} (h : v.node p = some (.file content))
    (hsmall : (content ++ data).length < 2 ^ 32) :
    ∃ v', write p data v = .ok (data.length, p) v' ∧ view.Changes v v' p ∧ v'.node p = some (.file (content ++ data)) := by
  unfold write
  by_cases hempty : data = []
  · rw [if_pos hempty, hempty, List.append_nil]
    exact ⟨v, rfl, changes_refl ⟨content, h⟩, h⟩
  rw [if_neg hempty]
  split
  · next content' h' =>
    obtain rfl : content = content' := Node.file.inj (Option.some.inj (h.symm.trans h'))
    rw [dif_pos hsmall]
    exact ⟨_, rfl, changes_change h hsmall, v.changed_self⟩
  · next hno => exact absurd h (hno content)

/-- A write that would pass 4 GiB fails. -/
theorem write_full {v : Volume} {p : List Str} {content data : List UInt8} (h : v.node p = some (.file content)) (hempty : data ≠ [])
    (hsmall : ¬(content ++ data).length < 2 ^ 32) : write p data v = .error .other v := by
  unfold write
  rw [if_neg hempty]
  split
  · next content' h' =>
    obtain rfl : content = content' := Node.file.inj (Option.some.inj (h.symm.trans h'))
    rw [dif_neg hsmall]
  · rfl

/-- A write changes the file alone, whether it succeeds or fails. -/
theorem ends_write {v : Volume} {p : List Str} (hfile : ∃ content, v.node p = some (.file content)) (data : List UInt8) :
    Ends (write p data) v (fun r v' => view.Changes v v' p ∧ view.writes v' r.2 p)
      fun _ v' => view.Changes v v' p ∧ view.writes v' p p := by
  obtain ⟨content, h⟩ := hfile
  unfold Ends
  by_cases hempty : data = []
  · rw [write, if_pos hempty]
    exact ⟨changes_refl ⟨content, h⟩, rfl, content, h⟩
  by_cases hsmall : (content ++ data).length < 2 ^ 32
  · obtain ⟨v', hwrite, hchanges, hnode⟩ := write_ok h hsmall
    rw [hwrite]
    exact ⟨hchanges, rfl, _, hnode⟩
  · rw [write_full h hempty hsmall]
    exact ⟨changes_refl ⟨content, h⟩, rfl, content, h⟩

/-- A writer is opened on a file that is there, and nothing changes. -/
theorem ends_openFile {v : Volume} (p : List Str) :
    Ends (openFile p) v (fun writer v' => v' = v ∧ writer = p ∧ ∃ content, v.node p = some (.file content)) fun _ v' => v' = v := by
  unfold Ends openFile
  split
  · next r hr =>
    split at hr
    · next content h =>
      cases hr
      exact ⟨rfl, rfl, content, h⟩
    · nomatch hr
  · next hr =>
    split at hr
    · nomatch hr
    · cases hr
      rfl

/-- Opening a writer succeeds on a file that is there. -/
theorem openFile_ok {v : Volume} {p : List Str} (h : ∃ content, v.node p = some (.file content)) : openFile p v = .ok p v := by
  obtain ⟨content, h⟩ := h
  unfold openFile
  rw [h]

/-- Opening a directory only reads. -/
theorem readOnly_openDir (dir : List Str) (name : Str) : TreeView.ReadOnly (openDir dir name) := by
  intro v
  unfold Ends openDir
  cases v.node (dir ++ [name]) with
  | none => rfl
  | some node => cases node <;> rfl

/-- Listing a directory only reads. -/
theorem readOnly_entries (dir : List Str) : TreeView.ReadOnly (entries dir) := by
  intro v
  unfold Ends entries
  cases v.node dir with
  | none => rfl
  | some node => cases node <;> rfl

/-- Reading a file only reads. -/
theorem readOnly_read (place : List Str × Nat) (count : Nat) : TreeView.ReadOnly (read place count) := by
  intro v
  unfold Ends read
  cases v.node place.1 with
  | none => rfl
  | some node => cases node <;> rfl

/-- Resuming a reader only reads. -/
theorem readOnly_resumeRead (entry : FileEntry (List Str)) (place : List Str × Nat) : TreeView.ReadOnly (resumeRead entry place) := by
  intro v
  unfold Ends resumeRead
  by_cases h : place.1 = entry.identity
  · rw [if_pos h]
  · rw [if_neg h]

/-- A writer is resumed on a file that is there, and nothing changes. -/
theorem ends_resumeWrite {v : Volume} (entry : FileEntry (List Str)) (p : List Str) :
    Ends (resumeWrite entry p) v
      (fun writer v' => v' = v ∧ writer = entry.identity ∧ ∃ content, v.node entry.identity = some (.file content))
      fun _ v' => v' = v := by
  unfold Ends resumeWrite
  by_cases h : p = entry.identity
  · rw [if_pos h, ← h]
    exact ends_openFile p
  · rw [if_neg h]

/-- A directory that is opened is the one below its parent by that name. -/
theorem openDir_eq_ok {v v' : Volume} {dir dir' : List Str} {name : Str} (h : openDir dir name v = .ok dir' v') :
    dir' = dir ++ [name] := by
  unfold openDir at h
  split at h
  · cases h
    rfl
  · nomatch h

/-- Each call of the tree's driver leaves alone what it is not about. -/
theorem contained : view.Contained where
  openDir := readOnly_openDir
  find _ _ _ := rfl
  entries := readOnly_entries
  readerNew _ _ := rfl
  readerFromCursor := readOnly_resumeRead
  readerRead := readOnly_read
  writerNew entry _ := (ends_openFile entry.identity).mono (fun _ _ h => h.1) fun _ _ h => h
  writerFromCursor entry cursor _ := (ends_resumeWrite entry cursor).mono (fun _ _ h => h.1) fun _ _ h => h
  root _ := rfl
  closed := Volume.closed
  listed := Volume.listed
  opened v dir p name dir' v' hopens _ hrun := by
    obtain rfl : dir = p := hopens
    exact openDir_eq_ok hrun
  found v dir p name r v' hopens hthere hrun := by
    obtain rfl : dir = p := hopens
    obtain ⟨entry, hentry, _, hstands⟩ := entry_of_isSome hthere
    cases hrun
    exact ⟨entry, hentry, hstands⟩
  stood v entry p hstands := by
    obtain ⟨_, node, hnode, hdir⟩ := hstands
    rw [hdir]
    exact ⟨fun ⟨names, h⟩ => ⟨names, h ▸ hnode⟩, fun ⟨names, h⟩ => ⟨names, Option.some.inj (hnode.symm.trans h)⟩⟩
  writer_of_new v entry p writer v' hstands hrun := by
    obtain ⟨rfl, hwriter, hfile⟩ := (ends_openFile entry.identity).ok hrun
    exact ⟨hwriter.trans hstands.1, hstands.1 ▸ hfile⟩
  writer_of_cursor v entry p cursor writer v' hstands hrun := by
    obtain ⟨rfl, hwriter, hfile⟩ := (ends_resumeWrite entry cursor).ok hrun
    exact ⟨hwriter.trans hstands.1, hstands.1 ▸ hfile⟩
  createFile v dir p name hopens := by
    obtain rfl : dir = p := hopens
    exact (ends_create (.inr rfl)).mono (fun _ _ ⟨hadds, hstands, hnode⟩ => ⟨hadds, hstands, [], hnode⟩) fun _ _ h => h
  createDir v dir p name hopens := by
    obtain rfl : dir = p := hopens
    exact ends_bind ((ends_create (.inl rfl)).mono (fun _ _ ⟨hadds, _, hnode⟩ => ⟨hadds, [], hnode⟩) fun _ _ h => h)
  write v writer p data hwrites := by
    obtain ⟨rfl, hfile⟩ := hwrites
    exact ends_write hfile data
  finish _ _ _ hwrites := changes_refl hwrites.2
  abandon _ _ _ hwrites := changes_refl hwrites.2

/-- The records of a directory are those of its names. -/
theorem records_of_names {v : Volume} {p : List Str} {names : List Str} (h : ∀ n ∈ names, (v.node (p ++ [n])).isSome ∧ Plain n) :
    List.Forall₂ (fun (entry : fat.Entry) name => entry.name = name ∧ view.stands v entry (p ++ [name]))
      ((names.filterMap (v.entry p)).filter TreeView.isListed) names := by
  induction names with
  | nil => exact .nil
  | cons name names ih =>
    have hhere := h name List.mem_cons_self
    obtain ⟨entry, hentry, hname, hstands⟩ := entry_of_isSome hhere.1
    have hlisted : TreeView.isListed (F := fat) entry = true := by
      unfold TreeView.isListed
      rw [hname, decide_eq_false (not_or.mpr hhere.2.1)]
      rfl
    have hcons : (name :: names).filterMap (v.entry p) = entry :: names.filterMap (v.entry p) := List.filterMap_cons_some hentry
    rw [hcons]
    refine List.filter_cons_of_pos (l := names.filterMap (v.entry p)) hlisted ▸ ?_
    exact .cons ⟨hname, hstands⟩ (ih fun n hn => h n (List.mem_cons_of_mem _ hn))

/-- A name that a directory does not list is free. -/
theorem free_of_names {v : Volume} {p names : List Str} {name : Str} (h : v.node p = some (.directory names))
    (hfree : ∀ n ∈ names, ¬n = name) : v.node (p ++ [name]) = none := by
  by_contra hthere
  obtain ⟨names', hnames', hname⟩ := v.closed p name (Option.isSome_iff_ne_none.mpr hthere)
  obtain rfl : names = names' := Node.directory.inj (Option.some.inj (h.symm.trans hnames'))
  exact hfree name hname rfl

/-- Opening a directory succeeds where it is there. -/
theorem openDir_ok {v : Volume} {p names : List Str} {name : Str} (h : v.node (p ++ [name]) = some (.directory names)) :
    openDir p name v = .ok (p ++ [name]) v := by
  unfold openDir
  rw [h]

/-- A directory lists the entries of its names. -/
theorem entries_ok {v : Volume} {p names : List Str} (h : v.node p = some (.directory names)) :
    entries p v = .ok ((names.filterMap (v.entry p)).map .ok) v := by
  unfold entries
  rw [h]

/-- A name without a node has no entry. -/
theorem entry_of_none {v : Volume} {p : List Str} {name : Str} (h : v.node (p ++ [name]) = none) : v.entry p name = none := by
  unfold Volume.entry
  rw [h]
  split <;> rfl

/-- A read gives the octets from its place on and moves the place. -/
theorem read_ok {v : Volume} {p : List Str} {content : List UInt8} (h : v.node p = some (.file content)) (offset count : Nat) :
    read (p, offset) count v = .ok ((content.drop offset).take count, p, offset + ((content.drop offset).take count).length) v := by
  unfold read
  rw [h]

/-- A reader is resumed where it was. -/
theorem resumeRead_ok {v : Volume} {entry : FileEntry (List Str)} {p : List Str} (h : entry.identity = p) (offset : Nat) :
    resumeRead entry (p, offset) v = .ok (p, offset) v := if_pos h.symm

/-- A writer is resumed on a file that is there. -/
theorem resumeWrite_ok {v : Volume} {entry : FileEntry (List Str)} {p : List Str} (h : entry.identity = p)
    (hfile : ∃ content, v.node p = some (.file content)) : resumeWrite entry p v = .ok p v := by
  unfold resumeWrite
  rw [if_pos h.symm, openFile_ok hfile]

/-- Each call of the tree's driver succeeds where a working card with room would let it. -/
theorem succeeds : view.Succeeds where
  clash_self _ := rfl
  small := Volume.small
  openDir v _ dir p name names _ hopens h := by
    obtain rfl : dir = p := hopens
    exact ⟨_, openDir_ok h⟩
  find v _ dir p name _ hopens _ := ⟨v.entry dir name, rfl⟩
  find_free v _ dir p name names _ hopens h hfree := by
    obtain rfl : dir = p := hopens
    exact congrArg (fun r => EStateM.Result.ok r v) (entry_of_none (free_of_names h hfree))
  entries v _ dir p names _ hopens h := by
    obtain rfl : dir = p := hopens
    exact ⟨_, entries_ok h, records_of_names fun n hn => ⟨v.listed dir names n h hn, v.plain dir names n h hn⟩⟩
  createFile v _ dir p name names _ hopens h hplain hfree := by
    obtain rfl : dir = p := hopens
    have hnone := free_of_names h hfree
    exact ⟨_, _, names ++ [name], create_ok (.inr rfl) h hnone hplain, trivial, v.added_new, v.added_parent,
      List.perm_append_singleton name names⟩
  createDir v _ dir p name names _ hopens h hplain hfree := by
    obtain rfl : dir = p := hopens
    have hnone := free_of_names h hfree
    exact ⟨_, names ++ [name], bind_of_ok (create_ok (.inl rfl) h hnone hplain), trivial, v.added_new, v.added_parent,
      List.perm_append_singleton name names⟩
  readerNew _ _ entry p _ _ hstands _ := ⟨(entry.identity, 0), rfl, congrArg (·, 0) hstands.1⟩
  readerFromCursor v _ entry cursor p offset _ hstands hreads := by
    obtain rfl : cursor = (p, offset) := hreads
    exact ⟨(p, offset), resumeRead_ok hstands.1 offset, rfl⟩
  readerRead v _ reader p offset content count _ hreads h := by
    obtain rfl : reader = (p, offset) := hreads
    exact ⟨_, read_ok h offset count, rfl⟩
  writerNew v _ entry p _ hstands h := by
    have hfile : ∃ content, v.node entry.identity = some (.file content) := ⟨[], hstands.1.symm ▸ h⟩
    exact ⟨_, openFile_ok hfile, hstands.1, [], h⟩
  writerFromCursor v _ entry cursor p _ hstands happends := by
    obtain ⟨rfl, hfile⟩ := happends
    exact ⟨cursor, resumeWrite_ok hstands.1 hfile, rfl, hfile⟩
  write_nil _ _ := rfl
  put v _ writer p content data _ happends h hsmall := by
    obtain ⟨rfl, _⟩ := happends
    obtain ⟨v', hwrite, _, hnode⟩ := write_ok h hsmall
    exact ⟨writer, v', v', hwrite, rfl, trivial, hnode, rfl, _, hnode⟩

/-- Every directory of the volume is one that can be copied. -/
theorem tidy (v : Volume) (p : List Str) (r names : List Str) (h : v.node (p ++ r) = some (.directory names)) :
    (∀ n ∈ names, Plain n) ∧ names.Pairwise fun n m => ¬n = m :=
  ⟨fun n hn => v.plain _ names n h hn, v.nodup _ names h⟩

/-- A volume with `dst` and `src`, which has a directory `d` with a file `b` of three octets, and an empty file `a`. -/
def sample : Volume :=
  let build : FatM Volume Unit := do
    fat.createDir [] "src".toList
    fat.createDir [] "dst".toList
    fat.createDir ["src".toList] "d".toList
    fat.createFile ["src".toList] "a".toList
    fat.createFile ["src".toList, "d".toList] "b".toList
    let _ ← fat.writerWrite ["src".toList, "d".toList, "b".toList] [1, 2, 3]
  match build Volume.empty with
  | .ok _ v => v
  | .error _ v => v

/-- A browser in `dst`, with `src` in its clipboard. -/
def clip : Clipboard := { parent := [], name := "src", directory := true, moving := false }

def browser : FileManager := { cwd := ["dst"], clipboard := some clip }

end Ratputer.TreeRam
