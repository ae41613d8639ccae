import Ratputer.Theorems.CopyJob
import Ratputer.Lemmas.CopyTree
import Mathlib.Algebra.GroupWithZero.Nat

/-!
# A copy is the source

While the card works and has room, a directory copy ends. It is complete exactly if the source nests no more directories than the
stack holds, and then the copy is the source: the same directories, names and contents.
-/

namespace Ratputer

open Effect

variable {V : Type} {F : CopyFat V}

namespace TreeView

variable (T : TreeView F)

/-- Neither path leads through the other. -/
def Apart (p q : List Str) : Prop := ¬p <+: q ∧ ¬q <+: p

/-- What stands below two paths is the same. -/
def SameTree (v : V) (p q : List Str) : Prop := ∀ r, Option.Rel Node.Same (T.node v (p ++ r)) (T.node v (q ++ r))

/-- The names below a path are ones that the driver takes for new entries, and no two of a directory clash. -/
def Tidy (v : V) (p : List Str) : Prop :=
  ∀ r names, T.node v (p ++ r) = some (.directory names) → (∀ n ∈ names, T.plain n) ∧ names.Pairwise fun n m => ¬T.clash n m

/-- A directory stands so many levels below a path. -/
def Nests (v : V) (p : List Str) (levels : Nat) : Prop := ∃ r names, r.length = levels ∧ T.node v (p ++ r) = some (.directory names)

/-- The sum over what stands at a path and so many levels below it: a weight for each directory, and one for each content. -/
def total (directory : Nat) (file : List UInt8 → Nat) (v : V) : Nat → List Str → Nat
  | 0, _ => 0
  | levels + 1, p =>
    match T.node v p with
    | none => 0
    | some (.file content) => file content
    | some (.directory names) => directory + (names.map fun name => total directory file v levels (p ++ [name])).sum

/-- The octets, the files, and the calls that write, of copying what stands below a path. -/
def octets : V → Nat → List Str → Nat := T.total 0 List.length

def fileCount : V → Nat → List Str → Nat := T.total 0 fun _ => 1

def calls : V → Nat → List Str → Nat := T.total 1 fun content => chunkPolls content.length + 1

end TreeView

namespace CopyTreeAux

variable {T : TreeView F} {v v' : V} {p q : List Str}

open TreeView

/-- Paths below paths that are apart are apart. -/
theorem apart_append (h : Apart p q) (r s : List Str) : Apart (p ++ r) (q ++ s) := by
  refine ⟨fun hpq => ?_, fun hqp => ?_⟩
  · rcases List.prefix_or_prefix_of_prefix ((List.prefix_append p r).trans hpq) (List.prefix_append q s) with hp | hq
    · exact h.1 hp
    · exact h.2 hq
  · rcases List.prefix_or_prefix_of_prefix ((List.prefix_append q s).trans hqp) (List.prefix_append p r) with hq | hp
    · exact h.2 hq
    · exact h.1 hp

/-- Nothing below one of two paths apart is below the other. -/
theorem not_prefix_of_apart (h : Apart p q) (r : List Str) : ¬q <+: p ++ r := fun hq => by
  rcases List.prefix_or_prefix_of_prefix hq (List.prefix_append p r) with hqp | hpq
  · exact h.2 hqp
  · exact h.1 hpq

/-- Totals are of what is below the path. -/
theorem total_congr (directory : Nat) (file : List UInt8 → Nat) (h : ∀ r, T.node v' (p ++ r) = T.node v (p ++ r)) (levels : Nat) :
    T.total directory file v' levels p = T.total directory file v levels p := by
  induction levels generalizing p with
  | zero => rfl
  | succ levels ih =>
    have hhere : T.node v' p = T.node v p := by simpa using h []
    rw [total, total, hhere]
    cases hnode : T.node v p with
    | none => rfl
    | some node =>
      cases node with
      | file content => rfl
      | directory names =>
        dsimp only
        have hbelow (name : Str) : T.total directory file v' levels (p ++ [name]) = T.total directory file v levels (p ++ [name]) :=
          ih fun r => by rw [List.append_assoc, h]
        rw [funext hbelow]

/-- So is how deep it goes. -/
theorem nests_congr (h : ∀ r, T.node v' (p ++ r) = T.node v (p ++ r)) {levels : Nat} (hn : T.Nests v' p levels) :
    T.Nests v p levels := by
  obtain ⟨r, names, hlen, hnode⟩ := hn
  exact ⟨r, names, hlen, (h r).symm.trans hnode⟩

/-- So is whether it is tidy. -/
theorem tidy_congr (h : ∀ r, T.node v' (p ++ r) = T.node v (p ++ r)) (ht : T.Tidy v p) : T.Tidy v' p :=
  fun r names hnode => ht r names ((h r).symm.trans hnode)

/-- Below what is tidy all is tidy. -/
theorem tidy_append (h : T.Tidy v p) (r : List Str) : T.Tidy v (p ++ r) := fun s names hnode => by
  rw [List.append_assoc] at hnode
  exact h (r ++ s) names hnode

/-- Trees are the same by what is below them. -/
theorem sameTree_congr (hp : ∀ r, T.node v' (p ++ r) = T.node v (p ++ r)) (hq : ∀ r, T.node v' (q ++ r) = T.node v (q ++ r))
    (h : T.SameTree v p q) : T.SameTree v' p q := fun r => by
  rw [hp r, hq r]
  exact h r

/-- A directory goes one level deeper than the one below it. -/
theorem nests_of_child {name : Str} {levels : Nat} (h : T.Nests v (p ++ [name]) levels) : T.Nests v p (levels + 1) := by
  obtain ⟨r, names, hlen, hnode⟩ := h
  exact ⟨name :: r, names, by rw [List.length_cons, hlen], by rwa [List.append_assoc] at hnode⟩

/-- Below a file there is nothing. -/
theorem none_below_file (frame : T.Contained) {content : List UInt8} (h : T.node v p = some (.file content)) {r : List Str}
    (hr : r ≠ []) : T.node v (p ++ r) = none := by
  obtain ⟨name, r, rfl⟩ := List.exists_cons_of_ne_nil hr
  by_contra hthere
  have hbelow : (T.node v ((p ++ [name]) ++ r)).isSome := by
    rw [List.append_assoc]
    exact Option.isSome_iff_ne_none.mpr hthere
  obtain ⟨names, hnames, _⟩ := frame.closed v p name (frame.isSome_of_append hbelow)
  exact nomatch h.symm.trans hnames

/-- Files with one content are the same. -/
theorem sameTree_file (frame : T.Contained) {content : List UInt8} (hp : T.node v p = some (.file content))
    (hq : T.node v q = some (.file content)) : T.SameTree v p q := by
  intro r
  by_cases hr : r = []
  · rw [hr, List.append_nil, List.append_nil, hp, hq]
    exact .some rfl
  · rw [none_below_file frame hp hr, none_below_file frame hq hr]
    exact .none

/-- Two directories with the same names, and the same below each, are the same. -/
theorem sameTree_directory (frame : T.Contained) {names names' : List Str} (hp : T.node v p = some (.directory names))
    (hq : T.node v q = some (.directory names')) (hperm : names'.Perm names)
    (hbelow : ∀ n ∈ names, T.SameTree v (p ++ [n]) (q ++ [n])) : T.SameTree v p q := by
  intro r
  cases r with
  | nil =>
    rw [List.append_nil, List.append_nil, hp, hq]
    exact .some hperm.symm
  | cons name r =>
    by_cases hmem : name ∈ names
    · have hsame := hbelow name hmem r
      rwa [List.append_assoc, List.append_assoc] at hsame
    · have hnone {p : List Str} {names : List Str} (hp : T.node v p = some (.directory names)) (hmem : name ∉ names) :
          T.node v (p ++ name :: r) = none := by
        by_contra hthere
        exact hmem (frame.mem_of_isSome hp (Option.isSome_iff_ne_none.mpr hthere))
      rw [hnone hp hmem, hnone hq fun h => hmem (hperm.mem_iff.mp h)]
      exact .none

/-- The job fails after finitely many polls. -/
def Fails (a : CopyJob F × V) : Prop := ∃ job v, Leads CopyJob.step a (job, v) ∧ ∃ e v', job.step v = .error e v'

/-- A job that comes to one that fails, fails. -/
theorem Fails.after {a b : CopyJob F × V} (h : Fails b) (hleads : Leads CopyJob.step a b) : Fails a := by
  obtain ⟨job, v, hrest, herror⟩ := h
  exact ⟨job, v, hleads.trans hrest, herror⟩

/-- What copying the directory of a frame comes to while `room` lasts: with no more than `levels` levels of directories below it,
the target is the source and the job goes on with the directories around it; otherwise it fails. -/
def CopiesDirectory (T : TreeView F) (levels : Nat) : Prop :=
  ∀ (outer : List DirectoryCopy) (copied files : Nat) {p q : List Str} {names : List Str} {v : V} {k : Nat},
    outer.length + 1 + levels = MAX_COPY_DEPTH → T.node v p = some (.directory names) → T.Tidy v p → Apart p q →
    T.node v q = some (.directory []) → T.room v (k + (names.map fun n => T.calls v (levels + 1) (p ++ [n])).sum) →
    (¬T.Nests v p (levels + 1) ∧ ∃ v', Leads (CopyJob.step (F := F)) (⟨⟨p, q, 0⟩ :: outer, none, copied, files⟩, v)
      (⟨outer, none, copied + (names.map fun n => T.octets v (levels + 1) (p ++ [n])).sum,
        files + (names.map fun n => T.fileCount v (levels + 1) (p ++ [n])).sum⟩, v') ∧
      T.room v' k ∧ T.SameTree v' p q ∧ ∀ r, ¬q <+: r → T.Spares v v' r) ∨
    T.Nests v p (levels + 1) ∧ Fails (F := F) (⟨⟨p, q, 0⟩ :: outer, none, copied, files⟩, v)

/-- An entry of the target's directory is the copy of the source's; what is not below it is as before. -/
structure EntryCopied (T : TreeView F) (v v' : V) (p q : List Str) (name : Str) (names : List Str) : Prop where
  same : T.SameTree v' (p ++ [name]) (q ++ [name])
  listed : ∃ names', T.node v' q = some (.directory names') ∧ names'.Perm (name :: names)
  spares : ∀ r, r ≠ q → ¬q ++ [name] <+: r → T.Spares v v' r

/-- What stands below a path apart from the target stays while only an entry of the target changes. -/
theorem source_spared {name : Str} (hapart : Apart p q) (h : ∀ r, r ≠ q → ¬q ++ [name] <+: r → T.Spares v v' r) (r : List Str) :
    T.Spares v v' (p ++ r) := by
  have hout := not_prefix_of_apart hapart r
  exact h (p ++ r) (fun heq => hout (heq ▸ List.prefix_refl q)) fun hbelow => hout ((List.prefix_append q [name]).trans hbelow)

section

variable (frame : T.Contained) (law : T.Succeeds)

include frame law

/-- A poll on a directory with a file next. -/
theorem goes_file {outer : List DirectoryCopy} {i k copied files : Nat} {names : List Str} {name : Str} {content : List UInt8}
    (hroom : T.room v k) (hp : T.node v p = some (.directory names)) (hi : names[i]? = some name)
    (hfile : T.node v (p ++ [name]) = some (.file content)) :
    Goes (CopyJob.step (F := F)) (⟨⟨p, q, i⟩ :: outer, none, copied, files⟩, v)
      (⟨⟨p, q, i + 1⟩ :: outer, some { source := p, target := q, name }, copied, files⟩, v) := by
  obtain ⟨item, hitem, rfl, hdirectory⟩ := law.itemAt_some frame hroom hp hi
  show CopyJob.stepDirectory _ _ outer v = _
  unfold CopyJob.stepDirectory
  rw [bind_of_ok hitem]
  dsimp only
  rw [if_neg fun hdir => ?_]
  · rfl
  · obtain ⟨names', hnames'⟩ := hdirectory.mp hdir
    exact nomatch hfile.symm.trans hnames'

/-- A poll on a directory with a directory next, when the stack is full. -/
theorem fails_deep {outer : List DirectoryCopy} {i k copied files : Nat} {names names' : List Str} {name : Str}
    (hroom : T.room v k) (hp : T.node v p = some (.directory names)) (hi : names[i]? = some name)
    (hdir : T.node v (p ++ [name]) = some (.directory names')) (hfull : outer.length + 1 = MAX_COPY_DEPTH) :
    Fails (F := F) (⟨⟨p, q, i⟩ :: outer, none, copied, files⟩, v) := by
  obtain ⟨item, hitem, rfl, hdirectory⟩ := law.itemAt_some frame hroom hp hi
  refine ⟨_, v, .refl, .other, v, ?_⟩
  show CopyJob.stepDirectory _ _ outer v = _
  unfold CopyJob.stepDirectory
  rw [bind_of_ok hitem]
  dsimp only
  rw [if_pos (hdirectory.mpr ⟨names', hdir⟩)]
  refine bind_of_error ?_
  rw [require, if_neg]
  · rfl
  · rw [List.length_cons, hfull]
    exact Nat.lt_irrefl _

/-- A poll on a directory with a directory next: its copy is made, and it is copied first. -/
theorem goes_directory (outer : List DirectoryCopy) (copied files : Nat) {i k : Nat} {names names' tnames : List Str} {name : Str}
    (hroom : T.room v (k + 1)) (hp : T.node v p = some (.directory names)) (hi : names[i]? = some name)
    (hdir : T.node v (p ++ [name]) = some (.directory names')) (hlevel : outer.length + 1 < MAX_COPY_DEPTH)
    (hq : T.node v q = some (.directory tnames)) (hplain : T.plain name) (hfree : ∀ n ∈ tnames, ¬T.clash n name) :
    ∃ v' tnames', Goes (CopyJob.step (F := F)) (⟨⟨p, q, i⟩ :: outer, none, copied, files⟩, v)
        (⟨⟨p ++ [name], q ++ [name], 0⟩ :: ⟨p, q, i + 1⟩ :: outer, none, copied, files⟩, v') ∧ T.room v' k ∧
      T.node v' (q ++ [name]) = some (.directory []) ∧ T.node v' q = some (.directory tnames') ∧ tnames'.Perm (name :: tnames) ∧
      ∀ r, r ≠ q → r ≠ q ++ [name] → T.Spares v v' r := by
  obtain ⟨item, hitem, rfl, hdirectory⟩ := law.itemAt_some frame hroom hp hi
  obtain ⟨target, htarget, hopens⟩ := law.openDirPath_ok frame hroom hq
  obtain ⟨v', tnames', hcreate, hroom', hnew, hnames', hperm⟩ :=
    law.createDir v k target q item.name.toList tnames hroom hopens hq hplain hfree
  have hadds := ((frame.createDir v target q item.name.toList hopens).ok hcreate).1
  refine ⟨v', tnames', ?_, hroom', hnew, hnames', hperm, hadds.spares⟩
  show CopyJob.stepDirectory _ _ outer v = _
  unfold CopyJob.stepDirectory
  have hrequire : require (V := V) ((⟨p, q, i⟩ :: outer : List DirectoryCopy).length < MAX_COPY_DEPTH) v = .ok () v := by
    rw [require, List.length_cons, if_pos hlevel]
    rfl
  rw [bind_of_ok hitem]
  dsimp only
  rw [if_pos (hdirectory.mpr ⟨names', hdir⟩), bind_of_ok hrequire, bind_of_ok htarget,
    bind_of_ok (law.requireFree_ok hroom hopens hq hfree), bind_of_ok hcreate]
  rfl

/-- Past the last entry of a directory the job is back with the directories around it. -/
theorem goes_back {outer : List DirectoryCopy} {k copied files : Nat} {names : List Str} (hroom : T.room v k)
    (hp : T.node v p = some (.directory names)) :
    Goes (CopyJob.step (F := F)) (⟨⟨p, q, names.length⟩ :: outer, none, copied, files⟩, v) (⟨outer, none, copied, files⟩, v) := by
  show CopyJob.stepDirectory _ _ outer v = _
  unfold CopyJob.stepDirectory
  rw [bind_of_ok (law.itemAt_none frame hroom hp)]
  rfl

/-- The next entry of a directory, once directories with fewer levels are known to be copied. -/
theorem entry_copied {levels : Nat} (hlevels : ∀ l, levels = l + 1 → CopiesDirectory T l) {outer : List DirectoryCopy} {p q : List Str}
    {i k copied files : Nat} {names tnames : List Str} {name : Str} {v : V} (hlevel : outer.length + 1 + levels = MAX_COPY_DEPTH)
    (hp : T.node v p = some (.directory names)) (htidy : T.Tidy v p) (hapart : Apart p q) (hi : names[i]? = some name)
    (hq : T.node v q = some (.directory tnames)) (hfree : ∀ n ∈ tnames, ¬T.clash n name)
    (hroom : T.room v (k + T.calls v (levels + 1) (p ++ [name]))) :
    (¬T.Nests v (p ++ [name]) levels ∧ ∃ v', Leads (CopyJob.step (F := F)) (⟨⟨p, q, i⟩ :: outer, none, copied, files⟩, v)
      (⟨⟨p, q, i + 1⟩ :: outer, none, copied + T.octets v (levels + 1) (p ++ [name]),
        files + T.fileCount v (levels + 1) (p ++ [name])⟩, v') ∧ T.room v' k ∧ EntryCopied T v v' p q name tnames) ∨
    T.Nests v (p ++ [name]) levels ∧ Fails (F := F) (⟨⟨p, q, i⟩ :: outer, none, copied, files⟩, v) := by
  have hmem : name ∈ names := List.mem_of_getElem? hi
  obtain ⟨hplain, _⟩ := htidy [] names (by rwa [List.append_nil])
  have hthere := frame.listed v p names name hp hmem
  obtain ⟨node, hnode⟩ := Option.isSome_iff_exists.mp hthere
  unfold calls at hroom
  unfold octets fileCount
  simp only [total, hnode] at hroom ⊢
  cases node with
  | file content =>
    dsimp only at hroom ⊢
    refine .inl ⟨?_, ?_⟩
    · rintro ⟨r, names', _, hdir⟩
      by_cases hr : r = []
      · rw [hr, List.append_nil, hnode] at hdir
        cases hdir
      · rw [none_below_file frame hnode hr] at hdir
        cases hdir
    · have hgo : Goes (CopyJob.step (F := F)) (⟨⟨p, q, i⟩ :: outer, none, copied, files⟩, v)
          (⟨⟨p, q, i + 1⟩ :: outer, some { source := p, target := q, name }, copied, files⟩, v) :=
        goes_file frame law hroom hp hi hnode
      obtain ⟨v', tnames', hleads, hroom', hnew, hnames', hperm, hspares⟩ :=
        file_copied frame law hnode hq (hplain name hmem) hfree hroom
      have hspares' (r : List Str) (hr : r ≠ q) (hbelow : ¬q ++ [name] <+: r) : T.Spares v v' r :=
        hspares r hr fun heq => hbelow (heq ▸ List.prefix_refl _)
      have hsource := (source_spared hapart hspares' [name]).node.trans hnode
      exact ⟨v', .head hgo hleads, hroom', sameTree_file frame hsource hnew, ⟨tnames', hnames', hperm⟩, hspares'⟩
  | directory names' =>
    dsimp only at hroom ⊢
    cases levels with
    | zero =>
      exact .inr ⟨⟨[], names', rfl, by rwa [List.append_nil]⟩, fails_deep frame law hroom hp hi hnode hlevel⟩
    | succ l =>
      rw [Nat.add_comm 1, ← Nat.add_assoc] at hroom
      obtain ⟨v₁, tnames', hgo, hroom₁, hnew, hnames', hperm, hspares⟩ :=
        goes_directory frame law outer copied files hroom hp hi hnode (by omega) hq (hplain name hmem) hfree
      have hspares' (r : List Str) (hr : r ≠ q) (hbelow : ¬q ++ [name] <+: r) : T.Spares v v₁ r :=
        hspares r hr fun heq => hbelow (heq ▸ List.prefix_refl _)
      have hsource (r : List Str) : T.node v₁ ((p ++ [name]) ++ r) = T.node v ((p ++ [name]) ++ r) := by
        rw [List.append_assoc]
        exact (source_spared hapart hspares' ([name] ++ r)).node
      have hsame (directory : Nat) (file : List UInt8 → Nat) (n : Str) :
          T.total directory file v₁ (l + 1) ((p ++ [name]) ++ [n]) = T.total directory file v (l + 1) ((p ++ [name]) ++ [n]) :=
        total_congr directory file (fun r => by rw [List.append_assoc, hsource]) (l + 1)
      have hroom₁' : T.room v₁ (k + (names'.map fun n => T.calls v₁ (l + 1) ((p ++ [name]) ++ [n])).sum) := by
        unfold calls
        simp only [hsame]
        exact hroom₁
      have hdir : T.node v₁ (p ++ [name]) = some (.directory names') := by
        have hhere := hsource []
        rw [List.append_nil] at hhere
        rw [hhere, hnode]
      have hnests : T.Nests v₁ (p ++ [name]) (l + 1) ↔ T.Nests v (p ++ [name]) (l + 1) :=
        ⟨nests_congr hsource, nests_congr fun r => (hsource r).symm⟩
      have hchild := hlevels l rfl (⟨p, q, i + 1⟩ :: outer) copied files
        (by rw [List.length_cons]; omega) hdir (tidy_congr hsource (tidy_append htidy [name]))
        (apart_append hapart [name] [name]) hnew hroom₁'
      unfold octets fileCount at hchild
      simp only [hsame, hnests] at hchild
      rcases hchild with ⟨hshallow, v', hleads, hroom', htree, hspares₂⟩ | ⟨hdeep, hfails⟩
      · refine .inl ⟨hshallow, v', ?_, hroom', htree, ?_, fun r hr hbelow => (hspares' r hr hbelow).trans (hspares₂ r hbelow)⟩
        · rw [Nat.zero_add, Nat.zero_add]
          exact .head hgo hleads
        · refine ⟨tnames', ?_, hperm⟩
          rw [(hspares₂ q fun hbelow => ?_).node, hnames']
          have hlong := hbelow.length_le
          rw [List.length_append, List.length_singleton] at hlong
          omega
      · exact .inr ⟨hdeep, hfails.after (.single hgo)⟩

/-- The rest of a directory's entries, after those that are copied. -/
theorem entries_copied {levels : Nat} (hlevels : ∀ l, levels = l + 1 → CopiesDirectory T l) (outer : List DirectoryCopy)
    {p q : List Str} (hlevel : outer.length + 1 + levels = MAX_COPY_DEPTH) (hapart : Apart p q) (todo : List Str) :
    ∀ (copied files : Nat) {done tnames : List Str} {v : V} {k : Nat}, T.node v p = some (.directory (done ++ todo)) → T.Tidy v p →
      T.node v q = some (.directory tnames) → tnames.Perm done → (∀ n ∈ done, T.SameTree v (p ++ [n]) (q ++ [n])) →
      (∀ n ∈ done, ¬T.Nests v (p ++ [n]) levels) → T.room v (k + (todo.map fun n => T.calls v (levels + 1) (p ++ [n])).sum) →
      (¬T.Nests v p (levels + 1) ∧ ∃ v', Leads (CopyJob.step (F := F)) (⟨⟨p, q, done.length⟩ :: outer, none, copied, files⟩, v)
        (⟨outer, none, copied + (todo.map fun n => T.octets v (levels + 1) (p ++ [n])).sum,
          files + (todo.map fun n => T.fileCount v (levels + 1) (p ++ [n])).sum⟩, v') ∧
        T.room v' k ∧ T.SameTree v' p q ∧ ∀ r, ¬q <+: r → T.Spares v v' r) ∨
      T.Nests v p (levels + 1) ∧ Fails (F := F) (⟨⟨p, q, done.length⟩ :: outer, none, copied, files⟩, v) := by
  induction todo with
  | nil =>
    intro copied files done tnames v k hp _ hq hperm hsame hshallow hroom
    rw [List.append_nil] at hp
    refine .inl ⟨?_, v, .single (goes_back frame law hroom hp), hroom, sameTree_directory frame hp hq hperm hsame, fun _ _ => .refl v _⟩
    rintro ⟨r, names, hlen, hdir⟩
    obtain ⟨n, r, rfl⟩ := List.exists_cons_of_ne_nil (List.ne_nil_of_length_eq_add_one hlen)
    have hmem := frame.mem_of_isSome hp (Option.isSome_of_eq_some hdir)
    exact hshallow n hmem ⟨r, names, Nat.succ.inj hlen, by rwa [List.append_assoc]⟩
  | cons name rest ih =>
    intro copied files done tnames v k hp htidy hq hperm hsame hshallow hroom
    have hi : (done ++ name :: rest)[done.length]? = some name := by
      rw [List.getElem?_append_right (Nat.le_refl _), Nat.sub_self, List.getElem?_cons_zero]
    have hpairs := (htidy [] _ (by rwa [List.append_nil])).2
    have hfree : ∀ n ∈ tnames, ¬T.clash n name := fun n hn =>
      (List.pairwise_append.mp hpairs).2.2 n (hperm.mem_iff.mp hn) name List.mem_cons_self
    rw [List.map_cons, List.sum_cons, ← Nat.add_assoc, Nat.add_right_comm] at hroom
    rcases entry_copied frame law hlevels (i := done.length) hlevel hp htidy hapart hi hq hfree hroom with
      ⟨hchild, v₁, hleads, hroom₁, hentry⟩ | ⟨hdeep, hfails⟩
    · have hsource (r : List Str) : T.node v₁ (p ++ r) = T.node v (p ++ r) := (source_spared hapart hentry.spares r).node
      have hbelow (n : Str) (r : List Str) : T.node v₁ ((p ++ [n]) ++ r) = T.node v ((p ++ [n]) ++ r) := by
        rw [List.append_assoc, hsource]
      have htotal (directory : Nat) (file : List UInt8 → Nat) (n : Str) :
          T.total directory file v₁ (levels + 1) (p ++ [n]) = T.total directory file v (levels + 1) (p ++ [n]) :=
        total_congr directory file (hbelow n) (levels + 1)
      obtain ⟨tnames', hnames', hperm'⟩ := hentry.listed
      have hp₁ : T.node v₁ p = some (.directory ((done ++ [name]) ++ rest)) := by
        have hhere := hsource []
        rw [List.append_nil] at hhere
        rw [hhere, hp, List.append_assoc]
        rfl
      have hperm₁ : tnames'.Perm (done ++ [name]) :=
        (hperm'.trans (hperm.cons name)).trans (List.perm_append_singleton name done).symm
      have hsame₁ : ∀ n ∈ done ++ [name], T.SameTree v₁ (p ++ [n]) (q ++ [n]) := by
        intro n hn
        rcases List.mem_append.mp hn with hn | hn
        · have hne : n ≠ name := fun heq => hfree n (hperm.mem_iff.mpr hn) (heq ▸ law.clash_self n)
          refine sameTree_congr (hbelow n) (fun r => (hentry.spares _ (fun heq => ?_) fun hprefix => ?_).node) (hsame n hn)
          · have hlen := congrArg List.length heq
            rw [List.length_append, List.length_append, List.length_singleton] at hlen
            omega
          · rw [List.append_assoc, List.prefix_append_right_inj] at hprefix
            exact hne (List.cons_prefix_cons.mp hprefix).1.symm
        · rw [List.mem_singleton.mp hn]
          exact hentry.same
      have hshallow₁ : ∀ n ∈ done ++ [name], ¬T.Nests v₁ (p ++ [n]) levels := by
        intro n hn hdeep
        have hdeep' := nests_congr (hbelow n) hdeep
        rcases List.mem_append.mp hn with hn | hn
        · exact hshallow n hn hdeep'
        · rw [List.mem_singleton.mp hn] at hdeep'
          exact hchild hdeep'
      have hroom₁' : T.room v₁ (k + (rest.map fun n => T.calls v₁ (levels + 1) (p ++ [n])).sum) := by
        unfold calls at hroom₁ ⊢
        simp only [htotal]
        exact hroom₁
      have hnests : T.Nests v₁ p (levels + 1) ↔ T.Nests v p (levels + 1) :=
        ⟨nests_congr hsource, nests_congr fun r => (hsource r).symm⟩
      have hrest := ih (copied + T.octets v (levels + 1) (p ++ [name])) (files + T.fileCount v (levels + 1) (p ++ [name])) hp₁
        (tidy_congr hsource htidy) hnames' hperm₁ hsame₁ hshallow₁ hroom₁'
      rw [List.length_append, List.length_singleton, hnests] at hrest
      unfold octets fileCount at hrest hleads ⊢
      simp only [htotal] at hrest
      rcases hrest with ⟨hshallow', v', hleads', hroom', htree, hspares⟩ | ⟨hdeep, hfails⟩
      · refine .inl ⟨hshallow', v', ?_, hroom', htree, fun r hr => ?_⟩
        · rw [List.map_cons, List.sum_cons, ← Nat.add_assoc, List.map_cons, List.sum_cons, ← Nat.add_assoc]
          exact hleads.trans hleads'
        · refine (hentry.spares r (fun heq => hr (heq ▸ List.prefix_refl q)) fun hbelow => ?_).trans (hspares r hr)
          exact hr ((List.prefix_append q [name]).trans hbelow)
      · exact .inr ⟨hdeep, hfails.after hleads⟩
    · exact .inr ⟨nests_of_child hdeep, hfails⟩

/-- A directory is copied with all that is below it, unless that nests too deep. -/
theorem copies_directory (levels : Nat) : CopiesDirectory T levels := by
  induction levels with
  | zero =>
    intro outer copied files p q names v k hlevel hp htidy hapart hq hroom
    have hp' : T.node v p = some (.directory ([] ++ names)) := hp
    exact entries_copied frame law (fun l heq => (Nat.succ_ne_zero l heq.symm).elim) outer hlevel hapart names copied files hp'
      htidy hq (.refl _) (fun n hn => (List.not_mem_nil hn).elim) (fun n hn => (List.not_mem_nil hn).elim) hroom
  | succ l ih =>
    intro outer copied files p q names v k hlevel hp htidy hapart hq hroom
    have hlevels : ∀ l', l + 1 = l' + 1 → CopiesDirectory T l' := fun l' heq => Nat.succ.inj heq ▸ ih
    have hp' : T.node v p = some (.directory ([] ++ names)) := hp
    exact entries_copied frame law hlevels outer hlevel hapart names copied files hp' htidy hq (.refl _)
      (fun n hn => (List.not_mem_nil hn).elim) (fun n hn => (List.not_mem_nil hn).elim) hroom

end

/-- A path through a directory is inside it, as the browser compares them. -/
theorem inside_below {path ancestor : List String} (h : components ancestor <+: components path) :
    inside path ancestor = true := by
  have hpath : ancestor <+: path := by
    have htake := List.prefix_iff_eq_take.mp h
    unfold components at htake
    rw [← List.map_take, List.length_map] at htake
    exact List.prefix_iff_eq_take.mpr (List.map_injective_iff.mpr (fun _ _ heq => String.toList_injective heq) htake)
  obtain ⟨rest, rfl⟩ := hpath
  unfold inside
  rw [Bool.and_eq_true, decide_eq_true_eq, List.length_append]
  refine ⟨Nat.le_add_right _ _, ?_⟩
  clear h
  induction ancestor with
  | nil =>
    rw [List.zip_nil_right]
    rfl
  | cons component ancestor ih =>
    rw [List.cons_append, List.zip_cons_cons, List.all_cons, decide_eq_true rfl, Bool.true_and]
    exact ih

/-- An attempt that succeeds. -/
theorem attempt_ok {α : Type} {m : FatM V α} {a : α} {v v' : V} (h : m v = .ok a v') : attempt m v = .ok (some a) v' := by
  unfold attempt
  rw [h]

/-- Pasting a directory outside of itself, where its name is free, makes the copy and a job for what is below it. -/
theorem paste_ok (frame : T.Contained) (law : T.Succeeds) {fm : FileManager} {clip : Clipboard} {v : V} {k : Nat}
    {names cwdNames : List Str} (hclip : fm.clipboard = some clip) (hcopy : clip.moving = false) (hdirectory : clip.directory = true)
    (houtside : inside fm.cwd (clip.parent ++ [clip.name]) = false) (hroom : T.room v (k + 1))
    (hsource : T.node v (components (clip.parent ++ [clip.name])) = some (.directory names)) (hplain : T.plain clip.name.toList)
    (hcwd : T.node v (components fm.cwd) = some (.directory cwdNames)) (hfree : ∀ n ∈ cwdNames, ¬T.clash n clip.name.toList) :
    ∃ v', fm.pasteOn F v = .ok (.copying
        ⟨[⟨components (clip.parent ++ [clip.name]), components fm.cwd ++ [clip.name.toList], 0⟩], none, 0, 0⟩) v' ∧ T.room v' k ∧
      T.node v' (components fm.cwd ++ [clip.name.toList]) = some (.directory []) ∧
      ∀ r, r ≠ components fm.cwd → r ≠ components fm.cwd ++ [clip.name.toList] → T.Spares v v' r := by
  have hpath : components (clip.parent ++ [clip.name]) = components clip.parent ++ [clip.name.toList] := List.map_append
  rw [hpath] at hsource ⊢
  have hthere := Option.isSome_of_eq_some hsource
  obtain ⟨parentNames, hparent, hmem⟩ := frame.closed v _ _ hthere
  have hsame : fm.cwd ≠ clip.parent := fun heq => by
    rw [heq, hparent] at hcwd
    cases hcwd
    exact hfree _ hmem (law.clash_self _)
  obtain ⟨parent, hopen, hopens⟩ := law.openDirPath_ok frame hroom hparent
  obtain ⟨r, hfind⟩ := law.find v _ parent _ _ hroom hopens hthere
  obtain ⟨source, rfl, hstands⟩ := frame.found v parent _ _ r v hopens hthere hfind
  have hfind_in : F.findIn (components clip.parent) clip.name.toList v = .ok (some source) v := (bind_of_ok hopen).trans hfind
  have hkind : source.isDirectory = true := (frame.stood v source _ hstands).mpr ⟨names, hsource⟩
  obtain ⟨target, hopen', hopens'⟩ := law.openDirPath_ok frame hroom hcwd
  have hfind' := law.find_free v _ target _ _ _ hroom hopens' hcwd hfree
  obtain ⟨v', cwdNames', hcreate, hroom', hnew, _, _⟩ := law.createDir v k target _ _ _ hroom hopens' hcwd hplain hfree
  have hadds := ((frame.createDir v target _ _ hopens').ok hcreate).1
  refine ⟨v', ?_, hroom', hnew, hadds.spares⟩
  unfold FileManager.pasteOn
  rw [hclip]
  dsimp only
  rw [if_neg fun h => Bool.false_ne_true (houtside.symm.trans h.2), if_neg hsame, bind_of_ok (attempt_ok hfind_in)]
  dsimp only
  rw [if_neg (not_not.mpr (hkind.trans hdirectory.symm)), bind_of_ok (attempt_ok hopen')]
  dsimp only
  rw [bind_of_ok (attempt_ok hfind')]
  dsimp only
  rw [if_neg fun h => Bool.false_ne_true (hcopy.symm.trans h), if_pos hdirectory, bind_of_ok (attempt_ok hcreate), hpath]
  rfl

end CopyTreeAux

open TreeView

/-- While the card works and has room, pasting a directory outside of itself, where its name is free, starts a copy that ends. If
no directory stands as many levels below the source as the stack holds, the copy is complete: it is the source, with the octets and
files it counts, and what is not below it is as before. If one does, the copy fails. -/
theorem copy_is_source {T : TreeView F} (frame : T.Contained) (law : T.Succeeds) {fm : FileManager} {clip : Clipboard} {v₀ : V}
    {k : Nat} {names cwdNames : List Str} (hclip : fm.clipboard = some clip) (hcopy : clip.moving = false)
    (hdirectory : clip.directory = true) (houtside : inside fm.cwd (clip.parent ++ [clip.name]) = false)
    (hsource : T.node v₀ (components (clip.parent ++ [clip.name])) = some (.directory names))
    (htidy : T.Tidy v₀ (components (clip.parent ++ [clip.name]))) (hplain : T.plain clip.name.toList)
    (hcwd : T.node v₀ (components fm.cwd) = some (.directory cwdNames)) (hfree : ∀ n ∈ cwdNames, ¬T.clash n clip.name.toList)
    (hroom : T.room v₀ (k + T.calls v₀ (MAX_COPY_DEPTH + 1) (components (clip.parent ++ [clip.name])))) :
    ∃ job v₁, fm.pasteOn F v₀ = .ok (.copying job) v₁ ∧
      (¬T.Nests v₀ (components (clip.parent ++ [clip.name])) MAX_COPY_DEPTH →
        ∃ n v, polls CopyJob.step n job v₁ = .ok ({
            copied := T.octets v₀ (MAX_COPY_DEPTH + 1) (components (clip.parent ++ [clip.name]))
            files := T.fileCount v₀ (MAX_COPY_DEPTH + 1) (components (clip.parent ++ [clip.name])) }, true) v ∧
          T.SameTree v (components (clip.parent ++ [clip.name])) (components fm.cwd ++ [clip.name.toList]) ∧
          ∀ p, p ≠ components fm.cwd → ¬components fm.cwd ++ [clip.name.toList] <+: p → T.node v p = T.node v₀ p) ∧
      (T.Nests v₀ (components (clip.parent ++ [clip.name])) MAX_COPY_DEPTH →
        ∃ n e v, polls CopyJob.step n job v₁ = .error e v) := by
  have hnew := none_of_free frame law hcwd hfree
  have hcalls : T.calls v₀ (MAX_COPY_DEPTH + 1) (components (clip.parent ++ [clip.name])) =
      1 + (names.map fun n => T.calls v₀ MAX_COPY_DEPTH (components (clip.parent ++ [clip.name]) ++ [n])).sum := by
    unfold calls
    rw [total, hsource]
  rw [hcalls, Nat.add_comm 1, ← Nat.add_assoc] at hroom
  obtain ⟨v₁, hpaste, hroom₁, hmade, hspares⟩ :=
    CopyTreeAux.paste_ok frame law hclip hcopy hdirectory houtside hroom hsource hplain hcwd hfree
  unfold octets fileCount
  rw [total, hsource, total, hsource]
  dsimp only
  generalize hp : components (clip.parent ++ [clip.name]) = p at *
  generalize hcwd_path : components fm.cwd = cwd at *
  generalize clip.name.toList = name at *
  have hnot : ¬p <+: cwd := fun h => by
    rw [← hp, ← hcwd_path] at h
    exact Bool.false_ne_true (houtside.symm.trans (CopyTreeAux.inside_below h))
  have hapart : Apart p (cwd ++ [name]) := by
    refine ⟨fun h => ?_, fun h => ?_⟩
    · rcases List.prefix_concat_iff.mp h with heq | h
      · rw [heq, hnew] at hsource
        cases hsource
      · exact hnot h
    · rw [CopyJobAux.none_below frame hnew h] at hsource
      cases hsource
  have hbelow (r : List Str) : T.node v₁ (p ++ r) = T.node v₀ (p ++ r) := by
    refine (hspares _ (fun heq => hnot (heq ▸ List.prefix_append p r)) fun heq => ?_).node
    exact hapart.1 (heq ▸ List.prefix_append p r)
  have hsource₁ : T.node v₁ p = some (.directory names) := by
    have hhere := hbelow []
    rw [List.append_nil] at hhere
    rw [hhere, hsource]
  have htotal (directory : Nat) (file : List UInt8 → Nat) (n : Str) :
      T.total directory file v₁ MAX_COPY_DEPTH (p ++ [n]) = T.total directory file v₀ MAX_COPY_DEPTH (p ++ [n]) :=
    CopyTreeAux.total_congr directory file (fun r => by rw [List.append_assoc, hbelow]) MAX_COPY_DEPTH
  have hroom₁' : T.room v₁ (k + (names.map fun n => T.calls v₁ MAX_COPY_DEPTH (p ++ [n])).sum) := by
    unfold calls
    simp only [htotal]
    exact hroom₁
  have hnests : T.Nests v₁ p MAX_COPY_DEPTH ↔ T.Nests v₀ p MAX_COPY_DEPTH :=
    ⟨CopyTreeAux.nests_congr hbelow, CopyTreeAux.nests_congr fun r => (hbelow r).symm⟩
  have hcopies := CopyTreeAux.copies_directory frame law 11 [] 0 0 rfl hsource₁ (CopyTreeAux.tidy_congr hbelow htidy) hapart hmade
    hroom₁'
  unfold octets fileCount at hcopies
  rw [show 11 + 1 = MAX_COPY_DEPTH from rfl, hnests] at hcopies
  simp only [htotal] at hcopies
  refine ⟨_, v₁, hpaste, fun hshallow => ?_, fun hdeep => ?_⟩
  · obtain ⟨_, v, hleads, _, htree, hrest⟩ | ⟨hdeep, _⟩ := hcopies
    swap
    · exact absurd hdeep hshallow
    obtain ⟨n, hdone⟩ := hleads.done rfl
    refine ⟨n, v, hdone, htree, fun r hr hout => ?_⟩
    have hne : r ≠ cwd ++ [name] := fun heq => hout (heq ▸ List.prefix_refl _)
    rw [(hrest r hout).node, (hspares r hr hne).node]
  · obtain ⟨hshallow, _⟩ | ⟨_, job, v, hleads, e, v', herror⟩ := hcopies
    · exact absurd hdeep hshallow
    · obtain ⟨n, hfails⟩ := hleads.fails herror
      exact ⟨n, e, v', hfails⟩

theorem copy_is_source_sample :
    ∃ job v₁, TreeRam.browser.pasteOn TreeRam.fat TreeRam.sample = .ok (.copying job) v₁ ∧
      (¬TreeRam.view.Nests TreeRam.sample ["src".toList] MAX_COPY_DEPTH →
        ∃ n v, polls CopyJob.step n job v₁ = .ok ({
            copied := TreeRam.view.octets TreeRam.sample (MAX_COPY_DEPTH + 1) ["src".toList]
            files := TreeRam.view.fileCount TreeRam.sample (MAX_COPY_DEPTH + 1) ["src".toList] }, true) v ∧
          TreeRam.view.SameTree v ["src".toList] ["dst".toList, "src".toList] ∧
          ∀ p, p ≠ ["dst".toList] → ¬["dst".toList, "src".toList] <+: p → TreeRam.view.node v p = TreeRam.view.node TreeRam.sample p) ∧
      (TreeRam.view.Nests TreeRam.sample ["src".toList] MAX_COPY_DEPTH →
        ∃ n e v, polls CopyJob.step n job v₁ = .error e v) := by
  have hclip : TreeRam.browser.clipboard = some TreeRam.clip := rfl
  have hsource : TreeRam.view.node TreeRam.sample ["src".toList] = some (.directory ["d".toList, "a".toList]) := rfl
  have hcwd : TreeRam.view.node TreeRam.sample ["dst".toList] = some (.directory []) := rfl
  have houtside : inside TreeRam.browser.cwd (TreeRam.clip.parent ++ [TreeRam.clip.name]) = false := by decide +kernel
  have hplain : TreeRam.Plain "src".toList := by decide
  have hroom : TreeRam.view.room TreeRam.sample (0 + TreeRam.view.calls TreeRam.sample (MAX_COPY_DEPTH + 1) ["src".toList]) := trivial
  exact copy_is_source TreeRam.contained TreeRam.succeeds hclip rfl rfl houtside hsource (TreeRam.tidy TreeRam.sample _) hplain hcwd
    (fun _ hn => (List.not_mem_nil hn).elim) hroom

end Ratputer
