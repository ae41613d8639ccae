import Ratputer.Lemmas.CopyJob
import Ratputer.TreeRam

/-!
# Copying files and directories

Whatever call fails, a copy leaves every entry that was there before as it was. While the card works and has room, it ends, and the
copy is the source: its directories, names and contents, unless the source nests too deep for it.
-/

namespace Ratputer

open Effect

variable {V : Type} {F : CopyFat V} {T : TreeView F}

/-! ## What was there stays -/

/-- Every entry that was there is as it was, but for a directory that may have got an entry of the name. -/
structure Intact (T : TreeView F) (v₀ v : V) (parent : List Str) (name : Str) : Prop where
  node : ∀ p, (T.node v₀ p).isSome → p ≠ parent → T.node v p = T.node v₀ p
  listed : ∀ names, T.node v₀ parent = some (.directory names) →
    ∃ names', T.node v parent = some (.directory names') ∧ names ⊆ names' ∧ names' ⊆ name :: names

/-- A copy job that works below a new entry of a directory. -/
structure CopyJob.Within (T : TreeView F) (v₀ : V) (parent : List Str) (name : Str) (job : CopyJob F) (v : V) : Prop where
  intact : Intact T v₀ v parent name
  directories : ∀ frame ∈ job.directories, parent ++ [name] <+: frame.target ∧ ∃ names, T.node v frame.target = some (.directory names)
  file : ∀ file, job.file = some file → parent ++ [name] <+: file.target ++ [file.name] ∧
    (∃ names, T.node v file.target = some (.directory names)) ∧
    (file.started = true → ∃ content, T.node v (file.target ++ [file.name]) = some (.file content))

namespace CopyJobAux

variable {v₀ v v' : V} {parent p : List Str} {name n : Str}

theorem intact_refl : Intact T v₀ v₀ parent name :=
  ⟨fun _ _ _ => rfl, fun names hnames => ⟨names, hnames, List.Subset.refl _, List.subset_cons_self _ _⟩⟩

/-- What lies below an entry that was not there was not there. -/
theorem none_below (frame : T.Contained) (hnew : T.node v₀ (parent ++ [name]) = none) (hp : parent ++ [name] <+: p) :
    T.node v₀ p = none := by
  obtain ⟨r, rfl⟩ := hp
  by_contra hthere
  have habove := frame.isSome_of_append (Option.isSome_iff_ne_none.mpr hthere)
  rw [hnew] at habove
  cases habove

/-- A change of an entry below the new one, or of the new one itself, leaves the others as they were. -/
theorem intact_adds (frame : T.Contained) (hnew : T.node v₀ (parent ++ [name]) = none) (h : Intact T v₀ v parent name)
    (hadds : T.Adds v v' p n) (hbelow : parent ++ [name] <+: p ++ [n]) : Intact T v₀ v' parent name := by
  have hentry {q : List Str} (hq : (T.node v₀ q).isSome) : q ≠ p ++ [n] := by
    rintro rfl
    rw [none_below frame hnew hbelow] at hq
    cases hq
  rcases List.prefix_concat_iff.mp hbelow with htop | hp
  · -- the entry is the new one
    obtain ⟨rfl, hname⟩ := List.append_inj' htop rfl
    obtain rfl : name = n := List.singleton_inj.mp hname
    refine ⟨fun q hq hparent => ?_, fun names hnames => ?_⟩
    · rw [(hadds.spares q hparent (hentry hq)).node, h.node q hq hparent]
    · obtain ⟨names', hnames', hsub, hsup⟩ := h.listed names hnames
      obtain ⟨names'', hnames'', hsub', hsup'⟩ := hadds.listed names' hnames'
      exact ⟨names'', hnames'', List.Subset.trans hsub hsub',
        List.Subset.trans hsup' (List.cons_subset.mpr ⟨List.mem_cons_self, hsup⟩)⟩
  · -- the entry is of a directory that was not there
    have hspared {q : List Str} (hq : (T.node v₀ q).isSome) : T.node v' q = T.node v q := by
      refine (hadds.spares q ?_ (hentry hq)).node
      rintro rfl
      rw [none_below frame hnew hp] at hq
      cases hq
    refine ⟨fun q hq hparent => by rw [hspared hq, h.node q hq hparent], fun names hnames => ?_⟩
    obtain ⟨names', hnames', hlists⟩ := h.listed names hnames
    exact ⟨names', by rw [hspared (Option.isSome_of_eq_some hnames), hnames'], hlists⟩

/-- A directory stays one when an entry of it, or of another directory, changes that was none. -/
theorem directory_adds (hadds : T.Adds v v' p n) {q : List Str} {names : List Str} (hq : T.node v q = some (.directory names))
    (hentry : ∀ names, T.node v (p ++ [n]) ≠ some (.directory names)) : ∃ names', T.node v' q = some (.directory names') := by
  by_cases hp : q = p
  · subst hp
    obtain ⟨names', hnames', _⟩ := hadds.listed names hq
    exact ⟨names', hnames'⟩
  · refine ⟨names, ?_⟩
    rw [(hadds.spares q hp fun heq => hentry names (heq ▸ hq)).node, hq]

theorem readOnly_itemAt (frame : T.Contained) (path : List Str) (index : Nat) : TreeView.ReadOnly (itemAt F path index) := by
  intro v
  unfold itemAt
  refine (frame.readOnly_openDirPath path).bind_ends (fun dir _ => ?_) fun _ => rfl
  refine (frame.entries dir).bind_ends (fun records _ => ?_) fun _ => rfl
  split
  · exact ends_pure rfl
  · exact ends_throw rfl

/-- A poll on the file keeps the job below the new entry. -/
theorem ends_stepFile (frame : T.Contained) (hnew : T.node v₀ (parent ++ [name]) = none) {job : CopyJob F} {file : FileCopy F}
    (h : job.Within T v₀ parent name v) (hfile : job.file = some file) :
    Ends (job.stepFile file) v (fun r v' => r.1.Within T v₀ parent name v') fun _ v' => Intact T v₀ v' parent name := by
  obtain ⟨hbelow, ⟨names, htarget⟩, hstarted⟩ := h.file file hfile
  unfold CopyJob.stepFile
  refine ends_bind ((frame.ends_chunk (Option.isSome_of_eq_some htarget) hstarted).mono ?_ fun _ v' hadds =>
    intact_adds frame hnew h.intact hadds hbelow)
  rintro ⟨file', count⟩ v' ⟨hadds, hsame, hname, hcontent, hbefore⟩
  have hdirectories : ∀ fr ∈ job.directories,
      parent ++ [name] <+: fr.target ∧ ∃ names, T.node v' fr.target = some (.directory names) := by
    intro fr hfr
    obtain ⟨hfr_below, _, hnames⟩ := h.directories fr hfr
    exact ⟨hfr_below, directory_adds hadds hnames hbefore⟩
  have hintact := intact_adds frame hnew h.intact hadds hbelow
  dsimp only at hsame hname hcontent ⊢
  refine ends_pure ?_
  split
  · exact ⟨hintact, hdirectories, nofun⟩
  · refine ⟨hintact, hdirectories, fun file'' heq => ?_⟩
    obtain rfl := Option.some.inj heq
    rw [hsame, hname]
    exact ⟨hbelow, directory_adds hadds htarget hbefore, fun _ => hcontent⟩

/-- A poll on a directory keeps the job below the new entry. -/
theorem ends_stepDirectory (frame : T.Contained) (hnew : T.node v₀ (parent ++ [name]) = none) {job : CopyJob F}
    {fr : DirectoryCopy} {outer : List DirectoryCopy} (h : job.Within T v₀ parent name v) (hfile : job.file = none)
    (hdirs : job.directories = fr :: outer) :
    Ends (job.stepDirectory fr outer) v (fun r v' => r.1.Within T v₀ parent name v') fun _ v' => Intact T v₀ v' parent name := by
  obtain ⟨hbelow, names, htarget⟩ := h.directories fr (by rw [hdirs]; exact List.mem_cons_self)
  have houter : ∀ fr' ∈ outer, parent ++ [name] <+: fr'.target ∧ ∃ names, T.node v fr'.target = some (.directory names) :=
    fun fr' hfr' => h.directories fr' (by rw [hdirs]; exact List.mem_cons_of_mem _ hfr')
  have hintact (e : FatError) : (fun (_ : FatError) v' => Intact T v₀ v' parent name) e v := h.intact
  unfold CopyJob.stepDirectory
  refine (readOnly_itemAt frame fr.source fr.next).bind_ends (fun item _ => ?_) hintact
  cases item with
  | none => exact ends_pure ⟨h.intact, houter, fun file heq => h.file file heq⟩
  | some item =>
    dsimp only
    split
    · refine (TreeView.readOnly_require _).bind_ends (fun _ _ => ?_) hintact
      refine ends_bind ((frame.ends_openDirPath (Option.isSome_of_eq_some htarget)).mono ?_ fun _ v' hv => hv ▸ h.intact)
      rintro target _ ⟨rfl, hopens⟩
      refine ends_bind ((frame.ends_requireFree hopens item.name.toList).mono ?_ fun _ v' hv => hv ▸ h.intact)
      rintro _ _ ⟨rfl, hfree⟩
      have hentry : parent ++ [name] <+: fr.target ++ [item.name.toList] := hbelow.trans (List.prefix_append _ _)
      refine ends_bind ((frame.createDir _ target fr.target item.name.toList hopens).mono ?_ fun _ v' hadds =>
        intact_adds frame hnew h.intact hadds hentry)
      rintro _ v' ⟨hadds, hcreated⟩
      have hbefore : ∀ names, T.node _ (fr.target ++ [item.name.toList]) ≠ some (.directory names) := fun _ heq =>
        Option.some_ne_none _ (heq.symm.trans hfree)
      refine ends_pure ⟨intact_adds frame hnew h.intact hadds hentry, fun fr' hfr' => ?_,
        fun file heq => (Option.some_ne_none file (heq.symm.trans hfile)).elim⟩
      rcases List.mem_cons.mp hfr' with rfl | hfr'
      · exact ⟨hentry, hcreated⟩
      · rcases List.mem_cons.mp hfr' with rfl | hfr'
        · exact ⟨hbelow, directory_adds hadds htarget hbefore⟩
        · obtain ⟨hbelow', _, hnames⟩ := houter fr' hfr'
          exact ⟨hbelow', directory_adds hadds hnames hbefore⟩
    · refine ends_pure ⟨h.intact, fun fr' hfr' => ?_, fun file heq => ?_⟩
      · rcases List.mem_cons.mp hfr' with rfl | hfr'
        · exact ⟨hbelow, names, htarget⟩
        · exact houter fr' hfr'
      · obtain rfl := Option.some.inj heq
        exact ⟨hbelow.trans (List.prefix_append _ _), ⟨names, htarget⟩, fun h => absurd h Bool.false_ne_true⟩

/-- A poll keeps the job below the new entry. -/
theorem ends_step (frame : T.Contained) (hnew : T.node v₀ (parent ++ [name]) = none) (job : CopyJob F) (v : V)
    (h : job.Within T v₀ parent name v) :
    Ends job.step v (fun r v' => r.1.Within T v₀ parent name v') fun _ v' => Intact T v₀ v' parent name := by
  unfold CopyJob.step
  cases hfile : job.file with
  | some file => exact ends_stepFile frame hnew h hfile
  | none =>
    cases hdirs : job.directories with
    | nil => exact ends_pure h
    | cons fr outer => exact ends_stepDirectory frame hnew h hfile hdirs

theorem ends_attempt {α : Type} {m : FatM V α} {Q : α → V → Prop} {E : FatError → V → Prop} {P : Option α → V → Prop}
    (h : Ends m v Q E) (hQ : ∀ a v', Q a v' → P (some a) v') (hE : ∀ e v', E e v' → P none v') :
    Ends (attempt m) v P fun _ _ => False := by
  unfold Ends attempt
  cases hrun : m v with
  | ok a v' => exact hQ a v' (h.ok hrun)
  | error e v' => exact hE e v' (h.error hrun)

/-- An attempt at a call that leaves the volume alone leaves it alone. -/
theorem attempt_bind {α β : Type} {m : FatM V α} {f : Option α → FatM V β} {Q : β → V → Prop} (h : TreeView.ReadOnly m)
    (hf : ∀ r, (∀ a, r = some a → m v = .ok a v) → Ends (f r) v Q fun _ _ => False) :
    Ends (attempt m >>= f) v Q fun _ _ => False := by
  have hcall := h v
  refine ends_bind ?_
  unfold Ends attempt
  cases hrun : m v with
  | ok a v' =>
    obtain rfl : v' = v := hcall.ok hrun
    exact hf (some a) fun b heq => by rw [hrun, Option.some.inj heq]
  | error e v' =>
    obtain rfl : v' = v := hcall.error hrun
    exact hf none nofun

/-- What pasting leaves: everything as it was, or a copy job below an entry that is new. -/
theorem ends_paste (frame : T.Contained) {fm : FileManager} {clip : Clipboard} (hclip : fm.clipboard = some clip)
    (hcopy : clip.moving = false) {names : List Str} (hcwd : T.node v₀ (components fm.cwd) = some (.directory names)) :
    Ends (fm.pasteOn F) v₀
      (fun r v => Intact T v₀ v (components fm.cwd) clip.name.toList ∧
        ∀ job, r = .copying job → T.node v₀ (components fm.cwd ++ [clip.name.toList]) = none ∧
          job.Within T v₀ (components fm.cwd) clip.name.toList v)
      fun _ _ => False := by
  have hrefused (status : String) : Ends (pure (.refused status) : FatM V (Pasted F)) v₀
      (fun r v => Intact T v₀ v (components fm.cwd) clip.name.toList ∧
        ∀ job, r = .copying job → T.node v₀ (components fm.cwd ++ [clip.name.toList]) = none ∧
          job.Within T v₀ (components fm.cwd) clip.name.toList v)
      fun _ _ => False := ends_pure ⟨intact_refl, nofun⟩
  unfold FileManager.pasteOn
  rw [hclip]
  dsimp only
  split
  · exact hrefused _
  split
  · exact hrefused _
  have hfind_in : TreeView.ReadOnly (F.findIn (components clip.parent) clip.name.toList) := fun v =>
    (frame.readOnly_openDirPath _).bind_ends (fun dir _ => frame.find dir _ v) fun _ => rfl
  refine attempt_bind hfind_in fun r _ => ?_
  split
  swap
  · exact hrefused _
  split
  · exact hrefused _
  refine attempt_bind (frame.readOnly_openDirPath _) fun r hr => ?_
  split
  swap
  · exact hrefused _
  rename_i target
  have hopens := ((frame.ends_openDirPath (Option.isSome_of_eq_some hcwd)).ok (hr target rfl)).2
  refine attempt_bind (frame.find target clip.name.toList) fun r hr => ?_
  split
  swap
  · exact hrefused _
  have hnew : T.node v₀ (components fm.cwd ++ [clip.name.toList]) = none := by
    by_contra hthere
    obtain ⟨entry, heq, _⟩ := frame.found v₀ target _ _ none v₀ hopens (Option.isSome_iff_ne_none.mpr hthere) (hr none rfl)
    nomatch heq
  rw [if_neg (by rw [hcopy]; decide)]
  split
  · -- a directory: its copy is made first
    refine ends_bind ((ends_attempt (frame.createDir v₀ target _ _ hopens) (P := fun r v =>
      T.Adds v₀ v (components fm.cwd) clip.name.toList ∧
        (r.isSome → ∃ names, T.node v (components fm.cwd ++ [clip.name.toList]) = some (.directory names)))
      (fun _ v h => ⟨h.1, fun _ => h.2⟩) fun _ v h => ⟨h, nofun⟩).mono ?_ fun _ _ h => h)
    rintro r v ⟨hadds, hcreated⟩
    have hintact : Intact T v₀ v (components fm.cwd) clip.name.toList :=
      intact_adds frame hnew intact_refl hadds (List.prefix_refl _)
    cases r with
    | none => exact ends_pure ⟨hintact, nofun⟩
    | some _ =>
      refine ends_pure ⟨hintact, fun job heq => ⟨hnew, ?_⟩⟩
      cases heq
      refine ⟨hintact, fun fr hfr => ?_, nofun⟩
      obtain rfl := List.mem_singleton.mp hfr
      exact ⟨List.prefix_refl _, hcreated rfl⟩
  · refine ends_pure ⟨intact_refl, fun job heq => ⟨hnew, ?_⟩⟩
    cases heq
    refine ⟨intact_refl, nofun, fun file heq => ?_⟩
    obtain rfl := Option.some.inj heq
    exact ⟨List.prefix_refl _, ⟨names, hcwd⟩, nofun⟩

end CopyJobAux

/-- Whatever the driver's calls come to, pasting a copy and polling it leaves every entry as it was that was there before: at
most the directory pasted into has a new entry, and only below that does anything change. -/
theorem copy_spares (frame : T.Contained) {v₀ : V} {fm : FileManager} {clip : Clipboard} (hclip : fm.clipboard = some clip)
    (hcopy : clip.moving = false) {names : List Str} (hcwd : T.node v₀ (components fm.cwd) = some (.directory names)) :
    Ends (fm.pasteOn F) v₀
      (fun r v₁ => Intact T v₀ v₁ (components fm.cwd) clip.name.toList ∧ ∀ job, r = .copying job → ∀ n,
        Ends (polls CopyJob.step n job) v₁ (fun _ v => Intact T v₀ v (components fm.cwd) clip.name.toList)
          fun _ v => Intact T v₀ v (components fm.cwd) clip.name.toList)
      fun _ _ => False := by
  refine (CopyJobAux.ends_paste frame hclip hcopy hcwd).mono ?_ fun _ _ h => h
  rintro r v₁ ⟨hintact, hjob⟩
  refine ⟨hintact, fun job heq n => ?_⟩
  obtain ⟨hnew, hwithin⟩ := hjob job heq
  have hrun := polls_invariant (fun job v => CopyJobAux.ends_step frame hnew job v) n hwithin
  exact hrun.mono (fun _ _ h => h.intact) fun _ _ h => h

theorem copy_spares_sample :
    Ends (TreeRam.browser.pasteOn TreeRam.fat) TreeRam.sample
      (fun r v₁ => Intact TreeRam.view TreeRam.sample v₁ ["dst".toList] "src".toList ∧ ∀ job, r = .copying job → ∀ n,
        Ends (polls CopyJob.step n job) v₁ (fun _ v => Intact TreeRam.view TreeRam.sample v ["dst".toList] "src".toList)
          fun _ v => Intact TreeRam.view TreeRam.sample v ["dst".toList] "src".toList)
      fun _ _ => False := by
  have hcwd : TreeRam.view.node TreeRam.sample (components TreeRam.browser.cwd) = some (.directory []) := rfl
  have hclip : TreeRam.browser.clipboard = some TreeRam.clip := rfl
  exact copy_spares TreeRam.contained hclip rfl hcwd

end Ratputer
