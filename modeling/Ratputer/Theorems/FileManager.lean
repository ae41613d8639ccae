import Ratputer.FileManager
import Ratputer.Lib.Octets

/-!
# What the browser shows

The label of a row has at most 28 characters and the whole size of a file, and is made without a panic unless a directory's name
is cut inside a character. Between two passes the selection lies in the page and in the viewport, so the highlighted row is the
entry that the next action names; and the pages of a directory that does not change are its entries, 24 at a time.
-/

namespace Ratputer

/-! ## Cutting a text -/

/-- The text has a character border at a number of octets. -/
def isCharBoundary : Str → Nat → Bool
  | _, 0 => true
  | [], _ + 1 => false
  | c :: rest, n + 1 => c.utf8Size ≤ n + 1 && isCharBoundary rest (n + 1 - c.utf8Size)

namespace LabelAux

theorem length_asBytes_cons (c : Char) (text : Str) : (asBytes (c :: text)).length = c.utf8Size + (asBytes text).length :=
  Utf8.length_encode_cons c text

theorem length_asBytes_append (a b : Str) : (asBytes (a ++ b)).length = (asBytes a).length + (asBytes b).length := by
  rw [asBytes, Utf8.encode_append, List.length_append]
  rfl

/-- A text cut to fewer octets than it has survives at a character border only. -/
theorem truncate_isSome {text : Str} {n : Nat} (h : n < (asBytes text).length) (suffix : Str) :
    (truncate (text ++ suffix) n).isSome = isCharBoundary text n := by
  induction text generalizing n with
  | nil => exact absurd h (Nat.not_lt_zero n)
  | cons c rest ih =>
    cases n with
    | zero => rfl
    | succ n =>
      rw [length_asBytes_cons] at h
      rw [List.cons_append, truncate, isCharBoundary]
      by_cases hc : c.utf8Size ≤ n + 1
      · rw [if_pos hc, Option.isSome_map, ih (by omega), decide_eq_true hc, Bool.true_and]
      · rw [if_neg hc, decide_eq_false hc, Bool.false_and]
        rfl

/-- A cut text has no more characters than octets were asked for. -/
theorem truncate_length_le {text cut : Str} {n : Nat} (h : truncate text n = some cut) : cut.length ≤ n := by
  induction text generalizing n cut with
  | nil => cases n <;> exact (Option.some.inj h) ▸ Nat.zero_le _
  | cons c rest ih =>
    cases n with
    | zero => exact (Option.some.inj h) ▸ Nat.le_refl _
    | succ n =>
      rw [truncate] at h
      split_ifs at h
      obtain ⟨tail, htail, rfl⟩ := Option.map_eq_some_iff.mp h
      have := ih htail
      have := c.utf8Size_pos
      rw [List.length_cons]
      omega

/-- A text of ASCII characters has an octet a character. -/
theorem length_asBytes_ascii {text : Str} (h : ∀ c ∈ text, c.utf8Size = 1) : (asBytes text).length = text.length := by
  induction text with
  | nil => rfl
  | cons c rest ih =>
    rw [length_asBytes_cons, h c List.mem_cons_self, ih fun d hd => h d (List.mem_cons_of_mem _ hd), List.length_cons,
      Nat.add_comm]

/-- A text of ASCII characters is cut anywhere. -/
theorem truncateAscii_eq {text : Str} (h : ∀ c ∈ text, c.utf8Size = 1) (n : Nat) : truncate text n = some (text.take n) := by
  induction text generalizing n with
  | nil => cases n <;> rfl
  | cons c rest ih =>
    cases n with
    | zero => rfl
    | succ n =>
      have hc := h c List.mem_cons_self
      rw [truncate, if_pos (by omega), hc, Nat.add_sub_cancel, ih (fun d hd => h d (List.mem_cons_of_mem _ hd)),
        List.take_succ_cons]
      rfl

theorem utf8Size_of_mem_truncateAscii {text : Str} {n : Nat} {c : Char} (h : c ∈ truncateAscii text n) : c.utf8Size = 1 := by
  obtain ⟨d, -, rfl⟩ := List.mem_map.mp h
  split_ifs with hd
  · have hval : d.val.toNat ≤ 0x7f := Nat.le_of_lt_succ hd
    rw [Char.utf8Size, if_pos (UInt32.le_iff_toNat_le.mpr hval)]
  · rfl

theorem length_truncateAscii_le (text : Str) (n : Nat) : (truncateAscii text n).length ≤ n := by
  rw [truncateAscii, List.length_map, List.length_take]
  exact Nat.min_le_left _ _

end LabelAux

/-! ## Row labels -/

/-- The row gets a label that fits it, with the whole size of a file. -/
def Labelled (item : Item) : Prop :=
  ∃ label, rowLabel item = some label ∧ label.length ≤ 28 ∧
    (item.directory = false → (' ' :: Nat.toDigits 10 item.size ++ ['B']) <:+ label)

/-- A directory's name is short, or has a character border where it is cut. -/
def CutsBetween (item : Item) : Prop :=
  item.directory = true → 26 < (asBytes item.name.toList).length → isCharBoundary item.name.toList 26 = true

namespace LabelAux

/-- The label of a file. -/
theorem labelled_file {item : Item} (hdir : item.directory = false) (hsize : item.size < 2 ^ 64) : Labelled item := by
  have hdigits := Octets.length_toDigits_le hsize
  obtain ⟨size, hsize⟩ : ∃ size, size = Nat.toDigits 10 item.size ++ ['B'] := ⟨_, rfl⟩
  have hlen : size.length = (Nat.toDigits 10 item.size).length + 1 := by rw [hsize, List.length_append]; rfl
  obtain ⟨short, hshort⟩ : ∃ short, short = truncateAscii item.name.toList (ROW_WIDTH - (size.length + 1)) := ⟨_, rfl⟩
  have hascii : ∀ c ∈ short, c.utf8Size = 1 := fun c hc => utf8Size_of_mem_truncateAscii (hshort ▸ hc)
  have hbudget : short.length ≤ ROW_WIDTH - (size.length + 1) := hshort ▸ length_truncateAscii_le _ _
  -- Both with and without the mark of a cut, the name keeps to its budget.
  have hname : ∃ name : Str, name.length ≤ short.length ∧ rowLabel item = some (name ++ ' ' :: size) := by
    rw [rowLabel]
    dsimp only
    rw [hdir, if_neg Bool.false_ne_true, ← hsize, ← hshort, length_asBytes_ascii hascii]
    split_ifs with hcut
    · refine ⟨short.take (short.length - 1) ++ ['~'], ?_, ?_⟩
      · rw [List.length_append, List.length_take, List.length_singleton]
        omega
      · rw [truncateAscii_eq hascii]
        rfl
    · exact ⟨short, le_rfl, rfl⟩
  obtain ⟨name, hle, hlabel⟩ := hname
  refine ⟨name ++ ' ' :: size, hlabel, ?_, fun _ => ?_⟩
  · rw [List.length_append, List.length_cons]
    simp only [ROW_WIDTH] at hbudget
    omega
  · rw [hsize]
    exact List.suffix_append name _

/-- The label of a directory. -/
theorem rowLabel_directory {item : Item} (hdir : item.directory = true) :
    rowLabel item = if 26 < (asBytes item.name.toList).length then
      (truncate (item.name.toList ++ [']']) 26).map fun cut => '[' :: cut ++ ['~'] else some ('[' :: item.name.toList ++ [']']) := by
  have hbytes : (asBytes ('[' :: item.name.toList ++ [']'])).length = (asBytes item.name.toList).length + 2 := by
    rw [List.cons_append, length_asBytes_cons, length_asBytes_append]
    have h1 : '['.utf8Size = 1 := rfl
    have h2 : (asBytes [']']).length = 1 := rfl
    omega
  rw [rowLabel]
  dsimp only
  rw [hdir, if_pos rfl, hbytes]
  by_cases h : 26 < (asBytes item.name.toList).length
  · have hcut : truncate ('[' :: (item.name.toList ++ [']'])) 27 = (truncate (item.name.toList ++ [']']) 26).map ('[' :: ·) := rfl
    rw [if_pos h, if_pos (show ROW_WIDTH < _ by unfold ROW_WIDTH; omega)]
    refine (congrArg (Option.map _) hcut).trans ?_
    rw [Option.map_map]
    rfl
  · rw [if_neg h, if_neg (show ¬ ROW_WIDTH < _ by unfold ROW_WIDTH; omega)]

/-- A directory that gets a label is cut at a border. -/
theorem cutsBetween_of_isSome {item : Item} (h : (rowLabel item).isSome) : CutsBetween item := by
  intro hdir hlong
  rw [rowLabel_directory hdir, if_pos hlong, Option.isSome_map] at h
  exact (truncate_isSome hlong [']']).symm.trans h

/-- A directory cut at a border is labelled. -/
theorem labelled_of_cutsBetween {item : Item} (hdir : item.directory = true) (h : CutsBetween item) : Labelled item := by
  have hlabel := rowLabel_directory hdir
  have hnofile : item.directory ≠ false := by rw [hdir]; decide
  by_cases hlong : 26 < (asBytes item.name.toList).length
  · have hsome := truncate_isSome hlong [']']
    rw [h hdir hlong] at hsome
    obtain ⟨cut, hcut⟩ := Option.isSome_iff_exists.mp hsome
    rw [if_pos hlong, hcut] at hlabel
    refine ⟨_, hlabel, ?_, fun hf => absurd hf hnofile⟩
    have := truncate_length_le hcut
    rw [List.length_append, List.length_cons, List.length_singleton]
    omega
  · rw [if_neg hlong] at hlabel
    refine ⟨_, hlabel, ?_, fun hf => absurd hf hnofile⟩
    have hchars : item.name.toList.length ≤ (asBytes item.name.toList).length := Utf8.length_le_length_encode _
    rw [List.length_append, List.length_cons, List.length_singleton]
    omega

/-- The rows are written exactly when each of them gets a label. -/
theorem mapM_isSome_iff {α β : Type} (f : α → Option β) (l : List α) : (l.mapM f).isSome ↔ ∀ a ∈ l, (f a).isSome := by
  induction l with
  | nil => simp
  | cons a l ih =>
    rw [List.mapM_cons, List.forall_mem_cons, ← ih]
    cases hf : f a with
    | none => simp
    | some b => cases l.mapM f <;> simp

end LabelAux

open LabelAux in
/-- A row is labelled if and only if it is a file's, or its name is not cut inside a character; and the browser shows a page
without a panic if and only if this holds of the rows in the viewport. -/
theorem labelled_iff (item : Item) (hitem : item.size < 2 ^ 64) (fm : FileManager)
    (hentries : ∀ item ∈ fm.entries, item.size < 2 ^ 64) :
    (Labelled item ↔ CutsBetween item) ∧ (fm.showUi.isSome ↔ ∀ item ∈ fm.scroll.rows, CutsBetween item) := by
  have hiff (item : Item) (hsize : item.size < 2 ^ 64) : Labelled item ↔ CutsBetween item := by
    constructor
    · rintro ⟨label, hlabel, -, -⟩
      exact cutsBetween_of_isSome (Option.isSome_iff_exists.mpr ⟨label, hlabel⟩)
    · intro h
      cases hdir : item.directory with
      | false => exact labelled_file hdir hsize
      | true => exact labelled_of_cutsBetween hdir h
  refine ⟨hiff item hitem, ?_⟩
  rw [FileManager.showUi, Option.isSome_map, mapM_isSome_iff]
  have hrows : ∀ item ∈ fm.scroll.rows, item.size < 2 ^ 64 := fun item hmem =>
    hentries item (List.mem_of_mem_drop (List.mem_of_mem_take hmem))
  constructor
  · exact fun h item hmem => cutsBetween_of_isSome (h item hmem)
  · intro h item hmem
    obtain ⟨label, hlabel, -, -⟩ := (hiff item (hrows item hmem)).mpr (h item hmem)
    exact Option.isSome_iff_exists.mpr ⟨label, hlabel⟩

/-- A name of two-octet letters behind one of a single octet. -/
def accented : Item := ⟨"a" ++ String.ofList (List.replicate 14 'é'), true, 0⟩

/-- Without the first letter the cut is at a border. -/
theorem labelled_iff_even : Labelled ⟨String.ofList (List.replicate 14 'é'), true, 0⟩ ↔
    CutsBetween ⟨String.ofList (List.replicate 14 'é'), true, 0⟩ :=
  (labelled_iff _ (by decide) {} nofun).1

/-- Browsing a directory that holds the name panics. -/
theorem accented_panics : ¬ Labelled accented ∧ FileManager.showUi { entries := [accented] } = none := by
  have hnone : rowLabel accented = none := by decide +kernel
  refine ⟨?_, by decide +kernel⟩
  rintro ⟨label, hlabel, -⟩
  rw [hnone] at hlabel
  nomatch hlabel

/-! ## Selection and viewport -/

namespace FileManager

/-- The selection is in the page, unless both are empty, and in the viewport, which lies in the page. -/
structure InPlace (fm : FileManager) : Prop where
  selected : fm.selected < fm.entries.length ∨ fm.selected = 0 ∧ fm.entries.length = 0
  first_le : fm.first ≤ fm.selected
  lt_first : fm.selected < fm.first + VISIBLE_ROWS
  viewport : fm.first ≤ fm.entries.length - VISIBLE_ROWS

/-- The part of it that `show` needs. -/
def Selects (fm : FileManager) : Prop := fm.selected < fm.entries.length ∨ fm.selected = 0 ∧ fm.entries.length = 0

/-- Whatever the viewport was, `show` places it. -/
theorem inPlace_scroll {fm : FileManager} (h : fm.Selects) : fm.scroll.InPlace := by
  obtain ⟨first, hfirst⟩ : ∃ first, first = if min fm.first fm.selected + 6 ≤ fm.selected then fm.selected + 1 - 6
      else min fm.first fm.selected := ⟨_, rfl⟩
  have hwindow : first ≤ fm.selected ∧ fm.selected < first + 6 := by
    rw [hfirst]
    split_ifs <;> omega
  have hscroll : fm.scroll.first = min first (fm.entries.length - 6) := by
    rw [hfirst]
    rfl
  unfold Selects at h
  refine ⟨h, ?_, ?_, ?_⟩
  · show fm.scroll.first ≤ fm.selected
    omega
  · show fm.selected < fm.scroll.first + 6
    omega
  · show fm.scroll.first ≤ fm.entries.length - 6
    omega

/-- A viewport in place stays where it is, so the calls of `show` within a key do what the last one does. -/
theorem scroll_of_inPlace {fm : FileManager} (h : fm.InPlace) : fm.scroll = fm := by
  obtain ⟨-, hle, hlt, hview⟩ := h
  have hfirst : fm.scroll.first = fm.first := by
    show min (if min fm.first fm.selected + VISIBLE_ROWS ≤ fm.selected then fm.selected + 1 - VISIBLE_ROWS
      else min fm.first fm.selected) (fm.entries.length - VISIBLE_ROWS) = fm.first
    rw [Nat.min_eq_left hle, if_neg (by omega), Nat.min_eq_left hview]
  have heta : fm.scroll = { fm with first := fm.scroll.first } := rfl
  rw [heta, hfirst]

/-- Reading the page clamps the selection. -/
theorem selects_reload (fm : FileManager) (F : FatAnswers) : (fm.reload F).Selects := by
  unfold Selects reload
  dsimp only
  omega

theorem selects_deletePrompt {fm : FileManager} (h : fm.Selects) (view : Nat) : (fm.deletePrompt view).1.Selects := by
  unfold deletePrompt
  cases fm.selectedItem with
  | none => exact h
  | some item => exact h

theorem selects_paste {fm : FileManager} (h : fm.Selects) (F : FatAnswers) : (fm.paste F).Selects := by
  unfold paste
  cases fm.clipboard with
  | none => exact h
  | some clip =>
    dsimp only
    split_ifs
    all_goals first
      | exact h
      | exact selects_reload _ F

theorem selects_applyAction {fm : FileManager} (h : fm.Selects) (F : FatAnswers) : (fm.applyAction F).1.Selects := by
  unfold applyAction
  split
  · cases fm.selectedItem with
    | none => exact h
    | some item => exact h
  · cases fm.selectedItem with
    | none => exact h
    | some item => exact h
  · exact selects_paste h F
  · cases fm.selectedItem with
    | none => exact h
    | some item => exact h
  · exact h
  · exact h
  · exact selects_deletePrompt h 10
  · exact h

/-- Keys of the list move the selection within the page, or read a page. -/
theorem selects_keyBrowse {fm : FileManager} (h : fm.Selects) (key : FmKey) (F : FatAnswers) : (fm.keyBrowse key F).1.Selects := by
  cases key with
  | up =>
    by_cases hup : 0 < fm.selected
    · simp only [keyBrowse, hup, if_true]
      unfold Selects at h ⊢
      dsimp only
      omega
    · simp only [keyBrowse, hup, if_false]
      exact h
  | down =>
    by_cases hdown : fm.selected + 1 < fm.entries.length
    · simp only [keyBrowse, hdown, if_true]
      exact .inl hdown
    · simp only [keyBrowse, hdown, if_false]
      exact h
  | left =>
    by_cases hleft : 0 < fm.page
    · simp only [keyBrowse, hleft, if_true]
      exact selects_reload _ F
    · simp only [keyBrowse, hleft, if_false]
      exact h
  | right =>
    by_cases hright : fm.more = true
    · simp only [keyBrowse, hright, if_true]
      exact selects_reload _ F
    · simp only [keyBrowse, hright, Bool.false_eq_true, if_false]
      exact h
  | enter =>
    unfold keyBrowse
    dsimp only
    cases fm.selectedItem with
    | none => exact h
    | some item =>
      dsimp only
      split
      · exact selects_reload _ F
      · exact h
  | back | backspace =>
    unfold keyBrowse
    dsimp only
    split
    · exact h
    · exact selects_reload _ F
  | delete => exact selects_deletePrompt h 10
  | tab => exact h
  | char c => exact h

theorem selects_keyActions {fm : FileManager} (h : fm.Selects) (key : FmKey) (F : FatAnswers) :
    (fm.keyActions key F).1.Selects := by
  cases key with
  | up | down | tab => exact h
  | enter => exact selects_applyAction h F
  | back | backspace | left | right | delete | char c => exact h

theorem selects_keyName {fm : FileManager} (h : fm.Selects) (key : FmKey) (F : FatAnswers) : (fm.keyName key F).1.Selects := by
  cases key with
  | char c =>
    unfold keyName
    dsimp only
    split
    · exact h
    · exact h
  | backspace => exact h
  | enter =>
    unfold keyName submitName
    dsimp only
    split
    · exact selects_reload _ F
    · exact h
  | back | up | down | left | right | delete | tab => exact h

theorem selects_keyDelete {fm : FileManager} (h : fm.Selects) (key : FmKey) (F : FatAnswers) :
    (fm.keyDelete key F).1.Selects := by
  cases key with
  | enter => exact selects_reload _ F
  | back | backspace => exact h
  | up | down | left | right | delete | tab | char c => exact h

theorem selects_key {fm : FileManager} (h : fm.Selects) (key : FmKey) (view : Nat) (F : FatAnswers) :
    (fm.key key view F).1.Selects := by
  unfold FileManager.key
  split
  · exact h
  · split
    · exact selects_keyBrowse h key F
    · exact selects_keyActions h key F
    · exact selects_keyName h key F
    · exact selects_keyDelete h key F
    · exact h

theorem selects_poll {fm : FileManager} (h : fm.Selects) (F : FatAnswers) : (fm.poll F).Selects := by
  unfold poll
  split
  · exact h
  · split
    · exact selects_reload _ F
    · exact h
    · exact selects_reload _ F

theorem selects_appendText {fm : FileManager} (h : fm.Selects) (text : String) (view : Nat) :
    (fm.appendText text view).Selects := by
  unfold appendText
  split_ifs
  · exact h
  · exact h
  · exact h

/-- Every event leaves the viewport in place. -/
theorem inPlace_handle {fm : FileManager} (h : fm.InPlace) (event : FmEvent) : (fm.handle event).InPlace := by
  cases event with
  | key key view F =>
    rw [handle]
    split
    · exact h
    · exact inPlace_scroll (selects_key h.selected key view F)
  | poll F =>
    rw [handle]
    split
    · exact inPlace_scroll (selects_poll h.selected F)
    · exact h
  | appendText text view =>
    rw [handle]
    split
    · exact inPlace_scroll (selects_appendText h.selected text view)
    · exact h
  | clearText => exact inPlace_scroll (show fm.clearText.Selects from h.selected)

/-- In a viewport in place the highlighted row is the selected entry. -/
theorem highlighted_row {fm : FileManager} (h : fm.InPlace) : fm.rows[fm.selected - fm.first]? = fm.selectedItem := by
  obtain ⟨-, hle, hlt, -⟩ := h
  rw [rows, List.getElem?_take_of_lt (by omega), List.getElem?_drop, Nat.add_sub_cancel' hle]
  rfl

/-! ## Pages -/

/-- The entries of a directory that the browser shows. -/
def visible (records : List Item) : List Item := records.filter fun item => item.name ≠ "." ∧ item.name ≠ ".."

/-- The loop of `reload` collects the visible entries from the page on, one more than a page at most. -/
theorem listPage_eq {page seen : Nat} (records : List Item) {entries : List Item} (hlen : entries.length = seen - page)
    (hle : entries.length ≤ PAGE_LEN) :
    listPage page (records.map some) seen entries =
      some (entries ++ ((visible records).drop (page - seen)).take (PAGE_LEN + 1 - entries.length)) := by
  induction records generalizing seen entries with
  | nil => simp [listPage, visible]
  | cons item records ih =>
    rw [List.map_cons, listPage]
    by_cases hdot : item.name = "." ∨ item.name = ".."
    · have hskip : visible (item :: records) = visible records := by
        rw [visible, List.filter_cons_of_neg (by simpa [not_and_or, or_comm] using by tauto)]
        rfl
      rw [if_pos hdot, ih hlen hle, hskip]
    · have hkeep : visible (item :: records) = item :: visible records := by
        rw [visible, List.filter_cons_of_pos (by simpa [not_or] using hdot)]
        rfl
      rw [if_neg hdot, hkeep]
      by_cases hpage : page ≤ seen
      · have hzero : page - seen = 0 := by omega
        have hkept : (if page ≤ seen ∧ entries.length ≤ PAGE_LEN then entries ++ [item] else entries) = entries ++ [item] :=
          if_pos ⟨hpage, hle⟩
        simp only [hkept]
        rw [hzero, List.drop_zero]
        have hlen' : (entries ++ [item]).length = entries.length + 1 := List.length_append
        obtain ⟨k, hk⟩ : ∃ k, PAGE_LEN + 1 - entries.length = k + 1 := ⟨PAGE_LEN - entries.length, by omega⟩
        rw [hk, List.take_succ_cons]
        by_cases hfull : PAGE_LEN < (entries ++ [item]).length
        · have hk0 : k = 0 := by omega
          rw [if_pos hfull, hk0, List.take_zero]
        · have hk' : PAGE_LEN + 1 - (entries ++ [item]).length = k := by omega
          have hzero' : page - (seen + 1) = 0 := by omega
          rw [if_neg hfull, ih (by omega) (by omega), hk', hzero', List.drop_zero, List.append_assoc]
          rfl
      · obtain ⟨k, hk⟩ : ∃ k, page - seen = k + 1 := ⟨page - seen - 1, by omega⟩
        have hk' : page - (seen + 1) = k := by omega
        have hkept : (if page ≤ seen ∧ entries.length ≤ PAGE_LEN then entries ++ [item] else entries) = entries :=
          if_neg fun h => hpage h.1
        simp only [hkept]
        rw [if_neg (Nat.not_lt.mpr hle), ih (by omega) hle, hk, hk', List.drop_succ_cons]

/-- What the volume answers to the reading of a page of a directory. -/
def directory (records : List (Option Item)) (page : Nat) : FatAnswers := { listing := listPage page records 0 [] }

/-- The browser shows the page of the directory. -/
structure ShowsPage (records : List Item) (fm : FileManager) : Prop where
  entries : fm.entries = ((visible records).drop fm.page).take PAGE_LEN
  more : fm.more = true ↔ fm.page + PAGE_LEN < (visible records).length

/-- Reading a page shows it. -/
theorem showsPage_reload (records : List Item) (fm : FileManager) :
    ShowsPage records (fm.reload (directory (records.map some) fm.page)) := by
  have hlisting : (directory (records.map some) fm.page).listing = some (((visible records).drop fm.page).take (PAGE_LEN + 1)) := by
    rw [directory]
    exact @listPage_eq fm.page 0 records [] (Nat.zero_sub _).symm (Nat.zero_le _)
  constructor
  · simp only [reload, hlisting, Option.getD_some, List.take_take]
    rfl
  · simp only [reload, hlisting, Option.getD_some, List.length_take, List.length_drop, decide_eq_true_eq]
    omega

/-- The key Right on the directory, with the `show` that ends it. -/
def pressRight (records : List (Option Item)) (fm : FileManager) : FileManager :=
  fm.handle (.key .right 10 (directory records (fm.page + PAGE_LEN)))

/-- From a page with more behind it, Right goes to the next. -/
theorem pressRight_more (records : List Item) {fm : FileManager} (hcopy : fm.copying = false) (hmore : fm.more = true) :
    (pressRight (records.map some) fm).page = fm.page + PAGE_LEN ∧ (pressRight (records.map some) fm).copying = false ∧
      ShowsPage records (pressRight (records.map some) fm) := by
  have hpress : pressRight (records.map some) fm =
      (reload { fm with page := fm.page + PAGE_LEN, selected := 0 } (directory (records.map some) (fm.page + PAGE_LEN))).scroll := by
    rw [pressRight, handle, FileManager.key, hcopy]
    simp only [keyBrowse, hmore, Bool.false_eq_true, if_false, if_true]
  have hpage := showsPage_reload records { fm with page := fm.page + PAGE_LEN, selected := 0 }
  rw [hpress]
  exact ⟨rfl, hcopy, hpage.entries, hpage.more⟩

/-- A page with more behind it is full. -/
theorem ShowsPage.full {records : List Item} {fm : FileManager} (h : ShowsPage records fm) (hmore : fm.more = true) :
    fm.entries.length = PAGE_LEN := by
  have hlt := h.more.mp hmore
  rw [h.entries, List.length_take, List.length_drop]
  omega

/-- A page with nothing behind it ends the directory. -/
theorem ShowsPage.last {records : List Item} {fm : FileManager} (h : ShowsPage records fm) (hmore : fm.more = false) :
    fm.entries = (visible records).drop fm.page := by
  have hlast : ¬ fm.page + PAGE_LEN < (visible records).length := fun hlt => by
    rw [h.more.mpr hlt] at hmore
    nomatch hmore
  rw [h.entries, List.take_of_length_le (by rw [List.length_drop]; omega)]

/-- Right leads through the rest of the directory, a page at a time, until nothing is left. -/
theorem pages_right {records : List Item} (n : Nat) {fm : FileManager} (hcopy : fm.copying = false) (hpage : ShowsPage records fm)
    (hn : (visible records).length ≤ fm.page + PAGE_LEN * (n + 1)) :
    ∃ k, (∀ j < k, ((pressRight (records.map some))^[j] fm).more = true ∧
        ((pressRight (records.map some))^[j] fm).entries.length = PAGE_LEN) ∧
      ((pressRight (records.map some))^[k] fm).more = false ∧
      (List.range (k + 1)).flatMap (fun j => ((pressRight (records.map some))^[j] fm).entries) =
        (visible records).drop fm.page := by
  induction n generalizing fm with
  | zero =>
    have hmore : fm.more = false := Bool.eq_false_iff.mpr fun h => by
      have := hpage.more.mp h
      omega
    refine ⟨0, fun j hj => absurd hj (Nat.not_lt_zero j), hmore, ?_⟩
    rw [← hpage.last hmore]
    simp
  | succ n ih =>
    cases hmore : fm.more with
    | false =>
      refine ⟨0, fun j hj => absurd hj (Nat.not_lt_zero j), hmore, ?_⟩
      rw [← hpage.last hmore]
      simp
    | true =>
      obtain ⟨hnext, hcopy', hpage'⟩ := pressRight_more records hcopy hmore
      obtain ⟨k, hbefore, hend, hall⟩ := ih hcopy' hpage' (by rw [hnext]; simp only [PAGE_LEN] at *; omega)
      refine ⟨k + 1, ?_, hend, ?_⟩
      · intro j hj
        cases j with
        | zero => exact ⟨hmore, hpage.full hmore⟩
        | succ j => exact hbefore j (by omega)
      · rw [List.range_succ_eq_map, List.flatMap_cons, List.flatMap_map]
        refine (congrArg (_ ++ ·) hall).trans ?_
        rw [hnext, Function.iterate_zero, id_eq, hpage.entries, ← List.drop_drop, List.take_append_drop]

/-- From the moment the browser opens, after every sequence of keys, copy steps and texts, whatever the volume answers to them,
the selection is in the page and in the viewport, and the highlighted row is the selected entry; and from the first page of a
directory that does not change, Right leads through the visible entries in order, each shown once, in full pages up to the
last. -/
theorem selection_in_place (F : FatAnswers) (events : List FmEvent) :
    (events.foldl handle (new F).scroll).InPlace ∧
    (events.foldl handle (new F).scroll).rows[(events.foldl handle (new F).scroll).selected -
      (events.foldl handle (new F).scroll).first]? = (events.foldl handle (new F).scroll).selectedItem ∧
    (∀ (records : List Item) (fm : FileManager), fm.page = 0 → fm.copying = false →
      ∃ k, (∀ j < k, ((pressRight (records.map some))^[j] (fm.reload (directory (records.map some) 0)).scroll).more = true ∧
          ((pressRight (records.map some))^[j] (fm.reload (directory (records.map some) 0)).scroll).entries.length = PAGE_LEN) ∧
        ((pressRight (records.map some))^[k] (fm.reload (directory (records.map some) 0)).scroll).more = false ∧
        (List.range (k + 1)).flatMap (fun j =>
          ((pressRight (records.map some))^[j] (fm.reload (directory (records.map some) 0)).scroll).entries) =
          visible records) := by
  have hrun : (events.foldl handle (new F).scroll).InPlace := by
    have hstart : (new F).scroll.InPlace := inPlace_scroll (selects_reload {} F)
    generalize (new F).scroll = fm at hstart ⊢
    induction events generalizing fm with
    | nil => exact hstart
    | cons event events ih => exact ih _ (inPlace_handle hstart event)
  refine ⟨hrun, highlighted_row hrun, ?_⟩
  intro records fm hzero hcopy
  have hpage := showsPage_reload records fm
  rw [hzero] at hpage
  have hstart : (fm.reload (directory (records.map some) 0)).scroll.page = 0 := hzero
  obtain ⟨k, hbefore, hend, hall⟩ := @pages_right records (visible records).length
    (fm.reload (directory (records.map some) 0)).scroll hcopy ⟨hpage.entries, hpage.more⟩ (by
      rw [hstart, PAGE_LEN]
      omega)
  rw [hstart, List.drop_zero] at hall
  exact ⟨k, hbefore, hend, hall⟩

/-- A directory of thirty files, behind the two entries that every directory but the root has. -/
def thirtyFiles : List Item :=
  [⟨".", true, 0⟩, ⟨"..", true, 0⟩] ++ (List.range 30).map fun i => ⟨String.ofList (Nat.toDigits 10 i), false, i⟩

/-- Down nine times, Up, Right to the second page, and Down. -/
def browseKeys : List FmEvent :=
  List.replicate 9 (.key .down 10 {}) ++
    [.key .up 10 {}, .key .right 10 (directory (thirtyFiles.map some) PAGE_LEN), .key .down 10 {}]

/-- The keys end on the twenty-sixth file, and two pages show all thirty. -/
theorem selection_in_place_thirty :
    let fm := browseKeys.foldl handle (new (directory (thirtyFiles.map some) 0)).scroll
    fm.InPlace ∧ (fm.rows[fm.selected - fm.first]?).map Item.size = some 25 ∧
      ∃ k, (List.range (k + 1)).flatMap (fun j =>
        ((pressRight (thirtyFiles.map some))^[j] (reload {} (directory (thirtyFiles.map some) 0)).scroll).entries) =
        thirtyFiles.drop 2 := by
  obtain ⟨hplace, hrow, hpages⟩ := selection_in_place (directory (thirtyFiles.map some) 0) browseKeys
  obtain ⟨k, -, -, hall⟩ := hpages thirtyFiles {} rfl rfl
  refine ⟨hplace, ?_, k, hall.trans (by decide +kernel)⟩
  rw [hrow]
  decide +kernel

end FileManager

end Ratputer
