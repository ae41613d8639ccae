import Ratputer.FsPath

/-!
# The SD browser's keys

The control flow of `filemanager.rs`: which view each key leads to, what it selects, and when a copy job starts and ends. What
the card answers to the calls of one key (a listing, a lookup, a failed write) is a parameter, `FatAnswers`, so a statement
about every answer covers every volume and every I/O error. The texts of the status line are left out, except for the one the
code compares. `listPage` is the listing of a directory that `reload` reads a page of, `showUi` the rows on the screen.
-/

namespace Ratputer

def PAGE_LEN : Nat := 24

/-- Rows that fit the browser's viewport. -/
def VISIBLE_ROWS : Nat := 6

def MAX_NAME_BYTES : Nat := 80
def ACTIONS : Nat := 7

inductive FmKey
  | up | down | left | right | enter | back | backspace | delete | tab
  | char (c : Char)
  deriving Repr, DecidableEq

structure Item where
  name : String
  directory : Bool
  size : Nat
  deriving Repr, DecidableEq, Inhabited

structure Clipboard where
  parent : List String
  name : String
  directory : Bool
  moving : Bool
  deriving Repr, DecidableEq

inductive NameAction
  | rename | file | directory
  deriving Repr, DecidableEq

/-- The counters of a running copy. -/
structure CopyProgress where
  copied : Nat := 0
  files : Nat := 0
  deriving Repr, DecidableEq

structure FileManager where
  cwd : List String := []
  page : Nat := 0
  selected : Nat := 0
  /-- First page entry shown in the viewport. -/
  first : Nat := 0
  entries : List Item := []
  more : Bool := false
  clipboard : Option Clipboard := none
  action : Nat := 0
  nameAction : NameAction := .file
  input : String := ""
  confirmName : Option String := none
  copy : Option CopyProgress := none
  deriving Repr, DecidableEq

/-- What deleting an entry, with the repair of a broken directory, comes to. -/
inductive DeleteOutcome
  | deleted | repaired | notFound | failed
  deriving Repr, DecidableEq

/-- The volume's answers to the calls that one key or poll makes. -/
structure FatAnswers where
  /-- The items from the page on, one more than a page at most; `none` when the directory cannot be read. -/
  listing : Option (List Item) := some []
  /-- The kind of the clipboard's source, `isDirectory`, when it is found. -/
  source : Option Bool := none
  /-- Whether the directory opens and holds no entry of the name. -/
  nameFree : Bool := false
  /-- Whether the rename or create succeeds. -/
  done : Bool := false
  delete : DeleteOutcome := .failed
  /-- The copy step: whether the job is complete, with its counters; `none` when the step fails. -/
  step : Option (Bool × CopyProgress) := none
  deriving Repr, DecidableEq

/-- Whether a path lies in a directory, names compared without ASCII case. -/
def inside (path ancestor : List String) : Bool :=
  ancestor.length ≤ path.length && (path.zip ancestor).all fun p => p.1.toLower = p.2.toLower

/-- A name the browser accepts for a new entry. -/
def validName (name : String) : Bool :=
  name != "" && name != "." && name != ".." && name.utf8ByteSize ≤ MAX_NAME_BYTES &&
  !([' ', '.'].any fun c => name.toList.getLast? = some c) &&
  !(name.toList.any fun c => c.toNat < 32 || "/\\:*?\"<>|".toList.contains c)

/-- The loop of `reload` over the records of a directory, from `page` on: one item more than a page at most, `none` when a record
cannot be read. -/
def listPage (page : Nat) : List (Option Item) → Nat → List Item → Option (List Item)
  | [], _, entries => some entries
  | none :: _, _, _ => none
  | some item :: records, seen, entries =>
    if item.name = "." ∨ item.name = ".." then listPage page records seen entries
    else
      let entries := if page ≤ seen ∧ entries.length ≤ PAGE_LEN then entries ++ [item] else entries
      if PAGE_LEN < entries.length then some entries else listPage page records (seen + 1) entries

/-! ## Row labels -/

/-- The first characters of a text, with a question mark for those that are not ASCII. -/
def truncateAscii (text : Str) (maxChars : Nat) : Str := (text.take maxChars).map fun c => if c.toNat < 128 then c else '?'

/-- `String::truncate` to a number of octets. Inside a character it panics, which is `none`; a shorter text stays. -/
def truncate : Str → Nat → Option Str
  | _, 0 => some []
  | [], _ + 1 => some []
  | c :: rest, n + 1 => if c.utf8Size ≤ n + 1 then (truncate rest (n + 1 - c.utf8Size)).map (c :: ·) else none

/-- Glyphs of a row. -/
def ROW_WIDTH : Nat := 28

/-- The label of a row; `none` is a panic. The size is never cut: its digits and letter take an octet each. -/
def rowLabel (item : Item) : Option Str :=
  let name := item.name.toList
  if item.directory then
    let label := '[' :: name ++ [']']
    if ROW_WIDTH < (asBytes label).length then (truncate label (ROW_WIDTH - 1)).map (· ++ ['~']) else some label
  else
    let size := Nat.toDigits 10 item.size ++ ['B']
    let budget := ROW_WIDTH - (size.length + 1)
    let short := truncateAscii name budget
    let short :=
      if (asBytes short).length < (asBytes name).length ∧ 1 < (asBytes short).length then
        (truncate short ((asBytes short).length - 1)).map (· ++ ['~'])
      else some short
    short.map (· ++ ' ' :: size)

/-- What `show` writes to the window: the highlighted row, the labels, and the state of the paging. -/
structure FmScreen where
  index : Nat
  rows : List Str
  more : Bool
  page : Nat
  deriving Repr, DecidableEq

namespace FileManager

/-- Keep the selection inside a stable viewport, which moves only at its edges. -/
def scroll (fm : FileManager) : FileManager :=
  let first := min fm.first fm.selected
  let first := if first + VISIBLE_ROWS ≤ fm.selected then fm.selected + 1 - VISIBLE_ROWS else first
  { fm with first := min first (fm.entries.length - VISIBLE_ROWS) }

/-- The entries in the viewport. -/
def rows (fm : FileManager) : List Item := (fm.entries.drop fm.first).take VISIBLE_ROWS

/-- `show`: place the viewport and write its rows; `none` is a panic. -/
def showUi (fm : FileManager) : Option (FileManager × FmScreen) :=
  (fm.scroll.rows.mapM rowLabel).map fun rows =>
    (fm.scroll, ⟨fm.scroll.selected - fm.scroll.first, rows, fm.scroll.more, fm.scroll.page / PAGE_LEN + 1⟩)

/-- Read the page again. -/
def reload (fm : FileManager) (F : FatAnswers) : FileManager :=
  let entries := F.listing.getD []
  { fm with
    more := PAGE_LEN < entries.length
    entries := entries.take PAGE_LEN
    selected := min fm.selected ((entries.take PAGE_LEN).length - 1) }

def new (F : FatAnswers) : FileManager := reload {} F

def copying (fm : FileManager) : Bool := fm.copy.isSome

def selectedItem (fm : FileManager) : Option Item := fm.entries[fm.selected]?

def nameInput (fm : FileManager) (action : NameAction) (text : String) : FileManager × Nat :=
  ({ fm with nameAction := action, input := text }, 12)

def deletePrompt (fm : FileManager) (view : Nat) : FileManager × Nat :=
  match fm.selectedItem with
  | some item => ({ fm with confirmName := some item.name }, 13)
  | none => (fm, view)

/-- Paste the clipboard: move it at once, or start a copy job. -/
def paste (fm : FileManager) (F : FatAnswers) : FileManager :=
  match fm.clipboard with
  | none => fm
  | some clip =>
    if clip.directory ∧ inside fm.cwd (clip.parent ++ [clip.name]) then fm
    else if fm.cwd = clip.parent then fm
    else if F.source ≠ some clip.directory ∨ F.nameFree = false then fm
    else if clip.moving then
      if F.done then ({ fm with clipboard := none }).reload F else fm
    else if clip.directory then
      if F.done then { fm with copy := some {} } else fm
    else { fm with copy := some {} }

/-- The action menu's choice, from view 10. -/
def applyAction (fm : FileManager) (F : FatAnswers) : FileManager × Nat :=
  match fm.action with
  | 0 | 1 =>
    match fm.selectedItem with
    | some item =>
      ({ fm with clipboard := some ⟨fm.cwd, item.name, item.directory, fm.action = 1⟩ }, 10)
    | none => (fm, 10)
  | 2 => (fm.paste F, 10)
  | 3 =>
    match fm.selectedItem with
    | some item => fm.nameInput .rename item.name
    | none => (fm, 10)
  | 4 => fm.nameInput .file ""
  | 5 => fm.nameInput .directory ""
  | 6 => fm.deletePrompt 10
  | _ => (fm, 10)

/-- Create or rename under the typed name; the browser stays on the editor when that fails. -/
def submitName (fm : FileManager) (F : FatAnswers) : FileManager × Nat :=
  if validName fm.input ∧ F.nameFree ∧ F.done ∧ (fm.nameAction = .rename → fm.selectedItem.isSome) then
    let renamed := fm.nameAction = .rename ∧
      ∃ clip ∈ fm.clipboard, ∃ item ∈ fm.selectedItem, clip.parent = fm.cwd ∧ clip.name = item.name
    (reload { fm with clipboard := if renamed then none else fm.clipboard } F, 10)
  else (fm, 12)

/-- Delete the entry the prompt named. -/
def confirmDelete (fm : FileManager) (F : FatAnswers) : FileManager × Nat :=
  let gone := F.delete = .deleted ∨ F.delete = .repaired
  let clipboard :=
    if gone ∧ ∃ clip ∈ fm.clipboard, clip.parent = fm.cwd ∧ fm.confirmName = some clip.name then none
    else fm.clipboard
  (reload { fm with confirmName := none, clipboard } F, 10)

/-- Keys of the directory list. -/
def keyBrowse (fm : FileManager) (key : FmKey) (F : FatAnswers) : FileManager × Nat :=
  match key with
  | .up => (if 0 < fm.selected then { fm with selected := fm.selected - 1 } else fm, 10)
  | .down => (if fm.selected + 1 < fm.entries.length then { fm with selected := fm.selected + 1 } else fm, 10)
  | .left => (if 0 < fm.page then reload { fm with page := fm.page - PAGE_LEN, selected := 0 } F else fm, 10)
  | .right => (if fm.more then reload { fm with page := fm.page + PAGE_LEN, selected := 0 } F else fm, 10)
  | .enter =>
    match fm.selectedItem with
    | some item =>
      if item.directory then (reload { fm with cwd := fm.cwd ++ [item.name], page := 0, selected := 0 } F, 10)
      else (fm, 10)
    | none => (fm, 10)
  | .back | .backspace =>
    if fm.cwd = [] then (fm, 0)
    else (reload { fm with cwd := fm.cwd.dropLast, page := 0, selected := 0 } F, 10)
  | .tab => ({ fm with action := 0 }, 11)
  | .delete => fm.deletePrompt 10
  | .char _ => (fm, 10)

/-- Keys of the action menu. -/
def keyActions (fm : FileManager) (key : FmKey) (F : FatAnswers) : FileManager × Nat :=
  match key with
  | .up => ({ fm with action := (fm.action + ACTIONS - 1) % ACTIONS }, 11)
  | .down | .tab => ({ fm with action := (fm.action + 1) % ACTIONS }, 11)
  | .enter => fm.applyAction F
  | .back | .backspace => (fm, 10)
  | _ => (fm, 11)

/-- Keys of the name editor. -/
def keyName (fm : FileManager) (key : FmKey) (F : FatAnswers) : FileManager × Nat :=
  match key with
  | .char c =>
    (if (isAsciiGraphic c ∨ c = ' ') ∧ fm.input.utf8ByteSize < MAX_NAME_BYTES then
      { fm with input := fm.input.push c } else fm, 12)
  | .backspace => ({ fm with input := String.ofList fm.input.toList.dropLast }, 12)
  | .enter => fm.submitName F
  | .back => (fm, 10)
  | _ => (fm, 12)

/-- Keys of the delete prompt. -/
def keyDelete (fm : FileManager) (key : FmKey) (F : FatAnswers) : FileManager × Nat :=
  match key with
  | .enter => fm.confirmDelete F
  | .back | .backspace => ({ fm with confirmName := none }, 10)
  | _ => (fm, 13)

/-- A key in one of the browser's views; a running copy takes no keys. -/
def key (fm : FileManager) (key : FmKey) (view : Nat) (F : FatAnswers) : FileManager × Nat :=
  if fm.copying then (fm, view)
  else
    match view with
    | 10 => fm.keyBrowse key F
    | 11 => fm.keyActions key F
    | 12 => fm.keyName key F
    | 13 => fm.keyDelete key F
    | _ => (fm, view)

/-- One step of the running copy. -/
def poll (fm : FileManager) (F : FatAnswers) : FileManager :=
  match fm.copy with
  | none => fm
  | some _ =>
    match F.step with
    | some (true, _) => reload { fm with copy := none } F
    | some (false, progress) => { fm with copy := some progress }
    | none => reload { fm with copy := none } F

/-- Text that `appendText` does not refuse. -/
def acceptsText (fm : FileManager) (text : String) (view : Nat) : Bool :=
  view = 12 && text.toList.all (fun c => 32 ≤ c.toNat && c.toNat ≤ 126) &&
    fm.input.utf8ByteSize + text.utf8ByteSize ≤ MAX_NAME_BYTES

/-- Text from the console, for the name editor. -/
def appendText (fm : FileManager) (text : String) (view : Nat) : FileManager :=
  if view ≠ 12 then fm
  else if !(text.toList.all fun c => 32 ≤ c.toNat && c.toNat ≤ 126) ||
      MAX_NAME_BYTES < fm.input.utf8ByteSize + text.utf8ByteSize then fm
  else { fm with input := fm.input ++ text }

def clearText (fm : FileManager) : FileManager := { fm with input := "" }

/-- What happens to the browser between two passes: a key in the view of the screen, a step of the copy, text of the console. -/
inductive FmEvent
  | key (key : FmKey) (view : Nat) (F : FatAnswers)
  | poll (F : FatAnswers)
  | appendText (text : String) (view : Nat)
  | clearText

/-- One event with the `show` that ends it. A key during a copy, a step without one and a refused text return before it. -/
def handle (fm : FileManager) : FmEvent → FileManager
  | .key key view F => if fm.copying then fm else (fm.key key view F).1.scroll
  | .poll F => if fm.copying then (fm.poll F).scroll else fm
  | .appendText text view => if fm.acceptsText text view then (fm.appendText text view).scroll else fm
  | .clearText => fm.clearText.scroll

/-- The views of the browser, which a key leaves for the menu only. -/
def IsView (view : Nat) : Prop := 10 ≤ view ∧ view ≤ 13

instance (view : Nat) : Decidable (IsView view) := inferInstanceAs (Decidable (_ ∧ _))

end FileManager

end Ratputer
