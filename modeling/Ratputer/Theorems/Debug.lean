import Ratputer.Debug
import Mathlib.Data.List.ReduceOption

/-!
# Typing text at the console

Whatever is typed and erased on the way, and however the bytes are cut into polls, a line that comes to `TEXT`, a space and a text
gives one command. Its text is the one typed exactly when that does not end with a space: the parser trims the line before it
takes the argument off it.
-/

namespace Ratputer

namespace DebugConsole

/-! ## Bytes and polls -/

/-- The commands of a sequence of bytes. -/
def commands (console : DebugConsole) (bytes : List UInt8) : List DebugCommand :=
  (Mealy.outputs readByte console bytes).reduceOption

theorem commands_nil (console : DebugConsole) : console.commands [] = [] := rfl

theorem commands_cons (console : DebugConsole) (byte : UInt8) (bytes : List UInt8) :
    console.commands (byte :: bytes) = (console.readByte byte).2.toList ++ (console.readByte byte).1.commands bytes := by
  rw [commands, Mealy.outputs_cons]
  cases (console.readByte byte).2 with
  | none => rfl
  | some command => rfl

/-- A poll takes the first command of the bytes and leaves the others. -/
theorem commands_poll (console : DebugConsole) (bytes more : List UInt8) :
    (console.poll bytes).2.toList ++ (console.poll bytes).1.1.commands ((console.poll bytes).1.2 ++ more) =
      console.commands (bytes ++ more) := by
  induction bytes generalizing console with
  | nil => rfl
  | cons byte bytes ih =>
    rw [List.cons_append, commands_cons, poll]
    rcases hread : console.readByte byte with ⟨console', command⟩
    cases command with
    | none => exact ih console'
    | some command => rfl

/-- A poll without a command has read everything. -/
theorem poll_none {console : DebugConsole} {bytes : List UInt8} (h : (console.poll bytes).2 = none) :
    (console.poll bytes).1.2 = [] := by
  induction bytes generalizing console with
  | nil => rfl
  | cons byte bytes ih =>
    rw [poll] at h ⊢
    rcases hread : console.readByte byte with ⟨console', command⟩
    rw [hread] at h
    cases command with
    | none => exact ih h
    | some command => nomatch h

/-- The commands of the polls are the first ones of the bytes, the others are still in the port. -/
theorem commands_polls (s : DebugConsole × List UInt8) (arrivals : List (List UInt8)) :
    (Mealy.outputs pollArrived s arrivals).reduceOption ++
      (Mealy.final pollArrived s arrivals).1.commands (Mealy.final pollArrived s arrivals).2 =
      s.1.commands (s.2 ++ arrivals.flatten) := by
  induction arrivals generalizing s with
  | nil =>
    rw [List.flatten_nil, List.append_nil]
    rfl
  | cons arrived arrivals ih =>
    have hpoll := commands_poll s.1 (s.2 ++ arrived) arrivals.flatten
    rw [List.flatten_cons, ← List.append_assoc, ← hpoll, Mealy.outputs_cons, Mealy.final_cons]
    have hrest := ih (pollArrived s arrived).1
    have hout : ((pollArrived s arrived).2 :: Mealy.outputs pollArrived (pollArrived s arrived).1 arrivals).reduceOption =
        (pollArrived s arrived).2.toList ++ (Mealy.outputs pollArrived (pollArrived s arrived).1 arrivals).reduceOption := by
      cases (pollArrived s arrived).2 <;> rfl
    rw [hout, List.append_assoc, hrest]
    rfl

/-- Polls without a command have read everything. -/
theorem polls_none {s : DebugConsole × List UInt8} {arrivals : List (List UInt8)} (hs : s.2 = [])
    (h : (Mealy.outputs pollArrived s arrivals).reduceOption = []) : (Mealy.final pollArrived s arrivals).2 = [] := by
  induction arrivals generalizing s with
  | nil => exact hs
  | cons arrived arrivals ih =>
    rw [Mealy.outputs_cons] at h
    rw [Mealy.final_cons]
    cases hpoll : (pollArrived s arrived).2 with
    | none =>
      rw [hpoll] at h
      exact ih (poll_none hpoll) h
    | some command =>
      rw [hpoll] at h
      nomatch h

/-- Bytes with one command give it once, however they arrive. -/
theorem polls_of_commands {console : DebugConsole} {bytes : List UInt8} {command : DebugCommand}
    (h : console.commands bytes = [command]) {arrivals : List (List UInt8)} (harrive : arrivals.flatten = bytes) :
    (Mealy.outputs pollArrived (console, []) arrivals).reduceOption = [command] := by
  have hall := commands_polls (console, []) arrivals
  rw [List.nil_append, harrive, h] at hall
  cases hout : (Mealy.outputs pollArrived (console, []) arrivals).reduceOption with
  | nil =>
    rw [hout, polls_none rfl hout, commands_nil] at hall
    nomatch hall
  | cons first rest =>
    rw [hout, List.cons_append] at hall
    injection hall with hfirst hrest
    rw [hfirst, (List.append_eq_nil_iff.mp hrest).1]

/-- A command that the polls give is one of the bytes. -/
theorem commands_of_polls {console : DebugConsole} {bytes : List UInt8} {command : DebugCommand} {arrivals : List (List UInt8)}
    (harrive : arrivals.flatten = bytes)
    (h : (Mealy.outputs pollArrived (console, []) arrivals).reduceOption = [command]) : command ∈ console.commands bytes := by
  have hall := commands_polls (console, []) arrivals
  rw [List.nil_append, harrive, h] at hall
  rw [← hall]
  exact List.mem_cons_self

/-! ## Editing a line -/

/-- What is typed at a line: a character, one of the two erase keys, Ctrl+U, or a whole escape sequence. -/
inductive Edit
  | type (byte : UInt8)
  | erase (byte : UInt8)
  | kill
  | escape (params : List UInt8) (last : UInt8)

namespace Edit

/-- The bytes that the terminal sends. -/
def bytes : Edit → List UInt8
  | type byte => [byte]
  | erase byte => [byte]
  | kill => [0x15]
  | escape params last => 0x1b :: 0x5b :: (params ++ [last])

/-- Printable characters, the codes of Backspace, and complete CSI sequences. -/
def Valid : Edit → Prop
  | type byte => 0x20 ≤ byte ∧ byte ≤ 0x7e
  | erase byte => byte = 0x08 ∨ byte = 0x7f
  | kill => True
  | escape params last => (∀ byte ∈ params, 0x20 ≤ byte ∧ byte ≤ 0x3f) ∧ 0x40 ≤ last ∧ last ≤ 0x7e

instance : DecidablePred Valid
  | type _ => inferInstanceAs (Decidable (_ ∧ _))
  | erase _ => inferInstanceAs (Decidable (_ ∨ _))
  | kill => inferInstanceAs (Decidable True)
  | escape _ _ => inferInstanceAs (Decidable ((∀ _ ∈ _, _) ∧ _))

/-- What it does to the line. -/
def apply (line : List UInt8) : Edit → List UInt8
  | type byte => line ++ [byte]
  | erase _ => line.dropLast
  | kill => []
  | escape _ _ => line

end Edit

/-- The line that the edits come to. -/
def edited (line : List UInt8) (edits : List Edit) : List UInt8 := edits.foldl Edit.apply line

/-- The line stays within the buffer on the way. -/
def Within (line : List UInt8) : List Edit → Prop
  | [] => line.length ≤ RX_LINE_LEN
  | edit :: edits => line.length ≤ RX_LINE_LEN ∧ Within (edit.apply line) edits

instance decidableWithin (line : List UInt8) : (edits : List Edit) → Decidable (Within line edits)
  | [] => inferInstanceAs (Decidable (_ ≤ _))
  | edit :: edits =>
    have := decidableWithin (edit.apply line) edits
    inferInstanceAs (Decidable (_ ∧ _))

/-- The console is at a line that holds these bytes. -/
structure AtLine (line : List UInt8) (console : DebugConsole) : Prop where
  rxLine : console.rxLine = line
  no_overflow : console.rxOverflow = false
  no_escape : console.escapeState = 0

/-- A byte that is no line ending goes to the line. -/
theorem readByte_plain (console : DebugConsole) {byte : UInt8} (hcr : byte ≠ 0x0d) (hlf : byte ≠ 0x0a) :
    console.readByte byte = (handleByte { console with lastWasCr := false } byte, none) := by
  rw [readByte, if_neg hcr, if_neg hlf]

theorem commands_plain (console : DebugConsole) {byte : UInt8} (hcr : byte ≠ 0x0d) (hlf : byte ≠ 0x0a) (bytes : List UInt8) :
    console.commands (byte :: bytes) = (handleByte { console with lastWasCr := false } byte).commands bytes := by
  rw [commands_cons, readByte_plain console hcr hlf]
  rfl

/-- The parameters of an escape sequence are swallowed. -/
theorem commands_params {params : List UInt8} (hparams : ∀ byte ∈ params, 0x20 ≤ byte ∧ byte ≤ 0x3f) {console : DebugConsole}
    {line : List UInt8} (hline : console.rxLine = line) (hoverflow : console.rxOverflow = false)
    (hescape : console.escapeState = 2) {last : UInt8} (hlow : 0x40 ≤ last) (hhigh : last ≤ 0x7e) (rest : List UInt8) :
    ∃ console', AtLine line console' ∧ console'.lastWasCr = false ∧
      console.commands (params ++ [last] ++ rest) = console'.commands rest := by
  induction params generalizing console with
  | nil =>
    refine ⟨_, ?_, ?_, commands_plain console (by rintro rfl; revert hlow; decide) (by rintro rfl; revert hlow; decide) rest⟩
    · simp only [handleByte, hescape]
      exact ⟨hline, hoverflow, by simp [hlow, hhigh]⟩
    · simp only [handleByte, hescape]
      rfl
  | cons byte params ih =>
    obtain ⟨hb, hb'⟩ := hparams byte List.mem_cons_self
    rw [List.cons_append, List.cons_append,
      commands_plain console (by rintro rfl; revert hb; decide) (by rintro rfl; revert hb; decide)]
    refine ih (fun b hmem => hparams b (List.mem_cons_of_mem _ hmem)) ?_ ?_ ?_
    · simp only [handleByte, hescape]
      exact hline
    · simp only [handleByte, hescape]
      exact hoverflow
    · have hno : ¬ (0x40 ≤ byte ∧ byte ≤ 0x7e) := fun h => absurd (UInt8.le_trans h.1 hb') (by decide)
      simp [handleByte, hescape, hno]

/-- An edit does to the console what it does to the line. -/
theorem commands_edit {edit : Edit} (hvalid : edit.Valid) {line : List UInt8} {console : DebugConsole} (h : AtLine line console)
    (hfits : (edit.apply line).length ≤ RX_LINE_LEN) (rest : List UInt8) :
    ∃ console', AtLine (edit.apply line) console' ∧ console'.lastWasCr = false ∧
      console.commands (edit.bytes ++ rest) = console'.commands rest := by
  obtain ⟨hline, hoverflow, hescape⟩ := h
  cases edit with
  | type byte =>
    obtain ⟨hlow, hhigh⟩ := hvalid
    have hlen : line.length < RX_LINE_LEN := by
      simp only [Edit.apply, List.length_append, List.length_singleton] at hfits
      omega
    have hne (code : UInt8) (hcode : code < 0x20 ∨ 0x7e < code) : byte ≠ code := by
      rintro rfl
      rcases hcode with hcode | hcode
      · exact absurd hlow (UInt8.not_le.mpr hcode)
      · exact absurd hhigh (UInt8.not_le.mpr hcode)
    have hbyte : handleByte { console with lastWasCr := false } byte =
        { console with lastWasCr := false, rxLine := line ++ [byte] } := by
      have hescape' : ¬ (DebugConsole.escapeState { console with lastWasCr := false } ≠ 0) := not_not_intro hescape
      rw [handleByte, if_neg hescape', if_neg (hne 0x1b (by decide)),
        if_neg (not_or_intro (hne 0x08 (by decide)) (hne 0x7f (by decide))), if_neg (hne 0x15 (by decide)),
        if_pos ⟨hlow, hhigh⟩]
      simp only [hline, hlen, if_true]
    refine ⟨_, ?_, ?_, commands_plain console (hne 0x0d (by decide)) (hne 0x0a (by decide)) rest⟩
    · rw [hbyte]
      exact ⟨rfl, hoverflow, hescape⟩
    · rw [hbyte]
  | erase byte =>
    have hvalid : byte = 0x08 ∨ byte = 0x7f := hvalid
    have hbyte : handleByte { console with lastWasCr := false } byte =
        { console with lastWasCr := false, rxLine := line.dropLast } := by
      have hescape' : ¬ (DebugConsole.escapeState { console with lastWasCr := false } ≠ 0) := not_not_intro hescape
      have hne : byte ≠ 0x1b := by rcases hvalid with rfl | rfl <;> decide
      rw [handleByte, if_neg hescape', if_neg hne, if_pos hvalid]
      simp only [hline]
    have hcr : byte ≠ 0x0d := by rcases hvalid with rfl | rfl <;> decide
    have hlf : byte ≠ 0x0a := by rcases hvalid with rfl | rfl <;> decide
    refine ⟨_, ?_, ?_, commands_plain console hcr hlf rest⟩
    · rw [hbyte]
      exact ⟨rfl, hoverflow, hescape⟩
    · rw [hbyte]
  | kill =>
    have hescape' : ¬ (DebugConsole.escapeState { console with lastWasCr := false } ≠ 0) := not_not_intro hescape
    have hbyte : handleByte { console with lastWasCr := false } 0x15 =
        { console with lastWasCr := false, rxLine := [], rxOverflow := false } := by
      rw [handleByte, if_neg hescape']
      rfl
    refine ⟨_, ?_, ?_, commands_plain console (by decide) (by decide) rest⟩
    · rw [hbyte]
      exact ⟨rfl, rfl, hescape⟩
    · rw [hbyte]
  | escape params last =>
    obtain ⟨hparams, hlow, hhigh⟩ := hvalid
    have hescape' : ¬ (DebugConsole.escapeState { console with lastWasCr := false } ≠ 0) := not_not_intro hescape
    have hesc : handleByte { console with lastWasCr := false } 0x1b =
        { console with lastWasCr := false, escapeState := 1 } := by
      rw [handleByte, if_neg hescape']
      rfl
    have hcsi : handleByte { console with lastWasCr := false, escapeState := 1 } 0x5b =
        { console with lastWasCr := false, escapeState := 2 } := rfl
    have hbytes : (Edit.escape params last).bytes ++ rest = 0x1b :: 0x5b :: (params ++ [last] ++ rest) := rfl
    rw [hbytes, commands_plain console (by decide) (by decide), hesc, commands_plain _ (by decide) (by decide)]
    rw [hcsi]
    exact @commands_params params hparams { console with lastWasCr := false, escapeState := 2 } line hline hoverflow rfl last hlow
      hhigh rest

/-- Edits that stay within the buffer bring the console to the line they come to. -/
theorem commands_edits {edits : List Edit} (hvalid : ∀ edit ∈ edits, edit.Valid) {line : List UInt8} {console : DebugConsole}
    (h : AtLine line console) (hwithin : Within line edits) (rest : List UInt8) :
    ∃ console', AtLine (edited line edits) console' ∧ (console.lastWasCr = false ∨ edits ≠ [] → console'.lastWasCr = false) ∧
      console.commands (edits.flatMap Edit.bytes ++ rest) = console'.commands rest := by
  induction edits generalizing line console with
  | nil => exact ⟨console, h, fun hcr => hcr.resolve_right (not_not_intro rfl), rfl⟩
  | cons edit edits ih =>
    have hfits : (edit.apply line).length ≤ RX_LINE_LEN := by
      cases edits with
      | nil => exact hwithin.2
      | cons next edits => exact hwithin.2.1
    obtain ⟨console₁, h₁, hcr₁, hstep⟩ :=
      commands_edit (hvalid edit List.mem_cons_self) h hfits (edits.flatMap Edit.bytes ++ rest)
    obtain ⟨console₂, h₂, hcr₂, hrest⟩ := ih (fun e he => hvalid e (List.mem_cons_of_mem _ he)) h₁ hwithin.2
    refine ⟨console₂, h₂, fun _ => hcr₂ (.inl hcr₁), ?_⟩
    rw [List.flatMap_cons, List.append_assoc, hstep, hrest]

/-- The three line endings. -/
def Terminator (bytes : List UInt8) : Prop := bytes = [0x0d] ∨ bytes = [0x0a] ∨ bytes = [0x0d, 0x0a]

/-- A line ending gives the command of the line, and no other. -/
theorem commands_terminator {ending : List UInt8} (hend : Terminator ending) {line : List UInt8} {console : DebugConsole}
    (h : AtLine line console) (hcr : console.lastWasCr = false) : console.commands ending = (parseCommand line).toList := by
  obtain ⟨hline, hoverflow, -⟩ := h
  have hfinish (cr : Bool) : (finishLine { console with lastWasCr := cr }).2 = parseCommand line := by
    simp only [finishLine, hoverflow, hline, Bool.false_eq_true, if_false]
  rcases hend with rfl | rfl | rfl
  · rw [commands_cons, commands_nil, List.append_nil, ← hfinish true]
    rfl
  · have hread : console.readByte 0x0a = console.finishLine := by
      rw [readByte, if_neg (by decide), if_pos rfl, hcr, if_neg Bool.false_ne_true]
    have hsame : { console with lastWasCr := false } = console := by rw [← hcr]
    rw [commands_cons, commands_nil, List.append_nil, hread, ← hfinish false, hsame]
  · rw [commands_cons, commands_cons, commands_nil, List.append_nil, ← hfinish true]
    exact List.append_nil _

/-! ## The text of a line -/

theorem splitOnce_append {at_ : Char} {name : Str} (h : at_ ∉ name) (argument : Str) :
    splitOnce at_ (name ++ at_ :: argument) = some (name, argument) := by
  induction name with
  | nil => exact if_pos rfl
  | cons c name ih =>
    have hc : c ≠ at_ := fun he => h (he ▸ List.mem_cons_self)
    rw [List.cons_append, splitOnce, if_neg hc, ih fun hmem => h (List.mem_cons_of_mem _ hmem)]
    rfl

theorem eq_of_splitOnce {at_ : Char} {line name argument : Str} (h : splitOnce at_ line = some (name, argument)) :
    line = name ++ at_ :: argument := by
  induction line generalizing name with
  | nil => nomatch h
  | cons c rest ih =>
    rw [splitOnce] at h
    split_ifs at h with hc
    · injection h with h
      injection h with hname hargument
      rw [← hname, ← hargument, hc]
      rfl
    · obtain ⟨⟨name', argument'⟩, hrest, heq⟩ := Option.map_eq_some_iff.mp h
      injection heq with hname hargument
      obtain rfl : argument' = argument := hargument
      rw [← hname]
      exact congrArg (c :: ·) (ih hrest)

/-- A trimmed text does not end with white space. -/
theorem trim_getLast? {text : Str} {c : Char} (h : (trim text).getLast? = some c) : isWhitespace c = false := by
  rw [trim, List.getLast?_reverse] at h
  have hhead := List.head?_dropWhile_not isWhitespace (text.dropWhile isWhitespace).reverse
  rw [h] at hhead
  exact hhead

/-- A text between two characters that are no white space is trimmed already. -/
theorem trim_eq_self {first last : Char} (hfirst : isWhitespace first = false) (hlast : isWhitespace last = false) (middle : Str) :
    trim (first :: (middle ++ [last])) = first :: (middle ++ [last]) := by
  have hstart : (first :: (middle ++ [last])).dropWhile isWhitespace = first :: (middle ++ [last]) := by
    rw [List.dropWhile_cons, hfirst, if_neg Bool.false_ne_true]
  have hreverse : (first :: (middle ++ [last])).reverse = last :: (middle.reverse ++ [first]) := by simp
  rw [trim, hstart, hreverse, List.dropWhile_cons, hlast, if_neg Bool.false_ne_true, ← hreverse, List.reverse_reverse]

/-- Only `TEXT` gives a text, and it is the argument. -/
theorem argument_of_text {name : Str} {argument : Option Str} {text : DebugText} (h : parseWords name argument = .text text) :
    argument = some text.asStr ∧ text.asStr ≠ [] := by
  unfold parseWords at h
  split_ifs at h
  · unfold parseKey at h
    split at h <;> nomatch h
  · unfold parseText at h
    cases argument with
    | none => nomatch h
    | some argument =>
      dsimp only at h
      split_ifs at h with hok
      injection h with h
      exact ⟨congrArg (some ·.asStr) h, h ▸ hok.1⟩
  · unfold parseWdt at h
    split at h
    · nomatch h
    · split at h <;> nomatch h

/-- The text of a command does not end with a space. -/
theorem text_getLast? {line : List UInt8} {text : DebugText} (h : parseCommand line = some (.text text)) :
    text.asStr.getLast? ≠ some ' ' := by
  unfold parseCommand at h
  split at h
  · nomatch h
  rename_i decoded _
  dsimp only at h
  split_ifs at h with hempty
  split at h
  · rename_i name argument hsplit
    obtain ⟨hargument, hne⟩ := argument_of_text (Option.some.inj h)
    intro hlast
    have hline := eq_of_splitOnce hsplit
    rw [Option.some.inj hargument] at hline
    have hlast' : (trim decoded).getLast? = some ' ' := by
      rw [hline, List.getLast?_append, List.getLast?_cons_of_ne_nil hne, hlast]
      rfl
    exact absurd (trim_getLast? hlast') (by decide)
  · obtain ⟨hargument, -⟩ := argument_of_text (Option.some.inj h)
    nomatch hargument

/-- The line of a text that does not end with a space gives the text. -/
theorem parseText_line {s : Str} (hne : s ≠ []) (hlen : s.length ≤ TEXT_LEN) (hprint : ∀ c ∈ s, 0x20 ≤ c.toNat ∧ c.toNat ≤ 0x7e)
    (hlast : s.getLast? ≠ some ' ') :
    ∃ text : DebugText, text.asStr = s ∧ parseCommand (asBytes ("TEXT ".toList ++ s)) = some (.text text) := by
  obtain ⟨init, last, rfl⟩ := List.eq_nil_or_concat s |>.resolve_left hne
  rw [List.concat_eq_append] at *
  have hbytes : asBytes (init ++ [last]) = (init ++ [last]).map fun c => UInt8.ofNat c.toNat :=
    Utf8.encode_ascii fun c hc => (Nat.lt_succ_of_le (hprint c hc).2).trans_le (by decide)
  have hfits : (asBytes (init ++ [last])).length ≤ TEXT_LEN := by rwa [hbytes, List.length_map]
  have hall : (asBytes (init ++ [last])).all isPrintable = true := by
    rw [hbytes, List.all_map, List.all_eq_true]
    intro c hc
    obtain ⟨hlow, hhigh⟩ := hprint c hc
    have hbyte : (UInt8.ofNat c.toNat).toNat = c.toNat := UInt8.toNat_ofNat_of_lt' (by show c.toNat < 256; omega)
    simp only [Function.comp_apply, isPrintable, Bool.or_eq_true, Bool.and_eq_true, decide_eq_true_eq, UInt8.le_iff_toNat_le,
      ← UInt8.toNat_inj, hbyte]
    show 0x21 ≤ c.toNat ∧ c.toNat ≤ 0x7e ∨ c.toNat = 0x20
    omega
  have hlast' : isWhitespace last = false := by
    have hne : last ≠ ' ' := fun he => hlast (by rw [List.getLast?_concat, he])
    obtain ⟨hlow, hhigh⟩ := hprint last (List.mem_append_right _ List.mem_cons_self)
    have hspace : last.toNat ≠ 0x20 := fun he => hne (Char.toNat_inj.mp he)
    unfold isWhitespace
    simp only [Bool.or_eq_false_iff, Bool.and_eq_false_iff, decide_eq_false_iff_not, List.mem_cons, List.not_mem_nil, or_false]
    omega
  have htrim : trim ("TEXT ".toList ++ (init ++ [last])) = "TEXT ".toList ++ (init ++ [last]) :=
    @trim_eq_self 'T' last (by decide) hlast' ("EXT ".toList ++ init)
  have hsplit : splitOnce ' ' ("TEXT ".toList ++ (init ++ [last])) = some ("TEXT".toList, init ++ [last]) :=
    @splitOnce_append ' ' "TEXT".toList (by decide) (init ++ [last])
  have hargument : parseText (some (init ++ [last])) = .text ⟨init ++ [last], hfits⟩ := dif_pos ⟨hne, hfits, hall⟩
  refine ⟨⟨init ++ [last], hfits⟩, rfl, ?_⟩
  unfold parseCommand
  rw [asBytes, Utf8.decode_encode]
  dsimp only
  rw [htrim, if_neg (by simp), hsplit]
  exact congrArg some hargument

/-- From an empty line, whatever is typed and erased within the buffer to come to `TEXT`, a space and a printable text, with any
line ending and however the bytes arrive: the polls give the text, and nothing else, if and only if it does not end with a
space. -/
theorem text_exact_iff {s : Str} (hne : s ≠ []) (hlen : s.length ≤ TEXT_LEN) (hprint : ∀ c ∈ s, 0x20 ≤ c.toNat ∧ c.toNat ≤ 0x7e)
    {console : DebugConsole} (hempty : AtLine [] console) {edits : List Edit} (hvalid : ∀ edit ∈ edits, edit.Valid)
    (hwithin : Within [] edits) (hedited : edited [] edits = asBytes ("TEXT ".toList ++ s)) {ending : List UInt8}
    (hend : Terminator ending) {arrivals : List (List UInt8)} (harrive : arrivals.flatten = edits.flatMap Edit.bytes ++ ending) :
    (∃ text : DebugText, text.asStr = s ∧ (Mealy.outputs pollArrived (console, []) arrivals).reduceOption = [.text text]) ↔
      s.getLast? ≠ some ' ' := by
  obtain ⟨console', hline, hcr, hcommands⟩ := commands_edits hvalid hempty hwithin ending
  have hedits : edits ≠ [] := by
    rintro rfl
    nomatch hedited
  rw [hedited] at hline
  rw [commands_terminator hend hline (hcr (.inr hedits))] at hcommands
  constructor
  · rintro ⟨text, rfl, hpolls⟩
    have hmem := commands_of_polls harrive hpolls
    rw [hcommands] at hmem
    exact text_getLast? (Option.mem_toList.mp hmem)
  · intro hlast
    obtain ⟨text, htext, hparse⟩ := parseText_line hne hlen hprint hlast
    rw [hparse] at hcommands
    exact ⟨text, htext, polls_of_commands hcommands harrive⟩

/-- A stray letter is erased, a cursor key is pressed, and the line ending comes in two polls. -/
theorem text_exact_iff_erased :
    (∃ text : DebugText, text.asStr = "a b".toList ∧
      (Mealy.outputs pollArrived ({}, []) [0x78 :: 0x08 :: asBytes "TEXT a".toList, [0x1b, 0x5b, 0x44, 0x20, 0x62, 0x0d],
        [0x0a], []]).reduceOption = [.text text]) ↔ "a b".toList.getLast? ≠ some ' ' :=
  @text_exact_iff "a b".toList (by decide) (by decide) (List.forall_iff_forall_mem.mp (by decide)) {} ⟨rfl, rfl, rfl⟩
    ([.type 0x78, .erase 0x08] ++ (asBytes "TEXT a".toList).map .type ++ [.escape [] 0x44, .type 0x20, .type 0x62])
    (by decide +kernel) (by decide +kernel) (by decide +kernel) [0x0d, 0x0a] (.inr (.inr rfl)) _ (by decide +kernel)

/-- A space at the end of a text is lost. -/
theorem trailing_space_lost :
    (Mealy.outputs pollArrived ({}, []) [asBytes "TEXT a ".toList ++ [0x0d]]).reduceOption = [.text ⟨['a'], by decide⟩] ∧
      (Mealy.outputs pollArrived ({}, []) [asBytes "TEXT  ".toList ++ [0x0d]]).reduceOption = [.invalid "missing_text"] := by
  refine ⟨by decide +kernel, by decide +kernel⟩

end DebugConsole

end Ratputer
