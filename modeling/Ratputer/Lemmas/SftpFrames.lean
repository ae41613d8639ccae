import Ratputer.Sftp.Session
import Ratputer.Lib.Effect

/-!
# What a request handler leaves alone

Up to its reply a handler moves the volume and the cursors of open files, and nothing else of the server. What it then does
is one of five things, `Handled`.
-/

namespace Ratputer

open Effect

variable {V : Type} {F : Fat V}

/-- The two worlds differ in the volume and in what open handles hold, at most. -/
structure World.Same (w w' : World F) : Prop where
  out : w'.server.out = w.server.out
  readStream : w'.server.readStream = w.server.readStream
  writeStream : w'.server.writeStream = w.server.writeStream
  resize : w'.server.resize = w.server.resize
  generation : w'.server.generation = w.server.generation
  tokens : w'.server.tokens = w.server.tokens
  fatal : w'.server.fatal = w.server.fatal
  open_slots : ∀ slot, (w'.server.handles slot).isNone = (w.server.handles slot).isNone

namespace World.Same

variable {w w' w'' : World F}

theorem refl (w : World F) : w.Same w := ⟨rfl, rfl, rfl, rfl, rfl, rfl, rfl, fun _ => rfl⟩

/-- Two steps that keep to the volume and the open handles, one after the other. -/
theorem trans (h : w.Same w') (h' : w'.Same w'') : w.Same w'' :=
  ⟨h'.out.trans h.out, h'.readStream.trans h.readStream, h'.writeStream.trans h.writeStream,
    h'.resize.trans h.resize, h'.generation.trans h.generation, h'.tokens.trans h.tokens, h'.fatal.trans h.fatal,
    fun slot => (h'.open_slots slot).trans (h.open_slots slot)⟩

instance : Std.Refl (World.Same (F := F)) := ⟨refl⟩

instance : IsTrans (World F) World.Same := ⟨fun _ _ _ => trans⟩

/-- A change of the volume. -/
theorem volume (w : World F) (v : V) : w.Same { w with volume := v } := ⟨rfl, rfl, rfl, rfl, rfl, rfl, rfl, fun _ => rfl⟩

/-- A change of what open handles hold. -/
theorem handles (w : World F) (handles : Slot → Option (Handle F)) (v : V)
    (h : ∀ slot, (handles slot).isNone = (w.server.handles slot).isNone) :
    w.Same { server := { w.server with handles }, volume := v } := ⟨rfl, rfl, rfl, rfl, rfl, rfl, rfl, h⟩

/-- The same slot is the next free one. -/
theorem freeSlot (h : w.Same w') : w'.server.freeSlot = w.server.freeSlot := by
  unfold Server.freeSlot
  congr 1
  funext slot
  exact h.open_slots slot

/-- Handle strings stand for the slots that they stood for. -/
theorem slotOf (h : w.Same w') (token : List UInt8) : w'.server.slotOf token = w.server.slotOf token := by
  simp only [Server.slotOf, h.open_slots, h.tokens]

end World.Same

section ends

variable {α : Type} {w : World F} {E : Status → World F → Prop}

/-- A look at the server. -/
theorem ends_view {f : Server F → α} {Q : α → World F → Prop} (h : Q (f w.server) w) : Ends (view f) w Q E := h

/-- A change of the server. -/
theorem ends_update {f : Server F → Server F} {Q : Unit → World F → Prop} (h : Q () { w with server := f w.server }) :
    Ends (update f) w Q E := h

/-- A reply that is queued. -/
theorem ends_reply {p : List UInt8} {Q : Unit → World F → Prop} (h : Q () (w.emit p)) : Ends (reply p) w Q E := h

/-- A checked result: its value is used, its status ends the handler. -/
theorem ends_check {r : Except Status α} {Q : α → World F → Prop} (hok : ∀ a, r = .ok a → Q a w)
    (herror : ∀ status, r = .error status → E status w) : Ends (check r) w Q E := by
  cases r with
  | ok a => exact hok a rfl
  | error status => exact herror status rfl

/-- A driver call. -/
theorem ends_call {op : FatM V α} {Q : Except FatError α → World F → Prop}
    (hok : ∀ a v, op w.volume = .ok a v → Q (.ok a) { w with volume := v })
    (herror : ∀ e v, op w.volume = .error e v → Q (.error e) { w with volume := v }) : Ends (call op) w Q E := by
  unfold Ends call
  cases hop : op w.volume with
  | ok a v => exact hok a v hop
  | error e v => exact herror e v hop

/-- A driver call whose error becomes a status. -/
theorem ends_callOr {op : FatM V α} {status : Status} {Q : α → World F → Prop}
    (hok : ∀ a v, op w.volume = .ok a v → Q a { w with volume := v })
    (herror : ∀ e v, op w.volume = .error e v → E status { w with volume := v }) : Ends (callOr op status) w Q E :=
  ends_bind (ends_call (fun a v hop => ends_pure (hok a v hop)) fun e v hop => ends_throw (herror e v hop))

end ends

/-- Status messages are short. -/
def Status.Short (status : Status) : Prop := (messageBytes status.message).length ≤ 64

instance (status : Status) : Decidable status.Short := inferInstanceAs (Decidable (_ ≤ _))

/-- A check fails with short messages only. -/
def ShortErrors {α : Type} (r : Except Status α) : Prop := ∀ status, r = .error status → status.Short

namespace ShortErrors

variable {α β : Type}

theorem ok (a : α) : ShortErrors (.ok a) := nofun

/-- A failure with a short message. -/
theorem error {status : Status} (h : status.Short) : ShortErrors (.error status : Except Status α) := by
  intro e he
  injection he with he
  rwa [← he]

/-- Checks one after the other. -/
theorem bind {r : Except Status α} {f : α → Except Status β} (hr : ShortErrors r) (hf : ∀ a, ShortErrors (f a)) :
    ShortErrors (r >>= f) := by
  cases r with
  | ok a => exact hf a
  | error status => exact error (hr status rfl)

/-- A guard that throws. -/
theorem guard {c : Prop} [Decidable c] {status : Status} {f : PUnit → Except Status β} (h : status.Short)
    (hf : ShortErrors (f ())) : ShortErrors (if c then throw status >>= f else f ()) := by
  split
  · exact error h
  · exact hf

end ShortErrors

/-- A part of a handler before its reply: its values are in `Q`. -/
def Quiet {α : Type} (Q : α → Prop) (m : SftpM F α) : Prop := Frames World.Same Status.Short Q m

namespace Quiet

variable {α β : Type} {Q : α → Prop}

/-- A value that is in `Q`. -/
theorem pure {a : α} (h : Q a) : Quiet (F := F) Q (pure a) := frames_pure h

/-- A status with a short message. -/
theorem throw {status : Status} (h : status.Short) : Quiet (F := F) Q (throw status) := frames_throw h

/-- Parts one after the other, the values of the first deciding the second. -/
theorem bind {m : SftpM F α} {f : α → SftpM F β} {Qf : β → Prop} (hm : Quiet Q m) (hf : ∀ a, Q a → Quiet Qf (f a)) :
    Quiet Qf (m >>= f) := frames_bind hm hf

/-- A driver call whose result is looked at. -/
theorem call (op : FatM V α) : Quiet (F := F) (fun _ => True) (call op) := by
  intro w
  unfold Ratputer.call Ends
  cases hop : op w.volume with
  | ok a v => simp only [hop]; exact ⟨.volume w v, trivial⟩
  | error e v => simp only [hop]; exact ⟨.volume w v, trivial⟩

/-- A driver call whose failure becomes a short status. -/
theorem callOr (op : FatM V α) {status : Status} (h : status.Short) :
    Quiet (F := F) (fun _ => True) (callOr op status) := by
  refine (call op).bind fun r _ => ?_
  split
  · exact .pure trivial
  · exact .throw h

/-- A look at the server. -/
theorem view (f : Server F → α) (h : ∀ s, Q (f s)) : Quiet Q (view f) := fun w => ⟨.refl w, h _⟩

/-- A look at the volume's figures. -/
theorem viewVolume (f : V → α) : Quiet (F := F) (fun _ => True) (viewVolume f) := fun w => ⟨.refl w, trivial⟩

/-- A guard that throws. -/
theorem guard {c : Prop} [Decidable c] {status : Status} {f : PUnit → SftpM F α} (h : status.Short) (hf : Quiet Q (f ())) :
    Quiet Q (if c then MonadExcept.throw status >>= f else f ()) := by
  split
  · exact (throw (Q := fun _ => False) h).bind fun _ h => h.elim
  · exact hf

/-- A checked result that fails with short messages only. -/
theorem check {r : Except Status α} (hok : ∀ a, r = .ok a → Q a) (h : ShortErrors r) : Quiet (F := F) Q (check r) := by
  cases r with
  | ok a => exact .pure (hok a rfl)
  | error status => exact .throw (h status rfl)

/-- The fields of a request, or the status for a bad message. -/
theorem parse (reader : ReaderM α) (body : List UInt8) :
    Quiet (F := F) (fun r => reader body = some r) (parse reader body) := by
  unfold Ratputer.parse
  split
  · exact .pure ‹_›
  · exact .throw (by decide)

/-- Finding the entry of a path. -/
theorem findEntry (parent : List Str) (leaf : Str) : Quiet (fun _ => True) (findEntry (F := F) parent leaf) := by
  refine (call _).bind fun r _ => ?_
  split
  · exact .pure trivial
  · exact .throw (by decide)

/-- Opening the directory of a path. -/
theorem openDirEntry (components : List Str) : Quiet (fun _ => True) (openDirEntry (F := F) components) :=
  callOr _ (by decide)

end Quiet

/-! ## Short messages -/

/-- The message about a bad handle string is short. -/
theorem Server.slotOf_short (s : Server F) (token : List UInt8) : ShortErrors (s.slotOf token) := by
  unfold slotOf
  dsimp only
  repeat' split
  all_goals first | exact .error (by decide) | exact .ok _

/-- A good handle string has four bytes, and is the token of an open slot. -/
theorem Server.slotOf_iff (s : Server F) (token : List UInt8) (slot : Slot) :
    s.slotOf token = .ok slot ↔
      token.length = 4 ∧ Octets.beNat token &&& 0xff = slot.val ∧ (s.handles slot).isNone = false ∧
        s.tokens slot = Octets.beNat token := by
  constructor
  · intro h
    unfold Server.slotOf at h
    dsimp only at h
    split at h
    · nomatch h
    rename_i hlen
    split at h
    swap
    · nomatch h
    split at h
    · nomatch h
    rename_i hopen
    injection h with h
    rw [not_or, not_not, Bool.not_eq_true, h] at hopen
    exact ⟨not_not.mp hlen, congrArg Fin.val h, hopen⟩
  · rintro ⟨hlen, hslot, hopen, htoken⟩
    have hlt : Octets.beNat token &&& 0xff < MAX_HANDLES := hslot ▸ slot.isLt
    have hfin : (⟨Octets.beNat token &&& 0xff, hlt⟩ : Slot) = slot := Fin.ext hslot
    unfold Server.slotOf
    simp only [hlen, ne_eq, not_true_eq_false, if_false, dif_pos hlt, hfin, hopen, htoken, Bool.false_eq_true, or_self]

/-- The message about a handle that is no file is short. -/
theorem Server.file_short (s : Server F) (slot : Slot) : ShortErrors (s.file slot) := by
  unfold file
  split
  · exact .ok _
  · exact .error (by decide)

/-- The message about an invalid handle is short. -/
theorem Server.handleComponents_short (s : Server F) (slot : Slot) : ShortErrors (s.handleComponents slot) := by
  unfold handleComponents
  split
  · exact .ok _
  · exact .ok _
  · exact .error (by decide)

/-- Splitting a path fails with the status it is given. -/
theorem splitLast_short (components : List Str) {status : Status} (h : status.Short) :
    ShortErrors (splitLast components status) := by
  unfold splitLast
  split
  · exact .ok _
  · exact .error h

/-- The path and attributes of a SETSTAT or MKDIR request. -/
def setstatBody : ReaderM (Str × RequestedAttrs) := do
  let path ← Reader.path
  let attrs ← Reader.attrs
  return (path, attrs)

/-- The handle string and attributes of an FSETSTAT request. -/
def fsetstatBody : ReaderM (List UInt8 × RequestedAttrs) := do
  let token ← Reader.string
  let attrs ← Reader.attrs
  return (token, attrs)

/-- The last component and those before it make up the path. -/
theorem splitLast_eq {components : List Str} {status : Status} {r : Str × List Str}
    (h : splitLast components status = .ok r) : components = r.2 ++ [r.1] := by
  unfold splitLast at h
  split at h
  · rename_i leaf hlast
    injection h with h
    rw [← h]
    exact (List.dropLast_append_getLast? leaf hlast).symm
  · nomatch h

/-- The message about a time out of range is short. -/
theorem fatTime_short (unix : Nat) (clock : ClockConfig) : ShortErrors (fatTime unix clock) := by
  unfold fatTime
  dsimp only
  split
  · exact .ok _
  · exact .error (by decide)

/-- The messages about attributes are short. -/
theorem validateAttrs_short (attrs : RequestedAttrs) (clock : ClockConfig) : ShortErrors (validateAttrs attrs clock) := by
  unfold validateAttrs
  split
  · refine .guard (by decide) (.guard (by decide) ?_)
    exact (fatTime_short _ _).bind fun _ => (fatTime_short _ _).bind fun _ => .ok _
  · exact .guard (by decide) (.guard (by decide) (.ok _))

/-- The message about a record that cannot be read is short. -/
theorem readdirEntries_short (ctx : Ctx) (records : List (Except FatError F.Entry)) (skip : Nat) (entries : List UInt8)
    (count : Nat) : ShortErrors (readdirEntries ctx records skip entries count) := by
  fun_induction readdirEntries ctx records skip entries count with
  | case1 => exact .ok _
  | case2 => exact .error (by decide)
  | case3 _ _ _ _ _ _ ih => exact ih
  | case4 _ _ _ _ _ _ _ ih => exact ih
  | case5 => exact .ok _
  | case6 _ _ _ _ _ _ _ _ ih => exact ih

end Ratputer
