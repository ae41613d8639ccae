import Ratputer.Lemmas.SftpChunks
import Ratputer.Lemmas.SftpSizes
import Ratputer.Lib.Patch

/-!
# A WRITE request and what its chunks do

The request as the client sends it, what the server reads of it, and a chunk of its payload as an effect on the content of a file.
-/

namespace Ratputer

open Effect Octets

variable {V : Type} {F : Fat V}

/-- A WRITE of a client, within the fields of its packet. -/
structure WriteRequest where
  id : Nat
  token : List UInt8
  offset : Nat
  data : List UInt8
  id_lt : id < 2 ^ 32
  offset_lt : offset < 2 ^ 64
  length_lt : 21 + token.length + data.length < 2 ^ 32

namespace WriteRequest

variable (r : WriteRequest)

def bytes : List UInt8 :=
  packet FXP_WRITE (putU32 r.id ++ putString r.token ++ putU64 r.offset ++ putString r.data)

/-- The length of a WRITE on the wire. -/
theorem length_bytes : r.bytes.length = 25 + r.token.length + r.data.length := by
  unfold bytes
  simp only [length_packet, List.length_append, length_putU32, length_putU64, length_putString]
  omega

/-- The fields of the packet in order: length, type, id, handle, offset, data. -/
theorem bytes_append (more : List UInt8) : r.bytes ++ more =
    putU32 (21 + r.token.length + r.data.length) ++ (UInt8.ofNat FXP_WRITE :: (putU32 r.id ++ (putU32 r.token.length ++
      (r.token ++ (putU64 r.offset ++ (putU32 r.data.length ++ (r.data ++ more))))))) := by
  have hlen : (putU32 r.id ++ putString r.token ++ putU64 r.offset ++ putString r.data).length + 1 =
      21 + r.token.length + r.data.length := by
    simp only [List.length_append, length_putU32, length_putU64, length_putString]
    omega
  unfold bytes packet
  rw [hlen]
  simp only [putString, List.append_assoc, List.cons_append]

/-- A number where it stands in the bytes. -/
theorem u32At_front {bytes : List UInt8} {i n : Nat} (hn : n < 2 ^ 32) (before after : List UInt8)
    (h : bytes = before ++ (putU32 n ++ after)) (hi : before.length = i) : u32At bytes i = n := by
  unfold u32At
  rw [h, List.drop_left' hi, List.take_left' (length_putU32 n)]
  exact beNat_beBytes hn

/-- Its type is WRITE. -/
theorem kindOf_bytes (more : List UInt8) : kindOf (r.bytes ++ more) = FXP_WRITE := by
  rw [kindOf_append (by rw [r.length_bytes]; omega), bytes, kindOf_packet (by decide)]

/-- The bytes before the handle string, and after it. -/
theorem bytes_append_token (more : List UInt8) : ∃ before, before.length = 9 ∧ r.bytes ++ more =
    before ++ (putU32 r.token.length ++ (r.token ++ (putU64 r.offset ++ (putU32 r.data.length ++ (r.data ++ more))))) :=
  ⟨putU32 (21 + r.token.length + r.data.length) ++ (UInt8.ofNat FXP_WRITE :: putU32 r.id), by simp,
    by rw [r.bytes_append, List.append_assoc, List.cons_append]⟩

/-- The length of its handle string is where the header has it. -/
theorem u32At_token (more : List UInt8) : u32At (r.bytes ++ more) 9 = r.token.length := by
  have hlen := r.length_lt
  obtain ⟨before, hbefore, heq⟩ := r.bytes_append_token more
  exact u32At_front (by omega) before _ heq hbefore

/-- The server reads the fields that the client wrote. -/
theorem writeHeader_bytes (more : List UInt8) : Sftp.writeHeader (r.bytes ++ more) r.token.length =
    { id := r.id, token := r.token, offset := r.offset, dataLen := r.data.length } := by
  have hlen := r.length_lt
  obtain ⟨before, hbefore, heq⟩ := r.bytes_append_token more
  have hid : u32At (r.bytes ++ more) 5 = r.id := by
    refine u32At_front r.id_lt (putU32 (21 + r.token.length + r.data.length) ++ [UInt8.ofNat FXP_WRITE])
      (putU32 r.token.length ++ (r.token ++ (putU64 r.offset ++ (putU32 r.data.length ++ (r.data ++ more))))) ?_ (by simp)
    rw [r.bytes_append, List.append_assoc, List.singleton_append]
  have h13 : (r.bytes ++ more).drop 13 =
      r.token ++ (putU64 r.offset ++ (putU32 r.data.length ++ (r.data ++ more))) := by
    rw [heq, ← List.append_assoc]
    exact List.drop_left' (by simp [hbefore])
  have hoffset : (r.bytes ++ more).drop (13 + r.token.length) =
      putU64 r.offset ++ (putU32 r.data.length ++ (r.data ++ more)) := by
    rw [← List.drop_drop, h13]
    exact List.drop_left' rfl
  have hdata : u32At (r.bytes ++ more) (21 + r.token.length) = r.data.length := by
    refine u32At_front (by omega) (before ++ putU32 r.token.length ++ r.token ++ putU64 r.offset) (r.data ++ more) ?_
      (by simp [hbefore]; omega)
    rw [heq]
    simp only [List.append_assoc]
  have hread : beNat (putU64 r.offset) = r.offset := beNat_beBytes r.offset_lt
  unfold Sftp.writeHeader
  rw [hid, h13, List.take_left' rfl, hoffset, List.take_left' (length_putU64 _), hdata, hread]

/-- After the header comes the payload. -/
theorem drop_bytes (more : List UInt8) : (r.bytes ++ more).drop (25 + r.token.length) = r.data ++ more := by
  obtain ⟨before, hbefore, heq⟩ := r.bytes_append_token more
  have hsplit : r.bytes ++ more = (before ++ putU32 r.token.length ++ r.token ++ putU64 r.offset ++
      putU32 r.data.length) ++ (r.data ++ more) := by
    rw [heq]
    simp only [List.append_assoc]
  rw [hsplit]
  exact List.drop_left' (by simp [hbefore]; omega)

end WriteRequest

/-! ## How a file was opened -/

/-- What a file handle holds since its OPEN. -/
def FileHandle.opened (file : FileHandle F) : FileHandle F := { file with size := 0, append := none, readAt := none }

def Handle.opened : Handle F → Handle F
  | .file f => .file f.opened
  | .dir d => .dir d

/-- The handles are those that were open before, under the same handle strings. -/
structure Server.SameHandles (s s' : Server F) : Prop where
  tokens : s'.tokens = s.tokens
  opened : ∀ slot, (s'.handles slot).map Handle.opened = (s.handles slot).map Handle.opened

namespace Server.SameHandles

variable {s s' s'' : Server F}

theorem refl (s : Server F) : s.SameHandles s := ⟨rfl, fun _ => rfl⟩

theorem trans (h : s.SameHandles s') (h' : s'.SameHandles s'') : s.SameHandles s'' :=
  ⟨h'.tokens.trans h.tokens, fun slot => (h'.opened slot).trans (h.opened slot)⟩

theorem symm (h : s.SameHandles s') : s'.SameHandles s := ⟨h.tokens.symm, fun slot => (h.opened slot).symm⟩

/-- Handle strings stand for the slots that they stood for. -/
theorem slotOf (h : s.SameHandles s') (token : List UInt8) : s'.slotOf token = s.slotOf token := by
  have hopen (slot : Slot) : (s'.handles slot).isNone = (s.handles slot).isNone := by
    have := congrArg Option.isNone (h.opened slot)
    rwa [Option.isNone_map, Option.isNone_map] at this
  simp only [Server.slotOf, hopen, h.tokens]

/-- A file is open in a slot as it was. -/
theorem fileAt (h : s.SameHandles s') {slot : Slot} {file' : FileHandle F} (hfile : s'.handles slot = some (.file file')) :
    ∃ file, s.handles slot = some (.file file) ∧ file.opened = file'.opened := by
  have hopened := h.opened slot
  rw [hfile] at hopened
  cases hs : s.handles slot with
  | none => rw [hs] at hopened; nomatch hopened
  | some handle =>
    rw [hs, Option.map_some, Option.map_some] at hopened
    injection hopened with hopened
    cases handle with
    | dir dir => nomatch hopened
    | file file =>
      injection hopened with hopened
      exact ⟨file, rfl, hopened.symm⟩

/-- A change of what the file of a slot holds since. -/
theorem update {slot : Slot} {file file' : FileHandle F} (hs : s.handles slot = some (.file file))
    (h : file'.opened = file.opened) :
    s.SameHandles { s with handles := Function.update s.handles slot (some (.file file')) } := by
  refine ⟨rfl, fun i => ?_⟩
  by_cases hi : i = slot
  · subst hi
    dsimp only
    rw [Function.update_self, hs, Option.map_some, Option.map_some, Handle.opened, Handle.opened, h]
  · dsimp only
    rw [Function.update_of_ne hi]

/-- Dropping cursors leaves the handles as they were opened. -/
theorem invalidateWritten (s : Server F) (slot : Slot) : s.SameHandles (s.invalidateWritten slot) := by
  unfold Server.invalidateWritten
  split
  · refine ⟨rfl, fun i => ?_⟩
    dsimp only
    cases hs : s.handles i with
    | none => rfl
    | some handle =>
      cases handle with
      | dir dir => rfl
      | file other =>
        dsimp only
        split
        · rfl
        · split <;> rfl
  · exact .refl s

end Server.SameHandles

/-- Card I/O stays on the file as it was opened. -/
def SameOpened (w w' : FileHandle F × V) : Prop := w'.1.opened = w.1.opened

instance : Std.Refl (SameOpened (F := F)) := ⟨fun _ => rfl⟩

instance : IsTrans (FileHandle F × V) SameOpened := ⟨fun _ _ _ h h' => Eq.trans h' h⟩

/-- Status of a request that was refused. -/
def Status.Refuses (status : Status) : Prop := status.code ≠ FX_OK

instance (status : Status) : Decidable status.Refuses := inferInstanceAs (Decidable (_ ≠ _))

/-- Card I/O whose errors refuse the request. -/
def OpenedFile {α : Type} (m : FileM F α) : Prop := Frames SameOpened Status.Refuses (fun _ => True) m

namespace OpenedFile

variable {α β : Type}

theorem pure (a : α) : OpenedFile (F := F) (pure a) := frames_pure trivial

theorem throw {status : Status} (h : status.Refuses) : OpenedFile (F := F) (throw status : FileM F α) := frames_throw h

/-- Parts of card I/O on a file, one after the other. -/
theorem bind {m : FileM F α} {f : α → FileM F β} (hm : OpenedFile m) (hf : ∀ a, OpenedFile (f a)) : OpenedFile (m >>= f) :=
  frames_bind hm fun a _ => hf a

/-- A guard that throws. -/
theorem guard {c : Prop} [Decidable c] {status : Status} {f : PUnit → FileM F α} (h : status.Refuses)
    (hf : OpenedFile (f ())) : OpenedFile (if c then MonadExcept.throw status >>= f else f ()) := by
  split
  · exact frames_bind (Q := fun _ => False) (frames_throw h) fun _ h => h.elim
  · exact hf

/-- A driver call on the file whose result is looked at. -/
theorem fileCall (op : FatM V α) : OpenedFile (F := F) (fileCall op) := by
  intro w
  unfold Ratputer.fileCall Ends
  cases hop : op w.2 with
  | ok a v => simp only [hop]; exact ⟨rfl, trivial⟩
  | error e v => simp only [hop]; exact ⟨rfl, trivial⟩

/-- A driver call under a status that refuses. -/
theorem fileCallOr (op : FatM V α) {status : Status} (h : status.Refuses) : OpenedFile (F := F) (fileCallOr op status) := by
  refine (fileCall op).bind fun r => ?_
  split
  · exact .pure _
  · exact .throw h

theorem fileView (f : FileHandle F → α) : OpenedFile (fileView f) := fun _ => ⟨rfl, trivial⟩

/-- A change of what the handle holds since its OPEN. -/
theorem fileUpdate (f : FileHandle F → FileHandle F)
    (h : ∀ file, (f file).opened = file.opened := by exact fun _ => rfl) : OpenedFile (fileUpdate f) := fun w => ⟨h w.1, trivial⟩

/-- Finding the entry of the file. -/
theorem fileEntry : OpenedFile (fileEntry (F := F)) := by
  refine (fileView _).bind fun file => (fileCall _).bind fun r => ?_
  split
  · exact .pure _
  · exact .throw (by decide)

/-- Opening a writer. -/
theorem openWriter (entry : F.Entry) (offset : Nat) : OpenedFile (openWriter entry offset) := by
  unfold Ratputer.openWriter
  split
  · refine (fileView _).bind fun append => (fileUpdate _).bind fun _ => ?_
    split
    · exact fileCallOr _ (by decide)
    · exact fileCallOr _ (by decide)
  · exact (fileUpdate _).bind fun _ => fileCallOr _ (by decide)

/-- Writing data. -/
theorem writeAll (writer : F.Writer) (data : List UInt8) : OpenedFile (writeAll writer data) := by
  refine (fileCallOr _ (by decide)).bind fun r => ?_
  obtain ⟨count, writer⟩ := r
  dsimp only
  split
  · exact (fileCall _).bind fun _ => .throw (by decide)
  · exact .pure _

/-- Writing a chunk. -/
theorem writeChunk (offset : Nat) (data : List UInt8) : OpenedFile (writeChunk (F := F) offset data) := by
  refine fileEntry.bind fun entry => .guard (by decide) (.guard (by decide) (.guard (by decide) ?_))
  refine (fileUpdate _ fun file => by split <;> rfl).bind fun _ => ?_
  refine (openWriter _ _).bind fun writer => (writeAll _ _).bind fun writer => ?_
  exact (fileCallOr _ (by decide)).bind fun _ => fileUpdate _

end OpenedFile

/-! ## Committed content -/

/-- Volumes in `Good` hold one file, by the paths in `Names`, with a committed content. A search tells its size. A chunk that
is written without an error is committed, and one that fails changes nothing that is committed. -/
structure Commits (F : Fat V) (Good : V → Prop) (Names : List Str → Str → Prop) (content : V → List UInt8) : Prop where
  findIn : ∀ parent leaf v, Names parent leaf → Good v → Ends (F.findIn parent leaf) v
    (fun found v' => Good v' ∧ content v' = content v ∧ ∀ entry ∈ found, entry.len = (content v).length)
    fun _ v' => Good v' ∧ content v' = content v
  writeChunk : ∀ (file : FileHandle F) offset data v, Names file.parent file.leaf → Good v →
    Ends (writeChunk offset data) (file, v)
      (fun _ w => Good w.2 ∧ content w.2 = Patch.writeAt 0 (content v) offset data)
      fun _ w => Good w.2 ∧ content w.2 = content v

/-- What a step of a payload comes to: a refusal, a piece of the payload, or zeros into the gap before it. -/
inductive PayloadStep (content : V → List UInt8) (appends : Bool) (offset : Nat) (payload c : List UInt8) :
    World F × Option Status × Bool → Prop
  | refused (w : World F) (status : Status) (taken : Bool) (hstatus : status.Refuses) (h : content w.volume = c) :
      PayloadStep content appends offset payload c (w, some status, taken)
  | wrote (w : World F) (hwithin : appends = false → offset ≤ c.length)
      (h : content w.volume = Patch.writeAt 0 c (if appends then c.length else offset) payload) :
      PayloadStep content appends offset payload c (w, none, true)
  | filled (w : World F) (happends : appends = false) (hgap : c.length < offset)
      (h : content w.volume = Patch.resize 0 c (c.length + min (offset - c.length) WRITE_CHUNK)) :
      PayloadStep content appends offset payload c (w, none, false)

section

variable {Good : V → Prop} {Names : List Str → Str → Prop} {content : V → List UInt8}

/-- Card I/O on the file of a slot, as far as the volume and how files were opened go. -/
theorem Commits.onFile (law : Commits F Good Names content) {w : World F} {slot : Slot} {file : FileHandle F}
    (hslot : w.server.handles slot = some (.file file)) (hnames : Names file.parent file.leaf) (hgood : Good w.volume)
    (offset : Nat) (data : List UInt8) : Ends (onFile slot (.failure "Invalid handle") (Ratputer.writeChunk offset data)) w
      (fun _ w' => w.server.SameHandles w'.server ∧ Good w'.volume ∧
        content w'.volume = Patch.writeAt 0 (content w.volume) offset data)
      fun status w' => w.server.SameHandles w'.server ∧ Good w'.volume ∧ content w'.volume = content w.volume ∧
        status.Refuses := by
  have hlaw := law.writeChunk file offset data w.volume hnames hgood
  have hopened := OpenedFile.writeChunk (F := F) offset data (file, w.volume)
  unfold Ratputer.onFile Ends
  simp only [hslot]
  cases hrun : Ratputer.writeChunk offset data (file, w.volume) with
  | ok _ r => exact ⟨.update hslot (hopened.ok hrun).1, hlaw.ok hrun⟩
  | error status r =>
    obtain ⟨hgood', hsame⟩ := hlaw.error hrun
    exact ⟨.update hslot (hopened.error hrun).1, hgood', hsame, (hopened.error hrun).2⟩

/-- A step of a payload on a good volume. -/
theorem writePayload_step (law : Commits F Good Names content) (stream : WriteStream) (payload : List UInt8) (mounted : Bool)
    {w : World F} (hgood : Good w.volume) {file : FileHandle F} (hslot : w.server.handles stream.slot = some (.file file))
    (hnames : Names file.parent file.leaf) :
    w.server.SameHandles (writePayload stream payload mounted w).1.server ∧
      Good (writePayload stream payload mounted w).1.volume ∧
      PayloadStep content file.appendMode stream.offset payload (content w.volume) (writePayload stream payload mounted w) := by
  unfold writePayload
  split
  · exact ⟨.refl _, hgood, .refused _ _ _ (by decide) rfl⟩
  simp only [hslot]
  have hfind := law.findIn file.parent file.leaf w.volume hnames hgood
  cases hrun : F.findIn file.parent file.leaf w.volume with
  | error e v =>
    obtain ⟨hgood', hsame⟩ := hfind.error hrun
    exact ⟨.refl _, hgood', .refused _ _ _ (by decide) hsame⟩
  | ok found v =>
    obtain ⟨hgood', hsame, hlen⟩ := hfind.ok hrun
    cases found with
    | none => exact ⟨.refl _, hgood', .refused _ _ _ (by decide) hsame⟩
    | some entry =>
      have hlen : entry.len = (content w.volume).length := hlen entry rfl
      have hchunk (start : Nat) (data : List UInt8) :=
        law.onFile (w := { w with volume := v }) hslot hnames hgood' start data
      dsimp only
      generalize hstart : (if decide (entry.len < if file.appendMode = true then entry.len else stream.offset) = true then
        entry.len else if file.appendMode = true then entry.len else stream.offset) = start
      generalize hdata : (if decide (entry.len < if file.appendMode = true then entry.len else stream.offset) = true then
        List.replicate (min ((if file.appendMode = true then entry.len else stream.offset) - entry.len) WRITE_CHUNK) 0
          else payload) = data
      cases hwrite : Ratputer.onFile stream.slot (.failure "Invalid handle") (writeChunk start data)
          { w with volume := v } with
      | error status w' =>
        obtain ⟨hkept, hgood'', hsame', hrefuses⟩ := (hchunk start data).error hwrite
        exact ⟨hkept, hgood'', .refused _ _ _ hrefuses (hsame'.trans hsame)⟩
      | ok _ w' =>
        obtain ⟨hkept, hgood'', hwritten⟩ := (hchunk start data).ok hwrite
        refine ⟨hkept.trans (.invalidateWritten _ _), hgood'', ?_⟩
        dsimp only at hwritten ⊢
        rw [hsame] at hwritten
        by_cases hgap : entry.len < if file.appendMode = true then entry.len else stream.offset
        · have happends : file.appendMode = false := by
            by_contra hon
            rw [if_pos (by simpa using hon)] at hgap
            exact lt_irrefl _ hgap
          simp only [happends, Bool.false_eq_true, if_false] at hgap hstart hdata ⊢
          simp only [hgap, decide_true, if_true] at hstart hdata ⊢
          refine .filled _ rfl (hlen ▸ hgap) ?_
          show content w'.volume = _
          rw [hwritten, ← hstart, ← hdata, hlen, Patch.writeAt_replicate]
        · simp only [hgap, decide_false, Bool.false_eq_true, if_false] at hstart hdata ⊢
          refine .wrote _ (fun happends => ?_) ?_
          · rw [happends] at hgap
            simpa [hlen] using hgap
          · show content w'.volume = _
            rw [hwritten, ← hstart, ← hdata, hlen]

end

end Ratputer
