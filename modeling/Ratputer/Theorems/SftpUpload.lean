import Ratputer.Lemmas.SftpUpload
import Ratputer.Theorems.SftpProgress

/-!
# An upload that is cut off

A run of WRITE requests on one file, left at any point. What the volume holds then is what the answered WRITEs made of the file,
each in full or as far as it got before its error, and of the next WRITE a part that is as far as whole chunks go.
-/

namespace Ratputer

open Effect

variable {V : Type} {F : Fat V}

namespace Sftp

/-- Where a WRITE begins in a content. -/
def start (appends : Bool) (r : WriteRequest) (c : List UInt8) : Nat := if appends then c.length else r.offset

/-- The content with data of a WRITE put into it. Without data it stays, whatever the offset. -/
def written (appends : Bool) (r : WriteRequest) (data c : List UInt8) : List UInt8 :=
  if data = [] then c else Patch.writeAt 0 c (start appends r c) data

/-- What a WRITE that is not complete has made of a content: zeros in the gap before its offset, or `k` whole chunks. -/
inductive Partway (appends : Bool) (r : WriteRequest) (c : List UInt8) : Nat → List UInt8 → Prop
  | gap (n : Nat) (happends : appends = false) (hdata : r.data ≠ []) (hle : c.length ≤ n) (hn : n ≤ r.offset) :
      Partway appends r c 0 (Patch.resize 0 c n)
  | chunks (k : Nat) (hk : k = 0 ∨ k * WRITE_CHUNK < r.data.length) :
      Partway appends r c k (written appends r (r.data.take (k * WRITE_CHUNK)) c)

/-- What a WRITE has made of a content, by the status of its answer. -/
inductive Left (appends : Bool) (r : WriteRequest) (c : List UInt8) : Status → List UInt8 → Prop
  | ok : Left appends r c ⟨FX_OK, "OK"⟩ (written appends r r.data c)
  | refused {status : Status} (hstatus : status.Refuses) {k : Nat} {d : List UInt8} (h : Partway appends r c k d) :
      Left appends r c status d

/-- What answered WRITEs have made of a content, one after the other. -/
inductive Uploaded (appends : WriteRequest → Bool) : List UInt8 → List (WriteRequest × Status) → List UInt8 → Prop
  | nil (c : List UInt8) : Uploaded appends c [] c
  | cons {r : WriteRequest} {status : Status} {answered : List (WriteRequest × Status)} {c d e : List UInt8}
      (h : Left (appends r) r c status d) (hrest : Uploaded appends d answered e) :
      Uploaded appends c ((r, status) :: answered) e

/-- The reply to a WRITE. -/
def replyTo (answer : WriteRequest × Status) : List UInt8 := statusPacket answer.1.id answer.2

/-- The handle of a WRITE appends. -/
def appends (s : Sftp F) (r : WriteRequest) : Bool :=
  match s.checkWrite r.token r.offset r.data.length with
  | .ok slot =>
    match s.server.handles slot with
    | some (.file file) => file.appendMode
    | _ => false
  | .error _ => false

/-- The WRITE is to a file by a path in `Names`, if its handle is good. -/
def WritesTo (Names : List Str → Str → Prop) (s : Sftp F) (r : WriteRequest) : Prop :=
  ∀ slot file, s.server.slotOf r.token = .ok slot → s.server.handles slot = some (.file file) → Names file.parent file.leaf

/-- Outside the range of a WRITE the content is as it was. -/
def Beside (appends : Bool) (r : WriteRequest) (before after : List UInt8) : Prop :=
  ∀ i < before.length, i < start appends r before ∨ start appends r before + r.data.length ≤ i → after[i]? = before[i]?

namespace UploadAux

/-! ## Contents -/

section

variable {a : Bool} {r : WriteRequest} {c d : List UInt8} {k : Nat}

/-- A WRITE without data changes nothing. -/
theorem written_nil (a : Bool) (r : WriteRequest) (c : List UInt8) : written a r [] c = c := if_pos rfl

/-- Before its first chunk a WRITE has made nothing of the content. -/
theorem partway_refl (a : Bool) (r : WriteRequest) (c : List UInt8) : Partway a r c 0 c := by
  have h : Partway a r c 0 (written a r (r.data.take (0 * WRITE_CHUNK)) c) := .chunks 0 (.inl rfl)
  rwa [Nat.zero_mul, List.take_zero, written_nil] at h

/-- What is outside the range of a WRITE stays as it was. -/
theorem partway_beside (h : Partway a r c k d) : Beside a r c d := by
  intro i hi hout
  cases h with
  | gap n _ _ hle _ => exact Patch.getElem?_resize_of_lt 0 hi hle
  | chunks k _ =>
    unfold written
    split
    · rfl
    · have hlen : (r.data.take (k * WRITE_CHUNK)).length ≤ r.data.length := List.length_take_le' ..
      exact Patch.getElem?_writeAt_of_outside 0 _ hi (by omega)

/-- The next piece of a payload goes on where the content is. -/
theorem writeAt_partway (h : Partway a r c k d) {count : Nat} (hcount : 0 < count) (hle : k * WRITE_CHUNK + count ≤ r.data.length)
    (hwithin : a = false → r.offset + k * WRITE_CHUNK ≤ d.length) :
    Patch.writeAt 0 d (if a then d.length else r.offset + k * WRITE_CHUNK) ((r.data.drop (k * WRITE_CHUNK)).take count) =
      written a r (r.data.take (k * WRITE_CHUNK + count)) c := by
  have hpiece : r.data.take (k * WRITE_CHUNK) ++ (r.data.drop (k * WRITE_CHUNK)).take count =
      r.data.take (k * WRITE_CHUNK + count) := List.take_add.symm
  have hne : r.data.take (k * WRITE_CHUNK + count) ≠ [] := by
    rw [← List.length_pos_iff, List.length_take]
    omega
  rw [written, if_neg hne, ← hpiece]
  cases h with
  | gap n happends _ hlen hn =>
    subst happends
    have hfull : n = r.offset := by
      have := hwithin rfl
      rw [Patch.length_resize] at this
      omega
    subst hfull
    simp only [Nat.zero_mul, Nat.add_zero, List.take_zero, List.nil_append, start, Bool.false_eq_true, if_false]
    exact Patch.writeAt_resize 0 _ hlen
  | chunks k hk =>
    by_cases hzero : k = 0
    · subst hzero
      simp only [Nat.zero_mul, Nat.add_zero, List.take_zero, List.nil_append, written_nil, start]
    · have hpos : 0 < k * WRITE_CHUNK := Nat.mul_pos (Nat.pos_of_ne_zero hzero) (by decide)
      have hlen : (r.data.take (k * WRITE_CHUNK)).length = k * WRITE_CHUNK := by
        rw [List.length_take]
        omega
      have hsome : r.data.take (k * WRITE_CHUNK) ≠ [] := by
        rw [← List.length_pos_iff]
        omega
      rw [written, if_neg hsome, ← Patch.writeAt_writeAt, hlen]
      congr 1
      cases a with
      | true =>
        simp only [start, if_true, Patch.length_writeAt, hlen]
        omega
      | false => rfl

/-- Zeros into the gap before a WRITE leave it in its gap. -/
theorem resize_partway (h : Partway false r c k d) (hdata : r.data ≠ []) (hgap : d.length < r.offset + k * WRITE_CHUNK) {m : Nat}
    (hm : d.length + m ≤ r.offset + k * WRITE_CHUNK) : k = 0 ∧ Partway false r c 0 (Patch.resize 0 d (d.length + m)) := by
  cases h with
  | gap n _ _ hle hn =>
    rw [Patch.length_resize] at hm ⊢
    rw [Patch.resize_resize 0 hle (Nat.le_add_right n m)]
    exact ⟨rfl, .gap _ rfl hdata (by omega) (by omega)⟩
  | chunks k hk =>
    by_cases hzero : k = 0
    · subst hzero
      rw [Nat.zero_mul, List.take_zero, written_nil] at hm ⊢
      exact ⟨rfl, .gap _ rfl hdata (by omega) (by omega)⟩
    · exfalso
      have hpos : 0 < k * WRITE_CHUNK := Nat.mul_pos (Nat.pos_of_ne_zero hzero) (by decide)
      have hlen : (r.data.take (k * WRITE_CHUNK)).length = k * WRITE_CHUNK := by
        rw [List.length_take]
        omega
      have hsome : r.data.take (k * WRITE_CHUNK) ≠ [] := by
        rw [← List.length_pos_iff]
        omega
      rw [written, if_neg hsome, Patch.length_writeAt, hlen] at hgap
      simp only [start, Bool.false_eq_true, if_false] at hgap
      omega

end

/-! ## Checks of a header -/

/-- A bad handle string is refused. -/
theorem slotOf_refuses {s : Server F} {token : List UInt8} {status : Status} (h : s.slotOf token = .error status) :
    status.Refuses := by
  unfold Server.slotOf at h
  dsimp only at h
  repeat' split at h
  all_goals cases h
  all_goals decide

/-- The file of a slot is the handle in it. -/
theorem file_ok {s : Server F} {slot : Slot} {file : FileHandle F} (h : s.file slot = .ok file) :
    s.handles slot = some (.file file) := by
  unfold Server.file at h
  split at h
  · injection h with h
    rw [← h]
    assumption
  · nomatch h

/-- A header is refused, or its handle is that of a file. -/
theorem checkWrite_cases (s : Sftp F) (token : List UInt8) (offset dataLen : Nat) :
    (∃ status, s.checkWrite token offset dataLen = .error status ∧ status.Refuses) ∨
      ∃ slot file, s.checkWrite token offset dataLen = .ok slot ∧ s.server.slotOf token = .ok slot ∧
        s.server.handles slot = some (.file file) := by
  unfold checkWrite
  cases hslot : s.server.slotOf token with
  | error status => exact .inl ⟨status, rfl, slotOf_refuses hslot⟩
  | ok slot =>
    cases hfile : s.server.file slot with
    | error status =>
      refine .inl ⟨status, ?_, ?_⟩
      · simp [bind, Except.bind, hfile]
      · unfold Server.file at hfile
        split at hfile
        · nomatch hfile
        · injection hfile with hfile
          subst hfile
          decide
    | ok file =>
      simp only [bind, Except.bind, hfile]
      split
      · exact .inl ⟨_, rfl, by decide⟩
      split
      · exact .inl ⟨_, rfl, by decide⟩
      · exact .inr ⟨slot, file, rfl, rfl, file_ok hfile⟩

/-- A header is checked against what the handles have been since their OPEN. -/
theorem checkWrite_same {s s' : Sftp F} (h : s.server.SameHandles s'.server) (token : List UInt8) (offset dataLen : Nat) :
    s'.checkWrite token offset dataLen = s.checkWrite token offset dataLen := by
  unfold checkWrite
  rw [h.slotOf]
  cases s.server.slotOf token with
  | error status => rfl
  | ok slot =>
    simp only [bind, Except.bind]
    unfold Server.file
    cases hs : s'.server.handles slot with
    | none =>
      have hnone := h.opened slot
      rw [hs, Option.map_none, eq_comm, Option.map_eq_none_iff] at hnone
      rw [hnone]
    | some handle =>
      cases handle with
      | dir dir =>
        have hdir := h.opened slot
        rw [hs, Option.map_some, eq_comm] at hdir
        obtain ⟨handle, hhandle, hopened⟩ := Option.map_eq_some_iff.mp hdir
        rw [hhandle]
        cases handle with
        | dir _ => rfl
        | file _ => nomatch hopened
      | file file' =>
        obtain ⟨file, hfile, hopened⟩ := h.fileAt hs
        have hwritable : file.writable = file'.writable := (congrArg FileHandle.writable hopened :)
        rw [hfile]
        dsimp only
        rw [hwritable]

/-! ## The stages of an upload -/

/-- What a pending stream has come to, `done` bytes of the payload being consumed: `d` is the content. -/
inductive Streamed (s₀ : Sftp F) (r : WriteRequest) (c : List UInt8) (done : Nat) (stream : WriteStream) (d : List UInt8) : Prop
  | going (file : FileHandle F) (k : Nat) (hslot : s₀.checkWrite r.token r.offset r.data.length = .ok stream.slot)
      (hfile : s₀.server.handles stream.slot = some (.file file)) (hfailed : stream.failed = none)
      (hoffset : stream.offset = r.offset + done) (hdone : done = k * WRITE_CHUNK) (h : Partway (s₀.appends r) r c k d)
  | refused (status : Status) (k : Nat) (hfailed : stream.failed = some status) (hstatus : status.Refuses)
      (h : Partway (s₀.appends r) r c k d)

/-- Where the session stands, the WRITEs before `rest` being answered and having made `c`. -/
inductive Now (content : V → List UInt8) (s₀ : Sftp F) (c : List UInt8) (future : List UInt8) (s : Sftp F) :
    List WriteRequest → Prop
  | between {rest : List WriteRequest} (hw : s.server.writeStream = none)
      (hinput : s.input ++ future = rest.flatMap WriteRequest.bytes) (hc : content s.volume = c) :
      Now content s₀ c future s rest
  | streaming {r : WriteRequest} {rest : List WriteRequest} (stream : WriteStream) (done : Nat) (hout : s.server.out = [])
      (hw : s.server.writeStream = some stream) (hid : stream.id = r.id) (hdone : done ≤ r.data.length)
      (hremaining : stream.remaining = r.data.length - done)
      (hinput : s.input ++ future = r.data.drop done ++ rest.flatMap WriteRequest.bytes)
      (h : Streamed s₀ r c done stream (content s.volume)) : Now content s₀ c future s (r :: rest)
  | dead {rest : List WriteRequest} (hfatal : s.server.fatal = true) (hc : content s.volume = c) :
      Now content s₀ c future s rest

/-- The session during an upload. -/
structure Stage (Good : V → Prop) (content : V → List UInt8) (s₀ : Sftp F) (c : List UInt8) (future : List UInt8) (s : Sftp F)
    (rest : List WriteRequest) : Prop where
  resize : s.server.resize = none
  readStream : s.server.readStream = none
  skip : s.skip = 0
  handles : s₀.server.SameHandles s.server
  good : Good s.volume
  now : Now content s₀ c future s rest

/-- What a step comes to: no reply and the same WRITEs to answer, or the reply to the next. -/
inductive Advanced (Good : V → Prop) (content : V → List UInt8) (s₀ : Sftp F) (c : List UInt8) (future : List UInt8)
    (s s' : Sftp F) : List WriteRequest → Prop
  | same {rest : List WriteRequest} (hout : s'.server.out = s.server.out) (h : Stage Good content s₀ c future s' rest) :
      Advanced Good content s₀ c future s s' rest
  | answered {r : WriteRequest} {rest : List WriteRequest} (status : Status) (d : List UInt8) (hout : s.server.out = [])
      (hreply : s'.server.out = replyTo (r, status)) (hleft : Left (s₀.appends r) r c status d)
      (h : Stage Good content s₀ d future s' rest) : Advanced Good content s₀ c future s s' (r :: rest)

/-! ## A step at a packet -/

section

variable {Good : V → Prop} {content : V → List UInt8} {s₀ s : Sftp F} {c future : List UInt8} {rest : List WriteRequest}
  {mounted : Bool} {ctx : Ctx}

/-- The stream is one of WRITEs. -/
theorem kindOf_between (hinput : s.input ++ future = rest.flatMap WriteRequest.bytes) (hlen : 5 ≤ s.input.length) :
    kindOf s.input = FXP_WRITE := by
  have hkind : kindOf (s.input ++ future) = kindOf s.input := kindOf_append hlen
  rw [← hkind, hinput]
  cases rest with
  | nil =>
    have hzero := congrArg List.length hinput
    rw [List.flatMap_nil, List.length_append, List.length_nil] at hzero
    omega
  | cons r rest => exact r.kindOf_bytes _

/-- A header that is there is that of the next WRITE, and its payload follows. -/
theorem header_of_between (hinput : s.input ++ future = rest.flatMap WriteRequest.bytes)
    (hlen : 25 + u32At s.input 9 ≤ s.input.length) : ∃ r more, rest = r :: more ∧ u32At s.input 9 = r.token.length ∧
      writeHeader s.input (u32At s.input 9) =
        { id := r.id, token := r.token, offset := r.offset, dataLen := r.data.length } ∧
      s.input.drop (25 + u32At s.input 9) ++ future = r.data ++ more.flatMap WriteRequest.bytes := by
  cases rest with
  | nil =>
    have hzero := congrArg List.length hinput
    rw [List.flatMap_nil, List.length_append, List.length_nil] at hzero
    omega
  | cons r more =>
    rw [List.flatMap_cons] at hinput
    have hfield : u32At (s.input ++ future) 9 = u32At s.input 9 := u32At_append (by omega)
    have hheader : writeHeader (s.input ++ future) (u32At s.input 9) = writeHeader s.input (u32At s.input 9) :=
      writeHeader_append hlen
    have htoken : u32At s.input 9 = r.token.length := by rw [← hfield, hinput, r.u32At_token]
    refine ⟨r, more, rfl, htoken, ?_, ?_⟩
    · rw [← hheader, hinput, htoken, r.writeHeader_bytes]
    · rw [← List.drop_append_of_le_length hlen, hinput, htoken, r.drop_bytes]

/-- The stream that the header of a WRITE starts. -/
theorem streamed_start (hhandles : s₀.server.SameHandles s.server) (r : WriteRequest) (c : List UInt8) :
    (s.writeStreamOf { id := r.id, token := r.token, offset := r.offset, dataLen := r.data.length }).id = r.id ∧
      (s.writeStreamOf { id := r.id, token := r.token, offset := r.offset, dataLen := r.data.length }).remaining =
        r.data.length ∧
      Streamed s₀ r c 0 (s.writeStreamOf { id := r.id, token := r.token, offset := r.offset, dataLen := r.data.length })
        c := by
  have hcheck := checkWrite_same hhandles r.token r.offset r.data.length
  unfold writeStreamOf
  dsimp only
  rcases checkWrite_cases s r.token r.offset r.data.length with ⟨status, herror, hstatus⟩ | ⟨slot, file, hok, _, hfile⟩
  · rw [herror]
    exact ⟨rfl, rfl, .refused status 0 rfl hstatus (partway_refl _ _ _)⟩
  · obtain ⟨file₀, hfile₀, _⟩ := hhandles.fileAt hfile
    rw [hok]
    exact ⟨rfl, rfl, .going file₀ 0 (hcheck.symm.trans hok) hfile₀ rfl rfl (Nat.zero_mul _).symm
      (partway_refl _ _ _)⟩

/-- A step at a packet takes up the next WRITE, waits, or finds the stream broken. -/
theorem step_between (h : Stage Good content s₀ c future s rest) (hw : s.server.writeStream = none)
    (hinput : s.input ++ future = rest.flatMap WriteRequest.bytes) (hc : content s.volume = c) :
    Advanced Good content s₀ c future s (s.step mounted ctx).1 rest := by
  have hstep := step_stepped s mounted ctx
  generalize s.step mounted ctx = x at hstep ⊢
  cases hstep with
  | idle => exact .same rfl h
  | malformed count hp =>
    exact .same rfl ⟨h.resize, h.readStream, h.skip, ⟨h.handles.tokens, h.handles.opened⟩, h.good, .dead rfl hc⟩
  | resize job _ _ hz => rw [h.resize] at hz; cases hz
  | read stream _ _ _ hr => rw [h.readStream] at hr; cases hr
  | payload stream _ _ _ _ _ _ _ _ hw' => rw [hw] at hw'; cases hw'
  | skip count _ _ _ _ _ hpos => exact absurd (h.skip ▸ hpos) (lt_irrefl 0)
  | oversized hp hlen hkind => exact absurd (kindOf_between hinput (by omega)) hkind
  | request hp hpos hkind hle hlen => exact absurd (kindOf_between hinput (by omega)) hkind
  | write hp hkind hhandle hlen hlength =>
    obtain ⟨r, more, rfl, htoken, hheader, hpayload⟩ := header_of_between hinput hlen
    obtain ⟨hid, hremaining, hstreamed⟩ :=
      streamed_start (s := { s with input := s.input.drop (25 + u32At s.input 9) }) h.handles r c
    refine .same rfl ⟨h.resize, h.readStream, h.skip, ⟨h.handles.tokens, h.handles.opened⟩, h.good, ?_⟩
    refine .streaming _ 0 hp.drained ?_ hid (Nat.zero_le _) hremaining hpayload (hc ▸ hstreamed)
    rw [← hheader]
    rfl

/-! ## A step of a payload -/

/-- With a payload pending a step goes on with it. -/
theorem step_of_stream {stream : WriteStream} (hlive : s.server.fatal = false) (hout : s.server.out = [])
    (hz : s.server.resize = none) (hr : s.server.readStream = none) (hw : s.server.writeStream = some stream) :
    s.step mounted ctx = s.continueWrite mounted := by
  unfold step
  simp only [hlive, hout, hz, hr, hw, Bool.false_eq_true, if_false, ne_eq, not_true_eq_false, Option.isSome_none,
    Option.isSome_some, if_true]

/-- A payload that comes in, `done` bytes of it being consumed. -/
structure Inflow (future : List UInt8) (s : Sftp F) (r : WriteRequest) (rest : List WriteRequest) (stream : WriteStream)
    (done : Nat) : Prop where
  out : s.server.out = []
  skip : s.skip = 0
  id : stream.id = r.id
  done_le : done ≤ r.data.length
  remaining : stream.remaining = r.data.length - done
  input : s.input ++ future = r.data.drop done ++ rest.flatMap WriteRequest.bytes

/-- The next piece of a payload, which is a full chunk or the tail. -/
structure Piece (s : Sftp F) (stream : WriteStream) (count : Nat) : Prop where
  pos : 0 < count
  input : count ≤ s.input.length
  remaining : count ≤ stream.remaining
  full : count < stream.remaining → count = WRITE_CHUNK

/-- The world after the card I/O of a payload: the volume is good, and nothing but the payload is pending. -/
structure Served (Good : V → Prop) (s₀ : Sftp F) (w : World F) : Prop where
  out : w.server.out = []
  resize : w.server.resize = none
  readStream : w.server.readStream = none
  handles : s₀.server.SameHandles w.server
  good : Good w.volume

/-- Payload that is taken off the input; with the last of it the WRITE is answered. -/
theorem advance_stage {r : WriteRequest} {stream : WriteStream} {done count : Nat} {w' : World F} (budget : Bool)
    (hserved : Served Good s₀ w') (hin : Inflow future s r rest stream done) (hle : count ≤ s.input.length)
    (hcount : count ≤ stream.remaining)
    (hgo : done + count < r.data.length → Streamed s₀ r c (done + count)
      { stream with remaining := stream.remaining - count } (content w'.volume))
    (hend : done + count = r.data.length →
      Left (s₀.appends r) r c (stream.failed.getD ⟨FX_OK, "OK"⟩) (content w'.volume)) :
    Advanced Good content s₀ c future s
      (({ s with toWorld := w', cardBudget := budget } : Sftp F).advanceWrite stream count) (r :: rest) := by
  obtain ⟨hout, hskip, hid, hdone, hremaining, hinput⟩ := hin
  obtain ⟨hout', hz, hr, hhandles, hgood⟩ := hserved
  have hnext : s.input.drop count ++ future = r.data.drop (done + count) ++ rest.flatMap WriteRequest.bytes := by
    rw [← List.drop_append_of_le_length hle, hinput, List.drop_append_of_le_length (by rw [List.length_drop]; omega),
      List.drop_drop]
  unfold advanceWrite
  by_cases hlast : stream.remaining - count = 0
  · have hall : done + count = r.data.length := by omega
    rw [hall, List.drop_length, List.nil_append] at hnext
    rw [if_pos hlast]
    refine .answered _ (content w'.volume) hout ?_ (hend hall)
      ⟨hz, hr, hskip, ⟨hhandles.tokens, hhandles.opened⟩, hgood, .between rfl hnext rfl⟩
    show w'.server.out ++ _ = _
    rw [hout', List.nil_append, replyTo, hid]
  · rw [if_neg hlast]
    refine .same (hout'.trans hout.symm) ⟨hz, hr, hskip, ⟨hhandles.tokens, hhandles.opened⟩, hgood, ?_⟩
    refine .streaming { stream with remaining := stream.remaining - count } (done + count) hout' rfl hid (by omega) ?_ hnext
      (hgo (by omega))
    show stream.remaining - count = _
    omega

/-- What a step makes of the result of a payload's card I/O. -/
def payloadServed (s : Sftp F) (stream : WriteStream) (count : Nat) (x : World F × Option Status × Bool) : Sftp F :=
  let z : Sftp F := { s with toWorld := x.1, cardBudget := false }
  if x.2.2 then
    z.advanceWrite { stream with offset := if x.2.1.isNone then stream.offset + count else stream.offset, failed := x.2.1 } count
  else { z with server.writeStream := some { stream with failed := x.2.1 } }

/-- Card I/O that takes no payload keeps the WRITE where it is. -/
theorem keep_stage {r : WriteRequest} {stream : WriteStream} {done : Nat} (count : Nat) {w' : World F} {failed : Option Status}
    (hserved : Served Good s₀ w') (hin : Inflow future s r rest stream done)
    (hs : Streamed s₀ r c done { stream with failed } (content w'.volume)) :
    Advanced Good content s₀ c future s (payloadServed s stream count (w', failed, false)) (r :: rest) := by
  refine .same (hserved.out.trans hin.out.symm) ⟨hserved.resize, hserved.readStream, hin.skip,
    ⟨hserved.handles.tokens, hserved.handles.opened⟩, hserved.good, ?_⟩
  exact .streaming { stream with failed } done hserved.out rfl hin.id hin.done_le hin.remaining hin.input hs

/-- A WRITE appends if its handle was opened so. -/
theorem appends_of_going {r : WriteRequest} {slot : Slot} {file : FileHandle F}
    (hslot : s₀.checkWrite r.token r.offset r.data.length = .ok slot)
    (hfile : s₀.server.handles slot = some (.file file)) : s₀.appends r = file.appendMode := by
  unfold appends
  rw [hslot]
  dsimp only
  rw [hfile]

/-- A stream without payload to come has made all of its WRITE. -/
theorem left_of_done {r : WriteRequest} {stream : WriteStream} {done : Nat} {d : List UInt8}
    (h : Streamed s₀ r c done stream d) (hdone : done = r.data.length) :
    Left (s₀.appends r) r c (stream.failed.getD ⟨FX_OK, "OK"⟩) d := by
  cases h with
  | refused status k hfailed hstatus h =>
    rw [hfailed]
    exact .refused hstatus h
  | going file k _ _ hfailed _ hk h =>
    rw [hfailed]
    have hempty : r.data = [] := by
      cases h with
      | gap n _ hdata _ _ =>
        rw [Nat.zero_mul] at hk
        exact List.length_eq_zero_iff.mp (hdone.symm.trans hk)
      | chunks k hlt =>
        rcases hlt with rfl | hlt
        · rw [Nat.zero_mul] at hk
          exact List.length_eq_zero_iff.mp (hdone.symm.trans hk)
        · omega
    cases h with
    | gap n _ hdata _ _ => exact absurd hempty hdata
    | chunks k _ =>
      rw [hempty, List.take_nil, written_nil]
      have hok : Left (s₀.appends r) r c ⟨FX_OK, "OK"⟩ (written (s₀.appends r) r r.data c) := .ok
      rwa [hempty, written_nil] at hok

variable {Names : List Str → Str → Prop}

/-- The file that a stream goes to, as it is in its slot now. -/
theorem file_of_going {r : WriteRequest} {slot : Slot} {file : FileHandle F} (hhandles : s₀.server.SameHandles s.server)
    (hnames : s₀.WritesTo Names r) (hslot : s₀.checkWrite r.token r.offset r.data.length = .ok slot)
    (hfile : s₀.server.handles slot = some (.file file)) :
    ∃ file', s.server.handles slot = some (.file file') ∧ Names file'.parent file'.leaf ∧
      file'.appendMode = s₀.appends r := by
  obtain ⟨file', hfile', hopened⟩ := hhandles.symm.fileAt hfile
  have hnamed : Names file.parent file.leaf := by
    rcases checkWrite_cases s₀ r.token r.offset r.data.length with ⟨status, herror, _⟩ | ⟨slot', file₁, hok, htoken, _⟩
    · rw [hslot] at herror
      cases herror
    · rw [hslot] at hok
      injection hok with hok
      subst hok
      exact hnames slot file htoken hfile
  have hparent : file'.parent = file.parent := (congrArg FileHandle.parent hopened :)
  have hleaf : file'.leaf = file.leaf := (congrArg FileHandle.leaf hopened :)
  have happend : file'.appendMode = file.appendMode := (congrArg FileHandle.appendMode hopened :)
  exact ⟨file', hfile', by rwa [hparent, hleaf], happend.trans (appends_of_going hslot hfile).symm⟩

/-- Refused card I/O leaves the content, and the rest of the payload is dropped. -/
theorem stage_refused {r : WriteRequest} {stream : WriteStream} {done count k : Nat} {w' : World F} {status : Status} (taken : Bool)
    (hserved : Served Good s₀ w') (hin : Inflow future s r rest stream done) (hpiece : Piece s stream count)
    (hstatus : status.Refuses) (hpart : Partway (s₀.appends r) r c k (content w'.volume)) :
    Advanced Good content s₀ c future s (payloadServed s stream count (w', some status, taken)) (r :: rest) := by
  cases taken with
  | true =>
    have hin : Inflow future s r rest { stream with failed := some status } done :=
      ⟨hin.out, hin.skip, hin.id, hin.done_le, hin.remaining, hin.input⟩
    exact advance_stage false hserved hin hpiece.input hpiece.remaining (fun _ => .refused status k rfl hstatus hpart)
      fun _ => .refused hstatus hpart
  | false => exact keep_stage count hserved hin (.refused status k rfl hstatus hpart)

/-- A piece that is written goes on where the content is, and the last one completes the WRITE. -/
theorem stage_wrote {r : WriteRequest} {stream : WriteStream} {file : FileHandle F} {done count k : Nat} {w' : World F}
    (hserved : Served Good s₀ w') (hin : Inflow future s r rest stream done) (hpiece : Piece s stream count)
    (hslot : s₀.checkWrite r.token r.offset r.data.length = .ok stream.slot)
    (hfile : s₀.server.handles stream.slot = some (.file file)) (hoffset : stream.offset = r.offset + done)
    (hk : done = k * WRITE_CHUNK)
    (hwhole : content w'.volume = written (s₀.appends r) r (r.data.take (k * WRITE_CHUNK + count)) c) :
    Advanced Good content s₀ c future s (payloadServed s stream count (w', none, true)) (r :: rest) := by
  have hin' : Inflow future s r rest { stream with offset := stream.offset + count, failed := none } done :=
    ⟨hin.out, hin.skip, hin.id, hin.done_le, hin.remaining, hin.input⟩
  have hremaining := hin.remaining
  refine advance_stage false hserved hin' hpiece.input hpiece.remaining (fun hlt => ?_) fun hall => ?_
  · have hcount : count = WRITE_CHUNK := hpiece.full (by omega)
    have hnext : done + count = (k + 1) * WRITE_CHUNK := by
      rw [Nat.succ_mul]
      omega
    refine .going file (k + 1) hslot hfile rfl ?_ hnext ?_
    · show stream.offset + count = _
      omega
    · rw [hwhole, ← hk, hnext]
      exact .chunks (k + 1) (.inr (hnext ▸ hlt))
  · rw [hwhole, ← hk, hall, List.take_length]
    exact .ok

/-- Zeros into the gap before the WRITE keep it in its gap. -/
theorem stage_filled {r : WriteRequest} {stream : WriteStream} {file : FileHandle F} {done k : Nat} (count : Nat) {w' : World F}
    (hserved : Served Good s₀ w') (hin : Inflow future s r rest stream done) (hdata : r.data ≠ [])
    (hslot : s₀.checkWrite r.token r.offset r.data.length = .ok stream.slot)
    (hfile : s₀.server.handles stream.slot = some (.file file)) (hoffset : stream.offset = r.offset + done)
    (hk : done = k * WRITE_CHUNK) (hpart : Partway (s₀.appends r) r c k (content s.volume)) (happends : s₀.appends r = false)
    (hgap : (content s.volume).length < stream.offset) (hc : content w'.volume = Patch.resize 0 (content s.volume)
      ((content s.volume).length + min (stream.offset - (content s.volume).length) WRITE_CHUNK)) :
    Advanced Good content s₀ c future s (payloadServed s stream count (w', none, false)) (r :: rest) := by
  rw [hoffset, hk] at hgap hc
  rw [happends] at hpart
  obtain ⟨rfl, hfilled⟩ := resize_partway hpart hdata hgap
    (m := min (r.offset + k * WRITE_CHUNK - (content s.volume).length) WRITE_CHUNK) (by omega)
  refine keep_stage count hserved hin (.going file 0 hslot hfile rfl hoffset hk ?_)
  rw [hc, happends]
  exact hfilled

/-- The card I/O of the next piece makes it of the WRITE, or of the gap before it, or ends it. -/
theorem stage_payload (law : Commits F Good Names content) {r : WriteRequest} (h : Stage Good content s₀ c future s (r :: rest))
    (hnames : s₀.WritesTo Names r) {stream : WriteStream} {file : FileHandle F} {done count k : Nat}
    (hin : Inflow future s r rest stream done) (hpiece : Piece s stream count)
    (hslot : s₀.checkWrite r.token r.offset r.data.length = .ok stream.slot)
    (hfile : s₀.server.handles stream.slot = some (.file file)) (hoffset : stream.offset = r.offset + done)
    (hk : done = k * WRITE_CHUNK) (hpart : Partway (s₀.appends r) r c k (content s.volume)) :
    Advanced Good content s₀ c future s (payloadServed s stream count
      (writePayload stream (s.input.take count) mounted { s.toWorld with server.writeStream := none })) (r :: rest) := by
  have hpos := hpiece.pos
  have hfits := hpiece.remaining
  have hremaining := hin.remaining
  have hdata : r.data ≠ [] := by
    rw [← List.length_pos_iff]
    omega
  obtain ⟨file', hfile', hnamed, happend⟩ := file_of_going h.handles hnames hslot hfile
  -- the piece in the input is the next one of the request
  have htaken : s.input.take count = (r.data.drop (k * WRITE_CHUNK)).take count := by
    have htake : (s.input ++ future).take count = s.input.take count := List.take_append_of_le_length hpiece.input
    rw [← hk, ← htake, hin.input, List.take_append_of_le_length (by rw [List.length_drop]; omega)]
  obtain ⟨hkept, hgood, hstep⟩ := writePayload_step (w := { s.toWorld with server.writeStream := none }) law stream
    (s.input.take count) mounted h.good hfile' hnamed
  have hsame := (writePayload_same stream (s.input.take count) mounted { s.toWorld with server.writeStream := none }).1
  change PayloadStep content file'.appendMode stream.offset (s.input.take count) (content s.volume) _ at hstep
  generalize writePayload stream (s.input.take count) mounted { s.toWorld with server.writeStream := none } = x
    at hkept hgood hstep hsame ⊢
  have hserved : Served Good s₀ x.1 := ⟨hsame.out.trans hin.out, hsame.resize.trans h.resize, hsame.readStream.trans h.readStream,
    ⟨hkept.tokens.trans h.handles.tokens, fun slot => (hkept.opened slot).trans (h.handles.opened slot)⟩, hgood⟩
  cases hstep with
  | refused w' status taken hstatus hc => exact stage_refused taken hserved hin hpiece hstatus (hc.symm ▸ hpart)
  | wrote w' hwithin hc =>
    refine stage_wrote hserved hin hpiece hslot hfile hoffset hk ?_
    rw [hc, htaken, happend, hoffset, hk]
    exact writeAt_partway hpart hpos (by omega) fun hoff => by
      have := hwithin (happend.trans hoff)
      omega
  | filled w' happends hgap hc =>
    exact stage_filled count hserved hin hdata hslot hfile hoffset hk hpart (happend.symm.trans happends) hgap hc

/-- A step of the payload that is in the input makes its piece of the WRITE, or of the gap before it, or ends it. -/
theorem step_streaming (law : Commits F Good Names content) {r : WriteRequest}
    (h : Stage Good content s₀ c future s (r :: rest)) (hnames : s₀.WritesTo Names r) {stream : WriteStream} {done : Nat}
    (hin : Inflow future s r rest stream done) (hw : s.server.writeStream = some stream)
    (hs : Streamed s₀ r c done stream (content s.volume)) :
    Advanced Good content s₀ c future s (s.step mounted ctx).1 (r :: rest) := by
  have hchunk : WRITE_CHUNK = 8192 := rfl
  have hremaining := hin.remaining
  have hforgotten : Served Good s₀ { s.toWorld with server.writeStream := none } :=
    ⟨hin.out, h.resize, h.readStream, ⟨h.handles.tokens, h.handles.opened⟩, h.good⟩
  cases hlive : s.server.fatal with
  | true =>
    rw [step_of_fatal hlive]
    exact .same rfl h
  | false =>
  rw [step_of_stream hlive hin.out h.resize h.readStream hw]
  unfold continueWrite
  simp only [hw]
  by_cases hzero : stream.remaining = 0
  · rw [if_pos hzero, advanceWrite_forget]
    exact advance_stage _ hforgotten hin (Nat.zero_le _) (Nat.zero_le _) (fun hlt => by omega)
      fun hall => left_of_done hs (by omega)
  rw [if_neg hzero]
  split
  · exact .same rfl h
  rename_i havailable
  generalize hcount : min (min s.input.length stream.remaining) WRITE_CHUNK = count
  have hpiece : Piece s stream count := ⟨by omega, by omega, by omega, fun _ => by omega⟩
  cases hs with
  | refused status k hfailed hstatus hpart =>
    rw [if_pos (by rw [hfailed]; rfl), advanceWrite_forget]
    refine advance_stage _ hforgotten hin hpiece.input hpiece.remaining (fun _ => .refused status k hfailed hstatus hpart)
      fun _ => ?_
    rw [hfailed]
    exact .refused hstatus hpart
  | going file k hslot hfile hfailed hoffset hk hpart =>
    rw [if_neg (by rw [hfailed]; decide)]
    split
    · exact .same rfl h
    have hstage : Advanced Good content s₀ c future s (payloadServed s stream count
        (writePayload stream (s.input.take count) mounted { s.toWorld with server.writeStream := none })) (r :: rest) :=
      stage_payload law h hnames hin hpiece hslot hfile hoffset hk hpart
    unfold payloadServed at hstage
    split <;> rename_i htaken
    · rwa [if_pos htaken] at hstage
    · rwa [if_neg htaken] at hstage

/-- A step answers the next WRITE at most. -/
theorem stage_step (mounted : Bool) (ctx : Ctx) (law : Commits F Good Names content) (h : Stage Good content s₀ c future s rest)
    (hnames : ∀ r ∈ rest, s₀.WritesTo Names r) : Advanced Good content s₀ c future s (s.step mounted ctx).1 rest := by
  cases h.now with
  | between hw hinput hc => exact step_between h hw hinput hc
  | streaming stream done hout hw hid hdone hremaining hinput hs =>
    exact step_streaming law h (hnames _ (List.mem_cons_self ..)) ⟨hout, h.skip, hid, hdone, hremaining, hinput⟩ hw hs
  | dead hfatal hc =>
    rw [step_of_fatal hfatal]
    exact .same rfl h

/-! ## Runs -/

/-- Answered WRITEs, one run after the other. -/
theorem uploaded_append {appends : WriteRequest → Bool} {c d e : List UInt8} {before after : List (WriteRequest × Status)}
    (h : Uploaded appends c before d) (h' : Uploaded appends d after e) : Uploaded appends c (before ++ after) e := by
  induction h with
  | nil c => exact h'
  | cons hleft _ ih => exact .cons hleft (ih h')

/-- An event answers the next WRITE at most, with its output drained. -/
theorem stage_serve (law : Commits F Good Names content) {e : Event} (h : Stage Good content s₀ c (e.fed ++ future) s rest)
    (hnames : ∀ r ∈ rest, s₀.WritesTo Names r) : ∃ answered rest' d, rest = answered.map Prod.fst ++ rest' ∧
      Uploaded s₀.appends c answered d ∧ Stage Good content s₀ d future (s.serve e).1 rest' ∧
      (s.serve e).2.taken ++ (s.serve e).1.server.out = s.server.out ++ answered.flatMap replyTo ∧
      (answered.dropLast = [] ∧ (answered ≠ [] → s.server.out = [])) := by
  have hsame (htaken : (s.serve e).2.taken ++ (s.serve e).1.server.out = s.server.out)
      (h' : Stage Good content s₀ c future (s.serve e).1 rest) : ∃ answered rest' d,
        rest = answered.map Prod.fst ++ rest' ∧ Uploaded s₀.appends c answered d ∧
        Stage Good content s₀ d future (s.serve e).1 rest' ∧
        (s.serve e).2.taken ++ (s.serve e).1.server.out = s.server.out ++ answered.flatMap replyTo ∧
        (answered.dropLast = [] ∧ (answered ≠ [] → s.server.out = [])) :=
    ⟨[], rest, c, rfl, .nil c, h', by rw [List.flatMap_nil, List.append_nil]; exact htaken, rfl, fun hne => absurd rfl hne⟩
  cases e with
  | feed bytes =>
    refine hsame rfl ⟨h.resize, h.readStream, h.skip, h.handles, h.good, ?_⟩
    have hmore {l : List UInt8} (hinput : s.input ++ (bytes ++ future) = l) : (s.input ++ bytes) ++ future = l := by
      rwa [List.append_assoc]
    cases h.now with
    | between hw hinput hc => exact .between hw (hmore hinput) hc
    | streaming stream done hout hw hid hdone hremaining hinput hs =>
      exact .streaming stream done hout hw hid hdone hremaining (hmore hinput) hs
    | dead hfatal hc => exact .dead hfatal hc
  | consume count =>
    refine hsame ?_ ⟨h.resize, h.readStream, h.skip, ⟨h.handles.tokens, h.handles.opened⟩, h.good, ?_⟩
    · show s.server.out.take count ++ s.server.out.drop (min count s.server.out.length) = _
      rcases Nat.le_total count s.server.out.length with hle | hle
      · rw [Nat.min_eq_left hle, List.take_append_drop]
      · rw [Nat.min_eq_right hle, List.take_of_length_le hle, List.drop_length, List.append_nil]
    · cases h.now with
      | between hw hinput hc => exact .between hw hinput hc
      | streaming stream done hout hw hid hdone hremaining hinput hs =>
        refine .streaming stream done ?_ hw hid hdone hremaining hinput hs
        show s.server.out.drop _ = []
        rw [hout, List.drop_nil]
      | dead hfatal hc => exact .dead hfatal hc
  | beginPoll =>
    refine hsame rfl ⟨h.resize, h.readStream, h.skip, h.handles, h.good, ?_⟩
    cases h.now with
    | between hw hinput hc => exact .between hw hinput hc
    | streaming stream done hout hw hid hdone hremaining hinput hs =>
      exact .streaming stream done hout hw hid hdone hremaining hinput hs
    | dead hfatal hc => exact .dead hfatal hc
  | step mounted ctx =>
    cases stage_step mounted ctx law h hnames with
    | same hout h' => exact hsame hout h'
    | @answered r rest status d hout hreply hleft h' =>
      refine ⟨[(r, status)], rest, d, rfl, .cons hleft (.nil d), h', ?_, rfl, fun _ => hout⟩
      show [] ++ (s.step mounted ctx).1.server.out = _
      rw [hreply, hout, List.flatMap_singleton]

/-- What a run comes to: the answered WRITEs are done, the replies to all but the last of them are taken, and the session is at
the next. -/
theorem stage_run (law : Commits F Good Names content) (es : List Event) (h : Stage Good content s₀ c (fed es ++ future) s rest)
    (hnames : ∀ r ∈ rest, s₀.WritesTo Names r) : ∃ answered rest' d, rest = answered.map Prod.fst ++ rest' ∧
      Uploaded s₀.appends c answered d ∧ Stage Good content s₀ d future (Mealy.final serve s es) rest' ∧
      takenIn (Mealy.outputs serve s es) ++ (Mealy.final serve s es).server.out =
        s.server.out ++ answered.flatMap replyTo ∧
      (answered ≠ [] → s.server.out ++ answered.dropLast.flatMap replyTo <+: takenIn (Mealy.outputs serve s es)) := by
  induction es generalizing s c rest with
  | nil => exact ⟨[], rest, c, rfl, .nil c, h, by simp [takenIn], fun hne => absurd rfl hne⟩
  | cons e es ih =>
    have hfed : fed (e :: es) ++ future = e.fed ++ (fed es ++ future) := by
      rw [fed, List.flatMap_cons, List.append_assoc]
      rfl
    rw [hfed] at h
    obtain ⟨first, rest₁, d₁, rfl, hfirst, hstage, htaken, honly, hidle⟩ := stage_serve law h hnames
    obtain ⟨later, rest₂, d₂, rfl, hlater, hstage', htaken', hearlier⟩ :=
      ih hstage fun r hr => hnames r (List.mem_append_right _ hr)
    have hseen : takenIn (Mealy.outputs serve s (e :: es)) =
        (s.serve e).2.taken ++ takenIn (Mealy.outputs serve (s.serve e).1 es) := by
      rw [Mealy.outputs_cons, takenIn, List.flatMap_cons]
      rfl
    rw [Mealy.final_cons, hseen]
    refine ⟨first ++ later, rest₂, d₂, by rw [List.map_append, List.append_assoc], uploaded_append hfirst hlater, hstage', ?_, ?_⟩
    · rw [List.append_assoc, htaken', ← List.append_assoc, htaken, List.append_assoc, List.flatMap_append]
    · intro hne
      by_cases hlast : later = []
      · subst hlast
        rw [List.append_nil] at hne ⊢
        rw [honly, hidle hne]
        exact List.nil_prefix
      · rw [List.dropLast_append_of_ne_nil hlast, List.flatMap_append, ← List.append_assoc, ← htaken, List.append_assoc]
        exact (List.prefix_append_right_inj _).mpr (hearlier hlast)

/-- A stream has made a part of its WRITE, whether it goes on or was refused. -/
theorem partway_of_streamed {r : WriteRequest} {stream : WriteStream} {done : Nat} {d : List UInt8}
    (h : Streamed s₀ r c done stream d) : ∃ k, Partway (s₀.appends r) r c k d := by
  cases h with
  | going _ k _ _ _ _ _ h => exact ⟨k, h⟩
  | refused _ k _ _ h => exact ⟨k, h⟩

end

end UploadAux

/-- Whenever a session that only writes to one file is left, the file is good and holds what the answered WRITEs made of it, in
order: all of it where the answer is OK, else zeros in the gap or whole chunks. The replies to all but the last of them were
taken. While no reply waits, the next WRITE may have put zeros into its gap or whole chunks, and nothing beside its range. -/
theorem upload_leaves_prefix {Good : V → Prop} {Names : List Str → Str → Prop} {content : V → List UInt8}
    (law : Commits F Good Names content) {s : Sftp F} (hp : s.AtPacket) (hinput : s.input = []) (hgood : Good s.volume)
    (requests : List WriteRequest) (hfile : ∀ r ∈ requests, s.WritesTo Names r) (es : List Event)
    (hfed : fed es <+: requests.flatMap WriteRequest.bytes) :
    let t := Mealy.final serve s es
    ∃ answered rest c, requests = answered.map Prod.fst ++ rest ∧
      takenIn (Mealy.outputs serve s es) ++ t.output = answered.flatMap replyTo ∧
      answered.dropLast.flatMap replyTo <+: takenIn (Mealy.outputs serve s es) ∧
      Uploaded s.appends (content s.volume) answered c ∧ Good t.volume ∧
      (content t.volume = c ∨ t.output = [] ∧ ∃ r more k, rest = r :: more ∧
        Partway (s.appends r) r c k (content t.volume) ∧ Beside (s.appends r) r c (content t.volume)) := by
  intro t
  obtain ⟨future, hfuture⟩ := hfed
  have hstage : UploadAux.Stage Good content s (content s.volume) (fed es ++ future) s requests :=
    ⟨hp.resize, hp.readStream, hp.skip, .refl _, hgood, .between hp.writeStream (by rw [hinput]; exact hfuture) rfl⟩
  obtain ⟨answered, rest, c, hrequests, huploaded, hstage', htaken, hearlier⟩ := UploadAux.stage_run law es hstage hfile
  rw [hp.drained, List.nil_append] at htaken hearlier
  refine ⟨answered, rest, c, hrequests, htaken, ?_, huploaded, hstage'.good, ?_⟩
  · by_cases hnone : answered = []
    · subst hnone
      exact List.nil_prefix
    · exact hearlier hnone
  · have hnow := hstage'.now
    clear hrequests hstage'
    cases hnow with
    | between _ _ hc => exact .inl hc
    | dead _ hc => exact .inl hc
    | @streaming r more _ _ hout _ _ _ _ _ hs =>
      obtain ⟨k, hpart⟩ := UploadAux.partway_of_streamed hs
      exact .inr ⟨hout, r, more, k, rfl, hpart, UploadAux.partway_beside hpart⟩

/-- The volume in memory, on a card where a write past `room` bytes comes back short. -/
def roomy (room : Nat) : Fat Ram.Volume :=
  { Ram.fat with
    writerWrite := fun place data v => if place.offset + data.length ≤ room then Ram.write place data v else .ok (0, place) v
    readerRead_le := Ram.read_le }

namespace UploadAux

/-- The volume holds one file, `a`. -/
def OneFile (v : Ram.Volume) : Prop := ∃ r, v.files = [r] ∧ r.name.1 = "a".toList

/-- The content of the first file. -/
def firstContent (v : Ram.Volume) : List UInt8 := (v.files.head?.map (·.content.1)).getD []

/-- The file by its name. -/
def NamesA (_ : List Str) (leaf : Str) : Prop := eqIgnoreAsciiCase "a".toList leaf = true

instance (parent : List Str) (leaf : Str) : Decidable (NamesA parent leaf) := inferInstanceAs (Decidable (_ = true))

section

variable {room : Nat} {α : Type}

/-- Card I/O that leaves the volume alone. -/
def Still (room : Nat) (w w' : FileHandle (roomy room) × Ram.Volume) : Prop := w'.2 = w.2

instance : Std.Refl (Still room) := ⟨fun _ => rfl⟩

instance : IsTrans (FileHandle (roomy room) × Ram.Volume) (Still room) := ⟨fun _ _ _ h h' => Eq.trans h' h⟩

/-- A call that leaves the volume alone, on an open file. -/
theorem still_fileCall {op : FatM Ram.Volume α} (h : ∀ v, Ends op v (fun _ v' => v' = v) fun _ v' => v' = v) :
    Frames (Still room) (fun _ => True) (fun _ => True) (fileCall op) := by
  intro w
  unfold fileCall Ends
  cases hop : op w.2 with
  | ok a v => simp only [hop]; exact ⟨(h w.2).ok hop, trivial⟩
  | error e v => simp only [hop]; exact ⟨(h w.2).error hop, trivial⟩

/-- The same under the status for its failure. -/
theorem still_fileCallOr {op : FatM Ram.Volume α} (status : Status)
    (h : ∀ v, Ends op v (fun _ v' => v' = v) fun _ v' => v' = v) :
    Frames (Still room) (fun _ => True) (fun _ => True) (fileCallOr op status) := by
  refine frames_bind (still_fileCall h) fun r _ => ?_
  split
  · exact frames_pure trivial
  · exact frames_throw trivial

/-- A search of the root finds what is there and leaves the volume alone. -/
theorem findIn_still (parent : List Str) (leaf : Str) (v : Ram.Volume) :
    Ends ((roomy room).findIn parent leaf) v
      (fun found v' => v' = v ∧ found = (v.find leaf).map Ram.Record.entry) fun _ v' => v' = v := by
  cases parent with
  | nil => exact ⟨rfl, rfl⟩
  | cons _ _ => exact rfl

/-- Finding the entry of an open file leaves the volume alone. -/
theorem still_fileEntry : Frames (Still room) (fun _ => True) (fun _ => True) (fileEntry (F := roomy room)) := by
  refine frames_bind (Q := fun _ => True) (fun w => ⟨rfl, trivial⟩) fun file _ => ?_
  refine frames_bind (still_fileCall fun v => (findIn_still _ _ v).mono (fun _ _ h => h.1) fun _ _ h => h) fun r _ => ?_
  split
  · exact frames_pure trivial
  · exact frames_throw trivial

/-- Opening a writer leaves the volume alone. -/
theorem still_openWriter (entry : FileEntry Nat) (offset : Nat) :
    Frames (Still room) (fun _ => True) (fun _ => True) (openWriter (F := roomy room) entry offset) := by
  have hresume (cursor : Ram.Place) (v : Ram.Volume) :
      Ends (Ram.resumeAppend entry cursor) v (fun _ v' => v' = v) fun _ v' => v' = v := by
    unfold Ram.resumeAppend Ram.resume Ends
    dsimp only
    by_cases hplace : cursor.offset = entry.len
    · rw [if_pos hplace]
      by_cases hcursor : cursor.id = entry.identity ∧ cursor.len = entry.len
      · rw [if_pos hcursor]
      · rw [if_neg hcursor]
    · rw [if_neg hplace]
  unfold openWriter
  split
  · refine frames_bind (Q := fun _ => True) (fun w => ⟨rfl, trivial⟩) fun append _ => ?_
    refine frames_bind (Q := fun _ => True) (fun w => ⟨rfl, trivial⟩) fun _ _ => ?_
    split
    · exact still_fileCallOr _ (hresume _)
    · exact still_fileCallOr _ fun v => rfl
  · exact frames_bind (Q := fun _ => True) (fun w => ⟨rfl, trivial⟩) fun _ _ => still_fileCallOr _ fun v => rfl

/-- A write that fails, or comes back short, leaves the volume alone. -/
theorem writerWrite_still (place : Ram.Place) (data : List UInt8) (v : Ram.Volume) :
    Ends ((roomy room).writerWrite place data) v (fun r v' => r.1 = data.length ∨ v' = v) fun _ v' => v' = v := by
  show Ends (fun v => if place.offset + data.length ≤ room then Ram.write place data v else .ok (0, place) v) v _ _
  unfold Ends
  dsimp only
  by_cases hroom : place.offset + data.length ≤ room
  · rw [if_pos hroom]
    unfold Ram.write
    cases v.file place.id with
    | none => rfl
    | some r =>
      dsimp only
      by_cases hshort : (Ram.splice r.content.1 place.offset data).length < 2 ^ 32
      · rw [if_pos hshort]
        exact .inl rfl
      · rw [if_neg hshort]
  · rw [if_neg hroom]
    exact .inr rfl

/-- Writing data changes the file's content alone, and a full card keeps what fits. -/
theorem writeAll_still (place : Ram.Place) (data : List UInt8) (w : FileHandle (roomy room) × Ram.Volume) :
    Ends (writeAll (F := roomy room) place data) w (fun _ _ => True) fun _ w' => w'.2 = w.2 := by
  unfold writeAll
  refine ends_bind (ends_fileCallOr ((writerWrite_still place data w.2).mono ?_ fun _ _ h => h))
  rintro ⟨count, place'⟩ v' hcount
  dsimp only
  split
  · rename_i hshort
    exact ends_bind (hcount.resolve_left hshort)
  · trivial

/-- A chunk that fails leaves the volume alone. -/
theorem writeChunk_still (offset : Nat) (data : List UInt8) (w : FileHandle (roomy room) × Ram.Volume) :
    Ends (writeChunk (F := roomy room) offset data) w (fun _ _ => True) fun _ w' => w'.2 = w.2 := by
  unfold writeChunk
  refine still_fileEntry.ends_bind (fun entry w₁ h₁ _ => ?_) fun _ _ h _ => h
  dsimp only
  split
  · exact ends_bind h₁
  split
  · exact ends_bind h₁
  split
  · exact ends_bind h₁
  refine ends_bind (show Ends (fileUpdate _) w₁ _ _ from ?_)
  refine (still_openWriter entry offset).ends_bind (fun place w₂ h₂ _ => ?_) fun _ _ h _ => h.trans h₁
  refine ends_bind ((writeAll_still place data w₂).mono (fun place' w₃ _ => ?_) fun _ _ h => h.trans (h₂.trans h₁))
  exact ends_bind (ends_fileCallOr trivial)

/-- A write that is not cut short puts its data into the content. -/
theorem firstContent_write {place place' : Ram.Place} {data : List UInt8} {v v' : Ram.Volume} {r : Ram.Record}
    (hfiles : v.files = [r]) (hid : place.id = r.id) (hplace : place.offset ≤ r.content.1.length)
    (h : (roomy room).writerWrite place data v = .ok (data.length, place') v') :
    (∃ r', v'.files = [r'] ∧ r'.name = r.name) ∧
      firstContent v' = Patch.writeAt 0 (firstContent v) place.offset data := by
  have hfile : v.file place.id = some r := by
    rw [Ram.Volume.file, hfiles, List.find?_cons_of_pos (by simp [hid])]
  have hcontent : firstContent v = r.content.1 := by
    rw [firstContent, hfiles]
    rfl
  change (if place.offset + data.length ≤ room then Ram.write place data v else .ok (0, place) v) = _ at h
  split at h
  · unfold Ram.write at h
    rw [hfile] at h
    dsimp only at h
    split at h
    · rename_i hshort
      injection h with _ hv
      have hfiles' : v'.files = [r.withContent (Ram.splice r.content.1 place.offset data)] := by
        rw [← hv, Ram.Volume.change, hfiles, List.map_singleton, if_pos hid.symm]
      refine ⟨⟨_, hfiles', ?_⟩, ?_⟩
      · rw [Ram.Record.withContent, dif_pos hshort]
      · rw [hcontent, firstContent, hfiles', Ram.Record.withContent, dif_pos hshort, Patch.writeAt_of_le 0 data hplace]
        show Ram.splice r.content.1 place.offset data = _
        rw [Ram.splice, Nat.sub_eq_zero_of_le hplace, List.replicate_zero, List.append_nil]
    · cases h
  · injection h with h1 hv
    injection h1 with hlen _
    have hempty : data = [] := List.length_eq_zero_iff.mp hlen.symm
    subst hv hempty
    refine ⟨⟨r, hfiles, rfl⟩, ?_⟩
    rw [hcontent, Patch.writeAt_of_le 0 [] hplace]
    simp

/-- Writers are opened as on any card. -/
theorem opens_eq {entry : FileEntry Nat} {offset : Nat} {append : Option Ram.Place} {v v' : Ram.Volume} {place : Ram.Place}
    (h : ChunkAux.Opens (F := roomy room) entry offset append v place v') :
    ChunkAux.Opens (F := Ram.fat) entry offset append v place v' := by
  cases append with
  | none => exact h
  | some cursor => exact h

/-- The volume in memory commits what it writes. -/
theorem roomy_commits : Commits (roomy room) OneFile NamesA firstContent := by
  have hfind {leaf : Str} {v : Ram.Volume} {r : Ram.Record} (hfiles : v.files = [r]) (hname : r.name.1 = "a".toList)
      (hleaf : eqIgnoreAsciiCase "a".toList leaf = true) : v.find leaf = some r := by
    rw [Ram.Volume.find, hfiles, List.find?_cons_of_pos]
    rwa [hname]
  have hlen {v : Ram.Volume} {r : Ram.Record} (hfiles : v.files = [r]) : r.entry.len = (firstContent v).length := by
    rw [firstContent, hfiles]
    rfl
  constructor
  · rintro parent leaf v hleaf ⟨r, hfiles, hname⟩
    refine (findIn_still parent leaf v).mono ?_ ?_
    · rintro found v' ⟨rfl, rfl⟩
      refine ⟨⟨r, hfiles, hname⟩, rfl, fun entry hentry => ?_⟩
      rw [hfind hfiles hname hleaf, Option.map_some] at hentry
      injection hentry with hentry
      rw [← hentry]
      exact hlen hfiles
    · rintro _ v' rfl
      exact ⟨⟨r, hfiles, hname⟩, rfl⟩
  · rintro file offset data v hleaf ⟨r, hfiles, hname⟩
    have hstill := writeChunk_still offset data (file, v)
    unfold Ends
    cases hrun : writeChunk (F := roomy room) offset data (file, v) with
    | error status w =>
      have hsame : w.2 = v := hstill.error hrun
      dsimp only
      rw [hsame]
      exact ⟨⟨r, hfiles, hname⟩, rfl⟩
    | ok _ w =>
      obtain ⟨entry, found, hentry, _, _, hwithin, place, opened, hopens, place', filled, hwrite, hfinish, _⟩ :=
        writeChunk_ok hrun
      obtain ⟨rfl, hsome⟩ := (findIn_still _ _ _).ok hentry
      rw [hfind hfiles hname hleaf, Option.map_some] at hsome
      injection hsome with hsome
      subst hsome
      obtain ⟨rfl, hid, hoffset⟩ := ProgressAux.ram_opens (opens_eq hopens)
      injection hfinish with _ hfilled
      subst hfilled
      subst hoffset
      obtain ⟨⟨r', hfiles', hname'⟩, hcontent⟩ := firstContent_write hfiles hid hwithin hwrite
      exact ⟨⟨r', hfiles', by rw [hname', hname]⟩, hcontent⟩

end

end UploadAux

/-- The empty file `a`, as OPEN puts it into its slot. -/
def openedFile (room : Nat) : FileHandle (roomy room) :=
  { parent := [], leaf := "a".toList, readable := false, writable := true, appendMode := false, size := 0, append := none,
    readAt := none }

theorem handles_pos : 0 < MAX_HANDLES := by decide

/-- A session with the empty file `a` open for writing. -/
def opened (room : Nat) : Sftp (roomy room) :=
  { server := Server.insert {} ⟨0, handles_pos⟩ (.file (openedFile room)), volume := oneFile }

/-- A WRITE of one byte past the end. -/
def gapWrite : WriteRequest where
  id := 2
  token := [0, 0, 1, 0]
  offset := 1
  data := [7]
  id_lt := by decide
  offset_lt := by decide
  length_lt := by decide

namespace UploadAux

/-- The session is at a packet. -/
theorem opened_atPacket (room : Nat) : (opened room).AtPacket := ⟨rfl, rfl, rfl, rfl, rfl, rfl⟩

/-- Its volume holds the one file. -/
theorem opened_oneFile (room : Nat) : OneFile (opened room).volume := ⟨_, rfl, rfl⟩

/-- Its one handle is that of the file. -/
theorem opened_handle (room : Nat) {slot : Slot} {file : FileHandle (roomy room)}
    (h : (opened room).server.handles slot = some (.file file)) : file = openedFile room := by
  unfold opened Server.insert at h
  dsimp only at h
  by_cases hslot : slot = ⟨0, handles_pos⟩
  · rw [hslot, Function.update_self] at h
    injection h with h
    injection h with h
    exact h.symm
  · rw [Function.update_of_ne hslot] at h
    cases h

/-- Whatever a WRITE is to, it is to that file. -/
theorem opened_writes (room : Nat) (r : WriteRequest) : (opened room).WritesTo NamesA r := by
  intro slot file _ hfile
  rw [opened_handle room hfile]
  show eqIgnoreAsciiCase "a".toList "a".toList = true
  decide

end UploadAux

/-- A WRITE that is cut off after the zeros in its gap. -/
theorem upload_leaves_prefix_gap :
    let es : List Event := [.feed gapWrite.bytes, .step true {}, .beginPoll, .step true {}]
    let t := Mealy.final serve (opened 100) es
    UploadAux.firstContent t.volume = [0] ∧ ∃ answered rest c, [gapWrite] = answered.map Prod.fst ++ rest ∧
      takenIn (Mealy.outputs serve (opened 100) es) ++ t.output = answered.flatMap replyTo ∧
      answered.dropLast.flatMap replyTo <+: takenIn (Mealy.outputs serve (opened 100) es) ∧
      Uploaded (opened 100).appends (UploadAux.firstContent (opened 100).volume) answered c ∧ UploadAux.OneFile t.volume ∧
      (UploadAux.firstContent t.volume = c ∨ t.output = [] ∧ ∃ r more k, rest = r :: more ∧
        Partway ((opened 100).appends r) r c k (UploadAux.firstContent t.volume) ∧
        Beside ((opened 100).appends r) r c (UploadAux.firstContent t.volume)) :=
  ⟨by decide +kernel, upload_leaves_prefix UploadAux.roomy_commits (UploadAux.opened_atPacket 100) rfl
    (UploadAux.opened_oneFile 100) [gapWrite] (fun r _ => UploadAux.opened_writes 100 r) _
    (List.prefix_refl _)⟩

/-- The content after the WRITEs that were answered OK, the others having left it alone. -/
def acknowledged (appends : WriteRequest → Bool) (c : List UInt8) (answered : List (WriteRequest × Status)) : List UInt8 :=
  answered.foldl (fun c a => if a.2 = ⟨FX_OK, "OK"⟩ then written (appends a.1) a.1 a.1.data c else c) c

/-- On a card with room for one byte the WRITE is answered with an error, and the zero in its gap stays. -/
theorem refused_write_leaves_zero :
    let es : List Event := [.feed gapWrite.bytes, .step true {}, .beginPoll, .step true {}, .beginPoll, .step true {}]
    let t := Mealy.final serve (opened 1) es
    Commits (roomy 1) UploadAux.OneFile UploadAux.NamesA UploadAux.firstContent ∧ (opened 1).AtPacket ∧
      fed es = [gapWrite].flatMap WriteRequest.bytes ∧
      ¬∃ answered rest, [gapWrite] = answered.map Prod.fst ++ rest ∧
        takenIn (Mealy.outputs serve (opened 1) es) ++ t.output = answered.flatMap replyTo ∧
        ∃ c, c = acknowledged (opened 1).appends (UploadAux.firstContent (opened 1).volume) answered ∧
          (UploadAux.firstContent t.volume = c ∨ ∃ r more k, rest = r :: more ∧
            Partway ((opened 1).appends r) r c k (UploadAux.firstContent t.volume)) := by
  intro es t
  refine ⟨UploadAux.roomy_commits, UploadAux.opened_atPacket 1, rfl, ?_⟩
  have hreply : takenIn (Mealy.outputs serve (opened 1) es) ++ t.output =
      replyTo (gapWrite, .failure "SD card full") := by decide +kernel
  have hcontent : UploadAux.firstContent t.volume = [0] := by decide +kernel
  have hempty : UploadAux.firstContent (opened 1).volume = [] := by decide +kernel
  rintro ⟨answered, rest, hrequests, htaken, c, rfl, hleft⟩
  rw [hreply] at htaken
  rw [hcontent, hempty] at hleft
  cases answered with
  | nil =>
    revert htaken
    decide +kernel
  | cons answer answered =>
    obtain ⟨r, status⟩ := answer
    rw [List.map_cons, List.cons_append] at hrequests
    injection hrequests with hr hnone
    obtain ⟨hmap, hrest⟩ := List.append_eq_nil_iff.mp hnone.symm
    rw [List.map_eq_nil_iff] at hmap
    subst hmap hrest
    have hstatus : status ≠ ⟨FX_OK, "OK"⟩ := by
      rintro rfl
      dsimp only at hr
      rw [List.flatMap_singleton, ← hr] at htaken
      revert htaken
      decide +kernel
    rcases hleft with hleft | ⟨_, _, _, hmore, _⟩
    · rw [acknowledged, List.foldl_cons, List.foldl_nil, if_neg hstatus] at hleft
      cases hleft
    · cases hmore

end Sftp

end Ratputer
