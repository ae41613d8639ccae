import Ratputer.Theorems.SftpBuffers
import Ratputer.Theorems.SftpFraming

/-!
# One reply to each request, in order

What the client takes from the server is the replies to its requests, one after the other, in the order of the requests. A
request that the server has taken up without answering it is a WRITE whose payload is arriving or a SETSTAT that grows a file.
-/

namespace Ratputer

variable {V : Type} {F : Fat V}

/-- What the head of a client's packet declares. A packet too short for an id has none. -/
structure Request where
  length : Nat
  kind : Nat
  id : Nat
  /-- The payload of a WRITE. -/
  dataLen : Nat
  deriving Repr, DecidableEq

def requestAt (bytes : List UInt8) : Request :=
  { length := u32At bytes 0
    kind := kindOf bytes
    id := if 5 ≤ u32At bytes 0 then u32At bytes 5 else 0
    dataLen := if kindOf bytes = FXP_WRITE then u32At bytes (21 + u32At bytes 9) else 0 }

/-- The packets of a client's stream whose length and type are there. -/
def requests (bytes : List UInt8) : List Request :=
  if bytes.length < 5 then [] else requestAt bytes :: requests (bytes.drop (4 + u32At bytes 0))
termination_by bytes.length
decreasing_by
  rw [List.length_drop]
  omega

/-- The sizes that a packet declares stay far from the wrap of `usize`. -/
def Request.Small (r : Request) : Prop := r.length < 2 ^ 31 ∧ r.dataLen < 2 ^ 31

instance (r : Request) : Decidable r.Small := inferInstanceAs (Decidable (_ ∧ _))

/-- The types of replies that carry their request's id. -/
def RESPONSE_TYPES : List Nat := FXP_HANDLE :: FXP_DATA :: REPLY_TYPES

/-- The status of a request that is too large to be accepted. -/
def tooLarge : Status := ⟨FX_BAD_MESSAGE, "Request too large"⟩

/-- The reply to a request: a whole packet, VERSION to INIT, and to any other one that has the request's id in its four octets,
and as much payload as it declares when it is DATA. A request too large to be accepted is refused as such, and INIT is no
exception; only a WRITE may have any size. -/
structure Answers (r : Request) (p : List UInt8) : Prop where
  framed : p.length = 4 + u32At p 0
  version : r.kind = FXP_INIT → r.length ≤ MAX_REQUEST → p = versionPacket
  oversized : r.kind ≠ FXP_WRITE → MAX_REQUEST < r.length → p = statusPacket r.id tooLarge
  own : r.kind ≠ FXP_INIT ∨ MAX_REQUEST < r.length → 9 ≤ p.length ∧ kindOf p ∈ RESPONSE_TYPES ∧ u32At p 5 = r.id
  payload : kindOf p = FXP_DATA → p.length = 13 + u32At p 9

namespace Sftp

open FramingAux

/-- The bytes of a `DATA` reply that are still to be queued. -/
def due (s : Sftp F) : Nat := (s.server.readStream.map ReadStream.remaining).getD 0

/-- A request is taken up and not answered. -/
def waiting (s : Sftp F) : Bool := s.server.writeStream.isSome || s.server.resize.isSome

/-- The requests of the stream are those answered, the one that waits, and those still in the input; and what was taken is the
replies to the answered ones, up to what is queued and what is due. -/
def InOrder (answers : Request → List UInt8 → Prop) (s : Sftp F) (stream taken : List UInt8) : Prop :=
  ∃ answered waits, requests stream = answered ++ waits ++ requests (s.input.drop (owed s)) ∧
    waits.length = (if s.waiting then 1 else 0) ∧
    ∀ due, due.length = s.due →
      ∃ replies, List.Forall₂ answers answered replies ∧ taken ++ s.output ++ due = replies.flatten

namespace RepliesAux

/-! ## Replies -/

/-- A request is small enough to be accepted. -/
def Accepted (r : Request) : Prop := r.kind = FXP_WRITE ∨ r.length ≤ MAX_REQUEST

/-- The types of replies are bytes. -/
theorem response_types_lt : ∀ kind ∈ RESPONSE_TYPES, kind < 256 := by decide

/-- A packet with an id declares its payload behind the id. -/
theorem u32At_packet_payload (kind id : Nat) (body : List UInt8) :
    u32At (packet kind (putU32 id ++ body)) 9 = u32At body 0 := by
  have hdrop : (packet kind (putU32 id ++ body)).drop 9 = body := by
    have heq : packet kind (putU32 id ++ body) =
        (putU32 ((putU32 id ++ body).length + 1) ++ UInt8.ofNat kind :: putU32 id) ++ body := by
      rw [packet, List.append_assoc, List.cons_append]
    rw [heq]
    exact List.drop_left' (by rw [List.length_append, List.length_cons, length_putU32, length_putU32])
  rw [u32At, u32At, hdrop, List.drop_zero]

/-- A packet of the right type with a request's id is a reply to it. -/
theorem answers_packet {r : Request} {kind : Nat} {body : List UInt8} (hkind : kind ∈ RESPONSE_TYPES) (hid : r.id < 2 ^ 32)
    (hinit : r.kind ≠ FXP_INIT) (hsize : Accepted r) (hlen : body.length < 2 ^ 31)
    (hdata : kind = FXP_DATA → body.length = 4 + u32At body 0) : Answers r (packet kind (putU32 r.id ++ body)) where
  framed := by
    rw [u32At_packet _ _ (by rw [List.length_append, length_putU32]; omega), length_packet]
    omega
  version h := absurd h hinit
  oversized hwrite hbig := by
    rcases hsize with hw | hle
    · exact absurd hw hwrite
    · exact absurd hle (not_le.mpr hbig)
  own _ := by
    refine ⟨?_, ?_, id_of_packet _ hid _⟩
    · rw [length_packet, List.length_append, length_putU32]
      omega
    · rw [kindOf_packet (response_types_lt kind hkind)]
      exact hkind
  payload hd := by
    rw [kindOf_packet (response_types_lt kind hkind)] at hd
    rw [u32At_packet_payload, length_packet, List.length_append, length_putU32, hdata hd]
    omega

/-- VERSION answers an INIT that is not too large. -/
theorem answers_version {r : Request} (hkind : r.kind = FXP_INIT) (hle : r.length ≤ MAX_REQUEST) :
    Answers r versionPacket where
  framed := by decide +kernel
  version _ _ := rfl
  oversized _ hbig := absurd hle (not_le.mpr hbig)
  own h := by
    rcases h with hne | hlt
    · exact absurd hkind hne
    · exact absurd hle (not_le.mpr hlt)
  payload h := by
    revert h
    decide +kernel

/-- A reply with the id answers any other accepted request. -/
theorem answers_reply {r : Request} {p : List UInt8} (h : IsReply r.id p) (hid : r.id < 2 ^ 32)
    (hinit : r.kind ≠ FXP_INIT) (hsize : Accepted r) : Answers r p := by
  obtain ⟨kind, body, hkind, rfl, hlen⟩ := h
  have hmax : MAX_OUTPUT = 8256 := rfl
  refine answers_packet (List.mem_cons_of_mem _ (List.mem_cons_of_mem _ hkind)) hid hinit hsize ?_ ?_
  · rw [length_packet, List.length_append] at hlen
    omega
  · intro hd
    rw [hd] at hkind
    exact absurd hkind (by decide)

/-- A request that is too large is refused as such. -/
theorem answers_oversized {r : Request} (hid : r.id < 2 ^ 32) (hbig : MAX_REQUEST < r.length) :
    Answers r (statusPacket r.id tooLarge) := by
  have hshort : Status.Short tooLarge := by decide
  obtain ⟨kind, body, hkind, heq, hlen⟩ := is_reply_status r.id hshort
  have hmax : MAX_OUTPUT = 8256 := rfl
  -- The packet is a reply to an accepted request as well, which has every part but the refusal.
  have hown : Answers { r with kind := FXP_WRITE } (statusPacket r.id tooLarge) := by
    refine answers_reply ?_ hid (show FXP_WRITE ≠ FXP_INIT by decide) (.inl rfl)
    exact ⟨kind, body, hkind, heq, hlen⟩
  exact ⟨hown.framed, fun _ hle => absurd hle (not_le.mpr hbig), fun _ _ => rfl,
    fun _ => hown.own (.inl (show FXP_WRITE ≠ FXP_INIT by decide)), hown.payload⟩

/-- A `DATA` header and the payload it declares are a reply. -/
theorem answers_data {r : Request} {payload : List UInt8} (hid : r.id < 2 ^ 32) (hinit : r.kind ≠ FXP_INIT) (hsize : Accepted r)
    (hlen : payload.length ≤ MAX_READ_REPLY) : Answers r (dataHeader r.id payload.length ++ payload) := by
  have hmax : MAX_READ_REPLY = 32768 := rfl
  have heq : dataHeader r.id payload.length ++ payload =
      packet FXP_DATA (putU32 r.id ++ (putU32 payload.length ++ payload)) := by
    rw [dataHeader, packet, List.length_append, List.length_append, length_putU32, length_putU32, List.append_assoc,
      List.cons_append, List.append_assoc]
    congr 2
    omega
  rw [heq]
  refine answers_packet (by decide) hid hinit hsize (by rw [List.length_append, length_putU32]; omega) fun _ => ?_
  have hsize : u32At (putU32 payload.length ++ payload) 0 = payload.length := by
    rw [u32At, List.drop_zero, List.take_left' (length_putU32 _)]
    exact Octets.beNat_beBytes (by omega)
  rw [hsize, List.length_append, length_putU32]

/-! ## Requests -/

/-- The id of a request has four bytes. -/
theorem requestAt_id_lt (bytes : List UInt8) : (requestAt bytes).id < 2 ^ 32 := by
  unfold requestAt
  dsimp only
  split
  · exact u32At_lt _ _
  · decide

/-- A stream with a header begins with a request. -/
theorem requests_of_length {bytes : List UInt8} (h : 5 ≤ bytes.length) :
    requests bytes = requestAt bytes :: requests (bytes.drop (4 + u32At bytes 0)) := by
  rw [requests, if_neg (by omega)]

/-- Bytes taken off the front of the input are taken off the front of the stream. -/
theorem drop_drop_append {α : Type} {bytes more : List α} {count : Nat} (h : count ≤ bytes.length) (n : Nat) :
    (bytes.drop count ++ more).drop n = (bytes ++ more).drop (count + n) := by
  rw [← List.drop_append_of_le_length h, List.drop_drop]

variable {s s' : Sftp F}

/-! ## What is taken up and not answered -/

/-- The request that waits for its answer is the one the server works on. -/
inductive Waits (s : Sftp F) : List Request → Prop
  | idle (hw : s.server.writeStream = none) (hz : s.server.resize = none) : Waits s []
  | write (stream : WriteStream) (r : Request) (hw : s.server.writeStream = some stream) (hz : s.server.resize = none)
      (hr : s.server.readStream = none) (hid : stream.id = r.id) (hr32 : r.id < 2 ^ 32) (hkind : r.kind = FXP_WRITE) :
      Waits s [r]
  | resize (job : ResizeJob F) (r : Request) (hz : s.server.resize = some job) (hw : s.server.writeStream = none)
      (hr : s.server.readStream = none) (hid : job.id = r.id) (hr32 : r.id < 2 ^ 32) (hkind : r.kind ≠ FXP_INIT)
      (hsize : Accepted r) : Waits s [r]

/-- One request waits at most. -/
theorem Waits.length {waits : List Request} (h : Waits s waits) : waits.length = if s.waiting then 1 else 0 := by
  cases h with
  | idle hw hz => simp [waiting, hw, hz]
  | write stream r hw hz => simp [waiting, hw]
  | resize job r hz hw => simp [waiting, hz]

/-- What was taken, what is queued and what is due are replies to the answered requests. -/
def Replied (s : Sftp F) (taken : List UInt8) (answered : List Request) : Prop :=
  ∀ due, due.length = s.due →
    ∃ replies, List.Forall₂ Answers answered replies ∧ taken ++ s.server.out ++ due = replies.flatten

variable {taken : List UInt8} {answered : List Request}

/-- What was replied is about the output and the pending READ alone. -/
theorem Replied.congr (h : Replied s taken answered) (hout : s'.server.out = s.server.out)
    (hr : s'.server.readStream = s.server.readStream) : Replied s' taken answered := by
  unfold Replied due
  rw [hout, hr]
  exact h

/-- Without a pending READ no payload is due. -/
theorem due_of_none (h : s.server.readStream = none) : s.due = 0 := by
  rw [due, h]
  rfl

/-- A request is answered by the reply that is queued for it and what of it is due. -/
theorem Replied.answer (s' : Sftp F) (h : Replied s taken answered) (hr : s.server.readStream = none) {r : Request} {p : List UInt8}
    (hout : s'.server.out = s.server.out ++ p) (hp : ∀ due, due.length = s'.due → Answers r (p ++ due)) :
    Replied s' taken (answered ++ [r]) := by
  intro due hdue
  obtain ⟨replies, hreplies, heq⟩ := h [] (due_of_none hr).symm
  rw [List.append_nil] at heq
  refine ⟨replies ++ [p ++ due], List.rel_append hreplies (.cons (hp due hdue) .nil), ?_⟩
  rw [hout, List.flatten_append, ← heq, List.flatten_singleton]
  simp only [List.append_assoc]

/-- A whole reply answers a request. -/
theorem Replied.reply (s' : Sftp F) (h : Replied s taken answered) (hr : s.server.readStream = none)
    (hr' : s'.server.readStream = none) {r : Request} {p : List UInt8} (hout : s'.server.out = s.server.out ++ p)
    (hp : Answers r p) : Replied s' taken (answered ++ [r]) := by
  refine h.answer s' hr hout fun due hdue => ?_
  rw [due_of_none hr', List.length_eq_zero_iff] at hdue
  rw [hdue, List.append_nil]
  exact hp

/-- Where the conversation is, `more` being the part of the stream that is not fed yet. -/
def Talk (s : Sftp F) (more taken : List UInt8) (all : List Request) : Prop :=
  ∃ answered waits, all = answered ++ waits ++ requests ((s.input ++ more).drop (owed s)) ∧ Waits s waits ∧
    Replied s taken answered

variable {more : List UInt8} {all : List Request}

/-- Bytes that are consumed are bytes no longer owed: the requests still to come are the same. -/
theorem rest_eq (s s' : Sftp F) {count : Nat} (hi : s'.input = s.input.drop count) (hcount : count ≤ s.input.length) (more : List UInt8)
    {n : Nat} (howed : count + owed s' = n) :
    requests ((s'.input ++ more).drop (owed s')) = requests ((s.input ++ more).drop n) := by
  rw [hi, drop_drop_append hcount, howed]

/-- A step that takes nothing off the input, and starts or ends no packet, leaves the requests still to come. -/
theorem rest_kept (s : Sftp F) {w' : World F} (hw : w'.server.writeStream = s.server.writeStream) (budget : Bool)
    {front : List Request} (hall : all = front ++ requests ((s.input ++ more).drop (owed s))) :
    all = front ++ requests ((({ s with toWorld := w', cardBudget := budget } : Sftp F).input ++ more).drop
      (owed ({ s with toWorld := w', cardBudget := budget } : Sftp F))) := by
  rw [owed_congr s ({ s with toWorld := w', cardBudget := budget } : Sftp F) rfl hw]
  exact hall

/-- Payload that is taken off leaves the input. -/
theorem advanceWrite_input (s : Sftp F) (stream : WriteStream) (count : Nat) :
    (s.advanceWrite stream count).input = s.input.drop count := by
  unfold advanceWrite
  dsimp only
  split <;> rfl

/-- A step of a WRITE's payload keeps the conversation, and answers the WRITE with its last byte. -/
theorem talk_payload {stream stream' : WriteStream} {w' : World F} {count : Nat} (budget : Bool)
    (h : Talk s more taken all) (hr : s.server.readStream = none) (hw : s.server.writeStream = some stream)
    (hid : stream'.id = stream.id) (hremaining : stream'.remaining = stream.remaining) (hfailed : ShortOption stream'.failed)
    (hinput : count ≤ s.input.length) (hcount : count ≤ stream.remaining)
    (hs : World.Same { s.toWorld with server.writeStream := none } w') :
    Talk (({ s with toWorld := w', cardBudget := budget } : Sftp F).advanceWrite stream' count) more taken all := by
  obtain ⟨answered, waits, hall, hwaits, hreplied⟩ := h
  cases hwaits with
  | idle hnone => rw [hw] at hnone; nomatch hnone
  | resize _ _ _ hnone => rw [hw] at hnone; nomatch hnone
  | write stream₀ r hw₀ hz _ hid₀ hr32 hkind =>
    have heq : stream₀ = stream := Option.some.inj (hw₀.symm.trans hw)
    subst heq
    have howed := owed_advanceWrite ({ s with toWorld := w', cardBudget := budget } : Sftp F) stream'
      (hremaining ▸ hcount)
    have hbefore : owed s = s.skip + stream₀.remaining := by
      rw [owed, hw]
      rfl
    have hrest := rest_eq s (({ s with toWorld := w', cardBudget := budget } : Sftp F).advanceWrite stream' count)
      (advanceWrite_input _ _ _) hinput more (n := owed s) (by dsimp only at howed ⊢; omega)
    have hread : w'.server.readStream = none := hs.readStream.trans hr
    by_cases hlast : stream'.remaining - count = 0
    · refine ⟨answered ++ [r], [], ?_, ?_, ?_⟩
      · rw [hrest, List.append_nil]
        exact hall
      · refine .idle ?_ ?_
        · rw [advanceWrite, if_pos hlast]
          rfl
        · rw [advanceWrite, if_pos hlast]
          exact hs.resize.trans hz
      · have hanswer : Answers r (statusPacket stream'.id (stream'.failed.getD ⟨FX_OK, "OK"⟩)) := by
          rw [hid, hid₀]
          exact answers_reply (is_reply_status _ (BuffersAux.getD_short hfailed)) hr32 (by rw [hkind]; decide) (.inl hkind)
        rw [advanceWrite, if_pos hlast]
        refine hreplied.reply _ hr hread ?_ hanswer
        show w'.server.out ++ _ = _
        rw [hs.out]
    · refine ⟨answered, [r], ?_, ?_, ?_⟩
      · rw [hrest]
        exact hall
      · rw [advanceWrite, if_neg hlast]
        exact .write _ r rfl (hs.resize.trans hz) hread (hid.trans hid₀) hr32 hkind
      · rw [advanceWrite, if_neg hlast]
        exact hreplied.congr hs.out hs.readStream

/-- A step of a growing SETSTAT keeps the conversation, or answers the SETSTAT. -/
theorem talk_resize {job : ResizeJob F} (h : Talk s more taken all) (hz : s.server.resize = some job) (mounted : Bool)
    (ctx : Ctx) :
    Talk ({ s with toWorld := s.continueResize mounted ctx, cardBudget := false } : Sftp F) more taken all := by
  obtain ⟨answered, waits, hall, hwaits, hreplied⟩ := h
  cases hwaits with
  | idle _ hnone => rw [hz] at hnone; nomatch hnone
  | write _ _ _ hnone => rw [hz] at hnone; nomatch hnone
  | resize job₀ r hz₀ hw hr hid hr32 hkind hsize =>
    have heq : job₀ = job := Option.some.inj (hz₀.symm.trans hz)
    subst heq
    rcases World.continueResize_cases hz mounted ctx with ⟨job', hjob, _, hs⟩ | ⟨status, hshort, hs⟩
    · refine ⟨answered, [r], rest_kept s hs.writeStream false hall, ?_, hreplied.congr hs.out hs.readStream⟩
      exact .resize job' r hs.resize (hs.writeStream.trans hw) (hs.readStream.trans hr) (hjob.trans hid) hr32 hkind hsize
    · refine ⟨answered ++ [r], [], ?_, ?_, ?_⟩
      · rw [List.append_nil]
        exact rest_kept s hs.writeStream false hall
      · exact .idle (hs.writeStream.trans hw) hs.resize
      · refine hreplied.reply _ hr (hs.readStream.trans hr) hs.out ?_
        rw [hid]
        exact answers_reply (is_reply_status _ hshort) hr32 hkind hsize

/-- A chunk of a `DATA` reply is part of what was due. -/
theorem talk_read {stream : ReadStream} (h : Talk s more taken all) (hr : s.server.readStream = some stream)
    (mounted : Bool) (hlive : (s.continueRead mounted).server.fatal = false) :
    Talk ({ s with toWorld := s.continueRead mounted, cardBudget := false } : Sftp F) more taken all := by
  obtain ⟨answered, waits, hall, hwaits, hreplied⟩ := h
  cases hwaits with
  | write _ _ _ _ hnone => rw [hr] at hnone; nomatch hnone
  | resize _ _ _ _ hnone => rw [hr] at hnone; nomatch hnone
  | idle hw hz =>
    rcases World.continueRead_cases hr mounted with hs | ⟨bytes, _, _, hle, hs⟩
    · rw [hs.fatal] at hlive
      nomatch hlive
    refine ⟨answered, [], rest_kept s hs.writeStream false hall,
      .idle (hs.writeStream.trans hw) (hs.resize.trans hz), fun due hdue => ?_⟩
    have hdue' : due.length = stream.remaining - bytes.length := by
      rw [hdue, Sftp.due, hs.readStream]
      show (Option.map _ (if _ then some _ else none)).getD 0 = _
      split
      · rfl
      · show 0 = _
        omega
    obtain ⟨replies, hreplies, heq⟩ := hreplied (bytes ++ due) (by
      rw [List.length_append, hdue', Sftp.due, hr]
      show _ = stream.remaining
      omega)
    refine ⟨replies, hreplies, ?_⟩
    rw [← heq]
    show taken ++ (s.continueRead mounted).server.out ++ due = _
    rw [hs.out]
    show taken ++ (s.server.out ++ bytes) ++ due = _
    simp only [List.append_assoc]

/-! ## The next request -/

/-- The stream of a WRITE has its id. -/
theorem writeStreamOf_id (s : Sftp F) (header : WriteHeader) : (s.writeStreamOf header).id = header.id := by
  unfold writeStreamOf
  split <;> rfl

/-- The id of a complete request is that of its packet. -/
theorem u32At_body {bytes : List UInt8} {n : Nat} (h : 9 ≤ n) : u32At ((bytes.take n).drop 5) 0 = u32At bytes 5 := by
  rw [u32At, u32At, List.drop_zero, List.drop_take, List.take_take, min_eq_left (by omega)]

/-- The next packet is the first request still to come. -/
theorem talk_start (h : Talk s more taken all) (hp : s.AtPacket) (hlen : 5 ≤ s.input.length) : ∃ answered r,
    all = answered ++ r :: requests ((s.input ++ more).drop (4 + u32At s.input 0)) ∧ Replied s taken answered ∧
      r = requestAt (s.input ++ more) ∧ r.length = u32At s.input 0 ∧ r.kind = kindOf s.input := by
  obtain ⟨answered, waits, hall, hwaits, hreplied⟩ := h
  have hidle : waits = [] := by
    cases hwaits with
    | idle => rfl
    | write _ _ hw => rw [hp.writeStream] at hw; nomatch hw
    | resize _ _ hz => rw [hp.resize] at hz; nomatch hz
  have howed : owed s = 0 := by
    rw [owed, hp.writeStream, hp.skip]
    rfl
  have hlong : 5 ≤ (s.input ++ more).length := by
    rw [List.length_append]
    omega
  refine ⟨answered, requestAt (s.input ++ more), ?_, hreplied, rfl, u32At_append (by omega), kindOf_append hlen⟩
  rw [hall, hidle, howed, List.drop_zero, List.append_nil, requests_of_length hlong, u32At_append (by omega)]

/-- The id of the next request is read off the input. -/
theorem request_id {r : Request} (hr : r = requestAt (s.input ++ more)) (hlength : 5 ≤ u32At s.input 0)
    (hlen : 9 ≤ s.input.length) : r.id = u32At s.input 5 := by
  rw [hr, requestAt]
  have hat : u32At (s.input ++ more) 0 = u32At s.input 0 := u32At_append (by omega)
  simp only [hat, if_pos hlength]
  exact u32At_append (by omega)

/-- An oversized request is answered before it is discarded. -/
theorem talk_oversized (h : Talk s more taken all) (hp : s.AtPacket) (hlen : 9 ≤ s.input.length)
    (hkind : kindOf s.input ≠ FXP_WRITE) (hbig : MAX_REQUEST < u32At s.input 0) (hno : ¬Wraps s.input) :
    Talk s.oversized more taken all := by
  obtain ⟨answered, r, hall, hreplied, hr, hlength, _⟩ := talk_start h hp (by omega)
  have hmax : MAX_REQUEST = 4096 := rfl
  rw [wraps_of_not_write hkind, not_le] at hno
  have hid : r.id = u32At s.input 5 := request_id hr (by omega) hlen
  refine ⟨answered ++ [r], [], ?_, .idle hp.writeStream hp.resize, ?_⟩
  · have howed : owed s.oversized = s.oversized.skip := by
      show s.oversized.skip + (s.server.writeStream.map WriteStream.remaining).getD 0 = _
      rw [hp.writeStream]
      rfl
    have hskip : s.oversized.skip = (4 + u32At s.input 0) % USIZE -
      min s.input.length ((4 + u32At s.input 0) % USIZE) := rfl
    rw [Nat.mod_eq_of_lt hno] at hskip
    rw [hall, rest_eq s s.oversized rfl (Nat.min_le_left _ _) more (n := 4 + u32At s.input 0)
      (by rw [Nat.mod_eq_of_lt hno]; omega)]
    simp
  · have hout : s.oversized.server.out =
      s.server.out ++ statusPacket (u32At s.input 5) tooLarge := rfl
    refine hreplied.reply s.oversized hp.readStream hp.readStream hout ?_
    rw [← hid]
    exact answers_oversized (hr ▸ requestAt_id_lt _) (by omega)

/-- A WRITE that is taken up waits for its answer. -/
theorem talk_write (h : Talk s more taken all) (hp : s.AtPacket) (hkind : kindOf s.input = FXP_WRITE)
    (hlen : 25 + u32At s.input 9 ≤ s.input.length)
    (hlength : u32At s.input 0 =
      (21 + u32At s.input 9 + (writeHeader s.input (u32At s.input 9)).dataLen) % USIZE)
    (hno : ¬Wraps s.input) : Talk (s.begunWrite (u32At s.input 9)) more taken all := by
  obtain ⟨answered, r, hall, hreplied, hr, hrlength, hrkind⟩ := talk_start h hp (by omega)
  obtain ⟨stream, hstream, hremaining⟩ := begunWrite_stream s (u32At s.input 9)
  rw [wraps_of_write hkind, not_le] at hno
  rw [Nat.mod_eq_of_lt hno] at hlength
  have hid : r.id = u32At s.input 5 := request_id hr (by omega) (by omega)
  refine ⟨answered, [r], ?_, ?_, hreplied.congr rfl rfl⟩
  · have howed : owed (s.begunWrite (u32At s.input 9)) = stream.remaining := by
      rw [owed, hstream]
      show s.skip + stream.remaining = _
      rw [hp.skip, Nat.zero_add]
    rw [hall, rest_eq s (s.begunWrite (u32At s.input 9)) rfl hlen more (n := 4 + u32At s.input 0) (by omega)]
    simp
  · refine .write _ r rfl hp.resize hp.readStream ?_ (hr ▸ requestAt_id_lt _) (hrkind.trans hkind)
    rw [hid]
    exact writeStreamOf_id _ _

/-- A complete request is answered, or waits for its answer, or has its reply's payload due. -/
theorem talk_request (h : Talk s more taken all) (hp : s.AtPacket) (hpos : 0 < u32At s.input 0)
    (hle : u32At s.input 0 ≤ MAX_REQUEST) (hlen : 4 + u32At s.input 0 ≤ s.input.length) {mounted : Bool} {ctx : Ctx}
    (hlive : (s.dispatched mounted ctx).server.fatal = false) : Talk (s.dispatched mounted ctx) more taken all := by
  obtain ⟨answered, r, hall, hreplied, hr, hrlength, hrkind⟩ := talk_start h hp (by omega)
  have hmax : MAX_REQUEST = 4096 := rfl
  have hbody : ((s.input.take (4 + u32At s.input 0)).drop 5).length = u32At s.input 0 - 1 := by
    rw [List.length_drop, List.length_take]
    omega
  have hrest (hw : (s.dispatched mounted ctx).server.writeStream = none) :
      requests (((s.dispatched mounted ctx).input ++ more).drop (owed (s.dispatched mounted ctx))) =
        requests ((s.input ++ more).drop (4 + u32At s.input 0)) := by
    refine rest_eq s (s.dispatched mounted ctx) rfl hlen more ?_
    rw [owed, hw]
    show 4 + u32At s.input 0 + (s.skip + 0) = _
    have hskip := hp.skip
    omega
  have hanswered (hw : (s.dispatched mounted ctx).server.writeStream = none)
      (hz : (s.dispatched mounted ctx).server.resize = none)
      (h : Replied (s.dispatched mounted ctx) taken (answered ++ [r])) : Talk (s.dispatched mounted ctx) more taken all := by
    refine ⟨answered ++ [r], [], ?_, .idle hw hz, h⟩
    rw [hrest hw, hall]
    simp
  rcases World.dispatch_cases (w := s.toWorld) (kindOf s.input) _ (hbody.trans_le (by omega)) mounted ctx with
    ⟨hinit, heq⟩ | ⟨_, _, heq⟩ | ⟨hinit, hfour, hh⟩
  · have hworld : (s.dispatched mounted ctx).toWorld = s.emit versionPacket := heq
    refine hanswered (by rw [hworld]; exact hp.writeStream) (by rw [hworld]; exact hp.resize) ?_
    refine hreplied.reply (s.dispatched mounted ctx) hp.readStream (by rw [hworld]; exact hp.readStream) (by rw [hworld]; rfl) ?_
    exact answers_version (hrkind.trans hinit) (by omega)
  · have hworld : (s.dispatched mounted ctx).toWorld = s.setFatal := heq
    rw [hworld] at hlive
    cases hlive
  rw [hbody] at hfour
  have hid : r.id = u32At ((s.input.take (4 + u32At s.input 0)).drop 5) 0 := by
    rw [u32At_body (by omega)]
    exact request_id hr (by omega) (by omega)
  have hr32 : r.id < 2 ^ 32 := hr ▸ requestAt_id_lt _
  have hrinit : r.kind ≠ FXP_INIT := hrkind ▸ hinit
  have hsize : Accepted r := .inr (by omega)
  rw [← hid] at hh
  change Handled (kindOf s.input) r.id s.toWorld (s.dispatched mounted ctx).toWorld at hh
  cases hh with
  | replied p hreply hs =>
    refine hanswered (hs.writeStream.trans hp.writeStream) (hs.resize.trans hp.resize) ?_
    refine hreplied.reply (s.dispatched mounted ctx) hp.readStream (hs.readStream.trans hp.readStream) hs.out ?_
    exact answers_reply hreply hr32 hrinit hsize
  | data stream hpos hmaximum hs =>
    refine hanswered (hs.writeStream.trans hp.writeStream) (hs.resize.trans hp.resize) ?_
    refine hreplied.answer (s.dispatched mounted ctx) hp.readStream hs.out fun due hdue => ?_
    have hremaining : due.length = stream.remaining := by
      rw [hdue, Sftp.due, hs.readStream]
      rfl
    rw [← hremaining]
    exact answers_data hr32 hrinit hsize (by omega)
  | growing job hjob _ hs =>
    have hw : (s.dispatched mounted ctx).server.writeStream = none := hs.writeStream.trans hp.writeStream
    refine ⟨answered, [r], ?_, ?_, hreplied.congr hs.out hs.readStream⟩
    · rw [hrest hw, hall]
      simp
    · exact .resize job r hs.resize hw (hs.readStream.trans hp.readStream) hjob hr32 hrinit hsize
  | opened _ slot handle _ hs =>
    refine hanswered (hs.writeStream.trans hp.writeStream) (hs.resize.trans hp.resize) ?_
    refine hreplied.reply (s.dispatched mounted ctx) hp.readStream (hs.readStream.trans hp.readStream) hs.out ?_
    exact answers_packet (by decide) hr32 hrinit hsize (by simp) fun h => absurd h (by decide)
  | closed _ slot token _ hs =>
    refine hanswered (hs.writeStream.trans hp.writeStream) (hs.resize.trans hp.resize) ?_
    refine hreplied.reply (s.dispatched mounted ctx) hp.readStream (hs.readStream.trans hp.readStream) hs.out ?_
    exact answers_reply (is_reply_status _ (by decide)) hr32 hrinit hsize

/-! ## Every event -/

/-- Every step that does not end the session keeps the conversation. -/
theorem talk_step (h : Talk s more taken all) (hb : BuffersAux.Bounded s) {mounted : Bool} {ctx : Ctx}
    (hno : s.AtPacket ∧ (s.step mounted ctx).2 = true → ¬Wraps s.input)
    (hlive : (s.step mounted ctx).1.server.fatal = false) : Talk (s.step mounted ctx).1 more taken all := by
  have hstep := step_stepped s mounted ctx
  generalize s.step mounted ctx = r at hstep hlive hno ⊢
  cases hstep with
  | idle => exact h
  | malformed count => cases hlive
  | resize job _ _ hz => exact talk_resize h hz mounted ctx
  | read stream _ _ _ hr => exact talk_read h hr mounted hlive
  | payload stream stream' w' count budget _ _ _ hr hw hid hremaining hfailed hinput hcount hs =>
    exact talk_payload budget h hr hw hid hremaining (hfailed (hb.failed stream hw)) hinput hcount hs
  | skip count _ _ hz hr hw hpos hcount hinput =>
    obtain ⟨answered, waits, hall, hwaits, hreplied⟩ := h
    refine ⟨answered, waits, ?_, ?_, hreplied.congr rfl rfl⟩
    · rw [rest_eq s ({ s with input := s.input.drop count, skip := s.skip - count } : Sftp F) rfl hinput more
        (n := owed s) (by simp only [owed]; omega)]
      exact hall
    · cases hwaits with
      | idle => exact .idle hw hz
      | write _ _ hw' => rw [hw] at hw'; cases hw'
      | resize _ _ hz' => rw [hz] at hz'; cases hz'
  | oversized hp hlen hkind hbig => exact talk_oversized h hp hlen hkind hbig (hno ⟨hp, rfl⟩)
  | write hp hkind _ hlen hlength => exact talk_write h hp hkind hlen hlength (hno ⟨hp, rfl⟩)
  | request hp hpos _ hle hlen => exact talk_request h hp hpos hle hlen hlive

/-- What waits is about the pending parts alone. -/
theorem Waits.congr {waits : List Request} (h : Waits s waits) (hw : s'.server.writeStream = s.server.writeStream)
    (hz : s'.server.resize = s.server.resize) (hr : s'.server.readStream = s.server.readStream) : Waits s' waits := by
  cases h with
  | idle h1 h2 => exact .idle (hw.trans h1) (hz.trans h2)
  | write stream r h1 h2 h3 h4 h5 h6 => exact .write stream r (hw.trans h1) (hz.trans h2) (hr.trans h3) h4 h5 h6
  | resize job r h1 h2 h3 h4 h5 h6 h7 => exact .resize job r (hz.trans h1) (hw.trans h2) (hr.trans h3) h4 h5 h6 h7

/-- Every event that does not end the session keeps the conversation. -/
theorem talk_serve (e : Event) (h : Talk s (e.fed ++ more) taken all) (hb : BuffersAux.Bounded s)
    (hno : s.Starts e → ¬Wraps s.input) (hlive : (s.serve e).1.server.fatal = false) :
    Talk (s.serve e).1 more (taken ++ (s.serve e).2.taken) all := by
  cases e with
  | feed bytes =>
    obtain ⟨answered, waits, hall, hwaits, hreplied⟩ := h
    refine ⟨answered, waits, ?_, hwaits.congr rfl rfl rfl, ?_⟩
    · show all = _ ++ requests ((s.input ++ bytes ++ more).drop (owed s))
      rw [List.append_assoc s.input]
      exact hall
    · show Replied _ (taken ++ []) answered
      rw [List.append_nil]
      exact hreplied.congr rfl rfl
  | consume count =>
    obtain ⟨answered, waits, hall, hwaits, hreplied⟩ := h
    refine ⟨answered, waits, hall, hwaits.congr rfl rfl rfl, fun due hdue => ?_⟩
    obtain ⟨replies, hreplies, heq⟩ := hreplied due hdue
    refine ⟨replies, hreplies, ?_⟩
    rw [← heq]
    show taken ++ s.server.out.take count ++ s.server.out.drop (min count s.server.out.length) ++ due = _
    rw [List.append_assoc taken]
    congr 2
    rcases le_total count s.server.out.length with hle | hle
    · rw [min_eq_left hle, List.take_append_drop]
    · rw [min_eq_right hle, List.take_of_length_le hle, List.drop_length, List.append_nil]
  | beginPoll =>
    obtain ⟨answered, waits, hall, hwaits, hreplied⟩ := h
    refine ⟨answered, waits, hall, hwaits.congr rfl rfl rfl, ?_⟩
    show Replied _ (taken ++ []) answered
    rw [List.append_nil]
    exact hreplied.congr rfl rfl
  | step mounted ctx =>
    show Talk (s.step mounted ctx).1 more (taken ++ []) all
    rw [List.append_nil]
    exact talk_step h hb hno hlive

/-- The sizes of a packet that is taken up do not wrap when those of its request are small. -/
theorem not_wraps_of_small (h : Talk s more taken all) (hsmall : ∀ r ∈ all, r.Small) {mounted : Bool} {ctx : Ctx}
    (hp : s.AtPacket) (hstart : (s.step mounted ctx).2 = true) : ¬Wraps s.input := by
  have hsize : USIZE = 2 ^ 32 := rfl
  have hbound {r : Request} {answered rest : List Request} (hall : all = answered ++ r :: rest) : r.Small :=
    hsmall r (by rw [hall]; simp)
  rcases start_cases hp hstart with ⟨_, hlen, hkind⟩ | ⟨_, hkind, hhandle, hlen, _⟩ | ⟨_, hkind, hle, hlen⟩
  · obtain ⟨answered, r, hall, _, hr, hlength, _⟩ := talk_start h hp (by omega)
    rw [wraps_of_not_write hkind]
    have hless := (hbound hall).1
    omega
  · obtain ⟨answered, r, hall, _, hr, hlength, _⟩ := talk_start h hp (by omega)
    have hkind' : kindOf (s.input ++ more) = FXP_WRITE := (kindOf_append (by omega)).trans hkind
    have hat : u32At (s.input ++ more) 9 = u32At s.input 9 := u32At_append (by omega)
    have hdata : r.dataLen = (writeHeader s.input (u32At s.input 9)).dataLen := by
      rw [hr, requestAt]
      simp only [hat, if_pos hkind']
      exact u32At_append (by omega)
    rw [wraps_of_write hkind, ← hdata]
    have hless := (hbound hall).2
    omega
  · rw [wraps_of_not_write hkind]
    have hmax : MAX_REQUEST = 4096 := rfl
    omega

/-- The conversation along a run that does not end the session. -/
theorem talk_run (es : List Event) (hfits : Mealy.Along serve Fits s es) (hb : BuffersAux.Bounded s)
    (hsmall : ∀ r ∈ all, r.Small) (h : Talk s (fed es ++ more) taken all)
    (hlive : (Mealy.final serve s es).server.fatal = false) :
    Talk (Mealy.final serve s es) more (taken ++ takenIn (Mealy.outputs serve s es)) all := by
  induction es generalizing s taken with
  | nil =>
    show Talk s more (taken ++ []) all
    rw [List.append_nil]
    exact h
  | cons e es ih =>
    have hone : (s.serve e).1.server.fatal = false := by
      rw [← Bool.not_eq_true]
      intro hfatal
      rw [Mealy.final_cons, fatal_run hfatal es] at hlive
      cases hlive
    rw [fed, List.flatMap_cons, List.append_assoc] at h
    have hno : s.Starts e → ¬Wraps s.input := by
      rintro ⟨hp, hstart⟩
      cases e with
      | step mounted ctx => exact not_wraps_of_small h hsmall hp hstart
      | _ => cases hstart
    have hrun := ih hfits.2 (BuffersAux.bounded_serve hb e hfits.1) (talk_serve e h hb hno hone) hlive
    rw [Mealy.outputs_cons, takenIn, List.flatMap_cons, ← List.append_assoc]
    exact hrun

end RepliesAux

/-- At every moment of every run the client has been sent the replies to its requests, one each and in their order, up to the
request that waits and the payload that is due. -/
theorem replies_in_order (volume : V) (es : List Event) (hfits : Mealy.Along serve Fits (new (F := F) volume) es)
    (hsmall : ∀ r ∈ requests (fed es), r.Small) (hlive : (Mealy.final serve (new (F := F) volume) es).server.fatal = false) :
    InOrder Answers (Mealy.final serve (new (F := F) volume) es) (fed es)
      (takenIn (Mealy.outputs serve (new (F := F) volume) es)) := by
  have hstart : RepliesAux.Talk (new (F := F) volume) (fed es ++ []) [] (requests (fed es)) := by
    refine ⟨[], [], ?_, .idle rfl rfl, fun due hdue => ⟨[], .nil, ?_⟩⟩
    · show requests (fed es) = requests ([] ++ (fed es ++ []))
      rw [List.append_nil, List.nil_append]
    · rw [List.length_eq_zero_iff.mp hdue]
      rfl
  obtain ⟨answered, waits, hall, hwaits, hreplied⟩ :=
    RepliesAux.talk_run es hfits ⟨Nat.zero_le _, Nat.zero_le _, nofun⟩ hsmall hstart hlive
  rw [List.append_nil] at hall
  exact ⟨answered, waits, hall, hwaits.length, hreplied⟩

/-- INIT, and then half of a REALPATH. -/
theorem replies_in_order_init :
    let es : List Event := [.feed [0, 0, 0, 5, 1, 0, 0, 0, 3, 0, 0, 0, 10, 16], .beginPoll, .step true {}, .consume 200]
    InOrder Answers (Mealy.final serve (new (F := Ram.fat) {}) es) (fed es)
      (takenIn (Mealy.outputs serve (new (F := Ram.fat) {}) es)) := by
  have hrequests : requests [0, 0, 0, 5, 1, 0, 0, 0, 3, 0, 0, 0, 10, 16] = [⟨5, 1, 3, 0⟩, ⟨10, 16, 0, 0⟩] := by
    rw [requests, requests, requests]
    decide +kernel
  refine replies_in_order _ _ ⟨show 14 ≤ MAX_INPUT - 0 by decide, trivial, trivial, trivial, trivial⟩ ?_ (by decide +kernel)
  show ∀ r ∈ requests [0, 0, 0, 5, 1, 0, 0, 0, 3, 0, 0, 0, 10, 16], r.Small
  rw [hrequests]
  decide

/-- The reply that every INIT is said to get. -/
structure AnswersInit (r : Request) (p : List UInt8) : Prop where
  framed : p.length = 4 + u32At p 0
  version : r.kind = FXP_INIT → p = versionPacket
  own : r.kind ≠ FXP_INIT → kindOf p ∈ RESPONSE_TYPES ∧ u32At p 5 = r.id

/-- The head of an INIT of 4097 bytes. -/
def largeInit : List UInt8 := [0, 0, 0x10, 1, 1, 0, 0, 0, 3]

/-- An INIT of more than 4096 bytes is answered with a status. -/
theorem not_version_to_init :
    ¬∀ es : List Event, Mealy.Along serve Fits (new (F := Ram.fat) {}) es → (∀ r ∈ requests (fed es), r.Small) →
      (Mealy.final serve (new (F := Ram.fat) {}) es).server.fatal = false →
      InOrder AnswersInit (Mealy.final serve (new (F := Ram.fat) {}) es) (fed es)
        (takenIn (Mealy.outputs serve (new (F := Ram.fat) {}) es)) := by
  intro h
  have hfed : fed [.feed largeInit, .step true {}] = largeInit := rfl
  have hrequests : requests largeInit = [⟨4097, 1, 3, 0⟩] := by
    rw [requests, requests]
    decide +kernel
  obtain ⟨answered, waits, hall, hwaits, hreplied⟩ :=
    h [.feed largeInit, .step true {}] ⟨show 9 ≤ MAX_INPUT - 0 by decide, trivial, trivial⟩
      (by rw [hfed, hrequests]; decide) (by decide +kernel)
  have hnone : waits = [] := List.length_eq_zero_iff.mp (hwaits.trans (by decide +kernel))
  have hinput : (Mealy.final serve (new (F := Ram.fat) {}) [.feed largeInit, .step true {}]).input = [] := by
    decide +kernel
  rw [hfed, hrequests, hnone, hinput, List.drop_nil, requests, if_pos (by decide), List.append_nil, List.append_nil] at hall
  obtain ⟨replies, hreplies, heq⟩ := hreplied [] (by decide +kernel)
  rw [← hall] at hreplies
  cases hreplies with
  | cons hp hnil =>
    cases hnil
    rw [List.flatten_singleton, hp.version rfl] at heq
    revert heq
    decide +kernel

end Sftp

end Ratputer
