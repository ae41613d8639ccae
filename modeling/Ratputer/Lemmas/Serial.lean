import Ratputer.Sftp.Serial
import Ratputer.Lib.Mealy

/-!
# A session step is a serial step

A step that has seen only part of the stream either changes nothing of what the session amounts to, or does what the serial
server does with all of it.
-/

namespace Ratputer

open Octets

variable {V : Type} {F : Fat V}

/-! ## More input -/

/-- A number that is there is read there, whatever follows. -/
theorem u32At_append {bytes more : List UInt8} {i : Nat} (h : i + 4 ≤ bytes.length) :
    u32At (bytes ++ more) i = u32At bytes i := by
  rw [u32At, u32At, List.drop_append_of_le_length (by omega), List.take_append_of_le_length (by rw [List.length_drop]; omega)]

/-- The type of a packet that has begun is known. -/
theorem kindOf_append {bytes more : List UInt8} (h : 5 ≤ bytes.length) : kindOf (bytes ++ more) = kindOf bytes := by
  rw [kindOf, kindOf, List.drop_append_of_le_length (by omega)]
  cases hd : bytes.drop 4 with
  | nil =>
    have := congrArg List.length hd
    rw [List.length_drop, List.length_nil] at this
    omega
  | cons b rest => rfl

namespace Sftp

/-- The header of a WRITE that is there is known. -/
theorem writeHeader_append {bytes more : List UInt8} {handleLen : Nat} (h : 25 + handleLen ≤ bytes.length) :
    writeHeader (bytes ++ more) handleLen = writeHeader bytes handleLen := by
  have htoken : ((bytes ++ more).drop 13).take handleLen = (bytes.drop 13).take handleLen := by
    rw [List.drop_append_of_le_length (by omega), List.take_append_of_le_length (by rw [List.length_drop]; omega)]
  have hoffset : ((bytes ++ more).drop (13 + handleLen)).take 8 = (bytes.drop (13 + handleLen)).take 8 := by
    rw [List.drop_append_of_le_length (by omega), List.take_append_of_le_length (by rw [List.length_drop]; omega)]
  rw [writeHeader, writeHeader, htoken, hoffset, u32At_append (by omega), u32At_append (by omega)]

/-- A header of a handle of at most 64 bytes does not wrap. -/
theorem header_eq {handleLen : Nat} (h : ¬64 < handleLen) : (13 + handleLen + 12) % USIZE = 25 + handleLen := by
  rw [Nat.mod_eq_of_lt (by rw [USIZE]; omega)]
  omega

/-- A request's rest is discarded only while no reply is pending. -/
def Sound (s : Sftp F) : Prop :=
  s.skip = 0 ∨ s.server.resize = none ∧ s.server.readStream = none ∧ s.server.writeStream = none

/-- The session with all of the stream fed and a fresh budget. -/
def whole (s : Sftp F) (future : List UInt8) : Sftp F := { s with input := s.input ++ future, cardBudget := true }

/-- The outcome `r` of a step on part of the stream: nothing happened, or the same step on all of it (`r'`) comes to the
same. -/
def Agrees (s : Sftp F) (future : List UInt8) (r r' : Sftp F × Bool) : Prop :=
  r = (s, false) ∨ s.Moved r ∧ r'.2 = r.2 ∧ ∀ taken, r'.1.serial [] taken = r.1.serial future taken

variable {s : Sftp F} {future : List UInt8}

/-- Between packets the session and the stream to come are the whole input. -/
theorem serial_session (hout : s.server.out = []) (hskip : s.skip = 0) (taken : List UInt8) :
    (s.serial future taken).session = s.whole future := by
  obtain ⟨⟨server, v⟩, input, skip, budget⟩ := s
  obtain ⟨out, rs, ws, rz, hs, g, t, f⟩ := server
  cases hout
  cases hskip
  rfl

/-- What a session amounts to depends on its input and the stream to come only through what they make together. -/
theorem serial_eq {s s' : Sftp F} {future future' : List UInt8} (hw : s.toWorld = s'.toWorld)
    (hi : (s.input ++ future).drop s.skip = (s'.input ++ future').drop s'.skip) (taken : List UInt8) :
    s.serial future taken = s'.serial future' taken := by
  rw [serial, serial, hw, hi]

/-- Setting `fatal` moves a session that goes on. -/
theorem moved_of_fatal (hf : s.server.fatal = false) {r : Sftp F × Bool} (h : r.1.server.fatal = true) : s.Moved r := by
  refine .inr ?_
  rw [h, hf]
  decide

/-- The header of a WRITE. -/
theorem beginWrite_agrees (hf : s.server.fatal = false) (length : Nat) :
    s.Agrees future (s.beginWrite length) ((s.whole future).beginWrite length) := by
  unfold beginWrite
  by_cases h13 : s.input.length < 13
  · exact .inl (by rw [if_pos h13])
  have hinput : (s.whole future).input = s.input ++ future := rfl
  simp only [hinput, List.length_append, u32At_append (by omega : 9 + 4 ≤ s.input.length), if_neg h13,
    if_neg (by omega : ¬s.input.length + future.length < 13)]
  by_cases h64 : 64 < u32At s.input 9
  · rw [if_pos h64, if_pos h64]
    exact .inr ⟨moved_of_fatal hf rfl, rfl, serial_eq rfl (by simp [whole])⟩
  simp only [if_neg h64, header_eq h64]
  by_cases hh : s.input.length < 25 + u32At s.input 9
  · exact .inl (by rw [if_pos hh])
  have hdrop : (s.input ++ future).drop (25 + u32At s.input 9) = s.input.drop (25 + u32At s.input 9) ++ future :=
    List.drop_append_of_le_length (by omega)
  simp only [if_neg hh, if_neg (by omega : ¬s.input.length + future.length < 25 + u32At s.input 9), hdrop,
    writeHeader_append (by omega : 25 + u32At s.input 9 ≤ s.input.length)]
  split
  · exact .inr ⟨.inl rfl, rfl, serial_eq rfl (by simp [whole])⟩
  · exact .inr ⟨moved_of_fatal hf rfl, rfl, serial_eq rfl (by simp [whole])⟩

/-- The next packet, unless the session waits for more of it. -/
theorem parseNext_agrees (hf : s.server.fatal = false) (mounted : Bool) (ctx : Ctx) :
    s.Agrees future (s.parseNext mounted ctx) ((s.whole future).parseNext mounted ctx) := by
  unfold parseNext
  by_cases h5 : s.input.length < 5
  · exact .inl (by rw [if_pos h5])
  have hinput : (s.whole future).input = s.input ++ future := rfl
  rw [hinput, List.length_append, if_neg h5, if_neg (by omega : ¬s.input.length + future.length < 5),
    u32At_append (by omega : 0 + 4 ≤ s.input.length), kindOf_append (by omega : 5 ≤ s.input.length)]
  by_cases h0 : u32At s.input 0 = 0
  · simp only [if_pos h0]
    exact .inr ⟨moved_of_fatal hf rfl, rfl, serial_eq rfl (by simp [whole])⟩
  simp only [if_neg h0]
  by_cases hk : kindOf s.input = FXP_WRITE
  · simp only [if_pos hk]
    exact beginWrite_agrees hf _
  simp only [if_neg hk]
  by_cases hbig : MAX_REQUEST < u32At s.input 0
  · simp only [if_pos hbig]
    by_cases h9 : s.input.length < 9
    · exact .inl (by rw [if_pos h9])
    rw [if_neg h9, if_neg (by omega : ¬s.input.length + future.length < 9),
      u32At_append (by omega : 5 + 4 ≤ s.input.length)]
    refine .inr ⟨.inl rfl, rfl, serial_eq rfl ?_⟩
    -- what is left over is discarded later, or lies in the stream to come
    simp only [List.append_nil, List.drop_drop]
    generalize (4 + u32At s.input 0) % USIZE = n
    have hn : min (s.input.length + future.length) n + (n - min (s.input.length + future.length) n) = n := by omega
    rw [hn, List.drop_append, List.drop_append, List.drop_drop, List.length_drop]
    congr 2 <;> omega
  simp only [if_neg hbig]
  by_cases hl : s.input.length < 4 + u32At s.input 0
  · exact .inl (by rw [if_pos hl])
  rw [if_neg hl, if_neg (by omega : ¬s.input.length + future.length < 4 + u32At s.input 0)]
  cases hb : s.cardBudget with
  | false => exact .inl rfl
  | true =>
    have htake : (s.input ++ future).take (4 + u32At s.input 0) = s.input.take (4 + u32At s.input 0) :=
      List.take_append_of_le_length (by omega)
    have hdrop : (s.input ++ future).drop (4 + u32At s.input 0) = s.input.drop (4 + u32At s.input 0) ++ future :=
      List.drop_append_of_le_length (by omega)
    simp only [whole, Bool.not_true, Bool.false_eq_true, if_false, htake, hdrop]
    exact .inr ⟨.inl rfl, rfl, serial_eq rfl (by simp)⟩

/-- Payload that is taken off the input is taken off the whole. -/
theorem advanceWrite_serial (s s' : Sftp F) (hw : s'.toWorld = s.toWorld) (hi : s'.input = s.input ++ future)
    (hs : s'.skip = s.skip) (stream : WriteStream) {count : Nat} (hc : count ≤ s.input.length) (taken : List UInt8) :
    (s'.advanceWrite stream count).serial [] taken = (s.advanceWrite stream count).serial future taken := by
  have hdrop : s'.input.drop count = s.input.drop count ++ future := by rw [hi, List.drop_append_of_le_length hc]
  unfold advanceWrite
  simp only [hdrop, hw]
  split
  all_goals
    refine serial_eq ?_ ?_ taken
    · rfl
    · simp only [List.append_nil, hs]

/-- A chunk of a payload, unless the session waits for more of it. -/
theorem continueWrite_agrees (mounted : Bool) :
    s.Agrees future (s.continueWrite mounted) ((s.whole future).continueWrite mounted) := by
  unfold continueWrite
  have hstream : (s.whole future).server.writeStream = s.server.writeStream := rfl
  have hinput : (s.whole future).input = s.input ++ future := rfl
  rw [hstream]
  cases hw : s.server.writeStream with
  | none => exact .inl rfl
  | some stream =>
    simp only [hinput, List.length_append]
    by_cases h0 : stream.remaining = 0
    · simp only [if_pos h0]
      exact .inr ⟨.inl rfl, rfl, advanceWrite_serial s (s.whole future) rfl rfl rfl _ (Nat.zero_le _)⟩
    simp only [if_neg h0]
    by_cases hwait : min s.input.length stream.remaining = 0 ∨
        min s.input.length stream.remaining < WRITE_CHUNK ∧ min s.input.length stream.remaining < stream.remaining
    · exact .inl (by rw [if_pos hwait])
    -- a full chunk or the tail of the payload is there: more input does not change what is taken
    have hchunk : 0 < WRITE_CHUNK := by decide
    have hcount : min (min (s.input.length + future.length) stream.remaining) WRITE_CHUNK =
        min (min s.input.length stream.remaining) WRITE_CHUNK := by omega
    have hle : min (min s.input.length stream.remaining) WRITE_CHUNK ≤ s.input.length := by omega
    have hwait' : ¬(min (s.input.length + future.length) stream.remaining = 0 ∨
        min (s.input.length + future.length) stream.remaining < WRITE_CHUNK ∧
          min (s.input.length + future.length) stream.remaining < stream.remaining) := by omega
    rw [if_neg hwait, if_neg hwait', hcount, List.take_append_of_le_length hle]
    by_cases hfailed : stream.failed.isSome
    · simp only [if_pos hfailed]
      exact .inr ⟨.inl rfl, rfl, advanceWrite_serial s (s.whole future) rfl rfl rfl _ hle⟩
    simp only [if_neg hfailed]
    cases hb : s.cardBudget with
    | false => exact .inl rfl
    | true =>
      have hworld : (s.whole future).toWorld = s.toWorld := rfl
      have hbudget : (s.whole future).cardBudget = true := rfl
      simp only [hbudget, hworld, Bool.not_true, Bool.false_eq_true, if_false]
      generalize writePayload stream _ mounted _ = r
      obtain ⟨w, error, took⟩ := r
      cases took with
      | true =>
        refine .inr ⟨.inl rfl, rfl, fun taken => ?_⟩
        exact advanceWrite_serial ⟨w, s.input, s.skip, false⟩ ⟨w, s.input ++ future, s.skip, false⟩ rfl rfl rfl _ hle taken
      | false => exact .inr ⟨.inl rfl, rfl, serial_eq rfl (by simp [whole])⟩

/-- With nothing left to discard, a step agrees with the same step on all of the stream. -/
theorem step_agrees (future : List UInt8) (hskip : s.skip = 0) (mounted : Bool) (ctx : Ctx) :
    s.Agrees future (s.step mounted ctx) ((s.whole future).step mounted ctx) := by
  unfold step
  have hserver : (s.whole future).server = s.server := rfl
  have hskip' : (s.whole future).skip = 0 := hskip
  have hbudget : (s.whole future).cardBudget = true := rfl
  rw [hserver, hskip, hskip']
  cases hf : s.server.fatal with
  | true => exact .inl rfl
  | false =>
    simp only [Bool.false_eq_true, if_false, hbudget, Bool.not_true]
    by_cases hout : s.server.out = []
    swap
    · exact .inl (by rw [if_pos hout])
    rw [if_neg (not_not.mpr hout), if_neg (not_not.mpr hout)]
    by_cases hz : s.server.resize.isSome
    · rw [if_pos hz, if_pos hz]
      cases hb : s.cardBudget with
      | false => exact .inl rfl
      | true => exact .inr ⟨.inl rfl, rfl, serial_eq rfl (by simp [whole])⟩
    rw [if_neg hz, if_neg hz]
    by_cases hr : s.server.readStream.isSome
    · rw [if_pos hr, if_pos hr]
      cases hb : s.cardBudget with
      | false => exact .inl rfl
      | true => exact .inr ⟨.inl rfl, rfl, serial_eq rfl (by simp [whole])⟩
    rw [if_neg hr, if_neg hr]
    by_cases hw : s.server.writeStream.isSome
    · rw [if_pos hw, if_pos hw]
      exact continueWrite_agrees mounted
    rw [if_neg hw, if_neg hw, if_neg (lt_irrefl 0), if_neg (lt_irrefl 0)]
    exact parseNext_agrees hf mounted ctx

/-- Discarding the rest of an oversized request changes nothing of what the session amounts to. -/
theorem discard_serial (count : Nat) (h : count ≤ s.input.length) (hc : count ≤ s.skip) (taken : List UInt8) :
    ({ s with input := s.input.drop count, skip := s.skip - count } : Sftp F).serial future taken =
      s.serial future taken := by
  refine serial_eq ?_ ?_ taken
  · rfl
  · show ((s.input.drop count) ++ future).drop (s.skip - count) = _
    rw [← List.drop_append_of_le_length h, List.drop_drop, Nat.add_sub_cancel' hc]

/-- A step either changes nothing of what the session amounts to, or is the serial server's. -/
theorem serial_step (hs : s.Sound) (mounted : Bool) (ctx : Ctx) (future taken : List UInt8) :
    (s.step mounted ctx).1.serial future taken = s.serial future taken ∨
      (s.serial future taken).step mounted ctx = some ((s.step mounted ctx).1.serial future taken) := by
  by_cases hskip : s.skip = 0
  · rcases step_agrees future hskip mounted ctx with h | ⟨hmoved, hprogress, hserial⟩
    · exact .inl (by rw [h])
    by_cases hout : s.server.out = []
    swap
    · exact .inl (by rw [show s.step mounted ctx = (s, false) by unfold step; simp [hout]])
    refine .inr ?_
    have hsame := hserial taken
    have hfatal : ((s.whole future).step mounted ctx).1.server.fatal = (s.step mounted ctx).1.server.fatal :=
      congrArg (·.world.server.fatal) hsame
    have hmoved' : (s.whole future).Moved ((s.whole future).step mounted ctx) := by
      unfold Moved at hmoved ⊢
      rw [hprogress, hfatal]
      exact hmoved
    have hsent : (s.serial future taken).sent = taken := by simp [serial, hout]
    rw [Serial.step, serial_session hout hskip, if_pos hmoved', hsent, hsame]
  · obtain ⟨hz, hr, hw⟩ := hs.resolve_left hskip
    refine .inl ?_
    unfold step
    simp only [hz, hr, hw, Option.isSome_none, Bool.false_eq_true, if_false, if_pos (Nat.pos_of_ne_zero hskip)]
    split
    · rfl
    split
    · rfl
    exact discard_serial _ (Nat.min_le_right _ _) (Nat.min_le_left _ _) taken

/-! ## Between steps -/

/-- The header of a WRITE skips nothing. -/
theorem beginWrite_skip (length : Nat) : (s.beginWrite length).1.skip = s.skip := by
  unfold beginWrite
  dsimp only
  repeat' split
  all_goals rfl

/-- Payload that is taken off skips nothing. -/
theorem advanceWrite_skip (stream : WriteStream) (count : Nat) : (s.advanceWrite stream count).skip = s.skip := by
  unfold advanceWrite
  dsimp only
  split <;> rfl

/-- Nor does a chunk of it. -/
theorem continueWrite_skip (mounted : Bool) : (s.continueWrite mounted).1.skip = s.skip := by
  unfold continueWrite
  split
  · rfl
  dsimp only
  repeat' split
  all_goals first | rfl | exact advanceWrite_skip _ _

/-- Parsing leaves bytes to discard only where it starts no reply that takes several steps. -/
theorem parseNext_sound (hskip : s.skip = 0) (hz : s.server.resize = none) (hr : s.server.readStream = none)
    (hw : s.server.writeStream = none) (mounted : Bool) (ctx : Ctx) : (s.parseNext mounted ctx).1.Sound := by
  unfold parseNext
  dsimp only
  split
  · exact .inl hskip
  split
  · exact .inl hskip
  split
  · exact .inl (by rw [beginWrite_skip, hskip])
  split
  · split
    · exact .inl hskip
    · exact .inr ⟨hz, hr, hw⟩
  split
  · exact .inl hskip
  split
  · exact .inl hskip
  · exact .inl hskip

/-- A step keeps what is skipped and what is pending apart. -/
theorem sound_step (hs : s.Sound) (mounted : Bool) (ctx : Ctx) : (s.step mounted ctx).1.Sound := by
  unfold step
  split
  · exact hs
  split
  · exact hs
  by_cases hskip : s.skip = 0
  · split
    · split <;> exact .inl hskip
    split
    · split <;> exact .inl hskip
    split
    · exact .inl (by rw [continueWrite_skip, hskip])
    rw [if_neg (by omega)]
    rename_i hz hr hw
    exact parseNext_sound hskip (by simpa using hz) (by simpa using hr) (by simpa using hw) _ _
  · obtain ⟨hz, hr, hw⟩ := hs.resolve_left hskip
    simp only [hz, hr, hw, Option.isSome_none, Bool.false_eq_true, if_false, if_pos (Nat.pos_of_ne_zero hskip)]
    exact .inr ⟨hz, hr, hw⟩

/-- So does any event. -/
theorem sound_serve (hs : s.Sound) (e : Event) : (s.serve e).1.Sound := by
  cases e with
  | feed bytes => exact hs
  | consume count => exact hs
  | beginPoll => exact hs
  | step mounted ctx => exact sound_step hs mounted ctx

/-- The client bytes an event brings. -/
def Event.fed : Event → List UInt8
  | .feed bytes => bytes
  | _ => []

/-- An event other than a step changes nothing of what the session amounts to. -/
theorem serial_serve (e : Event) (he : ∀ mounted ctx, e ≠ .step mounted ctx) (future taken : List UInt8) :
    (s.serve e).1.serial future (taken ++ (s.serve e).2.taken) = s.serial (e.fed ++ future) taken := by
  cases e with
  | feed bytes => simp [serve, serial, feed, Event.fed]
  | consume count =>
    have hall : s.server.out.take count ++ s.server.out.drop (min count s.server.out.length) = s.server.out := by
      rw [List.take_eq_take_min, List.take_append_drop]
    simp [serve, serial, consumeOutput, output, Event.fed, World.clear, hall]
  | beginPoll => simp [serve, serial, beginPoll, Event.fed]
  | step mounted ctx => exact absurd rfl (he mounted ctx)

/-- The client stream of a schedule. -/
def fed (es : List Event) : List UInt8 := es.flatMap Event.fed

/-- The output bytes taken in a run. -/
def takenIn (seen : List Seen) : List UInt8 := seen.flatMap Seen.taken

/-- One step of the serial server, mounted and on a clock that `P` allows. -/
def Serves (P : Bool → Ctx → Prop) (x y : Serial F) : Prop := ∃ mounted ctx, P mounted ctx ∧ x.step mounted ctx = some y

/-- A run of the session comes to a run of the serial server on the stream it is fed. -/
theorem serial_run {P : Bool → Ctx → Prop} {es : List Event} (hP : ∀ mounted ctx, Event.step mounted ctx ∈ es → P mounted ctx)
    (hs : s.Sound) (taken : List UInt8) :
    Relation.ReflTransGen (Serves P) (s.serial (fed es) taken)
      ((Mealy.final serve s es).serial [] (taken ++ takenIn (Mealy.outputs serve s es))) := by
  induction es generalizing s taken with
  | nil => rw [takenIn, Mealy.outputs_nil, List.flatMap_nil, List.append_nil]; exact .refl
  | cons e es ih =>
    have hrest := ih (fun m c h => hP m c (List.mem_cons_of_mem _ h)) (sound_serve hs e) (taken ++ (s.serve e).2.taken)
    rw [List.append_assoc] at hrest
    have hfed : fed (e :: es) = e.fed ++ fed es := List.flatMap_cons ..
    cases e with
    | step mounted ctx =>
      have hnone : taken ++ (s.serve (.step mounted ctx)).2.taken = taken := List.append_nil _
      rw [hnone] at hrest
      rcases serial_step hs mounted ctx (fed es) taken with h | h
      · exact h ▸ hrest
      · exact hrest.head ⟨mounted, ctx, hP _ _ List.mem_cons_self, h⟩
    | feed bytes => rw [hfed, ← serial_serve (.feed bytes) fun _ _ => nofun]; exact hrest
    | consume count => rw [hfed, ← serial_serve (.consume count) fun _ _ => nofun]; exact hrest
    | beginPoll => rw [hfed, ← serial_serve (.beginPoll) fun _ _ => nofun]; exact hrest

/-- A session that has given up takes no step. -/
theorem step_of_fatal (h : s.server.fatal = true) (mounted : Bool) (ctx : Ctx) : s.step mounted ctx = (s, false) := by
  rw [step, if_pos h]

/-- A step that reports no progress, on drained output and a fresh budget, is the serial server's last. -/
theorem stuck_of_no_progress (hs : s.Sound) (hout : s.server.out = []) (hbudget : s.cardBudget = true) {mounted : Bool}
    {ctx : Ctx} (h : (s.step mounted ctx).2 = false) (taken : List UInt8) :
    ((s.step mounted ctx).1.serial [] taken).step mounted ctx = none := by
  have hfatal {r : Sftp F} (hr : r.server.fatal = true) : (r.serial [] taken).step mounted ctx = none := by
    have hsession : (r.serial [] taken).session.server.fatal = true := hr
    rw [Serial.step, step_of_fatal hsession, if_neg (by simp [Moved])]
  by_cases hskip : s.skip = 0
  · rcases step_agrees [] hskip mounted ctx with heq | ⟨hmoved, -, -⟩
    · have hwhole : s.whole [] = s := by rw [whole, List.append_nil, ← hbudget]
      rw [heq, Serial.step, serial_session hout hskip, hwhole, heq, if_neg (by simp [Moved])]
    · have hne := hmoved.resolve_left (by rw [h]; decide)
      cases hf : s.server.fatal with
      | true => exact absurd (by rw [step_of_fatal hf]) hne
      | false => exact hfatal (by rw [hf] at hne; exact Bool.eq_true_of_not_eq_false hne)
  · obtain ⟨hz, hr, hw⟩ := hs.resolve_left hskip
    cases hf : s.server.fatal with
    | true => exact hfatal (by rw [step_of_fatal hf]; exact hf)
    | false =>
      -- nothing is left to discard: the rest of the stream is empty
      have hstep : s.step mounted ctx = ({ s with
          input := s.input.drop (min s.skip s.input.length)
          skip := s.skip - min s.skip s.input.length }, decide (0 < min s.skip s.input.length)) := by
        unfold step
        simp [hf, hout, hz, hr, hw, Nat.pos_of_ne_zero hskip]
      rw [hstep, decide_eq_false_iff_not] at h
      have hnil : s.input = [] := List.length_eq_zero_iff.mp (by omega)
      have hempty : ((s.step mounted ctx).1.serial [] taken).session =
          ({ toWorld := s.toWorld.clear, input := [] } : Sftp F) := by
        rw [hstep, Serial.session]
        simp [serial, hnil]
      rw [Serial.step, hempty, if_neg]
      simp [step, parseNext, World.clear, hf, hz, hr, hw, Moved]

end Sftp

end Ratputer
