import Ratputer.Lemmas.SftpSteps
import Ratputer.Ram

/-!
# SFTP buffers stay bounded

The input holds at most one WRITE chunk and the next header, the output at most one reply or one chunk: a step starts on an
empty output and queues one of them.
-/

namespace Ratputer

variable {V : Type} {F : Fat V}

namespace Handled

variable {kind id : Nat} {w w' : World F}

/-- What a handler queues on an empty output fits the reply buffer. -/
theorem length_out (h : Handled kind id w w') (hout : w.server.out = []) : w'.server.out.length ≤ MAX_OUTPUT := by
  have hmax : MAX_OUTPUT = 8256 := rfl
  cases h with
  | replied p hp h =>
    obtain ⟨_, _, _, _, hlen⟩ := hp
    rw [h.out, World.emit, hout]
    exact hlen
  | data stream _ _ h =>
    rw [h.out, hout]
    simp [dataHeader]
    omega
  | growing _ _ _ h =>
    rw [h.out, hout]
    exact Nat.zero_le _
  | opened _ slot handle _ h =>
    rw [h.out]
    simp [World.emit, Server.insert, hout]
    omega
  | closed _ _ _ _ h =>
    obtain ⟨_, _, _, _, hlen⟩ := is_reply_status id (by decide : Status.Short ⟨FX_OK, "OK"⟩)
    rw [h.out, World.emit, hout]
    exact hlen

end Handled

namespace Sftp

/-- A feed of at most `inputSpace` bytes; other events are free. -/
def Fits (s : Sftp F) : Event → Prop
  | .feed bytes => bytes.length ≤ s.inputSpace
  | _ => True

namespace BuffersAux

/-- Both buffers are within their bounds, and a refused WRITE has a short status. -/
structure Bounded (s : Sftp F) : Prop where
  input : s.input.length ≤ MAX_INPUT
  out : s.server.out.length ≤ MAX_OUTPUT
  failed : ∀ stream, s.server.writeStream = some stream → ShortOption stream.failed

variable {s : Sftp F}

theorem length_status (id : Nat) {status : Status} (h : status.Short) : (statusPacket id status).length ≤ MAX_OUTPUT := by
  obtain ⟨_, _, _, _, hlen⟩ := is_reply_status id h
  exact hlen

theorem checkWrite_short (s : Sftp F) (token : List UInt8) (offset dataLen : Nat) :
    ShortErrors (s.checkWrite token offset dataLen) := by
  refine (s.server.slotOf_short token).bind fun slot => (s.server.file_short slot).bind fun file => ?_
  exact .guard (by decide) (.guard (by decide) (.ok _))

/-- A refused WRITE has a short status. -/
theorem writeStreamOf_short (s : Sftp F) (header : WriteHeader) : ShortOption (s.writeStreamOf header).failed := by
  unfold writeStreamOf
  split
  · exact nofun
  · rename_i status h
    intro e he
    injection he with he
    exact he ▸ checkWrite_short s _ _ _ _ h

theorem getD_short {failed : Option Status} (h : ShortOption failed) : (failed.getD ⟨FX_OK, "OK"⟩).Short := by
  cases failed with
  | none => decide
  | some status => exact h status rfl

/-- Every step keeps the buffers within their bounds. -/
theorem bounded_step (hs : Bounded s) (mounted : Bool) (ctx : Ctx) : Bounded (s.step mounted ctx).1 := by
  have hdrop (n : Nat) : (s.input.drop n).length ≤ MAX_INPUT := by
    rw [List.length_drop]
    exact le_trans (Nat.sub_le _ _) hs.input
  have hchunk : IO_CHUNK ≤ MAX_OUTPUT := by decide
  generalize hr : s.step mounted ctx = r
  have hstep := hr ▸ step_stepped s mounted ctx
  cases hstep with
  | idle => exact hs
  | malformed count h => exact ⟨hdrop _, hs.out, hs.failed⟩
  | resize job hlive hout h =>
    rcases World.continueResize_cases h mounted ctx with ⟨job', _, _, hsame⟩ | ⟨status, hshort, hsame⟩
    · exact ⟨hs.input, by rw [hsame.out]; exact hs.out, fun stream hstream => hs.failed stream (hsame.writeStream ▸ hstream)⟩
    · refine ⟨hs.input, ?_, fun stream hstream => hs.failed stream (hsame.writeStream ▸ hstream)⟩
      rw [hsame.out]
      show (s.server.out ++ statusPacket job.id status).length ≤ MAX_OUTPUT
      rw [hout]
      exact length_status _ hshort
  | read stream hlive hout hz h =>
    rcases World.continueRead_cases h mounted with hsame | ⟨bytes, _, hle, _, hsame⟩
    · exact ⟨hs.input, by rw [hsame.out]; exact hs.out, fun stream hstream => hs.failed stream (hsame.writeStream ▸ hstream)⟩
    · refine ⟨hs.input, ?_, fun stream hstream => hs.failed stream (hsame.writeStream ▸ hstream)⟩
      rw [hsame.out]
      show (s.server.out ++ bytes).length ≤ MAX_OUTPUT
      rw [hout]
      exact le_trans hle hchunk
  | payload stream stream' w' count budget hlive hout hz hrd h hid hremaining hfailed hinput hcount hw =>
    have hfailed' := hfailed (hs.failed stream h)
    have hout' : w'.server.out = [] := hw.out.trans hout
    unfold advanceWrite
    dsimp only
    split
    · refine ⟨hdrop _, ?_, fun _ hstream => nomatch hstream⟩
      show (w'.server.out ++ statusPacket _ _).length ≤ MAX_OUTPUT
      rw [hout']
      exact length_status _ (getD_short hfailed')
    · refine ⟨hdrop _, ?_, fun _ hstream => ?_⟩
      · show w'.server.out.length ≤ MAX_OUTPUT
        rw [hout']
        exact Nat.zero_le _
      · injection hstream with hstream
        exact hstream ▸ hfailed'
  | skip count => exact ⟨hdrop _, hs.out, hs.failed⟩
  | oversized h =>
    refine ⟨hdrop _, ?_, hs.failed⟩
    show (s.server.out ++ statusPacket _ _).length ≤ MAX_OUTPUT
    rw [h.drained]
    exact length_status _ (by decide)
  | write h =>
    refine ⟨hdrop _, hs.out, fun _ hstream => ?_⟩
    injection hstream with hstream
    exact hstream ▸ writeStreamOf_short _ _
  | request h hpos hkind hle hlen =>
    have hbody : ((s.input.take (4 + u32At s.input 0)).drop 5).length ≤ MAX_REQUEST := by
      rw [List.length_drop, List.length_take]
      omega
    rcases World.dispatch_cases (w := s.toWorld) (kindOf s.input) _ hbody mounted ctx with ⟨_, heq⟩ | ⟨_, _, heq⟩ | ⟨_, _, hh⟩
    · refine ⟨hdrop _, ?_, ?_⟩
      · show (s.dispatch _ _ mounted ctx).server.out.length ≤ MAX_OUTPUT
        rw [heq]
        show (s.server.out ++ versionPacket).length ≤ MAX_OUTPUT
        rw [h.drained]
        decide +kernel
      · show ∀ stream, (s.dispatch _ _ mounted ctx).server.writeStream = some stream → _
        rw [heq]
        exact hs.failed
    · refine ⟨hdrop _, ?_, ?_⟩
      · show (s.dispatch _ _ mounted ctx).server.out.length ≤ MAX_OUTPUT
        rw [heq]
        exact hs.out
      · show ∀ stream, (s.dispatch _ _ mounted ctx).server.writeStream = some stream → _
        rw [heq]
        exact hs.failed
    · exact ⟨hdrop _, hh.length_out h.drained, fun stream hstream => hs.failed stream (hh.writeStream ▸ hstream)⟩

/-- Every event keeps the buffers within their bounds. -/
theorem bounded_serve (hs : Bounded s) (e : Event) (h : s.Fits e) : Bounded (s.serve e).1 := by
  cases e with
  | feed bytes =>
    refine ⟨?_, hs.out, hs.failed⟩
    have hspace : bytes.length ≤ MAX_INPUT - s.input.length := h
    have hinput := hs.input
    show (s.input ++ bytes).length ≤ MAX_INPUT
    rw [List.length_append]
    omega
  | consume count =>
    refine ⟨hs.input, ?_, hs.failed⟩
    show (s.server.out.drop _).length ≤ MAX_OUTPUT
    rw [List.length_drop]
    exact le_trans (Nat.sub_le _ _) hs.out
  | beginPoll => exact ⟨hs.input, hs.out, hs.failed⟩
  | step mounted ctx => exact bounded_step hs mounted ctx

end BuffersAux

/-- In every run that feeds at most `inputSpace` bytes at a time, both buffers stay within what is reserved for them. -/
theorem buffers_bounded (volume : V) (es : List Event) (h : Mealy.Along serve Fits (new (F := F) volume) es) :
    (Mealy.final serve (new (F := F) volume) es).input.length ≤ MAX_INPUT ∧
      (Mealy.final serve (new (F := F) volume) es).output.length ≤ MAX_OUTPUT := by
  have hb : BuffersAux.Bounded (Mealy.final serve (new (F := F) volume) es) :=
    Mealy.invariant BuffersAux.Bounded (fun _ e hs he => BuffersAux.bounded_serve hs e he)
      ⟨Nat.zero_le _, Nat.zero_le _, nofun⟩ h
  exact ⟨hb.input, hb.out⟩

/-- INIT, and a REALPATH behind it. -/
def initRealpath : List Event :=
  [.feed [0, 0, 0, 5, 1, 0, 0, 0, 3], .beginPoll, .step true {}, .consume 9,
    .feed [0, 0, 0, 11, 16, 0, 0, 0, 7, 0, 0, 0, 2, 47, 97], .beginPoll, .step true {}]

/-- A REALPATH after INIT stays within the bounds. -/
theorem buffers_bounded_realpath :
    (Mealy.final serve (new (F := Ram.fat) {}) initRealpath).input.length ≤ MAX_INPUT ∧
      (Mealy.final serve (new (F := Ram.fat) {}) initRealpath).output.length ≤ MAX_OUTPUT := by
  refine buffers_bounded _ _ ⟨show 9 ≤ MAX_INPUT - 0 by decide, trivial, trivial, trivial, ?_, trivial, trivial, trivial⟩
  show 15 ≤ inputSpace _
  decide +kernel

end Sftp

end Ratputer
