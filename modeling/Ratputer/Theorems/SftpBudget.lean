import Ratputer.Lemmas.SftpCosts
import Ratputer.Lib.Mealy
import Ratputer.Ram

/-!
# The card budget

`beginPoll` allows one step that uses the volume. A step that has no budget left is the same step on every volume, and leaves the
volume alone; a step that uses the volume spends the budget, and moves at most one chunk of file payload.
-/

namespace Ratputer

open Effect

variable {V : Type} {F : Fat V}

/-! ## What an event moves -/

namespace BudgetAux

theorem answer_payload (w : World F.metered) (id : Nat) {handler : SftpM F.metered Unit} (h : Free handler) :
    (w.answer id handler).payload ≤ w.payload := by
  unfold World.answer
  split
  · rename_i hrun
    have hw := Costs.ok h hrun
    exact hw
  · rename_i hrun
    have hw := Costs.error h hrun
    exact hw

theorem dispatch_payload (w : World F.metered) (kind : Nat) (body : List UInt8) (mounted : Bool) (ctx : Ctx) :
    (w.dispatch kind body mounted ctx).payload ≤ w.payload := by
  unfold World.dispatch
  split
  · exact le_rfl
  split
  · exact le_rfl
  · refine answer_payload w _ ?_
    cases mounted with
    | true => exact Free.handleRequest _ _ _ _
    | false => exact costs_throw _

/-- A chunk of a `DATA` reply. -/
theorem continueRead_payload (w : World F.metered) (mounted : Bool) :
    (w.continueRead mounted).payload ≤ w.payload + IO_CHUNK := by
  unfold World.continueRead
  cases hstream : w.server.readStream with
  | none => exact Nat.le_add_right _ _
  | some stream =>
    cases mounted with
    | false => exact Nat.le_add_right _ _
    | true =>
      have hchunk := (costs_onFile (F := F) (costs_readChunk stream.offset (min stream.remaining IO_CHUNK)) stream.slot
        (.failure "")).mono (Nat.min_le_right _ _)
      dsimp only
      rw [if_pos rfl]
      split
      · rename_i bytes w' hrun
        have hw := hchunk.ok hrun
        split
        · exact hw
        · exact hw
      · rename_i status w' hrun
        have hw := hchunk.error hrun
        exact hw

/-- A chunk of a growing SETSTAT. -/
theorem continueResize_payload (w : World F.metered) (mounted : Bool) (ctx : Ctx) :
    (w.continueResize mounted ctx).payload ≤ w.payload + WRITE_CHUNK := by
  unfold World.continueResize
  cases hjob : w.server.resize with
  | none => exact Nat.le_add_right _ _
  | some job =>
    cases mounted with
    | false => exact Nat.le_add_right _ _
    | true =>
      have hchunk := costs_resizeChunk job ctx
      dsimp only
      rw [if_pos rfl]
      split
      · rename_i hrun
        have hw := hchunk.ok hrun
        exact hw
      · rename_i hrun
        have hw := hchunk.ok hrun
        exact hw
      · rename_i hrun
        have hw := hchunk.error hrun
        exact hw

/-- A chunk of a WRITE's payload, or of the gap before it. -/
theorem writePayload_payload (stream : WriteStream) {payload : List UInt8} (h : payload.length ≤ WRITE_CHUNK) (mounted : Bool)
    (w : World F.metered) : (writePayload stream payload mounted w).1.payload ≤ w.payload + WRITE_CHUNK := by
  unfold writePayload
  split
  · exact Nat.le_add_right _ _
  split
  · rename_i file hslot
    have hfind := costs_findIn (F := F) file.parent file.leaf
    split
    · rename_i entry v hfound
      have hv : World.payload { w with volume := v } ≤ w.payload := hfind.ok hfound
      have hchunk (start : Nat) {data : List UInt8} (hdata : data.length ≤ WRITE_CHUNK) :=
        (costs_onFile (F := F) (costs_writeChunk start data) stream.slot (.failure "Invalid handle")).mono hdata
      have hlen (gap : Bool) (n : Nat) :
          (if gap then List.replicate (min n WRITE_CHUNK) (0 : UInt8) else payload).length ≤ WRITE_CHUNK := by
        split
        · rw [List.length_replicate]
          exact Nat.min_le_right _ _
        · exact h
      dsimp only
      split
      · rename_i hrun
        have hw := (hchunk _ (hlen _ _)).ok hrun
        exact hw.trans (Nat.add_le_add_right hv _)
      · rename_i hrun
        have hw := (hchunk _ (hlen _ _)).error hrun
        exact hw.trans (Nat.add_le_add_right hv _)
    · rename_i v hfound
      have hv := hfind.ok hfound
      exact hv.trans (Nat.add_le_add_left (Nat.zero_le _) _)
    · rename_i v hfound
      have hv := hfind.error hfound
      exact hv.trans (Nat.add_le_add_left (Nat.zero_le _) _)
  · exact Nat.le_add_right _ _

theorem advanceWrite_payload (s : Sftp F.metered) (stream : WriteStream) (count : Nat) :
    World.payload (s.advanceWrite stream count).toWorld = s.payload := by
  unfold Sftp.advanceWrite
  dsimp only
  split <;> rfl

theorem continueWrite_payload (s : Sftp F.metered) (mounted : Bool) :
    World.payload (s.continueWrite mounted).1.toWorld ≤ s.payload + WRITE_CHUNK := by
  unfold Sftp.continueWrite
  split
  · exact Nat.le_add_right _ _
  · rename_i stream hstream
    split
    · rw [advanceWrite_payload]
      exact Nat.le_add_right _ _
    dsimp only
    split
    · exact Nat.le_add_right _ _
    split
    · rw [advanceWrite_payload]
      exact Nat.le_add_right _ _
    split
    · exact Nat.le_add_right _ _
    · have hcount : (s.input.take (min (min s.input.length stream.remaining) WRITE_CHUNK)).length ≤ WRITE_CHUNK :=
        (List.length_take_le _ _).trans (Nat.min_le_right _ _)
      have hwritten := writePayload_payload stream hcount mounted { s.toWorld with server.writeStream := none }
      split
      · rw [advanceWrite_payload]
        exact hwritten
      · exact hwritten

theorem beginWrite_payload (s : Sftp F.metered) (length : Nat) :
    World.payload (s.beginWrite length).1.toWorld = s.payload := by
  unfold Sftp.beginWrite
  dsimp only
  split
  · rfl
  split
  · rfl
  split
  · rfl
  split
  · rfl
  · rfl

theorem parseNext_payload (s : Sftp F.metered) (mounted : Bool) (ctx : Ctx) :
    World.payload (s.parseNext mounted ctx).1.toWorld ≤ s.payload := by
  unfold Sftp.parseNext
  dsimp only
  split
  · exact le_rfl
  split
  · exact le_rfl
  split
  · rw [beginWrite_payload]
  split
  · split
    · exact le_rfl
    · exact le_rfl
  split
  · exact le_rfl
  split
  · exact le_rfl
  · exact dispatch_payload _ _ _ _ _

/-- A step moves at most a chunk. -/
theorem step_payload (s : Sftp F.metered) (mounted : Bool) (ctx : Ctx) :
    World.payload (s.step mounted ctx).1.toWorld ≤ s.payload + IO_CHUNK := by
  unfold Sftp.step
  split
  · exact Nat.le_add_right _ _
  split
  · exact Nat.le_add_right _ _
  split
  · split
    · exact Nat.le_add_right _ _
    · exact continueResize_payload _ _ _
  split
  · split
    · exact Nat.le_add_right _ _
    · exact continueRead_payload _ _
  split
  · exact continueWrite_payload _ _
  split
  · exact Nat.le_add_right _ _
  · exact (parseNext_payload s mounted ctx).trans (Nat.le_add_right _ _)

end BudgetAux

/-! ## Which steps use the volume -/

namespace Sftp

variable (s : Sftp F)

/-- The session on another volume. -/
def on (v : V) : Sftp F := { s with volume := v }

/-- The event has nothing to do with the volume: on every volume the session does the same, and leaves the volume alone. -/
def Spares (e : Event) : Prop := ∀ v, (s.on v).serve e = ((s.serve e).1.on v, (s.serve e).2)

/-- The event uses the volume. -/
def Uses (e : Event) : Prop := ¬ s.Spares e

end Sftp

open Sftp

theorem on_server (s : Sftp F) (v : V) : (s.on v).server = s.server := rfl

theorem on_input (s : Sftp F) (v : V) : (s.on v).input = s.input := rfl

theorem on_skip (s : Sftp F) (v : V) : (s.on v).skip = s.skip := rfl

theorem on_cardBudget (s : Sftp F) (v : V) : (s.on v).cardBudget = s.cardBudget := rfl

theorem advanceWrite_on (s : Sftp F) (v : V) (stream : WriteStream) (count : Nat) :
    (s.on v).advanceWrite stream count = (s.advanceWrite stream count).on v := by
  unfold advanceWrite
  dsimp only
  split <;> rfl

variable {s : Sftp F}

/-- What a step that stays clear of the volume looks like, as against one that spends the budget. -/
inductive Budgeted (s : Sftp F) (step : Sftp F → Sftp F × Bool) : Prop
  | spared (h : ∀ v, step (s.on v) = ((step s).1.on v, (step s).2)) (hbudget : (step s).1.cardBudget = s.cardBudget)
  | spent (hbefore : s.cardBudget = true) (hafter : (step s).1.cardBudget = false)

/-- A step that moves the session by `f`, which knows nothing of the volume and of the budget. -/
theorem Budgeted.of {step : Sftp F → Sftp F × Bool} (f : Sftp F → Sftp F) (progress : Bool)
    (h : ∀ v, step (s.on v) = (f (s.on v), progress)) (hf : ∀ v, f (s.on v) = (f s).on v)
    (hbudget : (f s).cardBudget = s.cardBudget) : Budgeted s step := by
  have hs : step s = (f s, progress) := h s.volume
  refine .spared (fun v => ?_) ?_
  · rw [h v, hf v, hs]
  · rw [hs]
    exact hbudget

/-- A step that does nothing. -/
theorem Budgeted.idle {step : Sftp F → Sftp F × Bool} (h : ∀ v, step (s.on v) = (s.on v, false)) : Budgeted s step :=
  .of id false h (fun _ => rfl) rfl

/-- A step that is another one wherever the volume is. -/
theorem Budgeted.congr {step step' : Sftp F → Sftp F × Bool} (h : Budgeted s step') (heq : ∀ v, step (s.on v) = step' (s.on v)) :
    Budgeted s step := by
  have hs : step s = step' s := heq s.volume
  cases h with
  | spared h hbudget => exact .spared (fun v => by rw [heq, hs, h v]) (by rw [hs, hbudget])
  | spent hbefore hafter => exact .spent hbefore (by rw [hs, hafter])

theorem advanceWrite_budget (s : Sftp F) (stream : WriteStream) (count : Nat) :
    (s.advanceWrite stream count).cardBudget = s.cardBudget := by
  unfold advanceWrite
  dsimp only
  split <;> rfl

/-- The header of a WRITE is read without the volume. -/
theorem beginWrite_budgeted (s : Sftp F) (length : Nat) : Budgeted s (·.beginWrite length) := by
  by_cases hshort : s.input.length < 13
  · exact .idle fun v => by simp only [beginWrite, on_input, hshort, if_true]
  by_cases hhandle : 64 < u32At s.input 9
  · refine .of (fun s => { s with toWorld := s.setFatal }) false (fun v => ?_) (fun _ => rfl) rfl
    simp only [beginWrite, on_input, hshort, hhandle, if_true, if_false]
  by_cases hheader : s.input.length < (13 + u32At s.input 9 + 12) % USIZE
  · exact .idle fun v => by simp only [beginWrite, on_input, hshort, hhandle, hheader, if_true, if_false]
  by_cases hlength : length = ((13 + u32At s.input 9 + 12) % USIZE - 4 +
      (writeHeader s.input (u32At s.input 9)).dataLen) % USIZE
  · refine .of (fun s =>
      let rest := { s with input := s.input.drop ((13 + u32At s.input 9 + 12) % USIZE) }
      { rest with server.writeStream := some (rest.writeStreamOf (writeHeader s.input (u32At s.input 9))) }) true
      (fun v => ?_) (fun _ => rfl) rfl
    simp only [beginWrite, on_input, hshort, hhandle, hheader, if_false]
    exact if_pos hlength
  · refine .of (fun s => { s with
      toWorld := s.setFatal, input := s.input.drop ((13 + u32At s.input 9 + 12) % USIZE) }) false (fun v => ?_)
      (fun _ => rfl) rfl
    simp only [beginWrite, on_input, hshort, hhandle, hheader, hlength, if_false]

/-- A WRITE's payload: bytes of a refused one are dropped, others are written within the budget. -/
theorem continueWrite_budgeted (s : Sftp F) (mounted : Bool) : Budgeted s (·.continueWrite mounted) := by
  cases hstream : s.server.writeStream with
  | none => exact .idle fun v => by simp only [continueWrite, on_server, hstream]
  | some stream =>
    have htaken (count : Nat) (v : V) := advanceWrite_on s v stream count
    by_cases hdone : stream.remaining = 0
    · refine .of (·.advanceWrite stream 0) true (fun v => ?_) (htaken 0) (advanceWrite_budget s stream 0)
      simp only [continueWrite, on_server, hstream, hdone, if_true]
    by_cases hwait : min s.input.length stream.remaining = 0 ∨
        (min s.input.length stream.remaining < WRITE_CHUNK ∧ min s.input.length stream.remaining < stream.remaining)
    · exact .idle fun v => by simp only [continueWrite, on_server, on_input, hstream, hdone, hwait, if_true, if_false]
    by_cases hfailed : stream.failed.isSome
    · refine .of (·.advanceWrite stream (min (min s.input.length stream.remaining) WRITE_CHUNK)) true (fun v => ?_)
        (htaken _) (advanceWrite_budget s stream _)
      simp only [continueWrite, on_server, on_input, hstream, hdone, hwait, hfailed, if_true, if_false]
    cases hbudget : s.cardBudget with
    | false =>
      exact .idle fun v => by
        simp only [continueWrite, on_server, on_input, on_cardBudget, hstream, hdone, hwait, hfailed, hbudget, if_false,
          Bool.not_false, if_true, Bool.false_eq_true]
    | true =>
      refine .spent hbudget ?_
      simp only [continueWrite, hstream, hdone, hwait, hfailed, hbudget, if_false, Bool.not_true, Bool.false_eq_true]
      split
      · rw [advanceWrite_budget]
      · rfl

/-- The next packet: only a complete request is looked at on the volume, within the budget. -/
theorem parseNext_budgeted (s : Sftp F) (mounted : Bool) (ctx : Ctx) : Budgeted s (·.parseNext mounted ctx) := by
  by_cases hshort : s.input.length < 5
  · exact .idle fun v => by simp only [parseNext, on_input, hshort, if_true]
  by_cases hzero : u32At s.input 0 = 0
  · refine .of (fun s => { s with toWorld := s.setFatal }) false (fun v => ?_) (fun _ => rfl) rfl
    simp only [parseNext, on_input, hshort, hzero, if_true, if_false]
  by_cases hwrite : kindOf s.input = FXP_WRITE
  · refine (beginWrite_budgeted s (u32At s.input 0)).congr fun v => ?_
    simp only [parseNext, on_input, hshort, hzero, hwrite, if_true, if_false]
  by_cases hbig : MAX_REQUEST < u32At s.input 0
  · by_cases hid : s.input.length < 9
    · exact .idle fun v => by simp only [parseNext, on_input, hshort, hzero, hwrite, hbig, hid, if_true, if_false]
    · refine .of (fun s => { s with
        toWorld := s.emit (statusPacket (u32At s.input 5) ⟨FX_BAD_MESSAGE, "Request too large"⟩)
        input := s.input.drop (min s.input.length ((4 + u32At s.input 0) % USIZE))
        skip := (4 + u32At s.input 0) % USIZE - min s.input.length ((4 + u32At s.input 0) % USIZE) }) true (fun v => ?_)
        (fun _ => rfl) rfl
      simp only [parseNext, on_input, hshort, hzero, hwrite, hbig, hid, if_true, if_false]
  by_cases hpart : s.input.length < 4 + u32At s.input 0
  · exact .idle fun v => by simp only [parseNext, on_input, hshort, hzero, hwrite, hbig, hpart, if_true, if_false]
  cases hbudget : s.cardBudget with
  | false =>
    exact .idle fun v => by
      simp only [parseNext, on_input, on_cardBudget, hshort, hzero, hwrite, hbig, hpart, hbudget, if_false, Bool.not_false,
        if_true]
  | true =>
    refine .spent hbudget ?_
    simp only [parseNext, hshort, hzero, hwrite, hbig, hpart, hbudget, if_false, Bool.not_true, Bool.false_eq_true]

/-- A step without a budget spares the volume; one that uses the volume spends the budget. -/
theorem step_budgeted (s : Sftp F) (mounted : Bool) (ctx : Ctx) : Budgeted s (·.step mounted ctx) := by
  by_cases hfatal : s.server.fatal
  · exact .idle fun v => by simp only [step, on_server, hfatal, if_true]
  by_cases hout : s.server.out = []
  swap
  · refine .idle fun v => ?_
    simp only [step, on_server, hfatal, Bool.false_eq_true, if_false]
    exact if_pos hout
  by_cases hresize : s.server.resize.isSome
  · cases hbudget : s.cardBudget with
    | false =>
      exact .idle fun v => by
        simp only [step, on_server, on_cardBudget, hfatal, hout, hresize, hbudget, ne_eq, not_true_eq_false, Bool.false_eq_true,
          if_false, if_true, Bool.not_false]
    | true =>
      refine .spent hbudget ?_
      simp only [step, hfatal, hout, hresize, hbudget, ne_eq, not_true_eq_false, Bool.false_eq_true, if_false, if_true,
        Bool.not_true]
  by_cases hread : s.server.readStream.isSome
  · cases hbudget : s.cardBudget with
    | false =>
      exact .idle fun v => by
        simp only [step, on_server, on_cardBudget, hfatal, hout, hresize, hread, hbudget, ne_eq, not_true_eq_false,
          Bool.false_eq_true, if_false, if_true, Bool.not_false]
    | true =>
      refine .spent hbudget ?_
      simp only [step, hfatal, hout, hresize, hread, hbudget, ne_eq, not_true_eq_false, Bool.false_eq_true, if_false, if_true,
        Bool.not_true]
  by_cases hwrite : s.server.writeStream.isSome
  · refine (continueWrite_budgeted s mounted).congr fun v => ?_
    simp only [step, on_server, hfatal, hout, hresize, hread, hwrite, ne_eq, not_true_eq_false, Bool.false_eq_true, if_false,
      if_true]
  by_cases hskip : 0 < s.skip
  · refine .of (fun s => { s with input := s.input.drop (min s.skip s.input.length), skip := s.skip - min s.skip s.input.length })
      (0 < min s.skip s.input.length) (fun v => ?_) (fun _ => rfl) rfl
    simp only [step, on_server, on_skip, on_input, hfatal, hout, hresize, hread, hwrite, hskip, ne_eq, not_true_eq_false,
      Bool.false_eq_true, if_false, if_true]
    rfl
  · refine (parseNext_budgeted s mounted ctx).congr fun v => ?_
    simp only [step, on_server, on_skip, hfatal, hout, hresize, hread, hwrite, hskip, ne_eq, not_true_eq_false,
      Bool.false_eq_true, if_false]

/-! ## Runs -/

/-- An event that uses the volume is a step; it had the budget and has spent it. -/
theorem uses_spends {e : Event} (h : s.Uses e) :
    (∃ mounted ctx, e = .step mounted ctx) ∧ s.cardBudget = true ∧ (s.serve e).1.cardBudget = false := by
  cases e with
  | feed bytes => exact (h fun v => rfl).elim
  | consume count => exact (h fun v => rfl).elim
  | beginPoll => exact (h fun v => rfl).elim
  | step mounted ctx =>
    cases step_budgeted s mounted ctx with
    | spared hspared _ => exact (h fun v => by simp only [serve, hspared]).elim
    | spent hbefore hafter => exact ⟨⟨mounted, ctx, rfl⟩, hbefore, hafter⟩

/-- An event that leaves the volume in another state uses it. -/
theorem uses_of_changed {e : Event} (h : (s.serve e).1.volume ≠ s.volume) : s.Uses e := by
  intro hspares
  have hself := congrArg (fun r : Sftp F × Seen => r.1.volume) (hspares s.volume)
  exact h hself

/-- Only `beginPoll` gives a budget. -/
theorem serve_keeps_spent {e : Event} (he : e ≠ .beginPoll) (h : s.cardBudget = false) :
    (s.serve e).1.cardBudget = false := by
  cases e with
  | feed bytes => exact h
  | consume count => exact h
  | beginPoll => exact (he rfl).elim
  | step mounted ctx =>
    cases step_budgeted s mounted ctx with
    | spared _ hbudget => exact hbudget.trans h
    | spent _ hafter => exact hafter

/-- A budget that is spent stays spent until the next `beginPoll`. -/
theorem run_keeps_spent {es : List Event} (hes : .beginPoll ∉ es) (h : s.cardBudget = false) :
    (Mealy.final serve s es).cardBudget = false :=
  Mealy.invariant_of_mem (fun s : Sftp F => s.cardBudget = false) (fun _ he _ hs => serve_keeps_spent (fun h => hes (h ▸ he)) hs) h

/-- One bounded card operation per poll. In every run, whatever it is fed and however it is stepped, between two polls at most
one event uses the volume: no event `e'` does after an event `e` has without a `beginPoll` between them. Such an event is a
step, and it asks the driver for at most 8192 bytes of file payload. The volume holds the meter of the driver's calls, so an event
that makes any call changes the volume, and uses it. -/
theorem one_card_step_per_poll (F : Fat V) (volume : V) (before between : List Event) (e e' : Event)
    (hpoll : .beginPoll ∉ between) :
    let run := Mealy.final serve (new (F := F.metered) (volume, {}))
    ¬ ((run before).Uses e ∧ (run (before ++ e :: between)).Uses e') ∧
      ((run before).Uses e → ∃ mounted ctx, e = .step mounted ctx) ∧
        ((run (before ++ [e])).volume ≠ (run before).volume → (run before).Uses e) ∧
        (run (before ++ [e])).volume.2.payload ≤ (run before).volume.2.payload + 8192 := by
  dsimp only
  refine ⟨?_, fun h => (uses_spends h).1, fun h => ?_, ?_⟩
  · rintro ⟨huses, huses'⟩
    rw [Mealy.final_append, Mealy.final_cons] at huses'
    have hspent := run_keeps_spent hpoll (uses_spends huses).2.2
    rw [(uses_spends huses').2.1] at hspent
    nomatch hspent
  · rw [Mealy.final_append, Mealy.final_cons, Mealy.final_nil] at h
    exact uses_of_changed h
  · rw [Mealy.final_append, Mealy.final_cons, Mealy.final_nil]
    cases e with
    | feed bytes => exact Nat.le_add_right _ _
    | consume count => exact Nat.le_add_right _ _
    | beginPoll => exact Nat.le_add_right _ _
    | step mounted ctx => exact BudgetAux.step_payload _ mounted ctx

/-- A request is fed and stepped twice in one poll: the second step leaves the volume alone. -/
theorem one_card_step_per_poll_stat :
    let run := Mealy.final serve (new (F := Ram.fat.metered) ({}, {}))
    ¬ ((run [.beginPoll, .feed [0, 0, 0, 10, 17, 0, 0, 0, 7, 0, 0, 0, 1, 97]]).Uses (.step true {}) ∧
      (run [.beginPoll, .feed [0, 0, 0, 10, 17, 0, 0, 0, 7, 0, 0, 0, 1, 97], .step true {}, .consume 100]).Uses (.step true {})) :=
  (one_card_step_per_poll Ram.fat {} [.beginPoll, .feed [0, 0, 0, 10, 17, 0, 0, 0, 7, 0, 0, 0, 1, 97]] [.consume 100]
    (.step true {}) (.step true {}) (by decide)).1

end Ratputer
