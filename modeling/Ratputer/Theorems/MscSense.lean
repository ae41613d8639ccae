import Ratputer.Lemmas.Msc
import Ratputer.Lib.Interference

/-!
# The sense behind a failed command

A command that fails is followed by REQUEST SENSE, which reports what is stored as the sense then. `Explained` says that this is a
reason, and the reason of this command. Every failing exit of the class sets it except one: READ CAPACITY(16) without a medium.
-/

namespace Ratputer

open Coroutine

/-- The class in a command: the shared state, and the updates of it that the command has made. -/
structure Running where
  shared : SharedState
  updates : List (SharedState → SharedState)

/-- What an operation may end in. An update of the shared state is made and recorded; the backend and the endpoints answer anything,
and while they do the firmware may do anything to the shared state but replace the sense. -/
def MscOp.Answers : (o : MscOp) → Running → o.Ret → Running → Prop
  | .shared f, s, r, s' => r = s.shared ∧ s' = ⟨f s.shared, s.updates ++ [f]⟩
  | .blockRead .., s, _, s' | .blockWrite .., s, _, s' | .endpointRead .., s, _, s' | .endpointWrite .., s, _, s'
  | .waitEnabled, s, _, s' => s'.updates = s.updates ∧ s'.shared.sense = s.shared.sense

/-- The stored sense names a reason, and the command itself has stored it: one of its updates leaves this sense whatever the
sense was before. -/
structure Running.Explained (s : Running) : Prop where
  key : s.shared.sense.key ≠ 0
  own : ∃ f ∈ s.updates, ∀ shared, (f shared).sense = s.shared.sense

/-- The one failing command without a sense of its own. -/
def unexplained (cbw : Cbw) (s : SharedState) : Prop :=
  cbw.byte 0 = SCSI_SERVICE_ACTION_IN_16 ∧ (cbw.byte 1).toNat % 32 = 0x10 ∧ s.blockCount = 0

instance (cbw : Cbw) (s : SharedState) : Decidable (unexplained cbw s) := inferInstanceAs (Decidable (_ ∧ _))

namespace SenseAux

variable {α β : Type}

/-- A coroutine that neither updates the shared state nor lets the sense change. -/
def Keeps (t : MscM α) : Prop :=
  ∀ s, wp (All MscOp.Answers) t s fun _ s' => s'.updates = s.updates ∧ s'.shared.sense = s.shared.sense

/-- A failure is explained. -/
def FailsExplained (status : CommandStatus) (s : Running) : Prop := status = .failed → s.Explained

/-- A command whose failures are explained. -/
abbrev Explains (t : MscM CommandResult) : Prop := Always MscOp.Answers (fun result s => FailsExplained result.2 s) t

/-- The same of READ(10) and WRITE(10). -/
abbrev Explains' (t : MscM (CommandResult × BlockCache)) : Prop :=
  Always MscOp.Answers (fun answer s => FailsExplained answer.1.2 s) t

/-- A change of the shared state is one of the updates. -/
theorem wp_modifyShared (f : SharedState → SharedState) (s : Running) (Q : Unit → Running → Prop) :
    wp (All MscOp.Answers) (modifyShared f) s Q ↔ Q () ⟨f s.shared, s.updates ++ [f]⟩ := by
  constructor
  · exact fun h => h s.shared _ ⟨rfl, rfl⟩
  · rintro h _ _ ⟨rfl, rfl⟩
    exact h

/-- A look at the shared state is one that changes nothing. -/
theorem wp_borrow (s : Running) (Q : SharedState → Running → Prop) :
    wp (All MscOp.Answers) borrow s Q ↔ Q s.shared ⟨s.shared, s.updates ++ [id]⟩ := by
  constructor
  · exact fun h => h s.shared _ ⟨rfl, rfl⟩
  · rintro h _ _ ⟨rfl, rfl⟩
    exact h

/-- A read from the host keeps the sense data. -/
theorem keeps_endpointRead (phase : Phase) (len : ℕ) : Keeps (endpointRead phase len) := fun _ _ _ h => h

/-- A value is no operation. -/
theorem keeps_pure (a : α) : Keeps (pure a) := fun _ => ⟨rfl, rfl⟩

/-- Parts that keep the sense data, one after the other. -/
theorem keeps_bind {t : MscM α} {f : α → MscM β} (h : Keeps t) (h' : ∀ a, Keeps (f a)) : Keeps (t >>= f) := by
  intro s
  rw [wp_bind]
  refine wp_mono (all_monotone _) (fun a s1 h1 => ?_) (h s)
  refine wp_mono (all_monotone _) (fun b s2 h2 => ?_) (h' a s1)
  exact ⟨h2.1.trans h1.1, h2.2.trans h1.2⟩

/-- A sense with a key, just stored, explains a failure behind whatever keeps it. -/
theorem explained_of_keeps {key : UInt8} (hkey : key ≠ 0) (asc ascq : UInt8) {t : MscM α} (ht : Keeps t) :
    Always MscOp.Answers (fun _ s => s.Explained) (do modifyShared (·.setSense key asc ascq); t) := by
  intro s
  rw [wp_bind]
  refine (wp_modifyShared _ s _).mpr ?_
  refine wp_mono (all_monotone _) (fun a s' h => ⟨?_, (·.setSense key asc ascq), ?_, ?_⟩) (ht _)
  · rw [h.2]
    exact hkey
  · rw [h.1]
    exact List.mem_append_right _ (List.mem_singleton_self _)
  · intro shared
    rw [h.2]
    rfl

/-! ## The handlers -/

/-- Dropping payload keeps the sense data. -/
theorem keeps_discardOut (length : ℕ) : Keeps (discardOut length) := by
  induction length using discardOut.induct with
  | case1 =>
    rw [discardOut, dif_pos rfl]
    exact keeps_pure _
  | case2 length hne wanted ih =>
    rw [discardOut, dif_neg hne]
    refine keeps_bind (keeps_endpointRead _ _) fun answer => ?_
    rcases answer with e | packet
    · exact keeps_pure _
    · simp only
      split
      · exact keeps_pure _
      · exact ih packet ‹_›

/-- An answer of data never fails. -/
theorem sendData_not_failed (cbw : Cbw) (data : List UInt8) :
    Always MscOp.Answers (fun result _ => result.2 ≠ .failed) (sendData cbw data) := by
  unfold sendData
  refine always_ite (fun _ => always_pure fun _ => nofun) fun _ => always_bind fun answer => ?_
  rcases answer with e | _
  · exact always_pure fun _ => nofun
  · refine always_ite (fun _ => always_bind fun answer => ?_) fun _ => always_pure fun _ => nofun
    rcases answer with e | _
    · exact always_pure fun _ => nofun
    · exact always_pure fun _ => nofun

/-- A command that does not fail has nothing to explain. -/
theorem explains_pure {result : CommandResult} (h : result.2 ≠ .failed) : Explains (pure result) :=
  always_pure fun _ hf => absurd hf h

/-- A command that sets a sense key explains itself, whatever its result. -/
theorem explains_setSense {key : UInt8} (hkey : key ≠ 0) (asc ascq : UInt8) (result : CommandResult) :
    Explains (do modifyShared (·.setSense key asc ascq); pure result) :=
  always_mono (fun _ _ h _ => h) (explained_of_keeps hkey asc ascq (keeps_pure result))

/-- Sending data does not fail. -/
theorem explains_sendData (cbw : Cbw) (data : List UInt8) : Explains (sendData cbw data) :=
  always_mono (fun _ _ h hf => absurd hf h) (sendData_not_failed cbw data)

/-- A command without data does not fail. -/
theorem explains_noData (cbw : Cbw) : Explains (noData cbw) :=
  always_ite (fun _ => explains_pure nofun) fun _ =>
    explains_setSense (by decide : SENSE_ILLEGAL_REQUEST ≠ 0) _ _ _

/-- TEST UNIT READY. -/
theorem explains_testUnitReady (cbw : Cbw) : Explains (testUnitReady cbw) :=
  always_ite (fun _ => explains_pure nofun) fun _ => always_bind fun _ =>
    always_ite (fun _ => explains_pure nofun) fun _ => explains_setSense (by decide : SENSE_NOT_READY ≠ 0) _ _ _

/-- START STOP UNIT. -/
theorem explains_startStop (cbw : Cbw) : Explains (startStop cbw) := by
  unfold startStop
  exact always_ite (fun _ => explains_pure nofun) fun _ =>
    always_ite (fun _ => always_bind fun _ => explains_pure nofun) fun _ => explains_pure nofun

/-- REQUEST SENSE. -/
theorem explains_requestSense (cbw : Cbw) : Explains (requestSense cbw) := by
  refine always_bind fun shared => always_bind_of (sendData_not_failed cbw _) fun result s h => ?_
  split
  · exact always_bind (fun _ => explains_pure h) s
  · exact explains_pure h s

/-- INQUIRY. -/
theorem explains_inquiry (cbw : Cbw) : Explains (inquiry cbw) := by
  unfold inquiry
  split
  · exact explains_sendData cbw _
  · exact explains_setSense (by decide : SENSE_ILLEGAL_REQUEST ≠ 0) _ _ _

/-- READ CAPACITY(10). -/
theorem explains_readCapacity10 (cbw : Cbw) : Explains (readCapacity10 cbw) :=
  always_bind fun _ => always_ite (fun _ => explains_setSense (by decide : SENSE_NOT_READY ≠ 0) _ _ _)
    fun _ => explains_sendData cbw _

/-- READ FORMAT CAPACITIES. -/
theorem explains_readFormatCapacities (cbw : Cbw) : Explains (readFormatCapacities cbw) :=
  always_bind fun _ => explains_sendData cbw _

/-- READ CAPACITY(16) fails without a sense exactly where there is no medium. -/
theorem wp_readCapacity16 {cbw : Cbw} {s : Running} (h : s.shared.blockCount ≠ 0) :
    wp (All MscOp.Answers) (readCapacity16 cbw) s fun result s' => FailsExplained result.2 s' := by
  rw [readCapacity16, wp_bind, wp_borrow]
  simp only [if_neg h]
  exact explains_sendData cbw _ _

/-- A command that is not READ(10) or WRITE(10) explains its failures, unless it is the one without a sense. -/
theorem wp_executeOther {cbw : Cbw} {s : Running} (h : ¬unexplained cbw s.shared) :
    wp (All MscOp.Answers) (executeOther cbw) s fun result s' => FailsExplained result.2 s' := by
  have hother : ∀ {c : Prop} [Decidable c] {t u : MscM CommandResult}, Explains t →
      wp (All MscOp.Answers) u s (fun result s' => FailsExplained result.2 s') →
      wp (All MscOp.Answers) (if c then t else u) s fun result s' => FailsExplained result.2 s' := by
    intro c _ t u ht hu
    split
    · exact ht s
    · exact hu
  unfold executeOther
  refine hother (explains_testUnitReady cbw) (hother (explains_requestSense cbw) (hother (explains_inquiry cbw)
    (hother (explains_sendData cbw _) (hother (explains_sendData cbw _) (hother (explains_startStop cbw)
    (hother (explains_noData cbw) (hother (explains_readFormatCapacities cbw) (hother (explains_readCapacity10 cbw) ?_))))))))
  split
  · rename_i hop
    exact wp_readCapacity16 fun hcount => h ⟨hop.1, hop.2, hcount⟩
  · exact hother (explains_sendData cbw _) (hother (explains_noData cbw)
      (explains_setSense (by decide : SENSE_ILLEGAL_REQUEST ≠ 0) _ _ _ s))

/-! ## READ(10) and WRITE(10) -/

/-- A lookup that finds no line has stored why. -/
theorem lookup_explained (cache : BlockCache) (count current : ℕ) (streaming : Bool) :
    Always MscOp.Answers (fun answer s => answer.1 = none → s.Explained) (lookup cache count current streaming) := by
  unfold lookup
  split
  · exact always_pure fun _ => nofun
  · refine always_bind fun shared => always_bind fun blocks => ?_
    rcases blocks with _ | blocks
    · exact always_mono (fun _ _ h _ => h) (explained_of_keeps (by decide : SENSE_MEDIUM_ERROR ≠ 0) _ _ (keeps_pure _))
    · exact always_pure fun _ => nofun

/-- The blocks of a line go out, or the command ends in a phase error. -/
theorem explains_read10Loop (count fin : ℕ) (streaming : Bool) (fuel : ℕ) (cache : BlockCache) (current residue : ℕ) :
    Explains' (read10Loop count fin streaming fuel cache current residue) := by
  induction fuel generalizing cache current residue with
  | zero => exact always_pure fun _ => nofun
  | succ fuel ih =>
    rw [read10Loop]
    refine always_ite (fun _ => ?_) fun _ => always_pure fun _ => nofun
    refine always_bind_of (lookup_explained cache count current streaming) fun answer s hnone => ?_
    rcases answer with ⟨_ | ⟨index, hit⟩, cache⟩
    · exact fun _ => hnone rfl
    · refine always_bind (fun sent => ?_) s
      rcases sent with residue | residue
      · exact always_pure fun _ => nofun
      · exact always_bind fun _ => ih _ _ _

/-- READ(10). -/
theorem explains_read10 (cache : BlockCache) (cbw : Cbw) : Explains' (read10 cache cbw) := by
  unfold read10
  refine always_ite (fun _ => always_pure fun _ => nofun) fun _ => always_ite (fun _ => always_pure fun _ => nofun) fun _ => ?_
  refine always_bind fun shared => always_ite (fun _ => ?_) fun _ => explains_read10Loop _ _ _ _ _ _ _
  exact always_mono (fun _ _ h _ => h) (explained_of_keeps (by decide : SENSE_ILLEGAL_REQUEST ≠ 0) _ _ (keeps_pure _))

/-- The rest of a refused data phase is drained, and the reason stays. -/
theorem keeps_drained (cache : BlockCache) (length residue : ℕ) : Keeps (do
    match ← discardOut length with
    | .error _ => pure ((residue, CommandStatus.phaseError), cache)
    | .ok () => pure ((residue, CommandStatus.failed), cache)) := by
  refine keeps_bind (keeps_discardOut length) fun answer => ?_
  rcases answer with e | _
  · exact keeps_pure _
  · exact keeps_pure _

/-- The blocks of a WRITE(10), one after the other. -/
theorem explains_write10Loop (fin fuel : ℕ) (cache : BlockCache) (current residue : ℕ) :
    Explains' (write10Loop fin fuel cache current residue) := by
  induction fuel generalizing cache current residue with
  | zero => exact always_pure fun _ => nofun
  | succ fuel ih =>
    rw [write10Loop]
    refine always_ite (fun _ => always_bind fun answer => ?_) fun _ => always_pure fun _ => nofun
    rcases answer with e | blocks
    · exact always_pure fun _ => nofun
    · refine always_bind fun shared => always_bind fun written => always_ite (fun _ => ?_) fun _ => ?_
      · exact always_mono (fun _ _ h _ => h) (explained_of_keeps (by decide : SENSE_MEDIUM_ERROR ≠ 0) _ _ (keeps_drained _ _ _))
      · exact always_bind fun _ => ih _ _ _

/-- WRITE(10). -/
theorem explains_write10 (cache : BlockCache) (cbw : Cbw) : Explains' (write10 cache cbw) := by
  unfold write10
  refine always_ite (fun _ => always_pure fun _ => nofun) fun _ => always_ite (fun _ => always_pure fun _ => nofun) fun _ => ?_
  refine always_bind fun shared => always_ite (fun _ => ?_) fun _ => explains_write10Loop _ _ _ _ _
  exact always_mono (fun _ _ h _ => h) (explained_of_keeps (by decide : SENSE_ILLEGAL_REQUEST ≠ 0) _ _ (keeps_drained _ _ _))

/-- Every command but one explains its failures. -/
theorem wp_execute (cls : MscClass) {cbw : Cbw} {s : Running} (h : ¬unexplained cbw s.shared) :
    wp (All MscOp.Answers) (cls.execute cbw) s fun answer s' => FailsExplained answer.1.2 s' := by
  rw [MscClass.execute, wp_bind, wp_borrow]
  dsimp only
  split
  · refine always_bind_of (explains_read10 _ cbw) ?_ _
    rintro ⟨result, cache⟩ _ hexp
    exact hexp
  · split
    · refine always_bind_of (explains_write10 _ cbw) ?_ _
      rintro ⟨result, cache⟩ _ hexp
      exact hexp
    · rw [wp_bind]
      exact wp_executeOther h

/-- A READ CAPACITY(16) without a medium fails with nothing stored, and so with the sense that an earlier command left. -/
theorem wp_execute_unexplained (cls : MscClass) {cbw : Cbw} {s : SharedState} (h : unexplained cbw s)
    (Q : CommandResult × MscClass → Running → Prop) :
    wp (All MscOp.Answers) (cls.execute cbw) ⟨s, []⟩ Q ↔ Q ((cbw.transferLen, .failed), cls.refresh s.generation) ⟨s, [id, id]⟩ := by
  obtain ⟨hop, haction, hcount⟩ := h
  have hother : executeOther cbw = readCapacity16 cbw := by
    simp only [executeOther, hop, haction]
    rfl
  have hread : ¬SCSI_SERVICE_ACTION_IN_16 = SCSI_READ_10 := by decide
  have hwrite : ¬SCSI_SERVICE_ACTION_IN_16 = SCSI_WRITE_10 := by decide
  rw [MscClass.execute, wp_bind, wp_borrow]
  simp only [hop, if_neg hread, if_neg hwrite, hother, readCapacity16, wp_bind, wp_borrow, hcount, if_true, wp_pure]
  rfl

end SenseAux

/-- A command that fails leaves a sense of its own, in every run from every shared state, exactly when it is no
READ CAPACITY(16) without a medium. -/
theorem failure_explained_iff (cls : MscClass) (cbw : Cbw) (s : SharedState) :
    (∀ residue cls' after, Ends MscOp.Answers (cls.execute cbw) ⟨s, []⟩ ((residue, .failed), cls') after → after.Explained) ↔
      ¬unexplained cbw s := by
  constructor
  · intro h hun
    -- The update that should have stored the sense would be the identity.
    have hwp : wp (All MscOp.Answers) (cls.execute cbw) ⟨s, []⟩ fun answer after => answer.1.2 = .failed → after.Explained := by
      refine wp_all.mpr fun answer after he hfailed => ?_
      obtain ⟨⟨residue, status⟩, cls'⟩ := answer
      obtain rfl : status = .failed := hfailed
      exact h residue cls' after he
    obtain ⟨-, f, hf, hown⟩ := (SenseAux.wp_execute_unexplained cls hun _).mp hwp rfl
    obtain rfl : f = id := by simpa using hf
    have hkey := congrArg Sense.key (hown { s with sense := ⟨s.sense.key + 1, 0, 0⟩ })
    simp at hkey
  · intro hex residue cls' after he
    exact wp_all.mp (SenseAux.wp_execute cls hex) _ _ he rfl

/-- READ CAPACITY(16). -/
def readCapacity16Block : Cbw := ⟨1, 32, .in_, 0, 16, [0x9e, 0x10, 0, 0, 0, 0, 0, 0, 0, 0, 0, 0, 0, 32, 0, 0]⟩

/-- READ CAPACITY(16) on a device that nothing was ever attached to fails, and leaves no sense. -/
theorem failure_unexplained : ∃ residue cls' after,
    Ends MscOp.Answers (MscClass.new.execute readCapacity16Block) ⟨.default, []⟩ ((residue, .failed), cls') after ∧
      after.shared.sense.key = 0 := by
  have hun : unexplained readCapacity16Block .default := by decide
  refine ⟨32, MscClass.new.refresh 0, ⟨.default, [id, id]⟩, ?_, rfl⟩
  by_contra hno
  have hwp : wp (All MscOp.Answers) (MscClass.new.execute readCapacity16Block) ⟨.default, []⟩
      fun answer after => ¬(answer = ((32, .failed), MscClass.new.refresh 0) ∧ after = ⟨.default, [id, id]⟩) := by
    refine wp_all.mpr ?_
    rintro _ _ he ⟨rfl, rfl⟩
    exact hno he
  exact (SenseAux.wp_execute_unexplained .new hun _).mp hwp ⟨rfl, rfl⟩

end Ratputer
