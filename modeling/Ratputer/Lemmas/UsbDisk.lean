import Ratputer.UsbDisk
import Ratputer.Lib.Interference

/-!
# The class between two waits

`Medium` follows the main loop's calls and the commands: which context pointer is installed, and whether the medium is ejected.
While the class waits the main loop may change both; `spec` says so of every operation, and asks that a call on the card only be
made where it is allowed. The lemmas show that every part of the class keeps to it, from its first operation to its last.
-/

namespace Ratputer

open Coroutine

/-- What the observations so far say about the card. -/
structure Medium where
  /-- The context pointer of the latest attach with no detach after it. -/
  installed : Option ℕ := none
  /-- The medium was ejected, and neither loaded nor attached again since. -/
  ejected : Bool := false
  /-- It was when the command in progress started. -/
  barred : Bool := false
  deriving DecidableEq, Repr

/-- A START STOP UNIT that loads the medium or ejects it. -/
def Cbw.loads (cbw : Cbw) : Option Bool :=
  if cbw.byte 0 = SCSI_START_STOP_UNIT ∧ cbw.transferLen = 0 ∧ (cbw.byte 4).toNat / 2 % 2 = 1 then
    some ((cbw.byte 4).toNat % 2 = 1)
  else none

namespace Medium

def see (m : Medium) : Observed → Medium
  | .attach context => { m with installed := some context, ejected := false }
  | .detach => { m with installed := none }
  | .command cbw => { m with barred := m.ejected, ejected := (cbw.loads.map Bool.not).getD m.ejected }
  | _ => m

/-- START STOP UNIT decides whether the medium is ejected, other commands leave that. -/
theorem ejected_see_command (m : Medium) (cbw : Cbw) :
    (m.see (.command cbw)).ejected = (cbw.loads.map Bool.not).getD m.ejected := rfl

def watch (m : Medium) (o : Observed) : Medium × Unit := (m.see o, ())

/-- A call on the card goes to the installed context pointer, and a read or write does not belong to a command that started on
an ejected medium. -/
def Allowed (m : Medium) : Observed → Prop
  | .count context => m.installed = some context
  | .read context _ _ | .write context _ _ => m.installed = some context ∧ m.barred = false
  | _ => True

end Medium

/-- The shared state, and what the observations say. -/
abbrev MediumView := SharedState × Medium

/-- The shared state says about the card what the observations do. -/
structure Agrees (s : MediumView) : Prop where
  backend : s.1.backend = s.2.installed.elim .none .device
  attached : s.1.attached = s.2.installed.isSome
  ejected : s.2.ejected = true → s.1.attached = true → s.1.ejected = true

/-- The operations of the class: a wait gives way to the main loop, which leaves any state that agrees. -/
def mediumSpec : (o : MscOp) → MediumView → (o.Ret → MediumView → Prop) → Prop
  | .shared f, s, Q => Q s.1 (f s.1, s.2)
  | .blockRead .none _ _, s, Q => Q none s
  | .blockRead (.device context) lba len, s, Q => s.2.Allowed (.read context lba len) ∧ ∀ r, Q r s
  | .blockWrite .none _ _, s, Q => Q false s
  | .blockWrite (.device context) lba blocks, s, Q => s.2.Allowed (.write context lba blocks) ∧ ∀ r, Q r s
  | o, s, Q => Agrees s ∧ ∀ r s', Agrees s' → s'.2.barred = s.2.barred →
      Q r (s'.1, Mealy.final Medium.watch s'.2 (started o r))

namespace UsbDiskAux

/-- The specification asks less of an operation where less is asked after it. -/
theorem monotone_mediumSpec : Monotone mediumSpec := by
  intro o s Q Q' hQ h
  cases o with
  | shared f => exact hQ _ _ h
  | blockRead backend lba len =>
    cases backend with
    | none => exact hQ _ _ h
    | device context => exact ⟨h.1, fun r => hQ r s (h.2 r)⟩
  | blockWrite backend lba blocks =>
    cases backend with
    | none => exact hQ _ _ h
    | device context => exact ⟨h.1, fun r => hQ r s (h.2 r)⟩
  | endpointRead phase len => exact ⟨h.1, fun r s' hs hb => hQ _ _ (h.2 r s' hs hb)⟩
  | endpointWrite phase data => exact ⟨h.1, fun r s' hs hb => hQ _ _ (h.2 r s' hs hb)⟩
  | waitEnabled => exact ⟨h.1, fun r s' hs hb => hQ _ _ (h.2 r s' hs hb)⟩

variable {α β : Type} {b : Bool}

/-- A part of a command that keeps to the specification and gives way in agreement, in a command that is barred or not. -/
def Calm (b : Bool) (t : MscM α) : Prop :=
  ∀ s : MediumView, Agrees s → s.2.barred = b → wp mediumSpec t s fun _ s' => Agrees s' ∧ s'.2.barred = b

/-- A value is no operation. -/
theorem calm_pure (a : α) : Calm b (pure a : MscM α) := fun _ hs hb => ⟨hs, hb⟩

/-- Calm parts, one after the other. -/
theorem calm_bind {t : MscM α} {f : α → MscM β} (ht : Calm b t) (hf : ∀ a, Calm b (f a)) : Calm b (t >>= f) := by
  intro s hs hb
  rw [wp_bind]
  exact wp_mono monotone_mediumSpec (fun a s' h => hf a s' h.1 h.2) (ht s hs hb)

/-- Borrowing the shared state changes nothing. -/
theorem calm_borrow : Calm b borrow := fun _ hs hb => ⟨hs, hb⟩

/-- A change of the shared state that leaves the card alone. -/
theorem calm_modifyShared {f : SharedState → SharedState}
    (hf : ∀ s, (f s).backend = s.backend ∧ (f s).attached = s.attached ∧ (f s).ejected = s.ejected) :
    Calm b (modifyShared f) := by
  intro s hs hb
  obtain ⟨h1, h2, h3⟩ := hf s.1
  refine ⟨⟨h1.trans hs.backend, h2.trans hs.attached, fun he ha => ?_⟩, hb⟩
  exact h3.trans (hs.ejected he (h2.symm.trans ha))

/-- Sense data says nothing about the card. -/
theorem calm_setSense (key asc ascq : UInt8) : Calm b (modifyShared (·.setSense key asc ascq)) :=
  calm_modifyShared fun _ => ⟨rfl, rfl, rfl⟩

/-- A read from the host gives way in agreement. -/
theorem calm_readData (len : ℕ) : Calm b (endpointRead .data len) :=
  fun _ hs hb => ⟨hs, fun _ _ hs' hb' => ⟨hs', hb'.trans hb⟩⟩

/-- A write to the host gives way in agreement. -/
theorem calm_endpointWrite (phase : Phase) (data : List UInt8) : Calm b (endpointWrite phase data) :=
  fun _ hs hb => ⟨hs, fun _ _ hs' hb' => ⟨hs', hb'.trans hb⟩⟩

/-- Waiting for the host gives way in agreement. -/
theorem calm_waitEnabled : Calm b waitEnabled := fun _ hs hb => ⟨hs, fun _ _ hs' hb' => ⟨hs', hb'.trans hb⟩⟩

/-- Both branches are calm, each under its condition. -/
theorem calm_ite {c : Prop} [Decidable c] {t u : MscM α} (ht : c → Calm b t) (hu : ¬ c → Calm b u) :
    Calm b (if c then t else u) := by
  split_ifs with h
  · exact ht h
  · exact hu h

/-- The card is read through the backend of the moment. -/
theorem calm_card_read {start len : ℕ} {k : Option (List Block) → MscM α} (hk : ∀ r, Calm false (k r)) :
    Calm false (borrow >>= fun s => blockRead s.backend start len >>= k) := by
  intro s hs hb
  show wp mediumSpec (blockRead s.1.backend start len >>= k) s _
  rw [hs.backend, wp_bind]
  cases hi : s.2.installed with
  | none => exact hk none s hs hb
  | some context => exact ⟨⟨hi, hb⟩, fun r => hk r s hs hb⟩

/-- The card is written through the backend of the moment. -/
theorem calm_cardWrite {start : ℕ} {blocks : List Block} {k : Bool → MscM α} (hk : ∀ r, Calm false (k r)) :
    Calm false (borrow >>= fun s => blockWrite s.backend start blocks >>= k) := by
  intro s hs hb
  show wp mediumSpec (blockWrite s.1.backend start blocks >>= k) s _
  rw [hs.backend, wp_bind]
  cases hi : s.2.installed with
  | none => exact hk false s hs hb
  | some context => exact ⟨⟨hi, hb⟩, fun r => hk r s hs hb⟩

/-! ## Packets -/

/-- The pieces of an answer go out one after the other. -/
theorem calm_writeChunks (l : List (List UInt8)) : Calm b (writeChunks l) := by
  induction l with
  | nil => exact calm_pure _
  | cons chunk l ih =>
    refine calm_bind (calm_endpointWrite _ _) fun r => ?_
    cases r with
    | error e => exact calm_pure _
    | ok _ => exact ih

/-- An answer goes out in packets. -/
theorem calm_writePackets (data : List UInt8) : Calm b (writePackets data) := calm_writeChunks _

/-- The pieces of a payload come in one after the other. -/
theorem calm_readChunks (l : List ℕ) : Calm b (readChunks l) := by
  induction l with
  | nil => exact calm_pure _
  | cons size l ih =>
    refine calm_bind (calm_readData _) fun r => ?_
    cases r with
    | error e => exact calm_pure _
    | ok packet =>
      refine calm_ite (fun _ => calm_pure _) fun _ => calm_bind ih fun r => ?_
      cases r <;> exact calm_pure _

/-- A block of payload comes in. -/
theorem calm_readBlock : Calm b readBlock := by
  refine calm_bind (calm_readChunks _) fun r => ?_
  cases r <;> exact calm_pure _

/-- Several blocks of payload come in. -/
theorem calm_readBlocks (count : ℕ) : Calm b (readBlocks count) := by
  induction count with
  | zero => exact calm_pure _
  | succ count ih =>
    refine calm_bind calm_readBlock fun r => ?_
    cases r with
    | error e => exact calm_pure _
    | ok block =>
      refine calm_bind ih fun r => ?_
      cases r <;> exact calm_pure _

/-- Payload that is not wanted is taken and dropped. -/
theorem calm_discardOut (length : ℕ) : Calm b (discardOut length) := by
  induction length using discardOut.induct with
  | case1 =>
    rw [discardOut, dif_pos rfl]
    exact calm_pure _
  | case2 length h wanted ih =>
    rw [discardOut, dif_neg h]
    refine calm_bind (calm_readData _) fun r => ?_
    cases r with
    | error e => exact calm_pure _
    | ok packet => exact calm_ite (fun _ => calm_pure _) fun hlen => ih packet hlen

/-- Data goes out as far as the host asked for it. -/
theorem calm_sendData (cbw : Cbw) (data : List UInt8) : Calm b (sendData cbw data) := by
  refine calm_ite (fun _ => calm_pure _) fun _ => calm_bind (calm_writePackets _) fun r => ?_
  cases r with
  | error e => exact calm_pure _
  | ok _ =>
    refine calm_ite (fun _ => calm_bind (calm_endpointWrite _ _) fun r => ?_) fun _ => calm_pure _
    cases r <;> exact calm_pure _

/-! ## Commands -/

/-- A command without a transfer on the card, other than one that loads or ejects the medium. -/
theorem calm_executeOther (cbw : Cbw) (h : cbw.loads = none) : Calm b (executeOther cbw) := by
  unfold executeOther
  dsimp only
  refine calm_ite (fun _ => ?_) fun _ => calm_ite (fun _ => ?_) fun _ => calm_ite (fun _ => ?_) fun _ =>
    calm_ite (fun _ => calm_sendData _ _) fun _ => calm_ite (fun _ => calm_sendData _ _) fun _ =>
    calm_ite (fun hop => ?_) fun _ => ?_
  · refine calm_ite (fun _ => calm_pure _) fun _ => calm_bind calm_borrow fun s => ?_
    exact calm_ite (fun _ => calm_pure _) fun _ => calm_bind (calm_setSense _ _ _) fun _ => calm_pure _
  · refine calm_bind calm_borrow fun s => calm_bind (calm_sendData _ _) fun r => ?_
    refine calm_ite (fun _ => calm_bind (calm_modifyShared fun _ => ⟨rfl, rfl, rfl⟩) fun _ => calm_pure _) fun _ => calm_pure _
  · unfold inquiry
    split
    · exact calm_sendData _ _
    · exact calm_bind (calm_setSense _ _ _) fun _ => calm_pure _
  · unfold startStop
    refine calm_ite (fun _ => calm_pure _) fun hlen => ?_
    refine calm_ite (fun hload => ?_) fun _ => calm_pure _
    unfold Cbw.loads at h
    rw [if_pos ⟨hop, not_not.mp hlen, hload⟩] at h
    nomatch h
  · have hnoData : Calm b (noData cbw) :=
      calm_ite (fun _ => calm_pure _) fun _ => calm_bind (calm_setSense _ _ _) fun _ => calm_pure _
    refine calm_ite (fun _ => hnoData) fun _ => calm_ite (fun _ => ?_) fun _ => calm_ite (fun _ => ?_) fun _ =>
      calm_ite (fun _ => ?_) fun _ => calm_ite (fun _ => calm_sendData _ _) fun _ => calm_ite (fun _ => hnoData) fun _ =>
      calm_bind (calm_setSense _ _ _) fun _ => calm_pure _
    · exact calm_bind calm_borrow fun s => calm_sendData _ _
    · refine calm_bind calm_borrow fun s => calm_ite (fun _ => ?_) fun _ => calm_sendData _ _
      exact calm_bind (calm_setSense _ _ _) fun _ => calm_pure _
    · exact calm_bind calm_borrow fun s => calm_ite (fun _ => calm_pure _) fun _ => calm_sendData _ _

/-- A block is looked up in the cache, or read from the card, in a command that is not barred. -/
theorem calm_lookup (cache : BlockCache) (count current : ℕ) (streaming : Bool) :
    Calm false (lookup cache count current streaming) := by
  unfold lookup
  split
  · exact calm_pure _
  · refine calm_card_read fun r => ?_
    cases r with
    | none => exact calm_bind (calm_setSense _ _ _) fun _ => calm_pure _
    | some blocks => exact calm_pure _

/-- Blocks go out to the host. -/
theorem calm_sendBlocks (residue : ℕ) (blocks : List Block) : Calm b (sendBlocks residue blocks) := by
  induction blocks generalizing residue with
  | nil => exact calm_pure _
  | cons block blocks ih =>
    refine calm_bind (calm_writePackets _) fun r => ?_
    cases r with
    | error e => exact calm_pure _
    | ok _ => exact ih _

/-- READ(10) reads the card only in a command that is not barred. -/
theorem calm_read10Loop (count fin : ℕ) (streaming : Bool) (fuel : ℕ) (cache : BlockCache) (current residue : ℕ) :
    Calm false (read10Loop count fin streaming fuel cache current residue) := by
  induction fuel generalizing cache current residue with
  | zero => exact calm_pure _
  | succ fuel ih =>
    refine calm_ite (fun _ => ?_) fun _ => calm_pure _
    refine calm_bind (calm_lookup _ _ _ _) fun r => ?_
    obtain ⟨_ | ⟨index, hit⟩, cache⟩ := r
    · exact calm_pure _
    · refine calm_bind (calm_sendBlocks _ _) fun r => ?_
      cases r with
      | error residue => exact calm_pure _
      | ok residue => exact calm_bind (calm_modifyShared fun _ => ⟨rfl, rfl, rfl⟩) fun _ => ih _ _ _

/-- WRITE(10) writes the card only in a command that is not barred. -/
theorem calm_write10Loop (fin fuel : ℕ) (cache : BlockCache) (current residue : ℕ) :
    Calm false (write10Loop fin fuel cache current residue) := by
  induction fuel generalizing cache current residue with
  | zero => exact calm_pure _
  | succ fuel ih =>
    refine calm_ite (fun _ => ?_) fun _ => calm_pure _
    refine calm_bind (calm_readBlocks _) fun r => ?_
    cases r with
    | error e => exact calm_pure _
    | ok blocks =>
      refine calm_cardWrite fun written => calm_ite (fun _ => ?_) fun _ => ?_
      · refine calm_bind (calm_setSense _ _ _) fun _ => calm_bind (calm_discardOut _) fun r => ?_
        cases r <;> exact calm_pure _
      · exact calm_bind (calm_modifyShared fun _ => ⟨rfl, rfl, rfl⟩) fun _ => ih _ _ _

/-- A READ(10) or WRITE(10) that finds blocks on the card started on a loaded medium. -/
theorem not_barred {s : MediumView} (hs : Agrees s) (hbar : s.2.barred = true → s.2.ejected = true)
    (hn : s.1.blockCount ≠ 0) : s.2.barred = false := by
  refine Bool.eq_false_iff.mpr fun hb => hn ?_
  unfold SharedState.blockCount
  rcases ha : s.1.attached with _ | _
  · rfl
  · rw [hs.ejected (hbar hb) ha]
    rfl

/-- READ(10) on a medium that bars it has been ejected, and is refused before it touches the card. -/
theorem wp_read10 (cache : BlockCache) (cbw : Cbw) {s : MediumView} (hs : Agrees s)
    (hbar : s.2.barred = true → s.2.ejected = true) : wp mediumSpec (read10 cache cbw) s fun _ s' => Agrees s' := by
  unfold read10
  split_ifs
  · exact hs
  · exact hs
  · refine (wp_bind borrow _ s _).mpr ?_
    show wp mediumSpec (if _ then _ else _) s _
    split_ifs with hcount
    · exact wp_mono monotone_mediumSpec (fun _ _ h => h.1)
        (calm_bind (b := s.2.barred) (calm_setSense _ _ _) (fun _ => calm_pure _) s hs rfl)
    · have hb := not_barred hs hbar (by omega)
      exact wp_mono monotone_mediumSpec (fun _ _ h => h.1) (calm_read10Loop _ _ _ _ _ _ _ s hs hb)

/-- The same of WRITE(10). -/
theorem wp_write10 (cache : BlockCache) (cbw : Cbw) {s : MediumView} (hs : Agrees s)
    (hbar : s.2.barred = true → s.2.ejected = true) : wp mediumSpec (write10 cache cbw) s fun _ s' => Agrees s' := by
  unfold write10
  split_ifs
  · exact hs
  · exact hs
  · refine (wp_bind borrow _ s _).mpr ?_
    show wp mediumSpec (if _ then _ else _) s _
    split_ifs with hcount
    · refine wp_mono monotone_mediumSpec (fun _ _ h => h.1)
        (calm_bind (b := s.2.barred) (calm_setSense _ _ _) (fun _ => calm_bind (calm_discardOut _) fun r => ?_) s hs rfl)
      cases r <;> exact calm_pure _
    · have hb := not_barred hs hbar (by omega)
      exact wp_mono monotone_mediumSpec (fun _ _ h => h.1) (calm_write10Loop _ _ _ _ _ s hs hb)

/-- A command on the state in which it starts. -/
theorem wp_execute (self : MscClass) (cbw : Cbw) {s : MediumView} (hs : Agrees s) :
    wp mediumSpec (self.execute cbw) (s.1, s.2.see (.command cbw)) fun _ s' => Agrees s' := by
  unfold MscClass.execute
  refine (wp_bind borrow _ _ _).mpr ?_
  cases hl : cbw.loads with
  | none =>
    have hs' : Agrees (s.1, s.2.see (.command cbw)) := by
      refine ⟨hs.backend, hs.attached, fun he => hs.ejected ?_⟩
      dsimp only at he
      rw [Medium.ejected_see_command, hl] at he
      exact he
    have hbar : (s.2.see (.command cbw)).barred = true → (s.2.see (.command cbw)).ejected = true := by
      rw [Medium.ejected_see_command, hl]
      exact id
    show wp mediumSpec (if _ then _ else _) (s.1, s.2.see (.command cbw)) _
    split_ifs
    · rw [wp_bind]
      exact wp_mono monotone_mediumSpec (fun _ _ h => h) (wp_read10 _ cbw hs' hbar)
    · rw [wp_bind]
      exact wp_mono monotone_mediumSpec (fun _ _ h => h) (wp_write10 _ cbw hs' hbar)
    · rw [wp_bind]
      exact wp_mono monotone_mediumSpec (fun _ _ h => h.1) (calm_executeOther cbw hl _ hs' rfl)
  | some start =>
    -- the command changes the medium before it waits anywhere
    have hcbw := hl
    unfold Cbw.loads at hl
    split_ifs at hl with h
    obtain rfl := Option.some.inj hl
    obtain ⟨hop, hlen, hload⟩ := h
    show wp mediumSpec (if _ then _ else _) (s.1, s.2.see (.command cbw)) _
    rw [hop, if_neg (by decide), if_neg (by decide), wp_bind]
    unfold executeOther
    dsimp only
    rw [hop, if_neg (by decide), if_neg (by decide), if_neg (by decide), if_neg (by decide), if_neg (by decide), if_pos rfl]
    unfold startStop
    rw [if_neg (by rw [hlen]; decide)]
    dsimp only
    rw [if_pos hload]
    refine ⟨hs.backend, hs.attached, fun he _ => ?_⟩
    dsimp only at he ⊢
    rw [Medium.ejected_see_command, hcbw] at he
    exact he

/-- The status of a command leaves the card alone. -/
theorem wp_sendCsw (tag residue : ℕ) (status : CommandStatus) {s : MediumView} (hs : Agrees s) :
    wp mediumSpec (MscClass.sendCsw tag residue status) s fun _ s' => Agrees s' := by
  refine wp_mono monotone_mediumSpec (fun _ _ h => h.1)
    (calm_bind (b := s.2.barred) (calm_endpointWrite _ _) (fun r => ?_) s hs rfl)
  cases r with
  | error e => exact calm_waitEnabled
  | ok _ => exact calm_pure _

/-- A pass of the class keeps to the specification, from any state that agrees. -/
theorem wp_pass (self : MscClass) {s : MediumView} (hs : Agrees s) :
    wp mediumSpec self.pass s fun _ s' => Agrees s' := by
  unfold MscClass.pass
  refine (wp_bind (endpointRead .command BULK_PACKET_SIZE) _ s _).mpr ⟨hs, fun r s' hs' hb => ?_⟩
  refine (wp_pure _ _ _).mpr ?_
  cases r with
  | error e =>
    cases e with
    | disabled =>
      exact wp_mono monotone_mediumSpec (fun _ _ h => h.1)
        (calm_bind (b := s'.2.barred) calm_waitEnabled (fun _ => calm_pure _) s' hs' rfl)
    | bufferOverflow => exact hs'
  | ok received =>
    unfold started
    dsimp only
    cases hp : Cbw.parse received with
    | none => exact hs'
    | some cbw =>
      dsimp only
      by_cases hlun : cbw.lun = 0
      · rw [if_pos hlun, if_neg (not_not.mpr hlun), wp_bind]
        refine wp_mono monotone_mediumSpec (fun r s'' h => ?_) (wp_execute self cbw hs')
        obtain ⟨⟨residue, status⟩, self⟩ := r
        rw [wp_bind]
        exact wp_sendCsw _ _ _ h
      · rw [if_neg hlun, if_pos hlun, wp_bind]
        exact wp_sendCsw _ _ _ hs'

end UsbDiskAux

end Ratputer
