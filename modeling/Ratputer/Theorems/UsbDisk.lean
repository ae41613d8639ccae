import Ratputer.Lemmas.UsbDisk

/-!
# The attached card

The task keeps what it has read of the shared state while it waits, and the main loop may detach the card and attach another one
meanwhile. But it looks the backend up for every call on the card, and waits nowhere between the two; so every call goes to the
card that is attached then, and with none attached there is no call. A command that starts on an ejected medium finds no blocks,
and comes to no call at all.
-/

namespace Ratputer

open Coroutine

variable {D : Type} (dev : BlockDevice D)

namespace UsbDiskAux

variable {dev}

/-- The task waits: whatever state in agreement it is brought forward in, it keeps to the specification. -/
def Waits (task : MscM MscClass) (barred : Bool) : Prop :=
  ∃ o k, task = .ask o k ∧ ∀ r s', Agrees s' → s'.2.barred = barred →
    wp mediumSpec (k r) (s'.1, Mealy.final Medium.watch s'.2 (started o r)) fun _ s' => Agrees s'

/-- The state between two steps. -/
structure Attended (x : UsbDisk D × Medium) : Prop where
  agrees : Agrees (x.1.shared, x.2)
  active : x.1.active = x.1.shared.attached
  task : ∀ task ∈ x.1.task, Waits task x.2.barred

theorem waits_pass (self : MscClass) (barred : Bool) : Waits self.pass barred := by
  have hs : Agrees (SharedState.default, { barred : Medium }) := ⟨rfl, rfl, nofun⟩
  have h := wp_pass self hs
  unfold MscClass.pass at h ⊢
  exact ⟨_, _, rfl, h.2⟩

/-- An operation that the handler leaves to the outside gives way in agreement. -/
theorem waits_of_wp {o : MscOp} {k : o.Ret → MscM MscClass} {s : MediumView} {t : TaskState D}
    (hn : TaskState.handle dev o t = none) (h : wp mediumSpec (.ask o k) s fun _ s' => Agrees s') :
    Agrees s ∧ Waits (.ask o k) s.2.barred := by
  cases o with
  | shared f => nomatch hn
  | blockRead backend lba len => cases backend <;> nomatch hn
  | blockWrite backend lba blocks => cases backend <;> nomatch hn
  | endpointRead phase len => exact ⟨h.1, _, _, rfl, h.2⟩
  | endpointWrite phase data => exact ⟨h.1, _, _, rfl, h.2⟩
  | waitEnabled => exact ⟨h.1, _, _, rfl, h.2⟩

/-- The state of a running task as the specification sees it. -/
def view (m : Medium) (s : TaskState D) : MediumView := (s.shared, Mealy.final Medium.watch m s.log)

/-- What a running task has done is allowed, and leaves the card attached or not. -/
structure Keeps (m : Medium) (log : List Observed) : Prop where
  allowed : Mealy.Along Medium.watch Medium.Allowed m log
  installed : (Mealy.final Medium.watch m log).installed = m.installed

theorem Keeps.append {m : Medium} {log : List Observed} {o : Observed} (h : Keeps m log)
    (ho : (Mealy.final Medium.watch m log).Allowed o)
    (hi : ((Mealy.final Medium.watch m log).see o).installed = (Mealy.final Medium.watch m log).installed) :
    Keeps m (log ++ [o]) := by
  refine ⟨Mealy.along_append.mpr ⟨h.allowed, ho, trivial⟩, ?_⟩
  rw [Mealy.final_append]
  exact hi.trans h.installed

/-- What the handler answers keeps to the specification, and what it does is allowed. -/
theorem handle_sound (m : Medium) (o : MscOp) (s : TaskState D) (r : o.Ret) (s' : TaskState D)
    (Q : o.Ret → MediumView → Prop) (hi : Keeps m s.log) (h : mediumSpec o (view m s) Q)
    (hr : TaskState.handle dev o s = some (r, s')) : Q r (view m s') ∧ Keeps m s'.log := by
  cases o with
  | shared f =>
    obtain ⟨rfl, rfl⟩ := Prod.mk.inj (Option.some.inj hr)
    exact ⟨h, hi⟩
  | blockRead backend lba len =>
    cases backend with
    | none =>
      obtain ⟨rfl, rfl⟩ := Prod.mk.inj (Option.some.inj hr)
      exact ⟨h, hi⟩
    | device context =>
      obtain ⟨rfl, rfl⟩ := Prod.mk.inj (Option.some.inj hr)
      refine ⟨?_, hi.append h.1 rfl⟩
      unfold view
      dsimp only
      rw [Mealy.final_append]
      exact h.2 _
  | blockWrite backend lba blocks =>
    cases backend with
    | none =>
      obtain ⟨rfl, rfl⟩ := Prod.mk.inj (Option.some.inj hr)
      exact ⟨h, hi⟩
    | device context =>
      obtain ⟨rfl, rfl⟩ := Prod.mk.inj (Option.some.inj hr)
      refine ⟨?_, hi.append h.1 rfl⟩
      unfold view
      dsimp only
      rw [Mealy.final_append]
      exact h.2 _
  | endpointRead phase len => nomatch hr
  | endpointWrite phase data => nomatch hr
  | waitEnabled => nomatch hr

/-- The start of a command is always allowed. -/
theorem keeps_started (m : Medium) (o : MscOp) (r : o.Ret) : Keeps m (started o r) := by
  unfold started
  split
  · split
    · split_ifs
      · exact ⟨⟨trivial, trivial⟩, rfl⟩
      · exact ⟨trivial, rfl⟩
    · exact ⟨trivial, rfl⟩
  · exact ⟨trivial, rfl⟩

/-- A waiting task, brought forward, does what is allowed until it waits again. -/
theorem resume_spec (dev : BlockDevice D) (answer : (o : MscOp) → o.Ret) {task : MscM MscClass} {m : Medium}
    {shared : SharedState} (cards : ℕ → D) (hs : Agrees (shared, m)) (ht : Waits task m.barred) :
    let r := resume dev answer task { shared, cards, log := [] }
    Keeps m r.2.log ∧ Agrees (view m r.2) ∧ Waits r.1 (view m r.2).2.barred := by
  obtain ⟨o, k, rfl, hk⟩ := ht
  have hstart := hk (answer o) (shared, m) hs rfl
  obtain ⟨hw, hlog⟩ := wp_advance (view m) (fun s => Keeps m s.log)
    (fun o s r s' Q => handle_sound m o s r s' Q) (s := { shared, cards, log := [] ++ started o (answer o) })
    (keeps_started m o (answer o)) hstart
  have hrest := advance_waits (TaskState.handle dev) (k (answer o)) { shared, cards, log := [] ++ started o (answer o) }
  unfold resume
  dsimp only
  generalize advance (TaskState.handle dev) (k (answer o)) { shared, cards, log := [] ++ started o (answer o) } = r
    at hw hlog hrest ⊢
  obtain ⟨task, s⟩ := r
  rcases hrest with ⟨self, rfl⟩ | ⟨o', k', rfl, hn⟩
  · exact ⟨hlog, hw, waits_pass self _⟩
  · exact ⟨hlog, waits_of_wp hn hw⟩

/-- A call of the main loop, or a wake-up of the task, does what is allowed. -/
theorem step_spec {x : UsbDisk D × Medium} (e : UsbDiskEvent D) (hx : Attended x) :
    Attended (Mealy.beside (UsbDisk.step dev) Medium.watch x e).1 ∧
      Mealy.Along Medium.watch Medium.Allowed x.2 (x.1.step dev e).2 := by
  obtain ⟨d, m⟩ := x
  obtain ⟨hagrees, hactive, htask⟩ := hx
  dsimp only at hagrees hactive htask
  unfold Mealy.beside
  cases e with
  | attach context card =>
    have hinit : ∀ task ∈ d.initializeTask.1.task, Waits task m.barred := by
      unfold UsbDisk.initializeTask
      split_ifs
      · exact htask
      · intro task ht
        obtain rfl := Option.some.inj ht
        exact waits_pass _ _
      · exact htask
    have hsame : d.initializeTask.1.shared = d.shared ∧ d.initializeTask.1.active = d.active := by
      unfold UsbDisk.initializeTask
      split_ifs <;> exact ⟨rfl, rfl⟩
    unfold UsbDisk.step UsbDisk.attach
    dsimp only
    split_ifs
    · exact ⟨⟨⟨rfl, rfl, nofun⟩, rfl, hinit⟩, trivial, rfl, trivial⟩
    · refine ⟨⟨?_, hsame.2.trans (hactive.trans (congrArg _ hsame.1.symm)), hinit⟩, trivial⟩
      dsimp only
      rw [hsame.1]
      exact hagrees
  | detach =>
    unfold UsbDisk.step UsbDisk.detach
    dsimp only
    refine ⟨?_, trivial, trivial⟩
    split_ifs with ha
    · exact ⟨⟨rfl, rfl, fun _ => nofun⟩, rfl, htask⟩
    · -- nothing is attached, so nothing is installed either
      have hoff : d.shared.attached = false := hactive.symm.trans (Bool.eq_false_iff.mpr ha)
      have hnone : m.installed = none := by
        rw [← Option.not_isSome_iff_eq_none, ← hagrees.attached]
        exact Bool.eq_false_iff.mp hoff
      refine ⟨⟨?_, hoff, fun _ hon => absurd (hoff.symm.trans hon) Bool.false_ne_true⟩, hactive, htask⟩
      rw [hagrees.backend]
      dsimp only
      rw [hnone]
      rfl
  | control request =>
    unfold UsbDisk.step
    dsimp only
    refine ⟨?_, trivial⟩
    split_ifs
    · have hcontrol : (d.shared.control request).backend = d.shared.backend ∧
          (d.shared.control request).attached = d.shared.attached ∧
          (d.shared.control request).ejected = d.shared.ejected := by
        unfold SharedState.control
        cases request with
        | enabled enabled =>
          dsimp only
          split_ifs <;> exact ⟨rfl, rfl, rfl⟩
        | reset | configured | bulkOnlyReset => exact ⟨rfl, rfl, rfl⟩
      obtain ⟨h1, h2, h3⟩ := hcontrol
      exact ⟨⟨h1.trans hagrees.backend, h2.trans hagrees.attached,
        fun he ha => h3.trans (hagrees.ejected he (h2.symm.trans ha))⟩, hactive.trans h2.symm, htask⟩
    · exact ⟨hagrees, hactive, htask⟩
  | poll answer =>
    unfold UsbDisk.step UsbDisk.poll
    dsimp only
    split
    · rename_i task ha ht
      obtain ⟨hlog, hview, hwaits⟩ := resume_spec dev answer d.cards hagrees (htask task ht)
      have hattached : (resume dev answer task { shared := d.shared, cards := d.cards, log := [] }).2.shared.attached =
          d.shared.attached := by
        rw [hagrees.attached]
        exact hview.attached.trans (congrArg Option.isSome hlog.installed)
      refine ⟨⟨hview, hactive.trans hattached.symm, fun task' ht' => ?_⟩, hlog.allowed⟩
      obtain rfl := Option.some.inj ht'
      exact hwaits
    · exact ⟨⟨hagrees, hactive, htask⟩, trivial⟩

end UsbDiskAux

open UsbDiskAux

/-- For every device, and every order of the main loop's calls and of wake-ups of the task, wherever it waits and whatever it is
answered: each call on the card goes to the context pointer of the latest attach with no detach after it, there is none between a
detach and the next attach, and no command that starts after an eject, before a load or an attach, reads or writes. -/
theorem calls_attached_card (usb : Bool) (cards : ℕ → D) (events : List (UsbDiskEvent D)) :
    Mealy.Along Medium.watch Medium.Allowed {}
      (Mealy.outputs (UsbDisk.step dev) { usb, cards } events).flatten := by
  rw [Mealy.along_flatten]
  refine Mealy.along_of_invariant Attended (fun x e hx => step_spec e hx) ?_ events
  exact ⟨⟨rfl, rfl, nofun⟩, rfl, nofun⟩

end Ratputer
