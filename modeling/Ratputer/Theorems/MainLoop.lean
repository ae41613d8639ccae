import Ratputer.Lemmas.MainLoop

/-!
# One user of the card

In every run of the main loop from boot, the browser, the SSH server and the USB disk never hold the card together when one of
them may use it. The SSH server is polled as active on its own screen, except in one kind of pass: a batch of keys that chooses
a protected scan result and then opens the SSH screen, so that the radio's stage opens the password editor before the SSH
command of the same pass starts the server.
-/

namespace Ratputer

variable {V C : Type}

namespace Firmware

/-- The batch of keys leaves both a choice of a protected scan result, which the radio is free to take up, and the start of an
SSH server that can start. -/
def AsksPassword (s : Firmware V C) (p : Pass V C) : Prop :=
  let k := (s.handleInput p).1
  k.ui.sshAction = 1 ∧ k.ui.wifiAction = 3 ∧ (k.autoJob = none ∨ p.autoFinished ≠ none) ∧ k.SelectsProtected ∧
    k.storage.isSome = true ∧ k.network = true

/-- The state between two passes: no two owners, no USB or SSH command waiting, and no Wi-Fi command on the SSH screen. -/
structure Settled (s : Firmware V C) : Prop where
  owners : s.owners.Single
  usb : s.ui.usbDiskAction = 0
  ssh : s.ui.sshAction = 0
  wifi : s.viewState = 8 → s.ui.wifiAction = 0

namespace SingleUserAux

/-- The USB stage with no command only polls. -/
theorem usb_of_no_action {s : Firmware V C} (p : Pass V C) (ha : s.ui.usbDiskAction = 0) :
    (s.usb p).1 = s := by
  unfold usb
  rw [ha]
  dsimp only
  rw [if_neg (by decide), if_neg (by decide), ← ha]

/-- Attaching does nothing, moves the card to USB, or mounts it again when the USB stack fails. -/
theorem usbAttach_cases (s : Firmware V C) (p : Pass V C) :
    s.usbAttach p = s ∨
      (∃ volume, s.storage = some volume ∧ s.usbAttach p =
        { s with storage := none, usbSd := some (p.free volume), usbForceExitArmed := false }) ∨
      ∃ card, s.usbSd = none ∧ s.usbAttach p = { s with storage := p.mount card } := by
  unfold usbAttach
  split
  · rename_i hc
    rw [Bool.and_eq_true, Option.isNone_iff_eq_none] at hc
    rcases hst : s.storage with _ | volume
    · exact Or.inl rfl
    · rcases ha : p.attach with _ | _
      · exact Or.inr (Or.inr ⟨p.free volume, hc.1, rfl⟩)
      · exact Or.inr (Or.inl ⟨volume, rfl, rfl⟩)
  · exact Or.inl rfl

/-- Detaching does nothing, arms the second press, or mounts the card and goes back to the menu. -/
theorem usbDetach_cases (s : Firmware V C) (p : Pass V C) :
    s.usbDetach p = s ∨ s.usbDetach p = { s with usbForceExitArmed := true } ∨
      ∃ card, s.usbDetach p = (reloadConfig
        { s with usbSd := none, storage := p.mount card, usbForceExitArmed := false } p).setViewState 0 := by
  unfold usbDetach
  rcases s.usbSd with _ | card
  · exact Or.inl rfl
  · dsimp only
    split
    · exact Or.inr (Or.inr ⟨card, rfl⟩)
    · exact Or.inr (Or.inl rfl)

/-- What every USB stage keeps; it can close the view to the menu. Whoever holds the card after it, it is not both the volume
and the USB disk. -/
theorem usb_frame (s : Firmware V C) (p : Pass V C) :
    (s.usb p).1.ui.usbDiskAction = 0 ∧ (s.usb p).1.ui.sshAction = s.ui.sshAction ∧
      (s.usb p).1.ui.wifiAction = s.ui.wifiAction ∧ (s.usb p).1.sshServer = s.sshServer ∧
      (s.usb p).1.fileManager = s.fileManager ∧ (s.usb p).1.network = s.network ∧
      ((s.usb p).1.viewState = s.viewState ∨ (s.usb p).1.viewState = 0) ∧
      ((s.usbSd.isSome = true → s.storage.isSome = false) →
        (s.usb p).1.usbSd.isSome = true → (s.usb p).1.storage.isSome = false) := by
  unfold usb
  dsimp only
  split
  · rcases usbAttach_cases { s with ui := { s.ui with usbDiskAction := 0 } } p with h | ⟨v, -, h⟩ | ⟨c, hn, h⟩
    · rw [h]
      exact ⟨rfl, rfl, rfl, rfl, rfl, rfl, Or.inl rfl, id⟩
    · rw [h]
      exact ⟨rfl, rfl, rfl, rfl, rfl, rfl, Or.inl rfl, fun _ _ => rfl⟩
    · rw [h]
      refine ⟨rfl, rfl, rfl, rfl, rfl, rfl, Or.inl rfl, fun _ hsd => ?_⟩
      exact absurd hsd (by simp [show s.usbSd = none from hn])
  · split
    · rcases usbDetach_cases { s with ui := { s.ui with usbDiskAction := 0 } } p with h | h | ⟨c, h⟩
      · rw [h]
        exact ⟨rfl, rfl, rfl, rfl, rfl, rfl, Or.inl rfl, id⟩
      · rw [h]
        exact ⟨rfl, rfl, rfl, rfl, rfl, rfl, Or.inl rfl, id⟩
      · rw [h]
        exact ⟨rfl, rfl, rfl, rfl, rfl, rfl, Or.inr rfl, fun _ => nofun⟩
    · exact ⟨rfl, rfl, rfl, rfl, rfl, rfl, Or.inl rfl, id⟩

/-- With the browser closed and SSH stopped, the USB stage leaves at most one owner. -/
theorem single_usb {s : Firmware V C} (p : Pass V C) (ho : s.owners.Single) (hfm : s.fileManager = none)
    (hs : s.sshActive = false) : (s.usb p).1.owners.Single := by
  obtain ⟨-, -, -, hserver, hfm', hn, -, hst⟩ := usb_frame s p
  have hoff : (s.usb p).1.sshActive = false := by
    unfold sshActive at hs ⊢
    rw [hserver, hs]
  have hclosed : (s.usb p).1.fileManager.isSome = false := by rw [hfm', hfm]; rfl
  refine ⟨fun _ => hoff, fun h => ?_, fun _ => hoff, hst ho.usb_storage, fun h => ?_, fun h => ?_, ?_⟩
  · exact absurd (hclosed.symm.trans h) Bool.false_ne_true
  · exact absurd (hoff.symm.trans h) Bool.false_ne_true
  · exact absurd (hoff.symm.trans h) Bool.false_ne_true
  · show (s.usb p).1.network = (s.usb p).1.sshServer.isSome
    rw [hn, hserver]
    exact ho.network_server

/-- The USB stage's touch shares the card with nobody. -/
theorem usb_touches {s : Firmware V C} (p : Pass V C) (ho : s.owners.Single) :
    ∀ t ∈ (s.usb p).2, t.Exclusive ∧ t.OnScreen := by
  intro t ht
  have ht : t ∈ (if s.usbSd.isSome then [s.touch .usbDisk] else []) := ht
  split_ifs at ht
  · obtain rfl := List.mem_singleton.mp ht
    exact ⟨(s.touch_byOwners _).exclusive ho, nofun⟩
  · exact absurd ht List.not_mem_nil

theorem networkPoll_frame (s : Firmware V C) (p : Pass V C) :
    (s.networkPoll p).owners = s.owners ∧ (s.networkPoll p).ui = s.ui := by
  unfold networkPoll
  dsimp only
  split_ifs <;> exact ⟨rfl, rfl⟩

/-- The SSH poll keeps the owners; its touch is on screen exactly when a running server is. -/
theorem sshPoll_spec {s : Firmware V C} (p : Pass V C) (ho : s.owners.Single) :
    (s.sshPoll p).1.owners = s.owners ∧ (s.sshPoll p).1.ui = s.ui ∧ (∀ t ∈ (s.sshPoll p).2, t.Exclusive) ∧
      ((∀ t ∈ (s.sshPoll p).2, t.OnScreen) ↔ (s.sshActive = true → s.viewState = 8)) := by
  unfold sshPoll
  rcases hserver : s.sshServer with _ | server
  · have hoff : s.sshActive = false := by simp [sshActive, hserver]
    exact ⟨rfl, rfl, fun _ ht => absurd ht List.not_mem_nil, fun _ h => absurd (hoff.symm.trans h) Bool.false_ne_true,
      fun _ _ ht => absurd ht List.not_mem_nil⟩
  · dsimp only
    split
    · refine ⟨?_, rfl, fun t ht => ?_, fun h => ?_, fun h t ht => ?_⟩
      · rcases ha : server.active with _ | _ <;> simp [Firmware.owners, sshActive, hserver, ha]
      · obtain rfl := List.mem_singleton.mp ht
        exact (s.touch_byOwners _).exclusive ho
      · exact h _ (List.mem_singleton.mpr rfl) rfl
      · obtain rfl := List.mem_singleton.mp ht
        exact fun _ ha => h ha
    · rename_i hn
      exact ⟨rfl, rfl, fun _ ht => absurd ht List.not_mem_nil, fun _ h => absurd (ho.ssh_network h) hn,
        fun _ _ ht => absurd ht List.not_mem_nil⟩

/-- The SSH command's stage keeps the USB and Wi-Fi commands, and only the editor's commands open a view. -/
theorem sshAction_frame (s : Firmware V C) (p : Pass V C) :
    (s.sshAction p).ui.usbDiskAction = s.ui.usbDiskAction ∧ (s.sshAction p).ui.sshAction = 0 ∧
      (s.sshAction p).ui.wifiAction = s.ui.wifiAction ∧
      (s.ui.sshAction < 4 → (s.sshAction p).viewState = s.viewState) := by
  have hstart : ∀ s : Firmware V C, s.startSsh.ui = s.ui := by
    intro s
    unfold startSsh
    split_ifs <;> rfl
  unfold sshAction
  dsimp only
  split_ifs with h1 h2 h3 h4 h5
  · unfold viewState
    rw [hstart]
    exact ⟨rfl, rfl, rfl, fun _ => rfl⟩
  · exact ⟨rfl, rfl, rfl, fun _ => rfl⟩
  · exact ⟨rfl, rfl, rfl, fun _ => rfl⟩
  · unfold saveSshPassword
    dsimp only
    split_ifs
    · exact ⟨rfl, rfl, rfl, fun _ => rfl⟩
    · exact ⟨rfl, rfl, rfl, fun _ => rfl⟩
    · exact ⟨rfl, rfl, rfl, fun _ => rfl⟩
    · rw [hstart]
      exact ⟨rfl, rfl, rfl, fun h => by omega⟩
  · rw [hstart]
    exact ⟨rfl, rfl, rfl, fun h => by omega⟩
  · exact ⟨rfl, rfl, rfl, fun _ => rfl⟩

/-- The SSH command's stage, with no browser open when the command may start the server: at most one owner, and a running
server on another view than its own comes from a start, or was running there before with no command. -/
theorem sshAction_owners {s : Firmware V C} (p : Pass V C) (ho : s.owners.Single)
    (hfm : s.ui.sshAction = 1 ∨ 3 ≤ s.ui.sshAction → s.fileManager = none)
    (heditor : 3 ≤ s.ui.sshAction → s.sshActive = false) :
    (s.sshAction p).owners.Single ∧
      ((s.sshAction p).sshActive = true → (s.sshAction p).viewState = 8 ∨ s.ui.sshAction = 0 ∧ s.sshActive = true ∨
        s.ui.sshAction = 1 ∧ s.storage.isSome = true ∧ s.network = true) ∧
      (s.ui.sshAction = 1 → s.storage.isSome = true → s.network = true → (s.sshAction p).sshActive = true) := by
  unfold sshAction
  dsimp only
  split_ifs with h1 h2 h3 h4 h5
  · refine ⟨single_startSsh (by exact ho) (hfm (Or.inl h1)), fun ha => Or.inr (Or.inr ⟨h1, ?_⟩), fun _ hst hn => ?_⟩
    · have hs := single_startSsh (s := { s with ui := { s.ui with sshAction := 0 } }) ho (hfm (Or.inl h1))
      have hkeep : ∀ s : Firmware V C, s.startSsh.storage = s.storage ∧ s.startSsh.network = s.network := by
        intro s
        unfold startSsh
        split_ifs <;> exact ⟨rfl, rfl⟩
      obtain ⟨hk1, hk2⟩ := hkeep { s with ui := { s.ui with sshAction := 0 } }
      refine ⟨?_, ?_⟩
      · have := hs.ssh_storage ha
        simpa only [Firmware.owners, hk1] using this
      · have := hs.ssh_network ha
        simpa only [Firmware.owners, hk2] using this
    · exact startSsh_active hst hn (by exact ho)
  · exact ⟨single_stopSsh (by exact ho), fun ha => absurd ((stopSsh_inactive _).symm.trans ha) Bool.false_ne_true,
      fun h => absurd h h1⟩
  · exact ⟨single_stopSsh (s := { s with ui := { s.ui with sshAction := 0 } }) ho,
      fun ha => absurd ((stopSsh_inactive _).symm.trans ha) Bool.false_ne_true, fun h => absurd h h1⟩
  · have hoff := heditor (by omega)
    unfold saveSshPassword
    dsimp only
    have hview : ∀ s' : Firmware V C, s'.startSsh.viewState = s'.viewState := by
      intro s'
      unfold startSsh
      split_ifs <;> rfl
    split_ifs
    · exact ⟨by exact ho, fun ha => absurd (hoff.symm.trans ha) Bool.false_ne_true, fun h => absurd h h1⟩
    · exact ⟨by exact ho, fun ha => absurd (hoff.symm.trans ha) Bool.false_ne_true, fun h => absurd h h1⟩
    · exact ⟨by exact ho, fun ha => absurd (hoff.symm.trans ha) Bool.false_ne_true, fun h => absurd h h1⟩
    · exact ⟨single_startSsh (by exact ho) (hfm (by omega)), fun _ => Or.inl (hview _), fun h => absurd h h1⟩
  · have hview : ∀ s' : Firmware V C, s'.startSsh.viewState = s'.viewState := by
      intro s'
      unfold startSsh
      split_ifs <;> rfl
    exact ⟨single_startSsh (by exact ho) (hfm (by omega)), fun _ => Or.inl (hview _), fun h => absurd h h1⟩
  · refine ⟨by exact ho, fun ha => ?_, fun h => absurd h h1⟩
    by_cases h0 : s.ui.sshAction = 0
    · exact Or.inr (Or.inl ⟨h0, ha⟩)
    · exact absurd (Eq.trans (heditor (by omega)).symm ha) Bool.false_ne_true

section serve

variable {b : Firmware V C} (p : Pass V C)

/-- The firmware when the commands of a pass have been carried out, before the network and the server are polled. -/
def commanded (b : Firmware V C) (p : Pass V C) : Firmware V C := ((b.radio p).usb p).1.sshAction p

/-- A command on one of its views finds the browser closed. -/
theorem radio_browser_closed (hb : b.Ready) (hv : b.viewState = 7 ∨ b.viewState = 8 ∨ b.viewState = 9) :
    (b.radio p).fileManager = none := by
  obtain ⟨hk, -⟩ := b.keeps_radio p
  have hr : (b.radio p).fileManager.isSome = b.fileManager.isSome := congrArg Owners.fileManager hk.owners
  by_contra hne
  have := hb.browser (fun h => hne (by simpa [h] using hr))
  unfold FileManager.IsView at this
  omega

/-- Off its screen the server is stopped. -/
theorem radio_server_stopped (hb : b.Ready) (hv : b.viewState ≠ 8) : (b.radio p).sshActive = false := by
  obtain ⟨hk, -⟩ := b.keeps_radio p
  have hroff : (b.radio p).sshActive = b.sshActive := congrArg Owners.sshActive hk.owners
  rw [hroff]
  exact Bool.eq_false_iff.mpr fun h => hv (hb.ssh h)

/-- The USB stage leaves at most one owner. -/
theorem single_radio_usb (hb : b.Ready) : ((b.radio p).usb p).1.owners.Single := by
  obtain ⟨hk, -⟩ := b.keeps_radio p
  have hro : (b.radio p).owners.Single := hk.owners ▸ hb.owners
  by_cases ha : (b.radio p).ui.usbDiskAction = 0
  · rw [usb_of_no_action p ha]
    exact hro
  · have hv : b.viewState = 7 := hb.pending.1 (hk.usb ▸ ha)
    exact single_usb p hro (radio_browser_closed p hb (Or.inl hv)) (radio_server_stopped p hb (by omega))

/-- On the SSH screen no USB command waits, so the USB stage only polls. -/
theorem radio_usb_of_screen (hb : b.Ready) (hv : b.viewState = 8) : ((b.radio p).usb p).1 = b.radio p := by
  obtain ⟨hk, -⟩ := b.keeps_radio p
  refine usb_of_no_action p (by_contra fun h => ?_)
  have := hb.pending.1 (hk.usb ▸ h)
  unfold viewState at hv
  omega

/-- The radio's and the USB stage leave the server and its command to the SSH stage. -/
theorem radio_usb_ssh (b : Firmware V C) (p : Pass V C) :
    ((b.radio p).usb p).1.ui.sshAction = b.ui.sshAction ∧ ((b.radio p).usb p).1.sshActive = b.sshActive ∧
      ((b.radio p).usb p).1.fileManager = (b.radio p).fileManager := by
  obtain ⟨hk, -⟩ := b.keeps_radio p
  obtain ⟨-, hssh, -, hserver, hfm, -⟩ := usb_frame (b.radio p) p
  have hroff : (b.radio p).sshActive = b.sshActive := congrArg Owners.sshActive hk.owners
  refine ⟨hssh.trans hk.ssh, ?_, hfm⟩
  rw [← hroff]
  unfold sshActive
  rw [hserver]

/-- The commands leave at most one owner, and a server that runs after them is on its screen, ran before or has been started
on a card with the network up. -/
theorem commanded_spec (hb : b.Ready) :
    (commanded b p).owners.Single ∧
      ((commanded b p).sshActive = true → (commanded b p).viewState = 8 ∨ b.ui.sshAction = 0 ∧ b.sshActive = true ∨
        b.ui.sshAction = 1 ∧ b.storage.isSome = true ∧ b.network = true) ∧
      (b.ui.sshAction = 1 → b.storage.isSome = true → b.network = true → (commanded b p).sshActive = true) := by
  obtain ⟨hk, -⟩ := b.keeps_radio p
  obtain ⟨-, hbstart, hbeditor, -⟩ := hb.pending
  obtain ⟨hssh, hactive, hfm⟩ := radio_usb_ssh b p
  -- a start is given on view 8, where the USB stage has left the card and the network alone
  have hcard (h1 : b.ui.sshAction = 1) : ((b.radio p).usb p).1.storage.isSome = b.storage.isSome ∧
      ((b.radio p).usb p).1.network = b.network := by
    rw [radio_usb_of_screen p hb (hbstart h1)]
    exact ⟨congrArg Owners.storage hk.owners, congrArg Owners.network hk.owners⟩
  obtain ⟨hsingle, hview, hstarts⟩ := sshAction_owners p (single_radio_usb p hb)
    (fun h => hfm.trans (radio_browser_closed p hb (Or.inr (h.imp (fun h => hbstart (hssh ▸ h)) fun h => hbeditor (hssh ▸ h)))))
    (fun h => hactive.trans (Bool.eq_false_iff.mpr fun hon =>
      absurd ((hb.ssh hon).symm.trans (hbeditor (hssh ▸ h))) (by decide)))
  refine ⟨hsingle, fun h => ?_, fun h1 hst hn => hstarts (hssh.trans h1) ((hcard h1).1.trans hst) ((hcard h1).2.trans hn)⟩
  rcases hview h with hv | ⟨h0, hon⟩ | ⟨h1, hst, hn⟩
  · exact Or.inl hv
  · exact Or.inr (Or.inl ⟨hssh.symm.trans h0, hactive.symm.trans hon⟩)
  · have h1 := hssh.symm.trans h1
    exact Or.inr (Or.inr ⟨h1, (hcard h1).1.symm.trans hst, (hcard h1).2.symm.trans hn⟩)

/-- On the SSH screen a command outside its editor leaves the view that the radio's stage left. -/
theorem commanded_view (hb : b.Ready) (hv : b.viewState = 8) (h4 : b.ui.sshAction < 4) :
    (commanded b p).viewState = (b.radio p).viewState := by
  obtain ⟨-, -, -, hstays⟩ := sshAction_frame ((b.radio p).usb p).1 p
  have hview := hstays (by rw [(radio_usb_ssh b p).1]; exact h4)
  exact hview.trans (congrArg viewState (radio_usb_of_screen p hb hv))

/-- On the SSH screen no radio command is left. -/
theorem commanded_wifi (hb : b.Ready) (hv : (commanded b p).viewState = 8) : (commanded b p).ui.wifiAction = 0 := by
  obtain ⟨hk, hwifi⟩ := b.keeps_radio p
  obtain ⟨-, -, hbeditor, -⟩ := hb.pending
  obtain ⟨-, -, husb, -, -, -, huview, -⟩ := usb_frame (b.radio p) p
  obtain ⟨-, -, hssh, hstays⟩ := sshAction_frame ((b.radio p).usb p).1 p
  refine (hssh.trans husb).trans (hwifi ?_)
  have hb89 : b.viewState = 8 ∨ b.viewState = 9 := by
    by_cases h4 : b.ui.sshAction < 4
    · have hstay := (hstays (by rw [(radio_usb_ssh b p).1]; exact h4)).symm.trans hv
      have := hk.view
      omega
    · exact Or.inr (hbeditor (by omega))
  rcases hb89 with h | h <;> rw [h] <;> decide

/-- After the commands a running server is off its screen only where a start finds that the radio's stage has closed it. -/
theorem commanded_on_screen (hb : b.Ready) :
    ((commanded b p).sshActive = true → (commanded b p).viewState = 8) ↔
      (b.ui.sshAction = 1 → b.storage.isSome = true → b.network = true → (b.radio p).viewState = 8) := by
  obtain ⟨-, hbstart, -, hbwifi⟩ := hb.pending
  obtain ⟨-, hview, hstarts⟩ := commanded_spec p hb
  constructor
  · intro h h1 hst hn
    rw [← commanded_view p hb (hbstart h1) (by omega)]
    exact h (hstarts h1 hst hn)
  · intro h hact
    rcases hview hact with hv | ⟨h0, hon⟩ | ⟨h1, hst, hn⟩
    · exact hv
    · -- a server that was running with no command: nothing has closed its screen
      have hv : b.viewState = 8 := hb.ssh hon
      have hw : b.ui.wifiAction = 0 := (hbwifi hv).resolve_left (by omega)
      rw [commanded_view p hb hv (by omega)]
      exact (b.radio_view_of_screen p hv (by decide)).2 (Or.inl (by omega))
    · rw [commanded_view p hb (hbstart h1) (by omega)]
      exact h h1 hst hn

/-- The polls after the commands keep the owners and the screen. They touch the card as the owners say, off the screen exactly
when the server runs off it. -/
theorem serve_polls (hb : b.Ready) :
    (b.serve p).1.owners = (commanded b p).owners ∧ (b.serve p).1.ui = (commanded b p).ui ∧ (∀ t ∈ (b.serve p).2, t.Exclusive) ∧
      ((∀ t ∈ (b.serve p).2, t.OnScreen) ↔ ((commanded b p).sshActive = true → (commanded b p).viewState = 8)) := by
  obtain ⟨hk, -⟩ := b.keeps_radio p
  have hro : (b.radio p).owners.Single := hk.owners ▸ hb.owners
  obtain ⟨hno, hnui⟩ := networkPoll_frame (commanded b p) p
  obtain ⟨hpo, hpui, hptouch, hpscreen⟩ := sshPoll_spec (s := (commanded b p).networkPoll p) p (hno ▸ (commanded_spec p hb).1)
  have hactive : ((commanded b p).networkPoll p).sshActive = (commanded b p).sshActive := congrArg Owners.sshActive hno
  have hview : ((commanded b p).networkPoll p).viewState = (commanded b p).viewState := by
    unfold viewState
    rw [hnui]
  refine ⟨hpo.trans hno, hpui.trans hnui, fun t ht => ?_, ?_⟩
  · rcases List.mem_append.mp ht with ht | ht
    · exact (usb_touches p hro t ht).1
    · exact hptouch t ht
  · rw [← hactive, ← hview, ← hpscreen]
    refine ⟨fun h t ht => h t (List.mem_append_right _ ht), fun h t ht => ?_⟩
    rcases List.mem_append.mp ht with ht | ht
    · exact (usb_touches p hro t ht).2
    · exact h t ht

/-- From a ready state the commands are carried out with at most one owner throughout. The SSH server is polled as active off
its screen exactly when a start finds its screen closed by the radio's stage. -/
theorem serve_spec (hb : b.Ready) :
    Settled (b.serve p).1 ∧ (∀ t ∈ (b.serve p).2, t.Exclusive) ∧
      ((∀ t ∈ (b.serve p).2, t.OnScreen) ↔
        (b.ui.sshAction = 1 → b.storage.isSome = true → b.network = true → (b.radio p).viewState = 8)) := by
  obtain ⟨howners, hui, hexclusive, hscreen⟩ := serve_polls p hb
  obtain ⟨husb, -⟩ := usb_frame (b.radio p) p
  obtain ⟨hssh, hnone, -⟩ := sshAction_frame ((b.radio p).usb p).1 p
  refine ⟨⟨?_, ?_, ?_, fun hv => ?_⟩, hexclusive, hscreen.trans (commanded_on_screen p hb)⟩
  · exact howners ▸ (commanded_spec p hb).1
  · exact (congrArg MainWindow.usbDiskAction hui).trans (hssh.trans husb)
  · exact (congrArg MainWindow.sshAction hui).trans hnone
  · refine (congrArg MainWindow.wifiAction hui).trans (commanded_wifi p hb ?_)
    unfold viewState at hv ⊢
    rw [← hui]
    exact hv

end serve

/-- One pass from a settled state. -/
theorem pass_spec {s : Firmware V C} (p : Pass V C) (h : s.Settled) :
    Settled (s.pass p).1 ∧ (∀ t ∈ (s.pass p).2, t.Exclusive) ∧
      ((∀ t ∈ (s.pass p).2, t.OnScreen) ↔ ¬ s.AsksPassword p) := by
  have hk := s.keeps_handleInput p
  have hpend : (s.handleInput p).1.ui.Pending := by
    refine hk.pending ⟨fun hu => absurd h.usb hu, fun hs => ?_, fun hs => ?_, fun hv => Or.inr (h.wifi hv)⟩
    · exact absurd (h.ssh.symm.trans hs) (by decide)
    · have := h.ssh
      exact absurd (this ▸ hs : 3 ≤ 0) (by decide)
  have ho : (s.handleInput p).1.owners.Single := hk.owners ▸ h.owners
  obtain ⟨hlo, hlui, hlact, hlsame⟩ := leaveSsh_spec ho
  have hlview : (s.handleInput p).1.leaveSsh.viewState = (s.handleInput p).1.viewState :=
    congrArg MainWindow.viewState hlui
  obtain ⟨hready, hbt⟩ := browser_ready p hlo (hlui ▸ hpend) (fun ha => hlview.trans (hlact ha))
  obtain ⟨hsettled, hst, hscreen⟩ := serve_spec p hready
  refine ⟨hsettled, fun t ht => ?_, ?_⟩
  · rcases List.mem_append.mp ht with ht | ht
    · rcases List.mem_append.mp ht with ht | ht
      · exact (hk.touches t ht).2.exclusive h.owners
      · exact (hbt t ht).2
    · exact hst t ht
  · have hiff : (∀ t ∈ (s.pass p).2, t.OnScreen) ↔
        ∀ t ∈ (((s.handleInput p).1.leaveSsh.browser p).1.serve p).2, t.OnScreen := by
      refine ⟨fun h t ht => h t (List.mem_append_right _ ht), fun h t ht => ?_⟩
      rcases List.mem_append.mp ht with ht | ht
      · rcases List.mem_append.mp ht with ht | ht
        · exact fun hc => absurd ((hk.touches t ht).1.symm.trans hc) nofun
        · exact fun hc => absurd ((hbt t ht).1.symm.trans hc) nofun
      · exact h t ht
    rw [hiff, hscreen]
    -- with a start pending the SSH screen is open, so leaving SSH and the browser's stage change the browser only
    have hstay : (s.handleInput p).1.ui.sshAction = 1 →
        ((s.handleInput p).1.leaveSsh.browser p).1 = { (s.handleInput p).1 with fileManager := none } := by
      intro h1
      have hv : (s.handleInput p).1.viewState = 8 := hpend.start h1
      rw [hlsame hv, browser_of_not_isView p (by rw [hv]; decide)]
    have hbusy : (s.handleInput p).1.ui.sshAction = 1 → (s.handleInput p).1.radioPending = none := by
      intro h1
      by_contra hne
      have hbusy : (s.splash p).inputBusy = true := by
        unfold inputBusy
        rw [← hk.radioPending, Option.isSome_iff_ne_none.mpr hne, Bool.or_true]
      have := (hk.busy hbusy).trans (show (s.splash p).ui.sshAction = 0 from h.ssh)
      omega
    constructor
    · rintro hview ⟨h1, h3, hauto, hsel, hstorage, hnet⟩
      rw [hstay h1] at hview
      have h5 := (radio_view_of_screen { (s.handleInput p).1 with fileManager := none } p (hpend.start h1) (by decide)).1 h3
        (hbusy h1) hauto hsel
      exact absurd (h5.symm.trans (hview h1 hstorage hnet)) (by decide)
    · intro hno h1 hstorage hnet
      have h1' : (s.handleInput p).1.ui.sshAction = 1 := by
        rw [← hlui, ← browser_sshAction _ p, h1]
      rw [hstay h1'] at hstorage hnet ⊢
      refine (radio_view_of_screen { (s.handleInput p).1 with fileManager := none } p (hpend.start h1') (by decide)).2 ?_
      by_cases h3 : (s.handleInput p).1.ui.wifiAction = 3
      · exact Or.inr ⟨hbusy h1', fun hs => hno ⟨h1', h3, hs.1, hs.2, hstorage, hnet⟩⟩
      · exact Or.inl h3

end SingleUserAux

open SingleUserAux

/-- Booting leaves the card to nobody. -/
theorem settled_boot (storage : Option V) (radio : Bool) (config : WifiConfig) :
    Settled (boot storage radio config : Firmware V C) := by
  have hoff : (boot storage radio config : Firmware V C).sshActive = false := by cases radio <;> rfl
  refine ⟨⟨nofun, nofun, nofun, nofun, fun h => ?_, fun h => ?_, ?_⟩, rfl, rfl, nofun⟩
  · exact absurd (hoff.symm.trans h) Bool.false_ne_true
  · exact absurd (hoff.symm.trans h) Bool.false_ne_true
  · cases radio <;> rfl

/-- At every point of every run from boot where a component may use the card, at most one of the browser, the SSH server and
the USB disk holds it; and a pass polls the SSH server as active off its own screen exactly when its keys both choose a
protected scan result and open the SSH screen. -/
theorem single_card_user (storage : Option V) (radio : Bool) (config : WifiConfig) (passes : List (Pass V C)) :
    Mealy.Along pass (fun s p => (∀ t ∈ (s.pass p).2, t.Exclusive) ∧
      ((∀ t ∈ (s.pass p).2, t.OnScreen) ↔ ¬ s.AsksPassword p)) (boot storage radio config) passes :=
  Mealy.along_of_invariant (I := Settled) (fun _ p h => pass_spec p h) (settled_boot storage radio config) passes

/-- A pass in which only the keyboard and the radio answer. -/
def keysPass (inputs : List KeyInput) (scan : Option (List ScanNetwork)) : Pass Unit Unit :=
  { now := SPLASH_AFTER_MS
    later := SPLASH_AFTER_MS
    inputs := inputs.map (·, {})
    scan
    free := fun _ => ()
    mount := some }

/-- Scan, then in one batch choose the protected network found, go back to the menu and open the SSH screen. -/
def passwordRun : List (Pass Unit Unit) :=
  [keysPass [.arrow .down, .enter, .arrow .down, .enter] none,
    keysPass [] (some [⟨"home", -50, .wpa2, true⟩]),
    keysPass [] (some []),
    keysPass [.enter, .backspace, .backspace, .arrow .down, .arrow .down, .enter] none]

/-- The SSH server is not always off while its screen is closed: after `passwordRun` it is polled as active on the password
editor, view 5. -/
theorem not_always_on_screen :
    ¬ ∀ (storage : Option Unit) (radio : Bool) (config : WifiConfig) (passes : List (Pass Unit Unit)),
      Mealy.Along pass (fun s p => ∀ t ∈ (s.pass p).2, t.Exclusive ∧ t.OnScreen) (boot storage radio config) passes := by
  intro h
  have hrun := (h (some ()) true {} passwordRun).2.2.2.1
  have ht := hrun ⟨.sshServer, false, true, false, 5⟩ (by decide +kernel)
  exact absurd (ht.2 rfl rfl) (by decide)

end Firmware

end Ratputer
