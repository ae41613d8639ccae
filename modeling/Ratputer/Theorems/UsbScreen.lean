import Ratputer.Lemmas.UsbScreen

/-!
# The card and the USB screen

The card belongs to the mounted volume or to the USB disk as long as every mount succeeds: at boot, after a failed start of the
USB stack and after an exit. A mount that fails drops it, and no later pass finds it again. The USB screen shows that the card
is exported as long as every batch of keys that opens it ends in an export; after any other such batch the screen stays open
and ignores every exit.
-/

namespace Ratputer

variable {V C : Type}

namespace Firmware

/-- Exactly one of the mounted volume and the USB disk has the card. -/
def CardOwned (s : Firmware V C) : Prop := s.storage.isSome ≠ s.usbSd.isSome

/-- The mount that the USB command of the pass makes, if any, succeeds: after a failed start of the USB stack, or after an exit
that is not the first press of two. -/
def Remounts (s : Firmware V C) (p : Pass V C) : Prop :=
  let action := (s.handleInput p).1.ui.usbDiskAction
  (action = 1 → ∀ volume ∈ s.storage, p.attach = false → (p.mount (p.free volume)).isSome) ∧
    (action = 2 → ∀ card ∈ s.usbSd, (p.canDetach || s.usbForceExitArmed) = true → (p.mount card).isSome)

/-- The USB screen is open exactly while the card is exported. -/
def ShowsExport (s : Firmware V C) : Prop := s.viewState = 7 ↔ s.usbSd.isSome = true

/-- An exit pressed on the USB screen leaves it, or arms the press that does. -/
def ExitActs (s : Firmware V C) (p : Pass V C) : Prop :=
  s.viewState = 7 → (s.handleInput p).1.ui.usbDiskAction = 2 →
    if p.canDetach || s.usbForceExitArmed then (s.pass p).1.viewState = 0
    else (s.pass p).1.usbForceExitArmed = true

/-- The keys leave the choice of a protected scan result that the radio is free to take up. -/
def AsksNetworkPassword (s : Firmware V C) (p : Pass V C) : Prop :=
  s.ui.wifiAction = 3 ∧ (s.autoJob = none ∨ p.autoFinished ≠ none) ∧ s.SelectsProtected

/-- A batch of keys that opens the USB screen leaves the export as its command, with a volume to export and a USB stack that
starts, unless the radio opens its password editor in the place of the screen. -/
def OpensExported (s : Firmware V C) (p : Pass V C) : Prop :=
  let k := (s.handleInput p).1
  k.viewState = 7 → s.usbSd = none →
    (k.ui.usbDiskAction = 1 ∧ s.storage.isSome = true ∧ p.attach = true ↔ ¬ k.AsksNetworkPassword p)

/-- The state between two passes, as the USB command needs it. -/
structure AtRest (s : Firmware V C) : Prop where
  settled : s.Settled
  sftp : s.SftpClosed
  wifi : s.viewState = 7 → s.ui.wifiAction = 0

namespace UsbScreenAux

open SingleUserAux

/-- The state in which a pass comes to the USB command. -/
def usbEntry (s : Firmware V C) (p : Pass V C) : Firmware V C :=
  ((s.handleInput p).1.leaveSsh.browser p).1.radio p

theorem custody_eq {s : Firmware V C} {storage : Option V} {usbSd : Option C} {armed : Bool}
    (h : s.custody = (storage, usbSd, armed)) :
    s.storage = storage ∧ s.usbSd = usbSd ∧ s.usbForceExitArmed = armed := by
  unfold custody at h
  rw [Prod.mk.injEq, Prod.mk.injEq] at h
  exact h

theorem custody_inj {s s' : Firmware V C} (h : s.custody = s'.custody) :
    s.storage = s'.storage ∧ s.usbSd = s'.usbSd ∧ s.usbForceExitArmed = s'.usbForceExitArmed :=
  custody_eq h

/-- The keys of a pass from rest: a USB command waits on its screen only. -/
theorem handleInput_pending {s : Firmware V C} (p : Pass V C) (h : s.AtRest) : (s.handleInput p).1.ui.Pending := by
  have hssh : s.ui.sshAction = 0 := h.settled.ssh
  refine (s.keeps_handleInput p).pending ⟨fun hu => absurd h.settled.usb hu, fun hs => ?_, fun hs => ?_,
    fun hv => Or.inr (h.settled.wifi hv)⟩
  · exact absurd (hssh.symm.trans hs) (by decide)
  · have hs : 3 ≤ s.ui.sshAction := hs
    omega

/-- What the stages before the USB command keep. -/
theorem usbEntry_spec {s : Firmware V C} (p : Pass V C) (h : s.AtRest) :
    (usbEntry s p).custody = s.custody ∧ (usbEntry s p).SftpClosed ∧
      (usbEntry s p).ui.usbDiskAction = (s.handleInput p).1.ui.usbDiskAction ∧
      ((s.handleInput p).1.viewState = 7 → (usbEntry s p).sshServer.any (·.holdsSd) = false) ∧
      ((usbEntry s p).viewState = 7 → (s.handleInput p).1.viewState = 7) ∧
      (usbEntry s p).ui.sshAction = (s.handleInput p).1.ui.sshAction ∧
      ((usbEntry s p).viewState = 7 → (usbEntry s p).ui.wifiAction = 0) := by
  have hk := s.screen_handleInput p
  have hkc : (s.handleInput p).1.custody = s.custody := hk.custody.trans rfl
  have hclosed : (s.handleInput p).1.SftpClosed := by
    unfold SftpClosed
    rw [hk.server]
    exact h.sftp
  obtain ⟨hl, hlc, hlany⟩ := leaveSsh_closed hclosed
  have hlui : (s.handleInput p).1.leaveSsh.ui = (s.handleInput p).1.ui := by
    unfold leaveSsh
    split_ifs <;> rfl
  obtain ⟨hbc, hbs, hbu, -, hbv, -⟩ := (s.handleInput p).1.leaveSsh.browser_screen p
  have hbssh := (s.handleInput p).1.leaveSsh.browser_sshAction p
  obtain ⟨hrc, hrs, -⟩ := ((s.handleInput p).1.leaveSsh.browser p).1.radio_server p
  obtain ⟨hr, hrw⟩ := ((s.handleInput p).1.leaveSsh.browser p).1.keeps_radio p
  have hview : (usbEntry s p).viewState = 7 → ((s.handleInput p).1.leaveSsh.browser p).1.viewState = 7 := by
    intro h7
    rcases hr.view with hv | hv
    · exact hv.symm.trans h7
    · exact absurd h7 (by unfold usbEntry; omega)
  have hlview : (s.handleInput p).1.leaveSsh.viewState = (s.handleInput p).1.viewState :=
    congrArg MainWindow.viewState hlui
  refine ⟨hrc.trans (hbc.trans (hlc.trans hkc)), ?_, ?_, fun hv => ?_, fun h7 => ?_, ?_, fun h7 => ?_⟩
  · unfold SftpClosed usbEntry
    rw [hrs, hbs]
    exact hl
  · exact hr.usb.trans (hbu.trans (congrArg MainWindow.usbDiskAction hlui))
  · unfold usbEntry
    rw [hrs, hbs]
    exact hlany hv
  · exact hlview.symm.trans (hbv.mp (hview h7))
  · exact hr.ssh.trans (hbssh.trans (congrArg MainWindow.sshAction hlui))
  · exact hrw (by rw [hview h7]; decide)

/-- What the stages after the USB command keep. -/
theorem ssh_stages {s : Firmware V C} (p : Pass V C) (h : s.SftpClosed) :
    (((s.sshAction p).networkPoll p).sshPoll p).1.custody = s.custody ∧
      (((s.sshAction p).networkPoll p).sshPoll p).1.SftpClosed ∧
      ((((s.sshAction p).networkPoll p).sshPoll p).1.viewState = s.viewState ∨
        4 ≤ s.ui.sshAction ∧ (((s.sshAction p).networkPoll p).sshPoll p).1.viewState = 8) ∧
      (((s.sshAction p).networkPoll p).sshPoll p).1.ui.wifiAction = s.ui.wifiAction := by
  obtain ⟨hac, has, hav⟩ := sshAction_custody p h
  obtain ⟨-, -, haw, -⟩ := sshAction_frame s p
  obtain ⟨hnc, hns, hnu⟩ := (s.sshAction p).networkPoll_custody p
  have hnclosed : ((s.sshAction p).networkPoll p).SftpClosed := by
    unfold SftpClosed
    rw [hns]
    exact has
  obtain ⟨hpc, hps, hpu⟩ := sshPoll_custody p hnclosed
  have hui := hpu.trans hnu
  have hview : (((s.sshAction p).networkPoll p).sshPoll p).1.viewState = (s.sshAction p).viewState :=
    congrArg MainWindow.viewState hui
  rw [hview, hui]
  exact ⟨hpc.trans (hnc.trans hac), hps, hav, haw⟩

/-- What a pass keeps after its USB command: the password editor's commands, the only ones that change the screen, wait on the
editor alone. -/
theorem pass_after_usb {s : Firmware V C} (p : Pass V C) (h : s.AtRest) (hu : ((usbEntry s p).usb p).1.SftpClosed) :
    (s.pass p).1.custody = ((usbEntry s p).usb p).1.custody ∧ (s.pass p).1.SftpClosed ∧
      ((s.pass p).1.viewState = ((usbEntry s p).usb p).1.viewState ∨
        (s.handleInput p).1.viewState = 9 ∧ (s.pass p).1.viewState = 8) ∧
      (s.pass p).1.ui.wifiAction = (usbEntry s p).ui.wifiAction := by
  obtain ⟨hcustody, hsftp, hview, hw⟩ := ssh_stages p hu
  obtain ⟨-, hssh, hwifi, -⟩ := usb_frame (usbEntry s p) p
  obtain ⟨-, -, -, -, -, hkssh, -⟩ := usbEntry_spec p h
  have hpass : (s.pass p).1 = ((((usbEntry s p).usb p).1.sshAction p).networkPoll p |>.sshPoll p).1 := by
    simp only [pass, serve, usbEntry]
  rw [hpass]
  have heditor : 4 ≤ ((usbEntry s p).usb p).1.ui.sshAction → (s.handleInput p).1.viewState = 9 := by
    intro h4
    rw [hssh, hkssh] at h4
    exact (handleInput_pending p h).editor (by omega)
  exact ⟨hcustody, hsftp, hview.imp_right fun hv => ⟨heditor hv.1, hv.2⟩, hw.trans hwifi⟩

/-- What the USB command does with the card and the screen. -/
inductive UsbMove (s : Firmware V C) (p : Pass V C) (s' : Firmware V C) : Prop
  | exports (volume : V) (action : s.ui.usbDiskAction = 1) (usbSd : s.usbSd = none) (storage : s.storage = some volume)
      (starts : p.attach = true) (custody : s'.custody = (none, some (p.free volume), false))
      (view : s'.viewState = s.viewState)
  | remounts (volume : V) (action : s.ui.usbDiskAction = 1) (usbSd : s.usbSd = none) (storage : s.storage = some volume)
      (starts : p.attach = false) (custody : s'.custody = (p.mount (p.free volume), none, s.usbForceExitArmed))
      (view : s'.viewState = s.viewState)
  | detaches (card : C) (action : s.ui.usbDiskAction = 2) (usbSd : s.usbSd = some card)
      (may : (p.canDetach || s.usbForceExitArmed) = true) (custody : s'.custody = (p.mount card, none, false))
      (view : s'.viewState = 0)
  | arms (card : C) (action : s.ui.usbDiskAction = 2) (usbSd : s.usbSd = some card)
      (may : (p.canDetach || s.usbForceExitArmed) = false) (custody : s'.custody = (s.storage, s.usbSd, true))
      (view : s'.viewState = s.viewState)
  | idle (attach : s.ui.usbDiskAction = 1 → s.usbSd = none → s.storage = none)
      (detach : s.ui.usbDiskAction = 2 → s.usbSd = none) (custody : s'.custody = s.custody)
      (view : s'.viewState = s.viewState)

/-- The USB command makes one of its moves, when an export finds no SFTP session on the card. -/
theorem usb_moves {s : Firmware V C} (p : Pass V C)
    (hfree : s.ui.usbDiskAction = 1 → s.sshServer.any (·.holdsSd) = false) : UsbMove s p (s.usb p).1 := by
  unfold usb
  dsimp only
  split_ifs with h1 h2
  · unfold usbAttach
    dsimp only
    rw [hfree h1, Bool.not_false, Bool.and_true]
    rcases hsd : s.usbSd with _ | card
    · rw [if_pos (by rfl)]
      rcases hst : s.storage with _ | volume
      · exact .idle (fun _ _ => hst) (fun _ => hsd) (by simp [custody, hsd, hst]) rfl
      · rcases ha : p.attach with _ | _
        · exact .remounts volume h1 hsd hst ha rfl rfl
        · exact .exports volume h1 hsd hst ha rfl rfl
    · rw [if_neg (by simp)]
      refine .idle (fun _ h => ?_) (fun h2 => ?_) (by simp [custody, hsd]) rfl
      · exact absurd (hsd.symm.trans h) nofun
      · exact absurd (h1.symm.trans h2) (by decide)
  · unfold usbDetach
    dsimp only
    rcases hsd : s.usbSd with _ | card
    · exact .idle (fun h => absurd h h1) (fun _ => hsd) (by simp [custody, hsd]) rfl
    · dsimp only
      rcases hc : p.canDetach || s.usbForceExitArmed with _ | _
      · exact .arms card h2 hsd hc (by simp [custody, hsd]) rfl
      · exact .detaches card h2 hsd hc rfl rfl
  · exact .idle (fun h => absurd h h1) (fun h => absurd h h2) rfl rfl

/-- The USB command leaves the SSH server alone. -/
theorem usb_closed {s : Firmware V C} (p : Pass V C) (h : s.SftpClosed) : (s.usb p).1.SftpClosed := by
  obtain ⟨-, -, -, hserver, -⟩ := usb_frame s p
  unfold SftpClosed
  rw [hserver]
  exact h

/-- The command that a pass from rest carries out, on the card it started with. -/
theorem pass_moves {s : Firmware V C} (p : Pass V C) (h : s.AtRest) :
    UsbMove (usbEntry s p) p ((usbEntry s p).usb p).1 := by
  obtain ⟨-, -, hu, hfree, -⟩ := usbEntry_spec p h
  refine usb_moves p fun h1 => hfree ((handleInput_pending p h).usb ?_)
  omega

/-- A pass from rest ends at rest. -/
theorem atRest_pass {s : Firmware V C} (p : Pass V C) (h : s.AtRest) : (s.pass p).1.AtRest := by
  obtain ⟨-, hclosed, -, -, -, -, hwifi⟩ := usbEntry_spec p h
  obtain ⟨-, hsftp, hview, hw⟩ := pass_after_usb p h (usb_closed p hclosed)
  refine ⟨(pass_spec p h.settled).1, hsftp, fun h7 => hw.trans (hwifi ?_)⟩
  rcases hview with hv | ⟨-, hv⟩
  · rw [h7] at hv
    rcases (usb_frame (usbEntry s p) p).2.2.2.2.2.2.1 with hv' | hv'
    · exact hv'.symm.trans hv.symm
    · exact absurd (hv.trans hv') (by decide)
  · exact absurd (h7.symm.trans hv) (by decide)

theorem atRest_boot (storage : Option V) (radio : Bool) (config : WifiConfig) :
    AtRest (boot storage radio config : Firmware V C) := by
  refine ⟨settled_boot storage radio config, ?_, fun _ => rfl⟩
  cases radio
  · exact nofun
  · intro server hs _
    obtain rfl := Option.some.inj hs
    rfl

/-- From rest, with the card owned, a pass ends with the card owned exactly when its mount succeeds. -/
theorem owned_pass {s : Firmware V C} (p : Pass V C) (h : s.AtRest) (ho : s.CardOwned) :
    (s.pass p).1.CardOwned ↔ s.Remounts p := by
  obtain ⟨hc, hclosed, hu, -⟩ := usbEntry_spec p h
  obtain ⟨hst, hsd, harm⟩ := custody_inj hc
  obtain ⟨hpc, -⟩ := pass_after_usb p h (usb_closed p hclosed)
  have howned : ∀ {storage : Option V} {usbSd : Option C} {armed : Bool},
      ((usbEntry s p).usb p).1.custody = (storage, usbSd, armed) →
        ((s.pass p).1.CardOwned ↔ storage.isSome ≠ usbSd.isSome) := by
    intro storage usbSd armed hm
    obtain ⟨h1, h2, -⟩ := custody_eq (hpc.trans hm)
    unfold CardOwned
    rw [h1, h2]
  have hsome : ∀ m : Option V, m.isSome ≠ (none : Option C).isSome ↔ m.isSome = true := by
    intro m
    cases m <;> simp
  unfold Remounts
  rw [← hu]
  cases pass_moves p h with
  | exports volume action usbSd storage starts custody =>
    refine (howned custody).trans (iff_of_true (by simp) ⟨fun _ v _ hf => ?_, fun h2 => ?_⟩)
    · exact absurd (starts.symm.trans hf) (by decide)
    · omega
  | remounts volume action usbSd storage starts custody =>
    refine ((howned custody).trans (hsome _)).trans ⟨fun hm => ⟨fun _ v hv _ => ?_, fun h2 => ?_⟩, fun hm => ?_⟩
    · obtain rfl := Option.some.inj (storage.symm.trans (hst.trans hv))
      exact hm
    · omega
    · exact hm.1 action volume (hst.symm.trans storage) starts
  | detaches card action usbSd may custody =>
    refine ((howned custody).trans (hsome _)).trans ⟨fun hm => ⟨fun h1 => ?_, fun _ c hc' _ => ?_⟩, fun hm => ?_⟩
    · omega
    · obtain rfl := Option.some.inj (usbSd.symm.trans (hsd.trans hc'))
      exact hm
    · exact hm.2 action card (hsd.symm.trans usbSd) (by rw [← harm]; exact may)
  | arms card action usbSd may custody =>
    refine (howned custody).trans (iff_of_true ?_ ⟨fun h1 => ?_, fun _ c _ hm => ?_⟩)
    · rw [hst, hsd]
      exact ho
    · omega
    · rw [harm] at may
      exact absurd (may.symm.trans hm) (by decide)
  | idle attach detach custody =>
    refine (howned (custody.trans hc)).trans (iff_of_true ho ⟨fun h1 v hv _ => ?_, fun h2 c hc' _ => ?_⟩)
    · have hn : s.usbSd = none := by
        rcases hs : s.usbSd with _ | card
        · rfl
        · have hv : s.storage = some v := hv
          simp [CardOwned, hs, hv] at ho
      have := attach h1 (hsd.trans hn)
      exact absurd ((hst.symm.trans this).symm.trans hv) nofun
    · exact absurd ((hsd.symm.trans (detach h2)).symm.trans hc') nofun

/-- The radio's part of a pass whose keys end on the USB screen: it opens its password editor there exactly when the keys also
chose a protected scan result. -/
theorem usbEntry_view {s : Firmware V C} (p : Pass V C) (h : s.AtRest) (h7 : (s.handleInput p).1.viewState = 7) :
    ((s.handleInput p).1.AsksNetworkPassword p → s.viewState ≠ 7 → (usbEntry s p).viewState = 5) ∧
      (¬ (s.handleInput p).1.AsksNetworkPassword p ∨ s.viewState = 7 → (usbEntry s p).viewState = 7) := by
  have hk := s.screen_handleInput p
  obtain ⟨-, -, -, hbw, hbv, hbr, hbj, hbn, hbi⟩ := (s.handleInput p).1.leaveSsh.browser_screen p
  have hl : (s.handleInput p).1.leaveSsh = (s.handleInput p).1.stopSsh := by
    unfold leaveSsh
    rw [if_pos (by omega)]
  have hselects : ((s.handleInput p).1.leaveSsh.browser p).1.SelectsProtected ↔
      (s.handleInput p).1.SelectsProtected := by
    unfold SelectsProtected
    rw [hbn, hbi, hl]
    rfl
  rw [hl] at hbw hbr hbj hbv hselects
  have hview : ((s.handleInput p).1.leaveSsh.browser p).1.viewState = 7 := by
    rw [hl]
    exact hbv.mpr h7
  obtain ⟨hasks, hstays⟩ := ((s.handleInput p).1.leaveSsh.browser p).1.radio_view_of_screen p hview (by decide)
  rw [hl] at hasks hstays
  unfold usbEntry AsksNetworkPassword
  rw [hl]
  -- keys that open the screen are read with no radio step pending
  have hfree : s.viewState ≠ 7 → (s.handleInput p).1.radioPending = none := by
    intro hne
    obtain ⟨hbusy, -⟩ := hk.opens hne h7
    rw [← hk.busy] at hbusy
    unfold inputBusy at hbusy
    rw [Bool.or_eq_false_iff] at hbusy
    exact Option.isNone_iff_eq_none.mp (by simpa using hbusy.2)
  constructor
  · rintro ⟨h3, hj, hs⟩ hne
    exact hasks (hbw.trans h3) (hbr.trans (hfree hne)) (hj.imp_left hbj.trans) (hselects.mpr hs)
  · intro hor
    by_cases hne : s.viewState = 7
    · refine hstays (Or.inl ?_)
      have hw : (s.handleInput p).1.ui.wifiAction = s.ui.wifiAction := (hk.stays hne).2.1
      have hw : (s.handleInput p).1.stopSsh.ui.wifiAction = 0 := hw.trans (h.wifi hne)
      omega
    · have hno := hor.resolve_right hne
      by_cases h3 : (s.handleInput p).1.ui.wifiAction = 3
      · refine hstays (Or.inr ⟨hbr.trans (hfree hne), fun hs => hno ⟨h3, ?_, hselects.mp hs.2⟩⟩)
        exact hs.1.imp_left hbj.symm.trans
      · exact hstays (Or.inl fun h => h3 (hbw.symm.trans h))

/-- A pass from rest that starts on the USB screen with the card exported. -/
theorem exported_pass {s : Firmware V C} (p : Pass V C) (h : s.AtRest) (h7 : s.viewState = 7)
    (hx : s.usbSd.isSome = true) : (s.pass p).1.ShowsExport ∧ s.ExitActs p := by
  obtain ⟨hc, hclosed, hu, -⟩ := usbEntry_spec p h
  obtain ⟨hst, hsd, harm⟩ := custody_inj hc
  obtain ⟨hpc, -, hpv, -⟩ := pass_after_usb p h (usb_closed p hclosed)
  obtain ⟨hk7, -, hka⟩ := (s.screen_handleInput p).stays h7
  have hv : (usbEntry s p).viewState = 7 := (usbEntry_view p h hk7).2 (Or.inr h7)
  have hpv := hpv.resolve_right fun h9 => absurd (hk7.symm.trans h9.1) (by decide)
  unfold ShowsExport ExitActs
  rw [← hu, ← harm, hpv]
  cases pass_moves p h with
  | exports volume action usbSd =>
    exact absurd (hsd.symm.trans usbSd) (Option.isSome_iff_ne_none.mp hx)
  | remounts volume action usbSd =>
    exact absurd (hsd.symm.trans usbSd) (Option.isSome_iff_ne_none.mp hx)
  | detaches card action usbSd may custody view =>
    obtain ⟨-, h2, -⟩ := custody_eq (hpc.trans custody)
    rw [h2, view, if_pos may]
    exact ⟨by simp, fun _ _ => rfl⟩
  | arms card action usbSd may custody view =>
    obtain ⟨-, h2, h3⟩ := custody_eq (hpc.trans custody)
    rw [h2, view, if_neg (by rw [may]; exact Bool.false_ne_true)]
    exact ⟨iff_of_true hv (by rw [hsd]; exact hx), fun _ _ => h3⟩
  | idle attach detach custody view =>
    obtain ⟨-, h2, -⟩ := custody_inj (hpc.trans (custody.trans hc))
    rw [h2, view]
    refine ⟨iff_of_true hv hx, fun _ h2 => ?_⟩
    exact absurd (hsd.symm.trans (detach h2)) (Option.isSome_iff_ne_none.mp hx)

/-- A pass from rest that starts off the USB screen with the card not exported. -/
theorem opening_pass {s : Firmware V C} (p : Pass V C) (h : s.AtRest) (h7 : s.viewState ≠ 7) (hx : s.usbSd = none) :
    (s.pass p).1.ShowsExport ↔ s.OpensExported p := by
  obtain ⟨hc, hclosed, hu, -, hview, -⟩ := usbEntry_spec p h
  obtain ⟨hst, hsd, -⟩ := custody_inj hc
  obtain ⟨hpc, -, hpv, -⟩ := pass_after_usb p h (usb_closed p hclosed)
  have hpend := handleInput_pending p h
  have hcustody : ∀ {storage : Option V} {usbSd : Option C} {armed : Bool},
      ((usbEntry s p).usb p).1.custody = (storage, usbSd, armed) → (s.pass p).1.usbSd = usbSd := by
    intro storage usbSd armed hm
    exact (custody_eq (hpc.trans hm)).2.1
  unfold ShowsExport OpensExported
  dsimp only
  by_cases hk7 : (s.handleInput p).1.viewState = 7
  · have hpv := hpv.resolve_right fun h9 => absurd (hk7.symm.trans h9.1) (by decide)
    obtain ⟨hasks, hstays⟩ := usbEntry_view p h hk7
    have hiff : (usbEntry s p).viewState = 7 ↔ ¬ (s.handleInput p).1.AsksNetworkPassword p := by
      constructor
      · intro hv ha
        exact absurd (hv.symm.trans (hasks ha h7)) (by decide)
      · exact fun ha => hstays (Or.inl ha)
    rw [hpv, ← hu, ← hst]
    have hmove : ((usbEntry s p).usb p).1.viewState = (usbEntry s p).viewState ∧
        ((s.pass p).1.usbSd.isSome = true ↔ (usbEntry s p).ui.usbDiskAction = 1 ∧
          (usbEntry s p).storage.isSome = true ∧ p.attach = true) := by
      cases pass_moves p h with
      | exports volume action usbSd storage starts custody view =>
        rw [hcustody custody, storage]
        exact ⟨view, iff_of_true rfl ⟨action, rfl, starts⟩⟩
      | remounts volume action usbSd storage starts custody view =>
        rw [hcustody custody]
        exact ⟨view, iff_of_false nofun fun hm => absurd (starts.symm.trans hm.2.2) (by decide)⟩
      | detaches card action usbSd => exact absurd (usbSd.symm.trans (hsd.trans hx)) nofun
      | arms card action usbSd => exact absurd (usbSd.symm.trans (hsd.trans hx)) nofun
      | idle attach detach custody view =>
        rw [hcustody (custody.trans hc), hx]
        refine ⟨view, iff_of_false nofun fun hm => ?_⟩
        rw [attach hm.1 (hsd.trans hx)] at hm
        exact absurd hm.2.1 nofun
    rw [hmove.1, hmove.2, hiff]
    constructor
    · intro hiff' _ _
      exact hiff'.symm
    · intro hiff'
      exact (hiff' hk7 hx).symm
  · have haction : (usbEntry s p).ui.usbDiskAction = 0 := by
      by_contra hne
      exact hk7 (hpend.usb (by rw [← hu]; exact hne))
    have hidle := usb_of_no_action p haction
    have hne : (s.pass p).1.viewState ≠ 7 := by
      rcases hpv with hv | ⟨-, hv⟩
      · rw [hv, hidle]
        exact fun hv => hk7 (hview hv)
      · omega
    have hnone : (s.pass p).1.usbSd = none := by
      rw [hidle] at hpc
      exact (custody_inj hpc).2.1.trans (hsd.trans hx)
    refine iff_of_true (iff_of_false hne ?_) fun h7' => absurd h7' hk7
    rw [hnone]
    exact nofun

/-- From rest, with the screen showing the export, a pass ends so exactly when its keys open the screen on an export only. -/
theorem shows_pass {s : Firmware V C} (p : Pass V C) (h : s.AtRest) (hs : s.ShowsExport) :
    (s.pass p).1.ShowsExport ∧ s.ExitActs p ↔ s.OpensExported p := by
  by_cases h7 : s.viewState = 7
  · have hx := hs.mp h7
    refine iff_of_true (exported_pass p h h7 hx) fun _ hn => ?_
    exact absurd hn (Option.isSome_iff_ne_none.mp hx)
  · have hx : s.usbSd = none := by
      rw [← Option.not_isSome_iff_eq_none]
      exact fun hx => h7 (hs.mpr hx)
    rw [← opening_pass p h h7 hx]
    exact and_iff_left fun h7' => absurd h7' h7

/-- Without an owner the USB command has no card to move. -/
theorem lost_pass {s : Firmware V C} (p : Pass V C) (h : s.AtRest) (hst : s.storage = none) (hsd : s.usbSd = none) :
    (s.pass p).1.storage = none ∧ (s.pass p).1.usbSd = none := by
  obtain ⟨hc, hclosed, -⟩ := usbEntry_spec p h
  obtain ⟨hst', hsd', -⟩ := custody_inj hc
  obtain ⟨hpc, -⟩ := pass_after_usb p h (usb_closed p hclosed)
  cases pass_moves p h with
  | exports volume action usbSd storage => exact absurd (storage.symm.trans (hst'.trans hst)) nofun
  | remounts volume action usbSd storage => exact absurd (storage.symm.trans (hst'.trans hst)) nofun
  | detaches card action usbSd => exact absurd (usbSd.symm.trans (hsd'.trans hsd)) nofun
  | arms card action usbSd => exact absurd (usbSd.symm.trans (hsd'.trans hsd)) nofun
  | idle attach detach custody =>
    obtain ⟨h1, h2, -⟩ := custody_inj (hpc.trans (custody.trans hc))
    exact ⟨h1.trans hst, h2.trans hsd⟩

/-- On the USB screen with no card exported, a pass from rest changes nothing of either. -/
theorem stuck_pass {s : Firmware V C} (p : Pass V C) (h : s.AtRest) (h7 : s.viewState = 7) (hx : s.usbSd = none) :
    (s.pass p).1.viewState = 7 ∧ (s.pass p).1.usbSd = none := by
  obtain ⟨hc, hclosed, hu, -⟩ := usbEntry_spec p h
  obtain ⟨-, hsd, -⟩ := custody_inj hc
  obtain ⟨hpc, -, hpv, -⟩ := pass_after_usb p h (usb_closed p hclosed)
  obtain ⟨hk7, -, hka⟩ := (s.screen_handleInput p).stays h7
  have hv : (usbEntry s p).viewState = 7 := (usbEntry_view p h hk7).2 (Or.inr h7)
  have hpv := hpv.resolve_right fun h9 => absurd (hk7.symm.trans h9.1) (by decide)
  -- the only command that the screen's keys leave is the exit
  have hne : (usbEntry s p).ui.usbDiskAction ≠ 1 := by
    have h0 : (s.splash p).ui.usbDiskAction = 0 := h.settled.usb
    omega
  cases pass_moves p h with
  | exports volume action => exact absurd action hne
  | remounts volume action => exact absurd action hne
  | detaches card action usbSd => exact absurd (usbSd.symm.trans (hsd.trans hx)) nofun
  | arms card action usbSd => exact absurd (usbSd.symm.trans (hsd.trans hx)) nofun
  | idle attach detach custody view =>
    exact ⟨hpv.trans (view.trans hv), (custody_inj (hpc.trans (custody.trans hc))).2.1.trans hx⟩

end UsbScreenAux

open UsbScreenAux

/-- In every run from boot the card has exactly one owner, at boot and at the end of every pass, exactly when every mount of
the run succeeds. -/
theorem card_owned_iff_mounted (mount : C → Option V) (card : C) (radio : Bool) (config : WifiConfig)
    (passes : List (Pass V C)) :
    (CardOwned (boot (mount card) radio config : Firmware V C) ∧
        Mealy.Along pass (fun s p => (s.pass p).1.CardOwned) (boot (mount card) radio config) passes) ↔
      (mount card).isSome = true ∧ Mealy.Along pass Remounts (boot (mount card) radio config) passes := by
  have hboot : CardOwned (boot (mount card) radio config : Firmware V C) ↔ (mount card).isSome = true := by
    show (mount card).isSome ≠ false ↔ _
    exact Bool.not_eq_false _ |>.to_iff
  rw [hboot]
  refine and_congr_right fun hm => Mealy.along_iff (fun s => s.AtRest ∧ s.CardOwned) (fun s p h => ?_)
    ⟨atRest_boot _ radio config, hboot.mpr hm⟩ passes
  have hiff := owned_pass p h.1 h.2
  exact ⟨hiff, fun hr => ⟨atRest_pass p h.1, hiff.mpr hr⟩⟩

/-- A card that a pass has dropped stays lost: with no owner at the end of a run from boot, there is none after any passes
that follow. -/
theorem lost_card_stays_lost (storage : Option V) (radio : Bool) (config : WifiConfig) (passes later : List (Pass V C))
    (hst : (Mealy.final pass (boot storage radio config) passes).storage = none)
    (hsd : (Mealy.final pass (boot storage radio config) passes).usbSd = none) :
    (Mealy.final pass (boot storage radio config) (passes ++ later)).storage = none ∧
      (Mealy.final pass (boot storage radio config) (passes ++ later)).usbSd = none := by
  rw [Mealy.final_append]
  have hrest := Mealy.invariant_of_forall AtRest (fun _ p h => atRest_pass p h) (atRest_boot storage radio config) passes
  exact (Mealy.invariant_of_forall (fun s : Firmware V C => s.AtRest ∧ s.storage = none ∧ s.usbSd = none)
    (fun s p h => ⟨atRest_pass p h.1, lost_pass p h.1 h.2.1 h.2.2⟩) ⟨hrest, hst, hsd⟩ later).2

/-- Open the USB screen and export the card, then leave it again after the host has ejected it; the card no longer mounts. -/
def unmountableRun : List (Pass Unit Unit) :=
  [{ keysPass [.arrow .down, .arrow .down, .enter] none with attach := true },
    { keysPass [.escape] none with canDetach := true, mount := fun _ => none }]

/-- The card is not always owned: an exit that cannot mount the card drops it. -/
theorem not_always_owned :
    ¬ ∀ (mount : Unit → Option Unit) (card : Unit) (radio : Bool) (config : WifiConfig) (passes : List (Pass Unit Unit)),
      (mount card).isSome = true →
        Mealy.Along pass (fun s p => (s.pass p).1.CardOwned) (boot (mount card) radio config) passes := by
  intro h
  have hrun := h some () false {} unmountableRun rfl
  exact absurd hrun.2.1 (by unfold CardOwned; decide +kernel)

/-- In every run from boot the USB screen shows the export at the end of every pass, and every exit pressed on it acts, exactly
when every batch of keys that opens the screen does so on an export. -/
theorem shows_export_iff_exports (storage : Option V) (radio : Bool) (config : WifiConfig) (passes : List (Pass V C)) :
    Mealy.Along pass (fun s p => (s.pass p).1.ShowsExport ∧ s.ExitActs p) (boot storage radio config) passes ↔
      Mealy.Along pass OpensExported (boot storage radio config) passes := by
  have hboot : ShowsExport (boot storage radio config : Firmware V C) :=
    iff_of_false (by decide : ¬ (0 = 7)) Bool.false_ne_true
  refine Mealy.along_iff (fun s => s.AtRest ∧ s.ShowsExport) (fun s p h => ?_)
    ⟨atRest_boot storage radio config, hboot⟩ passes
  have hiff := shows_pass p h.1 h.2
  exact ⟨hiff, fun ho => ⟨atRest_pass p h.1, (hiff.mpr ho).1⟩⟩

/-- The screen that a failed export has left open stays open: no key, and nothing that the radio, the card or the host do in
any later pass, closes it. -/
theorem stuck_on_usb_screen (storage : Option V) (radio : Bool) (config : WifiConfig) (passes later : List (Pass V C))
    (h7 : (Mealy.final pass (boot storage radio config) passes).viewState = 7)
    (hsd : (Mealy.final pass (boot storage radio config) passes).usbSd = none) :
    (Mealy.final pass (boot storage radio config) (passes ++ later)).viewState = 7 := by
  rw [Mealy.final_append]
  have hrest := Mealy.invariant_of_forall AtRest (fun _ p h => atRest_pass p h) (atRest_boot storage radio config) passes
  exact (Mealy.invariant_of_forall (fun s : Firmware V C => s.AtRest ∧ s.viewState = 7 ∧ s.usbSd = none)
    (fun s p h => ⟨atRest_pass p h.1, stuck_pass p h.1 h.2.1 h.2.2⟩) ⟨hrest, h7, hsd⟩ later).2.1

/-- Open the USB screen and take it back in the same batch of keys, then try to leave it. -/
def overwrittenExportRun : List (Pass Unit Unit) :=
  [{ keysPass [.arrow .down, .arrow .down, .enter, .backspace] none with attach := true }, keysPass [.escape] none]

/-- The USB screen does not always show an export, nor does an exit always act on it: an exit in the batch that opens the screen
takes the place of the export, so the screen is open, the volume keeps its card, and an exit does nothing. -/
theorem not_always_shows_export :
    ¬ ∀ (storage : Option Unit) (radio : Bool) (config : WifiConfig) (passes : List (Pass Unit Unit)),
      Mealy.Along pass (fun s p => (s.pass p).1.ShowsExport ∧ s.ExitActs p) (boot storage radio config) passes := by
  intro h
  have hrun := h (some ()) false {} overwrittenExportRun
  exact absurd hrun.1.1 (by unfold ShowsExport; decide +kernel)

end Firmware

end Ratputer
