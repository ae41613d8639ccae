import Ratputer.Theorems.MainLoop

/-!
# The USB screen and the card behind it

`custody` is what decides who has the card and how it can come back. Keys, the browser, the radio and the SSH server leave it
alone; only the USB command moves the card. View 7 is left by the USB command and by the password editor of the radio only, and
every key that opens it leaves a command waiting.
-/

namespace Ratputer

variable {V C : Type}

namespace Firmware

/-- The mounted volume, the exported card, and whether the next exit is forced. -/
def custody (s : Firmware V C) : Option V × Option C × Bool := (s.storage, s.usbSd, s.usbForceExitArmed)

/-- An SSH server that is not running holds no open files. -/
def SftpClosed (s : Firmware V C) : Prop :=
  ∀ server ∈ s.sshServer, server.active = false → server.holdsSd = false

/-! ## Keys -/

/-- What keys keep of the card and of the USB screen: they never leave the screen, and opening it leaves a command waiting. -/
structure KeepsScreen (s s' : Firmware V C) : Prop where
  custody : s'.custody = s.custody
  server : s'.sshServer = s.sshServer
  busy : s'.inputBusy = s.inputBusy
  stays : s.viewState = 7 → s'.viewState = 7 ∧ s'.ui.wifiAction = s.ui.wifiAction ∧
    (s'.ui.usbDiskAction = s.ui.usbDiskAction ∨ s'.ui.usbDiskAction = 2)
  opens : s.viewState ≠ 7 → s'.viewState = 7 →
    s.inputBusy = false ∧ (s'.ui.usbDiskAction = 1 ∨ s'.ui.usbDiskAction = 2)

namespace KeepsScreen

/-- A step that leaves the view and the commands alone. -/
theorem of_same {s s' : Firmware V C} (hc : s'.custody = s.custody) (hs : s'.sshServer = s.sshServer)
    (hb : s'.inputBusy = s.inputBusy) (hv : s'.viewState = s.viewState) (hw : s'.ui.wifiAction = s.ui.wifiAction)
    (hu : s'.ui.usbDiskAction = s.ui.usbDiskAction) : KeepsScreen s s' :=
  ⟨hc, hs, hb, fun h => ⟨hv.trans h, hw, Or.inl hu⟩, fun h h' => absurd (hv.symm.trans h') h⟩

theorem refl (s : Firmware V C) : KeepsScreen s s := of_same rfl rfl rfl rfl rfl rfl

/-- Two steps that keep the card and the USB screen, one after the other. -/
theorem trans {s s' s'' : Firmware V C} (h : KeepsScreen s s') (h' : KeepsScreen s' s'') : KeepsScreen s s'' := by
  refine ⟨h'.custody.trans h.custody, h'.server.trans h.server, h'.busy.trans h.busy, fun hv => ?_, fun hv hv'' => ?_⟩
  · obtain ⟨h1, h2, h3⟩ := h.stays hv
    obtain ⟨h4, h5, h6⟩ := h'.stays h1
    refine ⟨h4, h5.trans h2, ?_⟩
    rcases h6 with h6 | h6
    · rw [h6]
      exact h3
    · exact Or.inr h6
  · by_cases hv' : s'.viewState = 7
    · obtain ⟨hb, ha⟩ := h.opens hv hv'
      refine ⟨hb, ?_⟩
      rcases (h'.stays hv').2.2 with h6 | h6
      · rw [h6]
        exact ha
      · exact Or.inr h6
    · obtain ⟨hb, ha⟩ := h'.opens hv' hv''
      exact ⟨h.busy.symm.trans hb, ha⟩

end KeepsScreen

/-- The key handler keeps the USB screen open and enters it with the export command. -/
theorem keyPressed_screen (ui : MainWindow) (key : UiKey) :
    (ui.viewState = 7 → (ui.keyPressed key).viewState = 7 ∧ (ui.keyPressed key).wifiAction = ui.wifiAction ∧
      ((ui.keyPressed key).usbDiskAction = ui.usbDiskAction ∨ (ui.keyPressed key).usbDiskAction = 2)) ∧
    (ui.viewState ≠ 7 → (ui.keyPressed key).viewState = 7 → (ui.keyPressed key).usbDiskAction = 1) := by
  have hmove : ∀ step, (ui.move step).viewState = ui.viewState ∧ (ui.move step).wifiAction = ui.wifiAction ∧
      (ui.move step).usbDiskAction = ui.usbDiskAction := by
    intro step
    unfold MainWindow.move
    split_ifs <;> exact ⟨rfl, rfl, rfl⟩
  have hmoved : ∀ step, (ui.viewState = 7 → (ui.move step).viewState = 7 ∧ (ui.move step).wifiAction = ui.wifiAction ∧
      ((ui.move step).usbDiskAction = ui.usbDiskAction ∨ (ui.move step).usbDiskAction = 2)) ∧
      (ui.viewState ≠ 7 → (ui.move step).viewState = 7 → (ui.move step).usbDiskAction = 1) := by
    intro step
    obtain ⟨h1, h2, h3⟩ := hmove step
    exact ⟨fun hv => ⟨h1.trans hv, h2, Or.inl h3⟩, fun hv hv' => absurd (h1.symm.trans hv') hv⟩
  cases key with
  | back =>
    show _ ∧ (_ → ui.keyBack.viewState = 7 → _)
    unfold MainWindow.keyPressed MainWindow.keyBack
    dsimp only
    constructor <;> intro hv <;> split_ifs <;> simp_all
  | backspace => exact ⟨fun hv => ⟨hv, rfl, Or.inl rfl⟩, fun hv hv' => absurd hv' hv⟩
  | enter | space =>
    have hm : MainWindow.menuView ui.menuIndex ≠ 7 := by
      unfold MainWindow.menuView
      split_ifs <;> decide
    unfold MainWindow.keyPressed MainWindow.keyEnter
    dsimp only
    constructor <;> intro hv <;> split_ifs <;> simp_all
  | down | right => exact hmoved fun _ => 1
  | up | left => exact hmoved fun length => length - 1
  | delete =>
    unfold MainWindow.keyPressed
    dsimp only
    constructor <;> intro hv <;> split_ifs <;> simp_all
  | tab =>
    unfold MainWindow.keyPressed
    dsimp only
    split_ifs with h8
    · exact ⟨fun hv => absurd (h8.symm.trans hv) (by decide), fun _ h9 => absurd h9 (by simp)⟩
    · exact hmoved fun _ => 1

/-- A key of the menus, while no command waits. -/
theorem screen_keyPressed {s : Firmware V C} (hb : s.inputBusy = false) (key : UiKey) :
    KeepsScreen s (s.keyPressed key) := by
  obtain ⟨h1, h2⟩ := keyPressed_screen s.ui key
  exact ⟨rfl, rfl, rfl, h1, fun hv hv' => ⟨hb, Or.inl (h2 hv hv')⟩⟩

/-- A password for a network. -/
theorem screen_setPassword (s : Firmware V C) (password : String) : KeepsScreen s (s.setPassword password) :=
  .of_same rfl rfl rfl rfl rfl rfl

/-- A password for the server. -/
theorem screen_setSshPassword (s : Firmware V C) (password : String) : KeepsScreen s (s.setSshPassword password) :=
  .of_same rfl rfl rfl rfl rfl rfl

/-- The browser's keys lead from its views to its views or the menu. -/
theorem screen_browserKey {s : Firmware V C} (hv : FileManager.IsView s.viewState) (key : FmKey) (F : FatAnswers) :
    KeepsScreen s (s.browserKey key F).1 := by
  unfold browserKey
  split
  · rename_i fm _ _ _
    have hview := fm.key_view key hv F
    refine ⟨rfl, rfl, rfl, fun h => ?_, fun _ h => ?_⟩
    · unfold FileManager.IsView at hv
      omega
    · have h : (fm.key key s.viewState F).2 = 7 := h
      unfold FileManager.IsView at hview
      omega
  · exact .refl s

/-- A key of the debug console, while no command waits. -/
theorem screen_applyDebugKey {s : Firmware V C} (hb : s.inputBusy = false) (key : DebugKey) :
    KeepsScreen s (s.applyDebugKey key) := by
  unfold applyDebugKey
  split_ifs
  · exact screen_setPassword s _
  · exact screen_setSshPassword s _
  · exact screen_keyPressed hb _

/-- What the debug console does in a pass. -/
theorem screen_console (s : Firmware V C) (p : Pass V C) : KeepsScreen s (s.console p).1 := by
  unfold console
  split
  · exact .refl s
  · rename_i key F _
    unfold consoleKey
    split_ifs with hb _ _ hv
    · exact .refl s
    · exact .refl s
    · exact .refl s
    · exact screen_browserKey hv _ F
    · exact screen_applyDebugKey (Bool.eq_false_iff.mpr hb) key
  · unfold consoleText appendDebugText
    split_ifs <;> exact .of_same rfl rfl rfl rfl rfl rfl
  · unfold consoleClear
    split_ifs <;> exact .of_same rfl rfl rfl rfl rfl rfl
  · exact .refl s

/-- A key of the keyboard on one of the screens. -/
theorem screen_screenKey {s : Firmware V C} (hb : s.inputBusy = false) (i : KeyInput) :
    KeepsScreen s (s.screenKey i) := by
  have hkey := fun key => screen_keyPressed hb key
  cases i with
  | char c =>
    unfold screenKey characterKey
    dsimp only
    split_ifs
    all_goals first | exact .refl s | exact hkey _ | exact screen_setPassword s _ | exact screen_setSshPassword s _
  | backspace =>
    unfold screenKey
    dsimp only
    split_ifs
    · exact screen_setPassword s _
    · exact screen_setSshPassword s _
    · exact hkey _
  | modifier => exact .refl s
  | enter => exact hkey .enter
  | escape => exact hkey .back
  | delete => exact hkey .delete
  | tab => exact hkey .tab
  | arrow a =>
    cases a with
    | up => exact hkey .up
    | down => exact hkey .down
    | left => exact hkey .left
    | right => exact hkey .right

/-- A key of the keyboard, or a line for the browser. -/
theorem screen_input (s : Firmware V C) (i : KeyInput) (F : FatAnswers) : KeepsScreen s (s.input i F).1 := by
  unfold input
  split_ifs with hb hv
  · exact .refl s
  · split
    · exact screen_browserKey hv _ F
    · exact .refl s
  · exact screen_screenKey (Bool.eq_false_iff.mpr hb) i

/-- A whole batch of keys, by induction on the batch. -/
theorem screen_keyboard (s : Firmware V C) (inputs : List (KeyInput × FatAnswers)) :
    KeepsScreen s (s.keyboard inputs).1 := by
  induction inputs generalizing s with
  | nil => exact .refl s
  | cons input rest ih => exact (s.screen_input input.1 input.2).trans (ih _)

/-- All keys of a pass. -/
theorem screen_handleInput (s : Firmware V C) (p : Pass V C) : KeepsScreen (s.splash p) (s.handleInput p).1 :=
  ((s.splash p).screen_console p).trans (screen_keyboard _ p.inputs)

/-! ## The browser and the radio -/

/-- The browser's stage keeps the card and the screens other than its own. -/
theorem browser_screen (s : Firmware V C) (p : Pass V C) :
    (s.browser p).1.custody = s.custody ∧ (s.browser p).1.sshServer = s.sshServer ∧
      (s.browser p).1.ui.usbDiskAction = s.ui.usbDiskAction ∧ (s.browser p).1.ui.wifiAction = s.ui.wifiAction ∧
      ((s.browser p).1.viewState = 7 ↔ s.viewState = 7) ∧ (s.browser p).1.radioPending = s.radioPending ∧
      (s.browser p).1.autoJob = s.autoJob ∧ (s.browser p).1.scanNetworks = s.scanNetworks ∧
      (s.browser p).1.ui.wifiActionIndex = s.ui.wifiActionIndex := by
  unfold browser
  dsimp only
  split_ifs with hv hfm hst
  · split <;> exact ⟨rfl, rfl, rfl, rfl, Iff.rfl, rfl, rfl, rfl, rfl⟩
  · have h7 : (0 = 7) ↔ s.viewState = 7 := by
      unfold FileManager.IsView at hv
      omega
    split <;> exact ⟨rfl, rfl, rfl, rfl, h7, rfl, rfl, rfl, rfl⟩
  · split <;> exact ⟨rfl, rfl, rfl, rfl, Iff.rfl, rfl, rfl, rfl, rfl⟩
  · split <;> exact ⟨rfl, rfl, rfl, rfl, Iff.rfl, rfl, rfl, rfl, rfl⟩

/-- What the radio's part of a pass keeps: the card, the SSH server and its password editor. -/
structure KeepsServer (s s' : Firmware V C) : Prop where
  custody : s'.custody = s.custody
  server : s'.sshServer = s.sshServer
  password : s'.ui.sshPassword = s.ui.sshPassword

/-- Two parts of the radio's work, one after the other. -/
theorem KeepsServer.trans {s s' s'' : Firmware V C} (h : KeepsServer s s') (h' : KeepsServer s' s'') : KeepsServer s s'' :=
  ⟨h'.custody.trans h.custody, h'.server.trans h.server, h'.password.trans h.password⟩

/-- A step of a pending scan or connection. -/
theorem radioStep_server (s : Firmware V C) (p : Pass V C) : KeepsServer s (s.radioStep p) := by
  unfold radioStep
  split
  · exact ⟨rfl, rfl, rfl⟩
  · split_ifs
    · exact ⟨rfl, rfl, rfl⟩
    · split <;> exact ⟨rfl, rfl, rfl⟩
    · split <;> exact ⟨rfl, rfl, rfl⟩
  · split_ifs
    · exact ⟨rfl, rfl, rfl⟩
    · refine ⟨rfl, rfl, ?_⟩
      unfold connected
      dsimp only
      split_ifs <;> rfl
    · exact ⟨rfl, rfl, rfl⟩
    · exact ⟨rfl, rfl, rfl⟩

/-- The poll of an automatic connection. -/
theorem pollAutoJob_server (s : Firmware V C) (p : Pass V C) : KeepsServer s (s.pollAutoJob p) := by
  unfold pollAutoJob retrySavedNetwork
  split
  · exact ⟨rfl, rfl, rfl⟩
  · dsimp only
    split_ifs <;> exact ⟨rfl, rfl, rfl⟩
  · exact ⟨rfl, rfl, rfl⟩

/-- The start of a connection. -/
theorem beginConnect_server (s : Firmware V C) (p : Pass V C) (network : SavedNetwork) :
    KeepsServer s (s.beginConnect p network) := by
  unfold beginConnect
  split_ifs <;> exact ⟨rfl, rfl, rfl⟩

/-- Each command of the network screens. -/
theorem runWifiAction_server (s : Firmware V C) (p : Pass V C) (action : Nat) :
    KeepsServer s (s.runWifiAction p action) := by
  unfold runWifiAction
  split_ifs
  · exact ⟨rfl, rfl, rfl⟩
  · exact ⟨rfl, rfl, rfl⟩
  · split
    · exact beginConnect_server s p _
    · exact ⟨rfl, rfl, rfl⟩
  · unfold selectScanned
    split
    · exact ⟨rfl, rfl, rfl⟩
    · split_ifs
      · exact ⟨rfl, rfl, rfl⟩
      · exact beginConnect_server s p _
      · exact ⟨rfl, rfl, rfl⟩
  · split
    · exact beginConnect_server s p _
    · exact ⟨rfl, rfl, rfl⟩
  · dsimp only
    split <;> exact ⟨rfl, rfl, rfl⟩
  · exact ⟨rfl, rfl, rfl⟩

/-- The command that waits on them. -/
theorem wifiAction_server (s : Firmware V C) (p : Pass V C) : KeepsServer s (s.wifiAction p) := by
  unfold wifiAction
  dsimp only
  split_ifs
  · exact ⟨rfl, rfl, rfl⟩
  · exact ⟨rfl, rfl, rfl⟩
  · exact ⟨rfl, rfl, rfl⟩
  · have hquiet : KeepsServer s { s with
        autoConnectAt := none, ui := { s.ui with wifiConnecting := false, wifiAction := 0 } } := ⟨rfl, rfl, rfl⟩
    exact hquiet.trans (runWifiAction_server _ p _)

/-- The start of an automatic connection. -/
theorem autoConnect_server (s : Firmware V C) (p : Pass V C) (action : Nat) : KeepsServer s (s.autoConnect p action) := by
  unfold autoConnect
  split_ifs
  · split <;> exact ⟨rfl, rfl, rfl⟩
  · split <;> exact ⟨rfl, rfl, rfl⟩
  · exact ⟨rfl, rfl, rfl⟩

/-- The radio's part of a pass keeps the card, the server and its editor. -/
theorem radio_server (s : Firmware V C) (p : Pass V C) : KeepsServer s (s.radio p) :=
  (((radioStep_server s p).trans (pollAutoJob_server _ p)).trans (wifiAction_server _ p)).trans
    (autoConnect_server _ p _)

/-! ## SSH -/

/-- Starting and stopping the server keep the card and the user interface; a stopped one holds nothing. -/
theorem startSsh_custody {s : Firmware V C} (h : s.SftpClosed) :
    s.startSsh.custody = s.custody ∧ s.startSsh.ui = s.ui ∧ s.startSsh.SftpClosed := by
  unfold startSsh
  split_ifs
  · exact ⟨rfl, rfl, h⟩
  · refine ⟨rfl, rfl, fun server hs ha => ?_⟩
    obtain ⟨server', -, rfl⟩ := Option.map_eq_some_iff.mp hs
    exact absurd ha (by simp)

/-- A server that is stopped holds neither files nor the card. -/
theorem stopSsh_closed {s : Firmware V C} (h : s.SftpClosed) :
    s.stopSsh.SftpClosed ∧ s.stopSsh.sshServer.any (·.holdsSd) = false := by
  unfold SftpClosed at h ⊢
  unfold stopSsh
  rcases hs : s.sshServer with _ | server
  · exact ⟨nofun, rfl⟩
  · rcases ha : server.active with _ | _
    · have hh := h server hs ha
      simp [ha, hh]
    · simp [ha]

/-- Leaving the SSH screen keeps the card, and on the USB screen no server holds it. -/
theorem leaveSsh_closed {s : Firmware V C} (h : s.SftpClosed) :
    s.leaveSsh.SftpClosed ∧ s.leaveSsh.custody = s.custody ∧
      (s.viewState = 7 → s.leaveSsh.sshServer.any (·.holdsSd) = false) := by
  unfold leaveSsh
  split_ifs with hv
  · exact ⟨(stopSsh_closed h).1, rfl, fun _ => (stopSsh_closed h).2⟩
  · exact ⟨h, rfl, fun h7 => absurd (by omega) hv⟩

/-- The stages after the USB command keep the card and the USB screen. -/
theorem sshAction_custody {s : Firmware V C} (p : Pass V C) (h : s.SftpClosed) :
    (s.sshAction p).custody = s.custody ∧ (s.sshAction p).SftpClosed ∧
      ((s.sshAction p).viewState = s.viewState ∨ 4 ≤ s.ui.sshAction ∧ (s.sshAction p).viewState = 8) := by
  have hview : ∀ s : Firmware V C, s.SftpClosed → s.startSsh.viewState = s.viewState := by
    intro s hs
    unfold viewState
    rw [(startSsh_custody hs).2.1]
  have hstart : ∀ s : Firmware V C, s.SftpClosed → s.startSsh.custody = s.custody ∧ s.startSsh.SftpClosed :=
    fun s hs => ⟨(startSsh_custody hs).1, (startSsh_custody hs).2.2⟩
  unfold sshAction
  dsimp only
  split_ifs with h1 h2 h3 h4 h5
  · obtain ⟨hc, hs⟩ := hstart { s with ui := { s.ui with sshAction := 0 } } h
    exact ⟨hc, hs, Or.inl (hview { s with ui := { s.ui with sshAction := 0 } } h)⟩
  · exact ⟨rfl, (stopSsh_closed (s := { s with ui := { s.ui with sshAction := 0 } }) h).1, Or.inl rfl⟩
  · exact ⟨rfl, (stopSsh_closed (s := { s with ui := { s.ui with sshAction := 0 } }) h).1, Or.inl rfl⟩
  · unfold saveSshPassword
    dsimp only
    split_ifs
    · exact ⟨rfl, h, Or.inl rfl⟩
    · exact ⟨rfl, h, Or.inl rfl⟩
    · exact ⟨rfl, h, Or.inl rfl⟩
    · obtain ⟨hc, hs⟩ := hstart (setViewState { s with
        ui := { s.ui with sshAction := 0 }
        wifiConfig := { s.wifiConfig with server := { s.wifiConfig.server with password := s.ui.sshPassword } } } 8) h
      exact ⟨hc, hs, Or.inr ⟨by omega, hview (setViewState _ 8) h⟩⟩
  · obtain ⟨hc, hs⟩ := hstart (setViewState { s with ui := { s.ui with sshAction := 0 } } 8) h
    exact ⟨hc, hs, Or.inr ⟨by omega, hview (setViewState _ 8) h⟩⟩
  · exact ⟨rfl, h, Or.inl rfl⟩

/-- The poll of the network keeps the card, the server and the user interface. -/
theorem networkPoll_custody (s : Firmware V C) (p : Pass V C) :
    (s.networkPoll p).custody = s.custody ∧ (s.networkPoll p).sshServer = s.sshServer ∧
      (s.networkPoll p).ui = s.ui := by
  unfold networkPoll
  dsimp only
  split_ifs <;> exact ⟨rfl, rfl, rfl⟩

/-- The poll of the server keeps the card and the user interface. -/
theorem sshPoll_custody {s : Firmware V C} (p : Pass V C) (h : s.SftpClosed) :
    (s.sshPoll p).1.custody = s.custody ∧ (s.sshPoll p).1.SftpClosed ∧ (s.sshPoll p).1.ui = s.ui := by
  unfold sshPoll
  rcases hs : s.sshServer with _ | server
  · exact ⟨rfl, h, rfl⟩
  · dsimp only
    split_ifs with hn ha
    · refine ⟨rfl, fun server' hs' ha' => ?_, rfl⟩
      obtain rfl := Option.some.inj hs'
      exact absurd (ha.symm.trans ha') (by decide)
    · refine ⟨rfl, fun server' hs' ha' => ?_, rfl⟩
      obtain rfl := Option.some.inj hs'
      exact h server hs ha'
    · exact ⟨rfl, h, rfl⟩

end Firmware

end Ratputer
