import Ratputer.MainLoop

/-!
# What each stage of a pass keeps

`Owners` are the parts of the state that decide who may use the card. Keys and the radio leave them alone; the other stages
change one owner each. `Pending` relates the commands of the user interface, which Rust handles late in the pass, to the view
that the key handler left open.
-/

namespace Ratputer

/-- Which components hold or could take the card. -/
structure Owners where
  fileManager : Bool
  sshActive : Bool
  usbSd : Bool
  storage : Bool
  network : Bool
  server : Bool
  deriving Repr, DecidableEq

/-- At most one component holds the card, and holders have what they need: USB has taken it out of the volume, a running SSH
server was started with a volume and a network. -/
structure Owners.Single (o : Owners) : Prop where
  browser_ssh : o.fileManager = true → o.sshActive = false
  browser_usb : o.fileManager = true → o.usbSd = false
  usb_ssh : o.usbSd = true → o.sshActive = false
  usb_storage : o.usbSd = true → o.storage = false
  ssh_storage : o.sshActive = true → o.storage = true
  ssh_network : o.sshActive = true → o.network = true
  network_server : o.network = o.server

/-- Commands wait only on the view that set them; a Wi-Fi command and the SSH screen meet only with a start pending. -/
structure MainWindow.Pending (ui : MainWindow) : Prop where
  usb : ui.usbDiskAction ≠ 0 → ui.viewState = 7
  start : ui.sshAction = 1 → ui.viewState = 8
  editor : 3 ≤ ui.sshAction → ui.viewState = 9
  wifi : ui.viewState = 8 → ui.sshAction = 1 ∨ ui.wifiAction = 0

namespace MainWindow

variable {ui : MainWindow}

/-- Back leaves no command pending off its view. -/
theorem pending_keyBack (h : ui.Pending) : ui.keyBack.Pending := by
  obtain ⟨h1, h2, h3, h4⟩ := h
  unfold keyBack
  split_ifs <;> first | exact ⟨h1, h2, h3, h4⟩ | (constructor <;> dsimp only <;> omega)

/-- Enter leaves a command pending on its view only. -/
theorem pending_keyEnter (h : ui.Pending) : ui.keyEnter.Pending := by
  obtain ⟨h1, h2, h3, h4⟩ := h
  have hm : menuView ui.menuIndex ≠ 8 := by
    unfold menuView
    split_ifs <;> decide
  unfold keyEnter
  split_ifs <;> first | exact ⟨h1, h2, h3, h4⟩ | (constructor <;> dsimp only <;> omega)

/-- Moving in a menu gives no command. -/
theorem pending_move (h : ui.Pending) (step : Nat → Nat) : (ui.move step).Pending := by
  obtain ⟨h1, h2, h3, h4⟩ := h
  unfold move
  split_ifs <;> exact ⟨h1, h2, h3, h4⟩

/-- No key leaves a command pending off its view. -/
theorem pending_keyPressed (h : ui.Pending) (key : UiKey) : (ui.keyPressed key).Pending := by
  cases key with
  | back => exact pending_keyBack h
  | backspace => exact h
  | enter | space => exact pending_keyEnter h
  | down | right => exact pending_move h fun _ => 1
  | up | left => exact pending_move h fun length => length - 1
  | delete =>
    obtain ⟨h1, h2, h3, h4⟩ := h
    unfold keyPressed
    simp only
    split_ifs <;> first | exact ⟨h1, h2, h3, h4⟩ | (constructor <;> dsimp only <;> omega)
  | tab =>
    unfold keyPressed
    simp only
    split_ifs with hv
    · obtain ⟨h1, h2, h3, h4⟩ := h
      constructor <;> dsimp only <;> omega
    · exact pending_move h fun _ => 1

end MainWindow

namespace FileManager

/-- The browser's views are four. -/
theorem isView_iff {view : Nat} : IsView view ↔ view = 10 ∨ view = 11 ∨ view = 12 ∨ view = 13 := by
  unfold IsView
  omega

/-- A key leads to another of the browser's views, or back to the menu. -/
theorem key_view (fm : FileManager) (k : FmKey) {view : Nat} (hv : IsView view) (F : FatAnswers) :
    (fm.key k view F).2 = 0 ∨ IsView (fm.key k view F).2 := by
  have hprompt : ∀ view, IsView view → IsView (fm.deletePrompt view).2 := by
    intro view hv
    unfold deletePrompt
    split
    · exact (by decide : IsView 13)
    · exact hv
  unfold key
  split
  · exact Or.inr hv
  · rcases isView_iff.mp hv with rfl | rfl | rfl | rfl
    · cases k with
      | delete => exact Or.inr (hprompt 10 (by decide))
      | enter =>
        refine Or.inr ?_
        simp only [keyBrowse]
        split
        · split <;> exact (by decide : IsView 10)
        · exact (by decide : IsView 10)
      | back | backspace =>
        simp only [keyBrowse]
        split
        · exact Or.inl rfl
        · exact Or.inr (by decide : IsView 10)
      | tab => exact Or.inr (by decide : IsView 11)
      | up | down | left | right | char => exact Or.inr (by decide : IsView 10)
    · refine Or.inr ?_
      cases k with
      | enter =>
        show IsView (fm.applyAction F).2
        unfold applyAction
        split
        · split <;> exact (by decide : IsView 10)
        · split <;> exact (by decide : IsView 10)
        · exact (by decide : IsView 10)
        · split
          · exact (by decide : IsView 12)
          · exact (by decide : IsView 10)
        · exact (by decide : IsView 12)
        · exact (by decide : IsView 12)
        · exact hprompt 10 (by decide)
        · exact (by decide : IsView 10)
      | back | backspace => exact (by decide : IsView 10)
      | up | down | left | right | tab | delete | char => exact (by decide : IsView 11)
    · refine Or.inr ?_
      cases k with
      | enter =>
        show IsView (fm.submitName F).2
        unfold submitName
        split
        · exact (by decide : IsView 10)
        · exact (by decide : IsView 12)
      | back => exact (by decide : IsView 10)
      | up | down | left | right | tab | delete | char | backspace => exact (by decide : IsView 12)
    · refine Or.inr ?_
      cases k with
      | enter | back | backspace => exact (by decide : IsView 10)
      | up | down | left | right | tab | delete | char => exact (by decide : IsView 13)

end FileManager

variable {V C : Type}

namespace Touch

/-- The owners that a touch has recorded. -/
def ByOwners (t : Touch) (o : Owners) : Prop :=
  t.fileManager = o.fileManager ∧ t.sshActive = o.sshActive ∧ t.usbSd = o.usbSd

/-- At most one of the three components holds the card. -/
def Exclusive (t : Touch) : Prop :=
  ¬ (t.fileManager = true ∧ t.sshActive = true) ∧ ¬ (t.fileManager = true ∧ t.usbSd = true) ∧
    ¬ (t.sshActive = true ∧ t.usbSd = true)

/-- The SSH server is polled as active on its own screen only. -/
def OnScreen (t : Touch) : Prop := t.component = .sshServer → t.sshActive = true → t.viewState = 8

/-- A touch under owners that share nothing is exclusive. -/
theorem ByOwners.exclusive {t : Touch} {o : Owners} (ht : t.ByOwners o) (ho : o.Single) : t.Exclusive := by
  obtain ⟨h1, h2, h3⟩ := ht
  unfold Exclusive
  rw [h1, h2, h3]
  refine ⟨fun h => ?_, fun h => ?_, fun h => ?_⟩
  · exact Bool.false_ne_true ((ho.browser_ssh h.1).symm.trans h.2)
  · exact Bool.false_ne_true ((ho.browser_usb h.1).symm.trans h.2)
  · exact Bool.false_ne_true ((ho.usb_ssh h.2).symm.trans h.1)

end Touch

namespace Firmware

def owners (s : Firmware V C) : Owners :=
  { fileManager := s.fileManager.isSome
    sshActive := s.sshActive
    usbSd := s.usbSd.isSome
    storage := s.storage.isSome
    network := s.network
    server := s.sshServer.isSome }

/-- A touch says who owns what. -/
theorem touch_byOwners (s : Firmware V C) (c : Component) : (s.touch c).ByOwners s.owners := ⟨rfl, rfl, rfl⟩

/-! ## Keys -/

/-- What handling keys keeps: the owners, the radio, and commands that wait on their view only; it touches the card through
the browser alone. -/
structure KeepsOwners (s : Firmware V C) (r : Firmware V C × List Touch) : Prop where
  owners : r.1.owners = s.owners
  radioPending : r.1.radioPending = s.radioPending
  splashDone : r.1.splashDone = s.splashDone
  pending : s.ui.Pending → r.1.ui.Pending
  busy : s.inputBusy = true → r.1.ui.sshAction = s.ui.sshAction
  touches : ∀ t ∈ r.2, t.component = .fileManager ∧ t.ByOwners s.owners

namespace KeepsOwners

theorem refl (s : Firmware V C) : KeepsOwners s (s, []) := ⟨rfl, rfl, rfl, id, fun _ => rfl, nofun⟩

/-- Two rounds of keys, one after the other. -/
theorem trans {s : Firmware V C} {r r' : Firmware V C × List Touch} (h : KeepsOwners s r) (h' : KeepsOwners r.1 r') :
    KeepsOwners s (r'.1, r.2 ++ r'.2) := by
  have hb : r.1.inputBusy = s.inputBusy := by
    unfold inputBusy
    rw [h.radioPending, h.splashDone]
  refine ⟨h'.owners.trans h.owners, h'.radioPending.trans h.radioPending, h'.splashDone.trans h.splashDone,
    fun hp => h'.pending (h.pending hp), fun hs => (h'.busy (hb.trans hs)).trans (h.busy hs), fun t ht => ?_⟩
  rcases List.mem_append.mp ht with ht | ht
  · exact h.touches t ht
  · obtain ⟨hc, ho⟩ := h'.touches t ht
    exact ⟨hc, h.owners ▸ ho⟩

/-- A key that changes the user interface only, while input is accepted. -/
theorem of_ui {s : Firmware V C} (hb : s.inputBusy = false) {ui : MainWindow} (hp : s.ui.Pending → ui.Pending) :
    KeepsOwners s ({ s with ui }, []) :=
  ⟨rfl, rfl, rfl, hp, fun h => absurd (hb.symm.trans h) Bool.false_ne_true, nofun⟩

end KeepsOwners

/-- A password being typed leaves the views and the commands alone. -/
theorem keeps_setPassword (s : Firmware V C) (password : String) : KeepsOwners s (s.setPassword password, []) :=
  ⟨rfl, rfl, rfl, fun h => ⟨h.usb, h.start, h.editor, h.wifi⟩, fun _ => rfl, nofun⟩

/-- A password for the server changes no owner. -/
theorem keeps_setSshPassword (s : Firmware V C) (password : String) :
    KeepsOwners s (s.setSshPassword password, []) :=
  ⟨rfl, rfl, rfl, fun h => ⟨h.usb, h.start, h.editor, h.wifi⟩, fun _ => rfl, nofun⟩

/-- A key of the menus changes no owner. -/
theorem keeps_keyPressed {s : Firmware V C} (hb : s.inputBusy = false) (key : UiKey) :
    KeepsOwners s (s.keyPressed key, []) :=
  .of_ui hb fun h => MainWindow.pending_keyPressed h key

/-- The browser's keys lead to its own views or the menu, where no command waits. -/
theorem keeps_browserKey {s : Firmware V C} (hb : s.inputBusy = false) (hv : FileManager.IsView s.viewState)
    (key : FmKey) (F : FatAnswers) : KeepsOwners s (s.browserKey key F) := by
  unfold browserKey
  split
  · rename_i fm _ hfm hst
    have hview := fm.key_view key hv F
    refine ⟨by simp only [Firmware.owners, setViewState, sshActive, hfm, Option.isSome_some], rfl, rfl, fun h => ?_,
      fun h => absurd (hb.symm.trans h) Bool.false_ne_true, fun t ht => ?_⟩
    · obtain ⟨h1, h2, h3, h4⟩ := h
      unfold FileManager.IsView at hv hview
      unfold viewState at hv hview
      constructor <;> dsimp only [setViewState, viewState] <;> omega
    · obtain rfl := List.mem_singleton.mp ht
      exact ⟨rfl, s.touch_byOwners _⟩
  · exact .refl s

/-- A key of the debug console changes no owner. -/
theorem keeps_applyDebugKey {s : Firmware V C} (hb : s.inputBusy = false) (key : DebugKey) :
    KeepsOwners s (s.applyDebugKey key, []) := by
  unfold applyDebugKey
  split_ifs
  · exact keeps_setPassword s _
  · exact keeps_setSshPassword s _
  · exact keeps_keyPressed hb _

/-- Text of the console changes no owner. -/
theorem keeps_consoleText (s : Firmware V C) (text : String) : KeepsOwners s (s.consoleText text, []) := by
  unfold consoleText
  split_ifs
  · exact .refl s
  · refine ⟨?_, rfl, rfl, id, fun _ => rfl, nofun⟩
    simp only [Firmware.owners, sshActive, Option.isSome_map]
  · unfold appendDebugText
    split_ifs
    · exact .refl s
    · exact keeps_setPassword s _
    · exact keeps_setSshPassword s _
    · exact .refl s
    · exact .refl s

/-- Clearing it changes no owner. -/
theorem keeps_consoleClear (s : Firmware V C) : KeepsOwners s (s.consoleClear, []) := by
  unfold consoleClear
  split_ifs
  · exact keeps_setPassword s _
  · exact keeps_setSshPassword s _
  · refine ⟨?_, rfl, rfl, id, fun _ => rfl, nofun⟩
    simp only [Firmware.owners, sshActive, Option.isSome_map]
  · exact .refl s

/-- What the console does in a pass changes no owner. -/
theorem keeps_console (s : Firmware V C) (p : Pass V C) : KeepsOwners s (s.console p) := by
  unfold console
  split
  · exact .refl s
  · rename_i key F _
    unfold consoleKey
    split_ifs with hb _ _ hv
    · exact .refl s
    · exact .refl s
    · exact .refl s
    · exact keeps_browserKey (Bool.eq_false_iff.mpr hb) hv _ F
    · exact keeps_applyDebugKey (Bool.eq_false_iff.mpr hb) key
  · exact keeps_consoleText s _
  · exact keeps_consoleClear s
  · exact .refl s

/-- A key of the keyboard on a screen changes no owner. -/
theorem keeps_screenKey {s : Firmware V C} (hb : s.inputBusy = false) (i : KeyInput) :
    KeepsOwners s (s.screenKey i, []) := by
  have hkey := fun key => keeps_keyPressed hb key
  cases i with
  | char c =>
    unfold screenKey characterKey
    dsimp only
    split_ifs
    all_goals first | exact .refl s | exact hkey _ | exact keeps_setPassword s _ | exact keeps_setSshPassword s _
  | backspace =>
    unfold screenKey
    dsimp only
    split_ifs
    · exact keeps_setPassword s _
    · exact keeps_setSshPassword s _
    · exact hkey _
  | modifier => exact .refl s
  | enter => exact hkey .enter
  | escape => exact hkey .back
  | delete => exact hkey .delete
  | tab => exact hkey .tab
  | arrow a =>
    cases a with
    | up => exact hkey .up
    | down => exact hkey .down
    | left => exact hkey .left
    | right => exact hkey .right

/-- A key of the keyboard, or a line for the browser. -/
theorem keeps_input (s : Firmware V C) (i : KeyInput) (F : FatAnswers) : KeepsOwners s (s.input i F) := by
  unfold input
  split_ifs with hb hv
  · exact .refl s
  · split
    · exact keeps_browserKey (Bool.eq_false_iff.mpr hb) hv _ F
    · exact .refl s
  · exact keeps_screenKey (Bool.eq_false_iff.mpr hb) i

/-- A whole batch of keys, by induction on the batch. -/
theorem keeps_keyboard (s : Firmware V C) (inputs : List (KeyInput × FatAnswers)) :
    KeepsOwners s (s.keyboard inputs) := by
  induction inputs generalizing s with
  | nil => exact .refl s
  | cons input rest ih => exact (s.keeps_input input.1 input.2).trans (ih _)

/-- All keys of a pass. -/
theorem keeps_handleInput (s : Firmware V C) (p : Pass V C) : KeepsOwners (s.splash p) (s.handleInput p) :=
  ((s.splash p).keeps_console p).trans (keeps_keyboard _ p.inputs)

/-! ## The radio -/

/-- What the radio's part of a pass keeps: the owners and the USB and SSH commands. It opens the Wi-Fi menu or the password
editor, and no other view. -/
structure KeepsCommands (s s' : Firmware V C) : Prop where
  owners : s'.owners = s.owners
  usb : s'.ui.usbDiskAction = s.ui.usbDiskAction
  ssh : s'.ui.sshAction = s.ui.sshAction
  view : s'.viewState = s.viewState ∨ s'.viewState = 2 ∨ s'.viewState = 5

theorem KeepsCommands.refl (s : Firmware V C) : KeepsCommands s s := ⟨rfl, rfl, rfl, Or.inl rfl⟩

/-- Two parts that keep the commands, one after the other. -/
theorem KeepsCommands.trans {s s' s'' : Firmware V C} (h : KeepsCommands s s') (h' : KeepsCommands s' s'') :
    KeepsCommands s s'' := by
  refine ⟨h'.owners.trans h.owners, h'.usb.trans h.usb, h'.ssh.trans h.ssh, ?_⟩
  rcases h'.view with hv | hv
  · rw [hv]
    exact h.view
  · exact Or.inr hv

/-- The start of a connection keeps commands and screen. -/
theorem keeps_beginConnect (s : Firmware V C) (p : Pass V C) (network : SavedNetwork) :
    KeepsCommands s (s.beginConnect p network) ∧ (s.beginConnect p network).viewState = s.viewState := by
  unfold beginConnect
  split_ifs <;> exact ⟨⟨rfl, rfl, rfl, Or.inl rfl⟩, rfl⟩

/-- A radio step keeps a waiting Wi-Fi command, and every view but the password editor. -/
theorem keeps_radioStep (s : Firmware V C) (p : Pass V C) :
    KeepsCommands s (s.radioStep p) ∧ (s.radioStep p).ui.wifiAction = s.ui.wifiAction ∧
      (s.viewState ≠ 5 → (s.radioStep p).viewState = s.viewState) := by
  have hsame : ∀ s' : Firmware V C, s'.owners = s.owners → s'.ui.usbDiskAction = s.ui.usbDiskAction →
      s'.ui.sshAction = s.ui.sshAction → s'.viewState = s.viewState → s'.ui.wifiAction = s.ui.wifiAction →
      KeepsCommands s s' ∧ s'.ui.wifiAction = s.ui.wifiAction ∧ (s.viewState ≠ 5 → s'.viewState = s.viewState) :=
    fun s' h1 h2 h3 h4 h5 => ⟨⟨h1, h2, h3, Or.inl h4⟩, h5, fun _ => h4⟩
  unfold radioStep
  split
  · exact hsame s rfl rfl rfl rfl rfl
  · split_ifs
    · exact hsame _ rfl rfl rfl rfl rfl
    · split <;> exact hsame _ rfl rfl rfl rfl rfl
    · split <;> exact hsame _ rfl rfl rfl rfl rfl
  · split_ifs
    · exact hsame _ rfl rfl rfl rfl rfl
    · by_cases hv : s.ui.viewState = 5
      · refine ⟨⟨rfl, ?_, ?_, Or.inr (Or.inl ?_)⟩, ?_, fun h => absurd hv h⟩ <;>
          simp only [connected, viewState, if_pos hv]
      · refine hsame _ rfl ?_ ?_ ?_ ?_ <;> simp only [connected, viewState, if_neg hv]
    · exact hsame _ rfl rfl rfl rfl rfl
    · exact hsame _ rfl rfl rfl rfl rfl

/-- Polling the automatic connection never touches the user interface or the scan list. -/
theorem pollAutoJob_frame (s : Firmware V C) (p : Pass V C) :
    (s.pollAutoJob p).ui = s.ui ∧ (s.pollAutoJob p).owners = s.owners ∧
      (s.pollAutoJob p).scanNetworks = s.scanNetworks ∧ (s.pollAutoJob p).radioPending = s.radioPending ∧
      ((s.pollAutoJob p).autoJob = none ↔ s.autoJob = none ∨ p.autoFinished ≠ none) := by
  have hretry : ∀ (s : Firmware V C) now, (s.retrySavedNetwork now).ui = s.ui ∧
      (s.retrySavedNetwork now).owners = s.owners ∧ (s.retrySavedNetwork now).scanNetworks = s.scanNetworks ∧
      (s.retrySavedNetwork now).radioPending = s.radioPending ∧
      (s.retrySavedNetwork now).autoJob = s.autoJob := by
    intro s now
    simp only [retrySavedNetwork]
    split_ifs <;> exact ⟨rfl, rfl, rfl, rfl, rfl⟩
  unfold pollAutoJob
  rcases hj : s.autoJob with _ | ssid
  · exact ⟨rfl, rfl, rfl, rfl, by simp [hj]⟩
  · rcases hf : p.autoFinished with _ | _ | _
    · exact ⟨rfl, rfl, rfl, rfl, by simp [hj]⟩
    · obtain ⟨h1, h2, h3, h4, h5⟩ := hretry { s with autoJob := none, wifi := true } p.later
      exact ⟨h1, h2, h3, h4, by simp [h5]⟩
    · exact ⟨rfl, rfl, rfl, rfl, by simp⟩

/-- The protected scan result that a pending choice would ask the password of. -/
def SelectsProtected (s : Firmware V C) : Prop :=
  ∃ network ∈ s.scanNetworks[s.ui.wifiActionIndex]?, network.supported = true ∧ network.auth ≠ .open

/-- Choosing a scan result opens the password editor exactly when the network is protected and supported. -/
theorem selectScanned_view (s : Firmware V C) (p : Pass V C) :
    KeepsCommands s (s.selectScanned p) ∧ (s.selectScanned p).ui.wifiAction = s.ui.wifiAction ∧
      (s.SelectsProtected → (s.selectScanned p).viewState = 5) ∧
      (¬ s.SelectsProtected → (s.selectScanned p).viewState = s.viewState) := by
  unfold selectScanned SelectsProtected
  rcases hn : s.scanNetworks[s.ui.wifiActionIndex]? with _ | network
  · exact ⟨.refl s, rfl, by simp, fun _ => rfl⟩
  · simp only [Option.mem_def, Option.some.injEq, exists_eq_left']
    rcases hs : network.supported with _ | _
    · exact ⟨.refl s, rfl, by simp, fun _ => rfl⟩
    · by_cases ha : network.auth = .open
      · simp only [Bool.not_true, Bool.false_eq_true, if_false, if_pos ha]
        obtain ⟨h1, h2⟩ := s.keeps_beginConnect p ⟨network.ssid, "", network.auth⟩
        refine ⟨h1, ?_, fun h => absurd ha h.2, fun _ => h2⟩
        unfold beginConnect
        split_ifs <;> rfl
      · simp only [Bool.not_true, Bool.false_eq_true, if_false, if_neg ha]
        exact ⟨⟨rfl, rfl, rfl, Or.inr (Or.inr rfl)⟩, trivial, fun _ => rfl, fun h => absurd ⟨trivial, ha⟩ h⟩

/-- Carrying out a Wi-Fi command moves to the password editor for a protected scan result only. -/
theorem runWifiAction_view (s : Firmware V C) (p : Pass V C) (action : Nat) :
    KeepsCommands s (s.runWifiAction p action) ∧
      (s.runWifiAction p action).ui.wifiAction = s.ui.wifiAction ∧
      (action = 3 → s.radioPending = none → s.SelectsProtected → (s.runWifiAction p action).viewState = 5) ∧
      (action ≠ 3 ∨ ¬ s.SelectsProtected → (s.runWifiAction p action).viewState = s.viewState) := by
  have hbegin : ∀ network, KeepsCommands s (s.beginConnect p network) ∧
      (s.beginConnect p network).ui.wifiAction = s.ui.wifiAction ∧
      (s.beginConnect p network).viewState = s.viewState := by
    intro network
    unfold beginConnect
    split_ifs <;> exact ⟨⟨rfl, rfl, rfl, Or.inl rfl⟩, rfl, rfl⟩
  unfold runWifiAction
  split_ifs with h1 hw h2 h3 h4 h5
  · exact ⟨.refl s, rfl, fun h => by omega, fun _ => rfl⟩
  · exact ⟨⟨rfl, rfl, rfl, Or.inl rfl⟩, rfl, fun h => by omega, fun _ => rfl⟩
  · split
    · rename_i network _
      obtain ⟨hk, hw, hv⟩ := hbegin network
      exact ⟨hk, hw, fun h => by omega, fun _ => hv⟩
    · exact ⟨.refl s, rfl, fun h => by omega, fun _ => rfl⟩
  · obtain ⟨hk, hw, hv, hv'⟩ := s.selectScanned_view p
    exact ⟨hk, hw, fun _ _ => hv, fun h => hv' (h.resolve_left (not_not_intro h3.1))⟩
  · split
    · rename_i network _
      obtain ⟨hk, hw, hv⟩ := hbegin ⟨network.ssid, s.ui.wifiPassword, network.auth⟩
      exact ⟨hk, hw, fun h => by omega, fun _ => hv⟩
    · exact ⟨.refl s, rfl, fun h => by omega, fun _ => rfl⟩
  · dsimp only
    split <;> exact ⟨⟨rfl, rfl, rfl, Or.inl rfl⟩, rfl, fun h => by omega, fun _ => rfl⟩
  · exact ⟨.refl s, rfl, fun h hr => absurd ⟨h, hr⟩ h3, fun _ => rfl⟩

/-- A pending Wi-Fi command, which a pass off its own view always consumes. -/
theorem wifiAction_view (s : Firmware V C) (p : Pass V C) :
    KeepsCommands s (s.wifiAction p) ∧
      (s.viewState ∉ [3, 4, 5] → (s.wifiAction p).ui.wifiAction = 0) ∧
      (s.ui.wifiAction = 3 → s.autoJob = none → s.radioPending = none → s.SelectsProtected →
        (s.wifiAction p).viewState = 5) ∧
      (s.ui.wifiAction ≠ 3 ∨ s.autoJob ≠ none ∨ ¬ s.SelectsProtected →
        (s.wifiAction p).viewState = s.viewState) := by
  unfold wifiAction
  dsimp only
  split_ifs with h0 hj hw
  · exact ⟨.refl s, fun _ => h0, fun h => absurd h0 (by omega), fun _ => rfl⟩
  · refine ⟨⟨rfl, rfl, rfl, Or.inl rfl⟩, fun hv => absurd hw ?_, fun _ h => by simp [h] at hj, fun _ => rfl⟩
    simp only [mayWait, viewState, List.mem_cons, List.not_mem_nil, or_false, Prod.mk.injEq, not_or,
      decide_eq_true_eq] at hv ⊢
    omega
  · exact ⟨⟨rfl, rfl, rfl, Or.inl rfl⟩, fun _ => rfl, fun _ h => by simp [h] at hj, fun _ => rfl⟩
  · obtain ⟨hk, hw, hv, hv'⟩ := runWifiAction_view { s with autoConnectAt := none, ui :=
      { s.ui with wifiConnecting := false, wifiAction := 0 } } p s.ui.wifiAction
    refine ⟨⟨hk.owners, hk.usb, hk.ssh, hk.view⟩, fun _ => hw, fun h _ hr hs => hv h hr hs, fun h => hv' ?_⟩
    rcases h with h | h | h
    · exact Or.inl h
    · exact absurd (Option.isSome_iff_ne_none.mpr h) hj
    · exact Or.inr h

/-- The start of an automatic connection keeps commands and screen. -/
theorem autoConnect_frame (s : Firmware V C) (p : Pass V C) (action : Nat) :
    KeepsCommands s (s.autoConnect p action) ∧ (s.autoConnect p action).viewState = s.viewState ∧
      (s.autoConnect p action).ui.wifiAction = s.ui.wifiAction := by
  unfold autoConnect
  split_ifs
  · split <;> exact ⟨⟨rfl, rfl, rfl, Or.inl rfl⟩, rfl, rfl⟩
  · split <;> exact ⟨⟨rfl, rfl, rfl, Or.inl rfl⟩, rfl, rfl⟩
  · exact ⟨.refl s, rfl, rfl⟩

/-- The radio's part of a pass keeps owners and commands, and consumes a Wi-Fi command off its own views. -/
theorem keeps_radio (s : Firmware V C) (p : Pass V C) :
    KeepsCommands s (s.radio p) ∧ (s.viewState ∉ [3, 4, 5] → (s.radio p).ui.wifiAction = 0) := by
  obtain ⟨hui, ho, -, -, -⟩ := (s.radioStep p).pollAutoJob_frame p
  obtain ⟨hstep, -, hstay⟩ := s.keeps_radioStep p
  have hpoll : KeepsCommands s ((s.radioStep p).pollAutoJob p) := by
    refine ⟨ho.trans hstep.owners, ?_, ?_, ?_⟩
    · rw [hui]
      exact hstep.usb
    · rw [hui]
      exact hstep.ssh
    · unfold viewState
      rw [hui]
      exact hstep.view
  obtain ⟨hk, hw, -⟩ := ((s.radioStep p).pollAutoJob p).wifiAction_view p
  obtain ⟨hk', hv', hw'⟩ := (((s.radioStep p).pollAutoJob p).wifiAction p).autoConnect_frame p
    ((s.radioStep p).pollAutoJob p).ui.wifiAction
  refine ⟨(hpoll.trans hk).trans hk', fun hv => hw'.trans (hw ?_)⟩
  replace hstay := hstay fun h => hv (by simp [h])
  unfold viewState at hstay hv ⊢
  rw [hui, hstay]
  exact hv

/-- Off the password editor and with no radio step pending, the radio's part of a pass leaves the screen exactly when it opens
the editor for a protected scan result. -/
theorem radio_view_of_screen {view : Nat} (s : Firmware V C) (p : Pass V C) (hv : s.viewState = view) (h5 : view ≠ 5) :
    (s.ui.wifiAction = 3 → s.radioPending = none → (s.autoJob = none ∨ p.autoFinished ≠ none) →
      s.SelectsProtected → (s.radio p).viewState = 5) ∧
    (s.ui.wifiAction ≠ 3 ∨ (s.radioPending = none ∧ ¬ ((s.autoJob = none ∨ p.autoFinished ≠ none) ∧
      s.SelectsProtected)) → (s.radio p).viewState = view) := by
  obtain ⟨hui, -, hscan, hpend, hjob⟩ := (s.radioStep p).pollAutoJob_frame p
  obtain ⟨-, hwa, hstay⟩ := s.keeps_radioStep p
  obtain ⟨-, -, hopen, hkeep⟩ := ((s.radioStep p).pollAutoJob p).wifiAction_view p
  obtain ⟨-, hv', -⟩ := (((s.radioStep p).pollAutoJob p).wifiAction p).autoConnect_frame p
    ((s.radioStep p).pollAutoJob p).ui.wifiAction
  have hview : ((s.radioStep p).pollAutoJob p).viewState = view := by
    unfold viewState at hstay hv ⊢
    rw [hui, hstay (by omega), hv]
  have hnone : s.radioPending = none → s.radioStep p = s := by
    intro h
    unfold radioStep
    rw [h]
  refine ⟨fun h3 hr ha hs => hv'.trans ?_, fun h => hv'.trans ?_⟩
  · rw [hnone hr] at hopen hui hscan hpend hjob ⊢
    refine hopen (by rw [hui, h3]) (hjob.mpr ha) (hpend.trans hr) ?_
    unfold SelectsProtected at hs ⊢
    rwa [hscan, hui]
  · refine (hkeep ?_).trans hview
    rcases h with h | ⟨hr, h⟩
    · exact Or.inl (by rw [hui, hwa]; exact h)
    · rw [hnone hr] at hui hscan hjob ⊢
      refine Or.inr ?_
      by_cases ha : s.autoJob = none ∨ p.autoFinished ≠ none
      · refine Or.inr fun hs => h ⟨ha, ?_⟩
        unfold SelectsProtected at hs ⊢
        rwa [hscan, hui] at hs
      · exact Or.inl fun hj => ha (hjob.mp hj)

/-! ## The owners -/

/-- A server that was stopped does not run. -/
theorem stopSsh_inactive (s : Firmware V C) : s.stopSsh.sshActive = false := by
  unfold stopSsh sshActive
  rcases hs : s.sshServer with _ | server
  · rfl
  · rcases ha : server.active with _ | _ <;> simp [ha]

/-- A server is started when there are a card, a network and no other owner. -/
theorem startSsh_active {s : Firmware V C} (hst : s.storage.isSome = true) (hn : s.network = true)
    (ho : s.owners.Single) : s.startSsh.sshActive = true := by
  have hserver : s.sshServer.isSome = true := ho.network_server.symm.trans hn
  obtain ⟨server, hs⟩ := Option.isSome_iff_exists.mp hserver
  obtain ⟨v, hv⟩ := Option.isSome_iff_exists.mp hst
  simp [startSsh, sshActive, hv, hn, hs]

/-- Stopping SSH takes an owner away. -/
theorem single_stopSsh {s : Firmware V C} (ho : s.owners.Single) : s.stopSsh.owners.Single := by
  have hoff := s.stopSsh_inactive
  have hsome : s.stopSsh.sshServer.isSome = s.sshServer.isSome := Option.isSome_map
  refine ⟨fun _ => hoff, ho.browser_usb, fun _ => hoff, ho.usb_storage, fun h => ?_, fun h => ?_,
    ho.network_server.trans hsome.symm⟩
  · exact absurd (hoff.symm.trans h) Bool.false_ne_true
  · exact absurd (hoff.symm.trans h) Bool.false_ne_true

/-- Starting SSH with no browser open: a mounted volume means that USB has not taken the card. -/
theorem single_startSsh {s : Firmware V C} (ho : s.owners.Single) (hfm : s.fileManager = none) :
    s.startSsh.owners.Single := by
  unfold startSsh
  split_ifs with hc
  · exact ho
  · rw [Bool.or_eq_true, not_or, Option.isNone_iff_eq_none, Bool.not_eq_true', Bool.not_eq_false] at hc
    have hst : s.storage.isSome = true := Option.isSome_iff_ne_none.mpr hc.1
    have husb : s.usbSd.isSome = true → s.storage.isSome = false := ho.usb_storage
    refine ⟨fun h => ?_, fun h => ?_, fun h => ?_, ho.usb_storage, fun _ => hst, fun _ => hc.2, ?_⟩
    · simp [owners, hfm] at h
    · simp [owners, hfm] at h
    · exact absurd ((husb h).symm.trans hst) Bool.false_ne_true
    · exact ho.network_server.trans Option.isSome_map.symm

/-- The state in which the browser hands over to the radio and the commands: no two owners, commands on their views, SSH on
its screen, and a browser only on the browser's views. -/
structure Ready (s : Firmware V C) : Prop where
  owners : s.owners.Single
  pending : s.ui.Pending
  ssh : s.sshActive = true → s.viewState = 8
  browser : s.fileManager ≠ none → FileManager.IsView s.viewState

/-- Leaving the SSH screen stops the server, staying on it changes nothing. -/
theorem leaveSsh_spec {s : Firmware V C} (ho : s.owners.Single) :
    s.leaveSsh.owners.Single ∧ s.leaveSsh.ui = s.ui ∧ (s.leaveSsh.sshActive = true → s.viewState = 8) ∧
      (s.viewState = 8 → s.leaveSsh = s) := by
  unfold leaveSsh
  split_ifs with hv
  · exact ⟨single_stopSsh ho, rfl, fun h => absurd (s.stopSsh_inactive.symm.trans h) Bool.false_ne_true,
      fun h => absurd h hv⟩
  · exact ⟨ho, rfl, fun _ => not_not.mp hv, fun _ => rfl⟩

/-- Off the browser's views the browser is dropped and nothing is polled. -/
theorem browser_of_not_isView {s : Firmware V C} (p : Pass V C) (hv : ¬ FileManager.IsView s.viewState) :
    s.browser p = ({ s with fileManager := none }, []) := by
  unfold browser
  rw [if_neg hv]

/-- The browser's stage leaves the SSH command waiting. -/
theorem browser_sshAction (s : Firmware V C) (p : Pass V C) :
    (s.browser p).1.ui.sshAction = s.ui.sshAction := by
  unfold browser
  dsimp only
  split_ifs <;> split <;> rfl

/-- The browser's stage: it hands over a ready state, and its touch shares the card with nobody. -/
theorem browser_ready {s : Firmware V C} (p : Pass V C) (ho : s.owners.Single) (hp : s.ui.Pending)
    (hs : s.sshActive = true → s.viewState = 8) :
    Ready (s.browser p).1 ∧ ∀ t ∈ (s.browser p).2, t.component = .fileManager ∧ t.Exclusive := by
  by_cases hv : FileManager.IsView s.viewState
  · have hoff : s.sshActive = false := by
      rcases h : s.sshActive with _ | _
      · rfl
      · unfold FileManager.IsView at hv
        have := hs h
        omega
    -- a mounted volume leaves the card to the browser: USB would have taken it out
    have hopen : ∀ fm : FileManager, s.storage.isSome = true → Ready { s with fileManager := some fm } := by
      intro fm hst
      have husb : s.usbSd.isSome = false := by
        rcases h : s.usbSd.isSome with _ | _
        · rfl
        · exact absurd ((ho.usb_storage h).symm.trans hst) Bool.false_ne_true
      exact ⟨⟨fun _ => hoff, fun _ => husb, fun _ => hoff, ho.usb_storage, ho.ssh_storage, ho.ssh_network,
        ho.network_server⟩, hp, hs, fun _ => hv⟩
    rcases hst : s.storage with _ | v
    · have hclosed : (s.browser p) = (if s.fileManager.isNone then s.setViewState 0 else s, []) := by
        rcases hfm : s.fileManager with _ | fm <;> simp [browser, hv, hfm, hst, setViewState]
      rw [hclosed]
      refine ⟨?_, nofun⟩
      dsimp only
      split_ifs with hfm
      · obtain ⟨h1, h2, h3, h4⟩ := hp
        unfold FileManager.IsView viewState at hv
        refine ⟨ho, ?_, fun h => absurd (hoff.symm.trans h) Bool.false_ne_true,
          fun h => absurd (Option.isNone_iff_eq_none.mp hfm) h⟩
        constructor <;> dsimp only [setViewState] <;> omega
      · exact ⟨ho, hp, hs, fun _ => hv⟩
    · have hst' : s.storage.isSome = true := by rw [hst]; rfl
      rcases hfm : s.fileManager with _ | fm
      · have hnew : s.browser p = ({ s with fileManager := some ((FileManager.new p.openBrowser).poll p.pollBrowser) },
            [touch { s with fileManager := some (FileManager.new p.openBrowser) } .fileManager]) := by
          simp [browser, hv, hfm, hst]
        rw [hnew]
        refine ⟨hopen _ hst', fun t ht => ?_⟩
        obtain rfl := List.mem_singleton.mp ht
        exact ⟨rfl, (touch_byOwners _ _).exclusive (hopen _ hst').owners⟩
      · have hold : s.browser p = ({ s with fileManager := some (fm.poll p.pollBrowser) }, [s.touch .fileManager]) := by
          simp [browser, hv, hfm, hst]
        rw [hold]
        refine ⟨hopen _ hst', fun t ht => ?_⟩
        obtain rfl := List.mem_singleton.mp ht
        exact ⟨rfl, (touch_byOwners _ _).exclusive ho⟩
  · rw [browser_of_not_isView p hv]
    exact ⟨⟨⟨nofun, nofun, ho.usb_ssh, ho.usb_storage, ho.ssh_storage, ho.ssh_network, ho.network_server⟩, hp, hs,
      fun h => absurd rfl h⟩, nofun⟩

end Firmware

end Ratputer
