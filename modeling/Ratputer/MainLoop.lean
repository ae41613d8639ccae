import Ratputer.MainWindow
import Ratputer.FileManager
import Ratputer.Lib.Mealy

/-!
# The main loop

One pass of the loop of `main.rs`, stage by stage in its order: the console command, the keyboard, the card's owners, one radio
step, the pending Wi-Fi, USB and SSH commands of the user interface, and the SSH server's poll. What the outside answers in a
pass (keys, card, radio, USB host) is its event, `Pass`. A pass also yields the list of its `Touch`es: the calls in which a
component may use the card, each with the owners at that moment. `V` is a mounted volume and `C` the raw card. Drawing, the
clock, the battery and the watchdog use none of this and are left out.
-/

namespace Ratputer

def SPLASH_AFTER_MS : Nat := 3500
def AUTO_CONNECT_AFTER_SPLASH_MS : Nat := 500
def AUTO_NEXT_NETWORK_SECS : Nat := 5
def AUTO_RETRY_CYCLE_SECS : Nat := 60
def AUTO_RECONNECT_AFTER_DROP_SECS : Nat := 5
def MAX_AUTO_PASSES : Nat := 3
def SCAN_PASSES : Nat := 2
def CONNECT_ATTEMPTS : Nat := 3

/-- The keys the console can send. -/
inductive DebugKey
  | up | down | left | right | enter | back | backspace | delete | tab | space
  deriving Repr, DecidableEq

/-- A console command; those that only report or reset are one constructor. -/
inductive DebugCommand
  | key (key : DebugKey)
  | text (text : String)
  | clear
  | other
  deriving Repr, DecidableEq

inductive Arrow
  | up | down | left | right
  deriving Repr, DecidableEq

/-- What the keyboard decoder reports. -/
inductive KeyInput
  | char (c : Char)
  | modifier | enter | backspace | escape | delete | tab
  | arrow (arrow : Arrow)
  deriving Repr, DecidableEq

/-- Blocking radio work, one scan pass or one connect attempt a loop pass. -/
inductive RadioStep
  | scan (pass : Nat)
  | connect (network : SavedNetwork) (attempt : Nat)
  deriving Repr, DecidableEq

/-- What reading the configuration from the card gives. -/
inductive LoadResult
  | loaded (config : WifiConfig)
  | missing
  | failed
  deriving Repr, DecidableEq

/-- The SSH server as the main loop sees it. -/
structure SshServer where
  active : Bool := false
  /-- An SFTP session holds open files or directories. -/
  holdsSd : Bool := false
  deriving Repr, DecidableEq

/-- What the loop keeps from one pass to the next. -/
structure Firmware (V C : Type) where
  ui : MainWindow := {}
  splashDone : Bool := false
  radioPending : Option RadioStep := none
  /-- The network an automatic connection, which owns the controller, is working on. -/
  autoJob : Option String := none
  autoNextIndex : Nat := 0
  autoPass : Nat := 1
  autoConnectAt : Option Nat := none
  /-- The Wi-Fi controller is at hand. -/
  wifi : Bool := false
  network : Bool := false
  linkWasUp : Bool := false
  wifiConfig : WifiConfig := {}
  scanNetworks : List ScanNetwork := []
  storage : Option V := none
  usbSd : Option C := none
  usbForceExitArmed : Bool := false
  sshServer : Option SshServer := none
  fileManager : Option FileManager := none
  deriving Repr, DecidableEq

/-- What the outside answers in one pass. -/
structure Pass (V C : Type) where
  now : Nat
  /-- The clock when the deadlines of the pass are read. -/
  later : Nat
  command : Option (DebugCommand × FatAnswers) := none
  /-- The keys the keyboard reports, each with what the card answers to it. -/
  inputs : List (KeyInput × FatAnswers) := []
  openBrowser : FatAnswers := {}
  pollBrowser : FatAnswers := {}
  /-- A scan pass's results, `none` when it fails. -/
  scan : Option (List ScanNetwork) := none
  connect : Bool := false
  configure : Bool := false
  /-- The result of the automatic connection once it is ready. -/
  autoFinished : Option Bool := none
  linkUp : Bool := false
  save : Bool := false
  attach : Bool := false
  canDetach : Bool := false
  free : V → C
  mount : C → Option V
  load : LoadResult := .failed
  /-- Whether an SFTP session holds the card after the server's poll. -/
  sftpHolds : Bool := false

/-- The components that use the card. -/
inductive Component
  | fileManager | sshServer | usbDisk
  deriving Repr, DecidableEq

/-- A call in which a component may use the card, with the owners and the view at that moment. -/
structure Touch where
  component : Component
  fileManager : Bool
  sshActive : Bool
  usbSd : Bool
  viewState : Nat
  deriving Repr, DecidableEq

variable {V C : Type}

namespace Firmware

/-- The SSH server exists and is active. -/
def sshActive (s : Firmware V C) : Bool := s.sshServer.any (·.active)

def touch (s : Firmware V C) (component : Component) : Touch :=
  { component
    fileManager := s.fileManager.isSome
    sshActive := s.sshActive
    usbSd := s.usbSd.isSome
    viewState := s.ui.viewState }

def viewState (s : Firmware V C) : Nat := s.ui.viewState

def setViewState (s : Firmware V C) (view : Nat) : Firmware V C := { s with ui := { s.ui with viewState := view } }

def keyPressed (s : Firmware V C) (key : UiKey) : Firmware V C := { s with ui := s.ui.keyPressed key }

def setPassword (s : Firmware V C) (password : String) : Firmware V C :=
  { s with ui := { s.ui with wifiPassword := password } }

def setSshPassword (s : Firmware V C) (password : String) : Firmware V C :=
  { s with ui := { s.ui with sshPassword := password } }

/-- The string without its last character. -/
def pop (text : String) : String := String.ofList text.toList.dropLast

/-- Leave the splash screen when its time is over. -/
def splash (s : Firmware V C) (p : Pass V C) : Firmware V C :=
  { s with splashDone := s.splashDone || SPLASH_AFTER_MS ≤ p.now }

/-- Input is discarded while the splash is up or a radio step is pending. -/
def inputBusy (s : Firmware V C) : Bool := !s.splashDone || s.radioPending.isSome

/-! ## Keys -/

/-- A key of the SD browser, if the browser and its volume are there. -/
def browserKey (s : Firmware V C) (key : FmKey) (F : FatAnswers) : Firmware V C × List Touch :=
  match s.fileManager, s.storage with
  | some fm, some _ =>
    let r := fm.key key s.viewState F
    (setViewState { s with fileManager := some r.1 } r.2, [s.touch .fileManager])
  | _, _ => (s, [])

/-- The key that the console's key stands for outside the browser. -/
def debugUiKey : DebugKey → UiKey
  | .up => .up
  | .down => .down
  | .left => .left
  | .right => .right
  | .enter => .enter
  | .back | .backspace => .back
  | .delete => .delete
  | .tab => .tab
  | .space => .space

def applyDebugKey (s : Firmware V C) (key : DebugKey) : Firmware V C :=
  if key = .backspace ∧ s.viewState = 5 then s.setPassword (pop s.ui.wifiPassword)
  else if key = .backspace ∧ s.viewState = 9 then s.setSshPassword (pop s.ui.sshPassword)
  else s.keyPressed (debugUiKey key)

def fileDebugKey : DebugKey → FmKey
  | .up => .up
  | .down => .down
  | .left => .left
  | .right => .right
  | .enter => .enter
  | .back => .back
  | .backspace => .backspace
  | .delete => .delete
  | .tab => .tab
  | .space => .char ' '

def appendDebugText (s : Firmware V C) (text : String) : Firmware V C :=
  if s.viewState = 5 then
    if 64 < s.ui.wifiPassword.utf8ByteSize + text.utf8ByteSize then s
    else s.setPassword (s.ui.wifiPassword ++ text)
  else if s.viewState = 9 then
    if text.toList.all isAsciiGraphic ∧ s.ui.sshPassword.utf8ByteSize + text.utf8ByteSize ≤ 32 then
      s.setSshPassword (s.ui.sshPassword ++ text)
    else s
  else s

/-- The console key: refused while input is busy, for the menu's USB entry, and during a copy. -/
def consoleKey (s : Firmware V C) (key : DebugKey) (F : FatAnswers) : Firmware V C × List Touch :=
  if s.inputBusy then (s, [])
  else if key = .enter ∧ s.viewState = 0 ∧ s.ui.menuIndex = 2 then (s, [])
  else if s.fileManager.any (·.copying) then (s, [])
  else if FileManager.IsView s.viewState then s.browserKey (fileDebugKey key) F
  else (s.applyDebugKey key, [])

def consoleText (s : Firmware V C) (text : String) : Firmware V C :=
  if s.inputBusy then s
  else if s.viewState = 12 then { s with fileManager := s.fileManager.map (·.appendText text 12) }
  else s.appendDebugText text

def consoleClear (s : Firmware V C) : Firmware V C :=
  if s.viewState = 5 then s.setPassword ""
  else if s.viewState = 9 then s.setSshPassword ""
  else if s.viewState = 12 then { s with fileManager := s.fileManager.map (·.clearText) }
  else s

/-- The console's command, at most one a pass. -/
def console (s : Firmware V C) (p : Pass V C) : Firmware V C × List Touch :=
  match p.command with
  | none => (s, [])
  | some (.key key, F) => s.consoleKey key F
  | some (.text text, _) => (s.consoleText text, [])
  | some (.clear, _) => (s.consoleClear, [])
  | some (.other, _) => (s, [])

/-- The browser key that a keyboard input stands for in a view. -/
def fileKey (view : Nat) : KeyInput → Option FmKey
  | .char c =>
    if view = 12 then some (.char c)
    else if c = ' ' then some (.char ' ')
    else if c = ',' then some .left
    else if c = ';' then some .up
    else if c = '.' then some .down
    else if c = '/' then some .right
    else none
  | .modifier => none
  | .enter => some .enter
  | .backspace => some (if view = 12 then .backspace else .back)
  | .escape => some .back
  | .delete => some .delete
  | .tab => some .tab
  | .arrow .up => some .up
  | .arrow .down => some .down
  | .arrow .left => some .left
  | .arrow .right => some .right

/-- A printable character outside text entry: the bare `,` `;` `.` `/` act as arrows. -/
def characterKey (s : Firmware V C) (c : Char) : Firmware V C :=
  if c = ' ' then s.keyPressed .space
  else if c = ',' then s.keyPressed .left
  else if c = ';' then s.keyPressed .up
  else if c = '.' then s.keyPressed .down
  else if c = '/' then s.keyPressed .right
  else s

/-- A keyboard input outside the SD browser. -/
def screenKey (s : Firmware V C) : KeyInput → Firmware V C
  | .char c =>
    if s.viewState = 5 then
      if 32 ≤ c.toNat ∧ c.toNat ≤ 126 ∧ s.ui.wifiPassword.utf8ByteSize < 64 then
        s.setPassword (s.ui.wifiPassword.push c)
      else s
    else if s.viewState = 9 then
      if isAsciiGraphic c ∧ s.ui.sshPassword.utf8ByteSize < 32 then s.setSshPassword (s.ui.sshPassword.push c)
      else s
    else s.characterKey c
  | .modifier => s
  | .enter => s.keyPressed .enter
  | .backspace =>
    if s.viewState = 5 then s.setPassword (pop s.ui.wifiPassword)
    else if s.viewState = 9 then s.setSshPassword (pop s.ui.sshPassword)
    else s.keyPressed .back
  | .escape => s.keyPressed .back
  | .delete => s.keyPressed .delete
  | .tab => s.keyPressed .tab
  | .arrow .up => s.keyPressed .up
  | .arrow .down => s.keyPressed .down
  | .arrow .left => s.keyPressed .left
  | .arrow .right => s.keyPressed .right

/-- One keyboard input. -/
def input (s : Firmware V C) (i : KeyInput) (F : FatAnswers) : Firmware V C × List Touch :=
  if s.inputBusy then (s, [])
  else if FileManager.IsView s.viewState then
    match fileKey s.viewState i with
    | some key => s.browserKey key F
    | none => (s, [])
  else (s.screenKey i, [])

/-- The batch of keyboard inputs of a pass. -/
def keyboard (s : Firmware V C) : List (KeyInput × FatAnswers) → Firmware V C × List Touch
  | [] => (s, [])
  | (i, F) :: rest =>
    let r := s.input i F
    let r' := keyboard r.1 rest
    (r'.1, r.2 ++ r'.2)

/-! ## The owners of the card -/

/-- Stop the SSH server if it is active; its session goes with it. -/
def stopSsh (s : Firmware V C) : Firmware V C :=
  { s with sshServer := s.sshServer.map fun server => if server.active then {} else server }

/-- Start the SSH server if the card and the network are there. -/
def startSsh (s : Firmware V C) : Firmware V C :=
  if s.storage.isNone || !s.network then s
  else { s with sshServer := s.sshServer.map fun server => { server with active := true } }

/-- Stop SSH off its own screen, before any other feature can use the card. -/
def leaveSsh (s : Firmware V C) : Firmware V C := if s.viewState ≠ 8 then s.stopSsh else s

/-- Open the browser's state on its views and drop it elsewhere, then poll it. -/
def browser (s : Firmware V C) (p : Pass V C) : Firmware V C × List Touch :=
  let s :=
    if FileManager.IsView s.viewState then
      if s.fileManager.isNone then
        if s.storage.isSome then { s with fileManager := some (FileManager.new p.openBrowser) }
        else s.setViewState 0
      else s
    else { s with fileManager := none }
  match s.fileManager, s.storage with
  | some fm, some _ => ({ s with fileManager := some (fm.poll p.pollBrowser) }, [s.touch .fileManager])
  | _, _ => (s, [])

/-! ## The radio -/

/-- Configure the controller for a network and hand it to the step machine. -/
def beginConnect (s : Firmware V C) (p : Pass V C) (network : SavedNetwork) : Firmware V C :=
  if s.wifi && p.configure then
    { s with
      ui := { s.ui with wifiSelectedSsid := network.ssid, wifiConnecting := true }
      radioPending := some (.connect network 1) }
  else { s with radioPending := none }

/-- The bookkeeping of an established manual connection. -/
def connected (s : Firmware V C) (network : SavedNetwork) : Firmware V C :=
  let config := s.wifiConfig.upsert network
  let ui := { s.ui with savedNetworks := config.networks.length, wifiConnecting := false }
  { s with
    wifiConfig := config
    autoNextIndex := (config.networks.findIdx? (·.ssid = network.ssid)).getD (config.networks.length - 1)
    autoConnectAt := none
    radioPending := none
    ui := if ui.viewState = 5 then { ui with wifiPassword := "", viewState := 2 } else ui }

def setConnecting (s : Firmware V C) (flag : Bool) : Firmware V C :=
  { s with ui := { s.ui with wifiConnecting := flag } }

/-- One pending radio step. -/
def radioStep (s : Firmware V C) (p : Pass V C) : Firmware V C :=
  match s.radioPending with
  | none => s
  | some (.scan pass) =>
    if !s.wifi then { s with radioPending := none }
    else
      match p.scan with
      | some results =>
        let networks := mergeScanResults s.scanNetworks results
        let s := { s with scanNetworks := networks, ui := { s.ui with scanNetworks := networks.length } }
        if pass < SCAN_PASSES then { s with radioPending := some (.scan (pass + 1)) }
        else setConnecting { s with radioPending := none } false
      | none => setConnecting { s with radioPending := none } false
  | some (.connect network attempt) =>
    if !s.wifi then setConnecting { s with radioPending := none, autoConnectAt := none } false
    else if p.connect then s.connected network
    else if attempt < CONNECT_ATTEMPTS then { s with radioPending := some (.connect network (attempt + 1)) }
    else setConnecting { s with radioPending := none } false

/-- Schedule the next automatic attempt after a failed one. -/
def retrySavedNetwork (s : Firmware V C) (now : Nat) : Firmware V C :=
  let count := s.wifiConfig.networks.length
  if count = 0 then { s with autoConnectAt := none }
  else if 0 < s.autoNextIndex then
    { s with
      autoNextIndex := s.autoNextIndex - 1
      autoConnectAt := some (now + AUTO_NEXT_NETWORK_SECS * 1000) }
  else if s.autoPass < MAX_AUTO_PASSES then
    { s with
      autoPass := s.autoPass + 1
      autoNextIndex := count - 1
      autoConnectAt := some (now + AUTO_RETRY_CYCLE_SECS * 1000) }
  else { s with autoConnectAt := none }

/-- Poll the automatic connection; when it finishes the controller comes back. -/
def pollAutoJob (s : Firmware V C) (p : Pass V C) : Firmware V C :=
  match s.autoJob, p.autoFinished with
  | some _, some true => { s with autoJob := none, wifi := true, autoConnectAt := none, autoPass := 1 }
  | some _, some false => retrySavedNetwork { s with autoJob := none, wifi := true } p.later
  | _, _ => s

/-- Whether a Wi-Fi command may wait for the radio on its view. -/
def mayWait (action view : Nat) : Bool :=
  (action, view) ∈ [(1, 4), (2, 3), (3, 4), (4, 5), (5, 3)]

/-- Choosing a scan result: an open network connects at once, a protected one asks for its password. -/
def selectScanned (s : Firmware V C) (p : Pass V C) : Firmware V C :=
  match s.scanNetworks[s.ui.wifiActionIndex]? with
  | none => s
  | some network =>
    if !network.supported then s
    else if network.auth = .open then s.beginConnect p ⟨network.ssid, "", network.auth⟩
    else { s with ui := { s.ui with wifiSelectedSsid := network.ssid, wifiPassword := "", viewState := 5 } }

/-- Carry out a Wi-Fi command that does not have to wait. -/
def runWifiAction (s : Firmware V C) (p : Pass V C) (action : Nat) : Firmware V C :=
  if action = 1 ∧ s.radioPending = none then
    if !s.wifi then s
    else
      { s with
        scanNetworks := []
        ui := { s.ui with scanNetworks := 0, scanIndex := 0, wifiConnecting := true }
        radioPending := some (.scan 1) }
  else if action = 2 ∧ s.radioPending = none then
    match s.wifiConfig.networks[s.ui.wifiActionIndex]? with
    | some network => s.beginConnect p network
    | none => s
  else if action = 3 ∧ s.radioPending = none then s.selectScanned p
  else if action = 4 ∧ s.radioPending = none then
    match s.scanNetworks.find? (·.ssid = s.ui.wifiSelectedSsid) with
    | some network => s.beginConnect p ⟨network.ssid, s.ui.wifiPassword, network.auth⟩
    | none => s
  else if action = 5 then
    let r := s.wifiConfig.remove s.ui.wifiActionIndex
    if r.1 then
      { s with
        wifiConfig := r.2
        ui := { s.ui with savedIndex := 0, savedNetworks := r.2.networks.length }
        autoNextIndex := r.2.networks.length - 1
        autoConnectAt := if r.2.networks.isEmpty then none else s.autoConnectAt }
    else s
  else s

/-- The pending Wi-Fi command: it waits for the automatic connection on its own view only. -/
def wifiAction (s : Firmware V C) (p : Pass V C) : Firmware V C :=
  let action := s.ui.wifiAction
  if action = 0 then s
  else
    let s := { s with autoConnectAt := none, ui := { s.ui with wifiConnecting := false } }
    if s.autoJob.isSome then
      if mayWait action s.viewState then s else { s with ui := { s.ui with wifiAction := 0 } }
    else runWifiAction { s with ui := { s.ui with wifiAction := 0 } } p action

/-- Start an automatic connection that is due, on a screen without editing. -/
def autoConnect (s : Firmware V C) (p : Pass V C) (action : Nat) : Firmware V C :=
  if s.radioPending = none ∧ s.autoJob = none ∧ action = 0 ∧ ¬ (s.network ∧ p.linkUp) ∧
      s.autoConnectAt.any (· ≤ p.later) ∧ s.viewState ∈ [0, 1, 6] ∧ s.usbSd.isNone then
    match s.wifiConfig.networks[s.autoNextIndex]? with
    | some saved =>
      if s.wifi then
        setConnecting { s with autoJob := some saved.ssid, wifi := false, autoConnectAt := none } false
      else { s with autoConnectAt := none }
    | none => { s with autoConnectAt := none }
  else s

/-- The radio's part of a pass. -/
def radio (s : Firmware V C) (p : Pass V C) : Firmware V C :=
  let s := (s.radioStep p).pollAutoJob p
  (s.wifiAction p).autoConnect p s.ui.wifiAction

/-! ## USB and SSH commands -/

/-- Export the card: it leaves the FAT volume, and returns to it when the USB stack does not start. -/
def usbAttach (s : Firmware V C) (p : Pass V C) : Firmware V C :=
  if s.usbSd.isNone && !s.sshServer.any (·.holdsSd) then
    match s.storage with
    | some volume =>
      let card := p.free volume
      if p.attach then { s with storage := none, usbSd := some card, usbForceExitArmed := false }
      else { s with storage := p.mount card }
    | none => s
  else s

/-- What the firmware keeps of the configuration it reads after USB. -/
def reloadConfig (s : Firmware V C) (p : Pass V C) : Firmware V C :=
  let r : WifiConfig × Bool :=
    match s.storage, p.load with
    | some _, .loaded config => (config, true)
    | some _, .missing => ({}, true)
    | _, _ => (s.wifiConfig, false)
  let networks := r.1.networks
  { s with
    wifiConfig := r.1
    ui := { s.ui with savedNetworks := networks.length, savedIndex := 0 }
    autoNextIndex := if r.2 && !networks.isEmpty && s.wifi then networks.length - 1 else s.autoNextIndex
    autoConnectAt :=
      if r.2 && !networks.isEmpty && s.wifi then s.autoConnectAt
      else if networks.isEmpty then none else s.autoConnectAt }

/-- Take the card back; a host that has not ejected it needs a second press. -/
def usbDetach (s : Firmware V C) (p : Pass V C) : Firmware V C :=
  match s.usbSd with
  | none => s
  | some card =>
    if p.canDetach || s.usbForceExitArmed then
      let s := { s with usbSd := none, storage := p.mount card, usbForceExitArmed := false }
      (s.reloadConfig p).setViewState 0
    else { s with usbForceExitArmed := true }

/-- Poll the USB disk while it has the card, then carry out the pending command. -/
def usb (s : Firmware V C) (p : Pass V C) : Firmware V C × List Touch :=
  let touches := if s.usbSd.isSome then [s.touch .usbDisk] else []
  let action := s.ui.usbDiskAction
  let s := { s with ui := { s.ui with usbDiskAction := 0 } }
  (if action = 1 then s.usbAttach p else if action = 2 then s.usbDetach p else s, touches)

/-- Save the typed password and go back to the server's screen. -/
def saveSshPassword (s : Firmware V C) (p : Pass V C) : Firmware V C :=
  let password := s.ui.sshPassword
  if !validServerCredential password then s
  else if s.storage.isNone then s
  else
    let s := { s with wifiConfig := { s.wifiConfig with server := { s.wifiConfig.server with password } } }
    if !p.save then s else (s.setViewState 8).startSsh

/-- Carry out the pending SSH command. -/
def sshAction (s : Firmware V C) (p : Pass V C) : Firmware V C :=
  let action := s.ui.sshAction
  let s := { s with ui := { s.ui with sshAction := 0 } }
  if action = 1 then s.startSsh
  else if action = 2 then s.stopSsh
  else if action = 3 then s.stopSsh.setSshPassword s.wifiConfig.server.password
  else if action = 4 then s.saveSshPassword p
  else if action = 5 then (s.setViewState 8).startSsh
  else s

/-- A lost link starts a new cycle of automatic attempts. -/
def networkPoll (s : Firmware V C) (p : Pass V C) : Firmware V C :=
  if !s.network then s
  else
    let s' :=
      if !p.linkUp && s.linkWasUp && s.radioPending.isNone && !s.wifiConfig.networks.isEmpty then
        { s with
          autoNextIndex := s.wifiConfig.networks.length - 1
          autoPass := 1
          autoConnectAt := some (p.later + AUTO_RECONNECT_AFTER_DROP_SECS * 1000) }
      else s
    { s' with linkWasUp := p.linkUp }

/-- Poll the SSH server; an inactive one does nothing. -/
def sshPoll (s : Firmware V C) (p : Pass V C) : Firmware V C × List Touch :=
  match s.sshServer with
  | some server =>
    if s.network then
      ({ s with sshServer := some (if server.active then { server with holdsSd := p.sftpHolds } else server) },
        [s.touch .sshServer])
    else (s, [])
  | none => (s, [])

/-! ## A pass -/

/-- The console command and the keys of a pass. -/
def handleInput (s : Firmware V C) (p : Pass V C) : Firmware V C × List Touch :=
  let r := (s.splash p).console p
  let r' := r.1.keyboard p.inputs
  (r'.1, r.2 ++ r'.2)

/-- The commands that the keys left pending, and the SSH server's poll. -/
def serve (s : Firmware V C) (p : Pass V C) : Firmware V C × List Touch :=
  let usb := (s.radio p).usb p
  let ssh := ((usb.1.sshAction p).networkPoll p).sshPoll p
  (ssh.1, usb.2 ++ ssh.2)

/-- One pass of the main loop, with the calls that may use the card, in order. -/
def pass (s : Firmware V C) (p : Pass V C) : Firmware V C × List Touch :=
  let keys := s.handleInput p
  let browser := keys.1.leaveSsh.browser p
  let served := browser.1.serve p
  (served.1, keys.2 ++ browser.2 ++ served.2)

/-- The firmware after boot: what mounting the card, the radio and the saved configuration gave. -/
def boot (storage : Option V) (radio : Bool) (config : WifiConfig) : Firmware V C :=
  { storage
    wifi := radio
    network := radio
    wifiConfig := config
    ui := { savedNetworks := config.networks.length }
    autoNextIndex := config.networks.length - 1
    autoConnectAt :=
      if radio && !config.networks.isEmpty then some (SPLASH_AFTER_MS + AUTO_CONNECT_AFTER_SPLASH_MS) else none
    sshServer := if radio then some {} else none }

end Firmware

end Ratputer
