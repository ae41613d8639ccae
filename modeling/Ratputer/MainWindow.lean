import Ratputer.Config

/-!
# The screens and their keys

`MainWindow` holds the properties of the user interface that the firmware reads back: the open view, the list positions, the
two password editors and the three commands that the firmware polls and clears. `keyPressed` is the callback of
`ratputer.slint`. Views: 0 menu, 1 rat, 2 Wi-Fi menu, 3 saved, 4 scan, 5 password, 6 about, 7 USB disk, 8 SSH server, 9 SSH
password, 10 SD browser, 11 actions, 12 name input, 13 delete confirmation. Texts that are only drawn are left out.
-/

namespace Ratputer

/-- The keys the callback knows; it ignores every other text. -/
inductive UiKey
  | back | backspace | delete | enter | space | tab | down | right | up | left
  deriving Repr, DecidableEq

/-- The properties of the main window that the firmware reads. -/
structure MainWindow where
  viewState : Nat := 0
  menuIndex : Nat := 0
  wifiMenuIndex : Nat := 0
  savedIndex : Nat := 0
  scanIndex : Nat := 0
  savedNetworks : Nat := 0
  scanNetworks : Nat := 0
  wifiSelectedSsid : String := ""
  wifiPassword : String := ""
  /-- 1 scan, 2 connect saved, 3 select scan result, 4 connect with password, 5 forget saved. -/
  wifiAction : Nat := 0
  wifiActionIndex : Nat := 0
  wifiConnecting : Bool := false
  /-- 1 attach and export the card, 2 detach. -/
  usbDiskAction : Nat := 0
  /-- 1 start, 2 stop, 3 open the password editor, 4 save the password, 5 cancel the editor. -/
  sshAction : Nat := 0
  sshPassword : String := ""
  deriving Repr, DecidableEq, Inhabited

def MENU_LABELS : Nat := 6
def WIFI_MENU_LABELS : Nat := 2

namespace MainWindow

/-- The view that Enter opens from the menu, the USB and SSH entries aside. -/
def menuView (menuIndex : Nat) : Nat :=
  if menuIndex = 0 then 1 else if menuIndex = 1 then 2 else if menuIndex = 4 then 10 else 6

def keyBack (ui : MainWindow) : MainWindow :=
  if ui.viewState = 5 then { ui with wifiPassword := "", viewState := 4 }
  else if ui.viewState = 3 ∨ ui.viewState = 4 then { ui with viewState := 2 }
  else if ui.viewState = 7 then { ui with usbDiskAction := 2 }
  else if ui.viewState = 8 then { ui with sshAction := 2, viewState := 0 }
  else if ui.viewState = 9 then { ui with sshAction := 5 }
  else if ui.viewState ≠ 0 then { ui with viewState := 0 }
  else ui

def keyEnter (ui : MainWindow) : MainWindow :=
  if ui.viewState = 0 then
    if ui.menuIndex = 2 then { ui with usbDiskAction := 1, viewState := 7 }
    else if ui.menuIndex = 3 then { ui with sshAction := 1, viewState := 8 }
    else { ui with viewState := menuView ui.menuIndex }
  else if ui.viewState = 1 ∨ ui.viewState = 6 then { ui with viewState := 0 }
  else if ui.viewState = 7 then { ui with usbDiskAction := 2 }
  else if ui.viewState = 8 then { ui with sshAction := 2, viewState := 0 }
  else if ui.viewState = 9 then { ui with sshAction := 4 }
  else if ui.viewState = 2 then
    if ui.wifiMenuIndex = 0 then { ui with viewState := 3 }
    else { ui with wifiConnecting := true, wifiAction := 1, viewState := 4 }
  else if ui.viewState = 3 ∧ 0 < ui.savedNetworks then
    { ui with wifiActionIndex := ui.savedIndex, wifiConnecting := true, wifiAction := 2 }
  else if ui.viewState = 4 ∧ 0 < ui.scanNetworks then
    { ui with wifiActionIndex := ui.scanIndex, wifiAction := 3 }
  else if ui.viewState = 5 then { ui with wifiConnecting := true, wifiAction := 4 }
  else ui

/-- Move the selection of the open list by `step` of its length. -/
def move (ui : MainWindow) (step : Nat → Nat) : MainWindow :=
  if ui.viewState = 0 then { ui with menuIndex := (ui.menuIndex + step MENU_LABELS) % MENU_LABELS }
  else if ui.viewState = 2 then
    { ui with wifiMenuIndex := (ui.wifiMenuIndex + step WIFI_MENU_LABELS) % WIFI_MENU_LABELS }
  else if ui.viewState = 3 ∧ 0 < ui.savedNetworks then
    { ui with savedIndex := (ui.savedIndex + step ui.savedNetworks) % ui.savedNetworks }
  else if ui.viewState = 4 ∧ 0 < ui.scanNetworks then
    { ui with scanIndex := (ui.scanIndex + step ui.scanNetworks) % ui.scanNetworks }
  else ui

def keyNext (ui : MainWindow) : MainWindow := ui.move fun _ => 1

def keyPrevious (ui : MainWindow) : MainWindow := ui.move fun length => length - 1

/-- The key callback. -/
def keyPressed (ui : MainWindow) : UiKey → MainWindow
  | .back => ui.keyBack
  | .backspace => ui  -- password editing itself is handled by the firmware
  | .delete =>
    if ui.viewState = 3 ∧ 0 < ui.savedNetworks then { ui with wifiActionIndex := ui.savedIndex, wifiAction := 5 }
    else ui
  | .enter | .space => ui.keyEnter
  | .tab => if ui.viewState = 8 then { ui with sshAction := 3, viewState := 9 } else ui.keyNext
  | .down | .right => ui.keyNext
  | .up | .left => ui.keyPrevious

end MainWindow

end Ratputer
