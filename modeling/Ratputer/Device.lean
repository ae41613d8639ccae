import Ratputer.MainLoop
import Ratputer.Storage

/-!
# A boot and the card's small files

The main loop together with the card it works on: boot and every pass, with the loads and saves of `RATPUTER/WIFI.CFG` in
`main.rs` and the SSH host key of `ssh.rs`. The firmware's `storage` and `usbSd` only say here who has the card; its contents,
over which the driver's calls run, are `card`. The browser, the USB host and SFTP may change it in any way. A stage yields its
accesses to the two files, in order.
-/

namespace Ratputer

def HOSTKEY_FILE : Str := "SSHHOST.KEY".toList

/-- The seed of an Ed25519 key. -/
abbrev Seed := { bytes : List UInt8 // bytes.length = 32 }

/-- The SSH server's key. -/
structure HostKey where
  hostkey : Option Seed := none
  /-- A generated key is waiting for the card. -/
  unsavedSeed : Option Seed := none
  deriving DecidableEq

/-- An access to one of the files, on the card as it finds it; or another use of the card, which leaves it so. -/
inductive Access (V : Type)
  | load (card : V) (result : Except StorageError ConfigFile)
  | save (card : V) (file : ConfigFile)
  | loadKey (card : V) (result : Except StorageError (List UInt8))
  | saveKey (card : V) (seed : Seed)
  | edit (card : V)

structure Device (V : Type) where
  fw : Firmware Unit Unit
  card : V
  ntpServer : String := "pool.ntp.org"
  key : HostKey := {}

/-- What the outside answers in one pass. The results of loading and saving come from the card. -/
structure Turn (V : Type) where
  pass : Pass Unit Unit
  browse : V → V := id
  host : V → V := id
  sftp : V → V := id
  /-- The listener finds an established connection. -/
  accepts : Bool := false
  random : Seed

namespace Firmware

variable {V C : Type} (s : Firmware V C) (p : Pass V C)

/-- The radio step establishes a connection. -/
def connects : Bool :=
  match s.radioPending with
  | some (.connect _ _) => s.wifi && p.connect
  | _ => false

/-- The pending Wi-Fi command forgets a saved network. -/
def forgets : Bool :=
  s.ui.wifiAction = 5 && s.autoJob.isNone && s.ui.wifiActionIndex < s.wifiConfig.networks.length

/-- The pending SSH command has a password to save. -/
def hasPassword : Bool := s.ui.sshAction = 4 && validServerCredential s.ui.sshPassword

/-- The pending USB command takes back a card that mounts. -/
def remounts : Bool :=
  s.ui.usbDiskAction = 2 && (p.canDetach || s.usbForceExitArmed) && (s.usbSd.bind p.mount).isSome

/-- The saved configuration with a new server password. -/
def withPassword : Firmware V C :=
  { s with wifiConfig := { s.wifiConfig with server := { s.wifiConfig.server with password := s.ui.sshPassword } } }

end Firmware

/-- A call on the card: its result, and the card it leaves. -/
def runOn {V α : Type} (call : StorageM V α) (card : V) : Except StorageError α × V :=
  match call card with
  | .ok a card => (.ok a, card)
  | .error error card => (.error error, card)

/-- What the main loop makes of a loaded record: a missing file counts as loaded, with the defaults. -/
def loadResult : Except StorageError ConfigFile → LoadResult
  | .ok file => .loaded file.config
  | .error .missing => .missing
  | .error _ => .failed

/-- The configuration that the firmware goes on with. -/
def loadedFile (old : ConfigFile) : Except StorageError ConfigFile → ConfigFile
  | .ok file => file
  | .error .missing => {}
  | .error _ => old

namespace Device

variable {V : Type} (D : ConfigVolume V) (toml : Toml)

/-- A stage after another, with the accesses of both. -/
def andThen (r : Device V × List (Access V)) (next : Device V → Device V × List (Access V)) : Device V × List (Access V) :=
  ((next r.1).1, r.2 ++ (next r.1).2)

/-- A stage that runs under a condition only. -/
def guarded (c : Bool) (stage : Device V → Device V × List (Access V)) (d : Device V) : Device V × List (Access V) :=
  if c then stage d else (d, [])

/-- The record in memory. -/
def file (d : Device V) : ConfigFile := { ntpServer := d.ntpServer, config := d.fw.wifiConfig }

def mounted (d : Device V) : Bool := d.fw.storage.isSome

/-- Another component's use of the card. -/
def edit (d : Device V) (change : V → V) : Device V × List (Access V) :=
  ({ d with card := change d.card }, [.edit (change d.card)])

/-- `storage.as_ref().is_none_or(|manager| storage::save(manager, &wifiConfig).is_err())`: whether it was saved, the card, and
the access. -/
def save (d : Device V) : Bool × V × List (Access V) :=
  if d.mounted then
    let r := runOn (Storage.save D toml d.file) d.card
    (r.1.isOk, r.2, [.save d.card d.file])
  else (false, d.card, [])

/-- The console, the keyboard, and the browser's stage. -/
def browse (d : Device V) (t : Turn V) : Device V × List (Access V) :=
  let keys := d.fw.handleInput t.pass
  let browser := keys.1.leaveSsh.browser t.pass
  let d := { d with fw := browser.1 }
  guarded (!(keys.2 ++ browser.2).isEmpty) (·.edit t.browse) d

/-- The radio step, with the save of a new connection. -/
def radioStep (d : Device V) (t : Turn V) : Device V × List (Access V) :=
  let connects := d.fw.connects t.pass
  let d := { d with fw := d.fw.radioStep t.pass }
  if connects then
    let r := d.save D toml
    ({ d with card := r.2.1 }, r.2.2)
  else (d, [])

/-- The Wi-Fi command, with the save of a shorter list. -/
def wifiAction (d : Device V) (t : Turn V) : Device V × List (Access V) :=
  let forgets := d.fw.forgets
  let d := { d with fw := d.fw.wifiAction t.pass }
  if forgets then
    let r := d.save D toml
    ({ d with card := r.2.1 }, r.2.2)
  else (d, [])

def pollAutoJob (d : Device V) (t : Turn V) : Device V := { d with fw := d.fw.pollAutoJob t.pass }

/-- The radio's part of a pass. -/
def radio (d : Device V) (t : Turn V) : Device V × List (Access V) :=
  andThen (d.radioStep D toml t) fun d =>
    let d := d.pollAutoJob t
    andThen (d.wifiAction D toml t) fun d' =>
      ({ d' with fw := d'.fw.autoConnect t.pass d.fw.ui.wifiAction }, [])

/-- The host's use of an exported card. -/
def host (d : Device V) (t : Turn V) : Device V × List (Access V) := guarded d.fw.usbSd.isSome (·.edit t.host) d

/-- The USB command, which loads the configuration again from a card it takes back. -/
def usbAction (d : Device V) (t : Turn V) : Device V × List (Access V) :=
  if d.fw.remounts t.pass then
    let r := runOn (Storage.load D toml) d.card
    ({ d with
        fw := (d.fw.usb { t.pass with load := loadResult r.1 }).1
        card := r.2
        ntpServer := (loadedFile d.file r.1).ntpServer }, [.load d.card r.1])
  else ({ d with fw := (d.fw.usb t.pass).1 }, [])

def usb (d : Device V) (t : Turn V) : Device V × List (Access V) :=
  andThen (d.host t) fun d => d.usbAction D toml t

/-- The SSH command, with the save of a new password. -/
def sshAction (d : Device V) (t : Turn V) : Device V × List (Access V) :=
  if d.fw.hasPassword then
    let r := { d with fw := d.fw.withPassword }.save D toml
    ({ d with fw := d.fw.sshAction { t.pass with save := r.1 }, card := r.2.1 }, r.2.2)
  else ({ d with fw := d.fw.sshAction t.pass }, [])

/-- Generate a key if there is none, and persist it. -/
def ensureHostkey (d : Device V) (random : Seed) : Device V × List (Access V) :=
  let key := if d.key.hostkey.isNone then { hostkey := some random, unsavedSeed := some random } else d.key
  match key.unsavedSeed, d.mounted with
  | some seed, true =>
    let r := runOn (Storage.writeConfigFile D HOSTKEY_FILE seed.val) d.card
    ({ d with card := r.2, key := if r.1.isOk then { key with unsavedSeed := none } else key }, [.saveKey d.card seed])
  | _, _ => ({ d with key }, [])

/-- The network, and the SSH server's poll: the key is ensured on the server's screen, and again for a new client. -/
def serve (d : Device V) (t : Turn V) : Device V × List (Access V) :=
  let d := { d with fw := d.fw.networkPoll t.pass }
  if d.fw.sshActive && d.fw.network then
    andThen (guarded t.pass.linkUp (ensureHostkey D · t.random) d) fun d =>
      andThen (guarded t.accepts (ensureHostkey D · t.random) d) fun d =>
        { d with fw := (d.fw.sshPoll t.pass).1 }.edit t.sftp
  else ({ d with fw := (d.fw.sshPoll t.pass).1 }, [])

/-- One pass of the main loop. -/
def turn (d : Device V) (t : Turn V) : Device V × List (Access V) :=
  andThen (d.browse t) fun d =>
    andThen (d.radio D toml t) fun d =>
      andThen (d.usb D toml t) fun d =>
        andThen (d.sshAction D toml t) fun d => d.serve D t

/-- `SshServer::new`: load the persisted key, if there is one of the right size. -/
def loadKey (d : Device V) : Device V × List (Access V) :=
  let r := runOn (Storage.readConfigFile D HOSTKEY_FILE 64) d.card
  let key : HostKey :=
    match r.1 with
    | .ok bytes => { hostkey := if h : bytes.length = 32 then some ⟨bytes, h⟩ else none }
    | .error _ => {}
  ({ d with card := r.2, key }, [.loadKey d.card r.1])

/-- Boot on a card that mounts or not, with a radio or without. -/
def boot (mounted radio : Bool) (card : V) : Device V × List (Access V) :=
  if mounted then
    let r := runOn (Storage.load D toml) card
    let file := loadedFile {} r.1
    let d : Device V := { fw := .boot (some ()) radio file.config, card := r.2, ntpServer := file.ntpServer }
    andThen (d, [.load card r.1]) (guarded radio (·.loadKey D))
  else ({ fw := .boot none radio {}, card }, [])

end Device

end Ratputer
