import Mathlib.Data.List.Sort

/-!
# The saved configuration and the scan list

The records of `storage.rs` and `wifi.rs` that the main loop keeps in memory: saved networks, the server credentials, the clock
settings, and the list of networks a scan has found.
-/

namespace Ratputer

def MAX_SAVED_NETWORKS : Nat := 12
def MAX_SCAN_RESULTS : Nat := 8

/-- How a network authenticates. -/
inductive AuthKind
  | open | wep | wpa | wpa2 | wpaWpa2
  deriving Repr, DecidableEq, Inhabited

structure SavedNetwork where
  ssid : String
  password : String
  auth : AuthKind
  deriving Repr, DecidableEq, Inhabited

/-- The daylight-saving rule applied on top of the fixed offset. -/
inductive DstRule
  | none | eu
  deriving Repr, DecidableEq, Inhabited

structure ClockConfig where
  utcOffsetMinutes : Int := 60
  dst : DstRule := .eu
  deriving Repr, DecidableEq, Inhabited

structure ServerConfig where
  user : String := "rat"
  password : String := "cheese"
  deriving Repr, DecidableEq, Inhabited

structure WifiConfig where
  clock : ClockConfig := {}
  server : ServerConfig := {}
  networks : List SavedNetwork := []
  deriving Repr, DecidableEq, Inhabited

/-- Printable ASCII without the space, as `isAsciiGraphic`. -/
def isAsciiGraphic (c : Char) : Bool := 33 ≤ c.toNat && c.toNat ≤ 126

/-- Server credentials: 1 to 32 printable ASCII characters without spaces. -/
def validServerCredential (value : String) : Bool :=
  1 ≤ value.utf8ByteSize && value.utf8ByteSize ≤ 32 && value.toList.all isAsciiGraphic

/-- Replace the network of that name, or append it, dropping the oldest entry of a full list. -/
def WifiConfig.upsert (config : WifiConfig) (network : SavedNetwork) : WifiConfig :=
  if config.networks.any (·.ssid = network.ssid) then
    { config with networks := config.networks.replaceF (fun entry =>
        if entry.ssid = network.ssid then some network else none) }
  else
    let networks := if config.networks.length = MAX_SAVED_NETWORKS then config.networks.drop 1 else config.networks
    { config with networks := networks ++ [network] }

/-- Forget the network at an index; the flag says whether there was one. -/
def WifiConfig.remove (config : WifiConfig) (index : Nat) : Bool × WifiConfig :=
  if config.networks.length ≤ index then (false, config)
  else (true, { config with networks := config.networks.eraseIdx index })

/-- One network a scan has found. -/
structure ScanNetwork where
  ssid : String
  signalStrength : Int
  auth : AuthKind
  supported : Bool
  deriving Repr, DecidableEq, Inhabited

/-- Take one scan result into the list: a known network keeps the stronger signal, a new one is appended. -/
def mergeScanResult (networks : List ScanNetwork) (network : ScanNetwork) : List ScanNetwork :=
  if networks.any (·.ssid = network.ssid) then
    networks.replaceF fun entry =>
      if entry.ssid = network.ssid then
        some { entry with signalStrength := max entry.signalStrength network.signalStrength }
      else none
  else networks ++ [network]

/-- Merge a scan pass into the list, strongest first, at most `MAX_SCAN_RESULTS` of them. -/
def mergeScanResults (networks results : List ScanNetwork) : List ScanNetwork :=
  ((results.foldl mergeScanResult networks).insertionSort
    fun left right => right.signalStrength ≤ left.signalStrength).take MAX_SCAN_RESULTS

end Ratputer
