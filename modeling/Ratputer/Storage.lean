import Ratputer.Fat

/-!
# The configuration on the card

`storage.rs`: the record of `RATPUTER/WIFI.CFG`, how it is loaded and saved, and the small-file reads and writes that the SSH host
key shares with it. `ConfigVolume V` are the driver's calls that these functions make, over volume states `V`; `Toml` are the two
calls of the TOML library.
-/

namespace Ratputer

def CONFIG_DIR : Str := "RATPUTER".toList
def CONFIG_FILE : Str := "WIFI.CFG".toList
def CONFIG_VERSION : Nat := 1
def MAX_CONFIG_BYTES : Nat := 4096

inductive StorageError
  | sd | missing | tooLarge | invalidToml | unsupportedVersion
  deriving Repr, DecidableEq

/-- The record of the file. The main loop leaves the version and the NTP server as they were loaded. -/
structure ConfigFile where
  version : Nat := CONFIG_VERSION
  ntpServer : String := "pool.ntp.org"
  config : WifiConfig := {}
  deriving Repr, DecidableEq, Inhabited

/-- Reading and writing the record as text. -/
structure Toml where
  fromStr : Str → Option ConfigFile
  toString : ConfigFile → Option Str

/-- The driver's calls on the mounted volume. `FileReader::read` is `read`; the writer starts over at the file's first octet. -/
structure ConfigVolume (V : Type) where
  Dir : Type
  Entry : Type
  Reader : Type
  Writer : Type
  rootDir : V → Dir
  openDir : Dir → Str → FatM V Dir
  createDir : Dir → Str → FatM V Dir
  openFile : Dir → Str → FatM V Reader
  read : Reader → Nat → FatM V (List UInt8 × Reader)
  find : Dir → Str → FatM V (Option Entry)
  isDirectory : Entry → Bool
  createFile : Dir → Str → FatM V Entry
  writerNew : Entry → FatM V Writer
  write : Writer → List UInt8 → FatM V (Nat × Writer)
  finish : Writer → FatM V Unit

/-- A call on the volume whose errors are the storage module's. -/
abbrev StorageM (V α : Type) := EStateM StorageError V α

namespace ConfigFile

/-- A network whose name and password the radio can take. -/
def validNetwork (entry : SavedNetwork) : Bool :=
  entry.ssid ≠ "" && entry.ssid.utf8ByteSize ≤ 32 && entry.password.utf8ByteSize ≤ 64

/-- Refuse another version, drop bad networks, and put the default in the place of every other bad value. -/
def validate (file : ConfigFile) : Except StorageError ConfigFile :=
  if file.version ≠ CONFIG_VERSION then .error .unsupportedVersion
  else
    let clock := file.config.clock
    let server := file.config.server
    .ok
      { file with
        ntpServer := if file.ntpServer = "" ∨ 64 < file.ntpServer.utf8ByteSize then "pool.ntp.org" else file.ntpServer
        config :=
          { clock :=
              if -720 ≤ clock.utcOffsetMinutes ∧ clock.utcOffsetMinutes ≤ 840 then clock
              else { clock with utcOffsetMinutes := 60 }
            server :=
              { user := if validServerCredential server.user then server.user else "rat"
                password := if validServerCredential server.password then server.password else "cheese" }
            networks := (file.config.networks.filter validNetwork).take MAX_SAVED_NETWORKS } }

end ConfigFile

namespace Storage

variable {V α : Type} (D : ConfigVolume V) (toml : Toml)

/-- A driver's call with its error replaced. -/
def mapErr (error : StorageError) (call : FatM V α) : StorageM V α := fun v =>
  match call v with
  | .ok a v => .ok a v
  | .error _ v => .error error v

/-- Read on in pieces of 256 octets, up to `max` in all. A read that gives nothing is the end of the file, so `max + 1` reads
always decide. -/
def readAll (max : Nat) : Nat → D.Reader → List UInt8 → StorageM V (List UInt8)
  | 0, _, _ => throw .tooLarge
  | fuel + 1, reader, bytes => do
    let (chunk, reader) ← mapErr .sd (D.read reader 256)
    if chunk = [] then pure bytes
    else if max < bytes.length + chunk.length then throw .tooLarge
    else readAll max fuel reader (bytes ++ chunk)

/-- Read a small file of `/RATPUTER`, refusing anything over `max` octets. -/
def readConfigFile (name : Str) (max : Nat) : StorageM V (List UInt8) := do
  let root := D.rootDir (← get)
  let directory ← mapErr .missing (D.openDir root CONFIG_DIR)
  let reader ← mapErr .missing (D.openFile directory name)
  readAll D max (max + 1) reader []

/-- The directory of the small files, created when it does not open. -/
def configDir : StorageM V D.Dir := fun v =>
  match D.openDir (D.rootDir v) CONFIG_DIR v with
  | .ok directory v => .ok directory v
  | .error _ v' => mapErr .sd (D.createDir (D.rootDir v) CONFIG_DIR) v'

/-- Create or overwrite a small file of `/RATPUTER`. -/
def writeConfigFile (name : Str) (bytes : List UInt8) : StorageM V Unit := do
  let directory ← configDir D
  let found ← mapErr .sd (D.find directory name)
  let entry ←
    match found with
    | some entry => if D.isDirectory entry then mapErr .sd (D.createFile directory name) else pure entry
    | none => mapErr .sd (D.createFile directory name)
  let writer ← mapErr .sd (D.writerNew entry)
  let (_, writer) ← mapErr .sd (D.write writer bytes)
  mapErr .sd (D.finish writer)

/-- What the octets of a file mean. -/
def parse (bytes : List UInt8) : Except StorageError ConfigFile :=
  match Utf8.decode bytes with
  | none => .error .invalidToml
  | some text =>
    match toml.fromStr text with
    | none => .error .invalidToml
    | some file => file.validate

/-- Load the configuration. -/
def load : StorageM V ConfigFile := do
  let bytes ← readConfigFile D CONFIG_FILE MAX_CONFIG_BYTES
  match parse toml bytes with
  | .ok file => pure file
  | .error error => throw error

/-- Save the configuration. -/
def save (file : ConfigFile) : StorageM V Unit :=
  match toml.toString file with
  | none => throw .invalidToml
  | some text =>
    if MAX_CONFIG_BYTES < (asBytes text).length then throw .tooLarge
    else writeConfigFile D CONFIG_FILE (asBytes text)

end Storage

end Ratputer
