import Ratputer.Fat
import Ratputer.Lib.Octets

/-!
# SFTP packets

The constants of `sftp.rs`, the reader over one request body, and the encoders of its replies. Numbers on the wire are
big-endian; `putU32` and `putString` keep the low 32 bits of what they write, as the casts of the source do.
-/

namespace Ratputer

open Octets

def FXP_INIT : Nat := 1
def FXP_VERSION : Nat := 2
def FXP_OPEN : Nat := 3
def FXP_CLOSE : Nat := 4
def FXP_READ : Nat := 5
def FXP_WRITE : Nat := 6
def FXP_LSTAT : Nat := 7
def FXP_FSTAT : Nat := 8
def FXP_SETSTAT : Nat := 9
def FXP_FSETSTAT : Nat := 10
def FXP_OPENDIR : Nat := 11
def FXP_READDIR : Nat := 12
def FXP_REMOVE : Nat := 13
def FXP_MKDIR : Nat := 14
def FXP_RMDIR : Nat := 15
def FXP_REALPATH : Nat := 16
def FXP_STAT : Nat := 17
def FXP_RENAME : Nat := 18
def FXP_STATUS : Nat := 101
def FXP_HANDLE : Nat := 102
def FXP_DATA : Nat := 103
def FXP_NAME : Nat := 104
def FXP_ATTRS : Nat := 105
def FXP_EXTENDED : Nat := 200
def FXP_EXTENDED_REPLY : Nat := 201

def FX_OK : Nat := 0
def FX_EOF : Nat := 1
def FX_NO_SUCH_FILE : Nat := 2
def FX_PERMISSION_DENIED : Nat := 3
def FX_FAILURE : Nat := 4
def FX_BAD_MESSAGE : Nat := 5
def FX_OP_UNSUPPORTED : Nat := 8

def FXF_READ : Nat := 0x01
def FXF_WRITE : Nat := 0x02
def FXF_APPEND : Nat := 0x04
def FXF_CREAT : Nat := 0x08
def FXF_TRUNC : Nat := 0x10
def FXF_EXCL : Nat := 0x20

def ATTR_SIZE : Nat := 0x01
def ATTR_UIDGID : Nat := 0x02
def ATTR_PERMISSIONS : Nat := 0x04
def ATTR_ACMODTIME : Nat := 0x08
def ATTR_EXTENDED : Nat := 0x80000000

/-- Largest request accepted, WRITE aside. -/
def MAX_REQUEST : Nat := 4096
/-- Largest `DATA` reply. -/
def MAX_READ_REPLY : Nat := 32 * 1024
/-- Card I/O of one step. -/
def IO_CHUNK : Nat := 8192
/-- Reply buffer: one card chunk and a `DATA` header, or a READDIR batch. -/
def MAX_OUTPUT : Nat := IO_CHUNK + 64
/-- WRITE payload committed in one step at most. -/
def WRITE_CHUNK : Nat := 8192
/-- Input bytes held at most. -/
def MAX_INPUT : Nat := WRITE_CHUNK + 2048
def MAX_HANDLES : Nat := 8
def READDIR_MAX_ENTRIES : Nat := 24
def READDIR_MAX_BYTES : Nat := 3072

/-- `u32::MAX`. -/
def U32_MAX : Nat := 2 ^ 32 - 1

/-- A flag of a flag word is set. -/
def hasFlag (flags flag : Nat) : Bool := flags &&& flag != 0

/-- An error that a request handler reports as an `SSH_FXP_STATUS`. -/
structure Status where
  code : Nat
  message : String
  deriving Repr, DecidableEq, Inhabited

namespace Status

def failure (message : String) : Status := ⟨FX_FAILURE, message⟩
def noSuchFile : Status := ⟨FX_NO_SUCH_FILE, "No such file or directory"⟩
def badMessage : Status := ⟨FX_BAD_MESSAGE, "Malformed request"⟩

end Status

/-! ## Writing -/

def putU32 (value : Nat) : List UInt8 := beBytes 4 value

def putU64 (value : Nat) : List UInt8 := beBytes 8 value

def putString (bytes : List UInt8) : List UInt8 := putU32 bytes.length ++ bytes

/-- A whole packet of the given type: `begin`, the body, `finish`. -/
def packet (kind : Nat) (body : List UInt8) : List UInt8 :=
  putU32 (body.length + 1) ++ UInt8.ofNat kind :: body

/-- The octets of a message. -/
def messageBytes (message : String) : List UInt8 := asBytes message.toList

def statusPacket (id : Nat) (status : Status) : List UInt8 :=
  packet FXP_STATUS (putU32 id ++ putU32 status.code ++ putString (messageBytes status.message) ++ putString [])

/-- The reply to INIT: version 3 and the extensions. -/
def versionPacket : List UInt8 :=
  packet FXP_VERSION (putU32 3 ++
    [("fsync@openssh.com", "1"), ("statvfs@openssh.com", "2"), ("fstatvfs@openssh.com", "2"),
      ("limits@openssh.com", "1")].flatMap fun p => putString (messageBytes p.1) ++ putString (messageBytes p.2))

/-- Version 3 attributes as the server reports them. -/
structure Attrs where
  size : Nat
  permissions : Nat
  mtime : Option Nat
  atime : Option Nat
  deriving Repr, DecidableEq

namespace Attrs

def root : Attrs := ⟨0, 0o040755, none, none⟩

/-- A Unix time as 32 bits, clamped. -/
def clampU32 (t : Int) : Nat := min t.toNat U32_MAX

/-- The attributes of an entry; directories report size 0, and the read-only bit clears the write permissions. -/
def of {Identity : Type} (entry : FileEntry Identity) (clock : ClockConfig) : Attrs :=
  let (year, month, day) := unpackDate entry.modified.date
  let (hour, minute, second) := unpackTime entry.modified.time
  let (ayear, amonth, aday) := unpackDate entry.accessedDate
  let mode := if entry.isDirectory then 0o040755 else 0o100644
  { size := if entry.isDirectory then 0 else entry.len
    permissions := if entry.readOnly then mode &&& (U32_MAX ^^^ 0o222) else mode
    mtime := some (clampU32 (unixFromLocal (secondsFromCivil year (max month 1) (max day 1) hour minute second) clock))
    atime := some (clampU32 (unixFromLocal (secondsFromCivil ayear (max amonth 1) (max aday 1) 0 0 0) clock)) }

def encode (attrs : Attrs) : List UInt8 :=
  putU32 (ATTR_SIZE ||| ATTR_PERMISSIONS ||| if attrs.mtime.isSome then ATTR_ACMODTIME else 0) ++ putU64 attrs.size ++
    putU32 attrs.permissions ++
    match attrs.mtime with
    | some mtime => putU32 (attrs.atime.getD mtime) ++ putU32 mtime
    | none => []

end Attrs

/-! ## Reading -/

/-- Attributes requested by OPEN, MKDIR, SETSTAT or FSETSTAT. -/
structure RequestedAttrs where
  size : Option Nat := none
  permissions : Option Nat := none
  times : Option (Nat × Nat) := none
  owner : Bool := false
  deriving Repr, DecidableEq, Inhabited

/-- The bounds-checked reader: what is left of the body, `none` when it is too short. -/
abbrev ReaderM (α : Type) := StateT (List UInt8) Option α

namespace Reader

def take (count : Nat) : ReaderM (List UInt8) := fun bytes =>
  if bytes.length < count then none else some (bytes.take count, bytes.drop count)

def u32 : ReaderM Nat := do return beNat (← take 4)

def u64 : ReaderM Nat := do return beNat (← take 8)

def string : ReaderM (List UInt8) := do take (← u32)

/-- A UTF-8 path without NUL. -/
def path : ReaderM Str := do
  let bytes ← string
  match Utf8.decode bytes with
  | some text => if '\x00' ∈ text then failure else return text
  | none => failure

/-- The pairs of an extended attribute list, which are skipped. -/
def skipPairs : Nat → ReaderM Unit
  | 0 => return
  | n + 1 => do
    let _ ← string
    let _ ← string
    skipPairs n

/-- The flags an attribute block may not have. -/
def ATTR_UNKNOWN : Nat :=
  U32_MAX ^^^ (ATTR_SIZE ||| ATTR_UIDGID ||| ATTR_PERMISSIONS ||| ATTR_ACMODTIME ||| ATTR_EXTENDED)

/-- An attribute block. -/
def attrs : ReaderM RequestedAttrs := do
  let flags ← u32
  if hasFlag flags ATTR_UNKNOWN then failure
  let size ← if hasFlag flags ATTR_SIZE then some <$> u64 else pure none
  let owner ← if hasFlag flags ATTR_UIDGID then (fun _ => true) <$> take 8 else pure false
  let permissions ← if hasFlag flags ATTR_PERMISSIONS then some <$> u32 else pure none
  let times ← if hasFlag flags ATTR_ACMODTIME then do
      let atime ← u32
      let mtime ← u32
      pure (some (atime, mtime))
    else pure none
  if hasFlag flags ATTR_EXTENDED then
    let count ← u32
    skipPairs count
  return { size, permissions, times, owner }

end Reader

end Ratputer
