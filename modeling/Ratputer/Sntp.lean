import Ratputer.Clock
import Ratputer.FsPath
import Ratputer.Lib.Octets

/-!
# Time from the network

The reply of the time server (`net.rs`), the clock that runs on from the last reply (`WallClock` of `clock.rs`) and the local time
the main loop publishes for FAT timestamps and listings (`storage.rs`). An `Instant` is a number of microseconds; the published
time is the 32-bit word of the source, 0 before the first reply.
-/

namespace Ratputer

open Octets

/-- Seconds from 1900-01-01, where NTP counts from, to 1970-01-01. -/
def NTP_UNIX_OFFSET : Nat := 2208988800

inductive SntpError
  | timeout | socket | send | badReply
  deriving Repr, DecidableEq

/-- Unix seconds of a reply: a server's, from a stratum that has the time. -/
def parseReply (data : List UInt8) : Except SntpError Nat :=
  if data.length < 48 then .error .badReply
  else
    let mode := data.getD 0 0 &&& 0x07
    let stratum := data.getD 1 0
    -- Mode 4 = server; stratum 0 is a "kiss-o'-death" refusal.
    if mode ≠ 4 ∨ stratum = 0 then .error .badReply
    else
      let seconds := beNat ((data.drop 40).take 4)
      if seconds < NTP_UNIX_OFFSET then .error .badReply else .ok (seconds - NTP_UNIX_OFFSET)

/-- Unix seconds at the last reply, and when that was. -/
structure WallClock where
  synced : Option (Nat × Nat) := none
  deriving Repr, DecidableEq, Inhabited

namespace WallClock

def set (_ : WallClock) (unixSeconds at_ : Nat) : WallClock := ⟨some (unixSeconds, at_)⟩

/-- Unix seconds at the instant `now`. -/
def unixNow (clock : WallClock) (now : Nat) : Option Nat :=
  clock.synced.map fun (unixSeconds, at_) => unixSeconds + (now - at_) / 1000000

end WallClock

/-- The word that `setLocalTime` stores. -/
def setLocalTime (localSeconds : Int) : Nat := (max 0 (min localSeconds (2 ^ 32 - 1))).toNat

/-- The published local time, if there has been a reply. -/
def localNowSeconds (published : Nat) : Option Int := if published ≠ 0 then some published else none

/-- The time of FAT timestamps: the published time, or a fixed date before the first reply. -/
def FatClock.now (published : Nat) : FatDateTime :=
  if published = 0 then .new 2026 1 1 0 0 0
  else
    let time := dateTime published
    .new time.year.toNat time.month time.day time.hour time.minute time.second

/-- The time of listings, as fourteen digits. -/
def nowYmdhms (published : Nat) : Str :=
  match localNowSeconds published with
  | some now =>
    let time := dateTime now
    padLeft 4 '0' time.year.toNat ++ padLeft 2 '0' time.month ++ padLeft 2 '0' time.day ++ padLeft 2 '0' time.hour ++
      padLeft 2 '0' time.minute ++ padLeft 2 '0' time.second
  | none => "19800101000000".toList

/-- One pass of the main loop over the clock: the local time is published when there has been a reply. -/
def publishLocalTime (clock : WallClock) (now : Nat) (config : ClockConfig) (published : Nat) : Nat :=
  match clock.unixNow now with
  | some unixSeconds => setLocalTime (localSeconds unixSeconds config)
  | none => published

end Ratputer
