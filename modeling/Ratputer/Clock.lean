import Mathlib.Algebra.Group.Int.Defs
import Mathlib.Algebra.Group.Nat.Defs
import Ratputer.Config

/-!
# Local time

The calendar functions of `clock.rs`: local seconds from Unix seconds and back, with the offset and the daylight-saving rule of
the configuration, and the civil date of a day number. Seconds and days are integers; every quotient below is of a number that
is not negative where the source divides with `/`, so the rounding of the two agrees.
-/

namespace Ratputer

def SECONDS_PER_DAY : Int := 86400

/-- Days since 1970-01-01 of a civil date (Howard Hinnant's algorithm). -/
def daysFromCivil (year : Int) (month day : Nat) : Int :=
  let year := if month ≤ 2 then year - 1 else year
  let era := year / 400
  let yearOfEra := year % 400
  let shiftedMonth : Int := if 2 < month then month - 3 else month + 9
  let dayOfYear := (153 * shiftedMonth + 2) / 5 + day - 1
  let dayOfEra := yearOfEra * 365 + yearOfEra / 4 - yearOfEra / 100 + dayOfYear
  era * 146097 + dayOfEra - 719468

/-- The civil date of a day number: year, month, day. -/
def civilFromDays (days : Int) : Int × Nat × Nat :=
  let days := days + 719468
  let era := days / 146097
  let dayOfEra := days % 146097
  let yearOfEra := (dayOfEra - dayOfEra / 1460 + dayOfEra / 36524 - dayOfEra / 146096) / 365
  let dayOfYear := dayOfEra - (365 * yearOfEra + yearOfEra / 4 - yearOfEra / 100)
  let shiftedMonth := (5 * dayOfYear + 2) / 153
  let day := (dayOfYear - (153 * shiftedMonth + 2) / 5 + 1).toNat
  let month := (if shiftedMonth < 10 then shiftedMonth + 3 else shiftedMonth - 9).toNat
  let year := yearOfEra + era * 400 + (if month ≤ 2 then 1 else 0)
  (year, month, day)

/-- The day number of the last Sunday of a month. -/
def lastSunday (year : Int) (month : Nat) : Int :=
  let next : Int × Nat := if month = 12 then (year + 1, 1) else (year, month + 1)
  let lastDay := daysFromCivil next.1 next.2 1 - 1
  lastDay - (lastDay + 4) % 7

/-- EU summer time: from 01:00 UTC on the last Sunday of March until 01:00 UTC on the last Sunday of October. -/
def euSummerTime (utc : Int) : Bool :=
  let year := (civilFromDays (utc / SECONDS_PER_DAY)).1
  let start := lastSunday year 3 * SECONDS_PER_DAY + 3600
  let fin := lastSunday year 10 * SECONDS_PER_DAY + 3600
  start ≤ utc && utc < fin

/-- A `u64` cast to an `i64`. -/
def asI64 (n : Nat) : Int := if n % 2 ^ 64 < 2 ^ 63 then (n : Int) % 2 ^ 64 else (n : Int) % 2 ^ 64 - 2 ^ 64

/-- An `i64` cast to a `u64`. -/
def asU64 (n : Int) : Nat := (n % 2 ^ 64).toNat

/-- The number is one of an `i64`. -/
def FitsI64 (n : Int) : Prop := -2 ^ 63 ≤ n ∧ n < 2 ^ 63

instance (n : Int) : Decidable (FitsI64 n) := by unfold FitsI64; infer_instance

/-- Seconds since 1970-01-01 00:00 local time. -/
def localSeconds (unixSeconds : Nat) (config : ClockConfig) : Int :=
  let utc := asI64 unixSeconds
  let standard := utc + config.utcOffsetMinutes * 60
  if config.dst = .eu ∧ euSummerTime utc then standard + 3600 else standard

/-- UTC Unix seconds of a local time; in the repeated autumn hour the summer-time instant. -/
def unixFromLocal (seconds : Int) (config : ClockConfig) : Int :=
  let standard := seconds - config.utcOffsetMinutes * 60
  if config.dst = .eu ∧ euSummerTime (standard - 3600) then standard - 3600 else standard

/-- Seconds since 1970-01-01 of a calendar date and time. -/
def secondsFromCivil (year : Int) (month day hour minute second : Nat) : Int :=
  daysFromCivil year month day * SECONDS_PER_DAY + hour * 3600 + minute * 60 + second

/-- Calendar fields of a `localSeconds` value. -/
structure DateTime where
  year : Int
  month : Nat
  day : Nat
  hour : Nat
  minute : Nat
  second : Nat
  deriving Repr, DecidableEq

def dateTime (seconds : Int) : DateTime :=
  let d := civilFromDays (seconds / SECONDS_PER_DAY)
  let secondsOfDay := (seconds % SECONDS_PER_DAY).toNat
  { year := d.1
    month := d.2.1
    day := d.2.2
    hour := secondsOfDay / 3600
    minute := secondsOfDay % 3600 / 60
    second := secondsOfDay % 60 }

/-- A FAT timestamp in its packed form: date, time, and 10-ms units. -/
structure FatDateTime where
  date : Nat
  time : Nat
  timeTenth : Nat := 0
  deriving Repr, DecidableEq, Inhabited

/-- Pack calendar fields; years outside 1980 to 2107 are clamped. -/
def FatDateTime.new (year month day hour minute second : Nat) : FatDateTime :=
  { date := (min (year - 1980) 127) <<< 9 ||| (month &&& 0x0f) <<< 5 ||| (day &&& 0x1f)
    time := (hour &&& 0x1f) <<< 11 ||| (minute &&& 0x3f) <<< 5 ||| (second / 2 &&& 0x1f) }

/-- The fields of a packed date: year, month, day. -/
def unpackDate (date : Nat) : Nat × Nat × Nat := ((date >>> 9 &&& 0x7f) + 1980, date >>> 5 &&& 0x0f, date &&& 0x1f)

/-- The fields of a packed time: hour, minute, second. -/
def unpackTime (time : Nat) : Nat × Nat × Nat := (time >>> 11 &&& 0x1f, time >>> 5 &&& 0x3f, (time &&& 0x1f) * 2)

example : dateTime (localSeconds 1750000000 {}) = ⟨2025, 6, 15, 17, 6, 40⟩ := by decide

end Ratputer
