import Mathlib.Logic.Function.Iterate
import Mathlib.Data.Int.Order.Basic
import Mathlib.Tactic.IntervalCases
import Mathlib.Tactic.Ring

/-!
# The Gregorian calendar

Dates as year, month and day, with the step from one date to the next. `Date.number` counts the days from 1970-01-01 in closed
form; it grows by one with every step, so the valid dates are numbered without gap or repetition, and `after n`, the date reached
from 1970-01-01 in `n` steps, is the only valid date of number `n`. Weeks are counted on the number.
-/

namespace Gregorian

/-- Every fourth year, the full centuries not divisible by 400 apart. -/
def Leap (y : ℤ) : Prop := y % 4 = 0 ∧ (y % 100 ≠ 0 ∨ y % 400 = 0)

instance (y : ℤ) : Decidable (Leap y) := by unfold Leap; infer_instance

/-- Days of a month of a year. -/
def monthLength (y : ℤ) (m : ℕ) : ℕ :=
  if m = 2 then if Leap y then 29 else 28
  else if m = 4 ∨ m = 6 ∨ m = 9 ∨ m = 11 then 30
  else 31

structure Date where
  year : ℤ
  month : ℕ
  day : ℕ
  deriving Repr, DecidableEq

namespace Date

/-- The date is one of the calendar. -/
structure Valid (d : Date) : Prop where
  month_pos : 1 ≤ d.month
  month_le : d.month ≤ 12
  day_pos : 1 ≤ d.day
  day_le : d.day ≤ monthLength d.year d.month

/-- The day after. -/
def next (d : Date) : Date :=
  if d.day < monthLength d.year d.month then { d with day := d.day + 1 }
  else if d.month < 12 then ⟨d.year, d.month + 1, 1⟩
  else ⟨d.year + 1, 1, 1⟩

end Date

/-! ## Numbering the days -/

/-- Days of the first `k` months of a year. -/
def daysOfMonths (y : ℤ) : ℕ → ℕ
  | 0 => 0
  | k + 1 => daysOfMonths y k + monthLength y (k + 1)

/-- Days from 1 January of year 1 to 1 January of the year. -/
def daysBeforeYear (y : ℤ) : ℤ := 365 * (y - 1) + (y - 1) / 4 - (y - 1) / 100 + (y - 1) / 400

/-- Days from 1970-01-01 to the date. -/
def Date.number (d : Date) : ℤ := daysBeforeYear d.year + daysOfMonths d.year (d.month - 1) + d.day - 719163

/-- The date `n` days after 1970-01-01. -/
def after (n : ℕ) : Date := Date.next^[n] ⟨1970, 1, 1⟩

theorem monthLength_pos (y : ℤ) (m : ℕ) : 28 ≤ monthLength y m := by
  unfold monthLength
  split_ifs <;> omega

theorem monthLength_le (y : ℤ) (m : ℕ) : monthLength y m ≤ 31 := by
  unfold monthLength
  split_ifs <;> omega

/-- A year has 365 days, a leap year 366. -/
theorem daysOfMonths_twelve (y : ℤ) : daysOfMonths y 12 = if Leap y then 366 else 365 := by
  have hfeb : monthLength y 2 = if Leap y then 29 else 28 := if_pos rfl
  have h : daysOfMonths y 12 = 31 + monthLength y 2 + 306 := rfl
  rw [h, hfeb]
  split_ifs <;> rfl

/-- The next year starts when the months of this one are over. -/
theorem daysBeforeYear_succ (y : ℤ) : daysBeforeYear (y + 1) = daysBeforeYear y + daysOfMonths y 12 := by
  rw [daysOfMonths_twelve]
  unfold daysBeforeYear
  split_ifs with hl <;> unfold Leap at hl <;> push_cast <;> omega

/-- Of two years the one that starts later is the later one. -/
theorem daysBeforeYear_lt_iff {y y' : ℤ} : daysBeforeYear y < daysBeforeYear y' ↔ y < y' := by
  have hmono : StrictMono daysBeforeYear := by
    refine strictMono_int_of_lt_succ fun y => ?_
    have h := daysBeforeYear_succ y
    rw [daysOfMonths_twelve] at h
    split_ifs at h <;> omega
  exact hmono.lt_iff_lt

theorem daysBeforeYear_le {y y' : ℤ} (h : y ≤ y') : daysBeforeYear y ≤ daysBeforeYear y' :=
  le_of_not_gt fun hlt => absurd (daysBeforeYear_lt_iff.mp hlt) (not_lt_of_ge h)

theorem daysOfMonths_mono (y : ℤ) : Monotone (daysOfMonths y) :=
  monotone_nat_of_le_succ fun k => by rw [daysOfMonths]; omega

/-- A month of the year ends where the next one starts. -/
theorem daysOfMonths_pred {m : ℕ} (h : 1 ≤ m) (y : ℤ) : daysOfMonths y m = daysOfMonths y (m - 1) + monthLength y m := by
  obtain ⟨k, rfl⟩ : ∃ k, m = k + 1 := ⟨m - 1, by omega⟩
  rfl

namespace Date

theorem next_valid {d : Date} (h : d.Valid) : d.next.Valid := by
  unfold next
  split_ifs with hd hm
  · exact ⟨h.month_pos, h.month_le, Nat.le_add_left _ _, hd⟩
  · exact ⟨Nat.le_add_left _ _, hm, le_rfl, (by decide : 1 ≤ 28).trans (monthLength_pos _ _)⟩
  · exact ⟨le_rfl, by simp, le_rfl, (by decide : 1 ≤ 28).trans (monthLength_pos _ _)⟩

/-- Each day has the number after that of the day before. -/
theorem number_next {d : Date} (h : d.Valid) : d.next.number = d.number + 1 := by
  have hmonth := daysOfMonths_pred h.month_pos d.year
  unfold next
  split_ifs with hd hm
  · simp only [number]
    push_cast
    ring
  · have hday : d.day = monthLength d.year d.month := le_antisymm h.day_le (not_lt.mp hd)
    simp only [number, Nat.add_sub_cancel]
    omega
  · have hday : d.day = monthLength d.year d.month := le_antisymm h.day_le (not_lt.mp hd)
    have h12 : d.month = 12 := le_antisymm h.month_le (not_lt.mp hm)
    have hyear := daysBeforeYear_succ d.year
    simp only [h12, Nat.reduceSub] at hmonth hday
    have hjan : daysOfMonths (d.year + 1) 0 = 0 := rfl
    simp only [number, h12, Nat.reduceSub]
    omega

/-- A date is in its year: its number is at least that of 1 January, and below that of the next year's. -/
theorem number_mem_year {d : Date} (h : d.Valid) :
    daysBeforeYear d.year ≤ d.number + 719162 ∧ d.number + 719162 < daysBeforeYear (d.year + 1) := by
  have hmonth := daysOfMonths_pred h.month_pos d.year
  have hmono := daysOfMonths_mono d.year h.month_le
  have hd := h.day_le
  have hd1 := h.day_pos
  rw [daysBeforeYear_succ]
  unfold number
  omega

/-- Two valid dates of one number have the same year. -/
theorem year_eq_of_number {d e : Date} (hd : d.Valid) (he : e.Valid) (h : d.number = e.number) : d.year = e.year := by
  obtain ⟨hd1, hd2⟩ := number_mem_year hd
  obtain ⟨he1, he2⟩ := number_mem_year he
  have h1 : d.year < e.year + 1 := daysBeforeYear_lt_iff.mp (by omega)
  have h2 : e.year < d.year + 1 := daysBeforeYear_lt_iff.mp (by omega)
  omega

/-- No two valid dates have the same number. -/
theorem number_injective {d e : Date} (hd : d.Valid) (he : e.Valid) (h : d.number = e.number) : d = e := by
  have hy := year_eq_of_number hd he h
  obtain ⟨y, m, k⟩ := d
  obtain ⟨y', m', k'⟩ := e
  obtain rfl : y = y' := hy
  have hm := daysOfMonths_pred hd.month_pos y
  have hm' := daysOfMonths_pred he.month_pos y
  have := hd.day_pos
  have := he.day_pos
  have := hd.day_le
  have := he.day_le
  simp only [number] at *
  -- A later month starts when the earlier one is over, so the months agree too.
  have hle : m' ≤ m := by
    by_contra hlt
    have := daysOfMonths_mono y (show m ≤ m' - 1 by omega)
    omega
  have hge : m ≤ m' := by
    by_contra hlt
    have := daysOfMonths_mono y (show m' ≤ m - 1 by omega)
    omega
  obtain rfl : m = m' := le_antisymm hge hle
  obtain rfl : k = k' := by omega
  rfl

end Date

theorem after_valid (n : ℕ) : (after n).Valid := by
  unfold after
  induction n with
  | zero => exact ⟨by decide, by decide, by decide, by decide⟩
  | succ n ih =>
    rw [Function.iterate_succ_apply']
    exact Date.next_valid ih

theorem number_after (n : ℕ) : (after n).number = n := by
  induction n with
  | zero => decide
  | succ n ih =>
    have h : after (n + 1) = (after n).next := Function.iterate_succ_apply' _ _ _
    rw [h, Date.number_next (after_valid n), ih]
    push_cast
    rfl

/-- The valid date of a number from 1970 on is reached by counting that many days. -/
theorem eq_after {d : Date} (h : d.Valid) {n : ℕ} (hn : d.number = n) : d = after n :=
  Date.number_injective h (after_valid n) (hn.trans (number_after n).symm)

/-! ## Months -/

/-- Year and month after a month. -/
def nextMonth (y : ℤ) (m : ℕ) : ℤ × ℕ := if m < 12 then (y, m + 1) else (y + 1, 1)

theorem nextMonth_ne (y : ℤ) (m : ℕ) : nextMonth y m ≠ (y, m) := by
  unfold nextMonth
  split_ifs with h
  · intro heq
    injection heq with _ hm
    omega
  · intro heq
    injection heq with hy _
    omega

namespace Date

/-- Days within the month. -/
theorem next_iterate {d : Date} {k : ℕ} (h : d.day + k ≤ monthLength d.year d.month) :
    next^[k] d = { d with day := d.day + k } := by
  induction k with
  | zero => rfl
  | succ k ih =>
    rw [Function.iterate_succ_apply', ih (by omega), next, if_pos (show d.day + k < monthLength d.year d.month by omega)]
    rfl

/-- Days past the end of the month, within the next. -/
theorem next_iterate_over {d : Date} (hd : d.Valid) {k : ℕ} (h : monthLength d.year d.month < d.day + k)
    (hk : d.day + k ≤ monthLength d.year d.month + 28) :
    next^[k] d = ⟨(nextMonth d.year d.month).1, (nextMonth d.year d.month).2, d.day + k - monthLength d.year d.month⟩ := by
  induction k with
  | zero => exact absurd hd.day_le (not_le.mpr h)
  | succ k ih =>
    rw [Function.iterate_succ_apply']
    by_cases hlast : monthLength d.year d.month < d.day + k
    · have hroom := monthLength_pos (nextMonth d.year d.month).1 (nextMonth d.year d.month).2
      have hday : d.day + k - monthLength d.year d.month + 1 = d.day + (k + 1) - monthLength d.year d.month := by omega
      rw [ih hlast (by omega), next, if_pos (by simp only; omega), ← hday]
    · have hend : d.day + k = monthLength d.year d.month := by omega
      have hone : d.day + (k + 1) - monthLength d.year d.month = 1 := by omega
      rw [next_iterate (Nat.le_of_eq hend), hone, next, if_neg (by simp only; omega)]
      unfold nextMonth
      split <;> rfl

end Date

/-! ## Weeks -/

/-- Day of the week of a day number, Sunday first; 1970-01-01 was a Thursday. -/
def weekday (n : ℤ) : ℤ := (n + 4) % 7

/-- `n` is the number of the last Sunday of a month. -/
def LastSunday (y : ℤ) (m : ℕ) (n : ℤ) : Prop :=
  ∃ d, (Date.mk y m d).Valid ∧ (Date.mk y m d).number = n ∧ weekday n = 0 ∧ monthLength y m < d + 7

/-- A month has one last Sunday. -/
theorem LastSunday.unique {y : ℤ} {m : ℕ} {n k : ℤ} (hn : LastSunday y m n) (hk : LastSunday y m k) : n = k := by
  obtain ⟨d, hd, rfl, hw, hl⟩ := hn
  obtain ⟨e, he, rfl, hw', hl'⟩ := hk
  have h1 := hd.day_le
  have h2 := he.day_le
  simp only [weekday, Date.number] at *
  omega

namespace Date

/-- A Sunday of the calendar, seven days after which the next month has begun. -/
structure IsLastSunday (d : Date) : Prop where
  valid : d.Valid
  sunday : weekday d.number = 0
  next_month : ((next^[7] d).year, (next^[7] d).month) = nextMonth d.year d.month

/-- The next month has begun when the days of this one do not reach so far. -/
theorem next_month_iff {d : Date} (hd : d.Valid) :
    ((next^[7] d).year, (next^[7] d).month) = nextMonth d.year d.month ↔ monthLength d.year d.month < d.day + 7 := by
  have hday := hd.day_le
  by_cases h : monthLength d.year d.month < d.day + 7
  · rw [next_iterate_over hd h (by omega)]
    exact iff_of_true rfl h
  · rw [next_iterate (not_lt.mp h)]
    exact iff_of_false (nextMonth_ne d.year d.month).symm h

/-- Such a date is the last Sunday of its month. -/
theorem IsLastSunday.lastSunday {d : Date} (h : d.IsLastSunday) : LastSunday d.year d.month d.number :=
  ⟨d.day, h.valid, rfl, h.sunday, (next_month_iff h.valid).mp h.next_month⟩

end Date

/-- The last Sunday of a month is the number of such a date. -/
theorem LastSunday.exists_date {y : ℤ} {m : ℕ} {n : ℤ} (h : LastSunday y m n) :
    ∃ d : Date, d.year = y ∧ d.month = m ∧ d.IsLastSunday ∧ d.number = n := by
  obtain ⟨d, hd, rfl, hw, hl⟩ := h
  exact ⟨⟨y, m, d⟩, rfl, rfl, ⟨hd, hw, (Date.next_month_iff hd).mpr hl⟩, rfl⟩

end Gregorian
