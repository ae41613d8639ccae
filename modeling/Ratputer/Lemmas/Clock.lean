import Ratputer.Clock
import Ratputer.Lib.Gregorian

/-!
# The calendar of the clock

The calendar functions of `clock.rs` are the Gregorian calendar: `daysFromCivil` is the number of a date, `civilFromDays` the
date of a number, `euSummerTime` the rule of the last Sundays. Then the round trips: a local time and its calendar fields, a
local time and its instant, and a timestamp packed for FAT and unpacked again.
-/

namespace Ratputer

open Gregorian

/-! ## Dates -/

/-- From March on, the days of the months before follow the line of the algorithm. -/
theorem daysOfMonths_from_march (year : Int) {month : Nat} (hm : 2 < month) (hm' : month ≤ 12) :
    daysOfMonths year (month - 1) = 31 + monthLength year 2 + (153 * (month - 3) + 2) / 5 := by
  interval_cases month <;> rfl

/-- `daysFromCivil` is the number of the date. -/
theorem daysFromCivil_eq {month : Nat} (hm : 1 ≤ month) (hm' : month ≤ 12) (year : Int) (day : Nat) :
    daysFromCivil year month day = (Date.mk year month day).number := by
  have hfeb : monthLength year 2 = if Leap year then 29 else 28 := if_pos rfl
  simp only [daysFromCivil, Date.number, daysBeforeYear]
  rcases Nat.lt_or_ge 2 month with h | h
  · -- From March on the year of the algorithm is the year itself, so its leap day has been counted.
    rw [daysOfMonths_from_march year h hm', hfeb, if_neg (by omega), if_pos h]
    split_ifs with hl <;> unfold Leap at hl <;> omega
  · have hjan : daysOfMonths year 1 = 31 := rfl
    have hnone : daysOfMonths year 0 = 0 := rfl
    obtain rfl | rfl : month = 1 ∨ month = 2 := by omega
    · norm_num [hnone]
      omega
    · norm_num [hjan]
      omega

/-! The algorithm splits the days of a 400-year era, which starts in March, into centuries, groups of four years, years and days
of the year; only the last century and the last group may be a day longer. -/

/-- The digits of a day of an era. -/
theorem day_of_era_digits {n : Int} (h0 : 0 ≤ n) (h1 : n < 146097) :
    ∃ c q r d : Int, n = 36524 * c + 1461 * q + 365 * r + d ∧ (0 ≤ c ∧ c ≤ 3) ∧ (0 ≤ q ∧ q ≤ 24) ∧ (0 ≤ r ∧ r ≤ 3) ∧
      (0 ≤ d ∧ d ≤ 365) ∧ (d = 365 → r = 3 ∧ (q = 24 → c = 3)) := by
  obtain ⟨c, hc⟩ : ∃ c : Int, c = min 3 (n / 36524) := ⟨_, rfl⟩
  obtain ⟨x, hx⟩ : ∃ x : Int, x = n - 36524 * c := ⟨_, rfl⟩
  obtain ⟨q, hq⟩ : ∃ q : Int, q = x / 1461 := ⟨_, rfl⟩
  obtain ⟨y, hy⟩ : ∃ y : Int, y = x - 1461 * q := ⟨_, rfl⟩
  obtain ⟨r, hr⟩ : ∃ r : Int, r = min 3 (y / 365) := ⟨_, rfl⟩
  have hx0 : 0 ≤ x ∧ x ≤ 36524 ∧ (x = 36524 → c = 3) ∧ 0 ≤ c ∧ c ≤ 3 := by omega
  have hy0 : 0 ≤ y ∧ y ≤ 1460 ∧ 0 ≤ q ∧ q ≤ 24 := by omega
  exact ⟨c, q, r, y - 365 * r, by omega, by omega, by omega, by omega, by omega, by omega⟩

/-- The year of the era, as the algorithm divides it out, is what its digits say. -/
theorem year_of_era_eq {n c q r d : Int} (hn : n = 36524 * c + 1461 * q + 365 * r + d) (hc : 0 ≤ c ∧ c ≤ 3)
    (hq : 0 ≤ q ∧ q ≤ 24) (hr : 0 ≤ r ∧ r ≤ 3) (hd : 0 ≤ d ∧ d ≤ 365) (hl : d = 365 → r = 3 ∧ (q = 24 → c = 3)) :
    (n - n / 1460 + n / 36524 - n / 146096) / 365 = 100 * c + 4 * q + r := by
  have hfour : n / 1460 = 25 * c + q + (24 * c + q + 365 * r + d) / 1460 := by omega
  have hcarry : (24 * c + q + 365 * r + d) / 1460 = 0 ∧ d ≤ 364 ∨ (24 * c + q + 365 * r + d) / 1460 = 1 ∧ 1 ≤ d := by omega
  by_cases hlast : d = 365 ∧ q = 24
  · -- The last day of the era, where every quotient is one more.
    obtain ⟨rfl, rfl⟩ := hlast
    obtain ⟨rfl, rfl⟩ : r = 3 ∧ c = 3 := by omega
    omega
  · have hcentury : n / 36524 = c := by omega
    have hera : n / 146096 = 0 := by omega
    omega

/-- The leap days among the years of the era before. -/
theorem leap_days_of_digits {c q r : Int} (hq : 0 ≤ q ∧ q ≤ 24) (hr : 0 ≤ r ∧ r ≤ 3) :
    (100 * c + 4 * q + r) / 4 = 25 * c + q ∧ (100 * c + 4 * q + r) / 100 = c := by
  constructor <;> omega

/-- The day of the year, counted from 1 March. -/
theorem day_of_year_eq {n c q r d : Int} (hn : n = 36524 * c + 1461 * q + 365 * r + d) (hq : 0 ≤ q ∧ q ≤ 24)
    (hr : 0 ≤ r ∧ r ≤ 3) :
    n - (365 * (100 * c + 4 * q + r) + (100 * c + 4 * q + r) / 4 - (100 * c + 4 * q + r) / 100) = d := by
  rw [(leap_days_of_digits hq hr).1, (leap_days_of_digits hq hr).2, hn]
  ring

/-- The date of the algorithm: the year of the era's digits, the month and day of a day counted from 1 March. -/
def marchDate (year d : Int) : Date :=
  let shiftedMonth := (5 * d + 2) / 153
  { year := year + if 10 ≤ shiftedMonth then 1 else 0
    month := (if shiftedMonth < 10 then shiftedMonth + 3 else shiftedMonth - 9).toNat
    day := (d - (153 * shiftedMonth + 2) / 5 + 1).toNat }

/-- The last day before March ends a leap year when it is the 366th. -/
theorem leap_of_digits {era c q r : Int} (h : r = 3 ∧ (q = 24 → c = 3)) (hq : 0 ≤ q ∧ q ≤ 24) :
    Leap (100 * c + 4 * q + r + era * 400 + 1) := by
  obtain ⟨rfl, h⟩ := h
  refine ⟨by omega, ?_⟩
  by_cases h24 : q = 24
  · obtain rfl := h24
    obtain rfl := h rfl
    exact .inr (by omega)
  · exact .inl (by omega)

/-- The months fit the calendar. -/
theorem marchDate_valid {year d : Int} (hd : 0 ≤ d ∧ d ≤ 365) (hl : d = 365 → Leap (year + 1)) : (marchDate year d).Valid := by
  obtain ⟨mp, hmp⟩ : ∃ mp, (5 * d + 2) / 153 = mp := ⟨_, rfl⟩
  have hlow : 0 ≤ mp := by omega
  have hhigh : mp ≤ 11 := by omega
  simp only [marchDate, hmp]
  refine ⟨?_, ?_, ?_, ?_⟩
  · split_ifs <;> simp only <;> omega
  · split_ifs <;> simp only <;> omega
  · simp only
    omega
  · by_cases hfeb : mp = 11
    · obtain rfl := hfeb
      have hlen : monthLength (year + 1) 2 = if Leap (year + 1) then 29 else 28 := if_pos rfl
      have hgoal : (d - (153 * 11 + 2) / 5 + 1).toNat ≤ monthLength (year + 1) 2 := by
        rw [hlen]
        split_ifs with hleap
        · omega
        · have := mt hl hleap
          omega
      exact hgoal
    · clear hl
      interval_cases mp <;> simp [monthLength] at * <;> omega

/-- Numbering the date counts the days of the era again. -/
theorem marchDate_number {era c q r d : Int} (hc : 0 ≤ c ∧ c ≤ 3) (hq : 0 ≤ q ∧ q ≤ 24) (hr : 0 ≤ r ∧ r ≤ 3)
    (hd : 0 ≤ d ∧ d ≤ 365) (hl : d = 365 → Leap (100 * c + 4 * q + r + era * 400 + 1)) :
    (marchDate (100 * c + 4 * q + r + era * 400) d).number =
      era * 146097 + (36524 * c + 1461 * q + 365 * r + d) - 719468 := by
  have hvalid := marchDate_valid hd hl
  clear hl
  obtain ⟨year, hyear⟩ : ∃ year, 100 * c + 4 * q + r + era * 400 = year := ⟨_, rfl⟩
  have hera : year / 400 = era := by omega
  have hyoe : year % 400 = 100 * c + 4 * q + r := by omega
  have hleaps := leap_days_of_digits (c := c) hq hr
  rw [hyear] at hvalid ⊢
  clear hyear
  rw [← daysFromCivil_eq hvalid.month_pos hvalid.month_le]
  obtain ⟨mp, hmp⟩ : ∃ mp, (5 * d + 2) / 153 = mp := ⟨_, rfl⟩
  have hmp0 : 0 ≤ mp ∧ mp ≤ 11 := by omega
  have hback : (if (marchDate year d).month ≤ 2 then (marchDate year d).year - 1 else (marchDate year d).year) = year := by
    simp only [marchDate, hmp]
    split_ifs <;> omega
  have hshift : (if 2 < (marchDate year d).month then ((marchDate year d).month : Int) - 3
      else (marchDate year d).month + 9) = mp := by
    simp only [marchDate, hmp]
    split_ifs <;> omega
  have hday : ((marchDate year d).day : Int) = d - (153 * mp + 2) / 5 + 1 := by
    simp only [marchDate, hmp]
    omega
  simp only [daysFromCivil, hback, hshift, hday, hera, hyoe, hleaps]
  ring

/-- The date `civilFromDays` gives. -/
def civilDate (days : Int) : Date := ⟨(civilFromDays days).1, (civilFromDays days).2.1, (civilFromDays days).2.2⟩

/-- `civilFromDays` gives a date of the calendar, of that number. -/
theorem civilDate_spec (days : Int) : (civilDate days).Valid ∧ (civilDate days).number = days := by
  obtain ⟨era, hera⟩ : ∃ era, (days + 719468) / 146097 = era := ⟨_, rfl⟩
  obtain ⟨n, hn⟩ : ∃ n, (days + 719468) % 146097 = n := ⟨_, rfl⟩
  have hsum : era * 146097 + n - 719468 = days := by omega
  obtain ⟨c, q, r, d, hdig, hc, hq, hr, hd, hl⟩ := day_of_era_digits (n := n) (by omega) (by omega)
  have hyoe := year_of_era_eq hdig hc hq hr hd hl
  have hdoy := day_of_year_eq hdig hq hr
  have hleap : d = 365 → Leap (100 * c + 4 * q + r + era * 400 + 1) := fun h => leap_of_digits (hl h) hq
  have heq : civilDate days = marchDate (100 * c + 4 * q + r + era * 400) d := by
    obtain ⟨mp, hmp⟩ : ∃ mp, (5 * d + 2) / 153 = mp := ⟨_, rfl⟩
    have hmp0 : 0 ≤ mp ∧ mp ≤ 11 := by omega
    have hmonth : (if mp < 10 then mp + 3 else mp - 9).toNat ≤ 2 ↔ 10 ≤ mp := by
      split_ifs <;> omega
    simp only [civilDate, civilFromDays, marchDate, hera, hn, hyoe, hdoy, hmp, hmonth]
  rw [heq]
  refine ⟨marchDate_valid hd hleap, ?_⟩
  rw [marchDate_number hc hq hr hd hleap, ← hdig, hsum]

/-- The year of a day number is the one its days lie in. -/
theorem civil_year_eq {days year : Int} (h : daysBeforeYear year ≤ days + 719162) (h' : days + 719162 < daysBeforeYear (year + 1)) :
    (civilFromDays days).1 = year := by
  obtain ⟨hvalid, hnum⟩ := civilDate_spec days
  obtain ⟨hlow, hhigh⟩ := Date.number_mem_year hvalid
  rw [hnum] at hlow hhigh
  have h1 : (civilDate days).year < year + 1 := daysBeforeYear_lt_iff.mp (by omega)
  have h2 : year < (civilDate days).year + 1 := daysBeforeYear_lt_iff.mp (by omega)
  have h3 : (civilDate days).year = (civilFromDays days).1 := rfl
  omega

/-- The year of the number of a valid date is the year of the date. -/
theorem civil_year_number {d : Date} (h : d.Valid) : (civilFromDays d.number).1 = d.year :=
  civil_year_eq (Date.number_mem_year h).1 (Date.number_mem_year h).2

/-! ## Summer time -/

/-- The rule of summer time: from 01:00 UTC on the last Sunday of March until 01:00 UTC on the last Sunday of October. -/
def SummerTime (t : Int) : Prop :=
  ∃ year a b, LastSunday year 3 a ∧ LastSunday year 10 b ∧ a * SECONDS_PER_DAY + 3600 ≤ t ∧ t < b * SECONDS_PER_DAY + 3600

/-- The hour after the switch back, whose local times occur a second time. -/
def RepeatedHour (t : Int) : Prop :=
  ∃ year b, LastSunday year 10 b ∧ b * SECONDS_PER_DAY + 3600 ≤ t ∧ t < b * SECONDS_PER_DAY + 7200

/-- `lastSunday` is the last Sunday of the month. -/
theorem lastSunday_spec (year : Int) {month : Nat} (hm : 1 ≤ month) (hm' : month ≤ 12) :
    LastSunday year month (lastSunday year month) := by
  have hlen := monthLength_pos year month
  have hvalid : (Date.mk year month (monthLength year month)).Valid := ⟨hm, hm', by simp only; omega, le_rfl⟩
  have hfirst : daysFromCivil (if month = 12 then (year + 1, 1) else (year, month + 1)).1
      (if month = 12 then (year + 1, 1) else (year, month + 1)).2 1 =
      (Date.mk year month (monthLength year month)).number + 1 := by
    rw [← Date.number_next hvalid, Date.next, if_neg (lt_irrefl _)]
    by_cases h12 : month = 12
    · simp only [h12, if_true, lt_irrefl, if_false]
      exact daysFromCivil_eq le_rfl (by decide) _ _
    · simp only [h12, if_false, show month < 12 by omega, if_true]
      exact daysFromCivil_eq (by omega) (by omega) _ _
  have hlast : lastSunday year month = (Date.mk year month (monthLength year month)).number -
      ((Date.mk year month (monthLength year month)).number + 4) % 7 := by
    simp only [lastSunday, hfirst, Int.add_sub_cancel]
  obtain ⟨w, hw⟩ : ∃ w : Nat, ((Date.mk year month (monthLength year month)).number + 4) % 7 = w :=
    ⟨_, (Int.toNat_of_nonneg (Int.emod_nonneg _ (by decide))).symm⟩
  have hw6 : w ≤ 6 := by omega
  have hnum : (Date.mk year month (monthLength year month - w)).number =
      (Date.mk year month (monthLength year month)).number - w := by
    simp only [Date.number]
    omega
  refine ⟨monthLength year month - w, ⟨hm, hm', by simp only; omega, Nat.sub_le _ _⟩, ?_, ?_, by omega⟩
  · rw [hnum, hlast, hw]
  · rw [hlast, weekday]
    omega

/-- A last Sunday lies in its year. -/
theorem lastSunday_mem_year {year : Int} {month : Nat} {n : Int} (h : LastSunday year month n) :
    daysBeforeYear year ≤ n + 719162 ∧ n + 719162 < daysBeforeYear (year + 1) := by
  obtain ⟨d, hd, rfl, -, -⟩ := h
  exact Date.number_mem_year hd

/-- The last Sunday of March comes before that of October. -/
theorem lastSunday_march_lt_october {year a b : Int} (ha : LastSunday year 3 a) (hb : LastSunday year 10 b) : a + 100 < b := by
  obtain ⟨d, hd, rfl, -, -⟩ := ha
  obtain ⟨e, he, rfl, -, -⟩ := hb
  have h1 : daysOfMonths year 9 = daysOfMonths year 2 + 214 := rfl
  have hd31 := hd.day_le.trans (monthLength_le _ _)
  simp only at hd31
  simp only [Date.number, Nat.reduceSub, h1]
  omega

/-- `euSummerTime` is the rule. -/
theorem euSummerTime_iff (utc : Int) : euSummerTime utc = true ↔ SummerTime utc := by
  have hstart (year : Int) : LastSunday year 3 (lastSunday year 3) := lastSunday_spec year (by decide) (by decide)
  have hfin (year : Int) : LastSunday year 10 (lastSunday year 10) := lastSunday_spec year (by decide) (by decide)
  simp only [euSummerTime, Bool.and_eq_true, decide_eq_true_eq]
  constructor
  · intro h
    exact ⟨_, _, _, hstart _, hfin _, h.1, h.2⟩
  · rintro ⟨year, a, b, ha, hb, hlow, hhigh⟩
    obtain rfl := ha.unique (hstart year)
    obtain rfl := hb.unique (hfin year)
    have hy : (civilFromDays (utc / SECONDS_PER_DAY)).1 = year := by
      have h1 := lastSunday_mem_year ha
      have h2 := lastSunday_mem_year hb
      simp only [SECONDS_PER_DAY] at hlow hhigh ⊢
      exact civil_year_eq (by omega) (by omega)
    rw [hy]
    exact ⟨hlow, hhigh⟩

/-! ## Local time -/

/-- Local time of an instant: the offset, and an hour more while the EU rule keeps summer time. -/
noncomputable def localTime (config : ClockConfig) (t : Int) : Int :=
  open Classical in t + config.utcOffsetMinutes * 60 + if config.dst = .eu ∧ SummerTime t then 3600 else 0

theorem localTime_summer {config : ClockConfig} {t : Int} (he : config.dst = .eu) (hs : SummerTime t) :
    localTime config t = t + config.utcOffsetMinutes * 60 + 3600 := by
  rw [localTime, if_pos ⟨he, hs⟩]

theorem localTime_standard {config : ClockConfig} {t : Int} (h : ¬ (config.dst = .eu ∧ SummerTime t)) :
    localTime config t = t + config.utcOffsetMinutes * 60 := by
  rw [localTime, if_neg h, Int.add_zero]

/-- A number of an `i64` survives the cast to a `u64` and back. -/
theorem asI64_asU64 {n : Int} (h : FitsI64 n) : asI64 (asU64 n) = n := by
  unfold FitsI64 at h
  unfold asI64 asU64
  split_ifs <;> omega

/-- A number below 2^63 is the same as an `i64`. -/
theorem asI64_natCast {n : Nat} (h : n < 2 ^ 63) : asI64 n = n := by
  unfold asI64
  split_ifs <;> omega

/-- `localSeconds` is the local time of the instant it is cast to. -/
theorem localSeconds_cast (unix : Nat) (config : ClockConfig) : localSeconds unix config = localTime config (asI64 unix) := by
  unfold localSeconds
  by_cases h : config.dst = .eu ∧ SummerTime (asI64 unix)
  · rw [localTime_summer h.1 h.2, if_pos ⟨h.1, (euSummerTime_iff _).mpr h.2⟩]
  · rw [localTime_standard h, if_neg fun hc => h ⟨hc.1, (euSummerTime_iff _).mp hc.2⟩]

/-- `localSeconds` is local time. -/
theorem localSeconds_eq {unix : Nat} (h : unix < 2 ^ 63) (config : ClockConfig) :
    localSeconds unix config = localTime config unix := by
  rw [localSeconds_cast, asI64_natCast h]

theorem unixFromLocal_summer {config : ClockConfig} {seconds : Int}
    (h : config.dst = .eu ∧ SummerTime (seconds - config.utcOffsetMinutes * 60 - 3600)) :
    unixFromLocal seconds config = seconds - config.utcOffsetMinutes * 60 - 3600 :=
  if_pos ⟨h.1, (euSummerTime_iff _).mpr h.2⟩

theorem unixFromLocal_standard {config : ClockConfig} {seconds : Int}
    (h : ¬ (config.dst = .eu ∧ SummerTime (seconds - config.utcOffsetMinutes * 60 - 3600))) :
    unixFromLocal seconds config = seconds - config.utcOffsetMinutes * 60 :=
  if_neg fun hc => h ⟨hc.1, (euSummerTime_iff _).mp hc.2⟩

/-- Summer time lasts an hour longer than the clock can tell: an hour after an instant of it is either still in it or repeated. -/
theorem repeated_hour_iff (t : Int) : RepeatedHour t ↔ SummerTime (t - 3600) ∧ ¬ SummerTime t := by
  constructor
  · rintro ⟨year, b, hb, hlow, hhigh⟩
    have ha : LastSunday year 3 (lastSunday year 3) := lastSunday_spec year (by decide) (by decide)
    have hab := lastSunday_march_lt_october ha hb
    refine ⟨⟨year, _, b, ha, hb, by simp only [SECONDS_PER_DAY] at *; omega, by omega⟩, ?_⟩
    rintro ⟨year', a', b', ha', hb', hlow', hhigh'⟩
    -- Both years hold the day of `t`, so the two switches are one.
    have hy : year' = year := by
      have h1 := lastSunday_mem_year ha'
      have h2 := lastSunday_mem_year hb'
      have h3 := lastSunday_mem_year hb
      simp only [SECONDS_PER_DAY] at *
      have h4 : year' < year + 1 := daysBeforeYear_lt_iff.mp (by omega)
      have h5 : year < year' + 1 := daysBeforeYear_lt_iff.mp (by omega)
      omega
    obtain rfl := hy
    obtain rfl := hb'.unique hb
    omega
  · rintro ⟨⟨year, a, b, ha, hb, hlow, hhigh⟩, hnot⟩
    refine ⟨year, b, hb, ?_, by omega⟩
    by_contra hlt
    exact hnot ⟨year, a, b, ha, hb, by omega, by omega⟩

/-- The switches are at even seconds, so the second of a pair does not matter for the rule. -/
theorem summerTime_even (t : Int) : SummerTime (t - t % 2) ↔ SummerTime t := by
  constructor
  · rintro ⟨year, a, b, ha, hb, hlow, hhigh⟩
    refine ⟨year, a, b, ha, hb, ?_, ?_⟩ <;> simp only [SECONDS_PER_DAY] at * <;> omega
  · rintro ⟨year, a, b, ha, hb, hlow, hhigh⟩
    refine ⟨year, a, b, ha, hb, ?_, ?_⟩ <;> simp only [SECONDS_PER_DAY] at * <;> omega

theorem repeatedHour_even (t : Int) : RepeatedHour (t - t % 2) ↔ RepeatedHour t := by
  constructor
  · rintro ⟨year, b, hb, hlow, hhigh⟩
    refine ⟨year, b, hb, ?_, ?_⟩ <;> simp only [SECONDS_PER_DAY] at * <;> omega
  · rintro ⟨year, b, hb, hlow, hhigh⟩
    refine ⟨year, b, hb, ?_, ?_⟩ <;> simp only [SECONDS_PER_DAY] at * <;> omega

/-- Local time keeps the parity, and rounds to even seconds as the instant does. -/
theorem localTime_even (config : ClockConfig) (t : Int) :
    localTime config t % 2 = t % 2 ∧ localTime config (t - t % 2) = localTime config t - localTime config t % 2 := by
  by_cases h : config.dst = .eu ∧ SummerTime t
  · rw [localTime_summer h.1 h.2, localTime_summer h.1 ((summerTime_even t).mpr h.2)]
    omega
  · rw [localTime_standard h, localTime_standard fun hc => h ⟨hc.1, (summerTime_even t).mp hc.2⟩]
    omega

/-- Summer time does not last into the hour before the 32 bits of Unix time end, in February 2106. -/
theorem summerTime_lt {t : Int} (h : SummerTime t) (ht : t < 2 ^ 32) : t + 3600 < 2 ^ 32 := by
  obtain ⟨year, a, b, ha, hb, hlow, hhigh⟩ := h
  have h1 := (lastSunday_mem_year hb).2
  obtain ⟨d, hd, rfl, -, -⟩ := ha
  have h2106 : daysBeforeYear 2106 = 768835 := by decide
  have hd1 := hd.day_pos
  simp only at hd1
  have hmarch : daysOfMonths year (3 - 1) = 31 + monthLength year 2 := rfl
  have hfeb := monthLength_pos year 2
  simp only [Date.number, hmarch, SECONDS_PER_DAY] at *
  -- In 2106 and later summer time starts after the last instant of 32 bits.
  have hyear : year + 1 ≤ 2106 := by
    by_contra hlate
    have := daysBeforeYear_le (show (2106 : Int) ≤ year by omega)
    omega
  have := daysBeforeYear_le hyear
  omega

/-- Local time is within fifteen hours of the instant. -/
theorem localTime_near {config : ClockConfig} (h : -720 ≤ config.utcOffsetMinutes) (h' : config.utcOffsetMinutes ≤ 840)
    (t : Int) : t - 43200 ≤ localTime config t ∧ localTime config t ≤ t + 54000 := by
  by_cases hs : config.dst = .eu ∧ SummerTime t
  · rw [localTime_summer hs.1 hs.2]
    omega
  · rw [localTime_standard hs]
    omega

/-- Going back from the local time of an instant gives the instant, or the hour before it in the repeated hour. -/
theorem unixFromLocal_localTime (config : ClockConfig) (t : Int) [Decidable (config.dst = .eu ∧ RepeatedHour t)] :
    unixFromLocal (localTime config t) config = if config.dst = .eu ∧ RepeatedHour t then t - 3600 else t := by
  by_cases hs : config.dst = .eu ∧ SummerTime t
  · have hr : ¬ RepeatedHour t := fun hr => ((repeated_hour_iff t).mp hr).2 hs.2
    have hback : t + config.utcOffsetMinutes * 60 + 3600 - config.utcOffsetMinutes * 60 - 3600 = t := by ring
    rw [localTime_summer hs.1 hs.2, unixFromLocal_summer (by rw [hback]; exact hs), hback, if_neg fun h => hr h.2]
  · have hback : t + config.utcOffsetMinutes * 60 - config.utcOffsetMinutes * 60 = t := by ring
    rw [localTime_standard hs]
    split_ifs with hr
    · rw [unixFromLocal_summer (by rw [hback]; exact ⟨hr.1, ((repeated_hour_iff t).mp hr.2).1⟩), hback]
    · refine (unixFromLocal_standard ?_).trans hback
      rw [hback]
      exact fun h => hr ⟨h.1, (repeated_hour_iff t).mpr ⟨h.2, fun hn => hs ⟨h.1, hn⟩⟩⟩

/-- The instant of a local time no later than that of a 32-bit one is one of 32 bits. -/
theorem unixFromLocal_lt {config : ClockConfig} {t seconds : Int} (ht : t < 2 ^ 32) (h : seconds ≤ localTime config t) :
    unixFromLocal seconds config < 2 ^ 32 := by
  by_cases hs : config.dst = .eu ∧ SummerTime t
  · rw [localTime_summer hs.1 hs.2] at h
    have := summerTime_lt hs.2 ht
    by_cases hb : config.dst = .eu ∧ SummerTime (seconds - config.utcOffsetMinutes * 60 - 3600)
    · rw [unixFromLocal_summer hb]
      omega
    · rw [unixFromLocal_standard hb]
      omega
  · rw [localTime_standard hs] at h
    by_cases hb : config.dst = .eu ∧ SummerTime (seconds - config.utcOffsetMinutes * 60 - 3600)
    · rw [unixFromLocal_summer hb]
      omega
    · rw [unixFromLocal_standard hb]
      omega

theorem unixFromLocal_near {config : ClockConfig} (h : -720 ≤ config.utcOffsetMinutes)
    (h' : config.utcOffsetMinutes ≤ 840) (seconds : Int) :
    seconds - 54000 ≤ unixFromLocal seconds config ∧ unixFromLocal seconds config ≤ seconds + 43200 := by
  by_cases hb : config.dst = .eu ∧ SummerTime (seconds - config.utcOffsetMinutes * 60 - 3600)
  · rw [unixFromLocal_summer hb]
    omega
  · rw [unixFromLocal_standard hb]
    omega

/-- The instant of a local time has that local time again, or an hour more in the hour the spring switch leaves out. -/
theorem localTime_unixFromLocal (config : ClockConfig) (seconds : Int) :
    localTime config (unixFromLocal seconds config) = seconds ∨
      localTime config (unixFromLocal seconds config) = seconds + 3600 := by
  by_cases h : config.dst = .eu ∧ SummerTime (seconds - config.utcOffsetMinutes * 60 - 3600)
  · rw [unixFromLocal_summer h, localTime_summer h.1 h.2]
    left
    ring
  · rw [unixFromLocal_standard h]
    by_cases hs : config.dst = .eu ∧ SummerTime (seconds - config.utcOffsetMinutes * 60)
    · rw [localTime_summer hs.1 hs.2]
      right
      ring
    · rw [localTime_standard hs]
      left
      ring

/-! ## Calendar fields -/

/-- The fields of a time are the date of its day and the time of the day. -/
theorem dateTime_spec (seconds : Int) :
    (Date.mk (dateTime seconds).year (dateTime seconds).month (dateTime seconds).day).Valid ∧
      (Date.mk (dateTime seconds).year (dateTime seconds).month (dateTime seconds).day).number = seconds / SECONDS_PER_DAY ∧
      (dateTime seconds).hour < 24 ∧ (dateTime seconds).minute < 60 ∧ (dateTime seconds).second < 60 ∧
      ((dateTime seconds).hour * 3600 + (dateTime seconds).minute * 60 + (dateTime seconds).second : Int) =
        seconds % SECONDS_PER_DAY := by
  obtain ⟨hvalid, hnum⟩ := civilDate_spec (seconds / SECONDS_PER_DAY)
  refine ⟨hvalid, hnum, ?_⟩
  simp only [dateTime, SECONDS_PER_DAY]
  omega

/-- The year of a time is at least the one whose first day is not after it. -/
theorem le_dateTime_year (seconds year : Int) :
    year ≤ (dateTime seconds).year ↔ daysBeforeYear year ≤ seconds / SECONDS_PER_DAY + 719162 := by
  obtain ⟨hvalid, hnum, -⟩ := dateTime_spec seconds
  obtain ⟨hlow, hhigh⟩ := Date.number_mem_year hvalid
  rw [hnum] at hlow hhigh
  constructor
  · intro h
    exact (daysBeforeYear_le h).trans hlow
  · intro h
    have h1 : year < (dateTime seconds).year + 1 := daysBeforeYear_lt_iff.mp (h.trans_lt hhigh)
    omega

/-- From 1970 on the date is reached by counting the days. -/
theorem dateTime_date {seconds : Int} (h : 0 ≤ seconds) :
    Date.mk (dateTime seconds).year (dateTime seconds).month (dateTime seconds).day =
      after (seconds / SECONDS_PER_DAY).toNat := by
  obtain ⟨hvalid, hnum, -⟩ := dateTime_spec seconds
  have hdays : 0 ≤ seconds / SECONDS_PER_DAY := Int.ediv_nonneg h (by decide)
  exact eq_after hvalid (hnum.trans (Int.toNat_of_nonneg hdays).symm)

/-- The seconds of a date and a time of day. -/
theorem secondsFromCivil_eq {d : Date} (h : d.Valid) (hour minute second : Nat) :
    secondsFromCivil d.year d.month d.day hour minute second =
      d.number * SECONDS_PER_DAY + hour * 3600 + minute * 60 + second := by
  rw [secondsFromCivil, daysFromCivil_eq h.month_pos h.month_le]

/-- The fields of a time, read as seconds again, with the seconds of the minute replaced. -/
theorem secondsFromCivil_dateTime (seconds : Int) (second : Nat) :
    secondsFromCivil (dateTime seconds).year (dateTime seconds).month (dateTime seconds).day (dateTime seconds).hour
      (dateTime seconds).minute second = seconds - (dateTime seconds).second + second := by
  obtain ⟨hvalid, hnum, -, -, -, hsum⟩ := dateTime_spec seconds
  have h := secondsFromCivil_eq hvalid (dateTime seconds).hour (dateTime seconds).minute second
  simp only at h
  rw [h, hnum]
  simp only [SECONDS_PER_DAY] at *
  omega

/-- Midnight of the day of a time. -/
theorem secondsFromCivil_midnight (seconds : Int) :
    secondsFromCivil (dateTime seconds).year (dateTime seconds).month (dateTime seconds).day 0 0 0 =
      seconds / SECONDS_PER_DAY * SECONDS_PER_DAY := by
  obtain ⟨hvalid, hnum, -⟩ := dateTime_spec seconds
  have h := secondsFromCivil_eq hvalid 0 0 0
  simp only at h
  rw [h, hnum]
  simp

/-- The second of a minute is odd when the time is. -/
theorem dateTime_second (seconds : Int) : ((dateTime seconds).second : Int) % 2 = seconds % 2 := by
  simp only [dateTime, SECONDS_PER_DAY]
  omega

/-! ## Packed timestamps -/

/-- Three bit fields side by side are the digits of a number. -/
theorem fields_eq {a b c i j : Nat} (hb : b < 2 ^ i) (hc : c < 2 ^ j) :
    a <<< (i + j) ||| b <<< j ||| c = (a * 2 ^ i + b) * 2 ^ j + c := by
  have hab : a <<< (i + j) ||| b <<< j = (a * 2 ^ i + b) <<< j := by
    rw [Nat.shiftLeft_add, ← Nat.shiftLeft_or_distrib, ← Nat.shiftLeft_add_eq_or_of_lt hb, Nat.shiftLeft_eq a]
  rw [hab, ← Nat.shiftLeft_add_eq_or_of_lt hc, Nat.shiftLeft_eq]

/-- A date within FAT's years comes back from its packed form. -/
theorem unpackDate_new {year month day : Nat} (hy : 1980 ≤ year) (hy' : year ≤ 2107) (hm : month < 16) (hd : day < 32)
    (hour minute second : Nat) : unpackDate (FatDateTime.new year month day hour minute second).date = (year, month, day) := by
  have hmonth : month &&& 0x0f = month := by rw [Nat.and_two_pow_sub_one_eq_mod month 4]; omega
  have hday : day &&& 0x1f = day := by rw [Nat.and_two_pow_sub_one_eq_mod day 5]; omega
  have hpack := fields_eq (a := year - 1980) (b := month) (c := day) (i := 4) (j := 5) hm hd
  have hmin : min (year - 1980) 127 = year - 1980 := by omega
  simp only [FatDateTime.new, unpackDate, hmin, hmonth, hday]
  rw [hpack, Nat.and_two_pow_sub_one_eq_mod _ 7, Nat.and_two_pow_sub_one_eq_mod _ 4, Nat.and_two_pow_sub_one_eq_mod _ 5]
  simp only [Nat.shiftRight_eq_div_pow, Prod.mk.injEq]
  omega

/-- A time of day comes back with its seconds rounded down to an even number. -/
theorem unpackTime_new {hour minute second : Nat} (hh : hour < 24) (hm : minute < 60) (hs : second < 60) (year month day : Nat) :
    unpackTime (FatDateTime.new year month day hour minute second).time = (hour, minute, second - second % 2) := by
  have hhour : hour &&& 0x1f = hour := by rw [Nat.and_two_pow_sub_one_eq_mod hour 5]; omega
  have hminute : minute &&& 0x3f = minute := by rw [Nat.and_two_pow_sub_one_eq_mod minute 6]; omega
  have hsecond : second / 2 &&& 0x1f = second / 2 := by rw [Nat.and_two_pow_sub_one_eq_mod _ 5]; omega
  have hpack := fields_eq (a := hour) (b := minute) (c := second / 2) (i := 6) (j := 5) (by omega) (by omega)
  simp only [FatDateTime.new, unpackTime, hhour, hminute, hsecond]
  rw [hpack, Nat.and_two_pow_sub_one_eq_mod _ 5, Nat.and_two_pow_sub_one_eq_mod _ 6, Nat.and_two_pow_sub_one_eq_mod _ 5]
  simp only [Nat.shiftRight_eq_div_pow, Prod.mk.injEq]
  omega

end Ratputer
