import Ratputer.Lemmas.Clock

/-!
# The calendar and the two switches

Summer time is kept by the EU rule. `dateTime` and `secondsFromCivil` are inverse to each other on the whole calendar, and the
day after a day number has the next date. `unixFromLocal` takes back what `localSeconds` adds, except in the hour that the
autumn switch repeats; an instant of a local time has that local time again, except in the hour that the spring switch leaves out.
-/

namespace Ratputer

open Gregorian

/-- The instants, told in standard time, whose hour the spring switch leaves out: the one from 01:00 UTC on the last Sunday of
March. -/
def SkippedHour (t : Int) : Prop :=
  ∃ year a, LastSunday year 3 a ∧ a * SECONDS_PER_DAY + 3600 ≤ t ∧ t < a * SECONDS_PER_DAY + 7200

namespace ClockAux

/-- Summer time of another year is not within an hour of the switch of this one. -/
theorem year_of_summerTime {year a t : Int} (ha : LastSunday year 3 a) (hlow : a * SECONDS_PER_DAY ≤ t)
    (hhigh : t < a * SECONDS_PER_DAY + 3600) : ¬ SummerTime t := by
  rintro ⟨year', a', b', ha', hb', hlow', hhigh'⟩
  have hy : year' = year := by
    have h1 := lastSunday_mem_year ha'
    have h2 := lastSunday_mem_year hb'
    have h3 := lastSunday_mem_year ha
    simp only [SECONDS_PER_DAY] at *
    have h4 : year' < year + 1 := daysBeforeYear_lt_iff.mp (by omega)
    have h5 : year < year' + 1 := daysBeforeYear_lt_iff.mp (by omega)
    omega
  obtain rfl := hy
  obtain rfl := ha'.unique ha
  omega

/-- The skipped hour is the first of summer time: an hour before it was not yet summer time. -/
theorem skipped_hour_iff (t : Int) : SkippedHour t ↔ SummerTime t ∧ ¬ SummerTime (t - 3600) := by
  constructor
  · rintro ⟨year, a, ha, hlow, hhigh⟩
    have hb : LastSunday year 10 (lastSunday year 10) := lastSunday_spec year (by decide) (by decide)
    have hab := lastSunday_march_lt_october ha hb
    refine ⟨⟨year, a, _, ha, hb, hlow, ?_⟩, ?_⟩
    · simp only [SECONDS_PER_DAY] at *
      omega
    · exact year_of_summerTime ha (by omega) (by omega)
  · rintro ⟨⟨year, a, b, ha, hb, hlow, hhigh⟩, hnot⟩
    refine ⟨year, a, ha, hlow, ?_⟩
    by_contra hlate
    exact hnot ⟨year, a, b, ha, hb, by omega, by omega⟩

/-- Local time of the instant of a local time that the spring switch does not leave out. -/
theorem localTime_of_not_skipped {config : ClockConfig} {seconds : Int}
    (h : ¬ (config.dst = .eu ∧ SkippedHour (seconds - config.utcOffsetMinutes * 60))) :
    localTime config (unixFromLocal seconds config) = seconds := by
  by_cases hb : config.dst = .eu ∧ SummerTime (seconds - config.utcOffsetMinutes * 60 - 3600)
  · rw [unixFromLocal_summer hb, localTime_summer hb.1 hb.2]
    ring
  · rw [unixFromLocal_standard hb, localTime_standard]
    · ring
    · rintro ⟨heu, hs⟩
      exact h ⟨heu, (skipped_hour_iff _).mpr ⟨hs, fun hn => hb ⟨heu, hn⟩⟩⟩

/-- In the hour left out, local time goes on from an hour later. -/
theorem localTime_of_skipped {config : ClockConfig} {seconds : Int} (heu : config.dst = .eu)
    (h : SkippedHour (seconds - config.utcOffsetMinutes * 60)) :
    localTime config (unixFromLocal seconds config) = seconds + 3600 := by
  obtain ⟨hs, hn⟩ := (skipped_hour_iff _).mp h
  rw [unixFromLocal_standard fun hc => hn hc.2, localTime_summer heu hs]
  ring

end ClockAux

/-- Going to local time and back gives the instant, except in the repeated hour of autumn, where it gives the instant an hour
before; going from local time and back gives the local time, except in the hour skipped in spring, where it is an hour later. -/
theorem local_time_round_trip (config : ClockConfig) :
    (∀ u, FitsI64 u →
      (¬ (config.dst = .eu ∧ RepeatedHour u) → unixFromLocal (localSeconds (asU64 u) config) config = u) ∧
      (config.dst = .eu ∧ RepeatedHour u → unixFromLocal (localSeconds (asU64 u) config) config = u - 3600)) ∧
    (∀ seconds, FitsI64 (unixFromLocal seconds config) →
      (¬ (config.dst = .eu ∧ SkippedHour (seconds - config.utcOffsetMinutes * 60)) →
        localSeconds (asU64 (unixFromLocal seconds config)) config = seconds) ∧
      (config.dst = .eu ∧ SkippedHour (seconds - config.utcOffsetMinutes * 60) →
        localSeconds (asU64 (unixFromLocal seconds config)) config = seconds + 3600)) := by
  classical
  constructor
  · intro u hu
    rw [localSeconds_cast, asI64_asU64 hu, unixFromLocal_localTime]
    exact ⟨fun h => if_neg h, fun h => if_pos h⟩
  · intro seconds hs
    rw [localSeconds_cast, asI64_asU64 hs]
    exact ⟨ClockAux.localTime_of_not_skipped, fun h => ClockAux.localTime_of_skipped h.1 h.2⟩

/-- On 26 October 2025 the hour from 01:00 UTC is repeated; on 30 March the one from 02:00 local time is skipped. -/
theorem local_time_round_trip_2025 :
    unixFromLocal (localSeconds (asU64 1761440400) ⟨60, .eu⟩) ⟨60, .eu⟩ = 1761440400 - 3600 ∧
      localSeconds (asU64 (unixFromLocal 1743300000 ⟨60, .eu⟩)) ⟨60, .eu⟩ = 1743300000 + 3600 := by
  have hoctober : LastSunday 2025 10 20387 := ⟨26, ⟨by decide, by decide, by decide, by decide⟩, by decide, by decide, by decide⟩
  have hmarch : LastSunday 2025 3 20177 := ⟨30, ⟨by decide, by decide, by decide, by decide⟩, by decide, by decide, by decide⟩
  obtain ⟨hfrom, hto⟩ := local_time_round_trip ⟨60, .eu⟩
  exact ⟨(hfrom 1761440400 (by decide +kernel)).2 ⟨rfl, 2025, 20387, hoctober, by decide, by decide⟩,
    (hto 1743300000 (by decide +kernel)).2 ⟨rfl, 2025, 20177, hmarch, by decide, by decide⟩⟩

/-- `lastSunday` is the number of the one Sunday of the month after which seven days lead into the next, and `euSummerTime`
holds from 01:00 UTC of that of March until 01:00 UTC of that of October of the year of the second. -/
theorem eu_summer_time_rule :
    (∀ (year : Int) (month : Nat), 1 ≤ month → month ≤ 12 → ∃ d : Date, (d.year = year ∧ d.month = month ∧ d.IsLastSunday) ∧
      (∀ e : Date, e.year = year ∧ e.month = month ∧ e.IsLastSunday → e = d) ∧ lastSunday year month = d.number) ∧
    ∀ (u : Int) (today march october : Date), today.Valid → today.number = u / SECONDS_PER_DAY →
      (march.year = today.year ∧ march.month = 3 ∧ march.IsLastSunday) →
      (october.year = today.year ∧ october.month = 10 ∧ october.IsLastSunday) →
      (euSummerTime u = true ↔
        march.number * SECONDS_PER_DAY + 3600 ≤ u ∧ u < october.number * SECONDS_PER_DAY + 3600) := by
  constructor
  · intro year month hm hm'
    have hlast := lastSunday_spec year hm hm'
    obtain ⟨d, rfl, rfl, hd, hnum⟩ := hlast.exists_date
    refine ⟨d, ⟨rfl, rfl, hd⟩, ?_, hnum.symm⟩
    rintro e ⟨hyear, hmonth, he⟩
    have hsame : LastSunday d.year d.month e.number := hyear ▸ hmonth ▸ he.lastSunday
    exact Date.number_injective he.valid hd.valid (hsame.unique hd.lastSunday)
  · rintro u today march october htoday hnum ⟨hyear, hmonth, hmarch⟩ ⟨hyear', hmonth', hoctober⟩
    have hstart : LastSunday today.year 3 march.number := hyear ▸ hmonth ▸ hmarch.lastSunday
    have hfin : LastSunday today.year 10 october.number := hyear' ▸ hmonth' ▸ hoctober.lastSunday
    have hyear : (civilFromDays (u / SECONDS_PER_DAY)).1 = today.year := hnum ▸ civil_year_number htoday
    have hfirst : lastSunday today.year 3 = march.number := (lastSunday_spec _ (by decide) (by decide)).unique hstart
    have hlast : lastSunday today.year 10 = october.number := (lastSunday_spec _ (by decide) (by decide)).unique hfin
    simp only [euSummerTime, hyear, hfirst, hlast, Bool.and_eq_true, decide_eq_true_eq]

/-- In 2025 summer time began on 30 March at 01:00 UTC. -/
theorem eu_summer_time_rule_2025 : euSummerTime 1743296400 = true ∧ euSummerTime 1743296399 = false := by
  have hmarch : (Date.mk 2025 3 30).IsLastSunday := ⟨⟨by decide, by decide, by decide, by decide⟩, by decide, by decide⟩
  have hoctober : (Date.mk 2025 10 26).IsLastSunday := ⟨⟨by decide, by decide, by decide, by decide⟩, by decide, by decide⟩
  have hrule (u : Int) (hu : u / SECONDS_PER_DAY = 20177) := eu_summer_time_rule.2 u ⟨2025, 3, 30⟩ ⟨2025, 3, 30⟩ ⟨2025, 10, 26⟩
    hmarch.valid (Eq.trans (by decide) hu.symm) ⟨rfl, rfl, hmarch⟩ ⟨rfl, rfl, hoctober⟩
  have hbegun := (hrule 1743296400 (by decide)).mpr ⟨by decide, by decide⟩
  have hbefore := mt (hrule 1743296399 (by decide)).mp fun h => absurd h.1 (by decide)
  exact ⟨hbegun, Bool.eq_false_of_not_eq_true hbefore⟩

namespace ClockAux

/-- The years of the seconds of an `i64`. -/
theorem year_of_fits {u : Int} (h : FitsI64 u) : -292277022657 ≤ (civilFromDays (u / SECONDS_PER_DAY)).1 ∧
    (civilFromDays (u / SECONDS_PER_DAY)).1 ≤ 292277026596 := by
  obtain ⟨hvalid, hnum⟩ := civilDate_spec (u / SECONDS_PER_DAY)
  obtain ⟨hlow, hhigh⟩ := Date.number_mem_year hvalid
  have hfirst : daysBeforeYear (-292277022657) = -106751990448165 := by decide
  have hlast : daysBeforeYear 292277026597 = 106751991886490 := by decide
  unfold FitsI64 at h
  rw [hnum] at hlow hhigh
  simp only [SECONDS_PER_DAY] at hlow hhigh
  have h1 : -292277022657 < (civilDate (u / 86400)).year + 1 := daysBeforeYear_lt_iff.mp (by omega)
  have h2 : (civilDate (u / 86400)).year < 292277026597 := daysBeforeYear_lt_iff.mp (by omega)
  exact ⟨Int.lt_add_one_iff.mp h1, Int.lt_add_one_iff.mp h2⟩

/-- 01:00 UTC of a last Sunday of such a year, from March to October, is a second of an `i64` again. -/
theorem lastSunday_fits {year n : Int} (hlow : -292277022657 ≤ year) (hhigh : year ≤ 292277026596) {month : Nat}
    (hm : month = 3 ∨ month = 10) (h : LastSunday year month n) : FitsI64 (n * SECONDS_PER_DAY + 3600) := by
  obtain ⟨d, hd, rfl, -, -⟩ := h
  have hfirst : daysBeforeYear (-292277022657) = -106751990448165 := by decide
  have hlast : daysBeforeYear 292277026596 = 106751991886124 := by decide
  have hyear := daysBeforeYear_le hlow
  have hyear' := daysBeforeYear_le hhigh
  have hday := hd.day_pos
  have hday' := hd.day_le.trans (monthLength_le _ _)
  have hfeb := monthLength_pos year 2
  have hfeb' := monthLength_le year 2
  have hmarch : daysOfMonths year 2 = 31 + monthLength year 2 := rfl
  have hoctober : daysOfMonths year 9 = daysOfMonths year 2 + 214 := rfl
  simp only at hday hday'
  unfold FitsI64
  simp only [Date.number, SECONDS_PER_DAY]
  rcases hm with rfl | rfl
  · simp only [Nat.reduceSub]
    omega
  · simp only [Nat.reduceSub]
    omega

end ClockAux

/-- For every second of an `i64` the two bounds that it is compared with are numbers of an `i64`. -/
theorem summer_bounds_fit {u : Int} (h : FitsI64 u) :
    FitsI64 (lastSunday (civilFromDays (u / SECONDS_PER_DAY)).1 3 * SECONDS_PER_DAY + 3600) ∧
      FitsI64 (lastSunday (civilFromDays (u / SECONDS_PER_DAY)).1 10 * SECONDS_PER_DAY + 3600) := by
  obtain ⟨hlow, hhigh⟩ := ClockAux.year_of_fits h
  exact ⟨ClockAux.lastSunday_fits hlow hhigh (.inl rfl) (lastSunday_spec _ (by decide) (by decide)),
    ClockAux.lastSunday_fits hlow hhigh (.inr rfl) (lastSunday_spec _ (by decide) (by decide))⟩

/-- The fields have the ranges of the calendar and of the clock. -/
structure DateTime.Valid (time : DateTime) : Prop where
  date : (Date.mk time.year time.month time.day).Valid
  hour : time.hour < 24
  minute : time.minute < 60
  second : time.second < 60

/-- The seconds of the fields. -/
def DateTime.seconds (time : DateTime) : Int :=
  secondsFromCivil time.year time.month time.day time.hour time.minute time.second

namespace ClockAux

/-- The fields of a number of seconds are in range, and give the seconds again. -/
theorem dateTime_valid (seconds : Int) : (dateTime seconds).Valid ∧ (dateTime seconds).seconds = seconds := by
  obtain ⟨hdate, -, hhour, hminute, hsecond, -⟩ := dateTime_spec seconds
  refine ⟨⟨hdate, hhour, hminute, hsecond⟩, ?_⟩
  rw [DateTime.seconds, secondsFromCivil_dateTime]
  ring

/-- Two valid times of the same seconds are the same. -/
theorem seconds_injective {time time' : DateTime} (h : time.Valid) (h' : time'.Valid) (heq : time.seconds = time'.seconds) :
    time = time' := by
  have hs := secondsFromCivil_eq h.date time.hour time.minute time.second
  have hs' := secondsFromCivil_eq h'.date time'.hour time'.minute time'.second
  have ⟨hh, hm, hsec⟩ := (⟨h.hour, h.minute, h.second⟩ : _ ∧ _ ∧ _)
  have ⟨hh', hm', hsec'⟩ := (⟨h'.hour, h'.minute, h'.second⟩ : _ ∧ _ ∧ _)
  simp only [DateTime.seconds] at heq
  simp only at hs hs'
  rw [hs, hs'] at heq
  simp only [SECONDS_PER_DAY] at heq
  have hnum : (Date.mk time.year time.month time.day).number = (Date.mk time'.year time'.month time'.day).number := by omega
  have hdate := Date.number_injective h.date h'.date hnum
  obtain ⟨year, month, day, hour, minute, second⟩ := time
  obtain ⟨year', month', day', hour', minute', second'⟩ := time'
  simp only [Date.mk.injEq] at hdate
  obtain ⟨rfl, rfl, rfl⟩ := hdate
  simp only [DateTime.mk.injEq, true_and] at *
  omega

end ClockAux

/-- Seconds and valid calendar fields correspond one to one, and a day later is the next date at the same time of day. -/
theorem calendar_bijection :
    (∀ seconds, (dateTime seconds).Valid ∧ (dateTime seconds).seconds = seconds) ∧
    (∀ time : DateTime, time.Valid → dateTime time.seconds = time) ∧
    (∀ days, civilDate (days + 1) = (civilDate days).next) ∧
    (∀ seconds, dateTime (seconds + SECONDS_PER_DAY) =
      { dateTime seconds with
        year := (civilDate (seconds / SECONDS_PER_DAY)).next.year
        month := (civilDate (seconds / SECONDS_PER_DAY)).next.month
        day := (civilDate (seconds / SECONDS_PER_DAY)).next.day }) := by
  have hnext (days : Int) : civilDate (days + 1) = (civilDate days).next := by
    obtain ⟨hvalid, hnum⟩ := civilDate_spec days
    obtain ⟨hvalid', hnum'⟩ := civilDate_spec (days + 1)
    refine Date.number_injective hvalid' (Date.next_valid hvalid) ?_
    rw [hnum', Date.number_next hvalid, hnum]
  refine ⟨ClockAux.dateTime_valid, ?_, hnext, ?_⟩
  · intro time htime
    obtain ⟨hvalid, hseconds⟩ := ClockAux.dateTime_valid time.seconds
    exact ClockAux.seconds_injective hvalid htime hseconds
  · intro seconds
    have hday : (seconds + SECONDS_PER_DAY) / SECONDS_PER_DAY = seconds / SECONDS_PER_DAY + 1 :=
      Int.add_ediv_of_dvd_right (dvd_refl _)
    have htime : (seconds + SECONDS_PER_DAY) % SECONDS_PER_DAY = seconds % SECONDS_PER_DAY := Int.add_emod_right _ _
    rw [← hnext]
    simp only [dateTime, hday, htime, civilDate]

/-- The last second of a leap day. -/
theorem calendar_bijection_leap_day : dateTime (DateTime.seconds ⟨2000, 2, 29, 23, 59, 59⟩) = ⟨2000, 2, 29, 23, 59, 59⟩ :=
  calendar_bijection.2.1 ⟨2000, 2, 29, 23, 59, 59⟩ ⟨⟨by decide, by decide, by decide, by decide⟩, by decide, by decide, by decide⟩

end Ratputer
