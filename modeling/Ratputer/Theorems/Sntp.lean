import Ratputer.Sntp
import Ratputer.Lemmas.Clock
import Ratputer.Lemmas.SftpSizes

/-!
# From a time server's reply to timestamps

A server's reply carries the instant modulo the 32 bits of NTP's seconds. `Dated` says that the reply is taken and that the local
date and time of the instant reach FAT timestamps and listings. It holds of every instant before the seconds wrap around on
2036-02-07, and of none after that: the reply of the second era is refused.
-/

namespace Ratputer

open Gregorian Octets

/-- A valid reply of a server that gives the instant `t`. -/
structure ServerReply (t : Nat) (data : List UInt8) : Prop where
  length : 48 ≤ data.length
  mode : data.getD 0 0 &&& 0x07 = 4
  stratum : data.getD 1 0 ≠ 0
  transmit : (data.drop 40).take 4 = beBytes 4 ((t + NTP_UNIX_OFFSET) % 2 ^ 32)

/-- A packed timestamp is the local date and time `seconds`, the second rounded down to an even one. -/
structure Stamped (stamp : FatDateTime) (seconds : Int) : Prop where
  date : ∃ year month day : Nat, unpackDate stamp.date = (year, month, day) ∧
    after (seconds / SECONDS_PER_DAY).toNat = ⟨year, month, day⟩
  time : ∃ hour minute second : Nat, unpackTime stamp.time = (hour, minute, second) ∧
    (hour < 24 ∧ minute < 60 ∧ second < 60) ∧
    (hour * 3600 + minute * 60 + second : Int) = seconds % SECONDS_PER_DAY - seconds % 2

/-- The reply is taken as `t`, and what the main loop publishes within the second is the local date and time of `t`. -/
structure Dated (config : ClockConfig) (t : Nat) (data : List UInt8) : Prop where
  parsed : parseReply data = .ok t
  stamped : ∀ (clock : WallClock) (at_ now published : Nat), at_ ≤ now → now < at_ + 1000000 →
    Stamped (FatClock.now (publishLocalTime (clock.set t at_) now config published)) (localTime config t)
  listed : ∀ (clock : WallClock) (at_ now published : Nat), at_ ≤ now → now < at_ + 1000000 →
    (nowYmdhms (publishLocalTime (clock.set t at_) now config published)).take 4 =
      padLeft 4 '0' (after (localTime config t / SECONDS_PER_DAY).toNat).year.toNat

/-- A reply is taken when its seconds have not wrapped around, and then as the instant. -/
theorem parseReply_of_server {t : Nat} {data : List UInt8} (h : ServerReply t data) (ht : t < 2 ^ 32) :
    parseReply data = if t + NTP_UNIX_OFFSET < 2 ^ 32 then .ok t else .error .badReply := by
  have hlen : ¬ data.length < 48 := Nat.not_lt.mpr h.length
  have hvalid : ¬ (data.getD 0 0 &&& 0x07 ≠ 4 ∨ data.getD 1 0 = 0) := by
    rintro (hm | hs)
    · exact hm h.mode
    · exact h.stratum hs
  have hseconds : beNat ((data.drop 40).take 4) = (t + NTP_UNIX_OFFSET) % 2 ^ 32 := by
    rw [h.transmit]
    exact beNat_beBytes (n := 4) (Nat.mod_lt _ (by decide))
  simp only [parseReply, if_neg hlen, if_neg hvalid, hseconds]
  by_cases hera : t + NTP_UNIX_OFFSET < 2 ^ 32
  · rw [if_pos hera, Nat.mod_eq_of_lt hera, if_neg (Nat.not_lt.mpr (Nat.le_add_left _ _)), Nat.add_sub_cancel]
  · -- What is left of the sum after the wrap is less than the offset.
    have hmod : (t + NTP_UNIX_OFFSET) % 2 ^ 32 < NTP_UNIX_OFFSET := by
      rw [Nat.mod_eq_sub_mod (Nat.not_lt.mp hera)]
      exact (Nat.mod_le _ _).trans_lt (by omega)
    rw [if_neg hera, if_pos hmod]

/-- A published time of FAT's years is what the timestamp says. -/
theorem stamped_now {published : Nat} (h : 0 < published) (hy : 1980 ≤ (dateTime published).year)
    (hy' : (dateTime published).year ≤ 2107) : Stamped (FatClock.now published) published := by
  obtain ⟨hvalid, -, hh, hm, hs, hsum⟩ := dateTime_spec published
  have hdate := dateTime_date (Int.natCast_nonneg published)
  have hsec := dateTime_second published
  have hmonth : (dateTime published).month < 16 := hvalid.month_le.trans_lt (by decide)
  have hday : (dateTime published).day < 32 := (hvalid.day_le.trans (monthLength_le _ _)).trans_lt (by decide)
  have hlow : 1980 ≤ (dateTime published).year.toNat := by
    generalize (dateTime published).year = year at hy
    omega
  have hhigh : (dateTime published).year.toNat ≤ 2107 := by
    generalize (dateTime published).year = year at hy'
    omega
  have hnow : FatClock.now published = .new (dateTime published).year.toNat (dateTime published).month
      (dateTime published).day (dateTime published).hour (dateTime published).minute (dateTime published).second :=
    if_neg h.ne'
  rw [hnow]
  refine ⟨⟨_, _, _, unpackDate_new hlow hhigh hmonth hday _ _ _, ?_⟩, ⟨_, _, _, unpackTime_new hh hm hs _ _ _, ?_, ?_⟩⟩
  · rw [← hdate, Int.toNat_of_nonneg (by omega)]
  · exact ⟨hh, hm, (Nat.sub_le _ _).trans_lt hs⟩
  · have hle : (dateTime published).second % 2 ≤ (dateTime published).second := Nat.mod_le _ _
    omega

/-- The year of listings is the year of the published time. -/
theorem take_nowYmdhms {published : Nat} (h : 0 < published) (hy' : (dateTime published).year ≤ 2107) :
    (nowYmdhms published).take 4 = padLeft 4 '0' (after (published / SECONDS_PER_DAY : Int).toNat).year.toNat := by
  have hdate := dateTime_date (Int.natCast_nonneg published)
  have hsome : localNowSeconds published = some (published : Int) := if_pos h.ne'
  have hlen : (padLeft 4 '0' (dateTime published).year.toNat).length = 4 := length_padLeft '0' (by decide) (by omega)
  rw [← hdate]
  simp only [nowYmdhms, hsome, List.append_assoc]
  exact List.take_left' hlen

/-- Within the second after the reply the main loop publishes the local time of the instant it gave. -/
theorem publishLocalTime_set {config : ClockConfig} {t : Nat} (ht : t < 2 ^ 63) (h : 0 ≤ localTime config t)
    (h' : localTime config t < 2 ^ 32) (clock : WallClock) {at_ now : Nat} (hnow : now < at_ + 1000000) (published : Nat) :
    publishLocalTime (clock.set t at_) now config published = (localTime config t).toNat := by
  have hunix : (clock.set t at_).unixNow now = some t := by
    have : (now - at_) / 1000000 = 0 := Nat.div_eq_of_lt (by omega)
    simp [WallClock.set, WallClock.unixNow, this]
  simp only [publishLocalTime, hunix, setLocalTime, localSeconds_eq ht]
  generalize localTime config t = seconds at h h'
  congr 1
  omega

/-- From 1980-01-02 until 2106-02-06, and for every offset and rule the settings allow, the reply of a server dates files and
listings if and only if the instant is before 2036-02-07 06:28:16 UTC, when NTP's seconds wrap around. -/
theorem dated_iff_first_era {t : Nat} {config : ClockConfig} {data : List UInt8} (hreply : ServerReply t data)
    (hlow : 315619200 ≤ t) (hhigh : t < 4294944000) (hoff : -720 ≤ config.utcOffsetMinutes)
    (hoff' : config.utcOffsetMinutes ≤ 840) : Dated config t data ↔ t < 2085978496 := by
  have hparse := parseReply_of_server hreply (by omega)
  constructor
  · intro h
    by_contra hlate
    have hera : ¬ t + NTP_UNIX_OFFSET < 2 ^ 32 := by
      unfold NTP_UNIX_OFFSET
      omega
    rw [if_neg hera] at hparse
    rw [h.parsed] at hparse
    cases hparse
  · intro ht
    have hera : t + NTP_UNIX_OFFSET < 2 ^ 32 := by
      unfold NTP_UNIX_OFFSET
      omega
    have hnear := localTime_near hoff hoff' t
    have hpub (clock : WallClock) {at_ now : Nat} (hnow : now < at_ + 1000000) (published : Nat) :=
      @publishLocalTime_set config t (by omega) (by omega) (by omega) clock _ _ hnow published
    obtain ⟨seconds, hseconds⟩ : ∃ seconds : Nat, localTime config t = seconds := ⟨_, (Int.toNat_of_nonneg (by omega)).symm⟩
    have hyear : 1980 ≤ (dateTime seconds).year := by
      have h1980 : daysBeforeYear 1980 = 722814 := by decide
      rw [le_dateTime_year, h1980, SECONDS_PER_DAY]
      omega
    have hyear' : (dateTime seconds).year ≤ 2107 := by
      have h2108 : daysBeforeYear 2108 = 769565 := by decide
      have hlate := le_dateTime_year seconds 2108
      rw [h2108, SECONDS_PER_DAY] at hlate
      generalize (dateTime seconds).year = year at hlate ⊢
      omega
    refine ⟨by rw [hparse, if_pos hera], ?_, ?_⟩
    · intro clock at_ now published _ hnow
      rw [hpub clock hnow, hseconds]
      exact stamped_now (by omega) hyear hyear'
    · intro clock at_ now published _ hnow
      rw [hpub clock hnow, hseconds]
      exact take_nowYmdhms (by omega) hyear'

/-- The reply a server sends at `t`: mode 4, stratum 1, nothing set but the transmit time. -/
def serverReply (t : Nat) : List UInt8 :=
  [0x24, 1] ++ List.replicate 38 0 ++ beBytes 4 ((t + NTP_UNIX_OFFSET) % 2 ^ 32) ++ List.replicate 4 0

/-- In June 2025 the reply dates files. -/
theorem dated_iff_first_era_2025 : Dated {} 1750000000 (serverReply 1750000000) ↔ 1750000000 < 2085978496 :=
  dated_iff_first_era ⟨by decide, by decide, by decide, by decide⟩ (by decide) (by decide) (by decide) (by decide)

/-- In July 2036 the reply of the same server is refused. -/
theorem second_era_refused :
    ServerReply 2100000000 (serverReply 2100000000) ∧
      parseReply (serverReply 2100000000) = .error .badReply ∧ ¬ Dated {} 2100000000 (serverReply 2100000000) := by
  refine ⟨⟨by decide, by decide, by decide, by decide⟩, by decide +kernel, fun h => ?_⟩
  have hparsed := h.parsed
  revert hparsed
  decide +kernel

end Ratputer
