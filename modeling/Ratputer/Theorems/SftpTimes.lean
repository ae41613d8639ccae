import Ratputer.Lemmas.Clock
import Ratputer.Lemmas.SftpChunks
import Ratputer.Ram

/-!
# Timestamps over SFTP

The times that SETSTAT sets are packed as FAT's local dates and times, and STAT unpacks them. On a driver that keeps the times it
is given, STAT reports the modification time rounded down to an even second, an hour early in the repeated hour of autumn, and an
access time on the day of the one that was set. A pair that FAT cannot hold is refused before the volume is touched.
-/

namespace Ratputer

open Effect Gregorian Octets

variable {V : Type} {F : Fat V}

/-- The modification time that STAT reports for one that was set. -/
noncomputable def shownMtime (config : ClockConfig) (mtime : Nat) : Int :=
  open Classical in mtime - (mtime % 2 : Nat) - if config.dst = .eu ∧ RepeatedHour mtime then 3600 else 0

/-- The attributes report the times: the modification time as shown, the access time on its local date. -/
structure ReportsTimes (config : ClockConfig) (atime mtime : Nat) (attrs : Attrs) : Prop where
  mtime_eq : ∃ t : Nat, attrs.mtime = some t ∧ (t : Int) = shownMtime config mtime
  atime_eq : ∃ t : Nat, attrs.atime = some t ∧
    localTime config t / SECONDS_PER_DAY = localTime config atime / SECONDS_PER_DAY

/-- Every entry the driver finds at the path has these times. -/
def ShowsTimes (F : Fat V) (parent : List Str) (leaf : Str) (modified : FatDateTime) (accessedDate : Nat) (v : V) : Prop :=
  ∀ entry v', F.findIn parent leaf v = .ok (some entry) v' →
    entry.modified.date = modified.date ∧ entry.modified.time = modified.time ∧ entry.accessedDate = accessedDate

/-- A driver that keeps the times it is given: setting them is seen at the entry's path, and setting attributes leaves them. -/
structure KeepsTimes (F : Fat V) : Prop where
  setTimes : ∀ parent leaf entry modified accessedDate v v₁ v₂, F.findIn parent leaf v = .ok (some entry) v₁ →
    F.setTimes entry modified accessedDate v₁ = .ok () v₂ → ShowsTimes F parent leaf modified accessedDate v₂
  setAttributes : ∀ parent leaf entry attributes modified accessedDate v v', ShowsTimes F parent leaf modified accessedDate v →
    F.setAttributes entry attributes v = .ok () v' → ShowsTimes F parent leaf modified accessedDate v'

/-! ## Packing and unpacking -/

/-- An accepted time is packed from its local date and time, of a year that FAT has. -/
theorem fatTime_ok {unix : Nat} {config : ClockConfig} {stamp : FatDateTime} (h32 : unix < 2 ^ 32)
    (h : fatTime unix config = .ok stamp) :
    ∃ time, time = dateTime (localTime config unix) ∧ 1980 ≤ time.year ∧ time.year ≤ 2107 ∧
      stamp = .new time.year.toNat time.month time.day time.hour time.minute time.second := by
  unfold fatTime at h
  rw [localSeconds_eq (by omega)] at h
  dsimp only at h
  split at h
  · rename_i hyear
    injection h with h
    exact ⟨_, rfl, hyear.1, hyear.2, h.symm⟩
  · nomatch h

/-- The local time of an accepted time is not before 1980. -/
theorem fatTime_local {unix : Nat} {config : ClockConfig} {stamp : FatDateTime} (h32 : unix < 2 ^ 32)
    (h : fatTime unix config = .ok stamp) :
    315532800 ≤ localTime config unix := by
  obtain ⟨time, rfl, hyear, -⟩ := fatTime_ok h32 h
  have h1980 : daysBeforeYear 1980 = 722814 := by decide
  rw [le_dateTime_year, h1980, SECONDS_PER_DAY] at hyear
  omega

/-- The fields of a packed time, as STAT unpacks them. -/
theorem unpack_fatTime {unix : Nat} {config : ClockConfig} {stamp : FatDateTime} (h32 : unix < 2 ^ 32)
    (h : fatTime unix config = .ok stamp) :
    ∃ (time : DateTime) (year : Nat), time = dateTime (localTime config unix) ∧ (year : Int) = time.year ∧
      unpackDate stamp.date = (year, time.month, time.day) ∧ max time.month 1 = time.month ∧ max time.day 1 = time.day ∧
      unpackTime stamp.time = (time.hour, time.minute, time.second - time.second % 2) := by
  obtain ⟨time, htime, hlow, hhigh, rfl⟩ := fatTime_ok h32 h
  obtain ⟨hvalid, -, hhour, hminute, hsecond, -⟩ := dateTime_spec (localTime config unix)
  rw [← htime] at hvalid hhour hminute hsecond
  have hday := hvalid.day_le.trans (monthLength_le _ _)
  have hmonth := hvalid.month_le
  simp only at hday hmonth
  refine ⟨time, time.year.toNat, htime, Int.toNat_of_nonneg (by omega), ?_, max_eq_left hvalid.month_pos,
    max_eq_left hvalid.day_pos, unpackTime_new hhour hminute hsecond _ _ _⟩
  exact unpackDate_new (by omega) (by omega) (by omega) (by omega) _ _ _

/-- A modification time comes back as local time rounded down to an even second. -/
theorem seconds_of_modified {unix : Nat} {config : ClockConfig} {stamp : FatDateTime} (h32 : unix < 2 ^ 32)
    (h : fatTime unix config = .ok stamp) :
    secondsFromCivil (unpackDate stamp.date).1 (max (unpackDate stamp.date).2.1 1) (max (unpackDate stamp.date).2.2 1)
      (unpackTime stamp.time).1 (unpackTime stamp.time).2.1 (unpackTime stamp.time).2.2 =
      localTime config (unix - (unix % 2 : Nat)) := by
  obtain ⟨time, year, rfl, hyear, hdate, hmonth, hday, htime⟩ := unpack_fatTime h32 h
  have hsecond := dateTime_second (localTime config unix)
  have hle : (dateTime (localTime config unix)).second % 2 ≤ (dateTime (localTime config unix)).second := Nat.mod_le _ _
  have heven := (localTime_even config unix).2
  simp only [hdate, htime, hmonth, hday, hyear, secondsFromCivil_dateTime]
  push_cast [hle]
  omega

/-- An access date comes back as the midnight before. -/
theorem seconds_of_accessed {unix : Nat} {config : ClockConfig} {stamp : FatDateTime} (h32 : unix < 2 ^ 32)
    (h : fatTime unix config = .ok stamp) :
    secondsFromCivil (unpackDate stamp.date).1 (max (unpackDate stamp.date).2.1 1) (max (unpackDate stamp.date).2.2 1)
      0 0 0 = localTime config unix / SECONDS_PER_DAY * SECONDS_PER_DAY := by
  obtain ⟨time, year, rfl, hyear, hdate, hmonth, hday, -⟩ := unpack_fatTime h32 h
  simp only [hdate, hmonth, hday, hyear, secondsFromCivil_midnight]

/-- A time of 32 bits is not clamped. -/
theorem clampU32_eq {t : Int} (h : 0 ≤ t) (h' : t < 2 ^ 32) : (Attrs.clampU32 t : Int) = t := by
  unfold Attrs.clampU32 U32_MAX
  omega

section times

variable {config : ClockConfig} {atime mtime : Nat} {modified accessed : FatDateTime}

/-- The reported modification time. -/
theorem shownMtime_eq (hoff : -720 ≤ config.utcOffsetMinutes) (hoff' : config.utcOffsetMinutes ≤ 840)
    (hm : mtime < 2 ^ 32) (h : fatTime mtime config = .ok modified) :
    (Attrs.clampU32 (unixFromLocal (localTime config (mtime - (mtime % 2 : Nat))) config) : Int) = shownMtime config mtime := by
  classical
  have hlocal := fatTime_local hm h
  have hnear := localTime_near hoff hoff' mtime
  have heven : RepeatedHour (mtime - (mtime % 2 : Nat)) ↔ RepeatedHour mtime := repeatedHour_even mtime
  rw [unixFromLocal_localTime, shownMtime]
  simp only [heven]
  split_ifs
  · exact clampU32_eq (by omega) (by omega)
  · rw [Int.sub_zero]
    exact clampU32_eq (by omega) (by omega)

/-- The reported access time is on the day of the one that was set. -/
theorem shown_atime_date (hoff : -720 ≤ config.utcOffsetMinutes) (hoff' : config.utcOffsetMinutes ≤ 840)
    (ha : atime < 2 ^ 32) (h : fatTime atime config = .ok accessed) :
    localTime config (Attrs.clampU32 (unixFromLocal (localTime config atime / SECONDS_PER_DAY * SECONDS_PER_DAY) config)) /
      SECONDS_PER_DAY = localTime config atime / SECONDS_PER_DAY := by
  have hlocal := fatTime_local ha h
  have hmidnight : localTime config atime / SECONDS_PER_DAY * SECONDS_PER_DAY ≤ localTime config atime :=
    Int.ediv_mul_le _ (by decide)
  have hday : 315532800 - 86400 < localTime config atime / SECONDS_PER_DAY * SECONDS_PER_DAY := by
    simp only [SECONDS_PER_DAY]
    omega
  have hnear := unixFromLocal_near hoff hoff' (localTime config atime / SECONDS_PER_DAY * SECONDS_PER_DAY)
  rw [clampU32_eq (by omega) (unixFromLocal_lt (by omega) hmidnight)]
  -- In the hour that the spring switch leaves out local time goes on from one o'clock, on the same day.
  rcases localTime_unixFromLocal config (localTime config atime / SECONDS_PER_DAY * SECONDS_PER_DAY) with h | h
  · rw [h, Int.mul_ediv_cancel _ (by decide)]
  · rw [h]
    simp only [SECONDS_PER_DAY]
    omega

/-- What an entry reports that has been given the times. -/
theorem reportsTimes_of (hoff : -720 ≤ config.utcOffsetMinutes) (hoff' : config.utcOffsetMinutes ≤ 840)
    (ha : atime < 2 ^ 32) (hm : mtime < 2 ^ 32) (hmod : fatTime mtime config = .ok modified)
    (hacc : fatTime atime config = .ok accessed) {Identity : Type} {entry : FileEntry Identity}
    (hdate : entry.modified.date = modified.date) (htime : entry.modified.time = modified.time)
    (haccessed : entry.accessedDate = accessed.date) : ReportsTimes config atime mtime (Attrs.of entry config) := by
  have hmodified := seconds_of_modified hm hmod
  have haccess := seconds_of_accessed ha hacc
  simp only [unpackDate, unpackTime] at hmodified haccess
  refine ⟨⟨_, rfl, ?_⟩, ⟨_, rfl, ?_⟩⟩
  · rw [hdate, htime, hmodified]
    exact shownMtime_eq hoff hoff' hm hmod
  · rw [haccessed, haccess]
    exact shown_atime_date hoff hoff' ha hacc

end times

/-! ## SETSTAT, then STAT -/

namespace TimesAux

variable {w w' : World F} {α : Type}

/-- A driver call that must succeed. -/
theorem callOr_ok {op : FatM V α} {status : Status} {a : α} (h : callOr op status w = .ok a w') :
    op w.volume = .ok a w'.volume ∧ w'.server = w.server := by
  obtain ⟨r, w₁, hcall, hrest⟩ := bind_eq_ok h
  obtain ⟨hserver, ⟨b, hop, rfl⟩ | ⟨e, _, rfl⟩⟩ := ChunkAux.call_eq hcall
  · injection hrest with h1 h2
    subst h1 h2
    exact ⟨hop, hserver⟩
  · nomatch hrest

theorem check_ok {r : Except Status α} {a : α} (h : check (F := F) r w = .ok a w') : r = .ok a ∧ w' = w := by
  cases r with
  | ok b =>
    injection h with h1 h2
    subst h1 h2
    exact ⟨rfl, rfl⟩
  | error status => nomatch h

/-- Looking for an entry ends with what the driver finds, and with `No such file` when it finds none or fails. -/
theorem ends_findEntry {parent : List Str} {leaf : Str} {Q : F.Entry → World F → Prop} {E : Status → World F → Prop}
    (hfound : ∀ entry v, F.findIn parent leaf w.volume = .ok (some entry) v → Q entry { w with volume := v })
    (hmissing : (∀ entry v, F.findIn parent leaf w.volume ≠ .ok (some entry) v) → ∀ v, E .noSuchFile { w with volume := v }) :
    Ends (findEntry parent leaf) w Q E := by
  cases hop : F.findIn parent leaf w.volume with
  | ok found v =>
    cases found with
    | some entry =>
      have hentry : findEntry parent leaf w = .ok entry { w with volume := v } := by
        simp only [findEntry, call, hop, bind, EStateM.bind, pure, EStateM.pure]
      rw [Ends, hentry]
      exact hfound entry v hop
    | none =>
      have hentry : findEntry parent leaf w = .error .noSuchFile { w with volume := v } := by
        simp only [findEntry, call, hop, bind, EStateM.bind]
        rfl
      rw [Ends, hentry]
      exact hmissing (fun _ _ h => by rw [hop] at h; injection h with h; cases h) v
  | error e v =>
    have hentry : findEntry parent leaf w = .error .noSuchFile { w with volume := v } := by
      simp only [findEntry, call, hop, bind, EStateM.bind]
      rfl
    rw [Ends, hentry]
    exact hmissing (fun _ _ h => by rw [hop] at h; cases h) v

end TimesAux

open TimesAux

/-- Metadata that has been applied to an entry shows at its path. -/
theorem applyMetadata_shows (hF : KeepsTimes F) {parent : List Str} {leaf : Str} {entry : F.Entry} {attrs : RequestedAttrs}
    {config : ClockConfig} {atime mtime : Nat} (htimes : attrs.times = some (atime, mtime)) {v : V} {w w' : World F}
    (hfind : F.findIn parent leaf v = .ok (some entry) w.volume) (h : applyMetadata entry attrs config w = .ok () w') :
    ∃ modified accessed, fatTime mtime config = .ok modified ∧ fatTime atime config = .ok accessed ∧
      ShowsTimes F parent leaf modified accessed.date w'.volume := by
  obtain ⟨_, w₁, htimes', hpermissions⟩ := bind_eq_ok h
  unfold applyTimes at htimes'
  rw [htimes] at htimes'
  obtain ⟨modified, w₂, hcheck, hrest⟩ := bind_eq_ok htimes'
  obtain ⟨hmodified, rfl⟩ := check_ok hcheck
  obtain ⟨accessed, w₃, hcheck', hcall⟩ := bind_eq_ok hrest
  obtain ⟨haccessed, rfl⟩ := check_ok hcheck'
  obtain ⟨hset, -⟩ := callOr_ok hcall
  have hshows := hF.setTimes _ _ _ _ _ _ _ _ hfind hset
  refine ⟨modified, accessed, hmodified, haccessed, ?_⟩
  unfold applyPermissions at hpermissions
  cases hp : attrs.permissions with
  | some permissions =>
    rw [hp] at hpermissions
    obtain ⟨hflags, -⟩ := callOr_ok hpermissions
    exact hF.setAttributes _ _ _ _ _ _ _ _ hshows hflags
  | none =>
    rw [hp] at hpermissions
    injection hpermissions with _ h2
    rw [← h2]
    exact hshows

/-- STAT of the path, whatever its id, is answered with the times, or with `No such file` when the card does not show the entry. -/
def StatReports (components : List Str) (ctx : Ctx) (atime mtime : Nat) (w : World F) : Prop :=
  ∀ id, Ends (statComponents id components ctx) w
    (fun _ w' => ∃ attrs, ReportsTimes ctx.clock atime mtime attrs ∧
      w'.server.out = w.server.out ++ packet FXP_ATTRS (putU32 id ++ attrs.encode))
    fun status _ => status = .noSuchFile ∧
      ∀ leaf entry v, components.getLast? = some leaf → F.findIn components.dropLast leaf w.volume ≠ .ok (some entry) v

theorem splitLast_ok {components : List Str} {status : Status} {leaf : Str} {parent : List Str}
    (h : splitLast components status = .ok (leaf, parent)) : components.getLast? = some leaf ∧ parent = components.dropLast := by
  unfold splitLast at h
  split at h
  · rename_i hlast
    injection h with h
    injection h with h1 h2
    exact ⟨h1 ▸ hlast, h2.symm⟩
  · nomatch h

/-- Metadata applied at a path is what STAT of the path reports. -/
theorem statReports_of_applied (hF : KeepsTimes F) {ctx : Ctx} (hoff : -720 ≤ ctx.clock.utcOffsetMinutes)
    (hoff' : ctx.clock.utcOffsetMinutes ≤ 840) {components : List Str} {leaf : Str} (hlast : components.getLast? = some leaf)
    {attrs : RequestedAttrs} {atime mtime : Nat} (htimes : attrs.times = some (atime, mtime)) (ha : atime < 2 ^ 32)
    (hm : mtime < 2 ^ 32) {entry : F.Entry} {v : V} {w w₁ w' : World F}
    (hfind : F.findIn components.dropLast leaf v = .ok (some entry) w.volume)
    (h : applyMetadata entry attrs ctx.clock w = .ok () w₁) (hv : w'.volume = w₁.volume) :
    StatReports components ctx atime mtime w' := by
  obtain ⟨modified, accessed, hmodified, haccessed, hshows⟩ := applyMetadata_shows hF htimes hfind h
  rw [← hv] at hshows
  intro id
  unfold statComponents
  rw [hlast]
  have hentry : Ends (findEntry components.dropLast leaf) w'
      (fun entry' w'' => w''.server = w'.server ∧ ReportsTimes ctx.clock atime mtime (Attrs.of entry' ctx.clock))
      fun status _ => status = .noSuchFile ∧
        ∀ leaf' entry v, some leaf = some leaf' → F.findIn components.dropLast leaf' w'.volume ≠ .ok (some entry) v := by
    refine ends_findEntry (fun entry' v' hop => ?_) fun hnone v' => ⟨rfl, ?_⟩
    · obtain ⟨hdate, htime, hacc⟩ := hshows entry' v' hop
      exact ⟨rfl, reportsTimes_of hoff hoff' ha hm hmodified haccessed hdate htime hacc⟩
    · intro leaf' entry v hleaf
      obtain rfl : leaf = leaf' := Option.some_inj.mp hleaf
      exact hnone entry v
  refine ends_bind (hentry.mono (fun entry' w'' hreports => ?_) fun _ _ h => h)
  refine ⟨_, hreports.2, ?_⟩
  rw [← hreports.1]

/-- A SETSTAT that is answered at once ends by applying its metadata. -/
theorem applySetstat_applied {id : Nat} {components : List Str} {attrs : RequestedAttrs} {ctx : Ctx} {w w' : World F}
    (h : applySetstat id components attrs ctx w = .ok () w') (hz : w'.server.resize = none) :
    ∃ leaf entry v w₁ w₂, components.getLast? = some leaf ∧ F.findIn components.dropLast leaf v = .ok (some entry) w₁.volume ∧
      applyMetadata entry attrs ctx.clock w₁ = .ok () w₂ ∧ w'.volume = w₂.volume := by
  obtain ⟨_, w₁, _, h⟩ := bind_eq_ok h
  obtain ⟨⟨leaf, parent⟩, w₂, hsplit, h⟩ := bind_eq_ok h
  obtain ⟨hlast, rfl⟩ := splitLast_ok (check_ok hsplit).1
  obtain ⟨entry, w₃, _, h⟩ := bind_eq_ok h
  split at h
  · nomatch h
  split at h
  · nomatch h
  split at h
  · injection h with _ h
    rw [← h] at hz
    nomatch hz
  · obtain ⟨_, w₄, _, h⟩ := bind_eq_ok h
    obtain ⟨entry', w₅, hentry, h⟩ := bind_eq_ok h
    obtain ⟨_, w₆, hmeta, h⟩ := bind_eq_ok h
    obtain ⟨_, w₇, hupdate, hok⟩ := bind_eq_ok h
    refine ⟨leaf, entry', w₄.volume, w₅, w₆, hlast, (ChunkAux.findEntry_ok hentry).1, hmeta, ?_⟩
    injection hupdate with _ h1
    injection hok with _ h2
    rw [← h2, ← h1]

/-- A growing SETSTAT that is complete has applied its metadata last. -/
theorem resizeChunk_applied {job job' : ResizeJob F} {ctx : Ctx} {w w' : World F}
    (h : resizeChunk job ctx w = .ok (job', true) w') :
    ∃ leaf entry v w₁ w₂, job.components.getLast? = some leaf ∧
      F.findIn job.components.dropLast leaf v = .ok (some entry) w₁.volume ∧
      applyMetadata entry job.attrs ctx.clock w₁ = .ok () w₂ ∧ w'.volume = w₂.volume := by
  obtain ⟨⟨leaf, parent⟩, w₁, hsplit, h⟩ := bind_eq_ok h
  obtain ⟨hlast, rfl⟩ := splitLast_ok (check_ok hsplit).1
  obtain ⟨entry, w₂, hentry, h⟩ := bind_eq_ok h
  dsimp only at h
  split at h
  · obtain ⟨_, _, _, h⟩ := bind_eq_ok h
    obtain ⟨_, _, _, h⟩ := bind_eq_ok h
    injection h with h _
    injection h with _ h
    nomatch h
  · obtain ⟨_, w₃, hmeta, h⟩ := bind_eq_ok h
    obtain ⟨_, w₄, hupdate, hpure⟩ := bind_eq_ok h
    refine ⟨leaf, entry, w₁.volume, w₂, w₃, hlast, (ChunkAux.findEntry_ok hentry).1, hmeta, ?_⟩
    injection hupdate with _ h1
    injection hpure with _ h2
    rw [← h2, ← h1]

/-! ## Refused times -/

/-- An action that leaves server and volume as they are. -/
abbrev Steady {α : Type} (m : SftpM F α) : Prop := Frames Eq (fun _ => True) (fun _ => True) m

namespace Steady

variable {α : Type}

theorem view (f : Server F → α) : Steady (view f) := fun _ => ⟨rfl, trivial⟩

theorem check (r : Except Status α) : Steady (F := F) (check r) := by
  cases r with
  | ok a => exact frames_pure trivial
  | error status => exact frames_throw trivial

theorem slotOf (token : List UInt8) : Steady (F := F) (slotOf token) := frames_bind (view _) fun _ _ => check _

theorem fileAt (slot : Slot) : Steady (F := F) (fileAt slot) := frames_bind (view _) fun _ _ => check _

theorem requireWritable (slot : Slot) (attrs : RequestedAttrs) : Steady (F := F) (requireWritable slot attrs) := by
  unfold Ratputer.requireWritable
  split
  · refine frames_bind (fileAt slot) fun file _ => ?_
    split
    · exact frames_throw trivial
    · exact frames_pure trivial
  · exact frames_pure trivial

end Steady

/-- Attributes that FAT cannot hold are refused first of all. -/
theorem applySetstat_refused {attrs : RequestedAttrs} {ctx : Ctx} {status : Status} (h : validateAttrs attrs ctx.clock = .error status)
    (id : Nat) (components : List Str) (w : World F) : applySetstat id components attrs ctx w = .error status w := by
  unfold applySetstat
  rw [h]
  rfl

/-- What the contract of timestamps asks of one request that sets a pair of times: refused, it changes nothing; answered `OK`, at
once or when its growth is complete, it is followed by what STAT should report. -/
structure TimesComeBack (ctx : Ctx) (attrs : RequestedAttrs) (atime mtime : Nat) (w : World F) : Prop where
  refused : ∀ status, validateAttrs attrs ctx.clock = .error status →
    (∀ id body path rest, setstatBody body = some ((path, attrs), rest) → setstat id body ctx w = .error status w) ∧
      ∀ id body token rest, fsetstatBody body = some ((token, attrs), rest) →
        ∃ status', fsetstat id body ctx w = .error status' w
  answered : ∀ id components w', applySetstat id components attrs ctx w = .ok () w' → w'.server.resize = none →
    StatReports components ctx atime mtime w'
  grown : ∀ (job job' : ResizeJob F) w', job.attrs = attrs → resizeChunk job ctx w = .ok (job', true) w' →
    StatReports job.components ctx atime mtime w'

/-- Timestamps set over SFTP come back. -/
theorem times_come_back (hF : KeepsTimes F) {ctx : Ctx} (hoff : -720 ≤ ctx.clock.utcOffsetMinutes)
    (hoff' : ctx.clock.utcOffsetMinutes ≤ 840) {attrs : RequestedAttrs} {atime mtime : Nat}
    (htimes : attrs.times = some (atime, mtime)) (ha : atime < 2 ^ 32) (hm : mtime < 2 ^ 32) (w : World F) :
    TimesComeBack ctx attrs atime mtime w where
  refused := by
    intro status hstatus
    refine ⟨fun id body path rest hbody => ?_, fun id body token rest hbody => ?_⟩
    · have hparse : parse (F := F) setstatBody body = pure ((path, attrs), rest) := by rw [parse, hbody]
      have hset : setstat (F := F) id body ctx =
        (parse setstatBody body >>= fun r => applySetstat id (resolve [] r.1.1) r.1.2 ctx) := rfl
      rw [hset, hparse]
      exact applySetstat_refused hstatus _ _ _
    · have hparse : parse (F := F) fsetstatBody body = pure ((token, attrs), rest) := by rw [parse, hbody]
      have hset : fsetstat (F := F) id body ctx = (parse fsetstatBody body >>= fun r => do
          let slot ← slotOf r.1.1
          requireWritable slot r.1.2
          let components ← check (← view (·.handleComponents slot))
          applySetstat id components r.1.2 ctx) := rfl
      have hends : Ends (fsetstat id body ctx) w (fun _ _ => False) fun _ w' => w' = w := by
        rw [hset, hparse]
        refine (Steady.slotOf token).ends_bind (fun slot w₁ h₁ _ => ?_) fun _ _ h _ => h.symm
        refine (Steady.requireWritable slot attrs).ends_bind (fun _ w₂ h₂ _ => ?_) fun _ _ h _ => (h₁.trans h).symm
        refine (Steady.view _).ends_bind (fun r w₃ h₃ _ => ?_) fun _ _ h _ => ((h₁.trans h₂).trans h).symm
        refine (Steady.check r).ends_bind (fun components w₄ h₄ _ => ?_) fun _ _ h _ => (((h₁.trans h₂).trans h₃).trans h).symm
        rw [Ends, applySetstat_refused hstatus]
        exact (((h₁.trans h₂).trans h₃).trans h₄).symm
      cases hrun : fsetstat id body ctx w with
      | ok _ w' => exact (hends.ok hrun).elim
      | error status' w' => exact ⟨status', by rw [hends.error hrun]⟩
  answered := by
    intro id components w' h hz
    obtain ⟨leaf, entry, v, w₁, w₂, hlast, hfind, happlied, hv⟩ := applySetstat_applied h hz
    exact statReports_of_applied hF hoff hoff' hlast htimes ha hm hfind happlied hv
  grown := by
    rintro job job' w' rfl h
    obtain ⟨leaf, entry, v, w₁, w₂, hlast, hfind, happlied, hv⟩ := resizeChunk_applied h
    exact statReports_of_applied hF hoff hoff' hlast htimes ha hm hfind happlied hv

namespace Ram

/-- Changing a file that keeps its name changes what is found under the name. -/
theorem find_change (v : Volume) (id : Nat) (f : Record → Record) (hf : ∀ r, (f r).name = r.name) (name : Str) :
    (v.change id f).find name = (v.find name).map fun r => if r.id = id then f r else r := by
  unfold Volume.find Volume.change
  rw [List.find?_map]
  congr 2
  funext r
  simp only [Function.comp]
  split_ifs <;> simp [hf]

/-- What is found at a path is a file of that name in the only directory. -/
theorem findIn_ok {parent : List Str} {leaf : Str} {v v' : Volume} {entry : fat.Entry}
    (h : fat.findIn parent leaf v = .ok (some entry) v') : ∃ r, v.find leaf = some r ∧ entry = r.entry ∧ v' = v := by
  cases parent with
  | nil =>
    have hfind : fat.findIn [] leaf v = .ok ((v.find leaf).map Record.entry) v := rfl
    rw [hfind] at h
    injection h with h1 h2
    obtain ⟨r, hr, rfl⟩ := Option.map_eq_some_iff.mp h1
    exact ⟨r, hr, rfl, h2.symm⟩
  | cons component rest => nomatch h

/-- The volume in memory keeps the times it is given. -/
theorem keepsTimes : KeepsTimes fat where
  setTimes := by
    intro parent leaf entry modified accessedDate v v₁ v₂ hfind hset entry' v' hfind'
    obtain ⟨r, hr, rfl, rfl⟩ := findIn_ok hfind
    obtain ⟨r', hr', rfl, -⟩ := findIn_ok hfind'
    have hv₂ : v₁.change r.id (fun r => { r with modified, accessedDate }) = v₂ := by
      injection hset
    have hchange := find_change v₁ r.id (fun r => { r with modified, accessedDate }) (fun _ => rfl) leaf
    rw [← hv₂, hchange, hr, Option.map_some, if_pos rfl] at hr'
    obtain rfl := Option.some_inj.mp hr'
    exact ⟨rfl, rfl, rfl⟩
  setAttributes := by
    intro parent leaf entry attributes modified accessedDate v v' hshows hset entry' v'' hfind'
    obtain ⟨r', hr', rfl, -⟩ := findIn_ok hfind'
    have hv' : v.change entry.identity (fun r => { r with attributes }) = v' := by
      injection hset
    have hchange := find_change v entry.identity (fun r => { r with attributes }) (fun _ => rfl) leaf
    rw [← hv', hchange] at hr'
    obtain ⟨r, hr, heq⟩ := Option.map_eq_some_iff.mp hr'
    have hparent : parent = [] := by
      cases parent with
      | nil => rfl
      | cons component rest => nomatch hfind'
    subst hparent
    have hfound : fat.findIn [] leaf v = .ok (some r.entry) v := by
      have hfind : fat.findIn [] leaf v = .ok ((v.find leaf).map Record.entry) v := rfl
      rw [hfind, hr]
      rfl
    have := hshows r.entry v hfound
    rw [← heq]
    split_ifs <;> exact this

end Ram

/-- A volume with an empty file `a`. -/
def oneEmptyFile : Ram.Volume :=
  { files := [{ id := 0, name := ⟨['a'], Ram.length_a_le⟩, content := ⟨[], Ram.length_nil_lt⟩ }], nextId := 1 }

/-- A time of the repeated hour of 2025 is set over SFTP. -/
theorem times_come_back_repeated_hour :
    ∃ w' : World Ram.fat, applySetstat 7 [['a']] { times := some (1761442201, 1761442201) } {} ⟨{}, oneEmptyFile⟩ = .ok () w' ∧
      StatReports [['a']] {} 1761442201 1761442201 w' := by
  obtain ⟨w', hset, hz⟩ : ∃ w' : World Ram.fat,
      applySetstat 7 [['a']] { times := some (1761442201, 1761442201) } {} ⟨{}, oneEmptyFile⟩ = .ok () w' ∧
        w'.server.resize = none := ⟨_, rfl, rfl⟩
  have hback : TimesComeBack {} { times := some (1761442201, 1761442201) } 1761442201 1761442201 ⟨{}, oneEmptyFile⟩ :=
    times_come_back Ram.keepsTimes (by decide) (by decide) rfl (by decide) (by decide) ⟨{}, oneEmptyFile⟩
  exact ⟨w', hset, hback.answered 7 _ _ hset hz⟩

end Ratputer
