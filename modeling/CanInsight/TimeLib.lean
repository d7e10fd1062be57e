import CanInsight.Dates
import CanInsight.Firmware

/-!
# The clock of the time stamps

The files of the card are stamped by a clock of its own, which counts the seconds on the
millisecond counter and is set by the RTC every 300 seconds; its dates are not those of
`gmtime`.

* `breakTime`: the date and the time of day of a second, by two loops over years and months;
* `breakTime_instant`: they denote this second;
* `TimeLib`: the clock, with the last date it has worked out;
* `now_of_run`: in every run, the clock shows the second of the RTC or the one before, once the
  RTC has gone evenly for 300 seconds.
-/

namespace CanInsight

open CString Calendar

/-! ## Dates -/

/-- `tmElements_t`. The year is an offset from 1970. -/
structure TmElements where
  second : ℕ := 0
  minute : ℕ := 0
  hour : ℕ := 0
  wday : ℕ := 0
  day : ℕ := 0
  month : ℕ := 0
  year : ℕ := 0
  deriving DecidableEq

namespace TimeLib

/-- `LEAP_YEAR`. -/
def LeapYear (y : ℕ) : Prop :=
  0 < 1970 + y ∧ (1970 + y) % 4 = 0 ∧ ((1970 + y) % 100 ≠ 0 ∨ (1970 + y) % 400 = 0)

instance : DecidablePred LeapYear := fun _ => inferInstanceAs (Decidable (_ ∧ _ ∧ _))

def yearLength (year : ℕ) : ℕ := if LeapYear year then 366 else 365

theorem yearLength_pos (year : ℕ) : 0 < yearLength year := by
  unfold yearLength
  split <;> decide

/-- The loop of `breakTime` over the years, which are counted in 8 bits: the year and the days
    up to its end. -/
def yearLoop (time year days : ℕ) : ℕ × ℕ :=
  if days + yearLength year ≤ time then
    yearLoop time ((year + 1) % 2 ^ 8) (days + yearLength year)
  else (year, days + yearLength year)
termination_by time - days
decreasing_by
  have hpos := yearLength_pos year
  omega

/-- `monthDays`. -/
def monthDays : List ℕ := [31, 28, 31, 30, 31, 30, 31, 31, 30, 31, 30, 31]

def monthLength (year month : ℕ) : ℕ :=
  if month = 1 then if LeapYear year then 29 else 28
  else monthDays.getD month 0

/-- The loop of `breakTime` over the months: the month, and the days left in it. -/
def monthLoop (year time month : ℕ) : ℕ × ℕ :=
  if month < 12 then
    if monthLength year month ≤ time then
      monthLoop year (time - monthLength year month) (month + 1)
    else (month, time)
  else (month, time)
termination_by 12 - month

/-- `breakTime`. -/
def breakTime (timeInput : ℕ) : TmElements :=
  let time := u32 timeInput
  let days := time / 60 / 60 / 24
  let (year, after) := yearLoop days 0 0
  let (month, rest) := monthLoop year (days - (after - yearLength year)) 0
  { second := time % 60
    minute := time / 60 % 60
    hour := time / 60 / 60 % 24
    wday := (days + 4) % 7 + 1
    day := rest + 1
    month := month + 1
    year := year }

variable {time year days month : ℕ}

theorem leapYear_iff : LeapYear year ↔ IsLeap (1970 + year) := by
  rw [LeapYear, IsLeap, and_iff_right (by omega)]

theorem yearLength_eq (year : ℕ) : yearLength year = 365 + leapDays (1970 + year) := by
  simp only [yearLength, leapDays, leapYear_iff]
  split <;> rfl

theorem monthLength_eq (year : ℕ) (h : month < 12) :
    monthLength year month = daysInMonth (1970 + year) (month + 1) := by
  have hleap : leapDays (1970 + year) = if LeapYear year then 1 else 0 := by
    simp only [leapDays, leapYear_iff]
  unfold monthLength
  split
  · next h =>
    subst h
    rw [daysInMonth, hleap]
    split <;> rfl
  · interval_cases month <;> first | rfl | contradiction

/-- The loop ends in the year of the day. -/
theorem yearLoop_spec (time year days : ℕ) (htime : time < 255 * 365)
    (hdays : daysBeforeYear (1970 + year) = daysBeforeYear 1970 + days) (hle : days ≤ time)
    (hyear : 365 * year ≤ days) :
    ∃ before, (yearLoop time year days).2 = before + yearLength (yearLoop time year days).1 ∧
      daysBeforeYear (1970 + (yearLoop time year days).1) = daysBeforeYear 1970 + before ∧
      before ≤ time ∧ time < before + yearLength (yearLoop time year days).1 := by
  induction year, days using yearLoop.induct time with
  | case1 year days h ih =>
    have hlen := yearLength_eq year
    have hmod : (year + 1) % 2 ^ 8 = year + 1 := Nat.mod_eq_of_lt (by omega)
    rw [yearLoop, if_pos h]
    rw [hmod] at ih ⊢
    refine ih ?_ h (by omega)
    rw [← Nat.add_assoc, daysBeforeYear, hdays]
    omega
  | case2 year days h =>
    rw [yearLoop, if_neg h]
    exact ⟨days, rfl, hdays, hle, Nat.lt_of_not_le h⟩

/-- The loop ends in the month of the day. -/
theorem monthLoop_spec (year time month : ℕ) {doy : ℕ} (hmonth : month ≤ 12)
    (hdays : daysBeforeMonth (1970 + year) (month + 1) + time = doy)
    (hdoy : doy < daysBeforeMonth (1970 + year) 13) :
    (monthLoop year time month).1 < 12 ∧
      daysBeforeMonth (1970 + year) ((monthLoop year time month).1 + 1) +
        (monthLoop year time month).2 = doy ∧
      (monthLoop year time month).2 <
        daysInMonth (1970 + year) ((monthLoop year time month).1 + 1) := by
  induction time, month using monthLoop.induct year with
  | case1 time month hlt hle ih =>
    have hlen := monthLength_eq year hlt
    rw [monthLoop, if_pos hlt, if_pos hle]
    refine ih hlt ?_
    rw [daysBeforeMonth]
    omega
  | case2 time month hlt hle =>
    rw [monthLoop, if_pos hlt, if_neg hle]
    rw [monthLength_eq year hlt] at hle
    exact ⟨hlt, hdays, Nat.lt_of_not_le hle⟩
  | case3 time month hlt =>
    obtain rfl : month = 12 := by omega
    exact absurd hdoy (Nat.not_lt.2 (hdays ▸ Nat.le_add_right _ _))

theorem daysBeforeMonth_thirteen (y : ℕ) : daysBeforeMonth y 13 = 365 + leapDays y := by
  simp only [daysBeforeMonth, daysInMonth]
  omega

/-- The date of a day since the beginning of 1970. -/
theorem breakTime_date {t : ℕ} (h : t < 2 ^ 32) :
    IsDate (1970 + (breakTime t).year) (breakTime t).month (breakTime t).day ∧
      dayNumber (1970 + (breakTime t).year) (breakTime t).month (breakTime t).day =
        dayNumber 1970 1 1 + t / 86400 := by
  have ht : u32 t = t := Nat.mod_eq_of_lt h
  have hdiv : t / 60 / 60 / 24 = t / 86400 := by omega
  simp only [breakTime, ht, hdiv]
  obtain ⟨before, hafter, hyear, hle, hlt⟩ := yearLoop_spec (t / 86400) 0 0 (by omega)
    (Nat.add_zero _).symm (Nat.zero_le _) (Nat.zero_le _)
  generalize yearLoop (t / 86400) 0 0 = r at *
  obtain ⟨year, after⟩ := r
  obtain rfl : after = before + yearLength year := hafter
  rw [Nat.add_sub_cancel]
  dsimp only at hyear hlt ⊢
  rw [yearLength_eq] at hlt
  obtain ⟨hmonth, hdays, hday⟩ := monthLoop_spec year (t / 86400 - before) 0
    (by decide) (Nat.zero_add _) (by
      rw [daysBeforeMonth_thirteen]
      omega)
  generalize monthLoop year (t / 86400 - before) 0 = r at *
  refine ⟨⟨Nat.succ_pos _, hmonth, Nat.succ_pos _, hday⟩, ?_⟩
  rw [dayNumber, dayNumber, daysBeforeMonth, hyear]
  omega

/-- The time of day of a second. -/
theorem breakTime_time {t : ℕ} (h : t < 2 ^ 32) :
    (breakTime t).hour = t / 3600 % 24 ∧ (breakTime t).minute = t / 60 % 60 ∧
      (breakTime t).second = t % 60 := by
  have ht : u32 t = t := Nat.mod_eq_of_lt h
  simp only [breakTime, ht, and_self, and_true]
  omega

/-- The fields of `breakTime` denote the second they are given, whichever of the 32-bit times it
    is. -/
theorem breakTime_instant {t : ℕ} (h : t < 2 ^ 32) :
    instantOf (1970 + (breakTime t).year) (breakTime t).month (breakTime t).day
      (breakTime t).hour (breakTime t).minute (breakTime t).second 0 =
        some ((t * 1000 : ℕ) : ℤ) := by
  obtain ⟨hdate, hnumber⟩ := breakTime_date h
  obtain ⟨hhour, hminute, hsecond⟩ := breakTime_time h
  rw [hhour, hminute, hsecond, instantOf_seconds hdate hnumber, Nat.add_zero]

/-- The fields on a leap day. -/
theorem breakTime_instant_leapDay :
    breakTime 951827696 = ⟨56, 34, 12, 3, 29, 2, 30⟩ ∧
      instantOf 2000 2 29 12 34 56 0 = some ((951827696 * 1000 : ℕ) : ℤ) := by
  have hfields : breakTime 951827696 = ⟨56, 34, 12, 3, 29, 2, 30⟩ := by decide +kernel
  have hinstant := breakTime_instant (by decide : 951827696 < 2 ^ 32)
  rw [hfields] at hinstant
  exact ⟨hfields, hinstant⟩

end TimeLib

/-! ## The clock -/

/-- `timeStatus_t`. -/
inductive TimeStatus
  | timeNotSet
  | timeNeedsSync
  | timeSet
  deriving DecidableEq

/-- The variables of the time library. -/
structure TimeLib where
  /-- `tm`, the last date that has been worked out, and the time it is the date of. -/
  tm : TmElements := {}
  cacheTime : ℕ := 0
  sysTime : ℕ := 0
  prevMillis : ℕ := 0
  nextSyncTime : ℕ := 0
  status : TimeStatus := .timeNotSet
  /-- `getTimePtr` is set: to `getTeensy3Time`, which reads the RTC. -/
  getTimePtr : Bool := false

namespace TimeLib

/-- `syncInterval`. -/
def syncInterval : ℕ := 300

/-- `refreshCache`. -/
def refreshCache (t : ℕ) (lib : TimeLib) : TimeLib :=
  if t ≠ lib.cacheTime then { lib with tm := breakTime t, cacheTime := t } else lib

theorem elapsed_add_second {millis prev : ℕ} (h : 1000 ≤ elapsed millis prev) :
    elapsed millis (u32 (prev + 1000)) = elapsed millis prev - 1000 := by
  unfold elapsed u32 at *
  omega

/-- The loop of `now`: each second that has passed is counted. -/
def countSeconds (millis : ℕ) (lib : TimeLib) : TimeLib :=
  if 1000 ≤ elapsed millis lib.prevMillis then
    countSeconds millis
      { lib with sysTime := u32 (lib.sysTime + 1), prevMillis := u32 (lib.prevMillis + 1000) }
  else lib
termination_by elapsed millis lib.prevMillis
decreasing_by
  rw [elapsed_add_second ‹_›]
  omega

/-- `setTime`. -/
def setTime (t millis : ℕ) (lib : TimeLib) : TimeLib :=
  { lib with
    sysTime := u32 t
    nextSyncTime := u32 (t + syncInterval)
    status := .timeSet
    prevMillis := u32 millis }

/-- The part of `now` after it, with the RTC. -/
def sync (clock : Clock) (lib : TimeLib) : TimeLib :=
  if lib.nextSyncTime ≤ lib.sysTime then
    if lib.getTimePtr then
      if u32 clock.rtc ≠ 0 then lib.setTime clock.rtc clock.millis
      else
        { lib with
          nextSyncTime := u32 (lib.sysTime + syncInterval)
          status := if lib.status = .timeNotSet then .timeNotSet else .timeNeedsSync }
    else lib
  else lib

/-- `now`. The millisecond counter is read once. -/
def now (clock : Clock) (lib : TimeLib) : ℕ × TimeLib :=
  let lib := (lib.countSeconds (u32 clock.millis)).sync clock
  (lib.sysTime, lib)

/-- `setSyncProvider`, as `set_sync_provider_teensy3` calls it. -/
def setSyncProvider (clock : Clock) (lib : TimeLib) : TimeLib :=
  (now clock { lib with getTimePtr := true, nextSyncTime := lib.sysTime }).2

/-- `timeStatus`. -/
def timeStatus (clock : Clock) (lib : TimeLib) : TimeStatus × TimeLib :=
  let lib := (lib.now clock).2
  (lib.status, lib)

/-- The functions that give a field of the date or of the time of day. -/
inductive Accessor
  | hour
  | minute
  | second
  | day
  | month
  | year
  deriving DecidableEq

/-- What an accessor reads of `tm`. -/
def Accessor.read : Accessor → TmElements → ℕ
  | .hour, tm => tm.hour
  | .minute, tm => tm.minute
  | .second, tm => tm.second
  | .day, tm => tm.day
  | .month, tm => tm.month
  | .year, tm => tm.year + 1970

/-- An accessor, for the time that `now` gives. -/
def get (a : Accessor) (clock : Clock) (lib : TimeLib) : ℕ × TimeLib :=
  let (t, lib) := lib.now clock
  let lib := lib.refreshCache t
  (a.read lib.tm, lib)

/-- The calls of the library. -/
inductive Call
  | setSyncProvider
  | timeStatus
  | get (a : Accessor)

/-- The library after a call, with what the clocks show at it. -/
def call (lib : TimeLib) : Call × Clock → TimeLib
  | (.setSyncProvider, clock) => lib.setSyncProvider clock
  | (.timeStatus, clock) => (lib.timeStatus clock).2
  | (.get a, clock) => (lib.get a clock).2

variable {lib : TimeLib} {c clock : Clock}

/-! ### The dates it keeps -/

/-- A date that is kept is the one of its time. -/
def Cached (lib : TimeLib) : Prop := lib.cacheTime ≠ 0 → lib.tm = breakTime lib.cacheTime

theorem Cached.refreshCache (h : Cached lib) (t : ℕ) : Cached (lib.refreshCache t) := by
  rw [TimeLib.refreshCache]
  split
  · exact fun _ => rfl
  · exact h

theorem Cached.refreshCache_tm (h : Cached lib) {t : ℕ} (ht : t ≠ 0) :
    (lib.refreshCache t).tm = breakTime t := by
  rw [TimeLib.refreshCache]
  split
  · rfl
  · next heq =>
    obtain rfl : t = lib.cacheTime := not_not.1 heq
    exact h ht

/-- The seconds that have passed are counted together. -/
theorem countSeconds_eq (millis : ℕ) (hsys : lib.sysTime < 2 ^ 32)
    (hprev : lib.prevMillis < 2 ^ 32) :
    lib.countSeconds millis =
      { lib with
        sysTime := u32 (lib.sysTime + elapsed millis lib.prevMillis / 1000)
        prevMillis := u32 (lib.prevMillis + 1000 * (elapsed millis lib.prevMillis / 1000)) } := by
  induction lib using countSeconds.induct millis with
  | case1 lib h ih =>
    have hlt (n : ℕ) : u32 n < 2 ^ 32 := Nat.mod_lt _ (by decide)
    have hn : elapsed millis lib.prevMillis / 1000 =
        (elapsed millis lib.prevMillis - 1000) / 1000 + 1 := by omega
    rw [countSeconds, if_pos h, ih (hlt _) (hlt _), elapsed_add_second h, hn]
    generalize (elapsed millis lib.prevMillis - 1000) / 1000 = n
    have hadd : u32 (u32 (lib.sysTime + 1) + n) = u32 (lib.sysTime + (n + 1)) := by
      unfold u32
      omega
    have hadd' : u32 (u32 (lib.prevMillis + 1000) + 1000 * n) =
        u32 (lib.prevMillis + 1000 * (n + 1)) := by
      unfold u32
      omega
    rw [hadd, hadd']
  | case2 lib h =>
    have hn : elapsed millis lib.prevMillis / 1000 = 0 := Nat.div_eq_of_lt (Nat.lt_of_not_le h)
    have hmod {n : ℕ} (h : n < 2 ^ 32) : u32 (n + 0) = n := Nat.mod_eq_of_lt h
    rw [countSeconds, if_neg h, hn, Nat.mul_zero, hmod hsys, hmod hprev]

theorem Cached.call (h : Cached lib) (a : Call × Clock) : Cached (lib.call a) := by
  have hnow {lib : TimeLib} (h : Cached lib) (clock : Clock) : Cached (lib.now clock).2 := by
    have hcount (millis : ℕ) : Cached (lib.countSeconds millis) := by
      induction lib using countSeconds.induct millis with
      | case1 lib hle ih =>
        rw [countSeconds, if_pos hle]
        exact ih h
      | case2 lib hle =>
        rw [countSeconds, if_neg hle]
        exact h
    have hsync {lib : TimeLib} (h : Cached lib) : Cached (lib.sync clock) := by
      rw [sync]
      split_ifs <;> exact h
    exact hsync (hcount _)
  obtain ⟨_ | _ | a, clock⟩ := a
  · have hset : Cached { lib with getTimePtr := true, nextSyncTime := lib.sysTime } := h
    exact hnow hset clock
  · exact hnow h clock
  · exact (hnow h clock).refreshCache _

/-! ### The time it shows -/

/-- What the clocks show, if the RTC has been set, in this century. -/
def Usable (c : Clock) : Prop := 0 < c.rtc ∧ c.rtc < 4000000000

/-- The next call comes later, and before the millisecond counter has gone round. -/
def Next (c c' : Clock) : Prop :=
  c.millis ≤ c'.millis ∧ c'.millis + 1000 < c.millis + 2 ^ 32

/-- The library was set at `s` and has counted the seconds up to a call at `c`. -/
structure SetAt (s c : Clock) (lib : TimeLib) : Prop where
  usable : Usable s
  le : s.millis ≤ c.millis
  recent : c.millis < s.millis + 300000
  sysTime : lib.sysTime = s.rtc + (c.millis - s.millis) / 1000
  prevMillis : lib.prevMillis = u32 (s.millis + 1000 * ((c.millis - s.millis) / 1000))
  nextSyncTime : lib.nextSyncTime = s.rtc + syncInterval
  getTimePtr : lib.getTimePtr = true
  status : lib.status = .timeSet

theorem setAt_sync (hc : Usable clock) (hdue : lib.nextSyncTime ≤ lib.sysTime)
    (hptr : lib.getTimePtr = true) : SetAt clock clock (lib.sync clock) := by
  obtain ⟨hpos, hlt⟩ := hc
  have hrtc : u32 clock.rtc = clock.rtc := Nat.mod_eq_of_lt (by omega)
  rw [sync, if_pos hdue, if_pos hptr, if_pos (by rw [hrtc]; exact hpos.ne')]
  refine ⟨⟨hpos, hlt⟩, le_rfl, by omega, ?_, ?_, Nat.mod_eq_of_lt ?_, hptr, rfl⟩
  · rw [Nat.sub_self, Nat.zero_div, Nat.add_zero]
    exact hrtc
  · rw [Nat.sub_self, Nat.zero_div, Nat.mul_zero, Nat.add_zero]
    rfl
  · rw [syncInterval]
    omega

/-- Whenever it is called next, the library goes on counting or is set again. -/
theorem SetAt.now {s : Clock} (h : SetAt s c lib) (hnext : Next c clock) (hc : Usable clock) :
    SetAt s clock (lib.now clock).2 ∨ SetAt clock clock (lib.now clock).2 := by
  obtain ⟨hle, hgap⟩ := hnext
  have hsc := h.le
  obtain ⟨hpos, hlt⟩ := h.usable
  have hrecent := h.recent
  have helapsed : elapsed (u32 clock.millis) lib.prevMillis =
      clock.millis - (s.millis + 1000 * ((c.millis - s.millis) / 1000)) := by
    rw [h.prevMillis]
    unfold elapsed u32
    omega
  have hsys : u32 (lib.sysTime + elapsed (u32 clock.millis) lib.prevMillis / 1000) =
      s.rtc + (clock.millis - s.millis) / 1000 := by
    rw [helapsed, h.sysTime]
    unfold u32
    omega
  have hprev : u32 (lib.prevMillis +
      1000 * (elapsed (u32 clock.millis) lib.prevMillis / 1000)) =
        u32 (s.millis + 1000 * ((clock.millis - s.millis) / 1000)) := by
    rw [helapsed, h.prevMillis]
    unfold u32
    omega
  have hcount := lib.countSeconds_eq (u32 clock.millis) (by rw [h.sysTime]; omega)
    (by rw [h.prevMillis]; exact Nat.mod_lt _ (by decide))
  rw [hsys, hprev] at hcount
  rw [TimeLib.now, hcount]
  dsimp only
  by_cases hdue : clock.millis < s.millis + 300000
  · have hwait : ¬ lib.nextSyncTime ≤ s.rtc + (clock.millis - s.millis) / 1000 := by
      rw [h.nextSyncTime, syncInterval]
      omega
    rw [sync, if_neg hwait]
    exact .inl ⟨h.usable, hsc.trans hle, hdue, rfl, rfl, h.nextSyncTime, h.getTimePtr, h.status⟩
  · refine .inr (setAt_sync hc ?_ h.getTimePtr)
    dsimp only
    rw [h.nextSyncTime, syncInterval]
    omega

/-- The provider is asked at once. -/
theorem setAt_setSyncProvider (lib : TimeLib) (hc : Usable clock) (hsys : lib.sysTime < 4000300000)
    (hprev : lib.prevMillis < 2 ^ 32) : SetAt clock clock (lib.setSyncProvider clock) := by
  have hcount := @countSeconds_eq { lib with getTimePtr := true, nextSyncTime := lib.sysTime }
    (u32 clock.millis) (by dsimp only; omega) hprev
  rw [setSyncProvider, TimeLib.now, hcount]
  refine setAt_sync hc ?_ rfl
  have helapsed : elapsed (u32 clock.millis) lib.prevMillis < 2 ^ 32 := Nat.mod_lt _ (by decide)
  dsimp only
  generalize elapsed (u32 clock.millis) lib.prevMillis = n at helapsed
  unfold u32
  omega

theorem SetAt.refreshCache {s : Clock} (h : SetAt s c lib) (t : ℕ) :
    SetAt s c (lib.refreshCache t) := by
  rw [TimeLib.refreshCache]
  split
  · exact ⟨h.usable, h.le, h.recent, h.sysTime, h.prevMillis, h.nextSyncTime, h.getTimePtr,
      h.status⟩
  · exact h

theorem SetAt.call {s : Clock} (h : SetAt s c lib) (f : Call) (hnext : Next c clock)
    (hc : Usable clock) :
    SetAt s clock (lib.call (f, clock)) ∨ SetAt clock clock (lib.call (f, clock)) := by
  cases f with
  | setSyncProvider =>
    obtain ⟨hpos, hlt⟩ := h.usable
    have hrecent := h.recent
    refine .inr (setAt_setSyncProvider lib hc ?_ ?_)
    · rw [h.sysTime]
      omega
    · rw [h.prevMillis]
      exact Nat.mod_lt _ (by decide)
  | timeStatus => exact h.now hnext hc
  | get a => exact (h.now hnext hc).imp (·.refreshCache _) (·.refreshCache _)

/-- The calls come one after the other, at what the clocks show. -/
def InOrder (cs : List Clock) : Prop := cs.IsChain Next ∧ ∀ c ∈ cs, Usable c

/-- At the end of a run, the library has been set at one of its calls. -/
theorem SetAt.run {s : Clock} {calls : List (Call × Clock)} (h : SetAt s c lib)
    (hcs : InOrder (c :: calls.map Prod.snd)) :
    ∃ s' ∈ s :: calls.map Prod.snd,
      SetAt s' ((c :: calls.map Prod.snd).getLast (List.cons_ne_nil _ _))
        (calls.foldl TimeLib.call lib) := by
  induction calls generalizing c s lib with
  | nil => exact ⟨s, List.mem_cons_self, h⟩
  | cons a calls ih =>
    obtain ⟨hchain, huse⟩ := hcs
    obtain ⟨f, clock⟩ := a
    rw [List.map_cons] at hchain huse ⊢
    obtain ⟨hnext, hchain⟩ := List.isChain_cons_cons.1 hchain
    have hrest : InOrder (clock :: calls.map Prod.snd) :=
      ⟨hchain, fun c hc => huse c (List.mem_cons_of_mem _ hc)⟩
    rw [List.foldl_cons, List.getLast_cons (List.cons_ne_nil _ _)]
    rcases h.call f hnext (huse clock (List.mem_cons_of_mem _ List.mem_cons_self)) with h' | h'
    · obtain ⟨s', hs', hend⟩ := ih h' hrest
      refine ⟨s', ?_, hend⟩
      rcases List.mem_cons.1 hs' with rfl | hs'
      · exact List.mem_cons_self
      · exact List.mem_cons_of_mem _ (List.mem_cons_of_mem _ hs')
    · obtain ⟨s', hs', hend⟩ := ih h' hrest
      refine ⟨s', List.mem_cons_of_mem _ ?_, hend⟩
      rcases List.mem_cons.1 hs' with rfl | hs'
      · exact List.mem_cons_self
      · exact List.mem_cons_of_mem _ hs'

/-- The library at the end of a run that `setup` begins. -/
def afterSetup (c₀ : Clock) (calls : List (Call × Clock)) : TimeLib :=
  calls.foldl call (setSyncProvider c₀ {})

theorem setAt_afterSetup {c₀ : Clock} {calls : List (Call × Clock)}
    (h : InOrder (c₀ :: calls.map Prod.snd)) :
    ∃ s ∈ c₀ :: calls.map Prod.snd,
      SetAt s ((c₀ :: calls.map Prod.snd).getLast (List.cons_ne_nil _ _)) (afterSetup c₀ calls) :=
  (setAt_setSyncProvider {} (h.2 c₀ List.mem_cons_self) (by decide) (by decide)).run h

theorem Cached.run (h : Cached lib) (calls : List (Call × Clock)) :
    Cached (calls.foldl TimeLib.call lib) := by
  induction calls generalizing lib with
  | nil => exact h
  | cons a calls ih => exact ih (h.call a)

theorem cached_afterSetup (c₀ : Clock) (calls : List (Call × Clock)) :
    Cached (afterSetup c₀ calls) :=
  have hinit : Cached {} := fun h => absurd rfl h
  (hinit.call (.setSyncProvider, c₀)).run calls

/-- The RTC has gone evenly for 300 seconds: it counts the thousands of the milliseconds that
    are counted, from some time on. -/
def Steady (k : ℤ) (cs : List Clock) (clock : Clock) : Prop :=
  ∀ c ∈ cs, clock.millis < c.millis + 300000 → (c.rtc : ℤ) = (c.millis + k) / 1000

theorem SetAt.near {s : Clock} {k : ℤ} (h : SetAt s c lib)
    (hs : (s.rtc : ℤ) = (s.millis + k) / 1000) (hc : (c.rtc : ℤ) = (c.millis + k) / 1000) :
    lib.sysTime ≤ c.rtc ∧ c.rtc ≤ lib.sysTime + 1 := by
  have hle := h.le
  rw [h.sysTime]
  omega

end TimeLib

/-- However its functions are called, and however the RTC is set meanwhile, the clock of the
    time stamps shows the second of the RTC or the one before, once the RTC has gone evenly for
    300 seconds; and it counts as set. -/
theorem now_of_run {c₀ clock : Clock} {calls : List (TimeLib.Call × Clock)} {k : ℤ}
    (horder : TimeLib.InOrder (c₀ :: (calls.map Prod.snd ++ [clock])))
    (hsteady : TimeLib.Steady k (c₀ :: (calls.map Prod.snd ++ [clock])) clock) :
    ((TimeLib.afterSetup c₀ calls).now clock).1 ≤ clock.rtc ∧
      clock.rtc ≤ ((TimeLib.afterSetup c₀ calls).now clock).1 + 1 ∧
      ((TimeLib.afterSetup c₀ calls).timeStatus clock).1 = .timeSet := by
  have hmap : calls.map Prod.snd ++ [clock] =
      (calls ++ [(TimeLib.Call.timeStatus, clock)]).map Prod.snd := by
    rw [List.map_append, List.map_singleton]
  have hlast : (c₀ :: (calls ++ [(TimeLib.Call.timeStatus, clock)]).map Prod.snd).getLast
      (List.cons_ne_nil _ _) = clock := by
    simp only [List.map_append, List.map_singleton, ← List.cons_append,
      List.getLast_append_singleton]
  rw [hmap] at horder
  obtain ⟨s, hs, hset⟩ := TimeLib.setAt_afterSetup horder
  rw [hlast, TimeLib.afterSetup, List.foldl_append] at hset
  rw [← hmap] at hs
  obtain ⟨hle, hge⟩ := hset.near (hsteady s hs hset.recent) (hsteady clock
    (List.mem_cons_of_mem _ (List.mem_append_right _ List.mem_cons_self)) (by omega))
  exact ⟨hle, hge, hset.status⟩

/-- A second and a half after `setup`, the RTC has just gone on to its second second. -/
theorem now_of_run_setup :
    ((TimeLib.afterSetup ⟨1700000000, 600, 0⟩ [(.get .year, ⟨1700000001, 1200, 0⟩)]).now
      ⟨1700000002, 2100, 0⟩).1 ≤ 1700000002 ∧
    1700000002 ≤ ((TimeLib.afterSetup ⟨1700000000, 600, 0⟩
      [(.get .year, ⟨1700000001, 1200, 0⟩)]).now ⟨1700000002, 2100, 0⟩).1 + 1 ∧
    ((TimeLib.afterSetup ⟨1700000000, 600, 0⟩ [(.get .year, ⟨1700000001, 1200, 0⟩)]).timeStatus
      ⟨1700000002, 2100, 0⟩).1 = .timeSet := by
  refine now_of_run (k := 1700000000000) ⟨?_, ?_⟩ ?_
  · simp only [List.map_cons, List.map_nil, List.cons_append, List.nil_append,
      List.isChain_cons_cons, List.isChain_singleton, TimeLib.Next]
    decide
  · simp only [List.map_cons, List.map_nil, List.cons_append, List.nil_append,
      List.forall_mem_cons, TimeLib.Usable]
    decide
  · simp only [TimeLib.Steady, List.map_cons, List.map_nil, List.cons_append, List.nil_append,
      List.forall_mem_cons]
    decide

end CanInsight
