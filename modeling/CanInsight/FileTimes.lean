import CanInsight.TimeLib

/-!
# The time stamps of the files

`dateTime` is called back whenever a file of the card is created or synchronised, and packs a
date and a time of day into two words of 16 bits. It asks for each of the six fields by a call of
its own.

* `fatInstant`: the instant that the two words denote;
* `fatInstant_pack`: packing rounds down to an even second, from 1980 to 2107;
* `fatInstant_of_run`: in every run, a stamp denotes the time of the RTC but for two seconds, if
  no second ends while the fields are asked for.
-/

namespace CanInsight

open Calendar TimeLib

/-! ## The two words -/

namespace FsDateTime

/-- `FS_DATE`. -/
def fsDate (year month day : ℕ) : ℕ :=
  let year := (year % 2 ^ 16 + (2 ^ 16 - 1980)) % 2 ^ 16
  let month := month % 2 ^ 8
  let day := day % 2 ^ 8
  if 127 < year ∨ 12 < month ∨ 31 < day then 0
  else (year <<< 9 ||| month <<< 5 ||| day) % 2 ^ 16

/-- `FS_YEAR`. -/
def fsYear (fatDate : ℕ) : ℕ := 1980 + fatDate >>> 9

/-- `FS_MONTH`. -/
def fsMonth (fatDate : ℕ) : ℕ := fatDate >>> 5 &&& 0xF

/-- `FS_DAY`. -/
def fsDay (fatDate : ℕ) : ℕ := fatDate &&& 0x1F

/-- `FS_TIME`. -/
def fsTime (hour minute second : ℕ) : ℕ :=
  let hour := hour % 2 ^ 8
  let minute := minute % 2 ^ 8
  let second := second % 2 ^ 8
  if 23 < hour ∨ 59 < minute ∨ 59 < second then 0
  else (hour <<< 11 ||| minute <<< 5 ||| second >>> 1) % 2 ^ 16

/-- `FS_HOUR`. -/
def fsHour (fatTime : ℕ) : ℕ := fatTime >>> 11

/-- `FS_MINUTE`. -/
def fsMinute (fatTime : ℕ) : ℕ := fatTime >>> 5 &&& 0x3F

/-- `FS_SECOND`. -/
def fsSecond (fatTime : ℕ) : ℕ := 2 * (fatTime &&& 0x1F)

/-- The instant that the two words denote, in milliseconds since the beginning of 1970. -/
def fatInstant (date time : ℕ) : Option ℤ :=
  instantOf (fsYear date) (fsMonth date) (fsDay date) (fsHour time) (fsMinute time)
    (fsSecond time) 0

variable {year month day hour minute second : ℕ}

/-- Three fields that have enough bits are next to one another. -/
theorem pack_eq {a b c i j : ℕ} (hb : b < 2 ^ i) (hc : c < 2 ^ j) :
    a <<< (i + j) ||| b <<< j ||| c = (a * 2 ^ i + b) * 2 ^ j + c := by
  have hmid : a <<< (i + j) ||| b <<< j = (a <<< i + b) <<< j := by
    rw [Nat.shiftLeft_add_eq_or_of_lt hb, Nat.shiftLeft_or_distrib, Nat.shiftLeft_add]
  rw [hmid, ← Nat.shiftLeft_add_eq_or_of_lt hc, Nat.shiftLeft_eq, Nat.shiftLeft_eq]

theorem fsDate_eq (hy : 1980 ≤ year) (hy' : year ≤ 2107) (hm : month ≤ 12) (hd : day ≤ 31) :
    fsDate year month day = ((year - 1980) * 16 + month) * 32 + day := by
  have hyear : (year % 2 ^ 16 + (2 ^ 16 - 1980)) % 2 ^ 16 = year - 1980 := by omega
  have hmonth : month % 2 ^ 8 = month := Nat.mod_eq_of_lt (by omega)
  have hday : day % 2 ^ 8 = day := Nat.mod_eq_of_lt (by omega)
  have hpack : (year - 1980) <<< 9 ||| month <<< 5 ||| day =
      ((year - 1980) * 16 + month) * 32 + day := pack_eq (i := 4) (j := 5) (by omega) (by omega)
  rw [fsDate]
  rw [hyear, hmonth, hday, if_neg (by omega), hpack]
  exact Nat.mod_eq_of_lt (by omega)

theorem fsTime_eq (hh : hour < 24) (hm : minute < 60) (hs : second < 60) :
    fsTime hour minute second = (hour * 64 + minute) * 32 + second / 2 := by
  have hhour : hour % 2 ^ 8 = hour := Nat.mod_eq_of_lt (by omega)
  have hminute : minute % 2 ^ 8 = minute := Nat.mod_eq_of_lt (by omega)
  have hsecond : second % 2 ^ 8 = second := Nat.mod_eq_of_lt (by omega)
  have hpack : hour <<< 11 ||| minute <<< 5 ||| second / 2 =
      (hour * 64 + minute) * 32 + second / 2 := pack_eq (i := 6) (j := 5) (by omega) (by omega)
  rw [fsTime]
  rw [hhour, hminute, hsecond, if_neg (by omega), Nat.shiftRight_one, hpack]
  exact Nat.mod_eq_of_lt (by omega)

/-- The fields of a date are read back. -/
theorem fsDate_fields (hy : 1980 ≤ year) (hy' : year ≤ 2107) (hm : month ≤ 12) (hd : day ≤ 31) :
    fsYear (fsDate year month day) = year ∧ fsMonth (fsDate year month day) = month ∧
      fsDay (fsDate year month day) = day := by
  rw [fsYear, fsMonth, fsDay, fsDate_eq hy hy' hm hd, Nat.shiftRight_eq_div_pow,
    Nat.shiftRight_eq_div_pow, Nat.and_two_pow_sub_one_eq_mod _ 4,
    Nat.and_two_pow_sub_one_eq_mod _ 5]
  omega

/-- So are those of a time of day, but for an odd second. -/
theorem fsTime_fields (hh : hour < 24) (hm : minute < 60) (hs : second < 60) :
    fsHour (fsTime hour minute second) = hour ∧ fsMinute (fsTime hour minute second) = minute ∧
      fsSecond (fsTime hour minute second) = second - second % 2 := by
  rw [fsHour, fsMinute, fsSecond, fsTime_eq hh hm hs, Nat.shiftRight_eq_div_pow,
    Nat.shiftRight_eq_div_pow, Nat.and_two_pow_sub_one_eq_mod _ 6,
    Nat.and_two_pow_sub_one_eq_mod _ 5]
  omega

/-- Packing a second rounds it down to an even one. -/
theorem fatInstant_pack {t : ℕ} (h : 315532800 ≤ t) (ht : t < 2 ^ 32) :
    fatInstant (fsDate ((breakTime t).year + 1970) (breakTime t).month (breakTime t).day)
      (fsTime (breakTime t).hour (breakTime t).minute (breakTime t).second) =
        some (((t - t % 2) * 1000 : ℕ) : ℤ) := by
  obtain ⟨hdate, hnumber⟩ := breakTime_date ht
  rw [Nat.add_comm 1970] at hdate hnumber
  have hlow : 1980 ≤ (breakTime t).year + 1970 := by
    have hle := hdate.dayNumber_le
    rw [hnumber, dayNumber_1970, daysBeforeYear_succ, marchDays] at hle
    omega
  have hhigh : (breakTime t).year + 1970 ≤ 2107 := by
    have hle := le_dayNumber ((breakTime t).year + 1970) (breakTime t).month (breakTime t).day
    rw [hnumber, dayNumber_1970] at hle
    omega
  obtain ⟨hhour, hminute, hsecond⟩ := breakTime_time ht
  obtain ⟨hy, hm, hd⟩ := fsDate_fields hlow hhigh hdate.2.1 hdate.day_le
  rw [hhour, hminute, hsecond]
  obtain ⟨hh, hn, hs⟩ := fsTime_fields (Nat.mod_lt (t / 3600) (by decide : 24 > 0))
    (Nat.mod_lt (t / 60) (by decide : 60 > 0)) (Nat.mod_lt t (by decide : 60 > 0))
  have heven : (t - t % 2) / 3600 % 24 = t / 3600 % 24 ∧ (t - t % 2) / 60 % 60 = t / 60 % 60 ∧
      (t - t % 2) % 60 = t % 60 - t % 60 % 2 ∧ (t - t % 2) / 86400 = t / 86400 := by omega
  obtain ⟨hh', hn', hs', hd'⟩ := heven
  rw [fatInstant, hy, hm, hd, hh, hn, hs, ← hh', ← hn', ← hs',
    instantOf_seconds hdate (hd' ▸ hnumber), Nat.add_zero]

end FsDateTime

/-! ## The stamp -/

namespace TimeLib

/-- What accessors give that are called one after another. -/
def getAll : List (Accessor × Clock) → TimeLib → List (Accessor × ℕ) × TimeLib
  | [], lib => ([], lib)
  | (a, clock) :: gets, lib =>
    let (value, lib) := lib.get a clock
    let (values, lib) := getAll gets lib
    ((a, value) :: values, lib)

/-- The value that an accessor has given. -/
def value (values : List (Accessor × ℕ)) (a : Accessor) : ℕ := (values.lookup a).getD 0

/-- The calls of one stamp. Those in the arguments of one macro come in an order that is left to
    the compiler. -/
structure StampCalls where
  date : List (Accessor × Clock)
  time : List (Accessor × Clock)
  date_perm : (date.map Prod.fst).Perm [.year, .month, .day]
  time_perm : (time.map Prod.fst).Perm [.hour, .minute, .second]

namespace StampCalls

/-- The calls, all at one time, in the order in which the macros have their arguments. -/
def ofClock (clock : Clock) : StampCalls where
  date := [(.year, clock), (.month, clock), (.day, clock)]
  time := [(.hour, clock), (.minute, clock), (.second, clock)]
  date_perm := .refl _
  time_perm := .refl _

/-- The calls in the order they are made in. -/
def order (s : StampCalls) : List (Accessor × Clock) := s.date ++ s.time

theorem mem_date (s : StampCalls) {a : Accessor} (h : a ∈ [Accessor.year, .month, .day]) :
    a ∈ s.date.map Prod.fst := s.date_perm.mem_iff.2 h

theorem mem_time (s : StampCalls) {a : Accessor} (h : a ∈ [Accessor.hour, .minute, .second]) :
    a ∈ s.time.map Prod.fst := s.time_perm.mem_iff.2 h

theorem order_ne_nil (s : StampCalls) : s.order ≠ [] := by
  intro h
  have hyear := s.mem_date (a := .year) (by decide)
  rw [(List.append_eq_nil_iff.1 h).1] at hyear
  cases hyear

end StampCalls

/-- `dateTime`. -/
def dateTime (s : StampCalls) (lib : TimeLib) : (ℕ × ℕ) × TimeLib :=
  let (d, lib) := lib.getAll s.date
  let (t, lib) := lib.getAll s.time
  ((FsDateTime.fsDate (value d .year) (value d .month) (value d .day),
    FsDateTime.fsTime (value t .hour) (value t .minute) (value t .second)), lib)

/-- The seconds that `now` gives to accessors that are called one after another. -/
def seconds : List (Accessor × Clock) → TimeLib → List ℕ
  | [], _ => []
  | (a, clock) :: gets, lib => (lib.now clock).1 :: seconds gets (lib.get a clock).2

variable {lib : TimeLib} {gets gets' : List (Accessor × Clock)} {t : ℕ}

theorem seconds_append : lib.seconds (gets ++ gets') =
    lib.seconds gets ++ (lib.getAll gets).2.seconds gets' := by
  induction gets generalizing lib with
  | nil => rfl
  | cons g gets ih =>
    rw [List.cons_append, seconds, ih]
    rfl

theorem getAll_snd (gets : List (Accessor × Clock)) (lib : TimeLib) :
    (lib.getAll gets).2 = (gets.map fun g => (Call.get g.1, g.2)).foldl call lib := by
  induction gets generalizing lib with
  | nil => rfl
  | cons g gets ih => exact ih _

/-- If no second ends meanwhile, the accessors give the fields of one second. -/
theorem Cached.getAll (h : Cached lib) (ht : t ≠ 0) (hsame : ∀ t' ∈ lib.seconds gets, t' = t) :
    (lib.getAll gets).1 = gets.map fun g => (g.1, g.1.read (breakTime t)) := by
  induction gets generalizing lib with
  | nil => rfl
  | cons g gets ih =>
    obtain ⟨a, clock⟩ := g
    rw [seconds] at hsame
    obtain ⟨hnow, hsame⟩ := List.forall_mem_cons.1 hsame
    have hcached : Cached (lib.now clock).2 := h.call (.timeStatus, clock)
    have hvalue : (lib.get a clock).1 = a.read (breakTime t) := by
      have htm := hcached.refreshCache_tm ht
      rw [← hnow] at htm ⊢
      exact congrArg a.read htm
    rw [List.map_cons, ← hvalue, ← ih (h.call (.get a, clock)) hsame]
    rfl

theorem value_map {f : Accessor → ℕ} {a : Accessor} (h : a ∈ gets.map Prod.fst) :
    value (gets.map fun g => (g.1, f g.1)) a = f a := by
  induction gets with
  | nil => cases h
  | cons g gets ih =>
    rw [value, List.map_cons, List.lookup_cons]
    by_cases hg : a = g.1
    · rw [beq_iff_eq.2 hg, hg]
      rfl
    · rw [beq_eq_false_iff_ne.2 hg]
      exact ih ((List.mem_cons.1 h).resolve_left hg)

theorem get_sysTime (a : Accessor) (clock : Clock) (lib : TimeLib) :
    (lib.get a clock).2.sysTime = (lib.now clock).1 := by
  have hkeep (t : ℕ) (lib : TimeLib) : (lib.refreshCache t).sysTime = lib.sysTime := by
    rw [refreshCache]
    split <;> rfl
  exact hkeep _ _

/-- The last second given is the one the library goes on with. -/
theorem sysTime_mem_seconds (hgets : gets ≠ []) :
    (lib.getAll gets).2.sysTime ∈ lib.seconds gets := by
  induction gets generalizing lib with
  | nil => exact absurd rfl hgets
  | cons g gets ih =>
    obtain ⟨a, clock⟩ := g
    rw [seconds]
    cases gets with
    | nil => exact List.mem_singleton.2 (get_sysTime a clock lib)
    | cons g' gets => exact List.mem_cons_of_mem _ (ih (List.cons_ne_nil _ _))

/-- The stamp of a second, if none ends while it is made. -/
theorem Cached.dateTime {s : StampCalls} (h : Cached lib) (ht : t ≠ 0)
    (hsame : ∀ t' ∈ lib.seconds s.order, t' = t) :
    (lib.dateTime s).1 =
      (FsDateTime.fsDate ((breakTime t).year + 1970) (breakTime t).month (breakTime t).day,
        FsDateTime.fsTime (breakTime t).hour (breakTime t).minute (breakTime t).second) := by
  rw [StampCalls.order, seconds_append] at hsame
  obtain ⟨hdate, htime⟩ := List.forall_mem_append.1 hsame
  have hcached : Cached (lib.getAll s.date).2 := by
    rw [getAll_snd]
    exact h.run _
  rw [TimeLib.dateTime]
  dsimp only
  rw [h.getAll ht hdate, hcached.getAll ht htime]
  have hd {a : Accessor} (ha : a ∈ [Accessor.year, .month, .day]) :
      value (s.date.map fun g => (g.1, g.1.read (breakTime t))) a = a.read (breakTime t) :=
    value_map (f := fun a => a.read (breakTime t)) (s.mem_date ha)
  have ht {a : Accessor} (ha : a ∈ [Accessor.hour, .minute, .second]) :
      value (s.time.map fun g => (g.1, g.1.read (breakTime t))) a = a.read (breakTime t) :=
    value_map (f := fun a => a.read (breakTime t)) (s.mem_time ha)
  rw [hd (a := .year) (by decide), hd (a := .month) (by decide), hd (a := .day) (by decide),
    ht (a := .hour) (by decide), ht (a := .minute) (by decide), ht (a := .second) (by decide)]
  rfl

end TimeLib

/-- In every run, a stamp denotes the time that the RTC shows, but for two seconds: if the RTC has
    gone evenly for 300 seconds, and no second ends while the fields of the stamp are asked
    for. -/
theorem fatInstant_of_run {c₀ clock : Clock} {calls : List (TimeLib.Call × Clock)}
    {s : TimeLib.StampCalls} {k : ℤ} {t : ℕ}
    (horder : TimeLib.InOrder (c₀ :: (calls.map Prod.snd ++ s.order.map Prod.snd)))
    (hclock : (s.order.map Prod.snd).getLast? = some clock)
    (hsteady : TimeLib.Steady k (c₀ :: (calls.map Prod.snd ++ s.order.map Prod.snd)) clock)
    (hsame : ∀ t' ∈ (TimeLib.afterSetup c₀ calls).seconds s.order, t' = t)
    (h1980 : 315532800 < clock.rtc) :
    ∃ t' : ℕ, FsDateTime.fatInstant ((TimeLib.afterSetup c₀ calls).dateTime s).1.1
        ((TimeLib.afterSetup c₀ calls).dateTime s).1.2 = some ((t' * 1000 : ℕ) : ℤ) ∧
      t' ≤ clock.rtc ∧ clock.rtc ≤ t' + 2 := by
  have hmap : calls.map Prod.snd ++ s.order.map Prod.snd =
      (calls ++ s.order.map fun g => (TimeLib.Call.get g.1, g.2)).map Prod.snd := by
    rw [List.map_append, List.map_map]
    rfl
  have hlast : (c₀ :: (calls.map Prod.snd ++ s.order.map Prod.snd)).getLast
      (List.cons_ne_nil _ _) = clock := by
    refine Option.some_inj.1 ?_
    rw [← List.getLast?_eq_some_getLast, ← List.cons_append, List.getLast?_append, hclock]
    rfl
  have hmem : clock ∈ c₀ :: (calls.map Prod.snd ++ s.order.map Prod.snd) :=
    List.mem_cons_of_mem _ (List.mem_append_right _ (List.mem_of_getLast? hclock))
  have husable := (horder.2 clock hmem).2
  rw [hmap] at horder
  obtain ⟨c, hc, hset⟩ := TimeLib.setAt_afterSetup horder
  have hend : TimeLib.afterSetup c₀ (calls ++ s.order.map fun g => (TimeLib.Call.get g.1, g.2)) =
      ((TimeLib.afterSetup c₀ calls).getAll s.order).2 := by
    rw [TimeLib.getAll_snd, TimeLib.afterSetup, List.foldl_append, TimeLib.afterSetup]
  simp only [← hmap] at hc hset
  rw [hlast, hend] at hset
  obtain ⟨hle, hge⟩ := hset.near (hsteady c hc hset.recent) (hsteady clock hmem (by omega))
  rw [hsame _ (TimeLib.sysTime_mem_seconds s.order_ne_nil)] at hle hge
  refine ⟨t - t % 2, ?_, by omega, by omega⟩
  rw [(TimeLib.cached_afterSetup c₀ calls).dateTime (by omega) hsame]
  dsimp only
  exact FsDateTime.fatInstant_pack (by omega) (by omega)

/-- The first stamp after `setup`, with all calls in one millisecond, in the order the macros list
    their arguments in. -/
theorem fatInstant_of_run_setup :
    ∃ t' : ℕ, FsDateTime.fatInstant
        ((TimeLib.afterSetup ⟨1700000000, 600, 0⟩ []).dateTime (.ofClock ⟨1700000001, 1200, 0⟩)).1.1
        ((TimeLib.afterSetup ⟨1700000000, 600, 0⟩ []).dateTime
          (.ofClock ⟨1700000001, 1200, 0⟩)).1.2 = some ((t' * 1000 : ℕ) : ℤ) ∧
      t' ≤ 1700000001 ∧ 1700000001 ≤ t' + 2 := by
  have horder : TimeLib.InOrder [⟨1700000000, 600, 0⟩, ⟨1700000001, 1200, 0⟩,
      ⟨1700000001, 1200, 0⟩, ⟨1700000001, 1200, 0⟩, ⟨1700000001, 1200, 0⟩,
      ⟨1700000001, 1200, 0⟩, ⟨1700000001, 1200, 0⟩] := by
    refine ⟨?_, ?_⟩
    · simp only [List.isChain_cons_cons, List.isChain_singleton, TimeLib.Next]
      decide
    · simp only [List.forall_mem_cons, TimeLib.Usable]
      decide
  have hsteady : TimeLib.Steady 1700000000000 [⟨1700000000, 600, 0⟩, ⟨1700000001, 1200, 0⟩,
      ⟨1700000001, 1200, 0⟩, ⟨1700000001, 1200, 0⟩, ⟨1700000001, 1200, 0⟩,
      ⟨1700000001, 1200, 0⟩, ⟨1700000001, 1200, 0⟩] ⟨1700000001, 1200, 0⟩ := by
    simp only [TimeLib.Steady, List.forall_mem_cons]
    decide
  have hsame : ∀ t' ∈ (TimeLib.afterSetup ⟨1700000000, 600, 0⟩ []).seconds
      (TimeLib.StampCalls.ofClock ⟨1700000001, 1200, 0⟩).order, t' = 1700000000 := by
    decide +kernel
  exact @fatInstant_of_run _ ⟨1700000001, 1200, 0⟩ [] (.ofClock ⟨1700000001, 1200, 0⟩) _ _
    horder rfl hsteady hsame (by decide)

/-- A year that ends after it has been asked for: the stamp is a year early. -/
example :
    FsDateTime.fatInstant
        ((TimeLib.afterSetup ⟨1704067199, 600, 0⟩ []).dateTime ⟨
          [(.year, ⟨1704067199, 1599, 0⟩), (.month, ⟨1704067200, 1600, 0⟩),
            (.day, ⟨1704067200, 1600, 0⟩)],
          [(.hour, ⟨1704067200, 1600, 0⟩), (.minute, ⟨1704067200, 1600, 0⟩),
            (.second, ⟨1704067200, 1600, 0⟩)], .refl _, .refl _⟩).1.1 0 =
      FsDateTime.fatInstant (FsDateTime.fsDate 2023 1 1) 0 := by decide +kernel

end CanInsight
