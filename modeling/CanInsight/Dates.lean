import CanInsight.Config
import CanInsight.Lib.Calendar
import CanInsight.Lib.Numeral

/-!
# Dates and times

What the ISO string of `set_current_time_in_buffer` says, read by the calendar.

* `gmtimeDate_date`: the date of `gmtime` is the one of the calendar;
* `readInstant`: the instant that an ISO string denotes;
* `readInstant_setCurrentTimeInBuffer`: the seconds of the RTC, and the last three digits of
  the millisecond counter.
-/

namespace CanInsight

open CString Calendar

/-! ## The date -/

theorem dayNumber_1970 : dayNumber 1970 1 1 = 719529 := by
  rw [dayNumber, daysBeforeYear_succ]
  rfl

/-- The date of `gmtime` is the day that comes so many days after the first of 1970. -/
theorem gmtimeDate_date (days : ℕ) :
    IsDate (gmtimeDate days).1 (gmtimeDate days).2.1 (gmtimeDate days).2.2 ∧
      dayNumber (gmtimeDate days).1 (gmtimeDate days).2.1 (gmtimeDate days).2.2 =
        dayNumber 1970 1 1 + days := by
  have hdoe : (days + 719468) % 146097 < 146097 := Nat.mod_lt _ (by decide)
  have hera : (days + 719468) % 146097 + (days + 719468) / 146097 * 146097 = days + 719468 :=
    Nat.mod_add_div' _ _
  obtain ⟨hyoe, hle, hlt⟩ := marchDays_yearOfEra hdoe
  rw [gmtimeDate]
  dsimp only
  rw [← yearOfEra]
  generalize (days + 719468) % 146097 = doe at *
  generalize (days + 719468) / 146097 = era at *
  generalize yearOfEra doe = yoe at *
  have hmarch : 365 * yoe + yoe / 4 - yoe / 100 = marchDays yoe := by
    rw [marchDays, Nat.div_eq_of_lt hyoe, Nat.add_zero]
  rw [hmarch]
  have hdoy : doe - marchDays yoe < 365 + leapDays (yoe + era * 400 + 1) := by
    rw [Nat.add_right_comm, leapDays_add_era]
    rw [marchDays_succ] at hlt
    omega
  obtain ⟨hdate, hnumber⟩ := date_of_march hdoy rfl rfl rfl
  refine ⟨hdate, hnumber.trans ?_⟩
  rw [marchDays_add_era, dayNumber_1970]
  omega

/-- The dates that the seconds of the clock reach. -/
theorem gmtimeDate_lt {days : ℕ} (h : days < 50000) :
    (gmtimeDate days).1 < 10 ^ 4 ∧ (gmtimeDate days).2.1 < 10 ^ 2 ∧
      (gmtimeDate days).2.2 < 10 ^ 2 := by
  obtain ⟨hdate, hnumber⟩ := gmtimeDate_date days
  have hyear := le_dayNumber (gmtimeDate days).1 (gmtimeDate days).2.1 (gmtimeDate days).2.2
  rw [hnumber, dayNumber_1970] at hyear
  exact ⟨by omega, Nat.lt_of_le_of_lt hdate.2.1 (by decide),
    Nat.lt_of_le_of_lt hdate.day_le (by decide)⟩

/-! ## The instant -/

/-- The milliseconds from the beginning of 1970 to a time of a day. -/
def instant (days hour minute second milli : ℤ) : ℤ :=
  (((days * 24 + hour) * 60 + minute) * 60 + second) * 1000 + milli

/-- The instant of a date and a time, if there are such. -/
def instantOf (year month day hour minute second milli : ℕ) : Option ℤ :=
  if IsDate year month day ∧ hour < 24 ∧ minute < 60 ∧ second < 60 then
    some (instant (dayNumber year month day - dayNumber 1970 1 1) hour minute second milli)
  else none

/-- The instant that an ISO string denotes, in milliseconds since the beginning of 1970. -/
def readInstant : Bytes → Option ℤ
  | [y₁, y₂, y₃, y₄, '-', m₁, m₂, '-', d₁, d₂, 'T', h₁, h₂, ':', n₁, n₂, ':', s₁, s₂, '.',
      f₁, f₂, f₃, 'Z'] => do
    instantOf (← readNumeral 10 [y₁, y₂, y₃, y₄]) (← readNumeral 10 [m₁, m₂])
      (← readNumeral 10 [d₁, d₂]) (← readNumeral 10 [h₁, h₂]) (← readNumeral 10 [n₁, n₂])
      (← readNumeral 10 [s₁, s₂]) (← readNumeral 10 [f₁, f₂, f₃])
  | _ => none

/-- The fields are read one by one, each with as many digits as it is given. -/
theorem readInstant_fields {year month day hour minute second milli : ℕ} (h₁ : year < 10000)
    (h₂ : month < 100) (h₃ : day < 100) (h₄ : hour < 100) (h₅ : minute < 100)
    (h₆ : second < 100) (h₇ : milli < 1000) :
    readInstant (zeroPad 4 year ++ '-' :: zeroPad 2 month ++ '-' :: zeroPad 2 day ++
      'T' :: zeroPad 2 hour ++ ':' :: zeroPad 2 minute ++ ':' :: zeroPad 2 second ++
      '.' :: zeroPad 3 milli ++ ['Z']) =
        instantOf year month day hour minute second milli := by
  have hread₁ := readNumeral_zeroPad 4 year
  have hread₂ := readNumeral_zeroPad 2 month
  have hread₃ := readNumeral_zeroPad 2 day
  have hread₄ := readNumeral_zeroPad 2 hour
  have hread₅ := readNumeral_zeroPad 2 minute
  have hread₆ := readNumeral_zeroPad 2 second
  have hread₇ := readNumeral_zeroPad 3 milli
  rw [zeroPad_four h₁] at hread₁ ⊢
  rw [zeroPad_two h₂] at hread₂ ⊢
  rw [zeroPad_two h₃] at hread₃ ⊢
  rw [zeroPad_two h₄] at hread₄ ⊢
  rw [zeroPad_two h₅] at hread₅ ⊢
  rw [zeroPad_two h₆] at hread₆ ⊢
  rw [zeroPad_three h₇] at hread₇ ⊢
  simp only [List.cons_append, List.nil_append, readInstant, hread₁, hread₂, hread₃, hread₄,
    hread₅, hread₆, hread₇, Option.bind_eq_bind, Option.bind_some]

theorem instantOf_seconds {rtc year month day : ℕ} (hdate : IsDate year month day)
    (hnumber : dayNumber year month day = dayNumber 1970 1 1 + rtc / 86400) (milli : ℕ) :
    instantOf year month day (rtc / 3600 % 24) (rtc / 60 % 60) (rtc % 60) milli =
      some ((rtc * 1000 + milli : ℕ) : ℤ) := by
  have hhour : rtc / 3600 % 24 < 24 := Nat.mod_lt _ (by decide)
  have hmin : rtc / 60 % 60 < 60 := Nat.mod_lt _ (by decide)
  have hsec : rtc % 60 < 60 := Nat.mod_lt _ (by decide)
  rw [instantOf, if_pos ⟨hdate, hhour, hmin, hsec⟩, hnumber, instant]
  generalize dayNumber 1970 1 1 = epoch
  refine congrArg some ?_
  omega

/-- The string denotes the second of the RTC, and in it the last three digits of the
    millisecond counter. -/
theorem readInstant_setCurrentTimeInBuffer {rtc : ℕ} (h : rtc < 2 ^ 32) (millis : ℕ) :
    readInstant (setCurrentTimeInBuffer rtc millis) =
      some ((rtc * 1000 + millis % 1000 : ℕ) : ℤ) := by
  obtain ⟨hdate, hnumber⟩ := gmtimeDate_date (rtc / 86400)
  obtain ⟨hyear, hmonth, hday⟩ := gmtimeDate_lt (by omega : rtc / 86400 < 50000)
  have hhour : rtc / 3600 % 24 < 100 := (Nat.mod_lt _ (by decide)).trans (by decide)
  have hmin : rtc / 60 % 60 < 100 := (Nat.mod_lt _ (by decide)).trans (by decide)
  have hsec : rtc % 60 < 100 := (Nat.mod_lt _ (by decide)).trans (by decide)
  rw [setCurrentTimeInBuffer, readInstant_fields hyear hmonth hday hhour hmin hsec
    (Nat.mod_lt _ (by decide)), instantOf_seconds hdate hnumber]

end CanInsight
