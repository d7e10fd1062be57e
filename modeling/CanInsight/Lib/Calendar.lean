import Mathlib.Order.Monotone.Basic
import Mathlib.Tactic.IntervalCases

/-!
# The Gregorian calendar

Days are counted from the beginning of the year 0 on, year by year and month by month
(`dayNumber`). Programs count them the other way round, from a number to the date, in years
that begin in March, so that the leap day is the last one of a year.

* `marchDays`: the days before March of a year, from March of the year 0 on;
* `dayNumber_march`, `dayNumber_winter`: the number of a day, by its year and month from
  March on;
* `yearOfEra`: the year of a day of an era of 400 years, which a division gives once the leap
  days are left out (`yearOfEra_eq`);
* `date_of_march`: the date of a day of a year, from March on.
-/

namespace Calendar

/-- The year has a leap day. -/
def IsLeap (y : ℕ) : Prop := y % 4 = 0 ∧ (y % 100 ≠ 0 ∨ y % 400 = 0)

instance : DecidablePred IsLeap := fun _ => inferInstanceAs (Decidable (_ ∧ _))

/-- The leap days of a year. -/
def leapDays (y : ℕ) : ℕ := if IsLeap y then 1 else 0

def daysInMonth (y : ℕ) : ℕ → ℕ
  | 2 => 28 + leapDays y
  | 4 | 6 | 9 | 11 => 30
  | _ => 31

/-- The days of the years before a year, from the year 0 on. -/
def daysBeforeYear : ℕ → ℕ
  | 0 => 0
  | y + 1 => daysBeforeYear y + 365 + leapDays y

/-- The days of the months before a month of the year, from the month 1 on. -/
def daysBeforeMonth (y : ℕ) : ℕ → ℕ
  | 0 | 1 => 0
  | m + 2 => daysBeforeMonth y (m + 1) + daysInMonth y (m + 1)

/-- The number of the day `d` of the month `m` of the year `y`, where the first day of the year
    0 has the number 1. -/
def dayNumber (y m d : ℕ) : ℕ := daysBeforeYear y + daysBeforeMonth y m + d

/-- There is such a day. -/
def IsDate (y m d : ℕ) : Prop := 1 ≤ m ∧ m ≤ 12 ∧ 1 ≤ d ∧ d ≤ daysInMonth y m

instance (y m d : ℕ) : Decidable (IsDate y m d) :=
  inferInstanceAs (Decidable (_ ∧ _ ∧ _ ∧ _))

/-! ## Years that begin in March -/

/-- The days from March of the year 0 to March of the year `y`. -/
def marchDays (y : ℕ) : ℕ := 365 * y + y / 4 - y / 100 + y / 400

/-- The days from March to the `p`-th month after it. -/
def monthDays (p : ℕ) : ℕ := (153 * p + 2) / 5

variable {y m p d t doe : ℕ}

theorem leapDays_le (y : ℕ) : leapDays y ≤ 1 := by
  unfold leapDays
  split <;> decide

/-- A year divides into the leap days of its four, its hundred and its four hundred years. -/
theorem leapDays_add (y : ℕ) :
    leapDays y + (if 100 ∣ y then 1 else 0) =
      (if 4 ∣ y then 1 else 0) + if 400 ∣ y then 1 else 0 := by
  have hleap : IsLeap y ↔ 4 ∣ y ∧ (¬ 100 ∣ y ∨ 400 ∣ y) := by
    simp only [IsLeap, Nat.dvd_iff_mod_eq_zero, ne_eq]
  have h100 : 400 ∣ y → 100 ∣ y := fun h => Nat.dvd_trans (by decide) h
  have h4 : 100 ∣ y → 4 ∣ y := fun h => Nat.dvd_trans (by decide) h
  rw [leapDays]
  simp only [hleap]
  by_cases h₁ : 4 ∣ y
  · by_cases h₂ : 100 ∣ y
    · by_cases h₃ : 400 ∣ y <;> simp [h₁, h₂, h₃]
    · have h₃ : ¬ 400 ∣ y := fun h => h₂ (h100 h)
      simp [h₁, h₂, h₃]
  · have h₂ : ¬ 100 ∣ y := fun h => h₁ (h4 h)
    have h₃ : ¬ 400 ∣ y := fun h => h₂ (h100 h)
    simp [h₁, h₂, h₃]

theorem marchDays_succ (y : ℕ) : marchDays (y + 1) = marchDays y + 365 + leapDays (y + 1) := by
  have hleap := leapDays_add (y + 1)
  have hle : y / 100 ≤ y := Nat.div_le_self y 100
  have hone : (if 100 ∣ y + 1 then 1 else 0) ≤ 1 := by split <;> decide
  rw [marchDays, marchDays, Nat.succ_div, Nat.succ_div, Nat.succ_div]
  omega

/-- Eras of 400 years are alike. -/
theorem marchDays_add_era (t era : ℕ) :
    marchDays (t + era * 400) = marchDays t + era * 146097 := by
  unfold marchDays
  omega

theorem leapDays_add_era (t era : ℕ) : leapDays (t + era * 400) = leapDays t := by
  have hiff : IsLeap (t + era * 400) ↔ IsLeap t := by
    unfold IsLeap
    omega
  simp only [leapDays, hiff]

/-- The year begins 306 days after March of the year before. -/
theorem daysBeforeYear_succ (y : ℕ) : daysBeforeYear (y + 1) = marchDays y + 366 := by
  induction y with
  | zero => decide
  | succ y ih =>
    rw [daysBeforeYear, ih, marchDays_succ]
    omega

theorem daysBeforeYear_add (y : ℕ) : daysBeforeYear y + 59 + leapDays y = marchDays y + 60 := by
  cases y with
  | zero => decide
  | succ y =>
    rw [daysBeforeYear_succ, marchDays_succ]
    omega

/-- The months from March to December. -/
theorem dayNumber_march (hp : p < 10) (y d : ℕ) :
    dayNumber y (p + 3) d = marchDays y + 60 + monthDays p + d := by
  have hy := daysBeforeYear_add y
  interval_cases p <;> simp only [dayNumber, daysBeforeMonth, daysInMonth, monthDays] <;> omega

/-- January and February are the last months of the year before. -/
theorem dayNumber_winter (hp : 10 ≤ p) (hp' : p < 12) (y d : ℕ) :
    dayNumber (y + 1) (p - 9) d = marchDays y + 60 + monthDays p + d := by
  have hy := daysBeforeYear_succ y
  interval_cases p <;>
    simp only [dayNumber, daysBeforeMonth, daysInMonth, monthDays, Nat.reduceSub] <;> omega

theorem le_dayNumber (y m d : ℕ) : 365 * y ≤ dayNumber y m d := by
  have hyears : 365 * y ≤ daysBeforeYear y := by
    induction y with
    | zero => exact Nat.zero_le _
    | succ y ih =>
      rw [daysBeforeYear]
      omega
  rw [dayNumber]
  omega

theorem IsDate.day_le (h : IsDate y m d) : d ≤ 31 := by
  obtain ⟨-, -, -, hd⟩ := h
  have hleap := leapDays_le y
  unfold daysInMonth at hd
  split at hd <;> omega

/-- A date comes before the end of its year. -/
theorem IsDate.dayNumber_le (h : IsDate y m d) : dayNumber y m d ≤ daysBeforeYear (y + 1) := by
  obtain ⟨hm, hm', -, hd⟩ := h
  rw [dayNumber, daysBeforeYear]
  interval_cases m <;> simp only [daysBeforeMonth, daysInMonth] at hd ⊢ <;> omega

/-! ## The year of a day -/

/-- The year of a day of the era, from the division of the days without the leap days. -/
def yearOfEra (doe : ℕ) : ℕ := (doe - doe / 1460 + doe / 36524 - doe / 146096) / 365

theorem yearOfEra_mono : Monotone yearOfEra := by
  refine monotone_nat_of_le_succ fun n => Nat.div_le_div_right ?_
  omega

/-- The first and the last day of each year of the era. -/
theorem yearOfEra_bounds :
    ∀ t < 400, yearOfEra (marchDays t) = t ∧ yearOfEra (marchDays (t + 1) - 1) = t := by
  decide +kernel

/-- The days of a year have its number. -/
theorem yearOfEra_eq (ht : t < 400) (h : marchDays t ≤ doe) (h' : doe < marchDays (t + 1)) :
    yearOfEra doe = t := by
  obtain ⟨hfirst, hlast⟩ := yearOfEra_bounds t ht
  refine le_antisymm ?_ ?_
  · rw [← hlast]
    exact yearOfEra_mono (Nat.le_sub_one_of_lt h')
  · rw [← hfirst]
    exact yearOfEra_mono h

/-- Every day of the era is in the year of its number. -/
theorem marchDays_yearOfEra (h : doe < 146097) :
    yearOfEra doe < 400 ∧ marchDays (yearOfEra doe) ≤ doe ∧
      doe < marchDays (yearOfEra doe + 1) := by
  have hex : ∃ t, doe < marchDays t := ⟨400, h⟩
  obtain ⟨t, ht⟩ : ∃ t, Nat.find hex = t + 1 :=
    Nat.exists_eq_succ_of_ne_zero fun h0 => Nat.not_lt_zero doe (by
      have hlt := Nat.find_spec hex
      rw [h0] at hlt
      exact hlt)
  have hlt : doe < marchDays (t + 1) := ht ▸ Nat.find_spec hex
  have hle : marchDays t ≤ doe := Nat.not_lt.1 (Nat.find_min hex (by omega))
  have hera : t < 400 := by
    have hmin := Nat.find_min' hex (m := 400) h
    omega
  obtain rfl := yearOfEra_eq hera hle hlt
  exact ⟨hera, hle, hlt⟩

/-! ## The date of a day -/

/-- The month of a day, from March on. -/
def monthOfYear (doy : ℕ) : ℕ := (5 * doy + 2) / 153

variable {doy : ℕ}

theorem monthDays_monthOfYear (h : doy < 366) :
    monthOfYear doy < 12 ∧ monthDays (monthOfYear doy) ≤ doy ∧
      doy < monthDays (monthOfYear doy + 1) := by
  unfold monthDays monthOfYear
  omega

/-- The last day of February is a leap day, if there is one. -/
theorem isDate_march (hp : p < 10) (hd : 1 ≤ d) (hd' : monthDays p + d ≤ monthDays (p + 1)) :
    IsDate y (p + 3) d := by
  refine ⟨by omega, by omega, hd, ?_⟩
  unfold monthDays at hd'
  interval_cases p <;> simp only [daysInMonth] <;> omega

theorem isDate_winter (hp : 10 ≤ p) (hp' : p < 12) (hd : 1 ≤ d)
    (hd' : monthDays p + d ≤ monthDays (p + 1)) (hy : monthDays p + d ≤ 365 + leapDays (y + 1)) :
    IsDate (y + 1) (p - 9) d := by
  refine ⟨by omega, by omega, hd, ?_⟩
  unfold monthDays at hd' hy
  interval_cases p <;> simp only [daysInMonth, Nat.reduceSub] <;> omega

/-- The date of the day that comes `doy` days after the first of March. -/
theorem date_of_march (h : doy < 365 + leapDays (y + 1)) {year month day : ℕ}
    (hmonth : month = if monthOfYear doy < 10 then monthOfYear doy + 3 else monthOfYear doy - 9)
    (hyear : year = y + if month ≤ 2 then 1 else 0)
    (hday : day = doy - monthDays (monthOfYear doy) + 1) :
    IsDate year month day ∧ dayNumber year month day = marchDays y + 61 + doy := by
  have hleap := leapDays_le (y + 1)
  obtain ⟨hp, hle, hlt⟩ := monthDays_monthOfYear (by omega : doy < 366)
  generalize monthOfYear doy = p at *
  subst hday
  split at hmonth
  · next hp' =>
    rw [if_neg (by omega), Nat.add_zero] at hyear
    subst hyear hmonth
    rw [dayNumber_march hp']
    exact ⟨isDate_march hp' (by omega) (by omega), by omega⟩
  · next hp' =>
    rw [if_pos (by omega)] at hyear
    subst hyear hmonth
    rw [dayNumber_winter (by omega) hp]
    exact ⟨isDate_winter (by omega) hp (by omega) (by omega) (by omega), by omega⟩

end Calendar
