import CanInsight.Dates
import Mathlib.Algebra.Order.Archimedean.Real.Basic
import Mathlib.Algebra.Order.Floor.Semifield
import Mathlib.Tactic.Linarith
import Mathlib.Tactic.NormNum

/-!
# Start times

The start time of a log is printed from two clocks: the seconds of the RTC, and the
millisecond counter, which has not begun with a second of the RTC and which wraps.

* `Moment`: a moment on the scale of the RTC, and what the clocks show at it, if the counter
  was at 0 at `boot`;
* `InOrder`: the start times printed at two moments denote instants in this order, each of
  them within a second of its moment;
* `inOrder_iff`: they do if the RTC shows a later second, or else if the last three digits of
  the counter have not gone back in between;
* `inOrder_of_add_one_le`: they do if the moments are a second apart.
-/

namespace CanInsight

/-- A moment on the scale of the RTC, in seconds since the beginning of 1970. -/
structure Moment where
  time : ℝ
  nonneg : 0 ≤ time
  lt : time < 2 ^ 32

namespace Moment

variable (boot : ℝ)

/-- The milliseconds counted up to a moment. -/
noncomputable def ticks (t : Moment) : ℤ := ⌊1000 * (t.time - boot)⌋

/-- What the clocks show at a moment. -/
noncomputable def clock (t : Moment) : Clock where
  rtc := ⌊t.time⌋₊
  millis := (t.ticks boot % 2 ^ 32).toNat
  startMillis := (t.ticks boot % 2 ^ 32).toNat

/-- What is printed for the start time. -/
noncomputable def startTime (t : Moment) : Bytes :=
  setCurrentTimeInBuffer (t.clock boot).rtc (t.clock boot).millis

/-- The milliseconds counted from one moment to another. -/
noncomputable def elapsed (t₁ t₂ : Moment) : ℕ := (t₂.ticks boot - t₁.ticks boot).toNat

end Moment

/-- The start times denote instants in the order of the moments, each within a second of its
    own. -/
def InOrder (boot : ℝ) (t₁ t₂ : Moment) : Prop :=
  ∃ i₁ i₂ : ℤ, readInstant (t₁.startTime boot) = some i₁ ∧
    readInstant (t₂.startTime boot) = some i₂ ∧ i₁ ≤ i₂ ∧
    |(i₁ : ℝ) / 1000 - t₁.time| < 1 ∧ |(i₂ : ℝ) / 1000 - t₂.time| < 1

/-- The last three digits of the counter do not go back while it counts `e` milliseconds from
    `c` on, at most a second. It wraps at 296 milliseconds after a multiple of 1000. -/
def Advances (c e : ℕ) : Prop :=
  if c + e < 2 ^ 32 then c % 1000 + e < 1000 ∨ e = 1000 else 2 ^ 32 - 296 ≤ c ∧ 296 ≤ e

/-! ## One moment -/

namespace Moment

variable (boot : ℝ)

theorem rtc_le (t : Moment) : ((t.clock boot).rtc : ℝ) ≤ t.time := Nat.floor_le t.nonneg

theorem lt_rtc (t : Moment) : t.time < (t.clock boot).rtc + 1 := Nat.lt_floor_add_one _

theorem rtc_lt (t : Moment) : (t.clock boot).rtc < 2 ^ 32 :=
  (Nat.floor_lt t.nonneg).2 (by exact_mod_cast t.lt)

theorem rtc_mono {t₁ t₂ : Moment} (h : t₁.time ≤ t₂.time) :
    (t₁.clock boot).rtc ≤ (t₂.clock boot).rtc := Nat.floor_mono h

theorem millis_cast (t : Moment) : ((t.clock boot).millis : ℤ) = t.ticks boot % 2 ^ 32 :=
  Int.toNat_of_nonneg (Int.emod_nonneg _ (by decide))

/-- The instant that is printed: it is within the second that the RTC shows, but may be any
    in it. -/
theorem readInstant_startTime (t : Moment) :
    readInstant (t.startTime boot) =
      some (((t.clock boot).rtc * 1000 + (t.clock boot).millis % 1000 : ℕ) : ℤ) :=
  readInstant_setCurrentTimeInBuffer (t.rtc_lt boot) _

theorem abs_sub_lt (t : Moment) {f : ℕ} (hf : f < 1000) :
    |(((t.clock boot).rtc * 1000 + f : ℕ) : ℝ) / 1000 - t.time| < 1 := by
  have hle := t.rtc_le boot
  have hlt := t.lt_rtc boot
  have hf₀ : (0 : ℝ) ≤ f := f.cast_nonneg
  have hf₁ : (f : ℝ) < 1000 := by exact_mod_cast hf
  push_cast
  rw [abs_sub_lt_iff, add_div, mul_div_cancel_right₀ _ (by norm_num)]
  constructor <;> linarith

/-! ## Two moments -/

variable {boot}

/-- The counter goes on from what it showed. -/
theorem millis_later {t₁ t₂ : Moment} (h : t₁.time ≤ t₂.time) :
    (t₂.clock boot).millis = ((t₁.clock boot).millis + elapsed boot t₁ t₂) % 2 ^ 32 := by
  have hticks : t₁.ticks boot ≤ t₂.ticks boot := Int.floor_mono (by linarith)
  have hcount : (elapsed boot t₁ t₂ : ℤ) = t₂.ticks boot - t₁.ticks boot :=
    Int.toNat_of_nonneg (Int.sub_nonneg.2 hticks)
  have h₁ := t₁.millis_cast boot
  have h₂ := t₂.millis_cast boot
  omega

/-- In a second, at most 1000 milliseconds are counted. -/
theorem elapsed_le {t₁ t₂ : Moment} (h : (t₁.clock boot).rtc = (t₂.clock boot).rtc) :
    elapsed boot t₁ t₂ ≤ 1000 := by
  have hle := t₁.rtc_le boot
  have hlt := t₂.lt_rtc boot
  rw [← h] at hlt
  have hticks : t₂.ticks boot < t₁.ticks boot + 1001 := by
    refine Int.floor_lt.2 ?_
    have hfloor := Int.lt_floor_add_one (1000 * (t₁.time - boot))
    rw [← ticks] at hfloor
    push_cast
    linarith
  rw [elapsed]
  omega

end Moment

/-- The printed digits, from what the counter showed before. -/
theorem mod_le_mod_iff_advances {c e : ℕ} (hc : c < 2 ^ 32) (he : e ≤ 1000) :
    c % 1000 ≤ (c + e) % 2 ^ 32 % 1000 ↔ Advances c e := by
  rw [Advances]
  split_ifs with h
  · rw [Nat.mod_eq_of_lt h]
    omega
  · omega

open Moment

theorem inOrder_iff_le {boot : ℝ} {t₁ t₂ : Moment} :
    InOrder boot t₁ t₂ ↔
      (t₁.clock boot).rtc * 1000 + (t₁.clock boot).millis % 1000 ≤
        (t₂.clock boot).rtc * 1000 + (t₂.clock boot).millis % 1000 := by
  have hmod (m : ℕ) : m % 1000 < 1000 := Nat.mod_lt _ (by decide)
  constructor
  · rintro ⟨i₁, i₂, h₁, h₂, hle, -⟩
    rw [readInstant_startTime, Option.some.injEq] at h₁ h₂
    omega
  · intro h
    refine ⟨_, _, t₁.readInstant_startTime boot, t₂.readInstant_startTime boot, ?_,
      t₁.abs_sub_lt boot (hmod _), t₂.abs_sub_lt boot (hmod _)⟩
    exact Int.ofNat_le.2 h

theorem inOrder_of_rtc_lt {boot : ℝ} {t₁ t₂ : Moment}
    (h : (t₁.clock boot).rtc < (t₂.clock boot).rtc) : InOrder boot t₁ t₂ := by
  have hmod : (t₁.clock boot).millis % 1000 < 1000 := Nat.mod_lt _ (by decide)
  rw [inOrder_iff_le]
  omega

/-- Logs that are started a second apart have start times in order. -/
theorem inOrder_of_add_one_le {boot : ℝ} {t₁ t₂ : Moment} (h : t₁.time + 1 ≤ t₂.time) :
    InOrder boot t₁ t₂ := by
  refine inOrder_of_rtc_lt ?_
  have hle := t₁.rtc_le boot
  have hlt := t₂.lt_rtc boot
  have hcast : ((t₁.clock boot).rtc : ℝ) < (t₂.clock boot).rtc := by linarith
  exact_mod_cast hcast

/-- The start times are in order exactly if the RTC shows a later second, or the last three
    digits of the counter have not gone back. -/
theorem inOrder_iff {boot : ℝ} {t₁ t₂ : Moment} (h : t₁.time ≤ t₂.time) :
    InOrder boot t₁ t₂ ↔ (t₁.clock boot).rtc < (t₂.clock boot).rtc ∨
      Advances (t₁.clock boot).millis (elapsed boot t₁ t₂) := by
  rcases (rtc_mono boot h).lt_or_eq with hlt | heq
  · -- a later second: whatever the counter shows
    exact iff_of_true (inOrder_of_rtc_lt hlt) (.inl hlt)
  · -- the same second: the digits decide
    have hc : (t₁.clock boot).millis < 2 ^ 32 := by
      have hcast := t₁.millis_cast boot
      omega
    rw [inOrder_iff_le, ← mod_le_mod_iff_advances hc (elapsed_le heq), ← millis_later h, heq]
    omega

/-! ## Within a second -/

/-- Some tenths of a second after 02:10:25 on a January day of 2021. -/
noncomputable def tenthsLater (n : ℕ) (h : n < 100) : Moment where
  time := 1610331025 + n / 10
  nonneg := by positivity
  lt := by
    have hn : (n : ℝ) < 100 := by exact_mod_cast h
    linarith

/-- The counter began 5.7 seconds before. -/
noncomputable def bootBefore : ℝ := 1610331025 - 57 / 10

theorem tenthsLater_clock {n : ℕ} (h : n < 100) :
    ((tenthsLater n h).clock bootBefore).rtc = 1610331025 + n / 10 ∧
      ((tenthsLater n h).clock bootBefore).millis = 5700 + 100 * n := by
  have hticks : (tenthsLater n h).ticks bootBefore = ((5700 + 100 * n : ℕ) : ℤ) := by
    rw [ticks, tenthsLater, bootBefore, ← Int.floor_natCast (R := ℝ)]
    congr 1
    push_cast
    ring
  constructor
  · have htime : (tenthsLater n h).time = ((16103310250 + n : ℕ) : ℝ) / (10 : ℕ) := by
      rw [tenthsLater]
      push_cast
      ring
    change ⌊(tenthsLater n h).time⌋₊ = 1610331025 + n / 10
    rw [htime, Nat.floor_div_eq_div]
    omega
  · have hcast := (tenthsLater n h).millis_cast bootBefore
    omega

/-- At two and at four tenths of a second, the counter shows 5900 and 6100 milliseconds. -/
theorem not_inOrder_within_second :
    (tenthsLater 2 (by decide)).time ≤ (tenthsLater 4 (by decide)).time ∧
      (tenthsLater 2 (by decide)).startTime bootBefore = "2021-01-11T02:10:25.900Z".toList ∧
      (tenthsLater 4 (by decide)).startTime bootBefore = "2021-01-11T02:10:25.100Z".toList ∧
      ¬ InOrder bootBefore (tenthsLater 2 (by decide)) (tenthsLater 4 (by decide)) := by
  obtain ⟨hrtc₁, hmillis₁⟩ := tenthsLater_clock (by decide : 2 < 100)
  obtain ⟨hrtc₂, hmillis₂⟩ := tenthsLater_clock (by decide : 4 < 100)
  refine ⟨by norm_num [tenthsLater], ?_, ?_, ?_⟩
  · rw [startTime, hrtc₁, hmillis₁]
    decide
  · rw [startTime, hrtc₂, hmillis₂]
    decide
  · rw [inOrder_iff_le, hrtc₁, hmillis₁, hrtc₂, hmillis₂]
    decide

/-- In the next second, the counter shows 6700 milliseconds. -/
theorem inOrder_next_second :
    InOrder bootBefore (tenthsLater 2 (by decide)) (tenthsLater 10 (by decide)) := by
  obtain ⟨hrtc₁, -⟩ := tenthsLater_clock (by decide : 2 < 100)
  obtain ⟨hrtc₂, -⟩ := tenthsLater_clock (by decide : 10 < 100)
  have hlater : (tenthsLater 2 (by decide)).time ≤ (tenthsLater 10 (by decide)).time := by
    norm_num [tenthsLater]
  refine (inOrder_iff hlater).2 (.inl ?_)
  rw [hrtc₁, hrtc₂]
  decide

end CanInsight
