import CanInsight.FreeSpace
import CanInsight.FreshLog

/-!
# A start of a log that fails

`start_log` moves the log numbers on, in memory and in the EEPROM, before it opens
the file, so what a start has done to the numbers when it fails depends on the way
`set_next_log_filename` took and on where it failed.

* `failed_start_iff`: a start that fails leaves the numbers as they were if and only
  if it is refused before a name is chosen, or the numbers that the choice writes are
  those that were there (`KeepsCounters`).
-/

namespace CanInsight

open CString

/-- The log numbers, in memory and in the EEPROM, and the remembered overwriting. -/
structure Counters where
  firstLogFileNumber : ℕ
  nextLogFileNumber : ℕ
  overwritingOldFiles : Bool
  eeprom : EEPROM
  deriving DecidableEq

namespace Device

variable {fuel fuel' : ℕ} {env : Env} {b : Bool} {d d' p e : Device} {buf : List Char}

/-- The counters of the device. -/
def counters (d : Device) : Counters :=
  ⟨d.firstLogFileNumber, d.nextLogFileNumber, d.overwritingOldFiles, d.eeprom⟩

/-- The counters that the return to log 1 writes, the bound of the uploader included. -/
def resetCounters (d : Device) : Counters := ⟨0, 1, d.overwritingOldFiles, ⟨1, 0, 1, 0⟩⟩

/-- The counters that the use of the number `n` writes. -/
def usedCounters (n : ℕ) (d : Device) : Counters :=
  ⟨d.firstLogFileNumber, u16 (n + 1), d.overwritingOldFiles,
    ⟨u16 (n + 1), d.eeprom.loggerFirstLogNum, d.eeprom.uploaderNextToTry, maxLog (u16 (n + 1))⟩⟩

/-- The counters that the overwriting of the first log writes. -/
def recycledCounters (d : Device) : Counters :=
  let first := u16 (d.firstLogFileNumber + 1)
  ⟨first, first, true, ⟨first, first, d.eeprom.uploaderNextToTry, maxLog first⟩⟩

/-- When a start that chooses a name in the state `p` leaves the counters as they were
    in `d`: it cannot fail any more, or the choice writes what was there. -/
def KeepsCounters (env : Env) (d p : Device) : Prop :=
  if p.Shortcut then env.noValue = true ∧ env.opens = true
  else if p.nameFirst.logFile ∉ p.card then env.opens = true ∨ d.counters = p.resetCounters
  else if p.nameNext.logFile ∉ p.card then env.opens = true
  else
    (∀ fuel n buf, p.search fuel = some (some n, buf) →
      env.opens = true ∨ d.counters = p.usedCounters n) ∧
    ∀ fuel buf, p.search fuel = some (none, buf) →
      (d.config.overwriteLogs = true → env.opens = true ∨ d.counters = p.recycledCounters) ∧
      (d.config.overwriteLogs = false → d.nextLogFileNumber ≤ maxLogNumber)

/-! ## Enough fuel -/

theorem freeSpaceLoop_mono {r : Bool × Device} (hle : fuel ≤ fuel')
    (h : freeSpaceLoop env fuel buf d = some r) : freeSpaceLoop env fuel' buf d = some r := by
  induction fuel generalizing fuel' buf d with
  | zero => cases h
  | succ fuel ih =>
    obtain ⟨fuel', rfl⟩ := Nat.exists_eq_add_of_le' (Nat.one_le_of_lt hle)
    rw [freeSpaceLoop] at h ⊢
    split at h
    · next hc =>
      rw [if_pos hc]
      split at h
      · next ho =>
        rw [if_pos ho]
        exact h
      · next ho =>
        rw [if_neg ho]
        exact ih (Nat.le_of_succ_le_succ hle) h
    · next hc =>
      rw [if_neg hc]
      exact h

theorem NextLog.mono (hle : fuel ≤ fuel') (h : NextLog fuel env d b e) :
    NextLog fuel' env d b e := by
  cases h with
  | shortcut hs => exact .shortcut hs
  | reset hs hf => exact .reset hs hf
  | next hs hf hn => exact .next hs hf hn
  | found hs hf hn hm => exact .found hs hf hn (searchLoop_mono hle hm)
  | overwrite hs hf hn hm ho => exact .overwrite hs hf hn (searchLoop_mono hle hm) ho
  | full hs hf hn hm ho => exact .full hs hf hn (searchLoop_mono hle hm) ho

/-- A name that is chosen, with some fuel, is chosen in a start. -/
theorem exists_startLog (hp : EntersStart env d p) (hn : NextLog fuel env p b e) :
    ∃ fuel, d.startLog fuel env = some (if b then e.openLog env else (false, e)) := by
  obtain ⟨fuel', hc⟩ := hp
  have hc := freeSpaceLoop_mono (Nat.le_max_right fuel fuel') hc
  have hn := setNextLogFilename_iff.2 (hn.mono (Nat.le_max_left fuel fuel'))
  refine ⟨max fuel fuel', ?_⟩
  rw [startLog, checkSdFreeSpace, hc]
  dsimp only
  rw [hn]
  cases b <;> rfl

/-- The start fails after the choice of a name, either because no name is chosen or
    because the log cannot be opened. -/
theorem failed_start_of_enters (hp : EntersStart env d p) :
    (∀ fuel d', d.startLog fuel env = some (false, d') → d'.counters = d.counters) ↔
      ∀ fuel b e, NextLog fuel env p b e → (b = false → e.counters = d.counters) ∧
        (b = true → env.opens = false → e.logNotOpened.counters = d.counters) := by
  constructor
  · intro h fuel b e hn
    obtain ⟨fuel, hs⟩ := exists_startLog hp hn
    refine ⟨?_, ?_⟩
    · rintro rfl
      exact h fuel e hs
    · rintro rfl ho
      refine h fuel e.logNotOpened (hs.trans ?_)
      rw [if_pos rfl, openLog_fails ho]
  · intro h fuel d' hs
    cases start_of_startLog hs with
    | noSpace hc => exact absurd (hp.unique hc).1 (by decide)
    | noName hc hn =>
      obtain rfl := (hp.unique hc).2
      exact (h _ _ _ hn).1 rfl
    | notOpened hc hn ho =>
      obtain rfl := (hp.unique hc).2
      exact (h _ _ _ hn).2 rfl ho

/-! ## The numbers that a choice writes -/

theorem u16_succ_ne (n : ℕ) : u16 (n + 1) ≠ n := by
  unfold u16
  omega

theorem u16_succ_wrap_ne (n : ℕ) : u16 ((if n > maxLogNumber then 1 else n) + 1) ≠ n := by
  split
  · next h =>
    have h : 999 < n := h
    have hu : u16 (1 + 1) = 2 := rfl
    rw [hu]
    omega
  · exact u16_succ_ne n

/-- What entering `set_next_log_filename` leaves alone. -/
theorem EntersStart.same (h : EntersStart env d p) :
    p.nextLogFileNumber = d.nextLogFileNumber ∧ p.overwritingOldFiles = d.overwritingOldFiles ∧
      p.config = d.config ∧ (d.config.overwriteLogs = false → p.counters = d.counters) := by
  obtain ⟨fuel, hc⟩ := h
  obtain ⟨_, _, _, _, rfl⟩ := checkSdFreeSpace_freed hc
  refine ⟨rfl, rfl, rfl, fun ho => ?_⟩
  rw [checkSdFreeSpace_of_not_overwriteLogs (d := { d with logEnabled := false }) ho hc]
  rfl

/-- Whichever way `set_next_log_filename` goes, it is the only one. -/
theorem NextLog.forall_iff {P : Bool → Device → Prop} (h : NextLog fuel env p b e) :
    (∀ fuel b e, NextLog fuel env p b e → P b e) ↔ P b e := by
  refine ⟨fun hP => hP fuel b e h, fun hP fuel' b' e' h' => ?_⟩
  obtain ⟨rfl, rfl⟩ := h.unique h'
  exact hP

/-- What a choice that reports success and writes the counters `c` leaves, if the log
    cannot be opened. -/
theorem chosen_iff {c : Counters} (hc : e.logNotOpened.counters = c) :
    ((true = false → e.counters = d.counters) ∧
      (true = true → env.opens = false → e.logNotOpened.counters = d.counters)) ↔
        env.opens = true ∨ d.counters = c := by
  subst hc
  cases env.opens with
  | true => simp
  | false => simp [eq_comm]

theorem chosen_iff_of_ne (hne : e.nextLogFileNumber ≠ d.nextLogFileNumber) :
    ((true = false → e.counters = d.counters) ∧
      (true = true → env.opens = false → e.logNotOpened.counters = d.counters)) ↔
        env.opens = true := by
  rw [chosen_iff rfl, or_iff_left]
  exact fun h => hne (congrArg Counters.nextLogFileNumber h).symm

theorem searched_counters_iff :
    (p.searched buf).counters = p.counters ↔ p.nextLogFileNumber ≤ maxLogNumber := by
  simp only [counters, searched_firstLogFileNumber, searched_nextLogFileNumber,
    searched_overwritingOldFiles, searched_eeprom, Counters.mk.injEq, true_and, and_true]
  split
  · next h =>
    have hlt : 999 < p.nextLogFileNumber := h
    refine iff_of_false (fun he => ?_) (Nat.not_le.2 h)
    omega
  · next h => exact iff_of_true rfl (Nat.not_lt.1 h)

/-- The case in which all logs tried exist. -/
theorem nextLog_none_iff (h : EntersStart env d p) (hs : ¬ p.Shortcut)
    (hf : p.nameFirst.logFile ∈ p.card) (hn : p.nameNext.logFile ∈ p.card)
    (hr : p.search fuel = some (none, buf)) :
    (∀ fuel b e, NextLog fuel env p b e → (b = false → e.counters = d.counters) ∧
      (b = true → env.opens = false → e.logNotOpened.counters = d.counters)) ↔
        (d.config.overwriteLogs = true → env.opens = true ∨ d.counters = p.recycledCounters) ∧
        (d.config.overwriteLogs = false → d.nextLogFileNumber ≤ maxLogNumber) := by
  obtain ⟨hnext, hover, hconfig, hsame⟩ := h.same
  cases ho : d.config.overwriteLogs with
  | true =>
    rw [(NextLog.overwrite hs hf hn hr (hconfig ▸ ho)).forall_iff, chosen_iff rfl]
    simp only [forall_const, reduceCtorEq, false_imp_iff, and_true]
    exact Iff.rfl
  | false =>
    rw [(NextLog.full hs hf hn hr (hconfig ▸ ho)).forall_iff]
    simp only [forall_const, reduceCtorEq, false_imp_iff, true_and, and_true]
    rw [← hsame ho, ← hnext]
    exact searched_counters_iff

/-- The choice of a name keeps the counters, whether it or the opening fails, if and only
    if the condition holds. -/
theorem nextLog_counters_iff (h : EntersStart env d p) :
    (∀ fuel b e, NextLog fuel env p b e → (b = false → e.counters = d.counters) ∧
      (b = true → env.opens = false → e.logNotOpened.counters = d.counters)) ↔
        KeepsCounters env d p := by
  have hnext : p.nextLogFileNumber = d.nextLogFileNumber := h.same.1
  rw [KeepsCounters]
  split
  · next hs =>
    have hne : (p.overwriteNext env).nextLogFileNumber ≠ d.nextLogFileNumber := by
      rw [← hnext]
      exact u16_succ_ne p.nextLogFileNumber
    rw [(NextLog.shortcut hs : NextLog 0 env p _ _).forall_iff]
    -- the numbers are advanced, so nothing may fail after the shortcut
    cases env.noValue with
    | true =>
      rw [chosen_iff_of_ne hne]
      simp
    | false =>
      refine iff_of_false (fun h => ?_) (by simp)
      exact hne (congrArg Counters.nextLogFileNumber (h.1 rfl))
  next hs =>
  split
  · next hf =>
    rw [(NextLog.reset hs hf : NextLog 0 env p _ _).forall_iff]
    exact chosen_iff rfl
  next hf =>
  rw [not_not] at hf
  split
  · next hn =>
    rw [(NextLog.next hs hf hn : NextLog 0 env p _ _).forall_iff]
    refine chosen_iff_of_ne ?_
    rw [← hnext]
    exact u16_succ_wrap_ne p.nextLogFileNumber
  next hn =>
  rw [not_not] at hn
  by_cases hends : ∃ fuel r, p.search fuel = some r
  · obtain ⟨fuel, ⟨r, buf⟩, hr⟩ := hends
    have hunique {fuel' : ℕ} {r' : Option ℕ × List Char} (hr' : p.search fuel' = some r') :
        r' = (r, buf) := (searchLoop_unique hr hr').symm
    cases r with
    | some n =>
      -- the condition is about the one result that the search can have
      have hc : ((p.searched buf).useNumber n).logNotOpened.counters = p.usedCounters n := rfl
      rw [(NextLog.found hs hf hn hr).forall_iff, chosen_iff hc]
      refine ⟨fun h => ⟨fun fuel m buf' hm => ?_, fun fuel buf' hm => ?_⟩,
        fun h => h.1 fuel n buf hr⟩
      · cases hunique hm
        exact h
      · cases hunique hm
    | none =>
      rw [nextLog_none_iff h hs hf hn hr]
      refine ⟨fun h => ⟨fun fuel m buf' hm => ?_, fun fuel buf' _ => h⟩, fun h => h.2 fuel buf hr⟩
      cases hunique hm
  · -- the search goes on for ever, and nothing fails
    have hnone (fuel : ℕ) (r : Option ℕ × List Char) : p.search fuel ≠ some r :=
      fun hr => hends ⟨fuel, r, hr⟩
    refine iff_of_true (fun fuel b e h => ?_) ?_
    · cases h with
      | shortcut hs' => exact absurd hs' hs
      | reset _ hf' => exact absurd hf hf'
      | next _ _ hn' => exact absurd hn hn'
      | found _ _ _ hm => exact absurd hm (hnone _ _)
      | overwrite _ _ _ hm => exact absurd hm (hnone _ _)
      | full _ _ _ hm => exact absurd hm (hnone _ _)
    · exact ⟨fun _ _ _ hm => absurd hm (hnone _ _), fun _ _ hm => absurd hm (hnone _ _)⟩

/-- A start that fails leaves the log numbers and the EEPROM as they were if and only if
    the condition holds in the state in which `set_next_log_filename` is entered, if it
    is. -/
theorem failed_start_iff (env : Env) (d : Device) :
    (∀ fuel d', d.startLog fuel env = some (false, d') → d'.counters = d.counters) ↔
      ∀ p, EntersStart env d p → KeepsCounters env d p := by
  constructor
  · intro h p hp
    exact (nextLog_counters_iff hp).1 ((failed_start_of_enters hp).1 h)
  · intro h fuel d' hs
    by_cases hp : ∃ p, EntersStart env d p
    · obtain ⟨p, hp⟩ := hp
      exact (failed_start_of_enters hp).2 ((nextLog_counters_iff hp).2 (h p hp)) fuel d' hs
    · -- the space is refused, so no log may be deleted
      cases start_of_startLog hs with
      | noSpace hc =>
        have ho : d.config.overwriteLogs = false := by
          rw [← Bool.not_eq_true]
          intro ho
          exact absurd (freeSpaceLoop_of_overwriteLogs (d := { d with logEnabled := false }) ho hc)
            (by decide)
        rw [checkSdFreeSpace_of_not_overwriteLogs (d := { d with logEnabled := false }) ho hc]
        rfl
      | noName hc => exact absurd ⟨_, _, hc⟩ hp
      | notOpened hc => exact absurd ⟨_, _, hc⟩ hp

/-- Log 1 is being written, and log 2 cannot be opened: its number is consumed, and the
    uploader is told of it. -/
theorem failed_start_consumes :
    ∃ d d', anyOrder.Run Machine.Free (initial ∅ ⟨1, 0, 1, 0⟩) [.boot {}, .startLog 1 .roomy] d ∧
      d.counters = ⟨1, 1, false, ⟨1, 1, 1, 0⟩⟩ ∧
      d.startLog 1 { Env.roomy with opens := false } = some (false, d') ∧
      d'.counters = ⟨1, 3, false, ⟨3, 1, 1, 2⟩⟩ := by
  obtain ⟨d, hrun, hd, hs⟩ : ∃ d, anyOrder.Run Machine.Free (initial ∅ ⟨1, 0, 1, 0⟩)
      [.boot {}, .startLog 1 .roomy] d ∧ d.counters = ⟨1, 1, false, ⟨1, 1, 1, 0⟩⟩ ∧
      (d.startLog 1 { Env.roomy with opens := false }).map (fun r => (r.1, r.2.counters)) =
        some (false, ⟨1, 3, false, ⟨3, 1, 1, 2⟩⟩) :=
    ⟨_, .cons trivial rfl (.cons trivial rfl (.nil _)), by decide, by decide +kernel⟩
  obtain ⟨⟨b, d'⟩, hd', he⟩ := Option.map_eq_some_iff.1 hs
  obtain ⟨rfl, he⟩ := Prod.mk.inj he
  exact ⟨d, d', hrun, hd, hd', he⟩

end Device

end CanInsight
