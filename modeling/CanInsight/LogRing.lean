import CanInsight.Search

/-!
# The ring of the logs

With `overwrite_logs` on, old logs make room for new ones in two ways:
`check_sd_free_space` deletes from the first log on until there is enough space,
and `set_next_log_filename` overwrites the first log once all numbers are used.
The logs on the card then have the numbers of an interval of the wheel of
numbers, from the first log number to that of the current log, in the order of
their creation, as long as no start leaves the ring (`LeavesRing`).

* `LogRing`: the logs on the card are such an interval;
* `OldestRemoved`: of the logs on the card, the oldest was removed each time;
* `RingOf`: the invariant; a start takes it through the deletions (`RingOf.freed`),
  the naming of the log (`Named`) and its opening (`Named.opened`);
* `ring_of_run`: in every run that does not leave the ring, the logs are a ring.
-/

namespace CanInsight

open CString

/-- The logs in the order of their creation: those started under a name that no file
    had, and not removed since. -/
def logsOf : List Event → List Name
  | [] => []
  | .session name none :: trace => logsOf trace ++ [name]
  | .removed name :: trace => (logsOf trace).erase name
  | _ :: trace => logsOf trace

/-- Every log that was removed was the oldest one then. -/
def OldestRemoved : List Event → Prop
  | [] => True
  | .removed name :: trace => (logsOf trace).head? = some name ∧ OldestRemoved trace
  | _ :: trace => OldestRemoved trace

theorem logs_append {es trace : List Event} (h : ∀ e ∈ es, ¬ e.IsSession ∧ ¬ e.IsRemoved) :
    logsOf (es ++ trace) = logsOf trace ∧ (OldestRemoved (es ++ trace) ↔ OldestRemoved trace) := by
  induction es with
  | nil => exact ⟨rfl, Iff.rfl⟩
  | cons e es ih =>
    obtain ⟨hs, hr⟩ := h e List.mem_cons_self
    have ih := ih fun e h' => h e (List.mem_cons_of_mem _ h')
    cases e <;> first | exact absurd trivial hs | exact absurd trivial hr | exact ih

namespace Device

variable {d d' e : Device} {fuel len n : ℕ} {env : Env} {b : Bool} {op : Op}

/-- The logs on the card have the numbers from the first log number to that of the
    current log, which follow each other around the wheel, in the order of their
    creation. -/
def LogRing (d : Device) : Prop :=
  1 ≤ d.firstLogFileNumber ∧ d.firstLogFileNumber ≤ maxLogNumber ∧ ∃ len ≤ maxLogNumber,
    logsOf d.trace = (Wheel.interval maxLogNumber d.firstLogFileNumber len).map logName ∧
      (logsOf d.trace).getLast? = some d.logFile ∧ ∀ name, name ∈ d.card ↔ name ∈ logsOf d.trace

/-- When `set_next_log_filename` leaves the ring: the next log number is the first one,
    and either all numbers are used and the first one is the last of the wheel, or
    not all are, and the remembered overwriting skips a number. -/
def LeavesRing (d : Device) : Prop :=
  d.nextLogFileNumber = d.firstLogFileNumber ∧
    (AllUsed d.card ∧ d.firstLogFileNumber = maxLogNumber ∨
      ¬ AllUsed d.card ∧ d.overwritingOldFiles = true)

/-- The log numbers, in memory and in the EEPROM, and the files of the card, while the
    logs are a ring of the length `len`. The next number comes after the last log,
    except that the first log of all leaves its own. -/
structure RingOf (len : ℕ) (d : Device) : Prop where
  canonical : Canonical d.logFileName
  firstCell : d.eeprom.loggerFirstLogNum = d.firstLogFileNumber
  nextCell : d.eeprom.loggerNextLogNum = d.nextLogFileNumber
  le : len ≤ maxLogNumber
  first_le : d.firstLogFileNumber ≤ maxLogNumber
  logs : logsOf d.trace = (Wheel.interval maxLogNumber d.firstLogFileNumber len).map logName
  card : ∀ name, name ∈ d.card ↔ name ∈ logsOf d.trace
  oldest : OldestRemoved d.trace
  pos : len ≠ 0 → 1 ≤ d.firstLogFileNumber
  next : len ≠ 0 →
    d.nextLogFileNumber = (Wheel.next maxLogNumber)^[len - 1] d.firstLogFileNumber + 1 ∨
      d.nextLogFileNumber = 1 ∧ d.firstLogFileNumber = 1 ∧ len = 1

theorem RingOf.mem_card (h : RingOf len d) (hn : n ≤ maxLogNumber) :
    logName n ∈ d.card ↔ len ≠ 0 ∧ n ∈ Wheel.interval maxLogNumber d.firstLogFileNumber len := by
  rw [h.card, h.logs, List.mem_map]
  constructor
  · rintro ⟨m, hm, he⟩
    have h₀ : len ≠ 0 := by
      rintro rfl
      exact absurd hm List.not_mem_nil
    have hle := (Wheel.bounds_of_mem_interval (h.pos h₀) h.first_le hm).2
    exact ⟨h₀, logName_inj hle hn he ▸ hm⟩
  · rintro ⟨-, hm⟩
    exact ⟨n, hm, rfl⟩

/-- The numbers are all used if and only if the ring is as long as the wheel. -/
theorem RingOf.allUsed_iff (h : RingOf len d) : AllUsed d.card ↔ len = maxLogNumber := by
  constructor
  · intro hu
    have h₀ : len ≠ 0 := ((h.mem_card (by decide)).1 (hu 1 le_rfl (by decide))).1
    have hle := Wheel.iterate_next_le (h.pos h₀) h.first_le len
    have hm := (h.mem_card hle).1 (hu _ (Wheel.one_le_iterate_next (h.pos h₀) len) hle)
    exact Wheel.eq_of_iterate_mem_interval (h.pos h₀) h.first_le h.le hm.2
  · rintro rfl n hn hn'
    have hpos := h.pos (by decide)
    exact (h.mem_card hn').2
      ⟨by decide, (Wheel.mem_interval_full hpos h.first_le).2 ⟨hn, hn'⟩⟩

/-! ## The deletions -/

/-- The oldest log is removed. -/
theorem RingOf.remove (h : RingOf (len + 1) d) :
    logName d.firstLogFileNumber ∈ d.card ∧
      logsOf (.removed (logName d.firstLogFileNumber) :: d.trace) =
        (Wheel.interval maxLogNumber
          (Wheel.next maxLogNumber d.firstLogFileNumber) len).map logName ∧
      OldestRemoved (.removed (logName d.firstLogFileNumber) :: d.trace) ∧
      ∀ name, name ∈ d.card.erase (logName d.firstLogFileNumber) ↔
        name ∈ logsOf (.removed (logName d.firstLogFileNumber) :: d.trace) := by
  have hl := h.logs
  rw [Wheel.interval_succ, List.map_cons] at hl
  have he : logsOf (.removed (logName d.firstLogFileNumber) :: d.trace) =
      (Wheel.interval maxLogNumber
        (Wheel.next maxLogNumber d.firstLogFileNumber) len).map logName := by
    rw [logsOf, hl, List.erase_cons_head]
  refine ⟨?_, he, ⟨by rw [hl]; rfl, h.oldest⟩, fun name => ?_⟩
  · rw [h.card, hl]
    exact List.mem_cons_self
  · rw [he, Finmap.mem_erase, h.card, hl, List.mem_cons]
    refine ⟨fun ⟨hne, hm⟩ => hm.resolve_left hne, fun hm => ⟨?_, .inr hm⟩⟩
    -- the removed number does not come again
    rintro rfl
    obtain ⟨m, hm, hm'⟩ := List.mem_map.1 hm
    have hle := (Wheel.bounds_of_mem_interval Wheel.one_le_next (Wheel.next_le (by decide)) hm).2
    cases logName_inj hle h.first_le hm'
    exact Wheel.not_mem_interval_next (h.pos (Nat.succ_ne_zero len)) h.first_le
      (Nat.lt_of_succ_le h.le) hm

/-- A deletion of `check_sd_free_space` takes the oldest log, if there is any. -/
theorem RingOf.delete (h : RingOf len d) :
    RingOf (len - 1) (d.sdRemove true (logName d.firstLogFileNumber)).advanceFirst := by
  have hnext : nextNumber d.firstLogFileNumber = Wheel.next maxLogNumber d.firstLogFileNumber :=
    nextNumber_of_le h.first_le
  cases len with
  | zero =>
    have hm : logName d.firstLogFileNumber ∉ d.card := by
      rw [h.mem_card h.first_le]
      exact fun h => h.1 rfl
    have hd : d.sdRemove true (logName d.firstLogFileNumber) = d := by simp [sdRemove, hm]
    rw [hd]
    refine ⟨h.canonical, rfl, h.nextCell, h.le, ?_, h.logs, h.card, h.oldest,
      fun h₀ => absurd rfl h₀, fun h₀ => absurd rfl h₀⟩
    rw [advanceFirst_firstLogFileNumber, hnext]
    exact Wheel.next_le (by decide)
  | succ len =>
    obtain ⟨hm, hlogs, hold, hcard⟩ := h.remove
    have hc : (d.sdRemove true (logName d.firstLogFileNumber)).card =
        d.card.erase (logName d.firstLogFileNumber) := by simp [hm]
    have ht : (d.sdRemove true (logName d.firstLogFileNumber)).trace =
        .removed (logName d.firstLogFileNumber) :: d.trace := by simp [hm]
    have hf : (d.sdRemove true (logName d.firstLogFileNumber)).advanceFirst.firstLogFileNumber =
        Wheel.next maxLogNumber d.firstLogFileNumber := hnext
    refine ⟨h.canonical, rfl, h.nextCell, (Nat.le_succ len).trans h.le, ?_, ?_, ?_, ?_, ?_, ?_⟩
    · rw [hf]
      exact Wheel.next_le (by decide)
    · rw [advanceFirst_trace, ht, hf]
      exact hlogs
    · rw [advanceFirst_card, advanceFirst_trace, hc, ht]
      exact hcard
    · rw [advanceFirst_trace, ht]
      exact hold
    · intro _
      rw [hf]
      exact Wheel.one_le_next
    · intro h₀
      obtain ⟨l, rfl⟩ := Nat.exists_eq_succ_of_ne_zero h₀
      rcases h.next (Nat.succ_ne_zero _) with hn | ⟨-, -, hl⟩
      · left
        rw [hf]
        exact hn
      · cases Nat.succ.inj hl

/-- The logs are a ring, and the array names the first one. -/
def Deleting (buf : List Char) (d : Device) : Prop :=
  (∃ len, RingOf len d) ∧ buf = sprintfNumToLogfileName d.firstLogFileNumber defaultLogFileName

/-- `check_sd_free_space` deletes the oldest logs. -/
theorem RingOf.freed (h : RingOf len d) (hr : ∀ name, env.removes name = true)
    (hc : d.checkSdFreeSpace fuel env = some (b, d')) : ∃ len', RingOf len' d' := by
  refine (freeSpaceLoop_induct (P := Deleting) ?_ ⟨⟨len, h⟩, rfl⟩ hc).elim fun _ h => h.1
  rintro buf e ⟨⟨len, he⟩, rfl⟩ - -
  have hdel := he.delete
  have hle : nextNumber e.firstLogFileNumber ≤ maxLogNumber := hdel.first_le
  rw [hr]
  exact ⟨⟨_, hdel⟩, (canonical_default.of_sprintf he.first_le).sprintf hle⟩

/-! ## The name of the next log -/

/-- The first log number once a log is opened. -/
def openedFirst (d : Device) : ℕ := if d.firstLogFileNumber = 0 then 1 else d.firstLogFileNumber

/-- A log has been named, with the number that comes after a ring of the length `len`. -/
structure Named (len : ℕ) (d : Device) : Prop where
  name : d.logFileName =
    sprintfNumToLogfileName ((Wheel.next maxLogNumber)^[len] d.openedFirst) defaultLogFileName
  lt : len < maxLogNumber
  pos : 1 ≤ d.openedFirst
  first_le : d.openedFirst ≤ maxLogNumber
  firstCell : d.eeprom.loggerFirstLogNum = d.firstLogFileNumber
  nextCell : d.eeprom.loggerNextLogNum = d.nextLogFileNumber
  logs : logsOf d.trace = (Wheel.interval maxLogNumber d.openedFirst len).map logName
  card : ∀ name, name ∈ d.card ↔ name ∈ logsOf d.trace
  oldest : OldestRemoved d.trace
  next : d.nextLogFileNumber = (Wheel.next maxLogNumber)^[len] d.openedFirst + 1 ∨
    d.nextLogFileNumber = 1 ∧ d.openedFirst = 1 ∧ len = 0

theorem openedFirst_of_pos (h : 1 ≤ d.firstLogFileNumber) :
    d.openedFirst = d.firstLogFileNumber := if_neg (Nat.ne_of_gt h)

/-- Without a first log on the card, there is no log. -/
theorem RingOf.reset (h : RingOf len d) (hm : d.nameFirst.logFile ∉ d.card) :
    Named 0 d.resetToOne := by
  have h₀ : len = 0 := by
    by_contra h₀
    refine hm ?_
    rw [logFile, nameFirst_logFileName_of h.canonical h.first_le]
    exact (h.mem_card h.first_le).2 ⟨h₀, Wheel.mem_interval.2 ⟨0, Nat.pos_of_ne_zero h₀, rfl⟩⟩
  subst h₀
  have hle : 1 ≤ maxLogNumber := by decide
  refine ⟨?_, by decide, le_rfl, hle, rfl, rfl, h.logs, h.card, h.oldest, .inr ⟨rfl, rfl, rfl⟩⟩
  exact (h.canonical.of_sprintf h.first_le).sprintf (by decide)

/-- The number tried next is the one after the last log, or log 1 is the only log. -/
theorem RingOf.wrapped (h : RingOf len d) (h₀ : len ≠ 0) :
    d.wrapped.nextLogFileNumber = (Wheel.next maxLogNumber)^[len] d.firstLogFileNumber ∨
      d.wrapped.nextLogFileNumber = 1 ∧ d.firstLogFileNumber = 1 ∧ len = 1 := by
  rw [Device.wrapped, wrapNext_nextLogFileNumber, nameFirst_nextLogFileNumber]
  rcases h.next h₀ with hn | ⟨hn, hf, hl⟩
  · left
    obtain ⟨l, rfl⟩ := Nat.exists_eq_succ_of_ne_zero h₀
    rw [hn, Nat.succ_sub_one, Function.iterate_succ_apply', Wheel.next]
    by_cases hlt : (Wheel.next maxLogNumber)^[l] d.firstLogFileNumber < maxLogNumber
    · rw [if_pos hlt, if_neg (Nat.not_lt.2 hlt)]
    · rw [if_neg hlt, if_pos (Nat.lt_succ_of_le (Nat.not_lt.1 hlt))]
  · exact .inr ⟨by rw [hn]; rfl, hf, hl⟩

theorem RingOf.first_mem (h : RingOf len d) (h₀ : len ≠ 0) :
    logName d.firstLogFileNumber ∈ d.card :=
  (h.mem_card h.first_le).2 ⟨h₀, Wheel.mem_interval.2 ⟨0, Nat.pos_of_ne_zero h₀, rfl⟩⟩

/-- If the number tried next is used, then log 1 is the only log, or all numbers are
    used and the first log is next. -/
theorem RingOf.used (h : RingOf len d) (h₀ : len ≠ 0) (hx : ¬ d.LeavesRing)
    (hm : logName d.wrapped.nextLogFileNumber ∈ d.card) :
    d.wrapped.nextLogFileNumber = 1 ∧ d.firstLogFileNumber = 1 ∧ len = 1 ∨
      len = maxLogNumber ∧ d.wrapped.nextLogFileNumber = d.firstLogFileNumber ∧
        d.firstLogFileNumber < maxLogNumber := by
  rcases h.wrapped h₀ with hw | hw
  · right
    have hpos := h.pos h₀
    rw [h.mem_card d.wrapped_next_le, hw] at hm
    have hlen := Wheel.eq_of_iterate_mem_interval hpos h.first_le h.le hm.2
    have hfirst : d.wrapped.nextLogFileNumber = d.firstLogFileNumber := by
      rw [hw, hlen, Wheel.iterate_next_self hpos h.first_le]
    refine ⟨hlen, hfirst, lt_of_le_of_ne h.first_le fun hf => hx ⟨?_, ?_⟩⟩
    · rw [Device.wrapped, wrapNext_nextLogFileNumber, nameFirst_nextLogFileNumber] at hfirst
      split at hfirst
      · rw [hf] at hfirst
        exact absurd hfirst (by decide)
      · exact hfirst
    · exact .inl ⟨h.allUsed_iff.2 hlen, hf⟩
  · exact .inl hw

/-- The next number is free. -/
theorem RingOf.use (h : RingOf len d) (h₀ : len ≠ 0) (hm : d.nameNext.logFile ∉ d.card) :
    Named len (d.nameNext.useNumber d.nameNext.nextLogFileNumber) := by
  rw [logFile, nameNext_logFileName_of h.canonical h.first_le] at hm
  have hpos := h.pos h₀
  have hw : d.wrapped.nextLogFileNumber =
      (Wheel.next maxLogNumber)^[len] d.firstLogFileNumber := by
    refine (h.wrapped h₀).resolve_right ?_
    rintro ⟨hw, hf, -⟩
    refine hm ?_
    have hmem := h.first_mem h₀
    rw [hf] at hmem
    rw [hw]
    exact hmem
  have hfirst : (d.nameNext.useNumber d.nameNext.nextLogFileNumber).openedFirst =
      d.firstLogFileNumber := openedFirst_of_pos hpos
  have hu : u16 (d.wrapped.nextLogFileNumber + 1) = d.wrapped.nextLogFileNumber + 1 :=
    u16_of_lt (Nat.lt_of_le_of_lt (Nat.succ_le_succ d.wrapped_next_le) (by decide))
  refine ⟨?_, lt_of_le_of_ne h.le fun hl => hm ?_, ?_, ?_, h.firstCell, rfl, ?_, h.card, h.oldest,
    .inl ?_⟩
  · rw [hfirst, ← hw]
    exact nameNext_logFileName_of h.canonical h.first_le
  · rw [hw, hl, Wheel.iterate_next_self hpos h.first_le]
    exact h.first_mem h₀
  · exact hfirst.ge.trans' hpos
  · exact hfirst.trans_le h.first_le
  · rw [hfirst]
    exact h.logs
  · rw [hfirst, ← hw]
    exact hu

/-- While log 1 is the only log, the search after it ends at log 2. -/
theorem RingOf.search_two (h : RingOf 1 d) (hf : d.firstLogFileNumber = 1) {first : ℕ}
    {r : Option ℕ} {buf : List Char}
    (hs : searchLoop d.card first fuel 2 (sprintfNumToLogfileName 1 defaultLogFileName) =
      some (r, buf)) : r = some 2 ∧ buf = sprintfNumToLogfileName 2 defaultLogFileName := by
  have hb : sprintfNumToLogfileName 2 (sprintfNumToLogfileName 1 defaultLogFileName) =
      sprintfNumToLogfileName 2 defaultLogFileName := sprintf_succ (by decide)
  have hm : logName 2 ∉ d.card := by
    rw [h.mem_card (by decide), hf]
    decide
  cases fuel with
  | zero => cases hs
  | succ fuel =>
    rw [searchLoop, hb] at hs
    cases (if_pos hm).symm.trans hs
    exact ⟨rfl, rfl⟩

/-- After log 1, the search finds log 2. -/
theorem RingOf.find (h : RingOf 1 d) (hf : d.firstLogFileNumber = 1) {buf : List Char}
    (hb : buf = sprintfNumToLogfileName 2 defaultLogFileName) :
    Named 1 ((d.searched buf).useNumber 2) := by
  have hfirst : ((d.searched buf).useNumber 2).openedFirst = 1 := by
    rw [openedFirst_of_pos]
    · exact hf
    · exact hf.ge
  refine ⟨?_, by decide, hfirst.ge, hfirst.trans_le (by decide), h.firstCell, rfl, ?_, h.card,
    h.oldest, .inl ?_⟩
  · rw [hfirst]
    exact hb
  · have hl := h.logs
    rw [hf] at hl
    rw [hfirst]
    exact hl
  · rw [hfirst]
    rfl

/-- The first of all logs is overwritten. -/
theorem RingOf.recycled (h : RingOf maxLogNumber d) (overwriting : Bool)
    (hlt : d.firstLogFileNumber < maxLogNumber) (hr : ∀ name, env.removes name = true)
    (hcard : e.card = d.card) (htrace : e.trace = d.trace)
    (hfirst : e.firstLogFileNumber = d.firstLogFileNumber) (hcan : Canonical e.logFileName) :
    Named (maxLogNumber - 1)
      { (e.setLogFileName e.firstLogFileNumber).recycle env with
        overwritingOldFiles := overwriting } := by
  have hpos := h.pos (by decide)
  have h' : RingOf (maxLogNumber - 1 + 1) d := h
  obtain ⟨hm, hlogs, hold, hmem⟩ := h'.remove
  have hname : (e.setLogFileName e.firstLogFileNumber).logFile = logName d.firstLogFileNumber := by
    rw [hfirst]
    exact hcan.toText_sprintf hlt.le
  have hc : ((e.setLogFileName e.firstLogFileNumber).recycle env).card =
      d.card.erase (logName d.firstLogFileNumber) := by
    simp [recycle, hname, hr, hcard, hm]
  have ht : ((e.setLogFileName e.firstLogFileNumber).recycle env).trace =
      .removed (logName d.firstLogFileNumber) :: d.trace := by
    simp [recycle, hname, hr, hcard, htrace, hm]
  have hu : u16 (e.firstLogFileNumber + 1) = d.firstLogFileNumber + 1 := by
    rw [hfirst]
    exact u16_of_lt (Nat.lt_of_le_of_lt hlt (by decide))
  have hnext : Wheel.next maxLogNumber d.firstLogFileNumber = d.firstLogFileNumber + 1 := if_pos hlt
  -- once around the wheel, from the number after it
  have hback : (Wheel.next maxLogNumber)^[maxLogNumber - 1] (d.firstLogFileNumber + 1) =
      d.firstLogFileNumber := by
    have hself : (Wheel.next maxLogNumber)^[maxLogNumber - 1 + 1] d.firstLogFileNumber =
        d.firstLogFileNumber := Wheel.iterate_next_self hpos h.first_le
    rwa [Function.iterate_succ_apply, hnext] at hself
  have hopened : openedFirst { (e.setLogFileName e.firstLogFileNumber).recycle env with
      overwritingOldFiles := overwriting } = d.firstLogFileNumber + 1 := by
    have hf : ((e.setLogFileName e.firstLogFileNumber).recycle env).firstLogFileNumber =
        d.firstLogFileNumber + 1 := hu
    unfold openedFirst
    dsimp only
    rw [hf, if_neg (Nat.succ_ne_zero _)]
  refine ⟨?_, by decide, ?_, ?_, rfl, rfl, ?_, ?_, ?_, .inl ?_⟩
  · rw [hopened, hback, ← hfirst]
    exact hcan.sprintf (hfirst.trans_le hlt.le)
  · rw [hopened]
    exact Nat.succ_pos _
  · rw [hopened]
    exact hlt
  · rw [hopened, ← hnext]
    exact (congrArg logsOf ht).trans hlogs
  · dsimp only
    rw [hc, ht]
    exact hmem
  · dsimp only
    rw [ht]
    exact hold
  · rw [hopened, hback]
    exact hu

/-- `set_next_log_filename` names the log that comes next in the ring. -/
theorem RingOf.nextLog (h : RingOf len d) (hc : d.config.overwriteLogs = true)
    (hv : d.Shortcut → env.noValue = true) (hr : ∀ name, env.removes name = true)
    (hx : ¬ d.LeavesRing) (hn : NextLog fuel env d b d') : b = true ∧ ∃ len', Named len' d' := by
  have hcan : Canonical (sprintfNumToLogfileName d.wrapped.nextLogFileNumber defaultLogFileName) :=
    canonical_default.of_sprintf d.wrapped_next_le
  have hnonempty (hf : d.nameFirst.logFile ∈ d.card) : len ≠ 0 := by
    rw [logFile, nameFirst_logFileName_of h.canonical h.first_le] at hf
    exact ((h.mem_card h.first_le).1 hf).1
  -- the next log exists in two cases: log 1 was the only one, or the ring is full
  have hused (hf : d.nameFirst.logFile ∈ d.card) (hn : d.nameNext.logFile ∈ d.card) :
      d.wrapped.nextLogFileNumber = 1 ∧ d.firstLogFileNumber = 1 ∧ len = 1 ∨
        len = maxLogNumber ∧ d.wrapped.nextLogFileNumber = d.firstLogFileNumber ∧
          d.firstLogFileNumber < maxLogNumber := by
    rw [logFile, nameNext_logFileName_of h.canonical h.first_le] at hn
    exact h.used (hnonempty hf) hx hn
  cases hn with
  | shortcut hs =>
    refine ⟨hv hs, maxLogNumber - 1, ?_⟩
    have hu : AllUsed d.card := by
      by_contra hu
      exact hx ⟨hs.2, .inr ⟨hu, hs.1⟩⟩
    have hlt : d.firstLogFileNumber < maxLogNumber :=
      lt_of_le_of_ne h.first_le fun hf => hx ⟨hs.2, .inl ⟨hu, hf⟩⟩
    rw [overwriteNext_eq env hs.2]
    cases h.allUsed_iff.1 hu
    exact h.recycled d.overwritingOldFiles hlt hr rfl rfl rfl h.canonical
  | reset _ hf => exact ⟨rfl, 0, h.reset hf⟩
  | next _ hf hm => exact ⟨rfl, len, h.use (hnonempty hf) hm⟩
  | @found n buf _ hf hm hs =>
    rw [search_of h.canonical h.first_le] at hs
    rcases hused hf hm with ⟨hw, hfirst, rfl⟩ | ⟨rfl, hw, hlt⟩
    · rw [hw] at hs
      obtain ⟨he, hbuf⟩ := h.search_two hfirst hs
      cases he
      exact ⟨rfl, 1, h.find hfirst hbuf⟩
    · rw [hw] at hs hcan
      have hnone := searchLoop_allUsed (h.allUsed_iff.2 rfl) hcan (Nat.succ_pos _) hlt hs
      cases hnone.1
  | @overwrite buf _ hf hm hs =>
    refine ⟨rfl, maxLogNumber - 1, ?_⟩
    rw [search_of h.canonical h.first_le] at hs
    rcases hused hf hm with ⟨hw, hfirst, rfl⟩ | ⟨rfl, hw, hlt⟩
    · rw [hw] at hs
      cases (h.search_two hfirst hs).1
    · rw [hw] at hs hcan
      have hnone := searchLoop_allUsed (h.allUsed_iff.2 rfl) hcan (Nat.succ_pos _) hlt hs
      have hrec := h.recycled (e := d.searched buf) true hlt hr rfl rfl rfl hnone.2
      exact hrec
  | full _ _ _ _ ho => exact absurd (hc.symm.trans ho) (by decide)

/-! ## The start of a log -/

/-- The log that is opened comes last in the ring. -/
theorem Named.opened (h : Named len d) (clock : Clock) :
    RingOf (len + 1) (d.logOpened clock) ∧ LogRing (d.logOpened clock) := by
  have hnumber := Wheel.iterate_next_le h.pos h.first_le len
  have hname : d.logFile = logName ((Wheel.next maxLogNumber)^[len] d.openedFirst) := by
    rw [logFile, h.name]
    rfl
  have hfree : d.logFile ∉ d.card := by
    rw [h.card, h.logs, hname, List.mem_map]
    rintro ⟨m, hm, he⟩
    cases logName_inj (Wheel.bounds_of_mem_interval h.pos h.first_le hm).2 hnumber he
    exact absurd (Wheel.eq_of_iterate_mem_interval h.pos h.first_le h.lt.le hm) h.lt.ne
  have htrace : (d.logOpened clock).trace =
      [.created d.logFile] ++ .session d.logFile none :: d.trace := by
    rw [logOpened_trace, if_neg hfree, Finmap.lookup_eq_none.2 hfree]
  have hlogs : logsOf (d.logOpened clock).trace = logsOf d.trace ++ [d.logFile] := by
    rw [htrace]
    rfl
  have hcard (name : Name) :
      name ∈ (d.logOpened clock).card ↔ name ∈ logsOf (d.logOpened clock).trace := by
    rw [mem_logOpened, hlogs, List.mem_append, List.mem_singleton, h.card, or_comm]
  have hmap : logsOf (d.logOpened clock).trace =
      (Wheel.interval maxLogNumber d.openedFirst (len + 1)).map logName := by
    rw [hlogs, Wheel.interval_succ', List.map_append, h.logs, hname]
    rfl
  refine ⟨⟨⟨_, hnumber, h.name⟩, ?_, h.nextCell, h.lt, h.first_le, hmap, hcard, ?_,
    fun _ => h.pos, fun _ => ?_⟩, h.pos, h.first_le, len + 1, h.lt, hmap, ?_, hcard⟩
  · rw [logOpened_eeprom_loggerFirstLogNum, h.firstCell]
    rfl
  · rw [htrace]
    exact h.oldest
  · rcases h.next with hn | ⟨hn, hf, hl⟩
    · exact .inl hn
    · exact .inr ⟨hn, hf, by rw [hl]⟩
  · rw [hlogs, List.getLast?_concat]
    rfl

/-- The conditions under which a start stays in the ring: the card operations succeed,
    the shortcut reports success, and `set_next_log_filename` does not leave the
    ring. -/
structure StaysInRing (env : Env) (d : Device) : Prop where
  opens : env.opens = true
  removes : ∀ name, env.removes name = true
  value : d.Shortcut → env.noValue = true
  stays : ¬ d.LeavesRing

theorem RingOf.disabled (h : RingOf len d) : RingOf len { d with logEnabled := false } :=
  ⟨h.canonical, h.firstCell, h.nextCell, h.le, h.first_le, h.logs, h.card, h.oldest, h.pos, h.next⟩

/-- A start of a log from a ring leads to a ring. -/
theorem RingOf.startLog (h : RingOf len d) (hc : d.config.overwriteLogs = true)
    (hk : ∀ p, EntersStart env d p → StaysInRing env p)
    (hs : d.startLog fuel env = some (b, d')) : (∃ len', RingOf len' d') ∧ LogRing d' := by
  have hnext {d₁ d₂ : Device} {b : Bool}
      (h₁ : checkSdFreeSpace fuel env { d with logEnabled := false } = some (true, d₁))
      (h₂ : NextLog fuel env d₁ b d₂) : env.opens = true ∧ b = true ∧ ∃ len', Named len' d₂ := by
    obtain ⟨hopens, hr, hv, hx⟩ := hk d₁ ⟨fuel, h₁⟩
    obtain ⟨len₁, hring⟩ := h.disabled.freed hr h₁
    have hc₁ : d₁.config.overwriteLogs = true := by
      obtain ⟨_, _, _, _, rfl⟩ := checkSdFreeSpace_freed h₁
      exact hc
    exact ⟨hopens, hring.nextLog hc₁ hv hr hx h₂⟩
  cases start_of_startLog hs with
  | noSpace h₁ =>
    cases freeSpaceLoop_of_overwriteLogs (d := { d with logEnabled := false }) hc h₁
  | noName h₁ h₂ => cases (hnext h₁ h₂).2.1
  | notOpened h₁ h₂ ho => exact absurd ((hnext h₁ h₂).1.symm.trans ho) (by decide)
  | opened h₁ h₂ =>
    obtain ⟨-, -, len', hnamed⟩ := hnext h₁ h₂
    obtain ⟨hring, hlogs⟩ := hnamed.opened env.clock
    exact ⟨⟨_, hring⟩, hlogs⟩

/-! ## The other operations -/

theorem Quiet.logs_eq (h : Quiet d d') : logsOf d'.trace = logsOf d.trace ∧
    (OldestRemoved d'.trace ↔ OldestRemoved d.trace) := by
  obtain ⟨es, ht, hes⟩ := h.events
  rw [ht]
  exact logs_append hes

theorem Quiet.mem_card (h : Quiet d d') (hm : d.logFile ∈ d.card) (name : Name) :
    name ∈ d'.card ↔ name ∈ d.card := by
  refine ⟨fun hn => ?_, h.kept name⟩
  rcases h.added name hn with hn | rfl
  · exact hn
  · exact hm

theorem RingOf.quiet (h : RingOf len d) (hq : Quiet d d') (hm : d.logFile ∈ d.card) :
    RingOf len d' := by
  obtain ⟨hlogs, hold⟩ := hq.logs_eq
  refine ⟨?_, ?_, ?_, h.le, ?_, ?_, fun name => ?_, hold.2 h.oldest, ?_, ?_⟩
  · rw [hq.name]
    exact h.canonical
  · rw [hq.firstCell, hq.first, h.firstCell]
  · rw [hq.nextCell, hq.next, h.nextCell]
  · rw [hq.first]
    exact h.first_le
  · rw [hlogs, hq.first]
    exact h.logs
  · rw [hq.mem_card hm, hlogs]
    exact h.card name
  · rw [hq.first]
    exact h.pos
  · rw [hq.first, hq.next]
    exact h.next

theorem LogRing.mem_card (h : LogRing d) : d.logFile ∈ d.card := by
  obtain ⟨-, -, len, -, -, hlast, hcard⟩ := h
  exact (hcard _).2 (List.mem_of_getLast? hlast)

theorem LogRing.quiet (h : LogRing d) (hq : Quiet d d') : LogRing d' := by
  have hm := h.mem_card
  have hl : d'.logFile = d.logFile := congrArg toText hq.name
  obtain ⟨hpos, hle, len, hlen, hlogs, hlast, hcard⟩ := h
  rw [LogRing, hq.first, hq.logs_eq.1, hl]
  exact ⟨hpos, hle, len, hlen, hlogs, hlast, fun name => (hq.mem_card hm name).trans (hcard name)⟩

/-- A reboot finds the numbers of the ring in the EEPROM, unless the constructor goes
    back to log 1. -/
theorem RingOf.boot (h : RingOf len d) (hc : d.eeprom.loggerNextLogNum ≤ maxLogNumber)
    (config : ConfigManager) : RingOf len (d.boot config) := by
  have hfirst : d.eeprom.loggerFirstLogNum ≤ maxLogNumber := h.firstCell.trans_le h.first_le
  rw [boot_eq, if_neg (not_or.2 ⟨Nat.not_lt.2 hc, Nat.not_lt.2 hfirst⟩)]
  have hf : (d.restored config).firstLogFileNumber = d.firstLogFileNumber := h.firstCell
  have hn : (d.restored config).nextLogFileNumber = d.nextLogFileNumber := h.nextCell
  refine ⟨canonical_default, rfl, rfl, h.le, hfirst, ?_, h.card, h.oldest, ?_, ?_⟩
  · rw [hf]
    exact h.logs
  · rw [hf]
    exact h.pos
  · rw [hf, hn]
    exact h.next

/-- Old logs are overwritten, and uploaded ones are kept. -/
def Overwriting (config : ConfigManager) : Prop :=
  config.overwriteLogs = true ∧ config.deleteUploadedLogs = false

/-- A device that writes to the last log of a ring. -/
structure Ringed (d : Device) : Prop where
  config : Overwriting d.config
  ring : ∃ len, RingOf len d
  logs : LogRing d

theorem Ringed.quiet (h : Ringed d) (hq : Quiet d d') : Ringed d' := by
  obtain ⟨len, hr⟩ := h.ring
  exact ⟨hq.config ▸ h.config, ⟨len, hr.quiet hq h.logs.mem_card⟩, h.logs.quiet hq⟩

theorem ringed_of_startLog (h : RingOf len d) (hc : Overwriting d.config)
    (hk : ∀ p, EntersStart env d p → StaysInRing env p)
    (hs : d.startLog fuel env = some (b, d')) : Ringed d' := by
  obtain ⟨hr, hl⟩ := h.startLog hc.1 hk hs
  exact ⟨startLog_config hs ▸ hc, hr, hl⟩

theorem Ringed.exec (h : Ringed d) (hop : ∀ config, op ≠ .boot config)
    (hk : ∀ env p, Enters d op env p → StaysInRing env p) (he : d.exec op = some d') :
    Ringed d' := by
  refine exec_rule (fun hd hq => hd.quiet hq) (fun x name e hd => ?_)
    (fun {config} hb _ => absurd hb (hop config)) (fun {_ env _ e _} hd hent hs => ?_) h he
  · have ha : e.acceptUpload x name = e := by
      rw [acceptUpload, hd.config.2]
      rfl
    rw [ha]
    exact hd
  · obtain ⟨len, hr⟩ := hd.ring
    exact ringed_of_startLog hr hd.config (fun p hp => hk env p (hent p hp)) hs

end Device

/-! ## Runs -/

/-- The devices are configured to overwrite old logs and to keep uploaded ones. -/
def Overwrites : Op → Prop
  | .boot config => Device.Overwriting config
  | _ => True

/-- An operation that stays in the ring: a boot finds the next log number of the EEPROM
    within `MAX_LOG_NUMBER`, and so do all starts of a log. -/
def RingKept (s : System) (op : Op) : Prop :=
  (∀ config, op = .boot config → s.device.eeprom.loggerNextLogNum ≤ maxLogNumber) ∧
    ∀ env p, Device.Enters s.device op env p → Device.StaysInRing env p

/-- The ring over a run: before the first start, it is there, but not written to. -/
structure InRing (s : System) : Prop where
  ring : ∃ len, Device.RingOf len s.device
  config : s.phase ≠ .off → Device.Overwriting s.device.config
  ringed : s.phase = .started ∨ s.phase = .looping → s.device.Ringed

theorem Device.Ringed.inRing {d : Device} (h : d.Ringed) (p : Phase) : InRing ⟨p, d⟩ :=
  ⟨h.ring, fun _ => h.config, fun _ => h⟩

/-- After a boot, the program starts a log, and then does other operations. -/
theorem Phase.next_cases {p q : Phase} {op : Op} (h : p.next op = some q) :
    (∃ config, op = .boot config) ∨ (p = .booted ∧ ∃ fuel env, op = .startLog fuel env) ∨
      (p = .started ∨ p = .looping) ∧ ∀ config, op ≠ .boot config := by
  cases op with
  | boot config => exact .inl ⟨config, rfl⟩
  | startLog fuel env =>
    cases p <;> cases h
    exact .inr (.inl ⟨rfl, fuel, env, rfl⟩)
  | restartLogging | writeSdLine | flushSdFile | wifi =>
    refine .inr (.inr ⟨?_, fun _ h => by cases h⟩)
    cases p <;> first | exact .inl rfl | exact .inr rfl | cases h
  | reopenFile | setNoWriteFile => cases p <;> cases h

theorem InRing.step {s t : System} {op : Op} (h : InRing s) (ho : Overwrites op)
    (hk : RingKept s op) (hs : program.step s op = some t) : InRing t := by
  obtain ⟨p, d⟩ := s
  obtain ⟨q, hq, hs⟩ := Option.bind_eq_some_iff.1 hs
  obtain ⟨e, he, rfl⟩ := Option.map_eq_some_iff.1 hs
  obtain ⟨len, hr⟩ := h.ring
  rcases Phase.next_cases hq with ⟨config, rfl⟩ | ⟨rfl, fuel, env, rfl⟩ | ⟨hp, hop⟩
  · cases he
    cases hq
    have hc : (d.boot config).config = config := by
      rw [Device.boot_eq]
      split <;> rfl
    exact ⟨⟨len, hr.boot (hk.1 config rfl) config⟩, fun _ => hc.symm ▸ ho,
      fun h => by rcases h with h | h <;> cases h⟩
  · obtain ⟨⟨b, f⟩, hf, rfl⟩ := Option.map_eq_some_iff.1 he
    have hw : f.Ringed := Device.ringed_of_startLog hr (h.config fun h => by cases h)
      (fun p hp => hk.2 env p (.startLog hp)) hf
    exact (hw.quiet (Device.flags_quiet true f.noWriteFile f)).inRing q
  · exact ((h.ringed hp).exec hop hk.2 he).inRing q

/-- In every run of the program from an empty card and reset log numbers, with old logs
    overwritten and uploaded ones kept, that stays in the ring: whenever a log has been
    started, the logs on the card are the numbers from the first log number to that of
    the current log, in the order of their creation; and every log that was removed was
    the oldest one then. -/
theorem ring_of_run {ops : List Op} {s : System}
    (h : program.Run (fun s op => Overwrites op ∧ RingKept s op) (.initial ∅ ⟨1, 0, 1, 0⟩) ops s) :
    (s.phase = .started ∨ s.phase = .looping → s.device.LogRing) ∧
      OldestRemoved s.device.trace := by
  have h₀ : InRing (.initial ∅ ⟨1, 0, 1, 0⟩) := by
    refine ⟨⟨0, canonical_default, rfl, rfl, Nat.zero_le _, Nat.zero_le _, rfl, fun name => ?_,
      trivial, fun h => absurd rfl h, fun h => absurd rfl h⟩, fun h => absurd rfl h,
      fun h => by rcases h with h | h <;> cases h⟩
    exact iff_of_false Finmap.notMem_empty List.not_mem_nil
  have hs := h.invariant (P := InRing) (fun hs hg he => hs.step hg.1 hg.2 he) h₀
  obtain ⟨len, hr⟩ := hs.ring
  exact ⟨fun hp => (hs.ringed hp).logs, hr.oldest⟩

/-- A start stays in the ring if it does so with the space that it makes. -/
theorem ringKept_of_freed {s : System} {fuel f : ℕ} {env : Env} {op : Op} {p : Device}
    (hop : op = .startLog fuel env ∨ op = .restartLogging fuel env)
    (hc : Device.checkSdFreeSpace f env { s.device with logEnabled := false } = some (true, p))
    (hp : Device.StaysInRing env p) : RingKept s op := by
  refine ⟨fun config hb => ?_, fun env' p' he => ?_⟩
  · rcases hop with h | h <;> cases h.symm.trans hb
  have hp' : env' = env ∧ Device.EntersStart env s.device p' := by
    rcases hop with rfl | rfl
    · cases he with
      | startLog hp => exact ⟨rfl, hp⟩
    · cases he with
      | restartLogging hp => exact ⟨rfl, hp⟩
  obtain ⟨rfl, hp'⟩ := hp'
  obtain ⟨-, rfl⟩ := hp'.unique hc
  exact hp

/-- With enough space and card operations that succeed, a start whose first log number
    is not the last one stays in the ring while no overwriting is remembered. -/
theorem ringKept_of_roomy {s : System} {fuel : ℕ} {op : Op}
    (hop : op = .startLog fuel .roomy ∨ op = .restartLogging fuel .roomy)
    (hs : Device.minFreeSpace s.device.config ≤ Device.freeKB .roomy s.device.card)
    (hf : s.device.firstLogFileNumber ≠ maxLogNumber)
    (ho : s.device.overwritingOldFiles = false) : RingKept s op := by
  refine ringKept_of_freed hop (Device.checkSdFreeSpace_of_le
    (d := { s.device with logEnabled := false }) one_ne_zero hs)
    ⟨rfl, fun _ => rfl, fun _ => rfl, ?_⟩
  rintro ⟨-, ⟨-, hx⟩ | ⟨-, hx⟩⟩
  · exact hf hx
  · exact absurd (ho.symm.trans hx) (by decide)

/-- Two logs, and a third one for which the first has to go. -/
def threeStarts : List Op :=
  [.boot { overwriteLogs := true }, .startLog 1 .roomy, .restartLogging 1 .roomy,
    .restartLogging 2 .tight]

/-- The first log is removed, and the ring goes from the second one to the third. -/
theorem ring_of_run_threeStarts :
    ∃ s, program.Run (fun s op => Overwrites op ∧ RingKept s op) (.initial ∅ ⟨1, 0, 1, 0⟩)
        threeStarts s ∧
      logsOf s.device.trace = [logName 2, logName 3] ∧
      .removed (logName 1) ∈ s.device.trace ∧
      (s.phase = .started ∨ s.phase = .looping → s.device.LogRing) ∧
      OldestRemoved s.device.trace :=
  have hb : RingKept (.initial ∅ ⟨1, 0, 1, 0⟩) (.boot { overwriteLogs := true }) :=
    ⟨fun _ _ => by decide, fun _ _ he => by cases he⟩
  have h := .cons ⟨⟨rfl, rfl⟩, hb⟩ rfl
    (.cons ⟨trivial, ringKept_of_roomy (.inl rfl) (by decide) (by decide) rfl⟩ rfl
    (.cons ⟨trivial, ringKept_of_roomy (.inr rfl) (by decide) (by decide) rfl⟩ rfl
    (.cons ⟨trivial, ringKept_of_freed (f := 2) (.inr rfl) rfl
      ⟨rfl, fun _ => rfl, fun _ => rfl, fun hx => absurd hx.1 (by decide)⟩⟩ rfl (.nil _))))
  ⟨_, h, by decide +kernel, by decide +kernel, ring_of_run h⟩

/-- A ring from log 1 to log 1 has no log 2. -/
theorem Device.LogRing.not_mem_two {d : Device} (h : d.LogRing) (hf : d.firstLogFileNumber = 1)
    (hl : d.logFile = logName 1) : logName 2 ∉ d.card := by
  obtain ⟨-, -, len, hlen, hlogs, hlast, hcard⟩ := h
  rw [hf] at hlogs
  rw [hlogs, hl] at hlast
  rw [hcard, hlogs]
  cases len with
  | zero => exact List.not_mem_nil
  | succ l =>
    -- the last number is 1, so that there is no other
    have hle := Wheel.iterate_next_le (p := maxLogNumber) (le_refl 1) (by decide) l
    rw [Wheel.interval_succ', List.map_append, List.map_singleton, List.getLast?_concat,
      Option.some_inj] at hlast
    have hone : (Wheel.next maxLogNumber)^[l] 1 = (Wheel.next maxLogNumber)^[0] 1 :=
      logName_inj hle (by decide) hlast
    have hmod := Wheel.modEq_of_iterate_next (le_refl 1) (by decide) hone
    cases Nat.eq_zero_of_dvd_of_lt (Nat.modEq_zero_iff_dvd.1 hmod) hlen
    rw [Wheel.interval_succ, Wheel.interval_zero, List.map_singleton, List.mem_singleton]
    exact fun h => absurd (logName_inj (by decide) (by decide) h) (by decide)

/-- After the last number was used, a boot goes back to log 1 although it exists: the
    ring then is said to be log 1 alone, and all other logs are on the card. -/
theorem ring_left_by_reboot :
    ∃ s, program.Run Machine.Free (.initial ∅ ⟨1, 0, 1, 0⟩)
        (([.boot { overwriteLogs := true }, .startLog 1 .roomy] ++
          List.replicate 998 (.restartLogging 1 .roomy)) ++
            [.boot { overwriteLogs := true }, .startLog 1 .roomy]) s ∧
      s.phase = .started ∧ s.device.logEnabled = true ∧ s.device.firstLogFileNumber = 1 ∧
      s.device.logFile = logName 1 ∧ logName 2 ∈ s.device.card ∧ ¬ s.device.LogRing := by
  obtain ⟨⟨p, d⟩, hr, -, hf⟩ := exists_filling true (k := 998) (by decide)
  have hn := hf.toBelow.numbered (by decide)
  have hboot : d.boot { overwriteLogs := true } =
      (d.restored { overwriteLogs := true }).resetLogFileNumbers := by
    rw [Device.boot_eq, hn.nextCell]
    exact if_pos (.inl (by decide))
  have hspace : Device.minFreeSpace (d.boot { overwriteLogs := true }).config ≤
      Device.freeKB .roomy (d.boot { overwriteLogs := true }).card := by
    have hs := hf.enough
    rw [hf.config] at hs
    rw [hboot]
    exact hs
  have hname : Device.NextLog 1 .roomy
      { d.boot { overwriteLogs := true } with logEnabled := false } true
      { d.boot { overwriteLogs := true } with logEnabled := false }.resetToOne := by
    rw [hboot]
    exact .reset (fun h => by cases h.1) hf.zero
  have hst := Device.startLog_eq (Device.checkSdFreeSpace_of_le one_ne_zero hspace) hname rfl
  have hx : (d.boot { overwriteLogs := true }).exec (.startLog 1 .roomy) = some _ :=
    Option.map_eq_some_iff.2 ⟨_, hst, rfl⟩
  have hfirst : ((({ d.boot { overwriteLogs := true } with
      logEnabled := false } : Device).resetToOne).logOpened Env.roomy.clock).firstLogFileNumber =
        1 := rfl
  have hfile : (({ d.boot { overwriteLogs := true } with
      logEnabled := false } : Device).resetToOne).logFile = logName 1 := by
    rw [hboot]
    exact (canonical_default.of_sprintf (Nat.zero_le _)).toText_sprintf (by decide)
  have hmem : logName 2 ∈ (({ d.boot { overwriteLogs := true } with
      logEnabled := false } : Device).resetToOne.logOpened Env.roomy.clock).card := by
    rw [Device.mem_logOpened, hboot]
    exact .inr ((hn.card 2 (by decide) (by decide)).2 (by decide))
  refine ⟨_, hr.append (.cons trivial (program_step rfl rfl)
    (.single trivial (program_step rfl hx))), rfl, rfl, hfirst, hfile, hmem, fun h => ?_⟩
  exact h.not_mem_two hfirst hfile hmem

end CanInsight
