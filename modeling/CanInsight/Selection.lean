import CanInsight.FailedStart

/-!
# The number of the next log

What `set_next_log_filename` selects, from any numbers and any files on the card.
The search after the next number begins one number after it without wrapping, stops
at the first log whether there is a free number after it or not, and never stops if
the first log number is not on the wheel; and the array it prints names into keeps
what is not overprinted.

* `exists_setNextLogFilename_iff`: when a name is chosen at all (`SearchEnds`);
* `selectsInOrder_iff`: when the number selected is the first free one;
* `startsFresh_iff`: when `start_log` succeeds, with overwriting allowed and enough
  free space, on an empty file.
-/

namespace CanInsight

open CString

/-- The first number without a log, from `n` on around the wheel. -/
def FirstFree (card : Card) (n m : ℕ) : Prop :=
  ∃ k, m = (Wheel.next maxLogNumber)^[k] n ∧ logName m ∉ card ∧
    ∀ j < k, logName ((Wheel.next maxLogNumber)^[j] n) ∈ card

namespace Device

variable {fuel k m n : ℕ} {env : Env} {b : Bool} {d e : Device} {buf : List Char}

/-! ## The end of the search -/

/-- The first log or the next one does not exist, or the first log number is on the
    wheel, or some name that the search tries is free. -/
def SearchEnds (d : Device) : Prop :=
  d.nameFirst.logFile ∉ d.card ∨ d.nameNext.logFile ∉ d.card ∨
    1 ≤ d.firstLogFileNumber ∧ d.firstLogFileNumber ≤ maxLogNumber ∨
    ∃ k, toText (printNumbers (d.wrapped.nextLogFileNumber + 1) d.nameNext.logFileName k) ∉ d.card

theorem search_eq (fuel : ℕ) (d : Device) :
    d.search fuel = searchLoop d.card d.firstLogFileNumber fuel
      (d.wrapped.nextLogFileNumber + 1) d.nameNext.logFileName := by
  have hn : d.nameNext.nextLogFileNumber = d.wrapped.nextLogFileNumber := rfl
  have hlt : d.wrapped.nextLogFileNumber + 1 < 2 ^ 16 :=
    Nat.lt_of_le_of_lt (Nat.succ_le_succ d.wrapped_next_le) (by decide)
  rw [search, hn, u16_of_lt hlt]

/-- The numbers that the search tries after the one it begins with are on the wheel. -/
theorem iterate_nextNumber_succ (hn : n ≤ maxLogNumber) (k : ℕ) :
    nextNumber^[k + 1] (n + 1) = (Wheel.next maxLogNumber)^[k + 1] (n + 1) := by
  have hlt : n + 1 < 65535 := Nat.lt_of_le_of_lt (Nat.succ_le_succ hn) (by decide)
  rw [Function.iterate_succ_apply, nextNumber_eq hlt, Function.iterate_succ_apply]
  exact (iterate_nextNumber (Wheel.next_le (by decide)) k).1

/-- The search comes back to the first log if and only if that is on the wheel. -/
theorem exists_iterate_nextNumber_iff {first : ℕ} (hn : n ≤ maxLogNumber) :
    (∃ k, nextNumber^[k + 1] (n + 1) = first) ↔ 1 ≤ first ∧ first ≤ maxLogNumber := by
  have hle : Wheel.next maxLogNumber (n + 1) ≤ maxLogNumber := Wheel.next_le (by decide)
  simp only [iterate_nextNumber_succ hn, Function.iterate_succ_apply]
  constructor
  · rintro ⟨k, rfl⟩
    exact ⟨Wheel.one_le_iterate_next Wheel.one_le_next k,
      Wheel.iterate_next_le Wheel.one_le_next hle k⟩
  · rintro ⟨h, h'⟩
    obtain ⟨k, -, -, hk⟩ := Wheel.exists_iterate_next Wheel.one_le_next hle h h'
    exact ⟨k, hk⟩

theorem exists_search_iff (d : Device) :
    (∃ fuel r, d.search fuel = some r) ↔
      1 ≤ d.firstLogFileNumber ∧ d.firstLogFileNumber ≤ maxLogNumber ∨
        ∃ k, toText (printNumbers (d.wrapped.nextLogFileNumber + 1) d.nameNext.logFileName k) ∉
          d.card := by
  simp only [search_eq, exists_searchLoop_iff, exists_or,
    exists_iterate_nextNumber_iff d.wrapped_next_le]
  exact or_comm

/-- Without the shortcut, `set_next_log_filename` returns if and only if its search ends. -/
theorem exists_setNextLogFilename_iff (env : Env) (hs : ¬ d.Shortcut) :
    (∃ fuel r, d.setNextLogFilename fuel env = some r) ↔ d.SearchEnds := by
  constructor
  · rintro ⟨fuel, ⟨b, e⟩, h⟩
    cases setNextLogFilename_iff.1 h with
    | shortcut hs' => exact absurd hs' hs
    | reset _ hf => exact .inl hf
    | next _ _ hn => exact .inr (.inl hn)
    | found _ _ _ hm => exact .inr (.inr ((exists_search_iff d).1 ⟨_, _, hm⟩))
    | overwrite _ _ _ hm => exact .inr (.inr ((exists_search_iff d).1 ⟨_, _, hm⟩))
    | full _ _ _ hm => exact .inr (.inr ((exists_search_iff d).1 ⟨_, _, hm⟩))
  · intro h
    by_cases hf : d.nameFirst.logFile ∈ d.card
    · by_cases hn : d.nameNext.logFile ∈ d.card
      · have h := (h.resolve_left (not_not.2 hf)).resolve_left (not_not.2 hn)
        obtain ⟨fuel, ⟨r, buf⟩, hr⟩ := (exists_search_iff d).2 h
        cases r with
        | some n => exact ⟨fuel, _, setNextLogFilename_iff.2 (.found hs hf hn hr)⟩
        | none =>
          cases ho : d.config.overwriteLogs with
          | true => exact ⟨fuel, _, setNextLogFilename_iff.2 (.overwrite hs hf hn hr ho)⟩
          | false => exact ⟨fuel, _, setNextLogFilename_iff.2 (.full hs hf hn hr ho)⟩
      · exact ⟨0, _, setNextLogFilename_iff.2 (.next hs hf hn)⟩
    · exact ⟨0, _, setNextLogFilename_iff.2 (.reset hs hf)⟩

/-! ## The first free number -/

/-- The names that the search tries, in an array that names logs. -/
theorem toText_printNumbers (hb : NamesLogs buf) (hn : n ≤ maxLogNumber) (k : ℕ) :
    NamesLogs (printNumbers n buf k) ∧
      toText (printNumbers n buf k) = logName ((Wheel.next maxLogNumber)^[k] n) := by
  induction k with
  | zero => exact ⟨(namesLogs_sprintf_iff hn).2 hb, hb.toText_sprintf hn⟩
  | succ k ih =>
    obtain ⟨he, hle⟩ := iterate_nextNumber hn (k + 1)
    rw [printNumbers, he]
    exact ⟨(namesLogs_sprintf_iff hle).2 ih.1, ih.1.toText_sprintf hle⟩

/-- The search gives the name of a log only if it begins at most at `MAX_LOG_NUMBER`, and
    in an array that names logs. -/
theorem namesLogs_of_printNumbers (hn : n ≤ maxLogNumber + 1) (hm : m ≤ maxLogNumber)
    (h : toText (printNumbers n buf k) = logName m) : n ≤ maxLogNumber ∧ NamesLogs buf := by
  rcases Nat.lt_or_ge maxLogNumber n with hlt | hle
  · obtain rfl : n = 1000 := Nat.le_antisymm hn hlt
    -- once 1000 was printed, no name of a log comes out
    have hnever (j : ℕ) : ¬ NamesLogs (printNumbers 1000 buf j) := by
      induction j with
      | zero => exact (not_namesLogs_sprintf buf).1
      | succ j ih =>
        have hj : nextNumber^[j + 1] 1000 ≤ maxLogNumber := by
          have hj := iterate_nextNumber_succ (n := 999) (by decide) j
          rw [hj, Function.iterate_succ_apply']
          exact Wheel.next_le (by decide)
        rwa [printNumbers, namesLogs_sprintf_iff hj]
    cases k with
    | zero => exact absurd h ((not_namesLogs_sprintf buf).2 m hm)
    | succ k =>
      have hk : nextNumber^[k + 1] 1000 ≤ maxLogNumber := by
        have hk := iterate_nextNumber_succ (n := 999) (by decide) k
        rw [hk, Function.iterate_succ_apply']
        exact Wheel.next_le (by decide)
      exact absurd (namesLogs_of_toText hk hm h) (hnever k)
  · refine ⟨hle, ?_⟩
    have hiff (j : ℕ) : NamesLogs (printNumbers n buf j) ↔ NamesLogs buf := by
      induction j with
      | zero => exact namesLogs_sprintf_iff hle
      | succ j ih =>
        rw [printNumbers, (iterate_nextNumber hle (j + 1)).1,
          namesLogs_sprintf_iff (iterate_nextNumber hle (j + 1)).2, ih]
    cases k with
    | zero => exact namesLogs_of_toText hle hm h
    | succ k =>
      rw [printNumbers, (iterate_nextNumber hle (k + 1)).1] at h
      exact (hiff k).1 (namesLogs_of_toText (iterate_nextNumber hle (k + 1)).2 hm h)

/-- `set_next_log_filename` returns; it selects the first free number, if there is one,
    from the next one on, and removes nothing; and it comes to the end of its search
    only when all numbers are used. -/
structure SelectsInOrder (env : Env) (d : Device) : Prop where
  returns : ∃ fuel r, d.setNextLogFilename fuel env = some r
  selects : ∀ {fuel b e}, d.setNextLogFilename fuel env = some (b, e) → ¬ AllUsed d.card →
    ∃ m, 1 ≤ m ∧ m ≤ maxLogNumber ∧ FirstFree d.card d.wrapped.nextLogFileNumber m ∧
      b = true ∧ e.logFile = logName m ∧ e.nextLogFileNumber = m + 1 ∧ e.card = d.card
  last : ∀ {fuel buf}, d.nameFirst.logFile ∈ d.card → d.nameNext.logFile ∈ d.card →
    d.search fuel = some (none, buf) → AllUsed d.card

/-- A number after the next one is free, and the first log number is not among those after
    the next but one, up to it. -/
def FreeBeforeFirst (d : Device) : Prop :=
  ∃ k, logName ((Wheel.next maxLogNumber)^[k + 1] d.wrapped.nextLogFileNumber) ∉ d.card ∧
    ∀ j, 1 ≤ j → j ≤ k →
      (Wheel.next maxLogNumber)^[j + 1] d.wrapped.nextLogFileNumber ≠ d.firstLogFileNumber

theorem logFile_nameFirst (d : Device) :
    d.nameFirst.logFile =
      toText (sprintfNumToLogfileName d.firstLogFileNumber d.logFileName) := rfl

theorem logFile_nameNext (d : Device) :
    d.nameNext.logFile = toText (sprintfNumToLogfileName d.wrapped.nextLogFileNumber
      (sprintfNumToLogfileName d.firstLogFileNumber d.logFileName)) := rfl

/-- The search begins one number on, on the wheel if the next number is not the last. -/
theorem iterate_next_succ (hn : n < maxLogNumber) (k : ℕ) :
    (Wheel.next maxLogNumber)^[k] (n + 1) = (Wheel.next maxLogNumber)^[k + 1] n := by
  rw [Function.iterate_succ_apply, Wheel.next, if_pos hn]

/-- A free number that the search meets before the first log is found. -/
theorem search_of_freeBeforeFirst (hb : NamesLogs d.nameNext.logFileName)
    (hn : d.wrapped.nextLogFileNumber < maxLogNumber) (h : d.FreeBeforeFirst) :
    ∃ k buf, d.search (k + 1) =
        some (some ((Wheel.next maxLogNumber)^[k + 1] d.wrapped.nextLogFileNumber), buf) ∧
      toText buf = logName ((Wheel.next maxLogNumber)^[k + 1] d.wrapped.nextLogFileNumber) ∧
      toText buf ∉ d.card ∧
      ∀ j < k,
        logName ((Wheel.next maxLogNumber)^[j + 1] d.wrapped.nextLogFileNumber) ∈ d.card := by
  obtain ⟨k₀, hfree, hfirst⟩ := h
  have hex : ∃ k,
      logName ((Wheel.next maxLogNumber)^[k + 1] d.wrapped.nextLogFileNumber) ∉ d.card :=
    ⟨k₀, hfree⟩
  classical
  -- the first of the free numbers
  obtain ⟨k, hk, hle, hmin⟩ : ∃ k,
      logName ((Wheel.next maxLogNumber)^[k + 1] d.wrapped.nextLogFileNumber) ∉ d.card ∧ k ≤ k₀ ∧
      ∀ j < k,
        logName ((Wheel.next maxLogNumber)^[j + 1] d.wrapped.nextLogFileNumber) ∈ d.card :=
    ⟨Nat.find hex, Nat.find_spec hex, Nat.find_min' hex hfree,
      fun j hj => not_not.1 (Nat.find_min hex hj)⟩
  have hname (j : ℕ) : toText (printNumbers (d.wrapped.nextLogFileNumber + 1)
      d.nameNext.logFileName j) =
        logName ((Wheel.next maxLogNumber)^[j + 1] d.wrapped.nextLogFileNumber) := by
    rw [(toText_printNumbers hb hn j).2, iterate_next_succ hn]
  have hnum (j : ℕ) : nextNumber^[j] (d.wrapped.nextLogFileNumber + 1) =
      (Wheel.next maxLogNumber)^[j + 1] d.wrapped.nextLogFileNumber := by
    rw [(iterate_nextNumber hn j).1, iterate_next_succ hn]
  refine ⟨k, printNumbers (d.wrapped.nextLogFileNumber + 1) d.nameNext.logFileName k, ?_, hname k,
    ?_, hmin⟩
  · rw [search_eq, searchLoop_eq_some_iff]
    refine ⟨k, Nat.lt_succ_self k, fun j hj => ⟨?_, ?_⟩, fun hm => ?_, ?_⟩
    · rw [hname]
      exact hmin j hj
    · rw [hnum]
      exact hfirst (j + 1) (Nat.succ_pos j) (Nat.succ_le_of_lt (hj.trans_le hle))
    · rw [hname] at hm
      exact absurd hm hk
    · rw [hname, if_neg hk, hnum]
  · rw [hname]
    exact hk

/-- Where not all numbers are used, the selection is in order only if the array names
    logs, and the next number or one that the search meets is free. -/
theorem SelectsInOrder.free (h : SelectsInOrder env d) (hf : d.firstLogFileNumber ≤ maxLogNumber)
    (hm : logName d.firstLogFileNumber ∈ d.card) (hs : ¬ d.Shortcut) (hu : ¬ AllUsed d.card) :
    NamesLogs d.logFileName ∧ (logName d.wrapped.nextLogFileNumber ∉ d.card ∨
      d.wrapped.nextLogFileNumber < maxLogNumber ∧ d.FreeBeforeFirst) := by
  obtain ⟨fuel, ⟨b, e⟩, hr⟩ := h.returns
  obtain ⟨m, -, hm', -, hb, hname, -, -⟩ := h.selects hr hu
  have hle := d.wrapped_next_le
  -- the name that is set tells whether the array named logs before
  cases setNextLogFilename_iff.1 hr with
  | shortcut hs' => exact absurd hs' hs
  | reset _ hfree =>
    have hname : toText (sprintfNumToLogfileName 1
        (sprintfNumToLogfileName d.firstLogFileNumber d.logFileName)) = logName m := hname
    have hb := (namesLogs_sprintf_iff hf).1 (namesLogs_of_toText (by decide) hm' hname)
    rw [logFile_nameFirst, hb.toText_sprintf hf] at hfree
    exact absurd hm hfree
  | next _ _ hfree =>
    have hname : toText (sprintfNumToLogfileName d.wrapped.nextLogFileNumber
        (sprintfNumToLogfileName d.firstLogFileNumber d.logFileName)) = logName m := hname
    have hb' := namesLogs_of_toText hle hm' hname
    rw [logFile_nameNext, hb'.toText_sprintf hle] at hfree
    exact ⟨(namesLogs_sprintf_iff hf).1 hb', .inl hfree⟩
  | found _ _ _ hfound =>
    rename_i n buf
    rw [search_eq, searchLoop_eq_some_iff] at hfound
    obtain ⟨k, -, hpass, -, hres⟩ := hfound
    obtain ⟨hn, rfl⟩ := Prod.mk.inj hres
    have hname : toText (printNumbers (d.wrapped.nextLogFileNumber + 1) d.nameNext.logFileName k) =
      logName m := hname
    obtain ⟨hlt, hb'⟩ := namesLogs_of_printNumbers (Nat.succ_le_succ hle) hm' hname
    have hbuf : NamesLogs d.logFileName := by
      rwa [← namesLogs_sprintf_iff hf, ← namesLogs_sprintf_iff hle]
    refine ⟨hbuf, .inr ⟨hlt, k, ?_, fun j hj hjk => ?_⟩⟩
    · rw [← iterate_next_succ hlt, ← (toText_printNumbers hb' hlt k).2]
      intro hmem
      rw [if_pos hmem] at hn
      cases hn
    · obtain ⟨j, rfl⟩ := Nat.exists_eq_add_of_le' hj
      have hne := (hpass j hjk).2
      rwa [(iterate_nextNumber hlt (j + 1)).1, iterate_next_succ hlt] at hne
  | overwrite _ hf' hn' hnone => exact absurd (h.last hf' hn' hnone) hu
  | full => cases hb

/-- With no overwriting remembered, and the first log on the card, the selection is in
    order if and only if all numbers are used and the search ends, or not all are, the
    array names logs, and the next number or one that the search meets is free. -/
theorem selectsInOrder_iff (env : Env) (ho : d.overwritingOldFiles = false)
    (hf : d.firstLogFileNumber ≤ maxLogNumber) (hm : logName d.firstLogFileNumber ∈ d.card)
    (hn : 1 ≤ d.nextLogFileNumber) :
    SelectsInOrder env d ↔
      AllUsed d.card ∧ d.SearchEnds ∨
      ¬ AllUsed d.card ∧ NamesLogs d.logFileName ∧
        (logName d.wrapped.nextLogFileNumber ∉ d.card ∨
          d.wrapped.nextLogFileNumber < maxLogNumber ∧ d.FreeBeforeFirst) := by
  have hs : ¬ d.Shortcut := fun hs => absurd (ho.symm.trans hs.1) (by decide)
  by_cases hu : AllUsed d.card
  · rw [and_iff_right hu, or_iff_left (fun h => h.1 hu)]
    refine ⟨fun h => (exists_setNextLogFilename_iff env hs).1 h.returns, fun h => ?_⟩
    exact ⟨(exists_setNextLogFilename_iff env hs).2 h, fun _ hu' => absurd hu hu', fun _ _ _ => hu⟩
  · rw [and_iff_right hu, or_iff_right (fun h => hu h.1)]
    refine ⟨fun h => h.free hf hm hs hu, ?_⟩
    rintro ⟨hb, hfree⟩
    have hle := d.wrapped_next_le
    have hpos : 1 ≤ d.wrapped.nextLogFileNumber := by
      rw [wrapped, wrapNext_nextLogFileNumber]
      split
      · exact le_rfl
      · exact hn
    have hb₁ : NamesLogs d.nameFirst.logFileName := (namesLogs_sprintf_iff hf).2 hb
    have hb₂ : NamesLogs d.nameNext.logFileName := (namesLogs_sprintf_iff hle).2 hb₁
    have hfirst : d.nameFirst.logFile ∈ d.card := by
      rwa [logFile_nameFirst, hb.toText_sprintf hf]
    have hnext : d.nameNext.logFile = logName d.wrapped.nextLogFileNumber := hb₁.toText_sprintf hle
    have hu16 {m : ℕ} (hm : m ≤ maxLogNumber) : u16 (m + 1) = m + 1 :=
      u16_of_lt (Nat.lt_of_le_of_lt (Nat.succ_le_succ hm) (by decide))
    -- either the search finds the number, or the next number is taken at once
    by_cases hused : logName d.wrapped.nextLogFileNumber ∈ d.card
    · obtain ⟨hlt, hfree⟩ := hfree.resolve_left (not_not.2 hused)
      obtain ⟨k, buf, hsearch, hname, hnot, hmin⟩ := search_of_freeBeforeFirst hb₂ hlt hfree
      have hres : NextLog (k + 1) env d true ((d.searched buf).useNumber _) :=
        .found hs hfirst (hnext ▸ hused) hsearch
      refine ⟨⟨_, _, setNextLogFilename_iff.2 hres⟩, fun hr _ => ?_, fun _ _ hnone => ?_⟩
      · obtain ⟨rfl, rfl⟩ := hres.unique (setNextLogFilename_iff.1 hr)
        have hkle := Wheel.iterate_next_le hpos hle (k + 1)
        refine ⟨_, Wheel.one_le_iterate_next hpos (k + 1), hkle, ⟨k + 1, rfl, ?_, fun j hj => ?_⟩,
          rfl, hname, hu16 hkle, rfl⟩
        · rwa [← hname]
        · cases j with
          | zero => exact hused
          | succ j => exact hmin j (Nat.lt_of_succ_lt_succ hj)
      · cases searchLoop_unique hsearch hnone
    · have hres : NextLog 0 env d true (d.nameNext.useNumber d.nameNext.nextLogFileNumber) :=
        .next hs hfirst (hnext ▸ hused)
      refine ⟨⟨_, _, setNextLogFilename_iff.2 hres⟩, fun hr _ => ?_, fun _ hm' _ => ?_⟩
      · obtain ⟨rfl, rfl⟩ := hres.unique (setNextLogFilename_iff.1 hr)
        exact ⟨_, hpos, hle, ⟨0, rfl, hused, fun j hj => absurd hj (Nat.not_lt_zero j)⟩, rfl, hnext,
          hu16 hle, rfl⟩
      · exact absurd (hnext ▸ hm') hused

/-- A card with log 1 only, after the first start. -/
def oneLog : Device where
  card := Finmap.singleton (logName 1) []
  eeprom := ⟨1, 1, 1, 0⟩
  nextLogFileNumber := 1
  firstLogFileNumber := 1

/-- The selection is in order: log 2 is next. -/
theorem selectsInOrder_second_start : SelectsInOrder .roomy oneLog := by
  refine (selectsInOrder_iff .roomy rfl (by decide) (by decide) le_rfl).2
    (.inr ⟨fun h => ?_, by decide, .inr ⟨by decide, 0, by decide, ?_⟩⟩)
  · exact absurd (h 2 (by decide) (by decide)) (by decide)
  · intro j hj hj'
    omega

/-- A card with the logs 1 and 999, of which 999 is the next number. -/
def lastNext : Device where
  card := (Finmap.singleton (logName 1) []).insert (logName 999) []
  eeprom := ⟨999, 1, 1, 0⟩
  nextLogFileNumber := 999
  firstLogFileNumber := 1

/-- The number 1000 is selected, although 2 is the first free number. -/
theorem selects_1000 :
    (lastNext.setNextLogFilename 1 .roomy).map
        (fun r => (r.1, r.2.logFile, r.2.nextLogFileNumber)) =
          some (true, "CAN1000.log".toList, 1001) ∧
      FirstFree lastNext.card 999 2 ∧ ¬ SelectsInOrder .roomy lastNext := by
  have hr : (lastNext.setNextLogFilename 1 .roomy).map
      (fun r => (r.1, r.2.logFile, r.2.nextLogFileNumber)) =
        some (true, "CAN1000.log".toList, 1001) := by decide +kernel
  refine ⟨hr, ⟨2, rfl, by decide, fun j hj => ?_⟩, fun h => ?_⟩
  · obtain rfl | rfl : j = 0 ∨ j = 1 := by omega
    · decide
    · decide
  · obtain ⟨⟨b, e⟩, he, hr⟩ := Option.map_eq_some_iff.1 hr
    have hu : ¬ AllUsed lastNext.card := fun hu =>
      absurd (hu 2 (by decide) (by decide)) (by decide)
    obtain ⟨m, -, hm, -, -, -, hnext, -⟩ := h.selects he hu
    have hn : e.nextLogFileNumber = 1001 := (Prod.mk.inj (Prod.mk.inj hr).2).2
    rw [hn] at hnext
    have hm : m ≤ 999 := hm
    omega

/-! ## Starting a log with overwriting allowed -/

/-- `start_log` returns 1 and leaves logging enabled, on a file that it found empty: the
    two lines that open it are all it has. -/
def StartsFresh (env : Env) (d : Device) : Prop :=
  ∃ fuel e, d.startLog fuel env = some (true, e) ∧ e.logEnabled = true ∧
    e.dataFile = some ⟨e.logFile, header e.config env.clock, (header e.config env.clock).length⟩

/-- The shortcut reports success, the search ends, and log 1 is empty or does not exist if
    it is returned to. -/
structure FindsFresh (env : Env) (d : Device) : Prop where
  shortcut : d.Shortcut → env.noValue = true
  reset : ¬ d.Shortcut → d.nameFirst.logFile ∉ d.card → d.resetToOne.found = []
  ends : ¬ d.Shortcut → d.SearchEnds

theorem found_eq_nil (h : d.logFile ∉ d.card) : d.found = [] := by
  rw [found, Finmap.lookup_eq_none.2 fun hm => h (mem_syncedCard.1 hm)]
  rfl

/-- Unless log 1 is returned to, the name is free, where files can be removed. -/
theorem NextLog.found_eq (h : NextLog fuel env d true e) (hr : ∀ name, env.removes name = true)
    (hf : ¬ d.Shortcut → d.nameFirst.logFile ∈ d.card) : e.found = [] := by
  refine found_eq_nil (h.isFree_iff.2 ?_ rfl)
  rw [NameIsFree]
  split
  · exact fun _ => .inl (hr _)
  next hs =>
  rw [if_neg (not_not.2 (hf hs))]
  exact fun _ _ _ _ _ => .inl (hr _)

theorem startsFresh_iff_nextLog (hroom : minFreeSpace d.config ≤ freeKB env d.card)
    (hop : env.opens = true) :
    StartsFresh env d ↔
      ∃ fuel e, NextLog fuel env { d with logEnabled := false } true e ∧ e.found = [] := by
  have hc {fuel : ℕ} (hf : fuel ≠ 0) :
      checkSdFreeSpace fuel env { d with logEnabled := false } =
        some (true, { d with logEnabled := false }) := checkSdFreeSpace_of_le hf hroom
  constructor
  · rintro ⟨fuel, e, hs, -, hfile⟩
    cases start_of_startLog hs with
    | @opened d₁ d₂ hc' hn _ =>
      cases freeSpaceLoop_unique (hc (Nat.succ_ne_zero fuel)) hc'
      refine ⟨fuel, d₂, hn, ?_⟩
      rw [logOpened_dataFile, Option.some.injEq, OpenFile.mk.injEq] at hfile
      exact List.append_left_eq_self.1 hfile.2.1
  · rintro ⟨fuel, e, hn, hfound⟩
    have hs := startLog_eq (hc (Nat.succ_ne_zero fuel)) (hn.mono (Nat.le_succ fuel)) hop
    refine ⟨fuel + 1, _, hs, rfl, ?_⟩
    rw [logOpened_dataFile, hfound]
    rfl

/-- With overwriting allowed, enough free space, and files that can be removed and opened,
    a start succeeds on an empty file if and only if the condition holds. -/
theorem startsFresh_iff (ho : d.config.overwriteLogs = true)
    (hroom : minFreeSpace d.config ≤ freeKB env d.card)
    (hr : ∀ name, env.removes name = true) (hop : env.opens = true) :
    StartsFresh env d ↔ FindsFresh env d := by
  rw [startsFresh_iff_nextLog hroom hop]
  constructor
  · rintro ⟨fuel, e, hn, hfound⟩
    have hends : ¬ d.Shortcut → d.SearchEnds := fun hs =>
      (exists_setNextLogFilename_iff (d := { d with logEnabled := false }) env hs).1
        ⟨fuel, _, setNextLogFilename_iff.2 hn⟩
    refine ⟨fun hs => ?_, fun hs hf => ?_, hends⟩
    · have hn' : NextLog fuel env { d with logEnabled := false } env.noValue _ := .shortcut hs
      exact (hn.unique hn').1
    · have hn' : NextLog fuel env { d with logEnabled := false } true _ := .reset hs hf
      obtain ⟨-, rfl⟩ := hn'.unique hn
      exact hfound
  · intro h
    by_cases hs : d.Shortcut
    · have hn : NextLog 0 env { d with logEnabled := false } env.noValue _ := .shortcut hs
      rw [h.shortcut hs] at hn
      exact ⟨0, _, hn, hn.found_eq hr fun h => absurd hs h⟩
    · obtain ⟨fuel, ⟨b, e⟩, hn⟩ := (exists_setNextLogFilename_iff
        (d := { d with logEnabled := false }) env hs).2 (h.ends hs)
      have hn := setNextLogFilename_iff.1 hn
      by_cases hf : d.nameFirst.logFile ∈ d.card
      · obtain rfl : b = true := by
          cases hn with
          | shortcut hs' => exact absurd hs' hs
          | full _ _ _ _ ho' => exact absurd (ho.symm.trans ho') (by decide)
          | reset => rfl
          | next => rfl
          | found => rfl
          | overwrite => rfl
        exact ⟨fuel, e, hn, hn.found_eq hr fun _ => hf⟩
      · have hn' : NextLog fuel env { d with logEnabled := false } true _ := .reset hs hf
        exact ⟨fuel, _, hn', h.reset hs hf⟩

/-- A card with the logs 1 and 2, of which 2 is the next number still. -/
def secondPending : Device :=
  initial ((Finmap.singleton (logName 1) ['x']).insert (logName 2) ['y']) ⟨2, 1, 1, 0⟩

/-- The search goes on past log 2, to a number that is free. -/
theorem startsFresh_third_log :
    StartsFresh .roomy (secondPending.boot { overwriteLogs := true }) := by
  obtain ⟨ho, hroom, hs, hf, hfirst⟩ :
      (secondPending.boot { overwriteLogs := true }).config.overwriteLogs = true ∧
        minFreeSpace (secondPending.boot { overwriteLogs := true }).config ≤
          freeKB .roomy (secondPending.boot { overwriteLogs := true }).card ∧
        ¬ (secondPending.boot { overwriteLogs := true }).Shortcut ∧
        (secondPending.boot { overwriteLogs := true }).nameFirst.logFile ∈
          (secondPending.boot { overwriteLogs := true }).card ∧
        (secondPending.boot { overwriteLogs := true }).firstLogFileNumber = 1 := by
    decide +kernel
  exact (startsFresh_iff ho hroom (fun _ => rfl) rfl).2
    ⟨fun h => absurd h hs, fun _ h => absurd hf h,
      fun _ => .inr (.inr (.inl (hfirst ▸ ⟨le_rfl, by decide⟩)))⟩

/-- With a blank EEPROM and a log 1 on the card, the log is written on, so no start
    succeeds on an empty file. -/
theorem starts_on_log_one :
    ∃ d e, anyOrder.Run Machine.Free
        (initial (Finmap.singleton (logName 1) ['x']) ⟨65535, 65535, 65535, 65535⟩)
        [.boot { overwriteLogs := true }] d ∧
      d.startLog 1 .roomy = some (true, e) ∧
      e.dataFile.map (·.data) = some ('x' :: header { overwriteLogs := true } {}) ∧
      ¬ StartsFresh .roomy d := by
  obtain ⟨d, hrun, ⟨hs, hf, hfound, hroom⟩, hstart⟩ : ∃ d, anyOrder.Run Machine.Free
      (initial (Finmap.singleton (logName 1) ['x']) ⟨65535, 65535, 65535, 65535⟩)
      [.boot { overwriteLogs := true }] d ∧
      (¬ d.Shortcut ∧ d.nameFirst.logFile ∉ d.card ∧ d.resetToOne.found = ['x'] ∧
        minFreeSpace d.config ≤ freeKB .roomy d.card) ∧
      (d.startLog 1 .roomy).map (fun r => (r.1, r.2.dataFile.map (·.data))) =
        some (true, some ('x' :: header { overwriteLogs := true } {})) :=
    ⟨_, .cons trivial rfl (.nil _), by decide +kernel, by decide +kernel⟩
  obtain ⟨⟨b, e⟩, he, hr⟩ := Option.map_eq_some_iff.1 hstart
  obtain ⟨rfl, hdata⟩ := Prod.mk.inj hr
  refine ⟨d, e, hrun, he, hdata, fun h => ?_⟩
  obtain ⟨fuel, e', hn, hempty⟩ := (startsFresh_iff_nextLog hroom rfl).1 h
  have hn' : NextLog fuel .roomy { d with logEnabled := false } true _ := .reset hs hf
  obtain ⟨-, rfl⟩ := hn'.unique hn
  exact absurd (hempty.symm.trans hfound) (by decide)

end Device

end CanInsight
