import CanInsight.Logger

/-!
# What starting a log and writing a line can do

Each function of the logger is opened up once, here. What it can do is said by
an inductive relation with a case for each way through the source, and the
proofs about runs split on these cases.

* `boot_eq`: what a boot restores from the EEPROM;
* `NextLog`: the ways out of `set_next_log_filename`;
* `Freed`: what `check_sd_free_space` changes, and `freeSpaceLoop_induct`, the
  rule for what its loop preserves;
* `Start`: the ways out of `start_log`;
* `Write`: the ways out of `write_sd_line`, with the loop that opens the file
  closed off (`opened`).
-/

namespace CanInsight

open CString

namespace OpenFile

variable {f : OpenFile} {s : Bytes}

theorem atEnd_mk (name : Name) (data : Bytes) : AtEnd ⟨name, data, data.length⟩ := rfl

/-- What is written at the end is appended. -/
theorem AtEnd.write_data (h : f.AtEnd) : (f.write s).data = f.data ++ s := by
  have hd : f.data.drop (f.pos + s.length) = [] :=
    List.drop_of_length_le (by rw [h]; exact Nat.le_add_right _ _)
  rw [OpenFile.write, hd, h, List.take_length, List.append_nil]

theorem AtEnd.write (h : f.AtEnd) : (f.write s).AtEnd := by
  rw [AtEnd, h.write_data, List.length_append]
  exact congrArg (· + s.length) h

theorem AtEnd.write_eq (h : f.AtEnd) (s : Bytes) :
    f.write s = ⟨f.name, f.data ++ s, (f.data ++ s).length⟩ := by
  have hp : (f.write s).pos = (f.data ++ s).length := by
    rw [← h.write_data]
    exact h.write
  rw [← hp, ← h.write_data]
  rfl

@[simp] theorem seek_name (n : ℕ) : (f.seek n).name = f.name := by
  unfold seek
  split <;> rfl

@[simp] theorem seek_data (n : ℕ) : (f.seek n).data = f.data := by
  unfold seek
  split <;> rfl

/-- Seeking to the end, or beyond it from the end, ends at the end. -/
theorem AtEnd.seek (h : f.AtEnd) {n : ℕ} (hn : f.data.length ≤ n) : (f.seek n).AtEnd := by
  unfold OpenFile.seek
  split
  · next hle => exact Nat.le_antisymm hle hn
  · exact h

end OpenFile

namespace Device

variable {fuel : ℕ} {env : Env} {b : Bool} {d d' : Device}

/-! ## Booting -/

/-- The memory after a boot that accepts the log numbers of the EEPROM. -/
@[simps] def restored (config : ConfigManager) (d : Device) : Device where
  card := d.card
  eeprom := d.eeprom
  config := config
  maxLogSize := config.maxLogSize
  nextLogFileNumber := d.eeprom.loggerNextLogNum
  firstLogFileNumber := d.eeprom.loggerFirstLogNum
  trace := d.trace

theorem boot_eq (config : ConfigManager) (d : Device) :
    d.boot config =
      if d.eeprom.loggerNextLogNum > maxLogNumber ∨ d.eeprom.loggerFirstLogNum > maxLogNumber then
        (d.restored config).resetLogFileNumbers
      else d.restored config := rfl

/-! ## Free space -/

/-- What `check_sd_free_space` changes: the files, the first log number, in
    memory and in the EEPROM, and the trace. -/
def Freed (d d' : Device) : Prop :=
  ∃ card first cell trace,
    d' = { d with
      card := card
      firstLogFileNumber := first
      eeprom := { d.eeprom with loggerFirstLogNum := cell }
      trace := trace }

theorem Freed.refl (d : Device) : Freed d d := ⟨_, _, _, _, rfl⟩

/-- The loop of `check_sd_free_space` preserves what the deletion of the log it
    names and the step to the next log preserve. -/
theorem freeSpaceLoop_induct {P : List Char → Device → Prop}
    (hstep : ∀ buf d, P buf d → freeKB env d.card < minFreeSpace d.config →
      d.config.overwriteLogs = true →
      P (sprintfNumToLogfileName (nextNumber d.firstLogFileNumber) buf)
        (d.sdRemove (env.removes (toText buf)) (toText buf)).advanceFirst)
    {buf : List Char} (hP : P buf d) (h : freeSpaceLoop env fuel buf d = some (b, d')) :
    ∃ buf', P buf' d' := by
  induction fuel generalizing buf d with
  | zero => cases h
  | succ fuel ih =>
    rw [freeSpaceLoop] at h
    split at h
    · next hlt =>
      split at h
      · cases h
        exact ⟨buf, hP⟩
      · next ho => exact ih (hstep buf d hP hlt (by simpa using ho)) h
    · cases h
      exact ⟨buf, hP⟩

theorem checkSdFreeSpace_freed (h : d.checkSdFreeSpace fuel env = some (b, d')) : Freed d d' := by
  refine (freeSpaceLoop_induct (P := fun _ e => Freed d e) ?_ (.refl d) h).elim fun _ h => h
  rintro buf _ ⟨card, first, cell, trace, rfl⟩ - -
  exact ⟨_, _, _, _, rfl⟩

/-- More fuel does not change what freeing space comes to. -/
theorem freeSpaceLoop_unique {fuel' : ℕ} {buf : List Char} {r r' : Bool × Device}
    (h : freeSpaceLoop env fuel buf d = some r) (h' : freeSpaceLoop env fuel' buf d = some r') :
    r = r' := by
  induction fuel generalizing fuel' buf d with
  | zero => cases h
  | succ fuel ih =>
    cases fuel' with
    | zero => cases h'
    | succ fuel' =>
      rw [freeSpaceLoop] at h h'
      split at h
      · next hlt =>
        rw [if_pos hlt] at h'
        split at h
        · next ho =>
          rw [if_pos ho] at h'
          exact Option.some_inj.1 (h.symm.trans h')
        · next ho =>
          rw [if_neg ho] at h'
          exact ih h h'
      · next hlt =>
        rw [if_neg hlt] at h'
        exact Option.some_inj.1 (h.symm.trans h')

/-- If old logs must not be overwritten, no log is deleted to free space. -/
theorem checkSdFreeSpace_of_not_overwriteLogs (ho : d.config.overwriteLogs = false)
    (h : d.checkSdFreeSpace fuel env = some (b, d')) : d' = d := by
  refine (freeSpaceLoop_induct (P := fun _ e => e = d) ?_ rfl h).elim fun _ h => h
  rintro buf _ rfl - ho'
  rw [ho] at ho'
  cases ho'

/-- If old logs may be overwritten, it is only done when there is enough space. -/
theorem freeSpaceLoop_of_overwriteLogs {buf : List Char} (ho : d.config.overwriteLogs = true)
    (h : freeSpaceLoop env fuel buf d = some (b, d')) : b = true := by
  induction fuel generalizing buf d with
  | zero => cases h
  | succ fuel ih =>
    rw [freeSpaceLoop, ho] at h
    split at h
    · exact ih (d := (d.sdRemove _ _).advanceFirst) ho h
    · cases h
      rfl

/-- If there is enough space, nothing happens. -/
theorem checkSdFreeSpace_of_le (hf : fuel ≠ 0) (h : minFreeSpace d.config ≤ freeKB env d.card) :
    d.checkSdFreeSpace fuel env = some (true, d) := by
  obtain ⟨fuel, rfl⟩ := Nat.exists_eq_succ_of_ne_zero hf
  rw [checkSdFreeSpace, freeSpaceLoop, if_neg (Nat.not_lt.2 h)]

/-! ## The next log file -/

/-- The remembered overwriting takes the shortcut. -/
def Shortcut (d : Device) : Prop :=
  d.overwritingOldFiles ∧ d.nextLogFileNumber = d.firstLogFileNumber

instance (d : Device) : Decidable d.Shortcut :=
  inferInstanceAs (Decidable (_ ∧ _))

/-- The state in which the search of `set_next_log_filename` leaves the array. -/
@[simps!] def searched (buf : List Char) (d : Device) : Device :=
  { d.nameNext with logFileName := buf }

/-- The ways out of `set_next_log_filename`. -/
inductive NextLog (fuel : ℕ) (env : Env) (d : Device) : Bool → Device → Prop
  /-- The next log is overwritten, as the one before it was. -/
  | shortcut : d.Shortcut → NextLog fuel env d env.noValue (d.overwriteNext env)
  /-- The first log does not exist. -/
  | reset : ¬ d.Shortcut → d.nameFirst.logFile ∉ d.card → NextLog fuel env d true d.resetToOne
  /-- The next log does not exist. -/
  | next : ¬ d.Shortcut → d.nameFirst.logFile ∈ d.card → d.nameNext.logFile ∉ d.card →
      NextLog fuel env d true (d.nameNext.useNumber d.nameNext.nextLogFileNumber)
  /-- The next log exists, but a log after it does not. -/
  | found {n : ℕ} {buf : List Char} : ¬ d.Shortcut → d.nameFirst.logFile ∈ d.card →
      d.nameNext.logFile ∈ d.card → d.search fuel = some (some n, buf) →
      NextLog fuel env d true ((d.searched buf).useNumber n)
  /-- All logs exist, and the first one is overwritten. -/
  | overwrite {buf : List Char} : ¬ d.Shortcut → d.nameFirst.logFile ∈ d.card →
      d.nameNext.logFile ∈ d.card → d.search fuel = some (none, buf) →
      d.config.overwriteLogs = true →
      NextLog fuel env d true ((d.searched buf).overwriteFirst env)
  /-- All logs exist, and must not be overwritten. -/
  | full {buf : List Char} : ¬ d.Shortcut → d.nameFirst.logFile ∈ d.card →
      d.nameNext.logFile ∈ d.card → d.search fuel = some (none, buf) →
      d.config.overwriteLogs = false → NextLog fuel env d false (d.searched buf)

theorem setNextLogFilename_iff :
    d.setNextLogFilename fuel env = some (b, d') ↔ NextLog fuel env d b d' := by
  constructor
  · intro h
    rw [setNextLogFilename] at h
    split at h
    · next hs =>
      cases h
      exact .shortcut hs
    · next hs =>
      split at h
      · next hf =>
        cases h
        exact .reset hs hf
      · next hf =>
        rw [not_not] at hf
        split at h
        · next hn =>
          cases h
          exact .next hs hf hn
        · next hn =>
          rw [not_not] at hn
          split at h
          · cases h
          · next n buf hm =>
            cases h
            exact .found hs hf hn hm
          · next buf hm =>
            split at h
            · next ho =>
              cases h
              exact .overwrite hs hf hn hm ho
            · next ho =>
              cases h
              exact .full hs hf hn hm (by simpa using ho)
  · intro h
    have hs' {d : Device} (hs : ¬ d.Shortcut) :
        ¬ (d.overwritingOldFiles ∧ d.nextLogFileNumber = d.firstLogFileNumber) := hs
    cases h with
    | shortcut hs => exact if_pos hs
    | reset hs hf => rw [setNextLogFilename, if_neg (hs' hs), if_pos hf]
    | next hs hf hn =>
      rw [setNextLogFilename, if_neg (hs' hs), if_neg (not_not.2 hf), if_pos hn]
    | found hs hf hn hm =>
      rw [setNextLogFilename, if_neg (hs' hs), if_neg (not_not.2 hf), if_neg (not_not.2 hn), hm]
      rfl
    | overwrite hs hf hn hm ho =>
      rw [setNextLogFilename, if_neg (hs' hs), if_neg (not_not.2 hf), if_neg (not_not.2 hn), hm]
      exact if_pos ho
    | full hs hf hn hm ho =>
      rw [setNextLogFilename, if_neg (hs' hs), if_neg (not_not.2 hf), if_neg (not_not.2 hn), hm]
      exact if_neg (by rw [ho]; decide)

/-- What `set_next_log_filename` changes when no log is overwritten: the name, and
    the log numbers, in memory and in the EEPROM. -/
def Renamed (d d' : Device) : Prop :=
  ∃ next first eeprom buf,
    d' = { d with
      nextLogFileNumber := next
      firstLogFileNumber := first
      eeprom := eeprom
      logFileName := buf }

theorem Renamed.trans {d₁ d₂ d₃ : Device} (h : Renamed d₁ d₂) (h' : Renamed d₂ d₃) :
    Renamed d₁ d₃ := by
  obtain ⟨_, _, _, _, rfl⟩ := h
  obtain ⟨_, _, _, _, rfl⟩ := h'
  exact ⟨_, _, _, _, rfl⟩

theorem renamed_nameNext (d : Device) : Renamed d d.nameNext := ⟨_, _, _, _, rfl⟩

theorem renamed_useNumber (n : ℕ) (d : Device) : Renamed d (d.useNumber n) := ⟨_, _, _, _, rfl⟩

theorem renamed_resetToOne (d : Device) : Renamed d d.resetToOne := ⟨_, _, _, _, rfl⟩

theorem renamed_searched (buf : List Char) (d : Device) : Renamed d (d.searched buf) := by
  have hbuf (e : Device) : Renamed e { e with logFileName := buf } := ⟨_, _, _, _, rfl⟩
  exact (renamed_nameNext d).trans (hbuf _)

theorem NextLog.renamed (h : NextLog fuel env d b d') (ho : d.overwritingOldFiles = false)
    (hc : d.config.overwriteLogs = false) : Renamed d d' := by
  cases h with
  | shortcut hs => exact absurd (ho.symm.trans hs.1) (by decide)
  | overwrite _ _ _ _ ho' => exact absurd (hc.symm.trans ho') (by decide)
  | reset => exact renamed_resetToOne d
  | next => exact (renamed_nameNext d).trans (renamed_useNumber _ _)
  | @found n buf => exact (renamed_searched buf d).trans (renamed_useNumber n _)
  | @full buf => exact renamed_searched buf d

/-- A number that the search finds is not the number of a file. -/
theorem searchLoop_found {card : Card} {first n m : ℕ} {buf buf' : List Char}
    (h : searchLoop card first fuel n buf = some (some m, buf')) : toText buf' ∉ card := by
  induction fuel generalizing n buf with
  | zero => cases h
  | succ fuel ih =>
    rw [searchLoop] at h
    dsimp only at h
    split at h
    · next hn =>
      cases h
      exact hn
    · split at h
      · exact ih h
      · cases h

/-- More fuel does not change what the search comes to. -/
theorem searchLoop_unique {card : Card} {first n fuel' : ℕ} {buf : List Char}
    {r r' : Option ℕ × List Char} (h : searchLoop card first fuel n buf = some r)
    (h' : searchLoop card first fuel' n buf = some r') : r = r' := by
  induction fuel generalizing fuel' n buf with
  | zero => cases h
  | succ fuel ih =>
    cases fuel' with
    | zero => cases h'
    | succ fuel' =>
      rw [searchLoop] at h h'
      dsimp only at h h'
      split at h
      · next hn =>
        rw [if_pos hn] at h'
        exact Option.some_inj.1 (h.symm.trans h')
      · next hn =>
        rw [if_neg hn] at h'
        split at h
        · next hf =>
          rw [if_pos hf] at h'
          exact ih h h'
        · next hf =>
          rw [if_neg hf] at h'
          exact Option.some_inj.1 (h.symm.trans h')

/-- More fuel does not change what `set_next_log_filename` comes to. -/
theorem NextLog.unique {fuel' : ℕ} {b' : Bool} {e : Device} (h : NextLog fuel env d b d')
    (h' : NextLog fuel' env d b' e) : b' = b ∧ e = d' := by
  rw [← setNextLogFilename_iff, setNextLogFilename] at h h'
  suffices he : (b', e) = (b, d') from ⟨congrArg Prod.fst he, congrArg Prod.snd he⟩
  split at h
  · next hs =>
    rw [if_pos hs] at h'
    exact Option.some_inj.1 (h'.symm.trans h)
  next hs =>
  rw [if_neg hs] at h'
  split at h
  · next hf =>
    rw [if_pos hf] at h'
    exact Option.some_inj.1 (h'.symm.trans h)
  next hf =>
  rw [if_neg hf] at h'
  split at h
  · next hn =>
    rw [if_pos hn] at h'
    exact Option.some_inj.1 (h'.symm.trans h)
  next hn =>
  rw [if_neg hn] at h'
  -- the two searches have the same result
  cases hr : d.search fuel with
  | none =>
    rw [hr] at h
    cases h
  | some r =>
    cases hr' : d.search fuel' with
    | none =>
      rw [hr'] at h'
      cases h'
    | some r' =>
      cases searchLoop_unique hr hr'
      rw [hr] at h
      rw [hr'] at h'
      exact Option.some_inj.1 (h'.symm.trans h)

/-! ## Starting a log -/

@[simp] theorem syncedCard_emit (e : Event) : (d.emit e).syncedCard = d.syncedCard := rfl
@[simp] theorem logFile_emit (e : Event) : (d.emit e).logFile = d.logFile := rfl
@[simp] theorem logFile_closeDataFile : d.closeDataFile.logFile = d.logFile := rfl

theorem syncedCard_of_none (h : d.dataFile = none) : d.syncedCard = d.card := by
  rw [syncedCard, h]

theorem syncedCard_of_mem {f : OpenFile} (h : d.dataFile = some f) (hf : f.name ∈ d.card) :
    d.syncedCard = d.card.insert f.name f.data := by
  rw [syncedCard, h]
  exact if_pos hf

theorem syncedCard_of_not_mem {f : OpenFile} (h : d.dataFile = some f) (hf : f.name ∉ d.card) :
    d.syncedCard = d.card := by
  rw [syncedCard, h]
  exact if_neg hf

/-- Files that `data_file` is not open on stay as they are. -/
theorem syncedCard_lookup_of_ne {name : Name} (h : ∀ f, d.dataFile = some f → f.name ≠ name) :
    d.syncedCard.lookup name = d.card.lookup name := by
  unfold syncedCard
  split
  · next f hf =>
    split
    · exact Finmap.lookup_insert_of_ne _ (h f hf).symm
    · rfl
  · rfl

/-- Bringing the directory up to date neither creates nor removes files. -/
@[simp] theorem mem_syncedCard {name : Name} : name ∈ d.syncedCard ↔ name ∈ d.card := by
  unfold syncedCard
  split
  · next f hf =>
    split
    · next hm =>
      rw [Finmap.mem_insert]
      exact or_iff_right_of_imp fun h => h ▸ hm
    · rfl
  · rfl

/-- What the card has under the name of the log, once the log before it is closed. -/
def found (d : Device) : Bytes := (d.syncedCard.lookup d.logFile).getD []

/-- The two lines that open a log. -/
def header (config : ConfigManager) (clock : Clock) : Bytes :=
  headerJson config clock ++ headerColumns

/-- The state after `start_log` opened the log. -/
@[simps] def logOpened (clock : Clock) (d : Device) : Device :=
  { d with
    card := d.syncedCard.insert d.logFile (d.found ++ header d.config clock)
    eeprom :=
      { d.eeprom with
        uploaderMaxLog := maxLog d.nextLogFileNumber
        loggerFirstLogNum :=
          if d.firstLogFileNumber = 0 then 1 else d.eeprom.loggerFirstLogNum }
    firstLogFileNumber := if d.firstLogFileNumber = 0 then 1 else d.firstLogFileNumber
    dataFile := some ⟨d.logFile, d.found ++ header d.config clock,
      (d.found ++ header d.config clock).length⟩
    logStartMillis := clock.startMillis
    logEnabled := true
    trace := (if d.logFile ∈ d.card then [] else [.created d.logFile]) ++
      .session d.logFile (d.card.lookup d.logFile) :: d.trace }

/-- The state after `start_log` failed to open the log. -/
@[simps] def logNotOpened (d : Device) : Device :=
  { d with
    card := d.syncedCard
    eeprom := { d.eeprom with uploaderMaxLog := maxLog d.nextLogFileNumber }
    dataFile := none
    trace := .session d.logFile (d.card.lookup d.logFile) :: d.trace }

theorem openLog_fails (h : env.opens = false) : d.openLog env = (false, d.logNotOpened) := by
  simp [openLog, h, logNotOpened, openDataFile, closeDataFile, putMaxLog]

theorem setFirstLog_eq (d : Device) : d.setFirstLog =
    { d with
      firstLogFileNumber := if d.firstLogFileNumber = 0 then 1 else d.firstLogFileNumber
      eeprom :=
        { d.eeprom with
          loggerFirstLogNum :=
            if d.firstLogFileNumber = 0 then 1 else d.eeprom.loggerFirstLogNum } } := by
  unfold setFirstLog
  split <;> rfl

theorem printHeader_eq {f : OpenFile} (h : d.dataFile = some f) (hf : f.AtEnd)
    (hm : f.name ∈ d.card) (clock : Clock) :
    d.printHeader clock =
      { d with
        card := d.card.insert f.name (f.data ++ header d.config clock)
        dataFile := some ⟨f.name, f.data ++ header d.config clock,
          (f.data ++ header d.config clock).length⟩
        logStartMillis := clock.startMillis
        logEnabled := true } := by
  have he : (f.write (headerJson d.config clock)).write headerColumns =
      ⟨f.name, f.data ++ header d.config clock, (f.data ++ header d.config clock).length⟩ := by
    rw [hf.write.write_eq, hf.write_data, header, List.append_assoc]
    rfl
  refine Device.ext ?_ rfl rfl rfl rfl rfl rfl rfl ?_ rfl rfl rfl rfl rfl rfl
  · have hp : ((d.print (headerJson d.config clock)).print headerColumns).dataFile =
        some ⟨f.name, f.data ++ header d.config clock,
          (f.data ++ header d.config clock).length⟩ := by simp [h, he]
    exact syncedCard_of_mem hp hm
  · simp [printHeader, h, he]

theorem openLog_opens (h : env.opens = true) :
    d.openLog env = (true, d.logOpened env.clock) := by
  have hd (n : ℕ) : (putMaxLog n ((d.emit (.session d.logFile
      (d.card.lookup d.logFile))).closeDataFile.openDataFile true)).dataFile =
        some ⟨d.logFile, d.found, d.found.length⟩ := by simp [found]
  rw [openLog, h, if_pos (by simp), printHeader_eq (hd _) rfl, setFirstLog_eq]
  · refine congrArg (Prod.mk true)
      (Device.ext ?_ rfl rfl rfl rfl rfl rfl rfl ?_ rfl rfl rfl rfl rfl ?_)
    · by_cases hm : d.logFile ∈ d.card <;> simp [hm]
    · rfl
    · by_cases hm : d.logFile ∈ d.card <;> simp [hm]
  · by_cases hm : d.logFile ∈ d.card <;> simp [hm]

/-- The ways out of `start_log`. -/
inductive Start (fuel : ℕ) (env : Env) (d : Device) : Bool → Device → Prop
  /-- There is not enough space. -/
  | noSpace {d₁ : Device} :
      checkSdFreeSpace fuel env { d with logEnabled := false } = some (false, d₁) →
      Start fuel env d false d₁
  /-- There is no name. -/
  | noName {d₁ d₂ : Device} :
      checkSdFreeSpace fuel env { d with logEnabled := false } = some (true, d₁) →
      NextLog fuel env d₁ false d₂ → Start fuel env d false d₂
  /-- The file cannot be opened. -/
  | notOpened {d₁ d₂ : Device} :
      checkSdFreeSpace fuel env { d with logEnabled := false } = some (true, d₁) →
      NextLog fuel env d₁ true d₂ → env.opens = false → Start fuel env d false d₂.logNotOpened
  /-- The log is started. -/
  | opened {d₁ d₂ : Device} :
      checkSdFreeSpace fuel env { d with logEnabled := false } = some (true, d₁) →
      NextLog fuel env d₁ true d₂ → env.opens = true →
      Start fuel env d true (d₂.logOpened env.clock)

theorem start_of_startLog (h : d.startLog fuel env = some (b, d')) : Start fuel env d b d' := by
  rw [startLog] at h
  split at h
  · cases h
  · next hc =>
    cases h
    exact .noSpace hc
  · next hc =>
    split at h
    · cases h
    · next hn =>
      cases h
      exact .noName hc (setNextLogFilename_iff.1 hn)
    · next hn =>
      cases ho : env.opens with
      | false =>
        rw [openLog_fails ho] at h
        cases h
        exact .notOpened hc (setNextLogFilename_iff.1 hn) ho
      | true =>
        rw [openLog_opens ho] at h
        cases h
        exact .opened hc (setNextLogFilename_iff.1 hn) ho

theorem startLog_config (h : d.startLog fuel env = some (b, d')) : d'.config = d.config := by
  have hfreed {b : Bool} {e : Device}
      (hc : checkSdFreeSpace fuel env { d with logEnabled := false } = some (b, e)) :
      e.config = d.config := by
    obtain ⟨_, _, _, _, rfl⟩ := checkSdFreeSpace_freed hc
    rfl
  have hnext {b : Bool} {e f : Device} (hn : NextLog fuel env e b f) : f.config = e.config := by
    cases hn <;> rfl
  cases start_of_startLog h with
  | noSpace hc => exact hfreed hc
  | noName hc hn => exact (hnext hn).trans (hfreed hc)
  | notOpened hc hn => exact (hnext hn).trans (hfreed hc)
  | opened hc hn => exact (hnext hn).trans (hfreed hc)

/-- A log that is started in a free space and under a name that is set. -/
theorem startLog_eq {d₁ d₂ : Device}
    (hc : checkSdFreeSpace fuel env { d with logEnabled := false } = some (true, d₁))
    (hn : NextLog fuel env d₁ true d₂) (ho : env.opens = true) :
    d.startLog fuel env = some (true, d₂.logOpened env.clock) := by
  rw [startLog, hc]
  dsimp only
  rw [setNextLogFilename_iff.2 hn]
  exact congrArg some (openLog_opens ho)

/-! ## Flushing, reopening and writing -/

/-- What the functions below change, unless they start a log: the files, the
    write buffer and the trace. -/
def Filed (d d' : Device) : Prop :=
  ∃ card file buffer trace,
    d' = { d with card := card, dataFile := file, writeBuffer := buffer, trace := trace }

theorem Filed.trans {e : Device} (h : Filed d d') (h' : Filed d' e) : Filed d e := by
  obtain ⟨_, _, _, _, rfl⟩ := h
  obtain ⟨_, _, _, _, rfl⟩ := h'
  exact ⟨_, _, _, _, rfl⟩

theorem drainBuffer_eq (d : Device) : d.drainBuffer =
    { d with
      dataFile := d.dataFile.map (·.write d.writeBuffer)
      writeBuffer := []
      trace := if d.writeBuffer ≠ [] ∧ d.dataFile.isSome then .frames d.writeBuffer :: d.trace
               else d.trace } := by
  rw [drainBuffer]
  split
  · next h => simp [printFrames, List.length_pos_iff.1 h]
  · next h =>
    have hb : d.writeBuffer = [] := List.length_eq_zero_iff.1 (Nat.eq_zero_of_not_pos h)
    have hw : d.dataFile.map (·.write []) = d.dataFile := by
      cases d.dataFile with
      | none => rfl
      | some f => simp [OpenFile.write]
    simp [hb, hw, Device.ext_iff]

theorem reopenFile_opens (d : Device) : d.reopenFile true =
    { d with
      card := if d.logFile ∈ d.card then d.syncedCard else d.syncedCard.insert d.logFile []
      dataFile := some (OpenFile.seek ⟨d.logFile, d.found, d.found.length⟩ d.dataFilePosition)
      trace := if d.logFile ∈ d.card then d.trace else .created d.logFile :: d.trace } := by
  by_cases hm : d.logFile ∈ d.card <;>
    simp [reopenFile, hm, found]

theorem mem_reopenFile {name : Name} (h : name ∈ d.card) : name ∈ (d.reopenFile b).card := by
  have hs : name ∈ d.syncedCard := mem_syncedCard.2 h
  have hc : (d.reopenFile b).card = (d.closeDataFile.openDataFile b).card := rfl
  rw [hc, openDataFile_card]
  split
  · exact Finmap.mem_insert.2 (.inr hs)
  · exact hs

theorem openDataFile_named {f : OpenFile} (h : (d.openDataFile b).dataFile = some f) :
    f.name = d.logFile := by
  rw [openDataFile_dataFile] at h
  split at h
  · cases h
    rfl
  · cases h

theorem reopenFile_named {f : OpenFile} (h : (d.reopenFile b).dataFile = some f) :
    f.name = d.logFile := by
  obtain ⟨f, hf, rfl⟩ := Option.map_eq_some_iff.1 h
  rw [OpenFile.seek_name]
  exact openDataFile_named (d := d.closeDataFile) hf

theorem mem_flushSdFile {name : Name} : name ∈ d.flushSdFile.card ↔ name ∈ d.card := by
  rw [flushSdFile, sync_card, mem_syncedCard, drainBuffer_eq]

theorem dataFileSize_of_some {f : OpenFile} (h : d.dataFile = some f) :
    d.dataFileSize = f.data.length := by
  rw [dataFileSize, h]
  rfl

/-- The device with `data_file` open, opened if it was closed. -/
def opened (d : Device) : Device :=
  if d.dataFile.isSome then d else d.openDataFile true

/-- The ways out of `write_sd_line`. -/
inductive Write (env : Env) (line : Bytes) (d : Device) : Device → Prop
  | disabled : d.logEnabled = false → Write env line d d
  /-- The line is buffered, or left out. -/
  | buffered : d.logEnabled = true → d.noWriteFile = true →
      Write env line d (d.bufferLine line)
  | printed : d.logEnabled = true → d.noWriteFile = false →
      (d.opened.printLine line).dataFileSize ≤ d.maxLogSize →
      Write env line d (d.opened.printLine line)
  /-- The line made the file too big, and another log is started. -/
  | rotated {fuel' : ℕ} {b : Bool} {d' : Device} : d.logEnabled = true → d.noWriteFile = false →
      d.maxLogSize < (d.opened.printLine line).dataFileSize →
      (d.opened.printLine line).printEndLogLine.startLog fuel' env = some (b, d') →
      Write env line d d'

theorem drainBuffer_filed (d : Device) : Filed d d.drainBuffer := by
  rw [drainBuffer_eq]
  exact ⟨_, _, _, _, rfl⟩

theorem opened_filed (d : Device) : Filed d d.opened := by
  unfold opened
  split
  · exact ⟨_, _, _, _, rfl⟩
  · exact ⟨_, _, _, _, rfl⟩

theorem printLine_filed (line : Bytes) (d : Device) : Filed d (d.printLine line) :=
  d.drainBuffer_filed.trans ⟨_, _, _, _, rfl⟩

theorem bufferLine_filed (line : Bytes) (d : Device) : Filed d (d.bufferLine line) := by
  unfold bufferLine
  split
  · exact ⟨_, _, _, _, rfl⟩
  · split
    · exact ⟨_, _, _, _, rfl⟩
    · exact ⟨_, _, _, _, rfl⟩

theorem flushSdFile_filed (d : Device) : Filed d d.flushSdFile :=
  d.drainBuffer_filed.trans ⟨_, _, _, _, rfl⟩

theorem reopenFile_filed (b : Bool) (d : Device) : Filed d (d.reopenFile b) :=
  ⟨_, _, _, _, rfl⟩

/-- The relation leaves the size limit alone. -/
theorem Filed.maxLogSize_eq (h : Filed d d') : d'.maxLogSize = d.maxLogSize := by
  obtain ⟨_, _, _, _, rfl⟩ := h
  rfl

theorem opened_of_isSome (h : d.dataFile.isSome) : d.opened = d := if_pos h

/-- A failed opening changes nothing. -/
theorem openDataFile_fails (h : d.dataFile = none) : d.openDataFile false = d := by
  simp [openDataFile, ← h]

theorem Write.of_opened {line : Bytes} (ho : d.dataFile = none) (he : d.logEnabled = true)
    (hb : d.noWriteFile = false) (h : Write env line (d.openDataFile true) d') :
    Write env line d d' := by
  have hd : d.opened = d.openDataFile true := by simp [opened, ho]
  have hd' : (d.openDataFile true).opened = d.openDataFile true := opened_of_isSome rfl
  cases h with
  | disabled he' => exact absurd (he.symm.trans he') (by decide)
  | buffered _ hb' => exact absurd (hb.symm.trans hb') (by decide)
  | printed _ _ hs =>
    rw [hd', ← hd] at hs ⊢
    exact .printed he hb (by rwa [← (opened_filed d).maxLogSize_eq])
  | rotated _ _ hs hst =>
    rw [hd', ← hd] at hs hst
    exact .rotated he hb (by rwa [← (opened_filed d).maxLogSize_eq]) hst

theorem write_of_writeSdLine {opens : ℕ → Bool} {line : Bytes}
    (h : writeSdLine env fuel opens line d = some d') : Write env line d d' := by
  induction fuel generalizing opens d with
  | zero => cases h
  | succ fuel ih =>
    rw [writeSdLine] at h
    -- the branches of `write_sd_line`, in their order
    split at h
    · next he =>
      cases h
      exact .disabled (by simpa using he)
    next he =>
    have he : d.logEnabled = true := by simpa using he
    split at h
    · next hb =>
      cases h
      exact .buffered he hb
    next hb =>
    have hb : d.noWriteFile = false := by simpa using hb
    split at h
    · next ho =>
      have hd : d.opened = d := opened_of_isSome ho
      have hm := (printLine_filed line d).maxLogSize_eq
      dsimp only at h
      split at h
      · next hs =>
        obtain ⟨⟨b, e⟩, hr, rfl⟩ := Option.map_eq_some_iff.1 h
        exact .rotated he hb (by rwa [hd, ← hm]) (by rwa [hd])
      · next hs =>
        cases h
        have hp : Write env line d (d.opened.printLine line) :=
          .printed he hb (by rwa [hd, ← hm, ← not_lt])
        rwa [hd] at hp
    · next ho =>
      have ho : d.dataFile = none := by simpa using ho
      cases hk : opens 0 with
      | false =>
        rw [hk, openDataFile_fails ho] at h
        exact ih h
      | true =>
        -- the file is open in the call that follows
        rw [hk] at h
        exact .of_opened ho he hb (ih h)

/-- A line that is printed and leaves room in the file. -/
theorem writeSdLine_of_le {opens : ℕ → Bool} {line : Bytes} (hf : fuel ≠ 0)
    (he : d.logEnabled = true) (hb : d.noWriteFile = false) (ho : d.dataFile.isSome = true)
    (hs : (d.printLine line).dataFileSize ≤ d.maxLogSize) :
    writeSdLine env fuel opens line d = some (d.printLine line) := by
  obtain ⟨fuel, rfl⟩ := Nat.exists_eq_succ_of_ne_zero hf
  have hm : (d.printLine line).maxLogSize = d.maxLogSize := (printLine_filed line d).maxLogSize_eq
  rw [← hm] at hs
  rw [writeSdLine, he, hb, ho]
  exact if_neg (Nat.not_lt.2 hs)

end Device

end CanInsight
