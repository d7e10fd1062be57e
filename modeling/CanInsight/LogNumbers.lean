import CanInsight.Transfers

/-!
# Log numbers below capacity

On a card that was empty, with `overwrite_logs` off and openings that succeed,
the logs get the numbers 1, 2, 3 and so on: the first start finds no first log
and returns to log 1, the second finds log 1 in use and searches, and all later
ones take the next number.

* `Below k`: the log numbers, in memory and in the EEPROM, and the files of the
  card, after `k` logs were started;
* `Below.startLog`: a start is refused and changes nothing but the flag, or opens
  log `k + 1`;
* `Still`: what the other operations leave as it is; it keeps `Below k`;
* `Below.boot`: a reboot finds the numbers it lost in the EEPROM.
-/

namespace CanInsight

open CString

/-- The number of logs started over a trace. -/
def sessionCount : List Event → ℕ
  | [] => 0
  | .session _ _ :: trace => sessionCount trace + 1
  | _ :: trace => sessionCount trace

/-- The start of a log. -/
def Event.IsSession : Event → Prop
  | session _ _ => True
  | _ => False

variable {es trace : List Event}

theorem sessionCount_append (h : ∀ e ∈ es, ¬ e.IsSession) :
    sessionCount (es ++ trace) = sessionCount trace := by
  induction es with
  | nil => rfl
  | cons e es ih =>
    have he := h e List.mem_cons_self
    have ih := ih fun e h' => h e (List.mem_cons_of_mem _ h')
    cases e <;> first | exact absurd trivial he | exact ih

theorem sessionCount_le_append (es trace : List Event) :
    sessionCount trace ≤ sessionCount (es ++ trace) := by
  induction es with
  | nil => exact le_rfl
  | cons e es ih => cases e <;> first | exact ih | exact Nat.le_succ_of_le ih

namespace Device

variable {d d' e : Device} {fuel k : ℕ} {env : Env} {b : Bool} {P : Event → Prop}

theorem Extends.sessionCount_eq (hP : ∀ e, P e → ¬ e.IsSession) (h : Extends P d d') :
    sessionCount d'.trace = sessionCount d.trace := by
  obtain ⟨es, ht, hes⟩ := h
  rw [ht]
  exact sessionCount_append fun e he => hP e (hes e he)

theorem Extends.sessionCount_le (h : Extends P d d') :
    sessionCount d.trace ≤ sessionCount d'.trace := by
  obtain ⟨es, ht, -⟩ := h
  rw [ht]
  exact sessionCount_le_append es d.trace

theorem logOpened_sessionCount (clock : Clock) (d : Device) :
    sessionCount (d.logOpened clock).trace = sessionCount d.trace + 1 := by
  rw [logOpened_trace]
  split <;> rfl

/-! ## The numbers after `k` logs -/

/-- The next log number after `k` logs: the first log leaves its own. -/
def nextAfter (k : ℕ) : ℕ := if k = 1 then 1 else k + 1

/-- The bound of the uploader after `k` logs. -/
def maxAfter (k : ℕ) : ℕ := if k = 1 then 0 else k

theorem maxLog_nextAfter (k : ℕ) : maxLog (nextAfter k) = maxAfter k := by
  unfold maxLog nextAfter maxAfter
  split <;> simp

/-- The state before any log: no files, and a first log number that the
    constructor accepts. -/
structure Blank (d : Device) : Prop where
  card : d.card = ∅
  file : d.dataFile = none
  first : d.firstLogFileNumber ≤ maxLogNumber

/-- The log numbers, in memory and in the EEPROM, and the files of the card, after
    `k` logs. A file `CAN_000.log` is left out: `reopen_file` creates one if no
    log has been started since the boot. -/
structure Numbered (k : ℕ) (d : Device) : Prop where
  next : d.nextLogFileNumber = nextAfter k
  first : d.firstLogFileNumber = 1
  nextCell : d.eeprom.loggerNextLogNum = nextAfter k
  firstCell : d.eeprom.loggerFirstLogNum = 1
  maxCell : d.eeprom.uploaderMaxLog = maxAfter k
  card : ∀ n, 1 ≤ n → n ≤ maxLogNumber → (logName n ∈ d.card ↔ n ≤ k)

/-- The state below capacity, after `k` logs. -/
structure Below (k : ℕ) (d : Device) : Prop where
  overwriting : d.overwritingOldFiles = false
  name : ∃ m ≤ k, d.logFileName = sprintfNumToLogfileName m defaultLogFileName
  blank : k = 0 → Blank d
  numbered : k ≠ 0 → Numbered k d

theorem Below.canonical (h : Below k d) (hk : k ≤ maxLogNumber) : Canonical d.logFileName := by
  obtain ⟨m, hm, hn⟩ := h.name
  exact ⟨m, hm.trans hk, hn⟩

/-- The device after `set_next_log_filename`, when `k` logs were started before. -/
@[simps] def named (k : ℕ) (d : Device) : Device :=
  { d with
    nextLogFileNumber := nextAfter (k + 1)
    firstLogFileNumber := if k = 0 then 0 else d.firstLogFileNumber
    eeprom :=
      if k = 0 then ⟨1, 0, 1, 0⟩ else { d.eeprom with loggerNextLogNum := nextAfter (k + 1) }
    logFileName := sprintfNumToLogfileName (k + 1) defaultLogFileName }

theorem named_logFile (k : ℕ) (d : Device) : (d.named k).logFile = logName (k + 1) := rfl

theorem Below.not_shortcut (h : Below k d) : ¬ d.Shortcut :=
  fun hs => absurd (h.overwriting.symm.trans hs.1) (by decide)

theorem Below.nameFirst_logFile (h : Below k d) (hk : k < maxLogNumber) (h₀ : k ≠ 0) :
    d.nameFirst.logFile = logName 1 := by
  rw [logFile, nameFirst_logFileName, (h.numbered h₀).first]
  exact (h.canonical hk.le).toText_sprintf (by decide)

/-- The name tried next, once the first log is found. -/
theorem Below.nameNext_eq (h : Below k d) (hk : k < maxLogNumber) (h₀ : k ≠ 0) :
    d.nameNext.nextLogFileNumber = nextAfter k ∧
      d.nameNext.logFileName = sprintfNumToLogfileName (nextAfter k) defaultLogFileName := by
  have hle : nextAfter k ≤ maxLogNumber := by
    unfold nextAfter
    split <;> omega
  have hw : d.wrapNext.nextLogFileNumber = nextAfter k := by
    rw [wrapNext_nextLogFileNumber, (h.numbered h₀).next, if_neg (Nat.not_lt.2 hle)]
  have hcan : Canonical d.nameFirst.logFileName := by
    rw [nameFirst_logFileName, (h.numbered h₀).first]
    exact (h.canonical hk.le).of_sprintf (by decide)
  have hname : d.nameNext.logFileName =
      sprintfNumToLogfileName d.wrapNext.nextLogFileNumber d.nameFirst.logFileName := rfl
  exact ⟨hw, by rw [hname, hw]; exact hcan.sprintf hle⟩

/-- Without a first log, the logger returns to log 1. -/
theorem Below.nextLog_zero (h : Below 0 d) : NextLog fuel env d true (d.named 0) := by
  have hb := h.blank rfl
  have hcan : Canonical d.logFileName := h.canonical (Nat.zero_le _)
  have hr : d.resetToOne = d.named 0 := by
    refine Device.ext rfl rfl rfl rfl rfl rfl rfl rfl rfl ?_ rfl rfl rfl rfl rfl
    exact (hcan.of_sprintf hb.first).sprintf (by decide)
  rw [← hr]
  exact .reset h.not_shortcut (by rw [hb.card]; exact Finmap.notMem_empty)

/-- With log 1 both the first and the next one, the search finds log 2. -/
theorem Below.nextLog_one (h : Below 1 d) (hf : fuel ≠ 0) :
    NextLog fuel env d true (d.named 1) := by
  obtain ⟨fuel, rfl⟩ := Nat.exists_eq_succ_of_ne_zero hf
  have hn := h.numbered (by decide)
  obtain ⟨hnext, hname⟩ := h.nameNext_eq (by decide) (by decide)
  have hbuf : sprintfNumToLogfileName 2 d.nameNext.logFileName =
      sprintfNumToLogfileName 2 defaultLogFileName := by
    rw [hname]
    exact sprintf_succ (by decide)
  have hfree : toText (sprintfNumToLogfileName 2 d.nameNext.logFileName) ∉ d.card := by
    rw [hbuf]
    exact mt (hn.card 2 (by decide) (by decide)).1 (by decide)
  have hsearch : d.search (fuel + 1) =
      some (some 2, sprintfNumToLogfileName 2 d.nameNext.logFileName) := by
    rw [search, hnext, searchLoop]
    exact if_pos hfree
  have hr : (d.searched (sprintfNumToLogfileName 2 d.nameNext.logFileName)).useNumber 2 =
      d.named 1 :=
    Device.ext rfl rfl rfl rfl rfl rfl rfl rfl rfl hbuf rfl rfl rfl rfl rfl
  have hmem : logName 1 ∈ d.card := (hn.card 1 le_rfl (by decide)).2 le_rfl
  rw [← hr]
  refine .found h.not_shortcut ?_ ?_ hsearch
  · rw [h.nameFirst_logFile (by decide) (by decide)]
    exact hmem
  · rw [logFile, hname]
    exact hmem

/-- Later on, the next number is free. -/
theorem Below.nextLog_next (h : Below k d) (hk : k < maxLogNumber) (h₁ : 1 < k) :
    NextLog fuel env d true (d.named k) := by
  have h₀ : k ≠ 0 := Nat.ne_zero_of_lt h₁
  have hn := h.numbered h₀
  obtain ⟨hnext, hname⟩ := h.nameNext_eq hk h₀
  rw [nextAfter, if_neg h₁.ne'] at hnext hname
  have hu : u16 (k + 1 + 1) = nextAfter (k + 1) := by
    rw [nextAfter, if_neg (by omega)]
    exact u16_of_lt (by unfold maxLogNumber at hk; omega)
  have hr : d.nameNext.useNumber d.nameNext.nextLogFileNumber = d.named k := by
    rw [hnext]
    refine Device.ext rfl ?_ rfl rfl hu ?_ rfl rfl rfl hname rfl rfl rfl rfl rfl
    · rw [named_eeprom, if_neg h₀, ← hu]
      rfl
    · rw [named_firstLogFileNumber, if_neg h₀]
      rfl
  rw [← hr]
  refine .next h.not_shortcut ?_ ?_
  · rw [h.nameFirst_logFile hk h₀, hn.card 1 le_rfl (by decide)]
    exact h₁.le
  · rw [logFile, hname]
    exact mt (hn.card (k + 1) (Nat.succ_pos k) hk).1 (by omega)

/-- The next log gets the next number. -/
theorem Below.nextLog (h : Below k d) (hk : k < maxLogNumber) (hf : fuel ≠ 0) :
    NextLog fuel env d true (d.named k) := by
  rcases Nat.lt_trichotomy k 1 with h₁ | rfl | h₁
  · cases Nat.lt_one_iff.1 h₁
    exact h.nextLog_zero
  · exact h.nextLog_one hf
  · exact h.nextLog_next hk h₁

theorem Below.flags (h : Below k d) (enabled timer : Bool) :
    Below k { d with logEnabled := enabled, canLogTimer := timer } where
  overwriting := h.overwriting
  name := h.name
  blank := fun h₀ => ⟨(h.blank h₀).card, (h.blank h₀).file, (h.blank h₀).first⟩
  numbered := fun h₀ =>
    have hn := h.numbered h₀
    ⟨hn.next, hn.first, hn.nextCell, hn.firstCell, hn.maxCell, hn.card⟩

theorem Below.disabled (h : Below k d) : Below k { d with logEnabled := false } :=
  h.flags false d.canLogTimer

/-- A start is refused for lack of space, or opens the next log. -/
theorem Below.startLog (h : Below k d) (hk : k < maxLogNumber)
    (hc : d.config.overwriteLogs = false) (ho : env.opens = true)
    (hs : d.startLog fuel env = some (b, d')) :
    b = false ∧ d' = { d with logEnabled := false } ∨
      b = true ∧ d' = (d.named k).logOpened env.clock := by
  have hfuel {b : Bool} {e : Device}
      (hs : checkSdFreeSpace fuel env { d with logEnabled := false } = some (b, e)) : fuel ≠ 0 := by
    rintro rfl
    cases hs
  have hfreed {b : Bool} {e : Device}
      (hs : checkSdFreeSpace fuel env { d with logEnabled := false } = some (b, e)) :
      e = { d with logEnabled := false } :=
    checkSdFreeSpace_of_not_overwriteLogs (d := { d with logEnabled := false }) hc hs
  have hnext {b : Bool} {e : Device} (hf : fuel ≠ 0)
      (hn : NextLog fuel env { d with logEnabled := false } b e) :
      b = true ∧ e = named k { d with logEnabled := false } := by
    have hn' : NextLog fuel env _ true _ := h.disabled.nextLog hk hf
    cases (setNextLogFilename_iff.2 hn).symm.trans (setNextLogFilename_iff.2 hn')
    exact ⟨rfl, rfl⟩
  cases start_of_startLog hs with
  | noSpace h₁ => exact .inl ⟨rfl, hfreed h₁⟩
  | noName h₁ h₂ =>
    cases hfreed h₁
    cases (hnext (hfuel h₁) h₂).1
  | notOpened _ _ ho' => exact absurd (ho.symm.trans ho') (by decide)
  | opened h₁ h₂ =>
    cases hfreed h₁
    cases (hnext (hfuel h₁) h₂).2
    exact .inr ⟨rfl, rfl⟩

/-- A start with enough space opens the next log. -/
theorem Below.startLog_eq (h : Below k d) (hk : k < maxLogNumber) (hf : fuel ≠ 0)
    (ho : env.opens = true) (hs : minFreeSpace d.config ≤ freeKB env d.card) :
    d.startLog fuel env = some (true, (d.named k).logOpened env.clock) := by
  have hn : NextLog fuel env _ true _ := h.disabled.nextLog hk hf
  have hst := Device.startLog_eq (d := d) (checkSdFreeSpace_of_le hf hs) hn ho
  exact hst

theorem mem_logOpened {name : Name} (clock : Clock) :
    name ∈ (d.logOpened clock).card ↔ name = d.logFile ∨ name ∈ d.card := by
  rw [logOpened_card, Finmap.mem_insert, mem_syncedCard]

theorem Below.logOpened (h : Below k d) (hk : k < maxLogNumber) (clock : Clock) :
    Below (k + 1) ((d.named k).logOpened clock) where
  overwriting := h.overwriting
  name := ⟨k + 1, le_rfl, rfl⟩
  blank := fun h₀ => absurd h₀ k.succ_ne_zero
  numbered := by
    intro _
    -- the first log of all sets the first log number to 1
    refine ⟨rfl, ?_, ?_, ?_, maxLog_nextAfter (k + 1), fun n hn hn' => ?_⟩
    · rcases Nat.eq_zero_or_pos k with rfl | hpos
      · rfl
      · have hf : (d.named k).firstLogFileNumber = 1 := by
          rw [named_firstLogFileNumber, if_neg hpos.ne', (h.numbered hpos.ne').first]
        rw [logOpened_firstLogFileNumber, hf]
        rfl
    · rw [logOpened_eeprom_loggerNextLogNum, named_eeprom]
      rcases Nat.eq_zero_or_pos k with rfl | hpos
      · rfl
      · rw [if_neg hpos.ne']
    · rcases Nat.eq_zero_or_pos k with rfl | hpos
      · rfl
      · rw [logOpened_eeprom_loggerFirstLogNum, named_firstLogFileNumber, named_eeprom,
          if_neg hpos.ne', if_neg hpos.ne', (h.numbered hpos.ne').first]
        exact (h.numbered hpos.ne').firstCell
    · rw [mem_logOpened, named_logFile, logName_eq_iff hn' hk, named_card]
      rcases Nat.eq_zero_or_pos k with rfl | hpos
      · rw [(h.blank rfl).card, or_iff_left Finmap.notMem_empty]
        omega
      · rw [(h.numbered hpos.ne').card n hn hn']
        omega

theorem nextAfter_le (hk : k < maxLogNumber) : nextAfter k ≤ maxLogNumber := by
  unfold nextAfter
  split <;> omega

/-- A reboot finds the numbers it lost in the EEPROM. -/
theorem Below.boot (h : Below k d) (hk : k < maxLogNumber) (config : ConfigManager) :
    Below k (d.boot config) := by
  have hname : ∃ m ≤ k, defaultLogFileName = sprintfNumToLogfileName m defaultLogFileName :=
    ⟨0, Nat.zero_le k, default_eq⟩
  rw [boot_eq]
  split
  · next hr =>
    refine ⟨rfl, hname, fun h₀ => ⟨(h.blank h₀).card, rfl, Nat.zero_le _⟩, fun h₀ => ?_⟩
    -- the numbers of a log that was started are accepted
    have hn := h.numbered h₀
    rw [hn.nextCell, hn.firstCell] at hr
    exact absurd hr (not_or.2 ⟨Nat.not_lt.2 (nextAfter_le hk), by decide⟩)
  · next hr =>
    obtain ⟨-, hfirst⟩ := not_or.1 hr
    refine ⟨rfl, hname, fun h₀ => ⟨(h.blank h₀).card, rfl, Nat.not_lt.1 hfirst⟩, fun h₀ => ?_⟩
    have hn := h.numbered h₀
    exact ⟨hn.nextCell, hn.firstCell, hn.nextCell, hn.firstCell, hn.maxCell, hn.card⟩

/-! ## Operations that start no log -/

/-- The configuration and the log numbers stay, in memory and in the EEPROM, logging
    stays enabled or not, and no file but that of the log is created. -/
structure Still (d d' : Device) : Prop where
  config : d'.config = d.config
  enabled : d'.logEnabled = d.logEnabled
  next : d'.nextLogFileNumber = d.nextLogFileNumber
  first : d'.firstLogFileNumber = d.firstLogFileNumber
  overwriting : d'.overwritingOldFiles = d.overwritingOldFiles
  name : d'.logFileName = d.logFileName
  nextCell : d'.eeprom.loggerNextLogNum = d.eeprom.loggerNextLogNum
  firstCell : d'.eeprom.loggerFirstLogNum = d.eeprom.loggerFirstLogNum
  maxCell : d'.eeprom.uploaderMaxLog = d.eeprom.uploaderMaxLog
  kept : ∀ name ∈ d.card, name ∈ d'.card
  added : ∀ name ∈ d'.card, name ∈ d.card ∨ name = d.logFile

theorem Still.of_filed (h : Filed d d') (hk : ∀ name ∈ d.card, name ∈ d'.card)
    (ha : ∀ name ∈ d'.card, name ∈ d.card ∨ name = d.logFile) : Still d d' := by
  obtain ⟨_, _, _, _, rfl⟩ := h
  exact ⟨rfl, rfl, rfl, rfl, rfl, rfl, rfl, rfl, rfl, hk, ha⟩

theorem Still.refl (d : Device) : Still d d :=
  .of_filed ⟨_, _, _, _, rfl⟩ (fun _ => id) fun _ => .inl

theorem Still.trans (h : Still d e) (h' : Still e d') : Still d d' where
  config := h'.config.trans h.config
  enabled := h'.enabled.trans h.enabled
  next := h'.next.trans h.next
  first := h'.first.trans h.first
  overwriting := h'.overwriting.trans h.overwriting
  name := h'.name.trans h.name
  nextCell := h'.nextCell.trans h.nextCell
  firstCell := h'.firstCell.trans h.firstCell
  maxCell := h'.maxCell.trans h.maxCell
  kept := fun name hm => h'.kept name (h.kept name hm)
  added := by
    intro name hm
    rcases h'.added name hm with hm | rfl
    · exact h.added name hm
    · exact .inr (congrArg toText h.name)

/-- Below capacity, the numbers still are those after `k` logs. -/
theorem Below.still (h : Below k d) (h₀ : k ≠ 0) (hk : k ≤ maxLogNumber) (hs : Still d d') :
    Below k d' where
  overwriting := hs.overwriting.trans h.overwriting
  name := by
    rw [hs.name]
    exact h.name
  blank := fun h₀' => absurd h₀' h₀
  numbered := by
    intro _
    have hn := h.numbered h₀
    refine ⟨hs.next.trans hn.next, hs.first.trans hn.first, hs.nextCell.trans hn.nextCell,
      hs.firstCell.trans hn.firstCell, hs.maxCell.trans hn.maxCell, fun n h₁ h₂ => ?_⟩
    refine Iff.trans ⟨fun hm => ?_, hs.kept _⟩ (hn.card n h₁ h₂)
    rcases hs.added _ hm with hm | hm
    · exact hm
    · obtain ⟨m, hmk, hname⟩ := h.name
      rw [logFile, hname] at hm
      cases logName_inj h₂ (hmk.trans hk) hm
      exact (hn.card n h₁ h₂).2 hmk

theorem openDataFile_still (b : Bool) (d : Device) : Still d (d.openDataFile b) := by
  refine .of_filed ⟨_, _, _, _, rfl⟩ (fun name hm => ?_) fun name hm => ?_
  · rw [openDataFile_card]
    split
    · exact Finmap.mem_insert.2 (.inr hm)
    · exact hm
  · rw [openDataFile_card] at hm
    split at hm
    · exact (Finmap.mem_insert.1 hm).symm
    · exact .inl hm

theorem drainBuffer_card (d : Device) : d.drainBuffer.card = d.card := by
  rw [drainBuffer_eq]

theorem flushSdFile_still (d : Device) : Still d d.flushSdFile :=
  .of_filed (flushSdFile_filed d) (fun _ => mem_flushSdFile.2)
    fun _ hm => .inl (mem_flushSdFile.1 hm)

theorem printLine_still (line : Bytes) (d : Device) : Still d (d.printLine line) := by
  have hc : (d.printLine line).card = d.card := drainBuffer_card d
  exact .of_filed (printLine_filed line d) (fun _ hm => hc ▸ hm) fun _ hm => .inl (hc ▸ hm)

theorem bufferLine_still (line : Bytes) (d : Device) : Still d (d.bufferLine line) := by
  have hc : (d.bufferLine line).card = d.card := by
    unfold bufferLine
    split
    · rfl
    · split <;> rfl
  exact .of_filed (bufferLine_filed line d) (fun _ hm => hc ▸ hm) fun _ hm => .inl (hc ▸ hm)

theorem opened_still (d : Device) : Still d d.opened := by
  unfold opened
  split
  · exact .refl d
  · exact openDataFile_still true d

theorem reopenFile_still (b : Bool) (d : Device) : Still d (d.reopenFile b) := by
  have hc : Still d d.closeDataFile :=
    .of_filed ⟨_, _, _, _, rfl⟩ (fun _ => mem_syncedCard.2) fun _ hm => .inl (mem_syncedCard.1 hm)
  have hs : Still (d.closeDataFile.openDataFile b) (d.reopenFile b) :=
    .of_filed ⟨_, _, _, _, rfl⟩ (fun _ => id) fun _ => .inl
  exact (hc.trans (openDataFile_still b _)).trans hs

theorem emit_still (ev : Event) (d : Device) : Still d (d.emit ev) :=
  .of_filed ⟨_, _, _, _, rfl⟩ (fun _ => id) fun _ => .inl

theorem flags_still (timer noWrite : Bool) (d : Device) :
    Still d { d with canLogTimer := timer, noWriteFile := noWrite } :=
  ⟨rfl, rfl, rfl, rfl, rfl, rfl, rfl, rfl, rfl, fun _ => id, fun _ => .inl⟩

theorem putNextToTry_still (n : ℕ) (d : Device) : Still d (d.putNextToTry n) :=
  ⟨rfl, rfl, rfl, rfl, rfl, rfl, rfl, rfl, rfl, fun _ => id, fun _ => .inl⟩

/-- A line that is written starts no log, or rotates. -/
theorem Write.still {line : Bytes} (h : Write env line d d') :
    Still d d' ∨
      ∃ fuel b e, Still d e ∧ e.startLog fuel env = some (b, d') := by
  cases h with
  | disabled => exact .inl (.refl d)
  | buffered => exact .inl (bufferLine_still line d)
  | printed => exact .inl ((opened_still d).trans (printLine_still line _))
  | rotated _ _ _ hs =>
    have hp : Still (d.opened.printLine line) (d.opened.printLine line).printEndLogLine :=
      .of_filed ⟨_, _, _, _, rfl⟩ (fun _ => id) fun _ => .inl
    exact .inr ⟨_, _, _, ((opened_still d).trans (printLine_still line _)).trans hp, hs⟩

/-- An upload that deletes nothing. -/
theorem uploadFile_still {x : Exchange} {name : Name} (h : d.config.deleteUploadedLogs = false) :
    Still d (d.uploadFile x name).2 := by
  refine uploadFile_induct (P := Still d) (fun ev e _ he => he.trans (emit_still ev e))
    (fun timer noWrite e he => he.trans (flags_still timer noWrite e)) (fun k e he => ?_)
    (fun e he => ?_) (fun e he _ => ?_) (.refl d)
  · exact he.trans ((reopenFile_still _ e).trans (flushSdFile_still _))
  · exact he.trans (reopenFile_still _ e)
  · have ha : (e.emit (.postAnswered name x.response)).acceptUpload x name =
        e.emit (.postAnswered name x.response) := by
      rw [acceptUpload, emit_config, he.config, h]
      rfl
    rw [ha]
    exact he.trans (emit_still _ e)

end Device

/-! ## A full card -/

namespace Device

variable {k : ℕ} {d : Device} {overwrite : Bool}

/-- The state below capacity of a device that is configured for no more than the
    overwriting, with no other file on the card. -/
structure Filling (overwrite : Bool) (k : ℕ) (d : Device) : Prop extends Below k d where
  config : d.config = { overwriteLogs := overwrite }
  zero : logName 0 ∉ d.card

theorem Filling.enough (h : Filling overwrite k d) :
    minFreeSpace d.config ≤ freeKB .roomy d.card := by
  have hm : minFreeSpace { overwriteLogs := overwrite } = 1000000000 / 1000 * 3 / 2 := rfl
  have hf : freeKB .roomy d.card = 3200000000 := by simp [freeKB, Env.roomy, u32]
  rw [h.config, hm, hf]
  decide

theorem Filling.startLog (h : Filling overwrite k d) (hk : k < maxLogNumber) :
    ∃ e, d.startLog 1 .roomy = some (true, e) ∧ Filling overwrite (k + 1) e := by
  refine ⟨_, h.toBelow.startLog_eq hk one_ne_zero rfl h.enough, h.toBelow.logOpened hk _,
    h.config, ?_⟩
  rw [mem_logOpened, named_logFile, logName_eq_iff (Nat.zero_le _) hk]
  exact not_or.2 ⟨(Nat.succ_ne_zero k).symm, h.zero⟩

end Device

/-- From an empty card, `k + 1` logs are started one after the other. -/
theorem exists_filling (overwrite : Bool) {k : ℕ} (hk : k < maxLogNumber) :
    ∃ s, program.Run Machine.Free (.initial ∅ ⟨1, 0, 1, 0⟩)
        ([.boot { overwriteLogs := overwrite }, .startLog 1 .roomy] ++
          List.replicate k (.restartLogging 1 .roomy)) s ∧
      (s.phase = .started ∨ s.phase = .looping) ∧ s.device.Filling overwrite (k + 1) := by
  induction k with
  | zero =>
    have h₀ : Device.Filling overwrite 0
        ((Device.initial ∅ ⟨1, 0, 1, 0⟩).boot { overwriteLogs := overwrite }) :=
      ⟨⟨rfl, ⟨0, le_rfl, default_eq⟩, fun _ => ⟨rfl, rfl, Nat.zero_le _⟩, fun h => absurd rfl h⟩,
        rfl, Finmap.notMem_empty⟩
    obtain ⟨e, he, hf⟩ := h₀.startLog (by decide)
    have hx : ((Device.initial ∅ ⟨1, 0, 1, 0⟩).boot { overwriteLogs := overwrite }).exec
        (.startLog 1 .roomy) = some { e with canLogTimer := true } := by
      rw [Device.exec, he]
      rfl
    refine ⟨_, .cons trivial rfl (.cons trivial (program_step rfl hx) (.nil _)), .inl rfl, ?_⟩
    exact ⟨hf.toBelow.flags e.logEnabled true, hf.config, hf.zero⟩
  | succ k ih =>
    obtain ⟨⟨p, d⟩, hr, hp, hf⟩ := ih (Nat.lt_of_succ_lt hk)
    obtain ⟨e, he, hf'⟩ := hf.startLog hk
    have hx : d.exec (.restartLogging 1 .roomy) = some e := by
      rw [Device.exec, Device.restartLogging, he]
      rfl
    refine ⟨⟨.looping, e⟩, ?_, .inr rfl, hf'⟩
    rw [List.replicate_succ', ← List.append_assoc]
    refine hr.append (.single trivial (program_step ?_ hx))
    rcases hp with rfl | rfl <;> rfl

end CanInsight
