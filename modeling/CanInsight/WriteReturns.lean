import CanInsight.FreeSpaceTest
import CanInsight.Selection

/-!
# Whether a line is ever written

`write_sd_line` opens the log if no file is open and calls itself, without a look at whether
the opening succeeded; and once the file is too big, it waits for `start_log`, whose two
loops need not end.

* `StartEnds`: room can be made, and then the search for a name ends;
* `startLog_returns_iff`: this is what `start_log` needs to return;
* `returns_closed_iff`: with no file open, the recursion ends if and only if an opening
  succeeds at some time;
* `writeSdLine_returns_iff`: when `write_sd_line` returns.
-/

namespace CanInsight

open CString

namespace Device

variable {env : Env} {opens : ℕ → Bool} {line : Bytes} {d e p : Device} {k fuel : ℕ}

/-- The device without the first `k` logs. -/
def withoutLogs (env : Env) (k : ℕ) (d : Device) : Device :=
  { d with
    card := withoutFiles env.removes d.card (namesToDelete d.firstLogFileNumber k)
    firstLogFileNumber := nextNumber^[k] d.firstLogFileNumber }

/-- If logs may be deleted, they make room at some time; and once there is room, the shortcut
    is taken, or the search for a name ends. -/
structure StartEnds (env : Env) (d : Device) : Prop where
  room : d.config.overwriteLogs = true →
    ∃ k, RoomWithout env d (namesToDelete d.firstLogFileNumber k)
  name : ∀ k, FirstRoom env d k →
    (d.withoutLogs env k).Shortcut ∨ (d.withoutLogs env k).SearchEnds

/-- `write_sd_line` returns. -/
def Returns (env : Env) (opens : ℕ → Bool) (line : Bytes) (d : Device) : Prop :=
  ∃ fuel e, writeSdLine env fuel opens line d = some e

/-! ## The start of a log -/

theorem exists_firstRoom (ho : d.config.overwriteLogs = true)
    (h : RoomWithout env d (namesToDelete d.firstLogFileNumber k)) : ∃ k, FirstRoom env d k := by
  have hex : ∃ k, RoomWithout env d (namesToDelete d.firstLogFileNumber k) := ⟨k, h⟩
  exact ⟨Nat.find hex, .inr ho, Nat.find_spec hex, fun j hj => Nat.find_min hex hj⟩

/-- `set_next_log_filename` is entered on the first card that has room. -/
theorem entersStart_iff :
    EntersStart env d p ↔
      ∃ k, FirstRoom env d k ∧ p = deletions env k { d with logEnabled := false } := by
  constructor
  · rintro ⟨fuel, h⟩
    exact firstRoom_of_checkSdFreeSpace h
  · rintro ⟨k, hk, rfl⟩
    exact ⟨k + 1, checkSdFreeSpace_of_firstRoom (d := { d with logEnabled := false }) hk⟩

theorem setNextLogFilename_returns_iff (env : Env) (p : Device) :
    (∃ fuel r, p.setNextLogFilename fuel env = some r) ↔ p.Shortcut ∨ p.SearchEnds := by
  by_cases hs : p.Shortcut
  · exact iff_of_true ⟨0, _, setNextLogFilename_iff.2 (.shortcut hs)⟩ (.inl hs)
  · rw [exists_setNextLogFilename_iff env hs, or_iff_right hs]

/-- The choice of a name depends on the card and the first number that the deletions leave. -/
theorem deletions_ends_iff (env : Env) (k : ℕ) (d : Device) :
    (d.deletions env k).Shortcut ∨ (d.deletions env k).SearchEnds ↔
      (d.withoutLogs env k).Shortcut ∨ (d.withoutLogs env k).SearchEnds := by
  have hcard := deletions_card env k d
  have hfirst := deletions_firstLogFileNumber env k d
  obtain ⟨card, first, cell, trace, he⟩ := deletions_freed env k d
  rw [he] at hcard hfirst ⊢
  rw [withoutLogs, ← hcard, ← hfirst]
  exact Iff.rfl

theorem startLog_returns_iff (env : Env) (d : Device) :
    (∃ fuel r, d.startLog fuel env = some r) ↔ StartEnds env d := by
  have hends (k : ℕ) :
      (∃ fuel r, (deletions env k { d with logEnabled := false }).setNextLogFilename fuel env =
        some r) ↔ (d.withoutLogs env k).Shortcut ∨ (d.withoutLogs env k).SearchEnds :=
    (setNextLogFilename_returns_iff env _).trans (deletions_ends_iff env k _)
  constructor
  · rintro ⟨fuel, ⟨b, e⟩, h⟩
    have hspace : ∃ r, checkSdFreeSpace fuel env { d with logEnabled := false } = some r := by
      cases start_of_startLog h with
      | noSpace hc => exact ⟨_, hc⟩
      | noName hc => exact ⟨_, hc⟩
      | notOpened hc => exact ⟨_, hc⟩
      | opened hc => exact ⟨_, hc⟩
    refine ⟨fun ho => ?_, fun k hk => (hends k).1 ?_⟩
    · exact (exists_checkSdFreeSpace_iff (d := { d with logEnabled := false }) env ho).1
        ⟨fuel, hspace⟩
    · have hp : EntersStart env d _ := entersStart_iff.2 ⟨k, hk, rfl⟩
      cases start_of_startLog h with
      | noSpace hc => exact absurd (hp.unique hc).1 (by decide)
      | noName hc hn | notOpened hc hn | opened hc hn =>
        obtain rfl := (hp.unique hc).2
        exact ⟨fuel, _, setNextLogFilename_iff.2 hn⟩
  · rintro ⟨hroom, hname⟩
    by_cases hk : ∃ k, FirstRoom env d k
    · obtain ⟨k, hk⟩ := hk
      obtain ⟨fuel, ⟨b, e⟩, hn⟩ := (hends k).2 (hname k hk)
      obtain ⟨fuel, hs⟩ :=
        exists_startLog (entersStart_iff.2 ⟨k, hk, rfl⟩) (setNextLogFilename_iff.1 hn)
      exact ⟨fuel, _, hs⟩
    · -- there is no room, and no log may be deleted
      cases ho : d.config.overwriteLogs with
      | true =>
        obtain ⟨k, hr⟩ := hroom ho
        exact absurd (exists_firstRoom ho hr) hk
      | false =>
        have hc : Cramped env d := by
          by_contra hc
          exact hk ⟨0, .inl rfl, Nat.not_lt.1 hc, fun j hj => absurd hj j.not_lt_zero⟩
        refine ⟨1, (false, { d with logEnabled := false }), ?_⟩
        have hcheck : checkSdFreeSpace 1 env { d with logEnabled := false } =
            some (false, { d with logEnabled := false }) := by
          rw [checkSdFreeSpace, freeSpaceLoop, ho]
          exact if_pos hc
        rw [startLog, hcheck]

/-- What was printed to the old log does not matter for the start of a new one. -/
theorem startEnds_printLine_iff (line : Bytes) :
    StartEnds env (d.printLine line).printEndLogLine ↔ StartEnds env d := by
  rw [printLine, drainBuffer_eq]
  exact ⟨fun h => ⟨h.room, h.name⟩, fun h => ⟨h.room, h.name⟩⟩

/-! ## The recursion -/

theorem writeSdLine_open (he : d.logEnabled = true) (hw : d.noWriteFile = false)
    (hf : d.dataFile.isSome = true) :
    writeSdLine env (fuel + 1) opens line d =
      if d.maxLogSize < (d.printLine line).dataFileSize then
        (d.printLine line).printEndLogLine.restartLogging fuel env
      else some (d.printLine line) := by
  have hm := (printLine_filed line d).maxLogSize_eq
  rw [writeSdLine, he, hw, hf, ← hm]
  rfl

theorem writeSdLine_closed (he : d.logEnabled = true) (hw : d.noWriteFile = false)
    (hf : d.dataFile = none) :
    writeSdLine env (fuel + 1) opens line d =
      writeSdLine env fuel (fun k => opens (k + 1)) line (d.openDataFile (opens 0)) := by
  rw [writeSdLine, he, hw, hf]
  rfl

/-- With a file open, nothing is opened, but another log may be started. -/
theorem returns_open_iff (he : d.logEnabled = true) (hw : d.noWriteFile = false)
    (hf : d.dataFile.isSome = true) :
    Returns env opens line d ↔
      (d.maxLogSize < (d.printLine line).dataFileSize → StartEnds env d) := by
  rw [← startEnds_printLine_iff line, ← startLog_returns_iff]
  constructor
  · rintro ⟨fuel, e, h⟩ hs
    cases fuel with
    | zero => cases h
    | succ fuel =>
      rw [writeSdLine_open he hw hf, if_pos hs] at h
      obtain ⟨r, hr, -⟩ := Option.map_eq_some_iff.1 h
      exact ⟨fuel, r, hr⟩
  · intro h
    by_cases hs : d.maxLogSize < (d.printLine line).dataFileSize
    · obtain ⟨fuel, r, hr⟩ := h hs
      refine ⟨fuel + 1, r.2, ?_⟩
      rw [writeSdLine_open he hw hf, if_pos hs, restartLogging, hr]
      rfl
    · refine ⟨1, d.printLine line, ?_⟩
      rw [writeSdLine_open he hw hf, if_neg hs]

/-- With no file open, one is opened, or not, and the same is done again. -/
theorem returns_closed_step (opens : ℕ → Bool) (he : d.logEnabled = true)
    (hw : d.noWriteFile = false) (hf : d.dataFile = none) :
    Returns env opens line d ↔
      Returns env (fun k => opens (k + 1)) line (d.openDataFile (opens 0)) := by
  constructor
  · rintro ⟨fuel, e, h⟩
    cases fuel with
    | zero => cases h
    | succ fuel =>
      rw [writeSdLine_closed he hw hf] at h
      exact ⟨fuel, e, h⟩
  · rintro ⟨fuel, e, h⟩
    refine ⟨fuel + 1, e, ?_⟩
    rw [writeSdLine_closed he hw hf, h]

/-- With no file open, the line is written once an opening succeeds, and only then. -/
theorem returns_closed_iff (opens' : ℕ → Bool) (he : d.logEnabled = true)
    (hw : d.noWriteFile = false) (hf : d.dataFile = none) :
    Returns env opens line d ↔
      (∃ k, opens k = true) ∧ Returns env opens' line (d.openDataFile true) := by
  have hopen (opens : ℕ → Bool) : Returns env opens line (d.openDataFile true) ↔
      Returns env opens' line (d.openDataFile true) := by
    have hf' : (d.openDataFile true).dataFile.isSome = true := rfl
    rw [returns_open_iff (d := d.openDataFile true) he hw hf',
      returns_open_iff (d := d.openDataFile true) he hw hf']
  constructor
  · rintro ⟨fuel, e, h⟩
    -- the induction is on the openings tried, a failed one leaving the device as it was
    induction fuel generalizing opens with
    | zero => cases h
    | succ fuel ih =>
      rw [writeSdLine_closed he hw hf] at h
      cases hk : opens 0 with
      | true =>
        rw [hk] at h
        exact ⟨⟨0, hk⟩, (hopen _).1 ⟨fuel, e, h⟩⟩
      | false =>
        rw [hk, openDataFile_fails hf] at h
        obtain ⟨⟨k, hk⟩, hr⟩ := ih h
        exact ⟨⟨k + 1, hk⟩, hr⟩
  · rintro ⟨⟨k, hk⟩, hr⟩
    -- the induction is on the number of openings that fail at first
    induction k generalizing opens with
    | zero =>
      rw [returns_closed_step opens he hw hf, hk]
      exact (hopen _).2 hr
    | succ k ih =>
      rw [returns_closed_step opens he hw hf]
      cases opens 0 with
      | true => exact (hopen _).2 hr
      | false =>
        rw [openDataFile_fails hf]
        exact ih hk

/-- `write_sd_line` returns if and only if the line is not printed, or a file is open or is
    opened at some time, and the start of another log returns if it comes to it. -/
theorem writeSdLine_returns_iff (env : Env) (opens : ℕ → Bool) (line : Bytes) (d : Device) :
    Returns env opens line d ↔
      (d.logEnabled = true → d.noWriteFile = false →
        (d.dataFile.isSome = true ∨ ∃ k, opens k = true) ∧
          (d.maxLogSize < (d.opened.printLine line).dataFileSize → StartEnds env d.opened)) := by
  cases he : d.logEnabled with
  | false =>
    refine iff_of_true ⟨1, d, ?_⟩ fun h => absurd h (by decide)
    rw [writeSdLine, he]
    rfl
  | true =>
    cases hw : d.noWriteFile with
    | true =>
      refine iff_of_true ⟨1, d.bufferLine line, ?_⟩ fun _ h => absurd h (by decide)
      rw [writeSdLine, he, hw]
      rfl
    | false =>
      simp only [forall_const]
      cases hf : d.dataFile with
      | some f =>
        have hf' : d.dataFile.isSome = true := by rw [hf]; rfl
        rw [returns_open_iff he hw hf', opened_of_isSome hf']
        exact (and_iff_right (.inl rfl)).symm
      | none =>
        have hd : d.opened = d.openDataFile true := by
          rw [opened, hf]
          rfl
        rw [returns_closed_iff opens he hw hf, hd,
          returns_open_iff (d := d.openDataFile true) he hw rfl]
        exact and_congr_left' (or_iff_right (by decide)).symm

/-! ## A log that is not reopened -/

/-- The server takes the files, but the log cannot be reopened after that. -/
def notReopening : WifiEnv where
  net _ := { getStatus := 404, reopensAtEnd := false }
  rounds := 2

/-- Two boots, with a log each, and the upload of the first log. -/
def notReopened : List Op :=
  [.boot {}, .startLog 1 .roomy, .boot {}, .startLog 1 .roomy, .wifi notReopening]

theorem exists_notReopened :
    ∃ s, program.Run Machine.Free (.initial ∅ ⟨1, 0, 1, 0⟩) notReopened s ∧
      s.device.logEnabled = true ∧ s.device.noWriteFile = false ∧ s.device.dataFile = none := by
  obtain ⟨s, hrun, hs⟩ : ∃ s, program.Run Machine.Free (.initial ∅ ⟨1, 0, 1, 0⟩)
      (notReopened.take 4) s ∧ (program.step s (.wifi notReopening)).map
        (fun t => (t.device.logEnabled, t.device.noWriteFile, t.device.dataFile.isNone)) =
          some (true, false, true) :=
    ⟨_, .cons trivial rfl (.cons trivial rfl (.cons trivial rfl (.cons trivial rfl (.nil _)))),
      by decide +kernel⟩
  obtain ⟨t, ht, he⟩ := Option.map_eq_some_iff.1 hs
  simp only [Prod.mk.injEq] at he
  obtain ⟨he, hw, hf⟩ := he
  exact ⟨t, hrun.append (.single trivial ht), he, hw, Option.isNone_iff_eq_none.1 hf⟩

/-- The card is removed: `write_sd_line` calls itself for ever. -/
theorem never_returns_without_card :
    ∃ s, program.Run Machine.Free (.initial ∅ ⟨1, 0, 1, 0⟩) notReopened s ∧
      ∀ env line, ¬ Returns env (fun _ => false) line s.device := by
  obtain ⟨s, hrun, he, hw, hf⟩ := exists_notReopened
  refine ⟨s, hrun, fun env line h => ?_⟩
  obtain ⟨⟨k, hk⟩, -⟩ := (returns_closed_iff (fun _ => false) he hw hf).1 h
  cases hk

end Device

end CanInsight
