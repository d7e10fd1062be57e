import CanInsight.Transfers

/-!
# A new log does not continue an old one

`start_log` opens the log file with open-or-create and prints from its end on, so
the header is the first thing in the file only if no file has the name that
`set_next_log_filename` settled on. Of its ways out, one settles on a name
without looking: when the first log does not exist, the card is taken to have
been cleared, and log 1 is used whether it exists or not.

* `NameIsFree`: the condition, on the state in which `set_next_log_filename` is
  entered, under which the name it settles on is free (`NextLog.isFree_iff`);
* `Enters`: the calls of `set_next_log_filename` that an operation makes;
* `allFresh_iff`: over any run, every log was started under a free name if and
  only if the condition held in every call.
-/

namespace CanInsight

open CString

/-- All logs of a trace were started under names that no file had. -/
def AllFresh (trace : List Event) : Prop := ∀ name found, .session name found ∈ trace → found = none

namespace Device

variable {d d' : Device} {fuel : ℕ} {env : Env} {b : Bool}

/-- The device in which the first overwriting names the oldest log. -/
def nameOldest (buf : List Char) (d : Device) : Device :=
  (d.searched buf).setLogFileName d.firstLogFileNumber

/-- When the name `set_next_log_filename` settles on is free: log 1 does not
    exist if it is settled on for want of a first log, and a log that is to be
    overwritten is removed. -/
def NameIsFree (env : Env) (d : Device) : Prop :=
  if d.Shortcut then
    env.noValue = true →
      env.removes (d.setLogFileName d.nextLogFileNumber).logFile = true ∨
        (d.setLogFileName d.nextLogFileNumber).logFile ∉ d.card
  else if d.nameFirst.logFile ∉ d.card then d.resetToOne.logFile ∉ d.card
  else
    ∀ fuel buf, d.nameNext.logFile ∈ d.card → d.search fuel = some (none, buf) →
      d.config.overwriteLogs = true →
      env.removes (d.nameOldest buf).logFile = true ∨ (d.nameOldest buf).logFile ∉ d.card

theorem not_mem_sdRemove {succeeds : Bool} {name : Name} :
    name ∉ (d.sdRemove succeeds name).card ↔ succeeds = true ∨ name ∉ d.card := by
  rw [sdRemove_card]
  by_cases h : succeeds = true ∧ name ∈ d.card
  · rw [if_pos h]
    exact iff_of_true (Finmap.notMem_erase_self) (.inl h.1)
  · rw [if_neg h]
    exact ⟨.inr, fun hs hm => hs.elim (fun hs => h ⟨hs, hm⟩) fun hn => hn hm⟩

theorem not_mem_overwriteFirst (env : Env) (d : Device) :
    (d.overwriteFirst env).logFile ∉ (d.overwriteFirst env).card ↔
      env.removes (d.setLogFileName d.firstLogFileNumber).logFile = true ∨
        (d.setLogFileName d.firstLogFileNumber).logFile ∉ d.card := not_mem_sdRemove

theorem not_mem_overwritten (env : Env) (buf : List Char) (d : Device) :
    ((d.searched buf).overwriteFirst env).logFile ∉ ((d.searched buf).overwriteFirst env).card ↔
      env.removes (d.nameOldest buf).logFile = true ∨ (d.nameOldest buf).logFile ∉ d.card := by
  rw [not_mem_overwriteFirst, searched_card, searched_firstLogFileNumber, nameOldest]

/-- The name settled on is free if and only if the condition holds. -/
theorem NextLog.isFree_iff (h : NextLog fuel env d b d') :
    (b = true → d'.logFile ∉ d'.card) ↔ NameIsFree env d := by
  cases h with
  | shortcut hs =>
    rw [NameIsFree, if_pos hs]
    exact forall_congr' fun _ => not_mem_sdRemove
  | reset hs hf =>
    rw [NameIsFree, if_neg hs, if_pos hf]
    exact ⟨fun h => h rfl, fun h _ => h⟩
  | next hs hf hn =>
    rw [NameIsFree, if_neg hs, if_neg (not_not.2 hf)]
    exact iff_of_true (fun _ => hn) fun _ _ hn' => absurd hn' hn
  | found hs hf hn hm =>
    rw [NameIsFree, if_neg hs, if_neg (not_not.2 hf)]
    refine iff_of_true (fun _ => ?_) fun _ _ _ hm' => ?_
    · rw [logFile, useNumber_logFileName, searched_logFileName, useNumber_card, searched_card]
      exact searchLoop_found hm
    · cases searchLoop_unique hm hm'
  | overwrite hs hf hn hm ho =>
    rw [NameIsFree, if_neg hs, if_neg (not_not.2 hf), not_mem_overwritten]
    refine ⟨fun h _ _ _ hm' _ => ?_, fun h _ => h _ _ hn hm ho⟩
    cases searchLoop_unique hm hm'
    exact h rfl
  | full hs hf hn hm ho =>
    rw [NameIsFree, if_neg hs, if_neg (not_not.2 hf)]
    exact iff_of_true (fun h => absurd h (by decide)) fun _ _ _ _ ho' =>
      absurd (ho.symm.trans ho') (by decide)

/-! ## The logs of a run -/

/-- An operation that records no start of a log keeps the logs fresh, or not. -/
theorem Extends.allFresh_iff {P : Event → Prop}
    (hP : ∀ e, P e → ∀ name found, e ≠ .session name found) (h : Extends P d d') :
    AllFresh d'.trace ↔ AllFresh d.trace := by
  obtain ⟨es, h, he⟩ := h
  rw [h]
  refine ⟨fun hf name found hm => hf name found (List.mem_append_right _ hm),
    fun hf name found hm => ?_⟩
  rcases List.mem_append.1 hm with hm | hm
  · exact absurd rfl (hP _ (he _ hm) name found)
  · exact hf name found hm

theorem isRemoved_ne_session (e : Event) (h : e.IsRemoved) (name : Name) (found : Option Bytes) :
    e ≠ .session name found := by
  rintro rfl
  exact h

theorem allFresh_session {trace : List Event} {name : Name} {found : Option Bytes} :
    AllFresh (.session name found :: trace) ↔ found = none ∧ AllFresh trace := by
  refine ⟨fun h => ⟨h name found List.mem_cons_self, fun n f hm => ?_⟩, fun h n f hm => ?_⟩
  · exact h n f (List.mem_cons_of_mem _ hm)
  rcases List.mem_cons.1 hm with hm | hm
  · cases hm
    exact h.1
  · exact h.2 n f hm

/-- The state in which `start_log` enters `set_next_log_filename`. -/
def EntersStart (env : Env) (d p : Device) : Prop :=
  ∃ fuel, checkSdFreeSpace fuel env { d with logEnabled := false } = some (true, p)

theorem EntersStart.unique {p : Device} (h : EntersStart env d p)
    (h' : checkSdFreeSpace fuel env { d with logEnabled := false } = some (b, d')) :
    b = true ∧ d' = p := by
  obtain ⟨_, h⟩ := h
  cases freeSpaceLoop_unique h h'
  exact ⟨rfl, rfl⟩

theorem checkSdFreeSpace_allFresh_iff
    (h : checkSdFreeSpace fuel env { d with logEnabled := false } = some (b, d')) :
    AllFresh d'.trace ↔ AllFresh d.trace :=
  (checkSdFreeSpace_extends h).allFresh_iff isRemoved_ne_session

/-- The start recorded after a name was settled on is fresh if and only if the
    condition held. -/
theorem session_allFresh_iff {d₁ d₂ : Device}
    (hc : checkSdFreeSpace fuel env { d with logEnabled := false } = some (true, d₁))
    (hn : NextLog fuel env d₁ true d₂) :
    AllFresh (.session d₂.logFile (d₂.card.lookup d₂.logFile) :: d₂.trace) ↔
      AllFresh d.trace ∧ ∀ p, EntersStart env d p → NameIsFree env p := by
  have hf : (∀ p, EntersStart env d p → NameIsFree env p) ↔ NameIsFree env d₁ :=
    ⟨fun h => h d₁ ⟨fuel, hc⟩, fun h p hp => (hp.unique hc).2 ▸ h⟩
  rw [allFresh_session, Finmap.lookup_eq_none, hn.extends.allFresh_iff isRemoved_ne_session,
    checkSdFreeSpace_allFresh_iff hc, hf, ← hn.isFree_iff, and_comm]
  exact and_congr_right fun _ => ⟨fun h _ => h, fun h => h rfl⟩

theorem startLog_allFresh_iff (h : d.startLog fuel env = some (b, d')) :
    AllFresh d'.trace ↔ AllFresh d.trace ∧ ∀ p, EntersStart env d p → NameIsFree env p := by
  cases start_of_startLog h with
  | noSpace hc =>
    rw [checkSdFreeSpace_allFresh_iff hc]
    exact (and_iff_left fun p hp => absurd (hp.unique hc).1 (by decide)).symm
  | noName hc hn =>
    rw [hn.extends.allFresh_iff isRemoved_ne_session, checkSdFreeSpace_allFresh_iff hc]
    refine (and_iff_left fun p hp => ?_).symm
    rw [← (hp.unique hc).2, ← hn.isFree_iff]
    exact fun h => absurd h (by decide)
  | notOpened hc hn => exact session_allFresh_iff hc hn
  | opened hc hn =>
    refine Iff.trans ?_ (session_allFresh_iff hc hn)
    rw [logOpened_trace]
    split
    · exact Iff.rfl
    · refine ⟨fun h n f hm => h n f (List.mem_cons_of_mem _ hm), fun h n f hm => ?_⟩
      rcases List.mem_cons.1 hm with hm | hm
      · cases hm
      · exact h n f hm

/-- The calls of `set_next_log_filename` that an operation makes, with the state
    each is entered in. -/
inductive Enters (d : Device) : Op → Env → Device → Prop
  | startLog {fuel : ℕ} {env : Env} {p : Device} :
      EntersStart env d p → Enters d (.startLog fuel env) env p
  | restartLogging {fuel : ℕ} {env : Env} {p : Device} :
      EntersStart env d p → Enters d (.restartLogging fuel env) env p
  /-- The line makes the file too big. -/
  | writeSdLine {fuel : ℕ} {env : Env} {opens : ℕ → Bool} {line : Bytes} {p : Device} :
      d.logEnabled = true → d.noWriteFile = false →
      d.maxLogSize < (d.opened.printLine line).dataFileSize →
      EntersStart env (d.opened.printLine line).printEndLogLine p →
      Enters d (.writeSdLine fuel env opens line) env p
  /-- Logging is restarted, as the clock was set. -/
  | wifi {w : WifiEnv} {fuel : ℕ} {env : Env} {p : Device} :
      w.connected = true → w.restart = some (fuel, env) →
      EntersStart env (DataUploader.construct d).2 p → Enters d (.wifi w) env p

/-- The condition, for the calls that an operation makes. -/
def NamesFree (d : Device) (op : Op) : Prop := ∀ env p, Enters d op env p → NameIsFree env p

theorem ofWrite_ne_session (e : Event) (h : e.OfWrite) (name : Name) (found : Option Bytes) :
    e ≠ .session name found := by
  rintro rfl
  exact h

theorem ofUpload_ne_session (e : Event) (h : e.OfUpload) (name : Name) (found : Option Bytes) :
    e ≠ .session name found := by
  rintro rfl
  exact h

theorem write_allFresh_iff {opens : ℕ → Bool} {line : Bytes} (h : Write env line d d') :
    AllFresh d'.trace ↔
      AllFresh d.trace ∧ NamesFree d (.writeSdLine fuel env opens line) := by
  have hp := (opened_printLine_extends line d).allFresh_iff ofWrite_ne_session
  cases h with
  | disabled he =>
    refine (and_iff_left fun _ _ hc => ?_).symm
    cases hc with
    | writeSdLine he' => exact absurd (he.symm.trans he') (by decide)
  | buffered he hb =>
    rw [(bufferLine_extends line d).allFresh_iff (by rintro _ rfl _ _ h; cases h)]
    refine (and_iff_left fun _ _ hc => ?_).symm
    cases hc with
    | writeSdLine _ hb' => exact absurd (hb.symm.trans hb') (by decide)
  | printed he hb hs =>
    rw [hp]
    refine (and_iff_left fun _ _ hc => ?_).symm
    cases hc with
    | writeSdLine _ _ hs' => exact absurd hs' (Nat.not_lt.2 hs)
  | rotated he hb hs hst =>
    rw [startLog_allFresh_iff hst]
    refine and_congr hp ⟨fun h _ _ hc => ?_, fun h p hc => h _ _ (.writeSdLine he hb hs hc)⟩
    cases hc with
    | writeSdLine _ _ _ hc => exact h _ hc

theorem wifi_allFresh_iff {w : WifiEnv} (h : d.wifi w = some d') :
    AllFresh d'.trace ↔ AllFresh d.trace ∧ NamesFree d (.wifi w) := by
  cases wifi_of_wifi h with
  | unconnected hc =>
    refine (and_iff_left fun _ _ he => ?_).symm
    cases he with
    | wifi hc' => exact absurd (hc.symm.trans hc') Bool.false_ne_true
  | @uploaded u v e f hc hb hf =>
    have hu : AllFresh d'.trace ↔ AllFresh e.trace := by
      have hx := DataUploader.uploadRounds_extends w.net w.rounds u e
      rw [hf] at hx
      exact hx.allFresh_iff ofUpload_ne_session
    rw [hu]
    cases (constructed_of_beforeUpload hb).2 with
    | kept hr =>
      refine (and_iff_left fun _ _ hc' => ?_).symm
      cases hc' with
      | wifi _ hr' => exact absurd (hr.symm.trans hr') (by simp)
    | @restarted fuel env b e hr hst =>
      rw [startLog_allFresh_iff hst]
      refine and_congr_right fun _ => ⟨fun h _ _ hc' => ?_, fun h p hp => h env p (.wifi hc hr ?_)⟩
      · cases hc' with
        | wifi _ hr' hp =>
          cases hr.symm.trans hr'
          rw [DataUploader.construct_eq] at hp
          exact h _ hp
      · rw [DataUploader.construct_eq]
        exact hp

/-- After an operation, all logs are fresh if and only if they were before, and
    the condition holds in the calls that the operation makes. -/
theorem exec_allFresh_iff {op : Op} (h : d.exec op = some d') :
    AllFresh d'.trace ↔ AllFresh d.trace ∧ NamesFree d op := by
  have hno (he : ∀ env p, ¬ Enters d op env p) (ht : AllFresh d'.trace ↔ AllFresh d.trace) :
      AllFresh d'.trace ↔ AllFresh d.trace ∧ NamesFree d op :=
    ht.trans (and_iff_left fun env p hp => absurd hp (he env p)).symm
  cases op with
  | boot config =>
    cases h
    refine hno (fun _ _ h => by cases h) ?_
    unfold boot
    dsimp only
    split <;> rfl
  | startLog fuel env =>
    obtain ⟨⟨b, e⟩, he, rfl⟩ := Option.map_eq_some_iff.1 h
    refine (startLog_allFresh_iff he).trans (and_congr_right fun _ =>
      ⟨fun h _ p hp => ?_, fun h p hp => h env p (.startLog hp)⟩)
    cases hp with
    | startLog hp => exact h p hp
  | restartLogging fuel env =>
    obtain ⟨⟨b, e⟩, he, rfl⟩ := Option.map_eq_some_iff.1 h
    refine (startLog_allFresh_iff he).trans (and_congr_right fun _ =>
      ⟨fun h _ p hp => ?_, fun h p hp => h env p (.restartLogging hp)⟩)
    cases hp with
    | restartLogging hp => exact h p hp
  | writeSdLine fuel env opens line => exact write_allFresh_iff (write_of_writeSdLine h)
  | flushSdFile =>
    cases h
    exact hno (fun _ _ h => by cases h) ((flushSdFile_extends d).allFresh_iff ofWrite_ne_session)
  | reopenFile succeeds =>
    cases h
    exact hno (fun _ _ h => by cases h)
      ((reopenFile_extends succeeds d).allFresh_iff ofWrite_ne_session)
  | setNoWriteFile b =>
    cases h
    exact hno (fun _ _ h => by cases h) Iff.rfl
  | wifi w => exact wifi_allFresh_iff h

/-- After a run, all logs are fresh if and only if they were before, and the
    condition holds in every step. -/
theorem run_allFresh_iff {ops : List Op} (h : anyOrder.Run Machine.Free d ops d') :
    AllFresh d'.trace ↔ AllFresh d.trace ∧ anyOrder.Run NamesFree d ops d' := by
  induction h with
  | nil s => exact (and_iff_left (.nil s)).symm
  | cons _ hst _ ih =>
    rw [ih, exec_allFresh_iff hst, and_assoc]
    refine and_congr_right fun _ => ⟨fun h => .cons h.1 hst h.2, fun h => ?_⟩
    cases h with
    | cons hg hst' hr =>
      cases hst.symm.trans hst'
      exact ⟨hg, hr⟩

/-- A log that is started under a free name holds its header and nothing else. -/
theorem startLog_header (h : d.startLog fuel env = some (true, d'))
    (hf : ∀ p, EntersStart env d p → NameIsFree env p) :
    d'.dataFile = some ⟨d'.logFile, header d'.config env.clock,
      (header d'.config env.clock).length⟩ := by
  cases start_of_startLog h with
  | @opened d₁ d₂ hc hn =>
    have hm : d₂.logFile ∉ d₂.syncedCard := fun hm =>
      hn.isFree_iff.2 (hf d₁ ⟨fuel, hc⟩) rfl (mem_syncedCard.1 hm)
    have he : d₂.found = [] := by rw [found, Finmap.lookup_eq_none.2 hm]; rfl
    rw [logOpened_dataFile, he, List.nil_append, logFile, logFile, logOpened_logFileName,
      logOpened_config]

/-- Over any run from any card and EEPROM contents, every log was started under
    a name that no file had if and only if the condition held in every call of
    `set_next_log_filename`; where it holds, the header is what the file starts
    with. -/
theorem fresh_logs_iff (card : Card) (eeprom : EEPROM) {ops : List Op}
    (h : anyOrder.Run Machine.Free (initial card eeprom) ops d) :
    ((∀ name found, .session name found ∈ d.trace → found = none) ↔
        anyOrder.Run NamesFree (initial card eeprom) ops d) ∧
      ∀ fuel env d', d.startLog fuel env = some (true, d') →
        (∀ p, EntersStart env d p → NameIsFree env p) →
        d'.dataFile = some ⟨d'.logFile, header d'.config env.clock,
          (header d'.config env.clock).length⟩ := by
  refine ⟨(run_allFresh_iff h).trans (and_iff_right fun _ _ hm => ?_), fun _ _ _ => startLog_header⟩
  exact absurd hm List.not_mem_nil

/-- The first boot of a device, on an empty card. -/
theorem fresh_logs_iff_first_boot :
    ∃ d, anyOrder.Run Machine.Free (initial ∅ ⟨65535, 65535, 65535, 65535⟩)
        [.boot {}, .startLog 1 .roomy] d ∧
      ((∀ name found, .session name found ∈ d.trace → found = none) ↔
        anyOrder.Run NamesFree (initial ∅ ⟨65535, 65535, 65535, 65535⟩)
          [.boot {}, .startLog 1 .roomy] d) ∧
      ∀ fuel env d', d.startLog fuel env = some (true, d') →
        (∀ p, EntersStart env d p → NameIsFree env p) →
        d'.dataFile = some ⟨d'.logFile, header d'.config env.clock,
          (header d'.config env.clock).length⟩ :=
  have h := .cons trivial rfl (.cons trivial rfl (.nil _))
  ⟨_, h, fresh_logs_iff _ _ h⟩

/-- The first boot of a device, on a card with a log 1: it is written on. -/
theorem log_one_reused :
    ∃ d, anyOrder.Run Machine.Free
        (initial (Finmap.singleton (logName 1) ['x']) ⟨65535, 65535, 65535, 65535⟩)
        [.boot {}, .startLog 1 .roomy] d ∧
      .session (logName 1) (some ['x']) ∈ d.trace ∧
      d.dataFile.map (·.data) = some ('x' :: header {} {}) :=
  ⟨_, .cons trivial rfl (.cons trivial rfl (.nil _)), by decide, by decide +kernel⟩

end Device

end CanInsight
