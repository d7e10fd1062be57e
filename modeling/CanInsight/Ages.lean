import CanInsight.NameHistory
import CanInsight.Reboot

/-!
# The ages of the files

The card does not say which of its files is the oldest, but the trace does: it has each file
that came and each that went, after those that were there at first (`filesOf`). Some of them
are logs (`logFilesOf`); `config.txt` is none.

* `Recorded`: the files of the card are those of the trace; what the functions of the logger
  and the uploader do to the card, they also do to the trace;
* `recorded_of_run`: so it is in every run;
* `Quiet.files`: without a removal, files are only added, and the oldest one stays.
-/

namespace CanInsight

open CString

/-- A file came or went. -/
def Event.Counts : Event → Prop
  | created _ | removed _ => True
  | _ => False

/-- The files in the order of their creation, the oldest first, after those that there were
    before. -/
def filesOf (before : List Name) : List Event → List Name
  | [] => before
  | .created name :: trace => filesOf before trace ++ [name]
  | .removed name :: trace => (filesOf before trace).erase name
  | _ :: trace => filesOf before trace

open Classical in
/-- The logs among the files, the oldest first. -/
noncomputable def logFilesOf (before : List Name) (trace : List Event) : List Name :=
  (filesOf before trace).filter fun name => IsLog name

variable {before : List Name} {es trace : List Event}

theorem filesOf_append (h : ∀ e ∈ es, ¬ e.Counts) :
    filesOf before (es ++ trace) = filesOf before trace := by
  induction es with
  | nil => rfl
  | cons e es ih =>
    obtain ⟨he, hes⟩ := List.forall_mem_cons.1 h
    have ih := ih hes
    cases e <;> first | exact absurd trivial he | exact ih

/-- Without a removal, files are only added. -/
theorem exists_filesOf_append (h : ∀ e ∈ es, ¬ e.IsRemoved) :
    ∃ new, filesOf before (es ++ trace) = filesOf before trace ++ new := by
  induction es with
  | nil => exact ⟨[], (List.append_nil _).symm⟩
  | cons e es ih =>
    obtain ⟨he, hes⟩ := List.forall_mem_cons.1 h
    obtain ⟨new, hnew⟩ := ih hes
    cases e with
    | removed => exact absurd trivial he
    | created name =>
      refine ⟨new ++ [name], ?_⟩
      rw [List.cons_append, filesOf, hnew, List.append_assoc]
    | _ => exact ⟨new, hnew⟩

theorem mem_logFilesOf {name : Name} :
    name ∈ logFilesOf before trace ↔ name ∈ filesOf before trace ∧ IsLog name := by
  simp [logFilesOf]

theorem logFilesOf_of_files {trace' : List Event} {new : List Name}
    (h : filesOf before trace' = filesOf before trace ++ new) : ∃ newLogs,
      logFilesOf before trace' = logFilesOf before trace ++ newLogs ∧
        ∀ log, log ∈ newLogs ↔ log ∈ new ∧ IsLog log := by
  classical
  refine ⟨new.filter fun name => IsLog name, ?_, fun log => by simp⟩
  rw [logFilesOf, h, List.filter_append, logFilesOf]

theorem logFilesOf_removed (name : Name) :
    logFilesOf before (.removed name :: trace) = (logFilesOf before trace).erase name := by
  rw [logFilesOf, filesOf, logFilesOf, List.erase_filter]

namespace Device

variable {d d' e : Device} {fuel : ℕ} {env : Env} {b : Bool} {op : Op} {name : Name}

/-- The trace has the files of the card, each of them once. -/
structure Recorded (before : List Name) (d : Device) : Prop where
  nodup : (filesOf before d.trace).Nodup
  mem : ∀ name, name ∈ d.card ↔ name ∈ filesOf before d.trace

/-! ## The steps -/

/-- No file comes or goes. -/
theorem Recorded.of_extends (h : Recorded before d) (hx : Extends (fun e => ¬ e.Counts) d d')
    (hc : ∀ name, name ∈ d'.card ↔ name ∈ d.card) : Recorded before d' := by
  obtain ⟨es, ht, hes⟩ := hx
  have hf : filesOf before d'.trace = filesOf before d.trace := by rw [ht, filesOf_append hes]
  exact ⟨hf ▸ h.nodup, fun name => by rw [hc, hf, h.mem]⟩

theorem Recorded.of_eq (h : Recorded before d) (ht : d'.trace = d.trace)
    (hc : d'.card = d.card) : Recorded before d' :=
  h.of_extends (.of_eq ht) fun name => by rw [hc]

theorem Recorded.emit (h : Recorded before d) {ev : Event} (he : ¬ ev.Counts) :
    Recorded before (d.emit ev) :=
  h.of_extends (.of_cons he rfl) fun _ => Iff.rfl

theorem Recorded.removed (h : Recorded before d) (ht : d'.trace = .removed name :: d.trace)
    (hc : d'.card = d.card.erase name) : Recorded before d' := by
  constructor
  · rw [ht]
    exact h.nodup.erase name
  · intro other
    rw [hc, ht, filesOf, h.nodup.mem_erase_iff, Finmap.mem_erase, h.mem]

theorem Recorded.created (h : Recorded before d) (hm : name ∉ d.card)
    (ht : d'.trace = .created name :: d.trace)
    (hc : ∀ other, other ∈ d'.card ↔ other = name ∨ other ∈ d.card) : Recorded before d' := by
  rw [h.mem] at hm
  constructor
  · rw [ht, filesOf]
    exact List.nodup_append.2 ⟨h.nodup, List.nodup_singleton name,
      fun a ha b hb => ne_of_mem_of_not_mem ha (List.mem_singleton.1 hb ▸ hm)⟩
  · intro other
    rw [hc, ht, filesOf, List.mem_append, List.mem_singleton, h.mem, or_comm]

theorem Recorded.sdRemove (h : Recorded before d) (succeeds : Bool) (name : Name) :
    Recorded before (d.sdRemove succeeds name) := by
  by_cases hr : succeeds ∧ name ∈ d.card
  · exact h.removed (if_pos hr) (if_pos hr)
  · exact h.of_eq (if_neg hr) (if_neg hr)

theorem Recorded.closeDataFile (h : Recorded before d) : Recorded before d.closeDataFile :=
  h.of_extends (.of_eq rfl) fun _ => mem_syncedCard

theorem Recorded.openDataFile (h : Recorded before d) (succeeds : Bool) :
    Recorded before (d.openDataFile succeeds) := by
  by_cases hs : succeeds ∧ d.logFile ∉ d.card
  · refine h.created hs.2 (if_pos hs) fun other => ?_
    rw [openDataFile_card, if_pos hs, Finmap.mem_insert]
  · exact h.of_eq (if_neg hs) (if_neg hs)

theorem Recorded.reopenFile (h : Recorded before d) (succeeds : Bool) :
    Recorded before (d.reopenFile succeeds) :=
  (h.closeDataFile.openDataFile succeeds).of_eq rfl rfl

/-! ## Writing -/

theorem Recorded.drainBuffer (h : Recorded before d) : Recorded before d.drainBuffer := by
  refine h.of_extends ?_ fun _ => by rw [drainBuffer_eq]
  rw [drainBuffer_eq]
  by_cases hf : d.writeBuffer ≠ [] ∧ d.dataFile.isSome
  · exact .of_cons (e := .frames d.writeBuffer) id (if_pos hf)
  · exact .of_eq (if_neg hf)

theorem Recorded.flushSdFile (h : Recorded before d) : Recorded before d.flushSdFile :=
  h.drainBuffer.of_extends (.of_eq rfl) fun _ => mem_syncedCard

theorem Recorded.opened (h : Recorded before d) : Recorded before d.opened := by
  unfold Device.opened
  split
  · exact h
  · exact h.openDataFile true

theorem Recorded.printLine (h : Recorded before d) (line : Bytes) :
    Recorded before (d.printLine line) := by
  refine h.drainBuffer.of_extends ?_ fun _ => Iff.rfl
  by_cases hf : d.drainBuffer.dataFile.isSome
  · exact .of_cons (e := .frames line) id (if_pos hf)
  · exact .of_eq (if_neg hf)

theorem Recorded.bufferLine (h : Recorded before d) (line : Bytes) :
    Recorded before (d.bufferLine line) := by
  unfold Device.bufferLine
  split
  · exact h.emit id
  · split
    · exact h.of_eq rfl rfl
    · exact h

/-! ## Starting a log -/

theorem Recorded.boot (h : Recorded before d) (config : ConfigManager) :
    Recorded before (d.boot config) := by
  rw [boot_eq]
  split
  · exact h.of_eq rfl rfl
  · exact h.of_eq rfl rfl

theorem Recorded.freed (h : Recorded before d) (hc : d.checkSdFreeSpace fuel env = some (b, d')) :
    Recorded before d' := by
  refine (freeSpaceLoop_induct (P := fun _ e => Recorded before e) (fun _ e he _ _ => ?_) h
    hc).elim fun _ h => h
  exact (he.sdRemove _ _).of_eq rfl rfl

theorem Recorded.nextLog (h : Recorded before d) (hn : NextLog fuel env d b d') :
    Recorded before d' := by
  cases hn with
  | shortcut => exact (Recorded.sdRemove (h.of_eq rfl rfl) _ _).of_eq rfl rfl
  | overwrite => exact (Recorded.sdRemove (h.of_eq rfl rfl) _ _).of_eq rfl rfl
  | reset => exact h.of_eq rfl rfl
  | next => exact h.of_eq rfl rfl
  | found => exact h.of_eq rfl rfl
  | full => exact h.of_eq rfl rfl

theorem Recorded.logNotOpened (h : Recorded before d) : Recorded before d.logNotOpened :=
  h.of_extends (.of_cons (e := .session _ _) id rfl) fun _ => mem_syncedCard

theorem Recorded.logOpened (h : Recorded before d) (clock : Clock) :
    Recorded before (d.logOpened clock) := by
  have hsession : Recorded before (d.emit (.session d.logFile (d.card.lookup d.logFile))) :=
    h.emit id
  have hcard (other : Name) :
      other ∈ (d.logOpened clock).card ↔ other = d.logFile ∨ other ∈ d.card := by
    rw [logOpened_card, Finmap.mem_insert, mem_syncedCard]
  by_cases hm : d.logFile ∈ d.card
  · refine hsession.of_extends (.of_eq ?_) fun other => ?_
    · rw [logOpened_trace, if_pos hm]
      rfl
    · rw [hcard]
      exact or_iff_right_of_imp fun h => h ▸ hm
  · refine hsession.created hm ?_ hcard
    rw [logOpened_trace, if_neg hm]
    rfl

theorem Recorded.startLog (h : Recorded before d) (hs : d.startLog fuel env = some (b, d')) :
    Recorded before d' := by
  have hoff : Recorded before { d with logEnabled := false } := h.of_eq rfl rfl
  cases start_of_startLog hs with
  | noSpace hc => exact hoff.freed hc
  | noName hc hn => exact (hoff.freed hc).nextLog hn
  | notOpened hc hn => exact ((hoff.freed hc).nextLog hn).logNotOpened
  | opened hc hn => exact ((hoff.freed hc).nextLog hn).logOpened env.clock

theorem Recorded.restartLogging (h : Recorded before d)
    (hs : d.restartLogging fuel env = some d') : Recorded before d' := by
  obtain ⟨⟨b, e⟩, hst, rfl⟩ := Option.map_eq_some_iff.1 hs
  exact h.startLog hst

/-! ## Uploads -/

theorem ofTransfer_not_counts (ev : Event) (h : ev.OfTransfer) : ¬ ev.Counts := by
  cases ev <;> first | exact id | exact absurd h id

theorem Recorded.acceptUpload (h : Recorded before d) (x : Exchange) (name : Name) :
    Recorded before (d.acceptUpload x name) := by
  unfold Device.acceptUpload
  split
  · exact (h.sdRemove _ _).of_eq rfl rfl
  · exact h

theorem Recorded.uploadFile (h : Recorded before d) (x : Exchange) (name : Name) :
    Recorded before (d.uploadFile x name).2 :=
  uploadFile_induct (fun ev _ he hd => hd.emit (ofTransfer_not_counts ev he))
    (fun _ _ _ hd => hd.of_eq rfl rfl) (fun _ _ hd => (hd.reopenFile _).flushSdFile)
    (fun _ hd => hd.reopenFile _) (fun _ hd _ => (hd.emit id).acceptUpload x name) h

theorem Recorded.increment (h : Recorded before d) (u : DataUploader) :
    Recorded before (u.incrementNextLogToUpload d).2.2 :=
  (h.emit id).of_eq rfl rfl

theorem Recorded.wifi (h : Recorded before d) {w : WifiEnv} (he : d.wifi w = some d') :
    Recorded before d' := by
  have hc : Recorded before (d.putNextToTry d.cursor) := h.of_eq rfl rfl
  cases wifi_of_wifi he with
  | unconnected => exact hc
  | @uploaded u v e f _ hb hu =>
    have hr : Recorded before e := by
      cases (constructed_of_beforeUpload hb).2 with
      | kept => exact hc
      | restarted _ hs => exact hc.startLog hs
    have hf : Recorded before (DataUploader.uploadRounds w.net w.rounds u e).2.2 :=
      DataUploader.uploadRounds_induct (P := fun _ e => Recorded before e)
        (fun name _ _ hd _ => hd.uploadFile _ name) (fun u _ hd => hd.increment u) hr
    rwa [hu] at hf

/-! ## Runs -/

theorem Recorded.exec (h : Recorded before d) (he : d.exec op = some d') : Recorded before d' := by
  cases op with
  | boot config =>
    cases he
    exact h.boot config
  | startLog fuel env =>
    obtain ⟨⟨b, e⟩, hs, rfl⟩ := Option.map_eq_some_iff.1 he
    exact (h.startLog hs).of_eq rfl rfl
  | restartLogging fuel env => exact h.restartLogging he
  | writeSdLine fuel env opens line =>
    cases write_of_writeSdLine he with
    | disabled => exact h
    | buffered => exact h.bufferLine line
    | printed => exact h.opened.printLine line
    | rotated _ _ _ hs =>
      have hend : Recorded before (d.opened.printLine line).printEndLogLine :=
        (h.opened.printLine line).of_eq rfl rfl
      exact hend.startLog hs
  | flushSdFile =>
    cases he
    exact h.flushSdFile
  | reopenFile succeeds =>
    cases he
    exact h.reopenFile succeeds
  | setNoWriteFile b =>
    cases he
    exact h.of_eq rfl rfl
  | wifi w => exact h.wifi he

/-- In every run, the trace has the files of the card, if those that were there before are
    given in the order of their ages. -/
theorem recorded_of_run {card : Card} {eeprom : EEPROM} {ops : List Op}
    (hb : before.Nodup) (hc : ∀ name, name ∈ card ↔ name ∈ before)
    (h : anyOrder.Run Machine.Free (initial card eeprom) ops d) : Recorded before d :=
  h.invariant (P := Recorded before) (fun hs _ he => hs.exec he) ⟨hb, hc⟩

theorem Recorded.mem_logFilesOf_iff (h : Recorded before d) :
    name ∈ logFilesOf before d.trace ↔ name ∈ d.card ∧ IsLog name := by
  rw [mem_logFilesOf, h.mem]

/-- Quiet steps add files. -/
theorem Quiet.files (h : Quiet d d') :
    ∃ new, filesOf before d'.trace = filesOf before d.trace ++ new := by
  obtain ⟨es, ht, hes⟩ := h.events
  rw [ht]
  exact exists_filesOf_append fun e he => (hes e he).2

end Device

end CanInsight
