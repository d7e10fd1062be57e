import CanInsight.Ages
import CanInsight.LoggingMode
import CanInsight.OtherFiles

/-!
# The deletion of uploaded logs

When the server accepted a log, `upload_file` deletes it and moves the first log number on by
one, whichever log it was.

* `FirstOldest`: the first log number, in memory and in the EEPROM, is that of the oldest log,
  whatever other files there are;
* `KeepsOldest`: if a call of `upload_file` is accepted, it is for the oldest log, which can be
  deleted, and the next oldest log has the next number;
* `round_firstOldest_iff`: what a call keeps;
* `firstOldest_iff`: `upload_data` keeps the first log number the oldest after each round, if
  and only if all its calls do.
-/

namespace CanInsight

open CString

/-- The number is that of the oldest log, if there is a log. -/
structure NamesOldest (logs : List Name) (n : ℕ) : Prop where
  pos : 1 ≤ n
  le : n ≤ maxLogNumber
  oldest : ∀ log, logs.head? = some log → log = logName n

/-- The first log number, in memory and in the EEPROM, is that of the oldest log. -/
structure FirstOldest (before : List Name) (d : Device) : Prop where
  memory : NamesOldest (logFilesOf before d.trace) d.firstLogFileNumber
  cell : NamesOldest (logFilesOf before d.trace) d.eeprom.loggerFirstLogNum

namespace Exchange

/-- The log file is opened again while a file is sent, or after it. -/
def Reopened (x : Exchange) (size : ℕ) : Prop :=
  x.reopensAtEnd = true ∨ ∃ k, Device.Due x size k ∧ x.reopens k = true

/-- The server does not have the file, and accepts it. -/
structure Accepted (x : Exchange) (size : ℕ) : Prop where
  missing : x.getStatus = 404
  connects : x.connects = true
  lasts : Device.Lasts x size
  arrived : x.arrived ≠ []
  status : x.statusIs200 = true

end Exchange

/-- The file is the oldest log and can be deleted, and the next number is that of the next
    oldest log, which may be the log that is being written, created once more. -/
structure DeletesOldest (before : List Name) (x : Exchange) (name : Name) (d : Device) : Prop where
  oldest : name = logName d.firstLogFileNumber
  removes : x.removes = true
  lt : d.firstLogFileNumber < maxLogNumber
  next : ∀ log, (logFilesOf before d.trace).tail.head? = some log →
    log = logName (d.firstLogFileNumber + 1)
  created : (logFilesOf before d.trace).tail = [] → IsLog d.logFile → d.logFile ∉ d.card →
    x.Reopened (d.fileSize name) → d.logFile = logName (d.firstLogFileNumber + 1)

/-- If the call of `upload_file` is accepted, it deletes the oldest log. -/
def KeepsOldest (before : List Name) (net : ℕ → Exchange) (c : ℕ × Name × Device) : Prop :=
  (net c.1).Accepted (c.2.2.fileSize c.2.1) → DeletesOldest before (net c.1) c.2.1 c.2.2

/-! ## Lists of logs -/

section Logs

variable {n : ℕ} {logs rest : List Name} {name : Name}

theorem namesOldest_cons (hpos : 1 ≤ n) (hle : n ≤ maxLogNumber) (rest : List Name) :
    NamesOldest (logName n :: rest) n :=
  ⟨hpos, hle, fun _ hlog => (Option.some.inj hlog).symm⟩

/-- A number that was the oldest log's is not the next one's. -/
theorem not_namesOldest_succ (h : n ≤ maxLogNumber) :
    ¬ NamesOldest (logName n :: rest) (n + 1) := by
  intro hs
  have heq := logName_inj h hs.le (hs.oldest _ rfl)
  omega

/-- The oldest log stays, if there is one. -/
theorem namesOldest_append (h : NamesOldest logs n) (hne : logs ≠ []) (new : List Name) :
    NamesOldest (logs ++ new) n := by
  refine ⟨h.pos, h.le, fun log hlog => h.oldest log ?_⟩
  rwa [List.head?_append_of_ne_nil _ hne] at hlog

/-- After a deletion, the next number is that of the oldest log, if and only if the oldest log
    was deleted and the next one has the next number. -/
theorem namesOldest_erase_iff (h : NamesOldest (logName n :: rest) n) :
    NamesOldest ((logName n :: rest).erase name) (n + 1) ↔
      name = logName n ∧ n < maxLogNumber ∧
        ∀ log, rest.head? = some log → log = logName (n + 1) := by
  by_cases hname : name = logName n
  · rw [hname, List.erase_cons_head]
    constructor
    · exact fun hs => ⟨rfl, hs.le, hs.oldest⟩
    · rintro ⟨-, hlt, hnext⟩
      exact ⟨Nat.le_add_left 1 n, hlt, hnext⟩
  · have hbeq : ¬ (logName n == name) = true := fun hb => hname (eq_of_beq hb).symm
    rw [List.erase_cons_tail hbeq]
    exact iff_of_false (not_namesOldest_succ h.le) fun hs => hname hs.1

end Logs

namespace Device

variable {before : List Name} {d e : Device} {x : Exchange} {name : Name} {b : Bool}
  {size fuel i k pos : ℕ} {buf : Bytes}

/-! ## The log file -/

theorem mem_reopenFile_self (b : Bool) (d : Device) :
    d.logFile ∈ (d.reopenFile b).card ↔ d.logFile ∈ d.card ∨ b = true := by
  have hcard : (d.reopenFile b).card = (d.closeDataFile.openDataFile b).card := rfl
  rw [hcard, openDataFile_card, logFile_closeDataFile, closeDataFile_card]
  split
  · next h => exact iff_of_true (Finmap.mem_insert.2 (.inl rfl)) (.inr h.1)
  · next h =>
    rw [mem_syncedCard] at h ⊢
    refine ⟨.inl, fun hm => ?_⟩
    by_contra hn
    exact h ⟨hm.resolve_left hn, hn⟩

theorem reopenFile_logFile (b : Bool) (d : Device) : (d.reopenFile b).logFile = d.logFile := rfl

theorem flushedAfter_logFile (x : Exchange) (k : ℕ) (d : Device) :
    (d.flushedAfter x k).logFile = d.logFile := by
  unfold flushedAfter
  split
  · rw [flushSdFile_logFile, reopenFile_logFile]
  · rfl

theorem mem_flushedAfter_self (x : Exchange) (k : ℕ) (d : Device) :
    d.logFile ∈ (d.flushedAfter x k).card ↔
      d.logFile ∈ d.card ∨ x.flushDue k = true ∧ x.reopens k = true := by
  unfold flushedAfter
  split
  · next h => rw [mem_flushSdFile, mem_reopenFile_self, and_iff_right h]
  · next h => exact (or_iff_left fun hd => h hd.1).symm

theorem exists_due_iff {P : ℕ → Prop} (k : ℕ) : (∃ l, k ≤ l ∧ Due x size l ∧ P l) ↔
    (Due x size k ∧ P k) ∨ ∃ l, k + 1 ≤ l ∧ Due x size l ∧ P l := by
  constructor
  · rintro ⟨l, hl, h⟩
    rcases Nat.eq_or_lt_of_le hl with rfl | hl
    · exact .inl h
    · exact .inr ⟨l, hl, h⟩
  · rintro (h | ⟨l, hl, h⟩)
    · exact ⟨k, le_rfl, h⟩
    · exact ⟨l, Nat.le_of_succ_le hl, h⟩

/-- The log file is there after the blocks from one on, if it was or is opened again. -/
theorem mem_sendLoop_self (hl : Lasts x size) (hi : i = k * fileBufLen)
    (hf : size ≤ (k + fuel) * fileBufLen) :
    d.logFile ∈ (sendLoop x name size fuel i pos buf d).2.card ↔
      d.logFile ∈ d.card ∨ ∃ l, k ≤ l ∧ Due x size l ∧ x.reopens l = true := by
  refine sendLoop_lasts_induct (R := fun k d e => d.logFile ∈ e.card ↔
    d.logFile ∈ d.card ∨ ∃ l, k ≤ l ∧ Due x size l ∧ x.reopens l = true) hl ?_ ?_ hi hf
  · intro k d hle
    refine (or_iff_left ?_).symm
    rintro ⟨l, hkl, hd, -⟩
    exact not_due_of_le hle hkl hd
  · intro k buf d e hlt ih
    have hdue : Due x size k ↔ x.flushDue k = true := and_iff_right hlt
    have hcard : ((d.flushedAfter x k).emit (.bodySent buf)).card = (d.flushedAfter x k).card := rfl
    rw [logFile_emit, flushedAfter_logFile, hcard, mem_flushedAfter_self] at ih
    rw [ih, exists_due_iff k, hdue, or_assoc]

/-! ## The sending -/

theorem quiet_send (hs : (d.asked x name).send x name = (b, e)) : Quiet d e :=
  send_induct (P := Quiet d) (fun ev f he hf => hf.trans (emit_quiet (ofTransfer_quiet ev he) f))
    (fun timer noWrite f hf => hf.trans (flags_quiet timer noWrite f))
    (fun _ f hf => hf.trans ((reopenFile_quiet _ f).trans (flushSdFile_quiet _)))
    ⟨.refl d, .refl d⟩ hs

theorem quiet_sent (x : Exchange) (d : Device) : Quiet d (d.sent x) :=
  (reopenFile_quiet x.reopensAtEnd d).trans (flags_quiet true false _)

theorem Recorded.sent (h : Recorded before d) (hs : (d.asked x name).send x name = (b, e)) :
    Recorded before (e.sent x) := by
  have he : Recorded before e :=
    send_induct (fun ev _ he hf => hf.emit (ofTransfer_not_counts ev he))
      (fun _ _ _ hf => hf.of_eq rfl rfl) (fun _ _ hf => (hf.reopenFile _).flushSdFile) h hs
  exact (he.reopenFile x.reopensAtEnd).of_eq rfl rfl

/-- The log file is there after a file was sent, if it was or is opened again. -/
theorem mem_sent_self (hl : Lasts x (d.fileSize name))
    (hs : (d.asked x name).send x name = (b, e)) :
    d.logFile ∈ (e.sent x).card ↔ d.logFile ∈ d.card ∨ x.Reopened (d.fileSize name) := by
  have hs' : ((d.asked x name).send x name).2 = e := by rw [hs]
  have hname : e.logFile = d.logFile := congrArg toText (quiet_send hs).name
  have hcard : d.logFile ∈ e.card ↔
      d.logFile ∈ d.card ∨ ∃ l, 0 ≤ l ∧ Due x (d.fileSize name) l ∧ x.reopens l = true := by
    rw [← hs']
    exact mem_sendLoop_self (d := (d.asked x name).posting x name) hl (Nat.zero_mul _).symm
      (le_blocks _)
  have hsent : d.logFile ∈ (e.sent x).card ↔ d.logFile ∈ e.card ∨ x.reopensAtEnd = true := by
    rw [← hname]
    exact mem_reopenFile_self _ e
  simp only [Nat.zero_le, true_and] at hcard
  rw [hsent, hcard, Exchange.Reopened, or_assoc, or_comm (a := ∃ _, _)]

/-- The only file that comes is the log file, opened again. -/
theorem mem_added_iff (hr : Recorded before d) (hl : Lasts x (d.fileSize name))
    (hs : (d.asked x name).send x name = (b, e)) {new : List Name}
    (hnew : filesOf before (e.sent x).trace = filesOf before d.trace ++ new) {log : Name} :
    log ∈ new ↔ log = d.logFile ∧ d.logFile ∉ d.card ∧ x.Reopened (d.fileSize name) := by
  have hsent := hr.sent hs
  have hmem (other : Name) : other ∈ (e.sent x).card ↔ other ∈ d.card ∨ other ∈ new := by
    rw [hsent.mem, hnew, List.mem_append, hr.mem]
  constructor
  · intro hlog
    -- no file is there twice, so what comes was not there before
    have hd : log ∉ d.card := by
      have hnodup := hsent.nodup
      rw [hnew] at hnodup
      rw [hr.mem]
      exact fun hold => (List.nodup_append.1 hnodup).2.2 log hold log hlog rfl
    have he := (hmem log).2 (.inr hlog)
    have hself : log = d.logFile :=
      (((quiet_send hs).trans (quiet_sent x e)).added log he).resolve_left hd
    subst hself
    exact ⟨rfl, hd, ((mem_sent_self hl hs).1 he).resolve_left hd⟩
  · rintro ⟨rfl, hd, hopen⟩
    exact ((hmem d.logFile).1 ((mem_sent_self hl hs).2 (.inr hopen))).resolve_left hd

/-! ## A call -/

theorem firstOldest_of_quiet (h : FirstOldest before d) (hne : logFilesOf before d.trace ≠ [])
    (hq : Quiet d e) : FirstOldest before e := by
  obtain ⟨_, hfiles⟩ := hq.files
  obtain ⟨new, hnew, -⟩ := logFilesOf_of_files hfiles
  constructor
  · rw [hnew, hq.first]
    exact namesOldest_append h.memory hne new
  · rw [hnew, hq.firstCell]
    exact namesOldest_append h.cell hne new

theorem logs_ne_nil (hr : Recorded before d) (hlog : IsLog name) (hm : name ∈ d.card) :
    logFilesOf before d.trace ≠ [] := List.ne_nil_of_mem (hr.mem_logFilesOf_iff.2 ⟨hm, hlog⟩)

/-- When a log is accepted, the number moved on by one is that of the oldest log, if and only if
    the oldest log is deleted, and the next oldest has the next number. -/
theorem acceptUpload_firstOldest_iff {rest : List Name}
    (hdelete : d.config.deleteUploadedLogs = true) (hm : name ∈ d.card)
    (hlogs : logFilesOf before d.trace = logName d.firstLogFileNumber :: rest)
    (h : NamesOldest (logFilesOf before d.trace) d.firstLogFileNumber) :
    FirstOldest before (d.acceptUpload x name) ↔
      x.removes = true ∧ name = logName d.firstLogFileNumber ∧
        d.firstLogFileNumber < maxLogNumber ∧
        ∀ log, rest.head? = some log → log = logName (d.firstLogFileNumber + 1) := by
  have hu : u16 (d.firstLogFileNumber + 1) = d.firstLogFileNumber + 1 :=
    u16_of_lt (Nat.lt_of_le_of_lt (Nat.succ_le_succ h.le) (by decide))
  have haccept : d.acceptUpload x name =
      { d.sdRemove x.removes name with
        firstLogFileNumber := d.firstLogFileNumber + 1 }.putFirstLogNum :=
    (if_pos hdelete).trans (by dsimp only; rw [sdRemove_firstLogFileNumber, hu])
  have hfirst : FirstOldest before (d.acceptUpload x name) ↔
      NamesOldest (logFilesOf before (d.sdRemove x.removes name).trace)
        (d.firstLogFileNumber + 1) := by
    rw [haccept]
    exact ⟨fun h => h.memory, fun h => ⟨h, h⟩⟩
  rw [hfirst, sdRemove_trace]
  rw [hlogs] at h
  cases x.removes with
  | false =>
    rw [if_neg fun hr => Bool.false_ne_true hr.1, hlogs]
    exact iff_of_false (not_namesOldest_succ h.le) fun hr => Bool.false_ne_true hr.1
  | true =>
    rw [if_pos ⟨rfl, hm⟩, logFilesOf_removed, hlogs, namesOldest_erase_iff h, and_iff_right rfl]

/-- An accepted call keeps the first number that of the oldest log, if and only if it deletes
    the oldest log and the next oldest has the next number. -/
theorem accepted_firstOldest_iff (hr : Recorded before d)
    (hdelete : d.config.deleteUploadedLogs = true) (h : FirstOldest before d)
    (hlog : IsLog name) (hm : name ∈ d.card) (hl : Lasts x (d.fileSize name))
    (hs : (d.asked x name).send x name = (b, e)) :
    FirstOldest before (((e.sent x).emit (.postAnswered name x.response)).acceptUpload x name) ↔
      DeletesOldest before x name d := by
  have hsent : Quiet d (e.sent x) := (quiet_send hs).trans (quiet_sent x e)
  have hq : Quiet d ((e.sent x).emit (.postAnswered name x.response)) :=
    hsent.trans (emit_quiet ⟨id, id⟩ _)
  obtain ⟨new, hnew⟩ : ∃ new, filesOf before (e.sent x).trace = filesOf before d.trace ++ new :=
    hsent.files
  -- what is created in the call is younger than all logs that were there
  obtain ⟨newLogs, hnewLogs, hmem⟩ := logFilesOf_of_files hnew
  have hadded {log : Name} : log ∈ newLogs ↔
      (log = d.logFile ∧ d.logFile ∉ d.card ∧ x.Reopened (d.fileSize name)) ∧ IsLog log := by
    rw [hmem, mem_added_iff hr hl hs hnew]
  have hne := logs_ne_nil hr hlog hm
  obtain ⟨log, rest, hlogs⟩ := List.exists_cons_of_ne_nil hne
  obtain rfl : log = logName d.firstLogFileNumber := h.memory.oldest log (by rw [hlogs]; rfl)
  have hafter : logFilesOf before ((e.sent x).emit (.postAnswered name x.response)).trace =
      logName d.firstLogFileNumber :: (rest ++ newLogs) := by
    rw [← List.cons_append, ← hlogs, ← hnewLogs]
    rfl
  have hkept := (firstOldest_of_quiet h hne hq).memory
  rw [acceptUpload_firstOldest_iff (hq.config ▸ hdelete) (hq.kept name hm)
    (hq.first.symm ▸ hafter) hkept, hq.first]
  have htail : (logFilesOf before d.trace).tail = rest := by rw [hlogs, List.tail_cons]
  constructor
  · rintro ⟨hx, hname, hlt, hnext⟩
    refine ⟨hname, hx, hlt, fun log hhead => ?_, fun hnil hlogFile hd hopen => ?_⟩
    · rw [htail] at hhead
      exact hnext log (by rw [List.head?_append, hhead, Option.some_or])
    · -- the log file comes first, as it comes alone
      rw [htail] at hnil
      have hin : d.logFile ∈ newLogs := hadded.2 ⟨⟨rfl, hd, hopen⟩, hlogFile⟩
      obtain ⟨log, more, hcons⟩ := List.exists_cons_of_ne_nil (List.ne_nil_of_mem hin)
      have hself : log = d.logFile := (hadded.1 (hcons ▸ List.mem_cons_self)).1.1
      rw [← hself]
      exact hnext log (by rw [hnil, List.nil_append, hcons]; rfl)
  · intro hd
    refine ⟨hd.removes, hd.oldest, hd.lt, fun log hhead => ?_⟩
    cases hrest : rest with
    | nil =>
      rw [hrest, List.nil_append] at hhead
      obtain ⟨⟨rfl, hno, hopen⟩, hlogFile⟩ := hadded.1 (List.mem_of_head? hhead)
      exact hd.created (htail.trans hrest) hlogFile hno hopen
    | cons next more =>
      rw [hrest] at hhead
      exact hd.next log (by rw [htail, hrest]; exact hhead)

theorem quiet_asked (x : Exchange) (name : Name) (d : Device) : Quiet d (d.asked x name) :=
  ((emit_quiet ⟨id, id⟩ d).trans (emit_quiet ⟨id, id⟩ _)).trans (emit_quiet ⟨id, id⟩ _)

/-- A call of `upload_file` keeps the first number that of the oldest log, if and only if it
    deletes the oldest log or is not accepted. -/
theorem round_firstOldest_iff (u : DataUploader) (hr : Recorded before d)
    (hdelete : d.config.deleteUploadedLogs = true) (h : FirstOldest before d)
    (hlog : IsLog name) (hm : name ∈ d.card) (hu : d.uploadFile x name = (b, e)) :
    FirstOldest before (DataUploader.afterRound b u e) ↔
      (x.Accepted (d.fileSize name) → DeletesOldest before x name d) := by
  have hround : FirstOldest before (DataUploader.afterRound b u e) ↔ FirstOldest before e := by
    cases b
    · exact Iff.rfl
    · exact ⟨fun h => ⟨h.memory, h.cell⟩, fun h => ⟨h.memory, h.cell⟩⟩
  have hquiet (hq : Quiet d e) (hno : ¬ x.Accepted (d.fileSize name)) : FirstOldest before e ↔
      (x.Accepted (d.fileSize name) → DeletesOldest before x name d) :=
    iff_of_true (firstOldest_of_quiet h (logs_ne_nil hr hlog hm) hq) fun ha => absurd ha hno
  rw [hround]
  cases upload_of_uploadFile hu with
  | present h₁ =>
    refine hquiet ((quiet_asked x name d).trans (emit_quiet ⟨id, id⟩ _)) fun ha => ?_
    exact absurd (h₁.symm.trans ha.missing) (by decide)
  | failed _ h₂ =>
    refine hquiet (quiet_asked x name d) fun ha => ?_
    exact Bool.false_ne_true ((h₂ ha.missing).symm.trans ha.connects)
  | lost _ _ hs =>
    refine hquiet (quiet_send hs) fun ha => ?_
    exact Bool.false_ne_true ((asked_send_eq_true_iff hs).2 ha.lasts)
  | unanswered _ _ hs h₀ =>
    refine hquiet (((quiet_send hs).trans (quiet_sent x _)).trans (emit_quiet ⟨id, id⟩ _)) ?_
    exact fun ha => ha.arrived h₀
  | refused _ _ hs _ h₂ =>
    refine hquiet (((quiet_send hs).trans (quiet_sent x _)).trans (emit_quiet ⟨id, id⟩ _)) ?_
    exact fun ha => Bool.false_ne_true (h₂.symm.trans ha.status)
  | accepted h₁ hc hs h₀ h₂ =>
    have hl : Lasts x (d.fileSize name) := (asked_send_eq_true_iff hs).1 rfl
    rw [imp_iff_right ⟨h₁, hc, hl, h₀, h₂⟩, ← accepted_firstOldest_iff hr hdelete h hlog hm hl hs]
    exact ⟨fun h => ⟨h.memory, h.cell⟩, fun h => ⟨h.memory, h.cell⟩⟩

/-! ## Runs -/

theorem uploadFile_config (x : Exchange) (name : Name) (d : Device) :
    (d.uploadFile x name).2.config = d.config := by
  refine uploadFile_rule (P := fun e => e.config = d.config) (fun h hq => hq.config.trans h)
    (fun x name e h => ?_) rfl
  unfold acceptUpload
  split
  · exact h
  · exact h

/-- From a state where the first log number is that of the oldest log, `upload_data` keeps it so
    after each round, in memory and in the EEPROM, if and only if each of its calls of
    `upload_file` that is accepted deletes the oldest log and is followed by the next number. -/
theorem firstOldest_iff {card : Card} {eeprom : EEPROM} {config : ConfigManager} {ops : List Op}
    {net : ℕ → Exchange} {u : DataUploader} {r : DataUploader × Device} (hbefore : before.Nodup)
    (hcard : ∀ name, name ∈ card ↔ name ∈ before)
    (hrun : anyOrder.Run Machine.Free (initial card eeprom) (.boot config :: ops) d)
    (hdelete : d.config.deleteUploadedLogs = true)
    (h : NamesOldest (logFilesOf before d.trace) d.firstLogFileNumber)
    (hu : u.uploadData net fuel d = some r) :
    ((∀ k ≤ fuel, FirstOldest before (u.uploadRounds net k d).2.2) ↔
        ∀ c ∈ u.uploadCalls net fuel d, KeepsOldest before net c) ∧
      ((∀ c ∈ u.uploadCalls net fuel d, KeepsOldest before net c) → FirstOldest before r.2) := by
  have hr : Recorded before d := recorded_of_run hbefore hcard hrun
  have hfirst : FirstOldest before d := by
    have hcell := (persisted_of_run card eeprom hrun).first
    exact ⟨h, hcell.symm ▸ h⟩
  have hiff : (∀ k ≤ fuel, FirstOldest before (u.uploadRounds net k d).2.2) ↔
      ∀ c ∈ u.uploadCalls net fuel d, KeepsOldest before net c := by
    refine DataUploader.uploadRounds_forall_iff
      (I := fun e => Recorded before e ∧ e.config.deleteUploadedLogs = true)
      (N := fun buf => ∃ ns, buf = printAll ns) (fun u buf e b f hbuf he hQ hm hf => ?_)
      (fun u name e b f he hf => ?_) (fun n buf hbuf => ?_) ⟨[], rfl⟩ ⟨hr, hdelete⟩ hfirst
    · obtain ⟨ns, rfl⟩ := hbuf
      exact round_firstOldest_iff u he.1 he.2 hQ ⟨ns, rfl⟩ hm hf
    · have hf' : (e.uploadFile (net u.nextLogToUpload) name).2 = f := by rw [hf]
      have hrec : Recorded before f := hf' ▸ he.1.uploadFile _ name
      have hconf : f.config.deleteUploadedLogs = true := by
        rw [← hf', uploadFile_config, he.2]
      cases b
      · exact ⟨hrec, hconf⟩
      · exact ⟨hrec.increment u, hconf⟩
    · obtain ⟨ns, rfl⟩ := hbuf
      exact ⟨ns ++ [n], (printAll_append_singleton ns n).symm⟩
  refine ⟨hiff, fun hc => ?_⟩
  have hlast := hiff.2 hc fuel le_rfl
  rwa [DataUploader.uploadRounds_of_uploadData hu] at hlast

/-! ## Three logs -/

/-- A card with a configuration by which uploaded logs are deleted. -/
def configCard : Card :=
  Finmap.singleton configFileName "\x7b\"delete_uploaded_logs\": true\x7d".toList

/-- Uploaded logs are deleted. -/
def deleting : ConfigManager := { deleteUploadedLogs := true }

/-- Three boots, with a log each. -/
def threeBoots : List Op :=
  [.boot deleting, .startLog 1 .roomy, .boot deleting, .startLog 1 .roomy, .boot deleting,
    .startLog 1 .roomy]

/-- The server has the first log, and accepts the others. -/
def firstPresent (n : ℕ) : Exchange := if n = 1 then .hasFile else .accepting

/-- After the three boots, the first log is the oldest. -/
theorem exists_threeBoots :
    ∃ s, program.Run Machine.Free (.initial configCard ⟨1, 0, 1, 0⟩) threeBoots s ∧
      s.device.config.deleteUploadedLogs = true ∧ s.device.firstLogFileNumber = 1 ∧
      filesOf [configFileName] s.device.trace =
        [configFileName, logName 1, logName 2, logName 3] ∧
      ((DataUploader.mk 1 3).uploadRounds (fun _ => .accepting) 3 s.device).1 = true ∧
      ((DataUploader.mk 1 3).uploadRounds firstPresent 3 s.device).1 = true ∧
      ((DataUploader.mk 1 3).uploadRounds firstPresent 3 s.device).2.2.firstLogFileNumber = 2 ∧
      filesOf [configFileName]
          ((DataUploader.mk 1 3).uploadRounds firstPresent 3 s.device).2.2.trace =
        [configFileName, logName 1, logName 3] := by
  refine ⟨_, .cons trivial rfl (.cons trivial rfl (.cons trivial rfl (.cons trivial rfl
    (.cons trivial rfl (.cons trivial rfl (.nil _)))))), ?_⟩
  decide +kernel

/-- The configuration is no log. -/
theorem logFilesOf_config {before : List Name} {trace : List Event} {l : List ℕ}
    (h : filesOf before trace = configFileName :: l.map logName) :
    logFilesOf before trace = l.map logName := by
  classical
  rw [logFilesOf, h, List.filter_cons_of_neg (by simp [not_isLog_configFileName]),
    List.filter_eq_self.2]
  simp [isLog_logName]

/-- The server accepts all logs, from the first one on. -/
theorem firstOldest_threeBoots :
    ∃ d r, anyOrder.Run Machine.Free (initial configCard ⟨1, 0, 1, 0⟩) threeBoots d ∧
      NamesOldest (logFilesOf [configFileName] d.trace) d.firstLogFileNumber ∧
      (DataUploader.mk 1 3).uploadData (fun _ => .accepting) 3 d = some r ∧
      ((∀ k ≤ 3, FirstOldest [configFileName]
          ((DataUploader.mk 1 3).uploadRounds (fun _ => .accepting) k d).2.2) ↔
        ∀ c ∈ (DataUploader.mk 1 3).uploadCalls (fun _ => .accepting) 3 d,
          KeepsOldest [configFileName] (fun _ => .accepting) c) ∧
      ((∀ c ∈ (DataUploader.mk 1 3).uploadCalls (fun _ => .accepting) 3 d,
        KeepsOldest [configFileName] (fun _ => .accepting) c) →
          FirstOldest [configFileName] r.2) := by
  obtain ⟨s, hrun, hdelete, hfirst, hfiles, hends, -⟩ := exists_threeBoots
  have hrun' := anyOrder_of_program hrun
  have hold : NamesOldest (logFilesOf [configFileName] s.device.trace)
      s.device.firstLogFileNumber := by
    rw [logFilesOf_config (l := [1, 2, 3]) hfiles, hfirst]
    exact namesOldest_cons le_rfl (by decide) _
  have hu := DataUploader.uploadData_of_fst hends
  have hcard (name : Name) : name ∈ configCard ↔ name ∈ [configFileName] := by
    rw [configCard, Finmap.mem_singleton, List.mem_singleton]
  exact ⟨s.device, _, hrun', hold, hu,
    firstOldest_iff (List.nodup_singleton _) hcard hrun' hdelete hold hu⟩

/-- The server has the first log, and accepts the second one: the second is deleted, and the
    first log number is said to be 2. -/
theorem second_deleted_first :
    ∃ s r, program.Run Machine.Free (.initial configCard ⟨1, 0, 1, 0⟩) threeBoots s ∧
      s.device.config.deleteUploadedLogs = true ∧
      NamesOldest (logFilesOf [configFileName] s.device.trace) s.device.firstLogFileNumber ∧
      (DataUploader.mk 1 3).uploadData firstPresent 3 s.device = some r ∧
      ¬ FirstOldest [configFileName] r.2 := by
  obtain ⟨s, hrun, hdelete, hfirst, hfiles, -, hends, hnumber, hafter⟩ := exists_threeBoots
  refine ⟨s, _, hrun, hdelete, ?_, DataUploader.uploadData_of_fst hends, fun h => ?_⟩
  · rw [logFilesOf_config (l := [1, 2, 3]) hfiles, hfirst]
    exact namesOldest_cons le_rfl (by decide) _
  · have hold := h.memory.oldest (logName 1) (by rw [logFilesOf_config (l := [1, 3]) hafter]; rfl)
    rw [hnumber] at hold
    exact absurd hold (by decide)

end Device

end CanInsight
