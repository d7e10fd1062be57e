import CanInsight.DocumentSize
import CanInsight.FrameLine
import CanInsight.Journal

/-!
# Reading the logs

What the files on the card say, to a reader who has only the files: the header is read with
`LogFileMeta`, and the lines after it by their column names.

* `readLog`: what a log says, if it is a log of one session;
* `readLog_text`: the text of a session says what the session was;
* `logs_read_back`: so do the logs on the card, after every run below capacity.
-/

namespace CanInsight

open CString JsonDeserializer

/-! ## The reader -/

/-- The line, if it ends with a carriage return. -/
def readRow (row : Bytes) : Option Bytes :=
  if row.getLast? = some '\r' then some row.dropLast else none

/-- The lines of a text, all of them ended. -/
def readLines (s : Bytes) : Option (List Bytes) :=
  if (s.splitOn '\n').getLast? = some [] then (s.splitOn '\n').dropLast.mapM readRow else none

/-- The frames, and whether the log was full. -/
def readRows (rows : List Bytes) : Option (List LoggedFrame × Bool) :=
  if rows.getLast? = some eofCanLogfile then (rows.dropLast.mapM readFrame).map (·, true)
  else (rows.mapM readFrame).map (·, false)

/-- What a log says. -/
structure LoggedSession where
  info : LogFileMeta
  frames : List LoggedFrame
  full : Bool

/-- A log of one session. -/
def readLog (deserializeJson : Bytes → Option Json) (file : Bytes) : Option LoggedSession :=
  (LogFileMeta.read deserializeJson file).bind fun info => (readLines file).bind fun
    | _ :: columns :: rows =>
      if columns = headerCsv then (readRows rows).map fun r => ⟨info, r.1, r.2⟩ else none
    | _ => none

/-! ## Lines -/

theorem readLines_nil : readLines [] = some [] := rfl

theorem readLines_cons {row s : Bytes} {rows : List Bytes} (hrow : '\n' ∉ row)
    (h : readLines s = some rows) : readLines (row ++ crlf ++ s) = some (row :: rows) := by
  have hsplit : (row ++ crlf ++ s).splitOn '\n' = (row ++ ['\r']) :: s.splitOn '\n' := by
    have hmem : '\n' ∉ row ++ ['\r'] := by
      rw [List.mem_append, not_or]
      exact ⟨hrow, by decide⟩
    have htext : row ++ crlf ++ s = (row ++ ['\r']) ++ '\n' :: s := by simp [crlf]
    rw [htext, List.splitOn_append_cons_self_of_not_mem hmem]
  have hne : s.splitOn '\n' ≠ [] := List.splitOn_ne_nil _ _
  obtain ⟨hlast, hrows⟩ := Option.ite_none_right_eq_some.1 h
  rw [readLines, hsplit, List.getLast?_cons_of_ne_nil hne, if_pos hlast,
    List.dropLast_cons_of_ne_nil hne, List.mapM_cons, hrows, readRow, List.getLast?_concat,
    if_pos rfl, List.dropLast_concat]
  rfl

theorem readLines_flatMap {rows : List Bytes} (h : ∀ row ∈ rows, '\n' ∉ row) :
    readLines (rows.flatMap (· ++ crlf)) = some rows := by
  induction rows with
  | nil => exact readLines_nil
  | cons row rows ih =>
    rw [List.forall_mem_cons] at h
    rw [List.flatMap_cons]
    exact readLines_cons h.1 (ih h.2)

/-! ## Frames -/

/-- A frame, and the milliseconds when it came and when the log was started. -/
structure Captured where
  msg : CANMessage
  millis : ℕ
  logStartMillis : ℕ

namespace Captured

/-- The line that is written for it. -/
def line (f : Captured) : Bytes := canFrameToStr f.msg f.millis f.logStartMillis

/-- What the line says. -/
def logged (f : Captured) : LoggedFrame where
  time := sinceLogStart f.millis f.logStartMillis
  bus := f.msg.bus.toNat
  extended := f.msg.extended
  id := f.msg.id.toNat
  len := f.msg.len.toNat
  data := f.msg.dataBytes.map UInt8.toNat

/-- The line without its end. -/
def row (f : Captured) : Bytes := frameRow f.msg f.millis f.logStartMillis

variable (f : Captured)

theorem line_eq : f.line = f.row ++ crlf := canFrameToStr_eq _ _ _

theorem readFrame_row : readFrame f.row = some f.logged := readFrame_frameRow _ _ _

theorem not_mem_row {c : Char} (hc : ¬ OfField c) (hcomma : c ≠ ',') : c ∉ f.row :=
  not_mem_frameRow _ _ _ hc hcomma

theorem row_ne_eof : f.row ≠ eofCanLogfile := by
  intro h
  have hmem : '-' ∈ f.row := by
    rw [h]
    decide
  exact f.not_mem_row (by decide) (by decide) hmem

end Captured

theorem mapM_readFrame (fs : List Captured) :
    (fs.map Captured.row).mapM readFrame = some (fs.map Captured.logged) := by
  induction fs with
  | nil => rfl
  | cons f fs ih =>
    rw [List.map_cons, List.mapM_cons, f.readFrame_row, ih]
    rfl

theorem readRows_frames (fs : List Captured) :
    readRows (fs.map Captured.row) = some (fs.map Captured.logged, false) := by
  have hlast : (fs.map Captured.row).getLast? ≠ some eofCanLogfile := by
    intro h
    obtain ⟨f, -, hf⟩ := List.mem_map.1 (List.mem_of_getLast? h)
    exact f.row_ne_eof hf
  rw [readRows, if_neg hlast, mapM_readFrame]
  rfl

theorem readRows_full (fs : List Captured) :
    readRows (fs.map Captured.row ++ [eofCanLogfile]) = some (fs.map Captured.logged, true) := by
  rw [readRows, List.getLast?_concat, if_pos rfl, List.dropLast_concat, mapM_readFrame]
  rfl

/-! ## Sessions -/

/-- A session that says what it was: nothing of its configuration has to be escaped, and its
    lines are those of the frames. -/
structure Session.Of (x : Session) (fs : List Captured) : Prop where
  configured : x.config.Configured
  readable : HeaderReadable x.config
  clock : x.clock.rtc < 2 ^ 32
  lines : x.lines = fs.map Captured.line

/-- What a session of the frames says. -/
def Session.logged (x : Session) (fs : List Captured) : LoggedSession where
  info := ⟨x.config.unitNumber, x.config.unitType,
    setCurrentTimeInBuffer x.clock.rtc x.clock.millis⟩
  frames := fs.map Captured.logged
  full := x.full

variable {x : Session} {fs : List Captured} {d : Bytes → Option Json}

theorem Session.Of.text_eq (h : x.Of fs) :
    x.text = (headerLine x.config x.clock :: headerCsv :: fs.map Captured.row ++
      if x.full then [eofCanLogfile] else []).flatMap (· ++ crlf) := by
  have hlines : x.lines.flatten = (fs.map Captured.row).flatMap (· ++ crlf) := by
    rw [h.lines, List.flatMap_map, List.flatMap_def]
    exact congrArg List.flatten (List.map_congr_left fun f _ => f.line_eq)
  have hfull : (if x.full then [eofCanLogfile] else []).flatMap (· ++ crlf) =
      if x.full then eofLine else [] := by
    cases x.full <;> simp [eofLine]
  rw [Session.text, headerJson_eq, hlines, List.flatMap_append, hfull]
  simp [headerLine, headerColumns]

/-- The rows of a session, without their ends. -/
def Session.rows (x : Session) (fs : List Captured) : List Bytes :=
  fs.map Captured.row ++ if x.full then [eofCanLogfile] else []

theorem readRows_rows (x : Session) (fs : List Captured) :
    readRows (x.rows fs) = some (fs.map Captured.logged, x.full) := by
  rw [Session.rows]
  cases x.full with
  | false => exact (congrArg readRows (List.append_nil _)).trans (readRows_frames fs)
  | true => exact readRows_full fs

theorem Session.Of.not_mem (h : x.Of fs) :
    ∀ row ∈ headerLine x.config x.clock :: headerCsv :: x.rows fs, '\n' ∉ row := by
  rw [List.forall_mem_cons, List.forall_mem_cons, Session.rows, List.forall_mem_append]
  refine ⟨fun hm => ?_, by decide, ?_, ?_⟩
  · exact (clean_headerLine h.readable _ hm).ne (by decide) rfl
  · rintro row hrow
    obtain ⟨f, -, rfl⟩ := List.mem_map.1 hrow
    exact f.not_mem_row (by decide) (by decide)
  · split
    · rw [List.forall_mem_singleton]
      decide
    · exact fun row hrow => absurd hrow List.not_mem_nil

/-- The text of a session is read back. -/
theorem readLog_text (h : x.Of fs) (hd : ReadsJson d) : readLog d x.text = some (x.logged fs) := by
  have htext : x.text =
      (headerLine x.config x.clock :: headerCsv :: x.rows fs).flatMap (· ++ crlf) := h.text_eq
  have hrows : readLines x.text = some (headerLine x.config x.clock :: headerCsv :: x.rows fs) := by
    rw [htext]
    exact readLines_flatMap h.not_mem
  have hinfo : LogFileMeta.read d x.text = some (x.logged fs).info := by
    rw [htext, List.flatMap_cons]
    exact read_headerLine h.configured h.readable h.clock hd _
  rw [readLog, hinfo, Option.bind_some, hrows, Option.bind_some]
  dsimp only
  rw [if_pos rfl, readRows_rows]
  rfl

/-! ## Runs -/

/-- What holds of every session of a journal. -/
structure Journal.All (P : Session → Prop) (j : Journal) : Prop where
  past : ∀ x ∈ j.past, P x
  current : ∀ c ∈ j.current, P c.1 ∧ P c.2

namespace Journal.All

variable {P : Session → Prop} {j : Journal} {clock : Clock} {refused : Bool}

theorem files (h : j.All P) : ∀ x ∈ j.files, P x := by
  rw [Journal.files, List.forall_mem_append]
  refine ⟨h.past, fun x hx => ?_⟩
  obtain ⟨c, hc, rfl⟩ := Option.map_eq_some_iff.1 (Option.mem_toList.1 hx)
  exact (h.current c hc).2

theorem closed (h : j.All P) : ∀ x ∈ j.closed, P x := by
  rw [Journal.closed, List.forall_mem_append]
  refine ⟨h.past, fun x hx => ?_⟩
  obtain ⟨c, hc, rfl⟩ := Option.map_eq_some_iff.1 (Option.mem_toList.1 hx)
  exact (h.current c hc).1

theorem boot (h : j.All P) (config : ConfigManager) : (j.boot config).All P where
  past := h.files
  current := fun _ hc => nomatch hc

theorem start (h : j.All P) (hnew : P { config := j.config, clock := clock }) :
    (j.start clock refused).All P := by
  rw [Journal.start]
  split
  · exact ⟨h.past, h.current⟩
  · refine ⟨h.closed, fun c hc => ?_⟩
    cases hc
    exact ⟨hnew, hnew⟩

theorem write {line : Bytes} (h : j.All P) (hnew : P { config := j.config, clock := clock })
    (hadd : ∀ x, P x → P (x.add line)) (hfill : ∀ x, P x → P x.fill) :
    (j.write line clock refused).All P := by
  rw [Journal.write]
  split
  · next printed saved _ hcurrent =>
    obtain ⟨hp, hs⟩ := h.current _ hcurrent
    split
    · refine All.start ⟨h.past, fun c hc => ?_⟩ hnew
      cases hc
      exact ⟨hfill _ (hadd _ hp), hs⟩
    · refine ⟨h.past, fun c hc => ?_⟩
      cases hc
      exact ⟨hadd _ hp, hs⟩
  · exact h

theorem flush (h : j.All P) : j.flush.All P where
  past := h.past
  current := fun _ hc => by
    obtain ⟨c, hcurrent, rfl⟩ := Option.map_eq_some_iff.1 hc
    exact ⟨(h.current c hcurrent).1, (h.current c hcurrent).1⟩

end Journal.All

/-- The session says what it was, of some frames. -/
def Session.Legible (x : Session) : Prop := ∃ fs, x.Of fs

theorem Session.Legible.add (h : x.Legible) (f : Captured) : (x.add f.line).Legible := by
  obtain ⟨fs, h⟩ := h
  refine ⟨fs ++ [f], h.configured, h.readable, h.clock, ?_⟩
  rw [Session.add, h.lines, List.map_append]
  rfl

theorem Session.Legible.fill (h : x.Legible) : x.fill.Legible := by
  obtain ⟨fs, h⟩ := h
  exact ⟨fs, h.configured, h.readable, h.clock, h.lines⟩

/-- The configurations are read from files, and nothing in them has to be escaped. The clock is
    a 32-bit one, and the lines are those of frames. -/
def LegibleOp (parser : Config) : Op → Prop
  | .boot config =>
    (∃ conv file, config = (configOfFile conv parser file).1) ∧ HeaderReadable config
  | .startLog _ env | .restartLogging _ env => env.clock.rtc < 2 ^ 32
  | .writeSdLine _ env _ line => env.clock.rtc < 2 ^ 32 ∧ ∃ f : Captured, line = f.line
  | _ => True

/-- The journal of a program that is booted has a legible configuration, and legible
    sessions. -/
structure LegibleJournal (phase : Phase) (j : Journal) : Prop where
  config : phase ≠ .off → j.config.Configured ∧ HeaderReadable j.config
  sessions : j.All Session.Legible

variable {parser : Config} {p q : Phase} {j k : Journal} {op : Op} {refused : Bool}

theorem LegibleJournal.new (h : LegibleJournal p j) (hp : p ≠ .off) {clock : Clock}
    (hclock : clock.rtc < 2 ^ 32) : Session.Legible { config := j.config, clock := clock } :=
  ⟨[], (h.config hp).1, (h.config hp).2, hclock, rfl⟩

theorem config_start (clock : Clock) (refused : Bool) (j : Journal) :
    (j.start clock refused).config = j.config := by
  rw [Journal.start]
  split <;> rfl

theorem config_write (line : Bytes) (clock : Clock) (refused : Bool) (j : Journal) :
    (j.write line clock refused).config = j.config := by
  rw [Journal.write]
  split
  · split
    · exact config_start _ _ _
    · rfl
  · rfl

/-- Every operation of the program keeps the journal legible. -/
theorem LegibleJournal.step (h : LegibleJournal p j) (hp : p.next op = some q)
    (hop : LegibleOp parser op) (hs : journal.step j (op, refused) = some k) :
    LegibleJournal q k := by
  cases op with
  | boot config =>
    cases hs
    obtain ⟨⟨conv, file, rfl⟩, hr⟩ := hop
    exact ⟨fun _ => ⟨readConfigFile_configured conv _, hr⟩, h.sessions.boot _⟩
  | startLog fuel env =>
    cases hs
    have hoff : p ≠ .off := by
      rintro rfl
      cases hp
    exact ⟨fun _ => (config_start env.clock refused j).symm ▸ h.config hoff,
      h.sessions.start (h.new hoff hop)⟩
  | restartLogging fuel env =>
    cases hs
    have hoff : p ≠ .off := by
      rintro rfl
      cases hp
    exact ⟨fun _ => (config_start env.clock refused j).symm ▸ h.config hoff,
      h.sessions.start (h.new hoff hop)⟩
  | writeSdLine fuel env opens line =>
    cases hs
    have hoff : p ≠ .off := by
      rintro rfl
      cases hp
    obtain ⟨hclock, f, rfl⟩ := hop
    refine ⟨fun _ => (config_write f.line env.clock refused j).symm ▸ h.config hoff, ?_⟩
    exact h.sessions.write (h.new hoff hclock) (fun _ hx => hx.add f) fun _ hx => hx.fill
  | flushSdFile =>
    cases hs
    have hoff : p ≠ .off := by
      rintro rfl
      cases hp
    exact ⟨fun _ => h.config hoff, h.sessions.flush⟩
  | reopenFile succeeds => cases hs
  | setNoWriteFile b => cases hs
  | wifi w => cases hs

/-- After every run of the program from an empty card, below capacity and with Wifi disabled,
    whose configurations are read from files and have nothing to escape, each log on the card
    is read back as a session of the journal, with all its frames. -/
theorem logs_read_back (parser : Config) (eeprom : EEPROM) {ops : List Op} {s : System}
    (h : program.Run (fun s op => BelowCapacity s op ∧ LegibleOp parser op)
      (.initial ∅ eeprom) ops s)
    (hk : sessionCount s.device.trace ≤ 998) :
    ∃ acts j, acts.map Prod.fst = ops ∧ journal.Run Machine.Free {} acts j ∧
      ∀ name file, s.device.card.lookup name = some file →
        ∃ i x fs, j.files[i]? = some x ∧ name = logName (i + 1) ∧
          x.lines = fs.map Captured.line ∧
          readLog (fun text => (deserializeJson parser text).toOption) file =
            some (x.logged fs) := by
  obtain ⟨h₀, hr⟩ := h.of_final (P := fun s => sessionCount s.device.trace ≤ 998)
    (fun hs hk => (program_sessionCount_le hs).trans hk) hk
  obtain ⟨acts, j, hacts, hrun, ⟨hf, -⟩, hl⟩ := hr.simulates (n := journal) (f := Prod.fst)
    (R := fun s j => (Follows s j ∧ sessionCount s.device.trace ≤ 998) ∧ LegibleJournal s.phase j)
    (fun hR hg hs => by
      obtain ⟨refused, k, hj, hk⟩ := hR.1.1.step (Nat.lt_succ_of_le hR.1.2) hg.1.1 hs
      obtain ⟨phase, hp, hst⟩ := Option.bind_eq_some_iff.1 hs
      obtain ⟨d', -, rfl⟩ := Option.map_eq_some_iff.1 hst
      exact ⟨(_, refused), k, rfl, hj, ⟨hk, hg.2 _ hs⟩, hR.2.step hp hg.1.2 hj⟩)
    ⟨⟨follows_initial eeprom, h₀⟩, fun hoff => absurd rfl hoff,
      ⟨fun _ hx => absurd hx List.not_mem_nil, fun _ hc => nomatch hc⟩⟩
  refine ⟨acts, j, hacts, hrun, fun name file hfile => ?_⟩
  have hmem : name ∈ s.device.card := by
    rw [← Finmap.lookup_isSome, hfile]
    rfl
  obtain ⟨i, hi, rfl⟩ := hf.records.holds.only name hmem
  rw [hf.records.holds.file i hi] at hfile
  obtain ⟨x, hx, rfl⟩ := Option.map_eq_some_iff.1 hfile
  obtain ⟨fs, hof⟩ := hl.sessions.files x (List.mem_of_getElem? hx)
  exact ⟨i, x, fs, hx, rfl, hof.lines, readLog_text hof (readsJson_deserializeJson parser)⟩

/-- The configuration of a card without a configuration file. -/
theorem default_readable : HeaderReadable (readConfigFile truncation none) := by
  have hs {s : Bytes} (hp : Json.Plain s) (ha : Json.Ascii s) : StandsForItself s :=
    ⟨hp, Json.utf8_of_ascii ha⟩
  refine ⟨?_, ?_, ⟨?_, ?_, ?_⟩, ⟨?_, ?_, ?_⟩, ⟨?_, ?_, ?_⟩⟩
  all_goals first | exact hs (by decide) (by decide) | decide

/-- A frame is logged at some time. -/
def logAt (millis : ℕ) : Op :=
  .writeSdLine 1 .roomy (fun _ => true) (Captured.line ⟨someFrame, millis, 0⟩)

/-- Two logs, with two frames in the first and one in the second. -/
def twoLogs : List Op :=
  [.boot (readConfigFile truncation none), .startLog 1 .roomy, logAt 12345, .flushSdFile,
    logAt 12400, .restartLogging 1 .roomy, logAt 20000, .flushSdFile]

theorem logs_read_back_twoLogs :
    ∃ s, program.Run (fun s op => BelowCapacity s op ∧ LegibleOp ⟨true, fun _ => (0, 0)⟩ op)
        (.initial ∅ ⟨65535, 65535, 65535, 65535⟩) twoLogs s ∧
      (sessionCount s.device.trace = 2 ∧ sessionCount s.device.trace ≤ 998) ∧
      ∃ acts j, acts.map Prod.fst = twoLogs ∧ journal.Run Machine.Free {} acts j ∧
        ∀ name file, s.device.card.lookup name = some file →
          ∃ i x fs, j.files[i]? = some x ∧ name = logName (i + 1) ∧
            x.lines = fs.map Captured.line ∧
            readLog (fun text => (deserializeJson ⟨true, fun _ => (0, 0)⟩ text).toOption) file =
              some (x.logged fs) := by
  have hlegible : ∀ op ∈ twoLogs, LegibleOp ⟨true, fun _ => (0, 0)⟩ op := by
    have hboot : LegibleOp ⟨true, fun _ => (0, 0)⟩ (.boot (readConfigFile truncation none)) :=
      ⟨⟨truncation, [], rfl⟩, default_readable⟩
    have hclock : (0 : ℕ) < 2 ^ 32 := by decide
    have hlog (millis : ℕ) : LegibleOp ⟨true, fun _ => (0, 0)⟩ (logAt millis) := ⟨hclock, _, rfl⟩
    simp only [twoLogs, List.forall_mem_cons]
    exact ⟨hboot, hclock, hlog 12345, trivial, hlog 12400, hclock, hlog 20000, trivial,
      fun _ h => absurd h List.not_mem_nil⟩
  obtain ⟨s, hrun, hk⟩ : ∃ s, program.Run BelowCapacity
      (.initial ∅ ⟨65535, 65535, 65535, 65535⟩) twoLogs s ∧
      (sessionCount s.device.trace = 2 ∧ sessionCount s.device.trace ≤ 998) :=
    Machine.exists_run_of_any (by decide +kernel)
  have h := hrun.guard hlegible
  exact ⟨s, h, hk, logs_read_back ⟨true, fun _ => (0, 0)⟩ _ h hk.2⟩

end CanInsight
