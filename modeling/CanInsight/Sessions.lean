import CanInsight.Frame
import CanInsight.Operations

/-!
# Sessions

The calls that reach the log files, while CAN messages arrive: `can_callback` takes
a frame at any time, also between the steps of an upload, which leaves the frame in
the write buffer.

* `logging`: the calls in any order, an upload being taken apart into its steps;
* `uploadFile_run`: `upload_file`, with any exchange, is a run of such steps;
* `startedSession`: the log that a call started, if it started one;
* `Shrinks`: what freeing space and finding a name leave of the files.
-/

namespace CanInsight

open CString

/-- The calls that reach the log files. -/
inductive LogOp
  /-- A boot with the configuration then read from the card, `start_log`, and the start
      of the timer. -/
  | boot (config : ConfigManager) (fuel : ℕ) (env : Env)
  | restartLogging (fuel : ℕ) (env : Env)
  | canCallback (msg : CANMessage) (millis fuel : ℕ) (env : Env) (opens : ℕ → Bool)
  | flushSdFile
  | reopenFile (succeeds : Bool)
  /-- `can_log_timer` is started or stopped, and `no_write_file` set. -/
  | setFlags (timer noWrite : Bool)
  /-- An event of a transfer, which touches no file. -/
  | transfer (e : {e : Event // e.OfTransfer})
  | acceptUpload (x : Exchange) (fileName : Name)

/-- The steps that uploads are made of. -/
def LogOp.OfUpload : LogOp → Prop
  | flushSdFile | reopenFile _ | setFlags _ _ | transfer _ | acceptUpload _ _ => True
  | _ => False

namespace Device

/-- `can_callback`. -/
def canCallback (msg : CANMessage) (millis fuel : ℕ) (env : Env) (opens : ℕ → Bool)
    (d : Device) : Option Device :=
  writeSdLine env fuel opens (canFrameToStr msg millis d.logStartMillis) d

/-- The effect of a call, if it returns. -/
def logStep (d : Device) : LogOp → Option Device
  | .boot config fuel env =>
    ((d.boot config).startLog fuel env).map fun r => { r.2 with canLogTimer := true }
  | .restartLogging fuel env => d.restartLogging fuel env
  | .canCallback msg millis fuel env opens => d.canCallback msg millis fuel env opens
  | .flushSdFile => some d.flushSdFile
  | .reopenFile succeeds => some (d.reopenFile succeeds)
  | .setFlags timer noWrite => some { d with canLogTimer := timer, noWriteFile := noWrite }
  | .transfer e => some (d.emit e)
  | .acceptUpload x fileName => some (d.acceptUpload x fileName)

end Device

/-- The calls in any order. -/
def logging : Machine Device LogOp := ⟨Device.logStep⟩

namespace Device

/-- An upload is a run of its steps, whatever the exchange: frames that arrive and flushes
    of the timer come between them in other runs. -/
theorem uploadFile_run {G : Device → LogOp → Prop} (hG : ∀ e op, op.OfUpload → G e op)
    (x : Exchange) (name : Name) (d : Device) :
    ∃ ops, (∀ op ∈ ops, op.OfUpload) ∧ logging.Run G d ops (d.uploadFile x name).2 := by
  have hstep {e f : Device} (op : LogOp) (hop : op.OfUpload) (hs : e.logStep op = some f)
      (h : ∃ ops, (∀ op ∈ ops, op.OfUpload) ∧ logging.Run G d ops e) :
      ∃ ops, (∀ op ∈ ops, op.OfUpload) ∧ logging.Run G d ops f := by
    obtain ⟨ops, ho, hr⟩ := h
    refine ⟨ops ++ [op], fun o h => ?_, hr.append (.single (hG e op hop) hs)⟩
    rcases List.mem_append.1 h with h | h
    · exact ho o h
    · exact List.mem_singleton.1 h ▸ hop
  refine uploadFile_induct (P := fun e => ∃ ops, (∀ op ∈ ops, op.OfUpload) ∧
      logging.Run G d ops e) (fun ev e hev he => ?_) (fun timer noWrite e he => ?_)
    (fun k e he => ?_) (fun e he => ?_) (fun e he _ => ?_)
    ⟨[], fun _ h => absurd h List.not_mem_nil, .nil d⟩
  · exact hstep (.transfer ⟨ev, hev⟩) trivial rfl he
  · exact hstep (.setFlags timer noWrite) trivial rfl he
  · exact hstep .flushSdFile trivial rfl
      (hstep (.reopenFile (x.reopens k)) trivial rfl he)
  · exact hstep (.reopenFile x.reopensAtEnd) trivial rfl he
  · exact hstep (.acceptUpload x name) trivial rfl
      (hstep (.transfer ⟨.postAnswered name x.response, trivial⟩) trivial rfl he)

/-! ## The session that a call starts -/

end Device

/-- The latest session of a trace. -/
def lastSession : List Event → Option (Name × Option Bytes)
  | [] => none
  | .session name found :: _ => some (name, found)
  | _ :: trace => lastSession trace

/-- The session by which a trace is longer, if it is. -/
def startedSession (trace trace' : List Event) : Option (Name × Option Bytes) :=
  if sessionCount trace < sessionCount trace' then lastSession trace' else none

namespace Device

variable {P : Event → Prop} {fuel : ℕ} {env : Env} {b : Bool} {d d' e : Device} {name : Name}

theorem Extends.startedSession_eq (hP : ∀ e, P e → ¬ e.IsSession) (h : Extends P d d') :
    startedSession d.trace d'.trace = none :=
  if_neg (Nat.not_lt.2 (h.sessionCount_eq hP).le)

/-- Nothing before the start counts. -/
theorem Extends.startedSession_left (hP : ∀ e, P e → ¬ e.IsSession) (h : Extends P d e)
    (trace : List Event) : startedSession d.trace trace = startedSession e.trace trace := by
  rw [startedSession, startedSession, h.sessionCount_eq hP]

theorem startedSession_logOpened (clock : Clock) (d : Device) :
    startedSession d.trace (d.logOpened clock).trace =
      some (d.logFile, d.card.lookup d.logFile) := by
  rw [startedSession, if_pos (by rw [logOpened_sessionCount]; exact Nat.lt_succ_self _),
    logOpened_trace]
  split <;> rfl

theorem startedSession_logNotOpened (d : Device) :
    startedSession d.trace d.logNotOpened.trace = some (d.logFile, d.card.lookup d.logFile) := by
  rw [startedSession, logNotOpened_trace]
  exact if_pos (Nat.lt_succ_self _)

theorem isRemoved_not_isSession (e : Event) (h : e.IsRemoved) : ¬ e.IsSession := by
  cases e <;> first | exact id | exact h.elim

/-- What `start_log` adds to the trace while it frees space. -/
theorem freed_extends
    (hc : checkSdFreeSpace fuel env { d with logEnabled := false } = some (b, e)) :
    Extends Event.IsRemoved d e :=
  have hx : Extends Event.IsRemoved { d with logEnabled := false } e := checkSdFreeSpace_extends hc
  hx

/-- What leads to the opening of a log starts no session. -/
theorem startedSession_of_named {d₁ d₂ : Device}
    (hc : checkSdFreeSpace fuel env { d with logEnabled := false } = some (b, d₁))
    {b' : Bool} (hn : NextLog fuel env d₁ b' d₂) (trace : List Event) :
    startedSession d.trace trace = startedSession d₂.trace trace :=
  ((freed_extends hc).trans hn.extends).startedSession_left isRemoved_not_isSession trace

/-- The events of the steps of an upload start no session. -/
theorem ofUpload_startedSession {op : LogOp} (hop : op.OfUpload) (hs : d.logStep op = some e) :
    startedSession d.trace e.trace = none := by
  have hquiet {P : Event → Prop} (hP : ∀ ev, P ev → ¬ ev.IsSession) (h : Extends P d e) :
      startedSession d.trace e.trace = none := h.startedSession_eq hP
  cases op with
  | boot => exact hop.elim
  | restartLogging => exact hop.elim
  | canCallback => exact hop.elim
  | flushSdFile =>
    cases hs
    exact hquiet (fun ev h => (ofWrite_quiet ev h).1) (flushSdFile_extends d)
  | reopenFile b =>
    cases hs
    exact hquiet (fun ev h => (ofWrite_quiet ev h).1) (reopenFile_extends b d)
  | setFlags =>
    cases hs
    exact hquiet (P := fun _ => False) (fun _ => False.elim) (.of_eq rfl)
  | transfer ev =>
    cases hs
    exact hquiet (fun ev h => (ofTransfer_quiet ev h).1) (.of_cons ev.2 rfl)
  | acceptUpload x name =>
    cases hs
    exact hquiet isRemoved_not_isSession (acceptUpload_extends x name d)

/-! ## What becomes of the files -/

/-- A boot keeps the files, and loses the rest. -/
theorem boot_files (config : ConfigManager) (d : Device) :
    (d.boot config).card = d.card ∧ (d.boot config).dataFile = none ∧
      (d.boot config).writeBuffer = [] ∧ (d.boot config).trace = d.trace := by
  rw [boot_eq]
  split <;> exact ⟨rfl, rfl, rfl, rfl⟩

theorem syncedCard_lookup_cases {content : Bytes} (h : d.syncedCard.lookup name = some content) :
    d.card.lookup name = some content ∨
      ∃ f, d.dataFile = some f ∧ f.name = name ∧ f.data = content := by
  cases hf : d.dataFile with
  | none => exact .inl (by rwa [syncedCard_of_none hf] at h)
  | some f =>
    by_cases hm : f.name ∈ d.card
    · rw [syncedCard_of_mem hf hm] at h
      by_cases hn : name = f.name
      · rw [hn, Finmap.lookup_insert] at h
        exact .inr ⟨f, rfl, hn.symm, Option.some.inj h⟩
      · exact .inl (by rwa [Finmap.lookup_insert_of_ne _ hn] at h)
    · exact .inl (by rwa [syncedCard_of_not_mem hf hm] at h)

/-- Neither a file of the card nor `data_file` gets longer. -/
structure Shrinks (d d' : Device) : Prop where
  card : ∀ name content, d'.card.lookup name = some content → d.card.lookup name = some content
  file : d'.dataFile = d.dataFile
  buffer : d'.writeBuffer = d.writeBuffer
  maxLogSize : d'.maxLogSize = d.maxLogSize
  config : d'.config = d.config

theorem Shrinks.trans (h : Shrinks d e) (h' : Shrinks e d') : Shrinks d d' :=
  ⟨fun name content hc => h.card name content (h'.card name content hc),
    h'.file.trans h.file, h'.buffer.trans h.buffer, h'.maxLogSize.trans h.maxLogSize,
    h'.config.trans h.config⟩

theorem sdRemove_shrinks (succeeds : Bool) (name : Name) (d : Device) :
    Shrinks d (d.sdRemove succeeds name) := by
  refine ⟨fun name' content hc => ?_, rfl, rfl, rfl, rfl⟩
  rw [sdRemove_card] at hc
  split at hc
  · by_cases hn : name' = name
    · rw [hn, Finmap.lookup_erase] at hc
      cases hc
    · rwa [Finmap.lookup_erase_ne hn] at hc
  · exact hc

theorem checkSdFreeSpace_shrinks (h : d.checkSdFreeSpace fuel env = some (b, d')) :
    Shrinks d d' := by
  refine (freeSpaceLoop_induct (P := fun _ e => Shrinks d e) (fun buf e he _ _ => ?_)
    ⟨fun _ _ => id, rfl, rfl, rfl, rfl⟩ h).elim fun _ h => h
  have hr := he.trans (sdRemove_shrinks (env.removes (toText buf)) (toText buf) e)
  exact ⟨hr.card, hr.file, hr.buffer, hr.maxLogSize, hr.config⟩

theorem searched_shrinks (buf : List Char) (d : Device) : Shrinks d (d.searched buf) :=
  ⟨fun _ _ h => by rwa [searched_card] at h, searched_dataFile buf d, searched_writeBuffer buf d,
    searched_maxLogSize buf d, searched_config buf d⟩

theorem useNumber_shrinks (n : ℕ) (d : Device) : Shrinks d (d.useNumber n) :=
  ⟨fun _ _ => id, rfl, rfl, rfl, rfl⟩

theorem overwriteFirst_shrinks (env : Env) (d : Device) : Shrinks d (d.overwriteFirst env) :=
  have hr := sdRemove_shrinks (env.removes (d.setLogFileName d.firstLogFileNumber).logFile)
    (d.setLogFileName d.firstLogFileNumber).logFile (d.setLogFileName d.firstLogFileNumber)
  ⟨hr.card, rfl, rfl, rfl, rfl⟩

theorem overwriteNext_shrinks (env : Env) (d : Device) : Shrinks d (d.overwriteNext env) :=
  have hr := sdRemove_shrinks (env.removes (d.setLogFileName d.nextLogFileNumber).logFile)
    (d.setLogFileName d.nextLogFileNumber).logFile (d.setLogFileName d.nextLogFileNumber)
  ⟨hr.card, rfl, rfl, rfl, rfl⟩

theorem nameNext_shrinks (d : Device) : Shrinks d d.nameNext :=
  ⟨fun _ _ h => by rwa [nameNext_card] at h, nameNext_dataFile d, nameNext_writeBuffer d,
    nameNext_maxLogSize d, nameNext_config d⟩

theorem NextLog.shrinks (h : NextLog fuel env d b d') : Shrinks d d' := by
  cases h with
  | shortcut => exact overwriteNext_shrinks env d
  | reset => exact ⟨fun _ _ => id, rfl, rfl, rfl, rfl⟩
  | next => exact (nameNext_shrinks d).trans (useNumber_shrinks _ _)
  | found => exact (searched_shrinks _ d).trans (useNumber_shrinks _ _)
  | overwrite => exact (searched_shrinks _ d).trans (overwriteFirst_shrinks env _)
  | full => exact searched_shrinks _ d

end Device

end CanInsight
