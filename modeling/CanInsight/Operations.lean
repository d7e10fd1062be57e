import CanInsight.FreshLog
import CanInsight.LogNumbers

/-!
# What an operation is made of

Whatever an operation of the program does, it does in steps of four kinds: it
boots, it starts a log, it takes an upload for accepted, and for the rest it is
`Quiet`: it starts no log, removes no file and leaves the log numbers alone.

* `Starts`: the calls of `start_log` that an operation makes;
* `exec_rule`: what the four kinds of steps preserve, an operation preserves.
  The calls of `set_next_log_filename` in the starts are those the operation
  makes (`Enters`).
-/

namespace CanInsight

open CString

namespace Device

variable {d d' e : Device} {P : Device → Prop}

/-- The log numbers stay, no log is started, and no file is removed. -/
structure Quiet (d d' : Device) : Prop extends Still d d' where
  events : Extends (fun e => ¬ e.IsSession ∧ ¬ e.IsRemoved) d d'

theorem Quiet.trans (h : Quiet d e) (h' : Quiet e d') : Quiet d d' :=
  ⟨h.toStill.trans h'.toStill, h.events.trans h'.events⟩

theorem ofWrite_quiet (e : Event) (h : e.OfWrite) : ¬ e.IsSession ∧ ¬ e.IsRemoved := by
  cases e <;> first | exact ⟨id, id⟩ | exact h.elim

theorem ofTransfer_quiet (e : Event) (h : e.OfTransfer) : ¬ e.IsSession ∧ ¬ e.IsRemoved := by
  cases e <;> first | exact ⟨id, id⟩ | exact h.elim

theorem emit_quiet {ev : Event} (h : ¬ ev.IsSession ∧ ¬ ev.IsRemoved) (d : Device) :
    Quiet d (d.emit ev) :=
  ⟨emit_still ev d, .of_cons h rfl⟩

theorem putNextToTry_quiet (n : ℕ) (d : Device) : Quiet d (d.putNextToTry n) :=
  ⟨putNextToTry_still n d, .of_eq rfl⟩

theorem flags_quiet (timer noWrite : Bool) (d : Device) :
    Quiet d { d with canLogTimer := timer, noWriteFile := noWrite } :=
  ⟨flags_still timer noWrite d, .of_eq rfl⟩

theorem flushSdFile_quiet (d : Device) : Quiet d d.flushSdFile :=
  ⟨flushSdFile_still d, (flushSdFile_extends d).mono ofWrite_quiet⟩

theorem reopenFile_quiet (b : Bool) (d : Device) : Quiet d (d.reopenFile b) :=
  ⟨reopenFile_still b d, (reopenFile_extends b d).mono ofWrite_quiet⟩

theorem bufferLine_quiet (line : Bytes) (d : Device) : Quiet d (d.bufferLine line) :=
  ⟨bufferLine_still line d, (bufferLine_extends line d).mono (by rintro _ rfl; exact ⟨id, id⟩)⟩

theorem opened_printLine_quiet (line : Bytes) (d : Device) : Quiet d (d.opened.printLine line) :=
  ⟨(opened_still d).trans (printLine_still line _),
    (opened_printLine_extends line d).mono ofWrite_quiet⟩

theorem printEndLogLine_quiet (d : Device) : Quiet d d.printEndLogLine :=
  ⟨.of_filed ⟨_, _, _, _, rfl⟩ (fun _ => id) fun _ => .inl, .of_eq rfl⟩

/-- The calls of `start_log` that an operation makes, with the state each is made in. -/
inductive Starts (d : Device) : Op → Env → Device → Prop
  | startLog {fuel : ℕ} {env : Env} : Starts d (.startLog fuel env) env d
  | restartLogging {fuel : ℕ} {env : Env} : Starts d (.restartLogging fuel env) env d
  /-- The line makes the file too big. -/
  | writeSdLine {fuel : ℕ} {env : Env} {opens : ℕ → Bool} {line : Bytes} :
      d.logEnabled = true → d.noWriteFile = false →
      d.maxLogSize < (d.opened.printLine line).dataFileSize →
      Starts d (.writeSdLine fuel env opens line) env (d.opened.printLine line).printEndLogLine
  /-- Logging is restarted, as the clock was set. -/
  | wifi {w : WifiEnv} {fuel : ℕ} {env : Env} :
      w.connected = true → w.restart = some (fuel, env) →
      Starts d (.wifi w) env (DataUploader.construct d).2

/-! ## Uploads -/

variable (hquiet : ∀ {d e}, P d → Quiet d e → P e)
  (haccept : ∀ x name d, P d → P (d.acceptUpload x name))
include hquiet haccept

/-- What quiet steps and accepted uploads preserve, an upload preserves. -/
theorem uploadFile_rule {x : Exchange} {name : Name} (h : P d) : P (d.uploadFile x name).2 := by
  refine uploadFile_induct (fun ev d hev hd => ?_) (fun timer noWrite d hd => ?_)
    (fun k d hd => ?_) (fun d hd => ?_) (fun d hd _ => ?_) h
  · exact hquiet hd (emit_quiet (ofTransfer_quiet ev hev) d)
  · exact hquiet hd (flags_quiet timer noWrite d)
  · exact hquiet hd ((reopenFile_quiet _ d).trans (flushSdFile_quiet _))
  · exact hquiet hd (reopenFile_quiet _ d)
  · exact haccept x name _ (hquiet hd (emit_quiet ⟨id, id⟩ d))

theorem uploadRounds_rule (net : ℕ → Exchange) (fuel : ℕ) (u : DataUploader) (h : P d) :
    P (DataUploader.uploadRounds net fuel u d).2.2 := by
  refine DataUploader.uploadRounds_induct (P := fun _ => P) (fun name u d hd _ => ?_)
    (fun u d hd => ?_) h
  · exact uploadFile_rule hquiet haccept hd
  · have hq : Quiet d (d.emit (.advanced u.nextLogToUpload)) := emit_quiet ⟨id, id⟩ d
    exact hquiet hd (hq.trans (putNextToTry_quiet _ _))

/-! ## Operations -/

variable {op : Op} (hboot : ∀ {config}, op = .boot config → P d → P (d.boot config))
  (hstart : ∀ {fuel env b e e'}, P e → (∀ p, EntersStart env e p → Enters d op env p) →
    e.startLog fuel env = some (b, e') → P e')
include hstart

/-- The Wifi part of `setup`. -/
theorem wifi_rule {w : WifiEnv} (hop : op = .wifi w) (h : P d) (he : d.wifi w = some d') :
    P d' := by
  subst hop
  have hc : P (d.putNextToTry d.cursor) := hquiet h (putNextToTry_quiet _ d)
  cases wifi_of_wifi he with
  | unconnected => exact hc
  | @uploaded u v e f hcon hb hu =>
    have hP : P e := by
      cases (constructed_of_beforeUpload hb).2 with
      | kept => exact hc
      | restarted hr hs =>
        refine hstart hc (fun p hp => .wifi hcon hr ?_) hs
        rw [DataUploader.construct_eq]
        exact hp
    have hf := uploadRounds_rule hquiet haccept w.net w.rounds u hP
    rwa [hu] at hf

include hboot

/-- What boots, starts of logs, accepted uploads and quiet steps preserve, every
    operation preserves. -/
theorem exec_rule (h : P d) (he : d.exec op = some d') : P d' := by
  cases op with
  | boot config =>
    cases he
    exact hboot rfl h
  | startLog fuel env =>
    -- `setup` starts the timer after the log
    obtain ⟨⟨b, e⟩, hs, rfl⟩ := Option.map_eq_some_iff.1 he
    exact hquiet (hstart h (fun p hp => .startLog hp) hs) (flags_quiet true e.noWriteFile e)
  | restartLogging fuel env =>
    obtain ⟨⟨b, e⟩, hs, rfl⟩ := Option.map_eq_some_iff.1 he
    exact hstart h (fun p hp => .restartLogging hp) hs
  | writeSdLine fuel env opens line =>
    cases write_of_writeSdLine he with
    | disabled => exact h
    | buffered => exact hquiet h (bufferLine_quiet line d)
    | printed => exact hquiet h (opened_printLine_quiet line d)
    | rotated hl hb hsize hs =>
      have hq := (opened_printLine_quiet line d).trans (printEndLogLine_quiet _)
      exact hstart (hquiet h hq) (fun p hp => .writeSdLine hl hb hsize hp) hs
  | flushSdFile =>
    cases he
    exact hquiet h (flushSdFile_quiet d)
  | reopenFile succeeds =>
    cases he
    exact hquiet h (reopenFile_quiet succeeds d)
  | setNoWriteFile b =>
    cases he
    exact hquiet h (flags_quiet d.canLogTimer b d)
  | wifi w => exact wifi_rule hquiet haccept hstart rfl h he

omit hquiet haccept hboot hstart in
/-- The trace of a run only grows. -/
theorem exec_extends (he : d.exec op = some d') : Extends (fun _ => True) d d' := by
  refine exec_rule (P := Extends (fun _ => True) d) (fun hd hq => hd.trans hq.events.any)
    (fun x name e hd => hd.trans (acceptUpload_extends x name e).any)
    (fun {config} _ hd => hd.trans ?_) (fun hd _ hs => hd.trans (startLog_extends hs).any)
    (.refl d) he
  rw [boot_eq]
  split
  · exact .of_eq rfl
  · exact .of_eq rfl

end Device

end CanInsight
