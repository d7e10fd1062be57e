import CanInsight.FreshLog

/-!
# Confirmed logs are not uploaded again

The cursor of the uploader lives in the EEPROM and only moves on past logs for
which `upload_file` returned true. A log is uploaded again when the cursor is set
back: by the boot or the start that resets the log numbers, and by the constructor
of the uploader, which sets it to 1 when it is past its bound, as it is after the
last log up to the bound was uploaded and no other log was started since.

* `UploadedOnce`: no log is uploaded after it was confirmed;
* `CursorKept`: no operation sets a cursor that has moved back to 1;
* `uploaded_once`: in runs that keep the cursor, no log is uploaded again.
-/

namespace CanInsight

open CString

/-- No file is uploaded that was confirmed before. -/
def UploadedOnce : List Event → Prop
  | [] => True
  | .uploading name :: trace => .confirmed name ∉ trace ∧ UploadedOnce trace
  | _ :: trace => UploadedOnce trace

instance decidableUploadedOnce : DecidablePred UploadedOnce
  | [] => inferInstanceAs (Decidable True)
  | .uploading _ :: trace =>
    have := decidableUploadedOnce trace
    inferInstanceAs (Decidable (_ ∧ _))
  | .removed _ :: trace | .created _ :: trace | .session _ _ :: trace | .frames _ :: trace
  | .overrun :: trace | .getSent _ :: trace | .postSent _ :: trace | .bodySent _ :: trace
  | .getAnswered _ _ :: trace | .postAnswered _ _ :: trace | .confirmed _ :: trace
  | .advanced _ :: trace => decidableUploadedOnce trace

/-- The events but the call of `upload_file` and its return. -/
def Event.Between : Event → Prop
  | uploading _ | confirmed _ => False
  | _ => True

/-- No file is uploaded again, and those confirmed have numbers below `c`. -/
def Once (c : ℕ) (trace : List Event) : Prop :=
  UploadedOnce trace ∧
    ∀ name, .confirmed name ∈ trace → ∃ n < c, n ≤ maxLogNumber ∧ name = logName n

variable {es trace : List Event} {c c' n : ℕ} {name : Name}

theorem Once.mono (h : Once c trace) (hc : c ≤ c') : Once c' trace := by
  refine ⟨h.1, fun name hm => ?_⟩
  obtain ⟨n, hn, hn'⟩ := h.2 name hm
  exact ⟨n, Nat.lt_of_lt_of_le hn hc, hn'⟩

theorem Once.append (h : Once c trace) (hes : ∀ e ∈ es, e.Between) : Once c (es ++ trace) := by
  induction es with
  | nil => exact h
  | cons e es ih =>
    have he := hes e List.mem_cons_self
    obtain ⟨ho, hc⟩ := ih fun e h' => hes e (List.mem_cons_of_mem _ h')
    refine ⟨by cases e <;> first | exact absurd he id | exact ho, fun name hm => ?_⟩
    rcases List.mem_cons.1 hm with rfl | hm
    · exact absurd he id
    · exact hc name hm

/-- A log at the cursor or beyond was not confirmed. -/
theorem Once.uploading (h : Once c trace) (hc : c ≤ n) (hn : n ≤ maxLogNumber) :
    Once c (.uploading (logName n) :: trace) := by
  refine ⟨⟨fun hm => ?_, h.1⟩, fun name hm => h.2 name ?_⟩
  · obtain ⟨m, hm, hm', hname⟩ := h.2 _ hm
    exact absurd (logName_inj hn hm' hname) (by omega)
  · exact (List.mem_cons.1 hm).resolve_left (by simp)

theorem Once.confirmed (h : Once n trace) (hn : n ≤ maxLogNumber) :
    Once (n + 1) (.confirmed (logName n) :: trace) := by
  refine ⟨h.1, fun name hm => ?_⟩
  rcases List.mem_cons.1 hm with hm | hm
  · cases hm
    exact ⟨n, Nat.lt_succ_self n, hn, rfl⟩
  · exact (h.mono n.le_succ).2 name hm

namespace Device

variable {d d' e : Device} {fuel : ℕ} {env : Env} {b : Bool} {x : Exchange}

/-- The log numbers are reset when the first log does not exist. -/
def Resets (d : Device) : Prop := ¬ d.Shortcut ∧ d.nameFirst.logFile ∉ d.card

/-- No operation sets a cursor that is past log 1 back to 1. -/
def CursorKept (d : Device) (op : Op) : Prop :=
  (∀ env p, Enters d op env p → p.Resets → p.eeprom.uploaderNextToTry ≤ 1) ∧
    match op with
    | .boot _ =>
      d.eeprom.loggerNextLogNum > maxLogNumber ∨ d.eeprom.loggerFirstLogNum > maxLogNumber →
        d.eeprom.uploaderNextToTry ≤ 1
    | .wifi _ =>
      d.eeprom.uploaderNextToTry > d.eeprom.uploaderMaxLog ∨
        logName d.eeprom.uploaderNextToTry ∉ d.card → d.eeprom.uploaderNextToTry ≤ 1
    | _ => True

theorem NextLog.cursor (h : NextLog fuel env d b d') :
    d'.eeprom.uploaderNextToTry = d.eeprom.uploaderNextToTry ∨
      d'.eeprom.uploaderNextToTry = 1 ∧ d.Resets := by
  cases h with
  | reset hs hf => exact .inr ⟨rfl, hs, hf⟩
  | shortcut => exact .inl rfl
  | next => exact .inl rfl
  | found => exact .inl rfl
  | overwrite => exact .inl rfl
  | full => exact .inl rfl

/-- A start leaves the cursor, unless it resets the log numbers. -/
theorem startLog_cursor (h : d.startLog fuel env = some (b, d')) :
    d'.eeprom.uploaderNextToTry = d.eeprom.uploaderNextToTry ∨
      d'.eeprom.uploaderNextToTry = 1 ∧ ∃ p, EntersStart env d p ∧ p.Resets := by
  have hfreed {b : Bool} {e : Device}
      (hc : checkSdFreeSpace fuel env { d with logEnabled := false } = some (b, e)) :
      e.eeprom.uploaderNextToTry = d.eeprom.uploaderNextToTry := by
    obtain ⟨_, _, _, _, rfl⟩ := checkSdFreeSpace_freed hc
    rfl
  have hnext {b : Bool} {e f : Device}
      (hc : checkSdFreeSpace fuel env { d with logEnabled := false } = some (true, e))
      (hn : NextLog fuel env e b f) :
      f.eeprom.uploaderNextToTry = d.eeprom.uploaderNextToTry ∨
        f.eeprom.uploaderNextToTry = 1 ∧ ∃ p, EntersStart env d p ∧ p.Resets := by
    rcases hn.cursor with he | ⟨he, hr⟩
    · exact .inl (he.trans (hfreed hc))
    · exact .inr ⟨he, e, ⟨fuel, hc⟩, hr⟩
  cases start_of_startLog h with
  | noSpace hc => exact .inl (hfreed hc)
  | noName hc hn => exact hnext hc hn
  | @notOpened _ d₂ hc hn => exact hnext (f := d₂) hc hn
  | @opened _ d₂ hc hn => exact hnext (f := d₂) hc hn

/-- The invariant: no file was uploaded again, and the confirmed ones have numbers
    below the cursor. -/
def Ahead (d : Device) : Prop := Once d.eeprom.uploaderNextToTry d.trace

theorem Ahead.extends {P : Event → Prop} (h : Ahead d) (hx : Extends P d d')
    (hP : ∀ e, P e → e.Between)
    (hc : d'.eeprom.uploaderNextToTry = d.eeprom.uploaderNextToTry ∨
      d'.eeprom.uploaderNextToTry = 1 ∧ d.eeprom.uploaderNextToTry ≤ 1) : Ahead d' := by
  obtain ⟨es, ht, hes⟩ := hx
  have ho := h.append fun e he => hP e (hes e he)
  rw [Ahead, ht]
  rcases hc with hc | ⟨hc, hle⟩
  · rwa [hc]
  · rw [hc]
    exact ho.mono hle

theorem ofStart_between (e : Event) (h : e.OfStart) : e.Between := by
  cases e <;> trivial

theorem ofWrite_between (e : Event) (h : e.OfWrite) : e.Between := by
  cases e <;> trivial

theorem ofRequest_between (e : Event) (h : e.OfRequest) : e.Between := by
  cases e <;> trivial

theorem EntersStart.cursor {p : Device} (h : EntersStart env d p) :
    p.eeprom.uploaderNextToTry = d.eeprom.uploaderNextToTry := by
  obtain ⟨_, h⟩ := h
  obtain ⟨_, _, _, _, rfl⟩ := checkSdFreeSpace_freed h
  rfl

theorem Ahead.startLog (h : Ahead d)
    (hg : ∀ p, EntersStart env d p → p.Resets → p.eeprom.uploaderNextToTry ≤ 1)
    (hs : d.startLog fuel env = some (b, d')) : Ahead d' := by
  refine h.extends (startLog_extends hs) ofStart_between ?_
  rcases startLog_cursor hs with hc | ⟨hc, p, hp, hr⟩
  · exact .inl hc
  · exact .inr ⟨hc, hp.cursor ▸ hg p hp hr⟩

end Device

namespace DataUploader

open Device

variable {net : ℕ → Exchange} {u v : DataUploader} {d e f : Device} {buf : List Char} {b : Bool}

/-- What the rounds of `upload_data` hand on: the array names a log up to the bound,
    and the confirmed logs have numbers below it. -/
structure Ready (buf : List Char) (u : DataUploader) (d : Device) : Prop where
  bound : u.maxLogToUpload ≤ maxLogNumber
  names : Names u buf
  once : Once u.nextLogToUpload d.trace
  cell : u.nextLogToUpload ≤ d.eeprom.uploaderNextToTry

theorem Ready.max_lt (h : Ready buf u d) : u.maxLogToUpload < 65535 :=
  Nat.lt_of_le_of_lt h.bound (by decide)

theorem Ready.next_le (h : Ready buf u d) : u.nextLogToUpload ≤ maxLogNumber :=
  (h.names h.max_lt).1.trans h.bound

/-- The upload of a round. -/
theorem Ready.upload (h : Ready buf u d)
    (hu : d.uploadFile (net u.nextLogToUpload) (toText buf) = (b, e)) :
    Once (if b then u.nextLogToUpload + 1 else u.nextLogToUpload) e.trace ∧
      e.eeprom.uploaderNextToTry = d.eeprom.uploaderNextToTry := by
  have hc := (uploadFile_cursor (net u.nextLogToUpload) (toText buf) d).1
  rw [hu] at hc
  refine ⟨?_, hc⟩
  rw [h.names.toText h.max_lt] at hu
  obtain ⟨es, hes, ht⟩ := (upload_of_uploadFile hu).trace_eq
  have ho : Once u.nextLogToUpload (es ++ .uploading (logName u.nextLogToUpload) :: d.trace) :=
    (h.once.uploading le_rfl h.next_le).append fun e he => ofRequest_between e (hes e he)
  rw [ht]
  cases b with
  | false => exact ho
  | true => exact ho.confirmed h.next_le

/-- The step of the cursor after a round. -/
theorem Ready.increment (h : Ready buf u d)
    (hu : d.uploadFile (net u.nextLogToUpload) (toText buf) = (true, e))
    (hv : u.incrementNextLogToUpload e = (b, v, f)) :
    v.nextLogToUpload = u.nextLogToUpload + 1 ∧ v.maxLogToUpload = u.maxLogToUpload ∧
      f.eeprom.uploaderNextToTry = v.nextLogToUpload ∧ Once v.nextLogToUpload f.trace := by
  have hn : u16 (u.nextLogToUpload + 1) = u.nextLogToUpload + 1 :=
    u16_of_lt (Nat.lt_of_le_of_lt (Nat.succ_le_succ h.next_le) (by decide))
  rw [incrementNextLogToUpload, Prod.mk.injEq, Prod.mk.injEq] at hv
  obtain ⟨-, rfl, rfl⟩ := hv
  refine ⟨hn, rfl, rfl, ?_⟩
  have hes : ∀ e ∈ [Event.advanced u.nextLogToUpload], e.Between := by simp [Event.Between]
  exact hn.symm ▸ (h.upload hu).1.append hes

/-- `upload_data` uploads no log again. -/
theorem uploadRounds_ahead (net : ℕ → Exchange) (fuel : ℕ) (hm : u.maxLogToUpload ≤ maxLogNumber)
    (ho : Once u.nextLogToUpload d.trace) (hc : u.nextLogToUpload ≤ d.eeprom.uploaderNextToTry) :
    Ahead (uploadRounds net fuel u d).2.2 := by
  rw [uploadRounds]
  split
  · exact ho.mono hc
  · next hle =>
    dsimp only
    split
    · exact ho.mono hc
    · refine uploadLoop_rule (P := Ready) (Q := fun _ => Ahead)
        (fun _ _ _ h => h.once.mono h.cell) (fun _ u d e h _ hu => ?_)
        (fun _ u d e v f h _ hu hv => ?_) (fun _ u d e v f h _ hu hv => ?_)
        ⟨hm, fun _ => ⟨Nat.not_lt.1 hle, rfl⟩, ho, hc⟩
      · obtain ⟨ho, hc⟩ := h.upload hu
        exact ho.mono (h.cell.trans hc.ge)
      · obtain ⟨-, -, hc, ho⟩ := h.increment hu hv
        rwa [Ahead, hc]
      · obtain ⟨-, hm, hc, ho⟩ := h.increment hu hv
        exact ⟨hm.le.trans h.bound, h.names.next hv, ho, hc.ge⟩

end DataUploader

namespace Device

variable {d d' p : Device} {op : Op} {env : Env}

/-- There are at most `MAX_LOG_NUMBER` logs to upload. -/
def FewLogs (d : Device) : Op → Prop
  | .wifi _ => d.eeprom.uploaderMaxLog ≤ maxLogNumber
  | _ => True

/-- A constructor that keeps the cursor. -/
theorem Ahead.construct (h : Ahead d)
    (hc : d.eeprom.uploaderNextToTry > d.eeprom.uploaderMaxLog ∨
      logName d.eeprom.uploaderNextToTry ∉ d.card → d.eeprom.uploaderNextToTry ≤ 1) :
    Once d.cursor d.trace := by
  unfold cursor
  split
  · next hr => exact h.mono (hc hr)
  · exact h

theorem Ahead.wifi {w : WifiEnv} (h : Ahead d) (hf : FewLogs d (.wifi w))
    (hg : CursorKept d (.wifi w)) (hw : d.wifi w = some d') : Ahead d' := by
  have hcur := h.construct hg.2
  cases wifi_of_wifi hw with
  | unconnected => exact hcur
  | @uploaded u v e f hc hb hr =>
    obtain ⟨rfl, hcon⟩ := constructed_of_beforeUpload hb
    -- the uploader keeps the cursor that it was constructed with, over a restart of logging
    have hu : Once d.cursor e.trace ∧ d.cursor ≤ e.eeprom.uploaderNextToTry := by
      cases hcon with
      | kept => exact ⟨hcur, le_rfl⟩
      | @restarted fuel env b e hres hst =>
        have hent {p : Device} (hp : EntersStart env (d.putNextToTry d.cursor) p) :
            Enters d (.wifi w) env p := by
          refine .wifi hc hres ?_
          rw [DataUploader.construct_eq]
          exact hp
        obtain ⟨es, ht, hes⟩ := startLog_extends hst
        refine ⟨?_, ?_⟩
        · rw [ht]
          exact hcur.append fun ev hev => ofStart_between ev (hes ev hev)
        · -- a cursor that is set back by the restart was at 1
          rcases startLog_cursor hst with hc' | ⟨hc', p, hp, hr⟩
          · exact hc'.ge
          · have hle : d.cursor ≤ 1 := by
              have hcell : p.eeprom.uploaderNextToTry = d.cursor := hp.cursor
              rw [← hcell]
              exact hg.1 env p (hent hp) hr
            exact hle.trans hc'.ge
    have ha := DataUploader.uploadRounds_ahead (u := ⟨d.cursor, d.eeprom.uploaderMaxLog⟩) w.net
      w.rounds hf hu.1 hu.2
    rwa [hr] at ha

/-- The invariant is kept by every operation that keeps the cursor. -/
theorem Ahead.exec (h : Ahead d) (hf : FewLogs d op) (hg : CursorKept d op)
    (he : d.exec op = some d') : Ahead d' := by
  cases op with
  | boot config =>
    cases he
    rw [boot_eq]
    split
    · next hr =>
      exact h.extends (P := Event.OfWrite) (.of_eq rfl) ofWrite_between (.inr ⟨rfl, hg.2 hr⟩)
    · exact h
  | startLog fuel env =>
    obtain ⟨⟨b, e⟩, hst, rfl⟩ := Option.map_eq_some_iff.1 he
    have he : Ahead e := h.startLog (fun p hp => hg.1 env p (.startLog hp)) hst
    exact he
  | restartLogging fuel env =>
    obtain ⟨⟨b, e⟩, hst, rfl⟩ := Option.map_eq_some_iff.1 he
    exact h.startLog (fun p hp => hg.1 env p (.restartLogging hp)) hst
  | writeSdLine fuel env opens line =>
    have hprint : Ahead (d.opened.printLine line) := by
      obtain ⟨_, _, _, _, hd⟩ := (opened_filed d).trans (printLine_filed line _)
      exact h.extends (opened_printLine_extends line d) ofWrite_between (.inl (by rw [hd]))
    cases write_of_writeSdLine he with
    | disabled => exact h
    | buffered =>
      obtain ⟨_, _, _, _, hd⟩ := bufferLine_filed line d
      exact h.extends (bufferLine_extends line d) (by rintro _ rfl; trivial) (.inl (by rw [hd]))
    | printed => exact hprint
    | rotated hl hb hs hst =>
      have hend : Ahead (d.opened.printLine line).printEndLogLine := hprint
      exact hend.startLog (fun p hp => hg.1 env p (.writeSdLine hl hb hs hp)) hst
  | flushSdFile =>
    cases he
    obtain ⟨_, _, _, _, hd⟩ := flushSdFile_filed d
    exact h.extends (flushSdFile_extends d) ofWrite_between (.inl (by rw [hd]))
  | reopenFile succeeds =>
    cases he
    exact h.extends (reopenFile_extends succeeds d) ofWrite_between (.inl rfl)
  | setNoWriteFile b =>
    cases he
    exact h
  | wifi w => exact h.wifi hf hg he

/-- In every run from any card and EEPROM contents that keeps the cursor, no log is
    uploaded again after it was confirmed. -/
theorem uploaded_once (card : Card) (eeprom : EEPROM) {ops : List Op}
    (h : anyOrder.Run (fun d op => FewLogs d op ∧ CursorKept d op) (initial card eeprom) ops d) :
    UploadedOnce d.trace := by
  have h₀ : Ahead (initial card eeprom) := ⟨trivial, fun _ hm => absurd hm List.not_mem_nil⟩
  have hd : Ahead d := h.invariant (P := Ahead) (fun hd hg he => hd.exec hg.1 hg.2 he) h₀
  exact hd.1

/-- While the cursor is at log 1, it is kept. -/
theorem cursorKept_of_le (h : d.eeprom.uploaderNextToTry ≤ 1) (op : Op) : CursorKept d op := by
  refine ⟨fun env p he _ => ?_, ?_⟩
  · cases he with
    | startLog hp => exact hp.cursor.trans_le h
    | restartLogging hp => exact hp.cursor.trans_le h
    | writeSdLine _ _ _ hp =>
      refine hp.cursor.trans_le ?_
      obtain ⟨_, _, _, _, hd⟩ := (opened_filed d).trans (printLine_filed _ d.opened)
      rw [printEndLogLine, print_eeprom, hd]
      exact h
    | wifi _ _ hp =>
      refine hp.cursor.trans_le ?_
      rw [DataUploader.construct_eq]
      unfold cursor
      split
      · exact le_rfl
      · exact h
  · cases op <;> first | exact fun _ => h | trivial

/-- A start that finds the first log keeps the cursor. -/
theorem cursorKept_of_freed {fuel f : ℕ}
    (hop : op = .startLog fuel env ∨ op = .restartLogging fuel env)
    (hc : checkSdFreeSpace f env { d with logEnabled := false } = some (true, p))
    (hp : p.nameFirst.logFile ∈ p.card) : CursorKept d op := by
  have hent {env' : Env} {p' : Device} (he : Enters d op env' p') :
      env' = env ∧ EntersStart env d p' := by
    rcases hop with rfl | rfl
    · cases he with
      | startLog hp => exact ⟨rfl, hp⟩
    · cases he with
      | restartLogging hp => exact ⟨rfl, hp⟩
  refine ⟨fun env' p' he hr => ?_, ?_⟩
  · obtain ⟨rfl, hp'⟩ := hent he
    obtain ⟨-, rfl⟩ := hp'.unique hc
    exact absurd hp hr.2
  · rcases hop with rfl | rfl <;> trivial

/-- Three boots, and uploads on the second and the third. -/
def twoUploads : List Op :=
  [.boot {}, .startLog 1 .roomy, .boot {}, .startLog 1 .roomy, .wifi .hasAll,
    .boot {}, .startLog 1 .roomy, .wifi .hasAll]

theorem uploaded_once_twoUploads :
    ∃ d, anyOrder.Run (fun d op => FewLogs d op ∧ CursorKept d op) (initial ∅ ⟨1, 0, 1, 0⟩)
        twoUploads d ∧
      (.uploading (logName 1) ∈ d.trace ∧ .uploading (logName 2) ∈ d.trace) ∧
      UploadedOnce d.trace :=
  have hk {d : Device} (op : Op) (h : d.eeprom.uploaderNextToTry ≤ 1) := cursorKept_of_le h op
  have hno {d p : Device} {env : Env} (he : Enters d (.wifi .hasAll) env p) : False := by
    cases he with
    | wifi _ hr => cases hr
  have h := .cons ⟨trivial, hk _ (by decide)⟩ rfl (.cons ⟨trivial, hk _ (by decide)⟩ rfl
    (.cons ⟨trivial, hk _ (by decide)⟩ rfl (.cons ⟨trivial, hk _ (by decide)⟩ rfl
    (.cons ⟨by unfold FewLogs; decide, hk _ (by decide)⟩ rfl
    (.cons ⟨trivial, fun _ _ he => (by cases he), by decide⟩ rfl
    (.cons ⟨trivial, cursorKept_of_freed (f := 1) (.inl rfl) rfl (by decide)⟩ rfl
    (.cons ⟨by unfold FewLogs; decide, fun _ _ he => (hno he).elim, by decide⟩ rfl (.nil _))))))))
  ⟨_, h, by decide +kernel, uploaded_once _ _ h⟩

end Device

/-- The first log is uploaded on the second boot and the second log on the third, on
    which no log is started. On the fourth, the first log is uploaded again. -/
theorem log_one_uploaded_again :
    ∃ s, program.Run Machine.Free (.initial ∅ ⟨1, 0, 1, 0⟩)
        [.boot {}, .startLog 1 .roomy, .boot {}, .startLog 1 .roomy, .wifi .hasAll,
          .boot {}, .startLog 1 .full, .wifi .hasAll,
          .boot {}, .startLog 1 .full, .wifi .hasAll] s ∧
      ¬ UploadedOnce s.device.trace := by
  refine ⟨_, .cons trivial rfl (.cons trivial rfl (.cons trivial rfl (.cons trivial rfl
    (.cons trivial rfl (.cons trivial rfl (.cons trivial rfl (.cons trivial rfl
      (.cons trivial rfl (.cons trivial rfl (.cons trivial rfl (.nil _))))))))))), ?_⟩
  decide +kernel

end CanInsight
