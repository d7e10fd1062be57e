import CanInsight.Operations

/-!
# After a start that failed

When `start_log` returns 0, lines are no longer logged, but `flush_sd_file`,
`reopen_file` and the uploads do not look at that: they print what is in the write
buffer, bring the directory entry of `data_file` up to date, and create the log file
if it does not exist.

* `idle`: the calls that may follow, in any order and with any outcome;
* `NothingWaits`: nothing is left that they could bring to the card;
* `disabled_card_iff`: they leave the card alone, whatever their order, if and only if
  nothing waits.
-/

namespace CanInsight

/-- The calls that may follow a start that failed. -/
inductive IdleOp
  | writeSdLine (fuel : ℕ) (env : Env) (opens : ℕ → Bool) (line : Bytes)
  | flushSdFile
  | reopenFile (succeeds : Bool)
  | uploadFile (x : Exchange) (fileName : Name)
  | uploadData (net : ℕ → Exchange) (fuel : ℕ) (u : DataUploader)

namespace Device

/-- The effect of a call, if it returns. -/
def idleStep (d : Device) : IdleOp → Option Device
  | .writeSdLine fuel env opens line => writeSdLine env fuel opens line d
  | .flushSdFile => some d.flushSdFile
  | .reopenFile succeeds => some (d.reopenFile succeeds)
  | .uploadFile x fileName => some (d.uploadFile x fileName).2
  | .uploadData net fuel u => (u.uploadData net fuel d).map (·.2)

end Device

/-- The calls in any order. -/
def idle : Machine Device IdleOp := ⟨Device.idleStep⟩

namespace Device

variable {fuel : ℕ} {env : Env} {b : Bool} {d d' d₀ e : Device} {op : IdleOp}

/-- What the card has under the name of the log. -/
def logContent (d : Device) : Bytes := (d.card.lookup d.logFile).getD []

/-- The log file as `reopen_file` opens it, at a position. -/
def logAt (pos : ℕ) (d : Device) : OpenFile :=
  OpenFile.seek ⟨d.logFile, d.logContent, d.logContent.length⟩ pos

/-- Nothing is left that could be brought to the card: the log file is there, as is what
    was printed to `data_file`, and printing the write buffer makes no difference to
    either, at the position of `data_file` or at the beginning. -/
structure NothingWaits (d : Device) : Prop where
  mem : d.logFile ∈ d.card
  printed : ∀ f, d.dataFile = some f → f.name ∈ d.card →
    d.card.lookup f.name = some f.data ∧ (f.write d.writeBuffer).data = f.data
  again : ∀ pos, pos = d.dataFilePosition ∨ pos = 0 →
    ((d.logAt pos).write d.writeBuffer).data = d.logContent

/-- A start that fails leaves logging disabled. -/
theorem logEnabled_of_startLog (h : d.startLog fuel env = some (false, e)) :
    e.logEnabled = false := by
  have hnext {b : Bool} {e f : Device} (hn : NextLog fuel env e b f) :
      f.logEnabled = e.logEnabled := by
    cases hn <;> rfl
  have hfreed {b : Bool} {e : Device}
      (hc : checkSdFreeSpace fuel env { d with logEnabled := false } = some (b, e)) :
      e.logEnabled = false := by
    obtain ⟨_, _, _, _, rfl⟩ := checkSdFreeSpace_freed hc
    rfl
  cases start_of_startLog h with
  | noSpace hc => exact hfreed hc
  | noName hc hn => exact (hnext hn).trans (hfreed hc)
  | notOpened hc hn => exact (hnext hn).trans (hfreed hc)

/-! ## Nothing waits, and nothing comes -/

theorem write_nil (f : OpenFile) : (f.write []).data = f.data := by
  rw [OpenFile.write, List.append_nil, List.length_nil, Nat.add_zero, List.take_append_drop]

/-- The card does not change when what was printed is on it. -/
theorem syncedCard_eq (h : ∀ f, d.dataFile = some f → f.name ∈ d.card →
    d.card.lookup f.name = some f.data) : d.syncedCard = d.card := by
  cases hf : d.dataFile with
  | none => exact syncedCard_of_none hf
  | some f =>
    by_cases hm : f.name ∈ d.card
    · rw [syncedCard_of_mem hf hm]
      refine Finmap.ext_lookup fun name => ?_
      by_cases hn : name = f.name
      · rw [hn, Finmap.lookup_insert, h f hf hm]
      · exact Finmap.lookup_insert_of_ne _ hn
    · exact syncedCard_of_not_mem hf hm

/-- Logging is disabled, no log is deleted after its upload, and nothing waits. -/
structure Idle (card : Card) (d : Device) : Prop extends NothingWaits d where
  card_eq : d.card = card
  disabled : d.logEnabled = false
  keeps : d.config.deleteUploadedLogs = false

variable {card : Card}

/-- The flags, the EEPROM and the trace are of no account. -/
theorem Idle.congr (h : Idle card d) (timer noWrite : Bool) (eeprom : EEPROM)
    (trace : List Event) :
    Idle card { d with
      canLogTimer := timer, noWriteFile := noWrite, eeprom := eeprom, trace := trace } :=
  ⟨⟨h.mem, h.printed, h.again⟩, h.card_eq, h.disabled, h.keeps⟩

theorem Idle.flushSdFile (h : Idle card d) : Idle card d.flushSdFile := by
  have hfile : d.drainBuffer.dataFile = d.dataFile.map (·.write d.writeBuffer) := by
    rw [drainBuffer_eq]
  have hbuf : d.drainBuffer.writeBuffer = [] := by rw [drainBuffer_eq]
  have hname : d.drainBuffer.logFileName = d.logFileName := by rw [drainBuffer_eq]
  -- what is printed to `data_file` is on the card already
  have hprinted : ∀ f, d.drainBuffer.dataFile = some f → f.name ∈ d.drainBuffer.card →
      d.drainBuffer.card.lookup f.name = some f.data := by
    rintro _ hf hm
    rw [hfile] at hf
    obtain ⟨f, hf', rfl⟩ := Option.map_eq_some_iff.1 hf
    rw [drainBuffer_card] at hm ⊢
    obtain ⟨hl, hd⟩ := h.printed f hf' hm
    rw [hd]
    exact hl
  have hcard : d.flushSdFile.card = d.card := (syncedCard_eq hprinted).trans (drainBuffer_card d)
  refine ⟨⟨?_, fun f hf hm => ⟨?_, ?_⟩, fun pos _ => ?_⟩, hcard.trans h.card_eq, ?_, ?_⟩
  · rw [hcard, logFile, Device.flushSdFile, sync_logFileName, hname]
    exact h.mem
  · rw [hcard] at hm ⊢
    have hp := hprinted f hf (by rwa [drainBuffer_card])
    rwa [drainBuffer_card] at hp
  · rw [Device.flushSdFile, sync_writeBuffer, hbuf, write_nil]
  · rw [Device.flushSdFile, sync_writeBuffer, hbuf, write_nil, logAt, OpenFile.seek_data]
  · rw [Device.flushSdFile, sync_logEnabled, drainBuffer_eq]
    exact h.disabled
  · rw [Device.flushSdFile, sync_config, drainBuffer_eq]
    exact h.keeps

/-- Going on at the position that the log file was opened at changes nothing. -/
theorem logAt_pos (pos : ℕ) (d : Device) : d.logAt (d.logAt pos).pos = d.logAt pos := by
  by_cases hle : pos ≤ d.logContent.length
  · have h : d.logAt pos = ⟨d.logFile, d.logContent, pos⟩ := if_pos hle
    rw [h]
    exact h
  · have h : d.logAt pos = ⟨d.logFile, d.logContent, d.logContent.length⟩ := if_neg hle
    rw [h]
    exact if_pos le_rfl

theorem Idle.reopenFile (h : Idle card d) (b : Bool) : Idle card (d.reopenFile b) := by
  have hsync : d.syncedCard = d.card := syncedCard_eq fun f hf hm => (h.printed f hf hm).1
  have hcard : (d.reopenFile b).card = d.card := by
    simp [Device.reopenFile, hsync, h.mem]
  have hlog : (d.reopenFile b).logFile = d.logFile := rfl
  have hcontent : (d.reopenFile b).logContent = d.logContent := by
    rw [logContent, hlog, hcard]
    rfl
  have hbuf : (d.reopenFile b).writeBuffer = d.writeBuffer := rfl
  have hat (pos : ℕ) : (d.reopenFile b).logAt pos = d.logAt pos := by
    rw [logAt, hcontent, hlog]
    rfl
  refine ⟨⟨?_, fun f hf hm => ?_, fun pos hpos => ?_⟩, hcard.trans h.card_eq, h.disabled, h.keeps⟩
  · rw [hcard]
    exact h.mem
  · cases b with
    | false => cases hf
    | true =>
      have hfile : (d.reopenFile true).dataFile = some (d.logAt d.dataFilePosition) := by
        simp [Device.reopenFile, hsync, logAt, logContent]
      rw [hfile] at hf
      cases hf
      have hdata : (d.logAt d.dataFilePosition).data = d.logContent := OpenFile.seek_data _
      have hname : (d.logAt d.dataFilePosition).name = d.logFile := OpenFile.seek_name _
      rw [hcard, hbuf, hdata, hname]
      refine ⟨?_, h.again _ (.inl rfl)⟩
      obtain ⟨content, hc⟩ := Finmap.mem_iff.1 h.mem
      rw [logContent, hc]
      rfl
  · rw [hcontent, hbuf, hat]
    rcases hpos with rfl | rfl
    · cases b with
      | false => exact h.again 0 (.inr rfl)
      | true =>
        have hpos : (d.reopenFile true).dataFilePosition = (d.logAt d.dataFilePosition).pos := by
          have hfile : (d.reopenFile true).dataFile = some (d.logAt d.dataFilePosition) := by
            simp [Device.reopenFile, hsync, logAt, logContent]
          rw [dataFilePosition, hfile]
          rfl
        rw [hpos, logAt_pos]
        exact h.again _ (.inl rfl)
    · exact h.again 0 (.inr rfl)

theorem Idle.uploadFile (h : Idle card d) (x : Exchange) (name : Name) :
    Idle card (d.uploadFile x name).2 := by
  refine uploadFile_induct (fun ev d _ hd => ?_) (fun timer noWrite d hd => ?_)
    (fun k d hd => ?_) (fun d hd => ?_) (fun d hd _ => ?_) h
  · exact hd.congr d.canLogTimer d.noWriteFile d.eeprom (ev :: d.trace)
  · exact hd.congr timer noWrite d.eeprom d.trace
  · exact (hd.reopenFile _).flushSdFile
  · exact hd.reopenFile _
  · have hp : Idle card (d.emit (.postAnswered name x.response)) :=
      hd.congr d.canLogTimer d.noWriteFile d.eeprom _
    have hk : (d.emit (.postAnswered name x.response)).config.deleteUploadedLogs = false := hd.keeps
    rw [acceptUpload, hk]
    exact hp

/-- No call brings anything to the card while nothing waits. -/
theorem Idle.step (h : Idle card d) (hs : d.idleStep op = some e) : Idle card e := by
  cases op with
  | writeSdLine fuel env opens line =>
    cases write_of_writeSdLine hs with
    | disabled => exact h
    | buffered he => exact absurd (h.disabled.symm.trans he) (by decide)
    | printed he => exact absurd (h.disabled.symm.trans he) (by decide)
    | rotated he => exact absurd (h.disabled.symm.trans he) (by decide)
  | flushSdFile =>
    cases hs
    exact h.flushSdFile
  | reopenFile succeeds =>
    cases hs
    exact h.reopenFile succeeds
  | uploadFile x name =>
    cases hs
    exact h.uploadFile x name
  | uploadData net fuel u =>
    obtain ⟨⟨v, f⟩, hu, rfl⟩ := Option.map_eq_some_iff.1 hs
    have hf : Idle card (DataUploader.uploadRounds net fuel u d).2.2 :=
      DataUploader.uploadRounds_induct (P := fun _ => Idle card)
        (fun name u d hd _ => hd.uploadFile _ name)
        (fun u d hd => hd.congr d.canLogTimer d.noWriteFile _ _) h
    rwa [DataUploader.uploadRounds_of_uploadData hu] at hf

/-! ## What the calls bring to the card -/

/-- What a flush brings to the card. -/
theorem lookup_flushSdFile {f : OpenFile} (hf : d.dataFile = some f) (hm : f.name ∈ d.card) :
    d.flushSdFile.card.lookup f.name = some (f.write d.writeBuffer).data := by
  have hfile : d.drainBuffer.dataFile = some (f.write d.writeBuffer) := by
    rw [drainBuffer_eq, hf]
    rfl
  have hm' : (f.write d.writeBuffer).name ∈ d.drainBuffer.card := by rwa [drainBuffer_card]
  rw [flushSdFile, sync_card, syncedCard_of_mem hfile hm']
  exact Finmap.lookup_insert _

/-- What a flush brings to the card after the log file was reopened. -/
theorem lookup_reopenFile_flushSdFile (hsync : d.syncedCard = d.card) (hm : d.logFile ∈ d.card) :
    (d.reopenFile true).flushSdFile.card.lookup d.logFile =
      some ((d.logAt d.dataFilePosition).write d.writeBuffer).data := by
  have hfile : (d.reopenFile true).dataFile = some (d.logAt d.dataFilePosition) := by
    simp [reopenFile, hsync, logAt, logContent]
  have hname : (d.logAt d.dataFilePosition).name = d.logFile := OpenFile.seek_name _
  have hm' : (d.logAt d.dataFilePosition).name ∈ (d.reopenFile true).card := by
    rw [hname]
    exact mem_reopenFile hm
  have hl := lookup_flushSdFile hfile hm'
  rw [hname] at hl
  exact hl

/-- If no order of the calls changes the card, then nothing waits. -/
theorem nothingWaits_of_card (h : ∀ ops e, idle.Run Machine.Free d ops e → e.card = d.card) :
    NothingWaits d := by
  have hreopen (b : Bool) : (d.reopenFile b).card = d.card :=
    h [.reopenFile b] _ (.single trivial rfl)
  have hm : d.logFile ∈ d.card := by
    by_contra hm
    have hc := hreopen true
    rw [reopenFile_opens, if_neg hm] at hc
    exact hm (hc ▸ Finmap.mem_insert.2 (.inl rfl))
  have hsync : d.syncedCard = d.card := by
    have hc := hreopen true
    rwa [reopenFile_opens, if_pos hm] at hc
  have hcontent : d.card.lookup d.logFile = some d.logContent := by
    obtain ⟨content, hc⟩ := Finmap.mem_iff.1 hm
    rw [logContent, hc]
    rfl
  refine ⟨hm, fun f hf hfm => ?_, fun pos hpos => ?_⟩
  · have hl : d.card.lookup f.name = some f.data := by
      rw [← hsync, syncedCard_of_mem hf hfm]
      exact Finmap.lookup_insert _
    have hflush : d.flushSdFile.card = d.card := h [.flushSdFile] _ (.single trivial rfl)
    have hl' := lookup_flushSdFile hf hfm
    rw [hflush, hl] at hl'
    exact ⟨hl, (Option.some.inj hl').symm⟩
  · rcases hpos with rfl | rfl
    · have hcard : (d.reopenFile true).flushSdFile.card = d.card :=
        h [.reopenFile true, .flushSdFile] _ (.cons trivial rfl (.single trivial rfl))
      have hl := lookup_reopenFile_flushSdFile hsync hm
      rw [hcard, hcontent] at hl
      exact (Option.some.inj hl).symm
    · -- a reopening that fails forgets the position
      have hcard : ((d.reopenFile false).reopenFile true).flushSdFile.card = d.card :=
        h [.reopenFile false, .reopenFile true, .flushSdFile] _
          (.cons trivial rfl (.cons trivial rfl (.single trivial rfl)))
      have hsame : (d.reopenFile false).card = d.card := hreopen false
      have hl := lookup_reopenFile_flushSdFile (d := d.reopenFile false) rfl (hsame ▸ hm)
      have hat : (d.reopenFile false).logAt 0 = d.logAt 0 := by
        rw [logAt, logContent, hsame]
        rfl
      have hpos : (d.reopenFile false).dataFilePosition = 0 := rfl
      have hlog : (d.reopenFile false).logFile = d.logFile := rfl
      rw [hcard, hpos, hat, hlog, hcontent] at hl
      exact (Option.some.inj hl).symm

/-- After a start that failed, with logs not deleted after their upload, the calls leave
    the card alone, whatever their order and outcome, if and only if nothing waits. -/
theorem disabled_card_iff (h : d₀.startLog fuel env = some (false, d))
    (hk : d.config.deleteUploadedLogs = false) :
    (∀ ops e, idle.Run Machine.Free d ops e → e.card = d.card) ↔ NothingWaits d := by
  refine ⟨nothingWaits_of_card, fun hw ops e hrun => ?_⟩
  have hidle : Idle d.card d := ⟨hw, rfl, logEnabled_of_startLog h, hk⟩
  exact (hrun.invariant (P := Idle d.card) (fun hd _ hs => hd.step hs) hidle).card_eq

/-- Log 1 is being written when there is no space for another log. -/
theorem disabled_card_iff_no_space :
    ∃ d₀ d, anyOrder.Run Machine.Free (initial ∅ ⟨1, 0, 1, 0⟩) [.boot {}, .startLog 1 .roomy] d₀ ∧
      d₀.startLog 1 .full = some (false, d) ∧
      ((∀ ops e, idle.Run Machine.Free d ops e → e.card = d.card) ↔ NothingWaits d) ∧
      NothingWaits d := by
  obtain ⟨d₀, hrun, hs⟩ : ∃ d₀, anyOrder.Run Machine.Free (initial ∅ ⟨1, 0, 1, 0⟩)
      [.boot {}, .startLog 1 .roomy] d₀ ∧
      (d₀.startLog 1 .full).map (fun r => (r.1, r.2.config.deleteUploadedLogs,
        r.2.writeBuffer, decide (r.2.logFile ∈ r.2.card),
        r.2.dataFile.map fun f => decide (r.2.card.lookup f.name = some f.data))) =
        some (false, false, [], true, some true) :=
    ⟨_, .cons trivial rfl (.cons trivial rfl (.nil _)), by decide +kernel⟩
  obtain ⟨⟨b, d⟩, hd, he⟩ := Option.map_eq_some_iff.1 hs
  simp only [Prod.mk.injEq] at he
  obtain ⟨rfl, hk, hbuf, hm, hfile⟩ := he
  refine ⟨d₀, d, hrun, hd, disabled_card_iff hd hk, of_decide_eq_true hm, fun f hf _ => ?_,
    fun pos _ => ?_⟩
  · rw [hf] at hfile
    rw [hbuf, write_nil]
    exact ⟨of_decide_eq_true (Option.some.inj hfile), rfl⟩
  · rw [hbuf, write_nil]
    exact OpenFile.seek_data _

/-- With the logs 1 and 2 on the card, a boot finds no space for another log, and log 1 is
    uploaded: the array that no log was named in yet names a file that is created. -/
theorem log_created_while_disabled :
    ∃ d₀ d e, anyOrder.Run Machine.Free
        (initial ((Finmap.singleton (logName 1) ['x']).insert (logName 2) ['y']) ⟨3, 1, 1, 2⟩)
        [.boot {}] d₀ ∧
      d₀.startLog 1 .full = some (false, d) ∧ d.config.deleteUploadedLogs = false ∧
      idle.Run Machine.Free d
        [.uploadFile { getStatus := 404, arrived := "HTTP/1.1 200".toList } (logName 1)] e ∧
      logName 0 ∉ d.card ∧ logName 0 ∈ e.card := by
  obtain ⟨d₀, hrun, hs⟩ : ∃ d₀, anyOrder.Run Machine.Free
      (initial ((Finmap.singleton (logName 1) ['x']).insert (logName 2) ['y']) ⟨3, 1, 1, 2⟩)
      [.boot {}] d₀ ∧
      (d₀.startLog 1 .full).map (fun r => (r.1, r.2.config.deleteUploadedLogs,
        decide (logName 0 ∈ r.2.card), decide (logName 0 ∈ (r.2.uploadFile
          { getStatus := 404, arrived := "HTTP/1.1 200".toList } (logName 1)).2.card))) =
        some (false, false, false, true) :=
    ⟨_, .cons trivial rfl (.nil _), by decide +kernel⟩
  obtain ⟨⟨b, d⟩, hd, he⟩ := Option.map_eq_some_iff.1 hs
  simp only [Prod.mk.injEq] at he
  obtain ⟨rfl, hk, hn, hm⟩ := he
  exact ⟨d₀, d, _, hrun, hd, hk, .single trivial rfl, of_decide_eq_false hn, of_decide_eq_true hm⟩

end Device

end CanInsight
