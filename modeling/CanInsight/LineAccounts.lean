import CanInsight.FrameStream

/-!
# What becomes of the lines

While a log is open, every line that is submitted is printed, or waits in the write buffer,
or is reported as an overrun of the buffer, but for one case: a line that would fill the
buffer to the last character, terminator left out, passes neither of the two comparisons of
`write_sd_line`.

* `Logging`: lines are written and flushed, and `no_write_file` changes, while a log is open;
* `Fills`: the line that is neither taken nor reported;
* `balanced_run`: a run accounts for the lines that it submits, but for those that fill the
  buffer;
* `accounted_iff`: none is if and only if no line fills the buffer.
-/

namespace CanInsight

open CString

/-- The operation submits a line. -/
def Op.submits : Op → Bool
  | writeSdLine _ _ _ _ => true
  | _ => false

/-- How many times the overrun of the write buffer was reported. -/
def overruns (trace : List Event) : ℕ := trace.count .overrun

namespace Device

variable {d d' : Device} {env : Env} {line : Bytes} {ops : List Op} {op : Op}

/-- Lines are written and flushed, and `no_write_file` changes, while logging is enabled on
    an open file, and the card operations succeed. -/
def Logging (d : Device) (op : Op) : Prop :=
  d.logEnabled = true ∧ d.dataFile.isSome = true ∧
    match op with
    | .writeSdLine _ env _ _ => env.opens = true
    | .flushSdFile | .setNoWriteFile _ => True
    | _ => False

/-- A line that is to be buffered has as many characters as the buffer has left, with none
    for the terminator. -/
def Fills (d : Device) : Op → Prop
  | .writeSdLine _ _ _ line =>
    d.noWriteFile = true ∧ d.writeBuffer.length + line.length = 30000
  | _ => False

instance (d : Device) : DecidablePred d.Fills
  | .writeSdLine _ _ _ _ => inferInstanceAs (Decidable (_ ∧ _))
  | .boot _ | .startLog _ _ | .restartLogging _ _ | .flushSdFile | .reopenFile _
  | .setNoWriteFile _ | .wifi _ => inferInstanceAs (Decidable False)

/-- The lines submitted are accounted for: as many as were submitted are printed to
    `data_file`, held whole in the write buffer, or reported. -/
def Accounted (d : Device) (ops : List Op) (d' : Device) : Prop :=
  ∃ printed held reported,
    d.accepted ops = printed ++ held ∧
    frameText d'.trace = frameText d.trace ++ printed.flatten ∧
    d'.writeBuffer = held.flatten ∧
    overruns d'.trace = overruns d.trace + reported ∧
    ops.countP Op.submits = printed.length + held.length + reported

/-- Between two states, of some lines `accepted` were taken, some were reported, and `filled`
    were neither. -/
def Balanced (submitted accepted filled : ℕ) (d d' : Device) : Prop :=
  ∃ reported, overruns d'.trace = overruns d.trace + reported ∧
    submitted = accepted + reported + filled

/-- How many lines an operation submits that fill the buffer. -/
def fillsBy (d : Device) (op : Op) : ℕ := if d.Fills op then 1 else 0

/-! ## One operation -/

theorem Logging.onStream (h : Logging d op) : OnStream d op := by
  obtain ⟨-, -, h⟩ := h
  cases op with
  | writeSdLine => exact h
  | flushSdFile | setNoWriteFile => trivial
  | boot | startLog | restartLogging | reopenFile | wifi => exact absurd h id

theorem Extends.overruns_eq {P : Event → Prop} (hP : ∀ e, P e → e ≠ .overrun)
    (h : Extends P d d') : overruns d'.trace = overruns d.trace := by
  obtain ⟨es, h, he⟩ := h
  rw [overruns, h, List.count_append, List.count_eq_zero.2 fun hm => hP _ (he _ hm) rfl,
    Nat.zero_add, overruns]

theorem ofStart_ne_overrun (e : Event) (h : e.OfStart) : e ≠ .overrun := by
  rintro rfl
  exact h

theorem ofWrite_ne_overrun (e : Event) (h : e.OfWrite) : e ≠ .overrun := by
  rintro rfl
  exact h

theorem Balanced.trans {a a' b b' c c' : ℕ} {e : Device} (h : Balanced a b c d d')
    (h' : Balanced a' b' c' d' e) : Balanced (a + a') (b + b') (c + c') d e := by
  obtain ⟨k, ho, hk⟩ := h
  obtain ⟨k', ho', hk'⟩ := h'
  exact ⟨k + k', by omega, by omega⟩

/-- If nothing is reported, the lines are taken, or fill the buffer. -/
theorem balanced_of_eq {a b c : ℕ} (ho : overruns d'.trace = overruns d.trace) (h : a = b + c) :
    Balanced a b c d d' :=
  ⟨0, ho, h⟩

/-- The two comparisons of `write_sd_line` leave out a line that fills the buffer. -/
theorem balanced_bufferLine (fuel : ℕ) (opens : ℕ → Bool) (he : d.logEnabled = true)
    (hw : d.noWriteFile = true) :
    Balanced 1 (d.acceptedBy (.writeSdLine fuel env opens line)).length
      (d.fillsBy (.writeSdLine fuel env opens line)) d (d.bufferLine line) := by
  have hfills : d.Fills (.writeSdLine fuel env opens line) ↔
      d.writeBuffer.length + line.length = 30000 := and_iff_right hw
  rw [acceptedBy, accepts, he, hw, bufferLine, fillsBy]
  simp only [hfills]
  rcases Nat.lt_trichotomy (d.writeBuffer.length + line.length) 30000 with hlt | heq | hgt
  · rw [if_neg (Nat.not_lt.2 hlt.le), if_pos hlt, if_neg hlt.ne]
    exact balanced_of_eq rfl (by simp [hlt])
  · rw [if_neg (Nat.not_lt.2 heq.le), if_neg (Nat.not_lt.2 heq.ge), if_pos heq]
    exact balanced_of_eq rfl (by simp [heq])
  · rw [if_pos hgt, if_neg hgt.ne']
    exact ⟨1, List.count_cons_self, by simp [Nat.not_lt.2 hgt.le]⟩

/-- A line that is printed reports nothing, even if another log is started. -/
theorem balanced_write (fuel : ℕ) (opens : ℕ → Bool) (he : d.logEnabled = true)
    (hf : d.dataFile.isSome = true) (h : Write env line d d') :
    Balanced 1 (d.acceptedBy (.writeSdLine fuel env opens line)).length
      (d.fillsBy (.writeSdLine fuel env opens line)) d d' := by
  have hprinted (hw : d.noWriteFile = false) (ho : overruns d'.trace = overruns d.trace) :
      Balanced 1 (d.acceptedBy (.writeSdLine fuel env opens line)).length
        (d.fillsBy (.writeSdLine fuel env opens line)) d d' := by
    have hno : ¬ d.Fills (.writeSdLine fuel env opens line) :=
      fun hf => absurd (hw.symm.trans hf.1) (by decide)
    rw [acceptedBy, accepts, he, hw, fillsBy, if_neg hno]
    exact balanced_of_eq ho rfl
  have hline := (printLine_extends line d).overruns_eq ofWrite_ne_overrun
  cases h with
  | disabled he' => exact absurd (he.symm.trans he') (by decide)
  | buffered _ hw => exact balanced_bufferLine fuel opens he hw
  | printed _ hw =>
    rw [opened_of_isSome hf] at hprinted ⊢
    exact hprinted hw hline
  | rotated _ hw _ hst =>
    rw [opened_of_isSome hf] at hst
    exact hprinted hw (((startLog_extends hst).overruns_eq ofStart_ne_overrun).trans hline)

/-- An operation accounts for the line that it submits, unless that fills the buffer. -/
theorem balanced_exec (hg : Logging d op) (h : d.exec op = some d') :
    Balanced (if op.submits then 1 else 0) (d.acceptedBy op).length (d.fillsBy op) d d' := by
  obtain ⟨he, hf, hg⟩ := hg
  cases op with
  | writeSdLine fuel env opens line =>
    exact balanced_write fuel opens he hf (write_of_writeSdLine h)
  | flushSdFile =>
    cases h
    exact balanced_of_eq ((flushSdFile_extends d).overruns_eq ofWrite_ne_overrun) rfl
  | setNoWriteFile b =>
    cases h
    exact balanced_of_eq rfl rfl
  | boot | startLog | restartLogging | reopenFile | wifi => exact absurd hg id

/-! ## Runs -/

/-- A run accounts for the lines that it submits, but for those that fill the buffer. -/
theorem balanced_run (h : anyOrder.Run Logging d ops d') :
    ∃ filled, Balanced (ops.countP Op.submits) (d.accepted ops).length filled d d' ∧
      (filled = 0 ↔ anyOrder.Run (fun d op => ¬ d.Fills op) d ops d') := by
  induction h with
  | nil s => exact ⟨0, balanced_of_eq rfl rfl, iff_of_true rfl (.nil s)⟩
  | @cons s t u op ops hg hst _ ih =>
    obtain ⟨filled, hb, hfilled⟩ := ih
    have hst' : s.exec op = some t := hst
    refine ⟨s.fillsBy op + filled, ?_, ?_⟩
    · rw [List.countP_cons, Nat.add_comm, accepted, hst', List.length_append]
      exact (balanced_exec hg hst').trans hb
    · rw [Nat.add_eq_zero_iff, hfilled, fillsBy]
      constructor
      · rintro ⟨hno, hr⟩
        exact .cons (by simpa using hno) hst hr
      · intro hr
        cases hr with
        | cons hno hst'' hr =>
          cases hst.symm.trans hst''
          exact ⟨if_neg hno, hr⟩

/-- If the lines are accounted for, none fills the buffer. -/
theorem Accounted.run (ha : Accounted d ops d') (h : anyOrder.Run Logging d ops d') :
    anyOrder.Run (fun d op => ¬ d.Fills op) d ops d' := by
  obtain ⟨printed, held, reported, hlines, -, -, hreported, hsum⟩ := ha
  obtain ⟨filled, ⟨reported', hreported', hsum'⟩, hfilled⟩ := balanced_run h
  rw [hlines, List.length_append] at hsum'
  refine hfilled.1 ?_
  omega

/-- Over a run from an empty write buffer, the lines submitted are accounted for if and only
    if none is submitted that fills the buffer. -/
theorem accounted_iff (hf : d.dataFile.isSome = true) (hb : d.writeBuffer = [])
    (h : anyOrder.Run Logging d ops d') :
    Accounted d ops d' ↔ anyOrder.Run (fun d op => ¬ d.Fills op) d ops d' := by
  refine ⟨fun ha => ha.run h, fun hno => ?_⟩
  obtain ⟨filled, ⟨reported, hreported, hsum⟩, hfilled⟩ := balanced_run h
  obtain rfl := hfilled.2 hno
  obtain ⟨-, -, printed, held, hlines, hprinted, hheld⟩ :=
    (stream_nil hf hb).run (h.weaken fun _ _ => Logging.onStream)
  rw [List.nil_append] at hlines
  refine ⟨printed, held, reported, hlines, hprinted, hheld, hreported, ?_⟩
  rw [hsum, hlines, List.length_append, Nat.add_zero]

/-- The operation that writes a line, with enough free space and while openings succeed. -/
def write (line : Bytes) : Op := .writeSdLine 1 .roomy (fun _ => true) line

/-- A log that was just opened. -/
def justOpened : Device :=
  { initial ∅ ⟨1, 0, 1, 0⟩ with dataFile := some ⟨logName 1, [], 0⟩, maxLogSize := 100 }

/-- A line is buffered and printed by the timer, and another is printed directly. -/
theorem accounted_two_lines :
    ∃ d', Accounted justOpened [.setNoWriteFile true, write ['a'], .flushSdFile,
      .setNoWriteFile false, write ['b']] d' := by
  have hrun : anyOrder.Run Logging justOpened [.setNoWriteFile true, write ['a'], .flushSdFile,
      .setNoWriteFile false, write ['b']] _ :=
    .cons ⟨rfl, rfl, trivial⟩ rfl (.cons ⟨rfl, rfl, rfl⟩ rfl (.cons ⟨rfl, rfl, trivial⟩ rfl
      (.cons ⟨rfl, rfl, trivial⟩ rfl (.cons ⟨rfl, rfl, rfl⟩ rfl (.nil _)))))
  refine ⟨_, (accounted_iff rfl rfl hrun).2 ?_⟩
  exact .cons id rfl (.cons (by decide) rfl (.cons id rfl (.cons id rfl (.cons (by decide) rfl
    (.nil _)))))

/-! ## A buffer that is filled -/

/-- The device while `no_write_file` is set, with `n` lines in the write buffer. -/
def holding (line : Bytes) (n : ℕ) (d : Device) : Device :=
  { d with noWriteFile := true, writeBuffer := (List.replicate n line).flatten }

variable {n : ℕ}

theorem length_holding (line : Bytes) (n : ℕ) (d : Device) :
    (d.holding line n).writeBuffer.length + line.length = (n + 1) * line.length := by
  have hflat : (d.holding line n).writeBuffer.length = n * line.length := by simp [holding]
  rw [hflat, Nat.succ_mul]

theorem exec_holding (he : d.logEnabled = true) :
    (d.holding line n).exec (write line) = some ((d.holding line n).bufferLine line) := by
  have he' : (d.holding line n).logEnabled = true := he
  rw [write, exec, writeSdLine, he']
  rfl

/-- A line is buffered as long as there is space. -/
theorem bufferLine_holding_of_lt (h : (n + 1) * line.length < 30000) :
    (d.holding line n).bufferLine line = d.holding line (n + 1) := by
  rw [← length_holding line n d] at h
  rw [bufferLine, if_neg (Nat.not_lt.2 h.le), if_pos h, holding, holding, List.replicate_succ',
    List.flatten_append, List.flatten_singleton]

/-- A line that fills the buffer is ignored. -/
theorem bufferLine_holding_of_eq (h : (n + 1) * line.length = 30000) :
    (d.holding line n).bufferLine line = d.holding line n := by
  rw [← length_holding line n d] at h
  rw [bufferLine, if_neg (Nat.not_lt.2 h.le), if_neg (Nat.not_lt.2 h.ge)]

theorem run_holding (line : Bytes) (he : d.logEnabled = true) (hf : d.dataFile.isSome = true)
    (hb : d.writeBuffer = []) (h : n * line.length < 30000) :
    anyOrder.Run Logging d (.setNoWriteFile true :: List.replicate n (write line))
      (d.holding line n) := by
  induction n with
  | zero =>
    have hzero : { d with noWriteFile := true } = d.holding line 0 := by
      rw [holding, List.replicate_zero, List.flatten_nil, ← hb]
    exact .single ⟨he, hf, trivial⟩ (congrArg some hzero)
  | succ n ih =>
    have hlt : n * line.length < 30000 :=
      Nat.lt_of_le_of_lt (Nat.mul_le_mul_right _ n.le_succ) h
    have hexec : (d.holding line n).exec (write line) = some (d.holding line (n + 1)) := by
      rw [exec_holding he, bufferLine_holding_of_lt h]
    rw [List.replicate_succ', ← List.cons_append]
    exact (ih hlt).append (.single ⟨he, hf, rfl⟩ hexec)

/-- Lines of the same length that fill the buffer together are not accounted for. -/
theorem not_accounted_of_full (line : Bytes) (he : d.logEnabled = true)
    (hf : d.dataFile.isSome = true) (hb : d.writeBuffer = [])
    (h : (n + 1) * line.length = 30000) (hline : 0 < line.length) :
    ∃ d', anyOrder.Run Logging d (.setNoWriteFile true :: List.replicate (n + 1) (write line)) d' ∧
      ¬ Accounted d (.setNoWriteFile true :: List.replicate (n + 1) (write line)) d' := by
  have hlt : n * line.length < 30000 := by
    rw [← h, Nat.succ_mul]
    exact Nat.lt_add_of_pos_right hline
  have hheld := run_holding line he hf hb hlt
  have hexec : (d.holding line n).exec (write line) = some (d.holding line n) := by
    rw [exec_holding he, bufferLine_holding_of_eq h]
  have hlast : anyOrder.Run Logging (d.holding line n) [write line] (d.holding line n) :=
    .single ⟨he, hf, rfl⟩ hexec
  have hrun := hheld.append hlast
  rw [List.replicate_succ', ← List.cons_append]
  refine ⟨_, hrun, fun ha => ?_⟩
  obtain ⟨e, hr, hr'⟩ := Machine.run_append_iff.1 (ha.run hrun)
  obtain rfl := hr.unique hheld
  cases hr' with
  | cons hno => exact hno ⟨rfl, (length_holding line n d).trans h⟩

/-- A frame of 8 bytes, as `can_frame_to_str` writes it 10000 seconds after the log was
    started. -/
def frameOfFifty : Bytes := "10000.000,1,1,18FEF100,8,00,11,22,33,44,55,66,77\r\n".toList

/-- After a boot, while `no_write_file` is set, 600 lines of 50 characters fill the buffer: the
    last is lost, and nothing is reported. -/
theorem not_accounted_full_buffer :
    ∃ d d', anyOrder.Run Machine.Free (initial ∅ ⟨1, 0, 1, 0⟩) [.boot {}, .startLog 1 .roomy] d ∧
      d.dataFile.isSome = true ∧ d.writeBuffer = [] ∧
      anyOrder.Run Logging d (.setNoWriteFile true :: List.replicate 600 (write frameOfFifty)) d' ∧
      ¬ Accounted d (.setNoWriteFile true :: List.replicate 600 (write frameOfFifty)) d' := by
  obtain ⟨d, hrun, he, hf, hb⟩ : ∃ d, anyOrder.Run Machine.Free (initial ∅ ⟨1, 0, 1, 0⟩)
      [.boot {}, .startLog 1 .roomy] d ∧ d.logEnabled = true ∧ d.dataFile.isSome = true ∧
        d.writeBuffer = [] :=
    ⟨_, .cons trivial rfl (.cons trivial rfl (.nil _)), rfl, rfl, rfl⟩
  obtain ⟨d', hfull, hno⟩ := not_accounted_of_full (n := 599) frameOfFifty he hf hb (by decide)
    (by decide)
  exact ⟨d, d', hrun, hf, hb, hfull, hno⟩

end Device

end CanInsight
