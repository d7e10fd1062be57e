import CanInsight.Driver
import CanInsight.Trace

/-!
# The frame stream

Frame lines reach the card by three routes: printed directly, buffered while
`no_write_file` holds and printed by the timer, or buffered and printed by the
next direct line. Whatever the order of the operations, the lines that are
accepted are printed in the order of their submission, each once and whole, up
to the ones still in the write buffer.

* `Device.accepted`: the lines of a list of operations that are neither refused,
  as logging is disabled, nor left out, as the write buffer is full;
* `Stream`: what the lines accepted so far are, printed or buffered, which each
  operation extends (`Stream.exec`).
-/

namespace CanInsight

open CString

/-- The text of frame lines that an event records. -/
def Event.frameText : Event → Bytes
  | frames s => s
  | _ => []

/-- The frame lines printed over a trace, in the order of printing. -/
def frameText : List Event → Bytes
  | [] => []
  | e :: trace => frameText trace ++ e.frameText

namespace Device

variable {d d' : Device} {fuel : ℕ} {env : Env} {b : Bool} {t line : Bytes} {lines : List Bytes}

/-- Whether a line would be accepted: printed or buffered as a whole. -/
def accepts (d : Device) (line : Bytes) : Bool :=
  d.logEnabled && (!d.noWriteFile || decide (d.writeBuffer.length + line.length < 30000))

/-- The line an operation submits, if it is accepted. -/
def acceptedBy (d : Device) : Op → List Bytes
  | .writeSdLine _ _ _ line => if d.accepts line then [line] else []
  | _ => []

/-- The lines of a list of operations that are accepted. -/
def accepted : Device → List Op → List Bytes
  | _, [] => []
  | d, op :: ops =>
    d.acceptedBy op ++
      match d.exec op with
      | some d => accepted d ops
      | none => []

/-- Operations on the stream of frames, during which the card operations succeed. -/
def OnStream (_ : Device) : Op → Prop
  | .writeSdLine _ env _ _ => env.opens = true
  | .restartLogging _ env => env.opens = true
  | .reopenFile succeeds => succeeds = true
  | .flushSdFile => True
  | .setNoWriteFile _ => True
  | _ => False

/-- The lines accepted so far, since the text `t` had been printed: first those
    printed to an open file, then those in the write buffer, which has room for
    its terminator. -/
def Stream (t : Bytes) (lines : List Bytes) (d : Device) : Prop :=
  d.dataFile.isSome ∧ d.writeBuffer.length + 1 ≤ 30000 ∧
    ∃ p q, lines = p ++ q ∧ frameText d.trace = t ++ p.flatten ∧ d.writeBuffer = q.flatten

/-! ## Operations that print no frames -/

theorem Extends.frameText_eq {P : Event → Prop} (hP : ∀ e, P e → e.frameText = [])
    (h : Extends P d d') : frameText d'.trace = frameText d.trace := by
  obtain ⟨es, h, he⟩ := h
  rw [h]
  clear h
  induction es with
  | nil => rfl
  | cons e es ih =>
    rw [List.cons_append, frameText, hP e (he e List.mem_cons_self), List.append_nil]
    exact ih fun e h => he e (List.mem_cons_of_mem _ h)

theorem frameText_ofStart (e : Event) (h : e.OfStart) : e.frameText = [] := by
  cases e <;> trivial

/-- A log that is started leaves the write buffer alone, and a file open. -/
theorem startLog_file (ho : env.opens = true) (h : d.startLog fuel env = some (b, d')) :
    d'.writeBuffer = d.writeBuffer ∧ (d.dataFile.isSome → d'.dataFile.isSome) := by
  have hn {d₁ d₂ : Device} {b : Bool} (hn : NextLog fuel env d₁ b d₂) :
      d₂.writeBuffer = d₁.writeBuffer ∧ d₂.dataFile = d₁.dataFile := by
    cases hn <;> exact ⟨rfl, rfl⟩
  cases start_of_startLog h with
  | noSpace h₁ =>
    obtain ⟨_, _, _, _, rfl⟩ := checkSdFreeSpace_freed h₁
    exact ⟨rfl, id⟩
  | noName h₁ h₂ =>
    obtain ⟨_, _, _, _, rfl⟩ := checkSdFreeSpace_freed h₁
    exact ⟨(hn h₂).1, fun h => (hn h₂).2 ▸ h⟩
  | notOpened _ _ h₃ => exact absurd (ho.symm.trans h₃) (by decide)
  | opened h₁ h₂ =>
    obtain ⟨_, _, _, _, rfl⟩ := checkSdFreeSpace_freed h₁
    exact ⟨(hn h₂).1, fun _ => rfl⟩

theorem Stream.startLog (hs : Stream t lines d) (ho : env.opens = true)
    (h : d.startLog fuel env = some (b, d')) : Stream t lines d' := by
  obtain ⟨hf, hl, p, q, hpq, hp, hq⟩ := hs
  obtain ⟨hb, hf'⟩ := startLog_file ho h
  refine ⟨hf' hf, hb ▸ hl, p, q, hpq, ?_, hb ▸ hq⟩
  rw [(startLog_extends h).frameText_eq frameText_ofStart, hp]

/-! ## Operations that print frames -/

/-- Draining the write buffer prints what was buffered. -/
theorem Stream.drainBuffer (hs : Stream t lines d) :
    Stream t lines d.drainBuffer ∧ d.drainBuffer.writeBuffer = [] := by
  obtain ⟨hf, hl, p, q, hpq, hp, hq⟩ := hs
  rw [drainBuffer_eq]
  refine ⟨⟨by simpa using hf, by simp, p ++ q, [], by simp [hpq], ?_, rfl⟩, rfl⟩
  rw [List.flatten_append, ← List.append_assoc, ← hp, ← hq]
  by_cases hb : d.writeBuffer = []
  · simp [hb]
  · simp [hb, hf, frameText, Event.frameText]

theorem Stream.opened (hs : Stream t lines d) : d.opened = d := opened_of_isSome hs.1

theorem Stream.printLine (hs : Stream t lines d) (line : Bytes) :
    Stream t (lines ++ [line]) (d.printLine line) := by
  obtain ⟨⟨hf, _, p, q, hpq, hp, hq⟩, hb⟩ := hs.drainBuffer
  rw [hb] at hq
  refine ⟨by simpa [Device.printLine] using hf, by simp [Device.printLine, hb],
    p ++ q ++ [line], [], by simp [hpq], ?_, by simp [Device.printLine, hb]⟩
  simp [Device.printLine, hf, frameText, Event.frameText, hp, ← hq]

theorem Stream.bufferLine (hs : Stream t lines d) :
    Stream t (lines ++ if d.writeBuffer.length + line.length < 30000 then [line] else [])
      (d.bufferLine line) := by
  obtain ⟨hf, hl, p, q, hpq, hp, hq⟩ := hs
  rw [Device.bufferLine]
  by_cases h₁ : d.writeBuffer.length + line.length > 30000
  · rw [if_pos h₁, if_neg (by omega), List.append_nil]
    exact ⟨hf, hl, p, q, hpq, by simpa [frameText, Event.frameText] using hp, hq⟩
  · rw [if_neg h₁]
    by_cases h₂ : d.writeBuffer.length + line.length < 30000
    · rw [if_pos h₂, if_pos h₂]
      have hlen : (d.writeBuffer ++ line).length < 30000 := by rwa [List.length_append]
      exact ⟨hf, hlen, p, q ++ [line], by simp [hpq], hp, by simp [hq]⟩
    · rw [if_neg h₂, if_neg h₂, List.append_nil]
      exact ⟨hf, hl, p, q, hpq, hp, hq⟩

/-- A line that is written extends the stream if it is accepted. -/
theorem Stream.write (hs : Stream t lines d) (ho : env.opens = true) (h : Write env line d d') :
    Stream t (lines ++ if d.accepts line then [line] else []) d' := by
  cases h with
  | disabled he =>
    rw [accepts, he]
    simpa using hs
  | buffered he hb =>
    rw [accepts, he, hb]
    simpa using hs.bufferLine
  | printed he hb =>
    rw [accepts, he, hb, hs.opened]
    exact hs.printLine line
  | rotated he hb _ hst =>
    rw [hs.opened] at hst
    rw [accepts, he, hb]
    have hp : Stream t (lines ++ [line]) (d.printLine line).printEndLogLine := by
      obtain ⟨hf, hl, hp⟩ := hs.printLine line
      exact ⟨by simpa [printEndLogLine] using hf, hl, hp⟩
    exact hp.startLog ho hst

theorem Stream.reopenFile (hs : Stream t lines d) : Stream t lines (d.reopenFile true) := by
  obtain ⟨hf, hl, p, q, hpq, hp, hq⟩ := hs
  refine ⟨by rw [reopenFile_opens]; rfl, hl, p, q, hpq, ?_, hq⟩
  rw [← hp, reopenFile_opens]
  by_cases hm : d.logFile ∈ d.card <;> simp [hm, frameText, Event.frameText]

/-- An operation extends the stream by the line it submits, if accepted. -/
theorem Stream.exec {op : Op} (hs : Stream t lines d) (hg : OnStream d op)
    (h : d.exec op = some d') :
    Stream t (lines ++ d.acceptedBy op) d' := by
  cases op with
  | writeSdLine fuel env opens line => exact hs.write hg (write_of_writeSdLine h)
  | restartLogging fuel env =>
    obtain ⟨⟨b, e⟩, hst, rfl⟩ := Option.map_eq_some_iff.1 h
    simpa [acceptedBy] using hs.startLog hg hst
  | reopenFile succeeds =>
    cases h
    cases hg
    simpa [acceptedBy] using hs.reopenFile
  | flushSdFile =>
    cases h
    obtain ⟨hf, hl⟩ := hs.drainBuffer.1
    simpa [acceptedBy] using ⟨hf, hl⟩
  | setNoWriteFile b =>
    cases h
    simpa [acceptedBy] using ⟨hs.1, hs.2⟩
  | boot | startLog | wifi => exact absurd hg id

/-- A run extends the stream by the lines that it submits, as far as they are accepted. -/
theorem Stream.run {ops : List Op} (hs : Stream t lines d) (h : anyOrder.Run OnStream d ops d') :
    Stream t (lines ++ d.accepted ops) d' := by
  induction h generalizing lines with
  | nil => simpa [accepted] using hs
  | cons hg hst _ ih =>
    have h := ih (hs.exec hg hst)
    have he : _ = some _ := hst
    dsimp only [anyOrder] at he
    rw [accepted, he, ← List.append_assoc]
    exact h

theorem stream_nil (hf : d.dataFile.isSome) (hb : d.writeBuffer = []) :
    Stream (frameText d.trace) [] d :=
  ⟨hf, by simp [hb], [], [], rfl, by simp, hb⟩

/-- From a state with an open file and an empty write buffer, the frame lines
    printed over a run are the first of the lines accepted, in order, and the
    others are in the write buffer, which never outgrows its room. -/
theorem frame_stream {ops : List Op} (hf : d.dataFile.isSome) (hb : d.writeBuffer = [])
    (h : anyOrder.Run OnStream d ops d') :
    ∃ p q, d.accepted ops = p ++ q ∧ frameText d'.trace = frameText d.trace ++ p.flatten ∧
      d'.writeBuffer = q.flatten ∧ d'.writeBuffer.length + 1 ≤ 30000 := by
  obtain ⟨-, hl, p, q, hpq, hp, hq⟩ := (stream_nil hf hb).run h
  exact ⟨p, q, by simpa using hpq, hp, hq, hl⟩

/-- A line buffered, the timer, and a line printed. -/
theorem frame_stream_two_lines :
    ∃ d', anyOrder.Run OnStream
        { initial ∅ ⟨1, 0, 1, 0⟩ with dataFile := some ⟨logName 1, [], 0⟩, maxLogSize := 100 }
        [.setNoWriteFile true, .writeSdLine 1 .roomy (fun _ => true) ['a'], .flushSdFile,
          .setNoWriteFile false, .writeSdLine 1 .roomy (fun _ => true) ['b']] d' ∧
      ∃ p q,
        accepted { initial ∅ ⟨1, 0, 1, 0⟩ with
            dataFile := some ⟨logName 1, [], 0⟩, maxLogSize := 100 }
          [.setNoWriteFile true, .writeSdLine 1 .roomy (fun _ => true) ['a'], .flushSdFile,
            .setNoWriteFile false, .writeSdLine 1 .roomy (fun _ => true) ['b']] = p ++ q ∧
        frameText d'.trace = [] ++ p.flatten ∧ d'.writeBuffer = q.flatten ∧
        d'.writeBuffer.length + 1 ≤ 30000 :=
  have h := .cons trivial rfl (.cons rfl rfl (.cons trivial rfl (.cons trivial rfl
    (.cons rfl rfl (.nil _)))))
  ⟨_, h, frame_stream rfl rfl h⟩

end Device

end CanInsight
