import CanInsight.Disabled
import CanInsight.Sessions

/-!
# The size of the logs

Only `write_sd_line` tests the size of the log, and only when it does not buffer
the line. The timer and the uploads bring the buffer to the file again and again
without a test.

* `Sized`: the device, with the limit of each file that a session was started on;
* `BuffersBelowLimit`: no line is buffered for a log that is past its limit, and no
  file is reopened for the lines of another log;
* `sizes_bounded`: then the sizes stay bounded, over any run.
-/

namespace CanInsight

open CString

/-- The clock that a call reads if it starts a log. -/
def LogOp.clock : LogOp → Clock
  | boot _ _ env | restartLogging _ env | canCallback _ _ _ env _ => env.clock
  | _ => {}

/-- The device, and the limit of the log under each name: the configured size, or that
    of the two header lines, when the last session under the name began on a fresh
    file. -/
structure Sized where
  device : Device
  limit : Name → Option ℕ := fun _ => none

/-- The limits after a session was started. -/
def limitsAfter (clock : Clock) (d : Device) (limit : Name → Option ℕ) :
    Option (Name × Option Bytes) → Name → Option ℕ
  | none => limit
  | some (name, none) =>
    Function.update limit name
      (if d.dataFile.isSome then some (max d.maxLogSize (Device.header d.config clock).length)
       else none)
  | some (name, some _) => Function.update limit name none

/-- The effect of a call, with the limit of the session that it starts. -/
def Sized.step (s : Sized) (op : LogOp) : Option Sized :=
  (s.device.logStep op).map fun d =>
    ⟨d, limitsAfter op.clock d s.limit (startedSession s.device.trace d.trace)⟩

/-- The calls in any order, with the limits. -/
def sized : Machine Sized LogOp := ⟨Sized.step⟩

namespace Device

/-- The file is at most so long, on the card as in `data_file`. -/
structure SizeAtMost (name : Name) (n : ℕ) (d : Device) : Prop where
  stored : ∀ content, d.card.lookup name = some content → content.length ≤ n
  viewed : ∀ f, d.dataFile = some f → f.name = name → f.data.length ≤ n

instance (name : Name) (n : ℕ) (d : Device) : Decidable (SizeAtMost name n d) :=
  decidable_of_iff ((∀ content ∈ d.card.lookup name, content.length ≤ n) ∧
    ∀ f ∈ d.dataFile, f.name = name → f.data.length ≤ n)
    ⟨fun h => ⟨h.1, h.2⟩, fun h => ⟨h.1, h.2⟩⟩

/-- How far a log may get past its limit: a full write buffer, a frame line, and the line
    that closes it. -/
def slack : ℕ := 30000 + 127 + eofLine.length

end Device

/-- No line is added to the write buffer while the log is past its limit, and no log is
    reopened, after a start that failed, while lines are buffered. -/
def BuffersBelowLimit (s : Sized) : LogOp → Prop
  | .canCallback msg millis _ _ _ =>
    s.device.logEnabled = true → s.device.noWriteFile = true →
      s.device.writeBuffer.length +
        (canFrameToStr msg millis s.device.logStartMillis).length < 30000 →
      ∀ limit, s.limit s.device.logFile = some limit →
        s.device.SizeAtMost s.device.logFile limit
  | .reopenFile _ => s.device.logEnabled = false → s.device.writeBuffer = []
  | _ => True

instance (s : Sized) : ∀ op, Decidable (BuffersBelowLimit s op)
  | .canCallback _ _ _ _ _ =>
    inferInstanceAs (Decidable (_ → _ → _ → ∀ limit ∈ s.limit s.device.logFile,
      s.device.SizeAtMost s.device.logFile limit))
  | .reopenFile _ => inferInstanceAs (Decidable (_ → _))
  | .boot _ _ _ | .restartLogging _ _ | .flushSdFile | .setFlags _ _ | .transfer _
  | .acceptUpload _ _ => inferInstanceAs (Decidable True)

namespace Device

variable {fuel n m : ℕ} {env : Env} {b : Bool} {d d' e : Device} {name : Name}
  {limit : Name → Option ℕ}

/-! ## What a write adds -/

theorem length_write_le (f : OpenFile) (s : Bytes) :
    (f.write s).data.length ≤ f.data.length + s.length := by
  simp only [OpenFile.write, List.length_append, List.length_take, List.length_drop]
  omega

/-! ## What a step preserves -/

theorem SizeAtMost.mono (h : SizeAtMost name n d) (hn : n ≤ m) : SizeAtMost name m d :=
  ⟨fun c hc => (h.stored c hc).trans hn, fun f hf hfn => (h.viewed f hf hfn).trans hn⟩

theorem SizeAtMost.shrinks (h : SizeAtMost name n d) (hs : Shrinks d e) : SizeAtMost name n e :=
  ⟨fun c hc => h.stored c (hs.card name c hc), fun f hf => h.viewed f (hs.file ▸ hf)⟩

theorem SizeAtMost.syncedCard {content : Bytes} (h : SizeAtMost name n d)
    (hc : d.syncedCard.lookup name = some content) : content.length ≤ n := by
  rcases syncedCard_lookup_cases hc with hc | ⟨f, hf, hn, rfl⟩
  · exact h.stored content hc
  · exact h.viewed f hf hn

/-- What holds of the sizes at any time: no log is longer than its slack allows, and the
    lines that are buffered fit into the file that they would be printed to. -/
structure Bounded (limit : Name → Option ℕ) (d : Device) : Prop where
  buffer : d.writeBuffer.length ≤ 30000
  sizes : ∀ name l, limit name = some l → SizeAtMost name (l + slack) d
  pending : d.writeBuffer ≠ [] → ∀ f, d.dataFile = some f → ∀ l, limit f.name = some l →
    f.data.length + d.writeBuffer.length ≤ l + 30000

/-- While lines are logged, they go to a file with room for the write buffer. -/
structure Current (limit : Name → Option ℕ) (d : Device) : Prop where
  named : ∀ f, d.dataFile = some f → f.name = d.logFile
  fits : ∀ l, limit d.logFile = some l →
    d.maxLogSize ≤ l ∧ SizeAtMost d.logFile (l + (30000 - d.writeBuffer.length)) d

/-- What every call preserves. -/
structure WithinLimits (limit : Name → Option ℕ) (d : Device) : Prop extends Bounded limit d where
  current : d.logEnabled = true → Current limit d

theorem Bounded.shrinks (h : Bounded limit d) (hs : Shrinks d e) : Bounded limit e := by
  refine ⟨hs.buffer ▸ h.buffer, fun name l hl => (h.sizes name l hl).shrinks hs, ?_⟩
  rw [hs.buffer, hs.file]
  exact h.pending

/-! ## Starting a log -/

/-- A log under a fresh name holds the two header lines. -/
theorem logOpened_sizeAtMost (hm : d.card.lookup d.logFile = none) (clock : Clock) :
    SizeAtMost d.logFile (header d.config clock).length (d.logOpened clock) := by
  have hs : d.logFile ∉ d.syncedCard := fun h =>
    Finmap.lookup_eq_none.1 hm (mem_syncedCard.1 h)
  have hf : d.found = [] := by
    rw [found, Finmap.lookup_eq_none.2 hs]
    rfl
  refine ⟨fun content hc => ?_, fun f he _ => ?_⟩
  · rw [logOpened_card, Finmap.lookup_insert, hf, List.nil_append] at hc
    rw [← Option.some.inj hc]
  · rw [logOpened_dataFile, hf, List.nil_append] at he
    rw [← Option.some.inj he]

/-- The other files are as they were. -/
theorem logOpened_sizeAtMost_of_ne (h : SizeAtMost name n d) (hn : name ≠ d.logFile)
    (clock : Clock) : SizeAtMost name n (d.logOpened clock) := by
  refine ⟨fun content hc => ?_, fun f he hfn => ?_⟩
  · rw [logOpened_card, Finmap.lookup_insert_of_ne _ hn] at hc
    exact h.syncedCard hc
  · rw [logOpened_dataFile] at he
    cases he
    exact absurd hfn.symm hn

/-- The limit of a session that was just started. -/
theorem limitsAfter_self {clock : Clock} {found : Option Bytes} {l : ℕ}
    (h : limitsAfter clock d limit (some (name, found)) name = some l) :
    found = none ∧ d.dataFile.isSome = true ∧
      l = max d.maxLogSize (header d.config clock).length := by
  cases found with
  | none =>
    rw [limitsAfter, Function.update_self] at h
    split at h
    · next hf => exact ⟨rfl, hf, (Option.some.inj h).symm⟩
    · cases h
  | some content =>
    rw [limitsAfter, Function.update_self] at h
    cases h

theorem limitsAfter_of_ne {clock : Clock} {found : Option Bytes} {name' : Name}
    (hn : name' ≠ name) : limitsAfter clock d limit (some (name, found)) name' = limit name' := by
  cases found <;> exact Function.update_of_ne hn _ _

theorem Bounded.logOpened (h : Bounded limit d) (clock : Clock) :
    WithinLimits (limitsAfter clock (d.logOpened clock) limit
      (some (d.logFile, d.card.lookup d.logFile))) (d.logOpened clock) := by
  have hself {l : ℕ} (hl : limitsAfter clock (d.logOpened clock) limit
      (some (d.logFile, d.card.lookup d.logFile)) d.logFile = some l) :
      d.maxLogSize ≤ l ∧ SizeAtMost d.logFile l (d.logOpened clock) := by
    obtain ⟨hm, -, rfl⟩ := limitsAfter_self hl
    exact ⟨le_max_left _ _, (logOpened_sizeAtMost hm clock).mono (le_max_right _ _)⟩
  have hb : d.writeBuffer.length ≤ 30000 := h.buffer
  refine ⟨⟨hb, fun name l hl => ?_, fun _ f hf l hl => ?_⟩,
    fun _ => ⟨fun f hf => ?_, fun l hl => ?_⟩⟩
  · by_cases hn : name = d.logFile
    · subst hn
      exact (hself hl).2.mono (Nat.le_add_right _ _)
    · rw [limitsAfter_of_ne hn] at hl
      exact logOpened_sizeAtMost_of_ne (h.sizes name l hl) hn clock
  · have hf' := hf
    rw [logOpened_dataFile] at hf'
    cases hf'
    exact Nat.add_le_add ((hself hl).2.viewed _ hf rfl) hb
  · rw [logOpened_dataFile] at hf
    cases hf
    rfl
  · exact ⟨(hself hl).1, (hself hl).2.mono (Nat.le_add_right _ _)⟩

theorem Bounded.logNotOpened (h : Bounded limit d) (clock : Clock) :
    Bounded (limitsAfter clock d.logNotOpened limit
      (some (d.logFile, d.card.lookup d.logFile))) d.logNotOpened := by
  refine ⟨h.buffer, fun name l hl => ?_, fun _ f hf => ?_⟩
  · by_cases hn : name = d.logFile
    · subst hn
      obtain ⟨-, hf, -⟩ := limitsAfter_self hl
      cases hf
    · rw [limitsAfter_of_ne hn] at hl
      exact ⟨fun content => (h.sizes name l hl).syncedCard, fun f hf => by cases hf⟩
  · cases hf

theorem WithinLimits.of_disabled (h : Bounded limit d) (he : d.logEnabled = false) :
    WithinLimits limit d := ⟨h, fun he' => absurd (he.symm.trans he') (by decide)⟩

theorem Bounded.startLog (h : Bounded limit d) (hs : d.startLog fuel env = some (b, d')) :
    WithinLimits (limitsAfter env.clock d' limit (startedSession d.trace d'.trace)) d' := by
  have hfreed {b : Bool} {e : Device}
      (hc : checkSdFreeSpace fuel env { d with logEnabled := false } = some (b, e)) :
      Bounded limit e := by
    have hd : Bounded limit { d with logEnabled := false } := ⟨h.buffer, fun name l hl =>
      ⟨(h.sizes name l hl).stored, (h.sizes name l hl).viewed⟩, h.pending⟩
    exact hd.shrinks (checkSdFreeSpace_shrinks hc)
  cases start_of_startLog hs with
  | noSpace hc =>
    rw [(freed_extends hc).startedSession_eq isRemoved_not_isSession]
    exact .of_disabled (hfreed hc) (logEnabled_of_startLog hs)
  | noName hc hn =>
    rw [((freed_extends hc).trans hn.extends).startedSession_eq isRemoved_not_isSession]
    exact .of_disabled ((hfreed hc).shrinks hn.shrinks) (logEnabled_of_startLog hs)
  | notOpened hc hn =>
    rw [startedSession_of_named hc hn, startedSession_logNotOpened]
    exact .of_disabled (((hfreed hc).shrinks hn.shrinks).logNotOpened _) (logEnabled_of_startLog hs)
  | opened hc hn =>
    rw [startedSession_of_named hc hn, startedSession_logOpened]
    exact ((hfreed hc).shrinks hn.shrinks).logOpened _

/-! ## Flushing and reopening -/

/-- Printing the write buffer. -/
theorem WithinLimits.drainBuffer (h : WithinLimits limit d) : WithinLimits limit d.drainBuffer := by
  rw [drainBuffer_eq]
  refine ⟨⟨Nat.zero_le _, fun name l hl => ⟨(h.sizes name l hl).stored, ?_⟩,
    fun hb => absurd rfl hb⟩, fun he => ⟨?_, fun l hl => ⟨((h.current he).fits l hl).1, ?_, ?_⟩⟩⟩
  · rintro _ hw hn
    obtain ⟨f, hf, rfl⟩ := Option.map_eq_some_iff.1 hw
    have hw := length_write_le f d.writeBuffer
    have hv := (h.sizes name l hl).viewed f hf hn
    by_cases hb : d.writeBuffer = []
    · rw [hb, List.length_nil, Nat.add_zero] at hw
      rw [hb]
      exact hw.trans hv
    · have hp := h.pending hb f hf l (by rwa [show f.name = name from hn])
      refine hw.trans (hp.trans ?_)
      rw [slack]
      omega
  · rintro _ hw
    obtain ⟨f, hf, rfl⟩ := Option.map_eq_some_iff.1 hw
    exact (h.current he).named f hf
  · have hs := ((h.current he).fits l hl).2.mono (m := l + 30000) (by omega)
    exact hs.stored
  · rintro _ hw hn
    obtain ⟨f, hf, rfl⟩ := Option.map_eq_some_iff.1 hw
    have hw := length_write_le f d.writeBuffer
    have hv := ((h.current he).fits l hl).2.viewed f hf hn
    have hb := h.buffer
    refine hw.trans ?_
    rw [List.length_nil]
    omega

/-- Bringing the directory entry up to date. -/
theorem WithinLimits.sync (h : WithinLimits limit d) : WithinLimits limit d.sync where
  buffer := h.buffer
  sizes name l hl := ⟨fun _ => (h.sizes name l hl).syncedCard, (h.sizes name l hl).viewed⟩
  pending := h.pending
  current he := ⟨(h.current he).named, fun l hl => ⟨((h.current he).fits l hl).1,
    fun _ => ((h.current he).fits l hl).2.syncedCard, ((h.current he).fits l hl).2.viewed⟩⟩

theorem WithinLimits.flushSdFile (h : WithinLimits limit d) : WithinLimits limit d.flushSdFile :=
  h.drainBuffer.sync

theorem SizeAtMost.closeDataFile (h : SizeAtMost name n d) : SizeAtMost name n d.closeDataFile :=
  ⟨fun _ => h.syncedCard, fun f hf => by cases hf⟩

/-- Opening the log, which is created empty. -/
theorem SizeAtMost.openDataFile (h : SizeAtMost name n d) (b : Bool) :
    SizeAtMost name n (d.openDataFile b) := by
  refine ⟨fun content hc => ?_, fun f hf hn => ?_⟩
  · rw [openDataFile_card] at hc
    split at hc
    · by_cases hn : name = d.logFile
      · rw [hn, Finmap.lookup_insert] at hc
        cases hc
        exact Nat.zero_le n
      · exact h.stored content (by rwa [Finmap.lookup_insert_of_ne _ hn] at hc)
    · exact h.stored content hc
  · rw [openDataFile_dataFile] at hf
    split at hf
    · cases hf
      rw [show d.logFile = name from hn]
      cases hc : d.card.lookup name with
      | none => exact Nat.zero_le n
      | some content => exact h.stored content hc
    · cases hf

theorem SizeAtMost.reopenFile (h : SizeAtMost name n d) (b : Bool) :
    SizeAtMost name n (d.reopenFile b) := by
  have ho := h.closeDataFile.openDataFile b
  refine ⟨ho.stored, fun _ hs hn => ?_⟩
  obtain ⟨f, hf, rfl⟩ := Option.map_eq_some_iff.1 hs
  rw [OpenFile.seek_data]
  rw [OpenFile.seek_name] at hn
  exact ho.viewed f hf hn

theorem WithinLimits.reopenFile (h : WithinLimits limit d) (b : Bool)
    (hb : d.logEnabled = false → d.writeBuffer = []) : WithinLimits limit (d.reopenFile b) where
  buffer := h.buffer
  sizes name l hl := (h.sizes name l hl).reopenFile b
  pending hne f hf l hl := by
    have he : d.logEnabled = true := by
      cases he : d.logEnabled with
      | false => exact absurd (hb he) hne
      | true => rfl
    have hn := reopenFile_named hf
    rw [hn] at hl
    have hs := (((h.current he).fits l hl).2.reopenFile b).viewed f hf hn
    have hlen := h.buffer
    have hw : (d.reopenFile b).writeBuffer = d.writeBuffer := rfl
    rw [hw]
    omega
  current he := ⟨fun _ => reopenFile_named, fun l hl =>
    ⟨((h.current he).fits l hl).1, ((h.current he).fits l hl).2.reopenFile b⟩⟩

/-! ## Writing a line -/

/-- Opening the log when lines are logged. -/
theorem WithinLimits.opened (h : WithinLimits limit d) (he : d.logEnabled = true) :
    WithinLimits limit d.opened := by
  rw [Device.opened]
  split
  · exact h
  · refine ⟨⟨h.buffer, fun name l hl => (h.sizes name l hl).openDataFile true,
      fun _ f hf l hl => ?_⟩, fun he => ⟨fun _ => openDataFile_named, fun l hl =>
      ⟨((h.current he).fits l hl).1, ((h.current he).fits l hl).2.openDataFile true⟩⟩⟩
    have hn := openDataFile_named hf
    rw [hn] at hl
    have hs := (((h.current he).fits l hl).2.openDataFile true).viewed f hf hn
    have hlen := h.buffer
    have hw : (d.openDataFile true).writeBuffer = d.writeBuffer := rfl
    rw [hw]
    omega

/-- Buffering a line while the log is not past its limit. -/
theorem WithinLimits.bufferLine {line : Bytes} (h : WithinLimits limit d)
    (he : d.logEnabled = true) (hfit : d.writeBuffer.length + line.length < 30000 →
      ∀ l, limit d.logFile = some l → SizeAtMost d.logFile l d) :
    WithinLimits limit (d.bufferLine line) := by
  rw [Device.bufferLine]
  split
  · exact ⟨⟨h.buffer, fun name l hl => ⟨(h.sizes name l hl).stored, (h.sizes name l hl).viewed⟩,
      h.pending⟩, fun he => ⟨(h.current he).named, fun l hl => ⟨((h.current he).fits l hl).1,
      ((h.current he).fits l hl).2.stored, ((h.current he).fits l hl).2.viewed⟩⟩⟩
  · split
    · next hlt =>
      have hlen : (d.writeBuffer ++ line).length < 30000 := by rwa [List.length_append]
      have hc := h.current he
      refine ⟨⟨hlen.le, fun name l hl => ⟨(h.sizes name l hl).stored, (h.sizes name l hl).viewed⟩,
        fun _ f hf l hl => ?_⟩, fun _ => ⟨hc.named, fun l hl => ⟨(hc.fits l hl).1, ?_⟩⟩⟩
      · have hn := hc.named f hf
        rw [hn] at hl
        have hs := (hfit hlt l hl).viewed f hf hn
        dsimp only
        omega
      · have hs := (hfit hlt l hl).mono
          (Nat.le_add_right l (30000 - (d.writeBuffer ++ line).length))
        exact ⟨hs.stored, hs.viewed⟩
    · exact h

/-- Printing to the file when nothing is buffered. -/
theorem Bounded.print {s : Bytes} (h : Bounded limit d) (hc : e.card = d.card)
    (hf : e.dataFile = d.dataFile.map (·.write s)) (hb : e.writeBuffer = [])
    (hs : ∀ f, d.dataFile = some f → ∀ l, limit f.name = some l →
      f.data.length + s.length ≤ l + slack) : Bounded limit e := by
  refine ⟨hb ▸ Nat.zero_le _, fun name l hl => ⟨hc ▸ (h.sizes name l hl).stored, ?_⟩,
    fun hne => absurd hb hne⟩
  rintro _ hw rfl
  rw [hf] at hw
  obtain ⟨f, hf, rfl⟩ := Option.map_eq_some_iff.1 hw
  exact (length_write_le f s).trans (hs f hf l hl)

/-- A line is printed, and the log tested. -/
theorem WithinLimits.write {line : Bytes} (h : WithinLimits limit d)
    (hline : line.length ≤ 127) (hfit : d.logEnabled = true → d.noWriteFile = true →
      d.writeBuffer.length + line.length < 30000 →
      ∀ l, limit d.logFile = some l → SizeAtMost d.logFile l d)
    (hw : Write env line d d') :
    WithinLimits (limitsAfter env.clock d' limit (startedSession d.trace d'.trace)) d' := by
  have hsession (e : Event) (he : e.OfWrite) : ¬ e.IsSession := (ofWrite_quiet e he).1
  -- the line is the only one that is printed past the limit
  have hprint {e : Device} (hd : d.opened.drainBuffer = e) (he : d.logEnabled = true) :
      WithinLimits limit e ∧ e.logEnabled = true ∧ e.maxLogSize = d.maxLogSize ∧
        e.writeBuffer = [] ∧ Bounded limit (e.printFrames line) := by
    obtain ⟨_, _, _, _, hfl⟩ := (opened_filed d).trans (drainBuffer_filed _)
    have hb : e.writeBuffer = [] := by rw [← hd, drainBuffer_eq]
    have hlog : e.logEnabled = true := by
      rw [← hd, hfl]
      exact he
    have hwl : WithinLimits limit e := hd ▸ (h.opened he).drainBuffer
    refine ⟨hwl, hlog, by rw [← hd, hfl], hb, hwl.toBounded.print rfl rfl hb ?_⟩
    intro f hf l hl
    have hn := (hwl.current hlog).named f hf
    rw [hn] at hl
    have hv := ((hwl.current hlog).fits l hl).2.viewed f hf hn
    rw [slack]
    omega
  cases hw with
  | disabled =>
    rw [(Extends.refl (P := Event.OfWrite) d).startedSession_eq hsession]
    exact h
  | buffered he hb =>
    rw [(bufferLine_extends line d).startedSession_eq (by rintro _ rfl; exact id)]
    exact h.bufferLine he (hfit he hb)
  | printed he hb hsize =>
    rw [(opened_printLine_extends line d).startedSession_eq hsession]
    rw [printLine] at hsize ⊢
    generalize hd : d.opened.drainBuffer = e at hsize ⊢
    obtain ⟨hwl, hlog, hmax, hbuf, hbounded⟩ := hprint hd he
    have hc := hwl.current hlog
    refine ⟨hbounded, fun _ => ⟨?_, fun l hl => ⟨(hc.fits l hl).1, (hc.fits l hl).2.stored, ?_⟩⟩⟩
    · rintro _ hf
      obtain ⟨f, hf', rfl⟩ := Option.map_eq_some_iff.1 hf
      exact hc.named f hf'
    · intro f hf _
      rw [dataFileSize_of_some hf, ← hmax] at hsize
      have hl := (hc.fits l hl).1
      omega
  | rotated he hb hsize hs =>
    have hx := opened_printLine_extends line d
    rw [hx.startedSession_left hsession]
    rw [printLine] at hs ⊢
    generalize hd : d.opened.drainBuffer = e at hs ⊢
    obtain ⟨hwl, hlog, -, hbuf, hbounded⟩ := hprint hd he
    -- the line that closes the log is what the slack is for
    have hend : Bounded limit (e.printFrames line).printEndLogLine := by
      refine hbounded.print rfl rfl hbuf ?_
      rintro _ hf l hl
      obtain ⟨f, hf', rfl⟩ := Option.map_eq_some_iff.1 hf
      have hn := (hwl.current hlog).named f hf'
      have hl' : limit e.logFile = some l := hn ▸ hl
      have hv := ((hwl.current hlog).fits l hl').2.viewed f hf' hn
      have hwr := length_write_le f line
      rw [slack]
      omega
    exact hend.startLog hs

/-! ## Runs -/

theorem WithinLimits.of_flags (h : WithinLimits limit d) (timer noWrite : Bool)
    (trace : List Event) :
    WithinLimits limit { d with canLogTimer := timer, noWriteFile := noWrite, trace := trace } where
  buffer := h.buffer
  sizes name l hl := ⟨(h.sizes name l hl).stored, (h.sizes name l hl).viewed⟩
  pending := h.pending
  current he := ⟨(h.current he).named, fun l hl => ⟨((h.current he).fits l hl).1,
    ((h.current he).fits l hl).2.stored, ((h.current he).fits l hl).2.viewed⟩⟩

theorem WithinLimits.acceptUpload (h : WithinLimits limit d) (x : Exchange) (name : Name) :
    WithinLimits limit (d.acceptUpload x name) := by
  rw [Device.acceptUpload]
  split
  · have hs := sdRemove_shrinks x.removes name d
    have hb : Bounded limit (d.sdRemove x.removes name) := h.toBounded.shrinks hs
    refine ⟨⟨hb.buffer, fun name l hl => ⟨(hb.sizes name l hl).stored,
      (hb.sizes name l hl).viewed⟩, hb.pending⟩, fun he => ⟨(h.current he).named, fun l hl => ?_⟩⟩
    have hf := (((h.current he).fits l hl).2).shrinks hs
    exact ⟨((h.current he).fits l hl).1, hf.stored, hf.viewed⟩
  · exact h

theorem boot_bounded (h : Bounded limit d) (config : ConfigManager) :
    Bounded limit (d.boot config) := by
  obtain ⟨hc, hf, hb, -⟩ := boot_files config d
  refine ⟨hb ▸ Nat.zero_le _, fun name l hl => ⟨hc ▸ (h.sizes name l hl).stored, ?_⟩,
    fun hne => absurd hb hne⟩
  intro f hs
  rw [hf] at hs
  cases hs

theorem WithinLimits.step {s t : Sized} {op : LogOp} (h : WithinLimits s.limit s.device)
    (hg : BuffersBelowLimit s op) (hs : sized.step s op = some t) :
    WithinLimits t.limit t.device := by
  obtain ⟨e, he, rfl⟩ := Option.map_eq_some_iff.1 hs
  have hnone (hop : op.OfUpload) : limitsAfter op.clock e s.limit
      (startedSession s.device.trace e.trace) = s.limit := by
    rw [ofUpload_startedSession hop he]
    rfl
  cases op with
  | boot config fuel env =>
    obtain ⟨⟨b, e⟩, hst, rfl⟩ := Option.map_eq_some_iff.1 he
    have hboot := (boot_files config s.device).2.2.2
    have hl := (boot_bounded h.toBounded config).startLog hst
    rw [hboot] at hl
    exact hl.of_flags true e.noWriteFile e.trace
  | restartLogging fuel env =>
    obtain ⟨⟨b, e⟩, hst, rfl⟩ := Option.map_eq_some_iff.1 he
    exact h.toBounded.startLog hst
  | canCallback msg millis fuel env opens =>
    exact h.write (length_canFrameToStr_le _ _ _) hg (write_of_writeSdLine he)
  | flushSdFile =>
    rw [hnone trivial]
    cases he
    exact h.flushSdFile
  | reopenFile b =>
    rw [hnone trivial]
    cases he
    exact h.reopenFile b hg
  | setFlags timer noWrite =>
    rw [hnone trivial]
    cases he
    exact h.of_flags timer noWrite _
  | transfer ev =>
    rw [hnone trivial]
    cases he
    exact h.of_flags s.device.canLogTimer s.device.noWriteFile _
  | acceptUpload x name =>
    rw [hnone trivial]
    cases he
    exact h.acceptUpload x name

/-- Over any run in which no line is buffered for a log past its limit, and no log is
    reopened for the lines of another, every log that was begun on a fresh file stays
    within its limit and the slack. -/
theorem sizes_bounded (card : Card) (eeprom : EEPROM) {ops : List LogOp} {s : Sized}
    (h : sized.Run BuffersBelowLimit ⟨initial card eeprom, fun _ => none⟩ ops s) :
    ∀ name l, s.limit name = some l → SizeAtMost name (l + slack) s.device := by
  have hinit : WithinLimits (fun _ => none) (initial card eeprom) := by
    refine ⟨⟨Nat.zero_le _, ?_, fun hb => absurd rfl hb⟩, fun _ => ⟨?_, ?_⟩⟩
    · rintro _ _ ⟨⟩
    · rintro _ ⟨⟩
    · rintro _ ⟨⟩
  exact (h.invariant (P := fun s => WithinLimits s.limit s.device)
    (fun hd hg hs => hd.step hg hs) hinit).sizes

/-- A frame is buffered, and flushed to the log. -/
def bufferedFrame : List LogOp :=
  [.boot {} 1 .roomy, .setFlags false true,
    .canCallback someFrame 5000 1 .roomy fun _ => true, .setFlags true false, .flushSdFile]

theorem sizes_bounded_bufferedFrame :
    ∃ s l, sized.Run BuffersBelowLimit ⟨initial ∅ ⟨1, 0, 1, 0⟩, fun _ => none⟩ bufferedFrame s ∧
      .frames (canFrameToStr someFrame 5000 0) ∈ s.device.trace ∧
      s.limit (logName 1) = some l ∧ SizeAtMost (logName 1) (l + slack) s.device := by
  obtain ⟨s, hrun, hframes, hlimit⟩ : ∃ s, sized.Run BuffersBelowLimit
      ⟨initial ∅ ⟨1, 0, 1, 0⟩, fun _ => none⟩ bufferedFrame s ∧
      .frames (canFrameToStr someFrame 5000 0) ∈ s.device.trace ∧
      s.limit (logName 1) = some 1000000000 :=
    Machine.exists_run_of_any (by decide +kernel)
  exact ⟨s, _, hrun, hframes, hlimit, sizes_bounded ∅ ⟨1, 0, 1, 0⟩ hrun _ _ hlimit⟩

/-! ## Logs past their limits -/

/-- The connection is lost before the first block is sent. -/
def lostUpload : Exchange := { getStatus := 404, connected := fun _ => false }

/-- Lines are logged, but buffered, and flushed to the end of a file of some size. -/
structure Stuck (name : Name) (size : ℕ) (d : Device) : Prop where
  enabled : d.logEnabled = true
  noWrite : d.noWriteFile = true
  buffer : d.writeBuffer = []
  mem : name ∈ d.card
  file : ∃ f, d.dataFile = some f ∧ f.name = name ∧ f.AtEnd ∧ f.data.length = size ∧
    d.card.lookup name = some f.data

variable {line : Bytes}

/-- A line is buffered, and flushed. -/
theorem Stuck.round (h : Stuck name n d) (hline : line.length ≤ 127) :
    Stuck name (n + line.length) (d.bufferLine line).flushSdFile := by
  obtain ⟨f, hf, hn, hend, hsize, -⟩ := h.file
  have hbuf : d.bufferLine line = { d with writeBuffer := line } := by
    rw [bufferLine, h.buffer, List.length_nil, if_neg (by omega), if_pos (by omega)]
    rfl
  have hfile : ({ d with writeBuffer := line } : Device).drainBuffer.dataFile =
      some (f.write line) := by
    rw [drainBuffer_eq]
    exact congrArg (Option.map (OpenFile.write · line)) hf
  have hmem : (f.write line).name ∈ ({ d with writeBuffer := line } : Device).drainBuffer.card := by
    rw [drainBuffer_eq]
    exact hn ▸ h.mem
  have hcard := syncedCard_of_mem hfile hmem
  refine ⟨?_, ?_, ?_, ?_, f.write line, ?_, hn, hend.write, ?_, ?_⟩
  · rw [hbuf, flushSdFile, sync_logEnabled, drainBuffer_eq]
    exact h.enabled
  · rw [hbuf, flushSdFile, sync_noWriteFile, drainBuffer_eq]
    exact h.noWrite
  · rw [hbuf, flushSdFile, sync_writeBuffer, drainBuffer_eq]
  · rw [mem_flushSdFile, hbuf]
    exact h.mem
  · rw [hbuf, flushSdFile, sync_dataFile, hfile]
  · rw [hend.write_data, List.length_append, hsize]
  · rw [hbuf, flushSdFile, sync_card, hcard, ← hn]
    exact Finmap.lookup_insert _

/-- A frame arrives, and the timer flushes. -/
def frameAndFlush (msg : CANMessage) : List LogOp :=
  [.canCallback msg 0 1 .roomy fun _ => true, .flushSdFile]

theorem sized_step {op : LogOp} (hs : d.logStep op = some e)
    (hn : startedSession d.trace e.trace = none) :
    sized.step ⟨d, limit⟩ op = some ⟨e, limit⟩ := by
  have hst : sized.step ⟨d, limit⟩ op = (d.logStep op).map fun e =>
      ⟨e, limitsAfter op.clock e limit (startedSession d.trace e.trace)⟩ := rfl
  rw [hst, hs, Option.map_some, hn]
  rfl

/-- The steps of an upload leave the limits alone. -/
theorem sized_run_of_upload {ops : List LogOp} (hops : ∀ op ∈ ops, op.OfUpload)
    (h : logging.Run Machine.Free d ops e) : sized.Run Machine.Free ⟨d, limit⟩ ops ⟨e, limit⟩ := by
  induction h with
  | nil => exact .nil _
  | cons _ hs _ ih =>
    have hop := hops _ List.mem_cons_self
    exact .cons trivial (sized_step hs (ofUpload_startedSession hop hs))
      (ih fun op h => hops op (List.mem_cons_of_mem _ h))

theorem canCallback_of_noWriteFile (msg : CANMessage) (millis : ℕ) (opens : ℕ → Bool)
    (he : d.logEnabled = true) (hb : d.noWriteFile = true) :
    d.canCallback msg millis 1 env opens =
      some (d.bufferLine (canFrameToStr msg millis d.logStartMillis)) := by
  rw [canCallback, writeSdLine, he, hb]
  rfl

theorem length_canFrameToStr_pos (msg : CANMessage) (millis start : ℕ) :
    0 < (canFrameToStr msg millis start).length := by
  rw [canFrameToStr, List.length_append]
  exact Nat.add_pos_right _ (by decide)

/-- Rounds of a frame and a flush make the file longer and longer. -/
theorem Stuck.rounds (h : Stuck name n d) (msg : CANMessage) (k : ℕ) :
    ∃ e m, sized.Run Machine.Free ⟨d, limit⟩ (List.replicate k (frameAndFlush msg)).flatten
        ⟨e, limit⟩ ∧ Stuck name m e ∧ n + k ≤ m := by
  induction k generalizing n d with
  | zero => exact ⟨d, n, .nil _, h, le_rfl⟩
  | succ k ih =>
    have hpos := length_canFrameToStr_pos msg 0 d.logStartMillis
    have hr := h.round (length_canFrameToStr_le msg 0 d.logStartMillis)
    obtain ⟨e, m, hrun, he, hm⟩ := ih hr
    refine ⟨e, m, ?_, he, by omega⟩
    have hcall : d.logStep (.canCallback msg 0 1 .roomy fun _ => true) =
        some (d.bufferLine (canFrameToStr msg 0 d.logStartMillis)) :=
      canCallback_of_noWriteFile msg 0 _ h.enabled h.noWrite
    have hbuffered :=
      (bufferLine_extends (canFrameToStr msg 0 d.logStartMillis) d).startedSession_eq
        (by rintro _ rfl; exact id)
    have hflush : LogOp.flushSdFile.OfUpload := trivial
    rw [List.replicate_succ, List.flatten_cons]
    exact .cons trivial (sized_step hcall hbuffered) (.cons trivial
      (sized_step rfl (ofUpload_startedSession hflush rfl)) hrun)

/-- After an upload whose connection was lost, frames are buffered for good, and the timer
    brings them to the log without a test of its size: in two thousand million rounds, the
    log gets past its limit of a thousand million bytes. -/
theorem log_outgrows_limit :
    ∃ s₀ upload s l content,
      sized.Run Machine.Free ⟨initial ∅ ⟨1, 0, 1, 0⟩, fun _ => none⟩ [.boot {} 1 .roomy] s₀ ∧
      (∀ op ∈ upload, op.OfUpload) ∧
      sized.Run Machine.Free s₀ upload
        ⟨(s₀.device.uploadFile lostUpload (logName 1)).2, s₀.limit⟩ ∧
      sized.Run Machine.Free ⟨(s₀.device.uploadFile lostUpload (logName 1)).2, s₀.limit⟩
        (List.replicate 2000000000 (frameAndFlush someFrame)).flatten s ∧
      s.limit (logName 1) = some l ∧ s.device.card.lookup (logName 1) = some content ∧
      l + slack < content.length := by
  obtain ⟨d, hd, he⟩ : ∃ d, (initial ∅ ⟨1, 0, 1, 0⟩).logStep (.boot {} 1 .roomy) = some d ∧
      limitsAfter {} d (fun _ => none) (startedSession [] d.trace) (logName 1) = some 1000000000 ∧
      (d.uploadFile lostUpload (logName 1)).2.logEnabled = true ∧
      (d.uploadFile lostUpload (logName 1)).2.noWriteFile = true ∧
      (d.uploadFile lostUpload (logName 1)).2.writeBuffer = [] ∧
      logName 1 ∈ (d.uploadFile lostUpload (logName 1)).2.card ∧
      (d.uploadFile lostUpload (logName 1)).2.dataFile.map (fun f =>
          decide (f.name = logName 1 ∧ f.pos = f.data.length ∧
            (d.uploadFile lostUpload (logName 1)).2.card.lookup (logName 1) = some f.data)) =
        some true := ⟨_, rfl, by decide +kernel⟩
  obtain ⟨hlimit, hlog, hwrite, hbuf, hmem, hfile⟩ := he
  obtain ⟨f, hf, hfile⟩ := Option.map_eq_some_iff.1 hfile
  obtain ⟨hname, hpos, hcard⟩ := of_decide_eq_true hfile
  have hstuck : Stuck (logName 1) f.data.length (d.uploadFile lostUpload (logName 1)).2 :=
    ⟨hlog, hwrite, hbuf, hmem, f, hf, hname, hpos, rfl, hcard⟩
  obtain ⟨e, m, hrounds, he, hm⟩ := hstuck.rounds someFrame 2000000000
  obtain ⟨g, -, -, -, hg, hcontent⟩ := he.file
  obtain ⟨upload, hops, hup⟩ := uploadFile_run (G := Machine.Free) (fun _ _ _ => trivial)
    lostUpload (logName 1) d
  have hboot : sized.step ⟨initial ∅ ⟨1, 0, 1, 0⟩, fun _ => none⟩ (.boot {} 1 .roomy) =
      some ⟨d, limitsAfter {} d (fun _ => none) (startedSession [] d.trace)⟩ :=
    congrArg (Option.map fun d =>
      Sized.mk d (limitsAfter {} d (fun _ => none) (startedSession [] d.trace))) hd
  refine ⟨_, upload, _, 1000000000, g.data, .single trivial hboot, hops,
    sized_run_of_upload hops hup, hrounds, hlimit, hcontent, ?_⟩
  have hslack : slack = 30162 := rfl
  omega

end Device

end CanInsight
