import CanInsight.Transfers

/-!
# The logging mode after an upload

`upload_file` lets the lines of the log be buffered while it posts a file, stops the timer,
and reopens the log between the blocks and at the end.

* `Restored`: what an upload leaves as it was: lines are written directly, the timer runs, and
  the log is open at its end;
* `reopens_sendLoop`: whether the log can be reopened at its end after the blocks, by
  induction on them. Once a reopening has failed, the position is at the beginning;
* `restored_iff`: the mode is restored if and only if the connection lasts, and no reopening
  fails unless the log is empty.
-/

namespace CanInsight

open CString

/-- From the end of a file, seeking ends there unless it leads to somewhere before. -/
theorem OpenFile.AtEnd.seek_iff {f : OpenFile} (h : f.AtEnd) (n : ℕ) :
    (f.seek n).AtEnd ↔ f.data.length ≤ n := by
  refine ⟨fun hs => ?_, h.seek⟩
  unfold OpenFile.seek at hs
  split at hs
  · exact Nat.le_of_eq hs.symm
  · next hn => exact Nat.le_of_not_le hn

namespace Device

variable {x : Exchange} {name : Name} {d e : Device} {buf : Bytes} {b : Bool}
  {size fuel i k pos : ℕ}

/-- `data_file` is open on `log_file_name`, at its end. -/
def OpenAtEnd (d : Device) : Prop := ∃ f, d.dataFile = some f ∧ f.name = d.logFile ∧ f.AtEnd

/-- What `upload_file` is to leave as it was. -/
structure Restored (d e : Device) : Prop where
  direct : e.noWriteFile = false
  timer : e.canLogTimer = true
  atEnd : OpenAtEnd d → OpenAtEnd e

/-- The log is reopened after a block of a file of some size. -/
def Due (x : Exchange) (size k : ℕ) : Prop := k * fileBufLen < size ∧ x.flushDue k = true

/-- From a block on, the first reopening fails. -/
def FirstFails (x : Exchange) (size k : ℕ) : Prop :=
  ∃ l, k ≤ l ∧ Due x size l ∧ x.reopens l = false ∧ ∀ j, k ≤ j → j < l → ¬ Due x size j

/-- All reopenings between the blocks succeed, or the log stays empty. -/
def EndKept (x : Exchange) (size : ℕ) (d : Device) : Prop :=
  (∀ k, Due x size k → x.reopens k = true) ∨
    d.found = [] ∧ (d.writeBuffer = [] ∨ FirstFails x size 0)

/-! ## Reopening -/

/-- Reopening the log comes back to its end. -/
def Reopens (d : Device) : Prop := d.found.length ≤ d.dataFilePosition

theorem found_of_open {f : OpenFile} (h : d.dataFile = some f) (hn : f.name = d.logFile)
    (hm : d.logFile ∈ d.card) : d.found = f.data := by
  rw [found, syncedCard_of_mem h (hn ▸ hm), hn, Finmap.lookup_insert]
  rfl

theorem openAtEnd_reopenFile_iff : OpenAtEnd (d.reopenFile b) ↔ b = true ∧ Reopens d := by
  cases b with
  | false =>
    refine iff_of_false ?_ fun h => absurd h.1 (by decide)
    rintro ⟨f, hf, -⟩
    cases hf
  | true =>
    rw [and_iff_right rfl, reopenFile_opens]
    have hend := (OpenFile.atEnd_mk d.logFile d.found).seek_iff d.dataFilePosition
    refine ⟨?_, fun h => ⟨_, rfl, OpenFile.seek_name _, hend.2 h⟩⟩
    rintro ⟨f, hf, -, hat⟩
    cases hf
    exact hend.1 hat

/-- A log that is open at its end is reopened there, also if its file has been removed. -/
theorem OpenAtEnd.reopens (h : OpenAtEnd d) : Reopens d := by
  obtain ⟨f, hf, hn, hat⟩ := h
  rw [Reopens, dataFilePosition, hf]
  refine le_of_le_of_eq ?_ hat.symm
  by_cases hm : d.logFile ∈ d.card
  · rw [found_of_open hf hn hm]
  · have hnone : d.syncedCard.lookup d.logFile = none := by
      rw [Finmap.lookup_eq_none, mem_syncedCard]
      exact hm
    rw [found, hnone]
    exact Nat.zero_le _

theorem flushSdFile_writeBuffer (d : Device) : d.flushSdFile.writeBuffer = [] := by
  rw [flushSdFile, sync_writeBuffer, drainBuffer_eq]

theorem flushSdFile_dataFile (d : Device) :
    d.flushSdFile.dataFile = d.dataFile.map (·.write d.writeBuffer) := by
  rw [flushSdFile, sync_dataFile, drainBuffer_eq]

theorem flushSdFile_logFile (d : Device) : d.flushSdFile.logFile = d.logFile := by
  rw [logFile, flushSdFile, sync_logFileName, drainBuffer_eq]
  rfl

/-- A flush whose reopening succeeds writes what is buffered, and keeps to the end. -/
theorem flush_reopened (h : Reopens d ∨ d.writeBuffer = []) :
    (d.reopenFile true).flushSdFile.found = d.found ++ d.writeBuffer ∧
      (Reopens (d.reopenFile true).flushSdFile ↔ Reopens d) := by
  obtain ⟨f, hf, hn, hdata, hend, hpos⟩ : ∃ f, (d.reopenFile true).dataFile = some f ∧
      f.name = d.logFile ∧ f.data = d.found ∧ (f.AtEnd ↔ Reopens d) ∧
      (¬ Reopens d → f.pos = d.dataFilePosition) := by
    rw [reopenFile_opens]
    refine ⟨_, rfl, OpenFile.seek_name _, OpenFile.seek_data _,
      (OpenFile.atEnd_mk d.logFile d.found).seek_iff _, fun hr => ?_⟩
    exact congrArg OpenFile.pos (if_pos (Nat.le_of_not_le hr))
  have hm : d.logFile ∈ (d.reopenFile true).flushSdFile.card := by
    rw [mem_flushSdFile, reopenFile_opens]
    dsimp only
    split
    · next hm => exact mem_syncedCard.2 hm
    · exact Finmap.mem_insert.2 (.inl rfl)
  have hfile : (d.reopenFile true).flushSdFile.dataFile = some (f.write d.writeBuffer) := by
    rw [flushSdFile_dataFile, hf]
    rfl
  have hlog : (d.reopenFile true).flushSdFile.logFile = d.logFile := flushSdFile_logFile _
  have hfound : (d.reopenFile true).flushSdFile.found = (f.write d.writeBuffer).data :=
    found_of_open hfile (hn.trans hlog.symm) (hlog.symm ▸ hm)
  rw [Reopens, hfound, dataFilePosition, hfile]
  by_cases hr : Reopens d
  · have hat := hend.2 hr
    refine ⟨by rw [hat.write_data, hdata], iff_of_true ?_ hr⟩
    exact Nat.le_of_eq hat.write.symm
  · -- nothing is buffered, and the file stays as it was opened
    have hw : f.write d.writeBuffer = f := by
      rw [h.resolve_left hr]
      simp [OpenFile.write]
    rw [hw, h.resolve_left hr, List.append_nil, hdata]
    refine ⟨rfl, iff_of_false ?_ hr⟩
    rw [Option.elim_some, hpos hr]
    exact hr

/-- A flush whose reopening fails loses what is buffered, and the position. -/
theorem flush_not_reopened (d : Device) :
    (d.reopenFile false).flushSdFile.found = d.found ∧
      (Reopens (d.reopenFile false).flushSdFile ↔ d.found = []) := by
  have hfile : (d.reopenFile false).flushSdFile.dataFile = none := flushSdFile_dataFile _
  have hcard : (d.reopenFile false).flushSdFile.card = d.syncedCard := by
    rw [flushSdFile, sync_card, drainBuffer_eq]
    rfl
  have hfound : (d.reopenFile false).flushSdFile.found = d.found := by
    rw [found, syncedCard_of_none hfile, hcard, flushSdFile_logFile]
    rfl
  refine ⟨hfound, ?_⟩
  rw [Reopens, hfound, dataFilePosition, hfile, Option.elim_none, Nat.le_zero,
    List.length_eq_zero_iff]

/-! ## The blocks -/

theorem forall_due_iff {P : ℕ → Prop} : (∀ l, k ≤ l → Due x size l → P l) ↔
    (Due x size k → P k) ∧ ∀ l, k + 1 ≤ l → Due x size l → P l := by
  refine ⟨fun h => ⟨h k le_rfl, fun l hl => h l (Nat.le_of_succ_le hl)⟩, fun h l hl => ?_⟩
  rcases Nat.eq_or_lt_of_le hl with rfl | hl
  · exact h.1
  · exact h.2 l hl

theorem firstFails_of_due (h : Due x size k) : FirstFails x size k ↔ x.reopens k = false := by
  refine ⟨?_, fun hr => ⟨k, le_rfl, h, hr, fun j hj hlt => absurd hlt (Nat.not_lt.2 hj)⟩⟩
  rintro ⟨l, hl, -, hr, hno⟩
  rcases Nat.eq_or_lt_of_le hl with rfl | hl
  · exact hr
  · exact absurd h (hno k le_rfl hl)

theorem firstFails_of_not_due (h : ¬ Due x size k) :
    FirstFails x size k ↔ FirstFails x size (k + 1) := by
  constructor
  · rintro ⟨l, hl, hd, hr, hno⟩
    rcases Nat.eq_or_lt_of_le hl with rfl | hl
    · exact absurd hd h
    · exact ⟨l, hl, hd, hr, fun j hj => hno j (Nat.le_of_succ_le hj)⟩
  · rintro ⟨l, hl, hd, hr, hno⟩
    refine ⟨l, Nat.le_of_succ_le hl, hd, hr, fun j hj => ?_⟩
    rcases Nat.eq_or_lt_of_le hj with rfl | hj
    · exact fun _ => h
    · exact hno j hj

theorem not_due_of_le (h : size ≤ k * fileBufLen) {l : ℕ} (hl : k ≤ l) : ¬ Due x size l :=
  fun hd => absurd hd.1 (Nat.not_lt.2 (h.trans (Nat.mul_le_mul_right _ hl)))

/-- What is so with no blocks left, and is carried over a block, is so of the blocks from one
    on, if the connection lasts. -/
theorem sendLoop_lasts_induct {R : ℕ → Device → Device → Prop} (hl : Lasts x size)
    (hdone : ∀ k d, size ≤ k * fileBufLen → R k d d)
    (hblock : ∀ k buf d e, k * fileBufLen < size →
      R (k + 1) ((d.flushedAfter x k).emit (.bodySent buf)) e → R k d e)
    (hi : i = k * fileBufLen) (hf : size ≤ (k + fuel) * fileBufLen) :
    R k d (sendLoop x name size fuel i pos buf d).2 := by
  induction fuel generalizing i k pos buf d with
  | zero => exact hdone k d hf
  | succ fuel ih =>
    by_cases hlt : i < size
    · have hk : i / fileBufLen = k := by rw [hi, Nat.mul_div_cancel k (by decide)]
      have hc : x.connected (i / fileBufLen) = true := by
        rw [hk]
        exact hl k (hi ▸ hlt)
      obtain ⟨pos', buf', hstep⟩ := sendLoop_block name fuel pos buf d hlt hc
      rw [hstep, hk]
      exact hblock k buf' d _ (hi ▸ hlt)
        (ih (by rw [hi, Nat.succ_mul]) (by rwa [Nat.add_assoc, Nat.add_comm 1]))
    · rw [sendLoop, if_neg hlt]
      exact hdone k d (hi ▸ Nat.not_lt.1 hlt)

/-- The blocks from one on leave the log such that it is reopened at its end, if it was before
    and they keep to the end, or it stays empty. -/
theorem reopens_sendLoop (hl : Lasts x size) (hi : i = k * fileBufLen)
    (hf : size ≤ (k + fuel) * fileBufLen) (hb : Reopens d ∨ d.writeBuffer = []) :
    Reopens (sendLoop x name size fuel i pos buf d).2 ↔
      Reopens d ∧ (∀ l, k ≤ l → Due x size l → x.reopens l = true) ∨
        d.found = [] ∧ (d.writeBuffer = [] ∨ FirstFails x size k) := by
  refine sendLoop_lasts_induct (R := fun k d e => Reopens d ∨ d.writeBuffer = [] →
    (Reopens e ↔ Reopens d ∧ (∀ l, k ≤ l → Due x size l → x.reopens l = true) ∨
      d.found = [] ∧ (d.writeBuffer = [] ∨ FirstFails x size k))) hl ?_ ?_ hi hf hb
  · -- where no blocks are left, the condition is that the log can be reopened at its end
    intro k d hle _
    refine ⟨fun h => .inl ⟨h, fun l hl hd => absurd hd (not_due_of_le hle hl)⟩, ?_⟩
    rintro (⟨h, -⟩ | ⟨h, -⟩)
    · exact h
    · rw [Reopens, h]
      exact Nat.zero_le _
  · intro k buf d e hlt ih hb
    have hnext (he : Reopens (d.flushedAfter x k) ∨ (d.flushedAfter x k).writeBuffer = []) :
        Reopens e ↔ Reopens (d.flushedAfter x k) ∧
            (∀ l, k + 1 ≤ l → Due x size l → x.reopens l = true) ∨
          (d.flushedAfter x k).found = [] ∧
            ((d.flushedAfter x k).writeBuffer = [] ∨ FirstFails x size (k + 1)) := ih he
    rw [forall_due_iff]
    by_cases hd : x.flushDue k = true
    · have hdue : Due x size k := ⟨hlt, hd⟩
      have hbuf := flushSdFile_writeBuffer (d.reopenFile (x.reopens k))
      rw [flushedAfter, if_pos hd] at hnext
      rw [firstFails_of_due hdue, hnext (.inr hbuf), hbuf]
      cases hr : x.reopens k with
      | true =>
        obtain ⟨hfnd, hre⟩ := flush_reopened hb
        rw [hfnd, hre, List.append_eq_nil_iff]
        simp [hdue]
      | false =>
        obtain ⟨hfnd, hre⟩ := flush_not_reopened d
        rw [hfnd, hre]
        simpa [hdue] using fun h _ => h
    · have hdue : ¬ Due x size k := fun h => hd h.2
      rw [flushedAfter, if_neg hd] at hnext
      rw [hnext hb, firstFails_of_not_due hdue]
      simp [hdue]

/-- The sending of a file leaves the log such that it is reopened at its end, if it was open
    there and the end is kept. -/
theorem OpenAtEnd.reopens_send (h : OpenAtEnd d) (hl : Lasts x (d.fileSize name)) :
    Reopens ((d.asked x name).send x name).2 ↔ EndKept x (d.fileSize name) d := by
  obtain ⟨hr, hfound, hbuf⟩ : Reopens ((d.asked x name).posting x name) ∧
      ((d.asked x name).posting x name).found = d.found ∧
      ((d.asked x name).posting x name).writeBuffer = d.writeBuffer :=
    posting_induct (P := fun e => Reopens e ∧ e.found = d.found ∧ e.writeBuffer = d.writeBuffer)
      (fun _ _ _ h => h) (fun _ _ _ h => h) ⟨h.reopens, rfl, rfl⟩
  have hsize : (d.asked x name).fileSize name = d.fileSize name := rfl
  rw [send, hsize, reopens_sendLoop hl (Nat.zero_mul _).symm (le_blocks _) (.inl hr),
    and_iff_right hr, hfound, hbuf]
  simp only [Nat.zero_le, true_imp_iff]
  exact Iff.rfl

theorem sendLoop_noWriteFile (x : Exchange) (h : d.noWriteFile = true) :
    (sendLoop x name size fuel i pos buf d).2.noWriteFile = true := by
  refine sendLoop_induct (P := fun e => e.noWriteFile = true) (fun _ _ h => h) (fun k e he => ?_)
    (fun _ h => h) h
  obtain ⟨_, _, _, _, hf⟩ := (reopenFile_filed (x.reopens k) e).trans (flushSdFile_filed _)
  rw [hf]
  exact he

theorem acceptUpload_mode (x : Exchange) (name : Name) (d : Device) :
    (d.acceptUpload x name).noWriteFile = d.noWriteFile ∧
      (d.acceptUpload x name).canLogTimer = d.canLogTimer ∧
      (OpenAtEnd (d.acceptUpload x name) ↔ OpenAtEnd d) := by
  unfold acceptUpload
  split
  · exact ⟨rfl, rfl, Iff.rfl⟩
  · exact ⟨rfl, rfl, Iff.rfl⟩

/-- When the connection is lost, lines go on being buffered. -/
theorem not_restored_of_lost (h₁ : x.getStatus = 404) (h₂ : x.connects = true)
    (hl : ¬ Lasts x (d.fileSize name)) : ¬ Restored d (d.uploadFile x name).2 := by
  intro hr
  rcases hs : (d.asked x name).send x name with ⟨b, e⟩
  have hb : ¬ b = true := fun hb => hl ((asked_send_eq_true_iff hs).1 hb)
  rw [Bool.not_eq_true] at hb
  subst hb
  have he : e.noWriteFile = true := by
    have hn : ((d.asked x name).send x name).2.noWriteFile = true := sendLoop_noWriteFile x rfl
    rwa [hs] at hn
  have hu : d.uploadFile x name = (false, e) := by
    refine uploadFile_false ?_
    rw [requestUpload_of_connects h₁ h₂, postFile_eq, hs]
  have hd := hr.direct
  rw [hu, he] at hd
  cases hd

/-- After a file was sent, the mode is restored if and only if the log is reopened at its end,
    if it was open there. -/
theorem restored_of_sent (h₁ : x.getStatus = 404) (h₂ : x.connects = true)
    (hs : (d.asked x name).send x name = (true, e)) :
    Restored d (d.uploadFile x name).2 ↔
      (OpenAtEnd d → x.reopensAtEnd = true ∧ Reopens e) := by
  have hiff {f : Device} (hn : f.noWriteFile = false) (ht : f.canLogTimer = true)
      (ho : OpenAtEnd f ↔ OpenAtEnd (e.reopenFile x.reopensAtEnd)) :
      Restored d f ↔ (OpenAtEnd d → x.reopensAtEnd = true ∧ Reopens e) := by
    rw [← openAtEnd_reopenFile_iff, ← ho]
    exact ⟨fun h => h.atEnd, fun h => ⟨hn, ht, h⟩⟩
  rcases hu : d.uploadFile x name with ⟨b, f⟩
  cases upload_of_uploadFile hu with
  | present h => exact absurd (h₁.symm.trans h) (by decide)
  | failed _ h => exact absurd (h₂.symm.trans (h h₁)) (by decide)
  | lost _ _ h => cases hs.symm.trans h
  | unanswered _ _ h =>
    cases hs.symm.trans h
    exact hiff rfl rfl Iff.rfl
  | refused _ _ h =>
    cases hs.symm.trans h
    exact hiff rfl rfl Iff.rfl
  | accepted _ _ h =>
    cases hs.symm.trans h
    obtain ⟨hn, ht, ho⟩ :=
      acceptUpload_mode x name ((e.sent x).emit (.postAnswered name x.response))
    exact hiff hn ht ho

/-- An upload restores the logging mode if and only if, where it posts the file, the connection
    lasts, and a log that was open at its end is reopened at the end, which is kept between
    the blocks. -/
theorem restored_iff (hw : d.noWriteFile = false) (ht : d.canLogTimer = true) :
    Restored d (d.uploadFile x name).2 ↔
      (x.getStatus = 404 → x.connects = true → Lasts x (d.fileSize name) ∧
        (OpenAtEnd d → x.reopensAtEnd = true ∧ EndKept x (d.fileSize name) d)) := by
  by_cases hpost : x.getStatus = 404 ∧ x.connects = true
  · obtain ⟨h₁, h₂⟩ := hpost
    rw [forall_prop_of_true h₁, forall_prop_of_true h₂]
    by_cases hl : Lasts x (d.fileSize name)
    · rcases hs : (d.asked x name).send x name with ⟨b, e⟩
      obtain rfl : b = true := (asked_send_eq_true_iff hs).2 hl
      rw [restored_of_sent h₁ h₂ hs, and_iff_right hl]
      refine forall_congr' fun ho => and_congr_right fun _ => ?_
      have hr := ho.reopens_send hl
      rwa [hs] at hr
    · exact iff_of_false (not_restored_of_lost h₁ h₂ hl) fun h => hl h.1
  · refine iff_of_true ?_ fun h₁ h₂ => absurd ⟨h₁, h₂⟩ hpost
    rcases hu : d.uploadFile x name with ⟨b, e⟩
    cases upload_of_uploadFile hu with
    | present => exact ⟨hw, ht, id⟩
    | failed => exact ⟨hw, ht, id⟩
    | lost h₁ h₂ => exact absurd ⟨h₁, h₂⟩ hpost
    | unanswered h₁ h₂ => exact absurd ⟨h₁, h₂⟩ hpost
    | refused h₁ h₂ => exact absurd ⟨h₁, h₂⟩ hpost
    | accepted h₁ h₂ => exact absurd ⟨h₁, h₂⟩ hpost

/-- A log with a line, open at its end. -/
def whileLogging : Device :=
  { initial (.singleton (logName 1) ['x']) ⟨1, 1, 1, 1⟩ with
    dataFile := some ⟨logName 1, ['x'], 1⟩
    logFileName := sprintfNumToLogfileName 1 defaultLogFileName
    canLogTimer := true }

/-- The log is uploaded over a connection that lasts. -/
theorem restored_while_logging :
    Restored whileLogging (whileLogging.uploadFile { getStatus := 404 } (logName 1)).2 :=
  (restored_iff rfl rfl).2 fun _ _ =>
    ⟨fun _ _ => rfl, fun _ => ⟨rfl, .inl fun _ hd => absurd hd.2 Bool.false_ne_true⟩⟩

/-- The connection is lost before the first block. -/
theorem not_restored_while_logging :
    ¬ Restored whileLogging
      (whileLogging.uploadFile
        { getStatus := 404, connected := fun _ => false } (logName 1)).2 := by
  refine not_restored_of_lost rfl rfl fun hl => ?_
  have hsize : whileLogging.fileSize (logName 1) = 1 := by
    have hfile : whileLogging.card.lookup (logName 1) = some ['x'] := Finmap.lookup_singleton_eq
    rw [fileSize, hfile]
    rfl
  have h₀ := hl 0 (by rw [hsize]; decide)
  cases h₀

end Device

end CanInsight
