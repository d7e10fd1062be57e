import CanInsight.Transfers

/-!
# Confirmed uploads

The uploader moves its cursor past a log when `upload_file` returns true, which
should mean that the server has the log. It returns true without a word from the
server when the whole file was sent and no answer is there yet; and it reads the
answer into an array that is not initialised, so a short answer can be completed
by what the array held.

* `AdvancesConfirmed`: each time the cursor moved on, the server had confirmed
  the log with status 200 in the same step;
* `Sincere`: the condition on an exchange under which `upload_file` returns true
  only if the server confirmed the file (`Upload.step`);
* `advancesConfirmed_iff`: an upload only moves on past confirmed logs if and
  only if all its exchanges are sincere.
-/

namespace CanInsight

open CString

namespace Exchange

variable {x : Exchange}

/-- What the array `status` held does not complete a short answer to status 200. -/
def NotStale (x : Exchange) : Prop :=
  12 ≤ x.response.length ∨
    ¬ Answers200 (x.response ++ x.status.drop x.response.length)

instance (x : Exchange) : Decidable x.NotStale := inferInstanceAs (Decidable (_ ∨ _))

/-- The answer to the POST of a file that is sent as a whole is there, and is not
    completed by what the array `status` held. -/
def Sincere (x : Exchange) (size : ℕ) : Prop :=
  x.getStatus = 404 → x.connects = true → Device.Lasts x size → x.arrived ≠ [] ∧ x.NotStale

/-- The status that is read is that of the bytes of the answer and of the array. -/
theorem statusIs200_iff :
    x.statusIs200 = true ↔ Answers200 (x.response ++ x.status.drop x.response.length) := by
  generalize hl : x.response ++ x.status.drop x.response.length = l
  have hs : x.statusIs200 = decide (toText ((l.take 12 ++ [nul]).drop 9) = ['2', '0', '0']) := by
    rw [statusIs200, statusArray, hl]
  have hd : toText ((l.take 12 ++ [nul]).drop 9) = toText ((l.drop 9).take 3) := by
    rw [List.drop_append, List.drop_take]
    rcases Nat.eq_zero_or_pos (9 - (l.take 12).length) with h | h
    · rw [h]
      exact toText_append_nul _
    · have he : [nul].drop (9 - (l.take 12).length) = [] := List.drop_of_length_le h
      rw [he, List.append_nil]
  rw [hs, decide_eq_true_iff, Answers200, hd]
  exact toText_eq_iff (List.length_take_le 3 (l.drop 9)) (by simp [nul])

/-- The status of a long answer does not depend on what follows it. -/
theorem answers200_append {response : Bytes} (h : 12 ≤ response.length) (s : Bytes) :
    Answers200 (response ++ s) ↔ Answers200 response := by
  rw [Answers200, Answers200, List.drop_append_of_le_length (by omega),
    List.take_append_of_le_length (by rw [List.length_drop]; omega)]

theorem length_of_answers200 {response : Bytes} (h : Answers200 response) :
    12 ≤ response.length := by
  have hlen := congrArg List.length h
  simp only [List.length_take, List.length_drop, List.length_cons, List.length_nil] at hlen
  omega

theorem statusIs200_of_answers200 (h : Answers200 x.response) : x.statusIs200 = true :=
  statusIs200_iff.2 ((answers200_append (length_of_answers200 h) _).2 h)

/-- Up to what the array held, status 200 is read if the answer has it. -/
theorem notStale_iff : (x.statusIs200 = true → Answers200 x.response) ↔ x.NotStale := by
  rw [statusIs200_iff, NotStale]
  by_cases hl : 12 ≤ x.response.length
  · exact iff_of_true (answers200_append hl _).1 (.inl hl)
  · have ha : ¬ Answers200 x.response := fun h => hl (length_of_answers200 h)
    exact ⟨fun h => .inr fun hs => ha (h hs), fun h hs => (h.resolve_left hl hs).elim⟩

end Exchange

/-! ## The trace of an upload -/

/-- The events since the last call of `upload_file`, and the name of its file. -/
def currentStep : List Event → List Event × Option Name
  | [] => ([], none)
  | .uploading name :: _ => ([], some name)
  | e :: trace => (e :: (currentStep trace).1, (currentStep trace).2)

/-- The server answers with status 200 for a file, either to the GET about it or to
    the POST that carried it. -/
def Event.Confirms (file : Name) : Event → Prop
  | getAnswered name status => name = file ∧ status = 200
  | postAnswered name response => name = file ∧ Answers200 response
  | _ => False

instance (file : Name) : DecidablePred (Event.Confirms file)
  | .getAnswered _ _ => inferInstanceAs (Decidable (_ ∧ _))
  | .postAnswered _ _ => inferInstanceAs (Decidable (_ ∧ _))
  | .removed _ | .created _ | .session _ _ | .frames _ | .overrun | .uploading _ | .getSent _
  | .postSent _ | .bodySent _ | .confirmed _ | .advanced _ => inferInstanceAs (Decidable False)

/-- The server confirmed a file within a step. -/
def ConfirmedIn (step : List Event) (file : Name) : Prop := ∃ e ∈ step, e.Confirms file

instance (step : List Event) (file : Name) : Decidable (ConfirmedIn step file) :=
  inferInstanceAs (Decidable (∃ e ∈ step, _))

/-- In the step that ends a trace, the server confirmed the file of the number
    `n`. (The name of the file is that of its number, unless the bound of the
    upload lets the numbers overflow.) -/
def StepConfirmed (max n : ℕ) (trace : List Event) : Prop :=
  ∃ name ∈ (currentStep trace).2,
    (max < 65535 → name = logName n) ∧ ConfirmedIn (currentStep trace).1 name

instance (max n : ℕ) (trace : List Event) : Decidable (StepConfirmed max n trace) :=
  inferInstanceAs (Decidable (∃ name ∈ _, _))

/-- Each time the cursor moved on past a number, the server had confirmed the
    file of the number in the same step. -/
def AdvancesConfirmed (max : ℕ) : List Event → Prop
  | [] => True
  | .advanced n :: trace => StepConfirmed max n trace ∧ AdvancesConfirmed max trace
  | _ :: trace => AdvancesConfirmed max trace

namespace Event

/-- The events within a step. -/
def InStep : Event → Prop
  | uploading _ | advanced _ => False
  | _ => True

/-- The events within a step that bring no answer. -/
def Mute : Event → Prop
  | uploading _ | advanced _ | getAnswered _ _ | postAnswered _ _ => False
  | _ => True

theorem Mute.inStep {e : Event} (h : e.Mute) : e.InStep := by
  cases e <;> trivial

end Event

variable {es es' trace : List Event} {name : Name} {max : ℕ}

theorem currentStep_append (h : ∀ e ∈ es, e.InStep) :
    currentStep (es ++ .uploading name :: trace) = (es, some name) := by
  induction es with
  | nil => rfl
  | cons e es ih =>
    have he := h e List.mem_cons_self
    have ih := ih fun e h' => h e (List.mem_cons_of_mem _ h')
    cases e <;> first | exact absurd he id | simp [currentStep, ih]

theorem advancesConfirmed_append (h : ∀ e ∈ es, e.InStep) :
    AdvancesConfirmed max (es ++ .uploading name :: trace) ↔ AdvancesConfirmed max trace := by
  induction es with
  | nil => rfl
  | cons e es ih =>
    have he := h e List.mem_cons_self
    have ih := ih fun e h' => h e (List.mem_cons_of_mem _ h')
    cases e <;> first | exact absurd he id | exact ih

theorem confirmedIn_cons {e : Event} :
    ConfirmedIn (e :: es) name ↔ e.Confirms name ∨ ConfirmedIn es name := by
  simp [ConfirmedIn]

theorem confirmedIn_cons_mute {e : Event} (h : e.Mute) :
    ConfirmedIn (e :: es) name ↔ ConfirmedIn es name := by
  rw [confirmedIn_cons]
  refine or_iff_right fun hc => ?_
  cases e <;> trivial

theorem confirmedIn_append_mute (h : ∀ e ∈ es, e.Mute) :
    ConfirmedIn (es ++ es') name ↔ ConfirmedIn es' name := by
  induction es with
  | nil => rfl
  | cons e es ih =>
    rw [List.cons_append, confirmedIn_cons_mute (h e List.mem_cons_self)]
    exact ih fun e h' => h e (List.mem_cons_of_mem _ h')

namespace Device

variable {x : Exchange} {d e : Device} {b : Bool}

theorem ofSend_mute (e : Event) (h : e.OfSend) : e.Mute := by
  cases e <;> trivial

theorem isRemoved_mute (e : Event) (h : e.IsRemoved) : e.Mute := by
  cases e <;> trivial

/-- The events of the GET about a file. -/
def askedEvents (x : Exchange) (name : Name) : List Event :=
  [.getAnswered name x.getStatus, .getSent (getUri x.logMeta name)]

theorem asked_trace (x : Exchange) (name : Name) (d : Device) :
    (d.asked x name).trace = askedEvents x name ++ .uploading name :: d.trace := rfl

theorem askedEvents_inStep : ∀ e ∈ askedEvents x name, e.InStep := by
  simp [askedEvents, Event.InStep]

theorem not_confirmedIn_askedEvents (h : x.getStatus ≠ 200) :
    ¬ ConfirmedIn (askedEvents x name) name := by
  simp [ConfirmedIn, askedEvents, Event.Confirms, h]

/-- The events of a file that was sent after the GET about it. -/
theorem sent_trace (hs : (d.asked x name).send x name = (b, e)) :
    ∃ es, (e.sent x).trace = es ++ .uploading name :: d.trace ∧ (∀ e ∈ es, e.InStep) ∧
      (x.getStatus = 404 → ¬ ConfirmedIn es name) := by
  obtain ⟨es, he, hes⟩ := ((send_extends hs).1.trans (sent_extends x e).1).mono ofSend_mute
  refine ⟨es ++ askedEvents x name, by rw [he, asked_trace, List.append_assoc], fun ev hev => ?_,
    fun hg => ?_⟩
  · rcases List.mem_append.1 hev with hev | hev
    · exact (hes ev hev).inStep
    · exact askedEvents_inStep ev hev
  · rw [confirmedIn_append_mute hes]
    exact not_confirmedIn_askedEvents (by rw [hg]; decide)

/-- An upload is a step: it begins with the call of `upload_file`. Where it returns
    true, the server confirmed the file in it if and only if the exchange was sincere,
    and where it returns false, the server did not. -/
theorem Upload.step (h : Upload x name d b e) :
    ∃ es, e.trace = es ++ .uploading name :: d.trace ∧ (∀ e ∈ es, e.InStep) ∧
      (b = true → (ConfirmedIn es name ↔ x.Sincere (d.fileSize name))) ∧
      (b = false → x.Sincere (d.fileSize name) ∧ ¬ ConfirmedIn es name) := by
  cases h with
  | present hg =>
    refine ⟨.confirmed name :: askedEvents x name, congrArg (_ :: ·) (asked_trace x name d),
      List.forall_mem_cons.2 ⟨trivial, askedEvents_inStep⟩, fun _ => ?_, by simp⟩
    refine iff_of_true ⟨_, .tail _ (.head _), rfl, hg⟩ fun hg' => ?_
    rw [hg] at hg'
    cases hg'
  | failed hg hc =>
    refine ⟨_, asked_trace x name d, askedEvents_inStep, by simp, fun _ => ⟨fun hg' hc' => ?_,
      not_confirmedIn_askedEvents hg⟩⟩
    rw [hc hg'] at hc'
    cases hc'
  | lost hg hc hs =>
    obtain ⟨es, he, hes⟩ := (send_extends hs).1.mono ofSend_mute
    refine ⟨es ++ askedEvents x name, by rw [he, asked_trace, List.append_assoc], fun ev hev => ?_,
      by simp, fun _ => ⟨fun _ _ hl => absurd ((asked_send_eq_true_iff hs).2 hl) (by decide), ?_⟩⟩
    · rcases List.mem_append.1 hev with hev | hev
      · exact (hes ev hev).inStep
      · exact askedEvents_inStep ev hev
    · rw [confirmedIn_append_mute hes]
      exact not_confirmedIn_askedEvents (by rw [hg]; decide)
  | unanswered hg hc hs ha =>
    -- true is returned, and nothing in the trace confirms the file
    obtain ⟨es, he, hes, hn⟩ := sent_trace hs
    refine ⟨.confirmed name :: es, congrArg (_ :: ·) he, List.forall_mem_cons.2 ⟨trivial, hes⟩,
      fun _ => iff_of_false (fun h => ?_) fun h => ?_, by simp⟩
    · rw [confirmedIn_cons_mute (e := .confirmed name) trivial] at h
      exact hn hg h
    · exact (h hg hc ((asked_send_eq_true_iff hs).1 rfl)).1 ha
  | refused hg hc hs ha h200 =>
    obtain ⟨es, he, hes, hn⟩ := sent_trace hs
    refine ⟨.postAnswered name x.response :: es, congrArg (_ :: ·) he,
      List.forall_mem_cons.2 ⟨trivial, hes⟩, by simp, fun _ => ⟨fun _ _ _ => ⟨ha, ?_⟩, ?_⟩⟩
    · exact Exchange.notStale_iff.1 fun h => absurd (h200.symm.trans h) (by decide)
    · rw [confirmedIn_cons, or_iff_left (hn hg)]
      exact fun h => absurd (h200.symm.trans (Exchange.statusIs200_of_answers200 h.2)) (by decide)
  | @accepted e hg hc hs ha h200 =>
    obtain ⟨es, he, hes, hn⟩ := sent_trace hs
    obtain ⟨rs, hr, hrs⟩ := acceptUpload_extends x name
      ((e.sent x).emit (.postAnswered name x.response))
    have ht := congrArg (.confirmed name :: ·) hr
    rw [emit_trace, he] at ht
    refine ⟨.confirmed name :: (rs ++ .postAnswered name x.response :: es),
      ht.trans (by simp), ?_, fun _ => ?_, by simp⟩
    · refine List.forall_mem_cons.2 ⟨trivial, fun ev hev => ?_⟩
      rcases List.mem_append.1 hev with hev | hev
      · exact (isRemoved_mute ev (hrs ev hev)).inStep
      · exact List.forall_mem_cons.2 ⟨trivial, hes⟩ ev hev
    · have hc' : ConfirmedIn (.confirmed name :: (rs ++ .postAnswered name x.response :: es)) name ↔
          Answers200 x.response := by
        rw [confirmedIn_cons_mute (e := .confirmed name) trivial,
          confirmedIn_append_mute fun ev hev => isRemoved_mute ev (hrs ev hev),
          confirmedIn_cons, or_iff_left (hn hg)]
        exact and_iff_right rfl
      have hs' : x.Sincere (d.fileSize name) ↔ x.NotStale :=
        ⟨fun h => (h hg hc ((asked_send_eq_true_iff hs).1 rfl)).2, fun h _ _ _ => ⟨ha, h⟩⟩
      rw [hc', hs', ← Exchange.notStale_iff]
      exact ⟨fun h _ => h, fun h => h h200⟩

end Device

namespace DataUploader

variable {net : ℕ → Exchange} {u : DataUploader} {d : Device} {buf : List Char} {fuel n : ℕ}

/-- The exchange about a log is sincere. -/
def CallSincere (net : ℕ → Exchange) (c : ℕ × Name × Device) : Prop :=
  (net c.1).Sincere (c.2.2.fileSize c.2.1)

/-- A round that moves on past a log is confirmed if and only if its exchange is
    sincere. -/
theorem round_advancesConfirmed_iff {e : Device} {b : Bool} (hb : Names u buf)
    (hu : d.uploadFile (net u.nextLogToUpload) (toText buf) = (b, e)) :
    AdvancesConfirmed u.maxLogToUpload (afterRound b u e).trace ↔
      CallSincere net (u.nextLogToUpload, toText buf, d) ∧
        AdvancesConfirmed u.maxLogToUpload d.trace := by
  obtain ⟨es, he, hes, ht, hf⟩ := (Device.upload_of_uploadFile hu).step
  have hd : AdvancesConfirmed u.maxLogToUpload e.trace ↔
      AdvancesConfirmed u.maxLogToUpload d.trace := by
    rw [he]
    exact advancesConfirmed_append hes
  cases b with
  | false => exact hd.trans (and_iff_right (hf rfl).1).symm
  | true =>
    refine and_congr (Iff.trans ?_ (ht rfl)) hd
    rw [StepConfirmed, he, currentStep_append hes]
    refine ⟨?_, fun h => ⟨_, rfl, hb.toText, h⟩⟩
    rintro ⟨_, hname, -, h⟩
    cases hname
    exact h

/-- In the trace of an upload, whatever the network and the server do, and however
    far it has come, the cursor only moved on past confirmed logs if and only if
    the exchanges of all calls of `upload_file` were sincere. -/
theorem advancesConfirmed_iff (net : ℕ → Exchange) (fuel : ℕ) (u : DataUploader) (d : Device) :
    AdvancesConfirmed u.maxLogToUpload (uploadRounds net fuel u { d with trace := [] }).2.2.trace ↔
      ∀ c ∈ uploadCalls net fuel u { d with trace := [] }, CallSincere net c := by
  refine (uploadRounds_iff (Q := fun e => AdvancesConfirmed u.maxLogToUpload e.trace)
    (C := CallSincere net) (I := fun v buf => v.maxLogToUpload = u.maxLogToUpload ∧ Names v buf)
    (fun v buf d b e hv _ hu => ?_) (fun v buf e w f hv hi => ?_) fun hn => ?_).trans
    (and_iff_left trivial)
  · rw [← hv.1]
    exact round_advancesConfirmed_iff hv.2 hu
  · exact ⟨(increment_max hi).trans hv.1, hv.2.next hi⟩
  · exact ⟨rfl, fun _ => ⟨hn, rfl⟩⟩

/-- The server has not got the log and does not answer: the cursor moves on. -/
theorem advanced_unanswered :
    ¬ AdvancesConfirmed 1 (uploadRounds (fun _ => { getStatus := 404 }) 1 ⟨1, 1⟩
      { Device.initial (Finmap.singleton (logName 1) ['x']) ⟨3, 1, 1, 1⟩ with
        trace := [] }).2.2.trace := by
  intro h
  have hs : ¬ StepConfirmed 1 1 (uploadRounds (fun _ => { getStatus := 404 }) 1 ⟨1, 1⟩
      (Device.initial (Finmap.singleton (logName 1) ['x']) ⟨3, 1, 1, 1⟩)).2.2.trace.tail := by
    decide +kernel
  exact hs h.1

end DataUploader

end CanInsight
