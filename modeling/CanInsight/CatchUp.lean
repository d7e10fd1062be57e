import CanInsight.Confirmation
import CanInsight.NameHistory
import CanInsight.Walk

/-!
# Uploads catch up

A log is pending until the server has confirmed it (`Confirmed`). With a server that
accepts every file, a call of `upload_file` settles its log if the status line of the
answer to the POST is there in time (`Settles`), and no other log (`pending_upload_iff`).
So after `upload_data`, the logs that were pending before and that no call settled are
pending (`pending_iff`). A log that is settled on the walk of the uploader is settled by a
call (`settled_of_walked`), and a log that is not on the walk by none
(`reached_of_settled`): one before the cursor, after a gap, or at the bound.
-/

namespace CanInsight

open CString

/-! ## Confirmed logs -/

namespace Event

/-- The content of a file starts: it is created, or a log is started on it. -/
def Starts (file : Name) : Event → Prop
  | created name => name = file
  | session name _ => name = file
  | _ => False

instance (file : Name) : DecidablePred (Event.Starts file)
  | .created _ => inferInstanceAs (Decidable (_ = _))
  | .session _ _ => inferInstanceAs (Decidable (_ = _))
  | .removed _ | .frames _ | .overrun | .uploading _ | .getSent _ | .postSent _ | .bodySent _
  | .getAnswered _ _ | .postAnswered _ _ | .confirmed _ | .advanced _ =>
    inferInstanceAs (Decidable False)

/-- The events of an upload of a file: only the file of the log is created, and the
    answers are about the file. -/
def About (name log : Name) : Event → Prop
  | created file => file = log
  | session _ _ => False
  | getAnswered file _ | postAnswered file _ => file = name
  | _ => True

end Event

/-- The events since the content of a file started. -/
def sinceStarted (file : Name) (trace : List Event) : List Event :=
  trace.takeWhile fun e => ¬ e.Starts file

section Traces

variable {es trace : List Event} {file name log : Name}

theorem sinceStarted_append (h : ∀ e ∈ es, ¬ e.Starts file) :
    sinceStarted file (es ++ trace) = es ++ sinceStarted file trace :=
  List.takeWhile_append_of_pos fun e he => decide_eq_true (h e he)

theorem confirmedIn_append :
    ConfirmedIn (es ++ trace) file ↔ ConfirmedIn es file ∨ ConfirmedIn trace file := by
  simp only [ConfirmedIn, List.mem_append, or_and_right, exists_or]

/-- The upload of a file starts no file but that of the log. -/
theorem Event.About.not_starts {e : Event} (h : e.About name log) (hf : file ≠ log) :
    ¬ e.Starts file := by
  intro hs
  cases e with
  | created other => exact hf (hs.symm.trans h)
  | session => exact h
  | _ => exact hs

/-- The upload of a file brings no answer about another. -/
theorem Event.About.eq_of_confirms {e : Event} (h : e.About name log) (hc : e.Confirms file) :
    name = file := by
  cases e with
  | getAnswered | postAnswered => exact h.symm.trans hc.1
  | _ => exact absurd hc id

end Traces

namespace Device

variable {x : Exchange} {name file : Name} {d e : Device} {b : Bool}

/-- The server has confirmed a file since its content started. -/
def Confirmed (file : Name) (d : Device) : Prop := ConfirmedIn (sinceStarted file d.trace) file

instance (file : Name) (d : Device) : Decidable (d.Confirmed file) :=
  inferInstanceAs (Decidable (ConfirmedIn _ _))

/-- A file on the card that is not being written and was not confirmed. -/
structure Pending (file : Name) (d : Device) : Prop where
  onCard : file ∈ d.card
  inactive : file ≠ d.logFile
  unconfirmed : ¬ d.Confirmed file

/-- All logs on the card but the one being written are confirmed. -/
def CaughtUp (d : Device) : Prop :=
  ∀ file, IsLog file → file ∈ d.card → file ≠ d.logFile → d.Confirmed file

theorem caughtUp_iff : d.CaughtUp ↔ ∀ file, IsLog file → ¬ d.Pending file :=
  forall₂_congr fun _ _ => ⟨fun h hp => hp.unconfirmed (h hp.onCard hp.inactive),
    fun h hm hn => not_not.1 fun hc => h ⟨hm, hn, hc⟩⟩

/-! ## The events of an upload -/

theorem openDataFile_about (b : Bool) (d : Device) :
    Extends (Event.About name d.logFile) d (d.openDataFile b) := by
  by_cases h : b ∧ d.logFile ∉ d.card
  · exact .of_cons (e := .created d.logFile) rfl (if_pos h)
  · exact .of_eq (if_neg h)

theorem reopenFile_about (b : Bool) (d : Device) :
    Extends (Event.About name d.logFile) d (d.reopenFile b) := by
  have h : Extends (Event.About name d.logFile) d d.closeDataFile := .of_eq rfl
  have hlog : d.closeDataFile.logFile = d.logFile := rfl
  exact h.trans ((hlog ▸ openDataFile_about b d.closeDataFile).trans (.of_eq rfl))

theorem flushSdFile_about (d : Device) : Extends (Event.About name d.logFile) d d.flushSdFile := by
  have h : Extends (Event.About name d.logFile) d d.drainBuffer := by
    rw [drainBuffer_eq]
    by_cases h : d.writeBuffer ≠ [] ∧ d.dataFile.isSome
    · exact .of_cons (e := .frames _) trivial (if_pos h)
    · exact .of_eq (if_neg h)
  exact h.trans (.of_eq rfl)

/-- What is recorded while a file is uploaded is about it, or about the log. -/
structure Talks (name : Name) (d e : Device) : Prop where
  log : e.logFile = d.logFile
  events : Extends (Event.About name d.logFile) d e

theorem Talks.refl (d : Device) : Talks name d d := ⟨rfl, .refl d⟩

theorem Talks.trans {f : Device} (h : Talks name d e) (h' : Talks name e f) : Talks name d f :=
  ⟨h'.log.trans h.log, h.events.trans (h.log ▸ h'.events)⟩

theorem Talks.emit {a : Event} (h : Talks name d e) (ha : a.About name d.logFile) :
    Talks name d (e.emit a) :=
  ⟨h.log, h.events.trans (.of_cons ha rfl)⟩

theorem reopenFile_talks (b : Bool) (d : Device) : Talks name d (d.reopenFile b) :=
  ⟨rfl, reopenFile_about b d⟩

theorem asked_talks (x : Exchange) (name : Name) (d : Device) : Talks name d (d.asked x name) :=
  ((Talks.refl d).emit (a := .uploading name) trivial).emit (a := .getSent _) trivial |>.emit
    (a := .getAnswered name x.getStatus) rfl

theorem send_talks (hs : d.send x name = (b, e)) : Talks name d e := by
  have he : (d.send x name).2 = e := by rw [hs]
  rw [← he]
  refine sendLoop_induct (P := Talks name d) (fun bytes f hf => hf.emit trivial) (fun k f hf => ?_)
    (fun f hf => ⟨hf.log, hf.events.trans (.of_eq rfl)⟩)
    ⟨rfl, .of_cons (e := .postSent _) trivial rfl⟩
  have hr := hf.trans (reopenFile_talks (x.reopens k) f)
  exact hr.trans ⟨congrArg toText (flushSdFile_still _).name, flushSdFile_about _⟩

theorem sent_talks (hs : (d.asked x name).send x name = (b, e)) : Talks name d (e.sent x) := by
  have he : Talks name d e := (asked_talks x name d).trans (send_talks hs)
  have hr := he.trans (reopenFile_talks x.reopensAtEnd e)
  exact ⟨hr.log, hr.events.trans (.of_eq rfl)⟩

theorem acceptUpload_talks (x : Exchange) (name : Name) (d : Device) :
    Talks name d (d.acceptUpload x name) := by
  refine ⟨?_, (acceptUpload_extends x name d).mono fun ev hev => ?_⟩
  · unfold acceptUpload
    split <;> rfl
  · cases ev <;> trivial

theorem Upload.talks (h : Upload x name d b e) : Talks name d e := by
  cases h with
  | present => exact (asked_talks x name d).emit trivial
  | failed => exact asked_talks x name d
  | lost _ _ hs => exact (asked_talks x name d).trans (send_talks hs)
  | unanswered _ _ hs => exact (sent_talks hs).emit trivial
  | refused _ _ hs => exact (sent_talks hs).emit (a := .postAnswered name x.response) rfl
  | accepted _ _ hs =>
    have ha := (sent_talks hs).emit (a := .postAnswered name x.response) rfl
    exact (ha.trans (acceptUpload_talks x name _)).emit trivial

end Device

/-! ## A server that accepts every file -/

namespace Exchange

variable {x : Exchange}

/-- The server accepts the file: it answers 404 to the GET and 200 to the POST, and the
    connection is never lost. How much of the answer to the POST arrives in time is left
    open, and so is whether the card operations succeed. -/
structure Accepts (x : Exchange) : Prop where
  getStatus : x.getStatus = 404
  connects : x.connects = true
  connected : ∀ k, x.connected k = true
  status : ∃ answer, Answers200 answer ∧ x.response <+: answer

/-- The status line is there in time: a byte right after the file, and the code before
    `readBytes` gives up. -/
structure InTime (x : Exchange) : Prop where
  arrived : x.arrived ≠ []
  length : 12 ≤ x.response.length

/-- `upload_file` returns true when the file has been sent. -/
def GoesOn (x : Exchange) : Prop := x.arrived = [] ∨ x.statusIs200 = true

/-- The log is not pending any more: its status line is there in time; or what `status`
    held makes 200 out of a shorter one, and the log is deleted. -/
def Settles (x : Exchange) (delete : Bool) : Prop :=
  x.InTime ∨ x.arrived ≠ [] ∧ x.statusIs200 = true ∧ delete = true ∧ x.removes = true

theorem Accepts.answers200_iff (h : x.Accepts) :
    Answers200 x.response ↔ 12 ≤ x.response.length := by
  obtain ⟨answer, ha, rest, rfl⟩ := h.status
  exact ⟨length_of_answers200, fun hl => (answers200_append hl rest).1 ha⟩

theorem Accepts.lasts (h : x.Accepts) (size : ℕ) : Device.Lasts x size := fun k _ => h.connected k

end Exchange

namespace Device

variable {x : Exchange} {name file : Name} {d e : Device} {b : Bool}

/-- A call of `upload_file` about a file that the server accepts. -/
theorem uploadFile_of_accepts (hx : x.Accepts) (hu : d.uploadFile x name = (b, e)) :
    ∃ f, (d.asked x name).send x name = (true, f) ∧
      ((b = true ∧ x.arrived = [] ∧ e = (f.sent x).emit (.confirmed name)) ∨
        (b = false ∧ x.arrived ≠ [] ∧ x.statusIs200 = false ∧
          e = (f.sent x).emit (.postAnswered name x.response)) ∨
        b = true ∧ x.arrived ≠ [] ∧ x.statusIs200 = true ∧
          e = (((f.sent x).emit (.postAnswered name x.response)).acceptUpload x name).emit
            (.confirmed name)) := by
  cases upload_of_uploadFile hu with
  | present hg => exact absurd (hg.symm.trans hx.getStatus) (by decide)
  | failed _ hc => exact absurd (hx.connects.symm.trans (hc hx.getStatus)) (by decide)
  | lost _ _ hs => exact absurd ((asked_send_eq_true_iff hs).2 (hx.lasts _)) (by decide)
  | unanswered _ _ hs ha => exact ⟨_, hs, .inl ⟨rfl, ha, rfl⟩⟩
  | refused _ _ hs ha h200 => exact ⟨_, hs, .inr (.inl ⟨rfl, ha, h200, rfl⟩)⟩
  | accepted _ _ hs ha h200 => exact ⟨_, hs, .inr (.inr ⟨rfl, ha, h200, rfl⟩)⟩

theorem uploadFile_fst_iff (hx : x.Accepts) (name : Name) (d : Device) :
    (d.uploadFile x name).1 = true ↔ x.GoesOn := by
  rcases hu : d.uploadFile x name with ⟨b, e⟩
  obtain ⟨f, -, ⟨rfl, ha, -⟩ | ⟨rfl, ha, h200, -⟩ | ⟨rfl, ha, h200, -⟩⟩ :=
    uploadFile_of_accepts hx hu
  · exact iff_of_true rfl (.inl ha)
  · refine iff_of_false Bool.false_ne_true fun hg => ?_
    exact Bool.false_ne_true (h200.symm.trans (hg.resolve_left ha))
  · exact iff_of_true rfl (.inr h200)

/-- What is recorded in the call confirms its file if the status line is there in time. -/
theorem exists_events_confirm_iff (hx : x.Accepts) (hu : d.uploadFile x name = (b, e)) :
    ∃ es, e.trace = es ++ .uploading name :: d.trace ∧ (ConfirmedIn es name ↔ x.InTime) := by
  obtain ⟨es, he, -, ht, hf⟩ := (upload_of_uploadFile hu).step
  refine ⟨es, he, ?_⟩
  have hgoes : b = true ↔ x.GoesOn := by
    rw [← uploadFile_fst_iff hx name d, hu]
  cases b with
  | false =>
    -- a status line that is there in time would have been accepted
    refine iff_of_false (hf rfl).2 fun hi => ?_
    have h200 := Exchange.statusIs200_of_answers200 (hx.answers200_iff.2 hi.length)
    exact Bool.false_ne_true (hgoes.2 (.inr h200))
  | true =>
    rw [ht rfl]
    constructor
    · intro hs
      obtain ⟨ha, hstale⟩ := hs hx.getStatus hx.connects (hx.lasts _)
      have h200 := (hgoes.1 rfl).resolve_left ha
      exact ⟨ha, Exchange.length_of_answers200 (Exchange.notStale_iff.2 hstale h200)⟩
    · intro hi _ _ _
      exact ⟨hi.arrived, .inl hi.length⟩

/-- The file is confirmed in the call, if its status line is there in time. -/
theorem confirmed_upload_iff (hx : x.Accepts) (hu : d.uploadFile x name = (b, e))
    (hf : file ≠ d.logFile) : e.Confirmed file ↔ d.Confirmed file ∨ name = file ∧ x.InTime := by
  obtain ⟨es, he, hin⟩ := exists_events_confirm_iff hx hu
  obtain ⟨es', he', habout⟩ := (upload_of_uploadFile hu).talks.events
  obtain rfl : es' = es ++ [.uploading name] :=
    List.append_cancel_right (he'.symm.trans (he.trans (by simp)))
  have hmute : ¬ ConfirmedIn [.uploading name] file := by simp [ConfirmedIn, Event.Confirms]
  -- the content of the file starts before the call, as the file is not the log
  rw [Confirmed, he', sinceStarted_append fun ev hev => (habout ev hev).not_starts hf,
    confirmedIn_append, confirmedIn_append, or_iff_left hmute, or_comm]
  refine or_congr_right ⟨fun hc => ?_, ?_⟩
  · obtain ⟨ev, hev, hcf⟩ := hc
    obtain rfl := (habout ev (List.mem_append_left _ hev)).eq_of_confirms hcf
    exact ⟨rfl, hin.1 ⟨ev, hev, hcf⟩⟩
  · rintro ⟨rfl, hi⟩
    exact hin.2 hi

theorem sent_still (hs : (d.asked x name).send x name = (b, e)) : Still d (e.sent x) := by
  have he : Still d e := send_induct (P := Still d) (fun ev f _ hf => hf.trans (emit_still ev f))
    (fun timer noWrite f hf => hf.trans (flags_still timer noWrite f))
    (fun k f hf => hf.trans ((reopenFile_still (x.reopens k) f).trans (flushSdFile_still _)))
    (.refl d) hs
  exact (he.trans (reopenFile_still x.reopensAtEnd e)).trans (flags_still true false _)

theorem mem_acceptUpload (hm : name ∈ d.card) : name ∈ (d.acceptUpload x name).card ↔
    ¬ (d.config.deleteUploadedLogs = true ∧ x.removes = true) := by
  have hcard : (d.acceptUpload x name).card = if d.config.deleteUploadedLogs = true then
      (d.sdRemove x.removes name).card else d.card := by
    unfold acceptUpload
    split <;> rfl
  rw [hcard]
  by_cases hd : d.config.deleteUploadedLogs = true
  · rw [if_pos hd, sdRemove]
    by_cases hr : x.removes = true
    · rw [if_pos ⟨hr, hm⟩]
      exact iff_of_false (fun he => (Finmap.mem_erase.1 he).1 rfl) (not_not.2 ⟨hd, hr⟩)
    · rw [if_neg fun h => hr h.1]
      exact iff_of_true hm fun h => hr h.2
  · rw [if_neg hd]
    exact iff_of_true hm fun h => hd h.1

/-- A file stays, unless the call is about it, accepts it and deletes it. -/
theorem mem_upload_iff (hx : x.Accepts) (hu : d.uploadFile x name = (b, e)) (hm : name ∈ d.card)
    (hf : file ≠ d.logFile) : file ∈ e.card ↔ file ∈ d.card ∧ ¬ (name = file ∧ x.arrived ≠ [] ∧
      x.statusIs200 = true ∧ d.config.deleteUploadedLogs = true ∧ x.removes = true) := by
  by_cases hn : name = file
  · subst hn
    rw [and_iff_right hm, and_iff_right rfl]
    obtain ⟨f, hs, hcases⟩ := uploadFile_of_accepts hx hu
    have hstill := sent_still hs
    have hsent : name ∈ (f.sent x).card := hstill.kept name hm
    obtain ⟨-, ha, rfl⟩ | ⟨-, -, h200, rfl⟩ | ⟨-, ha, h200, rfl⟩ := hcases
    · exact iff_of_true hsent fun h => h.1 ha
    · exact iff_of_true hsent fun h => Bool.false_ne_true (h200.symm.trans h.2.1)
    · rw [and_iff_right ha, and_iff_right h200, ← hstill.config]
      exact mem_acceptUpload (d := (f.sent x).emit (.postAnswered name x.response)) hsent
  · have hup := uploadFile_uploads x name d
    rw [hu] at hup
    refine ⟨fun he => ⟨(hup.added file he).resolve_right hf, fun h => hn h.1⟩, fun hd => ?_⟩
    exact hup.kept file hd.1 (Ne.symm hn)

/-- After a call, a file is pending if it was, and the call does not settle it. -/
theorem pending_upload_iff (hx : x.Accepts) (hu : d.uploadFile x name = (b, e))
    (hm : name ∈ d.card) : e.Pending file ↔
      d.Pending file ∧ ¬ (name = file ∧ x.Settles d.config.deleteUploadedLogs) := by
  have hlog : e.logFile = d.logFile := (upload_of_uploadFile hu).talks.log
  have hpending (f : Device) :
      f.Pending file ↔ file ≠ f.logFile ∧ file ∈ f.card ∧ ¬ f.Confirmed file :=
    ⟨fun h => ⟨h.inactive, h.onCard, h.unconfirmed⟩, fun h => ⟨h.2.1, h.1, h.2.2⟩⟩
  rw [hpending, hpending, hlog, and_assoc]
  refine and_congr_right fun hf => ?_
  rw [mem_upload_iff hx hu hm hf, confirmed_upload_iff hx hu hf, Exchange.Settles]
  tauto

end Device

namespace DataUploader

open Device

variable {net : ℕ → Exchange} {u v : DataUploader} {d d' : Device} {fuel k : ℕ} {file : Name}

/-- The file of a call is settled by it. -/
def Settled (net : ℕ → Exchange) (delete : Bool) (file : Name) (c : ℕ × Name × Device) : Prop :=
  c.2.1 = file ∧ (net c.1).Settles delete

/-- After the upload, a file is pending if it was, and no call settled it. -/
theorem pending_iff (hacc : ∀ n, (net n).Accepts) (fuel : ℕ) (u : DataUploader) (d : Device)
    (file : Name) :
    (uploadRounds net fuel u d).2.2.Pending file ↔ d.Pending file ∧
      ∀ c ∈ uploadCalls net fuel u d, ¬ Settled net d.config.deleteUploadedLogs file c := by
  have hconfig : (uploadRounds net fuel u d).2.2.config = d.config :=
    uploadRounds_induct (P := fun _ e => e.config = d.config)
      (fun name u e he _ => (uploadFile_uploads _ name e).config.trans he) (fun _ _ he => he) rfl
  have hiff : (uploadRounds net fuel u d).2.2.config = d.config ∧
      (uploadRounds net fuel u d).2.2.Pending file ↔
      (∀ c ∈ uploadCalls net fuel u d, ¬ Settled net d.config.deleteUploadedLogs file c) ∧
        d.config = d.config ∧ d.Pending file := by
    refine uploadRounds_iff (Q := fun e => e.config = d.config ∧ e.Pending file)
      (C := fun c => ¬ Settled net d.config.deleteUploadedLogs file c) (I := fun _ _ => True)
      (fun v buf e b f _ hm hu => ?_) (fun _ _ _ _ _ _ _ => trivial) fun _ => trivial
    have hround : (afterRound b v f).config = f.config ∧
        ((afterRound b v f).Pending file ↔ f.Pending file) := by
      cases b with
      | false => exact ⟨rfl, Iff.rfl⟩
      | true =>
        -- the step of the cursor answers nothing
        have hc : (afterRound true v f).Confirmed file ↔ f.Confirmed file :=
          confirmedIn_cons.trans (or_iff_right id)
        exact ⟨rfl, fun h => ⟨h.onCard, h.inactive, fun h' => h.unconfirmed (hc.2 h')⟩,
          fun h => ⟨h.onCard, h.inactive, fun h' => h.unconfirmed (hc.1 h')⟩⟩
    have hf : f.config = e.config := by
      have hup := uploadFile_uploads (net v.nextLogToUpload) (toText buf) e
      rw [hu] at hup
      exact hup.config
    rw [hround.1, hround.2, hf, and_left_comm]
    refine and_congr_right fun he => ?_
    rw [pending_upload_iff (hacc _) hu hm, he, and_comm]
    exact Iff.rfl
  rw [and_iff_right hconfig, and_iff_right rfl] at hiff
  rw [hiff, and_comm]

/-! ## Catching up -/

/-- A round of the walk over the files of a card, before which no file of the walk up to
    it is removed. -/
def Walked (u : DataUploader) (d : Device) (k : ℕ) : Prop :=
  Reached u d.card k ∧ (d.config.deleteUploadedLogs = true → ∀ i j, i < j → j ≤ k →
    roundName u.nextLogToUpload i ≠ roundName u.nextLogToUpload j)

/-- The round is about a file and settles it, and no round before it ends the upload. -/
structure SettledAt (net : ℕ → Exchange) (u : DataUploader) (delete : Bool) (file : Name)
    (k : ℕ) : Prop where
  name : roundName u.nextLogToUpload k = file
  goesOn : ∀ j < k, (net (roundNumber u.nextLogToUpload j)).GoesOn
  settles : (net (roundNumber u.nextLogToUpload k)).Settles delete

/-- The upload comes to the rounds on its walk. -/
theorem settled_of_walked (hacc : ∀ n, (net n).Accepts) (hw : Walked u d k)
    (hs : SettledAt net u d.config.deleteUploadedLogs file k)
    (hret : (uploadRounds net fuel u d).1 = true) :
    ∃ c ∈ uploadCalls net fuel u d, Settled net d.config.deleteUploadedLogs file c := by
  have hkeep : ∀ i j, i < j → j ≤ k → ∀ n e, e.config = d.config →
      roundName u.nextLogToUpload j ∈ e.card →
      roundName u.nextLogToUpload j ∈
        (Device.uploadFile (net n) (roundName u.nextLogToUpload i) e).2.card := by
    intro i j hij hj n e he hm
    -- a call only removes its own file, and that only where uploaded logs are deleted
    cases hdel : d.config.deleteUploadedLogs with
    | false => exact (uploadFile_still (by rw [he, hdel])).kept _ hm
    | true => exact (uploadFile_uploads _ _ e).kept _ hm (hw.2 hdel i j hij hj).symm
  obtain ⟨c, hc, hnumber, hname⟩ := call_of_reached net hw.1
    (fun j hj name e => (uploadFile_fst_iff (hacc _) name e).2 (hs.goesOn j hj)) hkeep (.inr hret)
  exact ⟨c, hc, hname.trans hs.name, hnumber ▸ hs.settles⟩

/-- The upload only comes to rounds on its walk. -/
theorem reached_of_settled (hacc : ∀ n, (net n).Accepts) (hlog : d.logFile ∈ d.card) {delete : Bool}
    (h : ∃ c ∈ uploadCalls net fuel u d, Settled net delete file c) :
    ∃ k, Reached u d.card k ∧ SettledAt net u delete file k := by
  obtain ⟨c, hc, hname, hsettles⟩ := h
  obtain ⟨k, hk, hgoes, hnumber, hround⟩ := reached_of_call (P := fun n => (net n).GoesOn)
    (fun n name e => (uploadFile_fst_iff (hacc n) name e).1) hlog c hc
  exact ⟨k, hk, hround.symm.trans hname, hgoes, hnumber ▸ hsettles⟩

/-- Below five digits, the rounds of a walk have their numbers, and names of their own. -/
theorem roundName_eq (hm : u.maxLogToUpload ≤ 9999) (hb : InBound u k) :
    roundNumber u.nextLogToUpload k = u.nextLogToUpload + k ∧
      u.nextLogToUpload + k ≤ u.maxLogToUpload ∧
      roundBuf u.nextLogToUpload k = sprintfNumToLogfileName (u.nextLogToUpload + k)
        defaultLogFileName := by
  induction k with
  | zero => exact ⟨rfl, hb.1, rfl⟩
  | succ k ih =>
    obtain ⟨hn, hle, hbuf⟩ := ih ⟨hb.1, fun j hj => hb.2 j (Nat.lt_succ_of_lt hj)⟩
    have hlt := hb.2 k k.lt_succ_self
    have hsmall : u.nextLogToUpload + k + 1 < 65536 := by omega
    have hnumber : roundNumber u.nextLogToUpload (k + 1) = u.nextLogToUpload + (k + 1) := by
      rw [roundNumber, hn, u16_of_lt hsmall, Nat.add_assoc]
    refine ⟨hnumber, hnumber ▸ hlt.le, ?_⟩
    rw [roundBuf, hnumber, hbuf]
    exact sprintf_succ (Nat.lt_trans hsmall (by decide))

theorem walked_of_reached (hm : u.maxLogToUpload ≤ 9999) (hr : Reached u d.card k) :
    Walked u d k := by
  refine ⟨hr, fun _ i j hij hj hname => ?_⟩
  have hname' {l : ℕ} (hl : l ≤ k) : roundName u.nextLogToUpload l =
      logName (u.nextLogToUpload + l) ∧ u.nextLogToUpload + l ≤ u.maxLogToUpload := by
    obtain ⟨-, hle, hbuf⟩ :=
      roundName_eq hm ⟨hr.1.1, fun j hj => hr.1.2 j (Nat.lt_of_lt_of_le hj hl)⟩
    exact ⟨by rw [roundName, hbuf, logName], hle⟩
  obtain ⟨hi, hile⟩ := hname' (hij.le.trans hj)
  obtain ⟨hj, hjle⟩ := hname' hj
  have heq := logName_inj_of_four (by omega) (by omega) (hi.symm.trans (hname.trans hj))
  omega

/-- With a server that accepts every file, the uploader catches up if it settles all
    pending logs on its walk. -/
theorem caughtUp_of_walked (hacc : ∀ n, (net n).Accepts)
    (hr : uploadRounds net fuel u d = (true, v, d'))
    (hw : ∀ file, IsLog file → d.Pending file →
      ∃ k, Walked u d k ∧ SettledAt net u d.config.deleteUploadedLogs file k) :
    d'.CaughtUp := by
  refine caughtUp_iff.2 fun file hlog hp => ?_
  have hiff := pending_iff hacc fuel u d file
  rw [hr] at hiff
  obtain ⟨hp, hno⟩ := hiff.1 hp
  obtain ⟨k, hk, hs⟩ := hw file hlog hp
  have hret : (uploadRounds net fuel u d).1 = true := by rw [hr]
  obtain ⟨c, hc, hsettled⟩ := settled_of_walked hacc hk hs hret
  exact hno c hc hsettled

/-- It only catches up if it settles them there. -/
theorem reached_of_caughtUp (hacc : ∀ n, (net n).Accepts) (hlog : d.logFile ∈ d.card)
    (hr : uploadRounds net fuel u d = (true, v, d')) (hc : d'.CaughtUp) (file : Name)
    (hf : IsLog file) (hp : d.Pending file) :
    ∃ k, Reached u d.card k ∧ SettledAt net u d.config.deleteUploadedLogs file k := by
  have hiff := pending_iff hacc fuel u d file
  rw [hr] at hiff
  have hcall : ∃ c ∈ uploadCalls net fuel u d,
      Settled net d.config.deleteUploadedLogs file c := by
    by_contra hno
    exact caughtUp_iff.1 hc file hf (hiff.2 ⟨hp, fun c hc hs => hno ⟨c, hc, hs⟩⟩)
  exact reached_of_settled hacc hlog hcall

end DataUploader

/-- The server accepts every file. -/
def WifiEnv.Accepts (w : WifiEnv) : Prop := w.connected = true ∧ ∀ n, (w.net n).Accepts

/-- In every state the program can be in when it comes to uploading, from any card and
    EEPROM contents: when a log was started and the server accepts every file, then
    after the upload all logs but the one being written are confirmed if the upload
    settles all pending ones on its walk, and only if it does. Where uploaded logs are
    deleted, the first part asks for a walk on which no name is repeated. The names of
    the logs are only repeated from number 10000 on, so that both conditions are the same
    below (third part). -/
theorem catches_up_iff (card : Card) (eeprom : EEPROM) {ops : List Op} {s t : System}
    (h : program.Run Machine.Free (.initial card eeprom) ops s) {w : WifiEnv} (hw : w.Accepts)
    {u : DataUploader} {d : Device} (hb : s.device.beforeUpload w = some (u, d))
    (he : d.logEnabled = true) (ht : program.step s (.wifi w) = some t) :
    ((∀ file, IsLog file → d.Pending file → ∃ k, DataUploader.Walked u d k ∧
        DataUploader.SettledAt w.net u d.config.deleteUploadedLogs file k) →
      t.device.CaughtUp) ∧
    (t.device.CaughtUp → ∀ file, IsLog file → d.Pending file →
      ∃ k, DataUploader.Reached u d.card k ∧
        DataUploader.SettledAt w.net u d.config.deleteUploadedLogs file k) ∧
    (u.maxLogToUpload ≤ 9999 → (t.device.CaughtUp ↔ ∀ file, IsLog file → d.Pending file →
      ∃ k, DataUploader.Reached u d.card k ∧
        DataUploader.SettledAt w.net u d.config.deleteUploadedLogs file k)) := by
  obtain ⟨p, hp, ht⟩ := Option.bind_eq_some_iff.1 ht
  obtain ⟨d', hd, rfl⟩ := Option.map_eq_some_iff.1 ht
  have hs : s.phase = .started := by
    generalize s.phase = q at hp
    cases q <;> cases hp
    rfl
  have hlog : d.logFile ∈ d.card := (onCard_of_started card eeprom h hs).beforeUpload hb he
  rw [Device.exec, Device.wifi, if_pos hw.1, hb] at hd
  obtain ⟨⟨v, e⟩, hr, rfl⟩ := Option.map_eq_some_iff.1 hd
  have hr := DataUploader.uploadRounds_of_uploadData hr
  have hif := DataUploader.caughtUp_of_walked hw.2 hr
  have honly := DataUploader.reached_of_caughtUp hw.2 hlog hr
  refine ⟨hif, honly, fun hm => ⟨honly, fun h => hif fun file hf hp => ?_⟩⟩
  obtain ⟨k, hk, hsettled⟩ := h file hf hp
  exact ⟨k, DataUploader.walked_of_reached hm hk, hsettled⟩

theorem Exchange.accepting_accepts : Exchange.accepting.Accepts where
  getStatus := rfl
  connects := rfl
  connected := fun _ => rfl
  status := ⟨_, by decide, List.prefix_rfl⟩

/-- The Wifi part of `setup` with a server that accepts every file. -/
def WifiEnv.accepting : WifiEnv := { net := fun _ => .accepting, rounds := 3 }

theorem WifiEnv.accepting_accepts : WifiEnv.accepting.Accepts :=
  ⟨rfl, fun _ => Exchange.accepting_accepts⟩

/-- Three boots, with a log each: on the third, logs 1 and 2 are pending, and are uploaded. -/
theorem exists_thirdBoot : ∃ s, program.Run Machine.Free (.initial ∅ ⟨1, 0, 1, 0⟩)
      [.boot {}, .startLog 1 .roomy, .boot {}, .startLog 1 .roomy, .boot {}, .startLog 1 .roomy] s ∧
    s.phase = .started ∧ (logName 1 ∈ s.device.card ∧ logName 2 ∈ s.device.card) ∧
    s.device.logFile = logName 3 ∧ s.device.logEnabled = true ∧ s.device.cursor = 1 ∧
    s.device.eeprom.uploaderMaxLog = 3 ∧ (¬ s.device.Confirmed (logName 1) ∧
      ¬ s.device.Confirmed (logName 2)) ∧
    ((DataUploader.mk 1 3).uploadRounds WifiEnv.accepting.net 3 (s.device.putNextToTry 1)).1 =
      true ∧
    ∀ n ∈ [1, 2], ((DataUploader.mk 1 3).uploadRounds WifiEnv.accepting.net 3
      (s.device.putNextToTry 1)).2.2.Confirmed (logName n) := by
  refine ⟨_, .cons trivial rfl (.cons trivial rfl (.cons trivial rfl (.cons trivial rfl
    (.cons trivial rfl (.cons trivial rfl (.nil _)))))), rfl, ?_⟩
  decide +kernel

/-- Both logs are confirmed on the third boot. -/
theorem catches_up_iff_third_boot :
    ∃ s t d, program.Run Machine.Free (.initial ∅ ⟨1, 0, 1, 0⟩)
        [.boot {}, .startLog 1 .roomy, .boot {}, .startLog 1 .roomy, .boot {},
          .startLog 1 .roomy] s ∧
      WifiEnv.accepting.Accepts ∧ s.device.beforeUpload .accepting = some (⟨1, 3⟩, d) ∧
      d.logEnabled = true ∧ program.step s (.wifi .accepting) = some t ∧
      (d.Pending (logName 1) ∧ d.Pending (logName 2)) ∧
      (∀ n ∈ [1, 2], t.device.Confirmed (logName n)) ∧
      ((∀ file, IsLog file → d.Pending file → ∃ k, DataUploader.Walked ⟨1, 3⟩ d k ∧
          DataUploader.SettledAt WifiEnv.accepting.net ⟨1, 3⟩ d.config.deleteUploadedLogs
            file k) → t.device.CaughtUp) ∧
      (t.device.CaughtUp → ∀ file, IsLog file → d.Pending file →
        ∃ k, DataUploader.Reached ⟨1, 3⟩ d.card k ∧
          DataUploader.SettledAt WifiEnv.accepting.net ⟨1, 3⟩ d.config.deleteUploadedLogs
            file k) ∧
      (3 ≤ 9999 → (t.device.CaughtUp ↔ ∀ file, IsLog file → d.Pending file →
        ∃ k, DataUploader.Reached ⟨1, 3⟩ d.card k ∧
          DataUploader.SettledAt WifiEnv.accepting.net ⟨1, 3⟩ d.config.deleteUploadedLogs
            file k)) := by
  obtain ⟨⟨p, d⟩, hrun, hp, hcard, hlog, he, hcursor, hmax, hno, hret, hconfirmed⟩ :=
    exists_thirdBoot
  dsimp only at hp hcard hlog he hcursor hmax hno hret hconfirmed
  subst hp
  have hb : d.beforeUpload .accepting = some (⟨1, 3⟩, d.putNextToTry 1) := by
    rw [Device.beforeUpload, DataUploader.construct_eq, hcursor, hmax]
    rfl
  have hu := DataUploader.uploadData_of_fst hret
  have hexec : d.exec (.wifi .accepting) = some ((DataUploader.mk 1 3).uploadRounds
      WifiEnv.accepting.net 3 (d.putNextToTry 1)).2.2 := by
    rw [Device.exec, Device.wifi, if_pos WifiEnv.accepting_accepts.1, hb]
    exact Option.map_eq_some_iff.2 ⟨_, hu, rfl⟩
  have hstep := program_step (p := .started) rfl hexec
  have hpending {n : ℕ} (hm : logName n ∈ d.card) (hn : logName n ≠ logName 3)
      (hc : ¬ d.Confirmed (logName n)) : (d.putNextToTry 1).Pending (logName n) :=
    ⟨hm, fun h => hn (h.trans hlog), hc⟩
  exact ⟨_, _, _, hrun, WifiEnv.accepting_accepts, hb, he, hstep,
    ⟨hpending hcard.1 (by decide) hno.1, hpending hcard.2 (by decide) hno.2⟩, hconfirmed,
    catches_up_iff _ _ hrun WifiEnv.accepting_accepts hb he hstep⟩

/-- Logs 1 and 2 were started on two boots. On the third, log 1 is deleted to free
    space, and log 3 is started: the cursor is at log 1, and log 2 is not uploaded. -/
theorem log_two_left :
    ∃ s t d, program.Run Machine.Free (.initial ∅ ⟨1, 0, 1, 0⟩)
        [.boot {}, .startLog 1 .roomy, .boot {}, .startLog 1 .roomy,
          .boot { overwriteLogs := true }, .startLog 2 .tight] s ∧
      WifiEnv.accepting.Accepts ∧ s.device.beforeUpload .accepting = some (⟨1, 3⟩, d) ∧
      d.logEnabled = true ∧ program.step s (.wifi .accepting) = some t ∧
      ¬ t.device.CaughtUp := by
  refine ⟨_, _, _, .cons trivial rfl (.cons trivial rfl (.cons trivial rfl (.cons trivial rfl
    (.cons trivial rfl (.cons trivial rfl (.nil _)))))), WifiEnv.accepting_accepts, rfl, rfl, rfl,
    fun hc => ?_⟩
  exact absurd (hc _ (isLog_logName 2) (by decide +kernel) (by decide)) (by decide)

end CanInsight
