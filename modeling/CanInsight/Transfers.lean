import CanInsight.Driver
import CanInsight.Trace

/-!
# What an upload can do

The functions of the uploader are opened up here, as those of the logger are in
`CanInsight.Outcomes`.

* `Upload`: the ways through `upload_file`; the connection lasts if it is up
  before each block (`sendLoop_fst`);
* `uploadFile_induct`, `uploadLoop_induct`: the rules for what an upload, and
  the loop over uploads, preserve;
* `uploadRounds_extends`: an upload adds events of its own kinds to the trace.
-/

namespace CanInsight

open CString

namespace Event

/-- The events of a transfer. -/
def OfTransfer : Event → Prop
  | uploading _ | getSent _ | postSent _ | bodySent _ => True
  | getAnswered _ _ | postAnswered _ _ | confirmed _ => True
  | _ => False

/-- The events of the sending of a file. -/
def OfSend : Event → Prop
  | postSent _ | bodySent _ | created _ | frames _ => True
  | _ => False

/-- The events between the call of `upload_file` and its return. -/
def OfRequest : Event → Prop
  | getSent _ | getAnswered _ _ | postSent _ | bodySent _ | postAnswered _ _ => True
  | created _ | frames _ | removed _ => True
  | _ => False

/-- The events of `upload_data`. -/
def OfUpload : Event → Prop
  | session _ _ | overrun => False
  | _ => True

end Event

/-- The server has the file. -/
def Exchange.hasFile : Exchange := { getStatus := 200 }

/-- The server does not have the file, and accepts it. -/
def Exchange.accepting : Exchange := { getStatus := 404, arrived := "HTTP/1.1 200".toList }

/-- The server has every file. -/
def WifiEnv.hasAll : WifiEnv := { net := fun _ => .hasFile, rounds := 1 }

namespace Device

variable {x : Exchange} {name : Name} {P : Device → Prop} {d d' : Device} {b : Bool}

/-- The device after the GET about a file. -/
def asked (x : Exchange) (name : Name) (d : Device) : Device :=
  ((d.emit (.uploading name)).emit (.getSent (getUri x.logMeta name))).emit
    (.getAnswered name x.getStatus)

/-- The size of a file on the card. -/
def fileSize (name : Name) (d : Device) : ℕ := ((d.card.lookup name).getD []).length

/-- The device after the header of the POST. -/
def posting (x : Exchange) (name : Name) (d : Device) : Device :=
  { { d with noWriteFile := true }.emit
      (.postSent (postHeader d.config x.logMeta name (d.fileSize name))) with
    canLogTimer := false }

/-- The sending of the file: whether the connection lasted. -/
def send (x : Exchange) (name : Name) (d : Device) : Bool × Device :=
  (d.posting x name).sendLoop x name (d.fileSize name) (d.fileSize name / fileBufLen + 1) 0 0
    (List.replicate fileBufLen nul)

/-- The device after the last block was sent. -/
def sent (x : Exchange) (d : Device) : Device :=
  { d.reopenFile x.reopensAtEnd with canLogTimer := true, noWriteFile := false }

/-- The ways through `upload_file`. -/
inductive Upload (x : Exchange) (name : Name) (d : Device) : Bool → Device → Prop
  /-- The server has the file. -/
  | present : x.getStatus = 200 → Upload x name d true ((d.asked x name).emit (.confirmed name))
  /-- The server cannot tell, or cannot be connected to. -/
  | failed : x.getStatus ≠ 200 → (x.getStatus = 404 → x.connects = false) →
      Upload x name d false (d.asked x name)
  /-- The connection is lost. -/
  | lost {e : Device} : x.getStatus = 404 → x.connects = true →
      (d.asked x name).send x name = (false, e) → Upload x name d false e
  /-- The file was sent, and no answer is there. -/
  | unanswered {e : Device} : x.getStatus = 404 → x.connects = true →
      (d.asked x name).send x name = (true, e) → x.arrived = [] →
      Upload x name d true ((e.sent x).emit (.confirmed name))
  /-- The file was sent, and the status read is not 200. -/
  | refused {e : Device} : x.getStatus = 404 → x.connects = true →
      (d.asked x name).send x name = (true, e) → x.arrived ≠ [] → x.statusIs200 = false →
      Upload x name d false ((e.sent x).emit (.postAnswered name x.response))
  /-- The file was sent, and the status read is 200. -/
  | accepted {e : Device} : x.getStatus = 404 → x.connects = true →
      (d.asked x name).send x name = (true, e) → x.arrived ≠ [] → x.statusIs200 = true →
      Upload x name d true
        ((((e.sent x).emit (.postAnswered name x.response)).acceptUpload x name).emit
          (.confirmed name))

theorem postFile_eq (x : Exchange) (name : Name) (d : Device) :
    d.postFile x name =
      match d.send x name with
      | (false, e) => (false, e)
      | (true, e) => e.finishPost x name := rfl

theorem uploadFile_true (h : (d.emit (.uploading name)).requestUpload x name = (true, d')) :
    d.uploadFile x name = (true, d'.emit (.confirmed name)) := by
  rw [uploadFile, h]

theorem uploadFile_false (h : (d.emit (.uploading name)).requestUpload x name = (false, d')) :
    d.uploadFile x name = (false, d') := by
  rw [uploadFile, h]

theorem requestUpload_of_connects (h₁ : x.getStatus = 404) (h₂ : x.connects = true) :
    (d.emit (.uploading name)).requestUpload x name = (d.asked x name).postFile x name := by
  rw [requestUpload, if_pos h₁, if_pos h₂]
  rfl

theorem finishPost_unanswered (h : x.arrived = []) : d.finishPost x name = (true, d.sent x) := by
  rw [finishPost, if_neg (not_not.2 h)]
  rfl

theorem finishPost_refused (h : x.arrived ≠ []) (hs : x.statusIs200 = false) :
    d.finishPost x name = (false, (d.sent x).emit (.postAnswered name x.response)) := by
  rw [finishPost, if_pos h, hs]
  rfl

theorem finishPost_accepted (h : x.arrived ≠ []) (hs : x.statusIs200 = true) :
    d.finishPost x name =
      (true, ((d.sent x).emit (.postAnswered name x.response)).acceptUpload x name) := by
  rw [finishPost, if_pos h, hs]
  rfl

theorem uploadFile_of_present (h : x.getStatus = 200) :
    d.uploadFile x name = (true, (d.asked x name).emit (.confirmed name)) := by
  refine uploadFile_true ?_
  rw [requestUpload, if_neg (by rw [h]; decide), if_pos h]
  rfl

theorem upload_uploadFile (x : Exchange) (name : Name) (d : Device) :
    Upload x name d (d.uploadFile x name).1 (d.uploadFile x name).2 := by
  by_cases h₁ : x.getStatus = 404
  · cases h₂ : x.connects with
    | false =>
      have hp : (d.emit (.uploading name)).requestUpload x name = (false, d.asked x name) := by
        rw [requestUpload, if_pos h₁, if_neg (by simp [h₂])]
        rfl
      rw [uploadFile_false hp]
      exact .failed (by rw [h₁]; decide) fun _ => h₂
    | true =>
      have hp : (d.emit (.uploading name)).requestUpload x name =
          (d.asked x name).postFile x name :=
        requestUpload_of_connects h₁ h₂
      rw [postFile_eq] at hp
      rcases hs : (d.asked x name).send x name with ⟨_ | _, e⟩
      · rw [hs] at hp
        rw [uploadFile_false hp]
        exact .lost h₁ h₂ hs
      · rw [hs] at hp
        dsimp only at hp
        by_cases h₃ : x.arrived = []
        · rw [finishPost_unanswered h₃] at hp
          rw [uploadFile_true hp]
          exact .unanswered h₁ h₂ hs h₃
        · cases h₄ : x.statusIs200 with
          | false =>
            rw [finishPost_refused h₃ h₄] at hp
            rw [uploadFile_false hp]
            exact .refused h₁ h₂ hs h₃ h₄
          | true =>
            rw [finishPost_accepted h₃ h₄] at hp
            rw [uploadFile_true hp]
            exact .accepted h₁ h₂ hs h₃ h₄
  · by_cases h₂ : x.getStatus = 200
    · rw [uploadFile_of_present h₂]
      exact .present h₂
    · have hp : (d.emit (.uploading name)).requestUpload x name = (false, d.asked x name) := by
        rw [requestUpload, if_neg h₁, if_neg h₂]
        rfl
      rw [uploadFile_false hp]
      exact .failed h₂ fun h => absurd h h₁

theorem upload_of_uploadFile (h : d.uploadFile x name = (b, d')) : Upload x name d b d' := by
  have hu := upload_uploadFile x name d
  rwa [h] at hu

/-! ## What an upload preserves -/

/-- The connection lasts over all blocks of a file of some size. -/
def Lasts (x : Exchange) (size : ℕ) : Prop := ∀ k, k * fileBufLen < size → x.connected k = true

theorem sendLoop_fst {size fuel i k pos : ℕ} {buf : Bytes} (hi : i = k * fileBufLen)
    (hf : size ≤ (k + fuel) * fileBufLen) :
    (sendLoop x name size fuel i pos buf d).1 = true ↔
      ∀ l, k ≤ l → l * fileBufLen < size → x.connected l = true := by
  have h₀ : 0 < fileBufLen := by decide
  subst hi
  -- `k` blocks have been sent, and the fuel is enough for the others
  induction fuel generalizing k pos buf d with
  | zero =>
    refine iff_of_true rfl fun l hl hs => absurd hs (Nat.not_lt.2 (hf.trans ?_))
    exact Nat.mul_le_mul_right _ hl
  | succ fuel ih =>
    rw [sendLoop]
    by_cases hk : k * fileBufLen < size
    · rw [if_pos hk, Nat.mul_div_cancel k h₀]
      cases hc : x.connected k with
      | false =>
        refine iff_of_false (by simp [hc]) fun h => ?_
        rw [h k le_rfl hk] at hc
        cases hc
      | true =>
        rw [if_neg (by simp [hc]), ← Nat.succ_mul]
        refine (ih (by rwa [Nat.succ_add_eq_add_succ])).trans
          ⟨fun h l hl => ?_, fun h l hl => h l (Nat.le_of_succ_le hl)⟩
        rcases Nat.eq_or_lt_of_le hl with rfl | hl
        · exact fun _ => hc
        · exact h l hl
    · rw [if_neg hk]
      refine iff_of_true rfl fun l hl hs => absurd hs (Nat.not_lt.2 ?_)
      exact (Nat.not_lt.1 hk).trans (Nat.mul_le_mul_right _ hl)

/-- The blocks that are sent at most are enough for a file. -/
theorem le_blocks (size : ℕ) : size ≤ (0 + (size / fileBufLen + 1)) * fileBufLen := by
  have hd := Nat.div_add_mod size fileBufLen
  have hm := Nat.mod_lt size (show 0 < fileBufLen by decide)
  rw [Nat.zero_add, Nat.succ_mul, Nat.mul_comm]
  omega

theorem send_fst : (d.send x name).1 = true ↔ Lasts x (d.fileSize name) :=
  (sendLoop_fst (Nat.zero_mul _).symm (le_blocks _)).trans
    ⟨fun h k => h k (Nat.zero_le k), fun h k _ => h k⟩

theorem send_eq_true_iff {e : Device} (h : d.send x name = (b, e)) :
    b = true ↔ Lasts x (d.fileSize name) := by
  rw [← send_fst, h]

/-- The file that is asked about is as long as it was. -/
theorem asked_send_eq_true_iff {e : Device} (h : (d.asked x name).send x name = (b, e)) :
    b = true ↔ Lasts x (d.fileSize name) := by
  have hl := send_eq_true_iff h
  exact hl

/-- The device after a block was read, when the log may be due to be flushed. -/
def flushedAfter (x : Exchange) (k : ℕ) (d : Device) : Device :=
  if x.flushDue k then (d.reopenFile (x.reopens k)).flushSdFile else d

theorem flushedAfter_extends (x : Exchange) (k : ℕ) (d : Device) :
    Extends Event.OfWrite d (d.flushedAfter x k) := by
  unfold flushedAfter
  split
  · exact (reopenFile_extends _ d).trans (flushSdFile_extends _)
  · exact .refl d

/-- A block is sent while the connection is up. -/
theorem sendLoop_block {size i : ℕ} (name : Name) (fuel pos : ℕ) (buf : Bytes) (d : Device)
    (hi : i < size) (hc : x.connected (i / fileBufLen) = true) :
    ∃ pos' buf', sendLoop x name size (fuel + 1) i pos buf d =
      sendLoop x name size fuel (i + fileBufLen) pos' buf'
        ((d.flushedAfter x (i / fileBufLen)).emit (.bodySent buf')) := by
  rw [sendLoop, if_pos hi]
  dsimp only
  rw [hc, if_neg (by decide)]
  exact ⟨_, _, rfl⟩

theorem sendLoop_induct {size fuel i pos : ℕ} {buf : Bytes}
    (hbody : ∀ bytes d, P d → P (d.emit (.bodySent bytes)))
    (hflush : ∀ k d, P d → P (d.reopenFile (x.reopens k)).flushSdFile)
    (htimer : ∀ d, P d → P { d with canLogTimer := true }) (h : P d) :
    P (sendLoop x name size fuel i pos buf d).2 := by
  induction fuel generalizing i pos buf d with
  | zero => exact h
  | succ fuel ih =>
    rw [sendLoop]
    split
    · dsimp only
      split
      · exact htimer d h
      · refine ih (hbody _ _ ?_)
        split
        · exact hflush _ _ h
        · exact h
    · exact h

/-- What the recording of an event and the flags preserve holds before the file is sent. -/
theorem posting_induct (hemit : ∀ e d, e.OfTransfer → P d → P (d.emit e))
    (hflags : ∀ timer noWrite d, P d → P { d with canLogTimer := timer, noWriteFile := noWrite })
    (h : P d) : P ((d.asked x name).posting x name) := by
  have hasked : P (d.asked x name) :=
    hemit _ _ trivial (hemit _ _ trivial (hemit _ _ trivial h))
  exact hflags false _ _ (hemit _ _ trivial (hflags _ true _ hasked))

/-- What the steps of an upload preserve holds after the file is sent. -/
theorem send_induct (hemit : ∀ e d, e.OfTransfer → P d → P (d.emit e))
    (hflags : ∀ timer noWrite d, P d → P { d with canLogTimer := timer, noWriteFile := noWrite })
    (hflush : ∀ k d, P d → P (d.reopenFile (x.reopens k)).flushSdFile)
    (h : P d) {e : Device} (hs : (d.asked x name).send x name = (b, e)) : P e := by
  have hp : P ((d.asked x name).posting x name) := posting_induct hemit hflags h
  have hs' : ((d.asked x name).send x name).2 = e := by rw [hs]
  rw [← hs']
  exact sendLoop_induct (fun _ d => hemit _ d trivial) hflush (fun d => hflags true _ d) hp

/-- What the steps of an upload preserve, the upload preserves. -/
theorem uploadFile_induct (hemit : ∀ e d, e.OfTransfer → P d → P (d.emit e))
    (hflags : ∀ timer noWrite d, P d → P { d with canLogTimer := timer, noWriteFile := noWrite })
    (hflush : ∀ k d, P d → P (d.reopenFile (x.reopens k)).flushSdFile)
    (hreopen : ∀ d, P d → P (d.reopenFile x.reopensAtEnd))
    (haccept : ∀ d, P d → x.statusIs200 = true →
      P ((d.emit (.postAnswered name x.response)).acceptUpload x name))
    (h : P d) : P (d.uploadFile x name).2 := by
  have hasked : P (d.asked x name) :=
    hemit _ _ trivial (hemit _ _ trivial (hemit _ _ trivial h))
  have hsend {b : Bool} {e : Device} (hs : (d.asked x name).send x name = (b, e)) : P e :=
    send_induct hemit hflags hflush h hs
  have hsent {e : Device} (he : P e) : P (e.sent x) := hflags true false _ (hreopen e he)
  rcases hu : d.uploadFile x name with ⟨b, e⟩
  cases upload_of_uploadFile hu with
  | present => exact hemit _ _ trivial hasked
  | failed => exact hasked
  | lost _ _ hs => exact hsend hs
  | unanswered _ _ hs => exact hemit _ _ trivial (hsent (hsend hs))
  | refused _ _ hs => exact hemit _ _ trivial (hsent (hsend hs))
  | accepted _ _ hs _ h₂ => exact hemit _ _ trivial (haccept _ (hsent (hsend hs)) h₂)

theorem ofTransfer_ofUpload (e : Event) (h : e.OfTransfer) : e.OfUpload := by
  cases e <;> trivial

theorem ofWrite_ofUpload (e : Event) (h : e.OfWrite) : e.OfUpload := by
  cases e <;> trivial

theorem isRemoved_ofUpload (e : Event) (h : e.IsRemoved) : e.OfUpload := by
  cases e <;> trivial

theorem ofWrite_ofSend (e : Event) (h : e.OfWrite) : e.OfSend := by
  cases e <;> trivial

/-- The events, and what stays as it is, while a file is sent. -/
theorem send_extends (h : d.send x name = (b, d')) :
    Extends Event.OfSend d d' ∧ d'.config = d.config ∧ ∀ file ∈ d.card, file ∈ d'.card := by
  have hp : Extends Event.OfSend d (d.posting x name) := .of_cons (e := .postSent _) trivial rfl
  have he : (d.send x name).2 = d' := by rw [h]
  rw [← he]
  refine sendLoop_induct (P := fun f => Extends Event.OfSend d f ∧ f.config = d.config ∧
    ∀ file ∈ d.card, file ∈ f.card) (fun bytes f hf => ?_) (fun k f hf => ?_) (fun f hf => ?_)
    ⟨hp, rfl, fun _ => id⟩
  · exact ⟨hf.1.trans (.of_cons (e := .bodySent bytes) trivial rfl), hf.2⟩
  · have hx := ((reopenFile_extends (x.reopens k) f).trans (flushSdFile_extends _)).mono
      ofWrite_ofSend
    obtain ⟨_, _, _, _, hfl⟩ := flushSdFile_filed (f.reopenFile (x.reopens k))
    refine ⟨hf.1.trans hx, by rw [hfl]; exact hf.2.1, fun file hm => ?_⟩
    exact mem_flushSdFile.2 (mem_reopenFile (hf.2.2 file hm))
  · exact ⟨hf.1.trans (.of_eq rfl), hf.2⟩

theorem sent_extends (x : Exchange) (d : Device) :
    Extends Event.OfSend d (d.sent x) ∧ (d.sent x).config = d.config ∧
      ∀ file ∈ d.card, file ∈ (d.sent x).card :=
  ⟨((reopenFile_extends _ d).mono ofWrite_ofSend).trans (.of_eq rfl), rfl,
    fun _ => mem_reopenFile⟩

theorem acceptUpload_extends (x : Exchange) (name : Name) (d : Device) :
    Extends Event.IsRemoved d (d.acceptUpload x name) := by
  unfold acceptUpload
  split
  · exact (sdRemove_extends _ _ d).trans (.of_eq rfl)
  · exact .refl d

/-- The events after the sending of a file: the log is written, the answer is read, and the
    file is removed. -/
theorem uploadFile_extends_of_send {e : Device} (h₁ : x.getStatus = 404) (h₂ : x.connects = true)
    (hs : (d.asked x name).send x name = (b, e)) (hwrite : ∀ ev, ev.OfWrite → Q ev)
    (hremoved : ∀ ev, ev.IsRemoved → Q ev) (hanswered : Q (.postAnswered name x.response))
    (hconfirmed : Q (.confirmed name)) : Extends Q e (d.uploadFile x name).2 := by
  have hsent : Extends Q e (e.sent x) :=
    ((reopenFile_extends _ e).mono hwrite).trans (.of_eq rfl)
  have hanswer (f : Device) : Extends Q f (f.emit (.postAnswered name x.response)) :=
    .of_cons hanswered rfl
  have hreturn (f : Device) : Extends Q f (f.emit (.confirmed name)) := .of_cons hconfirmed rfl
  rcases hu : d.uploadFile x name with ⟨b', f⟩
  cases upload_of_uploadFile hu with
  | present h => exact absurd (h₁.symm.trans h) (by decide)
  | failed _ h => exact absurd (h₂.symm.trans (h h₁)) (by decide)
  | lost _ _ h =>
    cases hs.symm.trans h
    exact .refl _
  | unanswered _ _ h =>
    cases hs.symm.trans h
    exact hsent.trans (hreturn _)
  | refused _ _ h =>
    cases hs.symm.trans h
    exact hsent.trans (hanswer _)
  | accepted _ _ h =>
    cases hs.symm.trans h
    exact ((hsent.trans (hanswer _)).trans ((acceptUpload_extends x name _).mono hremoved)).trans
      (hreturn _)

theorem ofSend_ofRequest (e : Event) (h : e.OfSend) : e.OfRequest := by
  cases e <;> trivial

theorem isRemoved_ofRequest (e : Event) (h : e.IsRemoved) : e.OfRequest := by
  cases e <;> trivial

/-- The trace of an upload: its call, the events of the requests, and its return. -/
theorem Upload.trace_eq {e : Device} (h : Upload x name d b e) :
    ∃ es, (∀ ev ∈ es, ev.OfRequest) ∧
      e.trace = (if b then [.confirmed name] else []) ++ (es ++ .uploading name :: d.trace) := by
  have hasked : Extends Event.OfRequest (d.emit (.uploading name)) (d.asked x name) :=
    ⟨[_, _], rfl, by simp [Event.OfRequest]⟩
  have hsend {b : Bool} {e : Device} (hs : (d.asked x name).send x name = (b, e)) :
      Extends Event.OfRequest (d.emit (.uploading name)) e :=
    hasked.trans ((send_extends hs).1.mono ofSend_ofRequest)
  have hsent (e : Device) : Extends Event.OfRequest e (e.sent x) :=
    (sent_extends x e).1.mono ofSend_ofRequest
  have hanswer (e : Device) : Extends Event.OfRequest e (e.emit (.postAnswered name x.response)) :=
    .of_cons (e := .postAnswered name x.response) trivial rfl
  have hfails {e : Device} (he : Extends Event.OfRequest (d.emit (.uploading name)) e) :
      ∃ es, (∀ ev ∈ es, ev.OfRequest) ∧ e.trace = [] ++ (es ++ .uploading name :: d.trace) := by
    obtain ⟨es, ht, hes⟩ := he
    exact ⟨es, hes, ht⟩
  have hreturns {e : Device} (he : Extends Event.OfRequest (d.emit (.uploading name)) e) :
      ∃ es, (∀ ev ∈ es, ev.OfRequest) ∧
        (e.emit (.confirmed name)).trace =
          [.confirmed name] ++ (es ++ .uploading name :: d.trace) := by
    obtain ⟨es, ht, hes⟩ := he
    exact ⟨es, hes, congrArg (_ :: ·) ht⟩
  cases h with
  | present => exact hreturns hasked
  | failed => exact hfails hasked
  | lost _ _ hs => exact hfails (hsend hs)
  | unanswered _ _ hs => exact hreturns ((hsend hs).trans (hsent _))
  | refused _ _ hs => exact hfails (((hsend hs).trans (hsent _)).trans (hanswer _))
  | accepted _ _ hs =>
    exact hreturns ((((hsend hs).trans (hsent _)).trans (hanswer _)).trans
      ((acceptUpload_extends x name _).mono isRemoved_ofRequest))

/-- An upload leaves the cursor and its bound in the EEPROM as they are. -/
theorem uploadFile_cursor (x : Exchange) (name : Name) (d : Device) :
    (d.uploadFile x name).2.eeprom.uploaderNextToTry = d.eeprom.uploaderNextToTry ∧
      (d.uploadFile x name).2.eeprom.uploaderMaxLog = d.eeprom.uploaderMaxLog := by
  have hfiled {e e' : Device} (hf : Filed e e') : e'.eeprom = e.eeprom := by
    obtain ⟨_, _, _, _, rfl⟩ := hf
    rfl
  refine uploadFile_induct
    (P := fun e => e.eeprom.uploaderNextToTry = d.eeprom.uploaderNextToTry ∧
      e.eeprom.uploaderMaxLog = d.eeprom.uploaderMaxLog)
    (fun _ _ _ h => h) (fun _ _ _ h => h) (fun k e h => ?_) (fun e h => ?_) (fun e h _ => ?_)
    ⟨rfl, rfl⟩
  · rwa [hfiled ((reopenFile_filed _ e).trans (flushSdFile_filed _))]
  · rwa [hfiled (reopenFile_filed _ e)]
  · unfold acceptUpload
    split
    · exact h
    · exact h

theorem uploadFile_extends (x : Exchange) (name : Name) (d : Device) :
    Extends Event.OfUpload d (d.uploadFile x name).2 := by
  have hemit (e : Event) (he : e.OfTransfer) (f : Device) : Extends Event.OfUpload f (f.emit e) :=
    .of_cons (ofTransfer_ofUpload e he) rfl
  refine uploadFile_induct (P := Extends Event.OfUpload d)
    (fun e f he hf => hf.trans (hemit e he f)) (fun _ _ f hf => hf.trans (.of_eq rfl))
    (fun k f hf => ?_) (fun f hf => ?_) (fun f hf _ => ?_)
    (.refl d)
  · exact hf.trans (((reopenFile_extends _ f).trans (flushSdFile_extends _)).mono ofWrite_ofUpload)
  · exact hf.trans ((reopenFile_extends _ f).mono ofWrite_ofUpload)
  · exact hf.trans ((hemit (.postAnswered name x.response) trivial f).trans
      ((acceptUpload_extends x name _).mono isRemoved_ofUpload))

/-- The log number the uploader starts at when it is constructed. -/
def cursor (d : Device) : ℕ :=
  if d.eeprom.uploaderNextToTry > d.eeprom.uploaderMaxLog ∨
      logName d.eeprom.uploaderNextToTry ∉ d.card then 1
  else d.eeprom.uploaderNextToTry

end Device

namespace DataUploader

/-- The uploader constructed: its cursor, also in the EEPROM, and its bound. -/
theorem construct_eq (d : Device) :
    construct d = (⟨d.cursor, d.eeprom.uploaderMaxLog⟩, d.putNextToTry d.cursor) := by
  by_cases h₁ : d.eeprom.uploaderNextToTry > d.eeprom.uploaderMaxLog
  · have hc : d.cursor = 1 := if_pos (.inl h₁)
    rw [hc, construct, if_pos h₁]
    dsimp only [getLogsUploaded, resetNextLogToUpload]
    split <;> rfl
  · rw [construct, if_neg h₁, getLogsUploaded]
    by_cases h₂ : logName d.eeprom.uploaderNextToTry ∉ d.card
    · have hc : d.cursor = 1 := if_pos (.inr h₂)
      rw [hc, if_pos h₂]
      rfl
    · have hc : d.cursor = d.eeprom.uploaderNextToTry := if_neg (not_or.2 ⟨h₁, h₂⟩)
      rw [hc, if_neg h₂]
      rfl

variable {net : ℕ → Exchange} {P : DataUploader → Device → Prop} {u : DataUploader} {d : Device}
  {fuel : ℕ} {buf : List Char}

/-- The rule of the loop: what holds when it is entered with a name, a cursor and a
    device is handed on from round to round, and leads to what holds at its end. -/
theorem uploadLoop_rule {P : List Char → DataUploader → Device → Prop}
    {Q : DataUploader → Device → Prop} (hstop : ∀ buf u d, P buf u d → Q u d)
    (hfail : ∀ buf u d e, P buf u d → toText buf ∈ d.card →
      d.uploadFile (net u.nextLogToUpload) (toText buf) = (false, e) → Q u e)
    (hlast : ∀ buf u d e v f, P buf u d → toText buf ∈ d.card →
      d.uploadFile (net u.nextLogToUpload) (toText buf) = (true, e) →
      u.incrementNextLogToUpload e = (false, v, f) → Q v f)
    (hnext : ∀ buf u d e v f, P buf u d → toText buf ∈ d.card →
      d.uploadFile (net u.nextLogToUpload) (toText buf) = (true, e) →
      u.incrementNextLogToUpload e = (true, v, f) →
      P (sprintfNumToLogfileName v.nextLogToUpload buf) v f)
    (h : P buf u d) :
    Q (uploadLoop net fuel buf u d).2.1 (uploadLoop net fuel buf u d).2.2 := by
  induction fuel generalizing buf u d with
  | zero => exact hstop buf u d h
  | succ fuel ih =>
    rw [uploadLoop]
    split
    · next hm =>
      rcases hu : d.uploadFile (net u.nextLogToUpload) (toText buf) with ⟨_ | _, e⟩
      · exact hfail buf u d e h hm hu
      · dsimp only
        rcases hv : u.incrementNextLogToUpload e with ⟨_ | _, v, f⟩
        · exact hlast buf u d e v f h hm hu hv
        · exact ih (hnext buf u d e v f h hm hu hv)
    · exact hstop buf u d h

/-- What an upload and the step of the cursor preserve, the loop preserves. -/
theorem uploadLoop_induct
    (hupload : ∀ name u d, P u d → name ∈ d.card →
      P u (d.uploadFile (net u.nextLogToUpload) name).2)
    (hnext : ∀ u d, P u d →
      P (u.incrementNextLogToUpload d).2.1 (u.incrementNextLogToUpload d).2.2)
    (h : P u d) :
    P (uploadLoop net fuel buf u d).2.1 (uploadLoop net fuel buf u d).2.2 := by
  have hround {buf : List Char} {u : DataUploader} {d e : Device} {b : Bool} (hp : P u d)
      (hm : toText buf ∈ d.card)
      (hu : d.uploadFile (net u.nextLogToUpload) (toText buf) = (b, e)) : P u e := by
    have he := hupload (toText buf) u d hp hm
    rwa [hu] at he
  have hmove {u v : DataUploader} {e f : Device} {b : Bool} (he : P u e)
      (hv : u.incrementNextLogToUpload e = (b, v, f)) : P v f := by
    have hf := hnext u e he
    rwa [hv] at hf
  refine uploadLoop_rule (P := fun _ => P) (fun _ _ _ hp => hp) (fun _ _ _ _ hp hm hu => ?_)
    (fun _ _ _ _ _ _ hp hm hu hv => ?_) (fun _ _ _ _ _ _ hp hm hu hv => ?_) h
  · exact hround hp hm hu
  · exact hmove (hround hp hm hu) hv
  · exact hmove (hround hp hm hu) hv

theorem uploadRounds_induct
    (hupload : ∀ name u d, P u d → name ∈ d.card →
      P u (d.uploadFile (net u.nextLogToUpload) name).2)
    (hnext : ∀ u d, P u d →
      P (u.incrementNextLogToUpload d).2.1 (u.incrementNextLogToUpload d).2.2)
    (h : P u d) :
    P (uploadRounds net fuel u d).2.1 (uploadRounds net fuel u d).2.2 := by
  rw [uploadRounds]
  split
  · exact h
  · dsimp only
    split
    · exact h
    · exact uploadLoop_induct hupload hnext h

/-- The calls of `upload_file` in the loop: the number of the log, the name of its
    file, and the device. -/
def loopCalls (net : ℕ → Exchange) :
    ℕ → List Char → DataUploader → Device → List (ℕ × Name × Device)
  | 0, _, _, _ => []
  | fuel + 1, buf, u, d =>
    if toText buf ∈ d.card then
      (u.nextLogToUpload, toText buf, d) ::
        match d.uploadFile (net u.nextLogToUpload) (toText buf) with
        | (false, _) => []
        | (true, d) =>
          match u.incrementNextLogToUpload d with
          | (false, _, _) => []
          | (true, u, d) =>
            loopCalls net fuel (sprintfNumToLogfileName u.nextLogToUpload buf) u d
    else []

/-- The calls of `upload_file` in `upload_data`. -/
def uploadCalls (net : ℕ → Exchange) (fuel : ℕ) (u : DataUploader) (d : Device) :
    List (ℕ × Name × Device) :=
  if u.nextLogToUpload > u.maxLogToUpload then []
  else loopCalls net fuel (sprintfNumToLogfileName u.nextLogToUpload defaultLogFileName) u d

/-- The device after a round: where the upload succeeded, the cursor has moved on. -/
def afterRound (b : Bool) (u : DataUploader) (d : Device) : Device :=
  if b then (u.incrementNextLogToUpload d).2.2 else d

theorem increment_max {v : DataUploader} {d' : Device}
    (h : u.incrementNextLogToUpload d = (true, v, d')) : v.maxLogToUpload = u.maxLogToUpload := by
  rw [incrementNextLogToUpload, Prod.mk.injEq, Prod.mk.injEq] at h
  rw [← h.2.1]

/-- The array names the log to upload, as long as the numbers do not overflow. -/
def Names (u : DataUploader) (buf : List Char) : Prop :=
  u.maxLogToUpload < 65535 → u.nextLogToUpload ≤ u.maxLogToUpload ∧
    buf = sprintfNumToLogfileName u.nextLogToUpload defaultLogFileName

theorem Names.toText (h : Names u buf) (hm : u.maxLogToUpload < 65535) :
    toText buf = logName u.nextLogToUpload := by
  rw [(h hm).2]
  rfl

/-- The step of the cursor to a log that is to be uploaded names it. -/
theorem Names.next (h : Names u buf) {d' : Device} {v : DataUploader}
    (hv : u.incrementNextLogToUpload d = (true, v, d')) :
    Names v (sprintfNumToLogfileName v.nextLogToUpload buf) := by
  intro hm
  rw [incrementNextLogToUpload, Prod.mk.injEq, Prod.mk.injEq] at hv
  obtain ⟨hle, rfl, -⟩ := hv
  obtain ⟨hn, rfl⟩ := h hm
  have hu : u16 (u.nextLogToUpload + 1) = u.nextLogToUpload + 1 :=
    u16_of_lt (Nat.lt_of_le_of_lt (Nat.succ_le_succ hn) (Nat.succ_lt_succ hm))
  dsimp only at hm hle ⊢
  rw [hu] at hle ⊢
  simp only [Bool.not_eq_true', decide_eq_false_iff_not, gt_iff_lt, not_lt] at hle
  exact ⟨Nat.le_of_succ_le hle, sprintf_succ (by omega)⟩

/-- What each round adds a condition on its call to, the loop adds the conditions
    on all its calls to. -/
theorem uploadLoop_iff {Q : Device → Prop} {C : ℕ × Name × Device → Prop}
    {I : DataUploader → List Char → Prop}
    (hround : ∀ u buf d b e, I u buf → toText buf ∈ d.card →
      d.uploadFile (net u.nextLogToUpload) (toText buf) = (b, e) →
      (Q (afterRound b u e) ↔ C (u.nextLogToUpload, toText buf, d) ∧ Q d))
    (hnext : ∀ u buf e v f, I u buf → u.incrementNextLogToUpload e = (true, v, f) →
      I v (sprintfNumToLogfileName v.nextLogToUpload buf))
    (hI : I u buf) :
    Q (uploadLoop net fuel buf u d).2.2 ↔ (∀ c ∈ loopCalls net fuel buf u d, C c) ∧ Q d := by
  induction fuel generalizing buf u d with
  | zero => exact (and_iff_right fun _ h => absurd h List.not_mem_nil).symm
  | succ fuel ih =>
    rw [uploadLoop, loopCalls]
    by_cases hm : toText buf ∈ d.card
    · rw [if_pos hm, if_pos hm]
      rcases hu : d.uploadFile (net u.nextLogToUpload) (toText buf) with ⟨b, e⟩
      have hr := hround u buf d b e hI hm hu
      cases b with
      | false =>
        rw [List.forall_mem_singleton]
        exact hr
      | true =>
        dsimp only
        rcases hv : u.incrementNextLogToUpload e with ⟨b, v, f⟩
        have hf : afterRound true u e = f := by rw [afterRound, if_pos rfl, hv]
        rw [hf] at hr
        cases b with
        | false =>
          rw [List.forall_mem_singleton]
          exact hr
        | true =>
          rw [List.forall_mem_cons, and_right_comm, ← hr, and_comm]
          exact ih (hnext u buf e v f hI hv)
    · rw [if_neg hm, if_neg hm]
      exact (and_iff_right fun _ h => absurd h List.not_mem_nil).symm

theorem uploadRounds_iff {Q : Device → Prop} {C : ℕ × Name × Device → Prop}
    {I : DataUploader → List Char → Prop}
    (hround : ∀ u buf d b e, I u buf → toText buf ∈ d.card →
      d.uploadFile (net u.nextLogToUpload) (toText buf) = (b, e) →
      (Q (afterRound b u e) ↔ C (u.nextLogToUpload, toText buf, d) ∧ Q d))
    (hnext : ∀ u buf e v f, I u buf → u.incrementNextLogToUpload e = (true, v, f) →
      I v (sprintfNumToLogfileName v.nextLogToUpload buf))
    (hI : u.nextLogToUpload ≤ u.maxLogToUpload →
      I u (sprintfNumToLogfileName u.nextLogToUpload defaultLogFileName)) :
    Q (uploadRounds net fuel u d).2.2 ↔ (∀ c ∈ uploadCalls net fuel u d, C c) ∧ Q d := by
  rw [uploadRounds, uploadCalls]
  by_cases hn : u.nextLogToUpload > u.maxLogToUpload
  · rw [if_pos hn, if_pos hn]
    exact (and_iff_right fun _ h => absurd h List.not_mem_nil).symm
  · rw [if_neg hn, if_neg hn]
    dsimp only
    split
    · next hm =>
      refine (and_iff_right fun c hc => ?_).symm
      cases fuel with
      | zero => exact absurd hc List.not_mem_nil
      | succ fuel =>
        rw [loopCalls, if_neg hm] at hc
        exact absurd hc List.not_mem_nil
    · exact uploadLoop_iff hround hnext (hI (Nat.not_lt.1 hn))

/-- If each round has a property exactly when its call meets a condition, then so have all
    states between the rounds and all calls. The names are those of arrays that numbers were
    printed into. -/
theorem uploadLoop_forall_iff {Q I : Device → Prop} {N : List Char → Prop}
    {C : ℕ × Name × Device → Prop}
    (hround : ∀ u buf d b e, N buf → I d → Q d → toText buf ∈ d.card →
      d.uploadFile (net u.nextLogToUpload) (toText buf) = (b, e) →
      (Q (afterRound b u e) ↔ C (u.nextLogToUpload, toText buf, d)))
    (hI : ∀ u name d b e, I d → d.uploadFile (net u.nextLogToUpload) name = (b, e) →
      I (afterRound b u e))
    (hN : ∀ n buf, N buf → N (sprintfNumToLogfileName n buf)) (hbuf : N buf)
    (hd : I d) (hQ : Q d) :
    (∀ k ≤ fuel, Q (uploadLoop net k buf u d).2.2) ↔ ∀ c ∈ loopCalls net fuel buf u d, C c := by
  induction fuel generalizing buf u d with
  | zero =>
    refine iff_of_true (fun k hk => ?_) fun c hc => absurd hc List.not_mem_nil
    obtain rfl := Nat.le_zero.1 hk
    exact hQ
  | succ fuel ih =>
    have hsplit : (∀ k ≤ fuel + 1, Q (uploadLoop net k buf u d).2.2) ↔
        ∀ k ≤ fuel, Q (uploadLoop net (k + 1) buf u d).2.2 := by
      refine ⟨fun h k hk => h (k + 1) (Nat.succ_le_succ hk), fun h k hk => ?_⟩
      cases k with
      | zero => exact hQ
      | succ k => exact h k (Nat.le_of_succ_le_succ hk)
    have hconst {p : Prop} : (∀ k ≤ fuel, p) ↔ p :=
      ⟨fun h => h 0 (Nat.zero_le fuel), fun h _ _ => h⟩
    rw [hsplit, loopCalls]
    simp only [uploadLoop]
    by_cases hm : toText buf ∈ d.card
    · simp only [if_pos hm]
      rcases hu : d.uploadFile (net u.nextLogToUpload) (toText buf) with ⟨b, e⟩
      have hr := hround u buf d b e hbuf hd hQ hm hu
      have hi := hI u (toText buf) d b e hd hu
      cases b with
      | false =>
        rw [List.forall_mem_singleton]
        exact hconst.trans hr
      | true =>
        dsimp only
        rcases hv : u.incrementNextLogToUpload e with ⟨b, v, f⟩
        have hf : afterRound true u e = f := by rw [afterRound, if_pos rfl, hv]
        rw [hf] at hr hi
        cases b with
        | false =>
          rw [List.forall_mem_singleton]
          exact hconst.trans hr
        | true =>
          rw [List.forall_mem_cons]
          dsimp only
          constructor
          · intro h
            have hQf : Q f := h 0 (Nat.zero_le fuel)
            exact ⟨hr.1 hQf, (ih (hN _ buf hbuf) hi hQf).1 h⟩
          · rintro ⟨hc, h⟩
            exact (ih (hN _ buf hbuf) hi (hr.2 hc)).2 h
    · simp only [if_neg hm]
      exact iff_of_true (fun _ _ => hQ) fun c hc => absurd hc List.not_mem_nil

theorem uploadRounds_forall_iff {Q I : Device → Prop} {N : List Char → Prop}
    {C : ℕ × Name × Device → Prop}
    (hround : ∀ u buf d b e, N buf → I d → Q d → toText buf ∈ d.card →
      d.uploadFile (net u.nextLogToUpload) (toText buf) = (b, e) →
      (Q (afterRound b u e) ↔ C (u.nextLogToUpload, toText buf, d)))
    (hI : ∀ u name d b e, I d → d.uploadFile (net u.nextLogToUpload) name = (b, e) →
      I (afterRound b u e))
    (hN : ∀ n buf, N buf → N (sprintfNumToLogfileName n buf)) (hbuf : N defaultLogFileName)
    (hd : I d) (hQ : Q d) :
    (∀ k ≤ fuel, Q (uploadRounds net k u d).2.2) ↔ ∀ c ∈ uploadCalls net fuel u d, C c := by
  simp only [uploadRounds, uploadCalls]
  by_cases hn : u.nextLogToUpload > u.maxLogToUpload
  · simp only [if_pos hn]
    exact iff_of_true (fun _ _ => hQ) fun c hc => absurd hc List.not_mem_nil
  · simp only [if_neg hn]
    rw [← uploadLoop_forall_iff hround hI hN (hN _ _ hbuf) hd hQ]
    refine forall_congr' fun k => imp_congr_right fun _ => ?_
    split
    · next hm =>
      -- the loop ends there as well
      cases k with
      | zero => exact Iff.rfl
      | succ k => rw [uploadLoop, if_neg hm]
    · exact Iff.rfl

theorem uploadRounds_of_uploadData {r : DataUploader × Device}
    (h : uploadData net fuel u d = some r) : uploadRounds net fuel u d = (true, r) := by
  rw [uploadData] at h
  split at h
  · next hr =>
    cases h
    exact hr
  · cases h

theorem uploadData_of_fst (h : (uploadRounds net fuel u d).1 = true) :
    uploadData net fuel u d = some (uploadRounds net fuel u d).2 := by
  rcases hr : uploadRounds net fuel u d with ⟨b, r⟩
  rw [hr] at h
  dsimp only at h
  rw [uploadData, hr, h]

theorem uploadRounds_extends (net : ℕ → Exchange) (fuel : ℕ) (u : DataUploader) (d : Device) :
    Device.Extends Event.OfUpload d (uploadRounds net fuel u d).2.2 := by
  refine uploadRounds_induct (P := fun _ e => Device.Extends Event.OfUpload d e)
    (fun name u e he _ => ?_) (fun u e he => ?_) (.refl d)
  · exact he.trans (Device.uploadFile_extends _ name e)
  · exact he.trans (.of_cons (e := .advanced u.nextLogToUpload) trivial rfl)

end DataUploader

namespace Device

variable {d d' : Device} {env : Env} {line : Bytes} {op : Op}

theorem Extends.any {P : Event → Prop} (h : Extends P d d') : Extends (fun _ => True) d d' :=
  h.mono fun _ _ => trivial

theorem Write.extends (h : Write env line d d') : Extends (fun _ => True) d d' := by
  cases h with
  | disabled => exact .refl d
  | buffered => exact (bufferLine_extends line d).any
  | printed => exact (opened_printLine_extends line d).any
  | rotated _ _ _ hs => exact (opened_printLine_extends line d).any.trans (startLog_extends hs).any

/-! ## The Wifi part of `setup` -/

variable {w : WifiEnv} {u : DataUploader} {e : Device}

/-- The ways from the construction of the uploader to `upload_data`. -/
inductive Constructed (w : WifiEnv) (d : Device) : Device → Prop
  | kept : w.restart = none → Constructed w d (d.putNextToTry d.cursor)
  /-- Logging is restarted, as the clock was set. -/
  | restarted {fuel : ℕ} {env : Env} {b : Bool} {e : Device} : w.restart = some (fuel, env) →
      (d.putNextToTry d.cursor).startLog fuel env = some (b, e) → Constructed w d e

/-- The uploader keeps the cursor that it was constructed with. -/
theorem constructed_of_beforeUpload (h : d.beforeUpload w = some (u, e)) :
    u = ⟨d.cursor, d.eeprom.uploaderMaxLog⟩ ∧ Constructed w d e := by
  rw [beforeUpload, DataUploader.construct_eq] at h
  cases hr : w.restart with
  | none =>
    rw [hr] at h
    cases h
    exact ⟨rfl, .kept hr⟩
  | some r =>
    obtain ⟨fuel, env⟩ := r
    rw [hr] at h
    obtain ⟨f, hf, he⟩ := Option.map_eq_some_iff.1 h
    cases he
    obtain ⟨⟨b, f⟩, hs, rfl⟩ := Option.map_eq_some_iff.1 hf
    exact ⟨rfl, .restarted hr hs⟩

/-- The ways through the Wifi part of `setup`. -/
inductive Wifi (w : WifiEnv) (d : Device) : Device → Prop
  | unconnected : w.connected = false → Wifi w d (d.putNextToTry d.cursor)
  | uploaded {u v : DataUploader} {e f : Device} : w.connected = true →
      d.beforeUpload w = some (u, e) → u.uploadRounds w.net w.rounds e = (true, v, f) → Wifi w d f

theorem wifi_of_wifi (h : d.wifi w = some d') : Wifi w d d' := by
  rw [wifi] at h
  split at h
  · next hc =>
    obtain ⟨⟨u, e⟩, hb, h⟩ := Option.bind_eq_some_iff.1 h
    obtain ⟨⟨v, f⟩, hu, rfl⟩ := Option.map_eq_some_iff.1 h
    exact .uploaded hc hb (DataUploader.uploadRounds_of_uploadData hu)
  · next hc =>
    cases h
    rw [DataUploader.construct_eq]
    exact .unconnected (Bool.eq_false_of_not_eq_true hc)

end Device

end CanInsight
