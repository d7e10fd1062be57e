import CanInsight.LogNumbers

/-!
# The walk of the uploader

`upload_data` walks over the log numbers from its cursor on: it uploads the log at
the cursor if that is up to the bound, then each following one that is below the
bound, as long as the files exist. Which logs it may reach depends on the cursor,
the bound and the card alone; how far it comes, on the server.

* `Reached`: the logs on the walk;
* `reached_of_call`: whatever the server does, only they are uploaded;
* `call_of_reached`: they are, as long as each upload succeeds;
* `active_spared_iff`: the log that is being written is never uploaded, whatever
  the server does, if and only if it is not on the walk.
-/

namespace CanInsight

open CString

namespace Device

variable {x : Exchange} {name : Name} {d : Device}

/-- What an upload does to the files: it may remove the file it is about, and create
    that of the log. -/
structure Uploads (name : Name) (d d' : Device) : Prop where
  config : d'.config = d.config
  log : d'.logFileName = d.logFileName
  enabled : d'.logEnabled = d.logEnabled
  kept : ∀ file ∈ d.card, file ≠ name → file ∈ d'.card
  added : ∀ file ∈ d'.card, file ∈ d.card ∨ file = d.logFile

theorem Uploads.still {e f : Device} (h : Uploads name d e) (hs : Still e f) :
    Uploads name d f where
  config := hs.config.trans h.config
  log := hs.name.trans h.log
  enabled := hs.enabled.trans h.enabled
  kept := fun file hm hn => hs.kept file (h.kept file hm hn)
  added := by
    intro file hm
    rcases hs.added file hm with hm | rfl
    · exact h.added file hm
    · exact .inr (congrArg toText h.log)

theorem Uploads.accept {e : Device} (h : Uploads name d e) (x : Exchange) :
    Uploads name d (e.acceptUpload x name) := by
  unfold acceptUpload
  split
  · refine ⟨h.config, h.log, h.enabled, fun file hm hn => ?_, fun file hm => h.added file ?_⟩
    · have hf := h.kept file hm hn
      dsimp only [putFirstLogNum, sdRemove]
      split
      · exact (Finmap.mem_erase).2 ⟨hn, hf⟩
      · exact hf
    · dsimp only [putFirstLogNum, sdRemove] at hm
      split at hm
      · exact (Finmap.mem_erase.1 hm).2
      · exact hm
  · exact h

theorem uploadFile_uploads (x : Exchange) (name : Name) (d : Device) :
    Uploads name d (d.uploadFile x name).2 := by
  refine uploadFile_induct (P := Uploads name d) (fun ev e _ he => he.still (emit_still ev e))
    (fun _ _ e he => ⟨he.config, he.log, he.enabled, he.kept, he.added⟩) (fun k e he => ?_)
    (fun e he => he.still (reopenFile_still _ e)) (fun e he _ => ?_)
    ⟨rfl, rfl, rfl, fun _ hm _ => hm, fun _ => .inl⟩
  · exact he.still ((reopenFile_still _ e).trans (flushSdFile_still _))
  · exact (he.still (emit_still (.postAnswered name x.response) e)).accept x

end Device

namespace DataUploader

variable {net : ℕ → Exchange} {u v w : DataUploader} {d e f : Device} {buf : List Char} {b : Bool}
  {fuel n k : ℕ} {name : Name}

/-- The log number of a round of `upload_data`. -/
def roundNumber (n : ℕ) : ℕ → ℕ
  | 0 => n
  | k + 1 => u16 (roundNumber n k + 1)

/-- The array that names the file of a round. -/
def roundBuf (n : ℕ) : ℕ → List Char
  | 0 => sprintfNumToLogfileName n defaultLogFileName
  | k + 1 => sprintfNumToLogfileName (roundNumber n (k + 1)) (roundBuf n k)

/-- The name of the file of a round. -/
def roundName (n k : ℕ) : Name := toText (roundBuf n k)

theorem roundNumber_succ (n k : ℕ) : roundNumber n (k + 1) = u16 (n + (k + 1)) := by
  induction k with
  | zero => rfl
  | succ k ih =>
    rw [roundNumber, ih]
    unfold u16
    omega

/-- The bound of the uploader lets a round be. -/
def InBound (u : DataUploader) (k : ℕ) : Prop :=
  u.nextLogToUpload ≤ u.maxLogToUpload ∧
    ∀ j < k, roundNumber u.nextLogToUpload (j + 1) < u.maxLogToUpload

/-- The walk over the files of a card reaches a round. -/
def Reached (u : DataUploader) (card : Card) (k : ℕ) : Prop :=
  InBound u k ∧ ∀ j ≤ k, roundName u.nextLogToUpload j ∈ card

/-- The state of the loop in a round. -/
structure AtRound (u : DataUploader) (k : ℕ) (buf : List Char) (v : DataUploader) : Prop where
  next : v.nextLogToUpload = roundNumber u.nextLogToUpload k
  max : v.maxLogToUpload = u.maxLogToUpload
  buf : buf = roundBuf u.nextLogToUpload k
  bound : InBound u k

theorem AtRound.toText (h : AtRound u k buf v) : toText buf = roundName u.nextLogToUpload k := by
  rw [h.buf, roundName]

theorem atRound_zero (h : u.nextLogToUpload ≤ u.maxLogToUpload) :
    AtRound u 0 (sprintfNumToLogfileName u.nextLogToUpload defaultLogFileName) u :=
  ⟨rfl, rfl, rfl, h, fun _ hj => absurd hj (Nat.not_lt_zero _)⟩

/-- The step of the cursor leads to the next round if the bound lets it be. -/
theorem AtRound.increment (h : AtRound u k buf v) (hi : v.incrementNextLogToUpload e = (b, w, f)) :
    (b = true ↔ InBound u (k + 1)) ∧
      (b = true → AtRound u (k + 1) (sprintfNumToLogfileName w.nextLogToUpload buf) w) := by
  rw [incrementNextLogToUpload, h.next, h.max, Prod.mk.injEq, Prod.mk.injEq] at hi
  obtain ⟨rfl, rfl, -⟩ := hi
  have hb : InBound u (k + 1) ↔ roundNumber u.nextLogToUpload (k + 1) < u.maxLogToUpload := by
    refine ⟨fun hb => hb.2 k k.lt_succ_self, fun hlt => ⟨h.bound.1, fun j hj => ?_⟩⟩
    rcases Nat.lt_succ_iff_lt_or_eq.1 hj with hj | rfl
    · exact h.bound.2 j hj
    · exact hlt
  have hc : (!decide (u16 (roundNumber u.nextLogToUpload k + 1) + 1 > u.maxLogToUpload)) = true ↔
      InBound u (k + 1) := by
    rw [hb, Bool.not_eq_true', decide_eq_false_iff_not, Nat.not_lt]
    exact Iff.rfl
  exact ⟨hc, fun hb => ⟨rfl, rfl, by rw [h.buf]; rfl, hc.1 hb⟩⟩

/-- A loop that has not ended has gone on from round to round. -/
theorem inBound_of_uploadLoop (hr : AtRound u k buf v)
    (h : (uploadLoop net fuel buf v d).1 = false) : InBound u (k + fuel) := by
  induction fuel generalizing k buf v d with
  | zero => exact hr.bound
  | succ fuel ih =>
    rw [uploadLoop] at h
    split at h
    · rcases hu : d.uploadFile (net v.nextLogToUpload) (toText buf) with ⟨_ | _, e⟩
      · rw [hu] at h
        cases h
      · rw [hu] at h
        dsimp only at h
        rcases hv : v.incrementNextLogToUpload e with ⟨_ | _, w, f⟩
        · rw [hv] at h
          cases h
        · rw [hv] at h
          have hb := ih ((hr.increment hv).2 rfl) h
          rwa [Nat.add_right_comm] at hb
    · cases h

/-- With a bound of 16 bits, the numbers reach it within 65536 rounds. -/
theorem not_inBound (h : u.maxLogToUpload < 65536) : ¬ InBound u 65536 := by
  rintro ⟨-, hb⟩
  have hlt := hb (65535 - (u.nextLogToUpload + 1) % 65536) (by omega)
  rw [roundNumber_succ] at hlt
  unfold u16 at hlt
  omega

/-- `upload_data` returns. -/
theorem uploadData_returns (net : ℕ → Exchange) (h : u.maxLogToUpload < 65536) (d : Device) :
    ∃ r, uploadData net 65536 u d = some r := by
  have hret : (uploadRounds net 65536 u d).1 = true := by
    rw [uploadRounds]
    split
    · rfl
    · next hn =>
      dsimp only
      split
      · rfl
      · by_contra hf
        rw [Bool.not_eq_true] at hf
        have hb := inBound_of_uploadLoop (atRound_zero (Nat.not_lt.1 hn)) hf
        rw [Nat.zero_add] at hb
        exact not_inBound h hb
  rw [uploadData]
  rcases hr : uploadRounds net 65536 u d with ⟨b, r⟩
  rw [hr] at hret
  cases hret
  exact ⟨r, rfl⟩

/-! ## Only logs on the walk are uploaded -/

theorem increment_still (h : u.incrementNextLogToUpload e = (b, v, f)) : Device.Still e f := by
  rw [incrementNextLogToUpload, Prod.mk.injEq, Prod.mk.injEq] at h
  rw [← h.2.2]
  exact (Device.emit_still _ e).trans (Device.putNextToTry_still _ _)

/-- The rounds of a walk over the files of a card, with whatever server. Each of them
    but the last has come to its end. -/
theorem reached_of_loopCall {card : Card} {P : ℕ → Prop} (hr : AtRound u k buf v)
    (hP : ∀ n name e, (Device.uploadFile (net n) name e).1 = true → P n)
    (hd : ∀ file ∈ d.card, file ∈ card) (hlog : d.logFile ∈ card)
    (hj : ∀ j < k, roundName u.nextLogToUpload j ∈ card ∧ P (roundNumber u.nextLogToUpload j)) :
    ∀ c ∈ loopCalls net fuel buf v d, ∃ l, Reached u card l ∧
      (∀ j < l, P (roundNumber u.nextLogToUpload j)) ∧
      c.1 = roundNumber u.nextLogToUpload l ∧ c.2.1 = roundName u.nextLogToUpload l := by
  induction fuel generalizing k buf v d with
  | zero => exact fun c hc => absurd hc List.not_mem_nil
  | succ fuel ih =>
    rw [loopCalls]
    split
    · next hm =>
      have hm' : roundName u.nextLogToUpload k ∈ card := hr.toText ▸ hd _ hm
      have hk : Reached u card k := by
        refine ⟨hr.bound, fun j hjk => ?_⟩
        rcases Nat.lt_or_eq_of_le hjk with hjk | rfl
        · exact (hj j hjk).1
        · exact hm'
      refine List.forall_mem_cons.2 ⟨⟨k, hk, fun j hjk => (hj j hjk).2, hr.next, hr.toText⟩, ?_⟩
      have hc := Device.uploadFile_uploads (net v.nextLogToUpload) (toText buf) d
      have hp := hP v.nextLogToUpload (toText buf) d
      rcases hu : d.uploadFile (net v.nextLogToUpload) (toText buf) with ⟨_ | _, e⟩
      · exact fun c hc => absurd hc List.not_mem_nil
      · rw [hu] at hc hp
        dsimp only at hc ⊢
        have hj' : ∀ j < k + 1, roundName u.nextLogToUpload j ∈ card ∧
            P (roundNumber u.nextLogToUpload j) := by
          intro j hjk
          rcases Nat.lt_succ_iff_lt_or_eq.1 hjk with hjk | rfl
          · exact hj j hjk
          · exact ⟨hm', hr.next ▸ hp rfl⟩
        rcases hv : v.incrementNextLogToUpload e with ⟨_ | _, w, f⟩
        · exact fun c hc => absurd hc List.not_mem_nil
        · -- the only file that an upload adds is the log, which is on the card before
          have hf := hc.still (increment_still hv)
          have hlog' : f.logFile = d.logFile := congrArg CString.toText hf.log
          refine ih ((hr.increment hv).2 rfl) (fun file hm => ?_) (hlog' ▸ hlog) hj'
          rcases hf.added file hm with hm | rfl
          · exact hd file hm
          · exact hlog
    · exact fun c hc => absurd hc List.not_mem_nil

/-- Whatever the server does, only logs on the walk are uploaded, each after the rounds
    before it came to their ends. -/
theorem reached_of_call {P : ℕ → Prop}
    (hP : ∀ n name e, (Device.uploadFile (net n) name e).1 = true → P n)
    (hlog : d.logFile ∈ d.card) :
    ∀ c ∈ uploadCalls net fuel u d, ∃ k, Reached u d.card k ∧
      (∀ j < k, P (roundNumber u.nextLogToUpload j)) ∧
      c.1 = roundNumber u.nextLogToUpload k ∧ c.2.1 = roundName u.nextLogToUpload k := by
  rw [uploadCalls]
  split
  · exact fun c hc => absurd hc List.not_mem_nil
  · next hn =>
    exact reached_of_loopCall (atRound_zero (Nat.not_lt.1 hn)) hP (fun _ => id) hlog
      fun j hj => absurd hj (Nat.not_lt_zero j)

/-! ## All of them are, if each upload succeeds -/

/-- The rest of a walk on which each upload succeeds, and removes no file that is still
    to come. -/
theorem loopCall_of_reached {config : ConfigManager} (hr : AtRound u k buf v) {l : ℕ} (hkl : k ≤ l)
    (hl : InBound u l)
    (hacc : ∀ j < l, ∀ name e,
      (Device.uploadFile (net (roundNumber u.nextLogToUpload j)) name e).1 = true)
    (hkeep : ∀ i j, i < j → j ≤ l → ∀ n e, e.config = config →
      roundName u.nextLogToUpload j ∈ e.card →
      roundName u.nextLogToUpload j ∈
        (Device.uploadFile (net n) (roundName u.nextLogToUpload i) e).2.card)
    (hd : d.config = config)
    (hm : ∀ j, k ≤ j → j ≤ l → roundName u.nextLogToUpload j ∈ d.card)
    (hf : l - k < fuel ∨ (uploadLoop net fuel buf v d).1 = true) :
    ∃ c ∈ loopCalls net fuel buf v d,
      c.1 = roundNumber u.nextLogToUpload l ∧ c.2.1 = roundName u.nextLogToUpload l := by
  induction fuel generalizing k buf v d with
  | zero => exact hf.elim (fun h => absurd h (Nat.not_lt_zero _)) (fun h => by cases h)
  | succ fuel ih =>
    rw [uploadLoop] at hf
    have hmem : toText buf ∈ d.card := hr.toText ▸ hm k le_rfl hkl
    rw [loopCalls, if_pos hmem]
    rw [if_pos hmem] at hf
    -- the walk has come to the log, or goes on to the next round
    rcases Nat.eq_or_lt_of_le hkl with rfl | hlt
    · exact ⟨_, List.mem_cons_self, hr.next, hr.toText⟩
    -- the round succeeds, and removes none of the files that are still to come
    have ha := hacc k hlt (toText buf) d
    have hk := fun j h₁ h₂ => hkeep k j h₁ h₂ v.nextLogToUpload d hd
    have hc := Device.uploadFile_uploads (net v.nextLogToUpload) (toText buf) d
    rw [← hr.next] at ha
    rw [← hr.toText] at hk
    rcases hu : d.uploadFile (net v.nextLogToUpload) (toText buf) with ⟨b, e⟩
    rw [hu] at hf ha hk hc
    cases ha
    dsimp only at hf hk hc ⊢
    rcases hv : v.incrementNextLogToUpload e with ⟨b, w, f⟩
    have hin : InBound u (k + 1) := ⟨hl.1, fun j hj => hl.2 j (Nat.lt_of_lt_of_le hj hlt)⟩
    obtain ⟨hb, hr'⟩ := hr.increment hv
    cases hb.2 hin
    rw [hv] at hf
    have hm' : ∀ j, k + 1 ≤ j → j ≤ l → roundName u.nextLogToUpload j ∈ f.card := by
      intro j h₁ h₂
      exact (increment_still hv).kept _ (hk j h₁ h₂ (hm j (Nat.le_of_lt h₁) h₂))
    have hf' : l - (k + 1) < fuel ∨
        (uploadLoop net fuel (sprintfNumToLogfileName w.nextLogToUpload buf) w f).1 = true :=
      hf.imp (fun h => by omega) id
    have hconfig := (increment_still hv).config.trans (hc.config.trans hd)
    obtain ⟨c, hc, hname⟩ := ih (hr' rfl) hlt hconfig hm' hf'
    exact ⟨c, List.mem_cons_of_mem _ hc, hname⟩

/-- A log on the walk is uploaded, if all uploads before it succeed and do not remove
    it. -/
theorem call_of_reached (net : ℕ → Exchange) (hr : Reached u d.card k)
    (hacc : ∀ j < k, ∀ name e,
      (Device.uploadFile (net (roundNumber u.nextLogToUpload j)) name e).1 = true)
    (hkeep : ∀ i j, i < j → j ≤ k → ∀ n e, e.config = d.config →
      roundName u.nextLogToUpload j ∈ e.card →
      roundName u.nextLogToUpload j ∈
        (Device.uploadFile (net n) (roundName u.nextLogToUpload i) e).2.card)
    (hf : k < fuel ∨ (uploadRounds net fuel u d).1 = true) :
    ∃ c ∈ uploadCalls net fuel u d,
      c.1 = roundNumber u.nextLogToUpload k ∧ c.2.1 = roundName u.nextLogToUpload k := by
  have hn : ¬ u.nextLogToUpload > u.maxLogToUpload := Nat.not_lt.2 hr.1.1
  have hm : toText (sprintfNumToLogfileName u.nextLogToUpload defaultLogFileName) ∈ d.card :=
    hr.2 0 (Nat.zero_le k)
  rw [uploadRounds, if_neg hn] at hf
  dsimp only at hf
  rw [if_neg (not_not.2 hm)] at hf
  rw [uploadCalls, if_neg hn]
  exact loopCall_of_reached (atRound_zero hr.1.1) (Nat.zero_le k) hr.1 hacc hkeep rfl
    (fun j _ hj => hr.2 j hj) hf

/-- Whatever the server does, the log that is being written is not uploaded, if and
    only if it is not on the walk. -/
theorem spared_iff (hlog : d.logFile ∈ d.card) :
    (∀ net fuel, ∀ c ∈ uploadCalls net fuel u d, c.2.1 ≠ d.logFile) ↔
      ∀ k, Reached u d.card k → roundName u.nextLogToUpload k ≠ d.logFile := by
  refine ⟨fun h k hk hname => ?_, fun h net fuel c hc => ?_⟩
  · -- a server that has every file lets the uploader come to the end of its walk
    have hp (name : Name) (e : Device) : e.uploadFile .hasFile name = (true, _) :=
      Device.uploadFile_of_present rfl
    obtain ⟨c, hc, -, hcn⟩ := call_of_reached (fun _ => .hasFile) hk (fun _ _ name e => by rw [hp])
      (fun _ _ _ _ _ e _ hm => by rw [hp]; exact hm) (.inl k.lt_succ_self)
    exact h _ _ c hc (hcn.trans hname)
  · obtain ⟨k, hk, -, -, hname⟩ :=
      reached_of_call (P := fun _ => True) (fun _ _ _ _ => trivial) hlog c hc
    rw [hname]
    exact h k hk

end DataUploader

namespace Device

variable {d d' e : Device} {fuel : ℕ} {env : Env} {b : Bool}

/-- While logging is enabled, the card has the file of the log. -/
def OnCard (d : Device) : Prop := d.logEnabled = true → d.logFile ∈ d.card

theorem OnCard.still (h : OnCard d) (hs : Still d d') : OnCard d' := by
  intro he
  have hl : d'.logFile = d.logFile := congrArg toText hs.name
  rw [hl]
  exact hs.kept _ (h (hs.enabled.symm.trans he))

theorem onCard_of_startLog (h : d.startLog fuel env = some (b, d')) : OnCard d' := by
  have hoff {b : Bool} {e : Device}
      (hc : checkSdFreeSpace fuel env { d with logEnabled := false } = some (b, e)) :
      e.logEnabled = false := by
    obtain ⟨_, _, _, _, rfl⟩ := checkSdFreeSpace_freed hc
    rfl
  have hnext {b : Bool} {e f : Device} (hn : NextLog fuel env e b f) :
      f.logEnabled = e.logEnabled := by
    cases hn <;> rfl
  have hno {e : Device} (he : e.logEnabled = false) : OnCard e :=
    fun he' => absurd (he.symm.trans he') (by decide)
  cases start_of_startLog h with
  | noSpace hc => exact hno (hoff hc)
  | noName hc hn => exact hno ((hnext hn).trans (hoff hc))
  | notOpened hc hn => exact hno ((hnext hn).trans (hoff hc))
  | opened => exact fun _ => (mem_logOpened _).2 (.inl rfl)

end Device

/-- The log of a device whose program has started a log is on the card. -/
theorem onCard_of_started (card : Card) (eeprom : EEPROM) {ops : List Op} {s : System}
    (h : program.Run Machine.Free (.initial card eeprom) ops s) (hp : s.phase = .started) :
    s.device.OnCard := by
  refine h.invariant (P := fun s => s.phase = .started → s.device.OnCard) ?_
    (fun hp => by cases hp) hp
  rintro ⟨p, d⟩ op t hs - hst hp
  obtain ⟨q, hq, hst⟩ := Option.bind_eq_some_iff.1 hst
  obtain ⟨e, he, rfl⟩ := Option.map_eq_some_iff.1 hst
  cases hp
  cases op with
  | startLog fuel env =>
    obtain ⟨⟨b, f⟩, hf, rfl⟩ := Option.map_eq_some_iff.1 he
    have hc : f.OnCard := Device.onCard_of_startLog hf
    exact hc
  | writeSdLine fuel env opens line =>
    have hd : d.OnCard := by
      cases p <;> cases hq
      exact hs rfl
    rcases (Device.write_of_writeSdLine he).still with hstill | ⟨_, _, _, -, hstart⟩
    · exact hd.still hstill
    · exact Device.onCard_of_startLog hstart
  | flushSdFile =>
    have hd : d.OnCard := by
      cases p <;> cases hq
      exact hs rfl
    cases he
    exact hd.still (Device.flushSdFile_still d)
  | boot | restartLogging | reopenFile | setNoWriteFile | wifi => cases p <;> cases hq

/-- What comes before `upload_data` leaves the log on the card. -/
theorem Device.OnCard.beforeUpload {w : WifiEnv} {u : DataUploader} {d e : Device} (h : d.OnCard)
    (hb : d.beforeUpload w = some (u, e)) : e.OnCard := by
  cases (Device.constructed_of_beforeUpload hb).2 with
  | kept => exact h.still (Device.putNextToTry_still _ d)
  | restarted _ hst => exact Device.onCard_of_startLog hst

/-- In every state the program can be in when it comes to uploading, from any card and
    EEPROM contents, the log that is being written is not uploaded, whatever the
    server does, if and only if it is not on the walk of the uploader. No log is started
    while `upload_data` runs: a rotation in between, by an interrupt, is left out. -/
theorem active_spared_iff (card : Card) (eeprom : EEPROM) {ops : List Op} {s : System}
    (h : program.Run Machine.Free (.initial card eeprom) ops s) (hp : s.phase = .started)
    {w : WifiEnv} {u : DataUploader} {d : Device} (hb : s.device.beforeUpload w = some (u, d))
    (he : d.logEnabled = true) :
    (∀ net fuel, ∀ c ∈ DataUploader.uploadCalls net fuel u d, c.2.1 ≠ d.logFile) ↔
      ∀ k, DataUploader.Reached u d.card k →
        DataUploader.roundName u.nextLogToUpload k ≠ d.logFile :=
  DataUploader.spared_iff ((onCard_of_started card eeprom h hp).beforeUpload hb he)

/-- Two boots, each with a log, and an upload. -/
theorem active_spared_iff_second_boot :
    ∃ s d, program.Run Machine.Free (.initial ∅ ⟨1, 0, 1, 0⟩)
        [.boot {}, .startLog 1 .roomy, .boot {}, .startLog 1 .roomy] s ∧ s.phase = .started ∧
      s.device.beforeUpload .hasAll = some (⟨1, 2⟩, d) ∧ d.logEnabled = true ∧
      ((∀ net fuel, ∀ c ∈ DataUploader.uploadCalls net fuel ⟨1, 2⟩ d, c.2.1 ≠ d.logFile) ↔
        ∀ k, DataUploader.Reached ⟨1, 2⟩ d.card k → DataUploader.roundName 1 k ≠ d.logFile) :=
  have h := .cons trivial rfl (.cons trivial rfl (.cons trivial rfl (.cons trivial rfl (.nil _))))
  ⟨_, _, h, rfl, rfl, rfl, active_spared_iff _ _ h rfl (w := .hasAll) rfl rfl⟩

/-- The first log is uploaded on the second boot and the second log on the third, on
    which no log is started. The third log, started on the fourth boot, is uploaded
    while it is being written. -/
theorem active_log_uploaded :
    ∃ s d, program.Run Machine.Free (.initial ∅ ⟨1, 0, 1, 0⟩)
        [.boot {}, .startLog 1 .roomy, .boot {}, .startLog 1 .roomy, .wifi .hasAll,
          .boot {}, .startLog 1 .full, .wifi .hasAll, .boot {}, .startLog 1 .roomy] s ∧
      s.device.beforeUpload .hasAll = some (⟨3, 3⟩, d) ∧ d.logEnabled = true ∧
      ∃ c ∈ DataUploader.uploadCalls WifiEnv.hasAll.net 1 ⟨3, 3⟩ d, c.2.1 = d.logFile := by
  refine ⟨_, _, .cons trivial rfl (.cons trivial rfl (.cons trivial rfl (.cons trivial rfl
    (.cons trivial rfl (.cons trivial rfl (.cons trivial rfl (.cons trivial rfl
      (.cons trivial rfl (.cons trivial rfl (.nil _)))))))))), rfl, rfl, ?_⟩
  exact ⟨_, List.mem_cons_self, rfl⟩

end CanInsight
