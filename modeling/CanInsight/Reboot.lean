import CanInsight.Search

/-!
# Log numbers across a reboot

A reboot loses the memory, and the constructor reads the log numbers back from
the EEPROM. The next log number of the EEPROM can be past `MAX_LOG_NUMBER`: then
`set_next_log_filename` wraps it, but the constructor goes back to log 1. The
EEPROM does not tell either whether old files are being overwritten.

* `Transparent`: a start comes to the same `Outcome` with and without a reboot
  before it;
* `RebootKept`: the condition on the state under which the constructor restores
  what the start reads;
* `Persisted`: the invariant, what the EEPROM holds of the numbers in memory;
* `reboot_transparent`: in every state that is reached and meets the condition, a
  reboot is transparent.
-/

namespace CanInsight

open CString

/-- What a start of a log comes to: the name of the log, the log numbers, in memory
    and in the EEPROM, and the trace, which tells what was removed and created. -/
@[ext] structure Outcome where
  name : Name
  next : ℕ
  first : ℕ
  nextCell : ℕ
  firstCell : ℕ
  trace : List Event

namespace Device

variable {d d' e e' p q : Device} {fuel : ℕ} {env : Env} {b : Bool} {o : Outcome} {op : Op}

@[simps] def outcome (d : Device) : Outcome where
  name := d.logFile
  next := d.nextLogFileNumber
  first := d.firstLogFileNumber
  nextCell := d.eeprom.loggerNextLogNum
  firstCell := d.eeprom.loggerFirstLogNum
  trace := d.trace

/-- `start_log` returns with the result and the outcome. -/
def ComesTo (env : Env) (d : Device) (b : Bool) (o : Outcome) : Prop :=
  ∃ fuel d', d.startLog fuel env = some (b, d') ∧ d'.outcome = o

/-- A start comes to the same with and without a reboot before it. -/
def Transparent (env : Env) (d : Device) : Prop :=
  ∀ b o, ComesTo env d b o ↔ ComesTo env (d.boot d.config) b o

/-- When nothing is lost by going back to log 1: the first log has no number yet;
    or neither it nor `CAN_000.log` exists, so that the start does the same; or
    `CAN_000.log` and log 1, the first one, exist, and the search after log 1 finds
    a number. -/
def ResetHarmless (d : Device) : Prop :=
  d.firstLogFileNumber = 0 ∨
    d.firstLogFileNumber ≤ maxLogNumber ∧ logName d.firstLogFileNumber ∉ d.card ∧
      logName 0 ∉ d.card ∨
    d.firstLogFileNumber = 1 ∧ logName 0 ∈ d.card ∧ logName 1 ∈ d.card ∧ ¬ AllUsed d.card

instance (d : Device) : Decidable d.ResetHarmless :=
  inferInstanceAs (Decidable (_ ∨ _ ∨ _))

/-- When a reboot loses nothing that the next start reads. -/
def RebootKept (env : Env) (d : Device) : Prop :=
  Canonical d.logFileName ∧
    if d.eeprom.loggerNextLogNum > maxLogNumber ∨ d.eeprom.loggerFirstLogNum > maxLogNumber then
      ¬ d.Shortcut ∧ d.ResetHarmless
    else
      d.Shortcut → env.noValue = true ∧ 1 ≤ d.firstLogFileNumber ∧
        d.firstLogFileNumber < maxLogNumber ∧ AllUsed d.card

/-! ## From a name to the outcome -/

/-- What the naming of a log reads and writes, but for the remembered overwriting. -/
@[simps] def numbering (d : Device) : Device where
  card := d.card
  eeprom := ⟨d.eeprom.loggerNextLogNum, d.eeprom.loggerFirstLogNum, 0, 0⟩
  config := d.config
  nextLogFileNumber := d.nextLogFileNumber
  firstLogFileNumber := d.firstLogFileNumber
  logFileName := d.logFileName
  trace := d.trace

/-- The naming of a log cannot tell the two devices apart. -/
def Alike (d d' : Device) : Prop := d'.numbering = d.numbering

theorem Alike.symm (h : Alike d d') : Alike d' d := Eq.symm h

theorem Alike.map {g : Device → Device} (hg : ∀ d, (g d).numbering = (g d.numbering).numbering)
    (h : Alike d d') : Alike (g d) (g d') := by
  rw [Alike, hg d', h, ← hg d]

theorem Alike.congr {α : Type} {f : Device → α} (hf : ∀ d, f d = f d.numbering) (h : Alike d d') :
    f d' = f d := by
  rw [hf d', h, ← hf d]

/-- What is left to do once `set_next_log_filename` has returned. -/
def settle (env : Env) (b : Bool) (d : Device) : Bool × Outcome :=
  if b then ((d.openLog env).1, (d.openLog env).2.outcome) else (false, d.outcome)

theorem settle_opens (ho : env.opens = true) (d : Device) :
    d.settle env true = (true, (d.logOpened env.clock).outcome) := by
  rw [settle, openLog_opens ho]
  rfl

theorem Alike.settle (h : Alike d d') (env : Env) (b : Bool) :
    d'.settle env b = d.settle env b := by
  refine h.congr fun d => ?_
  unfold Device.settle
  cases ho : env.opens with
  | false =>
    rw [openLog_fails ho, openLog_fails ho]
    rfl
  | true =>
    rw [openLog_opens ho, openLog_opens ho]
    rfl

/-- With enough space, a start comes to what the name that is set leads to. -/
theorem comesTo_iff (hs : minFreeSpace d.config ≤ freeKB env d.card) :
    ComesTo env d b o ↔ ∃ fuel b' e, fuel ≠ 0 ∧
      NextLog fuel env { d with logEnabled := false } b' e ∧ e.settle env b' = (b, o) := by
  have hfree {fuel : ℕ} (hf : fuel ≠ 0) :
      checkSdFreeSpace fuel env { d with logEnabled := false } =
        some (true, { d with logEnabled := false }) := checkSdFreeSpace_of_le hf hs
  constructor
  · rintro ⟨fuel, d', h, rfl⟩
    have hf : fuel ≠ 0 := by
      rintro rfl
      cases h
    rw [startLog, hfree hf] at h
    dsimp only at h
    split at h
    · cases h
    · next hn =>
      cases h
      exact ⟨fuel, _, _, hf, setNextLogFilename_iff.1 hn, rfl⟩
    · next e hn =>
      have h := Option.some_inj.1 h
      exact ⟨fuel, _, _, hf, setNextLogFilename_iff.1 hn, by rw [settle, h]; rfl⟩
  · rintro ⟨fuel, b', e, hf, hn, he⟩
    cases b' with
    | false =>
      cases he
      refine ⟨fuel, e, ?_, rfl⟩
      rw [startLog, hfree hf]
      dsimp only
      rw [setNextLogFilename_iff.2 hn]
    | true =>
      cases he
      refine ⟨fuel, (e.openLog env).2, ?_, rfl⟩
      rw [startLog, hfree hf]
      dsimp only
      rw [setNextLogFilename_iff.2 hn]

/-- Whatever name is set in `p`, one that leads to the same is set in `q`. -/
def Matches (env : Env) (p q : Device) : Prop :=
  ∀ fuel b e, fuel ≠ 0 → NextLog fuel env p b e →
    ∃ fuel' e', fuel' ≠ 0 ∧ NextLog fuel' env q b e' ∧ e'.settle env b = e.settle env b

theorem Matches.comesTo
    (h : Matches env { d with logEnabled := false } { d' with logEnabled := false })
    (hs : minFreeSpace d.config ≤ freeKB env d.card)
    (hs' : minFreeSpace d'.config ≤ freeKB env d'.card) (hc : ComesTo env d b o) :
    ComesTo env d' b o := by
  obtain ⟨fuel, b', e, hf, hn, he⟩ := (comesTo_iff hs).1 hc
  obtain ⟨fuel', e', hf', hn', ha⟩ := h fuel b' e hf hn
  exact (comesTo_iff hs').2 ⟨fuel', b', e', hf', hn', ha.trans he⟩

/-- Two names that lead to the same, set in `p` and in `q`, are the only ones. -/
theorem NextLog.matches {fuel' : ℕ} (h : NextLog fuel env p b e) (h' : NextLog fuel' env q b e')
    (hf : fuel ≠ 0) (hf' : fuel' ≠ 0) (hse : e'.settle env b = e.settle env b) :
    Matches env p q ∧ Matches env q p := by
  constructor
  · intro _ _ _ _ hn
    obtain ⟨rfl, rfl⟩ := h.unique hn
    exact ⟨fuel', e', hf', h', hse⟩
  · intro _ _ _ _ hn
    obtain ⟨rfl, rfl⟩ := h'.unique hn
    exact ⟨fuel, e, hf, h, hse.symm⟩

/-! ## The same names from the same numbers -/

/-- Two devices that are to name the next log, do not take the shortcut, and name the
    same first log and the same next one. The number that the EEPROM has for it may
    differ as long as there is no first log. -/
structure Twins (p q : Device) : Prop where
  left : ¬ p.Shortcut
  right : ¬ q.Shortcut
  wrapped : Alike p.wrapped.putNextLogNum q.wrapped.putNextLogNum
  cell : Alike p.wrapped q.wrapped ∨ p.firstLogFileNumber = 0

theorem Twins.symm (h : Twins p q) : Twins q p where
  left := h.right
  right := h.left
  wrapped := h.wrapped.symm
  cell := by
    have hf : q.firstLogFileNumber = p.firstLogFileNumber :=
      (h.wrapped.congr (f := fun d => d.firstLogFileNumber) fun _ => rfl :)
    exact h.cell.imp Alike.symm hf.trans

/-- Without a first log, the search goes on until it finds a number. -/
theorem searchLoop_first_ne_zero {card : Card} {first n : ℕ} {buf buf' : List Char} (hn : n < 65535)
    (h : searchLoop card first fuel n buf = some (none, buf')) : first ≠ 0 := by
  induction fuel generalizing n buf with
  | zero => cases h
  | succ fuel ih =>
    rw [searchLoop, nextNumber_eq hn] at h
    dsimp only at h
    split at h
    · cases h
    · split at h
      · exact ih (Nat.lt_of_le_of_lt (Wheel.next_le (by decide)) (by decide)) h
      · next hf => exact (not_not.1 hf) ▸ Nat.ne_of_gt Wheel.one_le_next

theorem search_first_ne_zero {buf : List Char} (h : p.search fuel = some (none, buf)) :
    p.firstLogFileNumber ≠ 0 := by
  refine searchLoop_first_ne_zero ?_ h
  have hle : p.nameNext.nextLogFileNumber ≤ maxLogNumber := p.wrapped_next_le
  rw [u16_of_lt (Nat.lt_of_le_of_lt (Nat.succ_le_succ hle) (by decide))]
  exact Nat.lt_of_le_of_lt (Nat.succ_le_succ hle) (by decide)

theorem Twins.nextLog (h : Twins p q) (hn : NextLog fuel env p b e) :
    ∃ e', NextLog fuel env q b e' ∧ Alike e e' := by
  -- all that is looked at is found in the state with the next number wrapped
  have hcard : q.card = p.card := (h.wrapped.congr (f := fun d => d.card) fun _ => rfl :)
  have hconfig : q.config = p.config := (h.wrapped.congr (f := fun d => d.config) fun _ => rfl :)
  have hfirst : q.nameFirst.logFile = p.nameFirst.logFile :=
    (h.wrapped.congr (f := fun d => d.logFile) fun _ => rfl :)
  have hnext : q.nameNext.logFile = p.nameNext.logFile :=
    (h.wrapped.congr (f := fun d => (d.setLogFileName d.nextLogFileNumber).logFile) fun _ => rfl :)
  have hnumber : q.nameNext.nextLogFileNumber = p.nameNext.nextLogFileNumber :=
    (h.wrapped.congr (f := fun d => d.nextLogFileNumber) fun _ => rfl :)
  have hsearch : q.search fuel = p.search fuel :=
    (h.wrapped.congr (f := fun d => searchLoop d.card d.firstLogFileNumber fuel
      (u16 (d.nextLogFileNumber + 1)) (sprintfNumToLogfileName d.nextLogFileNumber d.logFileName))
      fun _ => rfl :)
  cases hn with
  | shortcut hs => exact absurd hs h.left
  | reset _ hf =>
    refine ⟨_, .reset h.right (by rwa [hfirst, hcard]), ?_⟩
    exact (h.wrapped.map (g := fun d => d.resetLogFileNumbers.setLogFileName 1) fun _ => rfl :)
  | next _ hf hn =>
    refine ⟨_, .next h.right (by rwa [hfirst, hcard]) (by rwa [hnext, hcard]), ?_⟩
    rw [hnumber]
    exact (h.wrapped.map (g := fun d => (d.setLogFileName d.nextLogFileNumber).useNumber
      p.nameNext.nextLogFileNumber) fun _ => rfl :)
  | @found n buf _ hf hn hm =>
    refine ⟨_, .found h.right (by rwa [hfirst, hcard]) (by rwa [hnext, hcard])
      (hsearch.trans hm), ?_⟩
    exact h.wrapped.map (g := fun d => { d with logFileName := buf }.useNumber n) fun _ => rfl
  | @overwrite buf _ hf hn hm ho =>
    refine ⟨_, .overwrite h.right (by rwa [hfirst, hcard]) (by rwa [hnext, hcard])
      (hsearch.trans hm) (by rwa [hconfig]), ?_⟩
    exact h.wrapped.map (g := fun d => { d with logFileName := buf }.overwriteFirst env)
      fun _ => rfl
  | @full buf _ hf hn hm ho =>
    refine ⟨_, .full h.right (by rwa [hfirst, hcard]) (by rwa [hnext, hcard])
      (hsearch.trans hm) (by rwa [hconfig]), ?_⟩
    have hcell := h.cell.resolve_right (search_first_ne_zero hm)
    exact (hcell.map (g := fun d => { d with logFileName := buf }) fun _ => rfl :)

theorem Twins.matches (h : Twins p q) : Matches env p q := by
  intro fuel b e hf hn
  obtain ⟨e', hn', ha⟩ := h.nextLog hn
  exact ⟨fuel, e', hf, hn', ha.settle env b⟩

/-! ## What the EEPROM holds -/

/-- What the EEPROM holds of the numbers in memory: the first log number, and the next
    one unless it was wrapped for want of a free name. -/
structure Persisted (d : Device) : Prop where
  first : d.eeprom.loggerFirstLogNum = d.firstLogFileNumber
  next : d.eeprom.loggerNextLogNum = d.nextLogFileNumber ∨
    d.nextLogFileNumber = 1 ∧ d.eeprom.loggerNextLogNum > maxLogNumber
  overwrite : d.overwritingOldFiles = true → d.config.overwriteLogs = true

theorem boot_persisted (config : ConfigManager) (d : Device) : Persisted (d.boot config) := by
  rw [boot_eq]
  split
  · exact ⟨rfl, .inl rfl, fun h => by cases h⟩
  · exact ⟨rfl, .inl rfl, fun h => by cases h⟩

theorem Persisted.still (h : Persisted d) (hs : Still d d') : Persisted d' where
  first := by rw [hs.firstCell, hs.first, h.first]
  next := by
    rw [hs.nextCell, hs.next]
    exact h.next
  overwrite := by
    rw [hs.overwriting, hs.config]
    exact h.overwrite

theorem Persisted.acceptUpload (h : Persisted d) (x : Exchange) (name : Name) :
    Persisted (d.acceptUpload x name) := by
  unfold Device.acceptUpload
  split
  · exact ⟨rfl, h.next, h.overwrite⟩
  · exact h

theorem Persisted.freed (h : Persisted d) (hc : d.checkSdFreeSpace fuel env = some (b, d')) :
    Persisted d' := by
  refine (freeSpaceLoop_induct (P := fun _ e => Persisted e) (fun _ e he _ _ => ?_) h hc).elim
    fun _ h => h
  exact ⟨rfl, he.next, he.overwrite⟩

theorem Persisted.nextLog (h : Persisted d) (hn : NextLog fuel env d b d') : Persisted d' := by
  cases hn with
  | shortcut hs => exact ⟨rfl, .inl rfl, h.overwrite⟩
  | reset => exact ⟨rfl, .inl rfl, h.overwrite⟩
  | next => exact ⟨by simpa using h.first, .inl (by simp), by simpa using h.overwrite⟩
  | found => exact ⟨by simpa using h.first, .inl (by simp), by simpa using h.overwrite⟩
  | overwrite _ _ _ _ ho => exact ⟨rfl, .inl rfl, fun _ => ho⟩
  | full =>
    refine ⟨by simpa using h.first, ?_, by simpa using h.overwrite⟩
    -- here the number is wrapped, and not written back
    rw [searched_nextLogFileNumber, searched_eeprom]
    rcases h.next with hc | ⟨hone, hc⟩
    · split
      · next hgt => exact .inr ⟨rfl, hc.trans_gt hgt⟩
      · exact .inl hc
    · rw [hone]
      exact .inr ⟨rfl, hc⟩

theorem Persisted.logOpened (h : Persisted d) (clock : Clock) : Persisted (d.logOpened clock) where
  first := by
    rw [logOpened_eeprom_loggerFirstLogNum, logOpened_firstLogFileNumber, h.first]
  next := h.next
  overwrite := h.overwrite

theorem Persisted.startLog (h : Persisted d) (hs : d.startLog fuel env = some (b, d')) :
    Persisted d' := by
  have hoff : Persisted { d with logEnabled := false } := ⟨h.first, h.next, h.overwrite⟩
  cases start_of_startLog hs with
  | noSpace hc => exact hoff.freed hc
  | noName hc hn => exact (hoff.freed hc).nextLog hn
  | notOpened hc hn =>
    have hp := (hoff.freed hc).nextLog hn
    exact ⟨hp.first, hp.next, hp.overwrite⟩
  | opened hc hn => exact ((hoff.freed hc).nextLog hn).logOpened env.clock

theorem Persisted.exec (h : Persisted d) (he : d.exec op = some d') : Persisted d' :=
  exec_rule (fun hd hq => hd.still hq.toStill) (fun x name _ hd => hd.acceptUpload x name)
    (fun {config} _ _ => boot_persisted config d) (fun hd _ hs => hd.startLog hs) h he

/-- Once the device has booted, the EEPROM holds the numbers. -/
theorem persisted_of_run (card : Card) (eeprom : EEPROM) {config : ConfigManager} {ops : List Op}
    (h : anyOrder.Run Machine.Free (initial card eeprom) (.boot config :: ops) d) :
    Persisted d := by
  cases h with
  | cons _ hb hr =>
    cases hb
    exact hr.invariant (P := Persisted) (fun hs _ he => hs.exec he) (boot_persisted config _)

/-! ## With and without a reboot -/

/-- The device that a start names the next log in. -/
@[simps!] def entered (d : Device) : Device := { d with logEnabled := false }

theorem Persisted.next_of_le (h : Persisted d) (hc : d.eeprom.loggerNextLogNum ≤ maxLogNumber) :
    d.nextLogFileNumber = d.eeprom.loggerNextLogNum :=
  h.next.elim Eq.symm fun h => absurd h.2 (Nat.not_lt.2 hc)

theorem Persisted.wrapped_of_gt (h : Persisted d) (hc : d.eeprom.loggerNextLogNum > maxLogNumber) :
    d.wrapped.nextLogFileNumber = 1 := by
  rw [wrapped, wrapNext_nextLogFileNumber, nameFirst_nextLogFileNumber]
  rcases h.next with he | ⟨he, -⟩
  · exact if_pos (he ▸ hc)
  · rw [he]
    rfl

/-- Numbers that the constructor accepts are those in memory. -/
theorem Persisted.twins (h : Persisted d) (hb : Canonical d.logFileName) (hs : ¬ d.Shortcut)
    (hn : d.eeprom.loggerNextLogNum ≤ maxLogNumber)
    (hf : d.eeprom.loggerFirstLogNum ≤ maxLogNumber) :
    Twins d.entered (d.restored d.config).entered := by
  have ha : Alike d.entered.wrapped (d.restored d.config).entered.wrapped := by
    refine Device.ext rfl rfl rfl rfl ?_ h.first rfl rfl rfl ?_ rfl rfl rfl rfl rfl
    · have hw {n m : ℕ} (hnm : n = m) : (if n > maxLogNumber then 1 else n) =
          if m > maxLogNumber then 1 else m := by rw [hnm]
      exact hw (h.next_of_le hn).symm
    · have hd : Canonical (d.restored d.config).entered.logFileName := canonical_default
      have hl := nameFirst_logFileName_of (d := (d.restored d.config).entered) hd hf
      have hr := nameFirst_logFileName_of (d := d.entered) hb (h.first ▸ hf)
      refine hl.trans (Eq.trans ?_ hr.symm)
      exact congrArg (sprintfNumToLogfileName · defaultLogFileName) h.first
  exact ⟨hs, fun h => (by cases h.1), ha.map (g := putNextLogNum) fun _ => rfl, .inl ha⟩

/-- While there is no first log, the constructor goes back to where the logger is. -/
theorem Persisted.twins_reset (h : Persisted d) (hb : Canonical d.logFileName) (hs : ¬ d.Shortcut)
    (hn : d.eeprom.loggerNextLogNum > maxLogNumber) (hf : d.firstLogFileNumber = 0) :
    Twins d.entered (d.restored d.config).resetLogFileNumbers.entered := by
  have hw : d.entered.wrapped.nextLogFileNumber = 1 := h.wrapped_of_gt hn
  refine ⟨hs, fun h => (by cases h.1), ?_, .inr hf⟩
  refine Device.ext rfl ?_ rfl rfl hw.symm hf.symm rfl rfl rfl ?_ rfl rfl rfl rfl rfl
  · exact EEPROM.ext hw.symm (hf.symm.trans h.first.symm) rfl rfl
  · have hr : d.entered.nameFirst.logFileName = _ :=
      nameFirst_logFileName_of hb (hf ▸ Nat.zero_le _)
    rw [entered_firstLogFileNumber, hf] at hr
    exact hr.symm

theorem alike_overwriteFirst (env : Env) (d : Device) :
    Alike ((d.setLogFileName d.firstLogFileNumber).recycle env) (d.overwriteFirst env) := rfl

/-- When all numbers are used, the search overwrites the log that the shortcut does. -/
theorem Persisted.matches_shortcut (h : Persisted d) (hb : Canonical d.logFileName)
    (hs : d.Shortcut) (hn : d.eeprom.loggerNextLogNum ≤ maxLogNumber) (hv : env.noValue = true)
    (hpos : 1 ≤ d.firstLogFileNumber) (hlt : d.firstLogFileNumber < maxLogNumber)
    (hu : AllUsed d.card) :
    Matches env d.entered (d.restored d.config).entered ∧
      Matches env (d.restored d.config).entered d.entered := by
  obtain ⟨q, hq⟩ : ∃ q, q = (d.restored d.config).entered := ⟨_, rfl⟩
  have hcan : Canonical q.logFileName := by
    rw [hq]
    exact canonical_default
  have hcard : q.card = d.card := by rw [hq]; rfl
  have hfirst : q.firstLogFileNumber = d.firstLogFileNumber := by
    rw [hq]
    exact h.first
  have hnext : q.wrapped.nextLogFileNumber = d.firstLogFileNumber := by
    rw [hq, wrapped, wrapNext_nextLogFileNumber]
    exact (if_neg (Nat.not_lt.2 hn)).trans ((h.next_of_le hn).symm.trans hs.2)
  have hle : q.firstLogFileNumber ≤ maxLogNumber := hfirst.trans_le hlt.le
  have hmem : logName d.firstLogFileNumber ∈ q.card := hcard ▸ hu _ hpos hlt.le
  -- the search from the number after the first one comes back to it
  obtain ⟨⟨r, buf⟩, hr⟩ := searchLoop_ends q.card
    (sprintfNumToLogfileName d.firstLogFileNumber defaultLogFileName)
    (Nat.succ_pos d.firstLogFileNumber) hlt hpos hlt.le
  obtain ⟨rfl, hbuf⟩ := searchLoop_allUsed (hcard ▸ hu) (canonical_default.of_sprintf hlt.le)
    (Nat.succ_pos _) hlt hr
  have hnq : NextLog maxLogNumber env q true ((q.searched buf).overwriteFirst env) := by
    refine .overwrite (fun hs' => ?_) ?_ ?_ ?_ ?_
    · have ho := hs'.1
      rw [hq] at ho
      cases ho
    · rw [logFile, nameFirst_logFileName_of hcan hle, hfirst]
      exact hmem
    · rw [logFile, nameNext_logFileName_of hcan hle, hnext]
      exact hmem
    · rw [search_of hcan hle, hnext, hfirst, hr]
    · rw [hq]
      exact h.overwrite hs.1
  have hnp : NextLog 1 env d.entered true (d.entered.overwriteNext env) := hv ▸ .shortcut hs
  rw [← hq]
  refine hnp.matches hnq one_ne_zero (by decide) (Alike.settle ?_ env true)
  -- both name the first log, and overwrite it
  have ha : Alike (d.entered.setLogFileName d.firstLogFileNumber)
      ((q.searched buf).setLogFileName d.firstLogFileNumber) := by
    have hnext' : q.wrapped.nextLogFileNumber = d.nextLogFileNumber := hnext.trans hs.2.symm
    refine Device.ext ?_ ?_ ?_ rfl ?_ ?_ rfl rfl rfl ?_ rfl rfl rfl rfl ?_
    · simp [hcard]
    · rw [hq]; rfl
    · rw [hq]; rfl
    · simpa [wrapped] using hnext'
    · simp [hfirst]
    · simp [(hbuf.sprintf hlt.le).trans (hb.sprintf hlt.le).symm]
    · rw [hq]; rfl
  have ho := alike_overwriteFirst env (q.searched buf)
  rw [searched_firstLogFileNumber] at ho
  have hp : d.entered.overwriteNext env =
      (d.entered.setLogFileName d.firstLogFileNumber).recycle env := overwriteNext_eq env hs.2
  rw [hfirst] at ho
  rw [hp]
  exact ho.trans (ha.map (g := recycle env) fun _ => rfl)

/-- Without a first log on the card, the logger goes back to log 1 as the constructor
    does, and then again. -/
theorem matches_reset (hb : Canonical d.logFileName) (hs : ¬ d.Shortcut)
    (hf : d.firstLogFileNumber ≤ maxLogNumber) (hm : logName d.firstLogFileNumber ∉ d.card)
    (h₀ : logName 0 ∉ d.card) :
    Matches env d.entered (d.restored d.config).resetLogFileNumbers.entered ∧
      Matches env (d.restored d.config).resetLogFileNumbers.entered d.entered := by
  have hp : NextLog 1 env d.entered true d.entered.resetToOne := by
    refine .reset hs ?_
    have hl : d.entered.nameFirst.logFile = logName d.firstLogFileNumber := hb.toText_sprintf hf
    rwa [hl]
  have hq : NextLog 1 env (d.restored d.config).resetLogFileNumbers.entered true
      (d.restored d.config).resetLogFileNumbers.entered.resetToOne :=
    .reset (fun h => by cases h.1) h₀
  refine hp.matches hq one_ne_zero one_ne_zero (Alike.settle ?_ env true)
  refine Device.ext rfl rfl rfl rfl rfl rfl rfl rfl rfl ?_ rfl rfl rfl rfl rfl
  exact ((canonical_default.of_sprintf (Nat.zero_le _)).sprintf (by decide)).trans
    ((hb.of_sprintf hf).sprintf (by decide)).symm

/-- What a log that is opened comes to is told by the numbers, the name, the card and the
    trace before. -/
theorem outcome_logOpened_eq {clock : Clock} (hcard : p.card = q.card)
    (hname : p.logFileName = q.logFileName) (hnext : p.nextLogFileNumber = q.nextLogFileNumber)
    (hcell : p.eeprom.loggerNextLogNum = q.eeprom.loggerNextLogNum) (htrace : p.trace = q.trace)
    (hfirst : (p.logOpened clock).firstLogFileNumber = (q.logOpened clock).firstLogFileNumber)
    (hfirstCell : (p.logOpened clock).eeprom.loggerFirstLogNum =
      (q.logOpened clock).eeprom.loggerFirstLogNum) :
    (p.logOpened clock).outcome = (q.logOpened clock).outcome := by
  have hfile : p.logFile = q.logFile := congrArg toText hname
  refine Outcome.ext hfile hnext hfirst hcell hfirstCell ?_
  rw [outcome_trace, outcome_trace, logOpened_trace, logOpened_trace, hfile, hcard, htrace]

/-- From log 1 on, the search finds the same number wherever it would stop. -/
theorem Persisted.matches_found (h : Persisted d) (hb : Canonical d.logFileName)
    (hs : ¬ d.Shortcut) (hn : d.eeprom.loggerNextLogNum > maxLogNumber) (ho : env.opens = true)
    (hf : d.firstLogFileNumber = 1) (h₀ : logName 0 ∈ d.card) (h₁ : logName 1 ∈ d.card)
    (hu : ¬ AllUsed d.card) :
    Matches env d.entered (d.restored d.config).resetLogFileNumbers.entered ∧
      Matches env (d.restored d.config).resetLogFileNumbers.entered d.entered := by
  have hb : Canonical d.entered.logFileName := hb
  have hle : d.entered.firstLogFileNumber ≤ maxLogNumber := hf.trans_le (by decide)
  have hnext : d.entered.wrapped.nextLogFileNumber = 1 := h.wrapped_of_gt hn
  have hcan : Canonical (sprintfNumToLogfileName 1 defaultLogFileName) :=
    canonical_default.of_sprintf (by decide)
  obtain ⟨⟨r, buf⟩, hr⟩ := searchLoop_ends d.card (n := 2)
    (sprintfNumToLogfileName 1 defaultLogFileName) (by decide) (by decide) (le_refl 1) (by decide)
  cases r with
  | none =>
    -- back at log 1, all numbers have been passed
    refine absurd (fun n hn hn' => ?_) hu
    obtain ⟨k, hk, hj⟩ := searchLoop_none hcan (by decide) hr
    rcases hn.eq_or_lt with rfl | hlt
    · exact h₁
    · have hpass : (Wheel.next maxLogNumber)^[n - 2] 2 = n := by
        rw [Wheel.iterate_next (by decide) (by decide), Nat.mod_eq_of_lt (by omega)]
        omega
      rw [Wheel.iterate_next (by decide) (by decide), maxLogNumber] at hk
      rw [maxLogNumber] at hn'
      exact hpass ▸ hj (n - 2) (by omega)
  | some m =>
    have hp : NextLog maxLogNumber env d.entered true ((d.entered.searched buf).useNumber m) := by
      refine .found hs ?_ ?_ ?_
      · rw [logFile, nameFirst_logFileName_of hb hle, entered_firstLogFileNumber, hf]
        exact h₁
      · rw [logFile, nameNext_logFileName_of hb hle, hnext]
        exact h₁
      · rw [search_of hb hle, hnext, entered_firstLogFileNumber, hf]
        exact hr
    have hq : NextLog maxLogNumber env (d.restored d.config).resetLogFileNumbers.entered true
        (((d.restored d.config).resetLogFileNumbers.entered.searched buf).useNumber m) := by
      have hcan₀ : Canonical (d.restored d.config).resetLogFileNumbers.entered.logFileName :=
        canonical_default
      refine .found (fun h => by cases h.1) h₀ ?_ ?_
      · rw [logFile, nameNext_logFileName_of hcan₀ (Nat.zero_le _)]
        exact h₁
      · rw [search_of hcan₀ (Nat.zero_le _)]
        exact searchLoop_zero (n := 2) (by decide) hr
    refine hp.matches hq (by decide) (by decide) ?_
    -- the first log number becomes 1 again when the log is opened
    rw [settle_opens ho, settle_opens ho]
    refine congrArg (Prod.mk true) (outcome_logOpened_eq ?_ ?_ ?_ ?_ ?_ ?_ ?_)
    · simp
    · simp
    · simp
    · simp
    · simp
    · simp [hf]
    · simp [hf, h.first.trans hf]

theorem RebootKept.matches (h : RebootKept env d) (hp : Persisted d) (ho : env.opens = true) :
    Matches env d.entered (d.boot d.config).entered ∧
      Matches env (d.boot d.config).entered d.entered := by
  obtain ⟨hb, h⟩ := h
  rw [boot_eq]
  split at h
  · next hr =>
    obtain ⟨hs, hh⟩ := h
    rw [if_pos hr]
    have hcell (hf : d.firstLogFileNumber ≤ maxLogNumber) :
        d.eeprom.loggerNextLogNum > maxLogNumber :=
      hr.resolve_right (Nat.not_lt.2 (hp.first.trans_le hf))
    rcases hh with hf | ⟨hf, hm, h₀⟩ | ⟨hf, h₀, h₁, hu⟩
    · have ht := hp.twins_reset hb hs (hcell (hf.trans_le (Nat.zero_le _))) hf
      exact ⟨ht.matches, ht.symm.matches⟩
    · exact matches_reset hb hs hf hm h₀
    · exact hp.matches_found hb hs (hcell (hf.trans_le (by decide))) ho hf h₀ h₁ hu
  · next hr =>
    rw [if_neg hr]
    obtain ⟨hn, hf⟩ := not_or.1 hr
    by_cases hs : d.Shortcut
    · obtain ⟨hv, hpos, hlt, hu⟩ := h hs
      exact hp.matches_shortcut hb hs (Nat.not_lt.1 hn) hv hpos hlt hu
    · have ht := hp.twins hb hs (Nat.not_lt.1 hn) (Nat.not_lt.1 hf)
      exact ⟨ht.matches, ht.symm.matches⟩

/-- In every state that a run reaches after the first boot, from any card and EEPROM
    contents, and that meets the condition, a start of a log with enough space and
    openings that succeed comes to the same with and without a reboot before it. -/
theorem reboot_transparent (card : Card) (eeprom : EEPROM) {config : ConfigManager}
    {ops : List Op}
    (h : anyOrder.Run Machine.Free (initial card eeprom) (.boot config :: ops) d)
    (hk : RebootKept env d) (hs : minFreeSpace d.config ≤ freeKB env d.card)
    (ho : env.opens = true) : Transparent env d := by
  obtain ⟨hm, hm'⟩ := hk.matches (persisted_of_run card eeprom h) ho
  have hs' : minFreeSpace (d.boot d.config).config ≤ freeKB env (d.boot d.config).card := by
    rw [boot_eq]
    split
    · exact hs
    · exact hs
  exact fun b o => ⟨hm.comesTo hs hs', hm'.comesTo hs' hs⟩

/-- A second boot, on which another log is started. -/
theorem reboot_transparent_second_boot :
    ∃ d, anyOrder.Run Machine.Free (initial ∅ ⟨65535, 65535, 65535, 65535⟩)
        [.boot {}, .startLog 1 .roomy] d ∧
      RebootKept .roomy d ∧ minFreeSpace d.config ≤ freeKB .roomy d.card ∧
      Env.roomy.opens = true ∧ Transparent .roomy d :=
  have h := .cons trivial rfl (.cons trivial rfl (.nil _))
  have hk := ⟨⟨1, by decide, by decide⟩, by decide⟩
  ⟨_, h, hk, by decide, rfl, reboot_transparent _ _ h hk (by decide) rfl⟩

end Device

/-- Once all numbers are used, there is no name if old logs must not be overwritten. -/
theorem Device.Below.no_name {d e : Device} {fuel : ℕ} {env : Env} {b : Bool}
    (h : d.Below maxLogNumber) (hc : d.config.overwriteLogs = false)
    (h' : Device.NextLog fuel env d b e) : b = false := by
  have hn := h.numbered (by decide)
  have hcan := h.canonical le_rfl
  have hle : d.firstLogFileNumber ≤ maxLogNumber := hn.first.trans_le (by decide)
  have hused : AllUsed d.card := fun n h₁ h₂ => (hn.card n h₁ h₂).2 h₂
  have hmem : logName 1 ∈ d.card := hused 1 le_rfl (by decide)
  have hwrap : d.wrapped.nextLogFileNumber = 1 := by
    rw [Device.wrapped, Device.wrapNext_nextLogFileNumber, Device.nameFirst_nextLogFileNumber,
      hn.next]
    rfl
  cases h' with
  | shortcut hs => exact absurd hs h.not_shortcut
  | reset _ hf =>
    rw [Device.logFile, Device.nameFirst_logFileName_of hcan hle, hn.first] at hf
    exact absurd hmem hf
  | next _ _ hx =>
    rw [Device.logFile, Device.nameNext_logFileName_of hcan hle, hwrap] at hx
    exact absurd hmem hx
  | found _ _ _ hm =>
    rw [Device.search_of hcan hle, hwrap] at hm
    have hr := Device.searchLoop_allUsed hused (canonical_default.of_sprintf (by decide))
      (by decide) (by decide) hm
    cases hr.1
  | overwrite _ _ _ _ ho => exact absurd (hc.symm.trans ho) (by decide)
  | full => rfl

/-- Once all numbers are used, logging stops if old logs must not be overwritten; after
    a reboot, it goes on in log 1. -/
theorem log_one_written_on :
    ∃ d, anyOrder.Run Machine.Free (.initial ∅ ⟨1, 0, 1, 0⟩)
        ([.boot { overwriteLogs := false }, .startLog 1 .roomy] ++
          List.replicate 998 (.restartLogging 1 .roomy)) d ∧
      Device.minFreeSpace d.config ≤ Device.freeKB .roomy d.card ∧
      ¬ Device.Transparent .roomy d := by
  obtain ⟨⟨p, d⟩, hr, -, hf⟩ := exists_filling false (k := 998) (by decide)
  refine ⟨d, anyOrder_of_program hr, hf.enough, fun ht => ?_⟩
  have hn := hf.toBelow.numbered (by decide)
  have hboot : d.boot d.config = (d.restored d.config).resetLogFileNumbers := by
    rw [Device.boot_eq, hn.nextCell]
    exact if_pos (.inl (by decide))
  have hname : Device.NextLog 1 .roomy (d.boot d.config).entered true
      (d.boot d.config).entered.resetToOne := by
    rw [hboot]
    exact .reset (fun h => by cases h.1) hf.zero
  have hspace : Device.minFreeSpace (d.boot d.config).config ≤
      Device.freeKB .roomy (d.boot d.config).card := by
    rw [hboot]
    exact hf.enough
  have hb := Device.startLog_eq (Device.checkSdFreeSpace_of_le one_ne_zero hspace) hname rfl
  obtain ⟨fuel, e, he, -⟩ := (ht _ _).2 ⟨1, _, hb, rfl⟩
  cases Device.start_of_startLog he with
  | @opened d₁ _ hc hx =>
    have hd : d₁ = d.entered := Device.checkSdFreeSpace_of_not_overwriteLogs
      (d := d.entered) (by rw [Device.entered_config, hf.config]) hc
    rw [hd] at hx
    have hc : d.entered.config.overwriteLogs = false := by rw [Device.entered_config, hf.config]
    cases hf.toBelow.disabled.no_name hc hx

end CanInsight
