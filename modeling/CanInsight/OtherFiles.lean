import CanInsight.NameHistory
import CanInsight.Transfers

/-!
# The other files

The card has files that are no logs, like the configuration with its passwords. The program gets
the name of every file that it opens, removes or uploads by printing a number into an array that
begins with `CAN`.

* `IsLogName`: the names that begin so, and `upcased`, as the card compares them;
* `Confined`: all that is done to the card is done to such files, over a whole run
  (`Confined.run`);
* `writeSdLine_local`: logging transfers nothing;
* `uploading_of_run`: only such files are uploaded.
-/

namespace CanInsight

open CString

/-- The beginning of `DEFAULT_LOG_FILE_NAME`, which no number is printed over. -/
def logNamePrefix : List Char := ['C', 'A', 'N']

/-- A name that can be in the array for the names of logs. -/
def IsLogName (name : Name) : Prop := logNamePrefix <+: name

instance : DecidablePred IsLogName := fun _ => inferInstanceAs (Decidable (_ <+: _))

theorem isLogName_default : IsLogName defaultLogFileName := by decide

variable {buf : List Char} {n : ℕ} {name : Name}

/-- A name as the card compares it, where the case of letters does not matter. -/
def upcased (name : Name) : Name := name.map Char.toUpper

theorem IsLogName.upcased (h : IsLogName name) : IsLogName (upcased name) := by
  obtain ⟨rest, rfl⟩ := h
  have hprefix : logNamePrefix.map Char.toUpper = logNamePrefix := by decide
  refine ⟨rest.map Char.toUpper, ?_⟩
  rw [CanInsight.upcased, List.map_append, hprefix]

theorem IsLogName.toText (h : IsLogName buf) : IsLogName (toText buf) := by
  obtain ⟨rest, rfl⟩ := h
  exact ⟨CString.toText rest, rfl⟩

theorem IsLogName.ne {other : Name} (h : IsLogName other) (hn : ¬ IsLogName name) :
    name ≠ other := fun he => hn (he ▸ h)

/-- A number is printed behind it. -/
theorem IsLogName.sprintf (h : IsLogName buf) (n : ℕ) :
    IsLogName (sprintfNumToLogfileName n buf) := by
  have hput {i : ℕ} (hi : 3 ≤ i) (text : List Char) : IsLogName (putAt i text buf) := by
    obtain ⟨rest, rfl⟩ := h
    refine ⟨rest.take (i - 3) ++
      (text ++ nul :: (logNamePrefix ++ rest).drop (i + text.length + 1)), ?_⟩
    have hprefix : logNamePrefix.take i = logNamePrefix := List.take_of_length_le hi
    rw [putAt, List.take_append, hprefix, List.append_assoc, List.append_assoc]
    rfl
  have hset {buf : List Char} (h : IsLogName buf) (c : Char) :
      IsLogName (buf.set logFileDotPos c) := by
    obtain ⟨rest, rfl⟩ := h
    exact ⟨rest.set 4 c, rfl⟩
  rw [sprintfNumToLogfileName]
  -- four digits begin one place earlier than three, just behind the prefix
  refine hset ?_ '.'
  split
  · exact hput (by decide) _
  · exact hput (by decide) _

theorem IsLog.isLogName (h : IsLog name) : IsLogName name := by
  obtain ⟨ns, rfl⟩ := h
  refine IsLogName.toText ?_
  induction ns using List.reverseRecOn with
  | nil => exact isLogName_default
  | append_singleton ns n ih =>
    rw [printAll_append_singleton]
    exact ih.sprintf n

theorem not_isLog_configFileName : ¬ IsLog configFileName :=
  fun h => absurd h.isLogName (by decide)

namespace Event

/-- Everything but a transfer. -/
def IsLocal (e : Event) : Prop := ¬ e.OfTransfer

theorem ofStart_isLocal (e : Event) (h : e.OfStart) : e.IsLocal := by
  cases e <;> first | exact id | exact h.elim

theorem ofWrite_isLocal (e : Event) (h : e.OfWrite) : e.IsLocal := by
  cases e <;> first | exact id | exact h.elim

/-- Everything but the call of `upload_file` on another file. -/
def OnLogs : Event → Prop
  | uploading name => IsLogName name
  | _ => True

theorem IsLocal.onLogs (e : Event) (h : e.IsLocal) : e.OnLogs := by
  cases e <;> first | trivial | exact absurd trivial h

theorem ofRequest_onLogs (e : Event) (h : e.OfRequest) : e.OnLogs := by
  cases e <;> trivial

end Event

namespace Device

variable {files : Card} {d d' e : Device} {fuel : ℕ} {env : Env} {b : Bool} {op : Op}

/-- Nothing has been done to the files of a card that are no logs, nor is one open. -/
structure Confined (files : Card) (d : Device) : Prop where
  buffer : IsLogName d.logFileName
  openFile : ∀ f, d.dataFile = some f → IsLogName f.name
  others : ∀ name, ¬ IsLogName name → d.card.lookup name = files.lookup name

theorem confined_initial (card : Card) (eeprom : EEPROM) : Confined card (initial card eeprom) :=
  ⟨isLogName_default, (fun _ h => nomatch h), fun _ _ => rfl⟩

/-! ## Files -/

theorem Confined.logFile (h : Confined files d) : IsLogName d.logFile := h.buffer.toText

theorem Confined.setLogFileName (h : Confined files d) (n : ℕ) :
    Confined files (d.setLogFileName n) := ⟨h.buffer.sprintf n, h.openFile, h.others⟩

theorem Confined.sdRemove (h : Confined files d) (succeeds : Bool) (hn : IsLogName name) :
    Confined files (d.sdRemove succeeds name) := by
  refine ⟨h.buffer, h.openFile, fun other ho => ?_⟩
  rw [sdRemove_card]
  split
  · rw [Finmap.lookup_erase_ne (hn.ne ho)]
    exact h.others other ho
  · exact h.others other ho

theorem Confined.syncedCard (h : Confined files d) (hn : ¬ IsLogName name) :
    d.syncedCard.lookup name = files.lookup name := by
  unfold Device.syncedCard
  split
  · next f hf =>
    split
    · rw [Finmap.lookup_insert_of_ne _ ((h.openFile f hf).ne hn)]
      exact h.others name hn
    · exact h.others name hn
  · exact h.others name hn

theorem Confined.sync (h : Confined files d) : Confined files d.sync :=
  ⟨h.buffer, h.openFile, fun _ => h.syncedCard⟩

theorem Confined.closeDataFile (h : Confined files d) : Confined files d.closeDataFile :=
  ⟨h.buffer, (fun _ hf => nomatch hf), fun _ => h.syncedCard⟩

theorem Confined.openDataFile (h : Confined files d) (succeeds : Bool) :
    Confined files (d.openDataFile succeeds) := by
  refine ⟨h.buffer, fun f hf => ?_, fun name hn => ?_⟩
  · rw [openDataFile_dataFile] at hf
    split at hf
    · cases hf
      exact h.logFile
    · cases hf
  · rw [openDataFile_card]
    split
    · rw [Finmap.lookup_insert_of_ne _ (h.logFile.ne hn)]
      exact h.others name hn
    · exact h.others name hn

/-- The open file keeps its name. -/
theorem Confined.mapDataFile (h : Confined files d) {g : OpenFile → OpenFile}
    (hg : ∀ f, (g f).name = f.name) (hd : d'.dataFile = d.dataFile.map g)
    (hb : d'.logFileName = d.logFileName) (hc : d'.card = d.card) : Confined files d' := by
  refine ⟨hb ▸ h.buffer, fun f hf => ?_, fun name hn => hc ▸ h.others name hn⟩
  rw [hd] at hf
  obtain ⟨f₀, hf₀, rfl⟩ := Option.map_eq_some_iff.1 hf
  rw [hg]
  exact h.openFile f₀ hf₀

theorem Confined.of_eq (h : Confined files d) (hd : e.dataFile = d.dataFile)
    (hb : e.logFileName = d.logFileName) (hc : e.card = d.card) : Confined files e :=
  h.mapDataFile (g := id) (fun _ => rfl) (hd.trans Option.map_id'.symm) hb hc

theorem Confined.reopenFile (h : Confined files d) (succeeds : Bool) :
    Confined files (d.reopenFile succeeds) := by
  refine (h.closeDataFile.openDataFile succeeds).mapDataFile (fun f => ?_) rfl rfl rfl
  unfold OpenFile.seek
  split <;> rfl

/-! ## Writing -/

theorem Confined.drainBuffer (h : Confined files d) : Confined files d.drainBuffer := by
  rw [drainBuffer_eq]
  exact h.mapDataFile (g := (·.write d.writeBuffer)) (fun _ => rfl) rfl rfl rfl

theorem Confined.flushSdFile (h : Confined files d) : Confined files d.flushSdFile :=
  h.drainBuffer.sync

theorem Confined.opened (h : Confined files d) : Confined files d.opened := by
  unfold Device.opened
  split
  · exact h
  · exact h.openDataFile true

theorem Confined.print (h : Confined files d) (s : Bytes) : Confined files (d.print s) :=
  h.mapDataFile (g := (·.write s)) (fun _ => rfl) rfl rfl rfl

theorem Confined.printLine (h : Confined files d) (line : Bytes) :
    Confined files (d.printLine line) :=
  h.drainBuffer.mapDataFile (g := (·.write line)) (fun _ => rfl) rfl rfl rfl

theorem Confined.bufferLine (h : Confined files d) (line : Bytes) :
    Confined files (d.bufferLine line) := by
  unfold Device.bufferLine
  split
  · exact h.of_eq rfl rfl rfl
  · split
    · exact h.of_eq rfl rfl rfl
    · exact h

/-! ## Starting a log -/

theorem boot_logFileName (config : ConfigManager) (d : Device) :
    (d.boot config).logFileName = defaultLogFileName := by
  rw [boot_eq]
  split <;> rfl

theorem boot_dataFile (config : ConfigManager) (d : Device) : (d.boot config).dataFile = none := by
  rw [boot_eq]
  split <;> rfl

theorem boot_trace (config : ConfigManager) (d : Device) : (d.boot config).trace = d.trace := by
  rw [boot_eq]
  split <;> rfl

theorem boot_card (config : ConfigManager) (d : Device) : (d.boot config).card = d.card := by
  rw [boot_eq]
  split <;> rfl

theorem Confined.boot (h : Confined files d) (config : ConfigManager) :
    Confined files (d.boot config) := by
  refine ⟨?_, fun f hf => ?_, fun name hn => ?_⟩
  · rw [boot_logFileName]
    exact isLogName_default
  · rw [boot_dataFile] at hf
    cases hf
  · rw [boot_card]
    exact h.others name hn

theorem Confined.freed (h : Confined files d) (hc : d.checkSdFreeSpace fuel env = some (b, d')) :
    Confined files d' := by
  -- the loop prints into an array of its own, which begins in the same way
  refine (freeSpaceLoop_induct (P := fun buf e => IsLogName buf ∧ Confined files e)
    (fun buf e he _ _ => ⟨he.1.sprintf _, ?_⟩) ⟨isLogName_default.sprintf _, h⟩ hc).elim
    fun _ h => h.2
  exact (he.2.sdRemove _ he.1.toText).of_eq rfl rfl rfl

/-- The search leaves a number in the array. -/
theorem searchLoop_isLogName {card : Card} {first : ℕ} {r : Option ℕ} {buf' : List Char}
    (hb : IsLogName buf) (h : searchLoop card first fuel n buf = some (r, buf')) :
    IsLogName buf' := by
  induction fuel generalizing n buf with
  | zero => cases h
  | succ fuel ih =>
    rw [searchLoop] at h
    dsimp only at h
    split at h
    · cases h
      exact hb.sprintf n
    · split at h
      · exact ih (hb.sprintf n) h
      · cases h
        exact hb.sprintf n

theorem Confined.nextLog (h : Confined files d) (hn : NextLog fuel env d b d') :
    Confined files d' := by
  have hfirst : Confined files d.nameFirst := h.setLogFileName _
  have hnext : Confined files d.nameNext :=
    (hfirst.of_eq (e := d.nameFirst.wrapNext) rfl rfl rfl).setLogFileName _
  have hsearched {r : Option ℕ} {buf : List Char} (hs : d.search fuel = some (r, buf)) :
      Confined files (d.searched buf) :=
    ⟨searchLoop_isLogName hnext.buffer hs, hnext.openFile, hnext.others⟩
  cases hn with
  | shortcut =>
    have hname := h.setLogFileName d.nextLogFileNumber
    exact (hname.sdRemove _ hname.logFile).of_eq rfl rfl rfl
  | reset =>
    exact (hfirst.of_eq (e := d.nameFirst.resetLogFileNumbers) rfl rfl rfl).setLogFileName 1
  | next => exact hnext.of_eq rfl rfl rfl
  | found _ _ _ hs => exact (hsearched hs).of_eq rfl rfl rfl
  | @overwrite buf _ _ _ hs =>
    have hname := (hsearched hs).setLogFileName (d.searched buf).firstLogFileNumber
    exact (hname.sdRemove _ hname.logFile).of_eq rfl rfl rfl
  | full _ _ _ hs => exact hsearched hs

theorem Confined.logNotOpened (h : Confined files d) : Confined files d.logNotOpened :=
  h.closeDataFile.of_eq rfl rfl rfl

theorem Confined.logOpened (h : Confined files d) (clock : Clock) :
    Confined files (d.logOpened clock) := by
  refine ⟨h.buffer, fun f hf => ?_, fun name hn => ?_⟩
  · cases hf
    exact h.logFile
  · rw [logOpened_card, Finmap.lookup_insert_of_ne _ (h.logFile.ne hn)]
    exact h.syncedCard hn

theorem Confined.startLog (h : Confined files d) (hs : d.startLog fuel env = some (b, d')) :
    Confined files d' := by
  have hoff : Confined files { d with logEnabled := false } := h.of_eq rfl rfl rfl
  cases start_of_startLog hs with
  | noSpace hc => exact hoff.freed hc
  | noName hc hn => exact (hoff.freed hc).nextLog hn
  | notOpened hc hn => exact ((hoff.freed hc).nextLog hn).logNotOpened
  | opened hc hn => exact ((hoff.freed hc).nextLog hn).logOpened env.clock

/-! ## Uploads -/

theorem Confined.acceptUpload (h : Confined files d) (x : Exchange) (hn : IsLogName name) :
    Confined files (d.acceptUpload x name) := by
  unfold Device.acceptUpload
  split
  · exact (h.sdRemove _ hn).of_eq rfl rfl rfl
  · exact h

theorem Confined.uploadFile (h : Confined files d) (x : Exchange) (hn : IsLogName name) :
    Confined files (d.uploadFile x name).2 :=
  uploadFile_induct (fun _ _ _ hd => hd.of_eq rfl rfl rfl) (fun _ _ _ hd => hd.of_eq rfl rfl rfl)
    (fun _ _ hd => (hd.reopenFile _).flushSdFile) (fun _ hd => hd.reopenFile _)
    (fun e hd _ => Confined.acceptUpload
      (hd.of_eq (e := e.emit (.postAnswered name x.response)) rfl rfl rfl) x hn) h

theorem Confined.increment (h : Confined files d) (u : DataUploader) :
    Confined files (u.incrementNextLogToUpload d).2.2 := h.of_eq rfl rfl rfl

/-- What an upload of a log and the step of the cursor preserve, `upload_data` preserves. -/
theorem uploadRounds_logs {P : Device → Prop} {net : ℕ → Exchange} (u : DataUploader)
    (hupload : ∀ x name e, IsLogName name → P e → P (e.uploadFile x name).2)
    (hnext : ∀ (u : DataUploader) e, P e → P (u.incrementNextLogToUpload e).2.2) (h : P d) :
    P (u.uploadRounds net fuel d).2.2 := by
  have hround {buf : List Char} {u : DataUploader} {e f : Device} {b : Bool}
      (hp : IsLogName buf ∧ P e)
      (hu : e.uploadFile (net u.nextLogToUpload) (toText buf) = (b, f)) : P f := by
    have hf := hupload (net u.nextLogToUpload) (toText buf) e hp.1.toText hp.2
    rwa [hu] at hf
  have hmove {u v : DataUploader} {e f : Device} {b : Bool} (he : P e)
      (hv : u.incrementNextLogToUpload e = (b, v, f)) : P f := by
    have hf := hnext u e he
    rwa [hv] at hf
  rw [DataUploader.uploadRounds]
  split
  · exact h
  · dsimp only
    split
    · exact h
    · exact DataUploader.uploadLoop_rule (P := fun buf _ e => IsLogName buf ∧ P e)
        (Q := fun _ => P) (fun _ _ _ hp => hp.2) (fun _ _ _ _ hp _ hu => hround hp hu)
        (fun _ _ _ _ _ _ hp _ hu hv => hmove (hround hp hu) hv)
        (fun _ _ _ _ _ _ hp _ hu hv => ⟨hp.1.sprintf _, hmove (hround hp hu) hv⟩)
        ⟨isLogName_default.sprintf _, h⟩

theorem Confined.wifi (h : Confined files d) {w : WifiEnv} (he : d.wifi w = some d') :
    Confined files d' := by
  have hc : Confined files (d.putNextToTry d.cursor) := h.of_eq rfl rfl rfl
  cases wifi_of_wifi he with
  | unconnected => exact hc
  | @uploaded u v e f _ hb hu =>
    have hr : Confined files e := by
      cases (constructed_of_beforeUpload hb).2 with
      | kept => exact hc
      | restarted _ hs => exact hc.startLog hs
    have hf : Confined files (u.uploadRounds w.net w.rounds e).2.2 :=
      uploadRounds_logs u (fun x name e hn he => he.uploadFile x hn)
        (fun u e he => he.increment u) hr
    rwa [hu] at hf

/-! ## Runs -/

theorem Confined.exec (h : Confined files d) (he : d.exec op = some d') : Confined files d' := by
  cases op with
  | boot config =>
    cases he
    exact h.boot config
  | startLog fuel env =>
    obtain ⟨⟨b, e⟩, hs, rfl⟩ := Option.map_eq_some_iff.1 he
    exact (h.startLog hs).of_eq rfl rfl rfl
  | restartLogging fuel env =>
    obtain ⟨⟨b, e⟩, hs, rfl⟩ := Option.map_eq_some_iff.1 he
    exact h.startLog hs
  | writeSdLine fuel env opens line =>
    cases write_of_writeSdLine he with
    | disabled => exact h
    | buffered => exact h.bufferLine line
    | printed => exact h.opened.printLine line
    | rotated _ _ _ hs => exact ((h.opened.printLine line).print eofLine).startLog hs
  | flushSdFile =>
    cases he
    exact h.flushSdFile
  | reopenFile succeeds =>
    cases he
    exact h.reopenFile succeeds
  | setNoWriteFile b =>
    cases he
    exact h.of_eq rfl rfl rfl
  | wifi w => exact h.wifi he

theorem Confined.run {ops : List Op} (h : Confined files d)
    (hr : anyOrder.Run Machine.Free d ops d') : Confined files d' :=
  hr.invariant (fun hd _ he => hd.exec he) h

/-! ## What is transferred -/

theorem startLog_local (h : d.startLog fuel env = some (b, d')) : Extends Event.IsLocal d d' :=
  (startLog_extends h).mono Event.ofStart_isLocal

theorem writeSdLine_local {opens : ℕ → Bool} {line : Bytes}
    (h : writeSdLine env fuel opens line d = some d') : Extends Event.IsLocal d d' := by
  have hprint := (opened_printLine_extends line d).mono Event.ofWrite_isLocal
  cases write_of_writeSdLine h with
  | disabled => exact .refl d
  | buffered => exact (bufferLine_extends line d).mono (by rintro _ rfl; exact id)
  | printed => exact hprint
  | rotated _ _ _ hs =>
    have hend : Extends Event.IsLocal (d.opened.printLine line)
        (d.opened.printLine line).printEndLogLine := .of_eq rfl
    exact (hprint.trans hend).trans (startLog_local hs)

/-! ## What is uploaded -/

theorem uploadFile_onLogs (x : Exchange) (hn : IsLogName name) (d : Device) :
    Extends Event.OnLogs d (d.uploadFile x name).2 := by
  rcases hu : d.uploadFile x name with ⟨b, e⟩
  obtain ⟨es, hes, ht⟩ := (upload_of_uploadFile hu).trace_eq
  refine ⟨(if b then [.confirmed name] else []) ++ (es ++ [.uploading name]), ?_, ?_⟩
  · rw [ht, List.append_assoc, List.append_assoc, List.singleton_append]
  · intro ev hev
    rcases List.mem_append.1 hev with hev | hev
    · cases b with
      | false => exact absurd hev List.not_mem_nil
      | true =>
        cases List.mem_singleton.1 hev
        trivial
    · rcases List.mem_append.1 hev with hev | hev
      · exact Event.ofRequest_onLogs ev (hes ev hev)
      · cases List.mem_singleton.1 hev
        exact hn

theorem wifi_onLogs {w : WifiEnv} (h : d.wifi w = some d') : Extends Event.OnLogs d d' := by
  have hc : Extends Event.OnLogs d (d.putNextToTry d.cursor) := .of_eq rfl
  cases wifi_of_wifi h with
  | unconnected => exact hc
  | @uploaded u v e f _ hb hu =>
    have hr : Extends Event.OnLogs d e := by
      cases (constructed_of_beforeUpload hb).2 with
      | kept => exact hc
      | restarted _ hs => exact hc.trans ((startLog_local hs).mono Event.IsLocal.onLogs)
    have hf : Extends Event.OnLogs d (u.uploadRounds w.net w.rounds e).2.2 :=
      uploadRounds_logs u (fun x name e hn he => he.trans (uploadFile_onLogs x hn e))
        (fun u e he => he.trans (.of_cons (e := .advanced u.nextLogToUpload) trivial rfl)) hr
    rwa [hu] at hf

theorem exec_onLogs (h : d.exec op = some d') : Extends Event.OnLogs d d' := by
  cases op with
  | boot config =>
    cases h
    exact .of_eq (boot_trace config d)
  | startLog fuel env =>
    obtain ⟨⟨b, e⟩, hs, rfl⟩ := Option.map_eq_some_iff.1 h
    have hstart : Extends Event.OnLogs d e := (startLog_local hs).mono Event.IsLocal.onLogs
    exact hstart.trans (.of_eq rfl)
  | restartLogging fuel env =>
    obtain ⟨⟨b, e⟩, hs, rfl⟩ := Option.map_eq_some_iff.1 h
    exact (startLog_local hs).mono Event.IsLocal.onLogs
  | writeSdLine fuel env opens line => exact (writeSdLine_local h).mono Event.IsLocal.onLogs
  | flushSdFile =>
    cases h
    exact ((flushSdFile_extends d).mono Event.ofWrite_isLocal).mono Event.IsLocal.onLogs
  | reopenFile succeeds =>
    cases h
    exact ((reopenFile_extends succeeds d).mono Event.ofWrite_isLocal).mono Event.IsLocal.onLogs
  | setNoWriteFile b =>
    cases h
    exact .of_eq rfl
  | wifi w => exact wifi_onLogs h

/-- In every run, the operations in whatever order, only logs are uploaded. -/
theorem uploading_of_run {card : Card} {eeprom : EEPROM} {ops : List Op}
    (h : anyOrder.Run Machine.Free (initial card eeprom) ops d) (hn : .uploading name ∈ d.trace) :
    IsLogName name := by
  have htrace : ∀ e ∈ d.trace, e.OnLogs := by
    refine h.invariant (P := fun d => ∀ e ∈ d.trace, e.OnLogs) (fun hd _ he => ?_)
      fun _ he => absurd he List.not_mem_nil
    obtain ⟨es, ht, hes⟩ := exec_onLogs he
    rw [ht]
    exact List.forall_mem_append.2 ⟨hes, hd⟩
  exact htrace _ hn

end Device

end CanInsight
