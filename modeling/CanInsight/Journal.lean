import CanInsight.Operations

/-!
# The journal of the sessions

What the logger is for, below capacity: it keeps a journal of the sessions of
logging, in the order they were started. A session begins with its header, and has
the lines written while it was enabled, up to the one that made its file too big.

* `Journal`: the sessions of the past, and the one whose file is open, as it is
  printed and as it is on the card;
* `journal`: the journal as a machine over the operations, each with whether the
  start it makes is refused for lack of space;
* `Follows`: the program follows the journal (`Follows.step`): the log files are
  those of the sessions, and `data_file` has the session as printed;
* `logs_of_journal`: so does every run from an empty card.
-/

namespace CanInsight

open CString

/-- A session of logging: its beginning, the lines written, and whether it ended
    because its file was full. -/
structure Session where
  config : ConfigManager
  clock : Clock
  lines : List Bytes := []
  full : Bool := false

namespace Session

/-- The text of a session. -/
def text (x : Session) : Bytes :=
  headerJson x.config x.clock ++ headerColumns ++ x.lines.flatten ++ if x.full then eofLine else []

/-- The session with another line. -/
def add (line : Bytes) (x : Session) : Session := { x with lines := x.lines ++ [line] }

/-- The session that ends because its file is full. -/
def fill (x : Session) : Session := { x with full := true }

variable {x : Session}

theorem text_new (config : ConfigManager) (clock : Clock) :
    text { config := config, clock := clock } = Device.header config clock := by
  simp [text, Device.header]

theorem text_add (h : x.full = false) (line : Bytes) : (x.add line).text = x.text ++ line := by
  simp [text, add, h]

theorem text_fill (h : x.full = false) : x.fill.text = x.text ++ eofLine := by
  simp [text, fill, h]

end Session

/-- The journal of the sessions. -/
structure Journal where
  config : ConfigManager := {}
  /-- The sessions of the past. -/
  past : List Session := []
  /-- The session whose file is open, as printed and as it is on the card. -/
  current : Option (Session × Session) := none
  enabled : Bool := false

namespace Journal

/-- The sessions as they are on the card. -/
def files (j : Journal) : List Session := j.past ++ (j.current.map (·.2)).toList

/-- The sessions as they are once the open file is closed. -/
def closed (j : Journal) : List Session := j.past ++ (j.current.map (·.1)).toList

/-- A reboot leaves what is on the card. -/
def boot (config : ConfigManager) (j : Journal) : Journal := { config := config, past := j.files }

/-- A start closes the file of the session before and begins another, unless it is
    refused. -/
def start (clock : Clock) (refused : Bool) (j : Journal) : Journal :=
  if refused then { j with enabled := false }
  else
    let session : Session := { config := j.config, clock := clock }
    { j with past := j.closed, current := some (session, session), enabled := true }

/-- A line is added to the session, and ends it if its file is then too big. -/
def write (line : Bytes) (clock : Clock) (refused : Bool) (j : Journal) : Journal :=
  match j.enabled, j.current with
  | true, some (printed, saved) =>
    if (printed.add line).text.length > j.config.maxLogSize then
      { j with current := some ((printed.add line).fill, saved) }.start clock refused
    else { j with current := some (printed.add line, saved) }
  | _, _ => j

/-- The file on the card is brought up to date. -/
def flush (j : Journal) : Journal := { j with current := j.current.map fun c => (c.1, c.1) }

/-- The journal after an operation. -/
def exec (j : Journal) : Op × Bool → Option Journal
  | (.boot config, _) => some (j.boot config)
  | (.startLog _ env, refused) => some (j.start env.clock refused)
  | (.restartLogging _ env, refused) => some (j.start env.clock refused)
  | (.writeSdLine _ env _ line, refused) => some (j.write line env.clock refused)
  | (.flushSdFile, _) => some j.flush
  | _ => none

/-- What is printed is not on the card yet. -/
theorem files_print {j : Journal} {p s : Session} (h : j.current = some (p, s)) (q : Session) :
    files { j with current := some (q, s) } = j.files := by
  rw [files, files, h]
  rfl

theorem length_closed (j : Journal) : j.closed.length = j.files.length := by
  rw [closed, files, List.length_append, List.length_append]
  cases j.current <;> rfl

end Journal

/-- The journal as a machine. -/
def journal : Machine Journal (Op × Bool) := ⟨Journal.exec⟩

/-! ## The files of a journal -/

/-- The files of the card are those of the sessions, numbered from 1. -/
structure Holds (card : Card) (files : List Session) : Prop where
  file : ∀ i < maxLogNumber, card.lookup (logName (i + 1)) = (files[i]?).map Session.text
  only : ∀ name ∈ card, ∃ i < maxLogNumber, name = logName (i + 1)

theorem holds_empty : Holds ∅ [] where
  file := fun i _ => by rw [Finmap.lookup_empty]; rfl
  only := fun _ hm => absurd hm Finmap.notMem_empty

/-- A session put at the end, or in the place of the last one. -/
theorem Holds.insert {card : Card} {files init : List Session} (h : Holds card files) (x : Session)
    (hf : files = init ∨ ∃ y, files = init ++ [y]) (hk : init.length < maxLogNumber) :
    Holds (card.insert (logName (init.length + 1)) x.text) (init ++ [x]) where
  file := by
    intro i hi
    by_cases hn : i = init.length
    · subst hn
      rw [Finmap.lookup_insert, List.getElem?_concat_length]
      rfl
    · have hne : logName (i + 1) ≠ logName (init.length + 1) := by
        intro he
        exact hn (Nat.succ_injective (logName_inj hi hk he))
      rw [Finmap.lookup_insert_of_ne _ hne, h.file i hi]
      have hlast (y : Session) : (init ++ [y])[i]? = init[i]? := by
        rcases Nat.lt_or_gt_of_ne hn with hlt | hgt
        · exact List.getElem?_append_left hlt
        · rw [List.getElem?_eq_none (by simp; omega), List.getElem?_eq_none (by omega)]
      rw [hlast]
      rcases hf with rfl | ⟨y, rfl⟩
      · rfl
      · rw [hlast]
  only := by
    intro name hm
    rcases Finmap.mem_insert.1 hm with rfl | hm
    · exact ⟨_, hk, rfl⟩
    · exact h.only name hm

/-! ## The device follows the journal -/

namespace Device

variable {d d' : Device} {j : Journal} {env : Env} {fuel : ℕ} {b : Bool} {line : Bytes}

/-- The file of the current session, as it is printed. -/
def openFile (j : Journal) : Option OpenFile :=
  j.current.map fun c => ⟨logName j.files.length, c.1.text, c.1.text.length⟩

/-- The device has the sessions of the journal. -/
structure Records (d : Device) (j : Journal) : Prop where
  below : Below j.files.length d
  count : sessionCount d.trace = j.files.length
  config : d.config = j.config
  overwriteLogs : d.config.overwriteLogs = false
  buffer : d.writeBuffer = []
  direct : d.noWriteFile = false
  holds : Holds d.card j.files
  file : d.dataFile = openFile j

/-- Closing the file leaves the whole session on the card. -/
theorem Records.synced (h : Records d j) (hk : j.files.length ≤ maxLogNumber) :
    Holds d.syncedCard j.closed := by
  have hf := h.file
  rcases hc : j.current with _ | ⟨printed, saved⟩
  · rw [openFile, hc] at hf
    rw [syncedCard_of_none hf, Journal.closed, hc]
    have hh := h.holds
    rwa [Journal.files, hc] at hh
  · have hlen : j.files.length = j.past.length + 1 := by rw [Journal.files, hc]; simp
    rw [openFile, hc, hlen] at hf
    have hh := h.holds
    have hlt : j.past.length < maxLogNumber := by omega
    have hmem : logName (j.past.length + 1) ∈ d.card := by
      rw [← Finmap.lookup_isSome, hh.file _ hlt, Journal.files, hc]
      simp
    rw [syncedCard_of_mem hf hmem, Journal.closed, hc]
    refine hh.insert printed (.inr ⟨saved, ?_⟩) hlt
    rw [Journal.files, hc]
    rfl

theorem Records.flags (h : Records d j) (enabled timer : Bool) :
    Records { d with logEnabled := enabled, canLogTimer := timer } { j with enabled := enabled } :=
  ⟨h.below.flags enabled timer, h.count, h.config, h.overwriteLogs, h.buffer, h.direct, h.holds,
    h.file⟩

/-- The log of a session that begins is found empty. -/
theorem Records.found_named (h : Records d j) (hk : j.files.length < maxLogNumber) :
    (d.named j.files.length).found = [] := by
  have hs : (d.named j.files.length).syncedCard = d.syncedCard := rfl
  rw [found, named_logFile, hs, (h.synced hk.le).file _ hk, ← j.length_closed]
  rw [List.getElem?_eq_none le_rfl]
  rfl

/-- A start begins a session, or is refused. -/
theorem Records.start (h : Records d j) (hk : j.files.length < maxLogNumber)
    (ho : env.opens = true) (hs : d.startLog fuel env = some (b, d')) :
    Records d' (j.start env.clock (!b)) ∧ d'.logEnabled = b ∧ d'.maxLogSize = d.maxLogSize := by
  rcases h.below.startLog hk h.overwriteLogs ho hs with ⟨rfl, rfl⟩ | ⟨rfl, rfl⟩
  · exact ⟨h.flags false d.canLogTimer, rfl, rfl⟩
  · have hlen : (j.start env.clock false).files.length = j.files.length + 1 := by
      rw [← j.length_closed]
      simp [Journal.start, Journal.files]
    have htext : (d.named j.files.length).found ++ header d.config env.clock =
        Session.text { config := j.config, clock := env.clock } := by
      rw [h.found_named hk, Session.text_new, h.config, List.nil_append]
    have hinsert := (h.synced hk.le).insert { config := j.config, clock := env.clock } (.inl rfl)
      (by rwa [j.length_closed])
    rw [j.length_closed] at hinsert
    refine ⟨⟨?_, ?_, h.config, h.overwriteLogs, h.buffer, h.direct, ?_, ?_⟩, rfl, rfl⟩
    · rw [Bool.not_true, hlen]
      exact h.below.logOpened hk env.clock
    · rw [Bool.not_true, hlen, logOpened_sessionCount]
      exact congrArg (· + 1) h.count
    · have hc : ((d.named j.files.length).logOpened env.clock).card =
          d.syncedCard.insert (logName (j.files.length + 1))
            ((d.named j.files.length).found ++ header d.config env.clock) := rfl
      rw [hc, htext]
      exact hinsert
    · have hf : ((d.named j.files.length).logOpened env.clock).dataFile =
          some ⟨logName (j.files.length + 1),
            (d.named j.files.length).found ++ header d.config env.clock,
            ((d.named j.files.length).found ++ header d.config env.clock).length⟩ := rfl
      rw [hf, htext, openFile, Bool.not_true, hlen]
      rfl

theorem Records.flush (h : Records d j) (hk : j.files.length ≤ maxLogNumber) :
    Records d.flushSdFile j.flush := by
  have hd : d.flushSdFile = d.sync := by
    rw [flushSdFile, drainBuffer, h.buffer]
    rfl
  have hfiles : j.flush.files = j.closed := by
    rw [Journal.files, Journal.closed, Journal.flush]
    cases j.current <;> rfl
  have hlen : j.flush.files.length = j.files.length := by rw [hfiles, j.length_closed]
  refine ⟨?_, ?_, ?_, ?_, ?_, ?_, ?_, ?_⟩
  · rw [hlen]
    rcases Nat.eq_zero_or_pos j.files.length with h₀ | hpos
    · have hs : d.sync = d := by
        rw [sync, syncedCard_of_none (h.below.blank h₀).file]
      rw [hd, hs]
      exact h.below
    · exact h.below.still hpos.ne' hk (flushSdFile_still d)
  · rw [hlen, hd]
    exact h.count
  · rw [hd]
    exact h.config
  · rw [hd]
    exact h.overwriteLogs
  · rw [hd]
    exact h.buffer
  · rw [hd]
    exact h.direct
  · rw [hd, hfiles]
    exact h.synced hk
  · rw [hd, openFile, hlen, sync_dataFile, h.file, openFile, Journal.flush]
    cases j.current <;> rfl

/-- What is printed to the open file is added to the session. -/
theorem Records.print (h : Records d j) (hk : j.files.length ≤ maxLogNumber) {p q s : Session}
    (hc : j.current = some (p, s)) {text : Bytes} (hq : q.text = p.text ++ text)
    (hs : Still d d') (hf : d'.dataFile = d.dataFile.map (·.write text)) (hcard : d'.card = d.card)
    (hbuf : d'.writeBuffer = []) (hdir : d'.noWriteFile = false)
    (hcount : sessionCount d'.trace = sessionCount d.trace) :
    Records d' { j with current := some (q, s) } := by
  have hfiles := Journal.files_print hc q
  have h₀ : j.files.length ≠ 0 := by
    rw [Journal.files, hc]
    simp
  refine ⟨?_, ?_, hs.config.trans h.config, by rw [hs.config, h.overwriteLogs], hbuf, hdir, ?_, ?_⟩
  · rw [hfiles]
    exact h.below.still h₀ hk hs
  · rw [hfiles, hcount, h.count]
  · rw [hfiles, hcard]
    exact h.holds
  · have hend := OpenFile.atEnd_mk (logName j.files.length) p.text
    rw [hf, h.file, openFile, openFile, hfiles, hc]
    simp only [Option.map_some]
    rw [hend.write_eq, hq]

/-- Whether the device logs as the journal does: the session that lines are added to
    has not ended. -/
structure Logs (d : Device) (j : Journal) : Prop where
  enabled : d.logEnabled = j.enabled
  size : d.maxLogSize = j.config.maxLogSize
  current : j.enabled = true → ∃ p s, j.current = some (p, s) ∧ p.full = false

theorem Logs.start {clock : Clock} (h : d.maxLogSize = j.config.maxLogSize)
    (he : d'.logEnabled = b) (hs : d'.maxLogSize = d.maxLogSize) :
    Logs d' (j.start clock (!b)) := by
  cases b with
  | false => exact ⟨he, hs.trans h, fun h => by cases h⟩
  | true => exact ⟨he, hs.trans h, fun _ => ⟨_, _, rfl, rfl⟩⟩

theorem ofWrite_not_isSession (e : Event) (h : e.OfWrite) : ¬ e.IsSession := by
  cases e <;> first | exact absurd h id | exact id

theorem Logs.flush (h : Logs d j) : Logs d.flushSdFile j.flush := by
  obtain ⟨_, _, _, _, hd⟩ := flushSdFile_filed d
  refine ⟨(flushSdFile_still d).enabled.trans h.enabled, by rw [hd]; exact h.size, fun he => ?_⟩
  obtain ⟨p, s, hc, hp⟩ := h.current he
  exact ⟨p, p, by rw [Journal.flush, hc]; rfl, hp⟩

/-- A line that is written is added to the session, and may end it. -/
theorem Records.write (h : Records d j) (hl : Logs d j) (hk : j.files.length < maxLogNumber)
    (ho : env.opens = true) (hw : Write env line d d') :
    ∃ refused, Records d' (j.write line env.clock refused) ∧
      Logs d' (j.write line env.clock refused) := by
  cases he : j.enabled with
  | false =>
    have hj (refused : Bool) : j.write line env.clock refused = j := by
      rw [Journal.write, he]
    cases hw with
    | disabled => exact ⟨true, by rw [hj]; exact h, by rw [hj]; exact hl⟩
    | buffered he' | printed he' | rotated he' =>
      exact absurd ((he'.symm.trans hl.enabled).trans he) (by decide)
  | true =>
    obtain ⟨p, s, hc, hp⟩ := hl.current he
    have hopen : d.opened = d := opened_of_isSome (by rw [h.file, openFile, hc]; rfl)
    have hprint : d.opened.printLine line = d.printFrames line := by
      rw [hopen, printLine, drainBuffer, h.buffer]
      rfl
    have hstill : Still d (d.printFrames line) := by
      rw [← hprint, hopen]
      exact printLine_still line d
    have hr : Records (d.printFrames line) { j with current := some (p.add line, s) } :=
      h.print hk.le hc (p.text_add hp line) hstill rfl rfl h.buffer h.direct
        ((printFrames_extends line d).sessionCount_eq ofWrite_not_isSession)
    have hsize : (d.printFrames line).dataFileSize = (p.add line).text.length := by
      have hfile := hr.file
      rw [openFile, Option.map_some] at hfile
      have hsize := dataFileSize_of_some hfile
      dsimp only at hsize
      exact hsize
    -- logging is enabled and not buffered, so the line is printed
    cases hw with
    | disabled he' => exact absurd ((he'.symm.trans hl.enabled).trans he) (by decide)
    | buffered _ hb => exact absurd (hb.symm.trans h.direct) (by decide)
    | printed _ _ hs =>
      rw [hprint, hsize, hl.size] at hs
      have hj : j.write line env.clock true = { j with current := some (p.add line, s) } := by
        rw [Journal.write, he, hc]
        exact if_neg (Nat.not_lt.2 hs)
      refine ⟨true, ?_, ?_⟩
      · rw [hj, hprint]
        exact hr
      · rw [hj, hprint]
        exact ⟨hl.enabled, hl.size, fun _ => ⟨_, _, rfl, hp⟩⟩
    | @rotated _ b _ _ _ hs hst =>
      rw [hprint, hsize, hl.size] at hs
      rw [hprint] at hst
      have hend : Records (d.printFrames line).printEndLogLine
          { j with current := some ((p.add line).fill, s) } :=
        hr.print (by rw [Journal.files_print hc]; exact hk.le) rfl
          (Session.text_fill (x := p.add line) hp)
          (.of_filed ⟨_, _, _, _, rfl⟩ (fun _ => id) fun _ => .inl) rfl rfl h.buffer h.direct rfl
      have hj : j.write line env.clock (!b) =
          Journal.start env.clock (!b) { j with current := some ((p.add line).fill, s) } := by
        rw [Journal.write, he, hc]
        exact if_pos hs
      obtain ⟨hr', he', hs'⟩ := hend.start (by rwa [Journal.files_print hc]) ho hst
      refine ⟨!b, ?_, ?_⟩
      · rw [hj]
        exact hr'
      · rw [hj]
        exact .start hl.size he' hs'

theorem Records.boot (h : Records d j) (hk : j.files.length < maxLogNumber) (config : ConfigManager)
    (ho : config.overwriteLogs = false) :
    Records (d.boot config) (j.boot config) ∧ (d.boot config).maxLogSize = config.maxLogSize := by
  have hfiles : (j.boot config).files = j.files := List.append_nil _
  have hbelow := h.below.boot hk config
  rw [boot_eq] at hbelow ⊢
  split at hbelow
  · next hr =>
    rw [if_pos hr]
    refine ⟨⟨?_, ?_, rfl, ho, rfl, rfl, ?_, rfl⟩, rfl⟩
    · rwa [hfiles]
    · rw [hfiles]
      exact h.count
    · rw [hfiles]
      exact h.holds
  · next hr =>
    rw [if_neg hr]
    refine ⟨⟨?_, ?_, rfl, ho, rfl, rfl, ?_, rfl⟩, rfl⟩
    · rwa [hfiles]
    · rw [hfiles]
      exact h.count
    · rw [hfiles]
      exact h.holds

end Device

/-! ## Runs of the program -/

/-- Logs are not overwritten, log files can be opened, and Wifi is disabled. -/
def BelowCapacity (_ : System) : Op → Prop
  | .boot config => config.overwriteLogs = false
  | .startLog _ env | .restartLogging _ env | .writeSdLine _ env _ _ => env.opens = true
  | .wifi _ => False
  | _ => True

instance (s : System) : ∀ op, Decidable (BelowCapacity s op)
  | .boot _ => inferInstanceAs (Decidable (_ = _))
  | .startLog _ _ | .restartLogging _ _ | .writeSdLine _ _ _ _ =>
    inferInstanceAs (Decidable (_ = _))
  | .wifi _ => inferInstanceAs (Decidable False)
  | .flushSdFile | .reopenFile _ | .setNoWriteFile _ => inferInstanceAs (Decidable True)

/-- The program follows the journal. -/
structure Follows (s : System) (j : Journal) : Prop where
  records : s.device.Records j
  size : s.phase ≠ .off → s.device.maxLogSize = j.config.maxLogSize
  logs : s.phase = .started ∨ s.phase = .looping → s.device.Logs j

theorem follows_initial (eeprom : EEPROM) : Follows (.initial ∅ eeprom) {} where
  records :=
    { below :=
        { overwriting := rfl
          name := ⟨0, le_rfl, default_eq⟩
          blank := fun _ => ⟨rfl, rfl, Nat.zero_le _⟩
          numbered := fun h => absurd rfl h }
      count := rfl
      config := rfl
      overwriteLogs := rfl
      buffer := rfl
      direct := rfl
      holds := holds_empty
      file := rfl }
  size := fun h => absurd rfl h
  logs := fun h => by rcases h with h | h <;> cases h

theorem Follows.lt {s : System} {j : Journal} (h : Follows s j)
    (hk : sessionCount s.device.trace < maxLogNumber) : j.files.length < maxLogNumber :=
  h.records.count ▸ hk

variable {s t : System} {j : Journal} {op : Op}

/-- A start, in any phase after the boot. -/
theorem Follows.start {fuel : ℕ} {env : Env} {b : Bool} {e : Device} {phase : Phase}
    (h : Follows s j) (hk : sessionCount s.device.trace < maxLogNumber) (hp : s.phase ≠ .off)
    (ho : env.opens = true) (hs : s.device.startLog fuel env = some (b, e)) :
    Follows ⟨phase, e⟩ (j.start env.clock (!b)) := by
  obtain ⟨hr, he, hsize⟩ := h.records.start (h.lt hk) ho hs
  have hl : e.Logs (j.start env.clock (!b)) := .start (h.size hp) he hsize
  exact ⟨hr, fun _ => hl.size, fun _ => hl⟩

/-- Every operation of the program is followed by the journal. -/
theorem Follows.step (h : Follows s j) (hk : sessionCount s.device.trace < maxLogNumber)
    (hg : BelowCapacity s op) (hs : program.step s op = some t) :
    ∃ refused k, journal.step j (op, refused) = some k ∧ Follows t k := by
  obtain ⟨phase, hp, hs⟩ := Option.bind_eq_some_iff.1 hs
  obtain ⟨d', hd, rfl⟩ := Option.map_eq_some_iff.1 hs
  obtain ⟨p, d⟩ := s
  cases op with
  | boot config =>
    cases hd
    obtain ⟨hr, hsize⟩ := h.records.boot (h.lt hk) config hg
    refine ⟨true, _, rfl, hr, fun _ => hsize, fun hl => ?_⟩
    cases p <;> cases hp <;> rcases hl with hl | hl <;> cases hl
  | startLog fuel env =>
    obtain ⟨⟨b, e⟩, hst, rfl⟩ := Option.map_eq_some_iff.1 hd
    have hoff : p ≠ .off := by
      rintro rfl
      cases hp
    obtain ⟨hr, he, hsize⟩ := h.records.start (h.lt hk) hg hst
    have hl : e.Logs (j.start env.clock (!b)) := .start (h.size hoff) he hsize
    have hr' := hr.flags e.logEnabled true
    have hj : { j.start env.clock (!b) with enabled := e.logEnabled } = j.start env.clock (!b) := by
      rw [hl.enabled]
    rw [hj] at hr'
    exact ⟨!b, _, rfl, hr', fun _ => hl.size, fun _ => ⟨hl.enabled, hl.size, hl.current⟩⟩
  | restartLogging fuel env =>
    obtain ⟨⟨b, e⟩, hst, rfl⟩ := Option.map_eq_some_iff.1 hd
    have hoff : p ≠ .off := by
      rintro rfl
      cases hp
    exact ⟨!b, _, rfl, h.start hk hoff hg hst⟩
  | writeSdLine fuel env opens line =>
    have hl : d.Logs j := by
      cases p <;> cases hp
      · exact h.logs (.inl rfl)
      · exact h.logs (.inr rfl)
    obtain ⟨refused, hr, hl'⟩ := h.records.write hl (h.lt hk) hg (Device.write_of_writeSdLine hd)
    exact ⟨refused, _, rfl, hr, fun _ => hl'.size, fun _ => hl'⟩
  | flushSdFile =>
    cases hd
    have hl : d.Logs j := by
      cases p <;> cases hp
      · exact h.logs (.inl rfl)
      · exact h.logs (.inr rfl)
    have hl' : d.flushSdFile.Logs j.flush := hl.flush
    exact ⟨true, _, rfl, h.records.flush (h.lt hk).le, fun _ => hl'.size, fun _ => hl'⟩
  | reopenFile succeeds => cases p <;> cases hp
  | setNoWriteFile b => cases p <;> cases hp
  | wifi w => exact absurd hg id

theorem program_sessionCount_le (hs : program.step s op = some t) :
    sessionCount s.device.trace ≤ sessionCount t.device.trace := by
  obtain ⟨phase, hp, hs⟩ := Option.bind_eq_some_iff.1 hs
  obtain ⟨d', hd, rfl⟩ := Option.map_eq_some_iff.1 hs
  exact (Device.exec_extends hd).sessionCount_le

/-- In every run of the program from an empty card and any EEPROM contents, with Wifi
    disabled, in which logs are not overwritten, log files can be opened, starts may
    be refused, and at most 998 sessions are opened, the program follows the journal:
    the log files are those of its sessions, and `data_file` has all of the current
    one. -/
theorem logs_of_journal (eeprom : EEPROM) {ops : List Op} {s : System}
    (h : program.Run BelowCapacity (.initial ∅ eeprom) ops s)
    (hk : sessionCount s.device.trace ≤ 998) :
    ∃ acts j, acts.map Prod.fst = ops ∧ journal.Run Machine.Free {} acts j ∧
      j.files.length = sessionCount s.device.trace ∧
      (∀ name, name ∈ s.device.card ↔ ∃ i < j.files.length, name = logName (i + 1)) ∧
      (∀ i x, j.files[i]? = some x → s.device.card.lookup (logName (i + 1)) = some x.text) ∧
      s.device.dataFile =
        j.current.map fun c => ⟨logName j.files.length, c.1.text, c.1.text.length⟩ := by
  obtain ⟨h₀, hr⟩ := h.of_final (P := fun s => sessionCount s.device.trace ≤ 998)
    (fun hs hk => (program_sessionCount_le hs).trans hk) hk
  obtain ⟨acts, j, hacts, hrun, hf, -⟩ := hr.simulates (n := journal) (f := Prod.fst)
    (R := fun s j => Follows s j ∧ sessionCount s.device.trace ≤ 998)
    (fun hR hg hs => by
      obtain ⟨refused, k, hj, hk⟩ := hR.1.step (Nat.lt_succ_of_le hR.2) hg.1 hs
      exact ⟨(_, refused), k, rfl, hj, hk, hg.2 _ hs⟩)
    ⟨follows_initial eeprom, h₀⟩
  have hlt : j.files.length < maxLogNumber := hf.lt (Nat.lt_succ_of_le hk)
  have hi {i : ℕ} {x : Session} (hx : j.files[i]? = some x) : i < maxLogNumber :=
    (List.getElem?_eq_some_iff.1 hx).1.trans hlt
  refine ⟨acts, j, hacts, hrun, hf.records.count.symm, fun name => ⟨fun hm => ?_, ?_⟩,
    fun i x hx => ?_, hf.records.file⟩
  · obtain ⟨i, hi, rfl⟩ := hf.records.holds.only name hm
    refine ⟨i, ?_, rfl⟩
    by_contra hge
    rw [← Finmap.lookup_isSome, hf.records.holds.file i hi,
      List.getElem?_eq_none (Nat.not_lt.1 hge)] at hm
    cases hm
  · rintro ⟨i, hi, rfl⟩
    rw [← Finmap.lookup_isSome, hf.records.holds.file i (hi.trans hlt), List.getElem?_eq_getElem hi]
    rfl
  · rw [hf.records.holds.file i (hi hx), hx]
    rfl

/-- A line is logged and another one lost, as a restart is refused in between; the next restart
    starts another log, with a line that a reboot finds. -/
def twoSessions : List Op :=
  [.boot {}, .startLog 1 .roomy, .writeSdLine 1 .roomy (fun _ => true) ['a'],
    .restartLogging 1 .full, .writeSdLine 1 .roomy (fun _ => true) ['b'],
    .restartLogging 1 .roomy, .writeSdLine 1 .roomy (fun _ => true) ['c'], .flushSdFile, .boot {}]

theorem logs_of_journal_twoSessions :
    ∃ s, program.Run BelowCapacity (.initial ∅ ⟨65535, 65535, 65535, 65535⟩) twoSessions s ∧
      sessionCount s.device.trace = 2 ∧
      ∃ acts j, acts.map Prod.fst = twoSessions ∧ journal.Run Machine.Free {} acts j ∧
        j.files.length = sessionCount s.device.trace ∧
        (∀ name, name ∈ s.device.card ↔ ∃ i < j.files.length, name = logName (i + 1)) ∧
        (∀ i x, j.files[i]? = some x → s.device.card.lookup (logName (i + 1)) = some x.text) ∧
        s.device.dataFile =
          j.current.map fun c => ⟨logName j.files.length, c.1.text, c.1.text.length⟩ := by
  obtain ⟨s, hrun, hk⟩ : ∃ s, program.Run BelowCapacity
      (.initial ∅ ⟨65535, 65535, 65535, 65535⟩) twoSessions s ∧
      sessionCount s.device.trace = 2 :=
    Machine.exists_run_of_any (by decide +kernel)
  exact ⟨s, hrun, hk, logs_of_journal _ hrun (by rw [hk]; decide)⟩

/-- A line written to a log with room, between the start of the log and the rest of
    the run. -/
theorem program_write {d : Device} {fuel : ℕ} {env : Env} {opens : ℕ → Bool} {line : Bytes}
    (hf : fuel ≠ 0) (he : d.logEnabled = true) (hb : d.noWriteFile = false)
    (ho : d.dataFile.isSome = true) (hs : (d.printLine line).dataFileSize ≤ d.maxLogSize) :
    program.step ⟨.started, d⟩ (.writeSdLine fuel env opens line) =
      some ⟨.started, d.printLine line⟩ := by
  have hw : Device.writeSdLine env fuel opens line d = some (d.printLine line) :=
    Device.writeSdLine_of_le hf he hb ho hs
  exact congrArg (Option.map (System.mk .started)) hw

/-- A line that is written after a boot before any log is started creates the file
    `CAN_000.log`; and of a line that was written and not flushed, a reboot leaves
    nothing in the log. -/
theorem history_not_exact :
    (∃ d, anyOrder.Run Machine.Free (Device.initial ∅ ⟨1, 0, 1, 0⟩)
        [.boot { maxLogSize := 5000 }, .writeSdLine 2 .roomy (fun _ => true) ['a']] d ∧
      sessionCount d.trace = 0 ∧ logName 0 ∈ d.card) ∧
    ∃ s, program.Run BelowCapacity (.initial ∅ ⟨1, 0, 1, 0⟩)
        [.boot { maxLogSize := 5000 }, .startLog 1 .roomy,
          .writeSdLine 1 .roomy (fun _ => true) ['a'], .boot {}, .startLog 1 .roomy] s ∧
      s.device.card.lookup (logName 1) = some (Device.header { maxLogSize := 5000 } {}) := by
  refine ⟨⟨_, .cons trivial rfl (.cons trivial rfl (.nil _)), rfl, by decide⟩, ⟨_, .cons rfl rfl
    (.cons rfl rfl (.cons rfl (program_write (by decide) rfl rfl rfl (by decide +kernel))
      (.cons rfl rfl (.cons rfl rfl (.nil _))))), ?_⟩⟩
  decide +kernel

end CanInsight
