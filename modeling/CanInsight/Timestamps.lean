import CanInsight.LogSize

/-!
# The time of a line

A line is stamped with the time since the log was started when its frame arrives, but
it may wait in the write buffer while another log is started.

* `Line`: a frame as it was stamped; `Sheet`: what was printed to a log since it was
  started; `Book`: the sheets of the logs, and the lines that wait;
* `stamped`: the calls in any order, with the book that is kept of the lines;
* `StartsWithoutLines`: no line waits when a log is named, and no log is reopened at a
  position that was lost;
* `lines_in_their_sessions`: then every line is in the log that it was stamped for.
-/

namespace CanInsight

open CString

/-- A frame line: the frame, the time of its arrival, in milliseconds since the boot, and
    the `log_start_millis` that it was stamped with. -/
structure Line where
  msg : CANMessage
  time : ℕ
  base : ℕ

namespace Line

/-- What is written. -/
def text (l : Line) : Bytes := canFrameToStr l.msg (u32 l.time) l.base

/-- The time in the first column, in milliseconds. -/
def stamp (l : Line) : ℕ := sinceLogStart (u32 l.time) l.base

end Line

/-- What the lines amount to. -/
def texts (ls : List Line) : Bytes := ls.flatMap Line.text

/-- What was printed to a log: when it was started, what it held then, the header
    included, and the lines since. -/
structure Sheet where
  start : ℕ
  head : Bytes
  lines : List Line := []

/-- More lines on the sheet. -/
def Sheet.add (ls : List Line) (s : Sheet) : Sheet := { s with lines := s.lines ++ ls }

/-- The sheets of the logs by their names, the lines in the write buffer, and lines that
    were printed to a file without a sheet. -/
structure Book where
  now : ℕ := 0
  waiting : List Line := []
  sheet : Name → Option Sheet := fun _ => none
  stray : List Line := []

/-- A call, the time of it, and the time when a log is started in it. -/
structure TimedOp where
  arrival : ℕ
  finish : ℕ
  op : LogOp

namespace Book

/-- The lines that wait, and some more, are printed to a file, or lost. -/
def print (file : Option Name) (ls : List Line) (b : Book) : Book :=
  match file with
  | none => { b with waiting := [] }
  | some name =>
    match b.sheet name with
    | none => { b with waiting := [], stray := b.stray ++ b.waiting ++ ls }
    | some s =>
      { b with
        waiting := []
        sheet := Function.update b.sheet name (some (s.add (b.waiting ++ ls))) }

/-- Where the lines go in a call, but for the start of a log. -/
def write (d : Device) (a : TimedOp) (b : Book) : Book :=
  match a.op with
  | .boot _ _ _ => { b with waiting := [] }
  | .canCallback msg _ _ _ _ =>
    let l : Line := ⟨msg, a.arrival, d.logStartMillis⟩
    if !d.logEnabled then b
    else if d.noWriteFile then
      if d.writeBuffer.length + l.text.length < 30000 then
        { b with waiting := b.waiting ++ [l] }
      else b
    else b.print (some (d.dataFile.elim d.logFile OpenFile.name)) [l]
  | .flushSdFile => b.print (d.dataFile.map OpenFile.name) []
  | _ => b

/-- A log was started, if its file could be opened. -/
def begin (time : ℕ) (d : Device) (b : Book) : Option (Name × Option Bytes) → Book
  | none => { b with now := time }
  | some (name, _) =>
    { b with
      now := time
      sheet := Function.update b.sheet name (d.dataFile.map fun f => ⟨time, f.data, []⟩) }

end Book

/-- The device, and the book of its lines. -/
structure Stamped where
  device : Device
  book : Book := {}

/-- The effect of a call. -/
def Stamped.step (s : Stamped) (a : TimedOp) : Option Stamped :=
  (s.device.logStep a.op).map fun d =>
    ⟨d, (s.book.write s.device a).begin a.finish d (startedSession s.device.trace d.trace)⟩

/-- The calls in any order, with the book of the lines. -/
def stamped : Machine Stamped TimedOp := ⟨Stamped.step⟩

/-- The calls follow each other in time, and read the millisecond counter, which begins
    again with a boot. -/
def InTime (s : Stamped) (a : TimedOp) : Prop :=
  a.arrival ≤ a.finish ∧
    match a.op with
    | .boot _ _ env => env.clock.startMillis = u32 a.finish
    | .restartLogging _ env => s.book.now ≤ a.arrival ∧ env.clock.startMillis = u32 a.finish
    | .canCallback _ millis _ env _ =>
      s.book.now ≤ a.arrival ∧ millis = u32 a.arrival ∧ env.clock.startMillis = u32 a.finish
    | _ => s.book.now ≤ a.arrival

instance (s : Stamped) : ∀ a, Decidable (InTime s a)
  | ⟨_, _, .canCallback _ _ _ _ _⟩ => inferInstanceAs (Decidable (_ ∧ _ ∧ _ ∧ _))
  | ⟨_, _, .restartLogging _ _⟩ => inferInstanceAs (Decidable (_ ∧ _ ∧ _))
  | ⟨_, _, .boot _ _ _⟩ => inferInstanceAs (Decidable (_ ∧ _ = _))
  | ⟨_, _, .flushSdFile⟩ | ⟨_, _, .reopenFile _⟩ | ⟨_, _, .setFlags _ _⟩ | ⟨_, _, .transfer _⟩
  | ⟨_, _, .acceptUpload _ _⟩ => inferInstanceAs (Decidable (_ ∧ _ ≤ _))

/-- No line waits when `restart_logging` calls `set_next_log_filename`, and `reopen_file`
    finds `data_file` open, if lines are logged or wait. -/
def StartsWithoutLines (s : Stamped) (a : TimedOp) : Prop :=
  match a.op with
  | .restartLogging _ env =>
    ∀ p, Device.EntersStart env s.device p → s.device.writeBuffer = []
  | .reopenFile _ =>
    s.device.logEnabled = true ∨ s.device.writeBuffer ≠ [] → s.device.dataFile.isSome = true
  | _ => True

namespace Sheet

/-- The content of a file is what a sheet says: after what the log held when it was
    started, unless the file was removed since, come lines of the sheet, and the line
    that closes the log, if any. -/
def Records (s : Sheet) (content : Bytes) : Prop :=
  ∃ head ls tail, content = head ++ texts ls ++ tail ∧
    (head = [] ∨ head = s.head) ∧ ls <:+: s.lines ∧ (tail = [] ∨ tail = eofLine)

/-- The content of a file that lines are added to: the latest lines are at its end. -/
def Continues (s : Sheet) (content : Bytes) : Prop :=
  ∃ head ls, content = head ++ texts ls ∧ (head = [] ∨ head = s.head) ∧ ls <:+ s.lines

/-- The lines were stamped with the start of the log, and came one after the other. -/
structure Ordered (s : Sheet) : Prop where
  base : ∀ l ∈ s.lines, l.base = u32 s.start ∧ s.start ≤ l.time
  times : (s.lines.map Line.time).Pairwise (· ≤ ·)

variable {s : Sheet} {content : Bytes} {ls : List Line}

theorem records_nil (s : Sheet) : s.Records [] :=
  ⟨[], [], [], rfl, .inl rfl, List.nil_infix, .inl rfl⟩

theorem continues_nil (s : Sheet) : s.Continues [] := ⟨[], [], rfl, .inl rfl, List.nil_suffix⟩

theorem Continues.records (h : s.Continues content) : s.Records content := by
  obtain ⟨head, ls, hc, hh, hl⟩ := h
  exact ⟨head, ls, [], by rw [hc, List.append_nil], hh, hl.isInfix, .inl rfl⟩

/-- The line that closes the log. -/
theorem Continues.close (h : s.Continues content) : s.Records (content ++ eofLine) := by
  obtain ⟨head, ls, hc, hh, hl⟩ := h
  exact ⟨head, ls, eofLine, by rw [hc], hh, hl.isInfix, .inr rfl⟩

theorem texts_append (ls ls' : List Line) : texts (ls ++ ls') = texts ls ++ texts ls' :=
  List.flatMap_append

theorem Continues.add (h : s.Continues content) (ls : List Line) :
    (s.add ls).Continues (content ++ texts ls) := by
  obtain ⟨head, ls', hc, hh, pre, hl⟩ := h
  refine ⟨head, ls' ++ ls, by rw [hc, texts_append, List.append_assoc], hh, pre, ?_⟩
  rw [Sheet.add, ← hl, List.append_assoc]

theorem Records.add (h : s.Records content) (ls : List Line) : (s.add ls).Records content := by
  obtain ⟨head, ls', tail, hc, hh, hl, ht⟩ := h
  exact ⟨head, ls', tail, hc, hh, hl.trans (List.prefix_append s.lines ls).isInfix, ht⟩

/-- In the first `2 ^ 32` milliseconds, the times in the first column do not decrease. -/
theorem Ordered.stamps (h : s.Ordered) (hlt : ∀ l ∈ s.lines, l.time < s.start + 2 ^ 32) :
    (s.lines.map Line.stamp).Pairwise (· ≤ ·) := by
  have hstamp (l : Line) (hl : l ∈ s.lines) : l.stamp = l.time - s.start := by
    obtain ⟨hb, hs⟩ := h.base l hl
    rw [Line.stamp, hb]
    exact sinceLogStart_of_lt hs (hlt l hl)
  have ht := List.pairwise_map.1 h.times
  refine List.pairwise_map.2 (ht.imp_of_mem fun {l l'} hl hl' hle => ?_)
  rw [hstamp l hl, hstamp l' hl']
  exact Nat.sub_le_sub_right hle _

theorem Ordered.of_add (h : (s.add ls).Ordered) : s.Ordered := by
  refine ⟨fun l hl => h.base l (List.mem_append_left _ hl), ?_⟩
  have ht := h.times
  rw [Sheet.add, List.map_append] at ht
  exact (List.pairwise_append.1 ht).1

end Sheet

namespace Device

variable {fuel : ℕ} {env : Env} {r : Bool} {d d' e : Device} {b : Book} {s : Sheet} {name : Name}
  {content : Bytes}

/-- Lines are added to the log of the sheet: they are stamped with its start, and
    `data_file`, or the file that it is to be opened on, goes on from them. -/
structure Adding (d : Device) (b : Book) (s : Sheet) : Prop where
  sheet : b.sheet d.logFile = some s
  base : d.logStartMillis = u32 s.start
  ordered : (s.add b.waiting).Ordered
  start_le : s.start ≤ b.now
  times_le : ∀ l ∈ s.lines ++ b.waiting, l.time ≤ b.now
  viewed : ∀ f, d.dataFile = some f → f.name = d.logFile ∧ f.AtEnd ∧ s.Continues f.data
  stored : d.dataFile = none → ∀ content, d.card.lookup d.logFile = some content →
    s.Continues content

/-- The book agrees with the device. -/
structure Agrees (d : Device) (b : Book) : Prop where
  buffer : d.writeBuffer = texts b.waiting
  stray : b.stray = []
  ordered : ∀ name s, b.sheet name = some s → s.Ordered
  stored : ∀ name s, b.sheet name = some s → ∀ content, d.card.lookup name = some content →
    s.Records content
  viewed : ∀ f, d.dataFile = some f → ∀ s, b.sheet f.name = some s → s.Records f.data
  adding : d.logEnabled = true ∨ b.waiting ≠ [] → ∃ s, Adding d b s

theorem length_text_pos (l : Line) : 0 < l.text.length := length_canFrameToStr_pos _ _ _

theorem texts_eq_nil {ls : List Line} : texts ls = [] ↔ ls = [] := by
  refine ⟨fun h => ?_, fun h => by rw [h]; rfl⟩
  cases ls with
  | nil => rfl
  | cons l ls =>
    rw [texts, List.flatMap_cons] at h
    have hpos := length_text_pos l
    rw [(List.append_eq_nil_iff.1 h).1] at hpos
    exact absurd hpos (Nat.lt_irrefl 0)

theorem Agrees.waiting_eq_nil (h : Agrees d b) : b.waiting = [] ↔ d.writeBuffer = [] := by
  rw [h.buffer, texts_eq_nil]

theorem Agrees.later {t : ℕ} (h : Agrees d b) (ht : b.now ≤ t) : Agrees d { b with now := t } where
  buffer := h.buffer
  stray := h.stray
  ordered := h.ordered
  stored := h.stored
  viewed := h.viewed
  adding he := by
    obtain ⟨s, ha⟩ := h.adding he
    exact ⟨s, ha.sheet, ha.base, ha.ordered, ha.start_le.trans ht,
      fun l hl => (ha.times_le l hl).trans ht, ha.viewed, ha.stored⟩

/-- The flags and the trace are of no account. -/
theorem Agrees.of_flags (h : Agrees d b) (timer noWrite : Bool) (trace : List Event) :
    Agrees { d with canLogTimer := timer, noWriteFile := noWrite, trace := trace } b where
  buffer := h.buffer
  stray := h.stray
  ordered := h.ordered
  stored := h.stored
  viewed := h.viewed
  adding he := by
    obtain ⟨s, ha⟩ := h.adding he
    exact ⟨s, ha.sheet, ha.base, ha.ordered, ha.start_le, ha.times_le, ha.viewed, ha.stored⟩

/-- The removal of files, as long as lines are added to the same log. -/
theorem Agrees.shrinks (h : Agrees d b) (hs : Shrinks d e)
    (hlog : e.logEnabled = true ∨ b.waiting ≠ [] →
      (d.logEnabled = true ∨ b.waiting ≠ []) ∧ e.logFile = d.logFile ∧
        e.logStartMillis = d.logStartMillis) : Agrees e b where
  buffer := hs.buffer.trans h.buffer
  stray := h.stray
  ordered := h.ordered
  stored name s hn content hc := h.stored name s hn content (hs.card name content hc)
  viewed f hf := h.viewed f (hs.file ▸ hf)
  adding he := by
    obtain ⟨he, hn, hm⟩ := hlog he
    obtain ⟨s, ha⟩ := h.adding he
    refine ⟨s, hn ▸ ha.sheet, hm ▸ ha.base, ha.ordered, ha.start_le, ha.times_le, ?_, ?_⟩
    · rw [hs.file, hn]
      exact ha.viewed
    · rw [hs.file, hn]
      exact fun hf content hc => ha.stored hf content (hs.card _ content hc)

/-! ## Printing -/

/-- Nothing is printed. -/
theorem print_nil (hw : b.waiting = []) (file : Option Name) : b.print file [] = b := by
  cases file with
  | none => rw [Book.print, ← hw]
  | some name =>
    cases hs : b.sheet name with
    | none =>
      rw [Book.print, hs]
      simp only [hw, List.append_nil]
      rw [← hw]
    | some s =>
      have hadd : s.add ([] ++ []) = s := by
        rw [Sheet.add]
        simp
      rw [Book.print, hs]
      simp only [hw, hadd]
      rw [← hs, Function.update_eq_self, ← hw]

/-- The lines are lost when `data_file` is closed. -/
theorem Agrees.lose (h : Agrees d b) (hf : d.dataFile = none) :
    Agrees d.drainBuffer (b.print none []) := by
  rw [drainBuffer_eq]
  refine ⟨rfl, h.stray, h.ordered, h.stored, ?_, fun he => ?_⟩
  · intro f hf'
    rw [hf] at hf'
    cases hf'
  · obtain ⟨s, ha⟩ := h.adding (he.imp id fun hne => absurd rfl hne)
    refine ⟨s, ha.sheet, ha.base, ?_, ha.start_le, fun l hl => ?_, ?_, fun _ => ha.stored hf⟩
    · have ho := ha.ordered.of_add
      rwa [Sheet.add, Book.print, List.append_nil]
    · rw [Book.print, List.append_nil] at hl
      exact ha.times_le l (List.mem_append_left _ hl)
    · intro f hf'
      rw [hf] at hf'
      cases hf'

/-- The lines that wait, and some more that were stamped just now, are printed to the end
    of the log. -/
theorem Agrees.print {f g : OpenFile} (h : Agrees d b) (ha : Adding d b s)
    (hf : d.dataFile = some f) (ls : List Line) (hls : (s.add (b.waiting ++ ls)).Ordered)
    (hnow : ∀ l ∈ ls, l.time ≤ b.now) (hcard : e.card = d.card) (hlog : e.logFile = d.logFile)
    (hbase : e.logStartMillis = d.logStartMillis) (hg : e.dataFile = some g) (hend : g.AtEnd)
    (hname : g.name = f.name) (hdata : g.data = f.data ++ texts (b.waiting ++ ls))
    (hbuf : e.writeBuffer = []) :
    Agrees e (b.print (some f.name) ls) ∧
      Adding e (b.print (some f.name) ls) (s.add (b.waiting ++ ls)) := by
  obtain ⟨hfn, -, hc⟩ := ha.viewed f hf
  have hprint : b.print (some f.name) ls =
      { b with
        waiting := []
        sheet := Function.update b.sheet f.name (some (s.add (b.waiting ++ ls))) } := by
    rw [Book.print, hfn, ha.sheet]
  have hcont : (s.add (b.waiting ++ ls)).Continues g.data := by
    rw [hdata]
    exact hc.add _
  have hself : Function.update b.sheet f.name (some (s.add (b.waiting ++ ls))) f.name =
      some (s.add (b.waiting ++ ls)) := Function.update_self _ _ _
  have hother {name : Name} (hn : name ≠ f.name) : Function.update b.sheet f.name
      (some (s.add (b.waiting ++ ls))) name = b.sheet name := Function.update_of_ne hn _ _
  have hadding : Adding e (b.print (some f.name) ls) (s.add (b.waiting ++ ls)) := by
    rw [hprint]
    refine ⟨by rw [hlog, ← hfn]; exact hself, hbase.trans ha.base, ?_, ha.start_le, ?_, ?_, ?_⟩
    · rw [Sheet.add, List.append_nil]
      exact hls
    · intro l hl
      rw [List.append_nil] at hl
      rcases List.mem_append.1 hl with hl | hl
      · exact ha.times_le l (List.mem_append_left _ hl)
      · rcases List.mem_append.1 hl with hl | hl
        · exact ha.times_le l (List.mem_append_right _ hl)
        · exact hnow l hl
    · intro g' hg'
      rw [hg] at hg'
      cases hg'
      exact ⟨hname.trans (hfn.trans hlog.symm), hend, hcont⟩
    · intro hn
      rw [hg] at hn
      cases hn
  refine ⟨?_, hadding⟩
  rw [hprint] at hadding ⊢
  refine ⟨hbuf, h.stray, fun name t ht => ?_, fun name t ht content hc' => ?_,
    fun g' hg' t ht => ?_, fun _ => ⟨_, hadding⟩⟩
  · by_cases hn : name = f.name
    · subst hn
      cases hself.symm.trans ht
      exact hls
    · exact h.ordered name t ((hother hn).symm.trans ht)
  · rw [hcard] at hc'
    by_cases hn : name = f.name
    · subst hn
      cases hself.symm.trans ht
      exact (h.stored f.name s (hfn ▸ ha.sheet) content hc').add _
    · exact h.stored name t ((hother hn).symm.trans ht) content hc'
  · rw [hg] at hg'
    cases hg'
    rw [hname] at ht
    cases hself.symm.trans ht
    exact hcont.records

theorem Agrees.drainBuffer (h : Agrees d b) :
    Agrees d.drainBuffer (b.print (d.dataFile.map OpenFile.name) []) := by
  cases hf : d.dataFile with
  | none => exact h.lose hf
  | some f =>
    by_cases hw : b.waiting = []
    · -- nothing waits, and nothing happens
      have hd : d.drainBuffer = d := by
        rw [Device.drainBuffer, h.waiting_eq_nil.1 hw]
        rfl
      rw [hd, print_nil hw]
      exact h
    · obtain ⟨s, ha⟩ := h.adding (.inr hw)
      obtain ⟨-, hend, -⟩ := ha.viewed f hf
      have hls : (s.add (b.waiting ++ [])).Ordered := by
        rw [List.append_nil]
        exact ha.ordered
      have hdata : (f.write d.writeBuffer).data = f.data ++ texts (b.waiting ++ []) := by
        rw [List.append_nil, ← h.buffer, hend.write_data]
      refine (h.print ha hf [] hls (fun _ hl => absurd hl List.not_mem_nil)
        (g := f.write d.writeBuffer) ?_ ?_ ?_ ?_ hend.write rfl hdata ?_).1
      · rw [drainBuffer_eq]
      · rw [drainBuffer_eq]
        rfl
      · rw [drainBuffer_eq]
      · rw [drainBuffer_eq, hf]
        rfl
      · rw [drainBuffer_eq]

/-! ## Flushing and reopening -/

theorem syncedCard_lookup_open {f : OpenFile} (hf : d.dataFile = some f)
    (hc : d.syncedCard.lookup f.name = some content) : content = f.data := by
  by_cases hm : f.name ∈ d.card
  · rw [syncedCard_of_mem hf hm, Finmap.lookup_insert] at hc
    exact (Option.some.inj hc).symm
  · rw [syncedCard_of_not_mem hf hm, Finmap.lookup_eq_none.2 hm] at hc
    cases hc

theorem Agrees.syncedCard (h : Agrees d b) (hs : b.sheet name = some s)
    (hc : d.syncedCard.lookup name = some content) : s.Records content := by
  rcases syncedCard_lookup_cases hc with hc | ⟨f, hf, rfl, rfl⟩
  · exact h.stored name s hs content hc
  · exact h.viewed f hf s hs

theorem Agrees.sync (h : Agrees d b) : Agrees d.sync b where
  buffer := h.buffer
  stray := h.stray
  ordered := h.ordered
  stored _ _ hs _ hc := h.syncedCard hs hc
  viewed := h.viewed
  adding he := by
    obtain ⟨s, ha⟩ := h.adding he
    refine ⟨s, ha.sheet, ha.base, ha.ordered, ha.start_le, ha.times_le, ha.viewed, ?_⟩
    intro hf content hc
    have hcard : d.sync.card = d.card := syncedCard_of_none hf
    exact ha.stored hf content (hcard ▸ hc)

theorem Agrees.flushSdFile (h : Agrees d b) :
    Agrees d.flushSdFile (b.print (d.dataFile.map OpenFile.name) []) := h.drainBuffer.sync

theorem Agrees.closeDataFile (h : Agrees d b) : Agrees d.closeDataFile b where
  buffer := h.buffer
  stray := h.stray
  ordered := h.ordered
  stored _ _ hs _ hc := h.syncedCard hs hc
  viewed f hf := by cases hf
  adding he := by
    obtain ⟨s, ha⟩ := h.adding he
    refine ⟨s, ha.sheet, ha.base, ha.ordered, ha.start_le, ha.times_le, ?_, ?_⟩
    · rintro _ ⟨⟩
    · intro _ content hc
      have hc : d.syncedCard.lookup d.logFile = some content := hc
      cases hf : d.dataFile with
      | none =>
        rw [syncedCard_of_none hf] at hc
        exact ha.stored hf content hc
      | some f =>
        obtain ⟨hn, -, hcont⟩ := ha.viewed f hf
        rw [← hn] at hc
        rw [syncedCard_lookup_open hf hc]
        exact hcont

/-- What the log holds when it is opened. -/
theorem Agrees.openDataFile (h : Agrees d b) (hf : d.dataFile = none) (succeeds : Bool) :
    Agrees (d.openDataFile succeeds) b := by
  have hcard {name : Name} {content : Bytes}
      (hc : (d.openDataFile succeeds).card.lookup name = some content) :
      d.card.lookup name = some content ∨ content = [] := by
    rw [openDataFile_card] at hc
    split at hc
    · by_cases hn : name = d.logFile
      · rw [hn, Finmap.lookup_insert] at hc
        exact .inr (Option.some.inj hc).symm
      · exact .inl (by rwa [Finmap.lookup_insert_of_ne _ hn] at hc)
    · exact .inl hc
  have hfile {f : OpenFile} (hf : (d.openDataFile succeeds).dataFile = some f) :
      f.name = d.logFile ∧ f.AtEnd ∧ (d.card.lookup d.logFile = some f.data ∨ f.data = []) := by
    rw [openDataFile_dataFile] at hf
    split at hf
    · cases hf
      refine ⟨rfl, rfl, ?_⟩
      cases hc : d.card.lookup d.logFile with
      | none => exact .inr rfl
      | some content => exact .inl rfl
    · cases hf
  refine ⟨h.buffer, h.stray, h.ordered, fun name s hs content hc => ?_, fun f hf s hs => ?_,
    fun he => ?_⟩
  · rcases hcard hc with hc | rfl
    · exact h.stored name s hs content hc
    · exact s.records_nil
  · obtain ⟨hn, -, hd | hd⟩ := hfile hf
    · exact h.stored _ s hs _ (hn ▸ hd)
    · rw [hd]
      exact s.records_nil
  · -- lines that wait go on the sheet of the log, open or not
    obtain ⟨s, ha⟩ := h.adding he
    refine ⟨s, ha.sheet, ha.base, ha.ordered, ha.start_le, ha.times_le, fun f hf' => ?_,
      fun _ content hc => ?_⟩
    · obtain ⟨hn, hend, hd | hd⟩ := hfile hf'
      · exact ⟨hn, hend, ha.stored hf _ hd⟩
      · rw [hd]
        exact ⟨hn, hend, s.continues_nil⟩
    · rcases hcard hc with hc | rfl
      · exact ha.stored hf content hc
      · exact s.continues_nil

/-- Reopening the log at the position of `data_file`, if lines go there. -/
theorem Agrees.reopenFile (h : Agrees d b) (succeeds : Bool)
    (ho : d.logEnabled = true ∨ b.waiting ≠ [] → d.dataFile.isSome = true) :
    Agrees (d.reopenFile succeeds) b := by
  have hk := h.closeDataFile.openDataFile rfl succeeds
  have hfile {g : OpenFile} (hg : (d.reopenFile succeeds).dataFile = some g) :
      ∃ f, (d.closeDataFile.openDataFile succeeds).dataFile = some f ∧
        f.seek d.dataFilePosition = g := Option.map_eq_some_iff.1 hg
  refine ⟨hk.buffer, hk.stray, hk.ordered, hk.stored, fun g hg s hs => ?_, fun he => ?_⟩
  · obtain ⟨f, hf, rfl⟩ := hfile hg
    rw [OpenFile.seek_name] at hs
    rw [OpenFile.seek_data]
    exact hk.viewed f hf s hs
  · obtain ⟨s, ha⟩ := hk.adding he
    refine ⟨s, ha.sheet, ha.base, ha.ordered, ha.start_le, ha.times_le, fun g hg => ?_,
      fun hn => ?_⟩
    · obtain ⟨f, hf, rfl⟩ := hfile hg
      obtain ⟨hn, hend, hc⟩ := ha.viewed f hf
      refine ⟨(OpenFile.seek_name _).trans hn, ?_, by rwa [OpenFile.seek_data]⟩
      -- the position is at the end of what was closed, which is what is opened
      obtain ⟨f₀, hf₀⟩ := Option.isSome_iff_exists.1 (ho he)
      obtain ⟨s₀, ha₀⟩ := h.adding he
      obtain ⟨hn₀, hend₀, -⟩ := ha₀.viewed f₀ hf₀
      have hpos : d.dataFilePosition = f₀.data.length := by
        rw [dataFilePosition, hf₀]
        exact hend₀
      refine hend.seek ?_
      rw [openDataFile_dataFile] at hf
      split at hf
      · cases hf
        rw [hpos]
        cases hc : d.syncedCard.lookup d.logFile with
        | none =>
          have hl : d.closeDataFile.card.lookup d.closeDataFile.logFile = none := hc
          rw [hl]
          exact Nat.zero_le _
        | some content =>
          have hl : d.closeDataFile.card.lookup d.closeDataFile.logFile = some content := hc
          rw [hl, ← syncedCard_lookup_open hf₀ (hn₀ ▸ hc)]
          exact le_rfl
      · cases hf
    · exact ha.stored (Option.map_eq_none_iff.1 hn)

/-! ## Starting a log -/

theorem Agrees.disabled (h : Agrees d b) : Agrees { d with logEnabled := false } b :=
  h.shrinks ⟨fun _ _ => id, rfl, rfl, rfl, rfl⟩ fun he =>
    ⟨.inr (he.resolve_left Bool.false_ne_true), rfl, rfl⟩

theorem Agrees.logOpened {found : Option Bytes} {clock : Clock} {t : ℕ} (h : Agrees d b)
    (hw : b.waiting = []) (hc : clock.startMillis = u32 t) :
    Agrees (d.logOpened clock) (b.begin t (d.logOpened clock) (some (d.logFile, found))) := by
  have hself : Function.update b.sheet d.logFile ((d.logOpened clock).dataFile.map
      fun f => (⟨t, f.data, []⟩ : Sheet)) d.logFile =
        some ⟨t, d.found ++ header d.config clock, []⟩ := Function.update_self _ _ _
  have hother {name : Name} (hn : name ≠ d.logFile) : Function.update b.sheet d.logFile
      ((d.logOpened clock).dataFile.map fun f => (⟨t, f.data, []⟩ : Sheet)) name = b.sheet name :=
    Function.update_of_ne hn _ _
  have hcont : (⟨t, d.found ++ header d.config clock, []⟩ : Sheet).Continues
      (d.found ++ header d.config clock) :=
    ⟨_, [], (List.append_nil _).symm, .inr rfl, List.suffix_rfl⟩
  refine ⟨h.buffer, h.stray, fun name s hs => ?_, fun name s hs content hc' => ?_,
    fun f hf s hs => ?_, fun _ => ⟨⟨t, d.found ++ header d.config clock, []⟩, hself, hc, ?_, le_rfl,
      ?_, fun f hf => ?_, ?_⟩⟩
  · by_cases hn : name = d.logFile
    · subst hn
      cases hself.symm.trans hs
      exact ⟨fun _ hl => absurd hl List.not_mem_nil, .nil⟩
    · exact h.ordered name s ((hother hn).symm.trans hs)
  · rw [logOpened_card] at hc'
    by_cases hn : name = d.logFile
    · subst hn
      cases hself.symm.trans hs
      rw [Finmap.lookup_insert] at hc'
      cases hc'
      exact hcont.records
    · rw [Finmap.lookup_insert_of_ne _ hn] at hc'
      exact h.syncedCard ((hother hn).symm.trans hs) hc'
  · rw [logOpened_dataFile] at hf
    cases hf
    cases hself.symm.trans hs
    exact hcont.records
  · rw [Book.begin, hw]
    exact ⟨fun _ hl => absurd hl List.not_mem_nil, .nil⟩
  · rw [Book.begin, hw]
    exact fun _ hl => absurd hl List.not_mem_nil
  · rw [logOpened_dataFile] at hf
    cases hf
    exact ⟨rfl, rfl, hcont⟩
  · rintro ⟨⟩

theorem Agrees.logNotOpened {found : Option Bytes} {t : ℕ} (h : Agrees d b) (hw : b.waiting = [])
    (he : d.logNotOpened.logEnabled = false) :
    Agrees d.logNotOpened (b.begin t d.logNotOpened (some (d.logFile, found))) := by
  have hsheet {name : Name} {s : Sheet}
      (hs : Function.update b.sheet d.logFile none name = some s) : b.sheet name = some s := by
    by_cases hn : name = d.logFile
    · rw [hn, Function.update_self] at hs
      cases hs
    · rwa [Function.update_of_ne hn] at hs
  refine ⟨h.buffer, h.stray, fun name s hs => h.ordered name s (hsheet hs),
    fun name s hs content hc => h.syncedCard (hsheet hs) hc, ?_, fun ha => ?_⟩
  · rintro _ ⟨⟩
  · rcases ha with ha | ha
    · exact absurd (he.symm.trans ha) (by decide)
    · exact absurd hw ha

/-- A log is started while no line waits, unless there is no space. -/
theorem Agrees.startLog {t : ℕ} (h : Agrees { d with logEnabled := false } b)
    (hw : ∀ p, EntersStart env d p → d.writeBuffer = []) (hc : env.clock.startMillis = u32 t)
    (ht : b.now ≤ t) (hs : d.startLog fuel env = some (r, d')) :
    Agrees d' (b.begin t d' (startedSession d.trace d'.trace)) := by
  have hwait {p : Device} (hp : EntersStart env d p) : b.waiting = [] :=
    h.waiting_eq_nil.2 (hw p hp)
  have hnone {e : Device} (he : e.logEnabled = false) (hb : b.waiting = [])
      (hx : e.logEnabled = true ∨ b.waiting ≠ []) : False := by
    rcases hx with hx | hx
    · exact absurd (he.symm.trans hx) (by decide)
    · exact hx hb
  have hfreed {r : Bool} {e : Device}
      (hck : checkSdFreeSpace fuel env { d with logEnabled := false } = some (r, e)) :
      Agrees e b := by
    have hsh := checkSdFreeSpace_shrinks hck
    obtain ⟨_, _, _, _, rfl⟩ := checkSdFreeSpace_freed hck
    exact h.shrinks hsh fun hx => ⟨hx, rfl, rfl⟩
  have hnamed {e f : Device} {r : Bool}
      (hck : checkSdFreeSpace fuel env { d with logEnabled := false } = some (true, e))
      (hn : NextLog fuel env e r f) : Agrees f b := by
    have hf : f.logEnabled = false := by
      have he : f.logEnabled = e.logEnabled := by cases hn <;> rfl
      obtain ⟨_, _, _, _, rfl⟩ := checkSdFreeSpace_freed hck
      exact he
    exact (hfreed hck).shrinks hn.shrinks fun hx => (hnone hf (hwait ⟨fuel, hck⟩) hx).elim
  cases start_of_startLog hs with
  | noSpace hck =>
    rw [(freed_extends hck).startedSession_eq isRemoved_not_isSession]
    exact (hfreed hck).later ht
  | noName hck hn =>
    rw [((freed_extends hck).trans hn.extends).startedSession_eq isRemoved_not_isSession]
    exact (hnamed hck hn).later ht
  | notOpened hck hn =>
    rw [startedSession_of_named hck hn, startedSession_logNotOpened]
    exact (hnamed hck hn).logNotOpened (hwait ⟨fuel, hck⟩) (logEnabled_of_startLog hs)
  | opened hck hn =>
    rw [startedSession_of_named hck hn, startedSession_logOpened]
    exact (hnamed hck hn).logOpened (hwait ⟨fuel, hck⟩) hc

/-! ## A frame arrives -/

theorem print_now (b : Book) (t : ℕ) (file : Option Name) (ls : List Line) :
    ({ b with now := t } : Book).print file ls = { b.print file ls with now := t } := by
  cases file with
  | none => rfl
  | some name =>
    rw [Book.print, Book.print]
    dsimp only
    split <;> rfl

/-- A line that was stamped just now comes after those before it. -/
theorem Adding.ordered_add (ha : Adding d b s) {l : Line} (hl : l.base = d.logStartMillis)
    (ht : b.now ≤ l.time) : (s.add (b.waiting ++ [l])).Ordered := by
  have hadd : s.add (b.waiting ++ [l]) = (s.add b.waiting).add [l] := by
    simp only [Sheet.add, List.append_assoc]
  rw [hadd]
  refine ⟨fun k hk => ?_, ?_⟩
  · rcases List.mem_append.1 hk with hk | hk
    · exact ha.ordered.base k hk
    · rw [List.mem_singleton.1 hk, hl]
      exact ⟨ha.base, ha.start_le.trans ht⟩
  · rw [Sheet.add, List.map_append]
    refine List.pairwise_append.2 ⟨ha.ordered.times, List.pairwise_singleton _ _, ?_⟩
    rintro _ hm _ hm'
    obtain ⟨k, hk, rfl⟩ := List.mem_map.1 hm
    obtain ⟨k', hk', rfl⟩ := List.mem_map.1 hm'
    rw [List.mem_singleton.1 hk']
    exact (ha.times_le k hk).trans ht

theorem Agrees.opened (h : Agrees d b) : Agrees d.opened b := by
  rw [Device.opened]
  split
  · exact h
  · next ho => exact h.openDataFile (Option.not_isSome_iff_eq_none.1 ho) true

theorem Agrees.bufferLine {l : Line} (h : Agrees d b) (he : d.logEnabled = true)
    (hl : l.base = d.logStartMillis) (ht : b.now ≤ l.time) {t : ℕ} (hlt : l.time ≤ t) :
    Agrees (d.bufferLine l.text)
      { (if d.writeBuffer.length + l.text.length < 30000 then { b with waiting := b.waiting ++ [l] }
        else b) with now := t } := by
  have hk := h.later (ht.trans hlt)
  rw [Device.bufferLine]
  split
  · next hover =>
    rw [if_neg (by omega)]
    exact hk.of_flags d.canLogTimer d.noWriteFile _
  · split
    · obtain ⟨s, ha⟩ := h.adding (.inl he)
      refine ⟨?_, h.stray, h.ordered, h.stored, h.viewed, fun _ => ⟨s, ha.sheet, ha.base,
        ha.ordered_add hl ht, ha.start_le.trans (ht.trans hlt), fun k hk => ?_, ha.viewed,
        ha.stored⟩⟩
      · rw [Sheet.texts_append, ← h.buffer]
        exact congrArg (d.writeBuffer ++ ·) (List.append_nil l.text).symm
      · rw [← List.append_assoc] at hk
        rcases List.mem_append.1 hk with hk | hk
        · exact (ha.times_le k hk).trans (ht.trans hlt)
        · rw [List.mem_singleton.1 hk]
          exact hlt
    · exact hk

/-- A line is printed to the end of the log. -/
theorem Agrees.printLine {l : Line} (h : Agrees d b) (he : d.logEnabled = true)
    (hl : l.base = d.logStartMillis) (ht : b.now ≤ l.time) {t : ℕ} (hlt : l.time ≤ t) :
    ∃ s, Agrees (d.opened.printLine l.text)
        { b.print (some (d.dataFile.elim d.logFile OpenFile.name)) [l] with now := t } ∧
      Adding (d.opened.printLine l.text)
        { b.print (some (d.dataFile.elim d.logFile OpenFile.name)) [l] with now := t } s ∧
      (b.print (some (d.dataFile.elim d.logFile OpenFile.name)) [l]).waiting = [] := by
  obtain ⟨card, file, buffer, trace, hfl⟩ := opened_filed d
  have heo : d.opened.logEnabled = true := by rw [hfl]; exact he
  have hlog : d.opened.logFile = d.logFile := by rw [hfl]; rfl
  have hbase : d.opened.logStartMillis = d.logStartMillis := by rw [hfl]
  have hk : Agrees d.opened { b with now := t } := h.opened.later (ht.trans hlt)
  obtain ⟨s, ha⟩ := h.opened.adding (.inl heo)
  obtain ⟨s', ha'⟩ := hk.adding (.inl heo)
  obtain ⟨f, hf⟩ : ∃ f, d.opened.dataFile = some f := by
    refine Option.isSome_iff_exists.1 ?_
    rw [Device.opened]
    split
    · assumption
    · rfl
  have hs : s' = s := Option.some.inj (ha'.sheet.symm.trans ha.sheet)
  subst hs
  obtain ⟨hn, hend, -⟩ := ha.viewed f hf
  have hname : d.dataFile.elim d.logFile OpenFile.name = f.name := by
    cases hd : d.dataFile with
    | none => exact (hn.trans hlog).symm
    | some g =>
      have ho : d.opened = d := opened_of_isSome (by rw [hd]; rfl)
      rw [ho, hd] at hf
      cases hf
      rfl
  have hd : d.opened.drainBuffer.dataFile = some (f.write d.opened.writeBuffer) := by
    rw [drainBuffer_eq, hf]
    rfl
  have hprinted := hk.print (e := d.opened.printLine l.text) ha' hf
    (g := (f.write d.opened.writeBuffer).write l.text) [l]
    (ha.ordered_add (hl.trans hbase.symm) ht)
    (fun k hk => by rw [List.mem_singleton.1 hk]; exact hlt)
    (by rw [Device.printLine, printFrames_card, drainBuffer_eq])
    (by rw [Device.printLine, drainBuffer_eq]; rfl)
    (by rw [Device.printLine, drainBuffer_eq]; rfl)
    (by rw [Device.printLine, printFrames_dataFile, hd]; rfl)
    hend.write.write rfl
    (by
      rw [hend.write.write_data, hend.write_data, h.opened.buffer, Sheet.texts_append,
        List.append_assoc]
      exact congrArg (f.data ++ ·) (congrArg (texts b.waiting ++ ·) (List.append_nil l.text).symm))
    (by rw [Device.printLine, printFrames_writeBuffer, drainBuffer_eq])
  rw [hname, ← print_now]
  refine ⟨_, hprinted.1, hprinted.2, ?_⟩
  rw [Book.print]
  split <;> rfl

/-- The log is closed by its last line. -/
theorem Adding.close (ha : Adding d b s) (h : Agrees d b) (hw : b.waiting = []) :
    Agrees { d.printEndLogLine with logEnabled := false } b where
  buffer := h.buffer
  stray := h.stray
  ordered := h.ordered
  stored := h.stored
  viewed _ hg t ht := by
    obtain ⟨f, hf, rfl⟩ := Option.map_eq_some_iff.1 hg
    obtain ⟨hn, hend, hcont⟩ := ha.viewed f hf
    cases (hn ▸ ha.sheet).symm.trans ht
    rw [hend.write_data]
    exact hcont.close
  adding he := by
    rcases he with he | he
    · exact absurd he Bool.false_ne_true
    · exact absurd hw he

theorem begin_now (b : Book) (t u : ℕ) (d : Device) (o : Option (Name × Option Bytes)) :
    ({ b with now := u } : Book).begin t d o = b.begin t d o := by
  cases o <;> rfl

/-- What `can_callback` does with a line. -/
theorem Agrees.write {l : Line} {t : ℕ} (h : Agrees d b) (hl : l.base = d.logStartMillis)
    (ht : b.now ≤ l.time) (hlt : l.time ≤ t) (hc : env.clock.startMillis = u32 t)
    (hw : Write env l.text d d') :
    Agrees d' (Book.begin t d'
      (if !d.logEnabled then b
        else if d.noWriteFile then
          if d.writeBuffer.length + l.text.length < 30000 then
            { b with waiting := b.waiting ++ [l] }
          else b
        else b.print (some (d.dataFile.elim d.logFile OpenFile.name)) [l])
      (startedSession d.trace d'.trace)) := by
  have hsession (e : Event) (he : e.OfWrite) : ¬ e.IsSession := (ofWrite_quiet e he).1
  cases hw with
  | disabled he =>
    rw [(Extends.refl (P := Event.OfWrite) d).startedSession_eq hsession, he]
    exact h.later (ht.trans hlt)
  | buffered he hb =>
    rw [(bufferLine_extends l.text d).startedSession_eq (by rintro _ rfl; exact id), he, hb,
      if_neg (by decide), if_pos rfl]
    exact h.bufferLine he hl ht hlt
  | printed he hb =>
    rw [(opened_printLine_extends l.text d).startedSession_eq hsession, he, hb,
      if_neg (by decide), if_neg (by decide)]
    obtain ⟨s, hk, -, -⟩ := h.printLine he hl ht hlt
    exact hk
  | rotated he hb hsize hs =>
    rw [(opened_printLine_extends l.text d).startedSession_left hsession, he, hb,
      if_neg (by decide), if_neg (by decide)]
    obtain ⟨s, hk, ha, hwait⟩ := h.printLine he hl ht hlt
    -- nothing waits any more when the next log is started
    have hclosed := ha.close hk hwait
    have hbuf : (d.opened.printLine l.text).writeBuffer = [] := hk.waiting_eq_nil.1 hwait
    have hst := Agrees.startLog (d := (d.opened.printLine l.text).printEndLogLine) hclosed
      (fun _ _ => hbuf) hc le_rfl hs
    rwa [begin_now] at hst

/-! ## Runs -/

theorem Agrees.acceptUpload (h : Agrees d b) (x : Exchange) (name : Name) :
    Agrees (d.acceptUpload x name) b := by
  rw [Device.acceptUpload]
  split
  · have hs := sdRemove_shrinks x.removes name d
    exact h.shrinks ⟨hs.card, hs.file, hs.buffer, hs.maxLogSize, hs.config⟩ fun he => ⟨he, rfl, rfl⟩
  · exact h

theorem Agrees.boot (h : Agrees d b) (config : ConfigManager) :
    Agrees { d.boot config with logEnabled := false } { b with waiting := [] } := by
  obtain ⟨hc, hf, hb, -⟩ := boot_files config d
  refine ⟨hb, h.stray, h.ordered, fun name s hs content hl => ?_, fun f hf' => ?_, fun he => ?_⟩
  · exact h.stored name s hs content (hc ▸ hl)
  · exact absurd (hf.symm.trans hf') (by simp)
  · rcases he with he | he
    · exact absurd he Bool.false_ne_true
    · exact absurd rfl he

/-- A boot, with the log that it starts. -/
theorem Agrees.step_boot {s t : Stamped} {arrival finish fuel : ℕ} {config : ConfigManager}
    {env : Env} (h : Agrees { s.device with logEnabled := false } s.book)
    (hc : env.clock.startMillis = u32 finish)
    (hs : stamped.step s ⟨arrival, finish, .boot config fuel env⟩ = some t) :
    Agrees t.device t.book := by
  obtain ⟨e, he, rfl⟩ := Option.map_eq_some_iff.1 hs
  obtain ⟨⟨r, e⟩, hst, rfl⟩ := Option.map_eq_some_iff.1 he
  have hk := Agrees.boot h config
  -- the millisecond counter begins again
  have hb : Agrees { s.device.boot config with logEnabled := false }
      { ({ s.book with waiting := [] } : Book) with now := 0 } :=
    ⟨hk.buffer, hk.stray, hk.ordered, hk.stored, hk.viewed, fun he =>
      (he.elim Bool.false_ne_true fun hne => absurd rfl hne).elim⟩
  obtain ⟨-, -, hbuf, htrace⟩ := boot_files config s.device
  have hl := hb.startLog (fun _ _ => hbuf) hc (Nat.zero_le _) hst
  rw [htrace, begin_now] at hl
  exact hl.of_flags true e.noWriteFile e.trace

theorem Agrees.step {s t : Stamped} {a : TimedOp} (h : Agrees s.device s.book) (hin : InTime s a)
    (hg : StartsWithoutLines s a) (hs : stamped.step s a = some t) : Agrees t.device t.book := by
  obtain ⟨arrival, finish, op⟩ := a
  have hle : arrival ≤ finish := hin.1
  obtain ⟨e, he, ht⟩ := Option.map_eq_some_iff.1 hs
  have hnone (hop : op.OfUpload) : startedSession s.device.trace e.trace = none :=
    ofUpload_startedSession hop he
  suffices hk : Agrees e ((s.book.write s.device ⟨arrival, finish, op⟩).begin finish e
      (startedSession s.device.trace e.trace)) by rwa [← ht]
  cases op with
  | boot config fuel env =>
    rw [← ht] at hs
    exact h.disabled.step_boot hin.2 hs
  | restartLogging fuel env =>
    obtain ⟨⟨r, e⟩, hst, rfl⟩ := Option.map_eq_some_iff.1 he
    exact h.disabled.startLog hg hin.2.2 (hin.2.1.trans hle) hst
  | canCallback msg millis fuel env opens =>
    have hmillis : millis = u32 arrival := hin.2.2.1
    rw [hmillis] at he
    exact h.write (l := ⟨msg, arrival, s.device.logStartMillis⟩) rfl hin.2.1 hle hin.2.2.2
      (write_of_writeSdLine he)
  | flushSdFile =>
    rw [hnone trivial]
    cases he
    have hf := (h.later (hin.2.trans hle)).flushSdFile
    rwa [print_now] at hf
  | reopenFile b =>
    rw [hnone trivial]
    cases he
    exact (h.reopenFile b fun he => hg (he.imp id h.waiting_eq_nil.not.1)).later (hin.2.trans hle)
  | setFlags timer noWrite =>
    rw [hnone trivial]
    cases he
    exact (h.of_flags timer noWrite _).later (hin.2.trans hle)
  | transfer ev =>
    rw [hnone trivial]
    cases he
    exact (h.of_flags _ _ _).later (hin.2.trans hle)
  | acceptUpload x name =>
    rw [hnone trivial]
    cases he
    exact (h.acceptUpload x name).later (hin.2.trans hle)

/-- Over any run from a boot on, in which no line waits when a log is named, and no log is
    reopened at a position that was lost: every line that is printed to a log was stamped
    with the start of that log. So, in the first `2 ^ 32` milliseconds of the log, the times
    do not decrease from line to line; and the log holds these lines, in this order. -/
theorem lines_in_their_sessions (card : Card) (eeprom : EEPROM) {config : ConfigManager}
    {arrival finish fuel : ℕ} {env : Env} {ops : List TimedOp} {s : Stamped}
    (h : stamped.Run (fun s a => InTime s a ∧ StartsWithoutLines s a) ⟨initial card eeprom, {}⟩
      (⟨arrival, finish, .boot config fuel env⟩ :: ops) s) :
    s.book.stray = [] ∧ ∀ name sheet, s.book.sheet name = some sheet →
      (∀ l ∈ sheet.lines, l.base = u32 sheet.start) ∧
      ((∀ l ∈ sheet.lines, l.time < sheet.start + 2 ^ 32) →
        (sheet.lines.map Line.stamp).Pairwise (· ≤ ·)) ∧
      (∀ content, s.device.card.lookup name = some content → sheet.Records content) ∧
      ∀ f, s.device.dataFile = some f → f.name = name → sheet.Records f.data := by
  have hinit : Agrees { initial card eeprom with logEnabled := false } {} := by
    refine ⟨rfl, rfl, ?_, ?_, ?_, fun he => ?_⟩
    · rintro _ _ ⟨⟩
    · rintro _ _ ⟨⟩
    · rintro _ ⟨⟩
    · exact (he.elim Bool.false_ne_true fun hne => absurd rfl hne).elim
  have hk : Agrees s.device s.book := by
    cases h with
    | cons hg hst hrun =>
      exact hrun.invariant (P := fun s => Agrees s.device s.book)
        (fun hd hg hs => hd.step hg.1 hg.2 hs) (hinit.step_boot hg.1.2 hst)
  refine ⟨hk.stray, fun name sheet hn => ⟨fun l hl => ((hk.ordered name sheet hn).base l hl).1,
    (hk.ordered name sheet hn).stamps, hk.stored name sheet hn, ?_⟩⟩
  rintro f hf rfl
  exact hk.viewed f hf sheet hn

end Device

/-- Much free space, when the millisecond counter shows some value. -/
def Env.roomyAt (millis : ℕ) : Env := { Env.roomy with clock := { startMillis := millis } }

/-- A frame that arrives at some time. -/
def frameAt (time : ℕ) : TimedOp :=
  ⟨time, time, .canCallback someFrame time 1 (.roomyAt time) fun _ => true⟩

namespace Device

variable {d e : Device} {b : Book}

theorem stamped_now {s t : Stamped} {a : TimedOp} (h : stamped.step s a = some t) :
    t.book.now = a.finish := by
  obtain ⟨e, -, rfl⟩ := Option.map_eq_some_iff.1 h
  dsimp only
  cases startedSession s.device.trace e.trace <;> rfl

/-- A log with a frame after five seconds, and a restart before the next frame. -/
def framesOfTwoLogs : List TimedOp :=
  [frameAt 5000, ⟨6000, 6000, .restartLogging 1 (.roomyAt 6000)⟩, frameAt 7500]

/-- No line waits, and no log is reopened. -/
def Prompt (s : Stamped) (a : TimedOp) : Prop :=
  s.device.writeBuffer = [] ∧ ¬ a.op matches .reopenFile _

theorem Prompt.startsWithoutLines {s : Stamped} {a : TimedOp} (h : Prompt s a) :
    StartsWithoutLines s a := by
  obtain ⟨arrival, finish, op⟩ := a
  cases op with
  | restartLogging => exact fun _ _ => h.1
  | reopenFile => exact absurd rfl h.2
  | _ => trivial

instance (s : Stamped) (a : TimedOp) : Decidable (Prompt s a) :=
  inferInstanceAs (Decidable (_ ∧ _))

/-- The frame before the restart is stamped with the start of the first log, and the one after
    it with that of the second. -/
theorem lines_in_their_sessions_two_logs :
    ∃ s one two, stamped.Run (fun s a => InTime s a ∧ StartsWithoutLines s a)
        ⟨initial ∅ ⟨1, 0, 1, 0⟩, {}⟩ (⟨0, 0, .boot {} 1 .roomy⟩ :: framesOfTwoLogs) s ∧
      s.book.sheet (logName 1) = some one ∧ s.book.sheet (logName 2) = some two ∧
      (one.lines.map Line.stamp = [5000] ∧ two.lines.map Line.stamp = [1500]) ∧
      (∀ l ∈ one.lines, l.base = u32 one.start) ∧ ∀ l ∈ two.lines, l.base = u32 two.start := by
  obtain ⟨s, hrun, hone, htwo⟩ : ∃ s, stamped.Run (fun s a => InTime s a ∧ Prompt s a)
      ⟨initial ∅ ⟨1, 0, 1, 0⟩, {}⟩ (⟨0, 0, .boot {} 1 .roomy⟩ :: framesOfTwoLogs) s ∧
      (s.book.sheet (logName 1)).map (fun sheet => sheet.lines.map Line.stamp) = some [5000] ∧
      (s.book.sheet (logName 2)).map (fun sheet => sheet.lines.map Line.stamp) = some [1500] :=
    Machine.exists_run_of_any (by decide +kernel)
  obtain ⟨one, hs₁, h₁⟩ := Option.map_eq_some_iff.1 hone
  obtain ⟨two, hs₂, h₂⟩ := Option.map_eq_some_iff.1 htwo
  have h := lines_in_their_sessions ∅ ⟨1, 0, 1, 0⟩
    (hrun.weaken fun _ _ hg => ⟨hg.1, hg.2.startsWithoutLines⟩)
  exact ⟨s, one, two, hrun.weaken fun _ _ hg => ⟨hg.1, hg.2.startsWithoutLines⟩, hs₁, hs₂,
    ⟨h₁, h₂⟩, (h.2 _ one hs₁).1, (h.2 _ two hs₂).1⟩

/-! ## Lines in the next log -/

/-- The steps of an upload leave the book alone while no line waits. -/
theorem stamped_run_of_upload {ops : List LogOp} (hops : ∀ op ∈ ops, op.OfUpload)
    (hw : b.waiting = []) (h : logging.Run Machine.Free d ops e) :
    stamped.Run InTime ⟨d, b⟩ (ops.map fun op => ⟨b.now, b.now, op⟩) ⟨e, b⟩ := by
  induction h with
  | nil => exact .nil _
  | @cons d e f op ops _ hs hrun ih =>
    have hop := hops op List.mem_cons_self
    have hst : d.logStep op = some e := hs
    have hbook :
        (b.write d ⟨b.now, b.now, op⟩).begin b.now e (startedSession d.trace e.trace) = b := by
      rw [ofUpload_startedSession hop hst]
      cases op with
      | boot => exact hop.elim
      | restartLogging => exact hop.elim
      | canCallback => exact hop.elim
      | flushSdFile =>
        rw [Book.write, print_nil hw]
        rfl
      | reopenFile => rfl
      | setFlags => rfl
      | transfer => rfl
      | acceptUpload => rfl
    have hstep : stamped.step ⟨d, b⟩ ⟨b.now, b.now, op⟩ = some ⟨e, b⟩ := by
      have hmap : stamped.step ⟨d, b⟩ ⟨b.now, b.now, op⟩ = (d.logStep op).map fun e =>
          ⟨e, (b.write d ⟨b.now, b.now, op⟩).begin b.now e (startedSession d.trace e.trace)⟩ := rfl
      rw [hmap, hst, Option.map_some, hbook]
    have hin : InTime ⟨d, b⟩ ⟨b.now, b.now, op⟩ := by
      refine ⟨le_rfl, ?_⟩
      cases op <;> first | exact le_rfl | exact hop.elim
    exact .cons hin hstep (ih fun op h => hops op (List.mem_cons_of_mem _ h))

/-- After an upload whose connection was lost, a frame is buffered, and logging restarted
    since the clock was set: the line goes to the next log, with a time that counts from the
    start of the log before. The line after it has an earlier time. -/
theorem line_in_next_session :
    ∃ (s₀ : Stamped) (upload : List LogOp) (s : Stamped) (sheet : Sheet),
      stamped.Run InTime ⟨initial ∅ ⟨1, 0, 1, 0⟩, {}⟩ [⟨0, 0, .boot {} 1 .roomy⟩] s₀ ∧
      (∀ op ∈ upload, op.OfUpload) ∧
      stamped.Run InTime s₀ (upload.map fun op => ⟨0, 0, op⟩)
        ⟨(s₀.device.uploadFile lostUpload (logName 1)).2, s₀.book⟩ ∧
      stamped.Run InTime ⟨(s₀.device.uploadFile lostUpload (logName 1)).2, s₀.book⟩
        [frameAt 5000, ⟨10000, 10000, .restartLogging 1 (.roomyAt 10000)⟩,
          ⟨11000, 11000, .flushSdFile⟩, frameAt 12000, ⟨13000, 13000, .flushSdFile⟩] s ∧
      s.book.sheet (logName 2) = some sheet ∧ sheet.start = 10000 ∧
      sheet.lines.map Line.base = [0, 10000] ∧ sheet.lines.map Line.stamp = [5000, 2000] ∧
      s.device.card.lookup (logName 2) = some (sheet.head ++ texts sheet.lines) := by
  have hsteps : (stamped.step ⟨initial ∅ ⟨1, 0, 1, 0⟩, {}⟩ ⟨0, 0, .boot {} 1 .roomy⟩).bind
      (fun s₀ => (stamped.step ⟨(s₀.device.uploadFile lostUpload (logName 1)).2, s₀.book⟩
          (frameAt 5000)).bind fun s₁ =>
        (stamped.step s₁ ⟨10000, 10000, .restartLogging 1 (.roomyAt 10000)⟩).bind fun s₂ =>
        (stamped.step s₂ ⟨11000, 11000, .flushSdFile⟩).bind fun s₃ =>
        (stamped.step s₃ (frameAt 12000)).bind fun s₄ =>
        (stamped.step s₄ ⟨13000, 13000, .flushSdFile⟩).bind fun s =>
        (s.book.sheet (logName 2)).map fun sheet =>
          (s₀.book.waiting.length, sheet.start, sheet.lines.map Line.base,
            sheet.lines.map Line.stamp,
            decide (s.device.card.lookup (logName 2) = some (sheet.head ++ texts sheet.lines)))) =
        some (0, 10000, [0, 10000], [5000, 2000], true) := by
    decide +kernel
  obtain ⟨s₀, h₀, hsteps⟩ := Option.bind_eq_some_iff.1 hsteps
  obtain ⟨s₁, h₁, hsteps⟩ := Option.bind_eq_some_iff.1 hsteps
  obtain ⟨s₂, h₂, hsteps⟩ := Option.bind_eq_some_iff.1 hsteps
  obtain ⟨s₃, h₃, hsteps⟩ := Option.bind_eq_some_iff.1 hsteps
  obtain ⟨s₄, h₄, hsteps⟩ := Option.bind_eq_some_iff.1 hsteps
  obtain ⟨s, hs, hsteps⟩ := Option.bind_eq_some_iff.1 hsteps
  obtain ⟨sheet, hsheet, he⟩ := Option.map_eq_some_iff.1 hsteps
  simp only [Prod.mk.injEq] at he
  obtain ⟨hw, hstart, hbase, hstamp, hcard⟩ := he
  have hnow : s₀.book.now = 0 := stamped_now h₀
  obtain ⟨upload, hops, hup⟩ := uploadFile_run (G := Machine.Free) (fun _ _ _ => trivial)
    lostUpload (logName 1) s₀.device
  have hupload := stamped_run_of_upload hops (List.length_eq_zero_iff.1 hw) hup
  rw [hnow] at hupload
  refine ⟨s₀, upload, s, sheet, .single ⟨le_rfl, rfl⟩ h₀, hops, hupload, ?_, hsheet, hstart, hbase,
    hstamp, of_decide_eq_true hcard⟩
  refine .cons ⟨le_rfl, ?_, rfl, rfl⟩ h₁ (.cons ⟨le_rfl, ?_, rfl⟩ h₂ (.cons ⟨le_rfl, ?_⟩ h₃
    (.cons ⟨le_rfl, ?_, rfl, rfl⟩ h₄ (.single ⟨le_rfl, ?_⟩ hs))))
  · rw [hnow]
    decide
  · rw [stamped_now h₁]
    decide
  · rw [stamped_now h₂]
    decide
  · rw [stamped_now h₃]
    decide
  · rw [stamped_now h₄]
    decide

end Device

end CanInsight
