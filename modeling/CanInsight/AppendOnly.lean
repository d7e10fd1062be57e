import CanInsight.Confirmation

/-!
# Logs are only removed when they are uploaded

With `overwrite_logs` off, whatever the program does, a file on the card only
grows at its end until `upload_file` removes it, and that should happen only
after the server answered with status 200 to the POST of the file.

* `Kept`: from one state to another, each file has grown at its end or has been
  removed; it holds across every operation of the program, on the invariant
  `Safe` and its companions (`Inv`): `data_file` has all the card has of its
  file, and is at its end whenever something may be printed to it;
* `RemovalsConfirmed`: each removal comes right after the answer to the POST of
  the file, with status 200. An answer that is short is completed by what the
  array it is read into held, and so can be taken for status 200
  (`removalsConfirmed_iff`).
-/

namespace CanInsight

open CString

/-- An event that removes no file. -/
def Event.Keeps : Event → Prop
  | removed _ => False
  | _ => True

/-- The latest event is the answer to the POST of a file, with status 200. -/
def RemovalConfirmed (file : Name) : List Event → Prop
  | .postAnswered name response :: _ => name = file ∧ Answers200 response
  | _ => False

/-- Each removal of a file comes right after the answer to the POST of the file,
    with status 200. -/
def RemovalsConfirmed : List Event → Prop
  | [] => True
  | .removed file :: trace => RemovalConfirmed file trace ∧ RemovalsConfirmed trace
  | _ :: trace => RemovalsConfirmed trace

theorem removalsConfirmed_append {es trace : List Event} (h : ∀ e ∈ es, e.Keeps) :
    RemovalsConfirmed (es ++ trace) ↔ RemovalsConfirmed trace := by
  induction es with
  | nil => rfl
  | cons e es ih =>
    have he := h e List.mem_cons_self
    have ih := ih fun e h' => h e (List.mem_cons_of_mem _ h')
    cases e <;> first | exact absurd he id | exact ih

namespace Device

variable {d d' e : Device} {fuel : ℕ} {env : Env} {b : Bool} {x : Exchange} {name : Name}

/-! ## Files that are kept -/

/-- Each file has grown at its end, or has been removed. -/
def Kept (d d' : Device) : Prop :=
  ∃ es, d'.trace = es ++ d.trace ∧ ∀ name data, d.card.lookup name = some data →
    .removed name ∈ es ∨ ∃ data', d'.card.lookup name = some data' ∧ data <+: data'

theorem Kept.trans (h : Kept d e) (h' : Kept e d') : Kept d d' := by
  obtain ⟨es, ht, hk⟩ := h
  obtain ⟨es', ht', hk'⟩ := h'
  refine ⟨es' ++ es, by rw [ht', ht, List.append_assoc], fun name data hd => ?_⟩
  rcases hk name data hd with hr | ⟨data₁, hd₁, hp₁⟩
  · exact .inl (List.mem_append_right _ hr)
  · rcases hk' name data₁ hd₁ with hr | ⟨data₂, hd₂, hp₂⟩
    · exact .inl (List.mem_append_left _ hr)
    · exact .inr ⟨data₂, hd₂, hp₁.trans hp₂⟩

/-- Operations that leave the card as it is keep the files. -/
theorem Extends.kept {P : Event → Prop} (h : Extends P d d') (hc : d'.card = d.card) :
    Kept d d' := by
  obtain ⟨es, ht, -⟩ := h
  exact ⟨es, ht, fun name data hd => .inr ⟨data, by rw [hc, hd], List.prefix_refl _⟩⟩

theorem Kept.of_eq (hc : d'.card = d.card) (ht : d'.trace = d.trace) : Kept d d' :=
  Extends.kept (P := fun _ => True) (.of_eq ht) hc

theorem emit_kept (ev : Event) (d : Device) : Kept d (d.emit ev) :=
  Extends.kept (P := fun _ => True) (.of_cons (e := ev) trivial rfl) rfl

theorem Kept.refl (d : Device) : Kept d d := .of_eq rfl rfl

/-- All files there are and have grown. -/
theorem Kept.of_grows {P : Event → Prop} (h : Extends P d d')
    (hc : ∀ name data, d.card.lookup name = some data →
      ∃ data', d'.card.lookup name = some data' ∧ data <+: data') : Kept d d' := by
  obtain ⟨es, ht, -⟩ := h
  exact ⟨es, ht, fun name data hd => .inr (hc name data hd)⟩

theorem sdRemove_kept (succeeds : Bool) (name : Name) (d : Device) :
    Kept d (d.sdRemove succeeds name) := by
  by_cases h : succeeds ∧ name ∈ d.card
  · refine ⟨[.removed name], by rw [sdRemove_trace, if_pos h]; rfl, fun other data hd => ?_⟩
    by_cases hn : other = name
    · exact .inl (by rw [hn]; exact List.mem_singleton_self _)
    · refine .inr ⟨data, ?_, List.prefix_refl _⟩
      rw [sdRemove_card, if_pos h, Finmap.lookup_erase_ne hn, hd]
  · exact .of_eq (if_neg h) (if_neg h)

/-- `data_file` has all the card has of its file. -/
def Aligned (d : Device) : Prop :=
  ∀ f, d.dataFile = some f → ∀ data, d.card.lookup f.name = some data → data <+: f.data

theorem Aligned.of_eq (h : Aligned d) (hc : d'.card = d.card) (hf : d'.dataFile = d.dataFile) :
    Aligned d' := by
  intro f hf' data hd
  rw [hf] at hf'
  rw [hc] at hd
  exact h f hf' data hd

/-- Flushing brings the card up to what `data_file` has. -/
theorem syncedCard_lookup (h : Aligned d) {name : Name} {data : Bytes}
    (hd : d.card.lookup name = some data) :
    ∃ data', d.syncedCard.lookup name = some data' ∧ data <+: data' := by
  have hkeep : ∃ data', d.card.lookup name = some data' ∧ data <+: data' :=
    ⟨data, hd, List.prefix_refl _⟩
  unfold syncedCard
  split
  · next f hf =>
    split
    · next hm =>
      by_cases hn : name = f.name
      · subst hn
        exact ⟨f.data, Finmap.lookup_insert _, h f hf data hd⟩
      · rwa [Finmap.lookup_insert_of_ne _ hn]
    · exact hkeep
  · exact hkeep

theorem sync_kept (h : Aligned d) : Kept d d.sync :=
  .of_grows (P := fun _ => True) (.of_eq rfl) fun _ _ hd => syncedCard_lookup h hd

/-- What the card has of the file of `data_file`, once it is flushed. -/
theorem syncedCard_lookup_self {f : OpenFile} (h : d.dataFile = some f) (hm : f.name ∈ d.card) :
    d.syncedCard.lookup f.name = some f.data := by
  rw [syncedCard_of_mem h hm, Finmap.lookup_insert]

theorem aligned_sync (d : Device) : Aligned d.sync := by
  intro f hf data hd
  rw [sync_dataFile] at hf
  have hm : f.name ∈ d.card := mem_syncedCard.1 (Finmap.mem_of_lookup_eq_some hd)
  rw [sync_card, syncedCard_lookup_self hf hm] at hd
  cases hd
  exact List.prefix_refl _

theorem Aligned.sdRemove (h : Aligned d) (succeeds : Bool) (name : Name) :
    Aligned (d.sdRemove succeeds name) := by
  intro f hf data hd
  rw [sdRemove_card] at hd
  split at hd
  · by_cases hn : f.name = name
    · rw [hn, Finmap.lookup_erase] at hd
      cases hd
    · rw [Finmap.lookup_erase_ne hn] at hd
      exact h f hf data hd
  · exact h f hf data hd

/-- The device after `print` or `printFrames`: the file has grown at its end. -/
theorem Aligned.write (h : Aligned d) {s : Bytes} (hc : d'.card = d.card)
    (hf : d'.dataFile = d.dataFile.map (·.write s)) (he : ∀ f, d.dataFile = some f → f.AtEnd) :
    Aligned d' := by
  intro g hg data hd
  rw [hf] at hg
  obtain ⟨f, hf', rfl⟩ := Option.map_eq_some_iff.1 hg
  rw [(he f hf').write_data]
  rw [hc] at hd
  exact (h f hf' data hd).trans (List.prefix_append _ _)

/-! ## The invariant -/

/-- No log is overwritten, `data_file` has all the card has of its file, and it is
    at its end whenever something may be printed to it. -/
structure Safe (d : Device) : Prop where
  overwriting : d.overwritingOldFiles = false
  overwriteLogs : d.config.overwriteLogs = false
  aligned : Aligned d
  atEnd : d.logEnabled = true ∨ d.writeBuffer ≠ [] → ∀ f, d.dataFile = some f → f.AtEnd

theorem Safe.of_closed (ho : d.overwritingOldFiles = false) (hc : d.config.overwriteLogs = false)
    (hf : d.dataFile = none) : Safe d := by
  refine ⟨ho, hc, fun f hf' => ?_, fun _ f hf' => ?_⟩ <;>
  · rw [hf] at hf'
    cases hf'

/-- While logging is enabled, `data_file` is open on the log. -/
def Writing (d : Device) : Prop :=
  d.logEnabled = true → ∃ f, d.dataFile = some f ∧ f.name = d.logFile

theorem found_of_mem (hm : d.logFile ∈ d.card) :
    d.syncedCard.lookup d.logFile = some d.found := by
  obtain ⟨data, hd⟩ := Finmap.mem_iff.1 (mem_syncedCard.2 hm)
  rw [found, hd]
  rfl

/-- A log that is opened on what the card has of its file continues the file. -/
theorem logOpened_kept (h : Aligned d) (clock : Clock) : Kept d (d.logOpened clock) := by
  refine .of_grows (logOpened_extends clock d) fun name data hd => ?_
  obtain ⟨data', hd', hp⟩ := syncedCard_lookup h hd
  rw [logOpened_card]
  by_cases hn : name = d.logFile
  · subst hn
    refine ⟨_, Finmap.lookup_insert _, hp.trans ?_⟩
    rw [found, hd']
    exact List.prefix_append _ _
  · exact ⟨data', by rw [Finmap.lookup_insert_of_ne _ hn, hd'], hp⟩

theorem logOpened_safe (h : Safe d) (clock : Clock) : Safe (d.logOpened clock) where
  overwriting := h.overwriting
  overwriteLogs := h.overwriteLogs
  aligned := by
    intro f hf data hd
    cases hf
    rw [logOpened_card, Finmap.lookup_insert] at hd
    cases hd
    exact List.prefix_refl _
  atEnd := by
    intro _ f hf
    cases hf
    rfl

theorem Safe.of_renamed (h : Safe d) (hr : Renamed d d') : Safe d' := by
  obtain ⟨_, _, _, _, rfl⟩ := hr
  exact ⟨h.overwriting, h.overwriteLogs, h.aligned, h.atEnd⟩

theorem Safe.disabled (h : Safe d) : Safe { d with logEnabled := false } where
  overwriting := h.overwriting
  overwriteLogs := h.overwriteLogs
  aligned := h.aligned
  atEnd := fun hw => h.atEnd (.inr (hw.resolve_left Bool.false_ne_true))

theorem ofWrite_keeps (e : Event) (h : e.OfWrite) : e.Keeps := by
  cases e <;> trivial

/-- What an operation that removes no files does: files grow, and the invariant
    holds. -/
structure Grows (d d' : Device) : Prop where
  kept : Kept d d'
  keeps : Extends Event.Keeps d d'
  safe : Safe d'

theorem Grows.trans (h : Grows d e) (h' : Grows e d') : Grows d d' :=
  ⟨h.kept.trans h'.kept, h.keeps.trans h'.keeps, h'.safe⟩

/-- `start_log` removes no files, and leaves the write buffer and its mode alone. -/
theorem Safe.startLog (h : Safe d) (hs : d.startLog fuel env = some (b, d')) :
    Grows d d' ∧ Writing d' ∧ d'.writeBuffer = d.writeBuffer ∧ d'.noWriteFile = d.noWriteFile := by
  have hoff : Kept d { d with logEnabled := false } := .of_eq rfl rfl
  have hkeeps {d₂ : Device} (hr : Renamed { d with logEnabled := false } d₂) :
      Grows d d₂ ∧ d₂.logEnabled = false ∧ d₂.writeBuffer = d.writeBuffer ∧
        d₂.noWriteFile = d.noWriteFile := by
    have hsafe := h.disabled.of_renamed hr
    obtain ⟨_, _, _, _, rfl⟩ := hr
    exact ⟨⟨.of_eq rfl rfl, .of_eq rfl, hsafe⟩, rfl, rfl, rfl⟩
  have hwriting {d₂ : Device} (he : d₂.logEnabled = false) : Writing d₂ := by
    intro he'
    rw [he] at he'
    cases he'
  cases start_of_startLog hs with
  | noSpace hc =>
    cases checkSdFreeSpace_of_not_overwriteLogs (d := { d with logEnabled := false })
      h.overwriteLogs hc
    exact ⟨⟨hoff, .of_eq rfl, h.disabled⟩, hwriting rfl, rfl, rfl⟩
  | noName hc hn =>
    cases checkSdFreeSpace_of_not_overwriteLogs (d := { d with logEnabled := false })
      h.overwriteLogs hc
    obtain ⟨hg, he, hb, hm⟩ := hkeeps (hn.renamed h.overwriting h.overwriteLogs)
    exact ⟨hg, hwriting he, hb, hm⟩
  | @notOpened _ d₂ hc hn =>
    cases checkSdFreeSpace_of_not_overwriteLogs (d := { d with logEnabled := false })
      h.overwriteLogs hc
    obtain ⟨hg, he, hb, hm⟩ := hkeeps (hn.renamed h.overwriting h.overwriteLogs)
    have hg' : Grows d₂ d₂.logNotOpened := by
      refine ⟨.of_grows (P := Event.Keeps) ?_ fun _ _ hd => syncedCard_lookup hg.safe.aligned hd,
        .of_cons (e := .session _ _) trivial rfl,
        ⟨hg.safe.overwriting, hg.safe.overwriteLogs, fun f hf => ?_, fun _ f hf => ?_⟩⟩
      · exact .of_cons (e := .session _ _) trivial rfl
      · cases hf
      · cases hf
    exact ⟨hg.trans hg', hwriting he, hb, hm⟩
  | @opened _ d₂ hc hn =>
    cases checkSdFreeSpace_of_not_overwriteLogs (d := { d with logEnabled := false })
      h.overwriteLogs hc
    obtain ⟨hg, he, hb, hm⟩ := hkeeps (hn.renamed h.overwriting h.overwriteLogs)
    have hk : Extends Event.Keeps d₂ (d₂.logOpened env.clock) := by
      by_cases hm : d₂.logFile ∈ d₂.card
      · exact ⟨[_], by rw [logOpened_trace, if_pos hm]; rfl, by simp [Event.Keeps]⟩
      · exact ⟨[_, _], by rw [logOpened_trace, if_neg hm]; rfl, by simp [Event.Keeps]⟩
    exact ⟨hg.trans ⟨logOpened_kept hg.safe.aligned _, hk, logOpened_safe hg.safe _⟩,
      fun _ => ⟨_, rfl, rfl⟩, hb, hm⟩

/-! ## Writing, flushing and reopening -/

/-- Printing frames at the end of `data_file`. -/
theorem Safe.printFrames (h : Safe d) (hw : ∀ f, d.dataFile = some f → f.AtEnd) (s : Bytes) :
    Grows d (d.printFrames s) where
  kept := (printFrames_extends s d).kept rfl
  keeps := (printFrames_extends s d).mono ofWrite_keeps
  safe :=
    { overwriting := h.overwriting
      overwriteLogs := h.overwriteLogs
      aligned := h.aligned.write rfl rfl hw
      atEnd := by
        intro _ g hg
        obtain ⟨f, hf, rfl⟩ := Option.map_eq_some_iff.1 hg
        exact (hw f hf).write }

theorem Safe.drainBuffer (h : Safe d) : Grows d d.drainBuffer := by
  unfold Device.drainBuffer
  split
  · next hb =>
    have hg := h.printFrames (h.atEnd (.inr (List.length_pos_iff.1 hb))) d.writeBuffer
    exact hg.trans ⟨.of_eq rfl rfl, .of_eq rfl,
      ⟨h.overwriting, h.overwriteLogs, hg.safe.aligned,
        fun _ => hg.safe.atEnd (.inr (List.length_pos_iff.1 hb))⟩⟩
  · exact ⟨.refl d, .refl d, h⟩

theorem Safe.flushSdFile (h : Safe d) : Grows d d.flushSdFile := by
  have hg := h.drainBuffer
  exact hg.trans ⟨sync_kept hg.safe.aligned, .of_eq rfl,
    ⟨hg.safe.overwriting, hg.safe.overwriteLogs, aligned_sync _, hg.safe.atEnd⟩⟩

theorem Writing.drainBuffer (h : Writing d) : Writing d.drainBuffer := by
  rw [drainBuffer_eq]
  intro he
  obtain ⟨f, hf, hn⟩ := h he
  exact ⟨f.write d.writeBuffer, by simp [hf], hn⟩

theorem Writing.flushSdFile (h : Writing d) : Writing d.flushSdFile := h.drainBuffer

/-- Nothing is buffered, and nothing is going to be. -/
def Direct (d : Device) : Prop := d.writeBuffer = [] ∧ d.noWriteFile = false

theorem Direct.printLine (h : d.noWriteFile = false) (line : Bytes) :
    Direct (d.printLine line) := by
  rw [Device.printLine, drainBuffer_eq]
  exact ⟨rfl, h⟩

/-- A line that is written. -/
theorem Safe.write {line : Bytes} (h : Safe d) (hw : Writing d) (hs : Write env line d d') :
    Grows d d' ∧ Writing d' ∧ (Direct d → Direct d') := by
  have hp (he : d.logEnabled = true) :
      Grows d (d.printLine line) ∧ Writing (d.printLine line) ∧
        ∀ f, (d.printLine line).dataFile = some f → f.AtEnd := by
    have hg := h.drainBuffer
    have he' : d.drainBuffer.logEnabled = true := by rw [drainBuffer_eq]; exact he
    have hg' := hg.safe.printFrames (hg.safe.atEnd (.inl he')) line
    refine ⟨hg.trans hg', fun _ => ?_, hg'.safe.atEnd (.inl he')⟩
    obtain ⟨f, hf, hn⟩ := hw.drainBuffer he'
    exact ⟨f.write line, by simp [printLine, hf], hn⟩
  have ho (he : d.logEnabled = true) : d.opened = d := by
    obtain ⟨f, hf, -⟩ := hw he
    exact opened_of_isSome (by rw [hf]; rfl)
  cases hs with
  | disabled => exact ⟨⟨.refl d, .refl d, h⟩, hw, id⟩
  | buffered he hb =>
    have hx : Extends Event.Keeps d (d.bufferLine line) :=
      (bufferLine_extends line d).mono (by rintro _ rfl; trivial)
    obtain ⟨f, hf, hn⟩ := hw he
    have hat : ∀ f, d.dataFile = some f → f.AtEnd := h.atEnd (.inl he)
    obtain ⟨hc, hd, hrest⟩ : (d.bufferLine line).card = d.card ∧
        (d.bufferLine line).dataFile = d.dataFile ∧
        ∃ buffer trace, d.bufferLine line = { d with writeBuffer := buffer, trace := trace } := by
      unfold bufferLine
      split
      · exact ⟨rfl, rfl, _, _, rfl⟩
      · split
        · exact ⟨rfl, rfl, _, _, rfl⟩
        · exact ⟨rfl, rfl, _, _, rfl⟩
    obtain ⟨_, _, hr⟩ := hrest
    refine ⟨⟨hx.kept hc, hx, ?_⟩, ?_, fun hd => absurd (hd.2.symm.trans hb) (by decide)⟩
    · rw [hr]
      exact ⟨h.overwriting, h.overwriteLogs, h.aligned, fun _ => hat⟩
    · rw [hr]
      exact hw
  | printed he hb =>
    rw [ho he]
    exact ⟨(hp he).1, (hp he).2.1, fun _ => .printLine hb line⟩
  | rotated he hb _ hst =>
    rw [ho he] at hst
    obtain ⟨hg, hw', hat⟩ := hp he
    have hsafe : Safe (d.printLine line).printEndLogLine :=
      { overwriting := hg.safe.overwriting
        overwriteLogs := hg.safe.overwriteLogs
        aligned := hg.safe.aligned.write rfl rfl hat
        atEnd := by
          intro _ g hg'
          obtain ⟨f, hf, rfl⟩ := Option.map_eq_some_iff.1 hg'
          exact (hat f hf).write }
    have hg' : Grows (d.printLine line) (d.printLine line).printEndLogLine :=
      ⟨.of_eq rfl rfl, .of_eq rfl, hsafe⟩
    obtain ⟨hst, hw', hbuf, hmode⟩ := hsafe.startLog hst
    have hd : Direct (d.printLine line).printEndLogLine := Direct.printLine hb line
    exact ⟨(hg.trans hg').trans hst, hw', fun _ => ⟨hbuf.trans hd.1, hmode.trans hd.2⟩⟩

/-- Reopening `data_file` while nothing is buffered: while logging is enabled, the
    position comes back to the end. -/
theorem Safe.reopenFile (h : Safe d) (hw : Writing d) (hb : d.writeBuffer = []) :
    Grows d (d.reopenFile true) ∧ Writing (d.reopenFile true) := by
  have hx := (reopenFile_extends true d).mono ofWrite_keeps
  refine ⟨⟨.of_grows hx fun name data hd => ?_, hx, ?_⟩, fun _ => ?_⟩
  · rw [reopenFile_opens]
    obtain ⟨data', hd', hp⟩ := syncedCard_lookup h.aligned hd
    refine ⟨data', ?_, hp⟩
    dsimp only
    split
    · exact hd'
    · next hm =>
      have hn : name ≠ d.logFile := by
        rintro rfl
        exact hm (Finmap.mem_of_lookup_eq_some hd)
      rw [Finmap.lookup_insert_of_ne _ hn, hd']
  · rw [reopenFile_opens]
    refine ⟨h.overwriting, h.overwriteLogs, fun f hf data hd => ?_, fun he f hf => ?_⟩
    · cases hf
      rw [OpenFile.seek_name] at hd
      rw [OpenFile.seek_data]
      dsimp only at hd
      split at hd
      · next hm =>
        rw [found_of_mem hm] at hd
        cases hd
        exact List.prefix_refl _
      · rw [Finmap.lookup_insert] at hd
        cases hd
        exact List.nil_prefix
    · have he : d.logEnabled = true := he.resolve_right (not_not.2 hb)
      obtain ⟨g, hg, hn⟩ := hw he
      have hat := h.atEnd (.inl he) g hg
      cases hf
      have hend : OpenFile.AtEnd ⟨d.logFile, d.found, d.found.length⟩ := rfl
      refine hend.seek ?_
      rw [dataFilePosition, hg]
      refine le_of_le_of_eq ?_ hat.symm
      by_cases hm : g.name ∈ d.card
      · have hf := syncedCard_lookup_self hg hm
        rw [hn] at hf
        rw [found, hf]
        exact le_rfl
      · have hf : d.syncedCard.lookup d.logFile = none := by
          rw [Finmap.lookup_eq_none, mem_syncedCard, ← hn]
          exact hm
        rw [found, hf]
        exact Nat.zero_le _
  · rw [reopenFile_opens]
    exact ⟨_, rfl, OpenFile.seek_name _⟩

/-! ## Uploading -/

/-- The invariant of an upload, during which nothing is buffered. -/
def Uploading (d : Device) : Prop := Safe d ∧ Writing d ∧ d.writeBuffer = []

theorem Uploading.reopenFile (h : Uploading d) :
    Kept d (d.reopenFile true) ∧ Uploading (d.reopenFile true) := by
  obtain ⟨hs, hw, hb⟩ := h
  obtain ⟨hg, hw'⟩ := hs.reopenFile hw hb
  exact ⟨hg.kept, hg.safe, hw', hb⟩

theorem Uploading.flushSdFile (h : Uploading d) :
    Kept d d.flushSdFile ∧ Uploading d.flushSdFile := by
  obtain ⟨hs, hw, hb⟩ := h
  have hg := hs.flushSdFile
  exact ⟨hg.kept, hg.safe, hw.flushSdFile, by rw [Device.flushSdFile, drainBuffer_eq]; rfl⟩

theorem Uploading.acceptUpload (h : Uploading d) (x : Exchange) (name : Name) :
    Kept d (d.acceptUpload x name) ∧ Uploading (d.acceptUpload x name) := by
  obtain ⟨hs, hw, hb⟩ := h
  unfold Device.acceptUpload
  split
  · refine ⟨(sdRemove_kept _ _ d).trans (.of_eq rfl rfl), ⟨hs.overwriting, hs.overwriteLogs,
      (hs.aligned.sdRemove _ _).of_eq rfl rfl, hs.atEnd⟩, hw, hb⟩
  · exact ⟨.refl d, hs, hw, hb⟩

/-- An upload keeps the files, if the log file can be reopened. -/
theorem Uploading.uploadFile (h : Uploading d) (hr : ∀ k, x.reopens k = true)
    (he : x.reopensAtEnd = true) (name : Name) :
    Kept d (d.uploadFile x name).2 ∧ Uploading (d.uploadFile x name).2 := by
  have hemit (ev : Event) {e : Device} (he : Uploading e) : Uploading (e.emit ev) :=
    ⟨⟨he.1.overwriting, he.1.overwriteLogs, he.1.aligned, he.1.atEnd⟩, he.2⟩
  refine uploadFile_induct (P := fun e => Kept d e ∧ Uploading e) (fun ev e _ hp => ?_)
    (fun _ _ e hp => ?_) (fun k e hp => ?_) (fun e hp => ?_) (fun e hp _ => ?_) ⟨.refl d, h⟩
  · exact ⟨hp.1.trans (emit_kept ev e), hemit ev hp.2⟩
  · exact ⟨hp.1.trans (.of_eq rfl rfl),
      ⟨hp.2.1.overwriting, hp.2.1.overwriteLogs, hp.2.1.aligned, hp.2.1.atEnd⟩, hp.2.2⟩
  · rw [hr k]
    obtain ⟨hk, hu⟩ := hp.2.reopenFile
    obtain ⟨hk', hu'⟩ := hu.flushSdFile
    exact ⟨(hp.1.trans hk).trans hk', hu'⟩
  · rw [he]
    obtain ⟨hk, hu⟩ := hp.2.reopenFile
    exact ⟨hp.1.trans hk, hu⟩
  · obtain ⟨hk, hu⟩ := (hemit (.postAnswered name x.response) hp.2).acceptUpload x name
    exact ⟨(hp.1.trans (emit_kept _ e)).trans hk, hu⟩

theorem Extends.removalsConfirmed_iff (h : Extends Event.Keeps d d') :
    RemovalsConfirmed d'.trace ↔ RemovalsConfirmed d.trace := by
  obtain ⟨es, ht, hes⟩ := h
  rw [ht]
  exact removalsConfirmed_append hes

/-- If the file is to be deleted after the POST, the answer is not completed by
    what the array `status` held. -/
def DeletesSincerely (x : Exchange) (name : Name) (d : Device) : Prop :=
  d.config.deleteUploadedLogs = true → x.getStatus = 404 → x.connects = true →
    Lasts x (d.fileSize name) → x.arrived ≠ [] → x.NotStale

theorem ofSend_keeps (e : Event) (h : e.OfSend) : e.Keeps := by
  cases e <;> trivial

theorem asked_keeps (x : Exchange) (name : Name) (d : Device) :
    Extends Event.Keeps d (d.asked x name) :=
  ⟨[_, _, _], rfl, by simp [Event.Keeps]⟩

theorem acceptUpload_trace (hm : name ∈ d.card) (hr : x.removes = true) :
    (d.acceptUpload x name).trace =
      if d.config.deleteUploadedLogs = true then .removed name :: d.trace else d.trace := by
  unfold Device.acceptUpload
  by_cases hd : d.config.deleteUploadedLogs = true
  · rw [if_pos hd, if_pos hd]
    exact if_pos ⟨hr, hm⟩
  · rw [if_neg hd, if_neg hd]

/-- An upload of a file of the card keeps the removals confirmed if and only if it
    deletes sincerely. -/
theorem Upload.removalsConfirmed_iff (h : Upload x name d b e) (hm : name ∈ d.card)
    (hr : x.removes = true) :
    RemovalsConfirmed e.trace ↔ DeletesSincerely x name d ∧ RemovalsConfirmed d.trace := by
  have hsent {e : Device} (hs : (d.asked x name).send x name = (true, e)) :
      Extends Event.Keeps d (e.sent x) :=
    (asked_keeps x name d).trans
      (((send_extends hs).1.trans (sent_extends x e).1).mono ofSend_keeps)
  cases h with
  | present hg =>
    have hk : Extends Event.Keeps d ((d.asked x name).emit (.confirmed name)) :=
      (asked_keeps x name d).trans (.of_cons (e := .confirmed name) trivial rfl)
    rw [hk.removalsConfirmed_iff]
    refine (and_iff_right fun _ hg' => ?_).symm
    rw [hg] at hg'
    cases hg'
  | failed hg hc =>
    rw [(asked_keeps x name d).removalsConfirmed_iff]
    refine (and_iff_right fun _ hg' hc' => ?_).symm
    rw [hc hg'] at hc'
    cases hc'
  | lost hg hc hs =>
    have hkeeps := (asked_keeps x name d).trans ((send_extends hs).1.mono ofSend_keeps)
    rw [hkeeps.removalsConfirmed_iff]
    exact (and_iff_right fun _ _ _ hl => absurd ((asked_send_eq_true_iff hs).2 hl) (by decide)).symm
  | @unanswered e hg hc hs ha =>
    have hk : Extends Event.Keeps d ((e.sent x).emit (.confirmed name)) :=
      (hsent hs).trans (.of_cons (e := .confirmed name) trivial rfl)
    rw [hk.removalsConfirmed_iff]
    exact (and_iff_right fun _ _ _ _ ha' => absurd ha ha').symm
  | @refused e hg hc hs ha h200 =>
    have hk : Extends Event.Keeps d ((e.sent x).emit (.postAnswered name x.response)) :=
      (hsent hs).trans (.of_cons (e := .postAnswered name x.response) trivial rfl)
    rw [hk.removalsConfirmed_iff]
    exact (and_iff_right fun _ _ _ _ _ =>
      Exchange.notStale_iff.1 fun h => absurd (h200.symm.trans h) (by decide)).symm
  | @accepted e hg hc hs ha h200 =>
    have hkeep : RemovalsConfirmed (e.sent x).trace ↔ RemovalsConfirmed d.trace :=
      (hsent hs).removalsConfirmed_iff
    have hcfg : (e.sent x).config = d.config :=
      (sent_extends x e).2.1.trans (send_extends hs).2.1
    have hmem : name ∈ ((e.sent x).emit (.postAnswered name x.response)).card :=
      (sent_extends x e).2.2 _ ((send_extends hs).2.2 _ hm)
    have hans : x.NotStale ↔ Answers200 x.response :=
      Exchange.notStale_iff.symm.trans ⟨fun h => h h200, fun h _ => h⟩
    -- the file is removed right after the answer, if uploaded files are deleted
    have htr : RemovalsConfirmed
        (((e.sent x).emit (.postAnswered name x.response)).acceptUpload x name).trace ↔
          (d.config.deleteUploadedLogs = true → Answers200 x.response) ∧
            RemovalsConfirmed (e.sent x).trace := by
      rw [acceptUpload_trace hmem hr, emit_config, hcfg]
      by_cases hd : d.config.deleteUploadedLogs = true
      · rw [if_pos hd, forall_prop_of_true hd]
        exact and_congr_left fun _ => and_iff_right rfl
      · rw [if_neg hd]
        exact (and_iff_right fun h => absurd h hd).symm
    refine htr.trans (and_congr ?_ hkeep)
    rw [← hans]
    exact ⟨fun h hd _ _ _ _ => h hd, fun h hd => h hd hg hc ((asked_send_eq_true_iff hs).1 rfl) ha⟩

end Device

/-! ## Runs of the program -/

/-- Logs are not to be overwritten, and the card operations of uploads succeed. -/
def KeepsLogs (_ : System) : Op → Prop
  | .boot config => config.overwriteLogs = false
  | .wifi w => ∀ n, (∀ k, (w.net n).reopens k = true) ∧ (w.net n).reopensAtEnd = true ∧
      (w.net n).removes = true
  | _ => True

/-- All calls of `upload_file` delete sincerely. -/
def Deletes (s : System) : Op → Prop
  | .wifi w => w.connected = true → ∀ u d, s.device.beforeUpload w = some (u, d) →
      ∀ c ∈ DataUploader.uploadCalls w.net w.rounds u d,
        Device.DeletesSincerely (w.net c.1) c.2.1 c.2.2
  | _ => True

namespace System

open Device

/-- The invariant of the program, in each phase. -/
def Inv (s : System) : Prop :=
  match s.phase with
  | .off | .booted => Safe s.device ∧ s.device.dataFile = none ∧ Direct s.device
  | .started => Safe s.device ∧ Writing s.device ∧ Direct s.device
  | .looping => Safe s.device ∧ Writing s.device

theorem inv_initial (card : Card) (eeprom : EEPROM) : Inv (.initial card eeprom) :=
  ⟨.of_closed rfl rfl rfl, rfl, rfl, rfl⟩

end System

namespace Device

variable {d e : Device} {w : WifiEnv}

/-- What an operation does to the files and to the removals. -/
structure Keeps (d d' : Device) (deletes : Prop) : Prop where
  kept : Kept d d'
  removals : RemovalsConfirmed d'.trace ↔ deletes ∧ RemovalsConfirmed d.trace

theorem Grows.keepsLogs {d' : Device} {p : Prop} (h : Grows d d') (hp : p) : Keeps d d' p :=
  ⟨h.kept, h.keeps.removalsConfirmed_iff.trans (and_iff_right hp).symm⟩

theorem boot_safe (config : ConfigManager) (hc : config.overwriteLogs = false) (d : Device) :
    Grows d (d.boot config) ∧ (d.boot config).dataFile = none ∧ Direct (d.boot config) := by
  unfold boot
  dsimp only
  split
  · exact ⟨⟨.of_eq rfl rfl, .of_eq rfl, .of_closed rfl hc rfl⟩, rfl, rfl, rfl⟩
  · exact ⟨⟨.of_eq rfl rfl, .of_eq rfl, .of_closed rfl hc rfl⟩, rfl, rfl, rfl⟩

/-- What comes before `upload_data` removes no files. -/
theorem Safe.beforeUpload {u : DataUploader} (h : Safe d) (hw : Writing d) (hd : Direct d)
    (hb : d.beforeUpload w = some (u, e)) : Grows d e ∧ Writing e ∧ Direct e := by
  have hc : Grows d (d.putNextToTry d.cursor) :=
    ⟨.of_eq rfl rfl, .of_eq rfl, ⟨h.overwriting, h.overwriteLogs, h.aligned, h.atEnd⟩⟩
  cases (constructed_of_beforeUpload hb).2 with
  | kept => exact ⟨hc, hw, hd⟩
  | restarted _ hst =>
    obtain ⟨hg, hw', hbuf, hmode⟩ := hc.safe.startLog hst
    exact ⟨hc.trans hg, hw', hbuf.trans hd.1, hmode.trans hd.2⟩

/-- `upload_data` keeps the files, and the removals confirmed if and only if its
    calls delete sincerely. -/
theorem Uploading.uploadRounds (h : Uploading d) (net : ℕ → Exchange) (fuel : ℕ)
    (u : DataUploader) (hn : ∀ n, (∀ k, (net n).reopens k = true) ∧ (net n).reopensAtEnd = true ∧
      (net n).removes = true) :
    Keeps d (DataUploader.uploadRounds net fuel u d).2.2
        (∀ c ∈ DataUploader.uploadCalls net fuel u d, DeletesSincerely (net c.1) c.2.1 c.2.2) ∧
      Uploading (DataUploader.uploadRounds net fuel u d).2.2 := by
  have hnext (u : DataUploader) {f : Device} (hf : Uploading f) :
      Kept f (u.incrementNextLogToUpload f).2.2 ∧ Uploading (u.incrementNextLogToUpload f).2.2 :=
    ⟨(emit_kept (.advanced u.nextLogToUpload) f).trans (.of_eq rfl rfl),
      ⟨hf.1.overwriting, hf.1.overwriteLogs, hf.1.aligned, hf.1.atEnd⟩, hf.2⟩
  have hk : Kept d (DataUploader.uploadRounds net fuel u d).2.2 ∧
      Uploading (DataUploader.uploadRounds net fuel u d).2.2 := by
    refine DataUploader.uploadRounds_induct (P := fun _ f => Kept d f ∧ Uploading f)
      (fun name v f hf _ => ?_) (fun v f hf => ?_) ⟨.refl d, h⟩
    · obtain ⟨hr, he, -⟩ := hn v.nextLogToUpload
      obtain ⟨hk', hu'⟩ := hf.2.uploadFile hr he name
      exact ⟨hf.1.trans hk', hu'⟩
    · obtain ⟨hk', hu'⟩ := hnext v hf.2
      exact ⟨hf.1.trans hk', hu'⟩
  refine ⟨⟨hk.1, ?_⟩, hk.2⟩
  refine DataUploader.uploadRounds_iff (Q := fun f => RemovalsConfirmed f.trace)
    (C := fun c => DeletesSincerely (net c.1) c.2.1 c.2.2) (I := fun _ _ => True)
    (fun v buf f b g _ hm hv => ?_) (fun _ _ _ _ _ _ _ => trivial) fun _ => trivial
  have hr := (upload_of_uploadFile hv).removalsConfirmed_iff hm (hn v.nextLogToUpload).2.2
  cases b with
  | false => exact hr
  | true => exact hr

end Device

namespace System

open Device

variable {s t : System}

/-- Every operation of the program keeps the files, and the removals confirmed if
    and only if its calls delete sincerely. -/
theorem Inv.step {op : Op} (h : Inv s) (hg : KeepsLogs s op) (hs : program.step s op = some t) :
    Inv t ∧ Device.Keeps s.device t.device (Deletes s op) := by
  obtain ⟨phase, hp, hs⟩ := Option.bind_eq_some_iff.1 hs
  obtain ⟨d', hd, rfl⟩ := Option.map_eq_some_iff.1 hs
  obtain ⟨p, d⟩ := s
  cases op with
  | boot config =>
    cases hd
    obtain ⟨hgr, hf, hdir⟩ := boot_safe config hg d
    -- whatever the phase is, a boot leads to the phase `booted`
    cases p <;> cases hp <;> exact ⟨⟨hgr.safe, hf, hdir⟩, hgr.keepsLogs trivial⟩
  | startLog fuel env =>
    cases p <;> cases hp
    obtain ⟨⟨b, e⟩, hst, rfl⟩ := Option.map_eq_some_iff.1 hd
    obtain ⟨hsafe, hf, hdir⟩ := h
    obtain ⟨hgr, hw, hbuf, hmode⟩ := hsafe.startLog hst
    have htimer : Grows e { e with canLogTimer := true } :=
      ⟨.of_eq rfl rfl, .of_eq rfl, ⟨hgr.safe.overwriting, hgr.safe.overwriteLogs,
        hgr.safe.aligned, hgr.safe.atEnd⟩⟩
    exact ⟨⟨htimer.safe, hw, hbuf.trans hdir.1, hmode.trans hdir.2⟩,
      (hgr.trans htimer).keepsLogs trivial⟩
  | restartLogging fuel env =>
    obtain ⟨⟨b, e⟩, hst, rfl⟩ := Option.map_eq_some_iff.1 hd
    have hsafe : Safe d := by cases p <;> cases hp <;> exact h.1
    obtain ⟨hgr, hw, -⟩ := hsafe.startLog hst
    cases p <;> cases hp <;> exact ⟨⟨hgr.safe, hw⟩, hgr.keepsLogs trivial⟩
  | writeSdLine fuel env opens line =>
    have hsafe : Safe d ∧ Writing d := by
      cases p <;> cases hp
      · exact ⟨h.1, h.2.1⟩
      · exact h
    obtain ⟨hgr, hw, hdir⟩ := hsafe.1.write hsafe.2 (write_of_writeSdLine hd)
    cases p <;> cases hp
    · exact ⟨⟨hgr.safe, hw, hdir h.2.2⟩, hgr.keepsLogs trivial⟩
    · exact ⟨⟨hgr.safe, hw⟩, hgr.keepsLogs trivial⟩
  | flushSdFile =>
    cases hd
    have hsafe : Safe d ∧ Writing d := by
      cases p <;> cases hp
      · exact ⟨h.1, h.2.1⟩
      · exact h
    have hgr := hsafe.1.flushSdFile
    have hdir (hm : d.noWriteFile = false) : Direct d.flushSdFile := by
      rw [flushSdFile, drainBuffer_eq]
      exact ⟨rfl, hm⟩
    cases p <;> cases hp
    · exact ⟨⟨hgr.safe, hsafe.2.flushSdFile, hdir h.2.2.2⟩, hgr.keepsLogs trivial⟩
    · exact ⟨⟨hgr.safe, hsafe.2.flushSdFile⟩, hgr.keepsLogs trivial⟩
  | reopenFile succeeds => cases p <;> cases hp
  | setNoWriteFile b => cases p <;> cases hp
  | wifi w =>
    cases p <;> cases hp
    obtain ⟨hsafe, hw, hdir⟩ := h
    cases wifi_of_wifi hd with
    | @uploaded u v e f hc he hf =>
      obtain ⟨hgr, hw', hdir'⟩ := hsafe.beforeUpload hw hdir he
      -- only the uploads remove files: what comes before them keeps the removals confirmed
      have hup : Uploading e := ⟨hgr.safe, hw', hdir'.1⟩
      obtain ⟨hk, hu⟩ := hup.uploadRounds w.net w.rounds u hg
      rw [hf] at hk hu
      refine ⟨⟨hu.1, hu.2.1⟩, hgr.kept.trans hk.kept, hk.removals.trans ?_⟩
      rw [hgr.keeps.removalsConfirmed_iff]
      refine and_congr_left fun _ => ⟨fun h _ u' e' he' => ?_, fun h => h hc u e he⟩
      cases he.symm.trans he'
      exact h
    | unconnected hc =>
      have hgr : Grows d (d.putNextToTry d.cursor) :=
        ⟨.of_eq rfl rfl, .of_eq rfl,
          ⟨hsafe.overwriting, hsafe.overwriteLogs, hsafe.aligned, hsafe.atEnd⟩⟩
      exact ⟨⟨hgr.safe, hw⟩,
        hgr.keepsLogs fun hc' => absurd (hc.symm.trans hc') Bool.false_ne_true⟩

theorem Inv.run {ops : List Op} (h : Inv s) (hr : program.Run KeepsLogs s ops t) :
    Inv t ∧ Kept s.device t.device ∧ (RemovalsConfirmed t.device.trace ↔
      program.Run (fun s op => KeepsLogs s op ∧ Deletes s op) s ops t ∧
        RemovalsConfirmed s.device.trace) := by
  induction hr with
  | nil s => exact ⟨h, .refl _, (and_iff_right (.nil s)).symm⟩
  | cons hg hst _ ih =>
    obtain ⟨hi, hk⟩ := h.step hg hst
    obtain ⟨hi', hk', hr'⟩ := ih hi
    refine ⟨hi', hk.kept.trans hk', hr'.trans ?_⟩
    rw [hk.removals, ← and_assoc]
    refine and_congr_left fun _ => ⟨fun h => .cons ⟨hg, h.2⟩ hst h.1, fun h => ?_⟩
    cases h with
    | cons hg' hst' hr =>
      cases hst.symm.trans hst'
      exact ⟨hr, hg'.2⟩

end System

/-- In every run of the program from any card and EEPROM contents, in which logs
    are not to be overwritten and the card operations succeed, a file only grows
    at its end as long as it is not removed, and files are only removed after
    status 200 for their POST if and only if all uploads deleted sincerely. -/
theorem logs_kept_iff (card : Card) (eeprom : EEPROM) {ops ops' : List Op} {s t : System}
    (h : program.Run KeepsLogs (.initial card eeprom) ops s) (h' : program.Run KeepsLogs s ops' t) :
    Device.Kept s.device t.device ∧
      (RemovalsConfirmed s.device.trace ↔
        program.Run (fun s op => KeepsLogs s op ∧ Deletes s op) (.initial card eeprom) ops s) := by
  obtain ⟨hi, -, hr⟩ := (System.inv_initial card eeprom).run h
  exact ⟨(hi.run h').2.1, hr.trans (and_iff_left trivial)⟩

/-- A log started on the first boot, flushed, and followed by another. -/
theorem logs_kept_iff_first_boot :
    ∃ s t, program.Run KeepsLogs (.initial ∅ ⟨65535, 65535, 65535, 65535⟩)
        [.boot {}, .startLog 1 .roomy] s ∧
      program.Run KeepsLogs s [.flushSdFile, .restartLogging 1 .roomy] t ∧
      Device.Kept s.device t.device ∧
      (RemovalsConfirmed s.device.trace ↔
        program.Run (fun s op => KeepsLogs s op ∧ Deletes s op)
          (.initial ∅ ⟨65535, 65535, 65535, 65535⟩) [.boot {}, .startLog 1 .roomy] s) :=
  have h := .cons rfl rfl (.cons trivial rfl (.nil _))
  have h' := .cons trivial rfl (.cons trivial rfl (.nil _))
  ⟨_, _, h, h', logs_kept_iff _ _ h h'⟩

/-- An answer cut off before its status, read into an array that holds one. -/
def staleAnswer : Exchange :=
  { getStatus := 404
    arrived := "HTTP/1.1 ".toList
    status := "HTTP/1.1 200".toList }

/-- The log is removed, though the server never answered with status 200. -/
theorem log_removed_unconfirmed :
    ∃ s, program.Run KeepsLogs
        (.initial (Finmap.singleton (logName 1) ['x']) ⟨2, 1, 1, 1⟩)
        [.boot { deleteUploadedLogs := true }, .startLog 1 .roomy,
          .wifi { net := fun _ => staleAnswer, rounds := 2 }] s ∧
      ¬ RemovalsConfirmed s.device.trace := by
  refine ⟨_, .cons rfl rfl (.cons trivial rfl (.cons (fun _ => ⟨fun _ => rfl, rfl, rfl⟩) rfl
    (.nil _))), fun h => ?_⟩
  have h' : Answers200 "HTTP/1.1 ".toList := h.1.2
  exact absurd h' (by decide)

end CanInsight
