import CanInsight.Transfers

/-!
# The POST of a file

`upload_file` announces the size of the file in the header of its POST, and then sends
the whole of its block buffer for every block, also for one that the file does not fill.

* `posts`: the POSTs of a run, each with its header and the bytes sent after it;
* `posts_sendLoop`: what the loop sends, by induction on the blocks: the file from the
  block on, and what fills up the last block;
* `carriesFile_iff`: the announced length and the body are those of the file if and only
  if the file ends with a block and its size is a positive `int`.
-/

namespace CanInsight

open CString

/-! ## Posts -/

/-- The POSTs of a run, the latest first: the header, and what was sent after it. -/
def posts : List Event → List (Bytes × Bytes)
  | [] => []
  | .postSent header :: trace => (header, []) :: posts trace
  | .bodySent bytes :: trace =>
    match posts trace with
    | [] => []
    | (header, body) :: ps => (header, body ++ bytes) :: ps
  | _ :: trace => posts trace

/-- The events that are not about the POST of a file. -/
def Event.Unposted : Event → Prop
  | .postSent _ | .bodySent _ => False
  | _ => True

/-- The last field of a header is the length of the content. -/
def Announces (header : Bytes) (size : ℕ) : Prop :=
  "Content-Length: ".toList ++ decimal size ++ "\n".toList ++ crlf <:+ header

/-- Between two states, one POST was made, which announces and carries a content. -/
def CarriesFile (d e : Device) (content : Bytes) : Prop :=
  ∃ header, posts e.trace = (header, content) :: posts d.trace ∧ Announces header content.length

theorem posts_cons {e : Event} (h : e.Unposted) (trace : List Event) :
    posts (e :: trace) = posts trace := by
  cases e with
  | postSent | bodySent => exact absurd h id
  | _ => rfl

theorem posts_append {es : List Event} (h : ∀ e ∈ es, e.Unposted) (trace : List Event) :
    posts (es ++ trace) = posts trace := by
  induction es with
  | nil => rfl
  | cons e es ih =>
    rw [List.forall_mem_cons] at h
    rw [List.cons_append, posts_cons h.1, ih h.2]

/-- The last space of a text ends what is before it. -/
theorem eq_of_append_space {a b s t : List Char} (hs : ' ' ∉ s) (ht : ' ' ∉ t)
    (h : a ++ ' ' :: s = b ++ ' ' :: t) : s = t := by
  have hr : s.reverse ++ ' ' :: a.reverse = t.reverse ++ ' ' :: b.reverse := by
    have hrev := congrArg List.reverse h
    simpa using hrev
  have hw {u v : List Char} (hu : ' ' ∉ u) :
      (u.reverse ++ ' ' :: v).takeWhile (· ≠ ' ') = u.reverse := by
    have hne : ∀ c ∈ u.reverse, decide (c ≠ ' ') = true :=
      fun c hc => decide_eq_true (ne_of_mem_of_not_mem (List.mem_reverse.1 hc) hu)
    rw [List.takeWhile_append_of_pos hne]
    simp
  refine List.reverse_injective ?_
  rw [← hw hs, hr, hw ht]

theorem space_not_mem_decimal (n : ℤ) : ' ' ∉ decimal n := by
  intro h
  rcases mem_decimal h with h | h
  · cases h
  · cases h

theorem decimal_i32_eq_iff {n : ℕ} (h : n < 2 ^ 32) : decimal (i32 n) = decimal n ↔ n < 2 ^ 31 := by
  refine ⟨fun he => ?_, fun hlt => by rw [(i32_eq_iff h).2 hlt]⟩
  by_contra hlt
  -- a number that is read as a negative one is printed with a sign
  obtain ⟨m, hm⟩ : ∃ m, i32 n = Int.negSucc m := by
    have hneg : i32 n < 0 := by
      rw [i32, u32, Nat.mod_eq_of_lt h, if_neg hlt]
      omega
    exact Int.eq_negSucc_of_lt_zero hneg
  have hsign : '-' ∈ decimal n := by
    rw [← he, hm, decimal_negSucc]
    exact List.mem_cons_self
  rw [decimal_natCast] at hsign
  cases Nat.isDigit_of_mem_toDigits (by decide) (by decide) hsign

/-- The size is announced as it is as long as it is a positive `int`. -/
theorem announces_postHeader_iff {config : ConfigManager} {m : LogFileMeta} {name : Name} {n : ℕ}
    (h : n < 2 ^ 32) : Announces (postHeader config m name n) n ↔ n < 2 ^ 31 := by
  have hfield : "Content-Length: ".toList = "Content-Length:".toList ++ [' '] := by decide
  have hspace {k : ℤ} : ' ' ∉ decimal k ++ ("\n".toList ++ crlf) := by
    rw [List.mem_append, not_or]
    exact ⟨space_not_mem_decimal k, by decide⟩
  have hfields :
      " HTTP/1.1\nUser-Agent: Arduino/1.0\nContent-Type: text/plain\nContent-Length: ".toList =
      " HTTP/1.1\nUser-Agent: Arduino/1.0\nContent-Type: text/plain\n".toList ++
        "Content-Length: ".toList := by
    simp -implicitDefEqProofs only [String.reduceToList, List.cons_append, List.nil_append]
  obtain ⟨before, hbefore⟩ : ∃ before, postHeader config m name n =
      before ++ "Content-Length: ".toList ++ decimal (i32 n) ++ "\n".toList ++ crlf := by
    delta postHeader
    rw [hfields, ← List.append_assoc _ _ "Content-Length: ".toList]
    exact ⟨_, rfl⟩
  rw [← decimal_i32_eq_iff h, Announces, hbefore, hfield]
  constructor
  · rintro ⟨a, ha⟩
    have heq := eq_of_append_space (a := a ++ "Content-Length:".toList)
      (b := before ++ "Content-Length:".toList) hspace hspace
      (by simpa only [List.append_assoc, List.cons_append, List.nil_append] using ha)
    exact (List.append_cancel_right heq).symm
  · intro he
    rw [he]
    exact ⟨before, by simp only [List.append_assoc]⟩

namespace Device

variable {x : Exchange} {name : Name} {content buf body header : Bytes} {d e : Device}
  {ps : List (Bytes × Bytes)} {size fuel i k pos : ℕ}

theorem posts_of_extends (h : Extends Event.Unposted d e) : posts e.trace = posts d.trace := by
  obtain ⟨es, ht, hes⟩ := h
  rw [ht, posts_append hes]

theorem ofWrite_unposted (e : Event) (h : e.OfWrite) : e.Unposted := by
  cases e <;> trivial

theorem isRemoved_unposted (e : Event) (h : e.IsRemoved) : e.Unposted := by
  cases e <;> trivial

/-! ## The loop -/

/-- The block buffer after the file was read into it from a position on. -/
def readBlock (content : Bytes) (pos : ℕ) (buf : Bytes) : Bytes :=
  (content.drop pos).take fileBufLen ++
    (buf.set 0 nul).drop ((content.drop pos).take fileBufLen).length

/-- The file holds the same content throughout its transfer, after however many blocks. -/
def Unchanged (x : Exchange) (name : Name) (d : Device) (content : Bytes) : Prop :=
  ∀ k, (((d.asked x name).posting x name).sendLoop x name (d.fileSize name) k 0 0
    (List.replicate fileBufLen nul)).2.card.lookup name = some content

theorem sendLoop_succ (hi : i < size) (hc : x.connected (i / fileBufLen) = true)
    (hfile : d.card.lookup name = some content) (hpos : pos ≤ content.length) :
    sendLoop x name size (fuel + 1) i pos buf d =
      sendLoop x name size fuel (i + fileBufLen)
        (pos + ((content.drop pos).take fileBufLen).length) (readBlock content pos buf)
        ((d.flushedAfter x (i / fileBufLen)).emit (.bodySent (readBlock content pos buf))) := by
  rw [sendLoop, if_pos hi]
  dsimp only
  rw [hc, hfile, if_neg (by decide), Option.getD_some, if_pos hpos]
  rfl

theorem add_min_sub {i b n : ℕ} (h : i ≤ n) : i + min b (n - i) = min (i + b) n := by omega

/-- From the start of a block on, the loop sends the rest of the file, and then what fills up
    the last block. -/
theorem posts_sendLoop (hl : Lasts x content.length) (hi : i = k * fileBufLen)
    (hpos : pos = min i content.length) (hbuf : buf.length = fileBufLen)
    (hun : ∀ m, (sendLoop x name content.length m i pos buf d).2.card.lookup name = some content)
    (hf : content.length ≤ (k + fuel) * fileBufLen) (hp : posts d.trace = (header, body) :: ps) :
    ∃ rest, posts (sendLoop x name content.length fuel i pos buf d).2.trace =
        (header, body ++ (content.drop i ++ rest)) :: ps ∧
      rest.length < fileBufLen ∧ (content.length - i + rest.length) % fileBufLen = 0 := by
  have hB : 0 < fileBufLen := by decide
  -- nothing fills up a block that is not sent
  have hdone {j : ℕ} (hle : content.length ≤ j) :
      (content.length - j + ([] : Bytes).length) % fileBufLen = 0 := by
    rw [Nat.sub_eq_zero_of_le hle]
    rfl
  induction fuel generalizing i k pos buf d body with
  | zero =>
    have hle : content.length ≤ i := hi ▸ hf
    refine ⟨[], ?_, by decide, hdone hle⟩
    rw [List.drop_eq_nil_of_le hle, List.append_nil, List.append_nil]
    exact hp
  | succ fuel ih =>
    by_cases hlt : i < content.length
    · have hk : i / fileBufLen = k := by rw [hi, Nat.mul_div_cancel k (by decide)]
      have hc : x.connected (i / fileBufLen) = true := by
        rw [hk]
        exact hl k (hi ▸ hlt)
      obtain rfl : i = pos := (hpos.trans (Nat.min_eq_left hlt.le)).symm
      have hfile : d.card.lookup name = some content := hun 0
      have hstep (m : ℕ) : sendLoop x name content.length (m + 1) i i buf d = _ :=
        sendLoop_succ hlt hc hfile hlt.le
      have hread : ((content.drop i).take fileBufLen).length =
          min fileBufLen (content.length - i) := by
        rw [List.length_take, List.length_drop]
      have hblock : (readBlock content i buf).length = fileBufLen := by
        rw [readBlock, List.length_append, List.length_drop, List.length_set, hbuf, hread]
        omega
      rw [hstep]
      have hposts : posts ((d.flushedAfter x (i / fileBufLen)).emit
          (.bodySent (readBlock content i buf))).trace =
          (header, body ++ readBlock content i buf) :: ps := by
        have hx := (flushedAfter_extends x (i / fileBufLen) d).mono ofWrite_unposted
        rw [emit_trace, posts, posts_of_extends hx, hp]
      obtain ⟨rest, hrest, hlen, hmod⟩ := ih (k := k + 1) (by rw [hi, Nat.succ_mul])
        (by rw [hread, add_min_sub hlt.le]) hblock (fun m => hstep m ▸ hun (m + 1))
        (by rwa [Nat.add_assoc, Nat.add_comm 1]) hposts
      by_cases hfull : i + fileBufLen ≤ content.length
      · -- the file fills the block
        have hb : readBlock content i buf = (content.drop i).take fileBufLen := by
          have hnil : (buf.set 0 nul).drop fileBufLen = [] :=
            List.drop_eq_nil_of_le (by rw [List.length_set, hbuf])
          rw [readBlock, hread, Nat.min_eq_left (by omega), hnil, List.append_nil]
        have hsize : content.length - i + rest.length =
            content.length - (i + fileBufLen) + rest.length + fileBufLen := by omega
        refine ⟨rest, ?_, hlen, by rw [hsize, Nat.add_mod_right, hmod]⟩
        rw [hrest, hb, ← List.drop_drop, List.append_assoc, ← List.append_assoc (List.take _ _),
          List.take_append_drop]
      · -- the block ends with what was in the buffer before
        have hnil : rest = [] := by
          rwa [Nat.sub_eq_zero_of_le (by omega), Nat.zero_add, Nat.mod_eq_of_lt hlen,
            List.length_eq_zero_iff] at hmod
        have htake : (content.drop i).take fileBufLen = content.drop i :=
          List.take_of_length_le (by rw [List.length_drop]; omega)
        refine ⟨(buf.set 0 nul).drop (content.length - i), ?_, ?_, ?_⟩
        · rw [hrest, hnil, readBlock, htake, List.drop_eq_nil_of_le (by omega : _ ≤ i + fileBufLen),
            List.length_drop, List.append_nil, List.append_nil]
        · rw [List.length_drop, List.length_set, hbuf]
          omega
        · rw [List.length_drop, List.length_set, hbuf, Nat.add_sub_cancel' (by omega),
            Nat.mod_self]
    · have hle := Nat.not_lt.1 hlt
      refine ⟨[], ?_, by decide, hdone hle⟩
      rw [sendLoop, if_neg hlt, List.drop_eq_nil_of_le hle, List.append_nil, List.append_nil]
      exact hp

/-! ## The upload -/

theorem Unchanged.lookup (h : Unchanged x name d content) :
    d.card.lookup name = some content := by
  have h₀ := h 0
  rwa [sendLoop] at h₀

theorem Unchanged.fileSize (h : Unchanged x name d content) : d.fileSize name = content.length := by
  rw [Device.fileSize, h.lookup, Option.getD_some]

/-- Once the file has been sent, nothing more is posted. -/
theorem unposted_of_send (h₁ : x.getStatus = 404) (h₂ : x.connects = true)
    (hs : (d.asked x name).send x name = (true, e)) :
    Extends Event.Unposted e (d.uploadFile x name).2 :=
  uploadFile_extends_of_send h₁ h₂ hs ofWrite_unposted isRemoved_unposted trivial trivial

/-- The POST of a file, as long as the connection lasts: its header, its content, and what
    fills up the last block. -/
theorem posts_uploadFile (h₁ : x.getStatus = 404) (h₂ : x.connects = true)
    (hl : Lasts x content.length) (hun : Unchanged x name d content) :
    ∃ rest, posts (d.uploadFile x name).2.trace =
        (postHeader d.config x.logMeta name content.length, content ++ rest) :: posts d.trace ∧
      rest.length < fileBufLen ∧ (content.length + rest.length) % fileBufLen = 0 := by
  rcases hs : (d.asked x name).send x name with ⟨b, e⟩
  have hsize := hun.fileSize
  have hb : b = true := (asked_send_eq_true_iff hs).2 (hsize ▸ hl)
  subst hb
  have hasked : ((d.asked x name).fileSize name) = content.length := hsize
  have hposting : posts ((d.asked x name).posting x name).trace =
      (postHeader d.config x.logMeta name content.length, []) :: posts d.trace := by
    rw [← hasked]
    rfl
  rw [Unchanged, hsize] at hun
  obtain ⟨rest, hrest, hlen, hmod⟩ := posts_sendLoop hl (Nat.zero_mul _).symm
    (Nat.zero_min _).symm List.length_replicate hun (le_blocks _) hposting
  rw [send, hasked] at hs
  rw [hs, List.drop_zero, List.nil_append] at hrest
  rw [Nat.sub_zero] at hmod
  refine ⟨rest, ?_, hlen, hmod⟩
  rw [← hrest]
  refine posts_of_extends (unposted_of_send h₁ h₂ ?_)
  rw [send, hasked, hs]

/-- The POST of a file that does not change announces its size and carries the file, if and
    only if the file ends with a block, and its size is a positive `int`. -/
theorem carriesFile_iff (h₁ : x.getStatus = 404) (h₂ : x.connects = true)
    (hl : Lasts x content.length) (hun : Unchanged x name d content)
    (hsize : content.length < 2 ^ 32) :
    CarriesFile d (d.uploadFile x name).2 content ↔
      content.length % fileBufLen = 0 ∧ content.length < 2 ^ 31 := by
  obtain ⟨rest, hposts, hlen, hmod⟩ := posts_uploadFile h₁ h₂ hl hun
  have hrest : rest = [] ↔ content.length % fileBufLen = 0 := by
    refine ⟨fun h => by rwa [h, List.length_nil, Nat.add_zero] at hmod, fun h => ?_⟩
    rwa [Nat.add_mod, h, Nat.zero_add, Nat.mod_mod, Nat.mod_eq_of_lt hlen,
      List.length_eq_zero_iff] at hmod
  rw [CarriesFile, hposts, ← hrest, ← announces_postHeader_iff hsize]
  constructor
  · rintro ⟨header, heq, ha⟩
    rw [List.cons.injEq, Prod.mk.injEq, List.append_right_eq_self] at heq
    exact ⟨heq.1.2, heq.1.1 ▸ ha⟩
  · rintro ⟨rfl, ha⟩
    exact ⟨_, by rw [List.append_nil], ha⟩

/-! ## Files that do not change -/

/-- A file that has a content is not that of the log. -/
structure Apart (name : Name) (content : Bytes) (d : Device) : Prop where
  file : d.card.lookup name = some content
  log : d.logFile ≠ name
  dataFile : ∀ f, d.dataFile = some f → f.name ≠ name

theorem Apart.emit (h : Apart name content d) (ev : Event) : Apart name content (d.emit ev) :=
  ⟨h.file, h.log, h.dataFile⟩

theorem Apart.flags (h : Apart name content d) (timer noWrite : Bool) :
    Apart name content { d with canLogTimer := timer, noWriteFile := noWrite } :=
  ⟨h.file, h.log, h.dataFile⟩

theorem Apart.flushSdFile (h : Apart name content d) : Apart name content d.flushSdFile := by
  have hdrained : Apart name content d.drainBuffer := by
    rw [drainBuffer_eq]
    refine ⟨h.file, h.log, fun f hf => ?_⟩
    obtain ⟨g, hg, rfl⟩ := Option.map_eq_some_iff.1 hf
    exact h.dataFile g hg
  exact ⟨(syncedCard_lookup_of_ne hdrained.dataFile).trans hdrained.file, hdrained.log,
    hdrained.dataFile⟩

theorem Apart.reopenFile (h : Apart name content d) (b : Bool) :
    Apart name content (d.reopenFile b) := by
  have hclosed := (syncedCard_lookup_of_ne h.dataFile).trans h.file
  refine ⟨?_, h.log, fun f hf => ?_⟩
  · have hcard : (d.reopenFile b).card = (d.closeDataFile.openDataFile b).card := rfl
    rw [hcard, openDataFile_card]
    split
    · exact (Finmap.lookup_insert_of_ne _ h.log.symm).trans hclosed
    · exact hclosed
  · rw [reopenFile_named hf]
    exact h.log

/-- The file of a log that is not the one being written does not change. -/
theorem unchanged_of_apart (h : Apart name content d) : Unchanged x name d content := by
  have hposting : Apart name content ((d.asked x name).posting x name) :=
    posting_induct (fun ev e _ h => h.emit ev) (fun timer noWrite e h => h.flags timer noWrite) h
  exact fun k => (sendLoop_induct (P := Apart name content) (fun bytes e h => h.emit _)
    (fun k e h => (h.reopenFile _).flushSdFile) (fun e h => h.flags true _) hposting).file

/-- A card with one file, which is not the log. -/
def withFile (content : Bytes) : Device := .initial (.singleton (logName 1) content) ⟨2, 1, 1, 1⟩

theorem unchanged_withFile (x : Exchange) (content : Bytes) :
    Unchanged x (logName 1) (withFile content) content :=
  have hlog : toText defaultLogFileName ≠ logName 1 := by decide
  unchanged_of_apart ⟨Finmap.lookup_singleton_eq, hlog, fun _ h => by cases h⟩

/-- A file of one block. -/
theorem carriesFile_one_block :
    CarriesFile (withFile (List.replicate fileBufLen 'x'))
        ((withFile (List.replicate fileBufLen 'x')).uploadFile { getStatus := 404 } (logName 1)).2
        (List.replicate fileBufLen 'x') ↔
      (List.replicate fileBufLen 'x').length % fileBufLen = 0 ∧
        (List.replicate fileBufLen 'x').length < 2 ^ 31 :=
  carriesFile_iff rfl rfl (fun _ _ => rfl) (unchanged_withFile _ _)
    (by rw [List.length_replicate]; decide)

/-- A file of one byte is sent as a whole block. -/
theorem not_carriesFile_one_byte :
    ¬ CarriesFile (withFile ['x'])
      ((withFile ['x']).uploadFile { getStatus := 404 } (logName 1)).2 ['x'] := by
  rintro ⟨header, heq, -⟩
  obtain ⟨rest, hposts, -, hmod⟩ :=
    posts_uploadFile (x := { getStatus := 404 }) rfl rfl (fun _ _ => rfl)
      (unchanged_withFile _ ['x'])
  rw [hposts, List.cons.injEq, Prod.mk.injEq, List.append_right_eq_self] at heq
  rw [heq.1.2] at hmod
  exact absurd hmod (by decide)

end Device

end CanInsight
