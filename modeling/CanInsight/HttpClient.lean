import CanInsight.Confirmation

/-!
# The status of a response

`responseStatusCode` of the HTTP client, which reads the first line of a response byte by byte,
passes over informational lines, and gives up after half a minute of silence.

* `responseStatusCode_spec`: which responses have which status, which are rejected, and that it
  takes all others for a timeout;
* `answers200_iff_of_statusLine`: when the answer to the POST, of which `upload_file` only looks
  at twelve bytes, is read as the client would have read it;
* `uploadFile_of_responses`: the result of `upload_file`, by the bytes of the two responses.
-/

namespace CanInsight

open CString

namespace HttpClient

/-- `HTTP_ERROR_TIMED_OUT`. -/
def timedOut : ℤ := -3

/-- `HTTP_ERROR_INVALID_RESPONSE`. -/
def invalidResponse : ℤ := -4

/-- `iState`, with the part of `statusPrefix` still expected. -/
inductive State
  | requestSent (statusPtr : Bytes)
  | readingStatusCode
  | statusCodeRead
  deriving DecidableEq

/-- `iState` and the 32 bits of `iStatusCode`. -/
structure Status where
  state : State
  iStatusCode : ℕ
  deriving DecidableEq

/-- `statusPrefix`. -/
def statusPrefix : Bytes := "HTTP/*.* ".toList

/-- The status at the beginning of a round. -/
def Status.start : Status := ⟨.requestSent statusPrefix, 0⟩

/-- The code is informational, or there is none. -/
def Informational (code : ℤ) : Prop := code < 200 ∧ code ≠ 101

instance (code : ℤ) : Decidable (Informational code) := inferInstanceAs (Decidable (_ ∧ _))

/-- `iStatusCode*10 + (c - '0')`, in 32 bits. -/
def addDigit (code : ℕ) (c : Char) : ℕ := u32 (code * 10 + (c.toNat - '0'.toNat))

/-- What a byte does to the status; nothing is `HTTP_ERROR_INVALID_RESPONSE`. -/
def Status.readByte (s : Status) (c : Char) : Option Status :=
  match s.state with
  | .requestSent [] => none
  | .requestSent (p :: statusPtr) =>
    if p = '*' ∨ p = c then
      some { s with state := if statusPtr = [] then .readingStatusCode else .requestSent statusPtr }
    else none
  | .readingStatusCode =>
    if c.isDigit then some { s with iStatusCode := addDigit s.iStatusCode c }
    else some { s with state := .statusCodeRead }
  | .statusCodeRead => some s

/-- What follows a round, which ends with a line or in silence: another one, or a result. -/
def Status.endOfRound (s : Status) (line : Bool) : Option ℤ :=
  -- an informational line is as if it had not ended
  let line := line && !decide (Informational (i32 s.iStatusCode))
  if s.state = .statusCodeRead ∧ Informational (i32 s.iStatusCode) then none
  else if line && decide (s.state = .statusCodeRead) then some (i32 s.iStatusCode)
  else if !line then some timedOut
  else some invalidResponse

/-- What comes from the server: a byte, or nothing for as long as `iHttpResponseTimeout`. After
    the last arrival, nothing comes for ever. -/
abbrev Arrivals := List (Option Char)

/-- The two loops of `responseStatusCode`: the result, and what has not been read. -/
def readFrom : Status → Arrivals → ℤ × Arrivals
  | s, [] => ((s.endOfRound false).getD timedOut, [])
  | s, none :: input =>
    match s.endOfRound false with
    | none => readFrom .start input
    | some result => (result, input)
  | s, some c :: input =>
    match s.readByte c with
    | none => (invalidResponse, input)
    | some s =>
      if c = '\n' then
        match s.endOfRound true with
        | none => readFrom .start input
        | some result => (result, input)
      else readFrom s input

/-- `responseStatusCode`, once the request has been sent. -/
def responseStatusCode (input : Arrivals) : ℤ × Arrivals := readFrom .start input

/-! ## Status lines -/

/-- The bytes of a text, without a silence. -/
def bytes (text : Bytes) : Arrivals := text.map some

/-- A text that matches a pattern within a line. -/
def Matches (pattern text : Bytes) : Prop :=
  List.Forall₂ (fun p c => (p = '*' ∨ p = c) ∧ c ≠ '\n') pattern text

/-- A status line, up to its end. -/
structure StatusLine where
  version : Bytes
  digits : Bytes
  reason : Bytes
  matches_version : Matches statusPrefix version
  isDigit_of_mem : ∀ c ∈ digits, c.isDigit = true
  not_isDigit_head : ∀ c ∈ reason.head?, c.isDigit = false
  not_mem_reason : '\n' ∉ reason

namespace StatusLine

def text (l : StatusLine) : Bytes := l.version ++ l.digits ++ l.reason

/-- The code, as 32 bits hold it. -/
def code (l : StatusLine) : ℤ := i32 (Nat.ofDigitChars 10 l.digits 0)

end StatusLine

/-- What is passed over before the line that counts: informational lines, and beginnings of them
    that end, after the code, in silence. -/
inductive Skips : Arrivals → Arrivals → Prop
  | refl (input : Arrivals) : Skips input input
  | line (l : StatusLine) {input rest : Arrivals} : Informational l.code → Skips input rest →
      Skips (bytes l.text ++ some '\n' :: input) rest
  | silence (l : StatusLine) {input rest : Arrivals} : l.reason ≠ [] → Informational l.code →
      Skips input rest → Skips (bytes l.text ++ none :: input) rest

/-! ## Reading a line -/

variable {s s' : Status} {input rest : Arrivals} {code n : ℕ} {c : Char} {text digits : Bytes}
  {l : StatusLine}

/-- The state in which the rest of the prefix is expected. -/
def expecting (statusPtr : Bytes) : State :=
  if statusPtr = [] then .readingStatusCode else .requestSent statusPtr

theorem bytes_cons (c : Char) (text : Bytes) : bytes (c :: text) = some c :: bytes text := rfl

theorem bytes_append (text text' : Bytes) : bytes (text ++ text') = bytes text ++ bytes text' :=
  List.map_append

theorem readFrom_byte (h : s.readByte c = some s') (hc : c ≠ '\n') :
    readFrom s (some c :: input) = readFrom s' input := by
  rw [readFrom, h]
  exact if_neg hc

theorem readFrom_prefix {pattern statusPtr version : Bytes} (h : Matches pattern version) :
    readFrom ⟨expecting (pattern ++ statusPtr), code⟩ (bytes version ++ input) =
      readFrom ⟨expecting statusPtr, code⟩ input := by
  induction h with
  | nil => rfl
  | @cons p c pattern version hc _ ih =>
    have hread : Status.readByte ⟨expecting (p :: (pattern ++ statusPtr)), code⟩ c =
        some ⟨expecting (pattern ++ statusPtr), code⟩ := by
      rw [Status.readByte, expecting, if_neg (List.cons_ne_nil _ _)]
      dsimp only
      rw [if_pos hc.1]
      rfl
    rw [bytes_cons, List.cons_append, List.cons_append, readFrom_byte hread hc.2, ih]

theorem i32_u32 (n : ℕ) : i32 (u32 n) = i32 n := by
  have h : u32 (u32 n) = u32 n := Nat.mod_mod n _
  rw [i32, i32, h]

theorem readFrom_digits (h : ∀ c ∈ digits, c.isDigit = true) (n : ℕ) :
    readFrom ⟨.readingStatusCode, u32 n⟩ (bytes digits ++ input) =
      readFrom ⟨.readingStatusCode, u32 (Nat.ofDigitChars 10 digits n)⟩ input := by
  induction digits generalizing n with
  | nil => rfl
  | cons c digits ih =>
    obtain ⟨hc, hdigits⟩ := List.forall_mem_cons.1 h
    have hline : c ≠ '\n' := by
      rintro rfl
      cases hc
    have hadd : addDigit (u32 n) c = u32 (10 * n + (c.toNat - '0'.toNat)) := by
      simp only [addDigit, u32]
      omega
    have hread : Status.readByte ⟨.readingStatusCode, u32 n⟩ c =
        some ⟨.readingStatusCode, addDigit (u32 n) c⟩ := if_pos hc
    rw [bytes_cons, List.cons_append, readFrom_byte hread hline, hadd, ih hdigits,
      Nat.ofDigitChars_cons]

theorem readFrom_text (h : '\n' ∉ text) :
    readFrom ⟨.statusCodeRead, code⟩ (bytes text ++ input) =
      readFrom ⟨.statusCodeRead, code⟩ input := by
  induction text with
  | nil => rfl
  | cons c text ih =>
    have hline : c ≠ '\n' := fun he => h (he ▸ List.mem_cons_self)
    rw [bytes_cons, List.cons_append, readFrom_byte rfl hline,
      ih fun hc => h (List.mem_cons_of_mem _ hc)]

/-- What follows the code, up to the end of the line. -/
theorem readFrom_reason (hhead : ∀ c ∈ text.head?, c.isDigit = false) (h : '\n' ∉ text)
    (hne : text ≠ []) : readFrom ⟨.readingStatusCode, code⟩ (bytes text ++ input) =
      readFrom ⟨.statusCodeRead, code⟩ input := by
  cases text with
  | nil => exact absurd rfl hne
  | cons c text =>
    have hc : ¬ c.isDigit = true := by
      rw [hhead c rfl]
      exact Bool.false_ne_true
    have hline : c ≠ '\n' := fun he => h (he ▸ List.mem_cons_self)
    have hread : Status.readByte ⟨.readingStatusCode, code⟩ c = some ⟨.statusCodeRead, code⟩ :=
      if_neg hc
    rw [bytes_cons, List.cons_append, readFrom_byte hread hline,
      readFrom_text fun hc => h (List.mem_cons_of_mem _ hc)]

/-- The round that a status line makes up to its reason. -/
theorem readFrom_code (l : StatusLine) (input : Arrivals) :
    readFrom .start (bytes l.text ++ input) =
      readFrom ⟨.readingStatusCode, u32 (Nat.ofDigitChars 10 l.digits 0)⟩
        (bytes l.reason ++ input) := by
  have hstart : Status.start = ⟨expecting (statusPrefix ++ []), u32 0⟩ := rfl
  rw [StatusLine.text, bytes_append, bytes_append, List.append_assoc, List.append_assoc, hstart,
    readFrom_prefix l.matches_version]
  exact readFrom_digits l.isDigit_of_mem 0

/-- A line that ends after its code has been read. -/
theorem endOfRound_line (code : ℕ) :
    Status.endOfRound ⟨.statusCodeRead, code⟩ true =
      if Informational (i32 code) then none else some (i32 code) := by
  by_cases h : Informational (i32 code)
  · rw [Status.endOfRound, if_pos ⟨rfl, h⟩, if_pos h]
  · rw [Status.endOfRound, if_neg (fun hs => h hs.2), if_neg h]
    simp [h]

theorem endOfRound_silence (code : ℕ) :
    Status.endOfRound ⟨.statusCodeRead, code⟩ false =
      if Informational (i32 code) then none else some timedOut := by
  by_cases h : Informational (i32 code)
  · rw [Status.endOfRound, if_pos ⟨rfl, h⟩, if_pos h]
  · rw [Status.endOfRound, if_neg (fun hs => h hs.2), if_neg h]
    rfl

theorem readFrom_line (l : StatusLine) (input : Arrivals) :
    readFrom .start (bytes l.text ++ some '\n' :: input) =
      if Informational l.code then readFrom .start input else (l.code, input) := by
  have hend (code : ℕ) : readFrom ⟨.statusCodeRead, code⟩ (some '\n' :: input) =
      if Informational (i32 code) then readFrom .start input else (i32 code, input) := by
    rw [readFrom, Status.readByte]
    dsimp only
    rw [if_pos rfl, endOfRound_line]
    by_cases h : Informational (i32 code)
    · rw [if_pos h, if_pos h]
    · rw [if_neg h, if_neg h]
  rw [readFrom_code]
  have hreason : readFrom ⟨.readingStatusCode, u32 (Nat.ofDigitChars 10 l.digits 0)⟩
      (bytes l.reason ++ some '\n' :: input) =
        readFrom ⟨.statusCodeRead, u32 (Nat.ofDigitChars 10 l.digits 0)⟩
          (some '\n' :: input) := by
    by_cases hr : l.reason = []
    · rw [hr]
      rfl
    · exact readFrom_reason l.not_isDigit_head l.not_mem_reason hr
  rw [hreason, hend, i32_u32]
  rfl

theorem readFrom_silence (l : StatusLine) (hr : l.reason ≠ []) (input : Arrivals) :
    readFrom .start (bytes l.text ++ none :: input) =
      if Informational l.code then readFrom .start input else (timedOut, input) := by
  rw [readFrom_code, readFrom_reason l.not_isDigit_head l.not_mem_reason hr, readFrom,
    endOfRound_silence, i32_u32, ← StatusLine.code]
  by_cases h : Informational l.code
  · rw [if_pos h, if_pos h]
  · rw [if_neg h, if_neg h]

theorem Skips.readFrom_eq (h : Skips input rest) :
    readFrom .start input = readFrom .start rest := by
  induction h with
  | refl => rfl
  | line l hl _ ih => rw [readFrom_line, if_pos hl, ih]
  | silence l hr hl _ ih => rw [readFrom_silence l hr, if_pos hl, ih]

/-! ## All responses -/

/-- The response has a line that counts, and what follows it is left. -/
def Answered (l : StatusLine) (input rest : Arrivals) : Prop :=
  ¬ Informational l.code ∧ Skips input (bytes l.text ++ some '\n' :: rest)

/-- The response has a byte in a prefix that should be another one. -/
def Rejected (input rest : Arrivals) : Prop :=
  ∃ pattern p statusPtr version c, statusPrefix = pattern ++ p :: statusPtr ∧
    Matches pattern version ∧ p ≠ '*' ∧ p ≠ c ∧ Skips input (bytes version ++ some c :: rest)

theorem Answered.readFrom_eq (h : Answered l input rest) :
    readFrom .start input = (l.code, rest) := by
  rw [h.2.readFrom_eq, readFrom_line, if_neg h.1]

theorem readFrom_start_begun {pattern statusPtr version : Bytes}
    (hp : statusPrefix = pattern ++ statusPtr) (h : Matches pattern version) :
    readFrom .start (bytes version ++ input) = readFrom ⟨expecting statusPtr, 0⟩ input := by
  have hstart : Status.start = ⟨expecting (pattern ++ statusPtr), 0⟩ := by
    rw [← hp]
    rfl
  rw [hstart, readFrom_prefix h]

theorem Rejected.readFrom_eq (h : Rejected input rest) :
    readFrom .start input = (invalidResponse, rest) := by
  obtain ⟨pattern, p, statusPtr, version, c, hp, hv, hstar, hc, hs⟩ := h
  have hread : Status.readByte ⟨expecting (p :: statusPtr), 0⟩ c = none := by
    rw [Status.readByte, expecting, if_neg (List.cons_ne_nil _ _)]
    exact if_neg (not_or.2 ⟨hstar, hc⟩)
  rw [hs.readFrom_eq, readFrom_start_begun hp hv, readFrom, hread]

/-- A round that ends in silence before the code has been read. -/
theorem endOfRound_false (h : s.state ≠ .statusCodeRead) : s.endOfRound false = some timedOut := by
  rw [Status.endOfRound, if_neg fun hs => h hs.1]
  rfl

theorem readFrom_nil (s : Status) : (readFrom s []).1 = timedOut := by
  rw [readFrom]
  by_cases h : s.state = .statusCodeRead
  · obtain ⟨state, code⟩ := s
    cases h
    rw [endOfRound_silence]
    split <;> rfl
  · rw [endOfRound_false h]
    rfl

theorem readFrom_none (h : s.state ≠ .statusCodeRead) :
    (readFrom s (none :: input)).1 = timedOut := by
  rw [readFrom, endOfRound_false h]

/-- A response matches a pattern, or as far as it goes. -/
theorem exists_matches (pattern : Bytes) (input : Arrivals) :
    ∃ begun statusPtr version rest, pattern = begun ++ statusPtr ∧ Matches begun version ∧
      input = bytes version ++ rest ∧
      (statusPtr = [] ∨ ∃ p ps, statusPtr = p :: ps ∧ (rest = [] ∨ (∃ r, rest = none :: r) ∨
        ∃ c r, rest = some c :: r ∧ ¬ ((p = '*' ∨ p = c) ∧ c ≠ '\n'))) := by
  induction pattern generalizing input with
  | nil => exact ⟨[], [], [], input, rfl, .nil, rfl, .inl rfl⟩
  | cons p pattern ih =>
    match input with
    | [] => exact ⟨[], p :: pattern, [], [], rfl, .nil, rfl, .inr ⟨p, pattern, rfl, .inl rfl⟩⟩
    | none :: r =>
      exact ⟨[], p :: pattern, [], none :: r, rfl, .nil, rfl,
        .inr ⟨p, pattern, rfl, .inr (.inl ⟨r, rfl⟩)⟩⟩
    | some c :: r =>
      by_cases hc : (p = '*' ∨ p = c) ∧ c ≠ '\n'
      · obtain ⟨begun, statusPtr, version, rest, hp, hv, hi, hstop⟩ := ih r
        exact ⟨p :: begun, statusPtr, c :: version, rest, congrArg (p :: ·) hp, .cons hc hv,
          congrArg (some c :: ·) hi, hstop⟩
      · exact ⟨[], p :: pattern, [], some c :: r, rfl, .nil, rfl,
          .inr ⟨p, pattern, rfl, .inr (.inr ⟨c, r, rfl, hc⟩)⟩⟩

/-- A response has bytes of a kind, and then another one, a silence, or nothing. -/
theorem exists_span (P : Char → Bool) (input : Arrivals) :
    ∃ text rest, (∀ c ∈ text, P c = true) ∧ input = bytes text ++ rest ∧
      (rest = [] ∨ (∃ r, rest = none :: r) ∨ ∃ c r, rest = some c :: r ∧ P c = false) := by
  induction input with
  | nil => exact ⟨[], [], fun _ h => absurd h List.not_mem_nil, rfl, .inl rfl⟩
  | cons a input ih =>
    match a with
    | none =>
      exact ⟨[], none :: input, fun _ h => absurd h List.not_mem_nil, rfl, .inr (.inl ⟨_, rfl⟩)⟩
    | some c =>
      cases hc : P c with
      | false =>
        exact ⟨[], some c :: input, fun _ h => absurd h List.not_mem_nil, rfl,
          .inr (.inr ⟨c, input, rfl, hc⟩)⟩
      | true =>
        obtain ⟨text, rest, htext, hi, hstop⟩ := ih
        exact ⟨c :: text, rest, List.forall_mem_cons.2 ⟨hc, htext⟩, congrArg (some c :: ·) hi,
          hstop⟩

/-- What a response can be. -/
inductive Response (input : Arrivals) : Prop
  | answered (l : StatusLine) (rest : Arrivals) : Answered l input rest → Response input
  | rejected (rest : Arrivals) : Rejected input rest → Response input
  | late : (readFrom .start input).1 = timedOut → Response input

/-- What is passed over makes no difference. -/
theorem Response.of_skips {input' : Arrivals} (h : ∀ {rest}, Skips input rest → Skips input' rest)
    (hr : Response input) : Response input' := by
  cases hr with
  | answered l rest ha => exact .answered l rest ⟨ha.1, h ha.2⟩
  | rejected rest hr =>
    obtain ⟨pattern, p, statusPtr, version, c, hp, hv, hstar, hc, hs⟩ := hr
    exact .rejected rest ⟨pattern, p, statusPtr, version, c, hp, hv, hstar, hc, h hs⟩
  | late hlate =>
    have heq := (h (.refl input)).readFrom_eq
    exact .late (heq ▸ hlate)

/-- The byte that ends a round within the prefix. -/
theorem readFrom_newline {p : Char} {statusPtr : Bytes} (hp : p = '*' ∨ p = '\n') :
    (readFrom ⟨expecting (p :: statusPtr), 0⟩ (some '\n' :: input)).1 = timedOut := by
  have hread : Status.readByte ⟨expecting (p :: statusPtr), 0⟩ '\n' =
      some ⟨expecting statusPtr, 0⟩ := by
    rw [Status.readByte, expecting, if_neg (List.cons_ne_nil _ _)]
    exact if_pos hp
  have hstate : expecting statusPtr ≠ .statusCodeRead := by
    rw [expecting]
    split <;> exact fun h => by cases h
  have hend : Status.endOfRound ⟨expecting statusPtr, 0⟩ true = some timedOut := by
    have hnone : Informational (i32 0) := by decide
    simp [Status.endOfRound, hstate, hnone]
  rw [readFrom, hread]
  dsimp only
  rw [if_pos rfl, hend]

/-- A response whose first line has not got its prefix. -/
theorem response_of_stop {pattern p statusPtr version}
    (hp : statusPrefix = pattern ++ p :: statusPtr) (hv : Matches pattern version)
    (hstop : rest = [] ∨ (∃ r, rest = none :: r) ∨
      ∃ c r, rest = some c :: r ∧ ¬ ((p = '*' ∨ p = c) ∧ c ≠ '\n')) :
    Response (bytes version ++ rest) := by
  have hstate : expecting (p :: statusPtr) ≠ .statusCodeRead := by
    rw [expecting, if_neg (List.cons_ne_nil _ _)]
    exact fun h => by cases h
  rcases hstop with rfl | ⟨r, rfl⟩ | ⟨c, r, rfl, hc⟩
  · exact .late (by rw [readFrom_start_begun hp hv, readFrom_nil])
  · exact .late (by rw [readFrom_start_begun hp hv, readFrom_none hstate])
  · by_cases hpc : p = '*' ∨ p = c
    · -- the byte fits the prefix, but ends the line
      obtain rfl : c = '\n' := by
        by_contra hne
        exact hc ⟨hpc, hne⟩
      exact .late (by rw [readFrom_start_begun hp hv, readFrom_newline hpc])
    · obtain ⟨hstar, hne⟩ := not_or.1 hpc
      exact .rejected r ⟨pattern, p, statusPtr, version, c, hp, hv, hstar, hne, .refl _⟩

/-- A response whose first line has its prefix and a code. -/
theorem response_of_code {version digits reason : Bytes} (hv : Matches statusPrefix version)
    (hd : ∀ c ∈ digits, c.isDigit = true) (hhead : ∀ c ∈ reason.head?, c.isDigit = false)
    (hr : '\n' ∉ reason) (ih : ∀ r, r.length < rest.length → Response r)
    (hstop : rest = [] ∨ (∃ r, rest = none :: r) ∨ ∃ r, rest = some '\n' :: r) :
    Response (bytes (version ++ digits ++ reason) ++ rest) := by
  let l : StatusLine := ⟨version, digits, reason, hv, hd, hhead, hr⟩
  have htext : version ++ digits ++ reason = l.text := rfl
  rw [htext]
  rcases hstop with rfl | ⟨r, rfl⟩ | ⟨r, rfl⟩
  · refine .late ?_
    rw [readFrom_code]
    by_cases hne : l.reason = []
    · rw [hne]
      exact readFrom_nil _
    · rw [readFrom_reason hhead hr hne, readFrom_nil]
  · by_cases hne : l.reason = []
    · refine .late ?_
      rw [readFrom_code, hne]
      exact readFrom_none fun h => by cases h
    · by_cases hi : Informational l.code
      · exact (ih r (Nat.lt_succ_self _)).of_skips fun h => .silence l hne hi h
      · exact .late (by rw [readFrom_silence l hne, if_neg hi])
  · by_cases hi : Informational l.code
    · exact (ih r (Nat.lt_succ_self _)).of_skips fun h => .line l hi h
    · exact .answered l r ⟨hi, .refl _⟩

theorem response (input : Arrivals) : Response input := by
  induction hn : input.length using Nat.strongRecOn generalizing input with
  | ind n ih =>
  obtain ⟨pattern, statusPtr, version, rest, hp, hv, rfl, hstop⟩ :=
    exists_matches statusPrefix input
  rcases hstop with rfl | hstop
  · rw [List.append_nil] at hp
    obtain ⟨digits, rest, hdigits, rfl, hstop⟩ := exists_span Char.isDigit rest
    obtain ⟨reason, rest, hreason, rfl, hend⟩ := exists_span (· ≠ '\n') rest
    have hline : '\n' ∉ reason := fun h => of_decide_eq_true (hreason _ h) rfl
    have hhead : ∀ c ∈ reason.head?, c.isDigit = false := by
      intro c hc
      obtain ⟨reason, rfl⟩ := List.head?_eq_some_iff.1 hc
      rcases hstop with h | ⟨r, h⟩ | ⟨c', r, h, hdigit⟩
      · cases h
      · cases h
      · cases h
        exact hdigit
    rw [← List.append_assoc, ← List.append_assoc, ← bytes_append, ← bytes_append]
    refine response_of_code (hp ▸ hv) hdigits hhead hline (fun r hr => ?_) ?_
    · refine ih _ ?_ r rfl
      rw [← hn]
      simp only [List.length_append]
      omega
    · rcases hend with h | h | ⟨c, r, h, hc⟩
      · exact .inl h
      · exact .inr (.inl h)
      · obtain rfl := of_not_not (of_decide_eq_false hc)
        exact .inr (.inr ⟨r, h⟩)
  · obtain ⟨p, ps, rfl, hstop⟩ := hstop
    exact response_of_stop hp hv hstop

theorem code_nonneg (h : ¬ Informational l.code) : 0 ≤ l.code := by
  rw [Informational] at h
  omega

theorem answered_iff {n : ℤ} : responseStatusCode input = (n, rest) ∧ 0 ≤ n ↔
    ∃ l, Answered l input rest ∧ l.code = n := by
  constructor
  · rintro ⟨h, hn⟩
    have hread : readFrom .start input = (n, rest) := h
    cases response input with
    | answered l rest' ha =>
      cases ha.readFrom_eq.symm.trans hread
      exact ⟨l, ha, rfl⟩
    | rejected rest' hr =>
      cases hr.readFrom_eq.symm.trans hread
      exact absurd hn (by decide)
    | late hlate =>
      rw [hread] at hlate
      obtain rfl : n = timedOut := hlate
      exact absurd hn (by decide)
  · rintro ⟨l, ha, rfl⟩
    exact ⟨ha.readFrom_eq, code_nonneg ha.1⟩

end HttpClient

open HttpClient in
/-- The status code of a response is that of its first line that is not informational, where also
    the beginning of an informational line counts as one, if a silence comes after its code. It is
    an invalid response exactly when, before such a line, a byte is not the one that the prefix of
    a status line has in its place, and everything else is a timeout. -/
theorem responseStatusCode_spec (input : Arrivals) :
    (∀ n rest, responseStatusCode input = (n, rest) ∧ 0 ≤ n ↔
      ∃ l, Answered l input rest ∧ l.code = n) ∧
    (∀ rest, responseStatusCode input = (invalidResponse, rest) ↔ Rejected input rest) ∧
    ((responseStatusCode input).1 = timedOut ↔
      ∀ rest, (∀ l, ¬ Answered l input rest) ∧ ¬ Rejected input rest) := by
  refine ⟨fun n rest => answered_iff, fun rest => ⟨fun h => ?_, Rejected.readFrom_eq⟩, ?_⟩
  · have hread : readFrom .start input = (invalidResponse, rest) := h
    cases response input with
    | answered l rest' ha =>
      have hcode : l.code = invalidResponse := congrArg Prod.fst (ha.readFrom_eq.symm.trans hread)
      exact absurd (hcode ▸ code_nonneg ha.1) (by decide)
    | rejected rest' hr =>
      cases hr.readFrom_eq.symm.trans hread
      exact hr
    | late hlate =>
      rw [hread] at hlate
      cases hlate
  · constructor
    · intro h rest
      have hread : (readFrom .start input).1 = timedOut := h
      refine ⟨fun l ha => ?_, fun hr => ?_⟩
      · rw [ha.readFrom_eq] at hread
        have hcode : l.code = timedOut := hread
        exact absurd (hcode ▸ code_nonneg ha.1) (by decide)
      · rw [hr.readFrom_eq] at hread
        cases hread
    · intro h
      cases response input with
      | answered l rest ha => exact absurd ha ((h rest).1 l)
      | rejected rest hr => exact absurd hr (h rest).2
      | late hlate => exact hlate

namespace HttpClient

variable {l : StatusLine}

theorem length_version (l : StatusLine) : l.version.length = 9 := l.matches_version.length_eq.symm

/-- The number with three digits is 200 if they are. -/
theorem ofDigitChars_eq_200_iff {a b c : Char} (ha : a.isDigit = true) (hb : b.isDigit = true)
    (hc : c.isDigit = true) :
    Nat.ofDigitChars 10 [a, b, c] 0 = 200 ↔ [a, b, c] = ['2', '0', '0'] := by
  have hchar (d e : Char) : d = e ↔ d.toNat = e.toNat := ⟨congrArg _, Char.toNat_inj.1⟩
  rw [Char.isDigit_iff_toNat] at ha hb hc
  simp only [Nat.ofDigitChars_cons, Nat.ofDigitChars_nil, List.cons.injEq, hchar, and_true]
  have h0 : '0'.toNat = 48 := rfl
  have h9 : '9'.toNat = 57 := rfl
  have h2 : '2'.toNat = 50 := rfl
  omega

/-- The code of a status line with three digits is 200 if they are. -/
theorem code_eq_200_iff (h : l.digits.length = 3) : l.code = 200 ↔ l.digits = ['2', '0', '0'] := by
  obtain ⟨a, b, c, hd⟩ := List.length_eq_three.1 h
  have hdigits := l.isDigit_of_mem
  rw [hd, List.forall_mem_cons, List.forall_mem_cons, List.forall_mem_singleton] at hdigits
  obtain ⟨ha, hb, hc⟩ := hdigits
  rw [StatusLine.code, hd, ← ofDigitChars_eq_200_iff ha hb hc]
  have hlt : Nat.ofDigitChars 10 [a, b, c] 0 < 2 ^ 31 := by
    rw [Char.isDigit_iff_toNat] at ha hb hc
    have h0 : '0'.toNat = 48 := rfl
    have h9 : '9'.toNat = 57 := rfl
    simp only [Nat.ofDigitChars_cons, Nat.ofDigitChars_nil]
    omega
  rw [(i32_eq_iff (by omega)).2 hlt]
  omega

theorem drop_text (l : StatusLine) (s : Bytes) :
    (l.text ++ s).drop 9 = l.digits ++ l.reason ++ s := by
  rw [StatusLine.text, List.append_assoc, List.append_assoc, ← length_version l, List.drop_left,
    List.append_assoc]

theorem answers200_of_digits (h : l.digits.length = 3) (more : Bytes) :
    Answers200 (l.text ++ '\n' :: more) ↔ l.code = 200 := by
  rw [Answers200, drop_text, List.append_assoc, ← h, List.take_left, code_eq_200_iff h]

end HttpClient

open HttpClient in
/-- `upload_file` looks at the answer to its POST without the client: at the three bytes from the
    tenth on. Where the answer begins with a status line whose code has three digits, it sees the
    200 of that line, and the client would have read the same, except after an informational
    line. -/
theorem answers200_iff_of_statusLine (l : StatusLine) (h : l.digits.length = 3) (more : Bytes) :
    (Answers200 (l.text ++ '\n' :: more) ↔ l.code = 200) ∧
    ((responseStatusCode (bytes (l.text ++ '\n' :: more))).1 = 200 ↔
      Answers200 (l.text ++ '\n' :: more) ∨
        Informational l.code ∧ (responseStatusCode (bytes more)).1 = 200) := by
  have hanswers := answers200_of_digits h more
  refine ⟨hanswers, ?_⟩
  have hread : responseStatusCode (bytes (l.text ++ '\n' :: more)) =
      if Informational l.code then readFrom .start (bytes more) else (l.code, bytes more) := by
    rw [bytes_append, bytes_cons]
    exact readFrom_line l (bytes more)
  rw [hread, hanswers]
  by_cases hi : Informational l.code
  · have hne : l.code ≠ 200 := fun he => absurd (he ▸ hi) (by decide)
    rw [if_pos hi, or_iff_right hne, and_iff_right hi]
    rfl
  · rw [if_neg hi, or_iff_left fun hi' => hi hi'.1]

/-- A status line of HTTP 1.1. -/
def HttpClient.StatusLine.http (digits reason : Bytes) (hdigits : ∀ c ∈ digits, c.isDigit = true)
    (hreason : ∀ c ∈ reason.head?, c.isDigit = false) (hn : '\n' ∉ reason) :
    HttpClient.StatusLine where
  version := "HTTP/1.1 ".toList
  digits := digits
  reason := reason
  matches_version := by
    repeat refine .cons (by decide) ?_
    exact .nil
  isDigit_of_mem := hdigits
  not_isDigit_head := hreason
  not_mem_reason := hn

/-- The status line of an accepted upload. -/
def okLine : HttpClient.StatusLine :=
  .http ['2', '0', '0'] " OK\r".toList (by simp) (by simp) (by decide)

/-- The status line that asks the client to go on. -/
def continueLine : HttpClient.StatusLine :=
  .http ['1', '0', '0'] " Continue\r".toList (by simp) (by simp) (by decide)

/-- The client passes over the informational line, and `upload_file` does not. -/
theorem answers200_continueLine :
    (HttpClient.responseStatusCode (HttpClient.bytes
        (continueLine.text ++ '\n' :: (okLine.text ++ ['\n'])))).1 = 200 ∧
      ¬ Answers200 (continueLine.text ++ '\n' :: (okLine.text ++ ['\n'])) := by
  obtain ⟨hanswers, hclient⟩ :=
    answers200_iff_of_statusLine continueLine rfl (okLine.text ++ ['\n'])
  exact ⟨hclient.2 (.inr ⟨by decide, by decide +kernel⟩), hanswers.not.2 (by decide)⟩

open HttpClient in
/-- With an answer to the POST that begins with a status line with three digits, `upload_file`
    returns true exactly if the status of the response to the GET is 200, or it is 404, the
    connection is made and lasts, and no byte of the answer to the POST is there right after the
    file or the status of the answer is 200. -/
theorem uploadFile_of_responses {x : Exchange} {name : Name} {d : Device} {input : Arrivals}
    {l' : StatusLine} {more : Bytes} (hget : x.getStatus = (responseStatusCode input).1)
    (hpost : x.response = l'.text ++ '\n' :: more) (hdigits : l'.digits.length = 3) :
    (d.uploadFile x name).1 = true ↔ ∃ l rest, Answered l input rest ∧
      (l.code = 200 ∨ l.code = 404 ∧ x.connects = true ∧ Device.Lasts x (d.fileSize name) ∧
        (x.arrived = [] ∨ l'.code = 200)) := by
  have hstatus : x.statusIs200 = true ↔ l'.code = 200 := by
    rw [Exchange.statusIs200_iff, hpost, List.append_assoc, List.cons_append]
    exact answers200_of_digits hdigits _
  have hcode {n : ℤ} (hn : 0 ≤ n) : x.getStatus = n ↔ ∃ l rest, Answered l input rest ∧
      l.code = n := by
    constructor
    · intro h
      obtain ⟨l, ha, hl⟩ := answered_iff.1
        ⟨(rfl : responseStatusCode input = (_, (responseStatusCode input).2)), hget ▸ h ▸ hn⟩
      exact ⟨l, _, ha, hl.trans (hget.symm.trans h)⟩
    · rintro ⟨l, rest, ha, rfl⟩
      exact hget.trans (congrArg Prod.fst ha.readFrom_eq)
  have hsplit : (∃ l rest, Answered l input rest ∧ (l.code = 200 ∨ l.code = 404 ∧
      x.connects = true ∧ Device.Lasts x (d.fileSize name) ∧ (x.arrived = [] ∨ l'.code = 200))) ↔
      x.getStatus = 200 ∨ x.getStatus = 404 ∧ x.connects = true ∧
        Device.Lasts x (d.fileSize name) ∧ (x.arrived = [] ∨ x.statusIs200 = true) := by
    rw [hcode (by decide), hcode (by decide), hstatus]
    constructor
    · rintro ⟨l, rest, ha, h | ⟨h, h'⟩⟩
      · exact .inl ⟨l, rest, ha, h⟩
      · exact .inr ⟨⟨l, rest, ha, h⟩, h'⟩
    · rintro (⟨l, rest, ha, h⟩ | ⟨⟨l, rest, ha, h⟩, h'⟩)
      · exact ⟨l, rest, ha, .inl h⟩
      · exact ⟨l, rest, ha, .inr ⟨h, h'⟩⟩
  rw [hsplit]
  have hne : (404 : ℤ) ≠ 200 := by decide
  rcases hu : d.uploadFile x name with ⟨b, e⟩
  cases Device.upload_of_uploadFile hu with
  | present h => exact iff_of_true rfl (.inl h)
  | failed h h' =>
    refine iff_of_false Bool.false_ne_true ?_
    rintro (h₂ | ⟨h₄, hc, _⟩)
    · exact h h₂
    · exact Bool.false_ne_true ((h' h₄).symm.trans hc)
  | lost h₄ _ hs =>
    refine iff_of_false Bool.false_ne_true ?_
    rintro (h₂ | ⟨_, _, hl, _⟩)
    · exact hne (h₄.symm.trans h₂)
    · exact Bool.false_ne_true ((Device.asked_send_eq_true_iff hs).2 hl)
  | unanswered h₄ hc hs ha =>
    exact iff_of_true rfl (.inr ⟨h₄, hc, (Device.asked_send_eq_true_iff hs).1 rfl, .inl ha⟩)
  | refused h₄ _ _ ha h200 =>
    refine iff_of_false Bool.false_ne_true ?_
    rintro (h₂ | ⟨_, _, _, hs | hs⟩)
    · exact hne (h₄.symm.trans h₂)
    · exact ha hs
    · exact Bool.false_ne_true (h200.symm.trans hs)
  | accepted h₄ hc hs _ h200 =>
    exact iff_of_true rfl (.inr ⟨h₄, hc, (Device.asked_send_eq_true_iff hs).1 rfl, .inr h200⟩)

/-- The status line of a file that the server does not have. -/
def notFoundLine : HttpClient.StatusLine :=
  .http ['4', '0', '4'] " Not Found\r".toList (by simp) (by simp) (by decide)

/-- The server does not have the file, accepts it, and answers at once. -/
def promptServer : Exchange where
  getStatus := 404
  arrived := okLine.text ++ ['\n']

/-- The answer to the GET follows an informational line, and the file is sent. -/
theorem uploadFile_of_prompt :
    ((Device.initial (Finmap.singleton (logName 1) ['x']) ⟨2, 1, 1, 1⟩).uploadFile promptServer
      (logName 1)).1 = true := by
  have hget : promptServer.getStatus = (HttpClient.responseStatusCode (HttpClient.bytes
      (continueLine.text ++ '\n' :: (notFoundLine.text ++ ['\n'])))).1 := by
    decide +kernel
  have hpost : promptServer.response = okLine.text ++ ['\n'] := List.append_nil _
  have hanswered : HttpClient.Answered notFoundLine (HttpClient.bytes
      (continueLine.text ++ '\n' :: (notFoundLine.text ++ ['\n']))) [] :=
    ⟨by decide, .line continueLine (by decide) (.refl _)⟩
  exact (uploadFile_of_responses hget hpost rfl).2
    ⟨notFoundLine, [], hanswered, .inr ⟨by decide, rfl, fun _ _ => rfl, .inr (by decide)⟩⟩

end CanInsight
