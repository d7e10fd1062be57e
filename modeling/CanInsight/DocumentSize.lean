import CanInsight.CutDocuments
import CanInsight.LogHeader
import Mathlib.Data.List.DropRight

/-!
# What a document takes

Which JSON `deserializeJson` reads: it depends on how deep the values are nested, and on what
they take of the memory pool. Escape sequences, and numbers other than 32-bit integers, are
left out of account.

* `depth`, `size`: how deep a value is nested, and what it takes of the pool;
* `deserializeJson_eq_ok_iff`: JSON is read if and only if it is within the limits, and then as
  what it is;
* `readsJson_deserializeJson`: the parser meets what is assumed of it to read the logs.
-/

namespace CanInsight

open CString Json Parsing Parser JsonDeserializer

/-! ## Depth and size -/

mutual

/-- How deep the arrays and objects of a value are nested. -/
def depth : Json → ℕ
  | .array es => depthOfElements es + 1
  | .object ms => depthOfMembers ms + 1
  | _ => 0

def depthOfElements : List Json → ℕ
  | [] => 0
  | v :: vs => max (depth v) (depthOfElements vs)

def depthOfMembers : List (Text × Json) → ℕ
  | [] => 0
  | (_, v) :: ms => max (depth v) (depthOfMembers ms)

end

mutual

/-- What a value takes of the pool. -/
def size (copies : Bool) : Json → ℕ
  | .string s => stringSize copies s
  | .array es => sizeOfElements copies es
  | .object ms => sizeOfMembers copies ms
  | _ => 0

def sizeOfElements (copies : Bool) : List Json → ℕ
  | [] => 0
  | v :: vs => 16 + size copies v + sizeOfElements copies vs

def sizeOfMembers (copies : Bool) : List (Text × Json) → ℕ
  | [] => 0
  | (key, v) :: ms => 16 + stringSize copies key + size copies v + sizeOfMembers copies ms

end

mutual

/-- The numbers of a value are 32-bit integers. -/
def Integral : Json → Prop
  | .integer n => IsI32 n
  | .float _ _ => False
  | .array es => IntegralElements es
  | .object ms => IntegralMembers ms
  | _ => True

def IntegralElements : List Json → Prop
  | [] => True
  | v :: vs => Integral v ∧ IntegralElements vs

def IntegralMembers : List (Text × Json) → Prop
  | [] => True
  | (_, v) :: ms => Integral v ∧ IntegralMembers ms

end

variable {config : Config} {limit fuel k m n : ℕ} {s s' s₁ s₂ t rest : Text} {c d : Char}
  {v : Json}

/-! ## White space -/

theorem isSpace_iff : isSpace c = true ↔ c = ' ' ∨ c = '\t' ∨ c = '\r' ∨ c = '\n' := by
  rw [isSpace, Bool.or_eq_true, Bool.or_eq_true, Bool.or_eq_true, decide_eq_true_iff,
    decide_eq_true_iff, decide_eq_true_iff, decide_eq_true_iff]
  tauto

/-- Spaces are skipped, and what comes next is neither the end nor a comment. -/
theorem skipFrom_of_skip (h : skip s = c :: s') (h₀ : c ≠ nul) (h₁ : c ≠ '/') :
    skipFrom .spaces s = .ok ((), c :: s') := by
  induction s with
  | nil => cases h
  | cons d s ih =>
    by_cases hd : isSpace d = true
    · rw [skip, List.dropWhile_cons_of_pos hd] at h
      have hnul : d ≠ nul := by
        rintro rfl
        cases hd
      rw [skipFrom, if_neg hnul, if_pos (isSpace_iff.1 hd)]
      exact ih h
    · rw [skip, List.dropWhile_cons_of_neg hd] at h
      obtain ⟨rfl, rfl⟩ := List.cons.inj h
      rw [skipFrom, if_neg h₀, if_neg fun hs => hd (isSpace_iff.2 hs), if_neg h₁]

theorem skipSpaces_of_skip (h : skip s = c :: s') (h₀ : c ≠ nul) (h₁ : c ≠ '/') :
    skipSpacesAndComments ⟨s, m⟩ = .ok ((), ⟨c :: s', m⟩) :=
  scan_eq_ok.2 ⟨skipFrom_of_skip h h₀ h₁, rfl⟩

theorem skip_skip (s : Text) : skip (skip s) = skip s := List.dropWhile_idempotent _ s

theorem skip_of_expect (h : expect d s = some s') : skip s = d :: s' := by
  rw [expect] at h
  split at h
  · cases h
  · next c s hs =>
    obtain ⟨rfl, he⟩ := Option.ite_none_right_eq_some.1 h
    cases he
    exact hs

/-! ## Texts -/

/-- What follows does not go on a number or a name. -/
def Stops (rest : Text) : Prop := ∀ c ∈ rest.head?, canBeInNonQuotedString c = false

theorem stops_of_skip (h : skip s = c :: s') (hc : canBeInNonQuotedString c = false) :
    Stops s := by
  rintro d hd
  obtain ⟨s, rfl⟩ := List.head?_eq_some_iff.1 hd
  by_cases hspace : isSpace d = true
  · rcases isSpace_iff.1 hspace with rfl | rfl | rfl | rfl <;> rfl
  · rw [skip, List.dropWhile_cons_of_neg hspace] at h
    rw [(List.cons.inj h).1]
    exact hc

/-- A string without escape sequences is read as it is. -/
theorem quotedFrom_of_parseChars (h : parseChars n s = some (t, rest)) (hb : '\\' ∉ s) :
    quotedFrom '"' false s = .ok (t, rest) ∧ s = t ++ '"' :: rest := by
  induction n generalizing s t with
  | zero => cases h
  | succ n ih =>
    cases s with
    | nil => cases h
    | cons c s =>
      rw [List.mem_cons, not_or] at hb
      rw [parseChars] at h
      split_ifs at h with hq he hc
      · cases h
        exact ⟨if_pos hq, congrArg (· :: rest) hq⟩
      · exact absurd he (Ne.symm hb.1)
      · obtain ⟨⟨t', s₁⟩, ht, hx⟩ := Option.map_eq_some_iff.1 h
        cases hx
        obtain ⟨hrest, hs⟩ := ih ht hb.2
        have h₀ : c ≠ nul := by
          rintro rfl
          exact hc (by decide)
        rw [quotedFrom, if_neg hq, if_neg h₀, if_neg (Ne.symm hb.1)]
        exact ⟨map_cons_eq_ok.2 ⟨t', hrest, rfl⟩, congrArg (c :: ·) hs⟩

theorem buffer_of_stops (ht : ∀ c ∈ t, canBeInNonQuotedString c = true) (hlen : t.length ≤ 63)
    (hrest : Stops rest) : buffer (t ++ rest) = t := by
  have hnone : rest.takeWhile canBeInNonQuotedString = [] := by
    cases rest with
    | nil => rfl
    | cons d rest => exact List.takeWhile_cons_of_neg (by rw [hrest d rfl]; decide)
  rw [buffer, List.takeWhile_append_of_pos ht, hnone, List.append_nil, List.take_of_length_le hlen]

/-! ## Numbers -/

/-- A numeral is not much longer than its number, unless it begins with a zero. -/
theorem ten_pow_length_le {ds : Text} (hd : c.isDigit = true) (hc : c ≠ '0') :
    10 ^ ds.length ≤ Nat.ofDigitChars 10 (c :: ds) 0 := by
  have h₁ : 1 ≤ c.toNat - '0'.toNat := by
    have hdigit := Char.isDigit_iff_toNat.1 hd
    have hne : c.toNat ≠ '0'.toNat := fun h => hc (Char.toNat_inj.1 h)
    have hzero : '0'.toNat = 48 := rfl
    omega
  rw [Nat.ofDigitChars_cons, Nat.ofDigitChars_eq_ofDigitChars_zero, Nat.mul_zero, Nat.zero_add]
  exact Nat.le_trans (Nat.le_mul_of_pos_right _ h₁) (Nat.le_add_right _ _)

theorem length_numeral_le {ds : Text} (hd : ∀ c ∈ ds, c.isDigit = true)
    (hzero : ¬ (1 < ds.length ∧ ds.head? = some '0'))
    (hn : Nat.ofDigitChars 10 ds 0 ≤ 2 ^ 31) : ds.length ≤ 10 := by
  cases ds with
  | nil => exact Nat.zero_le _
  | cons c ds =>
    by_contra hlen
    have hc : c ≠ '0' := by
      rintro rfl
      exact hzero ⟨by omega, rfl⟩
    have hpow : 10 ^ 10 ≤ 10 ^ ds.length := by
      refine Nat.pow_le_pow_right (by decide) ?_
      rw [List.length_cons] at hlen
      omega
    have hle : 10 ^ ds.length ≤ _ := ten_pow_length_le (hd c List.mem_cons_self) hc
    omega

theorem i32_bits32 {n : ℤ} (h : IsI32 n) : i32 (bits32 n) = n := by
  rw [IsI32] at h
  rw [i32, u32, bits32]
  split <;> omega

theorem fraction_eq_nil (h : fraction s = some ([], s')) : s = s' := by
  cases s with
  | nil =>
    cases h
    rfl
  | cons c s =>
    rw [fraction] at h
    split_ifs at h
    · rw [digits] at h
      obtain ⟨hne, hx⟩ := Option.ite_none_left_eq_some.1 h
      exact absurd (Prod.mk.inj (Option.some.inj hx)).1 hne
    · cases h
      rfl

theorem exponent_eq_none (h : exponent s = some (none, s')) : s = s' := by
  cases s with
  | nil =>
    cases h
    rfl
  | cons c s =>
    -- what comes after the letter of an exponent is never nothing
    have hsome {x : Option (Text × Text)} {f : Text × Text → Option ℤ × Text}
        (hf : ∀ y, (f y).1 ≠ none) : x.map f ≠ some (none, s') := by
      intro hx
      obtain ⟨y, -, hy⟩ := Option.map_eq_some_iff.1 hx
      exact hf y (congrArg Prod.fst hy)
    rw [exponent.eq_def] at h
    dsimp only at h
    split_ifs at h
    · split at h
      · cases h
      · split_ifs at h
        · exact absurd h (hsome fun _ => Option.some_ne_none _)
        · exact absurd h (hsome fun _ => Option.some_ne_none _)
        · exact absurd h (hsome fun _ => Option.some_ne_none _)
    · cases h
      rfl

/-- A number without a fraction and an exponent is made of digits alone. -/
theorem unsigned_eq_integer {sign n : ℤ} (h : unsigned sign s = some (.integer n, rest)) :
    ∃ ds, s = ds ++ rest ∧ ds ≠ [] ∧ (∀ c ∈ ds, c.isDigit = true) ∧
      ¬ (1 < ds.length ∧ ds.head? = some '0') ∧ n = sign * Nat.ofDigitChars 10 ds 0 := by
  obtain ⟨⟨ds, s₁⟩, hds, hint⟩ := Option.bind_eq_some_iff.1 h
  dsimp only at hint
  obtain ⟨hzero, hbind⟩ := Option.ite_none_left_eq_some.1 hint
  obtain ⟨⟨fs, s₂⟩, hfs, hmap⟩ := Option.bind_eq_some_iff.1 hbind
  obtain ⟨⟨e, s₃⟩, he, hif⟩ := Option.map_eq_some_iff.1 hmap
  dsimp only at hif he
  split_ifs at hif with hnone
  · obtain ⟨rfl, rfl⟩ := hnone
    obtain ⟨hn, rfl⟩ := Prod.mk.inj hif
    obtain rfl := fraction_eq_nil hfs
    obtain rfl := exponent_eq_none he
    obtain ⟨hne, hx⟩ := Option.ite_none_left_eq_some.1 hds
    obtain ⟨rfl, rfl⟩ := Prod.mk.inj (Option.some.inj hx)
    exact ⟨_, List.takeWhile_append_dropWhile.symm, hne, fun c hc => List.mem_takeWhile_imp hc,
      hzero, (Json.integer.inj hn).symm⟩
  · cases hif

theorem canBeInNonQuotedString_of_isDigit (hc : c.isDigit = true) :
    canBeInNonQuotedString c = true := by
  obtain ⟨h₀, h₉⟩ := Char.isDigit_iff_toNat.1 hc
  have hle : '0' ≤ c ∧ c ≤ '9' := ⟨h₀, h₉⟩
  rw [canBeInNonQuotedString, decide_eq_true hle.1, decide_eq_true hle.2]
  rfl

theorem takeWhile_digits {ds : Text} (hd : ∀ c ∈ ds, c.isDigit = true) :
    ds.takeWhile Char.isDigit = ds := List.takeWhile_eq_self_iff.2 hd

/-- A numeral of a 32-bit integer is read as the integer. -/
theorem numericValue_of_digits {parseFloat : Bytes → ℤ × ℤ} {ds : Text} (hne : ds ≠ [])
    (hd : ∀ c ∈ ds, c.isDigit = true) (h : IsI32 (Nat.ofDigitChars 10 ds 0)) :
    numericValue parseFloat ds = .ok (.integer (Nat.ofDigitChars 10 ds 0)) := by
  obtain ⟨c, ds, rfl⟩ := List.exists_cons_of_ne_nil hne
  have hother {e : Char} (he : e.isDigit = false) : c ≠ e := by
    rintro rfl
    rw [hd c List.mem_cons_self] at he
    cases he
  have hsign : ¬ isSign c = true := by
    rw [isSign, Bool.or_eq_true, decide_eq_true_iff, decide_eq_true_iff]
    exact not_or.2 ⟨hother (by decide), hother (by decide)⟩
  have hint : isInteger (c :: ds) = true := by
    rw [isInteger, dropSign, if_neg hsign]
    exact decide_eq_true ⟨hne, List.all_eq_true.2 hd⟩
  rw [numericValue, if_pos hint, parseInteger]
  dsimp only
  rw [if_neg (hother (by decide)), if_neg (hother (by decide)), if_neg (hother (by decide)),
    takeWhile_digits hd, i32_bits32 h]

theorem numericValue_of_negative {parseFloat : Bytes → ℤ × ℤ} {ds : Text}
    (hd : ∀ c ∈ ds, c.isDigit = true) (h : IsI32 (-Nat.ofDigitChars 10 ds 0)) :
    numericValue parseFloat ('-' :: ds) = .ok (.integer (-Nat.ofDigitChars 10 ds 0)) := by
  have hint : isInteger ('-' :: ds) = true :=
    decide_eq_true ⟨List.cons_ne_nil _ _, List.all_eq_true.2 hd⟩
  rw [numericValue, if_pos hint, parseInteger]
  dsimp only
  rw [if_neg (by decide), if_pos rfl, takeWhile_digits hd, i32_bits32 h]

theorem numeric_of_stops {parseFloat : Bytes → ℤ × ℤ} {u : Text}
    (hu : ∀ c ∈ u, canBeInNonQuotedString c = true) (hlen : u.length ≤ 63) (hrest : Stops rest)
    (hv : numericValue parseFloat u = .ok v) : numeric parseFloat (u ++ rest) = .ok (v, rest) := by
  rw [numeric, buffer_of_stops hu hlen hrest, hv, List.drop_left]
  rfl

/-- A 32-bit integer is read with what follows it left. -/
theorem numeric_of_parseNumber {parseFloat : Bytes → ℤ × ℤ} {n : ℤ}
    (h : parseNumber s = some (.integer n, rest)) (hn : IsI32 n) (hrest : Stops rest) :
    numeric parseFloat s = .ok (.integer n, rest) ∧ rest <:+ s.tail := by
  cases s with
  | nil => cases h
  | cons c s =>
    rw [parseNumber] at h
    split_ifs at h with hc
    · obtain ⟨ds, rfl, -, hd, hzero, rfl⟩ := unsigned_eq_integer h
      rw [Int.neg_one_mul] at hn ⊢
      have hlen := length_numeral_le hd hzero (by rw [IsI32] at hn; omega)
      refine ⟨?_, List.suffix_append ds rest⟩
      rw [hc, ← List.cons_append]
      refine numeric_of_stops ?_ ?_ hrest (numericValue_of_negative hd hn)
      · refine List.forall_mem_cons.2 ⟨by decide, fun c hc => ?_⟩
        exact canBeInNonQuotedString_of_isDigit (hd c hc)
      · rw [List.length_cons]
        omega
    · obtain ⟨ds, hs, hne, hd, hzero, rfl⟩ := unsigned_eq_integer h
      rw [Int.one_mul] at hn ⊢
      have hlen := length_numeral_le hd hzero (by rw [IsI32] at hn; omega)
      obtain ⟨e, ds, rfl⟩ := List.exists_cons_of_ne_nil hne
      rw [hs]
      refine ⟨?_, List.suffix_append ds rest⟩
      exact numeric_of_stops (fun c hc => canBeInNonQuotedString_of_isDigit (hd c hc)) (by omega)
        hrest (numericValue_of_digits hne hd hn)

/-! ## Reading a value -/

theorem allocate_bind_eq_ok {α : Type} {f : Unit → JsonDeserializer.Parser α} {x : α}
    {r : Input Char ℕ} :
    (allocate n >>= f) ⟨s, m⟩ = .ok (x, r) ↔ n ≤ m ∧ f () ⟨s, m - n⟩ = .ok (x, r) := by
  by_cases h : n ≤ m
  · have hal : allocate n ⟨s, m⟩ = .ok ((), ⟨s, m - n⟩) := spend_eq_ok.2 ⟨if_pos h, rfl⟩
    rw [bind_of_ok hal, and_iff_right h]
  · refine iff_of_false (fun hx => ?_) fun hx => h hx.1
    obtain ⟨u, r₁, hal, -⟩ := bind_eq_ok.1 hx
    have he := (spend_eq_ok.1 hal).1
    rw [if_neg h] at he
    cases he

/-- The text is read as a value, on its conditions, and what is read is taken account of. -/
structure Reads (config : Config) (s : Text) (v : Json) (rest : Text) : Prop where
  suffix : rest <:+ s
  fits : ∀ limit n, slots limit v = some n →
    size config.copies v + rest.length ≤ 16 * n + s.length
  parse_iff : ∀ limit m w r, parse config limit ⟨s, m⟩ = .ok (w, r) ↔
    (depth v ≤ limit ∧ size config.copies v ≤ m) ∧ w = v ∧
      r = ⟨rest, m - size config.copies v⟩

/-- The text is read as the elements of an array and its closing bracket. -/
structure ReadsElements (config : Config) (s : Text) (vs : List Json) (rest : Text) : Prop where
  suffix : rest <:+ s
  fits : ∀ limit n, slotsOfElements limit vs = some n →
    sizeOfElements config.copies vs + rest.length ≤ 16 * n + s.length
  parse_iff : ∀ limit k m ws r, m < 16 * (k + 1) →
    (parseElements (parse config limit) k ⟨s, m⟩ = .ok (ws, r) ↔
      (depthOfElements vs ≤ limit ∧ sizeOfElements config.copies vs ≤ m) ∧ ws = vs ∧
        r = ⟨rest, m - sizeOfElements config.copies vs⟩)

/-- The text is read as the members of an object and its closing brace. -/
structure ReadsMembers (config : Config) (s : Text) (ms : List (Text × Json))
    (rest : Text) : Prop where
  suffix : rest <:+ s
  fits : ∀ limit n, slotsOfMembers limit ms = some n →
    sizeOfMembers config.copies ms + rest.length ≤ 16 * n + s.length
  parse_iff : ∀ limit k m ns r, m < 16 * (k + 1) →
    (parseMembers config.copies (parse config limit) k ⟨skip s, m⟩ = .ok (ns, r) ↔
      (depthOfMembers ms ≤ limit ∧ sizeOfMembers config.copies ms ≤ m) ∧ ns = ms ∧
        r = ⟨rest, m - sizeOfMembers config.copies ms⟩)

theorem skip_suffix (s : Text) : skip s <:+ s := List.dropWhile_suffix _

/-- A value that begins with none of the characters of arrays, objects and comments. -/
theorem reads_of_parseValue (hs : skip s = c :: s')
    (hc : c ≠ '[' ∧ c ≠ '\x7b' ∧ c ≠ nul ∧ c ≠ '/') (hrest : rest <:+ s')
    (hfits : size config.copies v + rest.length ≤ s'.length + 1) (hdepth : depth v = 0)
    (hv : ∀ m w r, parseValue config ⟨c :: s', m⟩ = .ok (w, r) ↔
      size config.copies v ≤ m ∧ w = v ∧ r = ⟨rest, m - size config.copies v⟩) :
    Reads config s v rest := by
  have hsuffix : c :: s' <:+ s := hs ▸ skip_suffix s
  refine ⟨hrest.trans ((List.suffix_cons c s').trans hsuffix), fun limit n _ => ?_,
    fun limit m w r => ?_⟩
  · have hlen := hsuffix.length_le
    rw [List.length_cons] at hlen
    omega
  · rw [parse_of_skip (skipSpaces_of_skip hs hc.2.2.1 hc.2.2.2), if_neg hc.1, if_neg hc.2.1, hv,
      hdepth, and_assoc, and_iff_right (Nat.zero_le limit)]

theorem parseValue_of_not_quote (hc : isQuote c = false) :
    parseValue config ⟨c :: s, m⟩ = parseNumericValue config.parseFloat ⟨c :: s, m⟩ := by
  have hcur : parseValue config ⟨c :: s, m⟩ = (if isQuote c = true
      then parseStringValue config.copies else parseNumericValue config.parseFloat)
        ⟨c :: s, m⟩ := rfl
  rw [hcur, hc]
  rfl

/-- A number or a name. -/
theorem reads_of_numeric (hs : skip s = c :: s')
    (hc : c ≠ '[' ∧ c ≠ '\x7b' ∧ c ≠ nul ∧ c ≠ '/') (hquote : isQuote c = false)
    (hrest : rest <:+ s') (hsize : size config.copies v = 0) (hdepth : depth v = 0)
    (hn : numeric config.parseFloat (c :: s') = .ok (v, rest)) : Reads config s v rest := by
  refine reads_of_parseValue hs hc hrest ?_ hdepth fun m w r => ?_
  · rw [hsize, Nat.zero_add]
    exact Nat.le_succ_of_le hrest.length_le
  · rw [parseValue_of_not_quote hquote, parseNumericValue, scan_eq_ok, hn, hsize,
      and_iff_right (Nat.zero_le m), Nat.sub_zero, Except.ok.injEq, Prod.mk.injEq]
    constructor
    · rintro ⟨⟨rfl, hr⟩, hm⟩
      cases r
      cases hr
      cases hm
      exact ⟨rfl, rfl⟩
    · rintro ⟨rfl, rfl⟩
      exact ⟨⟨rfl, rfl⟩, rfl⟩

theorem parseQuotedString_eq_ok {copies : Bool} {r : Input Char ℕ}
    (h : quotedFrom '"' false s = .ok (t, rest)) (w : Bytes) :
    parseQuotedString copies ⟨'"' :: s, m⟩ = .ok (w, r) ↔
      stringSize copies t ≤ m ∧ w = t ∧ r = ⟨rest, m - stringSize copies t⟩ := by
  have hscan : (scan quoted : JsonDeserializer.Parser Bytes) ⟨'"' :: s, m⟩ =
      .ok (t, ⟨rest, m⟩) := scan_eq_ok.2 ⟨h, rfl⟩
  rw [parseQuotedString, complete, bind_of_ok hscan, allocate_bind_eq_ok, pure_eq_ok, eq_comm,
    eq_comm (a := r)]

theorem reads_string (hs : skip s = '"' :: s') (h : parseChars s'.length s' = some (t, rest))
    (hb : '\\' ∉ s') : Reads config s (.string t) rest := by
  obtain ⟨hq, rfl⟩ := quotedFrom_of_parseChars h hb
  refine reads_of_parseValue hs (by decide) ((List.suffix_cons _ _).trans (List.suffix_append _ _))
    ?_ rfl fun m w r => ?_
  · rw [size, stringSize, List.length_append, List.length_cons]
    split <;> omega
  · have hval : parseValue config ⟨'"' :: (t ++ '"' :: rest), m⟩ =
        (Json.string <$> parseQuotedString config.copies) ⟨'"' :: (t ++ '"' :: rest), m⟩ := rfl
    rw [hval]
    exact map_iff fun u r => parseQuotedString_eq_ok hq u

theorem literal_eq_some {name : Text} (h : literal name s = some rest) : s = name ++ rest := by
  obtain ⟨⟨t, rfl⟩, hd⟩ := Option.ite_none_right_eq_some.1 h
  rw [← Option.some.inj hd, List.drop_left]

/-- The names of the constants. -/
theorem reads_name {name : Text} (hs : skip s = c :: s') (h : literal name s' = some rest)
    (hc : (c ≠ '[' ∧ c ≠ '\x7b' ∧ c ≠ nul ∧ c ≠ '/') ∧ isQuote c = false)
    (hname : (c :: name).all canBeInNonQuotedString = true) (hlen : (c :: name).length ≤ 63)
    (hsize : size config.copies v = 0) (hdepth : depth v = 0) (hrest : Stops rest)
    (hv : numericValue config.parseFloat (c :: name) = .ok v) : Reads config s v rest := by
  obtain rfl := literal_eq_some h
  refine reads_of_numeric hs hc.1 hc.2 (List.suffix_append _ _) hsize hdepth ?_
  exact numeric_of_stops (List.all_eq_true.1 hname) hlen hrest hv

/-! ## Arrays -/

/-- A value with other values in it is read within the limit. -/
theorem reads_of_limit {p : ℕ → JsonDeserializer.Parser Json} {l : ℕ} (hs : skip s = c :: s')
    (hrest : rest <:+ s') (hdepth : depth v = l + 1)
    (hfits : ∀ limit n, slots limit v = some n →
      size config.copies v + rest.length ≤ 16 * n + s'.length)
    (hzero : ∀ m, parse config 0 ⟨s, m⟩ = .error .tooDeep)
    (hsucc : ∀ limit m, parse config (limit + 1) ⟨s, m⟩ = p limit ⟨s', m⟩)
    (hp : ∀ limit m w r, p limit ⟨s', m⟩ = .ok (w, r) ↔
      (l ≤ limit ∧ size config.copies v ≤ m) ∧ w = v ∧ r = ⟨rest, m - size config.copies v⟩) :
    Reads config s v rest := by
  have hsuffix : s' <:+ s := (List.suffix_cons c s').trans (hs ▸ skip_suffix s)
  refine ⟨hrest.trans hsuffix, fun limit n hn => ?_, fun limit m w r => ?_⟩
  · exact Nat.le_trans (hfits limit n hn) (Nat.add_le_add_left hsuffix.length_le _)
  · cases limit with
    | zero =>
      rw [hzero, hdepth]
      exact iff_of_false (fun h => nomatch h) fun h => Nat.not_succ_le_zero _ h.1.1
    | succ limit => rw [hsucc, hp, hdepth, Nat.succ_le_succ_iff]

theorem parseArray_of_close {p : JsonDeserializer.Parser Json} (h : skip s = ']' :: s') :
    parseArray p ⟨s, m⟩ = .ok (.array [], ⟨s', m⟩) := by
  rw [parseArray, bind_of_ok (skipSpaces_of_skip h (by decide) (by decide)), eat_bind_cons,
    if_pos rfl]
  rfl

theorem parseArray_of_skip {p : JsonDeserializer.Parser Json} (h : skip s = c :: s')
    (hc : c ≠ ']' ∧ c ≠ nul ∧ c ≠ '/') :
    parseArray p ⟨s, m⟩ = (Json.array <$> parseElements p (m / 16)) ⟨c :: s', m⟩ := by
  rw [parseArray, bind_of_ok (skipSpaces_of_skip h hc.2.1 hc.2.2), eat_bind_cons, if_neg hc.1]
  rfl

theorem reads_of_parseArray {es : List Json} (hs : skip s = '[' :: s') (hrest : rest <:+ s')
    (hfits : ∀ limit n, slotsOfElements limit es = some n →
      sizeOfElements config.copies es + rest.length ≤ 16 * n + s'.length)
    (hp : ∀ limit m w r, parseArray (parse config limit) ⟨s', m⟩ = .ok (w, r) ↔
      (depthOfElements es ≤ limit ∧ sizeOfElements config.copies es ≤ m) ∧ w = .array es ∧
        r = ⟨rest, m - sizeOfElements config.copies es⟩) : Reads config s (.array es) rest := by
  have hskip (m) := skipSpaces_of_skip (m := m) hs (by decide) (by decide)
  refine reads_of_limit hs hrest rfl (fun limit n hn => ?_) (fun m => ?_) (fun limit m => ?_) hp
  · cases limit with
    | zero => cases hn
    | succ limit => exact hfits limit n hn
  · rw [parse_of_skip (hskip m), if_pos rfl]
    rfl
  · rw [parse_of_skip (hskip m), if_pos rfl]
    rfl

theorem reads_array_nil (hs : skip s = '[' :: s') (h : expect ']' s' = some rest) :
    Reads config s (.array []) rest := by
  have hskip := skip_of_expect h
  have hsuffix : rest <:+ s' := (List.suffix_cons _ _).trans (hskip ▸ skip_suffix s')
  refine reads_of_parseArray hs hsuffix (fun limit n _ => ?_) fun limit m w r => ?_
  · rw [sizeOfElements, Nat.zero_add]
    exact Nat.le_trans hsuffix.length_le (Nat.le_add_left _ _)
  · rw [parseArray_of_close hskip, Except.ok.injEq, Prod.mk.injEq, eq_comm, eq_comm (a := r)]
    exact (and_iff_right ⟨Nat.zero_le _, Nat.zero_le _⟩).symm

theorem reads_array {es : List Json} (hs : skip s = '[' :: s') (hs' : skip s' = c :: s₁)
    (hc : c ≠ ']' ∧ c ≠ nul ∧ c ≠ '/') (h : ReadsElements config (c :: s₁) es rest) :
    Reads config s (.array es) rest := by
  have hsuffix : c :: s₁ <:+ s' := hs' ▸ skip_suffix s'
  refine reads_of_parseArray hs (h.suffix.trans hsuffix) (fun limit n hn => ?_)
    fun limit m w r => ?_
  · exact Nat.le_trans (h.fits limit n hn) (Nat.add_le_add_left hsuffix.length_le _)
  · have hm : m < 16 * (m / 16 + 1) := by omega
    rw [parseArray_of_skip hs' hc]
    exact map_iff fun ws r => h.parse_iff limit _ m ws r hm

/-- Reading a value, and what comes after it. -/
theorem Reads.bind_iff {α : Type} {f : Json → JsonDeserializer.Parser α} {x : α}
    {r : Input Char ℕ} (h : Reads config s v rest) :
    (parse config limit >>= f) ⟨s, m⟩ = .ok (x, r) ↔
      (depth v ≤ limit ∧ size config.copies v ≤ m) ∧
        f v ⟨rest, m - size config.copies v⟩ = .ok (x, r) := by
  rw [bind_eq_ok]
  constructor
  · rintro ⟨w, r₁, hw, hf⟩
    obtain ⟨hlim, rfl, rfl⟩ := (h.parse_iff limit m w r₁).1 hw
    exact ⟨hlim, hf⟩
  · rintro ⟨hlim, hf⟩
    exact ⟨v, _, (h.parse_iff limit m v _).2 ⟨hlim, rfl, rfl⟩, hf⟩

/-- The last element, and the closing bracket. -/
theorem readsElements_singleton (h : Reads config s v s₁) (he : expect ']' s₁ = some rest) :
    ReadsElements config s [v] rest := by
  have hskip := skip_of_expect he
  have hsuffix : rest <:+ s₁ := (List.suffix_cons _ _).trans (hskip ▸ skip_suffix s₁)
  refine ⟨hsuffix.trans h.suffix, fun limit n hn => ?_, fun limit k m ws r hm => ?_⟩
  · obtain ⟨i, hi, hn⟩ := Option.bind_eq_some_iff.1 hn
    obtain ⟨j, hj, rfl⟩ := Option.map_eq_some_iff.1 hn
    have hfits := h.fits limit i hi
    have hlen := hsuffix.length_le
    rw [sizeOfElements, sizeOfElements]
    omega
  · rw [depthOfElements, depthOfElements, sizeOfElements, sizeOfElements, Nat.max_zero,
      Nat.add_zero]
    cases k with
    | zero =>
      refine iff_of_false (fun hw => absurd hw throw_ne_ok) fun hx => ?_
      omega
    | succ k =>
      rw [JsonDeserializer.parseElements, allocVariant, allocate_bind_eq_ok, h.bind_iff,
        bind_of_ok (skipSpaces_of_skip hskip (by decide) (by decide)), eat_bind_cons, if_pos rfl,
        if_pos rfl, pure_eq_ok, Nat.sub_sub, eq_comm, eq_comm (a := r)]
      constructor
      · rintro ⟨h16, ⟨hlim, hsize⟩, hw⟩
        exact ⟨⟨hlim, by omega⟩, hw⟩
      · rintro ⟨⟨hlim, hsize⟩, hw⟩
        exact ⟨by omega, ⟨hlim, by omega⟩, hw⟩

/-- An element, and others after a comma. -/
theorem readsElements_cons {vs : List Json} (h : Reads config s v s₁)
    (he : expect ',' s₁ = some s₂) (hvs : ReadsElements config s₂ vs rest) :
    ReadsElements config s (v :: vs) rest := by
  have hskip := skip_of_expect he
  have hsuffix : s₂ <:+ s₁ := (List.suffix_cons _ _).trans (hskip ▸ skip_suffix s₁)
  refine ⟨hvs.suffix.trans (hsuffix.trans h.suffix), fun limit n hn => ?_,
    fun limit k m ws r hm => ?_⟩
  · obtain ⟨i, hi, hn⟩ := Option.bind_eq_some_iff.1 hn
    obtain ⟨j, hj, rfl⟩ := Option.map_eq_some_iff.1 hn
    have hfits := h.fits limit i hi
    have hrest := hvs.fits limit j hj
    have hlen := hsuffix.length_le
    rw [sizeOfElements]
    omega
  · rw [depthOfElements, sizeOfElements, Nat.max_le]
    cases k with
    | zero =>
      refine iff_of_false (fun hw => absurd hw throw_ne_ok) fun hx => ?_
      omega
    | succ k =>
      rw [JsonDeserializer.parseElements, allocVariant, allocate_bind_eq_ok, h.bind_iff,
        bind_of_ok (skipSpaces_of_skip hskip (by decide) (by decide)), eat_bind_cons,
        if_neg (by decide), if_neg (by decide), eat_bind_cons, if_pos rfl, if_pos rfl,
        map_iff fun ws r => hvs.parse_iff limit k _ ws r (by omega), Nat.sub_sub, Nat.sub_sub]
      constructor
      · rintro ⟨h16, ⟨hlim, hsize⟩, ⟨hlim', hsize'⟩, hw⟩
        exact ⟨⟨⟨hlim, hlim'⟩, by omega⟩, hw⟩
      · rintro ⟨⟨⟨hlim, hlim'⟩, hsize⟩, hw⟩
        exact ⟨by omega, ⟨hlim, by omega⟩, ⟨hlim', by omega⟩, hw⟩

/-! ## Objects -/

theorem parseObject_of_close {p : JsonDeserializer.Parser Json} {copies : Bool}
    (h : skip s = '\x7d' :: s') : parseObject copies p ⟨s, m⟩ = .ok (.object [], ⟨s', m⟩) := by
  rw [parseObject, bind_of_ok (skipSpaces_of_skip h (by decide) (by decide)), eat_bind_cons,
    if_pos rfl]
  rfl

theorem parseObject_of_quote {p : JsonDeserializer.Parser Json} {copies : Bool}
    (h : skip s = '"' :: s') :
    parseObject copies p ⟨s, m⟩ = (Json.object <$> parseMembers copies p (m / 16)) ⟨skip s, m⟩ := by
  rw [parseObject, bind_of_ok (skipSpaces_of_skip h (by decide) (by decide)), eat_bind_cons,
    if_neg (by decide), h]
  rfl

theorem reads_of_parseObject {ms : List (Text × Json)} (hs : skip s = '\x7b' :: s')
    (hrest : rest <:+ s')
    (hfits : ∀ limit n, slotsOfMembers limit ms = some n →
      sizeOfMembers config.copies ms + rest.length ≤ 16 * n + s'.length)
    (hp : ∀ limit m w r, parseObject config.copies (parse config limit) ⟨s', m⟩ = .ok (w, r) ↔
      (depthOfMembers ms ≤ limit ∧ sizeOfMembers config.copies ms ≤ m) ∧ w = .object ms ∧
        r = ⟨rest, m - sizeOfMembers config.copies ms⟩) : Reads config s (.object ms) rest := by
  have hskip (m) := skipSpaces_of_skip (m := m) hs (by decide) (by decide)
  refine reads_of_limit hs hrest rfl (fun limit n hn => ?_) (fun m => ?_) (fun limit m => ?_) hp
  · cases limit with
    | zero => cases hn
    | succ limit => exact hfits limit n hn
  · rw [parse_of_skip (hskip m), if_neg (by decide), if_pos rfl]
    rfl
  · rw [parse_of_skip (hskip m), if_neg (by decide), if_pos rfl]
    rfl

theorem reads_object_nil (hs : skip s = '\x7b' :: s') (h : expect '\x7d' s' = some rest) :
    Reads config s (.object []) rest := by
  have hskip := skip_of_expect h
  have hsuffix : rest <:+ s' := (List.suffix_cons _ _).trans (hskip ▸ skip_suffix s')
  refine reads_of_parseObject hs hsuffix (fun limit n _ => ?_) fun limit m w r => ?_
  · rw [sizeOfMembers, Nat.zero_add]
    exact Nat.le_trans hsuffix.length_le (Nat.le_add_left _ _)
  · rw [parseObject_of_close hskip, Except.ok.injEq, Prod.mk.injEq, eq_comm, eq_comm (a := r)]
    exact (and_iff_right ⟨Nat.zero_le _, Nat.zero_le _⟩).symm

theorem reads_object {ms : List (Text × Json)} (hs : skip s = '\x7b' :: s')
    (hs' : skip s' = '"' :: s₁) (h : ReadsMembers config s' ms rest) :
    Reads config s (.object ms) rest := by
  refine reads_of_parseObject hs h.suffix h.fits fun limit m w r => ?_
  rw [parseObject_of_quote hs']
  exact map_iff fun ws r => h.parse_iff limit _ m ws r (by omega)

/-- Reading a member, and what comes after it. -/
theorem parseMembers_succ_iff {key d' : Text} {e : Char} {ns : List (Text × Json)}
    {r : Input Char ℕ} (hquote : skip s = '"' :: s₁)
    (hkey : quotedFrom '"' false s₁ = .ok (key, s₂)) (hcolon : expect ':' s₂ = some s')
    (h : Reads config s' v rest) (hrest : skip rest = e :: d') (he : e ≠ nul ∧ e ≠ '/') :
    parseMembers config.copies (parse config limit) (k + 1) ⟨skip s, m⟩ = .ok (ns, r) ↔
      (depth v ≤ limit ∧ 16 + stringSize config.copies key + size config.copies v ≤ m) ∧
        (do
          if ← eat '\x7d' then return [(key, v)]
          else if ← eat ',' then
            skipSpacesAndComments
            ((key, v) :: ·) <$> parseMembers config.copies (parse config limit) k
          else throw .invalidInput : JsonDeserializer.Parser (List (Bytes × Json)))
            ⟨e :: d', m - (16 + stringSize config.copies key + size config.copies v)⟩ =
              .ok (ns, r) := by
  have hbind {α : Type} {f : Bytes → JsonDeserializer.Parser α} {x : α} {m : ℕ} :
      (parseKey config.copies >>= f) ⟨'"' :: s₁, m⟩ = .ok (x, r) ↔
        stringSize config.copies key ≤ m ∧
          f key ⟨s₂, m - stringSize config.copies key⟩ = .ok (x, r) := by
    have hq : parseKey config.copies ⟨'"' :: s₁, m⟩ =
      parseQuotedString config.copies ⟨'"' :: s₁, m⟩ := rfl
    rw [bind_eq_ok]
    constructor
    · rintro ⟨t, r₁, ht, hf⟩
      obtain ⟨hm, rfl, rfl⟩ := (parseQuotedString_eq_ok hkey t).1 (hq ▸ ht)
      exact ⟨hm, hf⟩
    · rintro ⟨hm, hf⟩
      exact ⟨key, _, hq.trans ((parseQuotedString_eq_ok hkey key).2 ⟨hm, rfl, rfl⟩), hf⟩
  rw [hquote, JsonDeserializer.parseMembers, allocVariant, allocate_bind_eq_ok, hbind,
    bind_of_ok (skipSpaces_of_skip (skip_of_expect hcolon) (by decide) (by decide)),
    eat_bind_cons, if_pos rfl, if_pos rfl, h.bind_iff,
    bind_of_ok (skipSpaces_of_skip hrest he.1 he.2), Nat.sub_sub, Nat.sub_sub]
  constructor
  · rintro ⟨h16, hk, ⟨hlim, hsize⟩, hend⟩
    exact ⟨⟨hlim, by omega⟩, hend⟩
  · rintro ⟨⟨hlim, hsize⟩, hend⟩
    exact ⟨by omega, by omega, ⟨hlim, by omega⟩, hend⟩

/-- What is read of the text before the value of a member, and how long it is. -/
theorem suffix_of_member {key : Text} (hquote : skip s = '"' :: (key ++ '"' :: s₂))
    (hcolon : expect ':' s₂ = some s') : s' <:+ s ∧ key.length + 1 + s'.length ≤ s.length := by
  have hs₂ : s' <:+ s₂ := (List.suffix_cons _ _).trans (skip_of_expect hcolon ▸ skip_suffix s₂)
  have hs : '"' :: (key ++ '"' :: s₂) <:+ s := hquote ▸ skip_suffix s
  refine ⟨hs₂.trans (((List.suffix_cons '"' s₂).trans (List.suffix_append key _)).trans
    ((List.suffix_cons _ _).trans hs)), ?_⟩
  have hlen := hs.length_le
  have hlen₂ := hs₂.length_le
  rw [List.length_cons, List.length_append, List.length_cons] at hlen
  omega

theorem stringSize_le (copies : Bool) (t : Text) : stringSize copies t ≤ t.length + 1 := by
  rw [stringSize]
  split
  · exact Nat.le_refl _
  · exact Nat.zero_le _

/-- The last member, and the closing brace. -/
theorem readsMembers_singleton {key : Text} (hquote : skip s = '"' :: (key ++ '"' :: s₂))
    (hkey : quotedFrom '"' false (key ++ '"' :: s₂) = .ok (key, s₂))
    (hcolon : expect ':' s₂ = some s') (h : Reads config s' v s₁)
    (he : expect '\x7d' s₁ = some rest) : ReadsMembers config s [(key, v)] rest := by
  have hskip := skip_of_expect he
  have hsuffix : rest <:+ s₁ := (List.suffix_cons _ _).trans (hskip ▸ skip_suffix s₁)
  obtain ⟨hs', hlen'⟩ := suffix_of_member hquote hcolon
  have hstring := stringSize_le config.copies key
  refine ⟨hsuffix.trans (h.suffix.trans hs'), fun limit n hn => ?_, fun limit k m ns r hm => ?_⟩
  · obtain ⟨i, hi, hn⟩ := Option.bind_eq_some_iff.1 hn
    obtain ⟨j, hj, rfl⟩ := Option.map_eq_some_iff.1 hn
    have hfits := h.fits limit i hi
    have hlen := hsuffix.length_le
    rw [sizeOfMembers, sizeOfMembers]
    omega
  · rw [depthOfMembers, depthOfMembers, sizeOfMembers, sizeOfMembers, Nat.max_zero, Nat.add_zero]
    cases k with
    | zero =>
      refine iff_of_false (fun hw => absurd hw throw_ne_ok) fun hx => ?_
      omega
    | succ k =>
      rw [parseMembers_succ_iff hquote hkey hcolon h hskip (by decide), eat_bind_cons, if_pos rfl,
        if_pos rfl, pure_eq_ok, eq_comm (a := ns), eq_comm (a := r)]

/-- A member, and others after a comma. -/
theorem readsMembers_cons {key : Text} {ms : List (Text × Json)} {t : Text}
    (hquote : skip s = '"' :: (key ++ '"' :: s₂))
    (hkey : quotedFrom '"' false (key ++ '"' :: s₂) = .ok (key, s₂))
    (hcolon : expect ':' s₂ = some s') (h : Reads config s' v s₁) (he : expect ',' s₁ = some t)
    (hms : ReadsMembers config t ms rest) (hnext : ∃ t', skip t = '"' :: t') :
    ReadsMembers config s ((key, v) :: ms) rest := by
  have hskip := skip_of_expect he
  have hsuffix : t <:+ s₁ := (List.suffix_cons _ _).trans (hskip ▸ skip_suffix s₁)
  obtain ⟨hs', hlen'⟩ := suffix_of_member hquote hcolon
  obtain ⟨t', ht'⟩ := hnext
  have hstring := stringSize_le config.copies key
  refine ⟨hms.suffix.trans (hsuffix.trans (h.suffix.trans hs')), fun limit n hn => ?_,
    fun limit k m ns r hm => ?_⟩
  · obtain ⟨i, hi, hn⟩ := Option.bind_eq_some_iff.1 hn
    obtain ⟨j, hj, rfl⟩ := Option.map_eq_some_iff.1 hn
    have hfits := h.fits limit i hi
    have hrest := hms.fits limit j hj
    have hlen := hsuffix.length_le
    rw [sizeOfMembers]
    omega
  · rw [depthOfMembers, sizeOfMembers, Nat.max_le]
    cases k with
    | zero =>
      refine iff_of_false (fun hw => absurd hw throw_ne_ok) fun hx => ?_
      omega
    | succ k =>
      rw [parseMembers_succ_iff hquote hkey hcolon h hskip (by decide), eat_bind_cons,
        if_neg (by decide), if_neg (by decide), eat_bind_cons, if_pos rfl, if_pos rfl,
        bind_of_ok (skipSpaces_of_skip ht' (by decide) (by decide)), ← ht',
        map_iff fun ns r => hms.parse_iff limit k _ ns r (by omega), Nat.sub_sub]
      constructor
      · rintro ⟨⟨hlim, hsize⟩, ⟨hlim', hsize'⟩, hw⟩
        exact ⟨⟨⟨hlim, hlim'⟩, by omega⟩, hw⟩
      · rintro ⟨⟨⟨hlim, hlim'⟩, hsize⟩, hw⟩
        exact ⟨⟨hlim, by omega⟩, ⟨hlim', by omega⟩, hw⟩

/-! ## Every text -/

theorem parseElements_skip : Json.parseElements fuel (skip s) = Json.parseElements fuel s := by
  cases fuel with
  | zero => rfl
  | succ fuel =>
    cases fuel with
    | zero => rfl
    | succ fuel =>
      rw [Json.parseElements, Json.parseElements, Json.parseValue, Json.parseValue, skip_skip]

theorem parseNumber_head (h : parseNumber (c :: s) = some (v, rest)) :
    c = '-' ∨ c.isDigit = true := by
  by_cases hneg : c = '-'
  · exact .inl hneg
  rw [parseNumber, if_neg hneg] at h
  obtain ⟨⟨ds, s₁⟩, hds, -⟩ := Option.bind_eq_some_iff.1 h
  obtain ⟨hne, -⟩ := Option.ite_none_left_eq_some.1 hds
  exact .inr (by_contra fun hd => hne (List.takeWhile_cons_of_neg hd))

theorem unsigned_value {sign : ℤ} (h : unsigned sign s = some (v, rest)) :
    (∃ n, v = .integer n) ∨ ∃ m e, v = .float m e := by
  obtain ⟨⟨ds, s₁⟩, -, h₁⟩ := Option.bind_eq_some_iff.1 h
  obtain ⟨-, h₂⟩ := Option.ite_none_left_eq_some.1 h₁
  obtain ⟨⟨fs, s₂⟩, -, h₃⟩ := Option.bind_eq_some_iff.1 h₂
  obtain ⟨⟨e, s₃⟩, -, h₄⟩ := Option.map_eq_some_iff.1 h₃
  dsimp only at h₄
  split_ifs at h₄
  · exact .inl ⟨_, (Prod.mk.inj h₄).1.symm⟩
  · exact .inr ⟨_, _, (Prod.mk.inj h₄).1.symm⟩

theorem parseNumber_value (h : parseNumber (c :: s) = some (v, rest)) :
    (∃ n, v = .integer n) ∨ ∃ m e, v = .float m e := by
  rw [parseNumber] at h
  split_ifs at h
  · exact unsigned_value h
  · exact unsigned_value h

/-- The characters that a value may begin with. -/
def BeginsValue (c : Char) : Prop :=
  c = '"' ∨ c = '\x7b' ∨ c = '[' ∨ c = 't' ∨ c = 'f' ∨ c = 'n' ∨ c = '-' ∨ c.isDigit = true

theorem BeginsValue.ne (h : BeginsValue c)
    (hd : d ∉ ['"', '\x7b', '[', 't', 'f', 'n', '-'] ∧ d.isDigit = false) : c ≠ d := by
  rintro rfl
  obtain ⟨hmem, hdigit⟩ := hd
  simp only [List.mem_cons, List.not_mem_nil, or_false, not_or] at hmem
  rw [BeginsValue, hdigit] at h
  tauto

theorem skip_of_parseValue (h : Json.parseValue fuel s = some (v, rest)) :
    ∃ c s', skip s = c :: s' ∧ BeginsValue c := by
  cases fuel with
  | zero => cases h
  | succ fuel =>
    rw [Json.parseValue] at h
    split at h
    · cases h
    · next c s' hs =>
      refine ⟨c, s', hs, ?_⟩
      rw [BeginsValue]
      split_ifs at h with h₁ h₂ h₃ h₄ h₅ h₆
      · exact .inl h₁
      · exact .inr (.inl h₂)
      · exact .inr (.inr (.inl h₃))
      · exact .inr (.inr (.inr (.inl h₄)))
      · exact .inr (.inr (.inr (.inr (.inl h₅))))
      · exact .inr (.inr (.inr (.inr (.inr (.inl h₆)))))
      · exact .inr (.inr (.inr (.inr (.inr (.inr (parseNumber_head h))))))

/-- What is assumed of the texts within a value. -/
structure ReadsBelow (config : Config) (fuel : ℕ) : Prop where
  value : ∀ {s v rest}, Json.parseValue fuel s = some (v, rest) → '\\' ∉ s → Integral v →
    Stops rest → Reads config s v rest
  elements : ∀ {s vs rest}, Json.parseElements fuel s = some (vs, rest) → '\\' ∉ s →
    IntegralElements vs → ReadsElements config s vs rest
  members : ∀ {s ms rest}, Json.parseMembers fuel s = some (ms, rest) → '\\' ∉ s →
    IntegralMembers ms → ReadsMembers config s ms rest

theorem not_mem_of_suffix (h : s' <:+ s) (hb : '\\' ∉ s) : '\\' ∉ s' := fun hm => hb (h.subset hm)

theorem stops_of_expect (h : expect d s = some s') (hd : canBeInNonQuotedString d = false) :
    Stops s := stops_of_skip (skip_of_expect h) hd

/-- An element comes before the bracket or the comma. -/
theorem reads_elements (ih : ReadsBelow config fuel) {vs : List Json}
    (h : Json.parseElements (fuel + 1) s = some (vs, rest)) (hb : '\\' ∉ s)
    (hvs : IntegralElements vs) : ReadsElements config s vs rest := by
  obtain ⟨⟨v, s₁⟩, hv, hend⟩ := Option.bind_eq_some_iff.1 h
  dsimp only at hend
  split at hend
  · next s₂ hcomma =>
    obtain ⟨⟨vs', r⟩, hrest, he⟩ := Option.map_eq_some_iff.1 hend
    cases he
    have hread := ih.value hv hb hvs.1 (stops_of_expect hcomma (by decide))
    have hsuffix : s₂ <:+ s :=
      ((List.suffix_cons _ _).trans (skip_of_expect hcomma ▸ skip_suffix s₁)).trans hread.suffix
    exact readsElements_cons hread hcomma (ih.elements hrest (not_mem_of_suffix hsuffix hb) hvs.2)
  · obtain ⟨r, hclose, he⟩ := Option.map_eq_some_iff.1 hend
    cases he
    exact readsElements_singleton (ih.value hv hb hvs.1 (stops_of_expect hclose (by decide))) hclose

theorem reads_members (ih : ReadsBelow config fuel) {ms : List (Text × Json)}
    (h : Json.parseMembers (fuel + 1) s = some (ms, rest)) (hb : '\\' ∉ s)
    (hms : IntegralMembers ms) : ReadsMembers config s ms rest := by
  obtain ⟨a, hquote, hbind⟩ := Option.bind_eq_some_iff.1 h
  obtain ⟨⟨key, s₂⟩, hkey, hbind⟩ := Option.bind_eq_some_iff.1 hbind
  obtain ⟨s', hcolon, hbind⟩ := Option.bind_eq_some_iff.1 hbind
  obtain ⟨⟨v, s₁⟩, hv, hend⟩ := Option.bind_eq_some_iff.1 hbind
  have hskip := skip_of_expect hquote
  have ha : '\\' ∉ a :=
    not_mem_of_suffix ((List.suffix_cons _ _).trans (hskip ▸ skip_suffix s)) hb
  obtain ⟨hq, rfl⟩ := quotedFrom_of_parseChars hkey ha
  have hs' := (suffix_of_member hskip hcolon).1
  have hb' := not_mem_of_suffix hs' hb
  dsimp only at hend hv
  split at hend
  · next t hcomma =>
    obtain ⟨⟨ms', r⟩, hrest, he⟩ := Option.map_eq_some_iff.1 hend
    cases he
    have hread := ih.value hv hb' hms.1 (stops_of_expect hcomma (by decide))
    have hsuffix : t <:+ s :=
      (((List.suffix_cons _ _).trans (skip_of_expect hcomma ▸ skip_suffix s₁)).trans
        hread.suffix).trans hs'
    have hnext : ∃ t', skip t = '"' :: t' := by
      cases fuel with
      | zero => cases hrest
      | succ fuel =>
        obtain ⟨t', ht', -⟩ := Option.bind_eq_some_iff.1 hrest
        exact ⟨t', skip_of_expect ht'⟩
    exact readsMembers_cons hskip hq hcolon hread hcomma
      (ih.members hrest (not_mem_of_suffix hsuffix hb) hms.2) hnext
  · obtain ⟨r, hclose, he⟩ := Option.map_eq_some_iff.1 hend
    cases he
    exact readsMembers_singleton hskip hq hcolon
      (ih.value hv hb' hms.1 (stops_of_expect hclose (by decide))) hclose

/-- A value is told by what it begins with. -/
theorem reads_value (ih : ReadsBelow config fuel)
    (h : Json.parseValue (fuel + 1) s = some (v, rest)) (hb : '\\' ∉ s) (hv : Integral v)
    (hrest : Stops rest) : Reads config s v rest := by
  obtain ⟨c, s', hs, hc⟩ := skip_of_parseValue h
  have hsuffix : s' <:+ s := (List.suffix_cons c s').trans (hs ▸ skip_suffix s)
  have hb' := not_mem_of_suffix hsuffix hb
  rw [Json.parseValue, hs] at h
  dsimp only at h
  split_ifs at h with h₁ h₂ h₃ h₄ h₅ h₆
  · subst h₁
    obtain ⟨⟨t, r⟩, ht, he⟩ := Option.map_eq_some_iff.1 h
    cases he
    exact reads_string hs ht hb'
  · subst h₂
    split at h
    · next r hclose =>
      cases h
      exact reads_object_nil hs hclose
    · obtain ⟨⟨ms, r⟩, hms, he⟩ := Option.map_eq_some_iff.1 h
      cases he
      obtain ⟨s₁, hs₁⟩ : ∃ s₁, skip s' = '"' :: s₁ := by
        cases fuel with
        | zero => cases hms
        | succ fuel =>
          obtain ⟨s₁, hs₁, -⟩ := Option.bind_eq_some_iff.1 hms
          exact ⟨s₁, skip_of_expect hs₁⟩
      exact reads_object hs hs₁ (ih.members hms hb' hv)
  · subst h₃
    split at h
    · next r hclose =>
      cases h
      exact reads_array_nil hs hclose
    · obtain ⟨⟨es, r⟩, hes, he⟩ := Option.map_eq_some_iff.1 h
      cases he
      obtain ⟨d, s₁, hs₁, hd⟩ : ∃ d s₁, skip s' = d :: s₁ ∧ BeginsValue d := by
        cases fuel with
        | zero => cases hes
        | succ fuel =>
          obtain ⟨⟨v, r⟩, hv, -⟩ := Option.bind_eq_some_iff.1 hes
          exact skip_of_parseValue hv
      rw [← parseElements_skip, hs₁] at hes
      refine reads_array hs hs₁ ⟨hd.ne (by decide), hd.ne (by decide), hd.ne (by decide)⟩ ?_
      exact ih.elements hes (not_mem_of_suffix (hs₁ ▸ skip_suffix s') hb') hv
  · subst h₄
    obtain ⟨r, hr, he⟩ := Option.map_eq_some_iff.1 h
    cases he
    exact reads_name hs hr (by decide) (by decide) (by decide) rfl rfl hrest rfl
  · subst h₅
    obtain ⟨r, hr, he⟩ := Option.map_eq_some_iff.1 h
    cases he
    exact reads_name hs hr (by decide) (by decide) (by decide) rfl rfl hrest rfl
  · subst h₆
    obtain ⟨r, hr, he⟩ := Option.map_eq_some_iff.1 h
    cases he
    exact reads_name hs hr (by decide) (by decide) (by decide) rfl rfl hrest rfl
  · rcases parseNumber_value h with ⟨n, rfl⟩ | ⟨m, e, rfl⟩
    · obtain ⟨hn, hsuff⟩ := numeric_of_parseNumber h hv hrest
      have hquote : isQuote c = false := by
        rw [isQuote, Bool.or_eq_false_iff, decide_eq_false_iff_not, decide_eq_false_iff_not]
        exact ⟨hc.ne (by decide), h₁⟩
      exact reads_of_numeric hs ⟨h₃, h₂, hc.ne (by decide), hc.ne (by decide)⟩ hquote hsuff rfl
        rfl hn
    · exact hv.elim

theorem readsBelow (config : Config) (fuel : ℕ) : ReadsBelow config fuel := by
  induction fuel with
  | zero => exact ⟨fun h => (nomatch h), fun h => (nomatch h), fun h => (nomatch h)⟩
  | succ fuel ih => exact ⟨reads_value ih, reads_elements ih, reads_members ih⟩

/-! ## Documents -/

theorem reads_of_parse (h : Json.parse s = some v) (hb : '\\' ∉ s) (hv : Integral v) :
    ∃ rest, Reads config s v rest := by
  obtain ⟨⟨v', rest⟩, hp, hend⟩ := Option.bind_eq_some_iff.1 h
  obtain ⟨hspace, he⟩ := Option.ite_none_right_eq_some.1 hend
  cases he
  refine ⟨rest, (readsBelow config s.length).value hp hb hv fun c hc => ?_⟩
  obtain ⟨rest, rfl⟩ := List.head?_eq_some_iff.1 hc
  have hsp : isSpace c = true := by
    by_contra hne
    rw [skip, List.dropWhile_cons_of_neg hne] at hspace
    cases hspace
  rcases isSpace_iff.1 hsp with rfl | rfl | rfl | rfl <;> rfl

/-- A document of values that are read is accepted if and only if it is within the nesting limit
    and the pool. -/
theorem Reads.deserializeJson_iff {rest : Bytes} (h : Reads config s v rest) (w : Json) :
    deserializeJson config s = .ok w ↔
      (depth v ≤ 10 ∧ size config.copies v ≤ 3000) ∧ w = v := by
  rw [deserializeJson_eq_ok]
  constructor
  · rintro ⟨r, hr⟩
    obtain ⟨hlim, hw, -⟩ := (h.parse_iff 10 3000 w r).1 hr
    exact ⟨hlim, hw⟩
  · rintro ⟨hlim, hw⟩
    exact ⟨_, (h.parse_iff 10 3000 w _).2 ⟨hlim, hw, rfl⟩⟩

/-- JSON without escape sequences, whose numbers are 32-bit integers, is read if and only if it
    is within the nesting limit and the pool. What is read is what it stands for. -/
theorem deserializeJson_eq_ok_iff (h : Json.parse s = some v) (hb : '\\' ∉ s) (hv : Integral v)
    (w : Json) : deserializeJson config s = .ok w ↔
      (depth v ≤ 10 ∧ size config.copies v ≤ 3000) ∧ w = v := by
  obtain ⟨rest, hread⟩ := reads_of_parse h hb hv
  exact hread.deserializeJson_iff w

/-- A member takes a slot, and its key. -/
theorem deserializeJson_eq_ok_iff_member :
    deserializeJson ⟨true, fun _ => (0, 0)⟩ ['\x7b', '"', 'a', '"', ':', '5', '\x7d'] =
        .ok (.object [(['a'], .integer 5)]) ↔
      (depth (.object [(['a'], .integer 5)]) ≤ 10 ∧
        size true (.object [(['a'], .integer 5)]) ≤ 3000) ∧
        Json.object [(['a'], .integer 5)] = .object [(['a'], .integer 5)] :=
  have hmember : Integral (.object [(['a'], .integer 5)]) :=
    And.intro (by decide : IsI32 5) trivial
  deserializeJson_eq_ok_iff rfl (by decide) hmember _

mutual

/-- A value that has its slots is not nested too deep, and has integers. -/
theorem within_of_slots : ∀ (v : Json) (limit n : ℕ), slots limit v = some n →
    depth v ≤ limit ∧ Integral v
  | .null, limit, _, _ => ⟨Nat.zero_le limit, trivial⟩
  | .bool _, limit, _, _ => ⟨Nat.zero_le limit, trivial⟩
  | .integer n, limit, k, h => by
    rw [slots.eq_def] at h
    exact ⟨Nat.zero_le limit, (Option.ite_none_right_eq_some.1 h).1⟩
  | .float _ _, limit, _, h => by cases limit <;> cases h
  | .string _, limit, _, _ => ⟨Nat.zero_le limit, trivial⟩
  | .array es, 0, _, h => by cases h
  | .array es, limit + 1, n, h => by
    obtain ⟨hd, hi⟩ := within_of_slotsOfElements es limit n h
    exact ⟨Nat.succ_le_succ hd, hi⟩
  | .object ms, 0, _, h => by cases h
  | .object ms, limit + 1, n, h => by
    obtain ⟨hd, hi⟩ := within_of_slotsOfMembers ms limit n h
    exact ⟨Nat.succ_le_succ hd, hi⟩

theorem within_of_slotsOfElements : ∀ (vs : List Json) (limit n : ℕ),
    slotsOfElements limit vs = some n → depthOfElements vs ≤ limit ∧ IntegralElements vs
  | [], limit, _, _ => ⟨Nat.zero_le limit, trivial⟩
  | v :: vs, limit, n, h => by
    obtain ⟨i, hi, h⟩ := Option.bind_eq_some_iff.1 h
    obtain ⟨j, hj, -⟩ := Option.map_eq_some_iff.1 h
    obtain ⟨hd, hv⟩ := within_of_slots v limit i hi
    obtain ⟨hd', hvs⟩ := within_of_slotsOfElements vs limit j hj
    exact ⟨Nat.max_le.2 ⟨hd, hd'⟩, hv, hvs⟩

theorem within_of_slotsOfMembers : ∀ (ms : List (Text × Json)) (limit n : ℕ),
    slotsOfMembers limit ms = some n → depthOfMembers ms ≤ limit ∧ IntegralMembers ms
  | [], limit, _, _ => ⟨Nat.zero_le limit, trivial⟩
  | (_, v) :: ms, limit, n, h => by
    obtain ⟨i, hi, h⟩ := Option.bind_eq_some_iff.1 h
    obtain ⟨j, hj, -⟩ := Option.map_eq_some_iff.1 h
    obtain ⟨hd, hv⟩ := within_of_slots v limit i hi
    obtain ⟨hd', hms⟩ := within_of_slotsOfMembers ms limit j hj
    exact ⟨Nat.max_le.2 ⟨hd, hd'⟩, hv, hms⟩

end

/-- The parser meets what is assumed of it where the logs are read. -/
theorem readsJson_deserializeJson (config : Config) :
    ReadsJson fun text => (deserializeJson config text).toOption := by
  intro text v n hvalid hb hn hle
  obtain ⟨hdepth, hint⟩ := within_of_slots v 10 n hn
  obtain ⟨rest, hread⟩ : ∃ rest, Reads config text v rest := reads_of_parse hvalid.2 hb hint
  have hsize := hread.fits 10 n hn
  have hok : deserializeJson config text = .ok v :=
    (hread.deserializeJson_iff v).2 ⟨⟨hdepth, by omega⟩, rfl⟩
  exact congrArg Except.toOption hok

end CanInsight
