import CanInsight.Lib.CString
import CanInsight.Lib.Json

/-!
# JSON texts put together by hand

A program that prints JSON without escaping anything is read back as intended only if nothing
had to be escaped.

* `Plain`: the strings that stand for themselves;
* `Readable text v P`: wherever the text stands, it is read as the value `v` if and only
  if the condition `P` holds;
* `readable_string`, `readable_decimal`, `readable_object`: how conditions compose;
* `Readable.parse_iff`: a text is read back if and only if its condition holds.
-/

namespace Json

open CString

/-! ## Strings that stand for themselves -/

/-- Nothing in the string has to be escaped. -/
def Plain (s : Text) : Prop := ∀ c ∈ s, c ≠ '"' ∧ c ≠ '\\' ∧ ¬ c < ' '

instance (s : Text) : Decidable (Plain s) := List.decidableBAll _ s

/-- No backslash comes before the next quotation mark. -/
def NoEscape (s : Text) : Prop := '\\' ∉ s.takeWhile (· ≠ '"')

variable {fuel : ℕ} {s t r out rest used : Text} {c d : Char} {n : ℕ}

theorem noEscape_cons (hc : c ≠ '\\') (h : NoEscape s) : NoEscape (c :: s) := by
  rw [NoEscape, List.takeWhile_cons]
  split
  · exact fun hm => (List.mem_cons.1 hm).elim (fun he => hc he.symm) h
  · exact List.not_mem_nil

theorem noEscape_quote (s : Text) : NoEscape ('"' :: s) := by
  rw [NoEscape, List.takeWhile_cons_of_neg (by decide)]
  exact List.not_mem_nil

theorem parseChars_cons (hq : c ≠ '"') (hb : c ≠ '\\') (hc : ¬ c < ' ') :
    parseChars (fuel + 1) (c :: s) = (parseChars fuel s).map fun (t, s) => (c :: t, s) := by
  rw [parseChars, if_neg hq, if_neg hb, if_neg hc]

theorem parseChars_plain (hs : Plain s) (hf : s.length < fuel) :
    parseChars fuel (s ++ '"' :: rest) = some (s, rest) := by
  induction s generalizing fuel with
  | nil =>
    obtain ⟨fuel, rfl⟩ := Nat.exists_eq_succ_of_ne_zero (Nat.ne_zero_of_lt hf)
    rfl
  | cons c s ih =>
    obtain ⟨fuel, rfl⟩ := Nat.exists_eq_succ_of_ne_zero (Nat.ne_zero_of_lt hf)
    obtain ⟨hq, hb, hc⟩ := hs c List.mem_cons_self
    rw [List.cons_append, parseChars_cons hq hb hc,
      ih (fun c h => hs c (List.mem_cons_of_mem _ h)) (Nat.lt_of_succ_lt_succ hf)]
    rfl

/-- Where no backslash comes before the closing quotation mark, none is read. -/
theorem parseChars_noEscape (h : NoEscape s) (hp : parseChars fuel s = some (t, r)) :
    '\\' ∉ t := by
  induction fuel generalizing s t with
  | zero => cases hp
  | succ fuel ih =>
    cases s with
    | nil => cases hp
    | cons c s =>
      rw [parseChars] at hp
      by_cases hq : c = '"'
      · rw [if_pos hq] at hp
        cases hp
        exact List.not_mem_nil
      rw [NoEscape, List.takeWhile_cons_of_pos (by simpa using hq), List.mem_cons, not_or] at h
      rw [if_neg hq, if_neg (Ne.symm h.1)] at hp
      split at hp
      · cases hp
      · obtain ⟨⟨t, s⟩, ht, he⟩ := Option.map_eq_some_iff.1 hp
        cases he
        exact fun hm => (List.mem_cons.1 hm).elim h.1 (ih h.2 ht)

theorem length_utf8 (code : ℕ) : (utf8 code).length ≤ 4 := by
  rw [utf8, List.length_map, String.length_utf8EncodeChar]
  exact Char.utf8Size_le_four _

theorem hexDigit_quote : hexDigit '"' = none := by decide

theorem hexDigits_used (h : hexDigits s = some (n, r)) :
    ∃ used, s = used ++ r ∧ used.length = 4 ∧ '"' ∉ used := by
  match s with
  | a :: b :: c :: d :: s =>
    obtain ⟨x, ha, h⟩ := Option.bind_eq_some_iff.1 h
    obtain ⟨y, hb, h⟩ := Option.bind_eq_some_iff.1 h
    obtain ⟨z, hc, h⟩ := Option.bind_eq_some_iff.1 h
    obtain ⟨w, hd, he⟩ := Option.map_eq_some_iff.1 h
    cases he
    refine ⟨[a, b, c, d], rfl, rfl, fun hm => ?_⟩
    have hne {e : Char} {k : ℕ} (he : hexDigit e = some k) : e ≠ '"' := by
      rintro rfl
      rw [hexDigit_quote] at he
      cases he
    simp only [List.mem_cons, List.not_mem_nil, or_false] at hm
    rcases hm with hm | hm | hm | hm
    · exact hne ha hm.symm
    · exact hne hb hm.symm
    · exact hne hc hm.symm
    · exact hne hd hm.symm

theorem codePoint_used (h : codePoint s = some (out, r)) :
    ∃ used, s = used ++ r ∧ out.length ≤ used.length ∧ '"' ∉ used := by
  obtain ⟨⟨high, s₁⟩, hhigh, hcode⟩ := Option.bind_eq_some_iff.1 h
  obtain ⟨used, rfl, hlen, hq⟩ := hexDigits_used hhigh
  have hout (code : ℕ) : (utf8 code).length ≤ used.length :=
    Nat.le_trans (length_utf8 code) (Nat.le_of_eq hlen.symm)
  dsimp only at hcode
  split at hcode
  · obtain ⟨s₂, hl, hsecond⟩ := Option.bind_eq_some_iff.1 hcode
    obtain ⟨⟨low, s₃⟩, hlow, hpair⟩ := Option.bind_eq_some_iff.1 hsecond
    obtain ⟨used', rfl, -, hq'⟩ := hexDigits_used hlow
    obtain ⟨⟨t, rfl⟩, hdrop⟩ := Option.ite_none_right_eq_some.1 hl
    obtain ⟨-, he⟩ := Option.ite_none_right_eq_some.1 hpair
    obtain ⟨rfl, rfl⟩ := Prod.mk.inj (Option.some.inj he)
    cases hdrop
    refine ⟨used ++ (['\\', 'u'] ++ used'), by simp, ?_, by simp [hq, hq']⟩
    rw [List.length_append]
    exact Nat.le_trans (hout _) (Nat.le_add_right _ _)
  · obtain ⟨-, he⟩ := Option.ite_none_left_eq_some.1 hcode
    cases he
    exact ⟨used, rfl, hout _, hq⟩

/-- An escape sequence is longer than what it stands for, and only the one of the quotation
    mark contains it. -/
theorem escape_used (h : escape s = some (out, r)) :
    ∃ used, s = used ++ r ∧ out.length ≤ used.length ∧
      ('"' ∈ used → used = ['"'] ∧ out = ['"']) := by
  cases s with
  | nil => cases h
  | cons c s =>
    rw [escape] at h
    split at h
    · next hu =>
      obtain ⟨used, rfl, hlen, hq⟩ := codePoint_used h
      refine ⟨c :: used, rfl, Nat.le_succ_of_le hlen, fun hm => ?_⟩
      rw [hu] at hm
      exact ((List.mem_cons.1 hm).elim (by decide) hq).elim
    · obtain ⟨e, he, hh⟩ := Option.map_eq_some_iff.1 h
      cases hh
      refine ⟨[c], rfl, Nat.le_refl _, fun hm => ?_⟩
      cases List.mem_singleton.1 hm
      cases he
      exact ⟨rfl, rfl⟩

/-- What is left of a text that begins with the shorter of two texts. -/
theorem exists_append_of_length_le {a b x y : Text} (h : a ++ x = b ++ y)
    (hle : a.length ≤ b.length) : ∃ q, b = a ++ q ∧ x = q ++ y := by
  obtain ⟨q, rfl⟩ : a <+: b :=
    List.prefix_of_prefix_length_le (List.prefix_append a x) (h ▸ List.prefix_append b y) hle
  rw [List.append_assoc] at h
  exact ⟨q, rfl, List.append_cancel_left h⟩

/-- A string that is read as itself, perhaps with something before it, has nothing before it
    and nothing escaped in it: an escape sequence leaves too little to be read. -/
theorem plain_of_parseChars {p : Text} (hrest : NoEscape rest)
    (h : parseChars fuel (s ++ '"' :: rest) = some (p ++ s, r)) : p = [] ∧ Plain s := by
  induction fuel generalizing s p r with
  | zero => cases h
  | succ fuel ih =>
    cases s with
    | nil =>
      have hp : [] = p ++ [] := (Prod.mk.inj (Option.some.inj h)).1
      rw [List.append_nil] at hp
      exact ⟨hp.symm, fun _ hm => absurd hm List.not_mem_nil⟩
    | cons c s =>
      rw [List.cons_append, parseChars] at h
      by_cases hq : c = '"'
      · rw [if_pos hq] at h
        have hnil : [] = p ++ c :: s := (Prod.mk.inj (Option.some.inj h)).1
        exact absurd hnil.symm (List.append_ne_nil_of_right_ne_nil _ (List.cons_ne_nil _ _))
      rw [if_neg hq] at h
      by_cases hb : c = '\\'
      · rw [if_pos hb] at h
        obtain ⟨⟨out, s₁⟩, he, h⟩ := Option.bind_eq_some_iff.1 h
        obtain ⟨⟨t, s₂⟩, ht, hpair⟩ := Option.map_eq_some_iff.1 h
        have hout : out ++ t = p ++ c :: s := (Prod.mk.inj hpair).1
        obtain ⟨used, hused, hlen, hquote⟩ := escape_used he
        have hwithin {w : Text} (hs : s = used ++ w) (hs₁ : s₁ = w ++ '"' :: rest) : False := by
          -- the sequence ends within the string: the rest is read with something before it
          subst hs hs₁
          obtain ⟨q, hq, rfl⟩ : ∃ q, p ++ c :: used = out ++ q ∧ t = q ++ w := by
            refine exists_append_of_length_le (by simpa using hout) ?_
            rw [List.length_append, List.length_cons]
            omega
          rw [(ih ht).1, List.append_nil] at hq
          rw [← hq, List.length_append, List.length_cons] at hlen
          omega
        rcases List.append_eq_append_iff.1 hused with ⟨a, rfl, hs'⟩ | ⟨w, hs, hs₁⟩
        · cases a with
          | nil => exact (hwithin (w := []) (by simp) hs'.symm).elim
          | cons d a =>
            -- the sequence is that of the quotation mark, and ends the string
            obtain ⟨rfl, hrest'⟩ := List.cons.inj hs'
            obtain ⟨hmark, rfl⟩ := hquote (by simp)
            obtain ⟨rfl, rfl⟩ : s = [] ∧ a = [] := by
              cases s with
              | nil => exact ⟨rfl, (List.cons.inj hmark).2⟩
              | cons e s => simp at hmark
            have hm : '\\' ∈ ['"'] ++ t := by
              rw [hout, hb]
              exact List.mem_append_right _ List.mem_cons_self
            rw [show rest = s₁ from hrest'] at hrest
            exact absurd ((List.mem_cons.1 hm).resolve_left (by decide))
              (parseChars_noEscape hrest ht)
        · exact (hwithin hs hs₁).elim
      · rw [if_neg hb] at h
        by_cases hc : c < ' '
        · rw [if_pos hc] at h
          cases h
        · rw [if_neg hc] at h
          obtain ⟨⟨t, s₁⟩, ht, hpair⟩ := Option.map_eq_some_iff.1 h
          have hout : c :: t = p ++ c :: s := (Prod.mk.inj hpair).1
          cases p with
          | nil =>
            cases hout
            refine ⟨rfl, fun d hd => ?_⟩
            rcases List.mem_cons.1 hd with rfl | hd
            · exact ⟨hq, hb, hc⟩
            · exact (ih (p := []) ht).2 d hd
          | cons d p =>
            obtain ⟨-, rfl⟩ := List.cons.inj hout
            have hnil := (ih (show _ = some ((p ++ [c]) ++ s, s₁) by simpa using ht)).1
            exact absurd hnil (List.append_ne_nil_of_right_ne_nil _ (List.cons_ne_nil _ _))

/-! ## Numbers that are printed in full -/

/-- What may stand after a value: nothing that goes on with a number, and no string in which
    something is escaped. -/
structure Ends (rest : Text) : Prop where
  noEscape : NoEscape rest
  notDigit : ∀ c ∈ rest.head?, c.isDigit = false
  notPart : ∀ c ∈ rest.head?, c ≠ '.' ∧ c ≠ 'e' ∧ c ≠ 'E'

theorem digits_append {ds : Text} (hd : ∀ c ∈ ds, c.isDigit = true) (hne : ds ≠ [])
    (hrest : Ends rest) : digits (ds ++ rest) = some (ds, rest) := by
  have htake : rest.takeWhile Char.isDigit = [] := by
    cases rest with
    | nil => rfl
    | cons c rest => rw [List.takeWhile_cons_of_neg (by simp [hrest.notDigit c rfl])]
  have hdrop : rest.dropWhile Char.isDigit = rest := by
    cases rest with
    | nil => rfl
    | cons c rest => rw [List.dropWhile_cons_of_neg (by simp [hrest.notDigit c rfl])]
  rw [digits, List.takeWhile_append_of_pos hd, List.dropWhile_append_of_pos hd, htake, hdrop,
    List.append_nil, if_neg hne]

theorem fraction_of_ends (hrest : Ends rest) : fraction rest = some ([], rest) := by
  cases rest with
  | nil => rfl
  | cons c rest => rw [fraction, if_neg (hrest.notPart c rfl).1]

theorem exponent_of_ends (hrest : Ends rest) : exponent rest = some (none, rest) := by
  cases rest with
  | nil => rfl
  | cons c rest =>
    obtain ⟨-, he, hE⟩ := hrest.notPart c rfl
    exact if_neg (not_or.2 ⟨he, hE⟩)

/-- Only the number zero is printed with a zero in front. -/
theorem head?_toDigits_ne {n : ℕ} (h : 1 < (Nat.toDigits 10 n).length) :
    (Nat.toDigits 10 n).head? ≠ some '0' := by
  induction n using Nat.strongRecOn with
  | ind n ih =>
    by_cases hn : n < 10
    · rw [Nat.toDigits_of_lt_base hn] at h
      exact absurd h (Nat.lt_irrefl 1)
    · have hle : 10 ≤ n := Nat.le_of_not_lt hn
      rw [Nat.toDigits_of_base_le (by decide) hle]
      by_cases hd : n / 10 < 10
      · rw [Nat.toDigits_of_lt_base hd, List.singleton_append, List.head?_cons]
        intro he
        have hz : n / 10 = 0 := digitChar_inj hd (by decide) (Option.some.inj he)
        omega
      · have hlen : 1 < (Nat.toDigits 10 (n / 10)).length := by
          rw [Nat.toDigits_of_base_le (by decide) (Nat.le_of_not_lt hd), List.length_append]
          have := List.length_pos_of_ne_nil (Nat.toDigits_ne_nil (b := 10) (n := n / 10 / 10))
          simp
          omega
        rw [List.head?_append_of_ne_nil _ (List.ne_nil_of_length_pos (by omega))]
        exact ih (n / 10) (by omega) hlen

theorem unsigned_toDigits (sign : ℤ) (n : ℕ) (hrest : Ends rest) :
    unsigned sign (Nat.toDigits 10 n ++ rest) = some (integer (sign * n), rest) := by
  have hd : ∀ c ∈ Nat.toDigits 10 n, c.isDigit = true :=
    fun _ => Nat.isDigit_of_mem_toDigits (by decide) (by decide)
  have hzero : ¬ (1 < (Nat.toDigits 10 n).length ∧ (Nat.toDigits 10 n).head? = some '0') :=
    fun h => head?_toDigits_ne h.1 h.2
  rw [unsigned, digits_append hd Nat.toDigits_ne_nil hrest, Option.bind_some]
  dsimp only
  rw [if_neg hzero, fraction_of_ends hrest, Option.bind_some]
  dsimp only
  rw [exponent_of_ends hrest, Option.map_some]
  dsimp only
  rw [if_pos ⟨rfl, rfl⟩, Nat.ofDigitChars_toDigits (by decide) (by decide)]

theorem parseNumber_decimal (m : ℤ) (hrest : Ends rest) :
    parseNumber (decimal m ++ rest) = some (integer m, rest) := by
  cases m with
  | ofNat n =>
    have hneg : (Nat.toDigits 10 n).head? ≠ some '-' := by
      intro h
      have hd := Nat.isDigit_of_mem_toDigits (b := 10) (by decide) (by decide)
        (List.mem_of_head? h)
      cases hd
    rw [Int.ofNat_eq_natCast, decimal_natCast]
    have hparse := unsigned_toDigits 1 n hrest
    rw [Int.one_mul] at hparse
    cases hds : Nat.toDigits 10 n with
    | nil => exact absurd hds Nat.toDigits_ne_nil
    | cons c ds =>
      rw [hds] at hneg hparse
      rw [List.cons_append, parseNumber, if_neg fun h => hneg (by rw [h]; rfl)]
      exact hparse
  | negSucc n =>
    rw [decimal_negSucc, List.cons_append, parseNumber, if_pos rfl, unsigned_toDigits _ _ hrest]
    rw [Int.neg_one_mul]
    rfl

/-! ## Texts that are read back on a condition -/

/-- Wherever the text stands, it is read as the value if and only if the condition holds. -/
def Readable (text : Text) (v : Json) (P : Prop) : Prop :=
  ∀ ⦃fuel rest r⦄, text.length ≤ fuel → Ends rest →
    (parseValue fuel (text ++ rest) = some (v, r) ↔ P ∧ r = rest)

/-- A member of an object that is put together by hand: what is printed for it, the value
    that is meant, and the condition on which it is read back. -/
structure Field where
  key : Text
  text : Text
  value : Json
  cond : Prop

def quoted (s : Text) : Text := '"' :: s ++ ['"']

def Field.print (f : Field) : Text := '"' :: f.key ++ '"' :: ':' :: ' ' :: f.text

def printFields : List Field → Text
  | [] => []
  | [f] => f.print
  | f :: g :: fs => f.print ++ ',' :: ' ' :: printFields (g :: fs)

def printObject (fs : List Field) : Text := '\x7b' :: printFields fs ++ ['\x7d']

theorem skip_cons (hc : isSpace c = false) : skip (c :: s) = c :: s :=
  List.dropWhile_cons_of_neg (by rw [hc]; decide)

theorem expect_cons (hc : isSpace c = false) :
    expect d (c :: s) = if c = d then some s else none := by
  rw [expect, skip_cons hc]

theorem parseValue_space : parseValue fuel (' ' :: s) = parseValue fuel s := by
  cases fuel <;> rfl

theorem parseMembers_space : parseMembers fuel (' ' :: s) = parseMembers fuel s := by
  cases fuel <;> rfl

theorem ends_comma (h : NoEscape rest) : Ends (',' :: rest) where
  noEscape := noEscape_cons (by decide) h
  notDigit := by rintro _ ⟨⟩; decide
  notPart := by rintro _ ⟨⟩; decide

theorem ends_brace (h : NoEscape rest) : Ends ('\x7d' :: rest) where
  noEscape := noEscape_cons (by decide) h
  notDigit := by rintro _ ⟨⟩; decide
  notPart := by rintro _ ⟨⟩; decide

theorem readable_string (s : Text) : Readable (quoted s) (string s) (Plain s) := by
  intro fuel rest r hlen hrest
  obtain ⟨fuel, rfl⟩ : ∃ k, fuel = k + 1 :=
    Nat.exists_eq_succ_of_ne_zero (Nat.ne_zero_of_lt hlen)
  have htext : quoted s ++ rest = '"' :: (s ++ '"' :: rest) := by simp [quoted]
  rw [htext, parseValue, skip_cons (by decide)]
  dsimp only
  rw [if_pos rfl, Option.map_eq_some_iff]
  constructor
  · rintro ⟨⟨t, s'⟩, hp, he⟩
    obtain ⟨ht, rfl⟩ := Prod.mk.inj he
    obtain rfl : t = s := string.inj ht
    have hs : Plain t := (plain_of_parseChars (p := []) hrest.noEscape hp).2
    rw [parseChars_plain hs (by simp)] at hp
    exact ⟨hs, (Prod.mk.inj (Option.some.inj hp)).2.symm⟩
  · rintro ⟨hs, rfl⟩
    exact ⟨(s, r), parseChars_plain hs (by simp), rfl⟩

theorem parseValue_number (hc : c = '-' ∨ c.isDigit = true) :
    parseValue (fuel + 1) (c :: s) = parseNumber (c :: s) := by
  have hne {d : Char} (hd : ¬ (d = '-' ∨ d.isDigit = true)) : c ≠ d := fun h => hd (h ▸ hc)
  have hspace : isSpace c = false := by
    simp only [isSpace, Bool.or_eq_false_iff, decide_eq_false_iff_not]
    exact ⟨⟨⟨hne (by decide), hne (by decide)⟩, hne (by decide)⟩, hne (by decide)⟩
  rw [parseValue, skip_cons hspace]
  dsimp only
  rw [if_neg (hne (by decide)), if_neg (hne (by decide)), if_neg (hne (by decide)),
    if_neg (hne (by decide)), if_neg (hne (by decide)), if_neg (hne (by decide))]

theorem decimal_eq_cons (m : ℤ) : ∃ c ds, decimal m = c :: ds ∧ (c = '-' ∨ c.isDigit = true) := by
  cases m with
  | ofNat n =>
    rw [Int.ofNat_eq_natCast, decimal_natCast]
    obtain ⟨c, ds, hds⟩ := List.exists_cons_of_ne_nil (Nat.toDigits_ne_nil (b := 10) (n := n))
    refine ⟨c, ds, hds, .inr (Nat.isDigit_of_mem_toDigits (b := 10) (n := n) ?_ ?_ ?_)⟩
    · decide
    · decide
    · rw [hds]
      exact List.mem_cons_self
  | negSucc n => exact ⟨_, _, decimal_negSucc n, .inl rfl⟩

/-- A number is read back as the one it was printed from. -/
theorem readable_decimal (m n : ℤ) : Readable (decimal m) (integer n) (m = n) := by
  intro fuel rest r hlen hrest
  obtain ⟨c, ds, hds, hc⟩ := decimal_eq_cons m
  obtain ⟨fuel, rfl⟩ : ∃ k, fuel = k + 1 := by
    rw [hds] at hlen
    exact Nat.exists_eq_succ_of_ne_zero (Nat.ne_zero_of_lt hlen)
  have hp := parseNumber_decimal m hrest
  rw [hds] at hp ⊢
  rw [List.cons_append] at hp ⊢
  rw [parseValue_number hc, hp]
  constructor
  · intro h
    obtain ⟨hm, hr⟩ := Prod.mk.inj (Option.some.inj h)
    exact ⟨integer.inj hm, hr.symm⟩
  · rintro ⟨rfl, rfl⟩
    rfl

/-- What is read after a member of an object. -/
def parseMembersEnd (fuel : ℕ) (s : Text) : Option (List (Text × Json) × Text) :=
  match expect ',' s with
  | some s => parseMembers fuel s
  | none => (expect '\x7d' s).map fun s => ([], s)

variable {f : Field} {fs : List Field} {tail key : Text} {ms : List (Text × Json)}

theorem parseMembers_cons (hk : Plain key) :
    parseMembers (fuel + 1) ('"' :: key ++ '"' :: ':' :: ' ' :: s) =
      (parseValue fuel s).bind fun (v, s) =>
        (parseMembersEnd fuel s).map fun (ms, s) => ((key, v) :: ms, s) := by
  rw [List.cons_append, parseMembers, expect_cons (by decide), if_pos rfl, Option.bind_some,
    parseChars_plain hk (by simp), Option.bind_some]
  dsimp only
  rw [expect_cons (by decide), if_pos rfl, Option.bind_some, parseValue_space]
  congr 1
  funext ⟨v, s'⟩
  rw [parseMembersEnd]
  dsimp only
  cases expect ',' s' with
  | some s'' => rfl
  | none => rw [Option.map_map]; rfl

theorem parseMembers_print (hk : Plain f.key) (hv : Readable f.text f.value f.cond)
    (hlen : f.text.length ≤ fuel) (ht : Ends tail) :
    parseMembers (fuel + 1) (f.print ++ tail) = some ((f.key, f.value) :: ms, r) ↔
      f.cond ∧ parseMembersEnd fuel tail = some (ms, r) := by
  have htext : f.print ++ tail =
      '"' :: f.key ++ '"' :: ':' :: ' ' :: (f.text ++ tail) := by simp [Field.print]
  rw [htext, parseMembers_cons hk, Option.bind_eq_some_iff]
  constructor
  · rintro ⟨⟨v, s'⟩, hp, hend⟩
    obtain ⟨⟨ms', s''⟩, hms, he⟩ := Option.map_eq_some_iff.1 hend
    cases he
    obtain ⟨hcond, rfl⟩ := (hv hlen ht).1 hp
    exact ⟨hcond, hms⟩
  · rintro ⟨hcond, hms⟩
    refine ⟨(f.value, tail), (hv hlen ht).2 ⟨hcond, rfl⟩, ?_⟩
    dsimp only
    rw [hms, Option.map_some]

theorem noEscape_printFields (fs : List Field) (h : NoEscape rest) :
    NoEscape (printFields fs ++ rest) := by
  match fs with
  | [] => exact h
  | [f] => exact noEscape_quote _
  | f :: g :: fs => exact noEscape_quote _

theorem parseMembers_printFields (hne : fs ≠ [])
    (hf : ∀ f ∈ fs, Plain f.key ∧ Readable f.text f.value f.cond)
    (hlen : (printFields fs).length ≤ fuel) (h : NoEscape rest) :
    parseMembers fuel (printFields fs ++ '\x7d' :: rest) =
        some (fs.map fun f => (f.key, f.value), r) ↔ (∀ f ∈ fs, f.cond) ∧ r = rest := by
  induction fs generalizing fuel with
  | nil => exact absurd rfl hne
  | cons f fs ih =>
    obtain ⟨hk, hv⟩ := hf f List.mem_cons_self
    cases fs with
    | nil =>
      have hl : f.text.length < fuel := by
        refine Nat.lt_of_lt_of_le ?_ hlen
        simp [printFields, Field.print]
        omega
      obtain ⟨fuel, rfl⟩ := Nat.exists_eq_succ_of_ne_zero (Nat.ne_zero_of_lt hl)
      rw [printFields, List.map_singleton,
        parseMembers_print hk hv (Nat.le_of_lt_succ hl) (ends_brace h), parseMembersEnd,
        expect_cons (by decide), if_neg (by decide), List.forall_mem_singleton]
      dsimp only
      rw [expect_cons (by decide), if_pos rfl, Option.map_some, Option.some.injEq,
        Prod.mk.injEq, and_iff_right rfl, eq_comm (a := rest)]
    | cons g fs =>
      have hl : f.text.length < fuel ∧ (printFields (g :: fs)).length < fuel := by
        rw [printFields, List.length_append, Field.print] at hlen
        simp at hlen
        omega
      obtain ⟨fuel, rfl⟩ := Nat.exists_eq_succ_of_ne_zero (Nat.ne_zero_of_lt hl.1)
      have htail : Ends (',' :: ' ' :: (printFields (g :: fs) ++ '\x7d' :: rest)) :=
        ends_comma (noEscape_cons (by decide)
          (noEscape_printFields _ (noEscape_cons (by decide) h)))
      rw [printFields, List.append_assoc, List.cons_append, List.cons_append, List.map_cons,
        parseMembers_print hk hv (Nat.le_of_lt_succ hl.1) htail, parseMembersEnd,
        expect_cons (by decide), if_pos rfl, List.forall_mem_cons, and_assoc]
      dsimp only
      rw [parseMembers_space, ih (List.cons_ne_nil _ _)
        (fun f h => hf f (List.mem_cons_of_mem _ h)) (Nat.le_of_lt_succ hl.2)]

/-- An object is read back if every member of it is. -/
theorem readable_object (hne : fs ≠ [])
    (hf : ∀ f ∈ fs, Plain f.key ∧ Readable f.text f.value f.cond) :
    Readable (printObject fs) (object (fs.map fun f => (f.key, f.value)))
      (∀ f ∈ fs, f.cond) := by
  intro fuel rest r hlen hrest
  rw [printObject, List.cons_append, List.length_cons, List.length_append] at hlen
  obtain ⟨fuel, rfl⟩ := Nat.exists_eq_succ_of_ne_zero (Nat.ne_zero_of_lt hlen)
  have hopen : expect '\x7d' (printFields fs ++ '\x7d' :: rest) = none := by
    match fs, hne with
    | [f], _ => rfl
    | f :: g :: fs, _ => rfl
  rw [printObject, List.cons_append, List.cons_append, List.append_assoc, List.singleton_append,
    parseValue, skip_cons (by decide)]
  dsimp only
  rw [if_neg (by decide), if_pos rfl, hopen]
  dsimp only
  rw [Option.map_eq_some_iff, ← parseMembers_printFields hne hf
    (Nat.le_of_lt_succ (Nat.lt_of_succ_le (Nat.le_of_succ_le hlen))) hrest.noEscape]
  constructor
  · rintro ⟨⟨ms, s'⟩, hms, he⟩
    cases he
    exact hms
  · intro hms
    exact ⟨_, hms, rfl⟩

/-- A text, with white space after it, is JSON for a value if and only if its condition
    holds. -/
theorem Readable.parse_iff {text space : Text} {v : Json} {P : Prop}
    (h : Readable text v P) (hs : Ends space) (hspace : skip space = []) :
    parse (text ++ space) = some v ↔ P := by
  have hlen : text.length ≤ (text ++ space).length := by simp
  rw [parse, Option.bind_eq_some_iff]
  constructor
  · rintro ⟨⟨v', s'⟩, hp, he⟩
    obtain ⟨-, he⟩ := Option.ite_none_right_eq_some.1 he
    cases he
    exact ((h hlen hs).1 hp).1
  · intro hP
    exact ⟨(v, space), (h hlen hs).2 ⟨hP, rfl⟩, if_pos hspace⟩

/-! ## Encoding -/

theorem toNat_ofNat_of_lt {n : ℕ} (h : n < 256) : (Char.ofNat n).toNat = n := by
  rw [Char.ofNat, dif_pos (.inl (Nat.lt_trans h (by decide)))]
  rfl

theorem utf8_toNat_of_ascii (hc : c.toNat < 128) : utf8 c.toNat = [c] := by
  rw [Char.toNat] at hc
  rw [utf8, Char.ofNat_toNat, String.utf8EncodeChar, if_pos (Nat.le_of_lt_succ hc),
    List.map_singleton, UInt8.toNat_ofNat', Nat.mod_eq_of_lt (Nat.lt_trans hc (by decide))]
  exact congrArg (fun d => [d]) (Char.ofNat_toNat c)

/-- The other characters are encoded without ASCII characters. -/
theorem le_toNat_of_mem_utf8 (hc : ¬ c.toNat < 128) : ∀ b ∈ utf8 c.toNat, 128 ≤ b.toNat := by
  have hbyte {n : ℕ} (h : 128 ≤ n % 256) : 128 ≤ (Char.ofNat (UInt8.ofNat n).toNat).toNat := by
    rw [UInt8.toNat_ofNat', toNat_ofNat_of_lt (Nat.mod_lt _ (by decide))]
    exact h
  rw [Char.toNat] at hc
  rw [utf8, Char.ofNat_toNat, String.utf8EncodeChar, if_neg fun h => hc (Nat.lt_succ_of_le h)]
  split
  · simp only [List.map_cons, List.map_nil, List.forall_mem_cons]
    exact ⟨hbyte (by omega), hbyte (by omega), fun _ h => absurd h List.not_mem_nil⟩
  · split
    · simp only [List.map_cons, List.map_nil, List.forall_mem_cons]
      exact ⟨hbyte (by omega), hbyte (by omega), hbyte (by omega),
        fun _ h => absurd h List.not_mem_nil⟩
    · simp only [List.map_cons, List.map_nil, List.forall_mem_cons]
      exact ⟨hbyte (by omega), hbyte (by omega), hbyte (by omega), hbyte (by omega),
        fun _ h => absurd h List.not_mem_nil⟩

theorem utf8_append (hs : Utf8 s) (ht : Utf8 t) : Utf8 (s ++ t) := by
  obtain ⟨cs, rfl⟩ := hs
  obtain ⟨ds, rfl⟩ := ht
  exact ⟨cs ++ ds, List.flatMap_append.symm⟩

/-- An ASCII character stands for itself, wherever it is. -/
theorem utf8_append_cons (hc : c.toNat < 128) : Utf8 (s ++ c :: t) ↔ Utf8 s ∧ Utf8 t := by
  constructor
  · rintro ⟨cs, h⟩
    induction cs generalizing s with
    | nil => exact absurd h (List.append_ne_nil_of_right_ne_nil _ (List.cons_ne_nil _ _))
    | cons d cs ih =>
      rw [List.flatMap_cons] at h
      rcases List.append_eq_append_iff.1 h with ⟨a, hd, hct⟩ | ⟨a, rfl, hcs⟩
      · cases a with
        | nil =>
          refine ⟨⟨[d], ?_⟩, (ih (s := []) hct).2⟩
          simpa using hd.symm
        | cons b a =>
          obtain ⟨rfl, ht⟩ := List.cons.inj hct
          by_cases hascii : d.toNat < 128
          · rw [utf8_toNat_of_ascii hascii] at hd
            obtain ⟨rfl, rfl⟩ : s = [] ∧ a = [] := by
              cases s with
              | nil => exact ⟨rfl, (List.cons.inj hd).2.symm⟩
              | cons e s => simp at hd
            exact ⟨⟨[], rfl⟩, ⟨cs, ht⟩⟩
          · exact absurd (le_toNat_of_mem_utf8 hascii c (by rw [hd]; simp)) (Nat.not_le_of_lt hc)
      · obtain ⟨hs, ht⟩ := ih hcs.symm
        exact ⟨utf8_append ⟨[d], by simp⟩ hs, ht⟩
  · rintro ⟨hs, ht⟩
    refine utf8_append hs (utf8_append (s := [c]) ⟨[c], ?_⟩ ht)
    simp [utf8_toNat_of_ascii hc]

/-- ASCII characters only. -/
def Ascii (s : Text) : Prop := ∀ c ∈ s, c.toNat < 128

instance (s : Text) : Decidable (Ascii s) := List.decidableBAll _ s

theorem utf8_nil : Utf8 [] := ⟨[], rfl⟩

theorem utf8_cons (hc : c.toNat < 128) : Utf8 (c :: s) ↔ Utf8 s := by
  rw [← List.nil_append (c :: s), utf8_append_cons hc, and_iff_right utf8_nil]

theorem utf8_ascii_append (hs : Ascii s) : Utf8 (s ++ t) ↔ Utf8 t := by
  induction s with
  | nil => rfl
  | cons c s ih =>
    rw [List.cons_append, utf8_cons (hs c List.mem_cons_self),
      ih fun d hd => hs d (List.mem_cons_of_mem _ hd)]

theorem utf8_of_ascii (hs : Ascii s) : Utf8 s := by
  rw [← List.append_nil s, utf8_ascii_append hs]
  exact utf8_nil

theorem utf8_quoted : Utf8 (quoted s) ↔ Utf8 s := by
  rw [quoted, List.cons_append, utf8_cons (by decide), utf8_append_cons (by decide),
    and_iff_left utf8_nil]

theorem ascii_toDigits (n : ℕ) : Ascii (Nat.toDigits 10 n) := by
  intro c hc
  have hd := Nat.isDigit_of_mem_toDigits (by decide) (by decide) hc
  rw [Char.isDigit_iff_toNat] at hd
  exact Nat.lt_of_le_of_lt hd.2 (by decide)

theorem utf8_decimal (m : ℤ) : Utf8 (decimal m) := by
  cases m with
  | ofNat n =>
    rw [Int.ofNat_eq_natCast, decimal_natCast]
    exact utf8_of_ascii (ascii_toDigits n)
  | negSucc n =>
    rw [decimal_negSucc, utf8_cons (by decide)]
    exact utf8_of_ascii (ascii_toDigits _)

theorem utf8_print_append (hk : Ascii f.key) (hc : c.toNat < 128) :
    Utf8 (f.print ++ c :: t) ↔ Utf8 f.text ∧ Utf8 t := by
  have htext : f.print ++ c :: t =
      '"' :: (f.key ++ '"' :: ':' :: ' ' :: (f.text ++ c :: t)) := by simp [Field.print]
  rw [htext, utf8_cons (by decide), utf8_ascii_append hk, utf8_cons (by decide),
    utf8_cons (by decide), utf8_cons (by decide), utf8_append_cons hc]

theorem utf8_printFields_append (hne : fs ≠ []) (hk : ∀ f ∈ fs, Ascii f.key)
    (hc : c.toNat < 128) :
    Utf8 (printFields fs ++ c :: t) ↔ (∀ f ∈ fs, Utf8 f.text) ∧ Utf8 t := by
  induction fs with
  | nil => exact absurd rfl hne
  | cons f fs ih =>
    have hf := hk f List.mem_cons_self
    cases fs with
    | nil => rw [printFields, utf8_print_append hf hc, List.forall_mem_singleton]
    | cons g fs =>
      have hcons : (∀ x ∈ f :: g :: fs, Utf8 x.text) ↔ Utf8 f.text ∧ ∀ x ∈ g :: fs, Utf8 x.text :=
        List.forall_mem_cons
      rw [printFields, List.append_assoc, List.cons_append, List.cons_append,
        utf8_print_append hf (by decide), utf8_cons (by decide),
        ih (List.cons_ne_nil _ _) fun f h => hk f (List.mem_cons_of_mem _ h), hcons, and_assoc]

/-- An object is encoded if what is printed for its members is. -/
theorem utf8_printObject_append (hne : fs ≠ []) (hk : ∀ f ∈ fs, Ascii f.key) :
    Utf8 (printObject fs ++ t) ↔ (∀ f ∈ fs, Utf8 f.text) ∧ Utf8 t := by
  rw [printObject, List.cons_append, List.cons_append, List.append_assoc, List.singleton_append,
    utf8_cons (by decide), utf8_printFields_append hne hk (by decide)]

/-! ## Members -/

def Field.string (key : String) (s : Text) : Field :=
  ⟨key.toList, quoted s, .string s, Plain s⟩

/-- The number `n`, printed as the number `m`. -/
def Field.number (key : String) (m n : ℤ) : Field :=
  ⟨key.toList, decimal m, .integer n, m = n⟩

def Field.object (key : String) (fs : List Field) : Field :=
  ⟨key.toList, printObject fs, .object (fs.map fun f => (f.key, f.value)), ∀ f ∈ fs, f.cond⟩

/-- The member is read back on its condition. -/
structure Field.Sound (f : Field) : Prop where
  plain : Plain f.key
  ascii : Ascii f.key
  readable : Readable f.text f.value f.cond

theorem Field.string_sound {key : String} (hp : Plain key.toList) (ha : Ascii key.toList)
    (s : Text) : (Field.string key s).Sound := ⟨hp, ha, readable_string s⟩

theorem Field.number_sound {key : String} (hp : Plain key.toList) (ha : Ascii key.toList)
    (m n : ℤ) : (Field.number key m n).Sound := ⟨hp, ha, readable_decimal m n⟩

theorem Field.object_sound {key : String} (hp : Plain key.toList) (ha : Ascii key.toList)
    (hne : fs ≠ []) (hf : ∀ f ∈ fs, f.Sound) : (Field.object key fs).Sound :=
  ⟨hp, ha, readable_object hne fun f h => ⟨(hf f h).plain, (hf f h).readable⟩⟩

@[simp] theorem Field.string_iff {key : String} :
    (Field.string key s).cond ∧ Utf8 (Field.string key s).text ↔ Plain s ∧ Utf8 s :=
  and_congr_right' utf8_quoted

@[simp] theorem Field.number_iff {key : String} {m n : ℤ} :
    (Field.number key m n).cond ∧ Utf8 (Field.number key m n).text ↔ m = n :=
  and_iff_left (utf8_decimal m)

theorem Field.object_iff {key : String} (hne : fs ≠ []) (hf : ∀ f ∈ fs, f.Sound) :
    (Field.object key fs).cond ∧ Utf8 (Field.object key fs).text ↔
      ∀ f ∈ fs, f.cond ∧ Utf8 f.text := by
  have hutf := utf8_printObject_append (t := []) hne fun f h => (hf f h).ascii
  rw [List.append_nil, and_iff_left utf8_nil] at hutf
  rw [forall₂_and]
  exact and_congr_right' hutf

/-! ## Objects -/

/-- An object that is put together by hand is JSON for the value that is meant if and only if
    its members are read back, and encoded. -/
theorem valid_printObject_iff {space : Text} (hne : fs ≠ [])
    (hf : ∀ f ∈ fs, f.Sound) (hs : Ends space) (hspace : skip space = []) (hascii : Ascii space) :
    Valid (printObject fs ++ space) (object (fs.map fun f => (f.key, f.value))) ↔
      ∀ f ∈ fs, f.cond ∧ Utf8 f.text := by
  have hread := readable_object hne fun f h => ⟨(hf f h).plain, (hf f h).readable⟩
  rw [Valid, hread.parse_iff hs hspace,
    utf8_printObject_append hne fun f h => (hf f h).ascii,
    and_iff_left (utf8_of_ascii hascii), and_comm]
  constructor
  · exact fun h f hm => ⟨h.1 f hm, h.2 f hm⟩
  · exact fun h => ⟨fun f hm => (h f hm).1, fun f hm => (h f hm).2⟩

/-- Nothing is in an object but its punctuation and what is printed for its members. -/
theorem forall_mem_printObject {p : Char → Prop}
    (hp : ∀ c ∈ ['\x7b', '\x7d', '"', ':', ',', ' '], p c)
    (hf : ∀ f ∈ fs, (∀ c ∈ f.key, p c) ∧ ∀ c ∈ f.text, p c) :
    ∀ c ∈ printObject fs, p c := by
  have hfields : ∀ c ∈ printFields fs, p c := by
    induction fs with
    | nil => exact fun c h => absurd h List.not_mem_nil
    | cons f fs ih =>
      obtain ⟨hk, ht⟩ := hf f List.mem_cons_self
      have hprint : ∀ c ∈ f.print, p c := by
        simp only [Field.print, List.forall_mem_cons, List.cons_append, List.forall_mem_append]
        exact ⟨hp _ (by decide), hk, hp _ (by decide), hp _ (by decide), hp _ (by decide), ht⟩
      cases fs with
      | nil => exact hprint
      | cons g fs =>
        simp only [printFields, List.forall_mem_append, List.forall_mem_cons]
        exact ⟨hprint, hp _ (by decide), hp _ (by decide),
          ih fun f h => hf f (List.mem_cons_of_mem _ h)⟩
  simp only [printObject, List.forall_mem_cons, List.cons_append, List.forall_mem_append]
  exact ⟨hp _ (by decide), hfields, hp _ (by decide), fun c h => absurd h List.not_mem_nil⟩

end Json
