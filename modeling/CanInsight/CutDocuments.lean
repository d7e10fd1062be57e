import CanInsight.Deserializer
import CanInsight.WifiManager

/-!
# Documents that are cut off

The card may lose the end of a file. An object, or an array, that `deserializeJson` accepts is
delimited: nothing after it is looked at, and no part of it is accepted.

* `delimited_parseCollection`, `openEnded_parse`: what the parser looks at;
* `accepts_collection`: a text is accepted, or cut off.
-/

namespace CanInsight

open CString Parsing Parser

namespace JsonDeserializer

variable {config : Config} {limit : ℕ} {s s' t : Bytes} {c : Char}

/-! ## Spaces and comments -/

theorem skipFrom_used {m : Skipping} (h : skipFrom m s = .ok ((), s')) :
    s' ≠ [] ∧ ∃ used, s = used ++ s' ∧
      ∀ t, t.head? = s'.head? → skipFrom m (used ++ t) = .ok ((), t) := by
  induction s generalizing m with
  | nil => cases m <;> cases h
  | cons c s ih =>
    -- a character that is skipped comes before what is skipped after it
    have hskip {n : Skipping} (hn : ∀ t, skipFrom m (c :: t) = skipFrom n t) :
        s' ≠ [] ∧ ∃ used, c :: s = used ++ s' ∧
          ∀ t, t.head? = s'.head? → skipFrom m (used ++ t) = .ok ((), t) := by
      rw [hn] at h
      obtain ⟨hne, used, rfl, hall⟩ := ih h
      exact ⟨hne, c :: used, rfl, fun t ht => (hn _).trans (hall t ht)⟩
    cases m with
    | spaces =>
      by_cases h₀ : c = nul
      · rw [skipFrom, if_pos h₀] at h
        cases h
      by_cases h₁ : c = ' ' ∨ c = '\t' ∨ c = '\r' ∨ c = '\n'
      · exact hskip fun t => by rw [skipFrom, if_neg h₀, if_pos h₁]
      by_cases h₂ : c = '/'
      · exact hskip fun t => by rw [skipFrom, if_neg h₀, if_neg h₁, if_pos h₂]
      rw [skipFrom, if_neg h₀, if_neg h₁, if_neg h₂] at h
      cases h
      refine ⟨List.cons_ne_nil _ _, [], rfl, fun t ht => ?_⟩
      obtain ⟨t, rfl⟩ := List.head?_eq_some_iff.1 ht
      rw [List.nil_append, skipFrom, if_neg h₀, if_neg h₁, if_neg h₂]
    | slash =>
      by_cases h₁ : c = '*'
      · exact hskip fun t => by rw [skipFrom, if_pos h₁]
      by_cases h₂ : c = '/'
      · exact hskip fun t => by rw [skipFrom, if_neg h₁, if_pos h₂]
      rw [skipFrom, if_neg h₁, if_neg h₂] at h
      cases h
    | block wasStar =>
      by_cases h₀ : c = nul
      · rw [skipFrom, if_pos h₀] at h
        cases h
      by_cases h₁ : c = '/' ∧ wasStar = true
      · exact hskip fun t => by rw [skipFrom, if_neg h₀, if_pos h₁]
      · exact hskip fun t => by rw [skipFrom, if_neg h₀, if_neg h₁]
    | line =>
      by_cases h₀ : c = nul
      · rw [skipFrom, if_pos h₀] at h
        cases h
      by_cases h₁ : c = '\n'
      · exact hskip fun t => by rw [skipFrom, if_neg h₀, if_pos h₁]
      · exact hskip fun t => by rw [skipFrom, if_neg h₀, if_neg h₁]

theorem openEnded_skip : OpenEnded skipSpacesAndComments :=
  OpenEnded.scan fun _ _ _ h => by
    obtain ⟨-, used, hu, hall⟩ := skipFrom_used h
    exact ⟨used, hu, fun _ t ht => hall t ht⟩

theorem wants_skip : Wants skipSpacesAndComments := Wants.scan fun _ _ h => nomatch h

/-! ## Strings -/

theorem map_cons_eq_ok {x : Except DeserializationError (Bytes × Bytes)} :
    (x.map fun (t, s) => (c :: t, s)) = .ok (t, s') ↔ ∃ t', x = .ok (t', s') ∧ c :: t' = t := by
  cases x with
  | error e =>
    refine iff_of_false (fun h => nomatch h) ?_
    rintro ⟨t', h, -⟩
    cases h
  | ok x =>
    constructor
    · intro h
      cases h
      exact ⟨x.1, rfl, rfl⟩
    · rintro ⟨t', h, rfl⟩
      cases h
      rfl

theorem quotedFrom_used {stopChar : Char} {escaped : Bool}
    (h : quotedFrom stopChar escaped s = .ok (t, s')) :
    ∃ used, s = used ++ s' ∧ ∀ r, quotedFrom stopChar escaped (used ++ r) = .ok (t, r) := by
  induction s generalizing escaped t with
  | nil => cases escaped <;> cases h
  | cons c s ih =>
    -- a character of the string comes before the rest of it
    have hmap {d : Char} (hd : ∀ s, quotedFrom stopChar escaped (c :: s) =
        (quotedFrom stopChar false s).map fun (t, s) => (d :: t, s)) :
        ∃ used, c :: s = used ++ s' ∧
          ∀ r, quotedFrom stopChar escaped (used ++ r) = .ok (t, r) := by
      rw [hd] at h
      obtain ⟨t', ht', rfl⟩ := map_cons_eq_ok.1 h
      obtain ⟨used, rfl, hall⟩ := ih ht'
      exact ⟨c :: used, rfl, fun r => (hd _).trans (map_cons_eq_ok.2 ⟨t', hall r, rfl⟩)⟩
    cases escaped with
    | false =>
      by_cases h₁ : c = stopChar
      · rw [quotedFrom, if_pos h₁] at h
        cases h
        exact ⟨[c], rfl, fun r => by rw [List.singleton_append, quotedFrom, if_pos h₁]⟩
      by_cases h₀ : c = nul
      · rw [quotedFrom, if_neg h₁, if_pos h₀] at h
        cases h
      by_cases h₂ : c = '\\'
      · rw [quotedFrom, if_neg h₁, if_neg h₀, if_pos h₂] at h
        obtain ⟨used, rfl, hall⟩ := ih h
        refine ⟨c :: used, rfl, fun r => ?_⟩
        rw [List.cons_append, quotedFrom, if_neg h₁, if_neg h₀, if_pos h₂, hall]
      · exact hmap fun s => by rw [quotedFrom, if_neg h₁, if_neg h₀, if_neg h₂]
    | true =>
      by_cases h₀ : c = nul
      · rw [quotedFrom, if_pos h₀] at h
        cases h
      by_cases h₁ : c = 'u'
      · rw [quotedFrom, if_neg h₀, if_pos h₁] at h
        cases h
      · exact hmap fun s => by rw [quotedFrom, if_neg h₀, if_neg h₁]

theorem quoted_used (h : quoted s = .ok (t, s')) :
    ∃ used, s = used ++ s' ∧ ∀ r, quoted (used ++ r) = .ok (t, r) := by
  cases s with
  | nil => cases h
  | cons c s =>
    obtain ⟨used, rfl, hall⟩ := quotedFrom_used h
    exact ⟨c :: used, rfl, hall⟩

/-! ## Characters of a kind -/

/-- Where a text goes on as after the characters of a kind, none of them comes next. -/
theorem span_append {p : Char → Bool} (ht : t.head? = (s.dropWhile p).head?) {u : Bytes}
    (hu : ∀ c ∈ u, p c = true) : (u ++ t).takeWhile p = u ∧ (u ++ t).dropWhile p = t := by
  rw [List.takeWhile_append_of_pos hu, List.dropWhile_append_of_pos hu]
  cases t with
  | nil => exact ⟨List.append_nil u, rfl⟩
  | cons d t =>
    have hd := List.head?_dropWhile_not p s
    rw [← ht] at hd
    have hneg : ¬ p d = true := by
      rw [hd]
      exact Bool.false_ne_true
    rw [List.takeWhile_cons_of_neg hneg, List.append_nil]
    exact ⟨rfl, List.dropWhile_cons_of_neg hneg⟩

theorem nonQuoted_of_span {u : Bytes} (hne : u ≠ [])
    (hu : ∀ c ∈ u, canBeInNonQuotedString c = true)
    (h : (u ++ t).takeWhile canBeInNonQuotedString = u ∧
      (u ++ t).dropWhile canBeInNonQuotedString = t) : nonQuoted (u ++ t) = .ok (u, t) := by
  obtain ⟨c, u, rfl⟩ := List.exists_cons_of_ne_nil hne
  have hc := hu c List.mem_cons_self
  have h₀ : ¬ c = nul := by
    rintro rfl
    exact absurd hc (by decide)
  rw [List.cons_append, nonQuoted, if_neg h₀, if_pos hc, ← List.cons_append, h.1, h.2]

theorem nonQuoted_used (h : nonQuoted s = .ok (t, s')) :
    ∃ used, s = used ++ s' ∧
      (s' ≠ [] → ∀ r, r.head? = s'.head? → nonQuoted (used ++ r) = .ok (t, r)) := by
  cases s with
  | nil => cases h
  | cons c s =>
    rw [nonQuoted] at h
    split_ifs at h with h₀ h₁
    cases h
    have hall : ∀ d ∈ (c :: s).takeWhile canBeInNonQuotedString, canBeInNonQuotedString d = true :=
      fun d hd => List.mem_takeWhile_imp hd
    refine ⟨_, List.takeWhile_append_dropWhile.symm, fun _ r hr => ?_⟩
    refine nonQuoted_of_span ?_ hall (span_append hr hall)
    rw [List.takeWhile_cons_of_pos h₁]
    exact List.cons_ne_nil _ _

theorem length_buffer_le (s : Bytes) : (buffer s).length ≤ 63 := List.length_take_le _ _

theorem buffer_append_drop (s : Bytes) : s = buffer s ++ s.drop (buffer s).length := by
  have hp : buffer s <+: s := (List.take_prefix _ _).trans (List.takeWhile_prefix _)
  have htake : s.take (buffer s).length = buffer s := (List.prefix_iff_eq_take.1 hp).symm
  calc s
    _ = s.take (buffer s).length ++ s.drop (buffer s).length := (List.take_append_drop _ s).symm
    _ = buffer s ++ s.drop (buffer s).length := by rw [htake]

/-- The buffer is full, or ends where the characters of a number do. -/
theorem buffer_append (ht : t.head? = (s.drop (buffer s).length).head?) :
    buffer (buffer s ++ t) = buffer s := by
  have hall : ∀ c ∈ buffer s, canBeInNonQuotedString c = true :=
    fun c hc => List.mem_takeWhile_imp (List.mem_of_mem_take hc)
  by_cases hfull : (buffer s).length = 63
  · nth_rewrite 1 [buffer]
    rw [List.takeWhile_append_of_pos hall, List.take_append_of_le_length (Nat.le_of_eq hfull.symm),
      List.take_of_length_le (Nat.le_of_eq hfull)]
  · have hwhole : buffer s = s.takeWhile canBeInNonQuotedString := by
      refine List.take_of_length_le (Nat.le_of_not_lt fun hlt => hfull ?_)
      rw [buffer, List.length_take, Nat.min_eq_left (Nat.le_of_lt hlt)]
    have hrest : s.drop (buffer s).length = s.dropWhile canBeInNonQuotedString :=
      calc s.drop (buffer s).length
        _ = (s.takeWhile canBeInNonQuotedString ++ s.dropWhile canBeInNonQuotedString).drop
            (s.takeWhile canBeInNonQuotedString).length := by
          rw [List.takeWhile_append_dropWhile, hwhole]
        _ = s.dropWhile canBeInNonQuotedString := List.drop_left
    rw [hrest] at ht
    nth_rewrite 1 [buffer]
    rw [(span_append ht hall).1, List.take_of_length_le (length_buffer_le s)]

theorem numeric_used {parseFloat : Bytes → ℤ × ℤ} {v : Json}
    (h : numeric parseFloat s = .ok (v, s')) :
    ∃ used, s = used ++ s' ∧
      (s' ≠ [] → ∀ r, r.head? = s'.head? → numeric parseFloat (used ++ r) = .ok (v, r)) := by
  rw [numeric] at h
  cases hv : numericValue parseFloat (buffer s) with
  | error e => rw [hv] at h; cases h
  | ok w =>
    rw [hv] at h
    cases h
    refine ⟨buffer s, buffer_append_drop s, fun _ r hr => ?_⟩
    rw [numeric, buffer_append hr, hv, List.drop_left]
    rfl

/-! ## Parts of values -/

theorem delimited_allocate (n : ℕ) : Delimited (allocate n) := Delimited.spend _

theorem delimited_allocVariant : Delimited allocVariant := delimited_allocate 16

theorem wants_allocVariant_bind {α : Type} {f : Unit → Parser α} (hf : ∀ u, Wants (f u)) :
    Wants (allocVariant >>= f) := by
  rw [allocVariant, allocate]
  exact Wants.spend_bind hf

theorem delimited_complete {copies : Bool} {p : Parser Bytes} (hp : Delimited p) :
    Delimited (complete copies p) :=
  hp.bind fun _ => (delimited_allocate _).bind fun _ => .pure _

theorem openEnded_complete {copies : Bool} {p : Parser Bytes} (hp : OpenEnded p) :
    OpenEnded (complete copies p) :=
  hp.bind_openEnded fun _ => ((delimited_allocate _).bind fun _ => .pure _).openEnded

theorem wants_complete {copies : Bool} {p : Parser Bytes} (hp : Wants p) :
    Wants (complete copies p) := hp.bind

theorem openEnded_current_bind {α : Type} {f : Char → Parser α} (hf : ∀ c, OpenEnded (f c)) :
    OpenEnded (current >>= f) := by
  intro r a r' h
  have hcur (r : Input Char ℕ) : (current >>= f) r = f (r.text.headD nul) r := rfl
  rw [hcur] at h
  obtain ⟨used, hu, hall⟩ := hf _ h
  refine ⟨used, hu, fun hne t ht => ?_⟩
  have hhead : (used ++ t).headD nul = r.text.headD nul := by
    rw [List.headD_eq_head?_getD, List.headD_eq_head?_getD, hu, List.head?_append, ht,
      List.head?_append]
  rw [hcur, hhead]
  exact hall hne t ht

theorem wants_current_bind {α : Type} {f : Char → Parser α} (hw : ∀ c, Wants (f c)) :
    Wants (current >>= f) := fun _ _ _ h => hw _ h

theorem wants_parseQuotedString (copies : Bool) : Wants (parseQuotedString copies) :=
  wants_complete (Wants.scan fun _ _ h => nomatch h)

theorem delimited_parseQuotedString (copies : Bool) : Delimited (parseQuotedString copies) :=
  delimited_complete (Delimited.scan fun _ _ _ h => quoted_used h)

theorem wants_parseKey (copies : Bool) : Wants (parseKey copies) := by
  refine wants_current_bind fun c => ?_
  split
  · exact wants_parseQuotedString copies
  · exact wants_complete (Wants.scan fun _ _ h => nomatch h)

theorem openEnded_parseKey (copies : Bool) : OpenEnded (parseKey copies) := by
  refine openEnded_current_bind fun c => ?_
  split
  · exact (delimited_parseQuotedString copies).openEnded
  · exact openEnded_complete (OpenEnded.scan fun _ _ _ h => nonQuoted_used h)

theorem wants_parseValue (config : Config) : Wants (parseValue config) := by
  refine wants_current_bind fun c => ?_
  split
  · exact Wants.map (wants_parseQuotedString config.copies) _
  · exact Wants.scan fun _ _ h => nomatch h

theorem openEnded_parseValue (config : Config) : OpenEnded (parseValue config) := by
  refine openEnded_current_bind fun c => ?_
  split
  · exact ((delimited_parseQuotedString config.copies).map _).openEnded
  · exact OpenEnded.scan fun _ _ _ h => numeric_used h

/-! ## Arrays and objects -/

theorem wants_parseElements {p : Parser Json} (hw : Wants p) (slots : ℕ) :
    Wants (parseElements p slots) := by
  cases slots with
  | zero => exact .throw _
  | succ slots => exact wants_allocVariant_bind fun _ => hw.bind

theorem delimited_parseElements {p : Parser Json} (hp : OpenEnded p) (slots : ℕ) :
    Delimited (parseElements p slots) := by
  induction slots with
  | zero => exact .throw _
  | succ slots ih =>
    refine delimited_allocVariant.bind fun _ => hp.bind (fun v => ?_) fun v => wants_skip.bind
    refine openEnded_skip.bind (fun _ => ?_) fun _ => ?_
    · refine Delimited.eat_bind (.pure _) ?_ ?_
      · exact Delimited.eat_bind (ih.map _) (.throw _) (.throw _)
      · exact Wants.eat_bind (.throw _)
    · exact Wants.eat_bind (Wants.eat_bind (.throw _))

theorem wants_parseMembers (copies : Bool) (p : Parser Json) (slots : ℕ) :
    Wants (parseMembers copies p slots) := by
  cases slots with
  | zero => exact .throw _
  | succ slots => exact wants_allocVariant_bind fun _ => (wants_parseKey copies).bind

theorem delimited_parseMembers {p : Parser Json} (copies : Bool) (hp : OpenEnded p) (slots : ℕ) :
    Delimited (parseMembers copies p slots) := by
  induction slots with
  | zero => exact .throw _
  | succ slots ih =>
    refine delimited_allocVariant.bind fun _ => (openEnded_parseKey copies).bind (fun key => ?_)
      fun key => wants_skip.bind
    refine openEnded_skip.bind (fun _ => ?_) fun _ => Wants.eat_bind (.throw _)
    refine Delimited.eat_bind ?_ (.throw _) (.throw _)
    refine hp.bind (fun v => ?_) fun v => wants_skip.bind
    refine openEnded_skip.bind (fun _ => ?_) fun _ => Wants.eat_bind (Wants.eat_bind (.throw _))
    refine Delimited.eat_bind (.pure _) ?_ (Wants.eat_bind (.throw _))
    refine Delimited.eat_bind ?_ (.throw _) (.throw _)
    exact openEnded_skip.bind (fun _ => ih.map _) fun _ => (wants_parseMembers copies p slots).map _

theorem delimited_slotsLeft_bind {α : Type} {f : ℕ → Parser α} (hf : ∀ n, Delimited (f n)) :
    Delimited (slotsLeft >>= f) := fun r _ _ h => hf (r.store / 16) h

theorem wants_slotsLeft_bind {α : Type} {f : ℕ → Parser α} (hf : ∀ n, Wants (f n)) :
    Wants (slotsLeft >>= f) := fun _ _ _ h => hf _ h

theorem delimited_parseArray {p : Parser Json} (hp : OpenEnded p) (hw : Wants p) :
    Delimited (parseArray p) := by
  have hrest : Wants (slotsLeft >>= fun n => Json.array <$> parseElements p n) :=
    wants_slotsLeft_bind fun n => (wants_parseElements hw n).map _
  refine openEnded_skip.bind (fun _ => ?_) fun _ => Wants.eat_bind hrest
  refine Delimited.eat_bind (.pure _) ?_ hrest
  exact delimited_slotsLeft_bind fun n => (delimited_parseElements hp n).map _

theorem delimited_parseObject {p : Parser Json} (copies : Bool) (hp : OpenEnded p) :
    Delimited (parseObject copies p) := by
  have hrest : Wants (slotsLeft >>= fun n => Json.object <$> parseMembers copies p n) :=
    wants_slotsLeft_bind fun n => (wants_parseMembers copies p n).map _
  refine openEnded_skip.bind (fun _ => ?_) fun _ => Wants.eat_bind hrest
  refine Delimited.eat_bind (.pure _) ?_ hrest
  exact delimited_slotsLeft_bind fun n => (delimited_parseMembers copies hp n).map _

theorem wants_parse (config : Config) (limit : ℕ) : Wants (parse config limit) := by
  cases limit with
  | zero => exact wants_skip.bind
  | succ limit => exact wants_skip.bind

theorem openEnded_parse (config : Config) (limit : ℕ) : OpenEnded (parse config limit) := by
  have hvalue := openEnded_parseValue config
  induction limit with
  | zero =>
    refine openEnded_skip.bind_openEnded fun _ => ?_
    refine OpenEnded.eat_bind (Delimited.throw _).openEnded ?_
      (Wants.eat_bind (wants_parseValue config))
    exact OpenEnded.eat_bind (Delimited.throw _).openEnded hvalue (wants_parseValue config)
  | succ limit ih =>
    refine openEnded_skip.bind_openEnded fun _ => ?_
    refine OpenEnded.eat_bind (delimited_parseArray ih (wants_parse config limit)).openEnded ?_
      (Wants.eat_bind (wants_parseValue config))
    exact OpenEnded.eat_bind (delimited_parseObject config.copies ih).openEnded hvalue
      (wants_parseValue config)

/-! ## Documents -/

/-- The rest of an array, within the nesting limit. -/
def arrayAt (config : Config) : ℕ → Parser Json
  | 0 => throw .tooDeep
  | limit + 1 => parseArray (parse config limit)

/-- The rest of an object, within the nesting limit. -/
def objectAt (config : Config) : ℕ → Parser Json
  | 0 => throw .tooDeep
  | limit + 1 => parseObject config.copies (parse config limit)

/-- `parse`, of an array or an object. -/
def parseCollection (config : Config) (limit : ℕ) : Parser Json := do
  skipSpacesAndComments
  if ← eat '[' then arrayAt config limit
  else if ← eat '\x7b' then objectAt config limit
  else throw .invalidInput

theorem parse_eq (config : Config) (limit : ℕ) :
    parse config limit = (do
      skipSpacesAndComments
      if ← eat '[' then arrayAt config limit
      else if ← eat '\x7b' then objectAt config limit
      else parseValue config) := by
  cases limit <;> rfl

theorem delimited_arrayAt (config : Config) (limit : ℕ) : Delimited (arrayAt config limit) := by
  cases limit with
  | zero => exact .throw _
  | succ limit =>
    exact delimited_parseArray (openEnded_parse config limit) (wants_parse config limit)

theorem delimited_objectAt (config : Config) (limit : ℕ) : Delimited (objectAt config limit) := by
  cases limit with
  | zero => exact .throw _
  | succ limit => exact delimited_parseObject config.copies (openEnded_parse config limit)

theorem delimited_parseCollection (config : Config) (limit : ℕ) :
    Delimited (parseCollection config limit) := by
  refine openEnded_skip.bind (fun _ => ?_) fun _ => Wants.eat_bind (Wants.eat_bind (.throw _))
  refine Delimited.eat_bind (delimited_arrayAt config limit) ?_ (Wants.eat_bind (.throw _))
  exact Delimited.eat_bind (delimited_objectAt config limit) (.throw _) (.throw _)

/-- What is skipped ends where a value begins. -/
theorem skip_eq_ok {m : ℕ} {r : Input Char ℕ}
    (h : skipSpacesAndComments ⟨s, m⟩ = .ok ((), r)) : ∃ c s',
      r = ⟨c :: s', m⟩ ∧ ∀ t, skipSpacesAndComments ⟨s ++ t, m⟩ = .ok ((), ⟨c :: s' ++ t, m⟩) := by
  obtain ⟨text, store⟩ := r
  obtain ⟨hf, rfl⟩ := scan_eq_ok.1 h
  obtain ⟨hne, used, rfl, hall⟩ := skipFrom_used hf
  obtain ⟨c, s', rfl⟩ := List.exists_cons_of_ne_nil hne
  refine ⟨c, s', rfl, fun t => scan_eq_ok.2 ⟨?_, rfl⟩⟩
  rw [List.append_assoc]
  exact hall _ rfl

theorem parse_of_skip {m : ℕ} (h : skipSpacesAndComments ⟨s, m⟩ = .ok ((), ⟨c :: s', m⟩)) :
    parse config limit ⟨s, m⟩ =
      if c = '[' then arrayAt config limit ⟨s', m⟩
      else if c = '\x7b' then objectAt config limit ⟨s', m⟩
      else parseValue config ⟨c :: s', m⟩ := by
  rw [parse_eq, bind_of_ok h, eat_bind_cons]
  by_cases hc : c = '['
  · rw [if_pos hc, if_pos hc]
    rfl
  · rw [if_neg hc, if_neg hc]
    exact eat_bind_cons

theorem parseCollection_of_skip {m : ℕ}
    (h : skipSpacesAndComments ⟨s, m⟩ = .ok ((), ⟨c :: s', m⟩)) :
    parseCollection config limit ⟨s, m⟩ =
      if c = '[' then arrayAt config limit ⟨s', m⟩
      else if c = '\x7b' then objectAt config limit ⟨s', m⟩
      else .error .invalidInput := by
  rw [parseCollection, bind_of_ok h, eat_bind_cons]
  by_cases hc : c = '['
  · rw [if_pos hc, if_pos hc]
    rfl
  · rw [if_neg hc, if_neg hc]
    exact eat_bind_cons

/-- An array or an object. -/
def isCollection : Json → Bool
  | .array _ => true
  | .object _ => true
  | _ => false

theorem named_eq_ok {v w : Json} {n : ℕ} (h : named v n s = .ok w) : w = v := by
  rw [named] at h
  split_ifs at h
  cases h
  rfl

theorem isCollection_of_numericValue {parseFloat : Bytes → ℤ × ℤ} {v : Json}
    (h : numericValue parseFloat s = .ok v) : isCollection v = false := by
  rw [numericValue] at h
  split_ifs at h
  · cases h
    rfl
  · cases h
    rfl
  all_goals
    cases named_eq_ok h
    rfl

theorem isCollection_of_parseValue {r r' : Input Char ℕ} {v : Json}
    (h : parseValue config r = .ok (v, r')) : isCollection v = false := by
  have hcur : parseValue config r = (if isQuote (r.text.headD nul)
      then parseStringValue config.copies else parseNumericValue config.parseFloat) r := rfl
  rw [hcur] at h
  split at h
  · obtain ⟨t, -, rfl⟩ := map_eq_ok.1 h
    rfl
  · obtain ⟨hn, -⟩ := scan_eq_ok.1 h
    rw [numeric] at hn
    cases hv : numericValue config.parseFloat (buffer r.text) with
    | error e => rw [hv] at hn; cases hn
    | ok w =>
      rw [hv] at hn
      obtain rfl := (Prod.mk.inj (Except.ok.inj hn)).1
      exact isCollection_of_numericValue hv

theorem skip_of_parse {m : ℕ} {r : Input Char ℕ} {v : Json}
    (h : parse config limit ⟨s, m⟩ = .ok (v, r)) :
    ∃ c s', skipSpacesAndComments ⟨s, m⟩ = .ok ((), ⟨c :: s', m⟩) ∧
      ∀ t, skipSpacesAndComments ⟨s ++ t, m⟩ = .ok ((), ⟨c :: s' ++ t, m⟩) := by
  rw [parse_eq] at h
  obtain ⟨u, r₁, hs, -⟩ := bind_eq_ok.1 h
  obtain ⟨c, s', rfl, hall⟩ := skip_eq_ok hs
  exact ⟨c, s', hs, hall⟩

theorem parseCollection_of_parse {m : ℕ} {r : Input Char ℕ} {v : Json}
    (h : parse config limit ⟨s, m⟩ = .ok (v, r)) (hv : isCollection v = true) :
    parseCollection config limit ⟨s, m⟩ = .ok (v, r) := by
  obtain ⟨c, s', hs, -⟩ := skip_of_parse h
  rw [parse_of_skip hs] at h
  rw [parseCollection_of_skip hs]
  split_ifs at h ⊢
  · exact h
  · exact h
  · rw [isCollection_of_parseValue h] at hv
    cases hv

theorem parse_of_parseCollection {m : ℕ} {r : Input Char ℕ} {v : Json}
    (h : parseCollection config limit ⟨s, m⟩ = .ok (v, r)) :
    parse config limit ⟨s, m⟩ = .ok (v, r) := by
  obtain ⟨u, r₁, hs, -⟩ := bind_eq_ok.1 h
  obtain ⟨c, s', rfl, -⟩ := skip_eq_ok hs
  rw [parseCollection_of_skip hs] at h
  rw [parse_of_skip hs]
  split_ifs at h ⊢
  · exact h
  · exact h

/-- The beginning of a collection is accepted as a collection, if at all. -/
theorem parseCollection_of_append {m : ℕ} {r r' : Input Char ℕ} {v w : Json}
    (h : parseCollection config limit ⟨s ++ t, m⟩ = .ok (v, r'))
    (hs : parse config limit ⟨s, m⟩ = .ok (w, r)) :
    parseCollection config limit ⟨s, m⟩ = .ok (w, r) := by
  obtain ⟨c, s', hskip, hall⟩ := skip_of_parse hs
  rw [parseCollection_of_skip (hall t)] at h
  rw [parse_of_skip hskip] at hs
  rw [parseCollection_of_skip hskip]
  split_ifs at h hs ⊢
  · exact hs
  · exact hs

end JsonDeserializer

open JsonDeserializer

variable {config : Config} {text : Bytes} {v : Json}

theorem deserializeJson_eq_ok :
    deserializeJson config text = .ok v ↔ ∃ r, parse config 10 ⟨text, 3000⟩ = .ok (v, r) := by
  rw [deserializeJson]
  cases parse config 10 ⟨text, 3000⟩ with
  | error e =>
    refine iff_of_false (fun h => nomatch h) ?_
    rintro ⟨r, h⟩
    cases h
  | ok x =>
    constructor
    · intro h
      cases h
      exact ⟨x.2, rfl⟩
    · rintro ⟨r, h⟩
      cases h
      rfl

/-- A text is accepted, for an array or an object, because of what it begins with. Nothing that
    comes after it matters, and a part of it is not accepted. -/
theorem accepts_collection (h : deserializeJson config text = .ok v)
    (hv : isCollection v = true) : ∃ doc, doc <+: text ∧ ∀ text',
      (doc <+: text' → deserializeJson config text' = .ok v) ∧
      (text' <+: doc → text' ≠ doc → ∀ w, deserializeJson config text' ≠ .ok w) := by
  obtain ⟨r, hr⟩ := deserializeJson_eq_ok.1 h
  have hcoll := parseCollection_of_parse hr hv
  obtain ⟨doc, hdoc, hall⟩ := delimited_parseCollection config 10 hcoll
  refine ⟨doc, ⟨r.text, hdoc.symm⟩, fun text' => ⟨?_, ?_⟩⟩
  · rintro ⟨rest, rfl⟩
    exact deserializeJson_eq_ok.2 ⟨_, parse_of_parseCollection (hall rest)⟩
  · rintro ⟨rest, rfl⟩ hne w hw
    obtain ⟨r', hr'⟩ := deserializeJson_eq_ok.1 hw
    have hwhole := hall []
    rw [List.append_nil] at hwhole
    exact hne ((delimited_parseCollection config 10).eq_of_isPrefix hwhole
      (List.prefix_append _ _) (parseCollection_of_append hwhole hr'))

/-- An object with a line feed after it. -/
theorem accepts_object : ∃ doc, doc <+: ['\x7b', '"', 'a', '"', ':', '5', '\x7d', '\n'] ∧
    ∀ text', (doc <+: text' → deserializeJson ⟨true, fun _ => (0, 0)⟩ text' =
        .ok (.object [(['a'], .integer 5)])) ∧
      (text' <+: doc → text' ≠ doc →
        ∀ w, deserializeJson ⟨true, fun _ => (0, 0)⟩ text' ≠ .ok w) :=
  accepts_collection rfl rfl

/-! ## The configuration file -/

/-- What `read_config_file` sets, if no copy of the networks goes on beyond its array. -/
def configured (conv : FloatConversion) (root : Option Json) : ConfigManager × Option WifiConfig :=
  (readConfigFile conv root, readWifi conv root)

/-- What is configured by a file. -/
def configOfFile (conv : FloatConversion) (config : Config) (file : Bytes) :
    ConfigManager × Option WifiConfig :=
  configured conv (deserializeJson config file).toOption

/-- A document that is not an object configures nothing. -/
theorem configured_of_not_collection (conv : FloatConversion) (hv : isCollection v = false) :
    configured conv (some v) = configured conv none := by
  cases v with
  | array es => cases hv
  | object ms => cases hv
  | _ => rfl

/-- Whatever is lost of the end of the configuration file, all of it is read as it was, or all
    as if it were not there. -/
theorem configOfFile_take (conv : FloatConversion) (config : Config) (file : Bytes) (n : ℕ) :
    configOfFile conv config (file.take n) = configOfFile conv config file ∨
      configOfFile conv config (file.take n) = configured conv none := by
  rw [configOfFile, configOfFile]
  cases h : deserializeJson config (file.take n) with
  | error e => exact .inr rfl
  | ok v =>
    cases hv : isCollection v with
    | false => exact .inr (configured_of_not_collection conv hv)
    | true =>
      obtain ⟨doc, hdoc, hall⟩ := accepts_collection h hv
      rw [(hall file).1 (hdoc.trans (List.take_prefix n file))]
      exact .inl rfl

end CanInsight
