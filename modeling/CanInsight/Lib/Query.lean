import Mathlib.Data.List.Basic
import Mathlib.Data.List.TakeWhile

/-!
# Query strings

The query of a request line, printed without escaping anything and split again at `&` and at
the first `=` of each part.

* `values_print`: what the parts of a printed query give for a key: the values printed for it,
  each up to its first `&`, and whatever the rest of any value adds (`gives`, `extra`);
* `mem_values`: what they give is within the query, after the key;
* `beforeSpace_print`, `beforeSpace_print_of_space`: the query that is found in a request line,
  which a space in a value cuts off.
-/

namespace Query

/-- A text of a request. -/
abbrev Text := List Char

/-- The end of the query in a request line. -/
def IsSpace (c : Char) : Prop := c = ' ' ∨ c = '\r' ∨ c = '\n'

instance : DecidablePred IsSpace := fun _ => inferInstanceAs (Decidable (_ ∨ _))

/-- The text has no space. -/
def Spaceless (s : Text) : Prop := ∀ c ∈ s, ¬ IsSpace c

instance (s : Text) : Decidable (Spaceless s) := List.decidableBAll _ s

/-- What stands before the first space. -/
def beforeSpace (s : Text) : Text := s.takeWhile fun c => decide (¬ IsSpace c)

/-- The query of a request: what follows the first `?`, up to the next space. -/
def query (request : Text) : Text := beforeSpace ((request.dropWhile (· ≠ '?')).drop 1)

/-- The value that a part of a query gives for a key. -/
def value (key part : Text) : Option Text :=
  if key ++ ['='] <+: part then some (part.drop (key.length + 1)) else none

/-- The values that a query gives for a key. -/
def values (key q : Text) : List Text := (q.splitOn '&').filterMap (value key)

/-- A field, as it is printed. -/
def printField (f : Text × Text) : Text := f.1 ++ '=' :: f.2

/-- The fields, with `&` between them. -/
def print : List (Text × Text) → Text
  | [] => []
  | [f] => printField f
  | f :: g :: fs => printField f ++ '&' :: print (g :: fs)

/-- A text up to its first `&`. -/
def first (s : Text) : Text := s.takeWhile (· ≠ '&')

/-- The values that a text gives for a key after its first `&`. -/
def extra (key s : Text) : List Text :=
  match s.dropWhile (· ≠ '&') with
  | [] => []
  | _ :: rest => values key rest

/-- The values that a field gives for a key, as it is printed. -/
def gives (key : Text) (f : Text × Text) : List Text :=
  (if key = f.1 then [first f.2] else []) ++ extra key f.2

/-- A key has neither of the two separators. -/
def IsKey (s : Text) : Prop := '&' ∉ s ∧ '=' ∉ s

instance (s : Text) : Decidable (IsKey s) := inferInstanceAs (Decidable (_ ∧ _))

variable {key name s t q r : Text} {c : Char} {f g : Text × Text} {fs gs : List (Text × Text)}

/-! ## Values -/

theorem values_append (key s t : Text) :
    values key (s ++ '&' :: t) = values key s ++ values key t := by
  rw [values, List.splitOn_append_cons_self, List.filterMap_append]
  rfl

theorem values_of_not_mem (h : '&' ∉ s) : values key s = (value key s).toList := by
  rw [values, List.splitOn_eq_singleton h, List.filterMap_cons, List.filterMap_nil]
  cases value key s <;> rfl

/-- A part gives a value for its own key. -/
theorem value_printField (hk : '=' ∉ key) (hn : '=' ∉ name) (s : Text) :
    value key (name ++ '=' :: s) = if key = name then some s else none := by
  have hiff : key ++ ['='] <+: name ++ '=' :: s ↔ key = name := by
    constructor
    · rintro ⟨t, ht⟩
      rw [List.append_assoc, List.singleton_append] at ht
      have hw {a b : Text} (ha : '=' ∉ a) : (a ++ '=' :: b).takeWhile (· ≠ '=') = a := by
        rw [List.takeWhile_append_of_pos fun c hc => decide_eq_true (ne_of_mem_of_not_mem hc ha)]
        simp
      rw [← hw hk, ht, hw hn]
    · rintro rfl
      exact ⟨s, by rw [List.append_assoc, List.singleton_append]⟩
  rw [value]
  by_cases h : key = name
  · rw [if_pos (hiff.2 h), if_pos h, h]
    simp
  · rw [if_neg (hiff.not.2 h), if_neg h]

theorem extra_of_not_mem (h : '&' ∉ s) (key : Text) : extra key s = [] := by
  have hd : s.dropWhile (· ≠ '&') = [] := by
    rw [List.dropWhile_eq_nil_iff]
    exact fun c hc => decide_eq_true (ne_of_mem_of_not_mem hc h)
  rw [extra, hd]

theorem first_of_not_mem (h : '&' ∉ s) : first s = s := by
  rw [first, List.takeWhile_eq_self_iff]
  exact fun c hc => decide_eq_true (ne_of_mem_of_not_mem hc h)

theorem not_mem_first (s : Text) : '&' ∉ first s := by
  intro h
  have hc := List.mem_takeWhile_imp h
  exact of_decide_eq_true hc rfl

/-- A text is its beginning, or goes on with `&`. -/
theorem eq_first_or (s : Text) :
    '&' ∉ s ∨ ∃ rest, s = first s ++ '&' :: rest ∧ ∀ key, extra key s = values key rest := by
  rcases hd : s.dropWhile (· ≠ '&') with _ | ⟨c, rest⟩
  · rw [List.dropWhile_eq_nil_iff] at hd
    exact .inl fun h => of_decide_eq_true (hd _ h) rfl
  · have hc : c = '&' := by
      have hhead := List.head?_dropWhile_not (fun c : Char => decide (c ≠ '&')) s
      rw [hd] at hhead
      simpa using hhead
    refine .inr ⟨rest, ?_, fun key => by rw [extra, hd]⟩
    calc s = first s ++ s.dropWhile (· ≠ '&') := List.takeWhile_append_dropWhile.symm
      _ = first s ++ '&' :: rest := by rw [hd, hc]

/-- A field gives the beginning of its value for its own key, and what comes after it. -/
theorem values_printField (hk : IsKey key) (hf : IsKey f.1) :
    values key (printField f) = gives key f := by
  have hpart {v : Text} (hv : '&' ∉ v) :
      values key (f.1 ++ '=' :: v) = if key = f.1 then [v] else [] := by
    have hmem : '&' ∉ f.1 ++ '=' :: v := by
      rw [List.mem_append, List.mem_cons]
      rintro (h | h | h)
      · exact hf.1 h
      · cases h
      · exact hv h
    rw [values_of_not_mem hmem, value_printField hk.2 hf.2]
    split <;> rfl
  rcases eq_first_or f.2 with h | ⟨rest, hrest, hextra⟩
  · rw [printField, hpart h, gives, first_of_not_mem h, extra_of_not_mem h, List.append_nil]
  · have hprint : printField f = f.1 ++ '=' :: first f.2 ++ '&' :: rest := by
      rw [printField, List.append_assoc, List.cons_append, ← hrest]
    rw [hprint, values_append, hpart (not_mem_first _), gives, hextra]

theorem gives_of_ne (h : key ≠ name) (s : Text) : gives key (name, s) = extra key s :=
  congrArg (· ++ extra key s) (if_neg h)

theorem gives_of_not_mem (h : key ≠ name) (hs : '&' ∉ s) : gives key (name, s) = [] := by
  rw [gives_of_ne h, extra_of_not_mem hs]

theorem gives_self (key s : Text) : gives key (key, s) = first s :: extra key s :=
  congrArg (· ++ extra key s) (if_pos rfl)

theorem gives_self_of_not_mem (key : Text) (hs : '&' ∉ s) : gives key (key, s) = [s] := by
  rw [gives_self, first_of_not_mem hs, extra_of_not_mem hs]

theorem print_cons (h : fs ≠ []) : print (f :: fs) = printField f ++ '&' :: print fs := by
  cases fs with
  | nil => exact absurd rfl h
  | cons g fs => rfl

/-- What a printed query gives for a key, field by field. -/
theorem values_print (hk : IsKey key) (hne : fs ≠ []) (hf : ∀ f ∈ fs, IsKey f.1) :
    values key (print fs) = fs.flatMap (gives key) := by
  induction fs with
  | nil => exact absurd rfl hne
  | cons f fs ih =>
    obtain ⟨hf, hfs⟩ := List.forall_mem_cons.1 hf
    rw [List.flatMap_cons]
    by_cases hnil : fs = []
    · rw [hnil, List.flatMap_nil, List.append_nil]
      exact values_printField hk hf
    · rw [print_cons hnil, values_append, values_printField hk hf, ih hnil hfs]

/-! ## What is within a query -/

/-- The induction on the parts of a text. -/
theorem parts_induct {P : Text → Prop} (single : ∀ s, '&' ∉ s → P s)
    (step : ∀ s t, '&' ∉ s → P t → P (s ++ '&' :: t)) (s : Text) : P s := by
  induction hn : s.length using Nat.strong_induction_on generalizing s with
  | _ n ih =>
    rcases eq_first_or s with h | ⟨rest, hrest, -⟩
    · exact single s h
    · have hlt : rest.length < n := by
        rw [← hn, hrest, List.length_append, List.length_cons]
        omega
      rw [hrest]
      exact step _ rest (not_mem_first s) (ih _ hlt rest rfl)

/-- A value of a query has no `&`, and is in the query after its key. -/
theorem mem_values {v : Text} (h : v ∈ values key q) : '&' ∉ v ∧ key ++ '=' :: v <:+: q := by
  have hsingle {s : Text} (hs : '&' ∉ s) (h : v ∈ values key s) :
      '&' ∉ v ∧ key ++ '=' :: v <:+: s := by
    rw [values_of_not_mem hs, Option.mem_toList, value] at h
    split at h
    · next hpre =>
      obtain ⟨t, rfl⟩ := hpre
      have hv : t = v := by simpa using h
      subst hv
      rw [List.append_assoc, List.singleton_append] at hs ⊢
      exact ⟨fun hm => hs (List.mem_append_right _ (List.mem_cons_of_mem _ hm)),
        List.infix_refl _⟩
    · cases h
  induction q using parts_induct with
  | single s hs => exact hsingle hs h
  | step s t hs ih =>
    rw [values_append, List.mem_append] at h
    rcases h with h | h
    · obtain ⟨hv, hin⟩ := hsingle hs h
      exact ⟨hv, hin.trans (List.prefix_append s _).isInfix⟩
    · obtain ⟨hv, hin⟩ := ih h
      exact ⟨hv, hin.trans ((List.suffix_cons _ t).trans (List.suffix_append s _)).isInfix⟩

theorem length_of_mem_extra {v : Text} (h : v ∈ extra key s) :
    key.length + 2 + v.length ≤ s.length := by
  rcases eq_first_or s with hs | ⟨rest, hrest, hextra⟩
  · rw [extra_of_not_mem hs] at h
    exact absurd h List.not_mem_nil
  · rw [hextra] at h
    have hlen := (mem_values h).2.length_le
    rw [List.length_append, List.length_cons] at hlen
    rw [hrest, List.length_append, List.length_cons]
    omega

theorem extra_of_length_lt (h : s.length < key.length + 2) : extra key s = [] := by
  rw [List.eq_nil_iff_forall_not_mem]
  intro v hv
  have hlen := length_of_mem_extra hv
  omega

/-- The shortest text that adds a value. -/
theorem extra_eq_nil_iff (hk : IsKey key) (h : s.length ≤ key.length + 2) :
    extra key s = [] ↔ s ≠ '&' :: (key ++ ['=']) := by
  constructor
  · rintro hnil rfl
    have hvalues : values key (printField (key, [])) = gives key (key, []) :=
      values_printField hk hk
    rw [gives_self] at hvalues
    exact absurd (hvalues.symm.trans hnil) (List.cons_ne_nil _ _)
  · intro hne
    rw [List.eq_nil_iff_forall_not_mem]
    intro v hv
    have hlen := length_of_mem_extra hv
    rcases eq_first_or s with hs | ⟨rest, hrest, hextra⟩
    · rw [extra_of_not_mem hs] at hv
      exact List.not_mem_nil hv
    · rw [hextra] at hv
      -- there is room for nothing else
      have hin := (mem_values hv).2
      have hrlen := congrArg List.length hrest
      rw [List.length_append, List.length_cons] at hrlen
      have hvlen : v.length = 0 := by omega
      have hle := hin.length_le
      rw [List.length_append, List.length_cons] at hle
      have hfirst : (first s).length = 0 := by omega
      have heq : key ++ '=' :: v = rest :=
        hin.eq_of_length (by rw [List.length_append, List.length_cons]; omega)
      refine hne ?_
      rw [hrest, ← heq, List.length_eq_zero_iff.1 hfirst, List.length_eq_zero_iff.1 hvlen,
        List.nil_append]

/-! ## The query of a request -/

theorem spaceless_append : Spaceless (s ++ t) ↔ Spaceless s ∧ Spaceless t := List.forall_mem_append

theorem spaceless_cons : Spaceless (c :: s) ↔ ¬ IsSpace c ∧ Spaceless s := List.forall_mem_cons

theorem spaceless_beforeSpace (s : Text) : Spaceless (beforeSpace s) := by
  intro c hc
  have hsat := List.mem_takeWhile_imp hc
  exact of_decide_eq_true hsat

theorem beforeSpace_append (h : Spaceless s) (t : Text) :
    beforeSpace (s ++ t) = s ++ beforeSpace t :=
  List.takeWhile_append_of_pos fun c hc => decide_eq_true (h c hc)

theorem beforeSpace_cons (h : IsSpace c) (t : Text) : beforeSpace (c :: t) = [] := by
  rw [beforeSpace, List.takeWhile_cons, if_neg]
  simpa using h

theorem exists_space (h : ¬ Spaceless s) :
    ∃ c rest, IsSpace c ∧ s = beforeSpace s ++ c :: rest := by
  rcases hd : s.dropWhile fun c => decide (¬ IsSpace c) with _ | ⟨c, rest⟩
  · rw [List.dropWhile_eq_nil_iff] at hd
    exact absurd (fun c hc => of_decide_eq_true (hd c hc)) h
  · have hhead := List.head?_dropWhile_not (fun c => decide (¬ IsSpace c)) s
    rw [hd] at hhead
    refine ⟨c, rest, by simpa using hhead, ?_⟩
    rw [← hd]
    exact List.takeWhile_append_dropWhile.symm

theorem length_beforeSpace_lt (h : ¬ Spaceless s) : (beforeSpace s).length < s.length := by
  obtain ⟨c, rest, -, hs⟩ := exists_space h
  have hlen := congrArg List.length hs
  rw [List.length_append, List.length_cons] at hlen
  omega

theorem beforeSpace_append_of_space (h : ¬ Spaceless s) (t : Text) :
    beforeSpace (s ++ t) = beforeSpace s := by
  obtain ⟨c, rest, hc, hs⟩ := exists_space h
  have happ : s ++ t = beforeSpace s ++ c :: (rest ++ t) := by
    conv_lhs => rw [hs]
    rw [List.append_assoc, List.cons_append]
  rw [happ, beforeSpace_append (spaceless_beforeSpace s), beforeSpace_cons hc, List.append_nil]

theorem query_append (h : '?' ∉ s) (t : Text) : query (s ++ '?' :: t) = beforeSpace t := by
  rw [query, List.dropWhile_append_of_pos fun c hc => decide_eq_true (ne_of_mem_of_not_mem hc h)]
  simp

/-- A field without a space. -/
def Unbroken (f : Text × Text) : Prop := Spaceless f.1 ∧ Spaceless f.2

theorem unbroken_mk (hname : Spaceless name) (hs : Spaceless s) : Unbroken (name, s) := ⟨hname, hs⟩

theorem Unbroken.printField (h : Unbroken f) : Spaceless (printField f) :=
  spaceless_append.2 ⟨h.1, spaceless_cons.2 ⟨by decide, h.2⟩⟩

theorem spaceless_print (hf : ∀ f ∈ fs, Unbroken f) : Spaceless (print fs) := by
  induction fs with
  | nil => exact fun _ h => absurd h List.not_mem_nil
  | cons f fs ih =>
    obtain ⟨hf, hfs⟩ := List.forall_mem_cons.1 hf
    by_cases hnil : fs = []
    · rw [hnil]
      exact hf.printField
    · rw [print_cons hnil]
      exact spaceless_append.2 ⟨hf.printField, spaceless_cons.2 ⟨by decide, ih hfs⟩⟩

theorem beforeSpace_print (hf : ∀ f ∈ fs, Unbroken f) (hc : IsSpace c) (r : Text) :
    beforeSpace (print fs ++ c :: r) = print fs := by
  rw [beforeSpace_append (spaceless_print hf), beforeSpace_cons hc, List.append_nil]

theorem exists_print_cons (f : Text × Text) (fs : List (Text × Text)) :
    ∃ rest, print (f :: fs) = printField f ++ rest := by
  cases fs with
  | nil => exact ⟨[], (List.append_nil _).symm⟩
  | cons g fs => exact ⟨_, rfl⟩

/-- A space in a value ends the query. -/
theorem beforeSpace_print_of_space (hfs : ∀ f ∈ fs, Unbroken f) (hname : Spaceless name)
    (hs : ¬ Spaceless s) (gs : List (Text × Text)) (r : Text) :
    beforeSpace (print (fs ++ (name, s) :: gs) ++ r) = print (fs ++ [(name, beforeSpace s)]) := by
  have hsep {t : Text} (ht : Spaceless t) {c : Char} (hc : ¬ IsSpace c) (u : Text) :
      beforeSpace (t ++ c :: u) = t ++ c :: beforeSpace u := by
    rw [List.append_cons, beforeSpace_append
      (spaceless_append.2 ⟨ht, spaceless_cons.2 ⟨hc, fun _ h => absurd h List.not_mem_nil⟩⟩),
      List.append_assoc, List.singleton_append]
  induction fs with
  | nil =>
    obtain ⟨rest, hrest⟩ := exists_print_cons (name, s) gs
    rw [List.nil_append, hrest, printField, List.append_assoc, List.append_assoc,
      List.cons_append, hsep hname (by decide), beforeSpace_append_of_space hs]
    rfl
  | cons f fs ih =>
    obtain ⟨hf, hfs⟩ := List.forall_mem_cons.1 hfs
    have hne (g : Text × Text) (gs : List (Text × Text)) : fs ++ g :: gs ≠ [] :=
      List.append_ne_nil_of_right_ne_nil _ (List.cons_ne_nil _ _)
    rw [List.cons_append, List.cons_append, print_cons (hne _ gs), print_cons (hne _ []),
      List.append_assoc, List.cons_append, hsep hf.printField (by decide), ih hfs]

/-- Of a query that a space ends, what is before the space gives values. -/
theorem values_print_of_space (fs gs : List (Text × Text)) (r : Text) (hk : IsKey key)
    (hkeys : ∀ f ∈ fs, IsKey f.1) (hn : IsKey name) (hfs : ∀ f ∈ fs, Unbroken f)
    (hname : Spaceless name) (hs : ¬ Spaceless s) :
    values key (beforeSpace (print (fs ++ (name, s) :: gs) ++ r)) =
      fs.flatMap (gives key) ++ gives key (name, beforeSpace s) := by
  rw [beforeSpace_print_of_space hfs hname hs, values_print hk, List.flatMap_append,
    List.flatMap_singleton]
  · exact List.append_ne_nil_of_right_ne_nil _ (List.cons_ne_nil _ _)
  · exact List.forall_mem_append.2 ⟨hkeys, List.forall_mem_singleton.2 hn⟩

end Query
