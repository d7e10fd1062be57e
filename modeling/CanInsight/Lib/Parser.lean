import Mathlib.Data.List.Basic

/-!
# Parsers

A parser is given a text and a store (the memory that it may use up, say). It fails, or gives
a value, the text after what it has read, and what is left of the store.

* `Parser.Delimited p`: what `p` reads is all that it looks at;
* `Parser.OpenEnded p`: it looks at the next character too, which tells where what it reads
  ends;
* `Parser.Wants p`: `p` fails without a text;
* `Parser.Delimited.eq_of_isPrefix`: a text that is read as a whole is not the beginning of
  another one.
-/

namespace Parsing

/-- What a parser is given. -/
structure Input (γ σ : Type*) where
  text : List γ
  store : σ

variable {γ σ : Type} {ε α β : Type}

abbrev Parser (γ σ ε : Type) := StateT (Input γ σ) (Except ε)

namespace Parser

variable {p : Parser γ σ ε α} {f : α → Parser γ σ ε β} {r r' : Input γ σ} {a : α} {b : β} {e : ε}

/-! ## What composes -/

theorem bind_of_ok {r₁ : Input γ σ} (h : p r = .ok (a, r₁)) : (p >>= f) r = f a r₁ := by
  change (p r).bind (fun x => f x.1 x.2) = _
  rw [h]
  rfl

theorem bind_of_error (h : p r = .error e) : (p >>= f) r = .error e := by
  change (p r).bind (fun x => f x.1 x.2) = _
  rw [h]
  rfl

theorem bind_eq_ok :
    (p >>= f) r = .ok (b, r') ↔ ∃ a r₁, p r = .ok (a, r₁) ∧ f a r₁ = .ok (b, r') := by
  constructor
  · intro h
    cases hp : p r with
    | error e => rw [bind_of_error hp] at h; cases h
    | ok x => exact ⟨x.1, x.2, rfl, (bind_of_ok hp).symm.trans h⟩
  · rintro ⟨a, r₁, hp, h⟩
    rw [bind_of_ok hp, h]

theorem map_eq_ok {g : α → β} :
    (g <$> p) r = .ok (b, r') ↔ ∃ a, p r = .ok (a, r') ∧ g a = b := by
  change (p r).bind (fun x => .ok (g x.1, x.2)) = _ ↔ _
  cases p r with
  | error e =>
    refine iff_of_false (fun h => nomatch h) ?_
    rintro ⟨a, h, -⟩
    cases h
  | ok x =>
    constructor
    · intro h
      cases h
      exact ⟨x.1, rfl, rfl⟩
    · rintro ⟨a, h, rfl⟩
      cases h
      rfl

/-- A parser that gives one value, on a condition, gives what that is mapped to. -/
theorem map_iff {g : α → β} {P : Prop} {r₁ : Input γ σ}
    (h : ∀ a' r', p r = .ok (a', r') ↔ P ∧ a' = a ∧ r' = r₁) :
    (g <$> p) r = .ok (b, r') ↔ P ∧ b = g a ∧ r' = r₁ := by
  rw [map_eq_ok]
  constructor
  · rintro ⟨a', hp, rfl⟩
    obtain ⟨hP, rfl, hr⟩ := (h a' r').1 hp
    exact ⟨hP, rfl, hr⟩
  · rintro ⟨hP, rfl, rfl⟩
    exact ⟨a, (h a r').2 ⟨hP, rfl, rfl⟩, rfl⟩

theorem pure_eq_ok {a' : α} :
    (pure a : Parser γ σ ε α) r = .ok (a', r') ↔ a = a' ∧ r = r' := by
  change Except.ok (a, r) = _ ↔ _
  rw [Except.ok.injEq, Prod.mk.injEq]

theorem throw_ne_ok : (throw e : Parser γ σ ε α) r ≠ .ok (a, r') := fun h => nomatch h

/-! ## Reading only the text -/

/-- The parser that leaves the store alone. -/
def scan (f : List γ → Except ε (α × List γ)) : Parser γ σ ε α := fun r =>
  match f r.text with
  | .error e => .error e
  | .ok (a, s) => .ok (a, { r with text := s })

theorem scan_eq_ok {f : List γ → Except ε (α × List γ)} :
    (scan f : Parser γ σ ε α) r = .ok (a, r') ↔
      f r.text = .ok (a, r'.text) ∧ r'.store = r.store := by
  rw [scan]
  cases hf : f r.text with
  | error e => exact iff_of_false (fun h => nomatch h) fun h => nomatch h.1
  | ok x =>
    constructor
    · intro h
      cases h
      exact ⟨rfl, rfl⟩
    · rintro ⟨h, hs⟩
      cases r'
      cases h
      cases hs
      rfl

/-- The store alone is used. -/
def spend (f : σ → Except ε σ) : Parser γ σ ε Unit := fun r =>
  match f r.store with
  | .error e => .error e
  | .ok s => .ok ((), { r with store := s })

theorem spend_eq_ok {f : σ → Except ε σ} {u : Unit} :
    (spend f : Parser γ σ ε Unit) r = .ok (u, r') ↔
      f r.store = .ok r'.store ∧ r'.text = r.text := by
  rw [spend]
  cases hf : f r.store with
  | error e => exact iff_of_false (fun h => nomatch h) fun h => nomatch h.1
  | ok x =>
    constructor
    · intro h
      cases h
      exact ⟨rfl, rfl⟩
    · rintro ⟨h, hs⟩
      cases r'
      cases h
      cases hs
      rfl

/-! ## What is read -/

/-- What is read is a part of the text, and all that matters. -/
def Delimited (p : Parser γ σ ε α) : Prop :=
  ∀ ⦃r a r'⦄, p r = .ok (a, r') → ∃ used, r.text = used ++ r'.text ∧
    ∀ t, p ⟨used ++ t, r.store⟩ = .ok (a, ⟨t, r'.store⟩)

/-- It matters too which character comes next. -/
def OpenEnded (p : Parser γ σ ε α) : Prop :=
  ∀ ⦃r a r'⦄, p r = .ok (a, r') → ∃ used, r.text = used ++ r'.text ∧
    (r'.text ≠ [] → ∀ t, t.head? = r'.text.head? →
      p ⟨used ++ t, r.store⟩ = .ok (a, ⟨t, r'.store⟩))

/-- Without a text, it fails. -/
def Wants (p : Parser γ σ ε α) : Prop := ∀ ⦃m a r'⦄, p ⟨[], m⟩ ≠ .ok (a, r')

theorem Delimited.openEnded (h : Delimited p) : OpenEnded p := fun _ _ _ hp => by
  obtain ⟨used, hu, ht⟩ := h hp
  exact ⟨used, hu, fun _ t _ => ht t⟩

theorem Delimited.pure (a : α) : Delimited (pure a : Parser γ σ ε α) := fun _ _ _ h => by
  obtain ⟨rfl, rfl⟩ := pure_eq_ok.1 h
  exact ⟨[], rfl, fun t => rfl⟩

theorem Delimited.throw (e : ε) : Delimited (throw e : Parser γ σ ε α) :=
  fun _ _ _ h => absurd h throw_ne_ok

theorem Wants.throw (e : ε) : Wants (MonadExcept.throw e : Parser γ σ ε α) :=
  fun _ _ _ => throw_ne_ok

theorem Delimited.map (hp : Delimited p) (g : α → β) : Delimited (g <$> p) := fun _ _ _ h => by
  obtain ⟨a, hpa, rfl⟩ := map_eq_ok.1 h
  obtain ⟨used, hu, ht⟩ := hp hpa
  exact ⟨used, hu, fun t => map_eq_ok.2 ⟨a, ht t, rfl⟩⟩

theorem Delimited.bind (hp : Delimited p) (hf : ∀ a, Delimited (f a)) : Delimited (p >>= f) :=
  fun _ _ _ h => by
    obtain ⟨a, r₁, hpa, hfa⟩ := bind_eq_ok.1 h
    obtain ⟨used, hu, ht⟩ := hp hpa
    obtain ⟨used', hu', ht'⟩ := hf a hfa
    refine ⟨used ++ used', by rw [hu, hu', List.append_assoc], fun t => ?_⟩
    rw [List.append_assoc, bind_of_ok (ht _), ht']

/-- A parser that wants a text reads a part of it, if it is delimited. -/
theorem Delimited.used_ne_nil (hp : Delimited p) (hw : Wants p) (h : p r = .ok (a, r')) :
    ∃ c used, r.text = c :: used ++ r'.text ∧
      ∀ t, p ⟨c :: used ++ t, r.store⟩ = .ok (a, ⟨t, r'.store⟩) := by
  obtain ⟨used, hu, ht⟩ := hp h
  cases used with
  | nil => exact (hw (ht [])).elim
  | cons c used => exact ⟨c, used, hu, ht⟩

/-- What comes next shows where an open end is. -/
theorem OpenEnded.bind (hp : OpenEnded p) (hf : ∀ a, Delimited (f a)) (hw : ∀ a, Wants (f a)) :
    Delimited (p >>= f) := fun _ _ _ h => by
  obtain ⟨a, r₁, hpa, hfa⟩ := bind_eq_ok.1 h
  obtain ⟨used, hu, ht⟩ := hp hpa
  obtain ⟨c, used', hu', ht'⟩ := (hf a).used_ne_nil (hw a) hfa
  refine ⟨used ++ c :: used', by rw [hu, hu', List.append_assoc], fun t => ?_⟩
  have hne : r₁.text ≠ [] := by
    rw [hu']
    exact List.cons_ne_nil _ _
  rw [List.append_assoc, bind_of_ok (ht hne _ (by rw [hu']; rfl)), ht']

theorem OpenEnded.bind_openEnded (hp : OpenEnded p) (hf : ∀ a, OpenEnded (f a)) :
    OpenEnded (p >>= f) := fun r _ r' h => by
  obtain ⟨a, ⟨s₁, m₁⟩, hpa, hfa⟩ := bind_eq_ok.1 h
  obtain ⟨used, hu, ht⟩ := hp hpa
  obtain ⟨used', hu', ht'⟩ := hf a hfa
  replace hu' : s₁ = used' ++ r'.text := hu'
  subst hu'
  refine ⟨used ++ used', hu.trans (List.append_assoc _ _ _).symm, fun hne t hh => ?_⟩
  have hhead : (used' ++ t).head? = (used' ++ r'.text).head? := by
    rw [List.head?_append, hh, List.head?_append]
  rw [List.append_assoc, bind_of_ok (ht (List.append_ne_nil_of_right_ne_nil _ hne) _ hhead)]
  exact ht' hne t hh

theorem Wants.map (hp : Wants p) (g : α → β) : Wants (g <$> p) := fun _ _ _ h => by
  obtain ⟨a, hpa, -⟩ := map_eq_ok.1 h
  exact hp hpa

theorem Wants.bind (hp : Wants p) : Wants (p >>= f) := fun _ _ _ h => by
  obtain ⟨a, r₁, hpa, -⟩ := bind_eq_ok.1 h
  exact hp hpa

theorem Wants.spend_bind {g : σ → Except ε σ} {f : Unit → Parser γ σ ε β}
    (hf : ∀ u, Wants (f u)) : Wants (spend g >>= f) := fun _ _ _ h => by
  obtain ⟨u, ⟨s, m⟩, hpa, hfa⟩ := bind_eq_ok.1 h
  obtain ⟨-, hs⟩ := spend_eq_ok.1 hpa
  replace hs : s = [] := hs
  subst hs
  exact hf u hfa

theorem Delimited.scan {f : List γ → Except ε (α × List γ)}
    (h : ∀ s a s', f s = .ok (a, s') → ∃ used, s = used ++ s' ∧ ∀ t, f (used ++ t) = .ok (a, t)) :
    Delimited (scan f : Parser γ σ ε α) := fun _ _ _ hp => by
  obtain ⟨hf, hs⟩ := scan_eq_ok.1 hp
  obtain ⟨used, hu, ht⟩ := h _ _ _ hf
  exact ⟨used, hu, fun t => scan_eq_ok.2 ⟨ht t, hs⟩⟩

theorem OpenEnded.scan {f : List γ → Except ε (α × List γ)}
    (h : ∀ s a s', f s = .ok (a, s') → ∃ used, s = used ++ s' ∧
      (s' ≠ [] → ∀ t, t.head? = s'.head? → f (used ++ t) = .ok (a, t))) :
    OpenEnded (scan f : Parser γ σ ε α) := fun _ _ _ hp => by
  obtain ⟨hf, hs⟩ := scan_eq_ok.1 hp
  obtain ⟨used, hu, ht⟩ := h _ _ _ hf
  exact ⟨used, hu, fun hne t hh => scan_eq_ok.2 ⟨ht hne t hh, hs⟩⟩

theorem Wants.scan {f : List γ → Except ε (α × List γ)} (h : ∀ a s, f [] ≠ .ok (a, s)) :
    Wants (scan f : Parser γ σ ε α) := fun _ _ _ hp => h _ _ (scan_eq_ok.1 hp).1

theorem Delimited.spend (f : σ → Except ε σ) : Delimited (spend f : Parser γ σ ε Unit) :=
  fun _ _ _ hp => by
    obtain ⟨hf, hs⟩ := spend_eq_ok.1 hp
    exact ⟨[], hs.symm, fun t => spend_eq_ok.2 ⟨hf, rfl⟩⟩

/-- A text that is read as a whole does not go on in another one. -/
theorem Delimited.eq_of_isPrefix (hp : Delimited p) {s u : List γ} {m m' : σ} {a' : α}
    (h : p ⟨s, m⟩ = .ok (a, ⟨[], m'⟩)) (hu : u <+: s) (hr : p ⟨u, m⟩ = .ok (a', r)) : u = s := by
  obtain ⟨used, hused, ht⟩ := hp hr
  replace hused : u = used ++ r.text := hused
  obtain ⟨t, rfl⟩ : used <+: s := (hused ▸ List.prefix_append used r.text).trans hu
  have hnil : t = [] := by
    have hrest := ht t
    rw [h, Except.ok.injEq, Prod.mk.injEq] at hrest
    exact (congrArg Input.text hrest.2).symm
  subst hnil
  refine hu.eq_of_length_le ?_
  rw [List.append_nil, hused, List.length_append]
  exact Nat.le_add_right _ _

/-! ## One character -/

variable [DecidableEq γ]

/-- The next character, if it is the given one. -/
def eat (c : γ) : Parser γ σ ε Bool := fun r =>
  match r.text with
  | [] => .ok (false, r)
  | d :: s => if d = c then .ok (true, { r with text := s }) else .ok (false, r)

variable {g : Bool → Parser γ σ ε β} {c : γ}

theorem eat_bind_cons {s : List γ} {m : σ} {d : γ} :
    (eat c >>= g) ⟨d :: s, m⟩ = if d = c then g true ⟨s, m⟩ else g false ⟨d :: s, m⟩ := by
  by_cases hd : d = c
  · rw [if_pos hd]
    exact bind_of_ok (if_pos hd)
  · rw [if_neg hd]
    exact bind_of_ok (if_neg hd)

/-- Where the given character does not come, another one has to. -/
theorem Delimited.eat_bind (ht : Delimited (g true)) (hf : Delimited (g false))
    (hw : Wants (g false)) : Delimited (eat c >>= g) := by
  rintro ⟨s, m⟩ b r' h
  cases s with
  | nil => exact (hw h).elim
  | cons d s =>
    rw [eat_bind_cons] at h
    by_cases hd : d = c
    · rw [if_pos hd] at h
      obtain ⟨used, hu, hall⟩ := ht h
      refine ⟨d :: used, congrArg (d :: ·) hu, fun t => ?_⟩
      rw [List.cons_append, eat_bind_cons, if_pos hd, hall]
    · rw [if_neg hd] at h
      obtain ⟨e, used, hu, hall⟩ := hf.used_ne_nil hw h
      obtain ⟨rfl, -⟩ := List.cons.inj hu
      refine ⟨d :: used, hu, fun t => ?_⟩
      rw [List.cons_append, eat_bind_cons, if_neg hd]
      exact hall t

theorem OpenEnded.eat_bind (ht : OpenEnded (g true)) (hf : OpenEnded (g false))
    (hw : Wants (g false)) : OpenEnded (eat c >>= g) := by
  rintro ⟨s, m⟩ b r' h
  cases s with
  | nil => exact (hw h).elim
  | cons d s =>
    rw [eat_bind_cons] at h
    by_cases hd : d = c
    · rw [if_pos hd] at h
      obtain ⟨used, hu, hall⟩ := ht h
      refine ⟨d :: used, congrArg (d :: ·) hu, fun hne t hh => ?_⟩
      rw [List.cons_append, eat_bind_cons, if_pos hd, hall hne t hh]
    · rw [if_neg hd] at h
      obtain ⟨used, hu, hall⟩ := hf h
      refine ⟨used, hu, fun hne t hh => ?_⟩
      obtain ⟨s', hs'⟩ : ∃ s', used ++ t = d :: s' := by
        rw [← List.head?_eq_some_iff, List.head?_append, hh, ← List.head?_append, ← hu]
        rfl
      rw [hs', eat_bind_cons, if_neg hd, ← hs', hall hne t hh]

theorem Wants.eat_bind (hw : Wants (g false)) : Wants (eat c >>= g) := fun _ _ _ h => hw h

end Parser

end Parsing
