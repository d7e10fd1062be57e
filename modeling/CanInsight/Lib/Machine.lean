import Mathlib.Data.List.Basic

/-!
# Guarded runs of partial machines

A machine is a partial step function on states: `step s a` is the state after
the action `a`, and `none` when the action is not offered at `s` or does not
return. A *guard* is a condition on a state and the action about to be taken in
it, and a run is *guarded* when each of its steps meets the guard (`Run`).

* `Run.invariant`: what one guarded step preserves holds at the end of a run;
* `run_iff_foldlM`: a run is computed by a fold, where its guard can be decided;
* `run_append_iff`: runs are cut and joined at any action;
* `Run.unique`: the actions determine the state at the end;
* `Run.simulates`: a run of a machine is followed by a run of an abstract one, and
  `Run.refines` where a step may be followed by none or by several;
* `Run.of_final`: what steps reflect, a run reflects from its end.
-/

/-- A partial step function on the states `S`, labelled by the actions `A`. -/
structure Machine (S A : Type*) where
  /-- The state after an action, if the action is offered and returns. -/
  step : S → A → Option S

namespace Machine

variable {S A T B : Type*} (m : Machine S A) (G : S → A → Prop)

/-- The guard that every step meets. -/
def Free : S → A → Prop := fun _ _ => True

instance (s : S) (a : A) : Decidable (Free s a) := .isTrue trivial

/-- A run from a state, over a list of actions, to a state: each action is
    taken in a state that meets the guard, and returns. -/
inductive Run : S → List A → S → Prop
  | nil (s : S) : Run s [] s
  | cons {s t u : S} {a : A} {as : List A} :
      G s a → m.step s a = some t → Run t as u → Run s (a :: as) u

/-- The states that guarded runs from `s` end in. -/
def Reachable (s t : S) : Prop := ∃ as, m.Run G s as t

variable {m G} {s t u : S} {a : A} {as bs : List A}

theorem Run.single (hg : G s a) (h : m.step s a = some t) : m.Run G s [a] t :=
  .cons hg h (.nil t)

theorem Run.append (h : m.Run G s as t) (h' : m.Run G t bs u) : m.Run G s (as ++ bs) u := by
  induction h with
  | nil => exact h'
  | cons hg hs _ ih => exact .cons hg hs (ih h')

theorem run_cons_iff :
    m.Run G s (a :: as) u ↔ ∃ t, G s a ∧ m.step s a = some t ∧ m.Run G t as u := by
  constructor
  · rintro (_ | ⟨hg, hs, hr⟩)
    exact ⟨_, hg, hs, hr⟩
  · rintro ⟨t, hg, hs, hr⟩
    exact .cons hg hs hr

/-- The step, if the guard is met. -/
def guarded (m : Machine S A) (G : S → A → Prop) [∀ s a, Decidable (G s a)] (s : S) (a : A) :
    Option S :=
  if G s a then m.step s a else none

/-- A run is what folding the guarded steps over the actions computes. -/
theorem run_iff_foldlM [∀ s a, Decidable (G s a)] :
    m.Run G s as t ↔ as.foldlM (m.guarded G) s = some t := by
  induction as generalizing s with
  | nil =>
    constructor
    · rintro ⟨⟩
      rfl
    · intro h
      cases h
      exact .nil _
  | cons a as ih =>
    rw [run_cons_iff, List.foldlM_cons, Option.bind_eq_bind, Option.bind_eq_some_iff]
    refine exists_congr fun u => ?_
    rw [ih, guarded, Option.ite_none_right_eq_some, and_assoc]

theorem run_free_iff : m.Run Free s as t ↔ as.foldlM m.step s = some t := by
  have hstep : m.guarded Free = m.step := funext₂ fun s a => if_pos trivial
  rw [run_iff_foldlM, hstep]

/-- A run that is computed ends in a state with all that is computed of it. -/
theorem exists_run_of_any [∀ s a, Decidable (G s a)] {P : S → Prop} [DecidablePred P]
    (h : (as.foldlM (m.guarded G) s).any P = true) : ∃ t, m.Run G s as t ∧ P t := by
  obtain ⟨t, ht, hp⟩ := (Option.any_eq_true _ _).1 h
  exact ⟨t, run_iff_foldlM.2 ht, of_decide_eq_true hp⟩

/-- A run over two lists of actions goes through a state between them. -/
theorem run_append_iff : m.Run G s (as ++ bs) u ↔ ∃ t, m.Run G s as t ∧ m.Run G t bs u := by
  constructor
  · intro h
    induction as generalizing s with
    | nil => exact ⟨s, .nil s, h⟩
    | cons a as ih =>
      cases h with
      | cons hg hs hr =>
        obtain ⟨t, h, h'⟩ := ih hr
        exact ⟨t, .cons hg hs h, h'⟩
  · rintro ⟨t, h, h'⟩
    exact h.append h'

/-- The actions determine the state in which a run ends, whatever the guards. -/
theorem Run.unique {G' : S → A → Prop} (h : m.Run G s as t) (h' : m.Run G' s as u) : t = u := by
  induction h with
  | nil =>
    cases h'
    rfl
  | cons _ hs _ ih =>
    cases h' with
    | cons _ hs' hr =>
      cases hs.symm.trans hs'
      exact ih hr

/-- A weaker guard admits the runs of a stronger one. -/
theorem Run.weaken {G' : S → A → Prop} (hG : ∀ s a, G s a → G' s a) (h : m.Run G s as t) :
    m.Run G' s as t := by
  induction h with
  | nil => exact .nil _
  | cons hg hs _ ih => exact .cons (hG _ _ hg) hs ih

/-- A guard on the actions alone is met by those of a list. -/
theorem Run.guard {P : A → Prop} (hP : ∀ a ∈ as, P a) (h : m.Run G s as t) :
    m.Run (fun s a => G s a ∧ P a) s as t := by
  induction h with
  | nil => exact .nil _
  | cons hg hs _ ih =>
    obtain ⟨ha, has⟩ := List.forall_mem_cons.1 hP
    exact .cons ⟨hg, ha⟩ hs (ih has)

theorem run_congr {G' : S → A → Prop} (hG : ∀ s a, G s a ↔ G' s a) :
    m.Run G s as t ↔ m.Run G' s as t :=
  ⟨Run.weaken fun s a => (hG s a).1, Run.weaken fun s a => (hG s a).2⟩

/-- A property of states that every guarded step preserves is an invariant. -/
theorem Run.invariant {P : S → Prop}
    (hstep : ∀ {s a t}, P s → G s a → m.step s a = some t → P t)
    (h : m.Run G s as t) (hs : P s) : P t := by
  induction h with
  | nil => exact hs
  | cons hg hst _ ih => exact ih (hstep hs hg hst)

/-- Forward simulation: if every guarded step from related states is matched by a
    step of the abstract machine `n`, under an action with the same label, then
    every guarded run is matched by a run. -/
theorem Run.simulates {n : Machine T B} {f : B → A} {R : S → T → Prop}
    (hstep : ∀ {s a t x}, R s x → G s a → m.step s a = some t →
      ∃ b y, f b = a ∧ n.step x b = some y ∧ R t y)
    (h : m.Run G s as t) {x : T} (hx : R s x) :
    ∃ bs y, bs.map f = as ∧ n.Run Free x bs y ∧ R t y := by
  induction h generalizing x with
  | nil => exact ⟨[], x, rfl, .nil x, hx⟩
  | cons hg hst _ ih =>
    obtain ⟨b, y, hb, hy, hR⟩ := hstep hx hg hst
    obtain ⟨bs, z, hbs, hz, hR'⟩ := ih hR
    exact ⟨b :: bs, z, by rw [List.map_cons, hb, hbs], .cons trivial hy hz, hR'⟩

/-- Forward simulation, where each guarded step is matched by a run of the abstract
    machine. -/
theorem Run.refines {n : Machine T B} {R : S → T → Prop}
    (hstep : ∀ {s a t x}, R s x → G s a → m.step s a = some t →
      ∃ bs y, n.Run Free x bs y ∧ R t y)
    (h : m.Run G s as t) {x : T} (hx : R s x) : ∃ bs y, n.Run Free x bs y ∧ R t y := by
  induction h generalizing x with
  | nil => exact ⟨[], x, .nil x, hx⟩
  | cons hg hst _ ih =>
    obtain ⟨bs, y, hy, hR⟩ := hstep hx hg hst
    obtain ⟨cs, z, hz, hR'⟩ := ih hR
    exact ⟨bs ++ cs, z, hy.append hz, hR'⟩

/-- What the last state of a run satisfies holds after each of its steps, if each
    step reflects it. -/
theorem Run.of_final {P : S → Prop}
    (hback : ∀ {s a t}, m.step s a = some t → P t → P s)
    (h : m.Run G s as t) (ht : P t) :
    P s ∧ m.Run (fun s a => G s a ∧ ∀ t, m.step s a = some t → P t) s as t := by
  induction h with
  | nil s => exact ⟨ht, .nil s⟩
  | cons hg hst _ ih =>
    obtain ⟨hP, hr⟩ := ih ht
    refine ⟨hback hst hP, .cons ⟨hg, fun u hu => ?_⟩ hst hr⟩
    cases hst.symm.trans hu
    exact hP

theorem Reachable.refl (s : S) : m.Reachable G s s := ⟨[], .nil s⟩

theorem Reachable.step (h : m.Reachable G s t) (hg : G t a) (hs : m.step t a = some u) :
    m.Reachable G s u := by
  obtain ⟨as, h⟩ := h
  exact ⟨as ++ [a], h.append (.single hg hs)⟩

end Machine
