import Mathlib.Logic.Function.Iterate
import Mathlib.Data.Nat.Find

/-!
# While loops

A loop takes a round, its body, as long as its guard holds. It need not end, so
it is run with fuel (`whileLoop`), and `none` is a loop that is still going when
the fuel runs out.

* `LeavesAfter`: the guard holds before each of `k` rounds, and not after them;
* `whileLoop_eq_some_iff`: a run of the loop ends after the rounds it is left
  after;
* `exists_whileLoop_iff`: with some fuel the loop ends if and only if its guard
  fails at some time.
-/

namespace Loop

variable {S : Type*} (guard : S → Prop) [DecidablePred guard] (body : S → S)

/-- The state in which the loop ends, if the fuel suffices for it. -/
def whileLoop : ℕ → S → Option S
  | 0, _ => none
  | fuel + 1, s => if guard s then whileLoop fuel (body s) else some s

/-- The guard holds before each of `k` rounds, and fails after them. -/
def LeavesAfter (k : ℕ) (s : S) : Prop :=
  (∀ j < k, guard (body^[j] s)) ∧ ¬ guard (body^[k] s)

variable {guard body} {fuel k k' n : ℕ} {s t : S}

omit [DecidablePred guard] in
theorem leavesAfter_succ_iff :
    LeavesAfter guard body (k + 1) s ↔ guard s ∧ LeavesAfter guard body k (body s) := by
  constructor
  · rintro ⟨hg, hk⟩
    exact ⟨hg 0 (Nat.succ_pos k), fun j hj => hg (j + 1) (Nat.succ_lt_succ hj), hk⟩
  · rintro ⟨hs, hg, hk⟩
    refine ⟨fun j hj => ?_, hk⟩
    cases j with
    | zero => exact hs
    | succ j => exact hg j (Nat.lt_of_succ_lt_succ hj)

omit [DecidablePred guard] in
/-- A loop is left after one number of rounds only. -/
theorem LeavesAfter.unique (h : LeavesAfter guard body k s) (h' : LeavesAfter guard body k' s) :
    k = k' := by
  rcases Nat.lt_trichotomy k k' with hlt | heq | hgt
  · exact absurd (h'.1 k hlt) h.2
  · exact heq
  · exact absurd (h.1 k' hgt) h'.2

/-- A loop whose guard fails at some time is left at the first such time. -/
theorem exists_leavesAfter (h : ¬ guard (body^[k] s)) : ∃ j ≤ k, LeavesAfter guard body j s := by
  have hex : ∃ j, ¬ guard (body^[j] s) := ⟨k, h⟩
  refine ⟨Nat.find hex, Nat.find_min' hex h, fun j hj => ?_, Nat.find_spec hex⟩
  exact not_not.1 (Nat.find_min hex hj)

theorem whileLoop_eq_some_iff :
    whileLoop guard body fuel s = some t ↔
      ∃ k < fuel, LeavesAfter guard body k s ∧ t = body^[k] s := by
  induction fuel generalizing s with
  | zero => simp [whileLoop]
  | succ fuel ih =>
    rw [whileLoop]
    split
    · next hs =>
      rw [ih]
      constructor
      · rintro ⟨k, hk, hl, rfl⟩
        exact ⟨k + 1, Nat.succ_lt_succ hk, leavesAfter_succ_iff.2 ⟨hs, hl⟩, rfl⟩
      · rintro ⟨k, hk, hl, rfl⟩
        cases k with
        | zero => exact absurd hs hl.2
        | succ k => exact ⟨k, Nat.lt_of_succ_lt_succ hk, (leavesAfter_succ_iff.1 hl).2, rfl⟩
    · next hs =>
      constructor
      · intro h
        cases h
        exact ⟨0, Nat.succ_pos fuel, ⟨fun j hj => absurd hj (Nat.not_lt_zero j), hs⟩, rfl⟩
      · rintro ⟨k, -, hl, rfl⟩
        cases k with
        | zero => rfl
        | succ k => exact absurd (leavesAfter_succ_iff.1 hl).1 hs

/-- With some fuel the loop ends if and only if its guard fails at some time. -/
theorem exists_whileLoop_iff :
    (∃ fuel t, whileLoop guard body fuel s = some t) ↔ ∃ k, ¬ guard (body^[k] s) := by
  constructor
  · rintro ⟨fuel, t, h⟩
    obtain ⟨k, -, hl, -⟩ := whileLoop_eq_some_iff.1 h
    exact ⟨k, hl.2⟩
  · rintro ⟨k, hk⟩
    obtain ⟨j, -, hl⟩ := exists_leavesAfter hk
    exact ⟨j + 1, _, whileLoop_eq_some_iff.2 ⟨j, Nat.lt_succ_self j, hl, rfl⟩⟩

end Loop
