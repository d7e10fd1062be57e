import Mathlib.Data.Nat.ModEq
import Mathlib.Logic.Function.Iterate

/-!
# A wheel of numbers

The numbers from 1 to `p`, each followed by the next one and the last one by 1.

* `interval p n len`: the `len` numbers that follow each other from `n` on. It
  loses its first number (`interval_succ`), and gains the one after its last
  (`interval_succ'`);
* `iterate_next`: the number `k` steps on;
* `mem_interval_full`: an interval of length `p` has all numbers, and a shorter
  one has neither the number that comes after it nor the one before it
  (`eq_of_iterate_mem_interval`, `not_mem_interval_next`).
-/

namespace Wheel

/-- The number after `n`. -/
def next (p n : ℕ) : ℕ := if n < p then n + 1 else 1

/-- The `len` numbers that follow each other from `n` on. -/
def interval (p : ℕ) : ℕ → ℕ → List ℕ
  | _, 0 => []
  | n, len + 1 => n :: interval p (next p n) len

variable {p n m k len : ℕ}

@[simp] theorem interval_zero : interval p n 0 = [] := rfl

@[simp] theorem interval_succ : interval p n (len + 1) = n :: interval p (next p n) len := rfl

theorem one_le_next : 1 ≤ next p n := by
  unfold next
  split
  · exact Nat.succ_pos n
  · exact le_rfl

theorem next_le (hp : 1 ≤ p) : next p n ≤ p := by
  unfold next
  split
  · assumption
  · exact hp

/-- The number `k` steps on. -/
theorem iterate_next (h : 1 ≤ n) (hn : n ≤ p) (k : ℕ) :
    (next p)^[k] n = (n - 1 + k) % p + 1 := by
  induction k with
  | zero =>
    have hlt : n - 1 + 0 < p := by omega
    rw [Function.iterate_zero_apply, Nat.mod_eq_of_lt hlt, Nat.add_zero, Nat.sub_add_cancel h]
  | succ k ih =>
    have hp : 0 < p := h.trans hn
    have hlt := Nat.mod_lt (n - 1 + k) hp
    rw [Function.iterate_succ_apply', ih, next, ← Nat.add_assoc, Nat.add_mod (n - 1 + k) 1]
    split
    · next hs =>
      have hp₁ : 1 % p = 1 := Nat.mod_eq_of_lt (by omega)
      rw [hp₁, Nat.mod_eq_of_lt hs]
    · next hs =>
      -- the number is `p`, and the next one is 1
      have he : (n - 1 + k) % p = p - 1 := by omega
      rw [he, ← Nat.add_mod_mod, Nat.mod_mod, Nat.add_mod_mod, Nat.sub_add_cancel hp, Nat.mod_self]

theorem one_le_iterate_next (h : 1 ≤ n) (k : ℕ) : 1 ≤ (next p)^[k] n := by
  cases k with
  | zero => exact h
  | succ k =>
    rw [Function.iterate_succ_apply']
    exact one_le_next

theorem iterate_next_le (h : 1 ≤ n) (hn : n ≤ p) (k : ℕ) : (next p)^[k] n ≤ p := by
  rw [iterate_next h hn]
  exact Nat.mod_lt _ (h.trans hn)

/-- After `p` steps, every number is back. -/
theorem iterate_next_self (h : 1 ≤ n) (hn : n ≤ p) : (next p)^[p] n = n := by
  rw [iterate_next h hn, Nat.add_mod_right, Nat.mod_eq_of_lt (by omega)]
  omega

/-- Every number is reached, after a step at least. -/
theorem exists_iterate_next (h : 1 ≤ n) (hn : n ≤ p) (hm : 1 ≤ m) (hm' : m ≤ p) :
    ∃ k, 1 ≤ k ∧ k ≤ p ∧ (next p)^[k] n = m := by
  rcases Nat.lt_or_ge n m with hlt | hge
  · refine ⟨m - n, by omega, by omega, ?_⟩
    rw [iterate_next h hn, Nat.mod_eq_of_lt (by omega)]
    omega
  · refine ⟨p + m - n, by omega, by omega, ?_⟩
    have he : n - 1 + (p + m - n) = m - 1 + p := by omega
    rw [iterate_next h hn, he, Nat.add_mod_right, Nat.mod_eq_of_lt (by omega)]
    omega

theorem mem_interval : m ∈ interval p n len ↔ ∃ k < len, m = (next p)^[k] n := by
  induction len generalizing n with
  | zero => simp
  | succ len ih =>
    rw [interval_succ, List.mem_cons, ih]
    constructor
    · rintro (rfl | ⟨k, hk, rfl⟩)
      · exact ⟨0, Nat.succ_pos len, rfl⟩
      · exact ⟨k + 1, Nat.succ_lt_succ hk, rfl⟩
    · rintro ⟨k, hk, rfl⟩
      cases k with
      | zero => exact .inl rfl
      | succ k => exact .inr ⟨k, Nat.lt_of_succ_lt_succ hk, rfl⟩

theorem bounds_of_mem_interval (h : 1 ≤ n) (hn : n ≤ p) (hm : m ∈ interval p n len) :
    1 ≤ m ∧ m ≤ p := by
  obtain ⟨k, -, rfl⟩ := mem_interval.1 hm
  exact ⟨one_le_iterate_next h k, iterate_next_le h hn k⟩

/-- The interval that goes one number further. -/
theorem interval_succ' (p n len : ℕ) :
    interval p n (len + 1) = interval p n len ++ [(next p)^[len] n] := by
  induction len generalizing n with
  | zero => rfl
  | succ len ih => rw [interval_succ, ih, interval_succ, List.cons_append,
      Function.iterate_succ_apply]

/-- An interval as long as the wheel has all its numbers. -/
theorem mem_interval_full (h : 1 ≤ n) (hn : n ≤ p) : m ∈ interval p n p ↔ 1 ≤ m ∧ m ≤ p := by
  refine ⟨bounds_of_mem_interval h hn, fun ⟨hm, hm'⟩ => mem_interval.2 ?_⟩
  obtain ⟨k, hk, hkp, rfl⟩ := exists_iterate_next h hn hm hm'
  rcases Nat.lt_or_ge k p with hlt | hge
  · exact ⟨k, hlt, rfl⟩
  · refine ⟨0, h.trans hn, ?_⟩
    rw [Nat.le_antisymm hkp hge]
    exact iterate_next_self h hn

/-- Two numbers of steps that lead to the same number differ by whole rounds. -/
theorem modEq_of_iterate_next (h : 1 ≤ n) (hn : n ≤ p) {i j : ℕ}
    (he : (next p)^[i] n = (next p)^[j] n) : i ≡ j [MOD p] := by
  rw [iterate_next h hn, iterate_next h hn, Nat.add_right_cancel_iff] at he
  exact Nat.ModEq.add_left_cancel' (n - 1) he

/-- Only an interval as long as the wheel has the number that comes after it. -/
theorem eq_of_iterate_mem_interval (h : 1 ≤ n) (hn : n ≤ p) (hl : len ≤ p)
    (hm : (next p)^[len] n ∈ interval p n len) : len = p := by
  obtain ⟨k, hk, he⟩ := mem_interval.1 hm
  have hd : p ∣ len - k := (Nat.modEq_iff_dvd' hk.le).1 (modEq_of_iterate_next h hn he.symm)
  have hle : p ≤ len - k := Nat.le_of_dvd (Nat.sub_pos_of_lt hk) hd
  exact Nat.le_antisymm hl (hle.trans (Nat.sub_le len k))

/-- An interval shorter than the wheel does not come back to the number before it. -/
theorem not_mem_interval_next (h : 1 ≤ n) (hn : n ≤ p) (hl : len < p) :
    n ∉ interval p (next p n) len := by
  intro hm
  obtain ⟨k, hk, he⟩ := mem_interval.1 hm
  have he : (next p)^[0] n = (next p)^[k + 1] n := he
  have hd : p ∣ k + 1 := (Nat.modEq_iff_dvd' (Nat.zero_le _)).1 (modEq_of_iterate_next h hn he)
  exact absurd (Nat.le_of_dvd (Nat.succ_pos k) hd) (by omega)

end Wheel
