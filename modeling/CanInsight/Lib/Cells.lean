import Mathlib.Algebra.Group.Nat.Defs
import Mathlib.Algebra.Ring.Int.Defs
import Mathlib.Data.List.Basic
import Mathlib.Logic.Function.Basic

/-!
# Numbers in a memory of bytes

A number is put as bytes, the least significant one first, and got back from as many bytes or
from fewer. A layout gives each cell a place of its own, with room for what is put there.

* `Layout.read_put`: through a layout, a memory is a family of numbers, and putting is updating
  it;
* `Torn`: a put that was cut, where each byte is the old or the new one;
* `Layout.read_torn`: it leaves the other cells alone;
* `Layout.torn_iff`: it is as good as none or a whole one, whenever it is cut, if and only if no
  two bytes of the old and of the new number differ.
-/

namespace Cells

abbrev Memory := ℕ → UInt8

/-- A byte of a number. -/
def byte (n k : ℕ) : UInt8 := .ofNat (n / 256 ^ k)

/-- The number in some bytes. -/
def get (m : Memory) : ℕ → ℕ → ℕ
  | _, 0 => 0
  | loc, len + 1 => (m loc).toNat + 256 * get m (loc + 1) len

/-- Putting a number in some bytes. -/
def put (loc len n : ℕ) (m : Memory) : Memory :=
  fun a => if loc ≤ a ∧ a < loc + len then byte n (a - loc) else m a

/-- A put that was cut: some of its bytes have been put, in whatever order it puts them. -/
def Torn (loc len n : ℕ) (m m' : Memory) : Prop := ∀ a, m' a = m a ∨ m' a = put loc len n m a

variable {m m' : Memory} {loc len n k : ℕ}

@[simp] theorem toNat_byte (n k : ℕ) : (byte n k).toNat = n / 256 ^ k % 256 :=
  UInt8.toNat_ofNat'

theorem byte_div (n k : ℕ) : byte (n / 256) k = byte n (k + 1) := by
  rw [byte, byte, Nat.div_div_eq_div_mul, Nat.pow_succ, Nat.mul_comm]

/-- What is got is what the bytes are of. -/
theorem get_of_bytes (h : ∀ k < len, m (loc + k) = byte n k) : get m loc len = n % 256 ^ len := by
  induction len generalizing loc n with
  | zero => rw [get, Nat.pow_zero, Nat.mod_one]
  | succ len ih =>
    have hfirst : m loc = byte n 0 := h 0 (Nat.succ_pos len)
    have hrest : get m (loc + 1) len = n / 256 % 256 ^ len := ih fun k hk => by
      rw [byte_div, Nat.add_assoc, Nat.add_comm 1]
      exact h (k + 1) (Nat.succ_lt_succ hk)
    rw [get, hfirst, hrest, toNat_byte, Nat.pow_zero, Nat.div_one, Nat.pow_succ,
      Nat.mul_comm (256 ^ len), Nat.mod_mul]

theorem get_congr (h : ∀ k < len, m (loc + k) = m' (loc + k)) : get m loc len = get m' loc len := by
  induction len generalizing loc with
  | zero => rfl
  | succ len ih =>
    have hfirst : m loc = m' loc := h 0 (Nat.succ_pos len)
    rw [get, get, hfirst, ih fun k hk => by
      rw [Nat.add_assoc, Nat.add_comm 1]
      exact h (k + 1) (Nat.succ_lt_succ hk)]

theorem get_lt (m : Memory) (loc len : ℕ) : get m loc len < 256 ^ len := by
  induction len generalizing loc with
  | zero => exact Nat.one_pos
  | succ len ih =>
    have hfirst : (m loc).toNat < 256 := UInt8.toNat_lt (m loc)
    have hrest := ih (loc + 1)
    rw [get, Nat.pow_succ]
    omega

theorem byte_get (h : k < len) : byte (get m loc len) k = m (loc + k) := by
  induction len generalizing loc k with
  | zero => exact absurd h (Nat.not_lt_zero k)
  | succ len ih =>
    have hlt : (m loc).toNat < 256 := UInt8.toNat_lt (m loc)
    cases k with
    | zero =>
      refine UInt8.toNat_inj.1 ?_
      rw [toNat_byte, get, Nat.pow_zero, Nat.div_one, Nat.add_zero loc]
      omega
    | succ k =>
      have hdiv : get m loc (len + 1) / 256 = get m (loc + 1) len := by
        rw [get]
        omega
      rw [← byte_div, hdiv, ih (Nat.lt_of_succ_lt_succ h), Nat.add_assoc, Nat.add_comm 1]

theorem put_of_mem (h : k < len) : put loc len n m (loc + k) = byte n k := by
  rw [put, if_pos ⟨Nat.le_add_right loc k, Nat.add_lt_add_left h loc⟩, Nat.add_sub_cancel_left]

/-! ## Layouts -/

/-- Where the cells are: of each, as many bytes are got as it is wide, and as many can be put as
    it has room for. -/
structure Layout (ι : Type*) where
  loc : ι → ℕ
  width : ι → ℕ
  room : ι → ℕ
  apart : ∀ {i j}, i ≠ j → loc i + room i ≤ loc j ∨ loc j + width j ≤ loc i

namespace Layout

variable {ι : Type*} (L : Layout ι)

/-- The numbers in the cells. -/
def read (m : Memory) (i : ι) : ℕ := get m (L.loc i) (L.width i)

/-- A number that is put in a cell, which has room for it. -/
structure Put where
  cell : ι
  len : ℕ
  value : ℕ
  wide : L.width cell ≤ len
  fits : len ≤ L.room cell

variable {L} {m m' : Memory} {i : ι}

namespace Put

variable (p : L.Put)

/-- The memory after it. -/
def put (m : Memory) : Memory := Cells.put (L.loc p.cell) p.len p.value m

/-- The memory after it, if it was cut. -/
def Torn (m m' : Memory) : Prop := Cells.Torn (L.loc p.cell) p.len p.value m m'

/-- The number that is got from the cell afterwards. -/
def number : ℕ := p.value % 256 ^ L.width p.cell

end Put

variable {p : L.Put}

/-- The bytes of another cell are none of those that are put. -/
theorem put_apart (hi : i ≠ p.cell) {k : ℕ} (hk : k < L.width i) :
    p.put m (L.loc i + k) = m (L.loc i + k) := by
  have hne : ¬ (L.loc p.cell ≤ L.loc i + k ∧ L.loc i + k < L.loc p.cell + p.len) := by
    have hfits := p.fits
    rcases L.apart hi.symm with h | h <;> omega
  rw [Put.put, Cells.put, if_neg hne]

/-- A cut put leaves the other cells alone. -/
theorem read_torn (h : p.Torn m m') (hi : i ≠ p.cell) : L.read m' i = L.read m i := by
  refine get_congr fun k hk => ?_
  rcases h (L.loc i + k) with h | h
  · exact h
  · exact h.trans (put_apart hi hk)

theorem byte_number (p : L.Put) {k : ℕ} (hk : k < L.width p.cell) :
    byte p.number k = byte p.value k := by
  have hpow : 256 ^ L.width p.cell = 256 ^ k * 256 * 256 ^ (L.width p.cell - k - 1) := by
    rw [← Nat.pow_succ, ← Nat.pow_add]
    congr 1
    omega
  refine UInt8.toNat_inj.1 ?_
  rw [toNat_byte, toNat_byte, Put.number, hpow, Nat.mul_assoc, Nat.mod_mul_right_div_self,
    Nat.mod_mul_right_mod]

/-- Whenever a put is cut, the old or the new number is in its cell, if and only if these do not
    differ in two bytes. -/
theorem torn_iff (p : L.Put) (m : Memory) :
    (∀ m', p.Torn m m' → L.read m' p.cell = L.read m p.cell ∨ L.read m' p.cell = p.number) ↔
      ∀ j < L.width p.cell, ∀ k < L.width p.cell,
        byte (L.read m p.cell) j ≠ byte p.value j → byte (L.read m p.cell) k ≠ byte p.value k →
          j = k := by
  constructor
  · intro h j hj k hk hnej hnek
    by_contra hjk
    -- a put that was cut when it had put the `j`-th byte only
    let m' : Memory := fun a => if a = L.loc p.cell + j then byte p.value j else m a
    have hj' : byte (L.read m' p.cell) j = byte p.value j := by
      rw [read, byte_get hj]
      exact if_pos rfl
    have hk' : byte (L.read m' p.cell) k = byte (L.read m p.cell) k := by
      rw [read, read, byte_get hk, byte_get hk]
      exact if_neg (by omega)
    have htorn : p.Torn m m' := by
      intro a
      by_cases ha : a = L.loc p.cell + j
      · subst ha
        exact .inr ((if_pos rfl).trans (put_of_mem (Nat.lt_of_lt_of_le hj p.wide)).symm)
      · exact .inl (if_neg ha)
    rcases h m' htorn with hold | hnew
    · exact hnej (hold ▸ hj')
    · rw [hnew, byte_number p hk] at hk'
      exact hnek hk'.symm
  · intro h m' htorn
    by_cases hsame : ∀ k < L.width p.cell, m' (L.loc p.cell + k) = m (L.loc p.cell + k)
    · exact .inl (get_congr hsame)
    · push Not at hsame
      obtain ⟨j, hj, hne⟩ := hsame
      have hput {k : ℕ} (hk : k < L.width p.cell) :
          Cells.put (L.loc p.cell) p.len p.value m (L.loc p.cell + k) = byte p.value k :=
        put_of_mem (Nat.lt_of_lt_of_le hk p.wide)
      have hold {k : ℕ} (hk : k < L.width p.cell) :
          byte (L.read m p.cell) k = m (L.loc p.cell + k) := byte_get hk
      have hnew := ((htorn (L.loc p.cell + j)).resolve_left hne).trans (hput hj)
      refine .inr (get_of_bytes fun k hk => ?_)
      by_cases hk' : byte (L.read m p.cell) k = byte p.value k
      · rcases htorn (L.loc p.cell + k) with hold' | hnew'
        · rw [hold', ← hold hk, hk']
        · rw [hnew', hput hk]
      · rw [← h j hj k hk (by rw [hold hj, ← hnew]; exact hne.symm) hk', hnew]

variable [DecidableEq ι]

/-- A put is an update of one cell. -/
theorem read_put (p : L.Put) (m : Memory) :
    L.read (p.put m) = Function.update (L.read m) p.cell p.number := by
  funext i
  by_cases hi : i = p.cell
  · subst hi
    rw [Function.update_self]
    exact get_of_bytes fun k hk => put_of_mem (Nat.lt_of_lt_of_le hk p.wide)
  · rw [Function.update_of_ne hi]
    exact get_congr fun k hk => put_apart hi hk

end Layout

end Cells
