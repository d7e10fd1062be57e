import Mathlib.Algebra.Group.Nat.Defs
import Mathlib.Algebra.Ring.Int.Defs
import Mathlib.Data.Int.Notation
import Mathlib.Data.List.Basic
import Mathlib.Data.List.TakeWhile

/-!
# Character arrays and decimal printing

What a C program does with a fixed array of characters: a text is printed into
it from some offset on, with its terminator (`putAt`), and the array is read
back as the text before the first terminator (`toText`). The numbers printed
are decimals padded with zeros (`zeroPad`, the conversion `%0wd`), or hexadecimals
(`hexPad`, the conversion `%0.wX`).

The counters of such a program have a fixed width: `u16` and `u32` wrap a
natural number the way an unsigned assignment does, and `i32` reads 32 bits as
a signed number, which is what `%d` prints.
-/

namespace CString

/-- The terminator of a C string. -/
def nul : Char := Char.ofNat 0

/-- The C string in a character array: what stands before the first terminator. -/
def toText (buf : List Char) : List Char := buf.takeWhile (· ≠ nul)

/-- Printing a text, and its terminator, into an array from the offset `i` on. -/
def putAt (i : ℕ) (text buf : List Char) : List Char :=
  buf.take i ++ text ++ nul :: buf.drop (i + text.length + 1)

/-- The decimal `n` padded with zeros to the width `w`. -/
def zeroPad (w n : ℕ) : List Char := (Nat.toDigits 10 n).leftpad w '0'

/-- The hexadecimal `n` in capitals, padded with zeros to the width `w`. -/
def hexPad (w n : ℕ) : List Char := ((Nat.toDigits 16 n).map Char.toUpper).leftpad w '0'

/-- Assignment to a 16-bit unsigned variable. -/
def u16 (n : ℕ) : ℕ := n % 2 ^ 16

/-- Assignment to a 32-bit unsigned variable. -/
def u32 (n : ℕ) : ℕ := n % 2 ^ 32

/-- The signed reading of 32 bits. -/
def i32 (n : ℕ) : ℤ := if u32 n < 2 ^ 31 then (u32 n : ℤ) else (u32 n : ℤ) - 2 ^ 32

/-- The numbers that 32 bits can be read as. -/
def IsI32 (n : ℤ) : Prop := -2 ^ 31 ≤ n ∧ n < 2 ^ 31

instance (n : ℤ) : Decidable (IsI32 n) := inferInstanceAs (Decidable (_ ∧ _))

/-- The conversion `%d`. -/
def decimal (i : ℤ) : List Char := (toString i).toList

theorem u16_of_lt {n : ℕ} (h : n < 2 ^ 16) : u16 n = n := Nat.mod_eq_of_lt h

theorem u32_lt (n : ℕ) : u32 n < 2 ^ 32 := Nat.mod_lt _ (by decide)

theorem isI32_i32 (n : ℕ) : IsI32 (i32 n) := by
  have h := u32_lt n
  rw [IsI32, i32]
  split <;> omega

theorem isI32_natCast {n : ℕ} (h : n < 2 ^ 31) : IsI32 n := by
  rw [IsI32]
  omega

theorem i32_eq_iff {n : ℕ} (h : n < 2 ^ 32) : i32 n = n ↔ n < 2 ^ 31 := by
  rw [i32, u32, Nat.mod_eq_of_lt h]
  split <;> omega

/-- A text without terminators, read back from the start of an array. -/
theorem toText_append (text rest : List Char) (h : ∀ c ∈ text, c ≠ nul) :
    toText (text ++ nul :: rest) = text := by
  rw [toText, List.takeWhile_append_of_pos fun c hc => by simp [h c hc]]
  simp

/-- The text begins with the characters before the first terminator. -/
theorem toText_cons_eq_cons {c c' : Char} {t t' : List Char} :
    toText (c :: t) = c' :: t' ↔ c ≠ nul ∧ c = c' ∧ toText t = t' := by
  by_cases hc : c = nul
  · simp [toText, hc]
  · simp [toText, hc]

theorem length_toText_le (t : List Char) : (toText t).length ≤ t.length :=
  (List.takeWhile_prefix _).length_le

theorem ne_nul_of_mem_toText {t : List Char} {c : Char} (h : c ∈ toText t) : c ≠ nul := by
  have hc := List.mem_takeWhile_imp h
  exact of_decide_eq_true hc

theorem toText_append_nul (t : List Char) : toText (t ++ [nul]) = toText t := by
  induction t with
  | nil => rfl
  | cons c t ih =>
    rw [toText, toText] at ih ⊢
    rw [List.cons_append, List.takeWhile_cons, List.takeWhile_cons, ih]

/-- A text without terminators is read as it is. -/
theorem toText_self {t : List Char} (h : nul ∉ t) : toText t = t := by
  rw [toText, List.takeWhile_eq_self_iff]
  exact fun c hc => decide_eq_true (ne_of_mem_of_not_mem hc h)

/-- An array no longer than a text is read back as the text only if it is it. -/
theorem toText_eq_iff {t s : List Char} (h : t.length ≤ s.length) (hs : ∀ c ∈ s, c ≠ nul) :
    toText t = s ↔ t = s := by
  constructor
  · intro ht
    have hp : s <+: t := ht ▸ List.takeWhile_prefix _
    exact (hp.eq_of_length_le h).symm
  · rintro rfl
    exact toText_self fun h => hs nul h rfl

/-! ## Padded decimals -/

theorem zeroPad_one {n : ℕ} (h : n < 10) : zeroPad 1 n = [n.digitChar] := by
  rw [zeroPad, Nat.toDigits_of_lt_base h]
  rfl

/-- The last digit of a padded decimal, and the rest. -/
theorem zeroPad_succ {w n : ℕ} (hw : 0 < w) :
    zeroPad (w + 1) n = zeroPad w (n / 10) ++ [(n % 10).digitChar] := by
  by_cases h : n < 10
  · have hd : n / 10 = 0 := Nat.div_eq_of_lt h
    rw [zeroPad, zeroPad, hd, Nat.mod_eq_of_lt h, Nat.toDigits_of_lt_base h, Nat.toDigits_zero]
    obtain ⟨w, rfl⟩ : ∃ v, w = v + 1 := ⟨w - 1, by omega⟩
    simp [List.leftpad, ← List.replicate_succ', List.replicate_succ]
  · rw [zeroPad, zeroPad, Nat.toDigits_of_base_le (by decide) (by omega)]
    simp [List.leftpad, Nat.add_sub_add_right]

theorem zeroPad_two {n : ℕ} (h : n < 100) :
    zeroPad 2 n = [(n / 10).digitChar, (n % 10).digitChar] := by
  rw [zeroPad_succ (by decide), zeroPad_one (by omega)]
  rfl

theorem zeroPad_three {n : ℕ} (h : n < 1000) :
    zeroPad 3 n = [(n / 100).digitChar, (n / 10 % 10).digitChar, (n % 10).digitChar] := by
  rw [zeroPad_succ (by decide), zeroPad_two (by omega), Nat.div_div_eq_div_mul]
  rfl

theorem zeroPad_four {n : ℕ} (h : n < 10000) :
    zeroPad 4 n = [(n / 1000).digitChar, (n / 100 % 10).digitChar, (n / 10 % 10).digitChar,
      (n % 10).digitChar] := by
  rw [zeroPad_succ (by decide), zeroPad_three (by omega), Nat.div_div_eq_div_mul,
    Nat.div_div_eq_div_mul]
  rfl

/-- A decimal with more digits than the padding asks for is printed in full. -/
theorem zeroPad_of_le {w v n : ℕ} (hv : v ≤ w) (h : 10 ^ (w - 1) ≤ n) (hw : 1 < w) :
    zeroPad v n = zeroPad w n := by
  have hlen : ¬ (Nat.toDigits 10 n).length ≤ w - 1 := by
    rw [Nat.length_toDigits_le_iff (by decide) (by omega)]
    omega
  have h₁ : w - (Nat.toDigits 10 n).length = 0 := by omega
  have h₂ : v - (Nat.toDigits 10 n).length = 0 := by omega
  simp [zeroPad, List.leftpad, h₁, h₂]

theorem isDigit_of_mem_zeroPad {w n : ℕ} : ∀ c ∈ zeroPad w n, c.isDigit = true := by
  intro c hc
  rw [zeroPad, List.leftpad, List.mem_append] at hc
  rcases hc with hc | hc
  · rw [(List.mem_replicate.1 hc).2]
    rfl
  · exact Nat.isDigit_of_mem_toDigits (by decide) (by decide) hc

theorem length_zeroPad_le {w n : ℕ} (hw : 0 < w) (h : n < 10 ^ w) (v : ℕ) :
    (zeroPad v n).length ≤ max v w := by
  rw [zeroPad, List.length_leftpad]
  have hl := (Nat.length_toDigits_le_iff (by decide) hw).2 h
  omega

theorem length_hexPad_le {w n : ℕ} (hw : 0 < w) (h : n < 16 ^ w) (v : ℕ) :
    (hexPad v n).length ≤ max v w := by
  rw [hexPad, List.length_leftpad, List.length_map]
  have hl := (Nat.length_toDigits_le_iff (by decide) hw).2 h
  omega

/-! ## Decimals -/

theorem decimal_natCast (n : ℕ) : decimal n = Nat.toDigits 10 n := by
  rw [decimal]
  exact Nat.toList_repr

theorem decimal_negSucc (n : ℕ) : decimal (Int.negSucc n) = '-' :: Nat.toDigits 10 (n + 1) := by
  rw [decimal]
  change (_ ++ _ : String).toList = _
  rw [String.toList_append, Nat.toList_repr]
  rfl

/-- A decimal has a sign and digits. -/
theorem mem_decimal {n : ℤ} {c : Char} (h : c ∈ decimal n) : c = '-' ∨ c.isDigit = true := by
  have hdigit {k : ℕ} (hc : c ∈ Nat.toDigits 10 k) : c.isDigit = true :=
    Nat.isDigit_of_mem_toDigits (by decide) (by decide) hc
  cases n with
  | ofNat k =>
    rw [Int.ofNat_eq_natCast, decimal_natCast] at h
    exact .inr (hdigit h)
  | negSucc k =>
    rw [decimal_negSucc, List.mem_cons] at h
    exact h.imp_right hdigit

theorem digitChar_inj {a b : ℕ} (ha : a < 10) (hb : b < 10) (h : a.digitChar = b.digitChar) :
    a = b := by
  rw [← Nat.toNat_digitChar_sub_48_of_lt_ten ha, h, Nat.toNat_digitChar_sub_48_of_lt_ten hb]

theorem digitChar_ne_nul {a : ℕ} (ha : a < 10) : a.digitChar ≠ nul := by
  intro h
  have hn : (a.digitChar).toNat = nul.toNat := by rw [h]
  rw [Nat.toNat_digitChar_of_lt_ten ha] at hn
  have h0 : nul.toNat = 0 := rfl
  omega

end CString
