import CanInsight.Lib.CString

/-!
# Reading numerals

The numerals that a C program prints are read back: `readNumeral b` reads the digits of
a number in a base up to 16, with capital letters for the digits from ten on, and any
zeros before them.
-/

namespace CString

/-- The value of a digit in the base `b`. -/
def digitValue (b : ℕ) (c : Char) : Option ℕ :=
  let v := if c.isDigit then c.toNat - '0'.toNat else c.toNat - 'A'.toNat + 10
  if (c.isDigit ∨ c.isUpper) ∧ v < b then some v else none

/-- The number whose digits follow the number `n`. -/
def readDigits (b n : ℕ) (s : List Char) : Option ℕ :=
  s.foldlM (fun n c => (digitValue b c).map (b * n + ·)) n

/-- The number that a text is the numeral of. -/
def readNumeral (b : ℕ) (s : List Char) : Option ℕ := if s = [] then none else readDigits b 0 s

variable {b d n w : ℕ} {e : Char → Char}

theorem digitValue_digitChar (hd : d < 10) (hb : d < b) : digitValue b d.digitChar = some d := by
  have hc : d.digitChar.toNat - '0'.toNat = d := Nat.toNat_digitChar_sub_48_of_lt_ten hd
  have hdigit : d.digitChar.isDigit = true := by
    have h0 : '0'.toNat = 48 := rfl
    have h9 : '9'.toNat = 57 := rfl
    rw [Char.isDigit_iff_toNat, Nat.toNat_digitChar_of_lt_ten hd]
    omega
  simp only [digitValue, hdigit, if_true, hc, true_or, true_and]
  exact if_pos hb

theorem digitValue_toUpper (hd : d < 16) : digitValue 16 d.digitChar.toUpper = some d := by
  revert d
  decide

/-- The digits of a number come after its number without the last one. -/
theorem readDigits_toDigits (hb : 1 < b) (he : ∀ d < b, digitValue b (e d.digitChar) = some d)
    (n : ℕ) : readDigits b 0 ((Nat.toDigits b n).map e) = some n := by
  induction n using Nat.strongRecOn with
  | _ n ih =>
    rw [Nat.toDigits_eq_if hb]
    split
    · next hn => simp [readDigits, he n hn]
    · next hn =>
      have hlt : n / b < n := Nat.div_lt_self (by omega) hb
      have hlast := he (n % b) (Nat.mod_lt n (by omega))
      have hrest := ih (n / b) hlt
      rw [readDigits] at hrest ⊢
      rw [List.map_append, List.foldlM_append, hrest]
      simp [hlast, Nat.div_add_mod]

/-- Zeros before the digits do not count. -/
theorem readDigits_leftpad (hb : 0 < b) (s : List Char) :
    readDigits b 0 (s.leftpad w '0') = readDigits b 0 s := by
  have hzero : digitValue b '0' = some 0 := digitValue_digitChar (d := 0) (by decide) hb
  rw [List.leftpad]
  induction w - s.length with
  | zero => rfl
  | succ k ih =>
    rw [List.replicate_succ, List.cons_append, readDigits, List.foldlM_cons, hzero]
    exact ih

theorem readNumeral_leftpad (hb : 1 < b) (he : ∀ d < b, digitValue b (e d.digitChar) = some d)
    (w n : ℕ) : readNumeral b (((Nat.toDigits b n).map e).leftpad w '0') = some n := by
  have hne : ((Nat.toDigits b n).map e).leftpad w '0' ≠ [] := by
    rw [List.leftpad]
    exact List.append_ne_nil_of_right_ne_nil _ (by simp)
  rw [readNumeral, if_neg hne, readDigits_leftpad (by omega), readDigits_toDigits hb he]

/-- A padded decimal is read back. -/
theorem readNumeral_zeroPad (w n : ℕ) : readNumeral 10 (zeroPad w n) = some n := by
  have h := readNumeral_leftpad (e := id) (by decide)
    (fun _ hd => digitValue_digitChar hd hd) w n
  rwa [List.map_id] at h

/-- A padded hexadecimal is read back. -/
theorem readNumeral_hexPad (w n : ℕ) : readNumeral 16 (hexPad w n) = some n :=
  readNumeral_leftpad (by decide) (fun _ hd => digitValue_toUpper hd) w n

/-- The digits of a number that is read are digits, or capital letters. -/
theorem isDigit_or_isUpper_of_readDigits {m : ℕ} {s : List Char}
    (h : readDigits b n s = some m) : ∀ c ∈ s, c.isDigit = true ∨ c.isUpper = true := by
  induction s generalizing n with
  | nil => exact fun c hc => absurd hc List.not_mem_nil
  | cons d s ih =>
    rw [readDigits, List.foldlM_cons] at h
    obtain ⟨v, hv, h⟩ := Option.bind_eq_some_iff.1 h
    obtain ⟨v, hd, rfl⟩ := Option.map_eq_some_iff.1 hv
    refine List.forall_mem_cons.2 ⟨?_, ih h⟩
    rw [digitValue] at hd
    exact (Option.ite_none_right_eq_some.1 hd).1.1

theorem isDigit_or_isUpper_of_readNumeral {m : ℕ} {s : List Char}
    (h : readNumeral b s = some m) : ∀ c ∈ s, c.isDigit = true ∨ c.isUpper = true := by
  rw [readNumeral] at h
  exact isDigit_or_isUpper_of_readDigits (Option.ite_none_left_eq_some.1 h).2

end CString
