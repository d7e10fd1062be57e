import CanInsight.LogName
import Mathlib.Data.List.Induction

/-!
# What an array was printed into before

The logger prints the number of each log over the one before, into the one array
`log_file_name`, while `check_sd_free_space` and the uploader begin with fresh arrays. A
number of four digits is printed over the underscore, which no later number brings back.

* `printAll`: the array after some numbers were printed into it, one after the other;
* `shape_printAll`: it has an underscore if and only if no number had four digits;
* `DependsOnLast`: the names that two arrays end up with fit, and tell their last numbers,
  and nothing else, apart;
* `dependsOnLast_iff`: this is so if and only if, in neither of them, a last number of three
  digits comes after one of four.
-/

namespace CanInsight

open CString

/-- `LOG_FILE_NAME_LENGTH`. -/
def logFileNameLength : ℕ := 12

/-- An array that begins as `DEFAULT_LOG_FILE_NAME`, after numbers were printed into it. -/
def printAll (ns : List ℕ) : List Char :=
  ns.foldl (fun buf n => sprintfNumToLogfileName n buf) defaultLogFileName

/-- The name in the array after the numbers `ns` and then `n` were printed into it. -/
def nameAfter (ns : List ℕ) (n : ℕ) : Name := toText (printAll (ns ++ [n]))

/-- The name of a log: numbers printed into an array, one after the other, give it. -/
def IsLog (name : Name) : Prop := ∃ ns, name = toText (printAll ns)

/-- The number `n` has at most three digits, and one before it had more. -/
def AfterFourDigits (ns : List ℕ) (n : ℕ) : Prop := n ≤ 999 ∧ ∃ m ∈ ns, 999 < m

instance (ns : List ℕ) (n : ℕ) : Decidable (AfterFourDigits ns n) :=
  inferInstanceAs (Decidable (_ ∧ _))

/-- The name in an array fits in it. -/
def Fits (buf : List Char) : Prop :=
  buf.length = logFileNameLength ∧ (toText buf).length < logFileNameLength

/-- The names after the numbers `ms` and `m`, and after `ns` and `n`, are those that `m` and
    `n` give in fresh arrays, fit, and are the same only if `m` and `n` are. -/
structure DependsOnLast (ms : List ℕ) (m : ℕ) (ns : List ℕ) (n : ℕ) : Prop where
  left : nameAfter ms m = logName m
  right : nameAfter ns n = logName n
  fitsLeft : Fits (printAll (ms ++ [m]))
  fitsRight : Fits (printAll (ns ++ [n]))
  distinct : nameAfter ms m = nameAfter ns n ↔ m = n

variable {m n : ℕ} {ms ns : List ℕ}

/-! ## The names of numbers of four digits -/

theorem digitChar_ne_underscore {a : ℕ} (ha : a < 10) : a.digitChar ≠ '_' := by
  intro h
  have hn : (a.digitChar).toNat = '_'.toNat := by rw [h]
  rw [Nat.toNat_digitChar_of_lt_ten ha] at hn
  have hu : '_'.toNat = 95 := rfl
  omega

theorem logName_of_four (hn : 1000 ≤ n) (hn' : n < 10000) :
    logName n = ['C', 'A', 'N', (n / 1000).digitChar, (n / 100 % 10).digitChar,
      (n / 10 % 10).digitChar, (n % 10).digitChar, '.', 'l', 'o', 'g'] := by
  have h₁ : (n / 1000).digitChar ≠ nul := digitChar_ne_nul (by omega)
  have h₂ : (n / 100 % 10).digitChar ≠ nul := digitChar_ne_nul (by omega)
  have h₃ : (n / 10 % 10).digitChar ≠ nul := digitChar_ne_nul (by omega)
  have h₄ : (n % 10).digitChar ≠ nul := digitChar_ne_nul (by omega)
  rw [logName, defaultLogFileName, sprintf_four hn hn']
  exact toText_append ['C', 'A', 'N', _, _, _, _, '.', 'l', 'o', 'g'] []
    (by simp [h₁, h₂, h₃, h₄]; decide)

/-- A name has an underscore or a fourth digit. -/
theorem logName_ne_of_four (hm : m < 1000) (hn : 1000 ≤ n) (hn' : n < 10000) :
    logName m ≠ logName n := by
  intro h
  rw [logName_of_le (Nat.le_of_lt_succ hm), logName_of_four hn hn'] at h
  simp only [List.cons.injEq, true_and] at h
  exact digitChar_ne_underscore (by omega) h.1.symm

/-- Fresh names of numbers of at most four digits differ. -/
theorem logName_inj_of_four (hm : m < 10000) (hn : n < 10000) (h : logName m = logName n) :
    m = n := by
  rcases Nat.lt_or_ge m 1000 with hm₃ | hm₄
  · rcases Nat.lt_or_ge n 1000 with hn₃ | hn₄
    · exact logName_inj (Nat.le_of_lt_succ hm₃) (Nat.le_of_lt_succ hn₃) h
    · exact absurd h (logName_ne_of_four hm₃ hn₄ hn)
  · rcases Nat.lt_or_ge n 1000 with hn₃ | hn₄
    · exact absurd h.symm (logName_ne_of_four hn₃ hm₄ hm)
    · rw [logName_of_four hm₄ hm, logName_of_four hn₄ hn] at h
      simp only [List.cons.injEq, true_and, and_true] at h
      have h₁ := digitChar_inj (by omega) (by omega) h.1
      have h₂ := digitChar_inj (by omega) (by omega) h.2.1
      have h₃ := digitChar_inj (by omega) (by omega) h.2.2.1
      have h₄ := digitChar_inj (by omega) (by omega) h.2.2.2
      omega

/-! ## The array after some numbers -/

theorem printAll_append_singleton (ns : List ℕ) (n : ℕ) :
    printAll (ns ++ [n]) = sprintfNumToLogfileName n (printAll ns) := by
  rw [printAll, List.foldl_append]
  rfl

theorem isLog_logName (n : ℕ) : IsLog (logName n) := ⟨[n], rfl⟩

/-- What the array keeps of the numbers before is the place of the underscore. -/
theorem shape_printAll (h : ∀ n ∈ ns, n ≤ 9999) :
    ∃ x a b c, printAll ns = ['C', 'A', 'N', x, a, b, c, '.', 'l', 'o', 'g', nul] ∧
      (x = '_' ↔ ∀ n ∈ ns, n ≤ 999) := by
  induction ns using List.reverseRecOn with
  | nil => exact ⟨'_', '0', '0', '0', rfl, by simp⟩
  | append_singleton ns n ih =>
    obtain ⟨hns, hn⟩ := List.forall_mem_append.1 h
    obtain ⟨x, a, b, c, he, hx⟩ := ih hns
    have hn : n ≤ 9999 := hn n (List.mem_singleton_self n)
    rw [printAll_append_singleton, he]
    rcases Nat.lt_or_ge n 1000 with hn₃ | hn₄
    · refine ⟨x, _, _, _, sprintf_of_long (Nat.le_of_lt_succ hn₃) 'C' 'A' 'N' x _, ?_⟩
      simp only [List.forall_mem_append, List.mem_singleton, forall_eq, Nat.le_of_lt_succ hn₃,
        and_true, hx]
    · refine ⟨_, _, _, _, sprintf_four hn₄ (Nat.lt_succ_of_le hn) x a b c '.', ?_⟩
      refine iff_of_false (digitChar_ne_underscore (by omega)) fun hall => ?_
      exact absurd (hall n (by simp)) (by omega)

/-- A name of the shape of a log's fits. -/
theorem fits_printAll (h : ∀ n ∈ ns, n ≤ 9999) : Fits (printAll ns) := by
  obtain ⟨x, a, b, c, he, -⟩ := shape_printAll h
  rw [he]
  refine ⟨rfl, ?_⟩
  have hlast : toText ['C', 'A', 'N', x, a, b, c, '.', 'l', 'o', 'g', nul] =
      toText ['C', 'A', 'N', x, a, b, c, '.', 'l', 'o', 'g'] :=
    toText_append_nul ['C', 'A', 'N', x, a, b, c, '.', 'l', 'o', 'g']
  rw [hlast]
  exact Nat.lt_of_le_of_lt (length_toText_le _) (Nat.lt_succ_self 11)

/-- The name is that of the last number in a fresh array, unless a number of four digits
    came before a last one of three. -/
theorem nameAfter_eq_logName_iff (hns : ∀ k ∈ ns, k ≤ 9999) (hn : n ≤ 9999) :
    nameAfter ns n = logName n ↔ ¬ AfterFourDigits ns n := by
  obtain ⟨x, a, b, c, he, hx⟩ := shape_printAll hns
  rw [nameAfter, printAll_append_singleton, he, AfterFourDigits]
  rcases Nat.lt_or_ge n 1000 with hn₃ | hn₄
  · have hn₃ := Nat.le_of_lt_succ hn₃
    have hiff : (∀ k ∈ ns, k ≤ 999) ↔ ¬ (n ≤ 999 ∧ ∃ k ∈ ns, 999 < k) := by
      simp only [hn₃, true_and, not_exists, not_and, not_lt]
    rw [← hiff, ← hx]
    constructor
    · intro h
      rw [sprintf_of_long hn₃, logName_of_le hn₃] at h
      simp only [toText_cons_eq_cons] at h
      exact h.2.2.2.2.2.2.2.1
    · rintro rfl
      rw [sprintf_three hn₃, logName, defaultLogFileName, sprintf_three hn₃]
  · refine iff_of_true ?_ fun h => absurd h.1 (by omega)
    rw [logName, defaultLogFileName, sprintf_four hn₄ (Nat.lt_succ_of_le hn),
      sprintf_four hn₄ (Nat.lt_succ_of_le hn)]

/-- The names depend on the last numbers only, if and only if neither is a number of three
    digits that comes after one of four. -/
theorem dependsOnLast_iff (hms : ∀ k ∈ ms, k ≤ 9999) (hm : m ≤ 9999) (hns : ∀ k ∈ ns, k ≤ 9999)
    (hn : n ≤ 9999) :
    DependsOnLast ms m ns n ↔ ¬ AfterFourDigits ms m ∧ ¬ AfterFourDigits ns n := by
  have hfits {ks : List ℕ} {k : ℕ} (hks : ∀ k ∈ ks, k ≤ 9999) (hk : k ≤ 9999) :
      Fits (printAll (ks ++ [k])) := by
    refine fits_printAll (List.forall_mem_append.2 ⟨hks, ?_⟩)
    exact List.forall_mem_singleton.2 hk
  constructor
  · intro h
    exact ⟨(nameAfter_eq_logName_iff hms hm).1 h.left, (nameAfter_eq_logName_iff hns hn).1 h.right⟩
  · rintro ⟨h₁, h₂⟩
    have hl := (nameAfter_eq_logName_iff hms hm).2 h₁
    have hr := (nameAfter_eq_logName_iff hns hn).2 h₂
    refine ⟨hl, hr, hfits hms hm, hfits hns hn, ?_⟩
    rw [hl, hr]
    exact ⟨logName_inj_of_four (Nat.lt_succ_of_le hm) (Nat.lt_succ_of_le hn), fun h => h ▸ rfl⟩

/-- The numbers have three digits: log 1 is named alike in the array of the logger and in a
    fresh one, and log 2 in another way. -/
theorem dependsOnLast_wrap :
    DependsOnLast [998, 999] 1 [] 1 ∧ DependsOnLast [998, 999] 1 [] 2 :=
  ⟨(dependsOnLast_iff (by decide) (by decide) (by decide) (by decide)).2 (by decide),
    (dependsOnLast_iff (by decide) (by decide) (by decide) (by decide)).2 (by decide)⟩

/-- After 1000, log 5 is named as log 1005 is. -/
theorem not_dependsOnLast_thousand :
    nameAfter [1000] 5 = "CAN1005.log".toList ∧ logName 5 = "CAN_005.log".toList ∧
      nameAfter [1000] 5 = nameAfter [] 1005 ∧ ¬ DependsOnLast [1000] 5 [] 1005 := by
  refine ⟨by decide, by decide, by decide, fun h => ?_⟩
  exact absurd (h.distinct.1 (by decide)) (by decide)

end CanInsight
