import CanInsight.Lib.CString

/-!
# Names of log files

A log file is named after its number. `sprintf_num_to_logfile_name` prints the
number into a character array that already holds a log file name, and only
touches the digits, the terminator `sprintf` leaves and the dot: the name that
comes out depends on what the array held.

* `logName n` is the name the number `n` gives in a fresh array;
* an array is *canonical* when it holds the fresh name of a number up to
  `MAX_LOG_NUMBER`; printing such a number into it gives the fresh name
  (`Canonical.toText_sprintf`), and fresh names of such numbers differ
  (`logName_inj`);
* an array *names logs* when printing such a number into it gives its fresh name;
  this is lost once a number of four digits is printed (`not_namesLogs_sprintf`),
  and printing up to `MAX_LOG_NUMBER` does not bring it back
  (`namesLogs_sprintf_iff`).
-/

namespace CanInsight

open CString

/-- The name of a file on the card. -/
abbrev Name := List Char

/-- `MAX_LOG_NUMBER`. -/
def maxLogNumber : ℕ := 999

/-- `DEFAULT_LOG_FILE_NAME`, as the initialiser of an array of
    `LOG_FILE_NAME_LENGTH` characters. -/
def defaultLogFileName : List Char :=
  ['C', 'A', 'N', '_', '0', '0', '0', '.', 'l', 'o', 'g', nul]

/-- `LOG_FILE_NUM_POS`. -/
def logFileNumPos : ℕ := 4

/-- `LOG_FILE_DOT_POS`. -/
def logFileDotPos : ℕ := 7

/-- `sprintf_num_to_logfile_name`: the array after printing a number into it. -/
def sprintfNumToLogfileName (numberToTry : ℕ) (logName : List Char) : List Char :=
  (if numberToTry > 999 then
    -- one place earlier, over the underscore
    putAt (logFileNumPos - 1) (zeroPad 4 numberToTry) logName
  else
    putAt logFileNumPos (zeroPad 3 numberToTry) logName).set logFileDotPos '.'

/-- The name a number gives in a fresh array. -/
def logName (n : ℕ) : Name := toText (sprintfNumToLogfileName n defaultLogFileName)

/-- An array that holds the fresh name of a number up to `MAX_LOG_NUMBER`. -/
def Canonical (buf : List Char) : Prop :=
  ∃ n ≤ maxLogNumber, buf = sprintfNumToLogfileName n defaultLogFileName

/-- The fresh array is named after 0. -/
theorem default_eq : defaultLogFileName = sprintfNumToLogfileName 0 defaultLogFileName := by
  decide

theorem canonical_default : Canonical defaultLogFileName := ⟨0, by decide, default_eq⟩

/-- A number of at most three digits replaces the digits of any array that
    starts as the fresh one does and ends in `log`. -/
theorem sprintf_three {n : ℕ} (hn : n ≤ maxLogNumber) (a b c d : Char) :
    sprintfNumToLogfileName n ['C', 'A', 'N', '_', a, b, c, d, 'l', 'o', 'g', nul] =
      ['C', 'A', 'N', '_', (n / 100).digitChar, (n / 10 % 10).digitChar, (n % 10).digitChar,
        '.', 'l', 'o', 'g', nul] := by
  have h : ¬ n > 999 := Nat.not_lt.2 hn
  rw [sprintfNumToLogfileName, if_neg h, zeroPad_three (by omega)]
  rfl

theorem sprintf_four {n : ℕ} (hn : 1000 ≤ n) (hn' : n < 10000) (a b c d e : Char) :
    sprintfNumToLogfileName n ['C', 'A', 'N', a, b, c, d, e, 'l', 'o', 'g', nul] =
      ['C', 'A', 'N', (n / 1000).digitChar, (n / 100 % 10).digitChar, (n / 10 % 10).digitChar,
        (n % 10).digitChar, '.', 'l', 'o', 'g', nul] := by
  have h : n > 999 := hn
  rw [sprintfNumToLogfileName, if_pos h, zeroPad_four hn']
  rfl

/-- A number of five digits overwrites the extension with its terminator. -/
theorem sprintf_five {n : ℕ} (hn : 10000 ≤ n) (hn' : n < 100000) (a b c d e f : Char) :
    sprintfNumToLogfileName n ['C', 'A', 'N', a, b, c, d, e, f, 'o', 'g', nul] =
      ['C', 'A', 'N', (n / 10 / 1000).digitChar, (n / 10 / 100 % 10).digitChar,
        (n / 10 / 10 % 10).digitChar, (n / 10 % 10).digitChar, '.', nul, 'o', 'g', nul] := by
  have h : n > 999 := by omega
  rw [sprintfNumToLogfileName, if_pos h, zeroPad_of_le (w := 5) (by decide) hn (by decide),
    zeroPad_succ (by decide), zeroPad_four (by omega)]
  rfl

theorem Canonical.sprintf {buf : List Char} (h : Canonical buf) {n : ℕ} (hn : n ≤ maxLogNumber) :
    sprintfNumToLogfileName n buf = sprintfNumToLogfileName n defaultLogFileName := by
  obtain ⟨m, hm, rfl⟩ := h
  rw [defaultLogFileName, sprintf_three hm, sprintf_three hn, sprintf_three hn]

/-- Printing a number up to `MAX_LOG_NUMBER` keeps an array canonical. -/
theorem Canonical.of_sprintf {buf : List Char} (h : Canonical buf) {n : ℕ}
    (hn : n ≤ maxLogNumber) : Canonical (sprintfNumToLogfileName n buf) :=
  ⟨n, hn, h.sprintf hn⟩

theorem Canonical.toText_sprintf {buf : List Char} (h : Canonical buf) {n : ℕ}
    (hn : n ≤ maxLogNumber) : toText (sprintfNumToLogfileName n buf) = logName n := by
  rw [h.sprintf hn, logName]

/-- Printing the next number over a number, as the uploader does, gives the name
    that the next number gives in a fresh array. -/
theorem sprintf_succ {n : ℕ} (hn : n + 1 < 100000) :
    sprintfNumToLogfileName (n + 1) (sprintfNumToLogfileName n defaultLogFileName) =
      sprintfNumToLogfileName (n + 1) defaultLogFileName := by
  rcases Nat.lt_or_ge (n + 1) 1000 with h₁ | h₁
  · exact (canonical_default.of_sprintf (Nat.le_of_succ_le (Nat.le_of_lt_succ h₁))).sprintf
      (Nat.le_of_lt_succ h₁)
  have hd : defaultLogFileName = ['C', 'A', 'N', '_', '0', '0', '0', '.', 'l', 'o', 'g', nul] := rfl
  rw [hd]
  rcases Nat.lt_or_ge (n + 1) 10000 with h₂ | h₂
  · rcases Nat.lt_or_ge n 1000 with h₃ | h₃
    · rw [sprintf_three (Nat.le_of_lt_succ h₃), sprintf_four h₁ h₂, sprintf_four h₁ h₂]
    · rw [sprintf_four h₃ (Nat.lt_of_succ_lt h₂), sprintf_four h₁ h₂, sprintf_four h₁ h₂]
  · rcases Nat.lt_or_ge n 10000 with h₃ | h₃
    · rw [sprintf_four (by omega) h₃, sprintf_five h₂ hn, sprintf_five h₂ hn]
    · rw [sprintf_five h₃ (Nat.lt_of_succ_lt hn), sprintf_five h₂ hn, sprintf_five h₂ hn]

theorem logName_of_le {n : ℕ} (hn : n ≤ maxLogNumber) :
    logName n = ['C', 'A', 'N', '_', (n / 100).digitChar, (n / 10 % 10).digitChar,
      (n % 10).digitChar, '.', 'l', 'o', 'g'] := by
  have hn' : n < 1000 := Nat.lt_succ_of_le hn
  have h₁ : (n / 100).digitChar ≠ nul := digitChar_ne_nul (by omega)
  have h₂ : (n / 10 % 10).digitChar ≠ nul := digitChar_ne_nul (by omega)
  have h₃ : (n % 10).digitChar ≠ nul := digitChar_ne_nul (by omega)
  rw [logName, defaultLogFileName, sprintf_three hn]
  exact toText_append ['C', 'A', 'N', '_', _, _, _, '.', 'l', 'o', 'g'] []
    (by simp [h₁, h₂, h₃]; decide)

theorem logName_inj {m n : ℕ} (hm : m ≤ maxLogNumber) (hn : n ≤ maxLogNumber)
    (h : logName m = logName n) : m = n := by
  have hm' : m < 1000 := Nat.lt_succ_of_le hm
  have hn' : n < 1000 := Nat.lt_succ_of_le hn
  rw [logName_of_le hm, logName_of_le hn] at h
  simp only [List.cons.injEq, true_and, and_true] at h
  have h₁ := digitChar_inj (by omega) (by omega) h.1
  have h₂ := digitChar_inj (by omega) (by omega) h.2.1
  have h₃ := digitChar_inj (by omega) (by omega) h.2.2
  omega

theorem logName_eq_iff {m n : ℕ} (hm : m ≤ maxLogNumber) (hn : n ≤ maxLogNumber) :
    logName m = logName n ↔ m = n :=
  ⟨logName_inj hm hn, fun h => h ▸ rfl⟩

/-! ## Arrays that name logs -/

/-- Printing a number up to `MAX_LOG_NUMBER` into the array gives the name of its log. -/
def NamesLogs (buf : List Char) : Prop :=
  buf.take 4 = ['C', 'A', 'N', '_'] ∧ toText (buf.drop 8) = ['l', 'o', 'g']

instance (buf : List Char) : Decidable (NamesLogs buf) := inferInstanceAs (Decidable (_ ∧ _))

section NamesLogs

variable {buf : List Char} {m n : ℕ}

theorem length_sprintf_of_short (hn : n ≤ maxLogNumber) (hb : buf.length < 4) :
    (sprintfNumToLogfileName n buf).length ≤ 7 := by
  have h : ¬ n > 999 := Nat.not_lt.2 hn
  rw [sprintfNumToLogfileName, if_neg h, zeroPad_three (by omega), logFileNumPos, putAt,
    List.take_of_length_le (Nat.le_of_lt hb), List.drop_of_length_le (by simp; omega)]
  simp
  omega

/-- The name of a log is longer than what a short array holds. -/
theorem toText_ne_of_short {t : List Char} (hm : m ≤ maxLogNumber) (ht : t.length ≤ 7) :
    toText t ≠ logName m := by
  intro h
  have hl := length_toText_le t
  rw [h, logName_of_le hm] at hl
  have hl : 11 ≤ t.length := hl
  omega

theorem not_namesLogs_of_short {t : List Char} (ht : t.length ≤ 7) : ¬ NamesLogs t := by
  rintro ⟨-, h⟩
  rw [List.drop_of_length_le (by omega)] at h
  exact absurd h (by decide)

/-- The digits of a number up to `MAX_LOG_NUMBER`, with the dot, stand after the first four
    characters. -/
theorem sprintf_of_long (hn : n ≤ maxLogNumber) (w x y z : Char) (t : List Char) :
    sprintfNumToLogfileName n (w :: x :: y :: z :: t) =
      w :: x :: y :: z :: (n / 100).digitChar :: (n / 10 % 10).digitChar ::
        (n % 10).digitChar :: '.' :: t.drop 4 := by
  have h : ¬ n > 999 := Nat.not_lt.2 hn
  rw [sprintfNumToLogfileName, if_neg h, zeroPad_three (by omega)]
  rfl

theorem namesLogs_cons_iff {w x y z a b c e : Char} {t : List Char} :
    NamesLogs (w :: x :: y :: z :: a :: b :: c :: e :: t) ↔
      [w, x, y, z] = ['C', 'A', 'N', '_'] ∧ toText t = ['l', 'o', 'g'] := Iff.rfl

theorem exists_long (hb : ¬ buf.length < 4) : ∃ w x y z t, buf = w :: x :: y :: z :: t := by
  match buf, hb with
  | w :: x :: y :: z :: t, _ => exact ⟨w, x, y, z, t, rfl⟩
  | [], h => exact (h (by simp)).elim
  | [_], h => exact (h (by simp)).elim
  | [_, _], h => exact (h (by simp)).elim
  | [_, _, _], h => exact (h (by simp)).elim

/-- Printing a number up to `MAX_LOG_NUMBER` does not change whether the array names logs. -/
theorem namesLogs_sprintf_iff (hn : n ≤ maxLogNumber) :
    NamesLogs (sprintfNumToLogfileName n buf) ↔ NamesLogs buf := by
  by_cases hb : buf.length < 4
  · refine iff_of_false (not_namesLogs_of_short (length_sprintf_of_short hn hb)) ?_
    exact not_namesLogs_of_short (by omega)
  · obtain ⟨w, x, y, z, t, rfl⟩ := exists_long hb
    rw [sprintf_of_long hn, namesLogs_cons_iff]
    exact Iff.rfl

theorem NamesLogs.toText_sprintf (h : NamesLogs buf) (hn : n ≤ maxLogNumber) :
    toText (sprintfNumToLogfileName n buf) = logName n := by
  have hb : ¬ buf.length < 4 := fun hb => not_namesLogs_of_short (by omega) h
  obtain ⟨w, x, y, z, t, rfl⟩ := exists_long hb
  obtain ⟨hc, hl⟩ := h
  simp only [List.take_succ_cons, List.take_zero, List.cons.injEq, and_true] at hc
  obtain ⟨rfl, rfl, rfl, rfl⟩ := hc
  have hl : toText (t.drop 4) = ['l', 'o', 'g'] := hl
  have hn' : n < 1000 := Nat.lt_succ_of_le hn
  rw [sprintf_of_long hn, logName_of_le hn]
  simp only [toText_cons_eq_cons, true_and, hl, and_true]
  refine ⟨by decide, by decide, by decide, by decide, digitChar_ne_nul (by omega),
    digitChar_ne_nul (by omega), digitChar_ne_nul (by omega), by decide⟩

/-- An array from which the name of a log comes out names logs. -/
theorem namesLogs_of_toText (hn : n ≤ maxLogNumber) (hm : m ≤ maxLogNumber)
    (h : toText (sprintfNumToLogfileName n buf) = logName m) : NamesLogs buf := by
  by_cases hb : buf.length < 4
  · exact absurd h (toText_ne_of_short hm (length_sprintf_of_short hn hb))
  · obtain ⟨w, x, y, z, t, rfl⟩ := exists_long hb
    rw [sprintf_of_long hn, logName_of_le hm] at h
    simp only [toText_cons_eq_cons] at h
    obtain ⟨-, rfl, -, rfl, -, rfl, -, rfl, -, -, -, -, -, -, -, -, hl⟩ := h
    exact ⟨rfl, hl⟩

/-- After 1000 was printed into it, an array does not name logs, nor is it named after one. -/
theorem not_namesLogs_sprintf (buf : List Char) :
    ¬ NamesLogs (sprintfNumToLogfileName 1000 buf) ∧
      ∀ m ≤ maxLogNumber, toText (sprintfNumToLogfileName 1000 buf) ≠ logName m := by
  have hp : zeroPad 4 1000 = ['1', '0', '0', '0'] := by decide
  by_cases hb : buf.length < 3
  · have hs : (sprintfNumToLogfileName 1000 buf).length ≤ 7 := by
      rw [sprintfNumToLogfileName, if_pos (by decide), hp, logFileNumPos, putAt,
        List.take_of_length_le (by omega), List.drop_of_length_le (by simp; omega)]
      simp
      omega
    exact ⟨not_namesLogs_of_short hs, fun m hm => toText_ne_of_short hm hs⟩
  · obtain ⟨w, x, y, t, rfl⟩ : ∃ w x y t, buf = w :: x :: y :: t := by
      match buf, hb with
      | w :: x :: y :: t, _ => exact ⟨w, x, y, t, rfl⟩
      | [], h => exact (h (by simp)).elim
      | [_], h => exact (h (by simp)).elim
      | [_, _], h => exact (h (by simp)).elim
    have hs : sprintfNumToLogfileName 1000 (w :: x :: y :: t) =
        w :: x :: y :: '1' :: '0' :: '0' :: '0' :: '.' :: t.drop 5 := by
      rw [sprintfNumToLogfileName, if_pos (by decide), hp]
      rfl
    rw [hs]
    refine ⟨fun h => ?_, fun m hm h => ?_⟩
    · exact absurd (List.cons.inj (List.cons.inj (List.cons.inj (List.cons.inj h.1).2).2).2).1
        (by decide)
    · rw [logName_of_le hm] at h
      simp only [toText_cons_eq_cons] at h
      exact absurd h.2.2.2.2.2.2.2.1 (by decide)

end NamesLogs

end CanInsight
