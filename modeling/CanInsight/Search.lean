import CanInsight.Lib.Loop
import CanInsight.Lib.Wheel
import CanInsight.Operations

/-!
# The search for a free number

The log numbers are the wheel of the numbers from 1 to `MAX_LOG_NUMBER`, and the
search of `set_next_log_filename` goes around it until it is back at the first
log.

* `searchLoop_eq_some_iff`: what the search comes to, as the while loop it is;
* `searchLoop_ends`: the search from a number of the wheel ends;
* `searchLoop_allUsed`, `searchLoop_none`: it finds nothing if and only if the
  numbers it passes are used;
* `searchLoop_zero`: where it stops is of no account once it finds a number.
-/

namespace CanInsight

open CString Loop

/-- All log numbers are used. -/
def AllUsed (card : Card) : Prop := ∀ n, 1 ≤ n → n ≤ maxLogNumber → logName n ∈ card

instance (card : Card) : Decidable (AllUsed card) :=
  inferInstanceAs (Decidable (∀ n, 1 ≤ n → n ≤ maxLogNumber → logName n ∈ card))

namespace Device

variable {card : Card} {first n m fuel : ℕ} {buf buf' : List Char}

theorem nextNumber_eq (h : n < 65535) : nextNumber n = Wheel.next maxLogNumber n := by
  have hu : u16 (n + 1) = n + 1 := u16_of_lt (Nat.succ_lt_succ h)
  rw [nextNumber, Wheel.next, hu]
  by_cases hn : n < maxLogNumber
  · rw [if_pos hn, if_neg (Nat.not_lt.2 hn)]
  · rw [if_neg hn, if_pos (Nat.lt_succ_of_le (Nat.not_lt.1 hn))]

theorem nextNumber_of_le (h : n ≤ maxLogNumber) :
    nextNumber n = Wheel.next maxLogNumber n :=
  nextNumber_eq (Nat.lt_of_le_of_lt h (by decide))

theorem searchLoop_isSome {k : ℕ} (hn : n ≤ maxLogNumber) (hk : k < fuel)
    (hf : (Wheel.next maxLogNumber)^[k + 1] n = first) :
    ∃ r, searchLoop card first fuel n buf = some r := by
  induction k generalizing n fuel buf with
  | zero =>
    obtain ⟨fuel, rfl⟩ := Nat.exists_eq_succ_of_ne_zero (Nat.ne_of_gt hk)
    rw [searchLoop, nextNumber_of_le hn]
    dsimp only
    split
    · exact ⟨_, rfl⟩
    · have hf : Wheel.next maxLogNumber n = first := hf
      rw [if_neg (not_not.2 hf)]
      exact ⟨_, rfl⟩
  | succ k ih =>
    obtain ⟨fuel, rfl⟩ := Nat.exists_eq_succ_of_ne_zero (Nat.ne_zero_of_lt hk)
    rw [searchLoop, nextNumber_of_le hn]
    dsimp only
    split
    · exact ⟨_, rfl⟩
    · split
      · exact ih (Wheel.next_le (by decide)) (Nat.lt_of_succ_lt_succ hk) hf
      · exact ⟨_, rfl⟩

/-- The search ends, from any number of the wheel to any other. -/
theorem searchLoop_ends (card : Card) (buf : List Char) (hn : 1 ≤ n) (hn' : n ≤ maxLogNumber)
    (hf : 1 ≤ first) (hf' : first ≤ maxLogNumber) :
    ∃ r, searchLoop card first maxLogNumber n buf = some r := by
  obtain ⟨k, hk, hk', he⟩ := Wheel.exists_iterate_next hn hn' hf hf'
  obtain ⟨k, rfl⟩ := Nat.exists_eq_succ_of_ne_zero (Nat.ne_of_gt hk)
  exact searchLoop_isSome hn' hk' he

/-! ## The search as a while loop -/

/-- The array after a number was printed into it, and then the `k` numbers after it. -/
def printNumbers (n : ℕ) (buf : List Char) : ℕ → List Char
  | 0 => sprintfNumToLogfileName n buf
  | k + 1 => sprintfNumToLogfileName (nextNumber^[k + 1] n) (printNumbers n buf k)

/-- The search goes on after it tried a number. -/
def Searching (card : Card) (first : ℕ) (s : ℕ × List Char) : Prop :=
  toText (sprintfNumToLogfileName s.1 s.2) ∈ card ∧ nextNumber s.1 ≠ first

instance (card : Card) (first : ℕ) : DecidablePred (Searching card first) :=
  fun _ => inferInstanceAs (Decidable (_ ∧ _))

/-- A round of the search, on the number to try and the array. -/
def tryNumber (s : ℕ × List Char) : ℕ × List Char :=
  (nextNumber s.1, sprintfNumToLogfileName s.1 s.2)

/-- What the search comes to in its last round. -/
def tryResult (card : Card) (s : ℕ × List Char) : Option ℕ × List Char :=
  (if toText (sprintfNumToLogfileName s.1 s.2) ∈ card then none else some s.1,
    sprintfNumToLogfileName s.1 s.2)

theorem searchLoop_eq (card : Card) (first fuel n : ℕ) (buf : List Char) :
    searchLoop card first fuel n buf =
      (whileLoop (Searching card first) tryNumber fuel (n, buf)).map (tryResult card) := by
  induction fuel generalizing n buf with
  | zero => rfl
  | succ fuel ih =>
    rw [searchLoop, whileLoop]
    by_cases hm : toText (sprintfNumToLogfileName n buf) ∈ card
    · by_cases hf : nextNumber n = first
      · have hs : ¬ Searching card first (n, buf) := fun h => h.2 hf
        rw [if_neg hs]
        simp [tryResult, hm, hf]
      · have hs : Searching card first (n, buf) := ⟨hm, hf⟩
        rw [if_pos hs]
        dsimp only
        rw [if_neg (not_not.2 hm), if_pos hf, ih]
        rfl
    · have hs : ¬ Searching card first (n, buf) := fun h => hm h.1
      rw [if_neg hs]
      simp [tryResult, hm]

theorem iterate_tryNumber (n : ℕ) (buf : List Char) (k : ℕ) :
    (tryNumber^[k] (n, buf)).1 = nextNumber^[k] n ∧
      sprintfNumToLogfileName (tryNumber^[k] (n, buf)).1 (tryNumber^[k] (n, buf)).2 =
        printNumbers n buf k := by
  induction k with
  | zero => exact ⟨rfl, rfl⟩
  | succ k ih =>
    have hs : tryNumber^[k + 1] (n, buf) = (nextNumber (tryNumber^[k] (n, buf)).1,
        sprintfNumToLogfileName (tryNumber^[k] (n, buf)).1 (tryNumber^[k] (n, buf)).2) :=
      Function.iterate_succ_apply' _ _ _
    have hn : nextNumber (tryNumber^[k] (n, buf)).1 = nextNumber^[k + 1] n := by
      rw [ih.1, Function.iterate_succ_apply']
    rw [hs, ih.2, hn]
    exact ⟨rfl, rfl⟩

theorem searching_iterate_iff (k : ℕ) :
    Searching card first (tryNumber^[k] (n, buf)) ↔
      toText (printNumbers n buf k) ∈ card ∧ nextNumber^[k + 1] n ≠ first := by
  obtain ⟨h₁, h₂⟩ := iterate_tryNumber n buf k
  have hn : nextNumber (nextNumber^[k] n) = nextNumber^[k + 1] n :=
    (Function.iterate_succ_apply' _ _ _).symm
  rw [Searching, h₂, h₁, hn]

/-- What the search comes to: it goes on while the names it tries exist and it is not
    back at the first log. -/
theorem searchLoop_eq_some_iff {r : Option ℕ × List Char} :
    searchLoop card first fuel n buf = some r ↔
      ∃ k < fuel,
        (∀ j < k, toText (printNumbers n buf j) ∈ card ∧ nextNumber^[j + 1] n ≠ first) ∧
        (toText (printNumbers n buf k) ∈ card → nextNumber^[k + 1] n = first) ∧
        r = (if toText (printNumbers n buf k) ∈ card then none else some (nextNumber^[k] n),
          printNumbers n buf k) := by
  have hr (k : ℕ) : tryResult card (tryNumber^[k] (n, buf)) =
      (if toText (printNumbers n buf k) ∈ card then none else some (nextNumber^[k] n),
        printNumbers n buf k) := by
    obtain ⟨h₁, h₂⟩ := iterate_tryNumber n buf k
    rw [tryResult, h₂, h₁]
  rw [searchLoop_eq, Option.map_eq_some_iff]
  simp only [whileLoop_eq_some_iff, LeavesAfter, searching_iterate_iff, not_and, not_not]
  constructor
  · rintro ⟨_, ⟨k, hk, hl, rfl⟩, rfl⟩
    exact ⟨k, hk, hl.1, hl.2, hr k⟩
  · rintro ⟨k, hk, hl, hl', rfl⟩
    exact ⟨_, ⟨k, hk, ⟨hl, hl'⟩, rfl⟩, hr k⟩

/-- The search ends if and only if a name it tries is free, or it comes back to the
    first log. -/
theorem exists_searchLoop_iff :
    (∃ fuel r, searchLoop card first fuel n buf = some r) ↔
      ∃ k, toText (printNumbers n buf k) ∉ card ∨ nextNumber^[k + 1] n = first := by
  have hends : (∃ fuel s, whileLoop (Searching card first) tryNumber fuel (n, buf) = some s) ↔
      ∃ k, ¬ Searching card first (tryNumber^[k] (n, buf)) := exists_whileLoop_iff
  simp only [searching_iterate_iff, not_and_or, not_not] at hends
  simp only [← hends, searchLoop_eq, Option.map_eq_some_iff]
  constructor
  · rintro ⟨fuel, _, s, hs, -⟩
    exact ⟨fuel, s, hs⟩
  · rintro ⟨fuel, s, hs⟩
    exact ⟨fuel, _, s, hs, rfl⟩

/-- More fuel does not hurt. -/
theorem searchLoop_mono {fuel' : ℕ} {r : Option ℕ × List Char} (hle : fuel ≤ fuel')
    (h : searchLoop card first fuel n buf = some r) :
    searchLoop card first fuel' n buf = some r := by
  obtain ⟨k, hk, hr⟩ := searchLoop_eq_some_iff.1 h
  exact searchLoop_eq_some_iff.2 ⟨k, hk.trans_le hle, hr⟩

theorem iterate_nextNumber (hn : n ≤ maxLogNumber) (k : ℕ) :
    nextNumber^[k] n = (Wheel.next maxLogNumber)^[k] n ∧
      (Wheel.next maxLogNumber)^[k] n ≤ maxLogNumber := by
  induction k with
  | zero => exact ⟨rfl, hn⟩
  | succ k ih =>
    rw [Function.iterate_succ_apply', Function.iterate_succ_apply', ih.1, nextNumber_of_le ih.2]
    exact ⟨rfl, Wheel.next_le (by decide)⟩

/-- Numbers up to `MAX_LOG_NUMBER` replace each other in a canonical array. -/
theorem printNumbers_of_canonical (hb : Canonical buf) (hn : n ≤ maxLogNumber) (k : ℕ) :
    printNumbers n buf k =
      sprintfNumToLogfileName ((Wheel.next maxLogNumber)^[k] n) defaultLogFileName := by
  induction k with
  | zero => exact hb.sprintf hn
  | succ k ih =>
    rw [printNumbers, ih, (iterate_nextNumber hn (k + 1)).1]
    exact (canonical_default.of_sprintf (iterate_nextNumber hn k).2).sprintf
      (iterate_nextNumber hn (k + 1)).2

/-! ## The numbers passed -/

/-- While all numbers are used, the search finds none. -/
theorem searchLoop_allUsed {r : Option ℕ} (hu : AllUsed card) (hb : Canonical buf) (hn : 1 ≤ n)
    (hn' : n ≤ maxLogNumber) (h : searchLoop card first fuel n buf = some (r, buf')) :
    r = none ∧ Canonical buf' := by
  induction fuel generalizing n buf with
  | zero => cases h
  | succ fuel ih =>
    rw [searchLoop, nextNumber_of_le hn'] at h
    dsimp only at h
    rw [hb.toText_sprintf hn', if_neg (not_not.2 (hu n hn hn'))] at h
    split at h
    · exact ih (hb.of_sprintf hn') Wheel.one_le_next (Wheel.next_le (by decide)) h
    · cases h
      exact ⟨rfl, hb.of_sprintf hn'⟩

/-- If the search finds none, then the numbers it passed are used. -/
theorem searchLoop_none (hb : Canonical buf) (hn' : n ≤ maxLogNumber)
    (h : searchLoop card first fuel n buf = some (none, buf')) :
    ∃ k, (Wheel.next maxLogNumber)^[k + 1] n = first ∧
      ∀ j ≤ k, logName ((Wheel.next maxLogNumber)^[j] n) ∈ card := by
  induction fuel generalizing n buf with
  | zero => cases h
  | succ fuel ih =>
    rw [searchLoop, nextNumber_of_le hn', hb.toText_sprintf hn'] at h
    dsimp only at h
    split at h
    · cases h
    next hm =>
    rw [not_not] at hm
    split at h
    · obtain ⟨k, hk, hj⟩ := ih (hb.of_sprintf hn') (Wheel.next_le (by decide)) h
      refine ⟨k + 1, hk, fun j hjk => ?_⟩
      cases j with
      | zero => exact hm
      | succ j => exact hj j (Nat.le_of_succ_le_succ hjk)
    · next hf =>
      refine ⟨0, not_not.1 hf, fun j hj => ?_⟩
      rw [Nat.le_zero.1 hj]
      exact hm

/-- The search that would go on for ever finds what any other finds. -/
theorem searchLoop_zero (hn' : n ≤ maxLogNumber)
    (h : searchLoop card first fuel n buf = some (some m, buf')) :
    searchLoop card 0 fuel n buf = some (some m, buf') := by
  induction fuel generalizing n buf with
  | zero => cases h
  | succ fuel ih =>
    rw [searchLoop, nextNumber_of_le hn'] at h ⊢
    dsimp only at h ⊢
    split at h
    · next hm =>
      rw [if_pos hm]
      exact h
    · next hm =>
      rw [if_neg hm, if_pos (Nat.ne_of_gt Wheel.one_le_next)]
      split at h
      · exact ih (Wheel.next_le (by decide)) h
      · cases h

/-! ## The names tried -/

variable {d : Device}

/-- The first log named, and the next log number wrapped. -/
def wrapped (d : Device) : Device := d.nameFirst.wrapNext

theorem wrapped_next_le (d : Device) : d.wrapped.nextLogFileNumber ≤ maxLogNumber := by
  rw [wrapped, wrapNext_nextLogFileNumber]
  split
  · decide
  · next h => exact Nat.not_lt.1 h

theorem nameFirst_logFileName_of (h : Canonical d.logFileName)
    (hf : d.firstLogFileNumber ≤ maxLogNumber) :
    d.nameFirst.logFileName = sprintfNumToLogfileName d.firstLogFileNumber defaultLogFileName :=
  h.sprintf hf

theorem nameNext_logFileName_of (h : Canonical d.logFileName)
    (hf : d.firstLogFileNumber ≤ maxLogNumber) :
    d.nameNext.logFileName =
      sprintfNumToLogfileName d.wrapped.nextLogFileNumber defaultLogFileName :=
  (h.of_sprintf hf).sprintf d.wrapped_next_le

theorem search_of (h : Canonical d.logFileName) (hf : d.firstLogFileNumber ≤ maxLogNumber)
    (fuel : ℕ) :
    d.search fuel = searchLoop d.card d.firstLogFileNumber fuel (d.wrapped.nextLogFileNumber + 1)
      (sprintfNumToLogfileName d.wrapped.nextLogFileNumber defaultLogFileName) := by
  have hn : d.nameNext.nextLogFileNumber = d.wrapped.nextLogFileNumber := rfl
  have hlt : d.wrapped.nextLogFileNumber + 1 < 2 ^ 16 :=
    Nat.lt_of_le_of_lt (Nat.succ_le_succ d.wrapped_next_le) (by decide)
  rw [search, nameNext_logFileName_of h hf, hn, u16_of_lt hlt]

/-- The log that has been named is overwritten, and the next one is the first. -/
def recycle (env : Env) (d : Device) : Device :=
  { d.sdRemove (env.removes d.logFile) d.logFile with
    nextLogFileNumber := u16 (d.firstLogFileNumber + 1)
    firstLogFileNumber := u16 (d.firstLogFileNumber + 1) }.putNextLogNum.putFirstLogNum

theorem overwriteNext_eq (env : Env) (h : d.nextLogFileNumber = d.firstLogFileNumber) :
    d.overwriteNext env = (d.setLogFileName d.firstLogFileNumber).recycle env := by
  simp [overwriteNext, recycle, h]

end Device

end CanInsight
