import CanInsight.Lib.Loop
import CanInsight.Search

/-!
# Making room

With `overwrite_logs` on, `check_sd_free_space` deletes logs, from the first one
on around the wheel of numbers, as long as there is too little free space. After
`k` rounds the card is the one it began with, without the first `k` of the files
that the loop names (`deletions_card`), so what the loop comes to is read off the
card it begins with.

* `checkSdFreeSpace_of_overwriteLogs`: the loop is a while loop over the deletion
  of the log that is named;
* `checkSdFreeSpace_deletes`: the logs deleted, and in which order;
* `checkSdFreeSpace_returns_iff`: the loop ends if and only if the logs, deleted
  one after the other, at some time leave enough space.
-/

namespace CanInsight

open CString Loop

/-- The card without the files of the given names, as far as they can be removed. -/
def withoutFiles (removes : Name → Bool) (card : Card) (names : List Name) : Card :=
  names.foldl (fun card name => if removes name then card.erase name else card) card

section Card

variable {removes : Name → Bool} {card : Card} {names names' : List Name} {name : Name}

theorem withoutFiles_append :
    withoutFiles removes card (names ++ names') =
      withoutFiles removes (withoutFiles removes card names) names' :=
  List.foldl_append

/-- What is left of the card: all files but those of the names that can be removed. -/
theorem lookup_withoutFiles :
    (withoutFiles removes card names).lookup name =
      if name ∈ names ∧ removes name then none else card.lookup name := by
  induction names generalizing card with
  | nil => simp [withoutFiles]
  | cons n names ih =>
    have hcons : withoutFiles removes card (n :: names) =
        withoutFiles removes (if removes n then card.erase n else card) names := rfl
    simp only [hcons, ih, List.mem_cons]
    by_cases hn : name = n
    · subst hn
      cases removes name <;> simp
    · have hl : (if removes n then card.erase n else card).lookup name = card.lookup name := by
        split
        · exact Finmap.lookup_erase_ne hn
        · rfl
      rw [hl]
      simp [hn]

theorem mem_withoutFiles :
    name ∈ withoutFiles removes card names ↔ name ∈ card ∧ ¬ (name ∈ names ∧ removes name) := by
  rw [← Finmap.lookup_isSome, lookup_withoutFiles, ← Finmap.lookup_isSome]
  split
  · next h => simp [h]
  · next h => simp only [h, not_false_iff, and_true]

theorem withoutFiles_congr (h : ∀ name, name ∈ names ↔ name ∈ names') :
    withoutFiles removes card names = withoutFiles removes card names' := by
  refine Finmap.ext_lookup fun name => ?_
  simp only [lookup_withoutFiles, h]

end Card

/-! ## The names the loop goes through -/

/-- The array that names the log to delete in each round of `check_sd_free_space`,
    from the first log number on. -/
def logFileToDelete (first : ℕ) : ℕ → List Char := Device.printNumbers first defaultLogFileName

/-- The names of the first `k` rounds. -/
def namesToDelete (first k : ℕ) : List Name :=
  (List.range k).map fun j => toText (logFileToDelete first j)

theorem namesToDelete_succ (first k : ℕ) :
    namesToDelete first (k + 1) = namesToDelete first k ++ [toText (logFileToDelete first k)] := by
  simp [namesToDelete, List.range_succ]

/-- The numbers that `k` rounds visit, from `first` on. -/
abbrev visited (first k : ℕ) : List ℕ := Wheel.interval maxLogNumber first k

/-- A thousand rounds visit all numbers that more rounds visit. -/
theorem mem_visited_of_le {first k n : ℕ} (hk : maxLogNumber + 1 ≤ k) :
    n ∈ visited first k ↔ n ∈ visited first (maxLogNumber + 1) := by
  have hmem {k : ℕ} (hk : maxLogNumber + 1 ≤ k) :
      n ∈ visited first k ↔ n = first ∨ 1 ≤ n ∧ n ≤ maxLogNumber := by
    obtain ⟨k, rfl⟩ := Nat.exists_eq_add_of_le' (Nat.one_le_of_lt hk)
    have hnext : Wheel.next maxLogNumber first ≤ maxLogNumber := Wheel.next_le (by decide)
    rw [visited, Wheel.interval_succ, List.mem_cons]
    refine or_congr_right ⟨Wheel.bounds_of_mem_interval Wheel.one_le_next hnext, fun hn => ?_⟩
    obtain ⟨j, hj, he⟩ := Wheel.mem_interval.1
      ((Wheel.mem_interval_full Wheel.one_le_next hnext).2 hn)
    exact Wheel.mem_interval.2 ⟨j, hj.trans_le (Nat.le_of_succ_le_succ hk), he⟩
  rw [hmem hk, hmem le_rfl]

theorem namesToDelete_of_le {first : ℕ} (hf : first ≤ maxLogNumber) (k : ℕ) :
    namesToDelete first k = (visited first k).map logName := by
  induction k with
  | zero => rfl
  | succ k ih =>
    rw [namesToDelete_succ, ih, logFileToDelete,
      Device.printNumbers_of_canonical canonical_default hf, visited, visited,
      Wheel.interval_succ', List.map_append, List.map_singleton, logName]

/-- All the space is taken by one log. -/
def Env.filledBy (n : ℕ) : Env where
  freeClusterCount card := if logName n ∈ card then 0 else 100000000

namespace Device

variable {fuel k : ℕ} {env : Env} {b : Bool} {buf : List Char} {d d' : Device}

/-! ## The loop -/

/-- Less space than wanted is measured. -/
def Cramped (env : Env) (d : Device) : Prop := freeKB env d.card < minFreeSpace d.config

instance (env : Env) : DecidablePred (Cramped env) := fun _ => Nat.decLt _ _

/-- A round of the loop of `check_sd_free_space`, on the array that names the log to
    delete and the device. -/
def deleteNamed (env : Env) (s : List Char × Device) : List Char × Device :=
  let d := (s.2.sdRemove (env.removes (toText s.1)) (toText s.1)).advanceFirst
  (sprintfNumToLogfileName d.firstLogFileNumber s.1, d)

/-- The device after `k` rounds. -/
def deletions (env : Env) (k : ℕ) (d : Device) : Device :=
  ((deleteNamed env)^[k] (sprintfNumToLogfileName d.firstLogFileNumber defaultLogFileName, d)).2

/-- While old logs may be overwritten, the loop deletes the log that is named as long
    as there is too little space. -/
theorem freeSpaceLoop_of_overwriteLogs_eq (ho : d.config.overwriteLogs = true) :
    freeSpaceLoop env fuel buf d =
      (whileLoop (fun s => Cramped env s.2) (deleteNamed env) fuel (buf, d)).map (true, ·.2) := by
  induction fuel generalizing buf d with
  | zero => rfl
  | succ fuel ih =>
    rw [freeSpaceLoop, whileLoop]
    by_cases hc : Cramped env d
    · have hc' : freeKB env d.card < minFreeSpace d.config := hc
      rw [if_pos hc, if_pos hc', ho]
      exact ih (d := (deleteNamed env (buf, d)).2) ho
    · rw [if_neg hc]
      exact if_neg hc

theorem checkSdFreeSpace_of_overwriteLogs (ho : d.config.overwriteLogs = true) :
    d.checkSdFreeSpace fuel env =
      (whileLoop (fun s => Cramped env s.2) (deleteNamed env) fuel
        (sprintfNumToLogfileName d.firstLogFileNumber defaultLogFileName, d)).map (true, ·.2) :=
  freeSpaceLoop_of_overwriteLogs_eq ho

theorem sdRemove_card_eq (env : Env) (name : Name) (d : Device) :
    (d.sdRemove (env.removes name) name).card = withoutFiles env.removes d.card [name] := by
  refine Finmap.ext_lookup fun n => ?_
  simp only [sdRemove_card, lookup_withoutFiles, List.mem_singleton]
  by_cases hn : n = name
  · subst hn
    by_cases hm : n ∈ d.card
    · cases env.removes n <;> simp [hm]
    · simp [hm, Finmap.lookup_eq_none.2 hm]
  · have hr : ¬ (n = name ∧ env.removes n = true) := fun h => hn h.1
    rw [if_neg hr]
    split
    · exact Finmap.lookup_erase_ne hn
    · rfl

/-- The rounds change the card, the first log number, in memory and in the EEPROM, and
    the trace. -/
theorem deletions_freed (env : Env) (k : ℕ) (d : Device) : Freed d (d.deletions env k) := by
  rw [deletions]
  induction k with
  | zero => exact .refl d
  | succ k ih =>
    obtain ⟨card, first, cell, trace, he⟩ := ih
    rw [Function.iterate_succ_apply', deleteNamed, he]
    exact ⟨_, _, _, _, rfl⟩

@[simp] theorem deletions_config (env : Env) (k : ℕ) (d : Device) :
    (d.deletions env k).config = d.config := by
  obtain ⟨_, _, _, _, he⟩ := deletions_freed env k d
  rw [he]

/-- After `k` rounds, the files of the first `k` names are gone, and the array names
    the next one. -/
theorem iterate_deleteNamed (env : Env) (k : ℕ) (d : Device) :
    ((deleteNamed env)^[k]
        (sprintfNumToLogfileName d.firstLogFileNumber defaultLogFileName, d)).1 =
      logFileToDelete d.firstLogFileNumber k ∧
    (d.deletions env k).firstLogFileNumber = nextNumber^[k] d.firstLogFileNumber ∧
    (d.deletions env k).card =
      withoutFiles env.removes d.card (namesToDelete d.firstLogFileNumber k) := by
  simp only [deletions]
  induction k with
  | zero => exact ⟨rfl, rfl, rfl⟩
  | succ k ih =>
    obtain ⟨hb, hf, hc⟩ := ih
    rw [Function.iterate_succ_apply', deleteNamed]
    have hn : nextNumber^[k + 1] d.firstLogFileNumber =
        nextNumber (nextNumber^[k] d.firstLogFileNumber) := Function.iterate_succ_apply' _ _ _
    refine ⟨?_, ?_, ?_⟩
    · rw [logFileToDelete, printNumbers, ← logFileToDelete, ← hb, hn, ← hf]
      rfl
    · rw [hn, ← hf]
      rfl
    · rw [namesToDelete_succ, withoutFiles_append, ← hc, ← hb, ← sdRemove_card_eq]
      rfl

theorem deletions_firstLogFileNumber (env : Env) (k : ℕ) (d : Device) :
    (d.deletions env k).firstLogFileNumber = nextNumber^[k] d.firstLogFileNumber :=
  (iterate_deleteNamed env k d).2.1

theorem deletions_card (env : Env) (k : ℕ) (d : Device) :
    (d.deletions env k).card =
      withoutFiles env.removes d.card (namesToDelete d.firstLogFileNumber k) :=
  (iterate_deleteNamed env k d).2.2

theorem deletions_firstCell (hk : k ≠ 0) :
    (d.deletions env k).eeprom.loggerFirstLogNum = (d.deletions env k).firstLogFileNumber := by
  obtain ⟨k, rfl⟩ := Nat.exists_eq_succ_of_ne_zero hk
  rw [deletions, Function.iterate_succ_apply']
  rfl

/-- The deletion of files leaves enough space. -/
def RoomWithout (env : Env) (d : Device) (names : List Name) : Prop :=
  minFreeSpace d.config ≤ freeKB env (withoutFiles env.removes d.card names)

instance (env : Env) (d : Device) : DecidablePred (RoomWithout env d) := fun _ => Nat.decLe _ _

theorem cramped_deletions_iff (env : Env) (k : ℕ) (d : Device) :
    Cramped env (d.deletions env k) ↔
      ¬ RoomWithout env d (namesToDelete d.firstLogFileNumber k) := by
  rw [Cramped, RoomWithout, deletions_card, deletions_config, not_le]

/-- The ways out of `check_sd_free_space`: the numbers of rounds it takes. -/
theorem checkSdFreeSpace_cases (h : d.checkSdFreeSpace fuel env = some (b, d')) :
    ∃ k, d' = d.deletions env k ∧ (∀ j < k, Cramped env (d.deletions env j)) ∧
      (b = true ↔ ¬ Cramped env d') ∧ (d.config.overwriteLogs = false → k = 0) := by
  cases ho : d.config.overwriteLogs with
  | false =>
    obtain rfl := checkSdFreeSpace_of_not_overwriteLogs ho h
    refine ⟨0, rfl, fun j hj => absurd hj (Nat.not_lt_zero j), ?_, fun _ => rfl⟩
    cases fuel with
    | zero => cases h
    | succ fuel =>
      rw [checkSdFreeSpace, freeSpaceLoop, ho] at h
      by_cases hc : Cramped env d'
      · have hc' : freeKB env d'.card < minFreeSpace d'.config := hc
        rw [if_pos hc'] at h
        cases h
        exact iff_of_false (by decide) (not_not.2 hc)
      · have hc' : ¬ freeKB env d'.card < minFreeSpace d'.config := hc
        rw [if_neg hc'] at h
        cases h
        exact iff_of_true rfl hc
  | true =>
    rw [checkSdFreeSpace_of_overwriteLogs ho] at h
    obtain ⟨t, ht, he⟩ := Option.map_eq_some_iff.1 h
    cases he
    obtain ⟨k, -, hl, rfl⟩ := whileLoop_eq_some_iff.1 ht
    exact ⟨k, rfl, hl.1, iff_of_true rfl hl.2, fun h => absurd h (by decide)⟩

/-- The loop that may delete logs ends if and only if their deletion, one after the
    other, makes room. -/
theorem exists_checkSdFreeSpace_iff (env : Env) (ho : d.config.overwriteLogs = true) :
    (∃ fuel r, d.checkSdFreeSpace fuel env = some r) ↔
      ∃ k, RoomWithout env d (namesToDelete d.firstLogFileNumber k) := by
  have hroom (k : ℕ) : ¬ Cramped env (d.deletions env k) ↔
      RoomWithout env d (namesToDelete d.firstLogFileNumber k) := by
    rw [cramped_deletions_iff, not_not]
  have hends : (∃ fuel t, whileLoop (fun s => Cramped env s.2) (deleteNamed env) fuel
      (sprintfNumToLogfileName d.firstLogFileNumber defaultLogFileName, d) = some t) ↔
        ∃ k, ¬ Cramped env (d.deletions env k) := exists_whileLoop_iff
  simp only [← hroom, checkSdFreeSpace_of_overwriteLogs ho]
  rw [← hends]
  constructor
  · rintro ⟨fuel, r, h⟩
    obtain ⟨t, ht, -⟩ := Option.map_eq_some_iff.1 h
    exact ⟨fuel, t, ht⟩
  · rintro ⟨fuel, t, ht⟩
    exact ⟨fuel, (true, t.2), by rw [ht]; rfl⟩

/-! ## What it comes to -/

/-- A card with the logs 999, 1 and 2, the oldest first. -/
def overWrap : Device where
  card := ((Finmap.singleton (logName 999) ['a']).insert (logName 1) ['b']).insert (logName 2) ['c']
  eeprom := ⟨3, 999, 1, 2⟩
  config := { overwriteLogs := true }
  nextLogFileNumber := 3
  firstLogFileNumber := 999

/-- If `check_sd_free_space` returns, it has deleted the logs of the numbers from the
    old first one on, up to the new one and in this order, each when there was too
    little space, and nothing else. -/
theorem checkSdFreeSpace_deletes (hf : d.firstLogFileNumber ≤ maxLogNumber)
    (h : d.checkSdFreeSpace fuel env = some (b, d')) :
    ∃ k, d' = d.deletions env k ∧
      d'.firstLogFileNumber = (Wheel.next maxLogNumber)^[k] d.firstLogFileNumber ∧
      (∀ name, d'.card.lookup name =
        if name ∈ (visited d.firstLogFileNumber k).map logName ∧ env.removes name then none
        else d.card.lookup name) ∧
      (∀ j < k, freeKB env (d.deletions env j).card < minFreeSpace d.config) ∧
      (b = true → minFreeSpace d.config ≤ freeKB env d'.card) ∧
      d'.firstLogFileNumber ≤ maxLogNumber ∧
      (k ≠ 0 → d'.eeprom.loggerFirstLogNum = d'.firstLogFileNumber) ∧
      d'.nextLogFileNumber = d.nextLogFileNumber ∧
      (d.config.overwriteLogs = false → k = 0) := by
  obtain ⟨k, rfl, hg, hb, ho⟩ := checkSdFreeSpace_cases h
  have hfirst := (deletions_firstLogFileNumber env k d).trans (iterate_nextNumber hf k).1
  refine ⟨k, rfl, hfirst, fun name => ?_, fun j hj => ?_, fun hb' => ?_, ?_, deletions_firstCell,
    ?_, ho⟩
  · rw [deletions_card, namesToDelete_of_le hf, lookup_withoutFiles]
  · have hj := hg j hj
    rwa [Cramped, deletions_config] at hj
  · have hc := hb.1 hb'
    rwa [Cramped, deletions_config, not_lt] at hc
  · rw [hfirst]
    exact (iterate_nextNumber hf k).2
  · obtain ⟨_, _, _, _, he⟩ := deletions_freed env k d
    rw [he]

/-- Log 1 takes the space: the first two logs make room. -/
theorem checkSdFreeSpace_deletes_wrap :
    ∃ b d', checkSdFreeSpace 3 (.filledBy 1) overWrap = some (b, d') ∧
      ∃ k, d' = overWrap.deletions (.filledBy 1) k ∧
        d'.firstLogFileNumber = (Wheel.next maxLogNumber)^[k] 999 ∧
        (∀ name, d'.card.lookup name =
          if name ∈ (visited 999 k).map logName ∧ (Env.filledBy 1).removes name then none
          else overWrap.card.lookup name) ∧
        (∀ j < k, freeKB (.filledBy 1) (overWrap.deletions (.filledBy 1) j).card <
          minFreeSpace overWrap.config) ∧
        (b = true → minFreeSpace overWrap.config ≤ freeKB (.filledBy 1) d'.card) ∧
        d'.firstLogFileNumber ≤ maxLogNumber ∧
        (k ≠ 0 → d'.eeprom.loggerFirstLogNum = d'.firstLogFileNumber) ∧
        d'.nextLogFileNumber = overWrap.nextLogFileNumber ∧
        (overWrap.config.overwriteLogs = false → k = 0) := by
  have hs : (checkSdFreeSpace 3 (.filledBy 1) overWrap).isSome = true := by decide +kernel
  obtain ⟨⟨b, d'⟩, h⟩ := Option.isSome_iff_exists.1 hs
  exact ⟨b, d', h, checkSdFreeSpace_deletes (by decide) h⟩

/-- A thousand rounds name everything that the loop can delete. -/
theorem roomWithout_visited
    (h : RoomWithout env d ((visited d.firstLogFileNumber k).map logName)) :
    ∃ k ≤ maxLogNumber + 1,
      RoomWithout env d ((visited d.firstLogFileNumber k).map logName) := by
  rcases Nat.le_total k (maxLogNumber + 1) with hk | hk
  · exact ⟨k, hk, h⟩
  · refine ⟨maxLogNumber + 1, le_rfl, ?_⟩
    have hc (name : Name) : name ∈ (visited d.firstLogFileNumber k).map logName ↔
        name ∈ (visited d.firstLogFileNumber (maxLogNumber + 1)).map logName := by
      simp only [List.mem_map, mem_visited_of_le hk]
    rwa [RoomWithout, ← withoutFiles_congr hc]

/-- `check_sd_free_space` returns, and returns false if the logs make no room however
    many of them are deleted, if and only if it deletes none, or the logs make room. -/
theorem checkSdFreeSpace_returns_iff (env : Env) (hf : d.firstLogFileNumber ≤ maxLogNumber) :
    (∃ fuel b d', d.checkSdFreeSpace fuel env = some (b, d') ∧
        ((∀ k, ¬ RoomWithout env d ((visited d.firstLogFileNumber k).map logName)) → b = false)) ↔
      d.config.overwriteLogs = false ∨
        ∃ k ≤ maxLogNumber + 1,
          RoomWithout env d ((visited d.firstLogFileNumber k).map logName) := by
  cases ho : d.config.overwriteLogs with
  | false =>
    refine iff_of_true ?_ (.inl rfl)
    by_cases hc : Cramped env d
    · refine ⟨1, false, d, ?_, fun _ => rfl⟩
      rw [checkSdFreeSpace, freeSpaceLoop, ho]
      exact if_pos hc
    · refine ⟨1, true, d, checkSdFreeSpace_of_le one_ne_zero (Nat.not_lt.1 hc), fun hn => ?_⟩
      exact absurd (Nat.not_lt.1 hc) (hn 0)
  | true =>
    have hends := exists_checkSdFreeSpace_iff env ho
    simp only [namesToDelete_of_le hf] at hends
    constructor
    · rintro ⟨fuel, b, d', h, -⟩
      obtain ⟨k, hk⟩ := hends.1 ⟨fuel, _, h⟩
      exact .inr (roomWithout_visited hk)
    · intro h
      obtain ⟨k, -, hk⟩ := h.resolve_left (by decide)
      obtain ⟨fuel, ⟨b, d'⟩, h⟩ := hends.2 ⟨k, hk⟩
      exact ⟨fuel, b, d', h, fun hn => absurd hk (hn k)⟩

/-- Where log 1 takes the space, the logs make room. -/
theorem checkSdFreeSpace_returns_wrap :
    ∃ fuel b d', overWrap.checkSdFreeSpace fuel (.filledBy 1) = some (b, d') ∧
      ((∀ k, ¬ RoomWithout (.filledBy 1) overWrap ((visited 999 k).map logName)) → b = false) :=
  (checkSdFreeSpace_returns_iff (.filledBy 1) (d := overWrap) (by decide)).2
    (.inr ⟨2, by decide, by decide +kernel⟩)

/-- After a boot on an empty card, with the space taken by other files, the loop goes
    on for ever. -/
theorem checkSdFreeSpace_never_returns :
    ¬ ∃ fuel r, ((initial ∅ ⟨1, 0, 1, 0⟩).boot { overwriteLogs := true }).checkSdFreeSpace
      fuel .full = some r := by
  rw [exists_checkSdFreeSpace_iff _ rfl]
  rintro ⟨k, hk⟩
  have hfree (card : Card) : freeKB .full card = 0 := by simp [freeKB, Env.full, u32]
  rw [RoomWithout, hfree] at hk
  exact absurd hk (by decide)

end Device

end CanInsight
