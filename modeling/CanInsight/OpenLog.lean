import CanInsight.FreeSpace
import CanInsight.Operations

/-!
# Making room while a log is open

`start_log` makes room before it closes the log that was written so far, and the
loop of `check_sd_free_space` knows nothing of that log. It spares it if and only
if the logs deleted before it is its turn make room (`RoomBeforeLog`).

* `sparesLog_iff`: for one call of `start_log`;
* `open_log_spared_iff`: for the calls of a run.
-/

namespace CanInsight

open CString Loop

namespace Device

variable {fuel : ℕ} {env : Env} {b : Bool} {d d' : Device}

/-- No round of the loop of `check_sd_free_space` deletes the log file. -/
def SparesLog (env : Env) (d : Device) : Prop :=
  ∀ k, d.config.overwriteLogs = true → (∀ j ≤ k, Cramped env (d.deletions env j)) →
    d.logFile ∈ (d.deletions env k).card → d.logFile ∈ (d.deletions env (k + 1)).card

/-- The log file cannot be deleted, or the logs that are deleted before it make room. -/
def RoomBeforeLog (env : Env) (d : Device) : Prop :=
  d.config.overwriteLogs = false ∨ d.logFile ∉ d.card ∨ env.removes d.logFile = false ∨
    (∀ k, d.logFile ∉ namesToDelete d.firstLogFileNumber k) ∨
    ∃ k, d.logFile ∉ namesToDelete d.firstLogFileNumber k ∧
      RoomWithout env d (namesToDelete d.firstLogFileNumber k)

theorem namesToDelete_subset {first j k : ℕ} (h : j ≤ k) :
    namesToDelete first j ⊆ namesToDelete first k := by
  intro name hn
  obtain ⟨i, hi, rfl⟩ := List.mem_map.1 hn
  exact List.mem_map.2 ⟨i, List.mem_range.2 ((List.mem_range.1 hi).trans_le h), rfl⟩

theorem mem_deletions {name : Name} (k : ℕ) :
    name ∈ (d.deletions env k).card ↔
      name ∈ d.card ∧ ¬ (name ∈ namesToDelete d.firstLogFileNumber k ∧ env.removes name) := by
  rw [deletions_card, mem_withoutFiles]

/-- What the rounds spare is on the card when they are over. -/
theorem SparesLog.mem_card (h : SparesLog env d) (hm : d.logFile ∈ d.card)
    (hc : d.checkSdFreeSpace fuel env = some (b, d')) : d.logFile ∈ d'.card := by
  obtain ⟨k, rfl, hg, -, ho⟩ := checkSdFreeSpace_cases hc
  have hover (hk : k ≠ 0) : d.config.overwriteLogs = true := by
    rw [← Bool.not_eq_false]
    exact fun h => hk (ho h)
  have hi (i : ℕ) (hik : i ≤ k) : d.logFile ∈ (d.deletions env i).card := by
    induction i with
    | zero => exact hm
    | succ i ih =>
      have hlt (j : ℕ) (hj : j ≤ i) : j < k := (Nat.lt_succ_of_le hj).trans_le hik
      exact h i (hover (Nat.ne_zero_of_lt hik)) (fun j hj => hg j (hlt j hj))
        (ih (Nat.le_of_succ_le hik))
  exact hi k le_rfl

/-- A call of `start_log` spares the log if and only if there is room before it. -/
theorem sparesLog_iff (env : Env) (d : Device) : SparesLog env d ↔ RoomBeforeLog env d := by
  constructor
  · intro h
    by_contra hn
    simp only [RoomBeforeLog, not_or, not_forall, not_exists, not_and, not_not,
      Bool.not_eq_false] at hn
    obtain ⟨ho, hm, hr, hk, hroom⟩ := hn
    -- the round in which it is the turn of the log
    obtain ⟨k, hk, hl⟩ : ∃ k, d.logFile ∈ namesToDelete d.firstLogFileNumber (k + 1) ∧
        d.logFile ∉ namesToDelete d.firstLogFileNumber k := by
      obtain ⟨n, hn⟩ := hk
      induction n with
      | zero => exact absurd hn List.not_mem_nil
      | succ n ih =>
        by_cases hl : d.logFile ∈ namesToDelete d.firstLogFileNumber n
        · exact ih hl
        · exact ⟨n, hn, hl⟩
    have hcramped (j : ℕ) (hj : j ≤ k) : Cramped env (d.deletions env j) := by
      rw [cramped_deletions_iff]
      exact hroom j fun h => hl (namesToDelete_subset hj h)
    have hstays := h k ho hcramped ((mem_deletions k).2 ⟨hm, fun h => hl h.1⟩)
    exact ((mem_deletions (k + 1)).1 hstays).2 ⟨hk, hr⟩
  · intro h k ho hcramped hm
    rw [mem_deletions] at hm ⊢
    refine ⟨hm.1, ?_⟩
    rintro ⟨hk, hr⟩
    rcases h with h | h | h | h | ⟨j, hj, hroom⟩
    · exact absurd (ho.symm.trans h) (by decide)
    · exact h hm.1
    · exact absurd (hr.symm.trans h) (by decide)
    · exact h (k + 1) hk
    · -- there was room in a round before the turn of the log
      have hle : j ≤ k := by
        by_contra hlt
        exact hj (namesToDelete_subset (Nat.lt_of_not_le hlt) hk)
      exact (cramped_deletions_iff env j d).1 (hcramped j hle) hroom

/-! ## The calls of a run -/

variable {op : Op}

/-- `data_file` is open on the log file. -/
def LogOpen (d : Device) : Prop := ∃ f, d.dataFile = some f ∧ f.name = d.logFile

/-- The calls of `start_log` that an operation makes spare the log that is open. -/
def SparesOpenLog (d : Device) (op : Op) : Prop :=
  ∀ env e, Starts d op env e → LogOpen e → SparesLog env e

/-- There is room before the open log in the calls of `start_log` that an operation makes. -/
def RoomBeforeOpenLog (d : Device) (op : Op) : Prop :=
  ∀ env e, Starts d op env e → LogOpen e → RoomBeforeLog env e

theorem sparesOpenLog_iff (d : Device) (op : Op) : SparesOpenLog d op ↔ RoomBeforeOpenLog d op := by
  simp only [SparesOpenLog, RoomBeforeOpenLog, sparesLog_iff]

end Device

open Device

/-- Over any run of the program, making room spares the open log in every step if and
    only if there is room before it in every step; and so does making room in the
    state that is reached, whether it returns or not. -/
theorem open_log_spared_iff (card : Card) (eeprom : EEPROM) (ops : List Op) (s : System) :
    (program.Run (fun s => SparesOpenLog s.device) (.initial card eeprom) ops s ↔
        program.Run (fun s => RoomBeforeOpenLog s.device) (.initial card eeprom) ops s) ∧
      ∀ op, SparesOpenLog s.device op ↔ RoomBeforeOpenLog s.device op :=
  ⟨Machine.run_congr fun s => sparesOpenLog_iff s.device, sparesOpenLog_iff s.device⟩

/-- Log 1 takes the space, and is deleted while it is open. -/
theorem open_log_deleted :
    ∃ s d, program.Run Machine.Free (.initial ∅ ⟨1, 0, 1, 0⟩)
        [.boot { overwriteLogs := true }, .startLog 1 .roomy] s ∧
      LogOpen s.device ∧ s.device.logFile = logName 1 ∧ logName 1 ∈ s.device.card ∧
      s.device.checkSdFreeSpace 2 (.filledBy 1) = some (true, d) ∧ logName 1 ∉ d.card ∧
      ¬ SparesOpenLog s.device (.restartLogging 2 (.filledBy 1)) := by
  obtain ⟨s, hrun, hopen, hname, hmem, hcheck⟩ : ∃ s, program.Run Machine.Free
      (.initial ∅ ⟨1, 0, 1, 0⟩) [.boot { overwriteLogs := true }, .startLog 1 .roomy] s ∧
      LogOpen s.device ∧ s.device.logFile = logName 1 ∧ logName 1 ∈ s.device.card ∧
      (s.device.checkSdFreeSpace 2 (.filledBy 1)).map
        (fun r => (r.1, decide (logName 1 ∈ r.2.card))) = some (true, false) :=
    ⟨_, .cons trivial rfl (.cons trivial rfl (.nil _)), ⟨_, rfl, rfl⟩, by decide, by decide,
      by decide +kernel⟩
  obtain ⟨⟨b, d⟩, hd, he⟩ := Option.map_eq_some_iff.1 hcheck
  obtain ⟨rfl, hn⟩ := Prod.mk.inj he
  have hn : logName 1 ∉ d.card := of_decide_eq_false hn
  refine ⟨s, d, hrun, hopen, hname, hmem, hd, hn, fun h => hn ?_⟩
  have hspares : SparesLog (.filledBy 1) s.device := h _ _ .restartLogging hopen
  exact hname ▸ hspares.mem_card (hname ▸ hmem) hd

end CanInsight
