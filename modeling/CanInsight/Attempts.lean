import CanInsight.Walk

/-!
# The attempts of `upload_data`

Whatever the server and the network do, `upload_data` attempts a contiguous run of logs
from its cursor on, and moves the cursor past those that succeed.

* `Attempts`: the calls of `upload_file` are about consecutive numbers up to the bound,
  about files that exist at the time, and go on only after a success;
* `UploadRun`: with it, where the cursor is at the end, in memory and in the EEPROM, and
  why the run ends there;
* `uploadData_run`: `upload_data` returns after such a run.
-/

namespace CanInsight

open CString

namespace DataUploader

variable {net : ℕ → Exchange} {u v w : DataUploader} {d e f : Device} {buf : List Char} {b : Bool}
  {fuel max n : ℕ} {c : ℕ × Name × Device} {cs : List (ℕ × Name × Device)}

/-- The result of a call of `upload_file`. -/
def succeeds (net : ℕ → Exchange) (c : ℕ × Name × Device) : Bool :=
  (c.2.2.uploadFile (net c.1) c.2.1).1

/-- The number of calls that succeed. -/
def successes (net : ℕ → Exchange) (cs : List (ℕ × Name × Device)) : ℕ := cs.countP (succeeds net)

/-- The calls attempt the logs from a number on, one after the other. -/
structure Attempts (net : ℕ → Exchange) (max n : ℕ) (cs : List (ℕ × Name × Device)) : Prop where
  numbers : cs.map (·.1) = List.range' n cs.length
  files : ∀ c ∈ cs, c.2.1 = logName c.1 ∧ c.2.1 ∈ c.2.2.card
  bound : ∀ c ∈ cs, c.1 ≤ max
  /-- The first failure is the last call. -/
  stops : ∀ c ∈ cs.dropLast, succeeds net c = true

/-- A run of `upload_data` from one state to another. -/
structure UploadRun (net : ℕ → Exchange) (fuel : ℕ) (u : DataUploader) (d : Device)
    (v : DataUploader) (e : Device) : Prop where
  attempts : Attempts net u.maxLogToUpload u.nextLogToUpload (uploadCalls net fuel u d)
  /-- No file is attempted twice. -/
  nodup : ((uploadCalls net fuel u d).map (·.2.1)).Nodup
  next : v.nextLogToUpload = u.nextLogToUpload + successes net (uploadCalls net fuel u d)
  /-- The cursor is in the EEPROM, if it was there before. -/
  cell : d.eeprom.uploaderNextToTry = u.nextLogToUpload →
    e.eeprom.uploaderNextToTry = v.nextLogToUpload
  /-- Without a failure, the run goes on up to the bound or to a file that does not exist. -/
  ends : (∀ c ∈ uploadCalls net fuel u d, succeeds net c = true) →
    u.maxLogToUpload ≤ v.nextLogToUpload ∨ logName v.nextLogToUpload ∉ e.card

theorem attempts_nil (net : ℕ → Exchange) (max n : ℕ) : Attempts net max n [] where
  numbers := rfl
  files := fun _ h => absurd h List.not_mem_nil
  bound := fun _ h => absurd h List.not_mem_nil
  stops := fun _ h => absurd h List.not_mem_nil

/-- A call that comes before others, if there are any, has succeeded. -/
theorem Attempts.cons {m : ℕ} (h : Attempts net max m cs) (hm : m = n + 1) (hn : c.1 = n)
    (hname : c.2.1 = logName n) (hf : c.2.1 ∈ c.2.2.card) (hmax : n ≤ max)
    (hs : cs ≠ [] → succeeds net c = true) : Attempts net max n (c :: cs) where
  numbers := by rw [List.map_cons, h.numbers, hm, hn, List.length_cons, List.range'_succ]
  files := List.forall_mem_cons.2 ⟨⟨hn ▸ hname, hf⟩, h.files⟩
  bound := List.forall_mem_cons.2 ⟨hn ▸ hmax, h.bound⟩
  stops := by
    cases cs with
    | nil => exact fun _ h => absurd h List.not_mem_nil
    | cons c' cs =>
      rw [List.dropLast_cons_of_ne_nil (List.cons_ne_nil _ _)]
      exact List.forall_mem_cons.2 ⟨hs (List.cons_ne_nil _ _), h.stops⟩

theorem Attempts.nodup (h : Attempts net max n cs) (hmax : max ≤ maxLogNumber) :
    (cs.map (·.2.1)).Nodup := by
  have hnames : cs.map (·.2.1) = (cs.map (·.1)).map logName := by
    rw [List.map_map]
    exact List.map_congr_left fun c hc => (h.files c hc).1
  have hnumbers : (cs.map (·.1)).Nodup := h.numbers ▸ List.nodup_range'
  rw [hnames]
  refine hnumbers.map_on fun i hi j hj => logName_inj ?_ ?_
  · obtain ⟨c, hc, rfl⟩ := List.mem_map.1 hi
    exact (h.bound c hc).trans hmax
  · obtain ⟨c, hc, rfl⟩ := List.mem_map.1 hj
    exact (h.bound c hc).trans hmax

/-- The step of the cursor, below the bound of the log numbers. -/
theorem increment_eq (hn : u.nextLogToUpload ≤ maxLogNumber)
    (h : u.incrementNextLogToUpload d = (b, v, e)) :
    v.nextLogToUpload = u.nextLogToUpload + 1 ∧ v.maxLogToUpload = u.maxLogToUpload ∧
      e.eeprom.uploaderNextToTry = v.nextLogToUpload ∧
      (b = true ↔ v.nextLogToUpload < u.maxLogToUpload) := by
  have hu : u16 (u.nextLogToUpload + 1) = u.nextLogToUpload + 1 :=
    u16_of_lt (Nat.lt_of_le_of_lt (Nat.succ_le_succ hn) (by decide))
  rw [incrementNextLogToUpload, Prod.mk.injEq, Prod.mk.injEq] at h
  obtain ⟨rfl, rfl, rfl⟩ := h
  refine ⟨hu, rfl, rfl, ?_⟩
  rw [Bool.not_eq_true', decide_eq_false_iff_not, Nat.not_lt]
  exact Iff.rfl

/-- The loop from a name, cursor and device on, once it has ended. -/
theorem uploadLoop_run (hmax : u.maxLogToUpload ≤ maxLogNumber) (hb : Names u buf)
    (h : uploadLoop net fuel buf u d = (true, v, e)) :
    Attempts net u.maxLogToUpload u.nextLogToUpload (loopCalls net fuel buf u d) ∧
      v.nextLogToUpload = u.nextLogToUpload + successes net (loopCalls net fuel buf u d) ∧
      (d.eeprom.uploaderNextToTry = u.nextLogToUpload →
        e.eeprom.uploaderNextToTry = v.nextLogToUpload) ∧
      ((∀ c ∈ loopCalls net fuel buf u d, succeeds net c = true) →
        u.maxLogToUpload ≤ v.nextLogToUpload ∨ logName v.nextLogToUpload ∉ e.card) := by
  have hlt : u.maxLogToUpload < 65535 := Nat.lt_of_le_of_lt hmax (by decide)
  have hname := hb.toText hlt
  have hn := (hb hlt).1
  induction fuel generalizing buf u d with
  | zero => cases h
  | succ fuel ih =>
    rw [uploadLoop] at h
    rw [loopCalls]
    by_cases hm : toText buf ∈ d.card
    · rw [if_pos hm] at h
      rw [if_pos hm]
      have hcell := (Device.uploadFile_cursor (net u.nextLogToUpload) (toText buf) d).1
      rcases hu : d.uploadFile (net u.nextLogToUpload) (toText buf) with ⟨b, f⟩
      have hs : succeeds net (u.nextLogToUpload, toText buf, d) = b := by rw [succeeds, hu]
      rw [hu] at h hcell
      cases b with
      | false =>
        -- the call fails, which ends the run
        cases h
        refine ⟨(attempts_nil net _ _).cons rfl rfl hname hm hn fun h => absurd rfl h, ?_,
          fun hc => hcell.trans hc, fun hall => ?_⟩
        · rw [successes, List.countP_singleton, hs]
          rfl
        · rw [List.forall_mem_singleton, hs] at hall
          cases hall
      | true =>
        dsimp only at h hcell ⊢
        rcases hv : u.incrementNextLogToUpload f with ⟨b, w, g⟩
        obtain ⟨hwn, hwm, hwc, hwb⟩ := increment_eq (hn.trans hmax) hv
        rw [hv] at h
        cases b with
        | false =>
          -- the log is the last one up to the bound
          cases h
          refine ⟨(attempts_nil net _ _).cons rfl rfl hname hm hn fun h => absurd rfl h, ?_,
            fun _ => hwc, fun _ => .inl (Nat.not_lt.1 fun hlt => by cases hwb.2 hlt)⟩
          rw [successes, List.countP_singleton, hs, hwn]
          rfl
        | true =>
          have hb' := hb.next hv
          rw [← hwm] at hmax hlt
          obtain ⟨ha, hnext, hc, hend⟩ :=
            ih hmax hb' h hlt (hb'.toText hlt) (hb' hlt).1
          rw [hwm] at ha hend
          dsimp only
          refine ⟨ha.cons hwn rfl hname hm hn fun _ => hs, ?_, fun _ => hc hwc, fun hall => ?_⟩
          · rw [hnext, successes, successes, List.countP_cons_of_pos hs]
            omega
          · exact hend (List.forall_mem_cons.1 hall).2
    · rw [if_neg hm] at h
      rw [if_neg hm]
      cases h
      exact ⟨attempts_nil net _ _, rfl, id, fun _ => .inr (hname ▸ hm)⟩

/-- A card with three logs, of which none is known to be uploaded. -/
def threeLogs : Device :=
  .initial (((Finmap.singleton (logName 1) ['x']).insert (logName 2) ['y']).insert
    (logName 3) ['z']) ⟨5, 1, 1, 4⟩

/-- A server that has log 1, accepts log 2 and is not there for any other. -/
def acceptingTwo (n : ℕ) : Exchange :=
  if n = 1 then .hasFile else if n = 2 then .accepting else { getStatus := -1 }

/-- `upload_data` returns, after a run over consecutive logs. -/
theorem uploadData_run (net : ℕ → Exchange) (hmax : u.maxLogToUpload ≤ maxLogNumber) (d : Device) :
    (∃ r, uploadData net 65536 u d = some r) ∧
      ∀ fuel v e, uploadData net fuel u d = some (v, e) → UploadRun net fuel u d v e := by
  refine ⟨uploadData_returns net (Nat.lt_of_le_of_lt hmax (by decide)) d, fun fuel v e h => ?_⟩
  have hr := uploadRounds_of_uploadData h
  rw [uploadRounds] at hr
  have hnone (hc : uploadCalls net fuel u d = [])
      (hend : u.maxLogToUpload ≤ u.nextLogToUpload ∨ logName u.nextLogToUpload ∉ d.card) :
      UploadRun net fuel u d u d := by
    have ha : Attempts net u.maxLogToUpload u.nextLogToUpload (uploadCalls net fuel u d) :=
      hc ▸ attempts_nil net _ _
    exact ⟨ha, ha.nodup hmax, by rw [hc]; rfl, id, fun _ => hend⟩
  by_cases hn : u.nextLogToUpload > u.maxLogToUpload
  · rw [if_pos hn] at hr
    cases hr
    exact hnone (if_pos hn) (.inl hn.le)
  · have hc : uploadCalls net fuel u d =
        loopCalls net fuel (sprintfNumToLogfileName u.nextLogToUpload defaultLogFileName) u d :=
      if_neg hn
    have hb : Names u (sprintfNumToLogfileName u.nextLogToUpload defaultLogFileName) :=
      fun _ => ⟨Nat.not_lt.1 hn, rfl⟩
    rw [if_neg hn] at hr
    dsimp only at hr
    split at hr
    · next hm =>
      cases hr
      refine hnone ?_ (.inr hm)
      rw [hc]
      cases fuel with
      | zero => rfl
      | succ fuel => rw [loopCalls, if_neg hm]
    · obtain ⟨ha, hnext, hcell, hend⟩ := uploadLoop_run hmax hb hr
      rw [← hc] at ha hnext hend
      exact ⟨ha, ha.nodup hmax, hnext, hcell, hend⟩

/-- Two logs are passed, one without being sent and one sent, and the third is the last. -/
theorem uploadData_run_threeLogs : ∃ fuel v e,
    uploadData acceptingTwo fuel ⟨1, 4⟩ threeLogs = some (v, e) ∧
      (uploadCalls acceptingTwo fuel ⟨1, 4⟩ threeLogs).map (·.1) = [1, 2, 3] ∧
      v.nextLogToUpload = 3 ∧ UploadRun acceptingTwo fuel ⟨1, 4⟩ threeLogs v e := by
  obtain ⟨hcalls, hnext⟩ :
      (uploadCalls acceptingTwo 3 ⟨1, 4⟩ threeLogs).map (·.1) = [1, 2, 3] ∧
        (uploadData acceptingTwo 3 ⟨1, 4⟩ threeLogs).map (·.1.nextLogToUpload) = some 3 := by
    decide +kernel
  obtain ⟨⟨v, e⟩, he, hv⟩ := Option.map_eq_some_iff.1 hnext
  exact ⟨3, v, e, he, hcalls, hv, (uploadData_run acceptingTwo (by decide) threeLogs).2 3 v e he⟩

end DataUploader

end CanInsight
