import CanInsight.Firmware
import Mathlib.Data.List.Chain

/-!
# Looking for the card again

`loop` looks for a card that was not there, once for each second that has passed since the
power came on: `target_time` goes on by a second each time, so that no second is lost, and a
`setup` that took long is made up for.

* `Scheduled`: the schedule as an invariant of the passes of `loop`;
* `retries_on_schedule`: how often the card has been looked for after any number of passes, and
  which pass finds it.
-/

namespace CanInsight

open CString JsonDeserializer

/-- The difference of two readings of a counter less than a turn apart. -/
theorem elapsed_of_lt {now since : ℕ} (h : since ≤ now) (h' : now < since + 2 ^ 32) :
    elapsed (u32 now) (u32 since) = now - since := by
  simp only [elapsed, u32]
  omega

namespace Firmware

variable {conv : FloatConversion} {json : Config} {fw fw' fw₀ : Firmware} {p : Pass}

/-- `loop` calls `sd.begin`. -/
def triesCard (fw : Firmware) : Happening → Bool
  | .loop p => fw.Due p.millis ∧ fw.status = .noSd
  | _ => false

/-- How often `loop` calls `sd.begin`. -/
def attempts (conv : FloatConversion) (json : Config) : Firmware → List Happening → ℕ
  | _, [] => 0
  | fw, a :: as =>
    (if fw.triesCard a then 1 else 0) +
      (fw.step conv json a).elim 0 fun fw' => attempts conv json fw' as

/-- The state of the schedule after `n` passes, the last one at `t`: the card has been looked
    for in each of them, or once for each second, whichever is less. -/
structure Scheduled (fw : Firmware) (n t : ℕ) : Prop where
  stage : fw.stage = .loop
  status : fw.status = .noSd
  target : fw.targetTime = u32 (1000 * min n (t / 1000))
  /-- `target_time` is not a whole turn of the counter behind. -/
  behind : t + 1000 < 1000 * min n (t / 1000) + 2 ^ 32

/-- A pass within a second of the last one is due if another second has passed. -/
theorem Scheduled.due_iff {n t t' : ℕ} (h : Scheduled fw n t) (hle : t ≤ t')
    (hle' : t' ≤ t + 1000) :
    fw.Due (u32 t') ↔ min n (t / 1000) < t' / 1000 := by
  have hbehind := h.behind
  have helapsed : elapsed (u32 t') fw.targetTime = t' - 1000 * min n (t / 1000) := by
    rw [h.target]
    exact elapsed_of_lt (by omega) (by omega)
  rw [Due, helapsed]
  omega

/-- The schedule after another pass. -/
theorem schedule_succ {n t t' : ℕ} (hle : t ≤ t') (hle' : t' ≤ t + 1000) :
    min (n + 1) (t' / 1000) =
      min n (t / 1000) + if min n (t / 1000) < t' / 1000 then 1 else 0 := by
  split <;> omega

/-- The rest of a pass leaves the schedule alone. -/
theorem checkSerialTime_schedule (h : fw.checkSerialTime p = some fw') :
    fw'.stage = fw.stage ∧ fw'.status = fw.status ∧ fw'.targetTime = fw.targetTime := by
  rw [checkSerialTime] at h
  split at h
  · cases h
    exact ⟨rfl, rfl, rfl⟩
  · obtain ⟨d, _, rfl⟩ := Option.map_eq_some_iff.1 h
    exact ⟨rfl, rfl, rfl⟩

theorem setupFromSdCard_status {card : Option (ℕ × Env)}
    (h : fw.setupFromSdCard conv json card = some fw') :
    fw'.status = .waitingForData ↔ card.isSome := by
  cases card with
  | none =>
    cases h
    exact ⟨(fun h => by cases h), fun h => by cases h⟩
  | some c =>
    obtain ⟨_, _, h⟩ := Option.bind_eq_some_iff.1 h
    obtain ⟨_, _, rfl⟩ := Option.map_eq_some_iff.1 h
    exact ⟨fun _ => rfl, fun _ => rfl⟩

/-- A pass that finds no card keeps to the schedule. -/
theorem Scheduled.pass {n t t' : ℕ} (h : Scheduled fw n t) (hle : t ≤ t') (hle' : t' ≤ t + 1000)
    (hp : p.millis = u32 t') (hcard : p.card = none)
    (he : fw.step conv json (.loop p) = some fw') : Scheduled fw' (n + 1) t' := by
  obtain ⟨_, he⟩ := Option.ite_none_right_eq_some.1 he
  obtain ⟨fw₁, h₁, h₂⟩ := Option.bind_eq_some_iff.1 he
  obtain ⟨hstage, hstatus, htarget⟩ := checkSerialTime_schedule h₂
  have hdue := h.due_iff hle hle'
  have hnext := schedule_succ (n := n) hle hle'
  have hbehind := h.behind
  have hfirst : fw₁.stage = .loop ∧ fw₁.status = .noSd ∧
      fw₁.targetTime = u32 (1000 * min (n + 1) (t' / 1000)) := by
    rw [retryCard, hp] at h₁
    split at h₁
    case isTrue hd =>
      dsimp only at h₁
      rw [if_pos h.status, hcard] at h₁
      cases h₁
      refine ⟨h.stage, rfl, ?_⟩
      dsimp only
      rw [hnext, if_pos (hdue.1 hd), h.target, u32, u32, Nat.mod_add_mod]
      rfl
    case isFalse hd =>
      cases h₁
      refine ⟨h.stage, h.status, ?_⟩
      rw [hnext, if_neg (hdue.not.1 hd), h.target]
      rfl
  refine ⟨hstage.trans hfirst.1, hstatus.trans hfirst.2.1, htarget.trans hfirst.2.2, ?_⟩
  rw [hnext]
  split <;> omega

/-- A pass sets up a card if one is there and another second has passed. -/
theorem Scheduled.mounts_iff {n t t' : ℕ} (h : Scheduled fw n t) (hle : t ≤ t')
    (hle' : t' ≤ t + 1000) (hp : p.millis = u32 t')
    (he : fw.step conv json (.loop p) = some fw') :
    fw'.status = .waitingForData ↔ p.card.isSome ∧ min n (t / 1000) < t' / 1000 := by
  obtain ⟨_, he⟩ := Option.ite_none_right_eq_some.1 he
  obtain ⟨fw₁, h₁, h₂⟩ := Option.bind_eq_some_iff.1 he
  rw [(checkSerialTime_schedule h₂).2.1, ← h.due_iff hle hle']
  rw [retryCard, hp] at h₁
  split at h₁
  case isTrue hd =>
    dsimp only at h₁
    rw [if_pos h.status] at h₁
    rw [setupFromSdCard_status h₁, and_iff_left hd]
  case isFalse hd =>
    cases h₁
    rw [h.status]
    exact iff_of_false (fun h => by cases h) fun h => hd h.2

/-- The passes are at these times, each within a second of the last one, and find no card. -/
def NoCard (t : ℕ) (ts : List ℕ) (ps : List Pass) : Prop :=
  List.IsChain (fun t u => t ≤ u ∧ u ≤ t + 1000) (t :: ts) ∧
    List.Forall₂ (fun p t => p.millis = u32 t ∧ p.card = none) ps ts

theorem Scheduled.passes {n t : ℕ} {ts : List ℕ} {ps : List Pass} (h : Scheduled fw n t)
    (hps : NoCard t ts ps) (hr : (firmware conv json).Run Machine.Free fw (ps.map .loop) fw') :
    Scheduled fw' (n + ts.length) (ts.getLastD t) ∧
      min n (t / 1000) + attempts conv json fw (ps.map .loop) =
        min (n + ts.length) (ts.getLastD t / 1000) := by
  obtain ⟨hts, hps⟩ := hps
  induction hps generalizing fw n t with
  | nil =>
    cases hr
    exact ⟨h, rfl⟩
  | @cons p t' ps ts hp hps ih =>
    obtain ⟨⟨hle, hle'⟩, hts⟩ := List.isChain_cons_cons.1 hts
    obtain ⟨fw₁, _, hst, hr⟩ := Machine.run_cons_iff.1 hr
    obtain ⟨hlast, hcount⟩ := ih (h.pass hle hle' hp.1 hp.2 hst) hr hts
    have hlen : n + 1 + ts.length = n + (t' :: ts).length := by
      rw [List.length_cons]
      omega
    rw [hlen] at hlast hcount
    rw [List.getLastD_cons]
    refine ⟨hlast, ?_⟩
    have htries : fw.triesCard (.loop p) = decide (min n (t / 1000) < t' / 1000) := by
      rw [triesCard, hp.1, decide_eq_decide, and_iff_left h.status, h.due_iff hle hle']
    have hstep : attempts conv json fw ((p :: ps).map .loop) =
        (if min n (t / 1000) < t' / 1000 then 1 else 0) +
          attempts conv json fw₁ (ps.map .loop) := by
      have hs : fw.step conv json (.loop p) = some fw₁ := hst
      rw [List.map_cons, attempts, hs, htries]
      simp only [decide_eq_true_eq, Option.elim_some]
    rw [hstep, ← hcount, schedule_succ hle hle', Nat.add_assoc]

end Firmware

open Firmware in
/-- Without a card at power-on, `loop` has looked for one in each of its passes, or once for each
    full second since the power came on, whichever is less, however long `setup` took (the
    time `t`) and however often the counter of milliseconds turns over, as long as one pass
    comes within a second of the other. The next pass sets up a card if and only if there is
    one and the passes are behind by a full second. -/
theorem retries_on_schedule {conv : FloatConversion} {json : Config} {fw₀ fw : Firmware}
    {w : WifiSetup} {t : ℕ} {ts : List ℕ} {ps : List Pass} (ht : t + 1000 < 2 ^ 32)
    (hps : NoCard t ts ps)
    (h : (firmware conv json).Run Machine.Free fw₀
      (.powerOn none :: .finishSetup w :: ps.map .loop) fw) :
    attempts conv json fw₀ (.powerOn none :: .finishSetup w :: ps.map .loop) =
        min ts.length (ts.getLastD t / 1000) ∧
      ∀ p t' fw', p.millis = u32 t' → ts.getLastD t ≤ t' → t' ≤ ts.getLastD t + 1000 →
        fw.step conv json (.loop p) = some fw' →
        (fw'.status = .waitingForData ↔
          p.card.isSome ∧ min ts.length (ts.getLastD t / 1000) < t' / 1000) := by
  obtain ⟨fw₁, _, h₁, h⟩ := Machine.run_cons_iff.1 h
  obtain ⟨fw₂, _, h₂, h⟩ := Machine.run_cons_iff.1 h
  have hstart : Scheduled fw₂ 0 t := by
    have hfinish : fw₂ = { fw₀.powerUp with status := .noSd, stage := .loop } := by
      cases h₁
      cases h₂
      rfl
    rw [hfinish]
    exact ⟨rfl, rfl, by rw [Nat.zero_min]; rfl, by rw [Nat.zero_min]; exact ht⟩
  obtain ⟨hsched, hcount⟩ := hstart.passes hps h
  rw [Nat.zero_min, Nat.zero_add, Nat.zero_add] at hcount
  rw [Nat.zero_add] at hsched
  refine ⟨?_, fun p t' fw' hp hle hle' hst => hsched.mounts_iff hle hle' hp hst⟩
  have hs₁ : fw₀.step conv json (.powerOn none) = some fw₁ := h₁
  have hs₂ : fw₁.step conv json (.finishSetup w) = some fw₂ := h₂
  have hno₁ : fw₀.triesCard (.powerOn none) = false := rfl
  have hno₂ : fw₁.triesCard (.finishSetup w) = false := rfl
  rw [attempts, hs₁, Option.elim_some, attempts, hs₂, Option.elim_some, hcount, hno₁, hno₂,
    if_neg Bool.false_ne_true, Nat.zero_add, Nat.zero_add]

/-- The end of a `setup` that finds no network. -/
def noNetwork : WifiSetup where
  scan := { ssids := [] }
  net := fun _ => { getStatus := 404 }
  rounds := 0

/-- The second of three passes is the first in the next second. -/
theorem retries_on_schedule_threePasses :
    Firmware.attempts truncation ⟨true, fun _ => (0, 0)⟩ (.initial ∅ ⟨1, 0, 1, 0⟩)
      (.powerOn none :: .finishSetup noNetwork ::
        [Pass.mk 900 none none, .mk 1000 none none, .mk 1100 none none].map .loop) =
      min 3 (1100 / 1000) := by
  have hps : Firmware.NoCard 100 [900, 1000, 1100]
      [.mk 900 none none, .mk 1000 none none, .mk 1100 none none] := by
    refine ⟨by simp, ?_⟩
    repeat refine .cons ⟨rfl, rfl⟩ ?_
    exact .nil
  exact (retries_on_schedule (by decide) hps (Machine.run_free_iff.2 rfl)).1

end CanInsight
