import CanInsight.Outcomes

/-!
# Traces

The trace of a run only grows (`Extends`), and each function of the logger adds
events of its own kinds: starting a log removes, names and creates files
(`startLog_extends`), and writing prints frames and may create the file it opens
(`opened_printLine_extends`).
-/

namespace CanInsight

open CString

namespace Event

/-- The events of starting a log. -/
def OfStart : Event → Prop
  | removed _ | created _ | session _ _ => True
  | _ => False

/-- The events of writing to the log. -/
def OfWrite : Event → Prop
  | created _ | frames _ => True
  | _ => False

/-- The removal of a file. -/
def IsRemoved : Event → Prop
  | removed _ => True
  | _ => False

end Event

namespace Device

variable {P Q : Event → Prop} {d d' d'' : Device} {fuel : ℕ} {env : Env} {b : Bool}

/-- The trace of `d'` is that of `d`, with events in `P` added to it. -/
def Extends (P : Event → Prop) (d d' : Device) : Prop :=
  ∃ es, d'.trace = es ++ d.trace ∧ ∀ e ∈ es, P e

theorem Extends.of_eq (h : d'.trace = d.trace) : Extends P d d' :=
  ⟨[], h, fun _ h => absurd h List.not_mem_nil⟩

theorem Extends.refl (d : Device) : Extends P d d := .of_eq rfl

theorem Extends.of_cons {e : Event} (he : P e) (h : d'.trace = e :: d.trace) : Extends P d d' :=
  ⟨[e], h, fun _ h => List.mem_singleton.1 h ▸ he⟩

theorem Extends.trans (h : Extends P d d') (h' : Extends P d' d'') : Extends P d d'' := by
  obtain ⟨es, h, hP⟩ := h
  obtain ⟨es', h', hP'⟩ := h'
  refine ⟨es' ++ es, by rw [h', h, List.append_assoc], fun e he => ?_⟩
  rcases List.mem_append.1 he with he | he
  · exact hP' e he
  · exact hP e he

theorem Extends.mono (hPQ : ∀ e, P e → Q e) (h : Extends P d d') : Extends Q d d' := by
  obtain ⟨es, h, hP⟩ := h
  exact ⟨es, h, fun e he => hPQ e (hP e he)⟩

/-! ## Starting a log -/

theorem sdRemove_extends (succeeds : Bool) (name : Name) (d : Device) :
    Extends Event.IsRemoved d (d.sdRemove succeeds name) := by
  by_cases h : succeeds ∧ name ∈ d.card
  · exact .of_cons (e := .removed name) trivial (if_pos h)
  · exact .of_eq (if_neg h)

theorem checkSdFreeSpace_extends (h : d.checkSdFreeSpace fuel env = some (b, d')) :
    Extends Event.IsRemoved d d' := by
  refine (freeSpaceLoop_induct (P := fun _ e => Extends Event.IsRemoved d e) ?_ (.refl d) h).elim
    fun _ h => h
  exact fun _ e he _ _ => he.trans ((sdRemove_extends _ _ e).trans (.of_eq rfl))

theorem NextLog.extends (h : NextLog fuel env d b d') : Extends Event.IsRemoved d d' := by
  cases h with
  | shortcut => exact (sdRemove_extends _ _ _).trans (.of_eq rfl)
  | overwrite => exact (sdRemove_extends _ _ _).trans (.of_eq rfl)
  | reset => exact .of_eq rfl
  | next => exact .of_eq rfl
  | found => exact .of_eq rfl
  | full => exact .of_eq rfl

theorem logOpened_extends (clock : Clock) (d : Device) :
    Extends Event.OfStart d (d.logOpened clock) := by
  by_cases h : d.logFile ∈ d.card
  · exact ⟨[_], by rw [logOpened_trace, if_pos h]; rfl, by simp [Event.OfStart]⟩
  · exact ⟨[_, _], by rw [logOpened_trace, if_neg h]; rfl, by simp [Event.OfStart]⟩

theorem isRemoved_ofStart (e : Event) (h : e.IsRemoved) : e.OfStart := by
  cases e <;> trivial

theorem startLog_extends (h : d.startLog fuel env = some (b, d')) :
    Extends Event.OfStart d d' := by
  have hc {d₁ : Device} {b : Bool}
      (hc : checkSdFreeSpace fuel env { d with logEnabled := false } = some (b, d₁)) :
      Extends Event.OfStart d d₁ := (checkSdFreeSpace_extends hc).mono isRemoved_ofStart
  cases start_of_startLog h with
  | noSpace h₁ => exact hc h₁
  | noName h₁ h₂ => exact (hc h₁).trans (h₂.extends.mono isRemoved_ofStart)
  | notOpened h₁ h₂ =>
    exact ((hc h₁).trans (h₂.extends.mono isRemoved_ofStart)).trans
      (.of_cons (e := .session _ _) trivial rfl)
  | opened h₁ h₂ =>
    exact ((hc h₁).trans (h₂.extends.mono isRemoved_ofStart)).trans (logOpened_extends _ _)

/-! ## Writing -/

theorem drainBuffer_extends (d : Device) : Extends Event.OfWrite d d.drainBuffer := by
  rw [drainBuffer_eq]
  by_cases h : d.writeBuffer ≠ [] ∧ d.dataFile.isSome
  · exact .of_cons (e := .frames _) trivial (if_pos h)
  · exact .of_eq (if_neg h)

theorem openDataFile_extends (succeeds : Bool) (d : Device) :
    Extends Event.OfWrite d (d.openDataFile succeeds) := by
  by_cases h : succeeds ∧ d.logFile ∉ d.card
  · exact .of_cons (e := .created _) trivial (if_pos h)
  · exact .of_eq (if_neg h)

theorem opened_extends (d : Device) : Extends Event.OfWrite d d.opened := by
  unfold opened
  split
  · exact .refl d
  · exact openDataFile_extends true d

theorem printFrames_extends (s : Bytes) (d : Device) :
    Extends Event.OfWrite d (d.printFrames s) := by
  by_cases h : d.dataFile.isSome
  · exact .of_cons (e := .frames s) trivial (if_pos h)
  · exact .of_eq (if_neg h)

theorem printLine_extends (line : Bytes) (d : Device) :
    Extends Event.OfWrite d (d.printLine line) :=
  (drainBuffer_extends d).trans (printFrames_extends line _)

theorem bufferLine_extends (line : Bytes) (d : Device) :
    Extends (· = .overrun) d (d.bufferLine line) := by
  unfold bufferLine
  split
  · exact .of_cons rfl rfl
  · split
    · exact .of_eq rfl
    · exact .refl d

theorem flushSdFile_extends (d : Device) : Extends Event.OfWrite d d.flushSdFile :=
  (drainBuffer_extends d).trans (.of_eq rfl)

theorem reopenFile_extends (succeeds : Bool) (d : Device) :
    Extends Event.OfWrite d (d.reopenFile succeeds) :=
  have h : Extends Event.OfWrite d d.closeDataFile := .of_eq rfl
  h.trans ((openDataFile_extends succeeds _).trans (.of_eq rfl))

theorem opened_printLine_extends (line : Bytes) (d : Device) :
    Extends Event.OfWrite d (d.opened.printLine line) :=
  (opened_extends d).trans (printLine_extends line _)

end Device

end CanInsight
