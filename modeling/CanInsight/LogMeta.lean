import CanInsight.LogHeader

/-!
# The fields of `LogFileMeta`

The constructor of `LogFileMeta` returns early when the first line of the log is not JSON,
and nothing but it sets the three arrays of the object. What they hold then is what the
memory held before.

* `MetaArrays.construct`: the constructor, on the memory it finds;
* `WellDefined`: on any memory, the arrays hold terminated texts, which are the same, also
  in the request about the file;
* `wellDefined_iff`: this is so if and only if the parser accepts the line.
-/

namespace CanInsight

open CString Json

/-- The arrays of a `LogFileMeta`, with `UNIT_INFO_MAX_LEN` and `TIME_STRING_MAX_LEN`
    characters. -/
structure MetaArrays where
  unitNumber : List Char
  unitType : List Char
  logStartTime : List Char
  length_unitNumber : unitNumber.length = 11
  length_unitType : unitType.length = 11
  length_logStartTime : logStartTime.length = 29

/-- `strlcpy` of a text into an array, which keeps the rest. -/
def strlcpyInto (s buf : List Char) : List Char := putAt 0 (strlcpy buf.length s) buf

/-- The text of an array ends within it. -/
def Terminated (buf : List Char) : Prop := nul ∈ buf ∧ (toText buf).length < buf.length

variable {s buf : List Char}

theorem length_strlcpy_lt (hb : 0 < buf.length) : (strlcpy buf.length s).length < buf.length :=
  (length_strlcpy_le _ s).trans_lt (Nat.sub_lt hb Nat.one_pos)

theorem length_strlcpyInto (hb : 0 < buf.length) : (strlcpyInto s buf).length = buf.length := by
  have hlt := length_strlcpy_lt (s := s) hb
  rw [strlcpyInto, putAt, List.take_zero, List.nil_append, List.length_append, List.length_cons,
    List.length_drop]
  omega

theorem toText_strlcpyInto (s buf : List Char) :
    toText (strlcpyInto s buf) = strlcpy buf.length s := by
  rw [strlcpyInto, putAt, List.take_zero, List.nil_append]
  exact toText_append _ _ fun c hc => ne_nul_of_mem_toText (List.mem_of_mem_take hc)

theorem terminated_strlcpyInto (hb : 0 < buf.length) : Terminated (strlcpyInto s buf) := by
  refine ⟨?_, ?_⟩
  · exact List.mem_append_right _ List.mem_cons_self
  · rw [toText_strlcpyInto, length_strlcpyInto hb]
    exact length_strlcpy_lt hb

namespace MetaArrays

/-- The constructor of `LogFileMeta`, on whatever the memory of the object holds. -/
def construct (deserializeJson : Bytes → Option Json) (file : Bytes) (m : MetaArrays) :
    MetaArrays :=
  match deserializeJson (readFirstLine 1999 file) with
  | none => m
  | some root =>
    { unitNumber := strlcpyInto (orString [] (member "unit_number" (some root))) m.unitNumber
      unitType := strlcpyInto (orString [] (member "unit_type" (some root))) m.unitType
      logStartTime :=
        strlcpyInto (orString [] (member "log_start_time" (some root))) m.logStartTime
      length_unitNumber := by
        rw [length_strlcpyInto (by rw [m.length_unitNumber]; decide), m.length_unitNumber]
      length_unitType := by
        rw [length_strlcpyInto (by rw [m.length_unitType]; decide), m.length_unitType]
      length_logStartTime := by
        rw [length_strlcpyInto (by rw [m.length_logStartTime]; decide), m.length_logStartTime] }

/-- The texts of the arrays. -/
def texts (m : MetaArrays) : LogFileMeta :=
  ⟨toText m.unitNumber, toText m.unitType, toText m.logStartTime⟩

/-- A memory without a terminator. -/
def filled : MetaArrays :=
  ⟨List.replicate 11 'x', List.replicate 11 'x', List.replicate 29 'x', rfl, rfl, rfl⟩

variable {deserializeJson : Bytes → Option Json} {file : Bytes} {m : MetaArrays}

theorem construct_of_error (h : deserializeJson (readFirstLine 1999 file) = none) :
    m.construct deserializeJson file = m := by
  rw [construct, h]

/-- The texts that are read are those of the header. -/
theorem texts_construct {t : LogFileMeta} (h : LogFileMeta.read deserializeJson file = some t) :
    (m.construct deserializeJson file).texts = t := by
  obtain ⟨root, hroot, rfl⟩ := Option.map_eq_some_iff.1 h
  rw [construct, hroot]
  dsimp only [texts]
  rw [toText_strlcpyInto, toText_strlcpyInto, toText_strlcpyInto, m.length_unitNumber,
    m.length_unitType, m.length_logStartTime]

end MetaArrays

/-- What the constructor makes of a file is determined by the file. -/
structure WellDefined (deserializeJson : Bytes → Option Json) (file : Bytes) : Prop where
  collected : (readFirstLine 1999 file).length < 2000
  terminated : ∀ m : MetaArrays,
    Terminated (m.construct deserializeJson file).unitNumber ∧
      Terminated (m.construct deserializeJson file).unitType ∧
      Terminated (m.construct deserializeJson file).logStartTime
  texts : ∀ m m' : MetaArrays,
    (m.construct deserializeJson file).texts = (m'.construct deserializeJson file).texts
  /-- So is the text of the request. -/
  request : ∀ (m m' : MetaArrays) fileName,
    getUri (m.construct deserializeJson file).texts fileName =
      getUri (m'.construct deserializeJson file).texts fileName

/-- However long the line is, the array has room for what is collected of it. -/
theorem length_readFirstLine_le (n : ℕ) (file : Bytes) : (readFirstLine n file).length ≤ n := by
  induction n generalizing file with
  | zero => exact Nat.zero_le _
  | succ n ih =>
    cases file with
    | nil => exact Nat.succ_le_succ (ih [])
    | cons c s =>
      rw [readFirstLine]
      split
      · exact Nat.zero_le _
      · split
        · exact (ih s).trans n.le_succ
        · exact Nat.succ_le_succ (ih s)

/-- The metadata of a log are well defined if and only if its first line is accepted. -/
theorem wellDefined_iff (deserializeJson : Bytes → Option Json) (file : Bytes) :
    WellDefined deserializeJson file ↔
      (deserializeJson (readFirstLine 1999 file)).isSome = true := by
  cases hroot : deserializeJson (readFirstLine 1999 file) with
  | none =>
    refine iff_of_false (fun h => ?_) (by decide)
    obtain ⟨⟨hnul, -⟩, -⟩ := h.terminated .filled
    rw [MetaArrays.construct_of_error hroot] at hnul
    exact absurd hnul (by decide)
  | some root =>
    refine iff_of_true ?_ rfl
    obtain ⟨t, ht⟩ : ∃ t, LogFileMeta.read deserializeJson file = some t :=
      ⟨_, by rw [LogFileMeta.read, hroot]; rfl⟩
    have htexts (m : MetaArrays) : (m.construct deserializeJson file).texts = t :=
      MetaArrays.texts_construct ht
    refine ⟨(length_readFirstLine_le _ _).trans_lt (by decide), fun m => ?_, fun m m' => ?_,
      fun m m' fileName => ?_⟩
    · rw [MetaArrays.construct, hroot]
      exact ⟨terminated_strlcpyInto (by rw [m.length_unitNumber]; decide),
        terminated_strlcpyInto (by rw [m.length_unitType]; decide),
        terminated_strlcpyInto (by rw [m.length_logStartTime]; decide)⟩
    · rw [htexts, htexts]
    · rw [htexts, htexts]

/-- A file that `create_logs.py` writes. -/
def createdLog : Bytes := "Now the file has more content!".toList

/-- Its line is not JSON. -/
theorem not_wellDefined_createdLog : ¬ WellDefined parse createdLog := by
  have herror : parse (readFirstLine 1999 createdLog) = none := by decide +kernel
  intro h
  obtain ⟨⟨hnul, -⟩, -⟩ := h.terminated .filled
  rw [MetaArrays.construct_of_error herror] at hnul
  exact absurd hnul (by decide)

end CanInsight
