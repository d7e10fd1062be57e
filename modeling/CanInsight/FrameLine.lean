import CanInsight.Frame
import CanInsight.Lib.Numeral

/-!
# Reading a frame line

A line of the log is read the way its column names say: the fields between commas, the
time in seconds with three decimals, the identifier and the data in hexadecimal.

* `readFrame`: what a line says;
* `readFrame_canFrameToStr`: it says what the frame was, and when it came, to the
  millisecond, and the line is one line that fits the array of `can_callback`.
-/

namespace CanInsight

open CString

/-! ## Reading -/

/-- What a line of the log says. The time is in milliseconds. -/
@[ext] structure LoggedFrame where
  time : ℕ
  bus : ℕ
  extended : Bool
  id : ℕ
  len : ℕ
  data : List ℕ
  deriving DecidableEq

/-- Seconds with three decimals. -/
def readTime (s : Bytes) : Option ℕ :=
  match s.splitOn '.' with
  | [seconds, millis] =>
    if millis.length = 3 then
      (readNumeral 10 seconds).bind fun s => (readNumeral 10 millis).map (s * 1000 + ·)
    else none
  | _ => none

/-- A flag, printed as a number. -/
def readFlag (s : Bytes) : Option Bool :=
  (readNumeral 10 s).bind fun n => if n = 0 then some false else if n = 1 then some true else none

/-- The fields of a line, as `HEADER_CSV` names them. -/
def readFrame (line : Bytes) : Option LoggedFrame :=
  match line.splitOn ',' with
  | time :: bus :: extended :: id :: len :: data => do
    return {
      time := ← readTime time
      bus := ← readNumeral 10 bus
      extended := ← readFlag extended
      id := ← readNumeral 16 id
      len := ← readNumeral 10 len
      data := ← data.mapM (readNumeral 16) }
  | _ => none

/-! ## The fields that are printed -/

/-- The data bytes that are logged. -/
def CANMessage.dataBytes (msg : CANMessage) : List UInt8 :=
  msg.buf.toList.take (min msg.len.toNat 8)

/-- The fields of a line. -/
def frameFields (msg : CANMessage) (millis logStartMillis : ℕ) : List Bytes :=
  setTimeSinceLogStartInBuffer millis logStartMillis :: zeroPad 1 msg.bus.toNat ::
    decimalBool msg.extended :: hexPad 1 msg.id.toNat :: zeroPad 1 msg.len.toNat ::
    msg.dataBytes.map fun b => hexPad 2 b.toNat

/-- The line without its end. -/
def frameRow (msg : CANMessage) (millis logStartMillis : ℕ) : Bytes :=
  [','].intercalate (frameFields msg millis logStartMillis)

variable (msg : CANMessage) (millis logStartMillis : ℕ)

theorem length_dataBytes : msg.dataBytes.length = min msg.len.toNat 8 := by
  rw [CANMessage.dataBytes, List.length_take, Vector.length_toList]
  omega

theorem length_frameFields :
    (frameFields msg millis logStartMillis).length = 5 + min msg.len.toNat 8 := by
  simp only [frameFields, List.length_cons, List.length_map, length_dataBytes]
  omega

/-- Fields after a first one, each with a comma before it. -/
theorem intercalate_cons (field : Bytes) (fields : List Bytes) :
    [','].intercalate (field :: fields) = field ++ fields.flatMap (',' :: ·) := by
  induction fields generalizing field with
  | nil => simp
  | cons f fields ih => rw [List.intercalate_cons_cons, ih]; simp

theorem canFrameToStr_eq :
    canFrameToStr msg millis logStartMillis = frameRow msg millis logStartMillis ++ crlf := by
  rw [frameRow, frameFields, intercalate_cons]
  simp [canFrameToStr, CANMessage.dataBytes, List.flatMap_map, -List.map_take]

/-! ## The characters of a line -/

/-- A character of a field. -/
def OfField (c : Char) : Prop := c.isDigit = true ∨ c.isUpper = true ∨ c = '.'

instance : DecidablePred OfField := fun _ => inferInstanceAs (Decidable (_ ∨ _))

theorem OfField.ne {c d : Char} (hc : OfField c) (hd : ¬ OfField d) : c ≠ d := by
  rintro rfl
  exact hd hc

theorem ofField_zeroPad (w n : ℕ) : ∀ c ∈ zeroPad w n, OfField c :=
  fun c hc => .inl (isDigit_of_mem_zeroPad c hc)

theorem ofField_hexPad (w n : ℕ) : ∀ c ∈ hexPad w n, OfField c := fun c hc =>
  (isDigit_or_isUpper_of_readNumeral (readNumeral_hexPad w n) c hc).imp id .inl

theorem ofField_time : ∀ c ∈ setTimeSinceLogStartInBuffer millis logStartMillis, OfField c := by
  rw [setTimeSinceLogStartInBuffer, List.forall_mem_append, List.forall_mem_cons]
  exact ⟨ofField_zeroPad _ _, .inr (.inr rfl), ofField_zeroPad _ _⟩

theorem decimalBool_eq (b : Bool) : decimalBool b = zeroPad 1 b.toNat := by
  cases b <;> rfl

theorem ofField_frameFields :
    ∀ f ∈ frameFields msg millis logStartMillis, ∀ c ∈ f, OfField c := by
  simp only [frameFields, decimalBool_eq, List.forall_mem_cons, List.forall_mem_map]
  exact ⟨ofField_time millis logStartMillis, ofField_zeroPad _ _, ofField_zeroPad _ _,
    ofField_hexPad _ _, ofField_zeroPad _ _, fun b _ => ofField_hexPad _ _⟩

/-- A line has the characters of its fields, and commas. -/
theorem mem_frameRow {c : Char} (hc : c ∈ frameRow msg millis logStartMillis) :
    OfField c ∨ c = ',' := by
  rw [frameRow, frameFields, intercalate_cons, List.mem_append, List.mem_flatMap] at hc
  have hfields := ofField_frameFields msg millis logStartMillis
  rw [frameFields, List.forall_mem_cons] at hfields
  rcases hc with hc | ⟨f, hf, hc⟩
  · exact .inl (hfields.1 c hc)
  · rcases List.mem_cons.1 hc with rfl | hc
    · exact .inr rfl
    · exact .inl (hfields.2 f hf c hc)

theorem not_mem_frameRow {c : Char} (hc : ¬ OfField c) (hcomma : c ≠ ',') :
    c ∉ frameRow msg millis logStartMillis := fun hm =>
  (mem_frameRow msg millis logStartMillis hm).elim hc hcomma

/-! ## The line is read back -/

theorem splitOn_frameRow :
    (frameRow msg millis logStartMillis).splitOn ',' = frameFields msg millis logStartMillis := by
  refine List.splitOn_intercalate ',' (fun f hf hc => ?_) (List.cons_ne_nil _ _)
  have hcomma : OfField ',' := ofField_frameFields msg millis logStartMillis f hf ',' hc
  exact absurd hcomma (by rintro (h | h | h) <;> cases h)

theorem readTime_setTime :
    readTime (setTimeSinceLogStartInBuffer millis logStartMillis) =
      some (sinceLogStart millis logStartMillis) := by
  have hlen : (zeroPad 3 (sinceLogStart millis logStartMillis % 1000)).length = 3 := by
    rw [zeroPad_three (Nat.mod_lt _ (by decide))]
    rfl
  have hdot (w n : ℕ) : '.' ∉ zeroPad w n := fun hc => by
    have hd := isDigit_of_mem_zeroPad '.' hc
    cases hd
  rw [readTime, setTimeSinceLogStartInBuffer, List.splitOn_append_cons_self_of_not_mem (hdot _ _),
    List.splitOn_eq_singleton (hdot _ _)]
  dsimp only
  rw [if_pos hlen, readNumeral_zeroPad, readNumeral_zeroPad, Option.bind_some, Option.map_some,
    Nat.div_add_mod']

theorem readFlag_decimalBool (b : Bool) : readFlag (decimalBool b) = some b := by
  rw [decimalBool_eq, readFlag, readNumeral_zeroPad]
  cases b <;> rfl

theorem mapM_readNumeral_hexPad (bytes : List UInt8) :
    (bytes.map fun b => hexPad 2 b.toNat).mapM (readNumeral 16) =
      some (bytes.map UInt8.toNat) := by
  induction bytes with
  | nil => rfl
  | cons b bytes ih => simp [List.mapM_cons, readNumeral_hexPad, ih]

theorem readFrame_frameRow :
    readFrame (frameRow msg millis logStartMillis) =
      some {
        time := sinceLogStart millis logStartMillis
        bus := msg.bus.toNat
        extended := msg.extended
        id := msg.id.toNat
        len := msg.len.toNat
        data := msg.dataBytes.map UInt8.toNat } := by
  rw [readFrame, splitOn_frameRow, frameFields]
  simp [readTime_setTime, readNumeral_zeroPad, readFlag_decimalBool, readNumeral_hexPad,
    mapM_readNumeral_hexPad, -List.mapM_map]

/-- The line of a frame fits `temp_str` with its terminator, is a single line, and is read
    back as the frame, and the time since the log was started, as the counter shows it. -/
theorem readFrame_canFrameToStr (msg : CANMessage) (millis logStartMillis : UInt32) :
    (canFrameToStr msg millis.toNat logStartMillis.toNat ++ [nul]).length ≤ 128 ∧
      nul ∉ canFrameToStr msg millis.toNat logStartMillis.toNat ∧
      ∃ row, canFrameToStr msg millis.toNat logStartMillis.toNat = row ++ crlf ∧
        '\r' ∉ row ∧ '\n' ∉ row ∧
        (row.splitOn ',').length = 5 + min msg.len.toNat 8 ∧
        readFrame row = some {
          time := (millis - logStartMillis).toNat
          bus := msg.bus.toNat
          extended := msg.extended
          id := msg.id.toNat
          len := msg.len.toNat
          data := (msg.buf.toList.take (min msg.len.toNat 8)).map UInt8.toNat } := by
  have hnot {c : Char} (hc : c = nul ∨ c = '\r' ∨ c = '\n') :
      c ∉ frameRow msg millis.toNat logStartMillis.toNat := by
    refine not_mem_frameRow _ _ _ ?_ ?_ <;> rcases hc with rfl | rfl | rfl
    all_goals decide
  have hsince : sinceLogStart millis.toNat logStartMillis.toNat =
      (millis - logStartMillis).toNat := by
    have hstart := logStartMillis.toNat_lt
    rw [sinceLogStart, u32, u32, UInt32.toNat_sub, Nat.mod_eq_of_lt hstart, Nat.add_comm]
  refine ⟨?_, ?_, frameRow msg millis.toNat logStartMillis.toNat, canFrameToStr_eq _ _ _,
    hnot (.inr (.inl rfl)), hnot (.inr (.inr rfl)), ?_, ?_⟩
  · rw [List.length_append, List.length_singleton]
    exact Nat.succ_le_succ (length_canFrameToStr_le msg _ _)
  · rw [canFrameToStr_eq, List.mem_append]
    rintro (hc | hc)
    · exact hnot (.inl rfl) hc
    · exact absurd hc (by decide)
  · rw [splitOn_frameRow, length_frameFields]
  · rw [readFrame_frameRow, hsince]
    rfl

example : readFrame "12.345,1,0,1AB,2,01,FF".toList =
    some ⟨12345, 1, false, 0x1AB, 2, [1, 0xFF]⟩ := by decide

end CanInsight
