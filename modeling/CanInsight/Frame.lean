import CanInsight.Config

/-!
# Frame lines

The line that `can_frame_to_str` makes of a frame: the time since the log was
started, the bus, the identifier and the data. A line fits into the array that
`can_callback` has for it (`length_canFrameToStr_le`).
-/

namespace CanInsight

open CString

/-- The fields of `CAN_message_t` that are logged. -/
structure CANMessage where
  bus : UInt8
  /-- `flags.extended`. -/
  extended : Bool
  id : UInt32
  len : UInt8
  buf : Vector UInt8 8

/-- `millis()-log_start_millis`, in 32 bits. -/
def sinceLogStart (millis logStartMillis : ℕ) : ℕ := u32 (millis + (2 ^ 32 - u32 logStartMillis))

/-- `set_time_since_log_start_in_buffer`: seconds, with the milliseconds. -/
def setTimeSinceLogStartInBuffer (millis logStartMillis : ℕ) : Bytes :=
  zeroPad 1 (sinceLogStart millis logStartMillis / 1000) ++
    '.' :: zeroPad 3 (sinceLogStart millis logStartMillis % 1000)

/-- `can_frame_to_str`. -/
def canFrameToStr (msg : CANMessage) (millis logStartMillis : ℕ) : Bytes :=
  setTimeSinceLogStartInBuffer millis logStartMillis ++
  ',' :: zeroPad 1 msg.bus.toNat ++
  ',' :: decimalBool msg.extended ++
  ',' :: hexPad 1 msg.id.toNat ++
  ',' :: zeroPad 1 msg.len.toNat ++
  (msg.buf.toList.take (min msg.len.toNat 8)).flatMap (fun b => ',' :: hexPad 2 b.toNat) ++ crlf

/-- The time of a line, in the first `2 ^ 32` milliseconds after the log was started. -/
theorem sinceLogStart_of_lt {time start : ℕ} (h : start ≤ time) (h' : time < start + 2 ^ 32) :
    sinceLogStart (u32 time) (u32 start) = time - start := by
  simp only [sinceLogStart, u32]
  omega

theorem length_setTimeSinceLogStart_le (millis logStartMillis : ℕ) :
    (setTimeSinceLogStartInBuffer millis logStartMillis).length ≤ 11 := by
  have hlt : sinceLogStart millis logStartMillis < 2 ^ 32 := Nat.mod_lt _ (by decide)
  have hs := length_zeroPad_le (w := 7) (n := sinceLogStart millis logStartMillis / 1000)
    (by decide) (by omega) 1
  have hm := length_zeroPad_le (w := 3) (n := sinceLogStart millis logStartMillis % 1000)
    (by decide) (by omega) 3
  rw [setTimeSinceLogStartInBuffer, List.length_append, List.length_cons]
  omega

theorem length_data_le (bytes : List UInt8) :
    (bytes.flatMap fun b => ',' :: hexPad 2 b.toNat).length ≤ 3 * bytes.length := by
  induction bytes with
  | nil => exact le_rfl
  | cons b bytes ih =>
    have hb := length_hexPad_le (w := 2) (by decide) b.toNat_lt 2
    rw [List.flatMap_cons, List.length_append, List.length_cons, List.length_cons]
    omega

/-- A line, with its terminator, fits into `temp_str`. -/
theorem length_canFrameToStr_le (msg : CANMessage) (millis logStartMillis : ℕ) :
    (canFrameToStr msg millis logStartMillis).length ≤ 127 := by
  have ht := length_setTimeSinceLogStart_le millis logStartMillis
  have hbus := length_zeroPad_le (w := 3) (n := msg.bus.toNat) (by decide)
    (Nat.lt_trans msg.bus.toNat_lt (by decide)) 1
  have hext : (decimalBool msg.extended).length = 1 := by cases msg.extended <;> decide
  have hid := length_hexPad_le (w := 8) (by decide) msg.id.toNat_lt 1
  have hlen := length_zeroPad_le (w := 3) (n := msg.len.toNat) (by decide)
    (Nat.lt_trans msg.len.toNat_lt (by decide)) 1
  have hdata := length_data_le (msg.buf.toList.take (min msg.len.toNat 8))
  have htake : (msg.buf.toList.take (min msg.len.toNat 8)).length ≤ 8 :=
    Nat.le_trans (List.length_take_le _ _) (Nat.min_le_right _ _)
  have hcrlf : crlf.length = 2 := rfl
  simp only [canFrameToStr, List.length_append, List.length_cons, hext, hcrlf]
  omega

/-- A frame of two bytes. -/
def someFrame : CANMessage := ⟨1, false, 0x1AB, 2, #v[1, 0xFF, 0, 0, 0, 0, 0, 0]⟩

example : canFrameToStr someFrame 12345 0 = "12.345,1,0,1AB,2,01,FF\r\n".toList := by decide

end CanInsight
