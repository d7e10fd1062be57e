import CanInsight.ConfigFile
import CanInsight.Dates
import CanInsight.Lib.JsonText
import CanInsight.Outcomes
import CanInsight.Uploader

/-!
# Reading log headers

The line of JSON that opens a log is put together without escaping anything, and `LogFileMeta`
reads it back with a JSON parser. The parser is a parameter, `deserializeJson`, of which
it is only assumed that it reads JSON that fits its document (`ReadsJson`).

* `HeaderRoundTrips`: the line is JSON for what is configured, and `LogFileMeta` recovers it;
* `HeaderReadable`: nothing has to be escaped in the strings of the configuration, the
  baud rates are printed as they are, and the text of each bus fits its array;
* `headerRoundTrips_iff`: the former if and only if the latter;
* `HeaderRoundTrips.read_logOpened`: what `start_log` leaves on the card is read back then.
-/

namespace CanInsight

open CString Json

/-! ## The header, as a value -/

/-- Flags are printed as numbers. -/
def flag (b : Bool) : Json := .integer (if b then 1 else 0)

/-- What is configured for a bus. -/
def busValue (c : CANBusConfig) : Json :=
  .object
    [("bus_number".toList, .integer c.port),
      ("bus_name".toList, .string c.busName),
      ("baudrate".toList, .integer c.baudrate),
      ("log_std".toList, flag c.logStd),
      ("log_ext".toList, flag c.logExt),
      ("id_filter_mask".toList, .integer c.idFilterMask),
      ("id_filter_value".toList, .integer c.idFilterValue),
      ("log_enabled".toList, flag c.logEnabled)]

/-- What is configured, and the time at which the log starts. -/
def headerValue (config : ConfigManager) (clock : Clock) : Json :=
  .object
    [("unit_type".toList, .string config.unitType),
      ("unit_number".toList, .string config.unitNumber),
      ("can_1".toList, busValue config.canConfig1),
      ("can_2".toList, busValue config.canConfig2),
      ("can_3".toList, busValue config.canConfig3),
      ("log_start_time".toList, .string (setCurrentTimeInBuffer clock.rtc clock.millis))]

/-- The text of a bus and its terminator fit `single_can_log_config_str`. -/
def FitsArray (c : CANBusConfig) : Prop := (busConfigToStr c).length < 160

instance (c : CANBusConfig) : Decidable (FitsArray c) := inferInstanceAs (Decidable (_ < _))

/-- The first line that `start_log` prints. There is none if `bus_config_to_str` writes
    beyond the array it is given. -/
def printedHeader (config : ConfigManager) (clock : Clock) : Option Bytes :=
  if FitsArray config.canConfig1 ∧ FitsArray config.canConfig2 ∧ FitsArray config.canConfig3 then
    some (headerJson config clock)
  else none

/-! ## Reading it -/

/-- The characters that are read, at most so many, until the line ends. Terminators are
    not copied, and `read` gives -1 at the end of the file. -/
def readFirstLine : ℕ → Bytes → Bytes
  | 0, _ => []
  | n + 1, [] => Char.ofNat 255 :: readFirstLine n []
  | n + 1, c :: s =>
    -- the end of the line may be missing: the reading stops at the length of the buffer
    if c = '\n' then [] else if c = nul then readFirstLine n s else c :: readFirstLine n s

/-- The constructor of `LogFileMeta`. Its fields are not set if the line is not read. -/
def LogFileMeta.read (deserializeJson : Bytes → Option Json) (file : Bytes) : Option LogFileMeta :=
  (deserializeJson (readFirstLine 1999 file)).map fun root =>
    { unitNumber := strlcpy 11 (orString [] (member "unit_number" (some root)))
      unitType := strlcpy 11 (orString [] (member "unit_type" (some root)))
      logStartTime := strlcpy 29 (orString [] (member "log_start_time" (some root))) }

mutual

/-- The slots that a value takes in a document, one for each member and element. There is no
    room for numbers but 32-bit integers, and for values that are nested too deep. -/
def slots : ℕ → Json → Option ℕ
  | _, .null => some 0
  | _, .bool _ => some 0
  | _, .integer n => if IsI32 n then some 0 else none
  | _, .float _ _ => none
  | _, .string _ => some 0
  | 0, .array _ => none
  | 0, .object _ => none
  | limit + 1, .array es => slotsOfElements limit es
  | limit + 1, .object ms => slotsOfMembers limit ms

def slotsOfElements : ℕ → List Json → Option ℕ
  | _, [] => some 0
  | limit, v :: vs =>
    (slots limit v).bind fun m => (slotsOfElements limit vs).map fun n => m + n + 1

def slotsOfMembers : ℕ → List (Text × Json) → Option ℕ
  | _, [] => some 0
  | limit, (_, v) :: ms =>
    (slots limit v).bind fun m => (slotsOfMembers limit ms).map fun n => m + n + 1

end

/-- What is assumed of the parser: it reads JSON without escape sequences, if its document
    has room for the slots and the characters. -/
def ReadsJson (deserializeJson : Bytes → Option Json) : Prop :=
  ∀ text v n, Valid text v → '\\' ∉ text → slots 10 v = some n → 16 * n + text.length ≤ 3000 →
    deserializeJson text = some v

/-- The first line is a single line of JSON for what is configured, and the file that begins
    with it gives back the unit and the time. -/
def HeaderRoundTrips (deserializeJson : Bytes → Option Json) (config : ConfigManager)
    (clock : Clock) : Prop :=
  ∃ line, printedHeader config clock = some (line ++ crlf) ∧
    (∀ c ∈ line, c ≠ '\r' ∧ c ≠ '\n') ∧ Valid line (headerValue config clock) ∧
    ∀ rest, LogFileMeta.read deserializeJson (line ++ crlf ++ rest) =
      some ⟨config.unitNumber, config.unitType, setCurrentTimeInBuffer clock.rtc clock.millis⟩

/-! ## The condition -/

/-- The string has nothing to escape, and is not cut within a character. -/
def StandsForItself (s : Bytes) : Prop := Plain s ∧ Utf8 s

/-- The bus is printed in full, and as it is. -/
structure BusReadable (c : CANBusConfig) : Prop where
  busName : StandsForItself c.busName
  baudrate : c.baudrate < 2 ^ 31
  length : c.busName.length + (decimal c.baudrate).length + (decimal c.idFilterMask).length +
    (decimal c.idFilterValue).length ≤ 25

/-- Everything that is configured is printed as it is. -/
structure HeaderReadable (config : ConfigManager) : Prop where
  unitType : StandsForItself config.unitType
  unitNumber : StandsForItself config.unitNumber
  canConfig1 : BusReadable config.canConfig1
  canConfig2 : BusReadable config.canConfig2
  canConfig3 : BusReadable config.canConfig3

/-! ## Members -/

def busFields (c : CANBusConfig) : List Field :=
  [.number "bus_number" c.port c.port,
    .string "bus_name" c.busName,
    .number "baudrate" (i32 c.baudrate) c.baudrate,
    .number "log_std" (if c.logStd then 1 else 0) (if c.logStd then 1 else 0),
    .number "log_ext" (if c.logExt then 1 else 0) (if c.logExt then 1 else 0),
    .number "id_filter_mask" c.idFilterMask c.idFilterMask,
    .number "id_filter_value" c.idFilterValue c.idFilterValue,
    .number "log_enabled" (if c.logEnabled then 1 else 0) (if c.logEnabled then 1 else 0)]

def headerFields (config : ConfigManager) (clock : Clock) : List Field :=
  [.string "unit_type" config.unitType,
    .string "unit_number" config.unitNumber,
    .object "can_1" (busFields config.canConfig1),
    .object "can_2" (busFields config.canConfig2),
    .object "can_3" (busFields config.canConfig3),
    .string "log_start_time" (setCurrentTimeInBuffer clock.rtc clock.millis)]

variable {c : CANBusConfig} {config : ConfigManager} {clock : Clock}

theorem busConfigToStr_eq (c : CANBusConfig) : busConfigToStr c = printObject (busFields c) := by
  delta busConfigToStr
  simp -implicitDefEqProofs only [printObject, busFields, printFields, Field.print, Field.number,
    Field.string, quoted, decimalBool, List.append_assoc, List.cons_append, List.nil_append,
    String.reduceToList]

theorem headerJson_eq (config : ConfigManager) (clock : Clock) :
    headerJson config clock = printObject (headerFields config clock) ++ crlf := by
  delta headerJson
  rw [printObject, headerFields]
  simp only [Field.object, Field.string, ← busConfigToStr_eq]
  generalize busConfigToStr config.canConfig1 = text₁
  generalize busConfigToStr config.canConfig2 = text₂
  generalize busConfigToStr config.canConfig3 = text₃
  generalize setCurrentTimeInBuffer clock.rtc clock.millis = time
  simp -implicitDefEqProofs only [printFields, Field.print, quoted, List.append_assoc,
    List.cons_append, List.nil_append, String.reduceToList]

theorem headerValue_eq (config : ConfigManager) (clock : Clock) :
    headerValue config clock =
      .object ((headerFields config clock).map fun f => (f.key, f.value)) := rfl

theorem busFields_ne_nil (c : CANBusConfig) : busFields c ≠ [] := List.cons_ne_nil _ _

theorem headerFields_ne_nil (config : ConfigManager) (clock : Clock) :
    headerFields config clock ≠ [] := List.cons_ne_nil _ _

theorem sound_busFields (c : CANBusConfig) : ∀ f ∈ busFields c, f.Sound := by
  simp only [busFields, List.forall_mem_cons, List.not_mem_nil, false_imp_iff, implies_true,
    and_true]
  refine ⟨?_, ?_, ?_, ?_, ?_, ?_, ?_, ?_⟩
  · exact Field.number_sound (by decide) (by decide) _ _
  · exact Field.string_sound (by decide) (by decide) _
  all_goals exact Field.number_sound (by decide) (by decide) _ _

theorem sound_headerFields (config : ConfigManager) (clock : Clock) :
    ∀ f ∈ headerFields config clock, f.Sound := by
  have hbus {key : String} (hp : Plain key.toList) (ha : Ascii key.toList) (c : CANBusConfig) :
      (Field.object key (busFields c)).Sound :=
    Field.object_sound hp ha (busFields_ne_nil c) (sound_busFields c)
  simp only [headerFields, List.forall_mem_cons, List.not_mem_nil, false_imp_iff, implies_true,
    and_true]
  refine ⟨?_, ?_, ?_, ?_, ?_, ?_⟩
  · exact Field.string_sound (by decide) (by decide) _
  · exact Field.string_sound (by decide) (by decide) _
  · exact hbus (by decide) (by decide) _
  · exact hbus (by decide) (by decide) _
  · exact hbus (by decide) (by decide) _
  · exact Field.string_sound (by decide) (by decide) _

/-! ## The time -/

theorem mem_setCurrentTimeInBuffer {rtc millis : ℕ} {ch : Char}
    (h : ch ∈ setCurrentTimeInBuffer rtc millis) :
    ch.isDigit = true ∨ ch ∈ ['-', 'T', ':', '.', 'Z'] := by
  have hd {w n : ℕ} : ch ∈ zeroPad w n → ch.isDigit = true := isDigit_of_mem_zeroPad ch
  simp only [setCurrentTimeInBuffer, List.mem_append, List.mem_cons, List.not_mem_nil,
    or_false] at h ⊢
  rcases h with ((((((h | h | h) | h | h) | h | h) | h | h) | h | h) | h | h) | h
  all_goals first | exact .inl (hd h) | simp [h]

theorem length_setCurrentTimeInBuffer_le {rtc : ℕ} (h : rtc < 2 ^ 32) (millis : ℕ) :
    (setCurrentTimeInBuffer rtc millis).length ≤ 24 := by
  obtain ⟨hyear, hmonth, hday⟩ := gmtimeDate_lt (by omega : rtc / 86400 < 50000)
  have h4 := length_zeroPad_le (by decide) hyear 4
  have h2 {n : ℕ} (hn : n < 10 ^ 2) := length_zeroPad_le (by decide) hn 2
  have h3 := length_zeroPad_le (by decide) (by omega : millis % 1000 < 10 ^ 3) 3
  have hm := h2 hmonth
  have hd := h2 hday
  have hhour := h2 (by omega : rtc / 3600 % 24 < 10 ^ 2)
  have hmin := h2 (by omega : rtc / 60 % 60 < 10 ^ 2)
  have hsec := h2 (by omega : rtc % 60 < 10 ^ 2)
  simp -implicitDefEqProofs only [setCurrentTimeInBuffer, List.length_append, List.length_cons,
    List.length_nil]
  omega

theorem isDigit_stands {ch : Char} (h : ch.isDigit = true) :
    ch ≠ '"' ∧ ch ≠ '\\' ∧ ¬ ch < ' ' := by
  rw [Char.isDigit_iff_toNat] at h
  refine ⟨?_, ?_, fun hlt => ?_⟩
  · rintro rfl
    exact absurd h.1 (by decide)
  · rintro rfl
    exact absurd h.2 (by decide)
  · exact absurd (UInt32.lt_iff_toNat_lt.1 hlt) (Nat.not_lt_of_le (Nat.le_trans (by decide) h.1))

theorem standsForItself_time (rtc millis : ℕ) :
    StandsForItself (setCurrentTimeInBuffer rtc millis) := by
  constructor
  · intro ch h
    rcases mem_setCurrentTimeInBuffer h with hd | hs
    · exact isDigit_stands hd
    · have hall : Plain ['-', 'T', ':', '.', 'Z'] := by decide
      exact hall ch hs
  · refine utf8_of_ascii fun ch h => ?_
    rcases mem_setCurrentTimeInBuffer h with hd | hs
    · rw [Char.isDigit_iff_toNat] at hd
      exact Nat.lt_of_le_of_lt hd.2 (by decide)
    · have hall : Ascii ['-', 'T', ':', '.', 'Z'] := by decide
      exact hall ch hs

/-! ## When the members are read back -/

theorem busFields_iff (h : c.baudrate < 2 ^ 32) :
    (∀ f ∈ busFields c, f.cond ∧ Utf8 f.text) ↔
      StandsForItself c.busName ∧ c.baudrate < 2 ^ 31 := by
  simp only [busFields, List.forall_mem_cons, List.not_mem_nil, false_imp_iff, implies_true,
    and_true, Field.number_iff, Field.string_iff, true_and, i32_eq_iff h, StandsForItself]

theorem headerFields_iff (h : config.Configured) :
    (∀ f ∈ headerFields config clock, f.cond ∧ Utf8 f.text) ↔
      StandsForItself config.unitType ∧ StandsForItself config.unitNumber ∧
      (StandsForItself config.canConfig1.busName ∧ config.canConfig1.baudrate < 2 ^ 31) ∧
      (StandsForItself config.canConfig2.busName ∧ config.canConfig2.baudrate < 2 ^ 31) ∧
      StandsForItself config.canConfig3.busName ∧ config.canConfig3.baudrate < 2 ^ 31 := by
  have hbus {key : String} {c : CANBusConfig} (hc : c.baudrate < 2 ^ 32) :
      (Field.object key (busFields c)).cond ∧ Utf8 (Field.object key (busFields c)).text ↔
        StandsForItself c.busName ∧ c.baudrate < 2 ^ 31 :=
    (Field.object_iff (busFields_ne_nil c) (sound_busFields c)).trans (busFields_iff hc)
  have hstring {key : String} {s : Bytes} :
      (Field.string key s).cond ∧ Utf8 (Field.string key s).text ↔ StandsForItself s :=
    Field.string_iff
  simp only [headerFields, List.forall_mem_cons, List.not_mem_nil, false_imp_iff, implies_true,
    and_true, hbus h.canConfig1.baudrate, hbus h.canConfig2.baudrate, hbus h.canConfig3.baudrate,
    hstring, standsForItself_time]

/-! ## Lengths -/

theorem length_busConfigToStr (h : c.port < 10) :
    (busConfigToStr c).length = 134 + (c.busName.length + (decimal (i32 c.baudrate)).length +
      (decimal c.idFilterMask).length + (decimal c.idFilterValue).length) := by
  have hflag (b : Bool) : (decimalBool b).length = 1 := by cases b <;> decide
  have hport : (decimal c.port).length = 1 := by
    rw [decimal_natCast, Nat.toDigits_of_lt_base h]
    rfl
  delta busConfigToStr
  simp -implicitDefEqProofs only [String.reduceToList, List.length_append, List.length_cons,
    List.length_nil, hflag, hport]
  omega

theorem fitsArray_iff (h : c.port < 10) (hb : c.baudrate < 2 ^ 31) :
    FitsArray c ↔ c.busName.length + (decimal c.baudrate).length +
      (decimal c.idFilterMask).length + (decimal c.idFilterValue).length ≤ 25 := by
  rw [FitsArray, length_busConfigToStr h, (i32_eq_iff (Nat.lt_trans hb (by decide))).2 hb]
  omega

theorem length_headerJson (config : ConfigManager) (clock : Clock) :
    (headerJson config clock).length = 93 + (config.unitType.length + config.unitNumber.length +
      (busConfigToStr config.canConfig1).length + (busConfigToStr config.canConfig2).length +
      (busConfigToStr config.canConfig3).length +
      (setCurrentTimeInBuffer clock.rtc clock.millis).length) := by
  delta headerJson
  generalize busConfigToStr config.canConfig1 = text₁
  generalize busConfigToStr config.canConfig2 = text₂
  generalize busConfigToStr config.canConfig3 = text₃
  generalize setCurrentTimeInBuffer clock.rtc clock.millis = time
  simp -implicitDefEqProofs only [String.reduceToList, crlf, List.length_append, List.length_cons,
    List.length_nil]
  omega

/-! ## Reading the line -/

/-- A character that is neither an escape nor a control character. -/
def Clean (ch : Char) : Prop := ch ≠ '\\' ∧ ¬ ch < ' '

instance (ch : Char) : Decidable (Clean ch) := inferInstanceAs (Decidable (_ ∧ _))

theorem Clean.ne {ch d : Char} (h : Clean ch) (hd : d < ' ') : ch ≠ d := fun he => h.2 (he ▸ hd)

theorem clean_quoted {s : Bytes} (hs : Plain s) : ∀ ch ∈ quoted s, Clean ch := by
  simp only [quoted, List.cons_append, List.forall_mem_cons, List.forall_mem_append]
  refine ⟨by decide, fun ch hc => (hs ch hc).2, by decide, fun ch hc => ?_⟩
  exact absurd hc List.not_mem_nil

theorem clean_decimal (m : ℤ) : ∀ ch ∈ decimal m, Clean ch := by
  intro ch h
  rcases mem_decimal h with rfl | hd
  · decide
  · exact (isDigit_stands hd).2

theorem clean_printObject {fs : List Field}
    (hf : ∀ f ∈ fs, Plain f.key ∧ ∀ ch ∈ f.text, Clean ch) :
    ∀ ch ∈ printObject fs, Clean ch := by
  refine forall_mem_printObject ?_ fun f h => ⟨fun ch hc => ((hf f h).1 ch hc).2, (hf f h).2⟩
  simp only [List.forall_mem_cons, List.not_mem_nil, false_imp_iff, implies_true, and_true]
  decide

theorem readFirstLine_append {n : ℕ} {line : Bytes} (rest : Bytes)
    (h : ∀ ch ∈ line, ch ≠ '\n' ∧ ch ≠ nul) (hn : line.length < n) :
    readFirstLine n (line ++ '\n' :: rest) = line := by
  induction line generalizing n with
  | nil =>
    obtain ⟨n, rfl⟩ := Nat.exists_eq_succ_of_ne_zero (Nat.ne_zero_of_lt hn)
    rfl
  | cons ch line ih =>
    obtain ⟨n, rfl⟩ := Nat.exists_eq_succ_of_ne_zero (Nat.ne_zero_of_lt hn)
    obtain ⟨⟨hl, h0⟩, hline⟩ := List.forall_mem_cons.1 h
    rw [List.cons_append, readFirstLine, if_neg hl, if_neg h0, ih hline (Nat.lt_of_succ_lt_succ hn)]

theorem nul_not_mem_of_plain {s : Bytes} (hs : Plain s) : nul ∉ s := by
  intro h
  exact Clean.ne (hs nul h).2 (by decide) rfl

theorem slots_busValue {port : ℕ} (h : c.Configured port) (hp : port < 10)
    (hb : c.baudrate < 2 ^ 31) : slots 9 (busValue c) = some 8 := by
  have hflag (b : Bool) : slots 8 (flag b) = some 0 := by cases b <;> rfl
  have hport : IsI32 c.port := isI32_natCast (by rw [h.port]; omega)
  have hbaud : IsI32 c.baudrate := isI32_natCast hb
  simp -implicitDefEqProofs only [busValue, slots, slotsOfMembers, hflag, if_pos hport,
    if_pos hbaud, if_pos h.idFilterMask, if_pos h.idFilterValue, Option.bind_some,
    Option.map_some]

theorem slots_headerValue (h : config.Configured) (hr : HeaderReadable config) :
    slots 10 (headerValue config clock) = some 30 := by
  simp only [headerValue, slots, slotsOfMembers,
    slots_busValue h.canConfig1 (by decide) hr.canConfig1.baudrate,
    slots_busValue h.canConfig2 (by decide) hr.canConfig2.baudrate,
    slots_busValue h.canConfig3 (by decide) hr.canConfig3.baudrate, Option.bind_some,
    Option.map_some]

/-! ## The round trip -/

/-- The line without its end. -/
def headerLine (config : ConfigManager) (clock : Clock) : Bytes :=
  printObject (headerFields config clock)

theorem valid_headerLine_iff {space : Bytes} (h : config.Configured) (hs : Ends space)
    (hspace : skip space = []) (ha : Ascii space) :
    Valid (headerLine config clock ++ space) (headerValue config clock) ↔
      StandsForItself config.unitType ∧ StandsForItself config.unitNumber ∧
      (StandsForItself config.canConfig1.busName ∧ config.canConfig1.baudrate < 2 ^ 31) ∧
      (StandsForItself config.canConfig2.busName ∧ config.canConfig2.baudrate < 2 ^ 31) ∧
      StandsForItself config.canConfig3.busName ∧ config.canConfig3.baudrate < 2 ^ 31 := by
  rw [headerLine, headerValue_eq, valid_printObject_iff (headerFields_ne_nil config clock)
    (sound_headerFields config clock) hs hspace ha, headerFields_iff h]

theorem valid_headerLine {space : Bytes} (h : config.Configured) (hr : HeaderReadable config)
    (hs : Ends space) (hspace : skip space = []) (ha : Ascii space) :
    Valid (headerLine config clock ++ space) (headerValue config clock) :=
  (valid_headerLine_iff h hs hspace ha).2
    ⟨hr.unitType, hr.unitNumber, ⟨hr.canConfig1.busName, hr.canConfig1.baudrate⟩,
      ⟨hr.canConfig2.busName, hr.canConfig2.baudrate⟩, hr.canConfig3.busName,
      hr.canConfig3.baudrate⟩

theorem ends_nil : Ends [] where
  noEscape := List.not_mem_nil
  notDigit := fun _ h => absurd h (by simp)
  notPart := fun _ h => absurd h (by simp)

theorem ends_return : Ends ['\r'] where
  noEscape := by simp [NoEscape]
  notDigit := by rintro _ ⟨⟩; decide
  notPart := by rintro _ ⟨⟩; decide

theorem clean_busFields (hc : StandsForItself c.busName) :
    ∀ f ∈ busFields c, ∀ ch ∈ f.text, Clean ch := by
  simp only [busFields, List.forall_mem_cons, List.not_mem_nil, false_imp_iff, implies_true,
    and_true]
  refine ⟨?_, clean_quoted hc.1, ?_, ?_, ?_, ?_, ?_, ?_⟩
  all_goals exact clean_decimal _

theorem clean_headerLine (hr : HeaderReadable config) :
    ∀ ch ∈ headerLine config clock, Clean ch := by
  have hbus {c : CANBusConfig} (hc : BusReadable c) :
      ∀ ch ∈ printObject (busFields c), Clean ch :=
    clean_printObject fun f hf => ⟨(sound_busFields c f hf).plain, clean_busFields hc.busName f hf⟩
  refine clean_printObject fun f hf => ⟨(sound_headerFields config clock f hf).plain, ?_⟩
  revert f
  simp only [headerFields, List.forall_mem_cons, List.not_mem_nil, false_imp_iff, implies_true,
    and_true]
  exact ⟨clean_quoted hr.unitType.1, clean_quoted hr.unitNumber.1, hbus hr.canConfig1,
    hbus hr.canConfig2, hbus hr.canConfig3, clean_quoted (standsForItself_time _ _).1⟩

theorem fitsArray_of_readable {port : ℕ} (h : c.Configured port) (hp : port < 10)
    (hc : BusReadable c) : FitsArray c :=
  (fitsArray_iff (h.port ▸ hp) hc.baudrate).2 hc.length

theorem length_headerLine_le (h : config.Configured) (hr : HeaderReadable config)
    (hclock : clock.rtc < 2 ^ 32) : (headerLine config clock).length ≤ 640 := by
  have hjson := congrArg List.length (headerJson_eq config clock)
  rw [length_headerJson, List.length_append] at hjson
  have h1 : _ < 160 := fitsArray_of_readable h.canConfig1 (by decide) hr.canConfig1
  have h2 : _ < 160 := fitsArray_of_readable h.canConfig2 (by decide) hr.canConfig2
  have h3 : _ < 160 := fitsArray_of_readable h.canConfig3 (by decide) hr.canConfig3
  have ht := length_setCurrentTimeInBuffer_le hclock clock.millis
  have hu := h.unitType
  have hn := h.unitNumber
  rw [headerLine]
  omega

theorem member_unitType : member "unit_type" (some (headerValue config clock)) =
    some (.string config.unitType) := rfl

theorem member_unitNumber : member "unit_number" (some (headerValue config clock)) =
    some (.string config.unitNumber) := rfl

theorem member_logStartTime : member "log_start_time" (some (headerValue config clock)) =
    some (.string (setCurrentTimeInBuffer clock.rtc clock.millis)) := rfl

/-- The parser reads what is configured. -/
theorem deserialize_headerLine (h : config.Configured) (hr : HeaderReadable config)
    (hclock : clock.rtc < 2 ^ 32) {deserializeJson : Bytes → Option Json}
    (hd : ReadsJson deserializeJson) (rest : Bytes) :
    deserializeJson (readFirstLine 1999 (headerLine config clock ++ crlf ++ rest)) =
      some (headerValue config clock) := by
  have hlen := length_headerLine_le h hr hclock
  have hclean : ∀ ch ∈ headerLine config clock, Clean ch := clean_headerLine hr
  have hline : readFirstLine 1999 (headerLine config clock ++ crlf ++ rest) =
      headerLine config clock ++ ['\r'] := by
    have hsplit : headerLine config clock ++ crlf ++ rest =
        (headerLine config clock ++ ['\r']) ++ '\n' :: rest := by simp [crlf]
    rw [hsplit, readFirstLine_append]
    · rw [List.forall_mem_append]
      refine ⟨fun ch hc => ⟨(hclean ch hc).ne (by decide), (hclean ch hc).ne (by decide)⟩, ?_⟩
      exact List.forall_mem_singleton.2 (by decide)
    · rw [List.length_append]
      exact Nat.lt_of_le_of_lt (Nat.add_le_add_right hlen _) (by decide)
  have hvalid : Valid (headerLine config clock ++ ['\r']) (headerValue config clock) :=
    valid_headerLine h hr ends_return (by decide) (by decide)
  have hescape : '\\' ∉ headerLine config clock ++ ['\r'] := by
    rw [List.mem_append, not_or]
    exact ⟨fun hm => (hclean _ hm).1 rfl, by decide⟩
  rw [hline]
  refine hd _ _ 30 hvalid hescape (slots_headerValue h hr) ?_
  rw [List.length_append]
  exact Nat.le_trans (Nat.add_le_add_left (Nat.add_le_add_right hlen _) _) (by decide)

/-- `LogFileMeta` gives back what is configured. -/
theorem read_headerLine (h : config.Configured) (hr : HeaderReadable config)
    (hclock : clock.rtc < 2 ^ 32) {deserializeJson : Bytes → Option Json}
    (hd : ReadsJson deserializeJson) (rest : Bytes) :
    LogFileMeta.read deserializeJson (headerLine config clock ++ crlf ++ rest) =
      some ⟨config.unitNumber, config.unitType, setCurrentTimeInBuffer clock.rtc clock.millis⟩ := by
  have hdoc := deserialize_headerLine h hr hclock hd rest
  have hnum : strlcpy 11 config.unitNumber = config.unitNumber :=
    strlcpy_self (nul_not_mem_of_plain hr.unitNumber.1) h.unitNumber
  have htype : strlcpy 11 config.unitType = config.unitType :=
    strlcpy_self (nul_not_mem_of_plain hr.unitType.1) h.unitType
  have htime : strlcpy 29 (setCurrentTimeInBuffer clock.rtc clock.millis) =
      setCurrentTimeInBuffer clock.rtc clock.millis :=
    strlcpy_self (nul_not_mem_of_plain (standsForItself_time _ _).1)
      (Nat.le_trans (length_setCurrentTimeInBuffer_le hclock clock.millis) (by decide))
  rw [LogFileMeta.read, hdoc, Option.map_some, member_unitNumber, member_unitType,
    member_logStartTime, orString, orString, orString, hnum, htype, htime]

/-- The header is a line of JSON that gives everything back, if and only if it is configured
    so that nothing has to be escaped and everything fits. -/
theorem headerRoundTrips_iff (conv : FloatConversion) (root : Option Json)
    (deserializeJson : Bytes → Option Json) (h : ReadsJson deserializeJson)
    (rtc millis : UInt32) :
    HeaderRoundTrips deserializeJson (readConfigFile conv root)
        { rtc := rtc.toNat, millis := millis.toNat } ↔
      HeaderReadable (readConfigFile conv root) := by
  have hconf := readConfigFile_configured conv root
  have hclock : rtc.toNat < 2 ^ 32 := rtc.toNat_lt
  generalize readConfigFile conv root = config at hconf
  constructor
  · rintro ⟨line, hp, -, hvalid, -⟩
    obtain ⟨⟨hf₁, hf₂, hf₃⟩, hline⟩ := Option.ite_none_right_eq_some.1 hp
    rw [headerJson_eq, Option.some.injEq, List.append_left_inj] at hline
    rw [← hline, ← List.append_nil (printObject _)] at hvalid
    obtain ⟨ht, hn, ⟨hn₁, hb₁⟩, ⟨hn₂, hb₂⟩, hn₃, hb₃⟩ :=
      (valid_headerLine_iff hconf ends_nil rfl (by decide)).1 hvalid
    have hport {c : CANBusConfig} {port : ℕ} (hc : c.Configured port) (h : port < 10) :
        c.port < 10 := hc.port ▸ h
    exact ⟨ht, hn,
      ⟨hn₁, hb₁, (fitsArray_iff (hport hconf.canConfig1 (by decide)) hb₁).1 hf₁⟩,
      ⟨hn₂, hb₂, (fitsArray_iff (hport hconf.canConfig2 (by decide)) hb₂).1 hf₂⟩,
      ⟨hn₃, hb₃, (fitsArray_iff (hport hconf.canConfig3 (by decide)) hb₃).1 hf₃⟩⟩
  · intro hr
    refine ⟨headerLine config _, ?_, ?_, ?_, read_headerLine hconf hr hclock h⟩
    · rw [printedHeader, if_pos, headerJson_eq, headerLine]
      exact ⟨fitsArray_of_readable hconf.canConfig1 (by decide) hr.canConfig1,
        fitsArray_of_readable hconf.canConfig2 (by decide) hr.canConfig2,
        fitsArray_of_readable hconf.canConfig3 (by decide) hr.canConfig3⟩
    · intro ch hc
      have hclean := clean_headerLine hr ch hc
      exact ⟨hclean.ne (by decide), hclean.ne (by decide)⟩
    · rw [← List.append_nil (headerLine _ _)]
      exact valid_headerLine hconf hr ends_nil rfl (by decide)

/-- What `start_log` leaves in a new log is read back. -/
theorem HeaderRoundTrips.read_logOpened {deserializeJson : Bytes → Option Json} {d : Device}
    (h : HeaderRoundTrips deserializeJson d.config clock) (hnew : d.found = []) :
    ∃ file, (d.logOpened clock).card.lookup d.logFile = some file ∧
      LogFileMeta.read deserializeJson file =
        some ⟨d.config.unitNumber, d.config.unitType,
          setCurrentTimeInBuffer clock.rtc clock.millis⟩ := by
  obtain ⟨line, hp, -, -, hread⟩ := h
  obtain ⟨-, hline⟩ := Option.ite_none_right_eq_some.1 hp
  refine ⟨Device.header d.config clock, ?_, ?_⟩
  · rw [Device.logOpened_card, Finmap.lookup_insert, hnew, List.nil_append]
  · rw [Device.header, Option.some.inj hline]
    exact hread headerColumns

/-! ## Two configurations -/

/-- A floating-point number without its fraction. -/
def truncated (mantissa exponent : ℤ) : ℤ :=
  if 0 ≤ exponent then mantissa * 10 ^ exponent.toNat
  else mantissa.tdiv (10 ^ (-exponent).toNat)

def truncation : FloatConversion where
  toInt mantissa exponent := bits32 (truncated mantissa exponent)
  toUInt mantissa exponent := bits32 (truncated mantissa exponent)

/-- A unit with a bus of its own name and baud rate. -/
def tractor : Json :=
  .object
    [("unit_type".toList, .string "Tractor".toList),
      ("unit_number".toList, .string "7".toList),
      ("can1".toList, .object
        [("baudrate".toList, .integer 500), ("bus_name".toList, .string "J1939".toList)])]

/-- A unit with a quotation mark in its type. -/
def quotedUnit : Json := .object [("unit_type".toList, .string "a\"b".toList)]

theorem readsJson_parse : ReadsJson parse := fun _ _ _ h _ _ _ => h.2

theorem tractor_readable : HeaderReadable (readConfigFile truncation (some tractor)) := by
  have hs {s : Bytes} (hp : Plain s) (ha : Ascii s) : StandsForItself s := ⟨hp, utf8_of_ascii ha⟩
  refine ⟨?_, ?_, ⟨?_, ?_, ?_⟩, ⟨?_, ?_, ?_⟩, ⟨?_, ?_, ?_⟩⟩
  · exact hs (by decide) (by decide)
  · exact hs (by decide) (by decide)
  · exact hs (by decide) (by decide)
  · decide
  · decide
  · exact hs (by decide) (by decide)
  · decide
  · decide
  · exact hs (by decide) (by decide)
  · decide
  · decide

theorem tractor_roundTrips :
    HeaderRoundTrips parse (readConfigFile truncation (some tractor))
      { rtc := (1610331025 : UInt32).toNat, millis := (42 : UInt32).toNat } :=
  (headerRoundTrips_iff truncation (some tractor) parse readsJson_parse 1610331025 42).2
    tractor_readable

/-- What is printed for it is not JSON. -/
theorem quotedUnit_not_roundTrips :
    ¬ HeaderRoundTrips parse (readConfigFile truncation (some quotedUnit))
      { rtc := (1610331025 : UInt32).toNat, millis := (42 : UInt32).toNat } := by
  rintro ⟨line, hp, -, ⟨-, hparse⟩, -⟩
  have hnone : (printedHeader (readConfigFile truncation (some quotedUnit))
      { rtc := (1610331025 : UInt32).toNat, millis := (42 : UInt32).toNat }).map
        (fun header => (parse (header.take (header.length - 2))).isSome) = some false := by
    decide +kernel
  rw [hp, Option.map_some, crlf, List.length_append, List.length_cons, List.length_singleton,
    Nat.add_sub_cancel, List.take_left, hparse] at hnone
  cases hnone

end CanInsight
