import CanInsight.Config
import CanInsight.Lib.Json

/-!
# The configuration file

`read_config_file` fills the fields of `Config_Manager` from the JSON document in
`config.txt`. What the document has not, or has with another type, is replaced by a default
(the operator `|` of a value), and strings are cut to the size of their fields.

* `readConfigFile`: what is configured after it;
* `readConfigFile_configured`: the fields are in the ranges of their types.
-/

namespace CanInsight

open CString

/-! ## The values of a document -/

/-- `strlcpy` into an array of `size` characters. -/
def strlcpy (size : ℕ) (s : Bytes) : Bytes := (toText s).take (size - 1)

/-- The conversions of a floating-point number, given by a mantissa and a power of ten, to the
    32 bits of a signed or an unsigned integer. -/
structure FloatConversion where
  toInt : ℤ → ℤ → ℕ
  toUInt : ℤ → ℤ → ℕ

/-- `operator[]` of an object, for a value that need not be there or be an object. -/
def member (key : String) : Option Json → Option Json
  | some (.object members) => members.lookup key.toList
  | _ => none

def containsKey (root : Option Json) (key : String) : Bool := (member key root).isSome

/-- The low 32 bits of an integer. -/
def bits32 (n : ℤ) : ℕ := (n % 2 ^ 32).toNat

/-- `parseInteger`, to 32 bits. -/
def parseInteger : Bytes → ℕ
  | [] => 0
  | c :: s =>
    let number (s : Bytes) : ℤ := Nat.ofDigitChars 10 (s.takeWhile Char.isDigit) 0
    if c = 't' then 1
    else if c = '-' then bits32 (-number s)
    else bits32 (if c = '+' then number s else number (c :: s))

/-- `asIntegral`, to 32 bits, with the conversion of floating-point numbers. -/
def asIntegral (ofFloat : ℤ → ℤ → ℕ) : Option Json → ℕ
  | some (.integer n) => bits32 n
  | some (.float m e) => u32 (ofFloat m e)
  | some (.bool b) => if b then 1 else 0
  | some (.string s) => parseInteger (toText s)
  | _ => 0

/-- `is<double>`. -/
def isNumber : Option Json → Bool
  | some (.integer _) => true
  | some (.float _ _) => true
  | _ => false

/-- `|` with a string. -/
def orString (default : Bytes) : Option Json → Bytes
  | some (.string s) => s
  | _ => default

/-- `|` with a flag. -/
def orBool (default : Bool) : Option Json → Bool
  | some (.bool b) => b
  | _ => default

/-- The 32 bits of `|` with an `int`. -/
def orInt (ofFloat : ℤ → ℤ → ℕ) (default : ℕ) (v : Option Json) : ℕ :=
  -- the value is asked whether it is a number, of whatever range, and then converted
  if isNumber v then asIntegral ofFloat v else u32 default

/-! ## Reading the file -/

/-- `sprintf(…, "CAN%d", port)`. -/
def defaultBusName (port : ℕ) : Bytes := "CAN".toList ++ decimal port

/-- `set_default_can_config`. -/
def setDefaultCanConfig (c : CANBusConfig) : CANBusConfig :=
  { c with
    busName := defaultBusName c.port
    baudrate := 250
    idFilterMask := 0
    idFilterValue := 0
    logExt := true
    logStd := true }

/-- `set_can_config_from_jsonobject`. -/
def setCanConfigFromJsonobject (conv : FloatConversion) (json : Option Json)
    (c : CANBusConfig) : CANBusConfig :=
  { c with
    baudrate := orInt conv.toInt 250 (member "baudrate" json)
    busName := strlcpy 21 (orString (defaultBusName c.port) (member "bus_name" json))
    logExt := orBool true (member "log_extended_frames" json)
    logStd := orBool true (member "log_standard_frames" json)
    idFilterMask := i32 (orInt conv.toInt 0 (member "id_filter_mask" json))
    idFilterValue := i32 (orInt conv.toInt 0 (member "id_filter_value" json)) }

/-- The fields of `Config_Manager` when the file is read: `setup` has only numbered the buses. -/
def setupConfig : ConfigManager where
  canConfig1 := { port := 1 }
  canConfig2 := { port := 2 }
  canConfig3 := { port := 3 }

/-- The configuration of a bus, if the document has one. -/
def readCanConfig (conv : FloatConversion) (root : Option Json) (key : String)
    (c : CANBusConfig) : CANBusConfig :=
  if containsKey root key then setCanConfigFromJsonobject conv (member key root) c
  else setDefaultCanConfig c

/-- `read_config_file`, from what `deserializeJson` makes of the file (nothing, if that is an
    error). -/
def readConfigFile (conv : FloatConversion) (root : Option Json) : ConfigManager :=
  { canConfig1 := readCanConfig conv root "can1" setupConfig.canConfig1
    canConfig2 := readCanConfig conv root "can2" setupConfig.canConfig2
    canConfig3 := readCanConfig conv root "can3" setupConfig.canConfig3
    maxLogSize :=
      if containsKey root "max_file_size" then asIntegral conv.toUInt (member "max_file_size" root)
      else setupConfig.maxLogSize
    unitType :=
      if containsKey root "unit_type" then strlcpy 11 (orString [] (member "unit_type" root))
      else setupConfig.unitType
    unitNumber :=
      if containsKey root "unit_number" then strlcpy 11 (orString [] (member "unit_number" root))
      else setupConfig.unitNumber
    overwriteLogs :=
      if containsKey root "overwrite_logs" then orBool false (member "overwrite_logs" root)
      else setupConfig.overwriteLogs
    deleteUploadedLogs :=
      if containsKey root "delete_uploaded_logs" then
        orBool false (member "delete_uploaded_logs" root)
      else setupConfig.deleteUploadedLogs }

/-! ## What is configured -/

/-- The fields of a bus, in the ranges of their types. -/
structure CANBusConfig.Configured (port : ℕ) (c : CANBusConfig) : Prop where
  port : c.port = port
  busName : c.busName.length ≤ 20
  baudrate : c.baudrate < 2 ^ 32
  idFilterMask : IsI32 c.idFilterMask
  idFilterValue : IsI32 c.idFilterValue

/-- The fields of the configuration, in the ranges of their types. -/
structure ConfigManager.Configured (c : ConfigManager) : Prop where
  maxLogSize : c.maxLogSize < 2 ^ 32
  unitType : c.unitType.length ≤ 10
  unitNumber : c.unitNumber.length ≤ 10
  canConfig1 : c.canConfig1.Configured 1
  canConfig2 : c.canConfig2.Configured 2
  canConfig3 : c.canConfig3.Configured 3

theorem length_strlcpy_le (size : ℕ) (s : Bytes) : (strlcpy size s).length ≤ size - 1 :=
  List.length_take_le _ _

/-- A text that fits is copied as it is. -/
theorem strlcpy_self {size : ℕ} {s : Bytes} (hs : nul ∉ s) (h : s.length ≤ size - 1) :
    strlcpy size s = s := by
  rw [strlcpy, toText_self hs, List.take_of_length_le h]

theorem bits32_lt (n : ℤ) : bits32 n < 2 ^ 32 := by
  rw [bits32]
  omega

theorem parseInteger_lt (s : Bytes) : parseInteger s < 2 ^ 32 := by
  cases s with
  | nil => decide
  | cons c s =>
    rw [parseInteger]
    split
    · decide
    · split <;> exact bits32_lt _

theorem asIntegral_lt (ofFloat : ℤ → ℤ → ℕ) (v : Option Json) : asIntegral ofFloat v < 2 ^ 32 := by
  have hzero : 0 < 2 ^ 32 := Nat.two_pow_pos 32
  match v with
  | none => exact hzero
  | some .null => exact hzero
  | some (.bool b) =>
    rw [asIntegral]
    split <;> decide
  | some (.integer n) => exact bits32_lt n
  | some (.float m e) => exact u32_lt _
  | some (.string s) => exact parseInteger_lt _
  | some (.array es) => exact hzero
  | some (.object ms) => exact hzero

theorem orInt_lt (ofFloat : ℤ → ℤ → ℕ) (default : ℕ) (v : Option Json) :
    orInt ofFloat default v < 2 ^ 32 := by
  rw [orInt]
  split
  · exact asIntegral_lt ofFloat v
  · exact u32_lt _

theorem setDefaultCanConfig_configured (c : CANBusConfig) (h : c.port < 10) :
    (setDefaultCanConfig c).Configured c.port where
  port := rfl
  busName := by
    rw [setDefaultCanConfig, defaultBusName, decimal_natCast, Nat.toDigits_of_lt_base h]
    exact Nat.le_add_right 4 16
  baudrate := (by decide : 250 < 2 ^ 32)
  idFilterMask := (by decide : IsI32 0)
  idFilterValue := (by decide : IsI32 0)

theorem setCanConfigFromJsonobject_configured (conv : FloatConversion) (json : Option Json)
    (c : CANBusConfig) : (setCanConfigFromJsonobject conv json c).Configured c.port where
  port := rfl
  busName := length_strlcpy_le _ _
  baudrate := orInt_lt _ _ _
  idFilterMask := isI32_i32 _
  idFilterValue := isI32_i32 _

theorem readCanConfig_configured (conv : FloatConversion) (root : Option Json) (key : String)
    (c : CANBusConfig) (h : c.port < 10) : (readCanConfig conv root key c).Configured c.port := by
  rw [readCanConfig]
  split
  · exact setCanConfigFromJsonobject_configured conv _ c
  · exact setDefaultCanConfig_configured c h

theorem readConfigFile_configured (conv : FloatConversion) (root : Option Json) :
    (readConfigFile conv root).Configured where
  maxLogSize := by
    rw [readConfigFile]
    dsimp only
    split
    · exact asIntegral_lt _ _
    · decide
  unitType := by
    rw [readConfigFile]
    dsimp only
    split
    · exact length_strlcpy_le _ _
    · decide
  unitNumber := by
    rw [readConfigFile]
    dsimp only
    split
    · exact length_strlcpy_le _ _
    · decide
  canConfig1 := readCanConfig_configured conv root _ { port := 1 } (by decide)
  canConfig2 := readCanConfig_configured conv root _ { port := 2 } (by decide)
  canConfig3 := readCanConfig_configured conv root _ { port := 3 } (by decide)

end CanInsight
