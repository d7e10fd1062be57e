import CanInsight.Lib.CString

/-!
# Configuration and log headers

The fields of `Config_Manager` that the logger and the uploader read, the text
describing a bus (`bus_config_to_str`), the clock reading that starts a log
(`set_current_time_in_buffer`), and the two lines that open a log file: a JSON
object assembled by `start_log` piece by piece, and the column names.
-/

namespace CanInsight

open CString

/-- Text, as the bytes of a file, a message or a buffer. -/
abbrev Bytes := List Char

/-- The line end of `println`. -/
def crlf : Bytes := ['\r', '\n']

/-- `CANBus_Config`, with the 32-bit integers read as the program prints them. -/
structure CANBusConfig where
  baudrate : ℕ := 0
  port : ℕ := 0
  logStd : Bool := false
  logExt : Bool := false
  idFilterMask : ℤ := 0
  idFilterValue : ℤ := 0
  busName : Bytes := []
  logEnabled : Bool := true

/-- The fields of `Config_Manager` that the logger and the uploader read. -/
structure ConfigManager where
  canConfig1 : CANBusConfig := {}
  canConfig2 : CANBusConfig := {}
  canConfig3 : CANBusConfig := {}
  unitType : Bytes := []
  unitNumber : Bytes := []
  /-- `max_log_size`, with the default `DEFAULT_MAX_LOG_FILE_SIZE`. -/
  maxLogSize : ℕ := 1000000000
  overwriteLogs : Bool := false
  deleteUploadedLogs : Bool := false

/-- The conversion `%d` of a flag. -/
def decimalBool (b : Bool) : Bytes := decimal (if b then 1 else 0)

/-- `bus_config_to_str`, on an empty string. -/
def busConfigToStr (c : CANBusConfig) : Bytes :=
  "\x7b\"bus_number\": ".toList ++ decimal c.port ++
  ", \"bus_name\": \"".toList ++ c.busName ++
  "\", \"baudrate\": ".toList ++ decimal (i32 c.baudrate) ++
  ", \"log_std\": ".toList ++ decimalBool c.logStd ++
  ", \"log_ext\": ".toList ++ decimalBool c.logExt ++
  ", \"id_filter_mask\": ".toList ++ decimal c.idFilterMask ++
  ", \"id_filter_value\": ".toList ++ decimal c.idFilterValue ++
  ", \"log_enabled\": ".toList ++ decimalBool c.logEnabled ++
  "\x7d".toList

/-! ## The clock -/

/-- What the clocks show while a log is started: the seconds of the RTC and the
    millisecond counter when the header is printed, and the millisecond counter
    just after. -/
structure Clock where
  rtc : ℕ := 0
  millis : ℕ := 0
  startMillis : ℕ := 0

/-- The date of `gmtime`, as year, month and day, from the days since the
    beginning of 1970 (counted in years that begin in March). -/
def gmtimeDate (days : ℕ) : ℕ × ℕ × ℕ :=
  let z := days + 719468
  let era := z / 146097
  let doe := z % 146097
  -- the days of the era without its leap days, in years
  let yoe := (doe - doe / 1460 + doe / 36524 - doe / 146096) / 365
  let doy := doe - (365 * yoe + yoe / 4 - yoe / 100)
  let mp := (5 * doy + 2) / 153
  let month := if mp < 10 then mp + 3 else mp - 9
  let year := yoe + era * 400 + (if month ≤ 2 then 1 else 0)
  (year, month, doy - (153 * mp + 2) / 5 + 1)

/-- `set_current_time_in_buffer`: an ISO date, like `2021-01-10T20:14:09.000Z`. -/
def setCurrentTimeInBuffer (rtc millis : ℕ) : Bytes :=
  let date := gmtimeDate (rtc / 86400)
  zeroPad 4 date.1 ++ '-' :: zeroPad 2 date.2.1 ++ '-' :: zeroPad 2 date.2.2 ++
  'T' :: zeroPad 2 (rtc / 3600 % 24) ++ ':' :: zeroPad 2 (rtc / 60 % 60) ++
  ':' :: zeroPad 2 (rtc % 60) ++ '.' :: zeroPad 3 (millis % 1000) ++ ['Z']

/-! ## The two lines that open a log file -/

/-- `HEADER_CSV`. -/
def headerCsv : Bytes :=
  "timestamp,CAN_BUS,CAN_EXT,CAN_ID,CAN_LEN,".toList ++
  "Data0,Data1,Data2,Data3,Data4,Data5,Data6,Data7".toList

/-- `EOF_CAN_LOGFILE`. -/
def eofCanLogfile : Bytes := "---- EOF NEXT FILE TO FOLLOW ----".toList

/-- The JSON line that `start_log` prints. -/
def headerJson (config : ConfigManager) (clock : Clock) : Bytes :=
  "\x7b\"unit_type\": \"".toList ++ config.unitType ++
  "\", \"unit_number\": \"".toList ++ config.unitNumber ++
  "\", \"can_1\": ".toList ++ busConfigToStr config.canConfig1 ++
  ", \"can_2\": ".toList ++ busConfigToStr config.canConfig2 ++
  ", \"can_3\": ".toList ++ busConfigToStr config.canConfig3 ++
  ", \"log_start_time\": \"".toList ++ setCurrentTimeInBuffer clock.rtc clock.millis ++
  "\"\x7d".toList ++ crlf

/-- The line of column names that follows it. -/
def headerColumns : Bytes := headerCsv ++ crlf

/-- The line that closes a full log file. -/
def eofLine : Bytes := eofCanLogfile ++ crlf

example : setCurrentTimeInBuffer 1610331025 42 = "2021-01-11T02:10:25.042Z".toList := by decide

end CanInsight
