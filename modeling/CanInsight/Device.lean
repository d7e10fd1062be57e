import CanInsight.Config
import CanInsight.LogName
import Mathlib.Data.Finmap
import Mathlib.Tactic.Simps.Basic

/-!
# The device

The state the program works on: the SD card, the EEPROM cells, the fields of
the one `SD_CAN_Logger`, and a *trace* of what happened so far.

* The card (`Card`) is what a reader of the card finds: the files, each with the
  content its directory entry covers. `data_file` (`OpenFile`) has its own view
  of its file: what it prints is in the file only once the directory entry is
  brought up to date (`sync`, in `flush` and `close`), and is lost at a reboot
  before that. A file removed while `data_file` is open on it stays removed.
* The trace is a history variable: no function of the program reads it.
-/

namespace CanInsight

open CString

/-- The files of the card. Its file system ignores the case of letters, so that one name stands
    for all of its spellings: the one that the program uses, where it uses one. -/
abbrev Card := Finmap fun _ : Name => Bytes

/-- `CONFIG_FILE_NAME`. -/
def configFileName : Name := "config.txt".toList

/-- The EEPROM cells of the logger and the uploader, each 16 bits wide: at 0, 4,
    10 and 12. (`start_log` puts an `int` at 12, whose lower half is the cell.) -/
@[ext] structure EEPROM where
  loggerNextLogNum : ℕ
  loggerFirstLogNum : ℕ
  uploaderNextToTry : ℕ
  uploaderMaxLog : ℕ
  deriving DecidableEq

/-- An open file: its name, its content as seen through it, and its position. -/
structure OpenFile where
  name : Name
  data : Bytes
  pos : ℕ
  deriving DecidableEq

namespace OpenFile

/-- Writing at the position, which moves past what was written. -/
def write (f : OpenFile) (s : Bytes) : OpenFile :=
  { f with data := f.data.take f.pos ++ s ++ f.data.drop (f.pos + s.length)
           pos := f.pos + s.length }

/-- `seek`, which fails beyond the end. -/
def seek (f : OpenFile) (pos : ℕ) : OpenFile :=
  if pos ≤ f.data.length then { f with pos := pos } else f

/-- The position is at the end of the file. -/
def AtEnd (f : OpenFile) : Prop := f.pos = f.data.length

end OpenFile

/-- What is recorded of a run. -/
inductive Event
  /-- `sd.remove` removed a file. -/
  | removed (name : Name)
  /-- A file was created by opening it. -/
  | created (name : Name)
  /-- `start_log` settled on a name, under which the card held `found`. -/
  | session (name : Name) (found : Option Bytes)
  /-- A text of frame lines was printed to `data_file`. -/
  | frames (text : Bytes)
  /-- The error "sd file buffer overrun!" was reported. -/
  | overrun
  /-- `upload_file` was called. -/
  | uploading (name : Name)
  /-- A request was sent: the request target, or header, and the body. -/
  | getSent (uri : Bytes)
  | postSent (header : Bytes)
  | bodySent (bytes : Bytes)
  /-- The status code of the answer to the GET about a file. -/
  | getAnswered (name : Name) (status : ℤ)
  /-- The bytes of the answer to the POST of a file that were read. -/
  | postAnswered (name : Name) (response : Bytes)
  /-- `upload_file` returned true. -/
  | confirmed (name : Name)
  /-- The uploader's cursor moved on past a number. -/
  | advanced (number : ℕ)
  deriving DecidableEq

/-- The state of the device. -/
@[ext] structure Device where
  card : Card
  eeprom : EEPROM
  config : ConfigManager := {}
  maxLogSize : ℕ := 0
  nextLogFileNumber : ℕ := 1
  firstLogFileNumber : ℕ := 0
  noWriteFile : Bool := false
  writeBuffer : Bytes := []
  dataFile : Option OpenFile := none
  logFileName : List Char := defaultLogFileName
  logStartMillis : ℕ := 0
  logEnabled : Bool := true
  overwritingOldFiles : Bool := false
  /-- `can_log_timer` is running. -/
  canLogTimer : Bool := false
  /-- What happened, the latest first. -/
  trace : List Event := []

namespace Device

/-- `log_file_name`, as a C string. -/
def logFile (d : Device) : Name := toText d.logFileName

/-- Recording an event. -/
@[simps] def emit (e : Event) (d : Device) : Device := { d with trace := e :: d.trace }

/-- `sprintf_num_to_logfile_name` on `log_file_name`. -/
@[simps] def setLogFileName (n : ℕ) (d : Device) : Device :=
  { d with logFileName := sprintfNumToLogfileName n d.logFileName }

/-! ## EEPROM and card -/

/-- `EEPROM.put(EEPROM_LOCATION_LOGGER_NEXT_LOG_NUM, next_log_file_number)`. -/
@[simps] def putNextLogNum (d : Device) : Device :=
  { d with eeprom := { d.eeprom with loggerNextLogNum := d.nextLogFileNumber } }

/-- `EEPROM.put(EEPROM_LOCATION_LOGGER_FIRST_LOG_NUM, first_log_file_number)`. -/
@[simps] def putFirstLogNum (d : Device) : Device :=
  { d with eeprom := { d.eeprom with loggerFirstLogNum := d.firstLogFileNumber } }

/-- `EEPROM.put(EEPROM_LOCATION_UPLOADER_NEXT_TO_TRY, n)`. -/
@[simps] def putNextToTry (n : ℕ) (d : Device) : Device :=
  { d with eeprom := { d.eeprom with uploaderNextToTry := n } }

/-- `EEPROM.put(EEPROM_LOCATION_UPLOADER_MAX_LOG, n)`. -/
@[simps] def putMaxLog (n : ℕ) (d : Device) : Device :=
  { d with eeprom := { d.eeprom with uploaderMaxLog := n } }

/-- `sd.remove`, which has no effect if it fails or finds no file. -/
@[simps] def sdRemove (succeeds : Bool) (name : Name) (d : Device) : Device :=
  { d with
    card := if succeeds ∧ name ∈ d.card then d.card.erase name else d.card
    trace := if succeeds ∧ name ∈ d.card then .removed name :: d.trace else d.trace }

/-! ## `data_file` -/

/-- The card once the directory entry of `data_file` is brought up to date, unless
    the file has been removed. -/
def syncedCard (d : Device) : Card :=
  match d.dataFile with
  | some f => if f.name ∈ d.card then d.card.insert f.name f.data else d.card
  | none => d.card

/-- `data_file.flush()`. -/
@[simps] def sync (d : Device) : Device := { d with card := d.syncedCard }

/-- `data_file.close()`. -/
@[simps] def closeDataFile (d : Device) : Device :=
  { d with card := d.syncedCard, dataFile := none }

/-- `data_file` opened on `log_file_name` with `FILE_WRITE`: open or create, with
    the position at the end. -/
@[simps] def openDataFile (succeeds : Bool) (d : Device) : Device :=
  let data := (d.card.lookup d.logFile).getD []
  { d with
    card := if succeeds ∧ d.logFile ∉ d.card then d.card.insert d.logFile [] else d.card
    dataFile := if succeeds then some ⟨d.logFile, data, data.length⟩ else none
    trace := if succeeds ∧ d.logFile ∉ d.card then .created d.logFile :: d.trace else d.trace }

/-- `data_file.print`, without effect if no file is open. -/
@[simps] def print (s : Bytes) (d : Device) : Device :=
  { d with dataFile := d.dataFile.map (·.write s) }

/-- `data_file.print` of frame lines. -/
@[simps] def printFrames (s : Bytes) (d : Device) : Device :=
  { d with
    dataFile := d.dataFile.map (·.write s)
    trace := if d.dataFile.isSome then .frames s :: d.trace else d.trace }

/-- `data_file.size()`. -/
def dataFileSize (d : Device) : ℕ := d.dataFile.elim 0 (·.data.length)

/-- `data_file.position()`. -/
def dataFilePosition (d : Device) : ℕ := d.dataFile.elim 0 (·.pos)

end Device

end CanInsight
