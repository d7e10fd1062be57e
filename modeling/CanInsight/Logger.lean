import CanInsight.Device

/-!
# The logger

The functions of `SD_CAN_Logger`, on the state of the device. The choices the
surroundings make during one `start_log` are an `Env`: what the library measures
of the free space of the card, whether the card operations succeed, the clocks,
and the value the caller of `set_next_log_filename` finds after the `return;`
without one.

Loops of the source that need not end, like the free-space loop and the search
for a free name, take fuel, and so do the functions that call them; `none` is a
loop still going when the fuel runs out.
-/

namespace CanInsight

open CString

/-- What the surroundings choose during one `start_log`. -/
structure Env where
  /-- `sd.vol()->freeClusterCount()`, for the files then on the card. -/
  freeClusterCount : Card → ℕ
  /-- `sd.vol()->blocksPerCluster()`. -/
  blocksPerCluster : ℕ := 64
  /-- Whether `sd.remove` succeeds on a file that exists. -/
  removes : Name → Bool := fun _ => true
  /-- Whether opening the log file succeeds. -/
  opens : Bool := true
  /-- The value found after `return;` in `set_next_log_filename`. -/
  noValue : Bool := true
  clock : Clock := {}

/-- Much free space, and card operations that succeed. -/
def Env.roomy : Env := { freeClusterCount := fun _ => 100000000 }

/-- No free space. -/
def Env.full : Env := { freeClusterCount := fun _ => 0 }

/-- No free space as long as log 1 is on the card. -/
def Env.tight : Env :=
  { freeClusterCount := fun card => if logName 1 ∈ card then 0 else 100000000 }

namespace Device

/-! ## Construction -/

/-- `reset_log_file_numbers`. -/
@[simps] def resetLogFileNumbers (d : Device) : Device :=
  { d with
    nextLogFileNumber := 1
    firstLogFileNumber := 0
    eeprom := ⟨1, 0, 1, 0⟩ }

/-- A boot: all memory is lost, the constructor reads the EEPROM, and `setup`
    hands the configured size to the logger. -/
def boot (config : ConfigManager) (d : Device) : Device :=
  let d : Device :=
    { card := d.card, eeprom := d.eeprom, config := config, maxLogSize := config.maxLogSize
      firstLogFileNumber := d.eeprom.loggerFirstLogNum
      nextLogFileNumber := d.eeprom.loggerNextLogNum, trace := d.trace }
  if d.nextLogFileNumber > maxLogNumber ∨ d.firstLogFileNumber > maxLogNumber then
    d.resetLogFileNumbers
  else d

/-! ## Flushing and reopening -/

/-- The printing of the write buffer, if there is something in it. -/
def drainBuffer (d : Device) : Device :=
  if d.writeBuffer.length > 0 then { d.printFrames d.writeBuffer with writeBuffer := [] } else d

/-- `flush_sd_file`. -/
def flushSdFile (d : Device) : Device := d.drainBuffer.sync

/-- `reopen_file`, given whether opening succeeds. -/
def reopenFile (succeeds : Bool) (d : Device) : Device :=
  let pos := d.dataFilePosition
  let d := d.closeDataFile.openDataFile succeeds
  { d with dataFile := d.dataFile.map (·.seek pos) }

/-! ## Free space -/

/-- The free space as `check_sd_free_space` computes it, in 32 bits. -/
def freeKB (env : Env) (card : Card) : ℕ :=
  u32 (u32 (env.freeClusterCount card) * (env.blocksPerCluster / 2))

/-- `min_free_space`: `config->max_log_size/1000 * 1.5`, truncated. -/
def minFreeSpace (config : ConfigManager) : ℕ := config.maxLogSize / 1000 * 3 / 2

/-- The step of a log number to the next one, which wraps. -/
def nextNumber (n : ℕ) : ℕ := if u16 (n + 1) > maxLogNumber then 1 else u16 (n + 1)

/-- The step to the next first log number. -/
@[simps!] def advanceFirst (d : Device) : Device :=
  { d with firstLogFileNumber := nextNumber d.firstLogFileNumber }.putFirstLogNum

/-- The loop of `check_sd_free_space`, with the array that names the log to
    delete. -/
def freeSpaceLoop (env : Env) : ℕ → List Char → Device → Option (Bool × Device)
  | 0, _, _ => none
  | fuel + 1, logFileToDelete, d =>
    if freeKB env d.card < minFreeSpace d.config then
      if !d.config.overwriteLogs then some (false, d)
      else
        let name := toText logFileToDelete
        let d := (d.sdRemove (env.removes name) name).advanceFirst
        freeSpaceLoop env fuel (sprintfNumToLogfileName d.firstLogFileNumber logFileToDelete) d
    else some (true, d)

/-- `check_sd_free_space`. -/
def checkSdFreeSpace (fuel : ℕ) (env : Env) (d : Device) : Option (Bool × Device) :=
  freeSpaceLoop env fuel (sprintfNumToLogfileName d.firstLogFileNumber defaultLogFileName) d

/-! ## The next log file -/

/-- The search loop of `set_next_log_filename`: the number found, or `none` when
    the search is back at the first log, and `log_file_name` then. -/
def searchLoop (card : Card) (first : ℕ) : ℕ → ℕ → List Char → Option (Option ℕ × List Char)
  | 0, _, _ => none
  | fuel + 1, logFileToTry, buf =>
    let buf := sprintfNumToLogfileName logFileToTry buf
    if toText buf ∉ card then some (some logFileToTry, buf)
    else
      -- the number is wrapped once it has been tried, not before
      let next := nextNumber logFileToTry
      if next ≠ first then searchLoop card first fuel next buf else some (none, buf)

/-- The shortcut of `set_next_log_filename` while old files are overwritten. -/
def overwriteNext (env : Env) (d : Device) : Device :=
  let d := d.setLogFileName d.nextLogFileNumber
  let d := d.sdRemove (env.removes d.logFile) d.logFile
  { d with
    nextLogFileNumber := u16 (d.nextLogFileNumber + 1)
    firstLogFileNumber := u16 (d.firstLogFileNumber + 1) }.putNextLogNum.putFirstLogNum

/-- The first overwriting of `set_next_log_filename`, which deletes the oldest
    log and remembers to overwrite the next ones. -/
def overwriteFirst (env : Env) (d : Device) : Device :=
  let d := d.setLogFileName d.firstLogFileNumber
  let d := d.sdRemove (env.removes d.logFile) d.logFile
  let d := { d with firstLogFileNumber := u16 (d.firstLogFileNumber + 1) }
  let d := { d with nextLogFileNumber := d.firstLogFileNumber }.putNextLogNum.putFirstLogNum
  { d with overwritingOldFiles := true }

/-- The first log named, to see whether it exists. -/
@[simps!] def nameFirst (d : Device) : Device := d.setLogFileName d.firstLogFileNumber

/-- The wrap of the next log number, once it is past `MAX_LOG_NUMBER`. -/
@[simps] def wrapNext (d : Device) : Device :=
  { d with nextLogFileNumber := if d.nextLogFileNumber > maxLogNumber then 1
                                else d.nextLogFileNumber }

/-- The next log named, to see whether it exists. -/
@[simps!] def nameNext (d : Device) : Device :=
  d.nameFirst.wrapNext.setLogFileName d.wrapNext.nextLogFileNumber

/-- The use of a name that was found free: its number plus one is next. -/
@[simps!] def useNumber (n : ℕ) (d : Device) : Device :=
  { d with nextLogFileNumber := u16 (n + 1) }.putNextLogNum

/-- The return to log 1. -/
@[simps!] def resetToOne (d : Device) : Device := d.nameFirst.resetLogFileNumbers.setLogFileName 1

/-- The search for a name after the next one, which exists. -/
def search (fuel : ℕ) (d : Device) : Option (Option ℕ × List Char) :=
  searchLoop d.card d.firstLogFileNumber fuel (u16 (d.nameNext.nextLogFileNumber + 1))
    d.nameNext.logFileName

/-- `set_next_log_filename`: whether it reports success, and the state then. -/
def setNextLogFilename (fuel : ℕ) (env : Env) (d : Device) : Option (Bool × Device) :=
  if d.overwritingOldFiles ∧ d.nextLogFileNumber = d.firstLogFileNumber then
    -- `return;`, though the function returns a `bool`
    some (env.noValue, d.overwriteNext env)
  else if d.nameFirst.logFile ∉ d.card then some (true, d.resetToOne)
  else if d.nameNext.logFile ∉ d.card then
    some (true, d.nameNext.useNumber d.nameNext.nextLogFileNumber)
  else
    match d.search fuel with
    | none => none
    | some (some n, buf) => some (true, { d.nameNext with logFileName := buf }.useNumber n)
    | some (none, buf) =>
      if d.config.overwriteLogs then
        some (true, { d.nameNext with logFileName := buf }.overwriteFirst env)
      else some (false, { d.nameNext with logFileName := buf })

/-! ## Starting a log -/

/-- The header of the log, and the state that lets lines be logged. -/
def printHeader (clock : Clock) (d : Device) : Device :=
  let d := d.print (headerJson d.config clock)
  let d := { d with logStartMillis := clock.startMillis }.print headerColumns
  { d.sync with logEnabled := true }

/-- The first log ever started is the first log. -/
def setFirstLog (d : Device) : Device :=
  if d.firstLogFileNumber = 0 then { d with firstLogFileNumber := 1 }.putFirstLogNum else d

/-- `next_log_file_number - 1`, an `int`, cut to the 16 bits that are read back. -/
def maxLog (n : ℕ) : ℕ := if n = 0 then 65535 else n - 1

/-- The part of `start_log` after a name has been set. -/
def openLog (env : Env) (d : Device) : Bool × Device :=
  let d := d.emit (.session d.logFile (d.card.lookup d.logFile))
  let d := d.closeDataFile.openDataFile env.opens
  -- before it is known whether the file is open
  let d := d.putMaxLog (maxLog d.nextLogFileNumber)
  if d.dataFile.isSome then (true, (d.printHeader env.clock).setFirstLog) else (false, d)

/-- `start_log`: whether it returns 1, and the state then. -/
def startLog (fuel : ℕ) (env : Env) (d : Device) : Option (Bool × Device) :=
  match checkSdFreeSpace fuel env { d with logEnabled := false } with
  | none => none
  | some (false, d) => some (false, d)
  | some (true, d) =>
    match setNextLogFilename fuel env d with
    | none => none
    | some (false, d) => some (false, d)
    | some (true, d) => some (d.openLog env)

/-- `restart_logging`. -/
def restartLogging (fuel : ℕ) (env : Env) (d : Device) : Option Device :=
  (d.startLog fuel env).map (·.2)

/-! ## Writing a line -/

/-- `print_end_log_line`. -/
def printEndLogLine (d : Device) : Device := d.print eofLine

/-- `write_sd_line` in buffering mode. -/
def bufferLine (line : Bytes) (d : Device) : Device :=
  if d.writeBuffer.length + line.length > 30000 then d.emit .overrun
  else if d.writeBuffer.length + line.length < 30000 then
    { d with writeBuffer := d.writeBuffer ++ line }
  -- a line that would fill the buffer is dropped without a report
  else d

/-- The printing of a line to the open file, after what is still buffered. -/
def printLine (line : Bytes) (d : Device) : Device := d.drainBuffer.printFrames line

/-- `write_sd_line`. The openings it tries succeed as `opens` says, in turn, and
    a rotation meets the surroundings `env`. -/
def writeSdLine (env : Env) : ℕ → (ℕ → Bool) → Bytes → Device → Option Device
  | 0, _, _, _ => none
  | fuel + 1, opens, line, d =>
    if !d.logEnabled then some d
    else if d.noWriteFile then some (d.bufferLine line)
    else if d.dataFile.isSome then
      let d := d.printLine line
      if d.dataFileSize > d.maxLogSize then d.printEndLogLine.restartLogging fuel env else some d
    else
      -- opens the file, and tries again
      writeSdLine env fuel (fun k => opens (k + 1)) line (d.openDataFile (opens 0))

end Device

end CanInsight
