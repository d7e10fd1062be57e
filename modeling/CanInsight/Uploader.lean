import CanInsight.Logger

/-!
# The uploader

The functions of `DataUploader`. What the network and the server do during one
`upload_file` is an `Exchange`: the answers to the GET and to the POST, how long
the connection lasts, and which bytes of the answer to the POST arrive when.
The answer is read into an array that is not initialised, so the exchange also
says what the array held before.
-/

namespace CanInsight

open CString

/-- `LogFileMeta`: what the header of a log says about it. -/
structure LogFileMeta where
  unitNumber : Bytes := []
  unitType : Bytes := []
  logStartTime : Bytes := []

/-- What the network, the server and the card do during one `upload_file`. -/
structure Exchange where
  /-- `LogFileMeta(file_name)`. -/
  logMeta : LogFileMeta := {}
  /-- `http_client.responseStatusCode()`, negative for an error. -/
  getStatus : ℤ
  /-- `internet_client->connect(server, port)`. -/
  connects : Bool := true
  /-- `internet_client->connected()`, before each block of the file. -/
  connected : ℕ → Bool := fun _ => true
  /-- Whether the log file is due to be flushed, after each block is read. -/
  flushDue : ℕ → Bool := fun _ => false
  /-- Whether reopening the log file succeeds, after each block. -/
  reopens : ℕ → Bool := fun _ => true
  /-- Whether reopening the log file succeeds, after the last block. -/
  reopensAtEnd : Bool := true
  /-- The bytes of the answer to the POST that are there right after it. -/
  arrived : Bytes := []
  /-- The bytes that follow before `readBytes` gives up. -/
  later : Bytes := []
  /-- What the array `status` holds before it is read into. -/
  status : Bytes := []
  /-- Whether `sd.remove` succeeds. -/
  removes : Bool := true

namespace Exchange

/-- The answer to the POST, as far as it arrives in time. -/
def response (x : Exchange) : Bytes := x.arrived ++ x.later

/-- The array `status` after `readBytes(status, 12)` and `status[12] = '\0'`. -/
def statusArray (x : Exchange) : List Char :=
  (x.response ++ x.status.drop x.response.length).take 12 ++ [nul]

/-- `strcmp(&status[9], "200") == 0`. -/
def statusIs200 (x : Exchange) : Bool := toText (x.statusArray.drop 9) = ['2', '0', '0']

end Exchange

/-- The status code of an answer that starts with a status line, like
    `HTTP/1.1 200`, is 200. -/
def Answers200 (response : Bytes) : Prop := (response.drop 9).take 3 = ['2', '0', '0']

instance (response : Bytes) : Decidable (Answers200 response) :=
  inferInstanceAs (Decidable (_ = _))

/-- `FILE_BUF_LEN`, a number of chunks of `TCP_LEN` bytes. -/
def fileBufLen : ℕ := 1200 * 200

/-- The request target of the GET that asks for a file. -/
def getUri (m : LogFileMeta) (fileName : Name) : Bytes :=
  "/data_file/?unit_type=".toList ++ m.unitType ++ "&unit_number=".toList ++ m.unitNumber ++
  "&log_time=".toList ++ m.logStartTime ++ "&log_name=".toList ++ fileName

/-- The header of the POST that carries a file. -/
def postHeader (config : ConfigManager) (m : LogFileMeta) (fileName : Name) (fileSize : ℕ) :
    Bytes :=
  "POST /data_file/?log_name=".toList ++ fileName ++
  "&unit_number=".toList ++ config.unitNumber ++ "&log_time=".toList ++ m.logStartTime ++
  " HTTP/1.1\nUser-Agent: Arduino/1.0\nContent-Type: text/plain\nContent-Length: ".toList ++
  decimal (i32 fileSize) ++ "\n".toList ++ crlf

namespace Device

/-- The loop of `upload_file` that reads the file block by block, and sends the
    whole of the block buffer each time: whether the connection lasted. The
    fuel is the number of blocks. -/
def sendLoop (x : Exchange) (fileName : Name) (fileSize : ℕ) :
    ℕ → ℕ → ℕ → Bytes → Device → Bool × Device
  | 0, _, _, _, d => (true, d)
  | fuel + 1, i, filePos, buf, d =>
    if i < fileSize then
      let block := i / fileBufLen
      -- the timer is started again, but `no_write_file` stays set
      if !x.connected block then (false, { d with canLogTimer := true })
      else
        let file := (d.card.lookup fileName).getD []
        let pos := if filePos ≤ file.length then filePos else 0
        let read := (file.drop pos).take fileBufLen
        -- after the last bytes of the file comes what the block before left
        let buf := read ++ (buf.set 0 nul).drop read.length
        let d := if x.flushDue block then (d.reopenFile (x.reopens block)).flushSdFile else d
        sendLoop x fileName fileSize fuel (i + fileBufLen) (pos + read.length) buf
          (d.emit (.bodySent buf))
    else (true, d)

/-- The end of `upload_file` after the server answered with status 200. -/
def acceptUpload (x : Exchange) (fileName : Name) (d : Device) : Device :=
  if d.config.deleteUploadedLogs then
    let d := d.sdRemove x.removes fileName
    { d with firstLogFileNumber := u16 (d.firstLogFileNumber + 1) }.putFirstLogNum
  else d

/-- The part of `upload_file` after the last block was sent. -/
def finishPost (x : Exchange) (fileName : Name) (d : Device) : Bool × Device :=
  let d := d.reopenFile x.reopensAtEnd
  let d := { d with canLogTimer := true, noWriteFile := false }
  if x.arrived ≠ [] then
    let d := d.emit (.postAnswered fileName x.response)
    if x.statusIs200 then (true, d.acceptUpload x fileName) else (false, d)
  -- no answer is there yet, which counts as success
  else (true, d)

/-- The part of `upload_file` that posts the file, once connected. -/
def postFile (x : Exchange) (fileName : Name) (d : Device) : Bool × Device :=
  let d := { d with noWriteFile := true }
  let fileSize := ((d.card.lookup fileName).getD []).length
  let d := d.emit (.postSent (postHeader d.config x.logMeta fileName fileSize))
  let d := { d with canLogTimer := false }
  match d.sendLoop x fileName fileSize (fileSize / fileBufLen + 1) 0 0
      (List.replicate fileBufLen nul) with
  | (false, d) => (false, d)
  | (true, d) => d.finishPost x fileName

/-- The requests of `upload_file`. -/
def requestUpload (x : Exchange) (fileName : Name) (d : Device) : Bool × Device :=
  let d := d.emit (.getSent (getUri x.logMeta fileName))
  let d := d.emit (.getAnswered fileName x.getStatus)
  if x.getStatus = 404 then
    if x.connects then d.postFile x fileName else (false, d)
  else if x.getStatus = 200 then (true, d)
  -- a timeout, or another error
  else (false, d)

/-- `upload_file`: whether it reports that the file is on the server. -/
def uploadFile (x : Exchange) (fileName : Name) (d : Device) : Bool × Device :=
  match (d.emit (.uploading fileName)).requestUpload x fileName with
  | (true, d) => (true, d.emit (.confirmed fileName))
  | (false, d) => (false, d)

end Device

/-- The fields of `DataUploader` that are not about the connection. -/
structure DataUploader where
  nextLogToUpload : ℕ
  maxLogToUpload : ℕ
  deriving DecidableEq

namespace DataUploader

/-- `reset_next_log_to_upload`. -/
def resetNextLogToUpload (u : DataUploader) (d : Device) : DataUploader × Device :=
  ({ u with nextLogToUpload := 1 }, d.putNextToTry 1)

/-- `get_logs_uploaded`. -/
def getLogsUploaded (u : DataUploader) (d : Device) : DataUploader × Device :=
  if logName u.nextLogToUpload ∉ d.card then u.resetNextLogToUpload d else (u, d)

/-- The constructor, which reads the EEPROM. -/
def construct (d : Device) : DataUploader × Device :=
  let u : DataUploader := ⟨d.eeprom.uploaderNextToTry, d.eeprom.uploaderMaxLog⟩
  if u.nextLogToUpload > u.maxLogToUpload then
    let r := u.resetNextLogToUpload d
    r.1.getLogsUploaded r.2
  else u.getLogsUploaded d

/-- `increment_next_log_to_upload`: whether there is a next log to upload. -/
def incrementNextLogToUpload (u : DataUploader) (d : Device) : Bool × DataUploader × Device :=
  let d := d.emit (.advanced u.nextLogToUpload)
  let u := { u with nextLogToUpload := u16 (u.nextLogToUpload + 1) }
  (!decide (u.nextLogToUpload + 1 > u.maxLogToUpload), u, d.putNextToTry u.nextLogToUpload)

/-- The loop of `upload_data`, with the array that names the file: whether it has
    ended, and the state, after as many rounds as the fuel. Each round meets the
    exchange for its log number. -/
def uploadLoop (net : ℕ → Exchange) :
    ℕ → List Char → DataUploader → Device → Bool × DataUploader × Device
  | 0, _, u, d => (false, u, d)
  | fuel + 1, buf, u, d =>
    if toText buf ∈ d.card then
      match d.uploadFile (net u.nextLogToUpload) (toText buf) with
      | (false, d) => (true, u, d)
      | (true, d) =>
        match u.incrementNextLogToUpload d with
        | (false, u, d) => (true, u, d)
        | (true, u, d) => uploadLoop net fuel (sprintfNumToLogfileName u.nextLogToUpload buf) u d
    else (true, u, d)

/-- `upload_data`, up to as many rounds of its loop as the fuel. -/
def uploadRounds (net : ℕ → Exchange) (fuel : ℕ) (u : DataUploader) (d : Device) :
    Bool × DataUploader × Device :=
  if u.nextLogToUpload > u.maxLogToUpload then (true, u, d)
  else
    let buf := sprintfNumToLogfileName u.nextLogToUpload defaultLogFileName
    if toText buf ∉ d.card then (true, u, d) else uploadLoop net fuel buf u d

/-- `upload_data`, if it returns. -/
def uploadData (net : ℕ → Exchange) (fuel : ℕ) (u : DataUploader) (d : Device) :
    Option (DataUploader × Device) :=
  match uploadRounds net fuel u d with
  | (true, r) => some r
  | (false, _) => none

end DataUploader

end CanInsight
