import CanInsight.Ages
import CanInsight.AppendOnly
import CanInsight.Attempts
import CanInsight.Buffers
import CanInsight.CatchUp
import CanInsight.Config
import CanInsight.ConfigFile
import CanInsight.Confirmation
import CanInsight.CutDocuments
import CanInsight.Dates
import CanInsight.DeletedLogs
import CanInsight.Deserializer
import CanInsight.Device
import CanInsight.Disabled
import CanInsight.DocumentSize
import CanInsight.Driver
import CanInsight.EepromCells
import CanInsight.FailedStart
import CanInsight.FileTimes
import CanInsight.Firmware
import CanInsight.Frame
import CanInsight.FrameLine
import CanInsight.FrameStream
import CanInsight.FreeSpace
import CanInsight.FreeSpaceTest
import CanInsight.FreshLog
import CanInsight.HttpClient
import CanInsight.Journal
import CanInsight.Lib.CString
import CanInsight.Lib.Cells
import CanInsight.Lib.Json
import CanInsight.Lib.JsonText
import CanInsight.Lib.Machine
import CanInsight.Lib.Numeral
import CanInsight.Lib.Parser
import CanInsight.Lib.Wheel
import CanInsight.LineAccounts
import CanInsight.LogHeader
import CanInsight.LogMeta
import CanInsight.LogName
import CanInsight.LogNumbers
import CanInsight.LogReader
import CanInsight.LogRing
import CanInsight.LogSize
import CanInsight.Logger
import CanInsight.LoggingMode
import CanInsight.NameHistory
import CanInsight.OpenLog
import CanInsight.Operations
import CanInsight.OtherFiles
import CanInsight.Outcomes
import CanInsight.PostBody
import CanInsight.PowerCycle
import CanInsight.Reboot
import CanInsight.Requests
import CanInsight.Retry
import CanInsight.Reupload
import CanInsight.Search
import CanInsight.Selection
import CanInsight.Sessions
import CanInsight.StartTimes
import CanInsight.TimeLib
import CanInsight.Timestamps
import CanInsight.Trace
import CanInsight.Transfers
import CanInsight.Uploader
import CanInsight.Walk
import CanInsight.WifiManager
import CanInsight.WriteReturns
import CanInsight.FileTimes
import CanInsight.EepromCells
