import PcatManager.StreamScanner
import PcatManager.GuardedRun
import PcatManager.RunTrace
import PcatManager.ChangeNotifier
import PcatManager.DoWhile
import PcatManager.RepeatedBlocks
import PcatManager.GregorianCalendar
import PcatManager.Recurrence
import PcatManager.KeyFile
import PcatManager.SerialFrame
import PcatManager.SerialReadParser
import PcatManager.SerialParserCorrectness
import PcatManager.CyclicRedundancy
import PcatManager.TinyWatchdog
import PcatManager.SerialErrorDetection
import PcatManager.SerialDamage
import PcatManager.SerialLink
import PcatManager.SerialLinkSteps
import PcatManager.SerialWire
import PcatManager.SerialStopAndWait
import PcatManager.ManagerConfig
import PcatManager.PmuManager
import PcatManager.PmuManagerRuns
import PcatManager.PmuManagerFrame
import PcatManager.SerialReadBounds
import PcatManager.SerialLine
import PcatManager.SerialLinkCalls
import PcatManager.SerialQueue
import PcatManager.SerialReception
import PcatManager.SerialWriteResult
import PcatManager.SerialWriteLoop
import PcatManager.RebootWatchdog
import PcatManager.PlannedShutdown
import PcatManager.UserConfigFile
import PcatManager.UserConfigRoundTrip
import PcatManager.LocalTime
import PcatManager.Controller
import PcatManager.UserConfigRestart
import PcatManager.ScheduleMatching
import PcatManager.StartupTable
import PcatManager.DelimitedStream
import PcatManager.ControlInput
import PcatManager.ControlSocket
import PcatManager.ControlReplies
import PcatManager.ModemManager
import PcatManager.ModemReset
import PcatManager.DialerLines
import PcatManager.ControllerCommands
import PcatManager.ControllerAnswers
import PcatManager.ControlServer
import PcatManager.ControlSettings
import PcatManager.ControlDelivery
import PcatManager.ModemStatus
import PcatManager.ModemResetDelay
import PcatManager.RoutePolicy
import PcatManager.RouteThreads
import PcatManager.ScheduleRewrite
import PcatManager.PrefixMap
import PcatManager.ScheduleEntries
import PcatManager.RunningMinimum
import PcatManager.PiecewiseLinear
import PcatManager.BatteryCharge
import PcatManager.BatteryTables
import PcatManager.ClockSync
import PcatManager.MainLoop
import PcatManager.RequestLog
import PcatManager.RequestLifetime
import PcatManager.CommandReception
import PcatManager.CommandDelivery
import PcatManager.StartupTableReception
import PcatManager.ClosedPort
import PcatManager.PmuAnswers
import PcatManager.FrameNumbers
import PcatManager.PmuReports
import PcatManager.PmuClock
import PcatManager.SpawnedCommands
import PcatManager.LoopPasses
import PcatManager.LoopIterations
import PcatManager.Heartbeats
import PcatManager.ShutdownWait
import PcatManager.VoltageThresholds
import PcatManager.MainConfigFile
import PcatManager.ModemWork
import PcatManager.ModemLines
import PcatManager.RfKillLine
import PcatManager.ModemDialer
import PcatManager.StatusLed
import PcatManager.LastMark
import PcatManager.ChargerPowerOff
import PcatManager.HistoryBlind
import PcatManager.ForeignFrames
