import PcatManager.GregorianCalendar
import PcatManager.ManagerConfig
import PcatManager.SerialLink
import PcatManager.SerialReadParser
import Mathlib.Data.Rat.Defs

/-!
# The PMU manager

`PCatPMUManagerData` and the functions of `pmu-manager.c` over it, together with what
they read and change of the rest of the daemon: the clocks, the configuration and the
shutdown flags of `main.c`.
-/

namespace PcatManager
open SerialFrame SerialReadParser GregorianCalendar

/-- A time of the system clock that GLib has a date for, in Unix seconds. -/
structure UnixTime where
  seconds : ℤ
  range : -62135596800 ≤ seconds ∧ seconds < 253402300800
  deriving DecidableEq, Repr

/-- `g_date_time_new_now_utc`. -/
def UnixTime.utc (t : UnixTime) : DateTime := DateTime.ofUnix t.seconds

/-- `g_date_time_to_unix` of `g_date_time_new_utc`, when the arguments are a date and
time of the years 1 to 9999. -/
def unixTimeOfUtc (year month day hour minute second : ℕ) : Option UnixTime :=
  if h : (1 ≤ year ∧ year ≤ 9999) ∧ (1 ≤ month ∧ month ≤ 12) ∧
      (1 ≤ (day : ℤ) ∧ (day : ℤ) ≤ monthLength (leapDay year) month) ∧
      (0 ≤ (hour : ℤ) ∧ (hour : ℤ) < 24) ∧ (0 ≤ (minute : ℤ) ∧ (minute : ℤ) < 60) ∧
      (0 ≤ (second : ℤ) ∧ (second : ℤ) < 60) then
    let t : DateTime :=
      ⟨⟨year, month, day, h.2.1, h.2.2.1⟩, hour, minute, second, h.2.2.2.1, h.2.2.2.2.1,
        h.2.2.2.2.2⟩
    if h : -62135596800 ≤ t.toUnix ∧ t.toUnix < 253402300800 then some ⟨t.toUnix, h⟩ else none
  else none

/-- `PCatPMUManagerCommandType`. -/
def commandHeartbeat : UInt16 := 0x1
def commandPmuFwVersionGet : UInt16 := 0x5
def commandPmuFwVersionGetAck : UInt16 := 0x6
def commandStatusReport : UInt16 := 0x7
def commandDateTimeSync : UInt16 := 0x9
def commandScheduleStartupTimeSet : UInt16 := 0xB
def commandPmuRequestShutdown : UInt16 := 0xD
def commandHostRequestShutdown : UInt16 := 0xF
def commandHostRequestShutdownAck : UInt16 := 0x10
def commandPmuRequestFactoryReset : UInt16 := 0x11
def commandWatchdogTimeoutSet : UInt16 := 0x13
def commandWatchdogTimeoutSetAck : UInt16 := 0x14
def commandChargerOnAutoStart : UInt16 := 0x15
def commandVoltageThresholdSet : UInt16 := 0x17
def commandNetStatusLedSetup : UInt16 := 0x19
def commandPowerOnEventGet : UInt16 := 0x1B
def commandPowerOnEventGetAck : UInt16 := 0x1C

/-- The built-in battery tables. -/
def defaultBatteryDischargeTableNormal : BatteryTable :=
  #v[4200, 4060, 3980, 3920, 3870, 3820, 3790, 3770, 3740, 3680, 3450]

def defaultBatteryDischargeTable5g : BatteryTable :=
  #v[4200, 4060, 3980, 3920, 3870, 3820, 3790, 3770, 3740, 3680, 3600]

def defaultBatteryChargeTable : BatteryTable :=
  #v[4200, 4150, 4100, 4050, 4000, 3950, 3900, 3850, 3800, 3750, 3700]

/-- `PCatPMUManagerData`, zeroed as the program starts with it. The serial descriptor,
channel, receive buffer and command queue exist together: `serialChannel` tells whether
they do. -/
structure PmuManagerData where
  initialized : Bool := false
  serialChannel : Bool := false
  serialReadBuffer : List UInt8 := []
  link : SerialLink :=
    { currentCommandData := none, commandQueue := [], frameNum := 0, writeSource := false,
      history := [], requests := 0 }
  shutdownRequest : Bool := false
  rebootRequest : Bool := false
  shutdownPlanned : Bool := false
  shutdownProcessCompleted : Bool := false
  rebootProcessCompleted : Bool := false
  lastBatteryVoltage : UInt32 := 0
  lastChargerVoltage : UInt32 := 0
  lastOnBatteryState : Bool := false
  lastBatteryPercentage : UInt32 := 0
  lastBatteryPercentageCap : UInt32 := 0
  pmuFwVersion : Option (List UInt8) := none
  chargerOnAutoStartLastTimestamp : ℤ := 0
  systemTimeSetFlag : Bool := false
  powerOnEvent : UInt32 := 0
  modemDeviceType : ModemDeviceType := .none
  boardTemp : ℤ := 0
  batteryDischargeTableNormal : BatteryTable := Vector.replicate 11 0
  batteryDischargeTable5g : BatteryTable := Vector.replicate 11 0
  batteryChargeTable : BatteryTable := Vector.replicate 11 0

/-- The shutdown flags of `main.c` and the commands it spawns. The last two fields are
not part of the program: the arguments `pcat_main_request_shutdown` was called with, and
the number of requests made while no port was open. -/
structure MainData where
  requestShutdown : Bool := false
  requestShutdownSendPmuRequest : Bool := true
  spawned : List String := []
  shutdownRequests : List Bool := []
  closedPortRequests : ℕ := 0

/-- The daemon as the PMU manager sees it. Monotonic time is in microseconds. The last field is
what the system makes of a call of `settimeofday`, whose microseconds are never assigned. -/
structure World where
  pmu : PmuManagerData
  main : MainData
  mainConfig : MainConfigData
  userConfig : UserConfigData
  modemDeviceType : ModemDeviceType
  monotonicTime : ℤ
  realTime : UnixTime
  settimeofdaySucceeds : Bool := true

namespace World

def setLink (w : World) (l : SerialLink) : World := { w with pmu := { w.pmu with link := l } }

/-- `pcat_main_request_shutdown`. -/
def requestShutdown (w : World) (sendPmuRequest : Bool) : World :=
  { w with
    main :=
      { w.main with
        requestShutdown := true
        requestShutdownSendPmuRequest := sendPmuRequest
        spawned := w.main.spawned ++ ["poweroff"]
        shutdownRequests := w.main.shutdownRequests ++ [sendPmuRequest] } }

/-- `pcat_pmu_serial_write_data_request`. Without a port there is no queue and only the
frame number counter moves. -/
def serialWriteDataRequest (w : World) (command : UInt16) (frameNum : Option UInt16)
    (extraData : List UInt8) (needAck : Bool) : World :=
  if w.pmu.serialChannel then
    w.setLink (w.pmu.link.serialWriteDataRequest w.monotonicTime command frameNum extraData needAck)
  else
    { w.setLink
        { w.pmu.link with
          frameNum := if frameNum.isSome then w.pmu.link.frameNum else w.pmu.link.frameNum + 1 } with
      main := { w.main with closedPortRequests := w.main.closedPortRequests + 1 } }

/-- `pcat_pmu_manager_date_time_sync`. -/
def dateTimeSync (w : World) : World :=
  let dt := w.realTime.utc
  let y := UInt16.ofNat dt.date.year.toNat
  w.serialWriteDataRequest commandDateTimeSync none
    (le16 y ++ [UInt8.ofNat dt.date.month, UInt8.ofNat dt.date.day.toNat,
      UInt8.ofNat dt.hour.toNat, UInt8.ofNat dt.minute.toNat, UInt8.ofNat dt.second.toNat]) true

/-- The eight bytes of one entry of the start-up table. -/
def startupRecord (sdata : PowerScheduleData) : List UInt8 :=
  le16 sdata.year.toUInt16 ++
    [sdata.month, sdata.day, sdata.hour, sdata.minute, sdata.dowBits, sdata.enableBits]

/-- The loop of `pcat_pmu_manager_schedule_time_update_internal`. -/
def startupSetupLoop : List PowerScheduleData → List UInt8 → List UInt8
  | [], buffer => buffer
  | sdata :: rest, buffer =>
    if !sdata.enabled || !sdata.action then startupSetupLoop rest buffer
    else
      let buffer := buffer ++ startupRecord sdata
      if 48 ≤ buffer.length then buffer else startupSetupLoop rest buffer

/-- `pcat_pmu_manager_schedule_time_update_internal`. -/
def scheduleTimeUpdateInternal (w : World) : World :=
  match w.userConfig.powerScheduleData with
  | none => w
  | some schedule =>
    let startupSetupBuffer := startupSetupLoop schedule []
    if 0 < startupSetupBuffer.length then
      w.serialWriteDataRequest commandScheduleStartupTimeSet none startupSetupBuffer true
    else w

/-- `pcat_pmu_manager_charger_on_auto_start_internal`. -/
def chargerOnAutoStartInternal (w : World) (state : Bool) : World :=
  w.serialWriteDataRequest commandChargerOnAutoStart none [if state then 1 else 0] true

/-- `pcat_pmu_manager_pmu_fw_version_get_internal`. -/
def pmuFwVersionGetInternal (w : World) : World :=
  w.serialWriteDataRequest commandPmuFwVersionGet none [] true

/-- `pcat_pmu_manager_power_on_event_get_internal`. -/
def powerOnEventGetInternal (w : World) : World :=
  w.serialWriteDataRequest commandPowerOnEventGet none [] true

/-- `pcat_pmu_manager_net_status_led_setup_internal`. -/
def netStatusLedSetupInternal (w : World) (onTime downTime repeatTimes : UInt32) : World :=
  w.serialWriteDataRequest commandNetStatusLedSetup none
    (le16 onTime.toUInt16 ++ le16 downTime.toUInt16 ++ le16 repeatTimes.toUInt16) true

/-- `pcat_pmu_manager_voltage_threshold_set_interval`. A zero argument stands for the
configured value. -/
def voltageThresholdSetInterval (w : World) (ledVh ledVm ledVl startupVoltage chargerVoltage
    shutdownVoltage ledWorkVl chargerFastVoltage : UInt32) : World :=
  let config := w.mainConfig
  let orConfigured (v configured : UInt32) := if v = 0 then configured else v
  let voltages :=
    [orConfigured ledVh config.pmLedHighVoltage,
      orConfigured ledVm config.pmLedMediumVoltage,
      orConfigured ledVl config.pmLedLowVoltage,
      orConfigured startupVoltage config.pmStartupVoltage,
      orConfigured chargerVoltage config.pmChargerLimitVoltage,
      orConfigured shutdownVoltage config.pmAutoShutdownVoltageGeneral,
      orConfigured ledWorkVl config.pmLedWorkLowVoltage,
      orConfigured chargerFastVoltage config.pmChargerFastVoltage,
      config.pmBatteryFullThreshold]
  w.serialWriteDataRequest commandVoltageThresholdSet none
    (voltages.flatMap fun v => le16 v.toUInt16) true

/-- The interpolation of `pcat_pmu_serial_status_data_parse` in one battery table, in
exact arithmetic. -/
def batteryPercentage (table : BatteryTable) (voltage : UInt32) : ℚ :=
  if table[0] < voltage then 100
  else if table[10] < voltage then
    match (List.finRange 10).find? fun i => table.get i.succ ≤ voltage with
    | some i =>
      (90 - 10 * (i : ℕ) : ℚ) + ((voltage.toNat : ℚ) - (table.get i.succ).toNat) * 10 /
        (table.get i.castSucc - table.get i.succ).toNat
    | none => 0
  else 0

/-- A non-negative percentage in hundredths, as the conversion to `guint` truncates it. -/
def hundredths (percentage : ℚ) : UInt32 := UInt32.ofNat (percentage * 100).floor.toNat

/-- The clock part of `pcat_pmu_serial_status_data_parse`. -/
def statusClock (w : World) (pmuTime : Option UnixTime) : World :=
  if w.pmu.systemTimeSetFlag then
    let pmuUnixTime := match pmuTime with | some t => t.seconds | none => 0
    let hostUnixTime := w.realTime.seconds
    if 60 < pmuUnixTime - hostUnixTime ∨ 60 < hostUnixTime - pmuUnixTime then w.dateTimeSync
    else w
  else
    let w := match pmuTime with
      -- the result of the call is not looked at
      | some t => { w with realTime := if w.settimeofdaySucceeds then t else w.realTime }
      | none => w
    { w with pmu := { w.pmu with systemTimeSetFlag := true } }

/-- The battery part of `pcat_pmu_serial_status_data_parse`. -/
def statusBattery (w : World) (batteryVoltage chargerVoltage : UInt32) (boardTemp : ℤ) : World :=
  let onBattery : Bool := chargerVoltage < 4200
  let table :=
    if !onBattery then w.pmu.batteryChargeTable
    else if w.modemDeviceType = .fiveG then w.pmu.batteryDischargeTable5g
    else w.pmu.batteryDischargeTableNormal
  let percentage := hundredths (batteryPercentage table batteryVoltage)
  let cap := w.pmu.lastBatteryPercentageCap
  let (cap, last) :=
    if onBattery then if percentage < cap then (percentage, percentage) else (cap, cap)
    else (10000, percentage)
  { w with
    pmu :=
      { w.pmu with
        lastBatteryVoltage := batteryVoltage
        lastChargerVoltage := chargerVoltage
        lastOnBatteryState := onBattery
        boardTemp := boardTemp - 40
        lastBatteryPercentageCap := cap
        lastBatteryPercentage := last } }

/-- `pcat_pmu_serial_status_data_parse`. -/
def statusDataParse (w : World) (data : List UInt8) : World :=
  if data.length < 16 then w
  else
    let byte (i : ℕ) := data.getD i 0
    let word (i : ℕ) := ofLe16 (byte i) (byte (i + 1))
    let pmuTime := unixTimeOfUtc (word 8).toNat (byte 10).toNat (byte 11).toNat (byte 12).toNat
      (byte 13).toNat (byte 14).toNat
    let boardTemp : ℤ := if 18 ≤ data.length then (byte 17).toNat else 0
    (w.statusClock pmuTime).statusBattery (word 0).toUInt32 (word 2).toUInt32 boardTemp

/-- The acknowledgement of a request of the PMU. -/
def acknowledge (w : World) (f : Frame) (extraData : List UInt8) : World :=
  if f.needAck then w.serialWriteDataRequest (f.command + 1) (some f.frameNum) extraData false
  else w

/-- The `switch` of `pcat_pmu_serial_read_data_parse`. -/
def handleCommand (w : World) (f : Frame) : World :=
  if f.command = commandStatusReport then
    if f.extraData.length < 16 then w
    else (w.statusDataParse f.extraData).acknowledge f []
  else if f.command = commandPmuRequestShutdown then (w.requestShutdown false).acknowledge f []
  else if f.command = commandHostRequestShutdownAck then
    if w.pmu.shutdownRequest then { w with pmu := { w.pmu with shutdownProcessCompleted := true } }
    else w
  else if f.command = commandWatchdogTimeoutSetAck then
    if w.pmu.rebootRequest then { w with pmu := { w.pmu with rebootProcessCompleted := true } }
    else w
  else if f.command = commandPmuRequestFactoryReset then
    acknowledge
      { w with main := { w.main with spawned := w.main.spawned ++ ["pcat-factory-reset.sh"] } } f [0]
  else if f.command = commandPmuFwVersionGetAck then
    if f.extraData.length < 14 then w
    else
      { w with pmu := { w.pmu with pmuFwVersion := some (f.extraData.takeWhile (· ≠ 0)) } }
  else if f.command = commandPowerOnEventGetAck then
    match f.extraData with
    | [] => w
    | event :: _ => { w with pmu := { w.pmu with powerOnEvent := event.toUInt32 } }
  else w

/-- The frame is addressed to the host. -/
def forHost (f : Frame) : Bool := f.dst = 0x1 || f.dst = 0x80 || f.dst = 0xFF

/-- What `pcat_pmu_serial_read_data_parse` does with an accepted frame. -/
def dispatchFrame (w : World) (f : Frame) : World :=
  let w := w.setLink (w.pmu.link.releaseAnswered f)
  if forHost f then w.handleCommand f else w

/-- One turn of the loop of `pcat_pmu_serial_read_watch_func`. -/
def serialReadWatchFunc (w : World) (r : Read) : World :=
  let (buffer, w') := serialReadStep dispatchFrame w.pmu.serialReadBuffer w r.bytes
  { w' with pmu := { w'.pmu with serialReadBuffer := buffer } }

/-- The mode-dependent comparison of `pcat_pmu_manager_check_timeout_func`. -/
def entryMatches (dt : DateTime) (sdata : PowerScheduleData) : Bool :=
  let minute : Bool := dt.minute = sdata.minute.toNat
  let hour : Bool := dt.hour = sdata.hour.toNat
  let day : Bool := dt.date.day = sdata.day.toNat
  let month : Bool := dt.date.month = sdata.month.toNat
  let year : Bool := dt.date.year = sdata.year.toInt
  if sdata.has scheduleEnableYear then year && month && day && hour && minute
  else if sdata.has scheduleEnableMonth then month && day && hour && minute
  else if sdata.has scheduleEnableDay then day && hour && minute
  else if sdata.has scheduleEnableDow then
    sdata.dowBits.toNat.testBit dt.date.weekday.toNat && hour && minute
  else if sdata.has scheduleEnableHour then hour && minute
  else minute

/-- The entries the timer looks at: enabled off-events with the minute bit. -/
def offEntry (sdata : PowerScheduleData) : Bool :=
  sdata.enabled && !sdata.action && sdata.has scheduleEnableMinute

/-- The timer has decided to power off. -/
def planShutdown (w : World) : World :=
  let w := w.requestShutdown true
  { w with pmu := { w.pmu with shutdownPlanned := true } }

/-- The loop over the schedule of `pcat_pmu_manager_check_timeout_func`; `needAction`
lives across its turns. -/
def powerScheduleLoop (dt : DateTime) : List PowerScheduleData → Bool → World → World
  | [], _, w => w
  | sdata :: rest, needAction, w =>
    if !sdata.enabled || sdata.action then powerScheduleLoop dt rest needAction w
    else if !sdata.has scheduleEnableMinute then powerScheduleLoop dt rest needAction w
    else
      let needAction := needAction || entryMatches dt sdata
      powerScheduleLoop dt rest needAction (if needAction then w.planShutdown else w)

/-- The condition of the charger branch. -/
def chargerDue (w : World) : Bool :=
  (w.pmu.powerOnEvent = 3 || w.pmu.powerOnEvent = 4) &&
    w.pmu.chargerOnAutoStartLastTimestamp +
      w.userConfig.chargerOnAutoStartTimeout.toNat * 1000000 < w.monotonicTime

/-- The two branches that may plan a shutdown. -/
def checkPlannedShutdown (w : World) : World :=
  if w.userConfig.chargerOnAutoStart then
    if w.chargerDue then w.planShutdown else w
  else
    match w.userConfig.powerScheduleData with
    | none => w
    | some schedule =>
      if w.pmu.shutdownPlanned then w
      else powerScheduleLoop w.realTime.utc schedule false w

/-- The charger voltage keeps the start of the auto-start timeout moving. -/
def refreshChargerTimestamp (w : World) : World :=
  if 4200 ≤ w.pmu.lastChargerVoltage then
    { w with pmu := { w.pmu with chargerOnAutoStartLastTimestamp := w.monotonicTime } }
  else w

/-- The shutdown voltage follows the modem that is present. -/
def checkModemDevice (w : World) : World :=
  if w.pmu.modemDeviceType ≠ w.modemDeviceType then
    let shutdownVoltage :=
      match w.modemDeviceType with
      | .fiveG => w.mainConfig.pmAutoShutdownVoltage5g
      | .general => w.mainConfig.pmAutoShutdownVoltageLte
      | .none => w.mainConfig.pmAutoShutdownVoltageGeneral
    let w := { w with pmu := { w.pmu with modemDeviceType := w.modemDeviceType } }
    w.voltageThresholdSetInterval 0 0 0 0 0 shutdownVoltage 0 0
  else w

/-- `pcat_pmu_manager_check_timeout_func`, the one-second tick. -/
def checkTimeoutFunc (w : World) : World :=
  if !w.pmu.serialChannel then w
  else
    let w := w.refreshChargerTimestamp
    let w :=
      if !w.pmu.rebootRequest && !w.pmu.shutdownRequest then
        (w.serialWriteDataRequest commandHeartbeat none [] false).checkPlannedShutdown
      else w
    let w := w.checkModemDevice
    w.setLink (w.pmu.link.armWriteSource w.monotonicTime)

/-- `pcat_pmu_serial_open`, once the port could be opened. -/
def serialOpen (w : World) : World :=
  { w with
    pmu :=
      { w.pmu with serialChannel := true, serialReadBuffer := [], link := w.pmu.link.opened } }

/-- `pcat_pmu_manager_watchdog_timeout_set`. -/
def watchdogTimeoutSet (w : World) (timeout : UInt32) : World :=
  if !w.pmu.initialized || !w.pmu.serialChannel then w
  else w.serialWriteDataRequest commandWatchdogTimeoutSet none [60, 60, timeout.toUInt8] true

/-- The loop that checks a configured battery table: every entry is below the one before. -/
def tableValid (table : BatteryTable) : Bool :=
  (List.finRange 10).all fun i => table.get i.succ < table.get i.castSucc

/-- The working tables: the configured ones where valid, else the built-in ones. -/
def setBatteryTables (w : World) : World :=
  let choose (configured builtin : BatteryTable) := if tableValid configured then configured else builtin
  { w with
    pmu :=
      { w.pmu with
        batteryDischargeTableNormal :=
          choose w.mainConfig.pmBatteryDischargeTableNormal defaultBatteryDischargeTableNormal
        batteryDischargeTable5g :=
          choose w.mainConfig.pmBatteryDischargeTable5g defaultBatteryDischargeTable5g
        batteryChargeTable := choose w.mainConfig.pmBatteryChargeTable defaultBatteryChargeTable } }

/-- The fields `pcat_pmu_manager_init` resets before it opens the port. -/
def resetForInit (w : World) : World :=
  { w with
    pmu :=
      { w.pmu with
        shutdownRequest := false
        rebootRequest := false
        shutdownProcessCompleted := false
        rebootProcessCompleted := false
        chargerOnAutoStartLastTimestamp := w.monotonicTime
        systemTimeSetFlag := false
        powerOnEvent := 0
        lastBatteryPercentageCap := 10000 } }

/-- The requests at the end of `pcat_pmu_manager_init`. -/
def initRequests (w : World) : World :=
  let w := w.scheduleTimeUpdateInternal
  let w := w.dateTimeSync
  let w := w.chargerOnAutoStartInternal w.userConfig.chargerOnAutoStart
  let w := w.voltageThresholdSetInterval 0 0 0 0 0 w.mainConfig.pmAutoShutdownVoltageGeneral 0 0
  let w := w.pmuFwVersionGetInternal
  let w := w.powerOnEventGetInternal
  w.watchdogTimeoutSet 5

/-- `pcat_pmu_manager_init`; `opened` tells whether the port could be opened. -/
def managerInit (w : World) (opened : Bool) : World :=
  if w.pmu.initialized then w
  else
    let w := w.resetForInit
    if !opened then w
    else
      let w := w.serialOpen.setBatteryTables
      initRequests { w with pmu := { w.pmu with initialized := true } }

/-- `pcat_pmu_manager_shutdown_request`. -/
def shutdownRequest (w : World) : World :=
  let w := w.serialWriteDataRequest commandHostRequestShutdown none [] true
  { w with pmu := { w.pmu with shutdownRequest := true } }

/-- `pcat_pmu_manager_reboot_request`. -/
def rebootRequest (w : World) : World :=
  let w := w.watchdogTimeoutSet 60
  { w with pmu := { w.pmu with rebootRequest := true } }

/-- `pcat_pmu_manager_shutdown_completed`. -/
def shutdownCompleted (w : World) : Bool := w.pmu.shutdownProcessCompleted

/-- `pcat_pmu_manager_reboot_completed`. -/
def rebootCompleted (w : World) : Bool := w.pmu.rebootProcessCompleted

/-- `pcat_pmu_manager_schedule_time_update`. -/
def scheduleTimeUpdate (w : World) : World :=
  if w.pmu.initialized then w.scheduleTimeUpdateInternal else w

/-- `pcat_pmu_manager_charger_on_auto_start`. -/
def chargerOnAutoStart (w : World) (state : Bool) : World :=
  if w.pmu.initialized then w.chargerOnAutoStartInternal state else w

/-- `pcat_pmu_manager_net_status_led_setup`. -/
def netStatusLedSetup (w : World) (onTime downTime repeatTimes : UInt32) : World :=
  if w.pmu.initialized then w.netStatusLedSetupInternal onTime downTime repeatTimes else w

/-- `pcat_pmu_manager_voltage_threshold_set`. -/
def voltageThresholdSet (w : World) (ledVh ledVm ledVl startupVoltage chargerVoltage
    shutdownVoltage ledWorkVl chargerFastVoltage : UInt32) : World :=
  if w.pmu.initialized then
    w.voltageThresholdSetInterval ledVh ledVm ledVl startupVoltage chargerVoltage shutdownVoltage
      ledWorkVl chargerFastVoltage
  else w

end World
end PcatManager
