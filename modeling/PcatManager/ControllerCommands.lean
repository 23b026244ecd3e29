import PcatManager.ControlInput
import PcatManager.ControlSocket
import PcatManager.Controller
import PcatManager.ModemManager

/-!
# The commands of the control socket

The command table of `controller.c` with all its callbacks, and what the input parser does
with the text of a message. The JSON library and the time zone of the host are parameters.
-/

namespace PcatManager
open GregorianCalendar

/-- `PCatManagerRouteMode`. -/
inductive RouteMode where
  | none | unknown | wired | mobile
  deriving DecidableEq, Repr

/-- The JSON library: besides the conversions the parser, the printer and the string it
makes of the bytes of a C string. -/
structure JsonLibrary extends JsonConversions where
  parse : List UInt8 → Option Json
  print : Json → CString
  text : List UInt8 → String

/-- The local time zone in both directions. -/
structure HostZone extends LocalZone where
  toLocal : DateTime → Option DateTime

/-- The controller with what its callbacks read and change. -/
structure Controller where
  daemon : Daemon
  modem : ModemManagerData
  routeMode : RouteMode
  connections : ConnectionTable

/-- What a callback is called with: the root of the message, what the uninitialised variable
of the schedule callback holds, and whether the configuration file can be written. -/
structure ControlMessage where
  root : Json
  action : Bool
  stored : Bool

/-- A reply with the code 0 and further members. -/
def okReply (command : String) (members : List (String × Json)) : Json :=
  .object (("command", .string command) :: ("code", .int 0) :: members)

/-- `json_object_new_int` of an unsigned value. -/
def jsonInt (n : UInt32) : Json := .int n.toInt32.toInt

/-- `json_object_new_int` of a flag. -/
def jsonFlag (b : Bool) : Json := .int (if b then 1 else 0)

/-- The name of a mode in the modem status. -/
def ModemMode.text : ModemMode → String
  | .none => "none"
  | .twoG => "2g"
  | .threeG => "3g"
  | .lte => "lte"
  | .fiveG => "5g"

/-- The name of a SIM state in the modem status. -/
def simStateText (simState : Int32) : String :=
  if simState = 1 then "not-ready"
  else if simState = 2 then "ready"
  else if simState = 3 then "need-pin"
  else if simState = 4 then "need-puk"
  else if simState = 5 then "personalized-network"
  else if simState = 6 then "bad"
  else "absent"

/-- The name of a route mode. -/
def RouteMode.text : RouteMode → String
  | .none => "none"
  | .unknown => "unknown"
  | .wired => "wired"
  | .mobile => "mobile"

namespace Controller
variable (fmt : KeyFileFormat) (js : JsonLibrary) (zone : HostZone)

/-- `pcat_controller_unix_socket_output_json_push` for one connection. -/
def outputJsonPush (c : Controller) (id : ℕ) (rroot : Json) : Controller :=
  { c with connections := c.connections.step (.push id (some (js.print rroot))) }

/-- `pcat_controller_command_pmu_status_func`. Nothing is read before the PMU manager is
initialised. -/
def pmuStatusFunc (c : Controller) (id : ℕ) (command : String) : Controller :=
  let pmu := c.daemon.world.pmu
  let batteryVoltage := if pmu.initialized then pmu.lastBatteryVoltage else 0
  let chargerVoltage := if pmu.initialized then pmu.lastChargerVoltage else 0
  let onBattery := pmu.initialized && pmu.lastOnBatteryState
  let batteryPercentage := if pmu.initialized then pmu.lastBatteryPercentage else 0
  c.outputJsonPush js id (okReply command
    [("battery-voltage", jsonInt batteryVoltage), ("charger-voltage", jsonInt chargerVoltage),
      ("on-battery", jsonFlag onBattery), ("charge-percentage", jsonInt batteryPercentage),
      ("board-temperature", .int pmu.boardTemp)])

/-- `pcat_controller_command_schedule_power_event_set_func`. -/
def schedulePowerEventSetFunc (c : Controller) (id : ℕ) (command : String) (m : ControlMessage) :
    Option Controller :=
  (c.daemon.schedulePowerEventSet fmt js.toJsonConversions zone.toLocalZone m.root m.action
    m.stored).map fun daemon => { c with daemon := daemon }.outputJsonPush js id (okReply command [])

/-- The local date and time of a schedule entry; the start of 2000 when there is none. -/
def entryLocalTime (sdata : PowerScheduleData) : List (String × Json) :=
  let dt1 := dateTimeOfFields sdata.year.toInt sdata.month.toNat sdata.day.toNat
    sdata.hour.toNat sdata.minute.toNat
  match dt1.bind zone.toLocal with
  | some dt2 =>
    [("year", .int dt2.date.year), ("month", .int dt2.date.month), ("day", .int dt2.date.day),
      ("hour", .int dt2.hour), ("minute", .int dt2.minute)]
  | none =>
    [("year", .int 2000), ("month", .int 1), ("day", .int 1), ("hour", .int 0),
      ("minute", .int 0)]

/-- A schedule entry as `schedule-power-event-get` returns it. -/
def entryNode (sdata : PowerScheduleData) : Json :=
  .object
    ([("enabled", jsonFlag sdata.enabled), ("enable-bits", .int sdata.enableBits.toNat),
      ("action", jsonFlag sdata.action)] ++
      entryLocalTime zone sdata ++ [("dow-bits", .int sdata.dowBits.toNat)])

/-- `pcat_controller_command_schedule_power_event_get_func`. -/
def schedulePowerEventGetFunc (c : Controller) (id : ℕ) (command : String) : Controller :=
  let schedule := c.daemon.world.userConfig.powerScheduleData.getD []
  c.outputJsonPush js id (okReply command
    [("event-list", .array (schedule.map (entryNode zone)))])

/-- `pcat_controller_command_modem_status_get_func`. The code is 1 as long as the modem
manager is not initialised. -/
def modemStatusGetFunc (c : Controller) (id : ℕ) (command : String) : Controller :=
  let mm := if c.modem.initialized then c.modem else {}
  let text (bytes : Option (List UInt8)) : Json :=
    .string (match bytes with | some bytes => js.text bytes | none => "")
  c.outputJsonPush js id (.object
    [("command", .string command), ("code", .int (if c.modem.initialized then 0 else 1)),
      ("mode", .string mm.modemMode.text), ("rfkill-state", jsonFlag mm.modemRfkillState),
      ("sim-state", .string (simStateText mm.simState)), ("isp-name", text mm.ispName),
      ("isp-lpmn", text mm.ispPlmn), ("signal-strength", .int mm.modemSignalStrength.toInt)])

/-- `pcat_controller_command_network_route_mode_get_func`. -/
def networkRouteModeGetFunc (c : Controller) (id : ℕ) (command : String) : Controller :=
  c.outputJsonPush js id (okReply command [("mode", .string c.routeMode.text)])

/-- `pcat_controller_command_charger_on_auto_start_set_func`. -/
def chargerOnAutoStartSetFunc (c : Controller) (id : ℕ) (command : String)
    (m : ControlMessage) : Controller :=
  let daemon := c.daemon.chargerOnAutoStartSet fmt js.toJsonConversions m.root m.stored
  { c with daemon := daemon }.outputJsonPush js id (okReply command [])

/-- `pcat_controller_command_charger_on_auto_start_get_func`. -/
def chargerOnAutoStartGetFunc (c : Controller) (id : ℕ) (command : String) : Controller :=
  let config := c.daemon.world.userConfig
  let countdown :=
    (c.daemon.world.monotonicTime -
      c.daemon.world.pmu.chargerOnAutoStartLastTimestamp).tdiv 1000000
  let countdown := config.chargerOnAutoStartTimeout.toNat - countdown
  c.outputJsonPush js id (okReply command
    [("state", jsonFlag config.chargerOnAutoStart),
      ("timeout", jsonInt config.chargerOnAutoStartTimeout),
      ("countdown", .int (Int32.ofInt countdown).toInt)])

/-- `pcat_controller_command_pmu_fw_version_get_func`. -/
def pmuFwVersionGetFunc (c : Controller) (id : ℕ) (command : String) : Controller :=
  c.outputJsonPush js id (okReply command
    [("version",
      .string (match c.daemon.world.pmu.pmuFwVersion with
        | some version => js.text version
        | none => ""))])

/-- `pcat_controller_command_modem_rfkill_mode_set_func`. -/
def modemRfkillModeSetFunc (c : Controller) (id : ℕ) (command : String) (m : ControlMessage) :
    Controller :=
  let state :=
    match intUnder js.toJsonConversions m.root "state" with
    | some iv => decide (iv ≠ 0)
    | none => false
  { c with modem := c.modem.rfkillModeSet state }.outputJsonPush js id (okReply command [])

/-- `pcat_controller_command_modem_network_setup_func`. -/
def modemNetworkSetupFunc (c : Controller) (id : ℕ) (command : String) (m : ControlMessage) :
    Controller :=
  let daemon := c.daemon.modemNetworkSetup fmt js.toJsonConversions m.root m.stored
  { c with daemon := daemon }.outputJsonPush js id (okReply command [])

/-- `pcat_controller_command_modem_network_get_func`. -/
def modemNetworkGetFunc (c : Controller) (id : ℕ) (command : String) : Controller :=
  let config := c.daemon.world.userConfig
  c.outputJsonPush js id (okReply command
    [("apn", .string (config.modemDialApn.getD "")),
      ("user", .string (config.modemDialUser.getD "")),
      ("password", .string (config.modemDialPassword.getD "")),
      ("auth", .string (config.modemDialAuth.getD "")),
      ("connection-5g-fail-auto-reset", jsonFlag config.modemDisable5gFailAutoReset)])

/-- `PCatControllerCommandCallback`. There is no controller left when one aborts. -/
abbrev Callback := Controller → ℕ → String → ControlMessage → Option Controller

/-- `g_pcat_controller_command_list`. -/
def commandList : List (String × Callback) :=
  [("pmu-status", fun c id command _ => some (c.pmuStatusFunc js id command)),
    ("schedule-power-event-set", fun c id command m =>
      c.schedulePowerEventSetFunc fmt js zone id command m),
    ("schedule-power-event-get", fun c id command _ =>
      some (c.schedulePowerEventGetFunc js zone id command)),
    ("modem-status-get", fun c id command _ => some (c.modemStatusGetFunc js id command)),
    ("network-route-mode-get", fun c id command _ =>
      some (c.networkRouteModeGetFunc js id command)),
    ("charger-on-auto-start-set", fun c id command m =>
      some (c.chargerOnAutoStartSetFunc fmt js id command m)),
    ("charger-on-auto-start-get", fun c id command _ =>
      some (c.chargerOnAutoStartGetFunc js id command)),
    ("pmu-fw-version-get", fun c id command _ => some (c.pmuFwVersionGetFunc js id command)),
    ("modem-rfkill-mode-set", fun c id command m =>
      some (c.modemRfkillModeSetFunc js id command m)),
    ("modem-network-setup", fun c id command m =>
      some (c.modemNetworkSetupFunc fmt js id command m)),
    ("modem-network-get", fun c id command _ => some (c.modemNetworkGetFunc js id command))]

/-- The command of a message. -/
def commandOf (root : Json) : Option String := (root.member? "command").bind js.getString

/-- What `pcat_controller_unix_socket_input_parse` does with the text of a message. -/
def handleText (c : Controller) (id : ℕ) (text : List UInt8) (action stored : Bool) :
    Option Controller :=
  match js.parse text with
  | none => some c
  | some root =>
    match commandOf js root with
    | none => some c
    | some command =>
      match (commandList fmt js zone).lookup command with
      | none => some c
      | some callback => callback c id command ⟨root, action, stored⟩

end Controller
end PcatManager
