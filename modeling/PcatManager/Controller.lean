import PcatManager.LocalTime
import PcatManager.PmuManager
import PcatManager.UserConfigFile

/-!
# The controller

The commands of `controller.c` that change the user configuration, over the daemon and
its configuration file. The JSON library and the time zone of the host are parameters.
-/

namespace PcatManager
open GregorianCalendar

/-- The values of the JSON library. A real number is kept as its text. -/
inductive Json where
  | null
  | bool (b : Bool)
  | int (n : ℤ)
  | double (text : String)
  | string (s : String)
  | array (items : List Json)
  | object (members : List (String × Json))

/-- `json_object_object_get_ex`. -/
def Json.member? : Json → String → Option Json
  | .object members, key => members.lookup key
  | _, _ => none

/-- The conversions of the JSON library: `json_object_get_int`, which cuts an integer off
at the ends of its range, and `json_object_get_string`. -/
structure JsonConversions where
  getInt : Json → Int32
  getString : Json → Option String
  getInt_int : ∀ n : ℤ, -2147483648 ≤ n → n ≤ 2147483647 → getInt (.int n) = Int32.ofInt n

theorem JsonConversions.getInt_toInt (jc : JsonConversions) (v : Int32) :
    jc.getInt (.int v.toInt) = v := by
  have hlow := v.le_toInt
  have hhigh := v.toInt_lt
  rw [jc.getInt_int _ (by omega) (by omega), Int32.ofInt_toInt]

/-- Conversions of integers, booleans and strings. -/
def JsonConversions.plain : JsonConversions where
  getInt
    | .int n => Int32.ofInt (max (-2147483648) (min n 2147483647))
    | .bool b => if b then 1 else 0
    | _ => 0
  getString
    | .string s => some s
    | _ => none
  getInt_int n hlow hhigh := by
    dsimp only
    rw [Int.min_eq_left hhigh, Int.max_eq_right hlow]

/-- The commands that change the user configuration. -/
inductive ControllerCommand where
  | schedulePowerEventSet
  | chargerOnAutoStartSet
  | modemNetworkSetup
  deriving DecidableEq, Repr

/-- The name of a command on the control socket. -/
def ControllerCommand.text : ControllerCommand → String
  | .schedulePowerEventSet => "schedule-power-event-set"
  | .chargerOnAutoStartSet => "charger-on-auto-start-set"
  | .modemNetworkSetup => "modem-network-setup"

/-- The daemon with its configuration file and the replies it has pushed. -/
structure Daemon where
  world : World
  file : KeyFile
  replies : List Json

section Schedule
variable (jc : JsonConversions) (zone : LocalZone)

/-- The integer under a key. -/
def intUnder (node : Json) (key : String) : Option Int32 := (node.member? key).map jc.getInt

/-- The `enabled` flag of an event. -/
def eventEnabled (node : Json) : Bool :=
  match intUnder jc node "enabled" with | some iv => decide (iv ≠ 0) | none => false

/-- The `enable_bits` of an event: the minute bit when it is enabled, and what it asks
for. -/
def eventEnableBits (node : Json) : UInt8 :=
  let enableBits := if eventEnabled jc node then scheduleEnableMinute else 0
  match intUnder jc node "enable-bits" with
  | some iv => enableBits ||| UInt8.ofInt iv.toInt
  | none => enableBits

/-- The `dow_bits` of an event. -/
def eventDowBits (node : Json) : UInt8 :=
  match intUnder jc node "dow-bits" with | some iv => UInt8.ofInt iv.toInt | none => 0

/-- The local time of an event in UTC; fields it does not give are those of the start of
2000. -/
def eventUtc (node : Json) : Option UtcTime :=
  let y := (intUnder jc node "year").getD 2000
  let m := (intUnder jc node "month").getD 1
  let d := (intUnder jc node "day").getD 1
  let h := (intUnder jc node "hour").getD 0
  let min := (intUnder jc node "minute").getD 0
  zone.toUtc y m d h min

/-- The entry `pcat_controller_command_schedule_power_event_set_func` builds for one
event. A time GLib does not have is replaced by the start of 2000. -/
def eventEntry (node : Json) (action : Bool) : PowerScheduleData :=
  match eventUtc jc zone node with
  | some dt2 =>
    { enabled := eventEnabled jc node
      action := action
      enableBits := eventEnableBits jc node
      year := Int16.ofInt dt2.dateTime.date.year
      month := UInt8.ofNat dt2.dateTime.date.month
      day := UInt8.ofInt dt2.dateTime.date.day
      hour := UInt8.ofInt dt2.dateTime.hour
      minute := UInt8.ofInt dt2.dateTime.minute
      dowBits := eventDowBits jc node }
  | none =>
    { enabled := eventEnabled jc node
      action := action
      enableBits := eventEnableBits jc node
      year := 2000
      month := 1
      day := 1
      hour := 0
      minute := 0
      dowBits := eventDowBits jc node }

@[simp] theorem eventEntry_enabled (node : Json) (action : Bool) :
    (eventEntry jc zone node action).enabled = eventEnabled jc node := by
  rw [eventEntry]
  split <;> rfl

@[simp] theorem eventEntry_action (node : Json) (action : Bool) :
    (eventEntry jc zone node action).action = action := by
  rw [eventEntry]
  split <;> rfl

@[simp] theorem eventEntry_enableBits (node : Json) (action : Bool) :
    (eventEntry jc zone node action).enableBits = eventEnableBits jc node := by
  rw [eventEntry]
  split <;> rfl

@[simp] theorem eventEntry_dowBits (node : Json) (action : Bool) :
    (eventEntry jc zone node action).dowBits = eventDowBits jc node := by
  rw [eventEntry]
  split <;> rfl

/-- The action of an event. Without one it keeps the value it had for the event before. -/
def eventAction (node : Json) (action : Bool) : Bool :=
  match intUnder jc node "action" with | some iv => decide (iv ≠ 0) | none => action

/-- The loop over the events: of the on-events and of the off-events the first six are
kept, and null nodes are passed over. -/
def powerEventLoop : List Json → (action : Bool) → (countOn countOff : ℕ) → List PowerScheduleData
  | [], _, _, _ => []
  | .null :: nodes, action, countOn, countOff => powerEventLoop nodes action countOn countOff
  | node :: nodes, action, countOn, countOff =>
    let action := eventAction jc node action
    if action then
      if 6 < countOn + 1 then powerEventLoop nodes action (countOn + 1) countOff
      else eventEntry jc zone node action :: powerEventLoop nodes action (countOn + 1) countOff
    else
      if 6 < countOff + 1 then powerEventLoop nodes action countOn (countOff + 1)
      else eventEntry jc zone node action :: powerEventLoop nodes action countOn (countOff + 1)

/-- What the variables of the loop hold after some events: the action, and the numbers of
on-events and off-events. -/
def eventCounts : List Json → (action : Bool) → (countOn countOff : ℕ) → Bool × ℕ × ℕ
  | [], action, countOn, countOff => (action, countOn, countOff)
  | .null :: nodes, action, countOn, countOff => eventCounts nodes action countOn countOff
  | node :: nodes, action, countOn, countOff =>
    let action := eventAction jc node action
    if action then eventCounts nodes action (countOn + 1) countOff
    else eventCounts nodes action countOn (countOff + 1)

theorem powerEventLoop_cons {node : Json} (hnull : node ≠ .null) (nodes : List Json) (action : Bool)
    (countOn countOff : ℕ) :
    powerEventLoop jc zone (node :: nodes) action countOn countOff =
      (if (if eventAction jc node action then countOn else countOff) < 6 then
        [eventEntry jc zone node (eventAction jc node action)] else []) ++
      powerEventLoop jc zone nodes (eventAction jc node action)
        (if eventAction jc node action then countOn + 1 else countOn)
        (if eventAction jc node action then countOff else countOff + 1) := by
  rw [powerEventLoop.eq_3 _ _ _ _ _ _ _ hnull]
  cases eventAction jc node action with
  | true =>
    by_cases hroom : countOn < 6
    · have hkept : ¬6 < countOn + 1 := by omega
      simp only [if_true, if_pos hroom, if_neg hkept, List.singleton_append]
    · have hfull : 6 < countOn + 1 := by omega
      simp only [if_true, if_neg hroom, if_pos hfull, List.nil_append]
  | false =>
    by_cases hroom : countOff < 6
    · have hkept : ¬6 < countOff + 1 := by omega
      simp only [Bool.false_eq_true, if_false, if_pos hroom, if_neg hkept, List.singleton_append]
    · have hfull : 6 < countOff + 1 := by omega
      simp only [Bool.false_eq_true, if_false, if_neg hroom, if_pos hfull, List.nil_append]

theorem eventCounts_cons {node : Json} (hnull : node ≠ .null) (nodes : List Json) (action : Bool)
    (countOn countOff : ℕ) :
    eventCounts jc (node :: nodes) action countOn countOff =
      eventCounts jc nodes (eventAction jc node action)
        (if eventAction jc node action then countOn + 1 else countOn)
        (if eventAction jc node action then countOff else countOff + 1) := by
  rw [eventCounts.eq_3 _ _ _ _ _ _ hnull]
  cases eventAction jc node action <;> rfl

/-- The loop over more events goes on with what its variables hold. -/
theorem powerEventLoop_append (first rest : List Json) (action : Bool) (countOn countOff : ℕ) :
    powerEventLoop jc zone (first ++ rest) action countOn countOff =
      powerEventLoop jc zone first action countOn countOff ++
        powerEventLoop jc zone rest (eventCounts jc first action countOn countOff).1
          (eventCounts jc first action countOn countOff).2.1
          (eventCounts jc first action countOn countOff).2.2 := by
  induction first generalizing action countOn countOff with
  | nil => rfl
  | cons node nodes ih =>
    by_cases hnull : node = .null
    · subst hnull
      rw [List.cons_append, powerEventLoop, powerEventLoop, eventCounts, ih]
    · rw [List.cons_append, powerEventLoop_cons _ _ hnull, powerEventLoop_cons _ _ hnull,
        eventCounts_cons _ hnull, ih, List.append_assoc]

/-- The schedule a request asks for; `action` is what the uninitialised variable holds.
Without an event list it is empty; `json_object_array_length` aborts on an event list
that is no array. The length is kept in 32 bits. -/
def requestedSchedule (root : Json) (action : Bool) : Option (List PowerScheduleData) :=
  match root.member? "event-list" with
  | none => some []
  | some (.array array) =>
    some (powerEventLoop jc zone (array.take (array.length % 2 ^ 32)) action 0 0)
  | some _ => none

end Schedule

namespace Daemon

def setConfig (d : Daemon) (config : UserConfigData) : Daemon :=
  { d with world := { d.world with userConfig := config } }

/-- `pcat_main_user_config_data_sync`. -/
def userConfigDataSync (fmt : KeyFileFormat) (d : Daemon) (stored : Bool) : Daemon :=
  let (config, file) := userConfigDataSave fmt d.world.userConfig d.file stored
  { d.setConfig config with file := file }

/-- The reply of a command that succeeded. -/
def reply (d : Daemon) (command : ControllerCommand) : Daemon :=
  { d with
    replies :=
      d.replies ++ [.object [("command", .string command.text), ("code", .int 0)]] }

variable (fmt : KeyFileFormat) (jc : JsonConversions) (zone : LocalZone)

/-- What `pcat_controller_command_schedule_power_event_set_func` does with the schedule. -/
def storeSchedule (d : Daemon) (schedule : List PowerScheduleData) (stored : Bool) : Daemon :=
  let config := { d.world.userConfig with powerScheduleData := some schedule, dirty := true }
  let d := (d.setConfig config).userConfigDataSync fmt stored
  let d := d.reply .schedulePowerEventSet
  { d with world := d.world.scheduleTimeUpdate }

/-- `pcat_controller_command_schedule_power_event_set_func`. -/
def schedulePowerEventSet (d : Daemon) (root : Json) (action stored : Bool) : Option Daemon :=
  (requestedSchedule jc zone root action).map fun schedule => d.storeSchedule fmt schedule stored

/-- What `charger-on-auto-start-set` makes of the configuration. -/
def chargerConfig (config : UserConfigData) (root : Json) : UserConfigData :=
  let config :=
    match intUnder jc root "state" with
    | some iv => { config with chargerOnAutoStart := decide (iv ≠ 0), dirty := true }
    | none => config
  match intUnder jc root "timeout" with
  | some iv => { config with chargerOnAutoStartTimeout := iv.toUInt32, dirty := true }
  | none => config

/-- `pcat_controller_command_charger_on_auto_start_set_func`. -/
def chargerOnAutoStartSet (d : Daemon) (root : Json) (stored : Bool) : Daemon :=
  let config := chargerConfig jc d.world.userConfig root
  let d := (d.setConfig config).reply .chargerOnAutoStartSet
  let d := { d with world := d.world.chargerOnAutoStart config.chargerOnAutoStart }
  d.userConfigDataSync fmt stored

/-- A string argument; an empty one counts as none. -/
def stringUnder (root : Json) (key : String) : Option String :=
  ((root.member? key).bind jc.getString).filter (· ≠ "")

/-- What `modem-network-setup` makes of the configuration. -/
def modemConfig (config : UserConfigData) (root : Json) : UserConfigData :=
  { config with
    modemDialApn := stringUnder jc root "apn"
    modemDialUser := stringUnder jc root "user"
    modemDialPassword := stringUnder jc root "password"
    modemDialAuth := stringUnder jc root "auth"
    modemDisable5gFailAutoReset :=
      match intUnder jc root "connection-5g-fail-auto-reset" with
      | some iv => decide (iv ≠ 0)
      | none => false
    dirty := true }

/-- `pcat_controller_command_modem_network_setup_func`. -/
def modemNetworkSetup (d : Daemon) (root : Json) (stored : Bool) : Daemon :=
  let d := d.setConfig (modemConfig jc d.world.userConfig root)
  (d.userConfigDataSync fmt stored).reply .modemNetworkSetup

end Daemon

/-- One command with its arguments, what the uninitialised variable holds, and whether
the configuration file could be written. -/
structure ControllerRequest where
  command : ControllerCommand
  root : Json
  action : Bool
  stored : Bool

section Requests
variable (fmt : KeyFileFormat) (jc : JsonConversions) (zone : LocalZone)

/-- The callback of a command. There is no daemon left when it aborts. -/
def Daemon.callback (d : Daemon) (r : ControllerRequest) : Option Daemon :=
  match r.command with
  | .schedulePowerEventSet => d.schedulePowerEventSet fmt jc zone r.root r.action r.stored
  | .chargerOnAutoStartSet => some (d.chargerOnAutoStartSet fmt jc r.root r.stored)
  | .modemNetworkSetup => some (d.modemNetworkSetup fmt jc r.root r.stored)

/-- Commands one after the other. -/
def Daemon.callbacks (d : Daemon) : List ControllerRequest → Option Daemon
  | [] => some d
  | r :: rest => (d.callback fmt jc zone r).bind fun d => d.callbacks rest

/-- `pcat_main_user_config_data_load` of the configuration file. -/
def Daemon.userConfigDataLoad (d : Daemon) : Daemon :=
  d.setConfig (PcatManager.userConfigDataLoad fmt d.file)

end Requests

end PcatManager
