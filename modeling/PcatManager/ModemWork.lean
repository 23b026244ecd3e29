import PcatManager.Controller
import PcatManager.MainConfigFile
import PcatManager.ModemReset
import Mathlib.Logic.Function.Basic

/-!
# The work thread of the modem manager

The thread switches the modem on, then looks for it on the USB every second and keeps a
dialer running for it. What it shares with the main loop is one state here without a lock: a
step is an operation of the thread, one access of a callback of the main loop, or the exit of a
dialer.
-/

namespace PcatManager
open SerialReadParser GuardedRun

/-- The GPIO lines of the modem. -/
inductive ModemGpio where
  | power | rfKill | reset
  deriving DecidableEq, Repr

/-- A line pointer: null, to a line, or to a line that is requested for output too. -/
inductive LineHandle where
  | null | opened | requested
  deriving DecidableEq, Repr

/-- A GPIO line: whether its chip is open, the pointer, and the value it was last driven at. The
last field is not part of the program: the value that the last call asked for, and whether the
call succeeded. -/
structure ModemLine where
  chip : Bool := false
  handle : LineHandle := .null
  value : Option Bool := none
  lastCall : Option (Bool × Bool) := none
  deriving DecidableEq, Repr

namespace ModemLine

/-- `gpiod_line_set_value`, whose result is not looked at. It fails on a line that is not
requested. -/
def setValue (line : ModemLine) (ok value : Bool) : ModemLine :=
  match line.handle with
  | .null => line
  | .opened => { line with lastCall := some (value, false) }
  | .requested =>
    { line with value := if ok then some value else line.value, lastCall := some (value, ok) }

/-- `gpiod_line_request_output`, or `gpiod_line_set_value` on a line that is requested. -/
def request (line : ModemLine) (ok value : Bool) : ModemLine :=
  match line.handle with
  | .null => line
  | .opened =>
    if ok then
      { line with handle := .requested, value := some value, lastCall := some (value, true) }
    else { line with lastCall := some (value, false) }
  | .requested => line.setValue ok value

/-- The value is set for the last time, then the line is given back. -/
def release (line : ModemLine) (ok value : Bool) : ModemLine :=
  { (line.setValue ok value) with handle := .null }

end ModemLine

/-- An operation of `pcat_modem_manager_modem_power_init`. -/
inductive PowerOp where
  | clearRfkillState
  | configured (gpio : ModemGpio)
  | openChip (gpio : ModemGpio)
  | getLine (gpio : ModemGpio)
  | request (gpio : ModemGpio) (active : Bool)
  | set (gpio : ModemGpio) (active : Bool)
  | wait (time : ℕ)
  deriving DecidableEq, Repr

def modemPowerWaitTime : ℕ := 50
def modemPowerReadyTime : ℕ := 30
def modemResetOnTime : ℕ := 3
def modemResetWaitTime : ℕ := 30

/-- From the end of the first wait on. -/
def modemPowerOn : List PowerOp :=
  [.set .power true, .set .rfKill false, .set .reset false, .wait modemPowerReadyTime,
    .set .reset true, .wait modemResetOnTime, .set .reset false, .wait modemResetWaitTime]

/-- `pcat_modem_manager_modem_power_init`. -/
def modemPowerInit : List PowerOp :=
  [.clearRfkillState, .configured .power, .configured .reset, .openChip .power,
    .openChip .rfKill, .openChip .reset, .getLine .power, .request .power false,
    .getLine .rfKill, .request .rfKill true, .getLine .reset, .request .reset false,
    .wait modemPowerWaitTime] ++ modemPowerOn

/-- `PCatModemManagerUSBData`. -/
structure ModemUsbData where
  deviceType : ModemDeviceType
  idVendor : UInt16
  idProduct : UInt16
  externalControlExec : Option String
  externalControlExecIsDaemon : Bool
  deriving DecidableEq, Repr

/-- `g_pcat_modem_manager_supported_dev_list`. -/
def modemSupportedDevList : List ModemUsbData :=
  [⟨.fiveG, 0x2C7C, 0x900, some "quectel-cm", false⟩,
    ⟨.general, 0x2C7C, 0, some "quectel-cm", false⟩]

/-- The vendor and the product of a USB device; none where they could not be read. -/
abbrev UsbDevice := Option (UInt16 × UInt16)

/-- The supported device that a USB device is. -/
def supportedDev (dev : UsbDevice) : Option ModemUsbData :=
  dev.bind fun desc =>
    modemSupportedDevList.find? fun usbData =>
      usbData.idVendor = desc.1 && (usbData.idProduct = 0 || usbData.idProduct = desc.2)

/-- The settings of the dialer that `pcat_controller_command_modem_network_setup_func` replaces. -/
inductive DialField where
  | apn | user | password | auth
  deriving DecidableEq, Repr

def UserConfigData.dial (config : UserConfigData) : DialField → Option String
  | .apn => config.modemDialApn
  | .user => config.modemDialUser
  | .password => config.modemDialPassword
  | .auth => config.modemDialAuth

def UserConfigData.setDial (config : UserConfigData) (text : Option String) :
    DialField → UserConfigData
  | .apn => { config with modemDialApn := text }
  | .user => { config with modemDialUser := text }
  | .password => { config with modemDialPassword := text }
  | .auth => { config with modemDialAuth := text }

@[simp] theorem UserConfigData.dial_setDial (config : UserConfigData) (text : Option String)
    (field field' : DialField) :
    (config.setDial text field).dial field' = if field' = field then text else config.dial field' := by
  cases field <;> cases field' <;> rfl

@[simp] theorem UserConfigData.modemDisableIpv6_setDial (config : UserConfigData)
    (text : Option String) (field : DialField) :
    (config.setDial text field).modemDisableIpv6 = config.modemDisableIpv6 := by
  cases field <;> rfl

/-- The arguments of a call that takes them up to the first null pointer. -/
def arguments (args : List (Option String)) : List String := (args.takeWhile (·.isSome)).filterMap id

/-- The command that `pcat_modem_manager_run_external_exec` runs. It reads the settings twice:
it tests them for null pointers, then it passes them on. -/
def dialCommand (exec : String) (idVendor : UInt16) (disableIpv6 : Bool)
    (tested passed : DialField → Option String) : List String :=
  let families := if !disableIpv6 then ["-4", "-6"] else []
  let settings :=
    if idVendor = 0x2C7C && (tested .apn).isSome then
      if (tested .user).isSome && (tested .password).isSome && (tested .auth).isSome then
        "-s" :: arguments [passed .apn, passed .user, passed .password, passed .auth]
      else "-s" :: arguments [passed .apn]
    else []
  exec :: families ++ settings

/-- Where the thread stands: before its loop, in the operations of the power
initialisation, between two scans, in a scan, before it gives some lines back, or at its end. -/
inductive WorkPoint where
  | start
  | powerInit (ops : List PowerOp)
  | ready
  | scanning (devs : List UsbDevice) (deviceType : ModemDeviceType)
  | closing (gpios : List ModemGpio)
  | ended
  deriving DecidableEq, Repr

/-- The accesses of `pcat_modem_manager_device_rfkill_mode_set`: it compares the state, stores
it, spawns `rfkill` and sets the line. -/
inductive RfkillPhase where
  | compare | store | spawn | drive
  deriving DecidableEq, Repr

/-- What a callback of the main loop still does. -/
inductive CallbackOp where
  | stdout (now : ℤ) (stale : Option (List UInt8)) (chunk : Read)
  | checkScan (now : ℤ) (config : UserConfigData)
  | rfkill (phase : RfkillPhase) (state : Bool)
  | endReset
  | storeDial (field : DialField) (text : Option String)

/-- The callbacks of the main loop. -/
inductive MainCallback where
  | manager (e : ModemManagerData.Event)
  | networkSetup (texts : DialField → Option String)

/-- What a callback does. -/
def MainCallback.ops : MainCallback → List CallbackOp
  | .manager (.stdout now stale chunk) => [.stdout now stale chunk]
  | .manager (.rfkillModeSet state) => [.rfkill .compare state]
  | .manager (.scanTimeout now config) => [.checkScan now config]
  | .networkSetup texts =>
    [.storeDial .apn (texts .apn), .storeDial .user (texts .user),
      .storeDial .password (texts .password), .storeDial .auth (texts .auth)]

/-- What the thread and the main loop share, and where both stand. A dialer is known by its
number in the order of their starts. The last five fields are not part of the program: whether
the thread has set the rfkill line to on, the settings that were replaced since its last
operation, the latest first, the commands of the dialers started so far, which of them run, and
which the main loop has not yet heard the end of. -/
structure ModemWork where
  workFlag : Bool := true
  manager : ModemManagerData := {}
  userConfig : UserConfigData := {}
  gpio : ModemGpio → ModemLine := fun _ => {}
  deviceType : ModemDeviceType := .none
  point : WorkPoint := .start
  callback : List CallbackOp := []
  process : Option ℕ := none
  radioOn : Bool := false
  replaced : List UserConfigData := []
  started : List (List String) := []
  alive : List ℕ := []
  waits : List ℕ := []

/-- A step: an operation of the thread, which may fail where it is a call, and which reads
every setting of the dialer at some moment since the operation before, for its test and for
its use; the list of the USB devices at the begin of a scan, which may fail too; the begin of a
callback of the main loop; the next access of the callback under way, which may fail where it
sets the line; the exit of a dialer and the callback that hears of it; or
`pcat_modem_manager_uninit`. -/
inductive WorkEvent where
  | work (ok : Bool) (moments : DialField → ℕ × ℕ := fun _ => (0, 0))
  | scan (devs : Option (List UsbDevice))
  | dispatch (callback : MainCallback)
  | callback (ok : Bool)
  | processExit (id : ℕ)
  | processWait (id : ℕ)
  | uninit

namespace ModemWork
variable (hw : ManagerMainConfigData) (distro : Bool)

/-- The configuration of a line. -/
def gpioConfig : ModemGpio → GpioConfig
  | .power => hw.hwGpioModemPower
  | .rfKill => hw.hwGpioModemRfKill
  | .reset => hw.hwGpioModemReset

/-- The value that a line is active or not active at. -/
def level (gpio : ModemGpio) (active : Bool) : Bool := active ^^ (gpioConfig hw gpio).activeLow

/-- Only the rfkill line may be left out of the configuration, also by an empty name. -/
def chipConfigured (gpio : ModemGpio) : Bool :=
  match (gpioConfig hw gpio).chip with
  | none => false
  | some name => gpio ≠ .rfKill || name ≠ ""

def setLine (s : ModemWork) (gpio : ModemGpio) (line : ModemLine) : ModemWork :=
  { s with gpio := Function.update s.gpio gpio line }

/-- One operation of the power initialisation before `ops`. -/
def powerStep (ok : Bool) (s : ModemWork) (ops : List PowerOp) : PowerOp → ModemWork
  | .clearRfkillState =>
    { s with manager := { s.manager with modemRfkillState := false }, point := .powerInit ops }
  | .configured gpio =>
    { s with point := if (gpioConfig hw gpio).chip.isSome then .powerInit ops else .ready }
  | .openChip gpio =>
    if (s.gpio gpio).chip || !chipConfigured hw gpio then { s with point := .powerInit ops }
    else if ok then
      { s.setLine gpio { s.gpio gpio with chip := true } with point := .powerInit ops }
    else { s with point := if gpio = .rfKill then .powerInit ops else .ready }
  | .getLine gpio =>
    if (s.gpio gpio).handle ≠ .null || !(s.gpio gpio).chip then { s with point := .powerInit ops }
    else if ok then
      { s.setLine gpio { s.gpio gpio with handle := .opened } with point := .powerInit ops }
    else { s with point := if gpio = .rfKill then .powerInit ops else .ready }
  | .request gpio active =>
    { s.setLine gpio ((s.gpio gpio).request ok (level hw gpio active)) with point := .powerInit ops }
  | .set gpio active =>
    { s.setLine gpio ((s.gpio gpio).setValue ok (level hw gpio active)) with
      point := .powerInit ops
      radioOn := s.radioOn || (gpio = .rfKill && !active) }
  | .wait time =>
    if !s.workFlag then { s with point := .ready }
    else
      match time with
      | 0 => { s with point := .powerInit ops }
      | time + 1 => { s with point := .powerInit (.wait time :: ops) }

/-- What the thread reads of the settings, each at its moment. -/
def dialRead (s : ModemWork) (moment : DialField → ℕ) (field : DialField) : Option String :=
  (((s.userConfig :: s.replaced)[moment field]?).getD s.userConfig).dial field

/-- `pcat_modem_manager_run_external_exec`. -/
def runExternalExec (ok : Bool) (moments : DialField → ℕ × ℕ) (s : ModemWork)
    (usbData : ModemUsbData) : ModemWork :=
  match usbData.externalControlExec with
  | none => s
  | some exec =>
    if usbData.externalControlExecIsDaemon || s.process.isSome || !ok then s
    else
      { s with
        process := some s.started.length
        started := s.started ++ [dialCommand exec usbData.idVendor s.userConfig.modemDisableIpv6
          (s.dialRead fun field => (moments field).1) (s.dialRead fun field => (moments field).2)]
        alive := s.started.length :: s.alive
        waits := s.started.length :: s.waits }

/-- One device of `pcat_modem_manager_scan_usb_devs`. -/
def scanStep (ok : Bool) (moments : DialField → ℕ × ℕ) (s : ModemWork) (devs : List UsbDevice)
    (deviceType : ModemDeviceType) (dev : UsbDevice) : ModemWork :=
  match supportedDev dev with
  | none => { s with point := .scanning devs deviceType }
  | some usbData =>
    { s.runExternalExec ok moments usbData with point := .scanning devs usbData.deviceType }

/-- After its loop the thread ends the dialer, gives the lines back one after the other, and at
last the chips. -/
def endDialer (s : ModemWork) : ModemWork :=
  { s with
    point := .closing [.reset, .rfKill, .power]
    process := none
    alive := s.process.toList.foldl List.erase s.alive }

def closeLine (ok : Bool) (s : ModemWork) (gpio : ModemGpio) (gpios : List ModemGpio) : ModemWork :=
  { s.setLine gpio ((s.gpio gpio).release ok (level hw gpio (gpio = .rfKill))) with
    point := .closing gpios }

def closeChips (s : ModemWork) : ModemWork :=
  { s with point := .ended, gpio := fun gpio => { s.gpio gpio with chip := false } }

/-- An operation of the thread. -/
def work (ok : Bool) (moments : DialField → ℕ × ℕ) (s : ModemWork) : ModemWork :=
  match s.point with
  | .start => if s.workFlag then { s with point := .powerInit modemPowerInit } else s.endDialer
  | .powerInit [] => { s with point := .ready }
  | .powerInit (op :: ops) => s.powerStep hw ok ops op
  | .ready => if s.workFlag then s else s.endDialer
  | .scanning [] deviceType => { s with deviceType := deviceType, point := .ready }
  | .scanning (dev :: devs) deviceType => s.scanStep ok moments devs deviceType dev
  | .closing [] => s.closeChips
  | .closing (gpio :: gpios) => s.closeLine hw ok gpio gpios
  | .ended => s

/-- One access of a callback before `ops`. A read of the dialer's output that crashes the program
is no step. -/
def callbackStep (ok : Bool) (s : ModemWork) (ops : List CallbackOp) : CallbackOp → ModemWork
  | .stdout now stale chunk =>
    { s with
      manager := (s.manager.lineParser now stale chunk.bytes).getD s.manager
      callback := ops }
  | .checkScan now config =>
    { s with
      callback :=
        if !config.modemDisable5gFailAutoReset && s.manager.modemHave5gConnected &&
            !s.manager.modemRfkillState &&
            s.manager.modem5gConnectionTimestamp + config.modem5gFailTimeout.toNat * 1000000 < now then
          .rfkill .compare true :: .rfkill .compare false :: .endReset :: ops
        else ops }
  | .rfkill .compare state =>
    { s with
      callback := if s.manager.modemRfkillState = state then ops else .rfkill .store state :: ops }
  | .rfkill .store state =>
    { s with
      manager := { s.manager with modemRfkillState := state }
      callback := .rfkill .spawn state :: ops }
  | .rfkill .spawn state =>
    { s with
      manager := { s.manager with rfkillCommands := s.manager.rfkillCommands ++ [state] }
      callback := .rfkill .drive state :: ops }
  | .rfkill .drive state =>
    { s.setLine .rfKill ((s.gpio .rfKill).setValue ok (level hw .rfKill state)) with callback := ops }
  | .endReset =>
    { s with
      manager :=
        { s.manager with
          modemHave5gConnected := false
          history := s.manager.history ++ [.autoReset] }
      callback := ops }
  | .storeDial field text =>
    { s with
      userConfig := s.userConfig.setDial text field
      replaced := s.userConfig :: s.replaced
      callback := ops }

/-- One step. The main loop dispatches one callback after the other; after
`pcat_modem_manager_uninit` it has come to its end. -/
def step (s : ModemWork) : WorkEvent → ModemWork
  | .work ok moments => { s.work hw ok moments with replaced := [] }
  | .scan devs =>
    if s.point = .ready ∧ s.workFlag ∧ !distro then
      match devs with
      | none => s
      | some devs => { s with point := .scanning devs .none }
    else s
  | .dispatch callback =>
    if s.workFlag ∧ s.callback.isEmpty then { s with callback := callback.ops } else s
  | .callback ok =>
    match s.callback with
    | [] => s
    | op :: ops => s.callbackStep hw ok ops op
  | .processExit id => { s with alive := s.alive.erase id }
  | .processWait id =>
    if s.workFlag ∧ s.callback.isEmpty ∧ id ∈ s.waits ∧ id ∉ s.alive then
      { s with process := none, waits := s.waits.erase id }
    else s
  | .uninit => if s.callback.isEmpty then { s with workFlag := false } else s

/-- The manager when it is initialised. -/
def initial (userConfig : UserConfigData) : ModemWork := { userConfig := userConfig }

/-- The thread begins the power initialisation as `ModemManagerData` says. -/
theorem sharedStep_powerInit (ok : Bool) (s : ModemWork) (ops : List PowerOp) :
    s.manager.sharedStep .powerInit = some (s.powerStep hw ok ops .clearRfkillState).manager := rfl

/-- By the accesses of the callback under way alone the manager comes to `mm`, before `ops`. -/
def Completes (s : ModemWork) (mm : ModemManagerData) (ops : List CallbackOp) : Prop :=
  ∃ n, (run (step hw distro) s (List.replicate n (.callback true))).manager = mm ∧
    (run (step hw distro) s (List.replicate n (.callback true))).callback = ops

theorem completes_refl (s : ModemWork) : Completes hw distro s s.manager s.callback :=
  ⟨0, rfl, rfl⟩

variable {hw distro}

theorem completes_callbackStep {s : ModemWork} {op : CallbackOp} {ops ops' : List CallbackOp}
    {mm : ModemManagerData} (h : s.callback = op :: ops)
    (hrest : Completes hw distro (s.callbackStep hw true ops op) mm ops') :
    Completes hw distro s mm ops' := by
  obtain ⟨n, hmanager, hcallback⟩ := hrest
  have hstep : s.step hw distro (.callback true) = s.callbackStep hw true ops op := by rw [step, h]
  refine ⟨n + 1, ?_, ?_⟩ <;> rw [List.replicate_succ, run_cons, hstep]
  · exact hmanager
  · exact hcallback

theorem completes_rfkill {s : ModemWork} {state : Bool} {ops ops' : List CallbackOp}
    {mm : ModemManagerData} (h : s.callback = .rfkill .compare state :: ops)
    (hrest : ∀ s' : ModemWork, s'.manager = s.manager.rfkillModeSet state → s'.callback = ops →
      Completes hw distro s' mm ops') : Completes hw distro s mm ops' := by
  apply completes_callbackStep h
  rw [ModemManagerData.rfkillModeSet] at hrest
  by_cases hsame : s.manager.modemRfkillState = state
  · rw [if_pos hsame] at hrest
    exact hrest _ rfl (if_pos hsame)
  · rw [if_neg hsame] at hrest
    apply completes_callbackStep (if_neg hsame)
    apply completes_callbackStep rfl
    apply completes_callbackStep rfl
    exact hrest _ rfl rfl

/-- A callback between whose accesses the thread does nothing is one of `ModemManagerData`. -/
theorem completes_dispatch {s : ModemWork} {e : ModemManagerData.Event} {mm : ModemManagerData}
    (hflag : s.workFlag = true) (hidle : s.callback = []) (hstep : s.manager.step e = some mm) :
    Completes hw distro (s.step hw distro (.dispatch (.manager e))) mm [] := by
  have hdispatch : s.step hw distro (.dispatch (.manager e)) =
      { s with callback := (MainCallback.manager e).ops } := by
    rw [step, hidle, hflag]
    rfl
  rw [hdispatch]
  cases e with
  | stdout now stale chunk =>
    have hparser : s.manager.lineParser now stale chunk.bytes = some mm := hstep
    apply completes_callbackStep rfl
    rw [callbackStep, hparser]
    exact completes_refl hw distro _
  | rfkillModeSet state =>
    cases hstep
    refine completes_rfkill rfl fun s' hmanager hcallback => ?_
    have hrefl := completes_refl hw distro s'
    rwa [hmanager, hcallback] at hrefl
  | scanTimeout now config =>
    cases hstep
    have hcond : (!config.modemDisable5gFailAutoReset && s.manager.modemHave5gConnected &&
        !s.manager.modemRfkillState &&
        decide (s.manager.modem5gConnectionTimestamp + config.modem5gFailTimeout.toNat * 1000000 < now)) =
          true ↔ s.manager.Expired now config := by
      simp [ModemManagerData.Expired, and_assoc]
    apply completes_callbackStep rfl
    rw [callbackStep]
    by_cases hexpired : s.manager.Expired now config
    · rw [if_pos (hcond.mpr hexpired), ModemManagerData.scanTimeout_of_expired hexpired]
      refine completes_rfkill rfl fun s₁ hfirst hcallback₁ => ?_
      refine completes_rfkill hcallback₁ fun s₂ hsecond hcallback₂ => ?_
      apply completes_callbackStep hcallback₂
      have hrfkill : s.manager.modemRfkillState = false := hexpired.2.2.1
      have hmanager : s₂.manager =
          { s.manager with rfkillCommands := s.manager.rfkillCommands ++ [true] ++ [false] } := by
        rw [hsecond, hfirst]
        simp [ModemManagerData.rfkillModeSet, hrfkill]
      have hend : (s₂.callbackStep hw true [] .endReset).manager =
          { s.manager with
            modemHave5gConnected := false
            rfkillCommands := s.manager.rfkillCommands ++ [true] ++ [false]
            history := s.manager.history ++ [.autoReset] } := by
        rw [callbackStep, hmanager]
      rw [← hend]
      exact completes_refl hw distro (s₂.callbackStep hw true [] .endReset)
    · rw [if_neg fun h => hexpired (hcond.mp h), ModemManagerData.scanTimeout_of_not_expired hexpired]
      exact completes_refl hw distro _

/-- A message between whose stores the thread does nothing leaves the settings of the dialer as
`modem-network-setup` makes them. -/
theorem dial_networkSetup (hw : ManagerMainConfigData) (distro : Bool) (jc : JsonConversions)
    {s : ModemWork} (hflag : s.workFlag = true) (hidle : s.callback = []) (root : Json) :
    (run (step hw distro) s (.dispatch (.networkSetup (Daemon.modemConfig jc s.userConfig root).dial) ::
        List.replicate 4 (.callback true))).callback = [] ∧
      (run (step hw distro) s (.dispatch (.networkSetup (Daemon.modemConfig jc s.userConfig root).dial) ::
        List.replicate 4 (.callback true))).userConfig.dial =
        (Daemon.modemConfig jc s.userConfig root).dial := by
  have hdispatch : s.step hw distro
      (.dispatch (.networkSetup (Daemon.modemConfig jc s.userConfig root).dial)) =
      { s with
        callback := (MainCallback.networkSetup (Daemon.modemConfig jc s.userConfig root).dial).ops } := by
    rw [step, hidle, hflag]
    rfl
  rw [run_cons, hdispatch]
  refine ⟨rfl, funext fun field => ?_⟩
  cases field <;> rfl

/-- A board whose lines are on one chip. -/
def oneChip : ManagerMainConfigData where
  valid := true
  hwGpioModemPower := ⟨some "gpiochip0", 1, false⟩
  hwGpioModemRfKill := ⟨some "gpiochip0", 2, false⟩
  hwGpioModemReset := ⟨some "gpiochip0", 3, true⟩
  pmSerialDevice := none
  pmSerialBaud := 115200
  pm := World.plain.mainConfig
  debugModemExternalExecStdoutLog := false
  debugOutputLog := false

end ModemWork
end PcatManager
