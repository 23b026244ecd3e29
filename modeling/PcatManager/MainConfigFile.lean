import PcatManager.KeyFile
import PcatManager.BatteryTables
import PcatManager.VoltageThresholds

/-!
# The main configuration file

`pcat_main_config_data_load`. The program does not start without this file. A shutdown voltage
out of its range counts as none: a file can turn the shutdown off, and no value but the admitted
ones reaches the PMU.
-/

namespace PcatManager
open SerialFrame GuardedRun RunTrace ChangeNotifier

/-- A GPIO line of the configuration. -/
structure GpioConfig where
  chip : Option String
  line : UInt32
  activeLow : Bool
  deriving DecidableEq, Repr

/-- `PCatManagerMainConfigData`. What the PMU manager reads of it is `pm`. -/
structure ManagerMainConfigData where
  valid : Bool
  hwGpioModemPower : GpioConfig
  hwGpioModemRfKill : GpioConfig
  hwGpioModemReset : GpioConfig
  pmSerialDevice : Option String
  pmSerialBaud : UInt32
  pm : MainConfigData
  debugModemExternalExecStdoutLog : Bool
  debugOutputLog : Bool

section Load
variable (fmt : KeyFileFormat) (toIntegerList : String → Option (List Int32)) (kf : KeyFile)

/-- The three keys of a GPIO line. -/
def loadGpio (name : String) : GpioConfig where
  chip := kf.getString fmt "Hardware" (name ++ "Chip")
  line := (kf.getInteger fmt "Hardware" (name ++ "Line")).toUInt32
  activeLow := kf.getInteger fmt "Hardware" (name ++ "ActiveLow") ≠ 0

/-- An integer list, where the file has one that can be read. -/
def getIntegerList (key : String) : Option (List Int32) :=
  (kf.lookup "PowerManager" key).bind toIntegerList

/-- A shutdown voltage; one out of its range counts as none. -/
def loadShutdownVoltage (key : String) : UInt32 :=
  let ivalue := kf.getInteger fmt "PowerManager" key
  if 3000 ≤ ivalue && ivalue < 3700 then ivalue.toUInt32 else 0

def loadVoltage (key : String) : UInt32 :=
  let ivalue := kf.getInteger fmt "PowerManager" key
  if ivalue ≠ 0 then ivalue.toUInt32 else 0

/-- `pcat_main_config_data_load` on a file that could be read. -/
def mainConfigDataLoad : ManagerMainConfigData where
  valid := true
  hwGpioModemPower := loadGpio fmt kf "GPIOModemPower"
  hwGpioModemRfKill := loadGpio fmt kf "GPIOModemRFKill"
  hwGpioModemReset := loadGpio fmt kf "GPIOModemReset"
  pmSerialDevice := kf.getString fmt "PowerManager" "SerialDevice"
  pmSerialBaud := (kf.getInteger fmt "PowerManager" "SerialBaud").toUInt32
  pm :=
    { pmBatteryDischargeTableNormal :=
        loadBatteryTable (getIntegerList toIntegerList kf "BatteryDischargeTableNormal")
      pmBatteryDischargeTable5g :=
        loadBatteryTable (getIntegerList toIntegerList kf "BatteryDischargeTable5G")
      pmBatteryChargeTable := loadBatteryTable (getIntegerList toIntegerList kf "BatteryChargeTable")
      pmAutoShutdownVoltageGeneral := loadShutdownVoltage fmt kf "AutoShutdownVoltageGeneral"
      pmAutoShutdownVoltageLte := loadShutdownVoltage fmt kf "AutoShutdownVoltageLTE"
      pmAutoShutdownVoltage5g := loadShutdownVoltage fmt kf "AutoShutdownVoltage5G"
      pmLedHighVoltage := loadVoltage fmt kf "LEDHighVoltage"
      pmLedMediumVoltage := loadVoltage fmt kf "LEDMediumVoltage"
      pmLedLowVoltage := loadVoltage fmt kf "LEDLowVoltage"
      pmLedWorkLowVoltage := loadVoltage fmt kf "LEDWorkLowVoltage"
      pmStartupVoltage := loadVoltage fmt kf "StartupVoltage"
      pmChargerLimitVoltage := loadVoltage fmt kf "ChargerLimitVoltage"
      pmChargerFastVoltage := loadVoltage fmt kf "ChargerFastVoltage"
      pmBatteryFullThreshold := loadVoltage fmt kf "BatteryFullThreshold" }
  debugModemExternalExecStdoutLog := kf.getInteger fmt "Debug" "ModemExternalExecStdoutLog" ≠ 0
  debugOutputLog := kf.getInteger fmt "Debug" "OutputLog" ≠ 0

end Load

section ShutdownVoltage
variable (fmt : KeyFileFormat) (kf : KeyFile)

/-- The key of the shutdown voltage for a modem. -/
def shutdownVoltageKey : ModemDeviceType → String
  | .fiveG => "AutoShutdownVoltage5G"
  | .general => "AutoShutdownVoltageLTE"
  | .none => "AutoShutdownVoltageGeneral"

/-- What the file says under a key, where it is from 3 V on and below 3.7 V. -/
def admittedVoltage (key : String) : Option ℕ :=
  let ivalue := kf.getInteger fmt "PowerManager" key
  if 3000 ≤ ivalue ∧ ivalue < 3700 then some ivalue.toNatClampNeg else none

/-- The shutdown voltage that the file asks for: the one for the modem, else the general one,
else none. -/
def askedShutdownVoltage (deviceType : ModemDeviceType) : ℕ :=
  ((admittedVoltage fmt kf (shutdownVoltageKey deviceType)).or
    (admittedVoltage fmt kf (shutdownVoltageKey .none))).getD 0

variable {fmt kf}

theorem admittedVoltage_range {key : String} {n : ℕ} (h : admittedVoltage fmt kf key = some n) :
    3000 ≤ n ∧ n < 3700 := by
  rw [admittedVoltage] at h
  split at h
  · rename_i hrange
    obtain ⟨hlow, hhigh⟩ := hrange
    obtain rfl := Option.some.inj h
    rw [Int32.le_iff_toInt_le] at hlow
    rw [Int32.lt_iff_toInt_lt] at hhigh
    have hlow' : (3000 : ℤ) ≤ (kf.getInteger fmt "PowerManager" key).toInt := hlow
    have hhigh' : (kf.getInteger fmt "PowerManager" key).toInt < (3700 : ℤ) := hhigh
    rw [← Int32.toNat_toInt]
    omega
  · cases h

theorem askedShutdownVoltage_range (deviceType : ModemDeviceType) :
    askedShutdownVoltage fmt kf deviceType = 0 ∨
      3000 ≤ askedShutdownVoltage fmt kf deviceType ∧ askedShutdownVoltage fmt kf deviceType < 3700 := by
  rw [askedShutdownVoltage]
  cases hown : admittedVoltage fmt kf (shutdownVoltageKey deviceType) with
  | some n => exact .inr (admittedVoltage_range hown)
  | none =>
    cases hgeneral : admittedVoltage fmt kf (shutdownVoltageKey .none) with
    | some n => exact .inr (admittedVoltage_range hgeneral)
    | none => exact .inl rfl

theorem toNat_loadShutdownVoltage (key : String) :
    (loadShutdownVoltage fmt kf key).toNat = (admittedVoltage fmt kf key).getD 0 := by
  rw [loadShutdownVoltage, admittedVoltage]
  generalize kf.getInteger fmt "PowerManager" key = ivalue
  by_cases hrange : 3000 ≤ ivalue ∧ ivalue < 3700
  · have hnonneg : (0 : Int32) ≤ ivalue := Int32.le_trans (by decide) hrange.1
    rw [if_pos hrange, if_pos (by simpa using hrange), Int32.toNat_toUInt32_of_le hnonneg]
    rfl
  · rw [if_neg hrange, if_neg (by simpa using hrange)]
    rfl

end ShutdownVoltage

namespace World

/-- The word at the place of the shutdown voltage. -/
def shutdownVoltageField (data : List UInt8) : UInt16 := ofLe16 (data.getD 10 0) (data.getD 11 0)

theorem shutdownVoltageField_thresholdData (config : MainConfigData) (deviceType : ModemDeviceType) :
    shutdownVoltageField (thresholdData config deviceType) =
      (if modemShutdownVoltage config deviceType = 0 then config.pmAutoShutdownVoltageGeneral
        else modemShutdownVoltage config deviceType).toUInt16 :=
  ofLe16_le16 _

/-- The shutdown voltage on the wire is the one that the file asks for. -/
theorem shutdownVoltageField_mainConfigDataLoad (fmt : KeyFileFormat)
    (toIntegerList : String → Option (List Int32)) (kf : KeyFile) (deviceType : ModemDeviceType) :
    (shutdownVoltageField (thresholdData (mainConfigDataLoad fmt toIntegerList kf).pm
      deviceType)).toNat = askedShutdownVoltage fmt kf deviceType := by
  have hconfig : modemShutdownVoltage (mainConfigDataLoad fmt toIntegerList kf).pm deviceType =
      loadShutdownVoltage fmt kf (shutdownVoltageKey deviceType) := by
    cases deviceType <;> rfl
  have hsmall : askedShutdownVoltage fmt kf deviceType < 65536 := by
    have hrange : askedShutdownVoltage fmt kf deviceType = 0 ∨ _ := askedShutdownVoltage_range deviceType
    omega
  have hzero : loadShutdownVoltage fmt kf (shutdownVoltageKey deviceType) = 0 ↔
      (admittedVoltage fmt kf (shutdownVoltageKey deviceType)).getD 0 = 0 := by
    rw [← toNat_loadShutdownVoltage, ← UInt32.toNat_inj]
    rfl
  rw [shutdownVoltageField_thresholdData, hconfig, UInt32.toNat_toUInt16]
  refine (congrArg (· % 65536) ?_).trans (Nat.mod_eq_of_lt hsmall)
  rw [askedShutdownVoltage]
  cases hown : admittedVoltage fmt kf (shutdownVoltageKey deviceType) with
  | some n =>
    have hrange := admittedVoltage_range hown
    rw [hown, Option.getD_some] at hzero
    rw [if_neg (by rw [hzero]; omega), toNat_loadShutdownVoltage, hown]
    rfl
  | none =>
    rw [hown] at hzero
    rw [if_pos (hzero.mpr rfl)]
    exact toNat_loadShutdownVoltage (shutdownVoltageKey .none)

end World

namespace MainLoop

/-- Whatever the main configuration file says, in every run on an open port the threshold
commands carry the shutdown voltages that the file asks for: for no modem at the start and then
for each change of the type of the modem. They are 0 or from 3 V on and below 3.7 V. -/
theorem shutdown_voltage_run (fmt : KeyFileFormat) (toIntegerList : String → Option (List Int32))
    (kf : KeyFile) (w : World) (requestFile : Bool) (events : List MainEvent)
    (hevents : ∀ e ∈ events, ¬e.IsBareRequest ∧ ¬e.SetsThresholds) :
    let s := start { w with mainConfig := (mainConfigDataLoad fmt toIntegerList kf).pm } true
      requestFile
    let voltages := ((run step s events).world.enqueued.filter fun c =>
      c.command = commandVoltageThresholdSet).map fun c =>
        (World.shutdownVoltageField c.extraData).toNat
    voltages = (ModemDeviceType.none :: changes .none (trace step modemsSeen s events)).map
        (askedShutdownVoltage fmt kf) ∧
      ∀ v ∈ voltages, v = 0 ∨ 3000 ≤ v ∧ v < 3700 := by
  intro s voltages
  have hthresholds := extraData_run _ requestFile events
    (thresholds_runRequests { w with mainConfig := (mainConfigDataLoad fmt toIntegerList kf).pm }
      requestFile hevents) (length_thresholdData_le _ _)
  have hvoltages : voltages =
      (ModemDeviceType.none :: changes .none (trace step modemsSeen s events)).map
        (askedShutdownVoltage fmt kf) := by
    have hfields := congrArg
      (List.map fun data => (World.shutdownVoltageField data).toNat) hthresholds
    rw [List.map_map, List.map_map] at hfields
    refine hfields.trans (List.map_congr_left fun deviceType _ => ?_)
    exact World.shutdownVoltageField_mainConfigDataLoad fmt toIntegerList kf deviceType
  refine ⟨hvoltages, fun v hv => ?_⟩
  rw [hvoltages] at hv
  obtain ⟨deviceType, -, rfl⟩ := List.mem_map.mp hv
  exact askedShutdownVoltage_range deviceType

/-- A file that asks for a shutdown voltage out of its range for the 5G modem. -/
def drainingFile : KeyFile :=
  (KeyFile.empty.setInteger .decimal "PowerManager" "AutoShutdownVoltageGeneral" 3300).setInteger
    .decimal "PowerManager" "AutoShutdownVoltage5G" 2500

theorem admittedVoltage_drainingFile :
    admittedVoltage .decimal drainingFile "AutoShutdownVoltageGeneral" = some 3300 ∧
      admittedVoltage .decimal drainingFile "AutoShutdownVoltage5G" = none := by
  have hgeneral : drainingFile.getInteger .decimal "PowerManager" "AutoShutdownVoltageGeneral" = 3300 :=
    KeyFile.getInteger_of_lookup rfl
  have hfiveG : drainingFile.getInteger .decimal "PowerManager" "AutoShutdownVoltage5G" = 2500 :=
    KeyFile.getInteger_of_lookup rfl
  rw [admittedVoltage, admittedVoltage, hgeneral, hfiveG]
  exact ⟨by decide, by decide⟩

theorem shutdown_voltage_run_draining :
    ((run step (start { World.plain with
        mainConfig := (mainConfigDataLoad .decimal (fun _ => none) drainingFile).pm } true false)
      [.manager (.modem .fiveG), .manager .tick]).world.enqueued.filter fun c =>
        c.command = commandVoltageThresholdSet).map (fun c =>
          (World.shutdownVoltageField c.extraData).toNat) = [3300, 3300] := by
  have hrun := (shutdown_voltage_run .decimal (fun _ => none) drainingFile World.plain false
    [.manager (.modem .fiveG), .manager .tick]
    (by simp [MainEvent.IsBareRequest, MainEvent.SetsThresholds])).1
  refine hrun.trans ?_
  obtain ⟨hgeneral, hfiveG⟩ := admittedVoltage_drainingFile
  change [askedShutdownVoltage .decimal drainingFile .none,
    askedShutdownVoltage .decimal drainingFile .fiveG] = _
  rw [askedShutdownVoltage, askedShutdownVoltage, shutdownVoltageKey, shutdownVoltageKey, hgeneral,
    hfiveG]
  rfl

end MainLoop
end PcatManager
