import Mathlib.Data.Nat.Notation

/-!
# The configuration of the manager

The data types of `common.h` and the device types of `modem-manager.h`. Of the main
configuration only what the PMU manager reads is kept.
-/

namespace PcatManager

/-- `PCatManagerTimeEnableBits`. -/
def scheduleEnableYear : UInt8 := 1
def scheduleEnableMonth : UInt8 := 2
def scheduleEnableDay : UInt8 := 4
def scheduleEnableHour : UInt8 := 8
def scheduleEnableMinute : UInt8 := 16
def scheduleEnableDow : UInt8 := 32

/-- `PCatManagerPowerScheduleData`. -/
@[ext]
structure PowerScheduleData where
  enabled : Bool
  action : Bool
  enableBits : UInt8
  year : Int16
  month : UInt8
  day : UInt8
  hour : UInt8
  minute : UInt8
  dowBits : UInt8
  deriving DecidableEq, Repr

/-- The `enable_bits & PCAT_MANAGER_POWER_SCHEDULE_ENABLE_…` tests. -/
def PowerScheduleData.has (sdata : PowerScheduleData) (bit : UInt8) : Bool :=
  sdata.enableBits &&& bit ≠ 0

theorem or_and_eq_zero_iff (a b bit : UInt8) :
    (a ||| b) &&& bit = 0 ↔ a &&& bit = 0 ∧ b &&& bit = 0 := by
  have hdistrib : (a ||| b) &&& bit = (a &&& bit) ||| (b &&& bit) := by
    rw [← UInt8.toNat_inj]
    simp [Nat.and_or_distrib_right]
  rw [hdistrib, UInt8.or_eq_zero_iff]

/-- `PCatManagerUserConfigData`. A null pointer is `none`. -/
structure UserConfigData where
  valid : Bool := false
  dirty : Bool := false
  powerScheduleData : Option (List PowerScheduleData) := none
  chargerOnAutoStart : Bool := false
  chargerOnAutoStartTimeout : UInt32 := 0
  modemDialApn : Option String := none
  modemDialUser : Option String := none
  modemDialPassword : Option String := none
  modemDialAuth : Option String := none
  modemDisableIpv6 : Bool := false
  modemDisable5gFailAutoReset : Bool := false
  modem5gFailTimeout : UInt32 := 0
  deriving DecidableEq, Repr

/-- `PCatModemManagerDeviceType`. -/
inductive ModemDeviceType where
  | none
  | general
  | fiveG
  deriving DecidableEq, Repr

/-- The working points of a battery table, from full to empty. -/
abbrev BatteryTable := Vector UInt32 11

/-- The fields of `PCatManagerMainConfigData` that the PMU manager reads. -/
structure MainConfigData where
  pmAutoShutdownVoltageGeneral : UInt32
  pmAutoShutdownVoltageLte : UInt32
  pmAutoShutdownVoltage5g : UInt32
  pmBatteryDischargeTableNormal : BatteryTable
  pmBatteryDischargeTable5g : BatteryTable
  pmBatteryChargeTable : BatteryTable
  pmLedHighVoltage : UInt32
  pmLedMediumVoltage : UInt32
  pmLedLowVoltage : UInt32
  pmLedWorkLowVoltage : UInt32
  pmStartupVoltage : UInt32
  pmChargerLimitVoltage : UInt32
  pmChargerFastVoltage : UInt32
  pmBatteryFullThreshold : UInt32

end PcatManager
