import PcatManager.KeyFile
import PcatManager.ManagerConfig
import Mathlib.Data.Int.Notation
import Mathlib.Data.List.TakeWhile

/-!
# The user configuration file

`pcat_main_user_config_data_load` and `pcat_main_user_config_data_save`, and what is read
back from a file that was saved.
-/

namespace PcatManager

/-- The numbered keys of the `Schedule` group. -/
inductive ScheduleItem where
  | enableBits
  | date
  | time
  | dowBits
  | action
  deriving DecidableEq, Repr

namespace ScheduleItem

def text : ScheduleItem → String
  | .enableBits => "EnableBits"
  | .date => "Date"
  | .time => "Time"
  | .dowBits => "DOWBits"
  | .action => "Action"

/-- The `item_name` of entry `i`. -/
def name (item : ScheduleItem) (i : ℕ) : String := item.text ++ i.repr

/-- No item name has a digit, so that the number can be told from the name. -/
theorem name_inj {a b : ScheduleItem} {i j : ℕ} : a.name i = b.name j ↔ a = b ∧ i = j := by
  constructor
  · intro h
    have hlist := congrArg String.toList h
    simp only [name, String.toList_append, Nat.toList_repr] at hlist
    have hdigits (n : ℕ) : ∀ c ∈ Nat.toDigits 10 n, ¬(!c.isDigit) = true := fun c hc => by
      simp [Nat.isDigit_of_mem_toDigits (by omega) (by omega) hc]
    have htext (a : ScheduleItem) : ∀ c ∈ a.text.toList, (!c.isDigit) = true := by
      rw [← List.all_eq_true]
      cases a <;> decide
    have hpart (a : ScheduleItem) (n : ℕ) :
        (a.text.toList ++ Nat.toDigits 10 n).takeWhile (fun c => !c.isDigit) = a.text.toList := by
      rw [List.takeWhile_append_of_pos (htext a),
        List.takeWhile_eq_nil_iff.mpr (fun hpos => hdigits n _ (List.getElem_mem hpos)),
        List.append_nil]
    have hab : a.text.toList = b.text.toList := by
      rw [← hpart a i, hlist, hpart b j]
    have ha : a = b := by
      revert hab
      cases a <;> cases b <;> decide
    subst ha
    rw [List.append_cancel_left_eq, ← Nat.toList_repr, ← Nat.toList_repr, String.toList_inj,
      Nat.repr_inj] at hlist
    exact ⟨rfl, hlist⟩
  · rintro ⟨rfl, rfl⟩
    rfl

/-- What `pcat_main_user_config_data_save` stores under the item for an entry. -/
def value (sdata : PowerScheduleData) : ScheduleItem → Int32
  | .enableBits => Int32.ofNat sdata.enableBits.toNat
  | .date => Int32.ofInt
      (sdata.year.toInt * 10000 + sdata.month.toNat * 100 + sdata.day.toNat)
  | .time => Int32.ofNat (sdata.hour.toNat * 100 + sdata.minute.toNat)
  | .dowBits => Int32.ofNat sdata.dowBits.toNat
  | .action => if sdata.action then 1 else 0

end ScheduleItem

section File
variable (fmt : KeyFileFormat)

/-- One turn of the load loop: the entry read under number `i`. Division and remainder
truncate towards zero. -/
def loadEntry (kf : KeyFile) (i : ℕ) : PowerScheduleData :=
  let get (item : ScheduleItem) : ℤ := (kf.getInteger fmt "Schedule" (item.name i)).toInt
  let enableBits := UInt8.ofInt (get .enableBits)
  { enabled := enableBits &&& scheduleEnableMinute ≠ 0
    action := get .action ≠ 0
    enableBits := enableBits
    year := Int16.ofInt (((get .date).tdiv 10000).tmod 10000)
    month := UInt8.ofInt (((get .date).tdiv 100).tmod 100)
    day := UInt8.ofInt ((get .date).tmod 100)
    hour := UInt8.ofInt (((get .time).tdiv 100).tmod 100)
    minute := UInt8.ofInt ((get .time).tmod 100)
    dowBits := UInt8.ofInt (get .dowBits) }

/-- The load loop: entries are read until an `EnableBits` key is missing. -/
def loadSchedule (kf : KeyFile) : (fuel i : ℕ) → List PowerScheduleData
  | 0, _ => []
  | fuel + 1, i =>
    if kf.hasKey "Schedule" (ScheduleItem.enableBits.name i) then
      loadEntry fmt kf i :: loadSchedule kf fuel (i + 1)
    else []

/-- A string setting; an empty string counts as none. -/
def loadString (kf : KeyFile) (key : String) : Option String :=
  (kf.getString fmt "Modem" key).filter (· ≠ "")

/-- `pcat_main_user_config_data_load` on a file that could be read. -/
def userConfigDataLoad (kf : KeyFile) : UserConfigData :=
  let failTimeout := (kf.getInteger fmt "Modem" "Connection5GFailTimeout").toUInt32
  { valid := true
    dirty := false
    powerScheduleData := some (loadSchedule fmt kf (kf.entries.length + 1) 0)
    chargerOnAutoStart := kf.getInteger fmt "General" "ChargerOnAutoStart" ≠ 0
    chargerOnAutoStartTimeout := (kf.getInteger fmt "General" "ChargerOnAutoStartTimeout").toUInt32
    modemDialApn := loadString fmt kf "APN"
    modemDialUser := loadString fmt kf "User"
    modemDialPassword := loadString fmt kf "Password"
    modemDialAuth := loadString fmt kf "Auth"
    modemDisableIpv6 := kf.getInteger fmt "Modem" "DisableIPv6" ≠ 0
    modemDisable5gFailAutoReset := kf.getInteger fmt "Modem" "Disable5GFailAutoReset" ≠ 0
    modem5gFailTimeout := if failTimeout < 60 then 600 else failTimeout }

/-- The keys of one entry. -/
def saveEntry (i : ℕ) (sdata : PowerScheduleData) (kf : KeyFile) : KeyFile :=
  [ScheduleItem.enableBits, .date, .time, .dowBits, .action].foldl
    (fun kf item => kf.setInteger fmt "Schedule" (item.name i) (item.value sdata)) kf

/-- The save loop. -/
def saveSchedule : ℕ → List PowerScheduleData → KeyFile → KeyFile
  | _, [], kf => kf
  | i, sdata :: rest, kf => saveSchedule (i + 1) rest (saveEntry fmt i sdata kf)

/-- A string setting that is there. -/
def saveString (key : String) (s : Option String) (kf : KeyFile) : KeyFile :=
  match s with
  | none => kf
  | some s => kf.setString fmt "Modem" key s

/-- The key file `pcat_main_user_config_data_save` builds. -/
def userConfigKeyFile (config : UserConfigData) : KeyFile :=
  let kf := saveSchedule fmt 0 (config.powerScheduleData.getD []) .empty
  let kf := kf.setInteger fmt "General" "ChargerOnAutoStart" (if config.chargerOnAutoStart then 1 else 0)
  let kf := kf.setInteger fmt "General" "ChargerOnAutoStartTimeout"
    config.chargerOnAutoStartTimeout.toInt32
  let kf := saveString fmt "APN" config.modemDialApn kf
  let kf := saveString fmt "User" config.modemDialUser kf
  let kf := saveString fmt "Password" config.modemDialPassword kf
  let kf := saveString fmt "Auth" config.modemDialAuth kf
  let kf := kf.setInteger fmt "Modem" "DisableIPv6" (if config.modemDisableIpv6 then 1 else 0)
  let kf := kf.setInteger fmt "Modem" "Disable5GFailAutoReset"
    (if config.modemDisable5gFailAutoReset then 1 else 0)
  kf.setInteger fmt "Modem" "Connection5GFailTimeout" config.modem5gFailTimeout.toInt32

/-- `pcat_main_user_config_data_save`: the configuration and the file after it. `stored`
tells whether the file could be written. -/
def userConfigDataSave (config : UserConfigData) (file : KeyFile) (stored : Bool) :
    UserConfigData × KeyFile :=
  if !config.dirty then (config, file)
  else if stored then ({ config with dirty := false }, userConfigKeyFile fmt config)
  else (config, file)

end File

section Keys
variable {fmt : KeyFileFormat}

theorem lookup_setInteger_schedule (kf : KeyFile) (item item' : ScheduleItem) (i j : ℕ) (v : Int32) :
    (kf.setInteger fmt "Schedule" (item.name i) v).lookup "Schedule" (item'.name j) =
      if item' = item ∧ j = i then some (fmt.ofInteger v) else kf.lookup "Schedule" (item'.name j) := by
  rw [KeyFile.setInteger, KeyFile.lookup_set]
  simp [ScheduleItem.name_inj]

theorem lookup_saveEntry (i : ℕ) (sdata : PowerScheduleData) (kf : KeyFile) (item : ScheduleItem)
    (j : ℕ) :
    (saveEntry fmt i sdata kf).lookup "Schedule" (item.name j) =
      if j = i then some (fmt.ofInteger (item.value sdata))
      else kf.lookup "Schedule" (item.name j) := by
  simp only [saveEntry, List.foldl_cons, List.foldl_nil, lookup_setInteger_schedule]
  by_cases hj : j = i
  · cases item <;> simp [hj]
  · simp [hj]

theorem lookup_saveEntry_group {group : String} (hgroup : group ≠ "Schedule") (i : ℕ)
    (sdata : PowerScheduleData) (kf : KeyFile) (key : String) :
    (saveEntry fmt i sdata kf).lookup group key = kf.lookup group key := by
  simp [saveEntry, KeyFile.setInteger, KeyFile.lookup_set, hgroup]

/-- The save loop from number `i` on sets the keys of its entries and no others. -/
theorem lookup_saveSchedule (i : ℕ) (schedule : List PowerScheduleData) (kf : KeyFile)
    (item : ScheduleItem) (j : ℕ) :
    (saveSchedule fmt i schedule kf).lookup "Schedule" (item.name j) =
      if i ≤ j ∧ j < i + schedule.length then
        (schedule[j - i]?).map fun sdata => fmt.ofInteger (item.value sdata)
      else kf.lookup "Schedule" (item.name j) := by
  induction schedule generalizing i kf with
  | nil =>
    have hnone : ¬(i ≤ j ∧ j < i + ([] : List PowerScheduleData).length) := by
      simp only [List.length_nil]
      omega
    rw [saveSchedule, if_neg hnone]
  | cons sdata rest ih =>
    rw [saveSchedule, ih, lookup_saveEntry]
    by_cases hj : j = i
    · subst hj
      have hin : j ≤ j ∧ j < j + (sdata :: rest).length := by
        simp only [List.length_cons]
        omega
      rw [if_neg (by omega), if_pos rfl, if_pos hin, Nat.sub_self, List.getElem?_cons_zero,
        Option.map_some]
    · by_cases hin : i + 1 ≤ j ∧ j < i + 1 + rest.length
      · have hin' : i ≤ j ∧ j < i + (sdata :: rest).length := by
          simp only [List.length_cons]
          omega
        rw [if_pos hin, if_pos hin', show j - i = (j - (i + 1)) + 1 by omega, List.getElem?_cons_succ]
      · have hout : ¬(i ≤ j ∧ j < i + (sdata :: rest).length) := by
          simp only [List.length_cons]
          omega
        rw [if_neg hin, if_neg hout, if_neg hj]

theorem lookup_saveSchedule_group {group : String} (hgroup : group ≠ "Schedule") (i : ℕ)
    (schedule : List PowerScheduleData) (kf : KeyFile) (key : String) :
    (saveSchedule fmt i schedule kf).lookup group key = kf.lookup group key := by
  induction schedule generalizing i kf with
  | nil => rfl
  | cons sdata rest ih => rw [saveSchedule, ih, lookup_saveEntry_group hgroup]

theorem lookup_saveString (key : String) (s : Option String) (kf : KeyFile) (group key' : String) :
    (saveString fmt key s kf).lookup group key' =
      if group = "Modem" ∧ key' = key ∧ s.isSome then s.map fmt.ofString else kf.lookup group key' := by
  cases s with
  | none => simp [saveString]
  | some s => simp [saveString, KeyFile.setString, KeyFile.lookup_set]

end Keys

end PcatManager
