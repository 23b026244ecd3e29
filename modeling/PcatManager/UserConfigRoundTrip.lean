import PcatManager.UserConfigFile
import Mathlib.Data.Int.Order.Basic

/-!
# Reading a saved user configuration back

What `pcat_main_user_config_data_load` makes of a file that
`pcat_main_user_config_data_save` wrote, and for which entries of the schedule it is the
entry that was saved.
-/

namespace PcatManager

/-- The packed date of an entry. -/
def PowerScheduleData.packedDate (sdata : PowerScheduleData) : ℤ :=
  sdata.year.toInt * 10000 + sdata.month.toNat * 100 + sdata.day.toNat

/-- The packed time of an entry. -/
def PowerScheduleData.packedTime (sdata : PowerScheduleData) : ℤ :=
  sdata.hour.toNat * 100 + sdata.minute.toNat

/-- The entry the load loop makes of what the save loop stored for `sdata`. -/
def PowerScheduleData.reread (sdata : PowerScheduleData) : PowerScheduleData :=
  { enabled := sdata.has scheduleEnableMinute
    action := sdata.action
    enableBits := sdata.enableBits
    year := Int16.ofInt ((sdata.packedDate.tdiv 10000).tmod 10000)
    month := UInt8.ofInt ((sdata.packedDate.tdiv 100).tmod 100)
    day := UInt8.ofInt (sdata.packedDate.tmod 100)
    hour := UInt8.ofInt ((sdata.packedTime.tdiv 100).tmod 100)
    minute := UInt8.ofInt (sdata.packedTime.tmod 100)
    dowBits := sdata.dowBits }

/-- The date fits the decimal digits it is packed into. -/
def PowerScheduleData.DateFits (sdata : PowerScheduleData) : Prop :=
  0 ≤ sdata.year.toInt ∧ sdata.year.toInt ≤ 9999 ∧ sdata.month.toNat ≤ 99 ∧
      sdata.day.toNat ≤ 99 ∨
    -9999 ≤ sdata.year.toInt ∧ sdata.year.toInt < 0 ∧ sdata.month = 0 ∧ sdata.day = 0

/-- The entries that survive being saved and loaded: the enabled flag is the minute bit,
and the date and the time fit the decimal digits they are packed into. -/
def PowerScheduleData.Fits (sdata : PowerScheduleData) : Prop :=
  sdata.enabled = sdata.has scheduleEnableMinute ∧ sdata.DateFits ∧
    sdata.hour.toNat ≤ 99 ∧ sdata.minute.toNat ≤ 99

instance (sdata : PowerScheduleData) : Decidable sdata.DateFits := inferInstanceAs (Decidable (_ ∨ _))

instance (sdata : PowerScheduleData) : Decidable sdata.Fits := inferInstanceAs (Decidable (_ ∧ _))

theorem UInt8.ofInt_eq_iff {x : ℤ} {b : UInt8} : UInt8.ofInt x = b ↔ x % 256 = b.toNat := by
  have hb := b.toNat_lt
  rw [← UInt8.toNat_inj, UInt8.ofInt, UInt8.toNat_ofNat']
  omega

theorem UInt8.ofInt_toNat (b : UInt8) : UInt8.ofInt b.toNat = b := by
  have hb := b.toNat_lt
  rw [UInt8.ofInt_eq_iff]
  omega

theorem tdiv_tmod_of_neg {v : ℤ} (h : v < 0) (n : ℤ) :
    v.tdiv n = -((-v) / n) ∧ v.tmod n = -((-v) % n) := by
  obtain ⟨u, rfl⟩ : ∃ u, v = -u := ⟨-v, by omega⟩
  rw [Int.neg_tdiv, Int.neg_tmod, Int.tdiv_eq_ediv_of_nonneg (by omega),
    Int.tmod_eq_emod_of_nonneg (by omega), Int.neg_neg]
  exact ⟨rfl, rfl⟩

/-- A negative remainder stored in a byte is read back as `256` more, which is no
remainder of the same class. -/
theorem low_digits_of_neg {q m u : ℤ} (hu : u = -(q * 100 + m)) (h : -(u % 100) % 256 = m) :
    m = 0 := by
  have hrem := Int.mul_ediv_add_emod u 100
  rcases Classical.em (u % 100 = 0) with h0 | h0
  · rw [← h, h0]
    rfl
  · have hbyte : -(u % 100) % 256 = 256 - u % 100 := by omega
    omega

theorem date_unpacks_of_nonneg {y m d v : ℤ} (hm : 0 ≤ m) (hd : 0 ≤ d)
    (hv : v = y * 10000 + m * 100 + d) :
    (v / 10000 % 10000 = y ∧ v / 100 % 100 % 256 = m ∧ v % 100 % 256 = d) ↔
    0 ≤ y ∧ y ≤ 9999 ∧ m ≤ 99 ∧ d ≤ 99 := by
  constructor
  · rintro ⟨hy, hm', hd'⟩
    omega
  · rintro ⟨hy0, hy, hm', hd'⟩
    have hhigh : v / 10000 = y := by omega
    have hmid : v / 100 = y * 100 + m := by omega
    rw [hhigh, hmid]
    omega

theorem date_unpacks_of_neg {y m d v : ℤ} (hv : v = y * 10000 + m * 100 + d) (hneg : v < 0) :
    (-(-v / 10000 % 10000) = y ∧ -(-v / 100 % 100) % 256 = m ∧ -(-v % 100) % 256 = d) ↔
    -9999 ≤ y ∧ y < 0 ∧ m = 0 ∧ d = 0 := by
  constructor
  · rintro ⟨hy, hm, hd⟩
    have hd0 : d = 0 := low_digits_of_neg (q := y * 100 + m) (by omega) hd
    have hm0 : m = 0 := low_digits_of_neg (q := y) (by omega) hm
    clear hm hd
    have hhigh : -v / 10000 = -y := by omega
    rw [hhigh] at hy
    omega
  · rintro ⟨hy0, hy, rfl, rfl⟩
    have hhigh : -v / 10000 = -y := by omega
    have hmid : -v / 100 = -y * 100 := by omega
    rw [hhigh, hmid]
    omega

theorem date_unpacks_iff {y m d : ℤ} (hm : 0 ≤ m) (hd : 0 ≤ d) {v : ℤ}
    (hv : v = y * 10000 + m * 100 + d) :
    ((v.tdiv 10000).tmod 10000 = y ∧ (v.tdiv 100).tmod 100 % 256 = m ∧ v.tmod 100 % 256 = d) ↔
    (0 ≤ y ∧ y ≤ 9999 ∧ m ≤ 99 ∧ d ≤ 99 ∨ -9999 ≤ y ∧ y < 0 ∧ m = 0 ∧ d = 0) := by
  rcases Int.lt_or_le v 0 with hneg | hpos
  · have hquot (n : ℤ) (hn : 0 < n) : (v.tdiv n).tmod n = -(-v / n % n) := by
      have hnonneg : 0 ≤ -v / n := Int.ediv_nonneg (by omega) (by omega)
      rw [(tdiv_tmod_of_neg hneg n).1, Int.neg_tmod, Int.tmod_eq_emod_of_nonneg hnonneg]
    rw [hquot 10000 (by omega), hquot 100 (by omega), (tdiv_tmod_of_neg hneg 100).2,
      date_unpacks_of_neg hv hneg]
    omega
  · rw [Int.tdiv_eq_ediv_of_nonneg hpos, Int.tdiv_eq_ediv_of_nonneg hpos,
      Int.tmod_eq_emod_of_nonneg (by omega), Int.tmod_eq_emod_of_nonneg (by omega),
      Int.tmod_eq_emod_of_nonneg hpos, date_unpacks_of_nonneg hm hd hv]
    omega

theorem Int16.ofInt_eq_iff {x : ℤ} {y : Int16} (h : -9999 ≤ x ∧ x ≤ 9999) :
    Int16.ofInt x = y ↔ x = y.toInt := by
  rw [← Int16.toInt_inj, Int16.toInt_ofInt_of_le (by omega) (by omega)]

theorem tmod_bounds (v : ℤ) : -9999 ≤ v.tmod 10000 ∧ v.tmod 10000 ≤ 9999 := by
  have hlt := Int.tmod_lt_of_pos v (b := 10000) (by omega)
  have hgt := Int.lt_tmod_of_pos v (b := 10000) (by omega)
  omega

namespace PowerScheduleData

theorem rereadDate_eq_iff (sdata : PowerScheduleData) :
    (sdata.reread.year = sdata.year ∧ sdata.reread.month = sdata.month ∧
      sdata.reread.day = sdata.day) ↔ sdata.DateFits := by
  rw [reread, Int16.ofInt_eq_iff (tmod_bounds _), UInt8.ofInt_eq_iff, UInt8.ofInt_eq_iff,
    date_unpacks_iff (v := sdata.packedDate) (by omega) (by omega) rfl, DateFits,
    ← UInt8.toNat_inj, ← UInt8.toNat_inj, UInt8.toNat_zero]
  omega

theorem rereadTime_eq_iff (sdata : PowerScheduleData) :
    (sdata.reread.hour = sdata.hour ∧ sdata.reread.minute = sdata.minute) ↔
    sdata.hour.toNat ≤ 99 ∧ sdata.minute.toNat ≤ 99 := by
  have hpos : 0 ≤ sdata.packedTime := by
    rw [packedTime]
    omega
  rw [reread, UInt8.ofInt_eq_iff, UInt8.ofInt_eq_iff, Int.tdiv_eq_ediv_of_nonneg hpos,
    Int.tmod_eq_emod_of_nonneg (by omega), Int.tmod_eq_emod_of_nonneg hpos, packedTime]
  omega

theorem reread_eq_iff (sdata : PowerScheduleData) : sdata.reread = sdata ↔ sdata.Fits := by
  rw [Fits, ← rereadDate_eq_iff, ← rereadTime_eq_iff]
  constructor
  · intro h
    exact ⟨(congrArg enabled h).symm, by simp only [h, and_self], by simp only [h, and_self]⟩
  · rintro ⟨henabled, ⟨hyear, hmonth, hday⟩, hhour, hminute⟩
    exact PowerScheduleData.ext henabled.symm rfl rfl hyear hmonth hday hhour hminute rfl

end PowerScheduleData

section Load
variable {fmt : KeyFileFormat}

theorem getInteger_schedule {kf : KeyFile} {item : ScheduleItem} {i : ℕ} {sdata : PowerScheduleData}
    (h : kf.lookup "Schedule" (item.name i) = some (fmt.ofInteger (item.value sdata))) :
    kf.getInteger fmt "Schedule" (item.name i) = item.value sdata :=
  KeyFile.getInteger_of_lookup h

theorem byte_value (b : UInt8) : UInt8.ofInt (Int32.ofNat b.toNat).toInt = b := by
  have hb := b.toNat_lt
  rw [Int32.toInt_ofNat_of_lt (by omega), UInt8.ofInt_toNat]

namespace PowerScheduleData

theorem date_value (sdata : PowerScheduleData) :
    (ScheduleItem.date.value sdata).toInt = sdata.packedDate := by
  have hlow := sdata.year.le_toInt
  have hhigh := sdata.year.toInt_lt
  have hm := sdata.month.toNat_lt
  have hd := sdata.day.toNat_lt
  rw [ScheduleItem.value, packedDate, Int32.toInt_ofInt_of_le (by omega) (by omega)]

theorem time_value (sdata : PowerScheduleData) :
    (ScheduleItem.time.value sdata).toInt = sdata.packedTime := by
  have hh := sdata.hour.toNat_lt
  have hm := sdata.minute.toNat_lt
  rw [ScheduleItem.value, packedTime, Int32.toInt_ofNat_of_lt (by omega)]
  omega

theorem action_value (sdata : PowerScheduleData) :
    decide ((ScheduleItem.action.value sdata).toInt ≠ 0) = sdata.action := by
  cases h : sdata.action <;> simp [ScheduleItem.value, h]

theorem enableBits_value (sdata : PowerScheduleData) :
    UInt8.ofInt (ScheduleItem.enableBits.value sdata).toInt = sdata.enableBits :=
  byte_value _

theorem dowBits_value (sdata : PowerScheduleData) :
    UInt8.ofInt (ScheduleItem.dowBits.value sdata).toInt = sdata.dowBits :=
  byte_value _

end PowerScheduleData

/-- Where the items of an entry are in the file, the load loop rereads it. -/
theorem loadEntry_of_lookup {kf : KeyFile} {i : ℕ} {sdata : PowerScheduleData}
    (h : ∀ item : ScheduleItem,
      kf.lookup "Schedule" (item.name i) = some (fmt.ofInteger (item.value sdata))) :
    loadEntry fmt kf i = sdata.reread := by
  simp only [loadEntry, getInteger_schedule (h _), PowerScheduleData.date_value,
    PowerScheduleData.time_value, PowerScheduleData.action_value,
    PowerScheduleData.enableBits_value, PowerScheduleData.dowBits_value]
  rfl

/-- The load loop reads as many entries as there are, whatever fuel is left. -/
theorem loadSchedule_of_lookup {kf : KeyFile} {schedule : List PowerScheduleData} {fuel i : ℕ}
    (hfuel : schedule.length < fuel)
    (hin : ∀ j, (hj : j < schedule.length) → ∀ item : ScheduleItem,
      kf.lookup "Schedule" (item.name (i + j)) = some (fmt.ofInteger (item.value schedule[j])))
    (hend : kf.lookup "Schedule" (ScheduleItem.enableBits.name (i + schedule.length)) = none) :
    loadSchedule fmt kf fuel i = schedule.map PowerScheduleData.reread := by
  induction schedule generalizing i fuel with
  | nil =>
    obtain ⟨fuel, rfl⟩ : ∃ n, fuel = n + 1 := ⟨fuel - 1, by simp at hfuel; omega⟩
    rw [loadSchedule, if_neg (by simpa [KeyFile.hasKey] using hend)]
    rfl
  | cons sdata rest ih =>
    simp only [List.length_cons] at hfuel hend
    obtain ⟨fuel, rfl⟩ : ∃ n, fuel = n + 1 := ⟨fuel - 1, by omega⟩
    have hfirst := hin 0 (by simp)
    simp only [Nat.add_zero, List.getElem_cons_zero] at hfirst
    rw [loadSchedule, if_pos (by simp [KeyFile.hasKey, hfirst]), loadEntry_of_lookup hfirst,
      List.map_cons, ih (by omega)]
    · intro j hj item
      have hnext := hin (j + 1) (by simpa using hj) item
      rwa [List.getElem_cons_succ, ← Nat.add_assoc, Nat.add_right_comm] at hnext
    · rwa [Nat.add_right_comm, Nat.add_assoc] 

theorem lookup_userConfigKeyFile_schedule (config : UserConfigData) (item : ScheduleItem) (j : ℕ) :
    (userConfigKeyFile fmt config).lookup "Schedule" (item.name j) =
      ((config.powerScheduleData.getD [])[j]?).map fun sdata => fmt.ofInteger (item.value sdata) := by
  have hschedule := @lookup_saveSchedule fmt 0 (config.powerScheduleData.getD []) .empty item j
  by_cases hj : j < (config.powerScheduleData.getD []).length
  · simpa [userConfigKeyFile, KeyFile.setInteger, KeyFile.lookup_set, lookup_saveString, hj]
      using hschedule
  · simpa [userConfigKeyFile, KeyFile.setInteger, KeyFile.lookup_set, lookup_saveString, hj,
      KeyFile.lookup_empty, List.getElem?_eq_none (Nat.le_of_not_lt hj)] using hschedule

theorem length_le_userConfigKeyFile (config : UserConfigData) :
    (config.powerScheduleData.getD []).length ≤ (userConfigKeyFile fmt config).entries.length := by
  have hnodup : ((List.range (config.powerScheduleData.getD []).length).map
      ScheduleItem.enableBits.name).Nodup :=
    List.nodup_range.map fun _ _ h => (ScheduleItem.name_inj.mp h).2
  have hkeys : ∀ key ∈ (List.range (config.powerScheduleData.getD []).length).map
      ScheduleItem.enableBits.name, (userConfigKeyFile fmt config).hasKey "Schedule" key = true := by
    intro key hkey
    obtain ⟨j, hj, rfl⟩ := List.mem_map.mp hkey
    rw [KeyFile.hasKey, lookup_userConfigKeyFile_schedule,
      List.getElem?_eq_getElem (List.mem_range.mp hj)]
    rfl
  simpa using KeyFile.length_le_of_hasKey hnodup hkeys

theorem loadSchedule_userConfigKeyFile (config : UserConfigData) :
    loadSchedule fmt (userConfigKeyFile fmt config)
        ((userConfigKeyFile fmt config).entries.length + 1) 0 =
      (config.powerScheduleData.getD []).map PowerScheduleData.reread := by
  refine loadSchedule_of_lookup (Nat.lt_succ_of_le (length_le_userConfigKeyFile config)) ?_ ?_
  · intro j hj item
    rw [Nat.zero_add, lookup_userConfigKeyFile_schedule, List.getElem?_eq_getElem hj]
    rfl
  · rw [Nat.zero_add, lookup_userConfigKeyFile_schedule, List.getElem?_eq_none (Nat.le_refl _)]
    rfl

theorem loadString_of_lookup {kf : KeyFile} {key : String} {s : Option String}
    (h : kf.lookup "Modem" key = s.map fmt.ofString) :
    loadString fmt kf key = s.filter (· ≠ "") := by
  rw [loadString, KeyFile.getString_of_lookup h]

theorem getInteger_flag {kf : KeyFile} {group key : String} {b : Bool}
    (h : kf.lookup group key = some (fmt.ofInteger (if b then 1 else 0))) :
    decide (kf.getInteger fmt group key ≠ 0) = b := by
  rw [KeyFile.getInteger_of_lookup h]
  cases b <;> rfl

/-- A saved file read back: the entries of the schedule are reread, empty strings become
none, a short fail timeout is set to its default, and the rest is as it was. -/
theorem userConfigDataLoad_userConfigKeyFile (config : UserConfigData) :
    userConfigDataLoad fmt (userConfigKeyFile fmt config) =
      { config with
        valid := true
        dirty := false
        powerScheduleData :=
          some ((config.powerScheduleData.getD []).map PowerScheduleData.reread)
        modemDialApn := config.modemDialApn.filter (· ≠ "")
        modemDialUser := config.modemDialUser.filter (· ≠ "")
        modemDialPassword := config.modemDialPassword.filter (· ≠ "")
        modemDialAuth := config.modemDialAuth.filter (· ≠ "")
        modem5gFailTimeout :=
          if config.modem5gFailTimeout < 60 then 600 else config.modem5gFailTimeout } := by
  have hgroup := @lookup_saveSchedule_group fmt "Modem" (by decide) 0
    (config.powerScheduleData.getD []) .empty
  have hauto : (userConfigKeyFile fmt config).lookup "General" "ChargerOnAutoStart" =
      some (fmt.ofInteger (if config.chargerOnAutoStart then 1 else 0)) := by
    simp [userConfigKeyFile, KeyFile.setInteger, KeyFile.lookup_set, lookup_saveString]
  have htimeout : (userConfigKeyFile fmt config).lookup "General" "ChargerOnAutoStartTimeout" =
      some (fmt.ofInteger config.chargerOnAutoStartTimeout.toInt32) := by
    simp [userConfigKeyFile, KeyFile.setInteger, KeyFile.lookup_set, lookup_saveString]
  have hipv6 : (userConfigKeyFile fmt config).lookup "Modem" "DisableIPv6" =
      some (fmt.ofInteger (if config.modemDisableIpv6 then 1 else 0)) := by
    simp [userConfigKeyFile, KeyFile.setInteger, KeyFile.lookup_set]
  have hreset : (userConfigKeyFile fmt config).lookup "Modem" "Disable5GFailAutoReset" =
      some (fmt.ofInteger (if config.modemDisable5gFailAutoReset then 1 else 0)) := by
    simp [userConfigKeyFile, KeyFile.setInteger, KeyFile.lookup_set]
  have hfail : (userConfigKeyFile fmt config).lookup "Modem" "Connection5GFailTimeout" =
      some (fmt.ofInteger config.modem5gFailTimeout.toInt32) := by
    simp [userConfigKeyFile, KeyFile.setInteger, KeyFile.lookup_set]
  have hstring (key : String) (s : Option String)
      (h : (key, s) ∈ [("APN", config.modemDialApn), ("User", config.modemDialUser),
        ("Password", config.modemDialPassword), ("Auth", config.modemDialAuth)]) :
      (userConfigKeyFile fmt config).lookup "Modem" key = s.map fmt.ofString := by
    have hsaved (s : Option String) :
        (if s.isSome = true then s.map fmt.ofString else none) = s.map fmt.ofString := by
      cases s <;> rfl
    simp only [List.mem_cons, Prod.mk.injEq, List.not_mem_nil, or_false] at h
    rcases h with ⟨rfl, rfl⟩ | ⟨rfl, rfl⟩ | ⟨rfl, rfl⟩ | ⟨rfl, rfl⟩ <;>
      simp only [userConfigKeyFile, KeyFile.setInteger, KeyFile.lookup_set, lookup_saveString,
        hgroup, KeyFile.lookup_empty, String.reduceEq, and_false, false_and, true_and,
        if_false, hsaved]
  simp only [userConfigDataLoad, loadSchedule_userConfigKeyFile, getInteger_flag hauto,
    getInteger_flag hipv6, getInteger_flag hreset, KeyFile.getInteger_of_lookup htimeout,
    KeyFile.getInteger_of_lookup hfail, loadString_of_lookup (hstring "APN" config.modemDialApn (by simp)),
    loadString_of_lookup (hstring "User" config.modemDialUser (by simp)),
    loadString_of_lookup (hstring "Password" config.modemDialPassword (by simp)),
    loadString_of_lookup (hstring "Auth" config.modemDialAuth (by simp)), UInt32.toUInt32_toInt32]

end Load

end PcatManager
