import PcatManager.BatteryCharge

/-!
# The battery tables of the configuration

The three integer lists of the configuration file become tables of unsigned values; a table
that does not go down is replaced by the built-in one. Whatever the lists are, the manager
interpolates in tables that do.
-/

namespace PcatManager
open SerialFrame SerialReadParser GuardedRun

/-- What `pcat_main_config_data_load` makes of an integer list: nothing of one that is
absent or too short. -/
def loadBatteryTable (ivlist : Option (List Int32)) : BatteryTable :=
  match ivlist with
  | some values =>
    if 11 ≤ values.length then Vector.ofFn fun i : Fin 11 => (values.getD i 0).toUInt32
    else Vector.replicate 11 0
  | none => Vector.replicate 11 0

/-- The battery tables in `pcat_main_config_data_load`. `getIntegerList group key` is the
integer list of the configuration file, if there is one there. -/
def MainConfigData.loadBatteryTables (config : MainConfigData)
    (getIntegerList : String → String → Option (List Int32)) : MainConfigData :=
  { config with
    pmBatteryDischargeTableNormal :=
      loadBatteryTable (getIntegerList "PowerManager" "BatteryDischargeTableNormal")
    pmBatteryDischargeTable5g :=
      loadBatteryTable (getIntegerList "PowerManager" "BatteryDischargeTable5G")
    pmBatteryChargeTable := loadBatteryTable (getIntegerList "PowerManager" "BatteryChargeTable") }

/-- The tables the manager works with. -/
def PmuManagerData.batteryTables (pmu : PmuManagerData) : List BatteryTable :=
  [pmu.batteryDischargeTableNormal, pmu.batteryDischargeTable5g, pmu.batteryChargeTable]

theorem PmuManagerData.tableFor_mem (pmu : PmuManagerData) (r : StatusReport) :
    pmu.tableFor r ∈ pmu.batteryTables := by
  rw [PmuManagerData.tableFor, PmuManagerData.batteryTables]
  split_ifs <;> simp

theorem PmuManagerData.exists_tableFor {pmu : PmuManagerData} {table : BatteryTable}
    (h : table ∈ pmu.batteryTables) : ∃ r, pmu.tableFor r = table := by
  simp only [PmuManagerData.batteryTables, List.mem_cons, List.not_mem_nil, or_false] at h
  obtain rfl | rfl | rfl := h
  · exact ⟨⟨0, 0, .none⟩, rfl⟩
  · exact ⟨⟨0, 0, .fiveG⟩, rfl⟩
  · exact ⟨⟨0, 4200, .none⟩, rfl⟩

namespace World

/-- The interpolation in a table that goes down: it divides by the positive width of the
segment it stops at, stops at one for every voltage within the table, and gives percentages
that rise with the voltage and fall by ten from entry to entry. -/
structure Interpolates (table : BatteryTable) : Prop where
  falling : ∀ k k' : Fin 11, k < k' → table.get k' < table.get k
  divisor : ∀ voltage, ∀ i ∈ batterySegment table voltage,
    0 < (table.get i.castSucc - table.get i.succ).toNat
  range : ∀ voltage, 0 ≤ batteryPercentage table voltage ∧ batteryPercentage table voltage ≤ 100
  mono : ∀ voltage voltage', voltage ≤ voltage' →
    batteryPercentage table voltage ≤ batteryPercentage table voltage'
  knot : ∀ k : Fin 11, batteryPercentage table (table.get k) = 100 - 10 * (k : ℕ)
  found : ∀ voltage, table.get (Fin.last 10) < voltage → voltage ≤ table.get 0 →
    (batterySegment table voltage).isSome

theorem interpolates_of_tableValid {table : BatteryTable} (h : tableValid table = true) :
    Interpolates table where
  falling k k' hk := by
    have hlt := strictAnti_knots h hk
    rw [knots, knots, Nat.cast_lt] at hlt
    exact UInt32.lt_iff_toNat_lt.mpr hlt
  divisor _ i _ := (toNat_width h i).2
  range := batteryPercentage_range h
  mono voltage voltage' hle := by
    rw [batteryPercentage_eq h, batteryPercentage_eq h]
    refine PiecewiseLinear.interpolate_mono (strictAnti_knots h)
      strictAnti_knotPercentages.antitone ?_
    exact_mod_cast UInt32.le_iff_toNat_le.mp hle
  knot k := by
    rw [batteryPercentage_eq h]
    exact PiecewiseLinear.interpolate_knot (strictAnti_knots h) k
  found voltage hbottom htop := by
    rw [batterySegment_eq]
    refine PiecewiseLinear.isSome_segment (knots_lt_iff.mpr hbottom) (not_lt.mp ?_)
    rw [knots_lt_iff, UInt32.not_lt]
    exact htop

/-- Whatever the configuration file has for the battery tables, after any run that has opened
the port, and any frames after it, the manager interpolates in three tables that go down;
and every status report is read with one of them. -/
theorem battery_interpolation (getIntegerList : String → String → Option (List Int32)) (w : World)
    (events : List Event) (frames : List Frame) :
    let w₀ := { w with mainConfig := w.mainConfig.loadBatteryTables getIntegerList }
    let s := run step w₀.start events
    let s' := run dispatchFrame s frames
    s.pmu.serialChannel = true →
      (∀ table ∈ s'.pmu.batteryTables, Interpolates table) ∧
        ∀ f r, reportOf s'.modemDeviceType f = some r →
          s'.pmu.tableFor r ∈ s'.pmu.batteryTables ∧
            ((s'.dispatchFrame f).pmu.lastBatteryPercentage,
              (s'.dispatchFrame f).pmu.lastBatteryPercentageCap) = s'.pmu.reported r := by
  intro w₀ s s' hopen
  have hcharged : s'.Charged _ :=
    ((chargeInvariant_run w₀.start events (chargeInvariant_start w₀)).opened hopen).2.frames frames
  refine ⟨fun table htable => ?_, fun f r hr => ⟨s'.pmu.tableFor_mem r, ?_⟩⟩
  · obtain ⟨r, rfl⟩ := PmuManagerData.exists_tableFor htable
    exact interpolates_of_tableValid (hcharged.tables r)
  · exact congrArg Prod.fst (chargePart_dispatchFrame_of_some hr)

/-- A configuration without the first table, with a short second one and a valid third one. -/
def configuredLists (_ key : String) : Option (List Int32) :=
  if key = "BatteryDischargeTable5G" then some [4200, 3600]
  else if key = "BatteryChargeTable" then
    some [-1, 4150, 4100, 4050, 4000, 3950, 3900, 3850, 3800, 3750, 3700]
  else none

theorem battery_interpolation_configured :
    let s := run step
      { plain with mainConfig := plain.mainConfig.loadBatteryTables configuredLists }.start
      [.init true]
    s.pmu.batteryChargeTable.get 0 = 4294967295 ∧
      ∀ table ∈ s.pmu.batteryTables, Interpolates table :=
  ⟨by decide +kernel,
    (battery_interpolation configuredLists plain [.init true] [] (by decide +kernel)).1⟩

end World
end PcatManager
