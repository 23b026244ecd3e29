import PcatManager.PiecewiseLinear
import PcatManager.PmuManagerFrame
import PcatManager.RunningMinimum
import Mathlib.Algebra.Order.Floor.Ring
import Mathlib.Data.Rat.Floor

/-!
# The reported charge

The percentage of a status report, the cap that keeps it from rising on battery, and what
the manager reports after any run.
-/

namespace PcatManager
open SerialFrame SerialReadParser GuardedRun RunningMinimum

namespace World

theorem tableValid_iff {table : BatteryTable} :
    tableValid table = true ↔ ∀ i : Fin 10, table.get i.succ < table.get i.castSucc := by
  rw [tableValid, List.all_eq_true]
  simp

/-- The entries of a table as knots. -/
def knots (table : BatteryTable) (k : Fin 11) : ℚ := (table.get k).toNat

/-- The percentages of the entries. -/
def knotPercentages (k : Fin 11) : ℚ := 100 - 10 * (k : ℕ)

theorem knots_lt_iff {table : BatteryTable} {k : Fin 11} {voltage : UInt32} :
    knots table k < voltage.toNat ↔ table.get k < voltage := by
  rw [knots, Nat.cast_lt, UInt32.lt_iff_toNat_lt]

theorem strictAnti_knots {table : BatteryTable} (h : tableValid table = true) :
    StrictAnti (knots table) := by
  refine Fin.strictAnti_iff_succ_lt.mpr fun i => ?_
  rw [knots, knots, Nat.cast_lt]
  exact UInt32.lt_iff_toNat_lt.mp (tableValid_iff.mp h i)

theorem strictAnti_knotPercentages : StrictAnti knotPercentages := by
  intro k k' h
  have hcast : ((k : ℕ) : ℚ) < (k' : ℕ) := by exact_mod_cast h
  rw [knotPercentages, knotPercentages]
  linarith

/-- The segment the scan of a battery table stops at. -/
def batterySegment (table : BatteryTable) (voltage : UInt32) : Option (Fin 10) :=
  (List.finRange 10).find? fun i => table.get i.succ ≤ voltage

theorem batterySegment_eq (table : BatteryTable) (voltage : UInt32) :
    batterySegment table voltage = PiecewiseLinear.segment (knots table) (voltage.toNat : ℚ) := by
  rw [batterySegment, PiecewiseLinear.segment]
  congr 1
  funext i
  rw [knots, decide_eq_decide, Nat.cast_le, UInt32.le_iff_toNat_le]

theorem toNat_width {table : BatteryTable} (h : tableValid table = true) (i : Fin 10) :
    ((table.get i.castSucc - table.get i.succ).toNat : ℚ) =
      knots table i.castSucc - knots table i.succ ∧
    0 < (table.get i.castSucc - table.get i.succ).toNat := by
  have hlt := UInt32.lt_iff_toNat_lt.mp (tableValid_iff.mp h i)
  rw [UInt32.toNat_sub_of_le _ _ (UInt32.le_iff_toNat_le.mpr hlt.le), Nat.cast_sub hlt.le]
  exact ⟨rfl, Nat.sub_pos_of_lt hlt⟩

/-- In a valid table the scan is the linear interpolation between its entries. -/
theorem batteryPercentage_eq {table : BatteryTable} (h : tableValid table = true)
    (voltage : UInt32) :
    batteryPercentage table voltage =
      PiecewiseLinear.interpolate (knots table) knotPercentages voltage.toNat := by
  have htop : knotPercentages 0 = 100 := by norm_num [knotPercentages]
  have hbottom : knotPercentages (Fin.last 10) = 0 := by norm_num [knotPercentages]
  have hsegment := batterySegment_eq table voltage
  rw [batterySegment] at hsegment
  rw [batteryPercentage, PiecewiseLinear.interpolate, htop, hbottom, hsegment]
  refine if_congr knots_lt_iff.symm rfl (if_congr knots_lt_iff.symm ?_ rfl)
  cases PiecewiseLinear.segment (knots table) (voltage.toNat : ℚ) with
  | none => rfl
  | some i =>
    have hrise : knotPercentages i.castSucc - knotPercentages i.succ = 10 := by
      simp only [knotPercentages, Fin.val_castSucc, Fin.val_succ, Nat.cast_add, Nat.cast_one]
      ring
    have hlow : knotPercentages i.succ = 90 - 10 * (i : ℕ) := by
      simp only [knotPercentages, Fin.val_succ, Nat.cast_add, Nat.cast_one]
      ring
    dsimp only
    rw [PiecewiseLinear.line, hrise, hlow, (toNat_width h i).1]
    rfl

theorem batteryPercentage_range {table : BatteryTable} (h : tableValid table = true)
    (voltage : UInt32) : 0 ≤ batteryPercentage table voltage ∧ batteryPercentage table voltage ≤ 100 := by
  have hmem := PiecewiseLinear.interpolate_mem (strictAnti_knots h)
    strictAnti_knotPercentages.antitone (voltage.toNat : ℚ)
  rw [← batteryPercentage_eq h] at hmem
  have htop : knotPercentages 0 = 100 := by norm_num [knotPercentages]
  have hbottom : knotPercentages (Fin.last 10) = 0 := by norm_num [knotPercentages]
  rwa [htop, hbottom] at hmem

theorem toNat_hundredths {percentage : ℚ} (h : 0 ≤ percentage ∧ percentage ≤ 100) :
    ((hundredths percentage).toNat : ℤ) = ⌊percentage * 100⌋ ∧ ⌊percentage * 100⌋ ≤ 10000 := by
  have hfloor : (percentage * 100).floor = ⌊percentage * 100⌋ := rfl
  have hnonneg : 0 ≤ ⌊percentage * 100⌋ := Int.floor_nonneg.mpr (by linarith)
  have hle : ⌊percentage * 100⌋ ≤ 10000 := by
    have hmono : ⌊percentage * 100⌋ ≤ ⌊(10000 : ℚ)⌋ := Int.floor_mono (by linarith)
    simpa using hmono
  refine ⟨?_, hle⟩
  rw [hundredths, hfloor, UInt32.toNat_ofNat']
  omega

/-- The tables in use and what the battery part of the manager remembers. -/
def chargePart (w : World) :
    (UInt32 × UInt32) × (BatteryTable × BatteryTable × BatteryTable) × Bool × Bool :=
  ((w.pmu.lastBatteryPercentage, w.pmu.lastBatteryPercentageCap),
    (w.pmu.batteryDischargeTableNormal, w.pmu.batteryDischargeTable5g, w.pmu.batteryChargeTable),
    w.pmu.initialized, w.pmu.serialChannel)

theorem keptByTick_chargePart : KeptByTick chargePart where
  link := by
    rintro w w' ⟨l, n, rfl⟩
    rfl
  timestamp _ _ := rfl
  modem _ _ := rfl
  plan _ := rfl

end World

/-- What the battery part reads of a status report, with the modem there was then. -/
structure StatusReport where
  batteryVoltage : UInt32
  chargerVoltage : UInt32
  modemDeviceType : ModemDeviceType
  deriving DecidableEq, Repr

/-- The report a frame carries. -/
def reportOf (modemDeviceType : ModemDeviceType) (f : Frame) : Option StatusReport :=
  if World.forHost f && f.command = commandStatusReport && 16 ≤ f.extraData.length then
    some
      { batteryVoltage := (ofLe16 (f.extraData.getD 0 0) (f.extraData.getD 1 0)).toUInt32
        chargerVoltage := (ofLe16 (f.extraData.getD 2 0) (f.extraData.getD 3 0)).toUInt32
        modemDeviceType := modemDeviceType }
  else none

/-- The report finds no charger. -/
def StatusReport.onBattery (r : StatusReport) : Bool := r.chargerVoltage < 4200

/-- The table a report is read with. -/
def PmuManagerData.tableFor (pmu : PmuManagerData) (r : StatusReport) : BatteryTable :=
  if !r.onBattery then pmu.batteryChargeTable
  else if r.modemDeviceType = .fiveG then pmu.batteryDischargeTable5g
  else pmu.batteryDischargeTableNormal

/-- The percentage of a report in whole hundredths. -/
def PmuManagerData.charge (pmu : PmuManagerData) (r : StatusReport) : ℤ :=
  ⌊World.batteryPercentage (pmu.tableFor r) r.batteryVoltage * 100⌋

/-- What a report makes of the percentage and its cap. -/
def PmuManagerData.reported (pmu : PmuManagerData) (r : StatusReport) : UInt32 × UInt32 :=
  let percentage := World.hundredths (World.batteryPercentage (pmu.tableFor r) r.batteryVoltage)
  if r.onBattery then
    if percentage < pmu.lastBatteryPercentageCap then (percentage, percentage)
    else (pmu.lastBatteryPercentageCap, pmu.lastBatteryPercentageCap)
  else (percentage, 10000)

namespace World

theorem chargePart_statusBattery (w : World) (r : StatusReport) (boardTemp : ℤ)
    (hmodem : r.modemDeviceType = w.modemDeviceType) :
    (w.statusBattery r.batteryVoltage r.chargerVoltage boardTemp).chargePart =
      (w.pmu.reported r, w.chargePart.2) := by
  rw [PmuManagerData.reported, PmuManagerData.tableFor, hmodem, StatusReport.onBattery]
  by_cases hbattery : r.chargerVoltage < 4200
  · by_cases hfive : w.modemDeviceType = .fiveG
    · simp only [statusBattery, chargePart, hbattery, hfive, decide_true, Bool.not_true,
        Bool.false_eq_true, if_false, if_true]
      split <;> rfl
    · simp only [statusBattery, chargePart, hbattery, hfive, decide_true, Bool.not_true,
        Bool.false_eq_true, if_false, if_true]
      split <;> rfl
  · simp only [statusBattery, chargePart, hbattery, decide_false, Bool.not_false,
      Bool.false_eq_true, if_false, if_true]

theorem chargePart_statusDataParse (w : World) {data : List UInt8} (hlen : 16 ≤ data.length)
    {r : StatusReport} (hvoltage : r.batteryVoltage = (ofLe16 (data.getD 0 0) (data.getD 1 0)).toUInt32)
    (hcharger : r.chargerVoltage = (ofLe16 (data.getD 2 0) (data.getD 3 0)).toUInt32)
    (hmodem : r.modemDeviceType = w.modemDeviceType) :
    (w.statusDataParse data).chargePart = (w.pmu.reported r, w.chargePart.2) := by
  rw [statusDataParse, if_neg (Nat.not_lt.mpr hlen)]
  dsimp only
  rw [← hvoltage, ← hcharger]
  generalize unixTimeOfUtc _ _ _ _ _ _ = pmuTime
  obtain ⟨-, l, n, hclock⟩ | ⟨-, realTime, hclock⟩ := statusClock_cases w pmuTime
  · rw [hclock]
    exact chargePart_statusBattery _ r _ hmodem
  · rw [hclock]
    exact chargePart_statusBattery _ r _ hmodem

theorem chargePart_dispatchFrame_of_none {w : World} {f : Frame}
    (h : reportOf w.modemDeviceType f = none) : (w.dispatchFrame f).chargePart = w.chargePart := by
  refine keptByTick_chargePart.dispatchFrame fun hhost l w' heffect => ?_
  cases heffect with
  | status hcommand hlen => simp [reportOf, hhost, hcommand, hlen] at h
  | nothing => rfl
  | askShutdown => rfl
  | shutdownAck => rfl
  | watchdogAck => rfl
  | factoryReset => rfl
  | fwVersion => rfl
  | powerOnEvent => rfl

/-- A frame that carries a report changes the battery part as the report says. -/
theorem chargePart_dispatchFrame_of_some {w : World} {f : Frame} {r : StatusReport}
    (h : reportOf w.modemDeviceType f = some r) :
    (w.dispatchFrame f).chargePart = (w.pmu.reported r, w.chargePart.2) := by
  rw [reportOf] at h
  split at h
  · rename_i hreport
    simp only [Bool.and_eq_true, decide_eq_true_eq] at hreport
    obtain ⟨⟨hreported, hcommand⟩, hlen⟩ := hreport
    cases h
    obtain ⟨hhost, -⟩ | ⟨-, l, w', heffect, hsame⟩ := w.dispatchFrame_cases f
    · exact absurd (hreported.symm.trans hhost) (by decide)
    · rw [keptByTick_chargePart.link hsame]
      cases heffect with
      | status _ _ => exact chargePart_statusDataParse (w.setLink l) hlen rfl rfl rfl
      | nothing hstatus => exact absurd (hstatus hcommand) (Nat.not_lt.mpr hlen)
      | askShutdown hother => exact absurd (hcommand.symm.trans hother) (by decide)
      | shutdownAck hother => exact absurd (hcommand.symm.trans hother) (by decide)
      | watchdogAck hother => exact absurd (hcommand.symm.trans hother) (by decide)
      | factoryReset hother => exact absurd (hcommand.symm.trans hother) (by decide)
      | fwVersion hother => exact absurd (hcommand.symm.trans hother) (by decide)
      | powerOnEvent hother => exact absurd (hcommand.symm.trans hother) (by decide)
  · cases h

theorem keptByTick_modemDeviceType : KeptByTick World.modemDeviceType where
  link := by
    rintro w w' ⟨l, n, rfl⟩
    rfl
  timestamp _ _ := rfl
  modem _ _ := rfl
  plan _ := rfl

theorem modemDeviceType_dispatchFrame (w : World) (f : Frame) :
    (w.dispatchFrame f).modemDeviceType = w.modemDeviceType := by
  refine keptByTick_modemDeviceType.dispatchFrame fun _ l w' heffect => ?_
  cases heffect with
  | status hcommand hlen =>
    exact keptByTick_modemDeviceType.statusDataParse (fun _ _ => rfl) (fun _ _ _ _ => rfl) _ _
  | nothing => rfl
  | askShutdown => rfl
  | shutdownAck => rfl
  | watchdogAck => rfl
  | factoryReset => rfl
  | fwVersion => rfl
  | powerOnEvent => rfl

theorem tableFor_congr {w w' : World} (h : w'.chargePart.2 = w.chargePart.2) :
    w'.pmu.tableFor = w.pmu.tableFor := by
  simp only [chargePart, Prod.mk.injEq] at h
  funext r
  simp only [PmuManagerData.tableFor, h]

theorem charge_congr {w w' : World} (h : w'.chargePart.2 = w.chargePart.2) :
    w'.pmu.charge = w.pmu.charge := by
  funext r
  rw [PmuManagerData.charge, PmuManagerData.charge, tableFor_congr h]

/-- The battery part after some reports since the start of the manager. -/
structure Charged (w : World) (reports : List StatusReport) : Prop where
  tables : ∀ r, tableValid (w.pmu.tableFor r) = true
  cap : (w.pmu.lastBatteryPercentageCap.toNat : ℤ) =
    runningMin 10000 StatusReport.onBattery w.pmu.charge reports
  last : ∀ r ∈ reports.getLast?, (w.pmu.lastBatteryPercentage.toNat : ℤ) =
    if r.onBattery then (w.pmu.lastBatteryPercentageCap.toNat : ℤ) else w.pmu.charge r
  last_le : (w.pmu.lastBatteryPercentage.toNat : ℤ) ≤ 10000

theorem Charged.congr {w w' : World} {reports : List StatusReport} (h : w.Charged reports)
    (hpart : w'.chargePart = w.chargePart) : w'.Charged reports := by
  have htables := congrArg Prod.snd hpart
  have hremembered := congrArg Prod.fst hpart
  simp only [chargePart, Prod.mk.injEq] at hremembered
  constructor
  · rw [tableFor_congr htables]
    exact h.tables
  · rw [hremembered.2, charge_congr htables]
    exact h.cap
  · rw [hremembered.1, hremembered.2, charge_congr htables]
    exact h.last
  · rw [hremembered.1]
    exact h.last_le

/-- What a report makes of the percentage and its cap, in numbers. -/
theorem Charged.reported {w : World} {reports : List StatusReport} (h : w.Charged reports)
    (r : StatusReport) :
    ((w.pmu.reported r).2.toNat : ℤ) =
        runningMin 10000 StatusReport.onBattery w.pmu.charge (reports ++ [r]) ∧
      ((w.pmu.reported r).1.toNat : ℤ) =
        (if r.onBattery then ((w.pmu.reported r).2.toNat : ℤ) else w.pmu.charge r) ∧
      ((w.pmu.reported r).1.toNat : ℤ) ≤ 10000 := by
  obtain ⟨hpercentage, hle⟩ :=
    toNat_hundredths (batteryPercentage_range (h.tables r) r.batteryVoltage)
  have htop : runningMin 10000 StatusReport.onBattery w.pmu.charge reports ≤ 10000 :=
    runningMin_le_top 10000 _ reports
  have hcap := h.cap
  generalize hvalue : hundredths (batteryPercentage (w.pmu.tableFor r) r.batteryVoltage) = value
  rw [hvalue] at hpercentage
  have hcharge : w.pmu.charge r = value.toNat := hpercentage.symm
  rw [PmuManagerData.reported, hvalue, hcharge]
  cases hbattery : r.onBattery with
  | true =>
    rw [if_pos rfl, if_pos rfl, runningMin_append_of_counts _ _ _ hbattery, ← hcap, hcharge]
    by_cases hlt : value < w.pmu.lastBatteryPercentageCap
    · have hmin : (value.toNat : ℤ) ≤ w.pmu.lastBatteryPercentageCap.toNat := by
        exact_mod_cast (UInt32.lt_iff_toNat_lt.mp hlt).le
      rw [if_pos hlt, min_eq_right hmin]
      exact ⟨rfl, rfl, hpercentage.le.trans hle⟩
    · have hmin : (w.pmu.lastBatteryPercentageCap.toNat : ℤ) ≤ value.toNat := by
        exact_mod_cast Nat.not_lt.mp (mt UInt32.lt_iff_toNat_lt.mpr hlt)
      rw [if_neg hlt, min_eq_left hmin]
      exact ⟨rfl, rfl, hcap.le.trans htop⟩
  | false =>
    rw [if_neg Bool.false_ne_true, if_neg Bool.false_ne_true,
      runningMin_append_of_not_counts _ _ _ hbattery]
    exact ⟨rfl, rfl, hpercentage.le.trans hle⟩

theorem Charged.report {w : World} {reports : List StatusReport} (h : w.Charged reports)
    {f : Frame} {r : StatusReport} (hr : reportOf w.modemDeviceType f = some r) :
    (w.dispatchFrame f).Charged (reports ++ [r]) := by
  have hpart := chargePart_dispatchFrame_of_some hr
  have htables : (w.dispatchFrame f).chargePart.2 = w.chargePart.2 := by rw [hpart]
  have hremembered := congrArg Prod.fst hpart
  simp only [chargePart, Prod.ext_iff] at hremembered
  obtain ⟨hcap, hlast, hle⟩ := h.reported r
  constructor
  · rw [tableFor_congr htables]
    exact h.tables
  · rw [hremembered.2, charge_congr htables]
    exact hcap
  · intro r' hr'
    rw [List.getLast?_concat, Option.mem_some_iff] at hr'
    subst hr'
    rw [hremembered.1, hremembered.2, charge_congr htables]
    exact hlast
  · rw [hremembered.1]
    exact hle

theorem Charged.frames {w : World} {reports : List StatusReport} (h : w.Charged reports)
    (frames : List Frame) : (run dispatchFrame w frames).Charged
      (reports ++ frames.filterMap (reportOf w.modemDeviceType)) := by
  induction frames generalizing w reports with
  | nil => rwa [run_nil, List.filterMap_nil, List.append_nil]
  | cons f frames ih =>
    rw [run_cons, ← modemDeviceType_dispatchFrame w f]
    cases hr : reportOf w.modemDeviceType f with
    | none =>
      rw [List.filterMap_cons_none (by rw [modemDeviceType_dispatchFrame, hr])]
      exact ih (h.congr (chargePart_dispatchFrame_of_none hr))
    | some r =>
      have hlater := ih (h.report hr)
      rw [List.append_assoc] at hlater
      rwa [List.filterMap_cons_some (by rw [modemDeviceType_dispatchFrame, hr])]

theorem chargePart_frames (w : World) (frames : List Frame) :
    (run dispatchFrame w frames).chargePart.2 = w.chargePart.2 := by
  induction frames generalizing w with
  | nil => rfl
  | cons f frames ih =>
    rw [run_cons, ih]
    cases hr : reportOf w.modemDeviceType f with
    | none => rw [chargePart_dispatchFrame_of_none hr]
    | some r => rw [chargePart_dispatchFrame_of_some hr]

/-- The status reports one event brings. -/
def eventReports (w : World) : Event → List StatusReport
  | .read r =>
    if w.pmu.serialChannel then (w.framesRead r).filterMap (reportOf w.modemDeviceType) else []
  | _ => []

/-- The status reports of a run, in their order. -/
def reportsOf (w : World) : List Event → List StatusReport
  | [] => []
  | e :: events => w.eventReports e ++ reportsOf (w.step e) events

/-- Before the port is open there are no reports; then the manager is initialised and the
battery part is what the reports make it. -/
structure ChargeInvariant (w : World) (reports : List StatusReport) : Prop where
  opened : w.pmu.serialChannel = true → w.pmu.initialized = true ∧ w.Charged reports
  closed : w.pmu.serialChannel = false → reports = [] ∧ w.pmu.lastBatteryPercentage = 0

theorem ChargeInvariant.congr {w w' : World} {reports : List StatusReport}
    (h : w.ChargeInvariant reports) (hpart : w'.chargePart = w.chargePart) :
    w'.ChargeInvariant reports := by
  have hfields := hpart
  simp only [chargePart, Prod.mk.injEq] at hfields
  obtain ⟨⟨hlast, -⟩, -, hinitialized, hchannel⟩ := hfields
  constructor
  · rw [hchannel, hinitialized]
    exact fun hopen => ⟨(h.opened hopen).1, (h.opened hopen).2.congr hpart⟩
  · rw [hchannel, hlast]
    exact h.closed

theorem tableValid_setBatteryTables (w : World) (r : StatusReport) :
    tableValid (w.setBatteryTables.pmu.tableFor r) = true := by
  have hchoose (configured builtin : BatteryTable) (h : tableValid builtin = true) :
      tableValid (if tableValid configured then configured else builtin) = true := by
    split
    · assumption
    · exact h
  rw [PmuManagerData.tableFor, setBatteryTables]
  dsimp only
  split
  · exact hchoose _ _ (by decide)
  · split
    · exact hchoose _ _ (by decide)
    · exact hchoose _ _ (by decide)

theorem charged_opened {w : World} (hlast : w.pmu.lastBatteryPercentage = 0) (initialized : Bool) :
    Charged
      { w.resetForInit.serialOpen.setBatteryTables with
        pmu := { w.resetForInit.serialOpen.setBatteryTables.pmu with initialized := initialized } }
      [] where
  tables r := tableValid_setBatteryTables w.resetForInit.serialOpen r
  cap := rfl
  last _ h := nomatch h
  last_le := by
    change (w.pmu.lastBatteryPercentage.toNat : ℤ) ≤ 10000
    rw [hlast]
    decide

/-- The start of the manager begins with valid tables and no reports. -/
theorem ChargeInvariant.managerInit {w : World} {reports : List StatusReport}
    (h : w.ChargeInvariant reports) (opened : Bool) :
    (w.managerInit opened).ChargeInvariant reports := by
  rw [World.managerInit]
  by_cases hinitialized : w.pmu.initialized = true
  · rwa [if_pos hinitialized]
  · rw [if_neg hinitialized]
    have hclosed : w.pmu.serialChannel = false := by
      cases hchannel : w.pmu.serialChannel with
      | false => rfl
      | true => exact absurd (h.opened hchannel).1 hinitialized
    obtain ⟨hreports, hlast⟩ := h.closed hclosed
    cases opened with
    | false =>
      refine ⟨fun hopen => ?_, fun _ => ⟨hreports, hlast⟩⟩
      exact absurd (hclosed.symm.trans hopen) Bool.false_ne_true
    | true =>
      simp only [Bool.not_true, Bool.false_eq_true, if_false]
      refine ChargeInvariant.congr ?_
        (keptByTick_chargePart.link (requests_initRequests _).sameButLink)
      refine ⟨fun _ => ⟨rfl, ?_⟩, fun hchannel => absurd hchannel.symm Bool.false_ne_true⟩
      rw [hreports]
      exact charged_opened hlast true

theorem ChargeInvariant.read {w : World} {reports : List StatusReport}
    (h : w.ChargeInvariant reports) (r : Read) :
    (w.step (.read r)).ChargeInvariant (reports ++ w.eventReports (.read r)) := by
  rw [World.step, eventReports]
  cases hchannel : w.pmu.serialChannel with
  | false =>
    rw [if_neg Bool.false_ne_true, if_neg Bool.false_ne_true, List.append_nil]
    exact h
  | true =>
    rw [if_pos rfl, if_pos rfl]
    obtain ⟨hinitialized, hcharged⟩ := h.opened hchannel
    have hread : (w.serialReadWatchFunc r).chargePart =
        (run dispatchFrame w (w.framesRead r)).chargePart := by
      rw [← serialReadStep_eq_foldl]
      rfl
    have hopen : (w.serialReadWatchFunc r).chargePart.2.2 = w.chargePart.2.2 := by
      rw [hread, chargePart_frames]
    simp only [chargePart, Prod.mk.injEq] at hopen
    refine ⟨fun _ => ⟨hopen.1.trans hinitialized, (hcharged.frames _).congr hread⟩, ?_⟩
    intro hclosed
    exact absurd (hclosed.symm.trans (hopen.2.trans hchannel)) Bool.false_ne_true

theorem ChargeInvariant.step {w : World} {reports : List StatusReport}
    (h : w.ChargeInvariant reports) (e : Event) :
    (w.step e).ChargeInvariant (reports ++ w.eventReports e) := by
  by_cases hinit : ∃ opened, e = .init opened
  · obtain ⟨opened, rfl⟩ := hinit
    have hnone : w.eventReports (.init opened) = [] := rfl
    rw [hnone, List.append_nil]
    exact h.managerInit opened
  · by_cases hread : ∃ r, e = .read r
    · obtain ⟨r, rfl⟩ := hread
      exact h.read r
    · have hnone : w.eventReports e = [] := by
        cases e with
        | read r => exact absurd ⟨r, rfl⟩ hread
        | _ => rfl
      rw [hnone, List.append_nil]
      exact h.congr (keptByTick_chargePart.step (fun _ _ _ _ _ => rfl) w e
        (fun opened he => hinit ⟨opened, he⟩) (fun r he => hread ⟨r, he⟩) (fun _ _ => rfl)
        fun _ _ => rfl)

theorem chargeInvariant_run (w : World) (events : List Event) {reports : List StatusReport}
    (h : w.ChargeInvariant reports) :
    (run step w events).ChargeInvariant (reports ++ w.reportsOf events) := by
  induction events generalizing w reports with
  | nil => rwa [run_nil, reportsOf, List.append_nil]
  | cons e events ih =>
    rw [run_cons, reportsOf, ← List.append_assoc]
    exact ih (w.step e) (h.step e)

theorem chargeInvariant_start (w : World) : w.start.ChargeInvariant [] :=
  ⟨fun hopen => absurd hopen Bool.false_ne_true, fun _ => ⟨rfl, rfl⟩⟩

theorem onBattery_eq_true_iff {r : StatusReport} : r.onBattery = true ↔ r.chargerVoltage < 4200 :=
  decide_eq_true_iff

theorem onBattery_eq_false_iff {r : StatusReport} : r.onBattery = false ↔ 4200 ≤ r.chargerVoltage := by
  rw [StatusReport.onBattery, decide_eq_false_iff_not, UInt32.not_lt]

theorem Charged.of_charging {w : World} {before : List StatusReport} {r : StatusReport}
    (h : w.Charged (before ++ [r])) (hr : 4200 ≤ r.chargerVoltage) :
    (w.pmu.lastBatteryPercentage.toNat : ℤ) = w.pmu.charge r ∧
      w.pmu.lastBatteryPercentageCap = 10000 := by
  have hbattery := onBattery_eq_false_iff.mpr hr
  have hlast := h.last r (by rw [List.getLast?_concat]; rfl)
  have hcap := h.cap
  rw [hbattery, if_neg Bool.false_ne_true] at hlast
  rw [runningMin_append_of_not_counts _ _ _ hbattery] at hcap
  exact ⟨hlast, UInt32.toNat_inj.mp (by exact_mod_cast hcap)⟩

theorem Charged.of_onBattery {w : World} {before : List StatusReport} {r : StatusReport}
    (h : w.Charged (before ++ [r])) (hr : r.chargerVoltage < 4200) :
    w.pmu.lastBatteryPercentage = w.pmu.lastBatteryPercentageCap := by
  have hlast := h.last r (by rw [List.getLast?_concat]; rfl)
  rw [onBattery_eq_true_iff.mpr hr, if_pos rfl] at hlast
  exact UInt32.toNat_inj.mp (by exact_mod_cast hlast)

/-- A further report without a charger does not raise the percentage. -/
theorem Charged.report_le {w : World} {reports : List StatusReport} (h : w.Charged reports)
    (hcap : w.pmu.lastBatteryPercentage = w.pmu.lastBatteryPercentageCap) {f : Frame}
    {r : StatusReport} (hf : reportOf w.modemDeviceType f = some r) (hr : r.chargerVoltage < 4200) :
    (w.dispatchFrame f).pmu.lastBatteryPercentage ≤ w.pmu.lastBatteryPercentage := by
  have hnext := h.report hf
  have htables : (w.dispatchFrame f).chargePart.2 = w.chargePart.2 := by
    rw [chargePart_dispatchFrame_of_some hf]
  have hle := runningMin_append_le 10000 w.pmu.charge reports (onBattery_eq_true_iff.mpr hr)
  rw [← charge_congr htables, ← hnext.cap, charge_congr htables, ← h.cap] at hle
  rw [hnext.of_onBattery hr, hcap, UInt32.le_iff_toNat_le]
  exact_mod_cast hle

/-- After any run that has opened the port, and any frames after it (so after each report
of a read, too): when the last report finds a charger, the percentage is the one it shows
and the cap is full; when it finds none, both are the least percentage since the last
report that found one. The percentage stays within its range, and another report on battery
does not raise it, whatever the modem is by then. -/
theorem charge_follows_reports (w : World) (events : List Event) (frames : List Frame)
    (hopen : (run step w.start events).pmu.serialChannel = true) :
    let s := run step w.start events
    let s' := run dispatchFrame s frames
    let reports := w.start.reportsOf events ++ frames.filterMap (reportOf s.modemDeviceType)
    (s'.pmu.lastBatteryPercentage.toNat : ℤ) ≤ 10000 ∧
      ∀ before r, reports = before ++ [r] →
        (4200 ≤ r.chargerVoltage →
          (s'.pmu.lastBatteryPercentage.toNat : ℤ) = s'.pmu.charge r ∧
            s'.pmu.lastBatteryPercentageCap = 10000) ∧
        (r.chargerVoltage < 4200 →
          s'.pmu.lastBatteryPercentage = s'.pmu.lastBatteryPercentageCap ∧
            (s'.pmu.lastBatteryPercentageCap.toNat : ℤ) =
              ((reports.rtakeWhile StatusReport.onBattery).map s'.pmu.charge).foldl min 10000 ∧
            ∀ deviceType f r', reportOf deviceType f = some r' → r'.chargerVoltage < 4200 →
              ({ s' with modemDeviceType := deviceType }.dispatchFrame f).pmu.lastBatteryPercentage ≤
                s'.pmu.lastBatteryPercentage) := by
  intro s s' reports
  have hcharged : s'.Charged reports :=
    ((chargeInvariant_run w.start events (chargeInvariant_start w)).opened hopen).2.frames frames
  refine ⟨hcharged.last_le, fun before r hreports => ⟨fun hr => ?_, fun hr => ?_⟩⟩
  · rw [hreports] at hcharged
    exact hcharged.of_charging hr
  · have hcap : s'.pmu.lastBatteryPercentage = s'.pmu.lastBatteryPercentageCap := by
      rw [hreports] at hcharged
      exact hcharged.of_onBattery hr
    refine ⟨hcap, hcharged.cap, fun deviceType f r' hf hr' => ?_⟩
    have hmodem : Charged { s' with modemDeviceType := deviceType } reports := hcharged.congr rfl
    exact hmodem.report_le hcap hf hr'

/-- A status report of a battery at 3.7 V without a charger. -/
def batteryReport : Frame where
  src := 0x81
  dst := 0x01
  frameNum := 0
  command := commandStatusReport
  extraData := le16 3700 ++ List.replicate 14 0
  needAck := false

theorem charge_follows_reports_onBattery :
    let s := run step plain.start [.init true]
    let s' := run dispatchFrame s [batteryReport]
    s'.pmu.lastBatteryPercentage = s'.pmu.lastBatteryPercentageCap :=
  (((charge_follows_reports plain [.init true] [batteryReport] (by decide +kernel)).2 []
    ⟨3700, 0, .none⟩ (by decide +kernel)).2 (by decide)).1

end World
end PcatManager
