import PcatManager.PmuAnswers
import PcatManager.ClockSync
import PcatManager.ControllerCommands

/-!
# What the PMU has told

The measurements of the status reports, the firmware version and the power-on event. After
any run the daemon knows of each what the last frame of the received stream tells that tells
anything about it, and this is what a client of the control socket is shown.
-/

namespace PcatManager
open SerialFrame SerialReadParser GuardedRun RunTrace

/-- The frames that a run finds in what it reads from the port. -/
def MainLoop.framesReceived (w : World) (requestFile : Bool) (events : List MainEvent) :
    List Frame :=
  dispatchedFrames (trace step readsSeen (start w true requestFile) events)

theorem MainLoop.framesReceived_eq (w : World) (requestFile : Bool) (events : List MainEvent) :
    framesReceived w requestFile events =
      trace step framesSeen (start w true requestFile) events := by
  have hframes := frames_run (start w true requestFile) events []
  rw [serialReadBuffer_start, List.nil_append] at hframes
  rw [framesReceived, dispatchedFrames, hframes]

/-- A part of the daemon that nothing but the received frames changes, and they as `upd`
says. -/
structure ChangedByFrames {α : Type*} (part : World → α) (upd : α → Frame → α) : Prop where
  kept : World.KeptByTick part
  environment : ∀ (w : World) (monotonicTime : ℤ) (realTime : UnixTime)
    (userConfig : UserConfigData) (modemDeviceType : ModemDeviceType),
    part { w with
      monotonicTime := monotonicTime
      realTime := realTime
      userConfig := userConfig
      modemDeviceType := modemDeviceType } = part w
  shutdown : ∀ w : World, part { w with pmu := { w.pmu with shutdownRequest := true } } = part w
  reboot : ∀ w : World, part { w with pmu := { w.pmu with rebootRequest := true } } = part w
  asked : ∀ (w : World) (sendPmuRequest : Bool), part (w.requestShutdown sendPmuRequest) = part w
  buffer : ∀ (w : World) (buffer : List UInt8),
    part { w with pmu := { w.pmu with serialReadBuffer := buffer } } = part w
  frame : ∀ (w : World) (f : Frame), part (w.dispatchFrame f) = upd (part w) f

namespace ChangedByFrames
variable {α : Type*} {part : World → α} {upd : α → Frame → α}

theorem frames (h : ChangedByFrames part upd) (w : World) (received : List Frame) :
    part (run World.dispatchFrame w received) = run upd (part w) received :=
  run_part World.dispatchFrame part upd h.frame w received

theorem read (h : ChangedByFrames part upd) (w : World) (r : Read) :
    part (w.serialReadWatchFunc r) = run upd (part w) (w.framesRead r) := by
  rw [World.serialReadWatchFunc]
  dsimp only
  rw [h.buffer, World.serialReadStep_eq_foldl, h.frames]

theorem step (h : ChangedByFrames part upd) (s : MainLoop) (e : MainEvent) :
    part (s.step e).world = run upd (part s.world) (s.framesSeen e) := by
  rw [MainLoop.framesSeen, MainLoop.readsSeen]
  obtain hworld | ⟨hnone, sendPmuRequest, -, hworld⟩ := s.world_step e
  · rw [hworld]
    cases hevent : s.stepEvent? e with
    | none => rfl
    | some e' =>
      change part (s.world.step e') = _
      by_cases hread : ∃ r, e' = .read r
      · obtain ⟨r, rfl⟩ := hread
        rw [World.step]
        dsimp only
        split
        · rw [List.flatMap_singleton]
          exact h.read s.world r
        · rfl
      · have hsame := h.kept.step h.environment s.world e' (MainLoop.stepEvent?_ne_init hevent)
          (fun r he => hread ⟨r, he⟩) (fun _ => h.shutdown) fun _ => h.reboot
        cases e' with
        | read r => exact absurd ⟨r, rfl⟩ hread
        | _ => exact hsame
  · rw [hworld, hnone]
    exact h.asked s.world sendPmuRequest

/-- After a run the frames of the received stream have changed it, one after the other. -/
theorem run (h : ChangedByFrames part upd) (w : World) (requestFile : Bool)
    (events : List MainEvent) :
    part (GuardedRun.run MainLoop.step (MainLoop.start w true requestFile) events).world =
      GuardedRun.run upd (part (MainLoop.start w true requestFile).world)
        (MainLoop.framesReceived w requestFile events) := by
  rw [MainLoop.framesReceived_eq]
  let ofLoop (s : MainLoop) : α := part s.world
  have hstep (s : MainLoop) (e : MainEvent) :
      ofLoop (MainLoop.step s e) = GuardedRun.run upd (ofLoop s) (s.framesSeen e) := h.step s e
  exact run_refines hstep _ events

end ChangedByFrames

/-- What a status report says about the batteries and the board. -/
structure Measurement where
  batteryVoltage : UInt32 := 0
  chargerVoltage : UInt32 := 0
  onBattery : Bool := false
  boardTemp : ℤ := 0
  deriving DecidableEq

/-- The frame is a status report for the host that is long enough. -/
def isReport (f : Frame) : Bool :=
  World.forHost f && f.command = commandStatusReport && 16 ≤ f.extraData.length

def measurement? (f : Frame) : Option Measurement :=
  if isReport f then
    let word (i : ℕ) := ofLe16 (f.extraData.getD i 0) (f.extraData.getD (i + 1) 0)
    some
      { batteryVoltage := (word 0).toUInt32
        chargerVoltage := (word 2).toUInt32
        onBattery := (word 2).toUInt32 < 4200
        boardTemp :=
          (if 18 ≤ f.extraData.length then ((f.extraData.getD 17 0).toNat : ℤ) else 0) - 40 }
  else none

/-- The firmware version in an answer, up to its NUL. -/
def fwVersion? (f : Frame) : Option (List UInt8) :=
  if World.forHost f && f.command = commandPmuFwVersionGetAck && 14 ≤ f.extraData.length then
    some (f.extraData.takeWhile (· ≠ 0))
  else none

namespace World

def measurement (w : World) : Measurement :=
  ⟨w.pmu.lastBatteryVoltage, w.pmu.lastChargerVoltage, w.pmu.lastOnBatteryState, w.pmu.boardTemp⟩

theorem keptByTick_measurement : KeptByTick measurement where
  link := by
    rintro w w' ⟨l, n, rfl⟩
    rfl
  timestamp _ _ := rfl
  modem _ _ := rfl
  plan _ := rfl

theorem isReport_iff (f : Frame) : isReport f = true ↔
    forHost f = true ∧ f.command = commandStatusReport ∧ 16 ≤ f.extraData.length := by
  rw [isReport, Bool.and_eq_true, Bool.and_eq_true, decide_eq_true_eq, decide_eq_true_eq, and_assoc]

/-- A status report overwrites all of them, whatever the clocks show. -/
theorem measurement_statusDataParse (w : World) {f : Frame} (hreport : isReport f = true) :
    measurement? f = some (w.statusDataParse f.extraData).measurement := by
  rw [measurement?, if_pos hreport]
  obtain ⟨-, -, hlen⟩ := (isReport_iff f).mp hreport
  rw [statusDataParse, if_neg (Nat.not_lt.mpr hlen)]
  rfl

theorem measurement_dispatchFrame (w : World) (f : Frame) :
    (w.dispatchFrame f).measurement = (measurement? f).getD w.measurement := by
  cases hreport : isReport f with
  | true =>
    obtain ⟨hhost, hcommand, hlen⟩ := (isReport_iff f).mp hreport
    rw [dispatchFrame, if_pos hhost, handleCommand, if_pos hcommand,
      if_neg (Nat.not_lt.mpr hlen), keptByTick_measurement.link
        (requests_acknowledge _ f []).sameButLink]
    rw [measurement_statusDataParse (w.setLink (w.pmu.link.releaseAnswered f)) hreport]
    rfl
  | false =>
    rw [measurement?, hreport, if_neg Bool.false_ne_true]
    refine keptByTick_measurement.dispatchFrame fun hhost l w' heffect => ?_
    cases heffect with
    | status hcommand hlen =>
      rw [(isReport_iff f).mpr ⟨hhost, hcommand, hlen⟩] at hreport
      cases hreport
    | _ => rfl

theorem changedByFrames_measurement :
    ChangedByFrames measurement fun m f => (measurement? f).getD m where
  kept := keptByTick_measurement
  environment _ _ _ _ _ := rfl
  shutdown _ := rfl
  reboot _ := rfl
  asked _ _ := rfl
  buffer _ _ := rfl
  frame := measurement_dispatchFrame

theorem keptByTick_pmuFwVersion : KeptByTick fun w => w.pmu.pmuFwVersion where
  link := by
    rintro w w' ⟨l, n, rfl⟩
    rfl
  timestamp _ _ := rfl
  modem _ _ := rfl
  plan _ := rfl

theorem pmuFwVersion_dispatchFrame (w : World) (f : Frame) :
    (w.dispatchFrame f).pmu.pmuFwVersion =
      ((fwVersion? f).map some).getD w.pmu.pmuFwVersion := by
  by_cases hversion : f.command = commandPmuFwVersionGetAck
  · rw [dispatchFrame, fwVersion?]
    cases forHost f with
    | false => rfl
    | true =>
      have hcommand {command : UInt16} (hne : command ≠ commandPmuFwVersionGetAck) :
          f.command ≠ command := by
        rw [hversion]
        exact hne.symm
      rw [if_pos rfl, handleCommand, if_neg (hcommand (by decide)), if_neg (hcommand (by decide)),
        if_neg (hcommand (by decide)), if_neg (hcommand (by decide)),
        if_neg (hcommand (by decide)), if_pos hversion, hversion]
      by_cases hlen : f.extraData.length < 14
      · rw [if_pos hlen, if_neg (by simp [Nat.not_le.mpr hlen])]
        rfl
      · rw [if_neg hlen, if_pos (by simp [Nat.not_lt.mp hlen])]
        rfl
  · rw [fwVersion?, if_neg (by simp [hversion])]
    refine keptByTick_pmuFwVersion.dispatchFrame fun hhost l w' heffect => ?_
    cases heffect with
    | status hcommand hlen =>
      exact keptByTick_pmuFwVersion.statusDataParse (fun _ _ => rfl) (fun _ _ _ _ => rfl) _ _
    | fwVersion hcommand version => exact absurd hcommand hversion
    | _ => rfl

theorem changedByFrames_pmuFwVersion :
    ChangedByFrames (fun w => w.pmu.pmuFwVersion) fun v f => ((fwVersion? f).map some).getD v where
  kept := keptByTick_pmuFwVersion
  environment _ _ _ _ _ := rfl
  shutdown _ := rfl
  reboot _ := rfl
  asked _ _ := rfl
  buffer _ _ := rfl
  frame := pmuFwVersion_dispatchFrame

theorem changedByFrames_initialized :
    ChangedByFrames (fun w => w.pmu.initialized) fun initialized _ => initialized where
  kept := keptByTick_initialized
  environment _ _ _ _ _ := rfl
  shutdown _ := rfl
  reboot _ := rfl
  asked _ _ := rfl
  buffer _ _ := rfl
  frame := initialized_dispatchFrame

end World

namespace MainLoop
variable (w : World) (requestFile : Bool) (events : List MainEvent)

/-- At the start nothing but requests has been made of the initialised manager. -/
theorem part_start {α : Type*} {part : World → α} (h : World.KeptByTick part) :
    part (start w true requestFile).world =
      part { w.start.resetForInit.serialOpen.setBatteryTables with
        pmu :=
          { w.start.resetForInit.serialOpen.setBatteryTables.pmu with initialized := true } } :=
  h.link (World.requests_initRequests _).sameButLink

theorem initialized_framesReceived :
    (run step (start w true requestFile) events).world.pmu.initialized = true := by
  rw [World.changedByFrames_initialized.run, part_start w requestFile World.keptByTick_initialized]
  refine run_invariant (I := fun initialized => initialized = true) ?_ rfl _
  exact fun _ _ h => h

theorem measurement_run :
    (run step (start w true requestFile) events).world.measurement =
      ((framesReceived w requestFile events).filterMap measurement?).getLast?.getD {} := by
  rw [World.changedByFrames_measurement.run, run_getD,
    part_start w requestFile World.keptByTick_measurement]
  rfl

theorem pmuFwVersion_run :
    (run step (start w true requestFile) events).world.pmu.pmuFwVersion =
      ((framesReceived w requestFile events).filterMap fwVersion?).getLast? := by
  rw [World.changedByFrames_pmuFwVersion.run, run_getD,
    part_start w requestFile World.keptByTick_pmuFwVersion, ← List.map_filterMap,
    List.getLast?_map]
  cases ((framesReceived w requestFile events).filterMap fwVersion?).getLast? <;> rfl

/-- In every run a client that asks is shown what the last status report of the received
stream has told, and the version of the last answer about it, however the stream was cut into
reads and whatever else has happened since. -/
theorem replies_run (js : JsonLibrary) (c : Controller) (id : ℕ) (command : String) :
    let world := (run step (start w true requestFile) events).world
    let frames := framesReceived w requestFile events
    let m := (frames.filterMap measurement?).getLast?.getD {}
    let asked : Controller := { c with daemon := { c.daemon with world := world } }
    asked.pmuStatusFunc js id command = asked.outputJsonPush js id (okReply command
      [("battery-voltage", jsonInt m.batteryVoltage), ("charger-voltage", jsonInt m.chargerVoltage),
        ("on-battery", jsonFlag m.onBattery),
        ("charge-percentage", jsonInt world.pmu.lastBatteryPercentage),
        ("board-temperature", .int m.boardTemp)]) ∧
    asked.pmuFwVersionGetFunc js id command = asked.outputJsonPush js id (okReply command
      [("version", .string (((frames.filterMap fwVersion?).getLast?.map js.text).getD ""))]) := by
  intro world frames m asked
  have hinitialized : asked.daemon.world.pmu.initialized = true :=
    initialized_framesReceived w requestFile events
  have hmeasurement : asked.daemon.world.measurement = m := measurement_run w requestFile events
  have hversion : asked.daemon.world.pmu.pmuFwVersion =
      (frames.filterMap fwVersion?).getLast? := pmuFwVersion_run w requestFile events
  refine ⟨?_, ?_⟩
  · rw [← hmeasurement, Controller.pmuStatusFunc, hinitialized]
    rfl
  · rw [← hversion, Controller.pmuFwVersionGetFunc]
    cases asked.daemon.world.pmu.pmuFwVersion <;> rfl

end MainLoop
end PcatManager
