import PcatManager.ChangeNotifier
import PcatManager.PmuAnswers

/-!
# The voltage thresholds follow the modem

The PMU powers the host off below a shutdown voltage that depends on the modem. The daemon
sets the thresholds at its start and at every tick that finds another type of modem than the
last one it set them for.
-/

namespace PcatManager
open SerialFrame SerialReadParser SerialParserCorrectness GuardedRun RunTrace ChangeNotifier

/-- The extra data that a parser reads in the bytes of a command. -/
def CommandContent.extraData (c : CommandContent) : List UInt8 := (fieldsAt c.buffer).extraData

theorem extraData_content (r : NumberedRequest) (h : r.request.extraData.length ≤ 65529) :
    r.content.extraData = r.request.extraData := by
  rw [CommandContent.extraData, NumberedRequest.content, serialWriteFrame_eq _ _ _ _ h,
    fieldsAt_encoded]

/-- The extra data of the commands of one kind are those of the requests. -/
theorem extraData_numbered (n : UInt16) {requests : List DataRequest} (command : UInt16)
    (h : ∀ r ∈ requests, r.command = command → r.extraData.length ≤ 65529) :
    (((numbered n requests).map NumberedRequest.content).filter fun c => c.command = command).map
        CommandContent.extraData =
      (requests.filter fun r => r.command = command).map DataRequest.extraData := by
  induction requests generalizing n with
  | nil => rfl
  | cons r requests ih =>
    rw [List.forall_mem_cons] at h
    rw [numbered, List.map_cons]
    by_cases hcommand : r.command = command
    · rw [List.filter_cons_of_pos (by simp [NumberedRequest.content, hcommand]),
        List.filter_cons_of_pos (by simp [hcommand]), List.map_cons, List.map_cons, ih _ h.2]
      rw [extraData_content ⟨r, _⟩ (h.1 hcommand)]
    · rw [List.filter_cons_of_neg (by simp [NumberedRequest.content, hcommand]),
        List.filter_cons_of_neg (by simp [hcommand]), ih _ h.2]

namespace World

/-- The thresholds for a type of modem, as they are sent. -/
def thresholdData (config : MainConfigData) (deviceType : ModemDeviceType) : List UInt8 :=
  (thresholdRequest (thresholdVoltages config 0 0 0 0 0 (modemShutdownVoltage config deviceType)
    0 0)).extraData

theorem length_thresholdData (config : MainConfigData) (deviceType : ModemDeviceType) :
    (thresholdData config deviceType).length = 18 := by
  simp [thresholdData, thresholdRequest, thresholdVoltages, le16]

/-- The type of modem that is present, the one the thresholds were set for last and the
configuration. -/
def modemPart (w : World) : ModemDeviceType × MainConfigData := (w.pmu.modemDeviceType, w.mainConfig)

theorem modemPart_of_sameButLink {w w' : World} (h : SameButLink w w') :
    w'.modemPart = w.modemPart := by
  obtain ⟨l, n, rfl⟩ := h
  rfl

theorem modemPart_dispatchFrame (w : World) (f : Frame) :
    (w.dispatchFrame f).modemPart = w.modemPart := by
  refine part_dispatchFrame modemPart_of_sameButLink fun _ l w' heffect => ?_
  cases heffect with
  | status hcommand hlen =>
    exact part_statusDataParse modemPart_of_sameButLink (fun _ _ => rfl) (fun _ _ _ _ => rfl) _ _
  | _ => rfl

theorem modemPart_step (w : World) {e : Event} (hinit : ∀ opened, e ≠ .init opened)
    (htick : e ≠ .tick) : (w.step e).modemPart = w.modemPart := by
  by_cases hread : ∃ r, e = .read r
  · obtain ⟨r, rfl⟩ := hread
    rw [World.step]
    split
    · have hframes := run_invariant (I := fun w' => w'.modemPart = w.modemPart)
        (fun w' f hw' => (modemPart_dispatchFrame w' f).trans hw') rfl (w.framesRead r)
      rw [← serialReadStep_eq_foldl] at hframes
      exact hframes
    · rfl
  · exact part_step modemPart_of_sameButLink (fun _ _ _ _ _ => rfl) w e hinit
      (fun r he => hread ⟨r, he⟩) htick (fun _ _ => rfl) (fun _ _ => rfl)

theorem modemPart_checkModemDevice (w : World) :
    w.checkModemDevice.modemPart = (w.modemDeviceType, w.mainConfig) := by
  rw [checkModemDevice]
  split
  · exact modemPart_of_sameButLink (requests_voltageThresholdSetInterval _ _ _ _ _ _ _ _ _).sameButLink
  · rename_i hsame
    exact Prod.ext (not_not.mp hsame) rfl

theorem modemPart_tick (w : World) (hopen : w.pmu.serialChannel = true) :
    (w.step .tick).modemPart = (w.modemDeviceType, w.mainConfig) := by
  let part (w : World) : ModemDeviceType × MainConfigData := (w.modemDeviceType, w.mainConfig)
  have hlink {w w' : World} (h : SameButLink w w') : part w' = part w := by
    obtain ⟨l, n, rfl⟩ := h
    rfl
  have hrefresh : part w.refreshChargerTimestamp = part w := by
    rw [refreshChargerTimestamp]
    split <;> rfl
  have hbeat (w : World) :
      part (w.serialWriteDataRequest commandHeartbeat none [] false).checkPlannedShutdown = part w :=
    (part_checkPlannedShutdown (fun _ => rfl) _).trans
      (hlink (requests_serialWriteDataRequest w commandHeartbeat none [] false).sameButLink)
  rw [World.step, checkTimeoutFunc, hopen, Bool.not_true, if_neg Bool.false_ne_true]
  refine (modemPart_checkModemDevice _).trans ?_
  change part _ = part w
  split
  · exact (hbeat _).trans hrefresh
  · exact hrefresh

end World

/-- The thresholds set by another function than those of the daemon. The function that does it
is never called. -/
def MainEvent.SetsThresholds : MainEvent → Prop
  | .manager (.voltageThresholdSet _ _ _ _ _ _ _ _) => True
  | _ => False

namespace MainLoop

/-- The type of the modem, where a tick looks at it. -/
def modemsSeen (s : MainLoop) (e : MainEvent) : List ModemDeviceType :=
  match s.stepEvent? e with
  | some .tick => if s.world.pmu.serialChannel then [s.world.modemDeviceType] else []
  | _ => []

/-- The thresholds that an event asks for. -/
def thresholdsAsked (s : MainLoop) (e : MainEvent) : List (List UInt8) :=
  ((s.stepRequests e).filter fun r => r.command = commandVoltageThresholdSet).map
    DataRequest.extraData

theorem thresholdsAsked_eq (s : MainLoop) {e : MainEvent} (hbare : ¬e.IsBareRequest)
    (hset : ¬e.SetsThresholds) :
    s.thresholdsAsked e = (changes s.world.pmu.modemDeviceType (s.modemsSeen e)).map
      (World.thresholdData s.world.mainConfig) := by
  by_cases htick : s.stepEvent? e = some .tick
  · rw [thresholdsAsked, stepRequests, modemsSeen, htick]
    change (List.filter _ s.world.tickRequests).map _ = _
    rw [World.tickRequests]
    dsimp only
    cases s.world.pmu.serialChannel with
    | false => rfl
    | true =>
      rw [if_pos rfl, Bool.not_true, if_neg Bool.false_ne_true, List.filter_append]
      have hbeat : (if (!s.world.pmu.rebootRequest && !s.world.pmu.shutdownRequest) = true then
          [World.heartbeatRequest] else []).filter
            (fun r => r.command = commandVoltageThresholdSet) = [] := by
        split <;> rfl
      rw [hbeat, List.nil_append, World.modemRequests]
      by_cases hsame : s.world.pmu.modemDeviceType = s.world.modemDeviceType
      · rw [if_neg (not_not.mpr hsame), ← hsame, changes_cons_self]
        rfl
      · rw [if_pos hsame, changes_cons_ne hsame]
        rfl
  · have hunseen : s.modemsSeen e = [] := by
      rw [modemsSeen]
      split
      · rename_i hevent
        exact absurd hevent htick
      · rfl
    rw [thresholdsAsked, hunseen, filter_stepRequests_eq_nil]
    · rfl
    · intro e' hevent
      have hne := stepEvent?_ne_request hevent hbare
      cases e' with
      | tick => exact absurd hevent htick
      | request command frameNum extraData needAck => exact absurd rfl (hne _ _ _ _)
      | voltageThresholdSet a b c d e f g h =>
        cases comesFrom_of_stepEvent? hevent with
        | manager => exact absurd trivial hset
      | _ => simp only [World.eventCommands]; decide

theorem modemPart_step (s : MainLoop) (e : MainEvent) :
    (s.step e).world.modemPart =
      ((s.modemsSeen e).getLastD s.world.pmu.modemDeviceType, s.world.mainConfig) := by
  rw [modemsSeen]
  obtain hworld | ⟨hnone, sendPmuRequest, -, hworld⟩ := s.world_step e
  · rw [hworld]
    cases hevent : s.stepEvent? e with
    | none => rfl
    | some e' =>
      by_cases htick : e' = .tick
      · subst htick
        dsimp only [Option.elim]
        cases hopen : s.world.pmu.serialChannel with
        | true => exact s.world.modemPart_tick hopen
        | false =>
          rw [World.step, World.checkTimeoutFunc, hopen, Bool.not_false, if_pos rfl]
          rfl
      · refine (s.world.modemPart_step (stepEvent?_ne_init hevent) htick).trans ?_
        cases e' with
        | tick => exact absurd rfl htick
        | _ => rfl
  · rw [hworld, hnone]
    rfl

theorem modemPart_start (w : World) (requestFile : Bool) :
    (start w true requestFile).world.modemPart = (.none, w.mainConfig) :=
  World.modemPart_of_sameButLink (World.requests_initRequests
    { w.start.resetForInit.serialOpen.setBatteryTables with
      pmu := { w.start.resetForInit.serialOpen.setBatteryTables.pmu with
        initialized := true } }).sameButLink

theorem thresholds_trace {s : MainLoop} {events : List MainEvent}
    (hevents : ∀ e ∈ events, ¬e.IsBareRequest ∧ ¬e.SetsThresholds) :
    trace step thresholdsAsked s events =
      (changes s.world.pmu.modemDeviceType (trace step modemsSeen s events)).map
        (World.thresholdData s.world.mainConfig) := by
  refine trace_eq_changes (fun s : MainLoop => s.world.pmu.modemDeviceType)
    (I := fun s' => s'.world.mainConfig = s.world.mainConfig) ?_ ?_ ?_ rfl hevents
  · exact fun s' e _ hconfig => (congrArg Prod.snd (s'.modemPart_step e)).trans hconfig
  · intro s' e he hconfig
    rw [s'.thresholdsAsked_eq he.1 he.2, hconfig]
  · exact fun s' e _ _ => congrArg Prod.fst (s'.modemPart_step e)

theorem thresholds_initialRequests (w : World) :
    (w.initialRequests.filter fun r => r.command = commandVoltageThresholdSet).map
      DataRequest.extraData = [World.thresholdData w.mainConfig .none] := by
  have hschedule : w.scheduleRequests.filter
      (fun r => r.command = commandVoltageThresholdSet) = [] := by
    rw [List.filter_eq_nil_iff]
    intro r hr
    rw [w.command_scheduleRequests r hr]
    decide
  rw [World.initialRequests, List.filter_append, hschedule]
  rfl

/-- The extra data of the commands of one kind enqueued in a run are those asked for. -/
theorem extraData_run (w : World) (requestFile : Bool) (events : List MainEvent) {command : UInt16}
    {data : List (List UInt8)}
    (hasked : ((runRequests w true requestFile events).filter fun r => r.command = command).map
      DataRequest.extraData = data) (hlength : ∀ d ∈ data, d.length ≤ 65529) :
    ((run step (start w true requestFile) events).world.enqueued.filter fun c =>
      c.command = command).map CommandContent.extraData = data := by
  rw [enqueued_runRequests, extraData_numbered 0 command, hasked]
  intro r hr hcommand
  refine hlength r.extraData ?_
  rw [← hasked]
  exact List.mem_map_of_mem (List.mem_filter.mpr ⟨hr, by simpa using hcommand⟩)

theorem thresholds_runRequests (w : World) (requestFile : Bool) {events : List MainEvent}
    (hevents : ∀ e ∈ events, ¬e.IsBareRequest ∧ ¬e.SetsThresholds) :
    ((runRequests w true requestFile events).filter fun r =>
        r.command = commandVoltageThresholdSet).map DataRequest.extraData =
      (ModemDeviceType.none :: changes .none
        (trace step modemsSeen (start w true requestFile) events)).map
          (World.thresholdData w.mainConfig) := by
  have hpart := modemPart_start w requestFile
  have htrace := thresholds_trace (s := start w true requestFile) hevents
  have hconfig : (start w true requestFile).world.mainConfig = w.mainConfig :=
    congrArg Prod.snd hpart
  have htold : (start w true requestFile).world.pmu.modemDeviceType = .none :=
    congrArg Prod.fst hpart
  rw [hconfig, htold] at htrace
  rw [runRequests, if_pos rfl, List.filter_append, List.map_append, thresholds_initialRequests,
    trace_filter_map, List.map_cons]
  exact congrArg (World.thresholdData w.mainConfig .none :: ·) htrace

theorem length_thresholdData_le (config : MainConfigData) (deviceTypes : List ModemDeviceType) :
    ∀ d ∈ deviceTypes.map (World.thresholdData config), d.length ≤ 65529 := by
  intro d hd
  obtain ⟨deviceType, -, rfl⟩ := List.mem_map.mp hd
  rw [World.length_thresholdData]
  decide

/-- In every run on an open port the thresholds enqueued are those for no modem at the start
and then one for each change of the type of the modem between the ticks. -/
theorem thresholds_run (w : World) (requestFile : Bool) (events : List MainEvent)
    (hevents : ∀ e ∈ events, ¬e.IsBareRequest ∧ ¬e.SetsThresholds) :
    ((run step (start w true requestFile) events).world.enqueued.filter fun c =>
        c.command = commandVoltageThresholdSet).map CommandContent.extraData =
      (ModemDeviceType.none :: changes .none
        (trace step modemsSeen (start w true requestFile) events)).map
          (World.thresholdData w.mainConfig) :=
  extraData_run w requestFile events (thresholds_runRequests w requestFile hevents)
    (length_thresholdData_le w.mainConfig _)

theorem thresholds_run_fiveG :
    ((run step (start World.plain true false)
        [.manager (.modem .fiveG), .manager .tick, .manager .tick]).world.enqueued.filter fun c =>
      c.command = commandVoltageThresholdSet).map CommandContent.extraData =
      [World.thresholdData World.plain.mainConfig .none,
        World.thresholdData World.plain.mainConfig .fiveG] :=
  (thresholds_run World.plain false [.manager (.modem .fiveG), .manager .tick, .manager .tick]
    (by simp [MainEvent.IsBareRequest, MainEvent.SetsThresholds])).trans (by decide +kernel)

end MainLoop
end PcatManager
