import PcatManager.SerialLine
import PcatManager.UserConfigRestart

/-!
# The start-up table of the PMU

The table described by the newest `SCHEDULE_STARTUP_TIME_SET` command, over every run of
controller commands after the initialisation, and when it is the stored schedule.
-/

namespace PcatManager
open SerialFrame SerialParserCorrectness

/-- One entry of the start-up table. -/
structure StartupEntry where
  year : Int16
  month : UInt8
  day : UInt8
  hour : UInt8
  minute : UInt8
  dowBits : UInt8
  enableBits : UInt8
  deriving DecidableEq, Repr

/-- The fields of an entry of the schedule that the table has. -/
def PowerScheduleData.startupEntry (sdata : PowerScheduleData) : StartupEntry :=
  { year := sdata.year
    month := sdata.month
    day := sdata.day
    hour := sdata.hour
    minute := sdata.minute
    dowBits := sdata.dowBits
    enableBits := sdata.enableBits }

/-- The table that is described in records of eight bytes. -/
def decodeStartupTable : List UInt8 → List StartupEntry
  | y₀ :: y₁ :: month :: day :: hour :: minute :: dowBits :: enableBits :: rest =>
    ⟨(ofLe16 y₀ y₁).toInt16, month, day, hour, minute, dowBits, enableBits⟩ ::
      decodeStartupTable rest
  | _ => []

/-- The enabled on-events of a schedule. -/
def onEntries (schedule : List PowerScheduleData) : List PowerScheduleData :=
  schedule.filter fun sdata => sdata.enabled && sdata.action

/-- The table a schedule asks for: its first six enabled on-events. -/
def askedTable (schedule : List PowerScheduleData) : List StartupEntry :=
  ((onEntries schedule).take 6).map PowerScheduleData.startupEntry

/-- The schedule has an enabled on-event. -/
def AsksForStartup (schedule : List PowerScheduleData) : Prop :=
  ∃ sdata ∈ schedule, sdata.enabled = true ∧ sdata.action = true

instance (schedule : List PowerScheduleData) : Decidable (AsksForStartup schedule) :=
  inferInstanceAs (Decidable (∃ sdata ∈ schedule, _))

theorem askedTable_eq_nil_iff (schedule : List PowerScheduleData) :
    askedTable schedule = [] ↔ ¬AsksForStartup schedule := by
  simp [askedTable, onEntries, AsksForStartup]

theorem decodeStartupTable_flatMap (entries : List PowerScheduleData) :
    decodeStartupTable (entries.flatMap World.startupRecord) =
      entries.map PowerScheduleData.startupEntry := by
  induction entries with
  | nil => rfl
  | cons sdata rest ih =>
    simp [World.startupRecord, le16, decodeStartupTable, ih, PowerScheduleData.startupEntry]

theorem length_flatMap_startupRecord (entries : List PowerScheduleData) :
    (entries.flatMap World.startupRecord).length = 8 * entries.length := by
  induction entries with
  | nil => rfl
  | cons sdata rest ih =>
    simp only [List.flatMap_cons, List.length_append, ih, List.length_cons]
    simp [World.startupRecord]
    omega

/-- The set-up loop appends the records of the first enabled on-events, up to six in
all. -/
theorem startupSetupLoop_eq (schedule done : List PowerScheduleData) (h : done.length < 6) :
    World.startupSetupLoop schedule (done.flatMap World.startupRecord) =
      (done ++ (onEntries schedule).take (6 - done.length)).flatMap World.startupRecord := by
  induction schedule generalizing done with
  | nil => simp [World.startupSetupLoop, onEntries]
  | cons sdata rest ih =>
    rw [World.startupSetupLoop]
    by_cases hon : (sdata.enabled && sdata.action) = true
    · have hskip : (!sdata.enabled || !sdata.action) = false := by
        simpa [Bool.and_eq_true] using hon
      have hcons : onEntries (sdata :: rest) = sdata :: onEntries rest := List.filter_cons_of_pos hon
      have hmore : done.flatMap World.startupRecord ++ World.startupRecord sdata =
          (done ++ [sdata]).flatMap World.startupRecord := by simp
      rw [hskip, hcons, show 6 - done.length = (5 - done.length) + 1 by omega, List.take_succ_cons]
      simp only [Bool.false_eq_true, if_false, hmore, length_flatMap_startupRecord,
        List.length_append, List.length_singleton]
      split
      · rw [show 5 - done.length = 0 by omega, List.take_zero]
      · rw [ih (done ++ [sdata]) (by simp; omega), List.length_append, List.length_singleton,
          show 6 - (done.length + 1) = 5 - done.length by omega, List.append_assoc,
          List.singleton_append]
    · have hskip : (!sdata.enabled || !sdata.action) = true := by
        simpa [Bool.and_eq_true, Classical.or_iff_not_imp_left] using hon
      have hcons : onEntries (sdata :: rest) = onEntries rest :=
        List.filter_cons_of_neg (by simpa using hon)
      rw [hskip, if_pos rfl, ih done h, hcons]

theorem startupSetupLoop_nil (schedule : List PowerScheduleData) :
    World.startupSetupLoop schedule [] =
      ((onEntries schedule).take 6).flatMap World.startupRecord := by
  have hloop := startupSetupLoop_eq schedule [] (by decide)
  rw [List.flatMap_nil, List.nil_append, List.length_nil, Nat.sub_zero] at hloop
  exact hloop

theorem length_startupSetupLoop (schedule : List PowerScheduleData) :
    (World.startupSetupLoop schedule []).length = 8 * (askedTable schedule).length := by
  rw [startupSetupLoop_nil, length_flatMap_startupRecord, askedTable, List.length_map]

namespace World

/-- The `SCHEDULE_STARTUP_TIME_SET` commands enqueued so far. -/
def startupCommands (w : World) : List CommandData :=
  (enqueuedCommands w.pmu.link.history).filter fun cmd =>
    cmd.command = commandScheduleStartupTimeSet

/-- The table the newest of these commands describes; the empty table if there is none. -/
def startupTable (w : World) : List StartupEntry :=
  match w.startupCommands.getLast? with
  | none => []
  | some cmd => decodeStartupTable (fieldsAt cmd.buffer).extraData

theorem startupTable_congr {w w' : World} (h : w'.pmu.link = w.pmu.link) :
    w'.startupTable = w.startupTable := by
  simp only [startupTable, startupCommands, h]

theorem startupTable_serialWriteDataRequest_of_ne (w : World) {command : UInt16}
    (hne : command ≠ commandScheduleStartupTimeSet) (frameNum : Option UInt16)
    (extraData : List UInt8) (needAck : Bool) :
    (w.serialWriteDataRequest command frameNum extraData needAck).startupTable = w.startupTable := by
  rw [serialWriteDataRequest]
  split
  · simp only [startupTable, startupCommands, setLink,
      SerialLink.enqueuedCommands_serialWriteDataRequest, List.filter_append]
    simp [SerialLink.newCommandData, hne]
  · rfl

theorem startupTable_serialWriteDataRequest (w : World) (hopen : w.pmu.serialChannel = true)
    {extraData : List UInt8} (hlen : extraData.length ≤ 65529) :
    (w.serialWriteDataRequest commandScheduleStartupTimeSet none extraData true).startupTable =
      decodeStartupTable extraData := by
  rw [serialWriteDataRequest]
  rw [hopen, if_pos rfl]
  simp only [startupTable, startupCommands, setLink,
    SerialLink.enqueuedCommands_serialWriteDataRequest, List.filter_append]
  simp [SerialLink.newCommandData, serialWriteFrame_eq _ _ _ _ hlen, fieldsAt_encoded]

/-- Updating the table sends the one the schedule asks for, unless that is empty. -/
theorem startupTable_scheduleTimeUpdateInternal (w : World) (hopen : w.pmu.serialChannel = true) :
    w.scheduleTimeUpdateInternal.startupTable =
      if askedTable (w.userConfig.powerScheduleData.getD []) = [] then w.startupTable
      else askedTable (w.userConfig.powerScheduleData.getD []) := by
  rw [scheduleTimeUpdateInternal]
  cases hschedule : w.userConfig.powerScheduleData with
  | none => rfl
  | some schedule =>
    have hlength := length_startupSetupLoop schedule
    dsimp only
    rw [Option.getD_some]
    by_cases hnone : askedTable schedule = []
    · rw [if_pos hnone, hlength, hnone]
      rfl
    · have hpos := List.length_pos_of_ne_nil hnone
      have hle : (askedTable schedule).length ≤ 6 := by
        rw [askedTable, List.length_map]
        exact List.length_take_le _ _
      rw [if_neg hnone, if_pos (by omega),
        startupTable_serialWriteDataRequest w hopen (by omega), startupSetupLoop_nil,
        decodeStartupTable_flatMap]
      rfl

theorem startupTable_scheduleTimeUpdate (w : World) (hopen : w.pmu.serialChannel = w.pmu.initialized) :
    w.scheduleTimeUpdate.startupTable =
      if w.pmu.initialized then
        if askedTable (w.userConfig.powerScheduleData.getD []) = [] then w.startupTable
        else askedTable (w.userConfig.powerScheduleData.getD [])
      else w.startupTable := by
  rw [scheduleTimeUpdate]
  split
  · rename_i hinitialized
    exact startupTable_scheduleTimeUpdateInternal w (hopen.trans hinitialized)
  · rfl

theorem startupTable_chargerOnAutoStart (w : World) (state : Bool) :
    (w.chargerOnAutoStart state).startupTable = w.startupTable := by
  rw [chargerOnAutoStart]
  split
  · exact startupTable_serialWriteDataRequest_of_ne w (by decide) _ _ _
  · rfl

theorem startupTable_initRequests (w : World) (hopen : w.pmu.serialChannel = true) :
    w.initRequests.startupTable =
      if askedTable (w.userConfig.powerScheduleData.getD []) = [] then w.startupTable
      else askedTable (w.userConfig.powerScheduleData.getD []) := by
  rw [← startupTable_scheduleTimeUpdateInternal w hopen]
  have hwatchdog (w : World) (timeout : UInt32) :
      (w.watchdogTimeoutSet timeout).startupTable = w.startupTable := by
    rw [watchdogTimeoutSet]
    split
    · rfl
    · exact startupTable_serialWriteDataRequest_of_ne w (by decide) _ _ _
  simp only [initRequests, hwatchdog, powerOnEventGetInternal, pmuFwVersionGetInternal,
    voltageThresholdSetInterval, chargerOnAutoStartInternal, dateTimeSync]
  iterate 5 rw [startupTable_serialWriteDataRequest_of_ne _ (by decide)]

/-- Initialising a daemon that has just started opens the port and makes the first
requests on an empty link. -/
theorem managerInit_start (w : World) : ∃ ready : World, w.start.managerInit true = ready.initRequests ∧
    ready.pmu.initialized = true ∧ ready.pmu.serialChannel = true ∧ ready.startupTable = [] ∧
    ready.userConfig = w.userConfig :=
  ⟨_, rfl, rfl, rfl, rfl, rfl⟩

end World

/-- The table after schedules have been stored one after the other: that of the last one
that asks for any. -/
def lastAskedTable (schedules : List (List PowerScheduleData)) : List StartupEntry :=
  schedules.foldl
    (fun table schedule => if askedTable schedule = [] then table else askedTable schedule) []

theorem lastAskedTable_snoc (schedules : List (List PowerScheduleData))
    (schedule : List PowerScheduleData) :
    lastAskedTable (schedules ++ [schedule]) =
      if askedTable schedule = [] then lastAskedTable schedules else askedTable schedule :=
  List.foldl_append

theorem lastAskedTable_eq_nil_iff (schedules : List (List PowerScheduleData)) :
    lastAskedTable schedules = [] ↔ ∀ schedule ∈ schedules, askedTable schedule = [] := by
  have hfrom (table : List StartupEntry) : schedules.foldl (fun table schedule =>
      if askedTable schedule = [] then table else askedTable schedule) table = [] ↔
        table = [] ∧ ∀ schedule ∈ schedules, askedTable schedule = [] := by
    induction schedules generalizing table with
    | nil => simp
    | cons schedule rest ih =>
      rw [List.foldl_cons, ih, List.forall_mem_cons]
      by_cases hnone : askedTable schedule = [] <;> simp [hnone]
  exact (hfrom []).trans (and_iff_right rfl)

section Runs
variable {fmt : KeyFileFormat} {jc : JsonConversions} {zone : LocalZone}

/-- The schedule a command stores. -/
def ControllerRequest.schedule? (jc : JsonConversions) (zone : LocalZone) (r : ControllerRequest) :
    Option (List PowerScheduleData) :=
  match r.command with
  | .schedulePowerEventSet => requestedSchedule jc zone r.root r.action
  | _ => none

/-- The schedules stored so far: that of the configuration, then those of the commands. -/
def schedulesStored (jc : JsonConversions) (zone : LocalZone) (config : UserConfigData)
    (requests : List ControllerRequest) : List (List PowerScheduleData) :=
  config.powerScheduleData.getD [] :: requests.filterMap (·.schedule? jc zone)

/-- How the table and the configuration stand to the schedules stored so far. -/
structure Daemon.TableKept (opened : Bool) (schedules : List (List PowerScheduleData))
    (d : Daemon) : Prop where
  initialized : d.world.pmu.initialized = opened
  serialChannel : d.world.pmu.serialChannel = opened
  table : d.world.startupTable = if opened then lastAskedTable schedules else []
  stored : d.world.userConfig.powerScheduleData.getD [] = schedules.getLastD []

namespace Daemon

variable {opened : Bool} {schedules : List (List PowerScheduleData)}

theorem TableKept.congr {d d' : Daemon} (h : d.TableKept opened schedules)
    (hinitialized : d'.world.pmu.initialized = d.world.pmu.initialized)
    (hopen : d'.world.pmu.serialChannel = d.world.pmu.serialChannel)
    (htable : d'.world.startupTable = d.world.startupTable)
    (hstored : d'.world.userConfig.powerScheduleData = d.world.userConfig.powerScheduleData) :
    d'.TableKept opened schedules :=
  ⟨hinitialized.trans h.initialized, hopen.trans h.serialChannel, htable.trans h.table,
    hstored ▸ h.stored⟩

theorem powerScheduleData_userConfigDataSync (d : Daemon) (stored : Bool) :
    (d.userConfigDataSync fmt stored).world.userConfig.powerScheduleData =
      d.world.userConfig.powerScheduleData := by
  rw [userConfigDataSync, userConfigDataSave]
  cases d.world.userConfig.dirty <;> cases stored <;> rfl

theorem powerScheduleData_chargerConfig (config : UserConfigData) (root : Json) :
    (chargerConfig jc config root).powerScheduleData = config.powerScheduleData := by
  rw [chargerConfig]
  cases intUnder jc root "state" <;> cases intUnder jc root "timeout" <;> rfl

theorem TableKept.sync {d : Daemon} (h : d.TableKept opened schedules) (stored : Bool) :
    (d.userConfigDataSync fmt stored).TableKept opened schedules :=
  h.congr rfl rfl rfl (powerScheduleData_userConfigDataSync d stored)

theorem tableKept_storeSchedule {d : Daemon} (h : d.TableKept opened schedules)
    (schedule : List PowerScheduleData) (stored : Bool) :
    (d.storeSchedule fmt schedule stored).TableKept opened (schedules ++ [schedule]) := by
  let config := { d.world.userConfig with powerScheduleData := some schedule, dirty := true }
  let w := ((d.setConfig config).userConfigDataSync fmt stored).world
  have hpmu : w.pmu = d.world.pmu := rfl
  have hschedule : w.userConfig.powerScheduleData = some schedule :=
    powerScheduleData_userConfigDataSync (d.setConfig config) stored
  have hsame := (World.requests_scheduleTimeUpdate w).sameButLink
  have htable := World.startupTable_scheduleTimeUpdate w
    (by rw [hpmu, h.serialChannel, h.initialized])
  rw [hpmu, h.initialized, hschedule, Option.getD_some,
    World.startupTable_congr (congrArg PmuManagerData.link hpmu), h.table] at htable
  refine ⟨?_, ?_, ?_, ?_⟩
  · exact hsame.initialized.trans h.initialized
  · exact hsame.serialChannel.trans h.serialChannel
  · apply htable.trans
    cases opened with
    | false => rfl
    | true => exact (lastAskedTable_snoc schedules schedule).symm
  · rw [storeSchedule_powerScheduleData, List.getLastD_concat]
    rfl

theorem tableKept_managerInit (w : World) (opened : Bool) (file : KeyFile) :
    (Daemon.mk (w.start.managerInit opened) file []).TableKept opened
      [w.userConfig.powerScheduleData.getD []] := by
  cases opened with
  | false => exact ⟨rfl, rfl, rfl, rfl⟩
  | true =>
    obtain ⟨ready, heq, hinitialized, hopen, htable, hconfig⟩ := World.managerInit_start w
    have hsame := (World.requests_initRequests ready).sameButLink
    refine ⟨?_, ?_, ?_, ?_⟩
    · rw [heq, hsame.initialized, hinitialized]
    · rw [heq, hsame.serialChannel, hopen]
    · rw [heq, World.startupTable_initRequests ready hopen, htable, hconfig]
      rfl
    · rw [heq, hsame.userConfig, hconfig]
      rfl

theorem tableKept_callback {d d' : Daemon} {r : ControllerRequest} (h : d.TableKept opened schedules)
    (hr : d.callback fmt jc zone r = some d') :
    d'.TableKept opened (schedules ++ (r.schedule? jc zone).toList) := by
  rw [callback] at hr
  rw [ControllerRequest.schedule?]
  cases hcommand : r.command with
  | schedulePowerEventSet =>
    rw [hcommand] at hr
    obtain ⟨schedule, hschedule, rfl⟩ := Option.map_eq_some_iff.mp hr
    simp only [hschedule, Option.toList_some]
    exact tableKept_storeSchedule h schedule r.stored
  | chargerOnAutoStartSet =>
    rw [hcommand] at hr
    obtain rfl := Option.some.inj hr
    simp only [Option.toList_none, List.append_nil]
    let w := (d.setConfig (chargerConfig jc d.world.userConfig r.root)).world
    have hsame := (World.requests_chargerOnAutoStart w
      (chargerConfig jc d.world.userConfig r.root).chargerOnAutoStart).sameButLink
    refine TableKept.sync (h.congr hsame.initialized hsame.serialChannel
      (World.startupTable_chargerOnAutoStart w _) ?_) r.stored
    exact (congrArg UserConfigData.powerScheduleData hsame.userConfig).trans
      (powerScheduleData_chargerConfig d.world.userConfig r.root)
  | modemNetworkSetup =>
    rw [hcommand] at hr
    obtain rfl := Option.some.inj hr
    simp only [Option.toList_none, List.append_nil]
    have hset : (d.setConfig (modemConfig jc d.world.userConfig r.root)).TableKept opened schedules :=
      h.congr rfl rfl rfl rfl
    exact (hset.sync r.stored).congr rfl rfl rfl rfl

theorem tableKept_callbacks {d d' : Daemon} {requests : List ControllerRequest}
    (h : d.TableKept opened schedules) (hrun : d.callbacks fmt jc zone requests = some d') :
    d'.TableKept opened (schedules ++ requests.filterMap (·.schedule? jc zone)) := by
  induction requests generalizing d schedules with
  | nil =>
    obtain rfl := Option.some.inj hrun
    simpa using h
  | cons r rest ih =>
    obtain ⟨next, hr, hrest⟩ := Option.bind_eq_some_iff.mp hrun
    have hnext := ih (tableKept_callback h hr) hrest
    rw [List.append_assoc] at hnext
    cases hschedule : r.schedule? jc zone with
    | none => simpa [hschedule] using hnext
    | some schedule => simpa [hschedule] using hnext

/-- The table follows the stored schedule. -/
def TableFollows (d : Daemon) : Prop :=
  d.world.startupTable = askedTable (d.world.userConfig.powerScheduleData.getD [])

/-- When the table follows, in terms of the schedules stored so far. -/
theorem tableFollows_iff {d : Daemon} (h : d.TableKept opened schedules) :
    d.TableFollows ↔
      if opened then
        AsksForStartup (schedules.getLastD []) ∨ ∀ schedule ∈ schedules, ¬AsksForStartup schedule
      else ¬AsksForStartup (schedules.getLastD []) := by
  rw [TableFollows]
  rw [h.table, h.stored]
  cases opened with
  | false => exact eq_comm.trans (askedTable_eq_nil_iff _)
  | true =>
    simp only [if_true]
    rcases List.eq_nil_or_concat schedules with rfl | ⟨earlier, schedule, rfl⟩
    · simp [lastAskedTable, askedTable, onEntries]
    · rw [List.concat_eq_append, lastAskedTable_snoc, List.getLastD_concat]
      by_cases hnone : askedTable schedule = []
      · rw [if_pos hnone, hnone, lastAskedTable_eq_nil_iff]
        have hasks := (askedTable_eq_nil_iff schedule).mp hnone
        simp only [askedTable_eq_nil_iff, List.forall_mem_append, List.forall_mem_singleton, hasks,
          not_false_eq_true, and_true, false_or]
      · rw [if_neg hnone]
        have hasks := Classical.not_not.mp (mt (askedTable_eq_nil_iff schedule).mpr hnone)
        simp only [hasks, true_or]

/-- After the initialisation and any commands the table follows the stored schedule
exactly when, the port being open, that schedule has an enabled on-event or no schedule
so far has had one; or, the port not being open, when it has none. -/
theorem startup_table_follows_iff (w : World) (opened : Bool) (file : KeyFile)
    {requests : List ControllerRequest} {d : Daemon}
    (hrun : (Daemon.mk (w.start.managerInit opened) file []).callbacks fmt jc zone requests =
      some d) :
    d.TableFollows ↔
      let schedules := schedulesStored jc zone w.userConfig requests
      if opened then
        AsksForStartup (schedules.getLastD []) ∨ ∀ schedule ∈ schedules, ¬AsksForStartup schedule
      else ¬AsksForStartup (schedules.getLastD []) :=
  tableFollows_iff (tableKept_callbacks (tableKept_managerInit w opened file) hrun)

/-- An on-event that is set is in the table. -/
theorem startup_table_follows_on_event :
    ∃ d, Daemon.callbacks .decimal .plain (.fixedOffset ⟨0, by decide⟩)
        (Daemon.mk (World.plain.start.managerInit true) .empty []) [enabledEvent] = some d ∧
      d.TableFollows := by
  have hrun : Daemon.callbacks .decimal .plain (.fixedOffset ⟨0, by decide⟩)
      (Daemon.mk (World.plain.start.managerInit true) .empty []) [enabledEvent] = some _ :=
    callbacks_of_requestedSchedule rfl (requestedSchedule_single _ _)
  refine ⟨_, hrun, (startup_table_follows_iff .plain true .empty hrun).mpr (.inl ?_)⟩
  simp only [schedulesStored, enabledEvent, ControllerRequest.schedule?, List.filterMap_cons,
    requestedSchedule_single, List.filterMap_nil]
  simp [AsksForStartup, eventEnabled, eventAction, intUnder, Json.member?, List.lookup_cons,
    JsonConversions.plain]

/-- A daily start at six. -/
def startAtSix : PowerScheduleData :=
  ⟨true, true, scheduleEnableHour ||| scheduleEnableMinute, 2000, 1, 1, 6, 0, 0⟩

/-- A daemon whose configuration has the daily start. -/
def withStartAtSix : World :=
  { World.plain with userConfig := { valid := true, powerScheduleData := some [startAtSix] } }

/-- A request without events deletes the start from the schedule and not from the table. -/
theorem deleted_start_stays_in_table :
    ∃ d, Daemon.callbacks .decimal .plain (.fixedOffset ⟨0, by decide⟩)
        (Daemon.mk (withStartAtSix.start.managerInit true) .empty [])
        [⟨.schedulePowerEventSet, .object [], false, true⟩] = some d ∧
      ¬d.TableFollows := by
  refine ⟨_, callbacks_of_requestedSchedule rfl (show _ = some [] from rfl), ?_⟩
  rw [tableFollows_iff (tableKept_storeSchedule (tableKept_managerInit withStartAtSix true .empty)
    [] true)]
  decide

end Daemon
end Runs
end PcatManager
