import PcatManager.CommandDelivery
import PcatManager.StartupTable

/-!
# The start-up table that is read

A receiver that keeps the last start-up table it has read from the line. When the requests have
had their free seconds it is the table of the last update whose schedule asks for any start.
-/

namespace PcatManager
open SerialFrame SerialReadParser SerialParserCorrectness GuardedRun RunTrace RepeatedBlocks

/-- The last start-up table among the frames; the empty one if there is none. -/
def tableRead (frames : List Frame) : List StartupEntry :=
  ((frames.filter fun f => f.command = commandScheduleStartupTimeSet).getLast?.map fun f =>
    decodeStartupTable f.extraData).getD []

/-- A request of a start-up table that is not made by an update. -/
def Event.IsBareTable : Event → Prop
  | .request command _ _ _ => command = commandScheduleStartupTimeSet
  | _ => False

/-- The records of the table a schedule asks for. An empty table is not requested. -/
def tableData (schedule : List PowerScheduleData) : List (List UInt8) :=
  if askedTable schedule = [] then []
  else [((onEntries schedule).take 6).flatMap World.startupRecord]

/-- The last table requested is the table of the last schedule that asks for any. -/
theorem getLast?_tableData (schedules : List (List PowerScheduleData)) :
    ((schedules.flatMap tableData).getLast?.map decodeStartupTable).getD [] =
      lastAskedTable schedules := by
  induction schedules using List.reverseRecOn with
  | nil => rfl
  | append_singleton schedules schedule ih =>
    rw [List.flatMap_append, List.flatMap_singleton, lastAskedTable_snoc, tableData]
    by_cases hnone : askedTable schedule = []
    · rw [if_pos hnone, if_pos hnone, List.append_nil]
      exact ih
    · rw [if_neg hnone, if_neg hnone, List.getLast?_concat, Option.map_some, Option.getD_some,
        decodeStartupTable_flatMap]
      rfl

namespace World

/-- The schedule of which an event asks for the table. -/
def schedulesSeen (w : World) : Event → List (List PowerScheduleData)
  | .scheduleTimeUpdate => [w.userConfig.powerScheduleData.getD []]
  | _ => []

theorem tables_scheduleRequests (w : World) :
    w.scheduleRequests.map DataRequest.extraData =
      tableData (w.userConfig.powerScheduleData.getD []) := by
  rw [scheduleRequests, tableData]
  cases w.userConfig.powerScheduleData with
  | none => rfl
  | some schedule =>
    dsimp only
    rw [length_startupSetupLoop, Option.getD_some]
    by_cases hnone : askedTable schedule = []
    · rw [if_pos hnone, hnone]
      rfl
    · have hpos := List.length_pos_of_ne_nil hnone
      rw [if_neg hnone, if_pos (by omega), startupSetupLoop_nil]
      rfl

theorem filter_scheduleRequests (w : World) :
    w.scheduleRequests.filter (fun r => r.command = commandScheduleStartupTimeSet) =
      w.scheduleRequests :=
  List.filter_eq_self.mpr fun r hr => decide_eq_true (w.command_scheduleRequests r hr)

theorem tables_eventRequests {w : World} (h : w.pmu.initialized = true) {e : Event}
    (hbare : ¬e.IsBareTable) :
    ((w.eventRequests e).filter fun r => r.command = commandScheduleStartupTimeSet).map
      DataRequest.extraData = (w.schedulesSeen e).flatMap tableData := by
  by_cases hupdate : e = .scheduleTimeUpdate
  · rw [hupdate, eventRequests, if_pos h, filter_scheduleRequests, tables_scheduleRequests,
      schedulesSeen, List.flatMap_singleton]
  · have hother : commandScheduleStartupTimeSet ∉ eventCommands e := by
      cases e with
      | request command frameNum extraData needAck =>
        exact fun hmem => hbare (List.mem_singleton.mp hmem).symm
      | scheduleTimeUpdate => exact absurd rfl hupdate
      | _ =>
        simp only [eventCommands]
        decide
    have hnone : w.schedulesSeen e = [] := by
      cases e with
      | scheduleTimeUpdate => exact absurd rfl hupdate
      | _ => rfl
    rw [w.filter_eventRequests_eq_nil hother, hnone]
    rfl

theorem tables_initialRequests (w : World) :
    (w.initialRequests.filter fun r => r.command = commandScheduleStartupTimeSet).map
      DataRequest.extraData = tableData (w.userConfig.powerScheduleData.getD []) := by
  rw [initialRequests, List.filter_append, filter_scheduleRequests, List.map_append,
    tables_scheduleRequests]
  exact List.append_nil _

/-- The tables in the requests of the events are those of the schedules they update to. -/
theorem tables_trace {w : World} (h : w.pmu.initialized = true) {events : List Event}
    (hbare : ∀ e ∈ events, ¬e.IsBareTable) :
    ((trace step eventRequests w events).filter fun r =>
        r.command = commandScheduleStartupTimeSet).map DataRequest.extraData =
      (trace step schedulesSeen w events).flatMap tableData := by
  rw [trace_filter_map, trace_flatMap]
  exact trace_congr (I := fun w : World => w.pmu.initialized = true) (q := fun e => ¬e.IsBareTable)
    (fun _ e _ h => initialized_step h e) (fun _ _ he h => tables_eventRequests h he) h hbare

theorem tables_requested (w : World) {events : List Event} (hbare : ∀ e ∈ events, ¬e.IsBareTable) :
    (((w.requested events).map NumberedRequest.frame).filter fun f =>
        f.command = commandScheduleStartupTimeSet).map Frame.extraData =
      (w.userConfig.powerScheduleData.getD [] ::
        trace step schedulesSeen (w.start.step (.init true)) events).flatMap tableData := by
  have hframes : (((w.requested events).map NumberedRequest.frame).filter fun f =>
        f.command = commandScheduleStartupTimeSet).map Frame.extraData =
      (((w.requested events).map NumberedRequest.request).filter fun r =>
        r.command = commandScheduleStartupTimeSet).map DataRequest.extraData := by
    rw [List.filter_map, List.filter_map, List.map_map, List.map_map]
    rfl
  rw [hframes, requested, map_request_numbered, List.filter_append, List.map_append,
    tables_initialRequests, tables_trace (w := w.start.step (.init true))
      (working_run w []).initialized hbare, List.flatMap_cons]

/-- Events that update to no schedule with a start ask for no table. -/
theorem no_table_of_asked {w : World} (h : w.pmu.initialized = true) {events : List Event}
    (hbare : ∀ e ∈ events, ¬e.IsBareTable)
    (hnone : ∀ schedule ∈ trace step schedulesSeen w events, askedTable schedule = []) :
    ∀ r ∈ trace step eventRequests w events, r.command ≠ commandScheduleStartupTimeSet := by
  have htables : (trace step schedulesSeen w events).flatMap tableData = [] :=
    List.flatMap_eq_nil_iff.mpr fun schedule hschedule => if_pos (hnone schedule hschedule)
  rw [← tables_trace h hbare, List.map_eq_nil_iff, List.filter_eq_nil_iff] at htables
  exact fun r hr hcommand => htables r hr (decide_eq_true hcommand)

/-- Once the free seconds have passed, and if no other table is asked for meanwhile, the last
table a receiver has read is that of the last schedule the daemon was told to send, of those
that ask for any start. -/
theorem startup_table_read_run (w : World) (events : List Event)
    (rounds : List (List Event × FreeSecond))
    (hfits : ∀ e ∈ events ++ rounds.flatMap fun round => round.1 ++ round.2.events, e.Fits)
    (horderly : Along step Orderly (w.start.step (.init true))
      (events ++ rounds.flatMap fun round => round.1 ++ round.2.events))
    (hrounds : 4 * (run step w.start (.init true :: events)).pmu.link.pending.length ≤
      rounds.length)
    (hbare : ∀ e ∈ events ++ rounds.flatMap fun round => round.1 ++ round.2.events, ¬e.IsBareTable)
    (hlater : ∀ schedule ∈ trace step schedulesSeen (run step (w.start.step (.init true)) events)
      (rounds.flatMap fun round => round.1 ++ round.2.events), askedTable schedule = [])
    (reads : List Read)
    (hstream : streamOf reads = wire (run step w.start (.init true :: events ++
      rounds.flatMap fun round => round.1 ++ round.2.events)).pmu.link.history) :
    tableRead (dispatchedFrames reads) = lastAskedTable (w.userConfig.powerScheduleData.getD [] ::
      trace step schedulesSeen (w.start.step (.init true)) events) := by
  obtain ⟨hbefore, hafter⟩ := List.forall_mem_append.mp hbare
  have hnone := no_table_of_asked (working_run w events).initialized hafter hlater
  rw [← getLast?_tableData, ← tables_requested w hbefore, List.getLast?_map, Option.map_map,
    tableRead, getLast?_dispatchedFrames hfits horderly hrounds hstream hnone]
  rfl

/-- A daily start at seven. -/
def startAtSeven : PowerScheduleData := { Daemon.startAtSix with hour := 7 }

/-- The daily start is moved from six to seven. -/
def movedStart : List Event :=
  [.configure { valid := true, powerScheduleData := some [startAtSeven] }, .scheduleTimeUpdate]

def movedStartRead : Read :=
  ⟨wire (run step Daemon.withStartAtSix.start (.init true :: movedStart ++
      (silentRounds 32).flatMap fun round => round.1 ++ round.2.events)).pmu.link.history,
    by decide +kernel, by decide +kernel⟩

theorem startup_table_read_movedStart :
    tableRead (dispatchedFrames [movedStartRead]) = [startAtSeven.startupEntry] := by
  have hfits : ∀ e ∈ movedStart ++ (silentRounds 32).flatMap fun round =>
      round.1 ++ round.2.events, e.Fits :=
    List.forall_mem_append.mpr ⟨by simp [movedStart, Event.Fits], fits_silentRounds 32⟩
  have hbare : ∀ e ∈ movedStart ++ (silentRounds 32).flatMap fun round =>
      round.1 ++ round.2.events, ¬e.IsBareTable := by
    refine List.forall_mem_append.mpr ⟨by simp [movedStart, Event.IsBareTable], fun e he => ?_⟩
    obtain rfl | rfl | rfl := mem_silentRounds he <;> exact id
  have hlater : ∀ schedule ∈ trace step schedulesSeen
      (run step (Daemon.withStartAtSix.start.step (.init true)) movedStart)
      ((silentRounds 32).flatMap fun round => round.1 ++ round.2.events),
      askedTable schedule = [] := by
    refine forall_mem_trace (q := fun e => ∀ w : World, w.schedulesSeen e = []) ?_ _ fun e he w => ?_
    · intro w e hnone schedule hschedule
      rw [hnone w] at hschedule
      cases hschedule
    · obtain rfl | rfl | rfl := mem_silentRounds he <;> rfl
  have hstream : streamOf [movedStartRead] = wire (run step Daemon.withStartAtSix.start (.init true ::
      movedStart ++ (silentRounds 32).flatMap fun round =>
        round.1 ++ round.2.events)).pmu.link.history := by
    rw [streamOf, List.map_singleton, List.flatten_singleton, movedStartRead]
  have hread := startup_table_read_run Daemon.withStartAtSix movedStart (silentRounds 32) hfits
    (by decide +kernel) (by decide +kernel) hbare hlater [movedStartRead] hstream
  exact hread.trans (by decide +kernel)

end World
end PcatManager
