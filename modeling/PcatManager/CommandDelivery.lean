import PcatManager.CommandReception
import PcatManager.RequestLifetime

/-!
# At least once

Four free seconds for each command on the link are enough for a receiver to have read every
request made before, unless a request had to leave a full queue or a frame answered a command
that was not written.
-/

namespace PcatManager
open SerialFrame SerialReadParser SerialParserCorrectness GuardedRun RunTrace RepeatedBlocks

namespace World

/-- Every event makes the requests that belong to it, also a second initialisation, which
does nothing. -/
theorem asks_eventRequests {w : World} (h : w.pmu.initialized = true) (e : Event) :
    Asks w (w.step e) (w.eventRequests e) := by
  by_cases hinit : ∃ opened, e = .init opened
  · obtain ⟨opened, rfl⟩ := hinit
    rw [step_init_again h]
    exact .refl w
  · exact w.asks_step e fun _ h => hinit ⟨_, h⟩

theorem asks_run {w : World} (h : w.pmu.initialized = true) (events : List Event) :
    Asks w (run step w events) (trace step eventRequests w events) := by
  induction events generalizing w with
  | nil => exact .refl w
  | cons e events ih => exact (asks_eventRequests h e).trans (ih (initialized_step h e))

/-- The requests of an initialisation on an open port and of the events after it. -/
def requested (w : World) (events : List Event) : List NumberedRequest :=
  numbered 0 (w.initialRequests ++ trace step eventRequests (w.start.step (.init true)) events)

theorem enqueued_requested (w : World) (events : List Event) :
    (run step w.start (.init true :: events)).enqueued =
      (w.requested events).map NumberedRequest.content := by
  have hinit : (MainLoop.start w true false).world = w.start.step (.init true) := rfl
  obtain ⟨hchannel, hcounter, hstart⟩ := MainLoop.asks_start w true false
  rw [hinit] at hchannel hcounter hstart
  have hasked := (asks_run (working_run w []).initialized events).enqueued
  rw [run_cons, run_nil, hchannel, if_pos rfl, hcounter, hstart, if_pos rfl, ← List.map_append,
    ← numbered_append] at hasked
  exact hasked

theorem fits_requested (w : World) {events : List Event} (hfits : ∀ e ∈ events, e.Fits) :
    ∀ r ∈ w.requested events, r.request.Fits := by
  have hall : ∀ r ∈ w.initialRequests ++
      trace step eventRequests (w.start.step (.init true)) events, r.Fits :=
    List.forall_mem_append.mpr ⟨w.fits_initialRequests,
      forall_mem_trace (fun w _ he => w.fits_eventRequests he) _ hfits⟩
  exact fun r hr => hall r.request (request_mem_of_numbered hr)

/-- The requests of the event find room in the queue, and its frames answer no command that
is inside a pass or has not been written yet. -/
structure Orderly (w : World) (e : Event) : Prop where
  room : w.pmu.link.commandQueue.length + (w.eventRequests e).length ≤ commandQueueMax
  releases : w.ReleasesOnlyBy CommandData.BetweenPasses e

instance (w : World) (e : Event) : Decidable (w.Orderly e) :=
  decidable_of_iff (_ ∧ _) ⟨fun h => ⟨h.1, h.2⟩, fun h => ⟨h.room, h.releases⟩⟩

/-- The link loses no request: it is on it or has been written. -/
structure Delivering (w : World) : Prop where
  opened : w.pmu.serialChannel = true
  line : w.LineKept
  written : w.pmu.link.PromotedWritten
  kept : w.pmu.link.NothingEvicted

theorem length_initialRequests_le (w : World) : w.initialRequests.length ≤ commandQueueMax := by
  have hschedule : w.scheduleRequests.length ≤ 1 := by
    rw [scheduleRequests]
    cases w.userConfig.powerScheduleData with
    | none => exact Nat.zero_le 1
    | some schedule =>
      dsimp only
      split
      · exact Nat.le_refl 1
      · exact Nat.zero_le 1
  rw [initialRequests, List.length_append, commandQueueMax]
  simp only [List.length_cons, List.length_nil]
  omega

theorem Asks.length_enqueued {w w' : World} {requests : List DataRequest} (h : Asks w w' requests)
    (hopen : w.pmu.serialChannel = true) :
    (enqueuedCommands w'.pmu.link.history).length =
      (enqueuedCommands w.pmu.link.history).length + requests.length := by
  have hlength := congrArg List.length h.enqueued
  have hnumbered := congrArg List.length (map_request_numbered w.pmu.link.frameNum requests)
  rw [if_pos hopen, List.length_append, List.length_map, World.enqueued, List.length_map,
    World.enqueued, List.length_map] at hlength
  rw [List.length_map] at hnumbered
  rw [hlength, hnumbered]

theorem exists_opened (w : World) : ∃ w' : World, w'.pmu.serialChannel = true ∧
    (∃ l : SerialLink, w'.pmu.link = l.opened) ∧ Calls w' (w.start.step (.init true)) ∧
    Asks w' (w.start.step (.init true)) w.initialRequests :=
  ⟨{ w.start.resetForInit.serialOpen.setBatteryTables with
      pmu := { w.start.resetForInit.serialOpen.setBatteryTables.pmu with initialized := true } },
    rfl, ⟨({} : PmuManagerData).link, rfl⟩, portRelation_calls.requests (requests_initRequests _),
    asks_initRequests _ rfl rfl⟩

theorem promotedWritten_step {w : World} (h : w.LineKept) (hwritten : w.pmu.link.PromotedWritten)
    {e : Event} (he : w.ReleasesOnlyBy CommandData.BetweenPasses e) :
    (w.step e).pmu.link.PromotedWritten :=
  (keptWithDiscipline_step SerialLink.promotedWritten_opened
    (fun _ _ _ hstep => SerialLink.promotedWritten_step (fun _ hc => hc) hstep)
    h.discipline hwritten he).2

theorem delivering_init (w : World) : (w.start.step (.init true)).Delivering := by
  obtain ⟨w', hopen, ⟨l, hopened⟩, hcalls, hasked⟩ := w.exists_opened
  have hlength := hasked.length_enqueued hopen
  have hroom := w.length_initialRequests_le
  obtain ⟨calls, hlink⟩ := hcalls.opened hopen
  refine ⟨hcalls.channel.trans hopen, lineKept_init w true, ?_, ?_⟩
  · exact promotedWritten_step w.lineKept_start
      (SerialLink.promotedWritten_opened ({} : PmuManagerData).link) fun r hr => by cases hr
  · rw [hlink, hopened] at hlength ⊢
    refine (SerialLink.nothingEvicted_opened l).calls ?_
    have hempty : l.opened.commandQueue.length = 0 := rfl
    omega

theorem delivering_step {w : World} (h : w.Delivering) {e : Event} (he : w.Orderly e)
    (hinitialized : w.pmu.initialized = true) : (w.step e).Delivering := by
  by_cases hinit : ∃ opened, e = .init opened
  · obtain ⟨opened, rfl⟩ := hinit
    rw [step_init_again hinitialized]
    exact h
  have hcalls := w.calls_step e fun _ h => hinit ⟨_, h⟩
  have hlength := (asks_eventRequests hinitialized e).length_enqueued h.opened
  obtain ⟨calls, hlink⟩ := hcalls.opened h.opened
  have hroom := he.room
  refine ⟨hcalls.channel.trans h.opened, lineKept_step h.line fun r hr hopen => ?_, ?_, ?_⟩
  · exact (he.releases r hr hopen).mono fun w f hreleases c hc hanswers =>
      (hreleases c hc hanswers).1
  · exact promotedWritten_step h.line h.written he.releases
  · rw [hlink] at hlength ⊢
    refine h.kept.calls ?_
    omega

theorem delivering_run (w : World) {events : List Event}
    (horderly : Along step Orderly (w.start.step (.init true)) events) :
    (run step w.start (.init true :: events)).Delivering := by
  have hinitialized : (w.start.step (.init true)).pmu.initialized = true :=
    (working_run w []).initialized
  have hkept := horderly.invariant (I := fun w : World => w.Delivering ∧ w.pmu.initialized = true)
    (fun _ e h he => ⟨delivering_step h.1 he h.2, initialized_step h.2 e⟩)
    ⟨delivering_init w, hinitialized⟩
  exact hkept.1

theorem enqueuedCommands_run {w : World} (h : w.pmu.initialized = true) (events : List Event) :
    enqueuedCommands w.pmu.link.history <+:
      enqueuedCommands (run step w events).pmu.link.history := by
  induction events generalizing w with
  | nil => exact List.prefix_rfl
  | cons e events ih =>
    have hstep : w.pmu.link.history <+: (w.step e).pmu.link.history := by
      by_cases hinit : ∃ opened, e = .init opened
      · obtain ⟨opened, rfl⟩ := hinit
        rw [step_init_again h]
      · exact history_step w e fun _ h => hinit ⟨_, h⟩
    exact (enqueuedCommands_of_isPrefix hstep).trans (ih (initialized_step h e))

theorem requested_append (w : World) (events later : List Event) : ∃ n,
    w.requested (events ++ later) = w.requested events ++
      numbered n (trace step eventRequests (run step (w.start.step (.init true)) events) later) := by
  rw [requested, requested, trace_append, ← List.append_assoc, numbered_append]
  exact ⟨_, rfl⟩

theorem filter_numbered_eq_nil {requests : List DataRequest} {command : UInt16} (n : UInt16)
    (hrequests : ∀ r ∈ requests, r.command ≠ command) :
    ((numbered n requests).map NumberedRequest.frame).filter (fun f => f.command = command) = [] := by
  rw [List.filter_eq_nil_iff]
  intro f hf hcommand
  obtain ⟨r, hr, rfl⟩ := List.mem_map.mp hf
  exact hrequests r.request (request_mem_of_numbered hr) (of_decide_eq_true hcommand)

section Rounds
variable {w : World} {events : List Event} {rounds : List (List Event × FreeSecond)}
  {reads : List Read}
  (hfits : ∀ e ∈ events ++ rounds.flatMap fun round => round.1 ++ round.2.events, e.Fits)
  (horderly : Along step Orderly (w.start.step (.init true))
    (events ++ rounds.flatMap fun round => round.1 ++ round.2.events))
  (hrounds : 4 * (run step w.start (.init true :: events)).pmu.link.pending.length ≤ rounds.length)
  (hstream : streamOf reads = wire (run step w.start (.init true :: events ++
    rounds.flatMap fun round => round.1 ++ round.2.events)).pmu.link.history)
include hfits horderly hrounds hstream

/-- After the free seconds of the requests made up to some moment, each of them has been read
once or more, before those made later. -/
theorem exists_delivered : ∃ (times : CommandData → ℕ) (before after : List CommandData),
    (∀ cmd ∈ before, 1 ≤ times cmd) ∧
    before.map CommandData.frame = (w.requested events).map NumberedRequest.frame ∧
    (before ++ after).map CommandData.frame = (w.requested (events ++
      rounds.flatMap fun round => round.1 ++ round.2.events)).map NumberedRequest.frame ∧
    dispatchedFrames reads =
      (before ++ after).flatMap fun cmd => List.replicate (times cmd) cmd.frame := by
  have hworking := working_run w events
  have hchances := chancesBefore_rounds hworking (Nat.le_refl _) rounds
  have hbound := chancesBefore_le_length
    (n := (run step w.start (.init true :: events)).pmu.link.requests) hworking.chances_le
  have hgone := le_id_of_chancesBefore (Nat.le_zero.mp (hchances.trans (by omega)))
  rw [← run_append] at hgone
  rw [List.cons_append] at hstream hgone
  have hdelivering := delivering_run w horderly
  have hfitsBefore : ∀ e ∈ events, e.Fits := fun e he => hfits e (List.mem_append_left _ he)
  obtain ⟨-, hbefore⟩ := frames_of_content (enqueued_requested w events)
    (w.fits_requested hfitsBefore)
  obtain ⟨hframes, hall⟩ := frames_of_content (enqueued_requested w _) (w.fits_requested hfits)
  obtain ⟨after, hafter⟩ := enqueuedCommands_run hworking.initialized
    (rounds.flatMap fun round => round.1 ++ round.2.events)
  rw [← run_append, List.cons_append] at hafter
  refine ⟨(run step w.start (.init true :: (events ++
    rounds.flatMap fun round => round.1 ++ round.2.events))).pmu.link.timesWritten,
    _, after, fun cmd hcmd => ?_, hbefore, ?_, ?_⟩
  · have hlt : cmd.id < (run step w.start (.init true :: events)).pmu.link.requests :=
      hworking.discipline.inOrder.lt_requests ⟨cmd, hcmd, .refl cmd⟩
    refine hdelivering.line.discipline.one_le_timesWritten hdelivering.kept hdelivering.written
      (hafter ▸ List.mem_append_left after hcmd) fun c hc hid => ?_
    exact Nat.not_le.mpr hlt (hid ▸ hgone c hc)
  · rw [hafter]
    exact hall
  · rw [dispatchedFrames_eq, hstream, hdelivering.line.discipline.values_wire
      hdelivering.line.whole hframes, hafter]

/-- The last frame of a kind is that of the last request of the kind, if the free seconds ask
for no other. -/
theorem getLast?_dispatchedFrames {command : UInt16}
    (hlater : ∀ r ∈ trace step eventRequests (run step (w.start.step (.init true)) events)
      (rounds.flatMap fun round => round.1 ++ round.2.events), r.command ≠ command) :
    ((dispatchedFrames reads).filter fun f => f.command = command).getLast? =
      (((w.requested events).map NumberedRequest.frame).filter fun f =>
        f.command = command).getLast? := by
  obtain ⟨times, before, after, htimes, hbefore, hall, hread⟩ :=
    exists_delivered hfits horderly hrounds hstream
  obtain ⟨n, hrequested⟩ := w.requested_append events
    (rounds.flatMap fun round => round.1 ++ round.2.events)
  rw [hrequested, List.map_append, List.map_append, hbefore, List.append_cancel_left_eq] at hall
  have hnone : (after.flatMap fun cmd => List.replicate (times cmd) cmd.frame).filter
      (fun f => f.command = command) = [] := by
    have hframes := filter_numbered_eq_nil n hlater
    rw [← hall, List.filter_eq_nil_iff] at hframes
    rw [List.filter_eq_nil_iff]
    intro f hf
    obtain ⟨cmd, hcmd, hrepeated⟩ := List.mem_flatMap.mp hf
    rw [List.eq_of_mem_replicate hrepeated]
    exact hframes cmd.frame (List.mem_map_of_mem hcmd)
  rw [hread, List.flatMap_append, List.filter_append, hnone, List.append_nil,
    getLast?_filter_flatMap_replicate _ _ _ htimes, hbefore]

end Rounds

/-- Once every request made up to some moment has had its free seconds a receiver has read all
of them, in their order, if each event was orderly. -/
theorem requests_delivered_run (w : World) (events : List Event)
    (rounds : List (List Event × FreeSecond))
    (hfits : ∀ e ∈ events ++ rounds.flatMap fun round => round.1 ++ round.2.events, e.Fits)
    (horderly : Along step Orderly (w.start.step (.init true))
      (events ++ rounds.flatMap fun round => round.1 ++ round.2.events))
    (hrounds : 4 * (run step w.start (.init true :: events)).pmu.link.pending.length ≤
      rounds.length)
    (reads : List Read)
    (hstream : streamOf reads = wire (run step w.start (.init true :: events ++
      rounds.flatMap fun round => round.1 ++ round.2.events)).pmu.link.history) :
    ((w.requested events).map NumberedRequest.frame).Sublist (dispatchedFrames reads) := by
  obtain ⟨times, before, after, htimes, hbefore, -, hread⟩ :=
    exists_delivered hfits horderly hrounds hstream
  rw [hread, List.flatMap_append, ← hbefore]
  exact (map_sublist_flatMap_replicate _ _ htimes).trans (List.sublist_append_left _ _)

/-- Seconds in which the PMU says nothing. -/
def silentRounds (n : ℕ) : List (List Event × FreeSecond) := List.replicate n ([], silentSecond)

theorem mem_silentRounds {n : ℕ} {e : Event}
    (h : e ∈ (silentRounds n).flatMap fun round => round.1 ++ round.2.events) :
    e = .elapse 1000001 ∨ e = .tick ∨ e = .writeWatch (fun _ => .written 4096) .again := by
  obtain ⟨round, hround, hevent⟩ := List.mem_flatMap.mp h
  obtain rfl := List.eq_of_mem_replicate hround
  simpa [FreeSecond.events, FreeSecond.waiting, silentSecond] using hevent

theorem fits_silentRounds (n : ℕ) :
    ∀ e ∈ (silentRounds n).flatMap fun round => round.1 ++ round.2.events, e.Fits := by
  intro e he
  obtain rfl | rfl | rfl := mem_silentRounds he <;> trivial

/-- What is on the line after four silent seconds for each request of the initialisation. -/
def silentRead : Read :=
  ⟨wire (run step plain.start (.init true :: [] ++
      (silentRounds 24).flatMap fun round => round.1 ++ round.2.events)).pmu.link.history,
    by decide +kernel, by decide +kernel⟩

theorem requests_delivered_silent :
    ((plain.requested []).map NumberedRequest.frame).Sublist (dispatchedFrames [silentRead]) := by
  have hstream : streamOf [silentRead] = wire (run step plain.start (.init true :: [] ++
      (silentRounds 24).flatMap fun round => round.1 ++ round.2.events)).pmu.link.history := by
    rw [streamOf, List.map_singleton, List.flatten_singleton, silentRead]
  exact requests_delivered_run plain [] (silentRounds 24) (fits_silentRounds 24)
    (by decide +kernel) (by decide +kernel) [silentRead] hstream

end World
end PcatManager
