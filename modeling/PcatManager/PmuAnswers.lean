import PcatManager.ClosedPort
import PcatManager.RequestLog
import PcatManager.SerialReadBounds

/-!
# What the PMU is answered

The acknowledgements among the enqueued commands. Every frame of the received stream that
asks for one gets exactly one, in the order of the frames and with their frame numbers,
whatever else happens in between.
-/

namespace PcatManager
open SerialFrame SerialReadParser GuardedRun RunTrace

/-- The commands that answer a request of the PMU. -/
def isAnswer (command : UInt16) : Bool :=
  command = commandStatusReport + 1 || command = commandPmuRequestShutdown + 1 ||
    command = commandPmuRequestFactoryReset + 1

/-- The acknowledgement of a frame that asks for one. -/
def acknowledgement? (f : Frame) (extraData : List UInt8) : Option CommandContent :=
  if f.needAck then
    some ⟨f.command + 1, f.frameNum, false,
      serialWriteFrame f.frameNum (f.command + 1) extraData false⟩
  else none

/-- What a received frame is answered: status reports that are long enough, and the two
requests of the PMU. -/
def answer? (f : Frame) : Option CommandContent :=
  if !World.forHost f then none
  else if f.command = commandStatusReport then
    if f.extraData.length < 16 then none else acknowledgement? f []
  else if f.command = commandPmuRequestShutdown then acknowledgement? f []
  else if f.command = commandPmuRequestFactoryReset then acknowledgement? f [0]
  else none

/-- The daemon gives a frame number to acknowledgements and to nothing else. -/
def DataRequest.Proper (r : DataRequest) : Prop := r.frameNum.isSome = isAnswer r.command

/-- The acknowledgement that a request is. -/
def DataRequest.answer? (r : DataRequest) : Option CommandContent :=
  if isAnswer r.command then
    some ⟨r.command, r.frameNum.getD 0, r.needAck,
      serialWriteFrame (r.frameNum.getD 0) r.command r.extraData r.needAck⟩
  else none

/-- A request of the daemon's own: no acknowledgement and no frame number. -/
structure DataRequest.Unprompted (r : DataRequest) : Prop where
  frameNum : r.frameNum = none
  command : isAnswer r.command = false

theorem DataRequest.Unprompted.proper {r : DataRequest} (h : r.Unprompted) : r.Proper := by
  rw [DataRequest.Proper, h.frameNum, h.command]
  rfl

theorem DataRequest.Unprompted.answer? {r : DataRequest} (h : r.Unprompted) : r.answer? = none := by
  rw [DataRequest.answer?, h.command, if_neg Bool.false_ne_true]

theorem filter_isAnswer_numbered (n : UInt16) {requests : List DataRequest}
    (hproper : ∀ r ∈ requests, r.Proper) :
    (((numbered n requests).map NumberedRequest.content).filter fun c => isAnswer c.command) =
      requests.filterMap DataRequest.answer? := by
  induction requests generalizing n with
  | nil => rfl
  | cons r requests ih =>
    rw [List.forall_mem_cons] at hproper
    obtain ⟨hr, hrest⟩ := hproper
    rw [numbered, List.map_cons]
    cases hanswer : isAnswer r.command with
    | false =>
      rw [List.filter_cons_of_neg (by simp [NumberedRequest.content, hanswer]), ih _ hrest,
        List.filterMap_cons_none (by simp [DataRequest.answer?, hanswer])]
    | true =>
      obtain ⟨k, hk⟩ := Option.isSome_iff_exists.mp (hr.trans hanswer)
      have hsome : r.answer? = some (NumberedRequest.content ⟨r, r.frameNum.getD n⟩) := by
        simp [DataRequest.answer?, hanswer, NumberedRequest.content, hk]
      rw [List.filter_cons_of_pos (by simp [NumberedRequest.content, hanswer]), ih _ hrest,
        List.filterMap_cons_some hsome]

namespace World
variable (w : World)

theorem answers_ackRequests {f : Frame} (hanswer : isAnswer (f.command + 1) = true)
    (extraData : List UInt8) :
    (ackRequests f extraData).filterMap DataRequest.answer? = (acknowledgement? f extraData).toList := by
  rw [ackRequests, acknowledgement?]
  cases f.needAck with
  | false => rfl
  | true => simp [DataRequest.answer?, hanswer]

theorem answers_clockRequests (pmuTime : Option UnixTime) :
    (w.clockRequests pmuTime).filterMap DataRequest.answer? = [] := by
  rw [clockRequests]
  split <;> rfl

theorem answers_frameRequests (f : Frame) :
    (w.frameRequests f).filterMap DataRequest.answer? = (PcatManager.answer? f).toList := by
  rw [frameRequests, PcatManager.answer?]
  cases forHost f with
  | false => rfl
  | true =>
    rw [if_pos rfl, handleRequests, Bool.not_true, if_neg Bool.false_ne_true]
    by_cases hstatus : f.command = commandStatusReport
    · rw [if_pos hstatus, if_pos hstatus]
      split
      · rfl
      · rw [List.filterMap_append, answers_clockRequests, List.nil_append]
        exact answers_ackRequests (by rw [hstatus]; rfl) []
    rw [if_neg hstatus, if_neg hstatus]
    by_cases hask : f.command = commandPmuRequestShutdown
    · rw [if_pos hask, if_pos hask]
      exact answers_ackRequests (by rw [hask]; rfl) []
    rw [if_neg hask, if_neg hask]
    by_cases hreset : f.command = commandPmuRequestFactoryReset
    · rw [if_pos hreset, if_pos hreset]
      exact answers_ackRequests (by rw [hreset]; rfl) [0]
    rw [if_neg hreset, if_neg hreset]
    rfl

theorem unprompted_syncRequest : w.syncRequest.Unprompted := ⟨rfl, rfl⟩

theorem unprompted_scheduleRequests : ∀ r ∈ w.scheduleRequests, r.Unprompted := by
  rw [scheduleRequests]
  cases w.userConfig.powerScheduleData with
  | none => exact List.forall_mem_nil _
  | some schedule =>
    dsimp only
    split
    · exact List.forall_mem_singleton.mpr ⟨rfl, rfl⟩
    · exact List.forall_mem_nil _

theorem unprompted_watchdogRequests (timeout : UInt32) :
    ∀ r ∈ w.watchdogRequests timeout, r.Unprompted := by
  rw [watchdogRequests]
  split
  · exact List.forall_mem_nil _
  · exact List.forall_mem_singleton.mpr ⟨rfl, rfl⟩

theorem unprompted_tickRequests : ∀ r ∈ w.tickRequests, r.Unprompted := by
  rw [tickRequests]
  split
  · exact List.forall_mem_nil _
  · rw [List.forall_mem_append]
    constructor
    · split
      · exact List.forall_mem_singleton.mpr ⟨rfl, rfl⟩
      · exact List.forall_mem_nil _
    · rw [modemRequests]
      split
      · exact List.forall_mem_singleton.mpr ⟨rfl, rfl⟩
      · exact List.forall_mem_nil _

theorem unprompted_initialRequests : ∀ r ∈ w.initialRequests, r.Unprompted := by
  rw [initialRequests, List.forall_mem_append]
  refine ⟨w.unprompted_scheduleRequests, ?_⟩
  simp only [List.forall_mem_cons]
  exact ⟨w.unprompted_syncRequest, ⟨rfl, rfl⟩, ⟨rfl, rfl⟩, ⟨rfl, rfl⟩, ⟨rfl, rfl⟩, ⟨rfl, rfl⟩,
    List.forall_mem_nil _⟩

theorem unprompted_eventRequests {e : Event} (hread : ∀ r, e ≠ .read r)
    (hbare : ∀ command frameNum extraData needAck,
      e ≠ .request command frameNum extraData needAck) :
    ∀ r ∈ w.eventRequests e, r.Unprompted := by
  have hguarded {r : DataRequest} (hr : r.Unprompted) :
      ∀ r' ∈ if w.pmu.initialized then [r] else [], r'.Unprompted := by
    split
    · exact List.forall_mem_singleton.mpr hr
    · exact List.forall_mem_nil _
  cases e with
  | read r => exact absurd rfl (hread r)
  | request command frameNum extraData needAck => exact absurd rfl (hbare _ _ _ _)
  | tick => exact w.unprompted_tickRequests
  | watchdogTimeoutSet timeout => exact w.unprompted_watchdogRequests timeout
  | shutdownRequest => exact List.forall_mem_singleton.mpr ⟨rfl, rfl⟩
  | rebootRequest => exact w.unprompted_watchdogRequests 60
  | scheduleTimeUpdate =>
    rw [eventRequests]
    split
    · exact w.unprompted_scheduleRequests
    · exact List.forall_mem_nil _
  | chargerOnAutoStart state => exact hguarded ⟨rfl, rfl⟩
  | netStatusLedSetup onTime downTime repeatTimes => exact hguarded ⟨rfl, rfl⟩
  | voltageThresholdSet a b c d e f g h => exact hguarded ⟨rfl, rfl⟩
  | init opened => exact List.forall_mem_nil _
  | writeWatch writes wsize => exact List.forall_mem_nil _
  | elapse microseconds => exact List.forall_mem_nil _
  | setClock t => exact List.forall_mem_nil _
  | configure config => exact List.forall_mem_nil _
  | modem deviceType => exact List.forall_mem_nil _

theorem proper_ackRequests {f : Frame} (hanswer : isAnswer (f.command + 1) = true)
    (extraData : List UInt8) : ∀ r ∈ ackRequests f extraData, r.Proper := by
  rw [ackRequests]
  split
  · exact List.forall_mem_singleton.mpr hanswer.symm
  · exact List.forall_mem_nil _

theorem proper_frameRequests (f : Frame) : ∀ r ∈ w.frameRequests f, r.Proper := by
  rw [frameRequests, handleRequests]
  split_ifs with hhost hstatus hlen hask hreset
  · exact List.forall_mem_nil _
  · rw [List.forall_mem_append]
    constructor
    · rw [clockRequests]
      split
      · exact List.forall_mem_singleton.mpr w.unprompted_syncRequest.proper
      · exact List.forall_mem_nil _
    · exact proper_ackRequests (by rw [hstatus]; rfl) []
  · exact proper_ackRequests (by rw [hask]; rfl) []
  · exact proper_ackRequests (by rw [hreset]; rfl) [0]
  · exact List.forall_mem_nil _
  · exact List.forall_mem_nil _

theorem proper_eventRequests {e : Event}
    (hbare : ∀ command frameNum extraData needAck,
      e ≠ .request command frameNum extraData needAck) : ∀ r ∈ w.eventRequests e, r.Proper := by
  by_cases hread : ∃ r, e = .read r
  · obtain ⟨r, rfl⟩ := hread
    rw [eventRequests]
    split
    · exact forall_mem_trace (q := fun _ => True) (fun w f _ => w.proper_frameRequests f) w
        fun _ _ => trivial
    · exact List.forall_mem_nil _
  · exact fun r hr => (w.unprompted_eventRequests (fun r he => hread ⟨r, he⟩) hbare r hr).proper

theorem answers_read (r : Read) :
    (w.eventRequests (.read r)).filterMap DataRequest.answer? =
      (if w.pmu.serialChannel then w.framesRead r else []).filterMap PcatManager.answer? := by
  rw [eventRequests]
  split
  · rw [trace_filterMap]
    simp only [answers_frameRequests]
    rw [trace_of_events, List.filterMap_eq_flatMap_toList]
  · rfl

end World

namespace MainLoop
variable (s : MainLoop)

/-- The reads of the serial port that an event lets a running daemon see. -/
def readsSeen (e : MainEvent) : List Read :=
  match s.stepEvent? e with
  | some (.read r) => if s.world.pmu.serialChannel then [r] else []
  | _ => []

def framesSeen (e : MainEvent) : List Frame := (s.readsSeen e).flatMap s.world.framesRead

/-- No function of the program calls the write function as a bare request does. -/
theorem stepEvent?_ne_request {s : MainLoop} {e : MainEvent} {e' : Event}
    (h : s.stepEvent? e = some e') (hbare : ¬e.IsBareRequest) (command : UInt16)
    (frameNum : Option UInt16) (extraData : List UInt8) (needAck : Bool) :
    e' ≠ .request command frameNum extraData needAck := by
  rintro rfl
  cases comesFrom_of_stepEvent? h with
  | manager => exact hbare trivial

theorem proper_stepRequests {e : MainEvent} (hbare : ¬e.IsBareRequest) :
    ∀ r ∈ s.stepRequests e, r.Proper := by
  rw [stepRequests]
  cases h : s.stepEvent? e with
  | none => exact List.forall_mem_nil _
  | some e' => exact s.world.proper_eventRequests (stepEvent?_ne_request h hbare)

theorem answers_stepRequests {e : MainEvent} (hbare : ¬e.IsBareRequest) :
    (s.stepRequests e).filterMap DataRequest.answer? =
      (s.framesSeen e).filterMap PcatManager.answer? := by
  rw [framesSeen, stepRequests, readsSeen]
  cases h : s.stepEvent? e with
  | none => rfl
  | some e' =>
    by_cases hread : ∃ r, e' = .read r
    · obtain ⟨r, rfl⟩ := hread
      refine (s.world.answers_read r).trans ?_
      dsimp only
      split
      · rw [List.flatMap_singleton]
      · rfl
    · have hunprompted := s.world.unprompted_eventRequests (fun r he => hread ⟨r, he⟩)
        (stepEvent?_ne_request h hbare)
      have hnone : (s.world.eventRequests e').filterMap DataRequest.answer? = [] :=
        List.filterMap_eq_nil_iff.mpr fun r hr => (hunprompted r hr).answer?
      refine hnone.trans ?_
      cases e' with
      | read r => exact absurd ⟨r, rfl⟩ hread
      | _ => rfl

theorem serialReadBuffer_unread {e : MainEvent} (h : s.readsSeen e = []) :
    (s.step e).world.pmu.serialReadBuffer = s.world.pmu.serialReadBuffer := by
  rw [readsSeen] at h
  obtain hworld | ⟨-, sendPmuRequest, -, hworld⟩ := s.world_step e
  · rw [hworld]
    cases hevent : s.stepEvent? e with
    | none => rfl
    | some e' =>
      rw [hevent] at h
      change (s.world.step e').pmu.serialReadBuffer = _
      by_cases hread : ∃ r, e' = .read r
      · obtain ⟨r, rfl⟩ := hread
        cases hchannel : s.world.pmu.serialChannel with
        | true => simp [hchannel] at h
        | false => rw [World.step, hchannel, if_neg Bool.false_ne_true]
      · exact World.keptByTick_serialReadBuffer.step (fun _ _ _ _ _ => rfl) s.world e'
          (stepEvent?_ne_init hevent) (fun r he => hread ⟨r, he⟩) (fun _ _ => rfl) fun _ _ => rfl
  · rw [hworld]
    rfl

theorem serialReadBuffer_read {e : MainEvent} {r : Read} (h : s.readsSeen e = [r]) :
    (s.step e).world.pmu.serialReadBuffer =
      (serialReadStep (fun frames f => frames ++ [f]) s.world.pmu.serialReadBuffer ([] : List Frame)
        r.bytes).1 := by
  rw [readsSeen] at h
  cases hevent : s.stepEvent? e with
  | none => simp [hevent] at h
  | some e' =>
    rw [hevent] at h
    obtain hworld | ⟨hnone, -⟩ := s.world_step e
    · cases e' with
      | read r' =>
        cases hchannel : s.world.pmu.serialChannel with
        | false => simp [hchannel] at h
        | true =>
          rw [hchannel] at h
          obtain rfl : r' = r := List.singleton_inj.mp h
          rw [hworld, hevent]
          change (s.world.step (.read r')).pmu.serialReadBuffer = _
          rw [World.step, hchannel, if_pos rfl]
          exact buffer_serialReadStep World.dispatchFrame _ _ _ s.world []
      | _ => cases h
    · cases hnone.symm.trans hevent

theorem serialReadStep_snoc (buffer : List UInt8) (frames : List Frame) (chunk : List UInt8) :
    serialReadStep (fun frames f => frames ++ [f]) buffer frames chunk =
      ((serialReadStep (fun frames f => frames ++ [f]) buffer ([] : List Frame) chunk).1,
        frames ++ (serialReadStep (fun frames f => frames ++ [f]) buffer [] chunk).2) := by
  refine Prod.ext (buffer_serialReadStep _ _ _ _ _ _) ?_
  unfold serialReadStep
  dsimp only
  rw [(serialReadDataParse_spec _ _ frames).1, (serialReadDataParse_spec _ _ []).1, foldl_snoc,
    foldl_snoc, List.nil_append]

/-- What is dispatched over a run is what the parser finds in the reads of the run. -/
theorem frames_run (events : List MainEvent) (frames : List Frame) :
    (serialReadRun (fun frames f => frames ++ [f]) s.world.pmu.serialReadBuffer frames
      (trace step readsSeen s events)).2 = frames ++ trace step framesSeen s events := by
  induction events generalizing s frames with
  | nil => exact (List.append_nil frames).symm
  | cons e events ih =>
    rw [trace_cons, trace_cons, framesSeen, ← List.append_assoc]
    have hreads : s.readsSeen e = [] ∨ ∃ r, s.readsSeen e = [r] := by
      rw [readsSeen]
      split
      · split
        · exact .inr ⟨_, rfl⟩
        · exact .inl rfl
      · exact .inl rfl
    obtain hnone | ⟨r, hread⟩ := hreads
    · have hbuffer := s.serialReadBuffer_unread hnone
      rw [hnone, List.nil_append, List.flatMap_nil, List.append_nil, ← hbuffer]
      exact ih _ _
    · rw [hread, List.singleton_append, List.flatMap_singleton, ← ih, serialReadBuffer_read s hread,
        serialReadRun, List.foldl_cons, serialReadStep_snoc]
      rfl

theorem serialReadBuffer_start (w : World) (requestFile : Bool) :
    (start w true requestFile).world.pmu.serialReadBuffer = [] :=
  World.keptByTick_serialReadBuffer.link (World.requests_initRequests
    { w.start.resetForInit.serialOpen.setBatteryTables with
      pmu := { w.start.resetForInit.serialOpen.setBatteryTables.pmu with
        initialized := true } }).sameButLink

/-- The acknowledgements that a run asks for are those of its frames. -/
theorem answers_trace {events : List MainEvent} (hbare : ∀ e ∈ events, ¬e.IsBareRequest) :
    (trace step stepRequests s events).filterMap DataRequest.answer? =
      (trace step framesSeen s events).filterMap PcatManager.answer? := by
  rw [trace_filterMap, trace_filterMap]
  exact trace_congr (I := fun _ => True) (fun _ _ _ _ => trivial)
    (fun s e he _ => s.answers_stepRequests he) trivial hbare

theorem proper_runRequests (w : World) (requestFile : Bool) {events : List MainEvent}
    (hbare : ∀ e ∈ events, ¬e.IsBareRequest) :
    ∀ r ∈ runRequests w true requestFile events, r.Proper := by
  have hrun : ∀ r ∈ trace step stepRequests (start w true requestFile) events, r.Proper :=
    forall_mem_trace (q := fun e => ¬e.IsBareRequest) (fun s _ he => s.proper_stepRequests he) _
      hbare
  rw [runRequests, if_pos rfl, List.forall_mem_append]
  exact ⟨fun r hr => (w.unprompted_initialRequests r hr).proper, hrun⟩

/-- Over every run of the daemon on an open port the acknowledgements enqueued are, in order,
those that the frames of the received stream ask for, one for each. -/
theorem answers_run (w : World) (requestFile : Bool) (events : List MainEvent)
    (hbare : ∀ e ∈ events, ¬e.IsBareRequest) :
    ((run step (start w true requestFile) events).world.enqueued.filter fun c =>
        isAnswer c.command) =
      (dispatchedFrames (trace step readsSeen (start w true requestFile) events)).filterMap
        PcatManager.answer? := by
  have hproper := proper_runRequests w requestFile hbare
  have hunasked : w.initialRequests.filterMap DataRequest.answer? = [] :=
    List.filterMap_eq_nil_iff.mpr fun r hr => (w.unprompted_initialRequests r hr).answer?
  have hframes := frames_run (start w true requestFile) events []
  rw [serialReadBuffer_start, List.nil_append] at hframes
  rw [enqueued_runRequests, filter_isAnswer_numbered 0 hproper, runRequests, if_pos rfl,
    List.filterMap_append, hunasked, List.nil_append, answers_trace _ hbare, ← hframes,
    dispatchedFrames]

/-- The PMU asks for a shutdown and wants an answer. -/
def askingRead : Read :=
  ⟨(⟨0x81, 0x01, 7, le16 commandPmuRequestShutdown ++ [1], by simp, by simp⟩ : WireFrame).bytes,
    by decide, by decide⟩

theorem answers_run_shutdown :
    ((run step (start World.plain true false)
        [.manager .tick, .manager (.read askingRead), .manager .tick]).world.enqueued.filter
      fun c => isAnswer c.command) =
      [⟨commandPmuRequestShutdown + 1, 7, false,
        serialWriteFrame 7 (commandPmuRequestShutdown + 1) [] false⟩] :=
  (answers_run World.plain false [.manager .tick, .manager (.read askingRead), .manager .tick]
    (by simp [MainEvent.IsBareRequest])).trans (by decide +kernel)

end MainLoop
end PcatManager
