import PcatManager.LoopIterations
import PcatManager.RoutePolicy
import PcatManager.VoltageThresholds

/-!
# The network status LED

The timer of `main.c` that shows the route mode on the LED of the PMU. Two threads change the
mode at any time and without a lock, and a check reads it three times: to compare it, to choose
the pattern and to remember it. Every access is a step of its own here.
-/

namespace PcatManager
open SerialFrame GuardedRun RunTrace ChangeNotifier

/-- `g_pcat_main_net_status_led_work_mode`, which nothing changes. -/
def netStatusLedWorkMode : Bool := true

/-- How the LED shows a route mode: on time, down time and repeat times. -/
def ledPattern : RouteMode → UInt32 × UInt32 × UInt32
  | .wired => (50, 50, 0)
  | .mobile => (20, 380, 0)
  | .unknown => (100, 0, 0)
  | .none => (0, 100, 0)

/-- Where the main loop stands: between two checks, or in one, before its `switch` or before it
stores the mode. -/
inductive CheckPoint where
  | between
  | switching
  | storing
  deriving DecidableEq, Repr

/-- The main loop with `g_pcat_main_network_route_mode` and
`g_pcat_main_net_status_led_applied_mode`. The last field is not part of the program: the mode
that the LED was last set up for. -/
structure StatusLed where
  loop : MainLoop
  networkRouteMode : RouteMode := .none
  appliedMode : RouteMode := .none
  point : CheckPoint := .between
  shown : RouteMode := .none

/-- A thread sets the route mode, the timer of the status check fires and compares, the check
chooses a pattern, it stores the mode, or the main loop dispatches something else. -/
inductive LedEvent where
  | routeMode (mode : RouteMode)
  | statusCheck
  | statusSwitch
  | statusStore
  | main (e : MainEvent)

/-- The event calls for a pattern of the LED by itself. Only the status check does so. -/
def LedEvent.SetsLed : LedEvent → Prop
  | .main (.manager (.netStatusLedSetup _ _ _)) => True
  | _ => False

def LedEvent.IsBareRequest : LedEvent → Prop
  | .main e => e.IsBareRequest
  | _ => False

namespace StatusLed

/-- The call of `pcat_pmu_manager_net_status_led_setup` for a route mode. -/
def ledSetup (mode : RouteMode) : MainEvent :=
  let (onTime, downTime, repeatTimes) := ledPattern mode
  .manager (.netStatusLedSetup onTime downTime repeatTimes)

/-- What a branch of the `switch` makes the daemon do. -/
def switchEvents (mode : RouteMode) : List MainEvent :=
  if netStatusLedWorkMode then [ledSetup mode] else []

/-- One step. The main loop dispatches nothing in the middle of a check. -/
def step (s : StatusLed) : LedEvent → StatusLed
  | .routeMode mode => { s with networkRouteMode := mode }
  | .statusCheck =>
    if s.point = .between ∧ s.appliedMode ≠ s.networkRouteMode then { s with point := .switching }
    else s
  | .statusSwitch =>
    if s.point = .switching then
      { s with
        loop := run MainLoop.react s.loop (switchEvents s.networkRouteMode)
        point := .storing
        shown := s.networkRouteMode }
    else s
  | .statusStore =>
    if s.point = .storing then { s with appliedMode := s.networkRouteMode, point := .between }
    else s
  | .main e => if s.point = .between then { s with loop := s.loop.react e } else s

/-- `pcat_main_status_check_timeout_func` where no thread comes in between. -/
def statusCheckTimeoutFunc (s : StatusLed) : StatusLed :=
  if s.appliedMode ≠ s.networkRouteMode then
    { s with
      loop := run MainLoop.react s.loop (switchEvents s.networkRouteMode)
      appliedMode := s.networkRouteMode
      shown := s.networkRouteMode }
  else s

theorem run_statusCheck {s : StatusLed} (h : s.point = .between) :
    run step s [.statusCheck, .statusSwitch, .statusStore] = s.statusCheckTimeoutFunc := by
  obtain ⟨loop, networkRouteMode, appliedMode, point, shown⟩ := s
  subst h
  by_cases hsame : appliedMode = networkRouteMode
  · simp [step, statusCheckTimeoutFunc, hsame]
  · simp [step, statusCheckTimeoutFunc, hsame]

/-- The program when its loop starts to run. -/
def start (w : World) (requestFile : Bool) : StatusLed := { loop := MainLoop.start w true requestFile }

/-- The modes that the checks compare. -/
def modesSeen (s : StatusLed) : LedEvent → List RouteMode
  | .statusCheck => if s.point = .between then [s.networkRouteMode] else []
  | _ => []

/-- The modes that the checks choose a pattern for. -/
def modesShown (s : StatusLed) : LedEvent → List RouteMode
  | .statusSwitch => if s.point = .switching then [s.networkRouteMode] else []
  | _ => []

/-- The LED shows the mode that the next check compares with. -/
def Shows (s : StatusLed) : Prop := s.point = .between → s.shown = s.appliedMode

/-- The mode is the same when it is stored as when the pattern was chosen. -/
def StoresShown (s : StatusLed) (e : LedEvent) : Prop :=
  e = .statusStore → s.point = .storing → s.networkRouteMode = s.shown

/-- No thread sets the mode in the middle of a check. -/
def Undisturbed (s : StatusLed) : LedEvent → Prop
  | .routeMode _ => s.point = .between
  | _ => True

/-- The events of the main loop that an event leads to. -/
def mainEvents (s : StatusLed) : LedEvent → List MainEvent
  | .statusSwitch => if s.point = .switching then switchEvents s.networkRouteMode else []
  | .main e => if s.point = .between then [e] else []
  | _ => []

theorem loop_step (s : StatusLed) (e : LedEvent) :
    (s.step e).loop = run MainLoop.react s.loop (s.mainEvents e) := by
  cases e with
  | routeMode mode => rfl
  | statusCheck | statusSwitch | statusStore | main =>
    simp only [step, mainEvents]
    split <;> rfl

/-- The extra data for a route mode. -/
def ledData (mode : RouteMode) : List UInt8 :=
  let (onTime, downTime, repeatTimes) := ledPattern mode
  (World.ledRequest onTime downTime repeatTimes).extraData

theorem length_ledData (mode : RouteMode) : (ledData mode).length = 6 := by
  cases mode <;> rfl

/-- The LED commands that an event asks for. -/
def ledsAsked (s : StatusLed) (e : LedEvent) : List (List UInt8) :=
  ((trace MainLoop.react MainLoop.reactRequests s.loop (s.mainEvents e)).filter fun r =>
    r.command = commandNetStatusLedSetup).map DataRequest.extraData

variable {s : StatusLed}

theorem filter_reactRequests_eq_nil {loop : MainLoop} {e : MainEvent}
    (hbare : ¬(LedEvent.main e).IsBareRequest) (hset : ¬(LedEvent.main e).SetsLed) :
    (loop.reactRequests e).filter (fun r => r.command = commandNetStatusLedSetup) = [] := by
  rw [← MainLoop.stepRequests_resumed]
  apply MainLoop.filter_stepRequests_eq_nil
  intro e' hevent
  have hne := MainLoop.stepEvent?_ne_request hevent hbare
  cases e' with
  | request command frameNum extraData needAck => exact absurd rfl (hne _ _ _ _)
  | netStatusLedSetup onTime downTime repeatTimes =>
    cases MainLoop.comesFrom_of_stepEvent? hevent with
    | manager => exact absurd trivial hset
  | _ => simp only [World.eventCommands]; decide

theorem ledsAsked_eq (hinitialized : s.loop.world.pmu.initialized = true) {e : LedEvent}
    (hbare : ¬e.IsBareRequest) (hset : ¬e.SetsLed) :
    s.ledsAsked e = (s.modesShown e).map ledData := by
  cases e with
  | statusSwitch =>
    rw [ledsAsked, mainEvents, modesShown]
    split
    · have hrequests : s.loop.reactRequests (ledSetup s.networkRouteMode) =
          [World.ledRequest (ledPattern s.networkRouteMode).1 (ledPattern s.networkRouteMode).2.1
            (ledPattern s.networkRouteMode).2.2] := if_pos hinitialized
      have hworks : netStatusLedWorkMode = true := rfl
      rw [switchEvents, if_pos hworks, trace_cons, trace_nil, List.append_nil, hrequests]
      rfl
    · rfl
  | main e =>
    rw [ledsAsked, mainEvents]
    split
    · rw [trace_cons, trace_nil, List.append_nil, filter_reactRequests_eq_nil hbare hset]
      rfl
    · rfl
  | _ => rfl

theorem initialized_step (s : StatusLed) (e : LedEvent) :
    (s.step e).loop.world.pmu.initialized = s.loop.world.pmu.initialized := by
  rw [loop_step]
  exact (MainLoop.asks_run_react _ _).initialized

theorem leds_trace {events : List LedEvent} (hinitialized : s.loop.world.pmu.initialized = true)
    (hevents : ∀ e ∈ events, ¬e.IsBareRequest ∧ ¬e.SetsLed) :
    trace step ledsAsked s events = (trace step modesShown s events).map ledData := by
  rw [trace_map]
  exact trace_congr (I := fun s => s.loop.world.pmu.initialized = true)
    (fun s e _ hs => (s.initialized_step e).trans hs) (fun _ _ he hs => ledsAsked_eq hs he.1 he.2)
    hinitialized hevents

/-- A step keeps the LED in line with the stored mode exactly when it does not store another
one than it has shown. -/
theorem shows_step_iff (h : s.Shows) (e : LedEvent) : (s.step e).Shows ↔ s.StoresShown e := by
  cases e with
  | statusStore =>
    rw [step, StoresShown, imp_iff_right rfl]
    split
    · rename_i hstoring
      rw [Shows, imp_iff_right rfl, imp_iff_right hstoring, eq_comm]
    · rename_i hnot
      exact iff_of_true h fun hstoring => absurd hstoring hnot
  | routeMode mode => exact iff_of_true h fun he => nomatch he
  | statusCheck | statusSwitch =>
    refine iff_of_true ?_ fun he => nomatch he
    rw [step]
    split
    · exact fun hpoint => nomatch hpoint
    · exact h
  | main e =>
    refine iff_of_true ?_ fun he => nomatch he
    rw [step]
    split <;> exact h

/-- What a check that is under way has still to show, and the mode it was told of before the
next check. -/
def pending (s : StatusLed) : List RouteMode :=
  if s.point = .switching then [s.networkRouteMode] else []

def told (s : StatusLed) : RouteMode :=
  if s.point = .between then s.appliedMode else s.networkRouteMode

/-- Undisturbed checks show the changes among the modes they compare. -/
theorem modesShown_undisturbed {events : List LedEvent} (h : Along step Undisturbed s events)
    (hend : (run step s events).point = .between) :
    trace step modesShown s events = s.pending ++ changes s.told (trace step modesSeen s events) := by
  induction events generalizing s with
  | nil =>
    have hpoint : s.point = .between := hend
    simp [pending, hpoint]
  | cons e events ih =>
    have hrest := ih h.2 hend
    rw [trace_cons, trace_cons, hrest]
    cases e with
    | routeMode mode =>
      have hpoint : s.point = .between := h.1
      simp [modesShown, modesSeen, step, pending, told, hpoint]
    | statusCheck =>
      by_cases hpoint : s.point = .between
      · by_cases hsame : s.appliedMode = s.networkRouteMode
        · simp [modesShown, modesSeen, step, pending, told, hpoint, hsame]
        · simp [modesShown, modesSeen, step, pending, told, hpoint, hsame, changes_cons_ne]
      · simp [modesShown, modesSeen, step, hpoint]
    | statusSwitch =>
      by_cases hpoint : s.point = .switching
      · simp [modesShown, modesSeen, step, pending, told, hpoint]
      · simp [modesShown, modesSeen, step, hpoint]
    | statusStore =>
      by_cases hpoint : s.point = .storing
      · simp [modesShown, modesSeen, step, pending, told, hpoint]
      · simp [modesShown, modesSeen, step, hpoint]
    | main e =>
      by_cases hpoint : s.point = .between
      · simp [modesShown, modesSeen, step, pending, told, hpoint]
      · simp [modesShown, modesSeen, step, hpoint]

/-- In every run on an open port, in every order of the accesses, the LED commands enqueued are
the patterns of the modes that the checks choose one for. Between two checks the LED shows the
stored mode throughout exactly when every check stores the mode it has shown. And where no thread
sets the mode in the middle of a check, there is one command for each change among the modes
that the checks compare. -/
theorem leds_run (w : World) (requestFile : Bool) (events : List LedEvent)
    (hevents : ∀ e ∈ events, ¬e.IsBareRequest ∧ ¬e.SetsLed) :
    let s := start w requestFile
    ((run step s events).loop.world.enqueued.filter fun c =>
        c.command = commandNetStatusLedSetup).map CommandContent.extraData =
      (trace step modesShown s events).map ledData ∧
    (Along step (fun s e => (s.step e).Shows) s events ↔ Along step StoresShown s events) ∧
    (Along step Undisturbed s events → (run step s events).point = .between →
      trace step modesShown s events = changes .none (trace step modesSeen s events)) := by
  intro s
  refine ⟨?_, ?_, fun h hend => modesShown_undisturbed h hend⟩
  · have hinitialized : s.loop.world.pmu.initialized = true :=
      (World.served_managerInit w.start true rfl rfl).1.trans (MainLoop.asks_start w true requestFile).1
    have hinitial : w.initialRequests.filter (fun r => r.command = commandNetStatusLedSetup) = [] := by
      rw [List.filter_eq_nil_iff]
      intro r hr hcommand
      have hmem := w.command_initialRequests r hr
      rw [of_decide_eq_true hcommand] at hmem
      exact absurd hmem (by decide)
    have hasked : ((w.initialRequests ++ trace MainLoop.react MainLoop.reactRequests
        (MainLoop.start w true requestFile) (trace step mainEvents s events)).filter fun r =>
          r.command = commandNetStatusLedSetup).map DataRequest.extraData =
        (trace step modesShown s events).map ledData := by
      rw [List.filter_append, hinitial, List.nil_append]
      change ((trace MainLoop.react MainLoop.reactRequests s.loop _).filter _).map _ = _
      rw [trace_refines loop_step, trace_filter_map]
      exact leds_trace hinitialized hevents
    rw [run_refines loop_step]
    refine (congrArg (fun enqueued : List CommandContent => (enqueued.filter _).map _)
      (MainLoop.enqueued_run_react w requestFile _)).trans ?_
    refine (extraData_numbered 0 commandNetStatusLedSetup ?_).trans hasked
    intro r hr hcommand
    have hmem := List.mem_map_of_mem (f := DataRequest.extraData) (List.mem_filter
      (p := fun r => r.command = commandNetStatusLedSetup).mpr ⟨hr, by simpa using hcommand⟩)
    rw [hasked] at hmem
    obtain ⟨mode, -, hdata⟩ := List.mem_map.mp hmem
    rw [← hdata, length_ledData]
    decide
  · exact along_iff (I := Shows) (fun _ _ _ hnext => hnext) (fun _ e h => shows_step_iff h e)
      (fun _ => rfl) events

/-- The mode changes between the choice of a pattern and the end of the check. -/
def tornCheck : List LedEvent :=
  [.routeMode .wired, .statusCheck, .statusSwitch, .routeMode .mobile, .statusStore,
    .main (.manager .tick), .statusCheck]

theorem leds_run_torn :
    ((run step (start World.plain false) tornCheck).loop.world.enqueued.filter fun c =>
      c.command = commandNetStatusLedSetup).map CommandContent.extraData = [ledData .wired] ∧
    ¬Along step (fun s e => (s.step e).Shows) (start World.plain false) tornCheck := by
  have hrun := leds_run World.plain false tornCheck
    (by simp [tornCheck, LedEvent.IsBareRequest, LedEvent.SetsLed, MainEvent.IsBareRequest])
  refine ⟨hrun.1.trans (by decide +kernel), fun hshows => ?_⟩
  have hstores := hrun.2.1.mp hshows
  exact absurd (hstores.2.2.2.2.1 rfl rfl) (by decide)

end StatusLed
end PcatManager
