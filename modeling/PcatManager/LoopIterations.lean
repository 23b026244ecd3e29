import PcatManager.LoopPasses
import PcatManager.RequestLog

/-!
# The iterations of the main loop

`g_main_loop_run` dispatches in one iteration every source that is pending when it begins.
`g_main_loop_quit` ends the loop after that iteration, so what is pending together with the
event that quits the loop is still dispatched.
-/

namespace PcatManager
open SerialFrame SerialReadParser GuardedRun RunTrace LoopPasses

/-- The sources of the main context that are one of a kind. -/
inductive Source where
  | sigterm
  | sigusr1
  | shutdownCheck
  | rebootCheck
  | checkTimeout
  | serialRead
  | serialWrite
  deriving DecidableEq

/-- The source that an event comes from. Clients, files, clocks and threads are none of them:
several of their events can fall into one iteration. -/
def MainEvent.source? : MainEvent → Option Source
  | .sigterm => some .sigterm
  | .sigusr1 => some .sigusr1
  | .shutdownCheck => some .shutdownCheck
  | .rebootCheck => some .rebootCheck
  | .manager .tick => some .checkTimeout
  | .manager (.read _) => some .serialRead
  | .manager (.writeWatch _ _) => some .serialWrite
  | _ => none

/-- A pending source is dispatched once. -/
def OncePerSource (pending : List MainEvent) : Prop := (pending.filterMap MainEvent.source?).Nodup

instance (pending : List MainEvent) : Decidable (OncePerSource pending) :=
  inferInstanceAs (Decidable (List.Nodup _))

theorem OncePerSource.countP_le {pending : List MainEvent} (h : OncePerSource pending)
    (source : Source) : (pending.countP fun e => e.source? = some source) ≤ 1 := by
  have hcount := List.nodup_iff_count_le_one.mp h source
  rw [List.count, List.countP_filterMap] at hcount
  refine (le_of_eq (List.countP_congr fun e _ => ?_)).trans hcount
  cases e.source? <;> simp

theorem OncePerSource.of_append_right {first rest : List MainEvent}
    (h : OncePerSource (first ++ rest)) : OncePerSource rest :=
  h.sublist ((List.sublist_append_right first rest).filterMap _)

theorem OncePerSource.rest {first rest : List MainEvent} {e : MainEvent}
    (h : OncePerSource (first ++ e :: rest)) : OncePerSource rest :=
  h.of_append_right.sublist ((List.sublist_cons_self e rest).filterMap _)

theorem OncePerSource.notMem_rest {first rest : List MainEvent} {e : MainEvent} {source : Source}
    (hsource : e.source? = some source) (h : OncePerSource (first ++ e :: rest)) : e ∉ rest := by
  intro he
  rw [OncePerSource, List.filterMap_append, List.filterMap_cons_some hsource] at h
  have hrest := (List.nodup_cons.mp (List.Nodup.of_append_right h)).1
  exact hrest (List.mem_filterMap.mpr ⟨e, he, hsource⟩)

namespace MainLoop

/-- An iteration of `g_main_loop_run` over the sources that are pending. -/
def iterate : MainLoop → List MainEvent → MainLoop := LoopPasses.pass react MainLoop.quit

/-- The steps of the main loop are iterations in which one source is pending. -/
theorem run_step_eq_iterate (s : MainLoop) (events : List MainEvent) :
    run MainLoop.step s events = run iterate s (events.map fun e => [e]) := by
  induction events generalizing s with
  | nil => rfl
  | cons e events ih => exact ih (s.step e)

theorem quit_react (s : MainLoop) (e : MainEvent) (h : s.quit = true) : (s.react e).quit = true := by
  cases e with
  | sigterm =>
    rw [react, sigtermFunc, systemShutdown, systemReboot]
    split_ifs <;> first | exact h | rfl
  | shutdownCheck =>
    rw [react, shutdownCheckTimeoutFunc]
    split_ifs <;> first | exact h | rfl
  | rebootCheck =>
    rw [react, rebootCheckTimeoutFunc]
    split_ifs <;> first | exact h | rfl
  | manager e => cases e <;> exact h
  | _ => exact h

/-- What a dispatched event makes the daemon ask for. -/
def reactRequests (s : MainLoop) (e : MainEvent) : List DataRequest :=
  (s.managerEvent? e).elim [] s.world.eventRequests

/-- The same loop before it was quit. -/
def resumed (s : MainLoop) : MainLoop := { s with quit := false }

theorem stepEvent?_resumed (s : MainLoop) (e : MainEvent) :
    s.resumed.stepEvent? e = s.managerEvent? e := by
  cases e with
  | manager e => cases e <;> rfl
  | _ => rfl

theorem stepRequests_resumed (s : MainLoop) (e : MainEvent) :
    s.resumed.stepRequests e = s.reactRequests e := by
  rw [stepRequests, stepEvent?_resumed]
  rfl

theorem mem_reactRequests {s : MainLoop} {e : MainEvent} {r : DataRequest}
    (hr : r ∈ s.stepRequests e) : r ∈ s.reactRequests e := by
  rw [stepRequests, stepEvent?] at hr
  split at hr
  · cases hr
  · exact hr

/-- A call of `g_main_loop_quit` makes no difference to what the sources do. -/
theorem world_react (s : MainLoop) (e : MainEvent) : (s.react e).world = (s.resumed.step e).world := by
  change _ = (s.resumed.react e).world
  cases e with
  | sigterm =>
    change s.sigtermFunc.world = s.resumed.sigtermFunc.world
    rw [world_sigtermFunc_eq, world_sigtermFunc_eq]
    rfl
  | shutdownCheck =>
    rw [react, react, shutdownCheckTimeoutFunc, shutdownCheckTimeoutFunc]
    split_ifs <;> rfl
  | rebootCheck =>
    rw [react, react, rebootCheckTimeoutFunc, rebootCheckTimeoutFunc]
    split_ifs <;> rfl
  | manager e => cases e <;> rfl
  | _ => rfl

theorem asks_react (s : MainLoop) (e : MainEvent) :
    World.Asks s.world (s.react e).world (s.reactRequests e) := by
  have hasked := s.resumed.asks_step e
  rw [stepRequests_resumed, ← world_react] at hasked
  exact hasked

theorem asks_run_react (s : MainLoop) (events : List MainEvent) :
    World.Asks s.world (run react s events).world (trace react reactRequests s events) := by
  induction events generalizing s with
  | nil => exact .refl s.world
  | cons e events ih => exact (s.asks_react e).trans (ih _)

/-- On an open port what is dispatched enqueues its requests, also after the loop was quit. -/
theorem enqueued_run_react (w : World) (requestFile : Bool) (events : List MainEvent) :
    (run react (start w true requestFile) events).world.enqueued =
      (numbered 0 (w.initialRequests ++
        trace react reactRequests (start w true requestFile) events)).map NumberedRequest.content := by
  obtain ⟨hchannel, hcounter, hstart⟩ := asks_start w true requestFile
  rw [(asks_run_react _ events).enqueued, hchannel, hcounter, hstart, if_pos rfl, if_pos rfl,
    numbered_append, List.map_append]

end MainLoop
end PcatManager
