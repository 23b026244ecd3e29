import PcatManager.PlannedShutdown
import PcatManager.PmuReports

/-!
# The commands that are spawned

The daemon powers the host off and resets it to factory settings by commands that it spawns.
Over a run these are the commands that frames of the PMU ask for, one for each frame, those
of the power-offs that the timer decides, and those of the calls of
`pcat_main_request_shutdown`.
-/

namespace PcatManager
open SerialFrame SerialReadParser GuardedRun RunTrace

/-- The PMU asks for the factory settings. -/
def isFactoryReset (f : Frame) : Bool :=
  World.forHost f && f.command = commandPmuRequestFactoryReset

/-- What a frame makes the daemon spawn. -/
def spawnedFor? (f : Frame) : Option String :=
  if World.forHost f then
    if f.command = commandPmuRequestShutdown then some "poweroff"
    else if f.command = commandPmuRequestFactoryReset then some "pcat-factory-reset.sh"
    else none
  else none

namespace World
variable (w : World)

def spawned : List String := w.main.spawned

/-- From `w` to `w'` the timer has asked `n` times for a power-off. -/
structure Plans (n : ℕ) (w w' : World) : Prop where
  spawned : w'.spawned = w.spawned ++ List.replicate n "poweroff"
  requests : w'.powerOffRequests = w.powerOffRequests + n

section Plans
variable {w} {w' w'' : World} {m n : ℕ}

theorem Plans.of_main (h : w'.spawned = w.spawned)
    (hrequests : w'.powerOffRequests = w.powerOffRequests) : Plans 0 w w' :=
  ⟨h.trans (List.append_nil _).symm, hrequests⟩

theorem Plans.trans (h : Plans m w w') (h' : Plans n w' w'') : Plans (m + n) w w'' where
  spawned := by rw [h'.spawned, h.spawned, List.append_assoc, List.replicate_append_replicate]
  requests := by rw [h'.requests, h.requests, Nat.add_assoc]

theorem SameButLink.plans (h : SameButLink w w') : Plans 0 w w' := by
  obtain ⟨l, n, rfl⟩ := h
  exact .of_main rfl rfl

theorem plans_planShutdown (w : World) : Plans 1 w w.planShutdown :=
  ⟨rfl, (asked_planShutdown w).requests⟩

theorem exists_plans_powerScheduleLoop (dt : GregorianCalendar.DateTime)
    (schedule : List PowerScheduleData) (needAction : Bool) (w : World) :
    ∃ n, Plans n w (powerScheduleLoop dt schedule needAction w) := by
  induction schedule generalizing needAction w with
  | nil => exact ⟨0, .of_main rfl rfl⟩
  | cons sdata rest ih =>
    rw [powerScheduleLoop]
    split_ifs
    · exact ih needAction w
    · exact ih needAction w
    · dsimp only
      split
      · obtain ⟨n, hrest⟩ := ih (needAction || entryMatches dt sdata) w.planShutdown
        exact ⟨1 + n, (plans_planShutdown w).trans hrest⟩
      · exact ih _ w

theorem exists_plans_checkPlannedShutdown (w : World) : ∃ n, Plans n w w.checkPlannedShutdown := by
  rw [checkPlannedShutdown]
  split
  · split
    · exact ⟨1, plans_planShutdown w⟩
    · exact ⟨0, .of_main rfl rfl⟩
  · split
    · exact ⟨0, .of_main rfl rfl⟩
    · split
      · exact ⟨0, .of_main rfl rfl⟩
      · exact exists_plans_powerScheduleLoop _ _ _ w

theorem plans_checkTimeoutFunc (w : World) : Plans w.askedByTick w w.checkTimeoutFunc := by
  suffices h : ∃ n, Plans n w w.checkTimeoutFunc by
    obtain ⟨n, hplans⟩ := h
    have hrequests := hplans.requests.symm.trans (asked_checkTimeoutFunc w).requests
    rwa [Nat.add_left_cancel hrequests] at hplans
  have hfirst : Plans 0 w w.refreshChargerTimestamp := by
    rw [refreshChargerTimestamp]
    split <;> exact .of_main rfl rfl
  have hlast (w : World) : Plans 0 w
      (w.checkModemDevice.setLink (w.checkModemDevice.pmu.link.armWriteSource
        w.checkModemDevice.monotonicTime)) := by
    obtain ⟨deviceType, hsame⟩ := checkModemDevice_eq w
    have hmodem : Plans 0 w { w with pmu := { w.pmu with modemDeviceType := deviceType } } :=
      .of_main rfl rfl
    have harmed : Plans 0 w.checkModemDevice
        (w.checkModemDevice.setLink (w.checkModemDevice.pmu.link.armWriteSource
          w.checkModemDevice.monotonicTime)) := .of_main rfl rfl
    exact (hmodem.trans hsame.plans).trans harmed
  rw [checkTimeoutFunc]
  cases w.pmu.serialChannel with
  | false => exact ⟨0, .of_main rfl rfl⟩
  | true =>
    dsimp only
    rw [if_neg (by decide)]
    split
    · have hbeat := requests_serialWriteDataRequest w.refreshChargerTimestamp commandHeartbeat
        none [] false
      obtain ⟨n, hplans⟩ := exists_plans_checkPlannedShutdown
        (w.refreshChargerTimestamp.serialWriteDataRequest commandHeartbeat none [] false)
      exact ⟨_, ((hfirst.trans hbeat.sameButLink.plans).trans hplans).trans (hlast _)⟩
    · exact ⟨_, hfirst.trans (hlast _)⟩

end Plans

theorem SameButLink.spawned {w w' : World} (h : SameButLink w w') :
    w'.spawned = w.spawned := by
  obtain ⟨l, n, rfl⟩ := h
  rfl

theorem spawned_dispatchFrame (f : Frame) :
    (w.dispatchFrame f).spawned = w.spawned ++ (spawnedFor? f).toList := by
  have hacknowledge (w : World) (extraData : List UInt8) :
      (w.acknowledge f extraData).spawned = w.spawned :=
    (requests_acknowledge w f extraData).sameButLink.spawned
  rw [spawnedFor?]
  cases hhost : forHost f with
  | false =>
    rw [dispatchFrame, hhost, if_neg Bool.false_ne_true, if_neg Bool.false_ne_true]
    exact (List.append_nil _).symm
  | true =>
    rw [if_pos rfl]
    split_ifs with hshutdown hreset
    · rw [dispatchFrame, hhost, if_pos rfl, handleCommand, if_neg (by rw [hshutdown]; decide),
        if_pos hshutdown, hacknowledge]
      rfl
    · rw [dispatchFrame, hhost, if_pos rfl, handleCommand, if_neg (by rw [hreset]; decide),
        if_neg hshutdown, if_neg (by rw [hreset]; decide), if_neg (by rw [hreset]; decide),
        if_pos hreset, hacknowledge]
      rfl
    · apply Eq.trans _ (List.append_nil _).symm
      apply part_dispatchFrame SameButLink.spawned
      intro _ l w' heffect
      cases heffect with
      | askShutdown hcommand => exact absurd hcommand hshutdown
      | factoryReset hcommand => exact absurd hcommand hreset
      | status =>
        exact part_statusDataParse SameButLink.spawned (fun _ _ => rfl) (fun _ _ _ _ => rfl) _ _
      | _ => rfl

theorem spawned_frames (received : List Frame) :
    (run dispatchFrame w received).spawned =
      w.spawned ++ received.filterMap spawnedFor? := by
  have hrun := log_run spawned_dispatchFrame w received
  rw [trace_of_events, ← List.filterMap_eq_flatMap_toList] at hrun
  exact hrun

/-- What an event makes the daemon spawn. -/
def spawns : Event → List String
  | .tick => List.replicate w.askedByTick "poweroff"
  | .read r => if w.pmu.serialChannel then (w.framesRead r).filterMap spawnedFor? else []
  | _ => []

theorem spawned_step {e : Event} (hinit : ∀ opened, e ≠ .init opened) :
    (w.step e).spawned = w.spawned ++ w.spawns e := by
  by_cases htick : e = .tick
  · subst htick
    exact w.plans_checkTimeoutFunc.spawned
  · by_cases hread : ∃ r, e = .read r
    · obtain ⟨r, rfl⟩ := hread
      rw [World.step, spawns]
      split
      · rw [← spawned_frames, serialReadWatchFunc]
        dsimp only
        rw [serialReadStep_eq_foldl]
        rfl
      · exact (List.append_nil _).symm
    · have hkept : (w.step e).spawned = w.spawned := by
        apply part_step SameButLink.spawned (fun _ _ _ _ _ => rfl) w e hinit _ htick
        · exact fun _ _ => rfl
        · exact fun _ _ => rfl
        · exact fun r he => hread ⟨r, he⟩
      cases e with
      | tick => exact absurd rfl htick
      | read r => exact absurd ⟨r, rfl⟩ hread
      | _ => exact hkept.trans (List.append_nil _).symm

end World

namespace MainLoop
variable (s : MainLoop)

/-- What a call of `pcat_main_request_shutdown` spawns. -/
def requested : MainEvent → List String
  | .requestShutdown _ => if s.quit then [] else ["poweroff"]
  | _ => []

/-- What an event of the main loop makes the daemon spawn. -/
def spawns (e : MainEvent) : List String := (s.stepEvent? e).elim (s.requested e) s.world.spawns

theorem spawned_step (e : MainEvent) :
    (s.step e).world.spawned = s.world.spawned ++ s.spawns e := by
  rw [spawns]
  by_cases hrequest : ∃ sendPmuRequest, e = .requestShutdown sendPmuRequest
  · obtain ⟨sendPmuRequest, rfl⟩ := hrequest
    rw [step, stepEvent?, requested]
    cases s.quit with
    | true => exact (List.append_nil _).symm
    | false => rfl
  · obtain hworld | ⟨-, sendPmuRequest, he, -⟩ := s.world_step e
    · rw [hworld]
      cases hevent : s.stepEvent? e with
      | none =>
        cases e with
        | requestShutdown sendPmuRequest => exact absurd ⟨sendPmuRequest, rfl⟩ hrequest
        | _ => exact (List.append_nil _).symm
      | some e' => exact s.world.spawned_step (stepEvent?_ne_init hevent)
    · exact absurd ⟨sendPmuRequest, he⟩ hrequest

/-- Only a frame makes the daemon spawn the reset to factory settings. -/
theorem count_spawns (e : MainEvent) :
    (s.spawns e).count "pcat-factory-reset.sh" = (s.framesSeen e).countP isFactoryReset := by
  have hpowerOff (n : ℕ) : (List.replicate n "poweroff").count "pcat-factory-reset.sh" = 0 := by
    rw [List.count_replicate, if_neg (by decide)]
  have hframes (frames : List Frame) :
      (frames.filterMap spawnedFor?).count "pcat-factory-reset.sh" =
        frames.countP isFactoryReset := by
    rw [List.count_eq_countP, List.countP_filterMap]
    apply List.countP_congr
    intro f _
    rw [spawnedFor?, isFactoryReset]
    cases World.forHost f with
    | false => rfl
    | true =>
      rw [if_pos rfl, Bool.true_and]
      split_ifs with hshutdown hreset
      · rw [hshutdown]
        decide
      · rw [hreset]
        decide
      · simp [hreset]
  rw [spawns, framesSeen, readsSeen]
  cases hevent : s.stepEvent? e with
  | none =>
    cases e with
    | requestShutdown sendPmuRequest =>
      cases hquit : s.quit <;> simp [requested, hquit]
    | _ => rfl
  | some e' =>
    cases e' with
    | tick => exact hpowerOff _
    | read r =>
      change (s.world.spawns (.read r)).count _ = _
      rw [World.spawns]
      dsimp only
      split
      · rw [List.flatMap_singleton, hframes]
      · rfl
    | _ => rfl

/-- In every run the commands that the daemon has spawned are those that its events make it
spawn, in their order, and it has spawned the reset to factory settings exactly once for each
frame of the received stream that asks for it. -/
theorem spawned_run (w : World) (requestFile : Bool) (events : List MainEvent) :
    let final := run step (start w true requestFile) events
    final.world.spawned = trace step spawns (start w true requestFile) events ∧
      final.world.spawned.count "pcat-factory-reset.sh" =
        (framesReceived w requestFile events).countP isFactoryReset := by
  intro final
  let log (s : MainLoop) : List String := s.world.spawned
  have hstart : log (start w true requestFile) = [] :=
    (World.requests_initRequests _).sameButLink.spawned
  have hstep (s : MainLoop) (e : MainEvent) : log (s.step e) = log s ++ s.spawns e :=
    s.spawned_step e
  have hlog : log final = trace step spawns (start w true requestFile) events := by
    have hrun := log_run hstep (start w true requestFile) events
    rwa [hstart, List.nil_append] at hrun
  refine ⟨hlog, ?_⟩
  rw [show final.world.spawned = _ from hlog, framesReceived_eq]
  exact countP_trace count_spawns _ events

end MainLoop
end PcatManager
