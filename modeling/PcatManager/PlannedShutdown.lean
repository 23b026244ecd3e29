import PcatManager.PmuManagerFrame

/-!
# The power-off the timer asks for

How many times the one-second tick calls `pcat_main_request_shutdown(TRUE)`, over runs of
any length.
-/

namespace PcatManager.World
open SerialFrame SerialReadParser GuardedRun

theorem SameButLink.unasked {w w' : World} (h : SameButLink w w') : Unasked w w' :=
  h.sameFlags.toUnasked

theorem Requests.unasked {w w' : World} (h : Requests w w') : Unasked w w' := h.sameButLink.unasked

theorem unasked_dispatchFrame (w : World) (f : Frame) : Unasked w (w.dispatchFrame f) := by
  have h := (sameFlags_dispatchFrame w f).toUnasked
  have hnoted : Unasked w (w.noteReboot f) := .ite ⟨rfl, rfl⟩ (.refl w)
  exact hnoted.trans h

theorem unasked_serialReadWatchFunc (w : World) (r : Read) :
    Unasked w (w.serialReadWatchFunc r) := by
  have hframes : Unasked w (run dispatchFrame w (w.framesRead r)) :=
    run_invariant (I := Unasked w) (fun _ f h => h.trans (unasked_dispatchFrame _ f)) (.refl w) _
  rw [← serialReadStep_eq_foldl] at hframes
  exact ⟨hframes.planned, hframes.requests⟩

/-- The entries the loop over the schedule still looks at once one has matched, that one
included. -/
def fromFirstMatch (dt : GregorianCalendar.DateTime) (schedule : List PowerScheduleData) :
    List PowerScheduleData :=
  (schedule.filter offEntry).dropWhile fun sdata => !entryMatches dt sdata

/-- `w'` is `w` after `n` more power-off requests. -/
structure Asked (n : ℕ) (w w' : World) : Prop where
  planned : w'.pmu.shutdownPlanned = (w.pmu.shutdownPlanned || decide (0 < n))
  requests : w'.powerOffRequests = w.powerOffRequests + n

theorem Unasked.asked {w w' : World} (h : Unasked w w') : Asked 0 w w' :=
  ⟨by simp [h.planned], h.requests⟩

theorem Asked.trans {m n : ℕ} {w w' w'' : World} (h : Asked m w w') (h' : Asked n w' w'') :
    Asked (m + n) w w'' := by
  refine ⟨?_, by rw [h'.requests, h.requests, Nat.add_assoc]⟩
  rw [h'.planned, h.planned, Bool.or_assoc]
  congr 1
  rw [← Bool.decide_or]
  congr 1
  exact propext (by omega)

theorem asked_planShutdown (w : World) : Asked 1 w w.planShutdown :=
  ⟨by simp [planShutdown], by simp [powerOffRequests, planShutdown, requestShutdown]⟩

/-- The loop asks once for every entry it looks at from the first match on. -/
theorem asked_powerScheduleLoop (dt : GregorianCalendar.DateTime)
    (schedule : List PowerScheduleData) (needAction : Bool) (w : World) :
    Asked (if needAction then (schedule.filter offEntry).length else (fromFirstMatch dt schedule).length)
      w (powerScheduleLoop dt schedule needAction w) := by
  induction schedule generalizing needAction w with
  | nil => simpa [fromFirstMatch, powerScheduleLoop] using (Unasked.refl w).asked
  | cons sdata rest ih =>
    by_cases hoff : offEntry sdata = true
    · have henabled : ¬(!sdata.enabled || sdata.action) = true := by
        simp only [offEntry, Bool.and_eq_true, Bool.not_eq_true'] at hoff
        simp [hoff]
      have hminute : ¬(!sdata.has scheduleEnableMinute) = true := by
        simp only [offEntry, Bool.and_eq_true] at hoff
        simp [hoff]
      rw [powerScheduleLoop, if_neg henabled, if_neg hminute]
      dsimp only
      by_cases hneed : (needAction || entryMatches dt sdata) = true
      · rw [hneed, if_pos rfl]
        have h := (asked_planShutdown w).trans (ih true w.planShutdown)
        rw [if_pos rfl, Nat.add_comm] at h
        have hlen : (if needAction then ((sdata :: rest).filter offEntry).length
            else (fromFirstMatch dt (sdata :: rest)).length) = (rest.filter offEntry).length + 1 := by
          rcases Bool.or_eq_true _ _ ▸ hneed with hn | hm
          · simp [hn, hoff]
          · simp [fromFirstMatch, hoff, hm]
        rwa [hlen]
      · have hneed' : needAction = false ∧ entryMatches dt sdata = false := by
          simpa using hneed
        rw [if_neg hneed, hneed'.1, hneed'.2]
        simpa [fromFirstMatch, hoff, hneed'.2] using ih false w
    · have hskip : powerScheduleLoop dt (sdata :: rest) needAction w =
          powerScheduleLoop dt rest needAction w := by
        rw [powerScheduleLoop]
        split_ifs with hother hminute
        · rfl
        · rfl
        · have hoff' : offEntry sdata = true := by
            simp only [Bool.or_eq_true, not_or, Bool.not_eq_true', Bool.not_eq_false,
              Bool.not_eq_true] at hother hminute
            rw [offEntry, hother.1, hother.2, hminute]
            rfl
          exact absurd hoff' hoff
      rw [hskip]
      simpa [fromFirstMatch, hoff] using ih needAction w

/-- The tick gets to its two power-off branches. -/
def deciding (w : World) : Bool :=
  w.pmu.serialChannel && !w.pmu.rebootRequest && !w.pmu.shutdownRequest

/-- How often the two branches ask. -/
def askedByBranches (w : World) : ℕ :=
  if w.userConfig.chargerOnAutoStart then if w.chargerDue then 1 else 0
  else
    match w.userConfig.powerScheduleData with
    | none => 0
    | some schedule =>
      if w.pmu.shutdownPlanned then 0 else (fromFirstMatch w.realTime.utc schedule).length

/-- How often one tick asks. -/
def askedByTick (w : World) : ℕ :=
  if w.deciding then w.refreshChargerTimestamp.askedByBranches else 0

theorem asked_checkPlannedShutdown (w : World) : Asked w.askedByBranches w w.checkPlannedShutdown := by
  rw [checkPlannedShutdown, askedByBranches]
  by_cases hcharger : w.userConfig.chargerOnAutoStart = true
  · rw [if_pos hcharger, if_pos hcharger]
    split
    · exact asked_planShutdown w
    · exact (Unasked.refl w).asked
  · rw [if_neg hcharger, if_neg hcharger]
    cases w.userConfig.powerScheduleData with
    | none => exact (Unasked.refl w).asked
    | some schedule =>
      dsimp only
      split
      · exact (Unasked.refl w).asked
      · exact asked_powerScheduleLoop w.realTime.utc schedule false w

theorem SameButLink.askedByBranches {w w' : World} (h : SameButLink w w') :
    w'.askedByBranches = w.askedByBranches := by
  obtain ⟨l, n, rfl⟩ := h
  rfl

theorem unasked_checkModemDevice (w : World) : Unasked w w.checkModemDevice := by
  obtain ⟨deviceType, h⟩ := checkModemDevice_eq w
  exact ⟨h.unasked.planned, h.unasked.requests⟩

theorem asked_checkTimeoutFunc (w : World) : Asked w.askedByTick w w.checkTimeoutFunc := by
  have hfirst : Unasked w w.refreshChargerTimestamp := .ite ⟨rfl, rfl⟩ (.refl w)
  have hflags : w.refreshChargerTimestamp.pmu.rebootRequest = w.pmu.rebootRequest ∧
      w.refreshChargerTimestamp.pmu.shutdownRequest = w.pmu.shutdownRequest := by
    rw [refreshChargerTimestamp]
    split <;> exact ⟨rfl, rfl⟩
  have hlast (w' : World) : Unasked w' (w'.checkModemDevice.setLink
      (w'.checkModemDevice.pmu.link.armWriteSource w'.checkModemDevice.monotonicTime)) :=
    (unasked_checkModemDevice w').trans ⟨rfl, rfl⟩
  rw [checkTimeoutFunc, askedByTick, deciding]
  dsimp only
  rw [hflags.1, hflags.2]
  cases w.pmu.serialChannel with
  | false => exact (Unasked.refl w).asked
  | true =>
    simp only [Bool.not_true, Bool.true_and, Bool.false_eq_true, if_false]
    split
    · have hbeat := requests_serialWriteDataRequest w.refreshChargerTimestamp commandHeartbeat
        none [] false
      have h := (hfirst.trans hbeat.unasked).asked.trans
        ((asked_checkPlannedShutdown _).trans (hlast _).asked)
      rwa [Nat.zero_add, Nat.add_zero, hbeat.sameButLink.askedByBranches] at h
    · exact (hfirst.trans (hlast _)).asked

theorem unasked_step (w : World) (e : Event) (he : e.isTick = false) : Unasked w (w.step e) := by
  cases e with
  | init opened =>
    simp only [step, managerInit]
    split_ifs
    · exact .refl w
    · exact ⟨rfl, rfl⟩
    · exact ⟨(requests_initRequests _).unasked.planned, (requests_initRequests _).unasked.requests⟩
  | request command frameNum extraData needAck =>
    exact (requests_serialWriteDataRequest w _ _ _ _).unasked
  | writeWatch writes wsize => exact .ite ⟨rfl, rfl⟩ (.refl w)
  | read r => exact .ite (unasked_serialReadWatchFunc w r) (.refl w)
  | tick => simp [Event.isTick] at he
  | elapse microseconds => exact ⟨rfl, rfl⟩
  | setClock t => exact ⟨rfl, rfl⟩
  | configure config => exact ⟨rfl, rfl⟩
  | modem deviceType => exact ⟨rfl, rfl⟩
  | watchdogTimeoutSet timeout => exact (requests_watchdogTimeoutSet w timeout).unasked
  | shutdownRequest =>
    have h := (requests_serialWriteDataRequest w commandHostRequestShutdown none [] true).unasked
    exact ⟨h.planned, h.requests⟩
  | rebootRequest =>
    have h := (requests_watchdogTimeoutSet w 60).unasked
    exact ⟨h.planned, h.requests⟩
  | scheduleTimeUpdate => exact (requests_scheduleTimeUpdate w).unasked
  | chargerOnAutoStart state =>
    exact (requests_chargerOnAutoStart w state).unasked
  | netStatusLedSetup onTime downTime repeatTimes =>
    exact (requests_netStatusLedSetup w onTime downTime repeatTimes).unasked
  | voltageThresholdSet a b c d e f g i =>
    exact (requests_voltageThresholdSet w a b c d e f g i).unasked

/-- How often an event asks. -/
def askedBy (w : World) (e : Event) : ℕ := if e.isTick then w.askedByTick else 0

theorem asked_step (w : World) (e : Event) : Asked (w.askedBy e) w (w.step e) := by
  rw [askedBy]
  split
  · rename_i h
    cases e with
    | tick => exact asked_checkTimeoutFunc w
    | _ => simp [Event.isTick] at h
  · rename_i h
    exact (unasked_step w e (by simpa using h)).asked

/-- The latch holds once the timer has asked. -/
def Latched (w : World) : Prop := w.pmu.shutdownPlanned = decide (0 < w.powerOffRequests)

theorem Latched.step {w : World} (h : w.Latched) (e : Event) : (w.step e).Latched := by
  have hasked := asked_step w e
  rw [Latched, hasked.planned, h, hasked.requests, ← Bool.decide_or]
  congr 1
  exact propext (by omega)

/-- A tick asks at most once and only when it has not been asked for before: when the
charger branch is due nothing has been planned yet, and when the schedule is looked at
no off-entry follows the first one that matches. -/
def AsksOnce (w : World) (e : Event) : Prop :=
  e.isTick = true → w.deciding = true →
    if w.userConfig.chargerOnAutoStart then
      w.refreshChargerTimestamp.chargerDue = true → w.pmu.shutdownPlanned = false
    else
      w.pmu.shutdownPlanned = false → ∀ schedule ∈ w.userConfig.powerScheduleData,
        (fromFirstMatch w.realTime.utc schedule).length ≤ 1

theorem asksOnce_iff (w : World) (e : Event) :
    w.AsksOnce e ↔ w.askedBy e + (if w.pmu.shutdownPlanned then 1 else 0) ≤ 1 := by
  have hrefresh : w.refreshChargerTimestamp.userConfig = w.userConfig ∧
      w.refreshChargerTimestamp.realTime = w.realTime ∧
      w.refreshChargerTimestamp.pmu.shutdownPlanned = w.pmu.shutdownPlanned := by
    rw [refreshChargerTimestamp]
    split <;> exact ⟨rfl, rfl, rfl⟩
  rw [AsksOnce, askedBy, askedByTick, askedByBranches]
  rw [hrefresh.1, hrefresh.2.1, hrefresh.2.2]
  cases e.isTick with
  | false => cases w.pmu.shutdownPlanned <;> simp
  | true =>
    cases w.deciding with
    | false => cases w.pmu.shutdownPlanned <;> simp
    | true =>
      cases w.userConfig.chargerOnAutoStart with
      | true => cases w.refreshChargerTimestamp.chargerDue <;> cases w.pmu.shutdownPlanned <;> simp
      | false =>
        cases w.userConfig.powerScheduleData with
        | none => cases w.pmu.shutdownPlanned <;> simp
        | some schedule => cases w.pmu.shutdownPlanned <;> simp

theorem powerOffRequests_le_run (w : World) (events : List Event) :
    w.powerOffRequests ≤ (run step w events).powerOffRequests := by
  refine run_invariant (I := fun w' : World => w.powerOffRequests ≤ w'.powerOffRequests) ?_
    (le_refl _) events
  intro w' e h
  rw [(asked_step w' e).requests]
  omega

/-- From any state in which the latch is right the count stays at most one exactly as long
as every tick asks at most once. -/
theorem powerOffRequests_run_le_one_iff (w : World) (events : List Event) (h : w.Latched)
    (hle : w.powerOffRequests ≤ 1) :
    (run step w events).powerOffRequests ≤ 1 ↔ Along step AsksOnce w events := by
  induction events generalizing w with
  | nil => simpa [Along] using hle
  | cons e events ih =>
    have hstep : w.AsksOnce e ↔ (w.step e).powerOffRequests ≤ 1 := by
      rw [asksOnce_iff, (asked_step w e).requests, h, Nat.add_comm]
      have hcount : (if decide (0 < w.powerOffRequests) = true then 1 else 0) =
          w.powerOffRequests := by
        split
        · rename_i hpos
          simp only [decide_eq_true_eq] at hpos
          omega
        · rename_i hzero
          simp only [decide_eq_true_eq] at hzero
          omega
      rw [hcount]
    rw [run_cons, Along]
    constructor
    · intro hrun
      have hone : (w.step e).powerOffRequests ≤ 1 :=
        (powerOffRequests_le_run (w.step e) events).trans hrun
      exact ⟨hstep.mpr hone, (ih (w.step e) (h.step e) hone).mp hrun⟩
    · rintro ⟨hask, hrest⟩
      exact (ih (w.step e) (h.step e) (hstep.mp hask)).mpr hrest

/-- The timer asks for a power-off at most once in a run exactly when every tick of it
asks at most once and only before anything was planned. -/
theorem timer_asks_once_iff (w : World) (events : List Event) :
    (run step w.start events).main.shutdownRequests.count true ≤ 1 ↔
      Along step AsksOnce w.start events :=
  powerOffRequests_run_le_one_iff w.start events rfl (Nat.zero_le 1)

/-- Two off-events at every thirteenth and fourteenth minute of the hour. -/
def twoOffEvents : UserConfigData :=
  { powerScheduleData := some
      [⟨true, false, scheduleEnableMinute, 2000, 1, 1, 0, 13, 0⟩,
        ⟨true, false, scheduleEnableMinute, 2000, 1, 1, 0, 14, 0⟩] }

/-- One tick at 22:13 asks for both of them: `need_action` outlives the first. -/
theorem timer_asks_twice :
    ¬(run step plain.start [.init true, .configure twoOffEvents, .tick]).main.shutdownRequests.count
      true ≤ 1 := by
  decide +kernel

end PcatManager.World
