import PcatManager.ClockSync
import PcatManager.LastMark
import PcatManager.PlannedShutdown
import PcatManager.SerialLinkCalls

/-!
# Powering off without a charger

The timestamp that every tick with a charger refreshes is the last tick that saw one, so
the charger branch of the tick powers off only after a whole timeout without.
-/

namespace PcatManager
open SerialFrame SerialReadParser GuardedRun LastMark

/-- What a tick finds: the time and the charger voltage reported last. -/
structure TickRecord where
  time : ℤ
  chargerVoltage : UInt32
  deriving DecidableEq, Repr

/-- The tick finds a charger. -/
def TickRecord.charged (r : TickRecord) : Bool := 4200 ≤ r.chargerVoltage

namespace World

/-- The record of the event, if it is a tick. -/
def tickRecord (w : World) : Event → Option TickRecord
  | .tick => some ⟨w.monotonicTime, w.pmu.lastChargerVoltage⟩
  | _ => none

/-- The ticks of a run. -/
def tickRecords : World → List Event → List TickRecord
  | _, [] => []
  | w, e :: events => (w.tickRecord e).toList ++ tickRecords (w.step e) events

theorem tickRecords_concat (w : World) (events : List Event) (e : Event) :
    w.tickRecords (events ++ [e]) = w.tickRecords events ++ ((run step w events).tickRecord e).toList := by
  induction events generalizing w with
  | nil => simp [tickRecords]
  | cons e' events ih =>
    rw [List.cons_append, tickRecords, tickRecords, ih, List.append_assoc]
    rfl

/-- The timestamp of the charger. -/
def chargerTimestamp (w : World) : ℤ := w.pmu.chargerOnAutoStartLastTimestamp

theorem chargerTimestamp_link {w w' : World} (h : SameButLink w w') :
    w'.chargerTimestamp = w.chargerTimestamp := by
  obtain ⟨l, n, rfl⟩ := h
  rfl

theorem chargerTimestamp_tick {w : World} (hopen : w.pmu.serialChannel = true) :
    w.checkTimeoutFunc.chargerTimestamp =
      if 4200 ≤ w.pmu.lastChargerVoltage then w.monotonicTime else w.chargerTimestamp := by
  rw [part_checkTimeoutFunc chargerTimestamp_link (fun _ _ => rfl) (fun _ => rfl), if_pos hopen,
    refreshChargerTimestamp]
  split <;> rfl

theorem chargerTimestamp_dispatchFrame (w : World) (f : Frame) :
    (w.dispatchFrame f).chargerTimestamp = w.chargerTimestamp := by
  refine part_dispatchFrame chargerTimestamp_link fun _ l w' heffect => ?_
  cases heffect with
  | status hcommand hlen =>
    exact part_statusDataParse chargerTimestamp_link (fun _ _ => rfl) (fun _ _ _ _ => rfl) _ _
  | nothing => rfl
  | askShutdown => rfl
  | shutdownAck => rfl
  | watchdogAck => rfl
  | factoryReset => rfl
  | fwVersion => rfl
  | powerOnEvent => rfl

/-- Only a tick that finds a charger changes the timestamp of an initialised manager. -/
theorem chargerTimestamp_step {w : World} (hinit : w.pmu.initialized = true)
    (hopen : w.pmu.serialChannel = true) (e : Event) :
    (w.step e).chargerTimestamp =
      match w.tickRecord e with
      | some r => if r.charged then r.time else w.chargerTimestamp
      | none => w.chargerTimestamp := by
  cases e with
  | tick =>
    rw [step, chargerTimestamp_tick hopen, tickRecord]
    simp only [TickRecord.charged, decide_eq_true_eq]
  | init opened =>
    rw [step_init_again hinit]
    rfl
  | read r =>
    rw [step, if_pos hopen]
    have hframes : (run dispatchFrame w (w.framesRead r)).chargerTimestamp = w.chargerTimestamp :=
      run_invariant (I := fun w' : World => w'.chargerTimestamp = w.chargerTimestamp)
        (fun w f h => (chargerTimestamp_dispatchFrame w f).trans h) rfl _
    rw [← serialReadStep_eq_foldl] at hframes
    exact hframes
  | _ =>
    exact part_step chargerTimestamp_link (fun _ _ _ _ _ => rfl) w _ (by simp) (by simp) (by simp)
      (fun _ _ => rfl) (fun _ _ => rfl)

theorem monotonicTime_le_step {w : World} (hinit : w.pmu.initialized = true) (e : Event) :
    w.monotonicTime ≤ (w.step e).monotonicTime := by
  rcases moves_step w e (releasesOnlyBy_true w e) with hmoves | ⟨opened, rfl⟩ | ⟨microseconds, rfl⟩
  · exact hmoves.time.ge
  · rw [step_init_again hinit]
  · exact Int.le_add_of_nonneg_right (Int.natCast_nonneg microseconds)

/-- After its initialisation at `start` the manager has seen these ticks, and the timestamp
is the last of them that found a charger. -/
structure Ticked (start : ℤ) (records : List TickRecord) (w : World) : Prop where
  initialized : w.pmu.initialized = true
  channel : w.pmu.serialChannel = true
  chronicle : Chronicle TickRecord.time start w.monotonicTime records
  timestamp : w.chargerTimestamp = lastMark TickRecord.charged TickRecord.time start records

theorem ticked_managerInit (w : World) :
    Ticked w.monotonicTime [] (w.start.managerInit true) := by
  have hrequests : Requests _ (w.start.managerInit true) := requests_initRequests
    { w.start.resetForInit.serialOpen.setBatteryTables with
      pmu := { w.start.resetForInit.serialOpen.setBatteryTables.pmu with initialized := true } }
  have hmoves : Moves (fun _ => True) _ _ := portRelation_moves.requests hrequests
  refine ⟨hrequests.sameButLink.initialized, hrequests.sameButLink.serialChannel,
    chronicle_nil hmoves.time.ge, chargerTimestamp_link hrequests.sameButLink⟩

theorem Ticked.step {start : ℤ} {records : List TickRecord} {w : World}
    (h : Ticked start records w) (e : Event) :
    Ticked start (records ++ (w.tickRecord e).toList) (w.step e) := by
  have hchronicle := h.chronicle.mono (monotonicTime_le_step h.initialized e)
  have htimestamp := chargerTimestamp_step h.initialized h.channel e
  have hchannel : (w.step e).pmu.serialChannel = true := by
    by_cases hinit : ∃ opened, e = .init opened
    · obtain ⟨opened, rfl⟩ := hinit
      rw [step_init_again h.initialized]
      exact h.channel
    · exact (calls_step w e fun _ he => hinit ⟨_, he⟩).channel.trans h.channel
  refine ⟨initialized_step h.initialized e, hchannel, ?_, ?_⟩
  · cases e with
    | tick =>
      have htime : (w.step .tick).monotonicTime = w.monotonicTime := by
        rcases moves_step w .tick (releasesOnlyBy_true w .tick) with hmoves | ⟨_, he⟩ | ⟨_, he⟩
        · exact hmoves.time
        · cases he
        · cases he
      exact hchronicle.concat htime.symm
    | _ => simpa [tickRecord] using hchronicle
  · cases e with
    | tick =>
      rw [htimestamp, tickRecord, Option.toList_some, lastMark_concat, h.timestamp]
    | _ => simpa [tickRecord, h.timestamp] using htimestamp

/-- In every run the timestamp is the last tick that found a charger. -/
theorem ticked_run (w : World) (events : List Event) :
    Ticked w.monotonicTime ((w.start.managerInit true).tickRecords events)
      (run step (w.start.managerInit true) events) := by
  induction events using List.reverseRecOn with
  | nil => exact ticked_managerInit w
  | append_singleton events e ih =>
    rw [tickRecords_concat, run_append]
    exact ih.step e

/-- A tick now takes the charger branch and requests the shutdown. -/
def ChargerPowersOff (w : World) : Prop :=
  w.userConfig.chargerOnAutoStart = true ∧
    w.powerOffRequests < (w.step .tick).powerOffRequests

instance (w : World) : Decidable w.ChargerPowersOff := inferInstanceAs (Decidable (_ ∧ _))

/-- The timeout of the charger branch as it is configured now, in microseconds. -/
def chargerTimeout (w : World) : ℤ := w.userConfig.chargerOnAutoStartTimeout.toNat * 1000000

/-- The charger branch powers off only after a power-on event 3 or 4, a timeout after the
timestamp this tick leaves. -/
theorem ChargerPowersOff.due {w : World} (h : w.ChargerPowersOff)
    (hopen : w.pmu.serialChannel = true) :
    (w.pmu.powerOnEvent = 3 ∨ w.pmu.powerOnEvent = 4) ∧
      (w.step .tick).chargerTimestamp + w.chargerTimeout < w.monotonicTime := by
  obtain ⟨hauto, hasked⟩ := h
  have htimestamp : (w.step .tick).chargerTimestamp = w.refreshChargerTimestamp.chargerTimestamp := by
    rw [step, chargerTimestamp_tick hopen, refreshChargerTimestamp]
    split <;> rfl
  have hsame : w.refreshChargerTimestamp.userConfig = w.userConfig ∧
      w.refreshChargerTimestamp.pmu.powerOnEvent = w.pmu.powerOnEvent ∧
      w.refreshChargerTimestamp.monotonicTime = w.monotonicTime := by
    rw [refreshChargerTimestamp]
    split <;> exact ⟨rfl, rfl, rfl⟩
  have hdue : w.refreshChargerTimestamp.chargerDue = true := by
    by_contra hnot
    have hcount : w.askedByTick = 0 := by
      rw [askedByTick, askedByBranches, hsame.1, if_pos hauto, if_neg hnot, ite_self]
    have hnone := (asked_checkTimeoutFunc w).requests
    rw [hcount, Nat.add_zero] at hnone
    exact absurd hnone hasked.ne'
  rw [chargerDue, hsame.1, hsame.2.1, hsame.2.2, Bool.and_eq_true, Bool.or_eq_true,
    decide_eq_true_eq, decide_eq_true_eq, decide_eq_true_eq] at hdue
  rw [htimestamp]
  exact hdue

/-- When a tick takes the charger branch and requests the shutdown, the power-on event was 3
or 4, more than the configured timeout has passed since the initialisation, and every tick
within the timeout, this one included, has found less than 4200 mV at the charger. -/
theorem charger_missing_throughout (w : World) (events : List Event)
    (h : (run step (w.start.managerInit true) events).ChargerPowersOff) :
    let s := run step (w.start.managerInit true) events
    (s.pmu.powerOnEvent = 3 ∨ s.pmu.powerOnEvent = 4) ∧
      w.monotonicTime + s.chargerTimeout < s.monotonicTime ∧
      ∀ r ∈ (w.start.managerInit true).tickRecords (events ++ [.tick]),
        s.monotonicTime - s.chargerTimeout ≤ r.time → r.chargerVoltage < 4200 := by
  dsimp only
  have hticked := ticked_run w events
  have hlast := ticked_run w (events ++ [.tick])
  rw [run_append, run_cons, run_nil] at hlast
  obtain ⟨hevent, hpassed⟩ := h.due hticked.channel
  rw [hlast.timestamp] at hpassed
  refine ⟨hevent, ?_, fun r hr hspan => ?_⟩
  · have hstart : w.monotonicTime ≤ lastMark TickRecord.charged TickRecord.time w.monotonicTime
        ((w.start.managerInit true).tickRecords (events ++ [.tick])) :=
      start_le_lastMark hlast.chronicle
    omega
  · have hsince : r.charged = false :=
      not_marked_of_lastMark_lt hlast.chronicle (by omega) hr hspan
    rw [TickRecord.charged, decide_eq_false_iff_not, UInt32.not_le] at hsince
    exact hsince

/-- The PMU tells that a charger switched it on. -/
def chargerOnEvent : WireFrame :=
  ⟨0x81, 0x01, 5, le16 commandPowerOnEventGetAck ++ [3, 0], by simp, by simp⟩

/-- No charger is reported for three seconds, with a timeout of two. -/
def chargerGoneRun : List Event :=
  [.configure { chargerOnAutoStart := true, chargerOnAutoStartTimeout := 2 },
    .read ⟨chargerOnEvent.bytes, by rw [WireFrame.length_bytes]; omega, by simp [chargerOnEvent]⟩,
    .elapse 1000000, .tick, .elapse 1000000, .tick, .elapse 1000000]

theorem charger_missing_three_seconds :
    (run step (plain.start.managerInit true) chargerGoneRun).ChargerPowersOff ∧
      ∀ r ∈ (plain.start.managerInit true).tickRecords (chargerGoneRun ++ [.tick]),
        (1000000 : ℤ) ≤ r.time → r.chargerVoltage < 4200 := by
  have hoff : (run step (plain.start.managerInit true) chargerGoneRun).ChargerPowersOff := by
    decide +kernel
  refine ⟨hoff, fun r hr hspan => ?_⟩
  have hnow : (run step (plain.start.managerInit true) chargerGoneRun).monotonicTime -
      (run step (plain.start.managerInit true) chargerGoneRun).chargerTimeout = 1000000 := by
    decide +kernel
  exact (charger_missing_throughout plain chargerGoneRun hoff).2.2 r hr (hnow ▸ hspan)

end World
end PcatManager
