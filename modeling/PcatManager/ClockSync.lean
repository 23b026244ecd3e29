import PcatManager.PmuManagerFrame
import PcatManager.SerialLine

/-!
# The first synchronisation of the clocks

The host is to take over the time of the PMU before it sends its own. The status handler
keeps this order in every run; the initialisation does not.
-/

namespace PcatManager
open SerialFrame SerialReadParser GuardedRun

/-- A call of the write function with `DATE_TIME_SYNC` by another function than
`pcat_pmu_manager_date_time_sync`. There is none. -/
def Event.IsBareSync : Event → Prop
  | .request command _ _ _ => command = commandDateTimeSync
  | _ => False

namespace World

/-- The `DATE_TIME_SYNC` commands enqueued on the open port. -/
def syncs (w : World) : List CommandData :=
  (enqueuedCommands w.pmu.link.history).filter (·.command = commandDateTimeSync)

/-- From the first to the second state `DATE_TIME_SYNC` is enqueued, and
`system_time_set_flag` is FALSE in the first. -/
def SyncsUnset (w w' : World) : Prop := w.pmu.systemTimeSetFlag = false ∧ w'.syncs ≠ w.syncs

instance (w w' : World) : Decidable (SyncsUnset w w') := inferInstanceAs (Decidable (_ ∧ _))

/-- The event enqueues no `DATE_TIME_SYNC` while `system_time_set_flag` is FALSE. A read
handles its frames one by one. -/
def ReadsClockFirst (w : World) : Event → Prop
  | .read r => w.pmu.serialChannel = true →
      Along dispatchFrame (fun w f => ¬SyncsUnset w (w.dispatchFrame f)) w (w.framesRead r)
  | e => ¬SyncsUnset w (w.step e)

instance (w : World) : (e : Event) → Decidable (w.ReadsClockFirst e)
  | .read _ => inferInstanceAs (Decidable (w.pmu.serialChannel = true → Along dispatchFrame _ w _))
  | .init _ | .request _ _ _ _ | .writeWatch _ _ | .tick | .elapse _ | .setClock _ | .configure _
  | .modem _ | .watchdogTimeoutSet _ | .shutdownRequest | .rebootRequest | .scheduleTimeUpdate
  | .chargerOnAutoStart _ | .netStatusLedSetup _ _ _ | .voltageThresholdSet _ _ _ _ _ _ _ _ =>
    inferInstanceAs (Decidable (¬_))

theorem syncs_congr {w w' : World} (h : enqueuedCommands w'.pmu.link.history =
    enqueuedCommands w.pmu.link.history) : w'.syncs = w.syncs := by
  rw [syncs, syncs, h]

theorem syncs_serialWriteDataRequest (w : World) {command : UInt16} (h : command ≠ commandDateTimeSync)
    (frameNum : Option UInt16) (extraData : List UInt8) (needAck : Bool) :
    (w.serialWriteDataRequest command frameNum extraData needAck).syncs = w.syncs := by
  rw [serialWriteDataRequest]
  split
  · rw [syncs, setLink]
    simp only [SerialLink.enqueuedCommands_serialWriteDataRequest, List.filter_append]
    simp [SerialLink.newCommandData, h, syncs]
  · rfl

theorem syncs_ite {w w₁ w₂ : World} {p : Prop} [Decidable p] (h₁ : w₁.syncs = w.syncs)
    (h₂ : w₂.syncs = w.syncs) : (if p then w₁ else w₂).syncs = w.syncs := by
  split
  · exact h₁
  · exact h₂

section Functions
variable (w : World)

theorem syncs_scheduleTimeUpdateInternal : w.scheduleTimeUpdateInternal.syncs = w.syncs := by
  rw [scheduleTimeUpdateInternal]
  cases w.userConfig.powerScheduleData with
  | none => rfl
  | some schedule => exact syncs_ite (w.syncs_serialWriteDataRequest (by decide) _ _ _) rfl

theorem syncs_voltageThresholdSetInterval (a b c d e f g h : UInt32) :
    (w.voltageThresholdSetInterval a b c d e f g h).syncs = w.syncs :=
  w.syncs_serialWriteDataRequest (by decide) _ _ _

theorem syncs_watchdogTimeoutSet (timeout : UInt32) :
    (w.watchdogTimeoutSet timeout).syncs = w.syncs :=
  syncs_ite rfl (w.syncs_serialWriteDataRequest (by decide) _ _ _)

theorem syncs_checkModemDevice : w.checkModemDevice.syncs = w.syncs := by
  rw [checkModemDevice]
  split
  · exact syncs_voltageThresholdSetInterval _ _ _ _ _ _ _ _ _
  · rfl

/-- The tick enqueues a heartbeat and voltage thresholds, never the time. -/
theorem syncs_checkTimeoutFunc : w.checkTimeoutFunc.syncs = w.syncs := by
  rw [checkTimeoutFunc]
  split
  · rfl
  · have harm (w : World) : (w.setLink (w.pmu.link.armWriteSource w.monotonicTime)).syncs = w.syncs :=
      syncs_congr (congrArg enqueuedCommands (SerialLink.history_armWriteSource _ _))
    have hrefresh : w.refreshChargerTimestamp.syncs = w.syncs := syncs_ite rfl rfl
    apply (harm _).trans
    apply (syncs_checkModemDevice _).trans
    apply syncs_ite
    · apply (part_checkPlannedShutdown (fun _ => rfl) _ : syncs _ = syncs _).trans
      rw [syncs_serialWriteDataRequest _ (by decide), hrefresh]
    · exact hrefresh

theorem syncs_statusDataParse (h : w.pmu.systemTimeSetFlag = false) (data : List UInt8) :
    (w.statusDataParse data).syncs = w.syncs := by
  rw [statusDataParse]
  split
  · rfl
  · dsimp only
    generalize unixTimeOfUtc _ _ _ _ _ _ = pmuTime
    obtain ⟨hset, -⟩ | ⟨-, realTime, hclock⟩ := statusClock_cases w pmuTime
    · exact absurd (h.symm.trans hset) Bool.false_ne_true
    · rw [hclock]
      rfl

theorem syncs_acknowledge (f : Frame) (extraData : List UInt8)
    (h : f.command + 1 ≠ commandDateTimeSync) : (w.acknowledge f extraData).syncs = w.syncs :=
  syncs_ite (w.syncs_serialWriteDataRequest h _ _ _) rfl

theorem syncs_handleCommand (h : w.pmu.systemTimeSetFlag = false) (f : Frame) :
    (w.handleCommand f).syncs = w.syncs := by
  rw [handleCommand]
  split_ifs with hstatus _ hask _ _ _ _ hreset
  · rfl
  · rw [syncs_acknowledge _ f _ (by rw [hstatus]; decide), w.syncs_statusDataParse h]
  · exact syncs_acknowledge _ f _ (by rw [hask]; decide)
  · rfl
  · rfl
  · rfl
  · rfl
  · exact syncs_acknowledge _ f _ (by rw [hreset]; decide)
  · rfl
  · rfl
  · cases f.extraData <;> rfl
  · rfl

theorem syncs_dispatchFrame (h : w.pmu.systemTimeSetFlag = false) (f : Frame) :
    (w.dispatchFrame f).syncs = w.syncs := by
  have hrelease : (w.setLink (w.pmu.link.releaseAnswered f)).syncs = w.syncs :=
    syncs_congr (SerialLink.enqueuedCommands_releaseAnswered _ f)
  rw [dispatchFrame]
  split
  · exact (syncs_handleCommand (w.setLink (w.pmu.link.releaseAnswered f)) h f).trans hrelease
  · exact hrelease

end Functions

theorem syncs_step (w : World) (e : Event) (hinit : ∀ opened, e ≠ .init opened)
    (hread : ∀ r, e ≠ .read r) (hbare : ¬e.IsBareSync) : (w.step e).syncs = w.syncs := by
  cases e with
  | init opened => exact absurd rfl (hinit opened)
  | read r => exact absurd rfl (hread r)
  | request command frameNum extraData needAck => exact w.syncs_serialWriteDataRequest hbare _ _ _
  | writeWatch writes wsize =>
    exact syncs_ite (syncs_congr (SerialLink.enqueuedCommands_serialWriteWatchFunc _ _ _ _)) rfl
  | tick => exact w.syncs_checkTimeoutFunc
  | elapse microseconds => rfl
  | setClock t => rfl
  | configure config => rfl
  | modem deviceType => rfl
  | watchdogTimeoutSet timeout => exact w.syncs_watchdogTimeoutSet timeout
  | shutdownRequest => exact w.syncs_serialWriteDataRequest (by decide) _ _ _
  | rebootRequest => exact w.syncs_watchdogTimeoutSet 60
  | scheduleTimeUpdate => exact syncs_ite w.syncs_scheduleTimeUpdateInternal rfl
  | chargerOnAutoStart state =>
    exact syncs_ite (w.syncs_serialWriteDataRequest (by decide) _ _ _) rfl
  | netStatusLedSetup onTime downTime repeatTimes =>
    exact syncs_ite (w.syncs_serialWriteDataRequest (by decide) _ _ _) rfl
  | voltageThresholdSet a b c d e f g i =>
    exact syncs_ite (w.syncs_voltageThresholdSetInterval a b c d e f g i) rfl

theorem readsClockFirst_of_initialized {w : World} (h : w.pmu.initialized = true) {e : Event}
    (hbare : ¬e.IsBareSync) : w.ReadsClockFirst e := by
  cases e with
  | read r =>
    intro _
    exact (along_true w _).mono fun w f _ hsync => hsync.2 (w.syncs_dispatchFrame hsync.1 f)
  | init opened =>
    rintro ⟨-, hsync⟩
    rw [step_init_again h] at hsync
    exact hsync rfl
  | _ => exact fun hsync => hsync.2 (syncs_step w _ (by simp) (by simp) hbare)

/-- The flags of an open port. -/
def portFlags (w : World) : Bool × Bool × Bool :=
  (w.pmu.initialized, w.pmu.serialChannel, w.pmu.systemTimeSetFlag)

theorem keptByTick_portFlags : KeptByTick portFlags where
  link := by
    rintro w w' ⟨l, n, rfl⟩
    rfl
  timestamp _ _ := rfl
  modem _ _ := rfl
  plan _ := rfl

/-- No port has been opened yet. -/
structure Unopened (w : World) : Prop where
  flags : w.portFlags = (false, false, false)
  syncs : w.syncs = []

theorem unopened_start (w : World) : w.start.Unopened := ⟨rfl, rfl⟩

theorem Unopened.step {w : World} (h : w.Unopened) {e : Event} (hinit : e ≠ .init true)
    (hbare : ¬e.IsBareSync) : (w.step e).Unopened := by
  have hflags := h.flags
  simp only [portFlags, Prod.mk.injEq] at hflags
  obtain ⟨hinitialized, hchannel, -⟩ := hflags
  by_cases hclosed : e = .init false
  · subst hclosed
    have hreset : w.step (.init false) = w.resetForInit := by
      rw [World.step, managerInit, if_neg (by rw [hinitialized]; exact Bool.false_ne_true)]
      rfl
    rw [hreset]
    exact ⟨by simp [portFlags, resetForInit, hinitialized, hchannel], h.syncs⟩
  · by_cases hread : ∃ r, e = .read r
    · obtain ⟨r, rfl⟩ := hread
      rw [World.step, hchannel]
      exact h
    · have hinit' : ∀ opened, e ≠ .init opened := by
        rintro (_ | _)
        · exact hclosed
        · exact hinit
      have hread' : ∀ r, e ≠ .read r := fun r he => hread ⟨r, he⟩
      refine ⟨?_, ?_⟩
      · rw [keptByTick_portFlags.step (fun _ _ _ _ _ => rfl) w e hinit' hread' (fun _ _ => rfl)
          fun _ _ => rfl]
        exact h.flags
      · rw [syncs_step w e hinit' hread' hbare]
        exact h.syncs

theorem Unopened.readsClockFirst {w : World} (h : w.Unopened) {e : Event} (hinit : e ≠ .init true)
    (hbare : ¬e.IsBareSync) : w.ReadsClockFirst e := by
  have hsyncs : (w.step e).syncs = w.syncs := (h.step hinit hbare).syncs.trans h.syncs.symm
  cases e with
  | read r =>
    intro hopen
    have hclosed : w.pmu.serialChannel = false := congrArg (fun flags => flags.2.1) h.flags
    exact absurd (hclosed.symm.trans hopen) Bool.false_ne_true
  | _ => exact fun hsync => hsync.2 hsyncs

/-- The requests at the end of the initialisation send the time once. -/
theorem syncs_initRequests (w : World) (hopen : w.pmu.serialChannel = true) :
    w.initRequests.syncs ≠ [] := by
  have hsync (w : World) (hopen : w.pmu.serialChannel = true) : w.dateTimeSync.syncs ≠ [] := by
    rw [dateTimeSync, serialWriteDataRequest, if_pos hopen, syncs, setLink]
    simp only [SerialLink.enqueuedCommands_serialWriteDataRequest, List.filter_append]
    simp [SerialLink.newCommandData]
  rw [initRequests, syncs_watchdogTimeoutSet, powerOnEventGetInternal,
    syncs_serialWriteDataRequest _ (by decide),
    pmuFwVersionGetInternal, syncs_serialWriteDataRequest _ (by decide),
    syncs_voltageThresholdSetInterval, chargerOnAutoStartInternal,
    syncs_serialWriteDataRequest _ (by decide)]
  apply hsync
  rw [(requests_scheduleTimeUpdateInternal w).sameButLink.serialChannel, hopen]

theorem Unopened.syncsUnset_init {w : World} (h : w.Unopened) :
    w.SyncsUnset (w.step (.init true)) := by
  have hflags := h.flags
  simp only [portFlags, Prod.mk.injEq] at hflags
  refine ⟨hflags.2.2, ?_⟩
  rw [h.syncs, World.step, managerInit, if_neg (by rw [hflags.1]; exact Bool.false_ne_true)]
  exact syncs_initRequests _ rfl

theorem keptByTick_initialized : KeptByTick fun w => w.pmu.initialized :=
  ⟨fun h => h.initialized, fun _ _ => rfl, fun _ _ => rfl, fun _ => rfl⟩

theorem initialized_dispatchFrame (w : World) (f : Frame) :
    (w.dispatchFrame f).pmu.initialized = w.pmu.initialized := by
  refine keptByTick_initialized.dispatchFrame fun _ l w' heffect => ?_
  cases heffect with
  | status hcommand hlen =>
    exact keptByTick_initialized.statusDataParse (fun _ _ => rfl) (fun _ _ _ _ => rfl) _ _
  | nothing => rfl
  | askShutdown => rfl
  | shutdownAck => rfl
  | watchdogAck => rfl
  | factoryReset => rfl
  | fwVersion => rfl
  | powerOnEvent => rfl

theorem initialized_step {w : World} (h : w.pmu.initialized = true) (e : Event) :
    (w.step e).pmu.initialized = true := by
  by_cases hinit : ∃ opened, e = .init opened
  · obtain ⟨opened, rfl⟩ := hinit
    rw [step_init_again h]
    exact h
  · by_cases hread : ∃ r, e = .read r
    · obtain ⟨r, rfl⟩ := hread
      rw [step]
      split
      · have hframes : (run dispatchFrame w (w.framesRead r)).pmu.initialized = true :=
          run_invariant (I := fun w : World => w.pmu.initialized = true)
            (fun w f h => (initialized_dispatchFrame w f).trans h) h _
        rw [← serialReadStep_eq_foldl] at hframes
        exact hframes
      · exact h
    · exact (keptByTick_initialized.step (fun _ _ _ _ _ => rfl) w e
        (fun opened he => hinit ⟨opened, he⟩) (fun r he => hread ⟨r, he⟩) (fun _ _ => rfl)
        fun _ _ => rfl).trans h

theorem along_readsClockFirst {w : World} (h : w.pmu.initialized = true) {events : List Event}
    (hbare : ∀ e ∈ events, ¬e.IsBareSync) : Along step ReadsClockFirst w events := by
  induction events generalizing w with
  | nil => trivial
  | cons e events ih =>
    rw [List.forall_mem_cons] at hbare
    exact ⟨readsClockFirst_of_initialized h hbare.1, ih (initialized_step h e) hbare.2⟩

/-- A run from a closed port keeps the order until the port is opened. -/
theorem along_readsClockFirst_iff {w : World} (h : w.Unopened) {events : List Event}
    (hbare : ∀ e ∈ events, ¬e.IsBareSync) :
    Along step ReadsClockFirst w events ↔ .init true ∉ events := by
  induction events generalizing w with
  | nil => exact iff_of_true trivial List.not_mem_nil
  | cons e events ih =>
    rw [List.forall_mem_cons] at hbare
    by_cases hinit : e = .init true
    · subst hinit
      exact iff_of_false (fun halong => halong.1 h.syncsUnset_init) fun hmem =>
        hmem List.mem_cons_self
    · rw [List.mem_cons, not_or, ← ih (h.step hinit hbare.1) hbare.2]
      exact and_congr (iff_of_true (h.readsClockFirst hinit hbare.1) (Ne.symm hinit)) Iff.rfl

/-- After an event that opens the port the manager is initialised. -/
theorem initialized_run (w : World) {events : List Event} (hinit : .init true ∈ events) :
    (run step w events).pmu.initialized = true := by
  obtain ⟨before, after, rfl⟩ := List.append_of_mem hinit
  rw [run_append, run_cons]
  refine run_invariant (I := fun w : World => w.pmu.initialized = true)
    (fun _ e h => initialized_step h e) ?_ after
  by_cases hbefore : (run step w before).pmu.initialized = true
  · exact initialized_step hbefore _
  · rw [step, managerInit, if_neg hbefore]
    exact (requests_initRequests _).sameButLink.initialized

/-- Exactly the runs in which the port is never opened enqueue no `DATE_TIME_SYNC` while
`system_time_set_flag` is FALSE: the initialisation that opens it enqueues one, and no
later event does. -/
theorem clock_read_first_iff (w : World) (events : List Event)
    (hbare : ∀ e ∈ events, ¬e.IsBareSync) :
    (Along step ReadsClockFirst w.start events ↔ .init true ∉ events) ∧
      ∀ before after, events = before ++ after → .init true ∈ before →
        Along step ReadsClockFirst (run step w.start before) after := by
  refine ⟨along_readsClockFirst_iff (unopened_start w) hbare, ?_⟩
  rintro before after rfl hinit
  exact along_readsClockFirst (initialized_run w.start hinit) fun e he =>
    hbare e (List.mem_append_right before he)

/-- The manager starts and the port takes what it is given, before any report. -/
def bootRun : List Event := [.init true, .writeWatch (fun _ => .written 100) .again]

theorem clock_read_first_later :
    Along step ReadsClockFirst (run step plain.start [.init true]) [.tick, .read dateTimeSyncAck] :=
  (clock_read_first_iff plain [.init true, .tick, .read dateTimeSyncAck]
    (by simp [Event.IsBareSync])).2 [.init true] [.tick, .read dateTimeSyncAck] rfl (by simp)

/-- The first frame on the line carries the boot time of the host. -/
theorem boot_time_sent :
    ¬Along step ReadsClockFirst plain.start bootRun ∧
      wire (run step plain.start bootRun).pmu.link.history =
        serialWriteFrame 0 commandDateTimeSync (le16 2023 ++ [11, 14, 22, 13, 20]) true := by
  decide +kernel

end World
end PcatManager
