import PcatManager.PmuManagerRuns

/-!
# What the functions of the manager leave alone

Requests change the link and nothing else of the daemon, and a received frame touches the
flags of the manager in one case only.
-/

namespace PcatManager.World
open SerialFrame SerialReadParser GuardedRun

/-- Only the link and the count of requests without a port may differ. -/
def SameButLink (w w' : World) : Prop :=
  ∃ (l : SerialLink) (n : ℕ),
    w' = { w with
      pmu := { w.pmu with link := l }
      main := { w.main with closedPortRequests := n } }

theorem SameButLink.refl (w : World) : SameButLink w w := ⟨_, _, rfl⟩

theorem SameButLink.trans {w w' w'' : World} (h : SameButLink w w') (h' : SameButLink w' w'') :
    SameButLink w w'' := by
  obtain ⟨l, n, rfl⟩ := h
  obtain ⟨l', n', rfl⟩ := h'
  exact ⟨l', n', rfl⟩

theorem SameButLink.ite {w w₁ w₂ : World} {p : Prop} [Decidable p] (h₁ : SameButLink w w₁)
    (h₂ : SameButLink w w₂) : SameButLink w (if p then w₁ else w₂) := by
  split
  · exact h₁
  · exact h₂

theorem SameButLink.userConfig {w w' : World} (h : SameButLink w w') :
    w'.userConfig = w.userConfig := by
  obtain ⟨l, n, rfl⟩ := h
  rfl

theorem SameButLink.initialized {w w' : World} (h : SameButLink w w') :
    w'.pmu.initialized = w.pmu.initialized := by
  obtain ⟨l, n, rfl⟩ := h
  rfl

theorem SameButLink.serialChannel {w w' : World} (h : SameButLink w w') :
    w'.pmu.serialChannel = w.pmu.serialChannel := by
  obtain ⟨l, n, rfl⟩ := h
  rfl

theorem Requests.sameButLink {w w' : World} (h : Requests w w') : SameButLink w w' := by
  induction h with
  | refl => exact .refl w
  | @request w' _ command frameNum extraData needAck ih =>
    apply ih.trans
    rw [serialWriteDataRequest]
    split
    · exact ⟨_, _, rfl⟩
    · exact ⟨_, _, rfl⟩

/-- The check of the modem records the modem and may make a request. -/
theorem checkModemDevice_eq (w : World) : ∃ deviceType, SameButLink
    { w with pmu := { w.pmu with modemDeviceType := deviceType } } w.checkModemDevice := by
  rw [checkModemDevice]
  split
  · exact ⟨w.modemDeviceType, (requests_voltageThresholdSetInterval _ _ _ _ _ _ _ _ _).sameButLink⟩
  · exact ⟨w.pmu.modemDeviceType, .refl w⟩

/-- The calls of `pcat_main_request_shutdown(TRUE)`. -/
def powerOffRequests (w : World) : ℕ := w.main.shutdownRequests.count true

/-- No power-off was asked for between `w` and `w'`. -/
structure Unasked (w w' : World) : Prop where
  planned : w'.pmu.shutdownPlanned = w.pmu.shutdownPlanned
  requests : w'.powerOffRequests = w.powerOffRequests

theorem Unasked.trans {w w' w'' : World} (h : Unasked w w') (h' : Unasked w' w'') : Unasked w w'' :=
  ⟨h'.planned.trans h.planned, h'.requests.trans h.requests⟩

theorem Unasked.refl (w : World) : Unasked w w := ⟨rfl, rfl⟩

theorem Unasked.ite {w w₁ w₂ : World} {p : Prop} [Decidable p] (h₁ : Unasked w w₁)
    (h₂ : Unasked w w₂) : Unasked w (if p then w₁ else w₂) := by
  split
  · exact h₁
  · exact h₂

/-- The flags a reboot goes through. -/
def rebootFlags (w : World) : Bool × Bool × Bool :=
  (w.pmu.initialized, w.pmu.rebootRequest, w.pmu.rebootProcessCompleted)

/-- Nothing was asked for and no flag of a reboot changed. -/
structure SameFlags (w w' : World) : Prop extends Unasked w w' where
  flags : w'.rebootFlags = w.rebootFlags

theorem SameFlags.trans {u v w : World} (h : SameFlags u v) (h' : SameFlags v w) : SameFlags u w :=
  ⟨h.toUnasked.trans h'.toUnasked, h'.flags.trans h.flags⟩

theorem SameFlags.refl (w : World) : SameFlags w w := ⟨.refl w, rfl⟩

theorem SameFlags.ite {w w₁ w₂ : World} {p : Prop} [Decidable p] (h₁ : SameFlags w w₁)
    (h₂ : SameFlags w w₂) : SameFlags w (if p then w₁ else w₂) := by
  split
  · exact h₁
  · exact h₂

theorem SameButLink.sameFlags {w w' : World} (h : SameButLink w w') : SameFlags w w' := by
  obtain ⟨l, n, rfl⟩ := h
  exact ⟨⟨rfl, rfl⟩, rfl⟩

theorem Requests.sameFlags {w w' : World} (h : Requests w w') : SameFlags w w' :=
  h.sameButLink.sameFlags

/-- A status report corrects the clock of the PMU, or the host takes over its time. -/
theorem statusClock_cases (w : World) (pmuTime : Option UnixTime) :
    (w.pmu.systemTimeSetFlag = true ∧ SameButLink w (w.statusClock pmuTime)) ∨
      (w.pmu.systemTimeSetFlag = false ∧ ∃ realTime, w.statusClock pmuTime =
        { w with realTime := realTime, pmu := { w.pmu with systemTimeSetFlag := true } }) := by
  simp only [statusClock]
  cases hflag : w.pmu.systemTimeSetFlag with
  | true =>
    refine .inl ⟨rfl, ?_⟩
    rw [if_pos rfl]
    exact .ite (requests_dateTimeSync w).sameButLink (.refl w)
  | false =>
    refine .inr ⟨rfl, ?_⟩
    rw [if_neg Bool.false_ne_true]
    cases pmuTime with
    | none => exact ⟨w.realTime, rfl⟩
    | some t => exact ⟨if w.settimeofdaySucceeds then t else w.realTime, rfl⟩

theorem sameFlags_statusDataParse (w : World) (data : List UInt8) :
    SameFlags w (w.statusDataParse data) := by
  have hclock (pmuTime : Option UnixTime) : SameFlags w (w.statusClock pmuTime) := by
    obtain ⟨-, hsame⟩ | ⟨-, realTime, hset⟩ := statusClock_cases w pmuTime
    · exact hsame.sameFlags
    · rw [hset]
      exact ⟨⟨rfl, rfl⟩, rfl⟩
  have hbattery (w : World) (batteryVoltage chargerVoltage : UInt32) (boardTemp : ℤ) :
      SameFlags w (w.statusBattery batteryVoltage chargerVoltage boardTemp) := ⟨⟨rfl, rfl⟩, rfl⟩
  exact .ite (.refl w) ((hclock _).trans (hbattery _ _ _ _))

/-- The one flag a frame may set for a reboot. -/
def noteReboot (w : World) (f : Frame) : World :=
  if forHost f && f.command = commandWatchdogTimeoutSetAck && w.pmu.rebootRequest then
    { w with pmu := { w.pmu with rebootProcessCompleted := true } }
  else w

theorem sameFlags_noteReboot_setLink (w : World) (l : SerialLink) (f : Frame) :
    SameFlags (w.noteReboot f) ((w.setLink l).noteReboot f) := by
  by_cases h : (forHost f && f.command = commandWatchdogTimeoutSetAck && w.pmu.rebootRequest) = true
  · simp only [noteReboot, setLink, h, if_true]
    exact ⟨⟨rfl, rfl⟩, rfl⟩
  · simp only [noteReboot, setLink, h]
    exact ⟨⟨rfl, rfl⟩, rfl⟩

/-- What a frame for the host does, apart from requests. -/
inductive FrameEffect (w : World) (f : Frame) : World → Prop where
  | nothing (hstatus : f.command = commandStatusReport → f.extraData.length < 16)
      (hask : f.command ≠ commandPmuRequestShutdown)
      (hshutdown : f.command = commandHostRequestShutdownAck → w.pmu.shutdownRequest = false)
      (hreboot : f.command = commandWatchdogTimeoutSetAck → w.pmu.rebootRequest = false) :
      FrameEffect w f w
  | status (hcommand : f.command = commandStatusReport) (hlen : 16 ≤ f.extraData.length) :
      FrameEffect w f (w.statusDataParse f.extraData)
  | askShutdown (hcommand : f.command = commandPmuRequestShutdown) :
      FrameEffect w f (w.requestShutdown false)
  | shutdownAck (hcommand : f.command = commandHostRequestShutdownAck)
      (hrequest : w.pmu.shutdownRequest = true) :
      FrameEffect w f { w with pmu := { w.pmu with shutdownProcessCompleted := true } }
  | watchdogAck (hcommand : f.command = commandWatchdogTimeoutSetAck)
      (hrequest : w.pmu.rebootRequest = true) :
      FrameEffect w f { w with pmu := { w.pmu with rebootProcessCompleted := true } }
  | factoryReset (hcommand : f.command = commandPmuRequestFactoryReset) (spawned : List String) :
      FrameEffect w f { w with main := { w.main with spawned := spawned } }
  | fwVersion (hcommand : f.command = commandPmuFwVersionGetAck) (version : Option (List UInt8)) :
      FrameEffect w f { w with pmu := { w.pmu with pmuFwVersion := version } }
  | powerOnEvent (hcommand : f.command = commandPowerOnEventGetAck) (event : UInt32) :
      FrameEffect w f { w with pmu := { w.pmu with powerOnEvent := event } }

theorem handleCommand_effect (w : World) (f : Frame) :
    ∃ w', FrameEffect w f w' ∧ SameButLink w' (w.handleCommand f) := by
  have hacknowledge (w' : World) (extraData : List UInt8) :
      SameButLink w' (w'.acknowledge f extraData) := (requests_acknowledge w' f extraData).sameButLink
  rw [handleCommand]
  by_cases hstatus : f.command = commandStatusReport
  · rw [if_pos hstatus]
    split
    · rename_i hshort
      exact ⟨w, .nothing (fun _ => hshort) (by rw [hstatus]; decide)
        (fun h => absurd (hstatus.symm.trans h) (by decide))
        (fun h => absurd (hstatus.symm.trans h) (by decide)), .refl w⟩
    · rename_i hlong
      exact ⟨_, .status hstatus (Nat.not_lt.mp hlong), hacknowledge _ _⟩
  · rw [if_neg hstatus]
    split_ifs with hask hshutdown hrequest hwatchdog hreboot hfactory hversion hshort hevent
    · exact ⟨_, .askShutdown hask, hacknowledge _ _⟩
    · exact ⟨_, .shutdownAck hshutdown hrequest, .refl _⟩
    · exact ⟨w, .nothing (fun h => absurd h hstatus) hask (fun _ => Bool.eq_false_iff.mpr hrequest)
        (fun h => absurd (hshutdown.symm.trans h) (by decide)), .refl w⟩
    · exact ⟨_, .watchdogAck hwatchdog hreboot, .refl _⟩
    · exact ⟨w, .nothing (fun h => absurd h hstatus) hask (fun h => absurd h hshutdown)
        (fun _ => Bool.eq_false_iff.mpr hreboot), .refl w⟩
    · exact ⟨_, .factoryReset hfactory _, hacknowledge _ _⟩
    · exact ⟨_, .fwVersion hversion w.pmu.pmuFwVersion, .refl w⟩
    · exact ⟨_, .fwVersion hversion _, .refl _⟩
    · cases f.extraData with
      | nil => exact ⟨_, .powerOnEvent hevent w.pmu.powerOnEvent, .refl w⟩
      | cons event rest => exact ⟨_, .powerOnEvent hevent _, .refl _⟩
    · exact ⟨w, .nothing (fun h => absurd h hstatus) hask (fun h => absurd h hshutdown)
        (fun h => absurd h hwatchdog), .refl w⟩

/-- What an accepted frame does: nothing but on the link, unless it is for the host. -/
theorem dispatchFrame_cases (w : World) (f : Frame) :
    (forHost f = false ∧ SameButLink w (w.dispatchFrame f)) ∨
      (forHost f = true ∧ ∃ l w', FrameEffect (w.setLink l) f w' ∧
        SameButLink w' (w.dispatchFrame f)) := by
  rw [dispatchFrame]
  cases hhost : forHost f with
  | false => exact .inl ⟨rfl, _, _, rfl⟩
  | true =>
    obtain ⟨w', heffect, hsame⟩ := (w.setLink (w.pmu.link.releaseAnswered f)).handleCommand_effect f
    exact .inr ⟨rfl, _, w', heffect, hsame⟩

theorem sameFlags_handleCommand (w : World) (f : Frame) (hf : forHost f = true) :
    SameFlags (w.noteReboot f) (w.handleCommand f) := by
  obtain ⟨w', heffect, hsame⟩ := w.handleCommand_effect f
  refine SameFlags.trans ?_ hsame.sameFlags
  have hnote (h : f.command = commandWatchdogTimeoutSetAck → w.pmu.rebootRequest = false) :
      w.noteReboot f = w := by
    by_cases hack : f.command = commandWatchdogTimeoutSetAck
    · simp [noteReboot, h hack]
    · simp [noteReboot, hack]
  have hother {command : UInt16} (hcommand : f.command = command)
      (hne : command ≠ commandWatchdogTimeoutSetAck) : w.noteReboot f = w :=
    hnote fun h => absurd (hcommand.symm.trans h) hne
  cases heffect with
  | nothing hstatus hask hshutdown hreboot =>
    rw [hnote hreboot]
    exact .refl w
  | status hcommand hlen =>
    rw [hother hcommand (by decide)]
    exact sameFlags_statusDataParse w _
  | askShutdown hcommand =>
    rw [hother hcommand (by decide)]
    exact ⟨⟨rfl, by simp [powerOffRequests, requestShutdown]⟩, rfl⟩
  | shutdownAck hcommand hrequest =>
    rw [hother hcommand (by decide)]
    exact ⟨⟨rfl, rfl⟩, rfl⟩
  | watchdogAck hcommand hrequest =>
    simp only [noteReboot, hf, hcommand, hrequest, decide_true, Bool.and_self, if_true]
    exact .refl _
  | factoryReset hcommand spawned =>
    rw [hother hcommand (by decide)]
    exact ⟨⟨rfl, rfl⟩, rfl⟩
  | fwVersion hcommand version =>
    rw [hother hcommand (by decide)]
    exact ⟨⟨rfl, rfl⟩, rfl⟩
  | powerOnEvent hcommand event =>
    rw [hother hcommand (by decide)]
    exact ⟨⟨rfl, rfl⟩, rfl⟩

theorem sameFlags_dispatchFrame (w : World) (f : Frame) :
    SameFlags (w.noteReboot f) (w.dispatchFrame f) := by
  rw [dispatchFrame]
  split
  · rename_i hf
    exact (sameFlags_noteReboot_setLink w _ f).trans (sameFlags_handleCommand _ f hf)
  · rename_i hf
    have hnote : w.noteReboot f = w := by simp [noteReboot, hf]
    rw [hnote]
    exact ⟨⟨rfl, rfl⟩, rfl⟩

/-- A part of the daemon that a tick does not change: requests, the charger timestamp, the
modem seen last and a planned shutdown leave it alone. -/
structure KeptByTick {α : Type*} (part : World → α) : Prop where
  link : ∀ {w w' : World}, SameButLink w w' → part w' = part w
  timestamp : ∀ (w : World) (t : ℤ),
    part { w with pmu := { w.pmu with chargerOnAutoStartLastTimestamp := t } } = part w
  modem : ∀ (w : World) (deviceType : ModemDeviceType),
    part { w with pmu := { w.pmu with modemDeviceType := deviceType } } = part w
  plan : ∀ w : World, part w.planShutdown = part w

section Plan
variable {α : Type*} {part : World → α}

/-- What a planned shutdown does not change, the loop over the schedule does not change. -/
theorem part_powerScheduleLoop (hplan : ∀ w : World, part w.planShutdown = part w)
    (dt : GregorianCalendar.DateTime) (schedule : List PowerScheduleData) (needAction : Bool)
    (w : World) : part (powerScheduleLoop dt schedule needAction w) = part w := by
  induction schedule generalizing needAction w with
  | nil => rfl
  | cons sdata rest ih =>
    rw [powerScheduleLoop]
    split_ifs
    · exact ih _ w
    · exact ih _ w
    · dsimp only
      rw [ih]
      split
      · exact hplan w
      · rfl

theorem part_checkPlannedShutdown (hplan : ∀ w : World, part w.planShutdown = part w) (w : World) :
    part w.checkPlannedShutdown = part w := by
  rw [checkPlannedShutdown]
  by_cases hcharger : w.userConfig.chargerOnAutoStart = true
  · rw [if_pos hcharger]
    split
    · exact hplan w
    · rfl
  · rw [if_neg hcharger]
    cases w.userConfig.powerScheduleData with
    | none => rfl
    | some schedule =>
      dsimp only
      split
      · rfl
      · exact part_powerScheduleLoop hplan _ _ _ w

end Plan

section Link
variable {α : Type*} {part : World → α}
  (hlink : ∀ {w w' : World}, SameButLink w w' → part w' = part w)
include hlink

/-- What requests, the modem seen last and a planned shutdown leave alone, a tick changes
only with the charger timestamp. -/
theorem part_checkTimeoutFunc
    (hmodem : ∀ (w : World) (deviceType : ModemDeviceType),
      part { w with pmu := { w.pmu with modemDeviceType := deviceType } } = part w)
    (hplan : ∀ w : World, part w.planShutdown = part w) (w : World) :
    part w.checkTimeoutFunc =
      part (if w.pmu.serialChannel then w.refreshChargerTimestamp else w) := by
  have hcheck (w : World) : part w.checkModemDevice = part w := by
    obtain ⟨deviceType, hsame⟩ := checkModemDevice_eq w
    exact (hlink hsame).trans (hmodem w deviceType)
  rw [World.checkTimeoutFunc]
  cases w.pmu.serialChannel with
  | false => rfl
  | true =>
    apply (hlink ⟨_, _, rfl⟩ : part _ = part _).trans
    apply (hcheck _).trans
    split
    · rw [part_checkPlannedShutdown hplan,
        hlink (requests_serialWriteDataRequest _ _ _ _ _).sameButLink]
      rfl
    · rfl

/-- What requests leave alone is changed only by the start, the tick, by what is read, by the
two requests that set a flag and by a change of the environment. -/
theorem part_step_of_environment (w : World) (e : Event)
    (henvironment : e.isEnvironment = true → part (w.step e) = part w)
    (hinit : ∀ opened, e ≠ .init opened) (hread : ∀ r, e ≠ .read r) (htick : e ≠ .tick)
    (hshutdown : e = .shutdownRequest →
      ∀ w : World, part { w with pmu := { w.pmu with shutdownRequest := true } } = part w)
    (hreboot : e = .rebootRequest →
      ∀ w : World, part { w with pmu := { w.pmu with rebootRequest := true } } = part w) :
    part (w.step e) = part w := by
  have hrequests {w' : World} (hrequests : Requests w w') : part w' = part w :=
    hlink hrequests.sameButLink
  cases e with
  | init opened => exact absurd rfl (hinit opened)
  | read r => exact absurd rfl (hread r)
  | tick => exact absurd rfl htick
  | request command frameNum extraData needAck =>
    exact hrequests (requests_serialWriteDataRequest w command frameNum extraData needAck)
  | writeWatch writes wsize =>
    rw [World.step]
    split
    · exact hlink ⟨_, _, rfl⟩
    · rfl
  | elapse microseconds => exact henvironment rfl
  | setClock t => exact henvironment rfl
  | configure config => exact henvironment rfl
  | modem deviceType => exact henvironment rfl
  | watchdogTimeoutSet timeout => exact hrequests (requests_watchdogTimeoutSet w timeout)
  | shutdownRequest =>
    exact (hshutdown rfl _).trans (hrequests (requests_serialWriteDataRequest w _ _ _ _))
  | rebootRequest => exact (hreboot rfl _).trans (hrequests (requests_watchdogTimeoutSet w 60))
  | scheduleTimeUpdate => exact hrequests (requests_scheduleTimeUpdate w)
  | chargerOnAutoStart state => exact hrequests (requests_chargerOnAutoStart w state)
  | netStatusLedSetup onTime downTime repeatTimes =>
    exact hrequests (requests_netStatusLedSetup w onTime downTime repeatTimes)
  | voltageThresholdSet a b c d e f g i =>
    exact hrequests (requests_voltageThresholdSet w a b c d e f g i)

theorem part_step
    (henvironment : ∀ (w : World) (monotonicTime : ℤ) (realTime : UnixTime)
      (userConfig : UserConfigData) (modemDeviceType : ModemDeviceType),
      part { w with
        monotonicTime := monotonicTime
        realTime := realTime
        userConfig := userConfig
        modemDeviceType := modemDeviceType } = part w)
    (w : World) (e : Event) (hinit : ∀ opened, e ≠ .init opened) (hread : ∀ r, e ≠ .read r)
    (htick : e ≠ .tick)
    (hshutdown : e = .shutdownRequest →
      ∀ w : World, part { w with pmu := { w.pmu with shutdownRequest := true } } = part w)
    (hreboot : e = .rebootRequest →
      ∀ w : World, part { w with pmu := { w.pmu with rebootRequest := true } } = part w) :
    part (w.step e) = part w := by
  refine part_step_of_environment hlink w e (fun hchange => ?_) hinit hread htick hshutdown hreboot
  cases e with
  | elapse microseconds => exact henvironment w _ w.realTime w.userConfig w.modemDeviceType
  | setClock t => exact henvironment w w.monotonicTime t w.userConfig w.modemDeviceType
  | configure config => exact henvironment w w.monotonicTime w.realTime config w.modemDeviceType
  | modem deviceType => exact henvironment w w.monotonicTime w.realTime w.userConfig deviceType
  | _ => cases hchange

/-- Nor does a status report change such a part, unless it depends on the clock or on the
battery. -/
theorem part_statusDataParse
    (hclock : ∀ (w : World) (realTime : UnixTime),
      part { w with realTime := realTime, pmu := { w.pmu with systemTimeSetFlag := true } } = part w)
    (hbattery : ∀ (w : World) (batteryVoltage chargerVoltage : UInt32) (boardTemp : ℤ),
      part (w.statusBattery batteryVoltage chargerVoltage boardTemp) = part w)
    (w : World) (data : List UInt8) : part (w.statusDataParse data) = part w := by
  rw [World.statusDataParse]
  split
  · rfl
  · apply (hbattery _ _ _ _).trans
    generalize unixTimeOfUtc _ _ _ _ _ _ = pmuTime
    obtain ⟨-, hsame⟩ | ⟨-, realTime, hset⟩ := statusClock_cases w pmuTime
    · exact hlink hsame
    · rw [hset]
      exact hclock w realTime

/-- A frame changes such a part only as its case of the `switch` does. -/
theorem part_dispatchFrame {w : World} {f : Frame}
    (heffect : forHost f = true → ∀ l w', FrameEffect (w.setLink l) f w' →
      part w' = part (w.setLink l)) :
    part (w.dispatchFrame f) = part w := by
  obtain ⟨-, hsame⟩ | ⟨hhost, l, w', hw', hsame⟩ := w.dispatchFrame_cases f
  · exact hlink hsame
  · rw [hlink hsame, heffect hhost l w' hw']
    exact hlink ⟨_, _, rfl⟩

end Link

section KeptByTick
variable {α : Type*} {part : World → α}

theorem KeptByTick.checkTimeoutFunc (h : KeptByTick part) (w : World) :
    part w.checkTimeoutFunc = part w := by
  rw [part_checkTimeoutFunc h.link h.modem h.plan, refreshChargerTimestamp]
  split_ifs
  · exact h.timestamp w w.monotonicTime
  · rfl
  · rfl

/-- Such a part is changed only by the start, by what is read and by the two requests that
set a flag, unless it depends on the clocks, the configuration or the modem. -/
theorem KeptByTick.step (h : KeptByTick part)
    (henvironment : ∀ (w : World) (monotonicTime : ℤ) (realTime : UnixTime)
      (userConfig : UserConfigData) (modemDeviceType : ModemDeviceType),
      part { w with
        monotonicTime := monotonicTime
        realTime := realTime
        userConfig := userConfig
        modemDeviceType := modemDeviceType } = part w)
    (w : World) (e : Event) (hinit : ∀ opened, e ≠ .init opened) (hread : ∀ r, e ≠ .read r)
    (hshutdown : e = .shutdownRequest →
      ∀ w : World, part { w with pmu := { w.pmu with shutdownRequest := true } } = part w)
    (hreboot : e = .rebootRequest →
      ∀ w : World, part { w with pmu := { w.pmu with rebootRequest := true } } = part w) :
    part (w.step e) = part w := by
  by_cases htick : e = .tick
  · subst htick
    exact h.checkTimeoutFunc w
  · exact part_step h.link henvironment w e hinit hread htick hshutdown hreboot

theorem KeptByTick.statusDataParse (h : KeptByTick part)
    (hclock : ∀ (w : World) (realTime : UnixTime),
      part { w with realTime := realTime, pmu := { w.pmu with systemTimeSetFlag := true } } = part w)
    (hbattery : ∀ (w : World) (batteryVoltage chargerVoltage : UInt32) (boardTemp : ℤ),
      part (w.statusBattery batteryVoltage chargerVoltage boardTemp) = part w)
    (w : World) (data : List UInt8) : part (w.statusDataParse data) = part w :=
  part_statusDataParse h.link hclock hbattery w data

theorem KeptByTick.dispatchFrame (h : KeptByTick part) {w : World} {f : Frame}
    (heffect : forHost f = true → ∀ l w', FrameEffect (w.setLink l) f w' →
      part w' = part (w.setLink l)) :
    part (w.dispatchFrame f) = part w :=
  part_dispatchFrame h.link heffect

end KeptByTick

theorem keptByTick_rebootFlags : KeptByTick rebootFlags :=
  ⟨fun h => h.sameFlags.flags, fun _ _ => rfl, fun _ _ => rfl, fun _ => rfl⟩

theorem userConfig_dispatchFrame (w : World) (f : Frame) :
    (w.dispatchFrame f).userConfig = w.userConfig := by
  refine part_dispatchFrame SameButLink.userConfig
    fun _ l w' heffect => ?_
  cases heffect with
  | status hcommand hlen =>
    exact part_statusDataParse SameButLink.userConfig (fun _ _ => rfl) (fun _ _ _ _ => rfl) _ _
  | _ => rfl

theorem userConfig_step (w : World) {e : Event} (h : ∀ config, e ≠ .configure config) :
    (w.step e).userConfig = w.userConfig := by
  cases e with
  | init opened =>
    rw [World.step, managerInit]
    split_ifs
    · rfl
    · rfl
    · exact (requests_initRequests _).sameButLink.userConfig
  | read r =>
    rw [World.step]
    split
    · rw [serialReadWatchFunc]
      dsimp only
      rw [serialReadStep_eq_foldl]
      exact run_invariant (I := fun w' => w'.userConfig = w.userConfig)
        (fun w' f hw' => (userConfig_dispatchFrame w' f).trans hw') rfl (w.framesRead r)
    · rfl
  | tick =>
    rw [World.step, part_checkTimeoutFunc SameButLink.userConfig
      (fun _ _ => rfl) (fun _ => rfl), refreshChargerTimestamp]
    split_ifs <;> rfl
  | configure config => exact absurd rfl (h config)
  | _ =>
    refine part_step_of_environment SameButLink.userConfig w _ ?_
      (by simp) (by simp) (by simp) (fun _ _ => rfl) (fun _ _ => rfl)
    intro hchange
    first | rfl | cases hchange

end PcatManager.World
