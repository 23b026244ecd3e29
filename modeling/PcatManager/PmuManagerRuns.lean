import PcatManager.GuardedRun
import PcatManager.PmuManager
import PcatManager.SerialStopAndWait

/-!
# Runs of the daemon

The events the PMU manager reacts to, in any order, and what they do to the link: every
function of the manager is a sequence of small steps of the link.
-/

namespace PcatManager
open SerialFrame SerialReadParser GuardedRun

/-- What can happen to the PMU manager: its initialisation, calls of its functions, its
callbacks, and changes of the clocks, the configuration and the modem. -/
inductive Event where
  | init (opened : Bool)
  | request (command : UInt16) (frameNum : Option UInt16) (extraData : List UInt8) (needAck : Bool)
  | writeWatch (writes : ℕ → WriteResult) (wsize : WriteResult)
  | read (r : Read)
  | tick
  | elapse (microseconds : ℕ)
  | setClock (t : UnixTime)
  | configure (config : UserConfigData)
  | modem (deviceType : ModemDeviceType)
  | watchdogTimeoutSet (timeout : UInt32)
  | shutdownRequest
  | rebootRequest
  | scheduleTimeUpdate
  | chargerOnAutoStart (state : Bool)
  | netStatusLedSetup (onTime downTime repeatTimes : UInt32)
  | voltageThresholdSet (ledVh ledVm ledVl startupVoltage chargerVoltage shutdownVoltage ledWorkVl
      chargerFastVoltage : UInt32)

/-- What an event reads from the port. -/
def Event.read? : Event → Option Read
  | .read r => some r
  | _ => none

def Event.isTick : Event → Bool
  | .tick => true
  | _ => false

/-- A change of a clock, of the configuration or of the modem. -/
def Event.isEnvironment : Event → Bool
  | .elapse _ | .setClock _ | .configure _ | .modem _ => true
  | _ => false

namespace World

/-- The daemon when it starts: the data of the manager and the flags of `main.c` are as
the loader zeroes them. -/
def start (w : World) : World := { w with pmu := {}, main := {} }

/-- One event. A callback that is not installed does not run. -/
def step (w : World) : Event → World
  | .init opened => w.managerInit opened
  | .request command frameNum extraData needAck =>
    w.serialWriteDataRequest command frameNum extraData needAck
  | .writeWatch writes wsize =>
    if w.pmu.link.writeSource then
      w.setLink (w.pmu.link.serialWriteWatchFunc w.monotonicTime writes wsize)
    else w
  | .read r => if w.pmu.serialChannel then w.serialReadWatchFunc r else w
  | .tick => w.checkTimeoutFunc
  | .elapse microseconds => { w with monotonicTime := w.monotonicTime + microseconds }
  | .setClock t => { w with realTime := t }
  | .configure config => { w with userConfig := config }
  | .modem deviceType => { w with modemDeviceType := deviceType }
  | .watchdogTimeoutSet timeout => w.watchdogTimeoutSet timeout
  | .shutdownRequest => w.shutdownRequest
  | .rebootRequest => w.rebootRequest
  | .scheduleTimeUpdate => w.scheduleTimeUpdate
  | .chargerOnAutoStart state => w.chargerOnAutoStart state
  | .netStatusLedSetup onTime downTime repeatTimes =>
    w.netStatusLedSetup onTime downTime repeatTimes
  | .voltageThresholdSet ledVh ledVm ledVl startupVoltage chargerVoltage shutdownVoltage
      ledWorkVl chargerFastVoltage =>
    w.voltageThresholdSet ledVh ledVm ledVl startupVoltage chargerVoltage shutdownVoltage
      ledWorkVl chargerFastVoltage

theorem step_init_again {w : World} (h : w.pmu.initialized = true) (opened : Bool) :
    w.step (.init opened) = w := by
  rw [step, managerInit, if_pos h]

/-- A daemon with an empty user configuration and no modem. -/
def plain : World :=
  { pmu := {}
    main := {}
    mainConfig :=
      { pmAutoShutdownVoltageGeneral := 3400
        pmAutoShutdownVoltageLte := 3400
        pmAutoShutdownVoltage5g := 3500
        pmBatteryDischargeTableNormal := defaultBatteryDischargeTableNormal
        pmBatteryDischargeTable5g := defaultBatteryDischargeTable5g
        pmBatteryChargeTable := defaultBatteryChargeTable
        pmLedHighVoltage := 3800
        pmLedMediumVoltage := 3650
        pmLedLowVoltage := 3500
        pmLedWorkLowVoltage := 3500
        pmStartupVoltage := 3400
        pmChargerLimitVoltage := 4200
        pmChargerFastVoltage := 3600
        pmBatteryFullThreshold := 90 }
    userConfig := {}
    modemDeviceType := .none
    monotonicTime := 0
    realTime := ⟨1700000000, by decide⟩ }

/-- The frames one read dispatches. -/
def framesRead (w : World) (r : Read) : List Frame :=
  (serialReadStep (fun frames f => frames ++ [f]) w.pmu.serialReadBuffer [] r.bytes).2

theorem serialReadStep_eq_foldl (w : World) (r : Read) :
    (serialReadStep dispatchFrame w.pmu.serialReadBuffer w r.bytes).2 =
      run dispatchFrame w (w.framesRead r) := by
  unfold framesRead serialReadStep
  dsimp only
  generalize (if 131072 < (w.pmu.serialReadBuffer ++ r.bytes).length then
    (w.pmu.serialReadBuffer ++ r.bytes).drop ((w.pmu.serialReadBuffer ++ r.bytes).length - 65536)
    else w.pmu.serialReadBuffer ++ r.bytes) = buffer
  rw [(serialReadDataParse_spec dispatchFrame buffer w).1,
    (serialReadDataParse_spec (fun frames f => frames ++ [f]) buffer []).1, foldl_snoc]
  rfl

/-- `w'` is `w` after some requests. -/
inductive Requests (w : World) : World → Prop where
  | refl : Requests w w
  | request {w' : World} (h : Requests w w') (command : UInt16) (frameNum : Option UInt16)
      (extraData : List UInt8) (needAck : Bool) :
      Requests w (w'.serialWriteDataRequest command frameNum extraData needAck)

theorem Requests.trans {u v w : World} (h : Requests u v) (h' : Requests v w) : Requests u w := by
  induction h' with
  | refl => exact h
  | request _ command frameNum extraData needAck ih =>
    exact .request ih command frameNum extraData needAck

theorem Requests.ite {w w₁ w₂ : World} {p : Prop} [Decidable p] (h₁ : Requests w w₁)
    (h₂ : Requests w w₂) : Requests w (if p then w₁ else w₂) := by
  split
  · exact h₁
  · exact h₂

section Requests
variable (w : World)

theorem requests_serialWriteDataRequest (command : UInt16) (frameNum : Option UInt16)
    (extraData : List UInt8) (needAck : Bool) :
    Requests w (w.serialWriteDataRequest command frameNum extraData needAck) :=
  .request .refl command frameNum extraData needAck

theorem requests_dateTimeSync : Requests w w.dateTimeSync :=
  requests_serialWriteDataRequest w _ _ _ _

theorem requests_scheduleTimeUpdateInternal : Requests w w.scheduleTimeUpdateInternal := by
  rw [scheduleTimeUpdateInternal]
  cases w.userConfig.powerScheduleData with
  | none => exact .refl
  | some schedule => exact .ite (requests_serialWriteDataRequest w _ _ _ _) .refl

theorem requests_scheduleTimeUpdate : Requests w w.scheduleTimeUpdate :=
  .ite (requests_scheduleTimeUpdateInternal w) .refl

theorem requests_chargerOnAutoStart (state : Bool) : Requests w (w.chargerOnAutoStart state) :=
  .ite (requests_serialWriteDataRequest w _ _ _ _) .refl

theorem requests_netStatusLedSetup (onTime downTime repeatTimes : UInt32) :
    Requests w (w.netStatusLedSetup onTime downTime repeatTimes) :=
  .ite (requests_serialWriteDataRequest w _ _ _ _) .refl

theorem requests_voltageThresholdSetInterval (a b c d e f g h : UInt32) :
    Requests w (w.voltageThresholdSetInterval a b c d e f g h) :=
  requests_serialWriteDataRequest w _ _ _ _

theorem requests_voltageThresholdSet (a b c d e f g h : UInt32) :
    Requests w (w.voltageThresholdSet a b c d e f g h) :=
  .ite (requests_voltageThresholdSetInterval w a b c d e f g h) .refl

theorem requests_watchdogTimeoutSet (timeout : UInt32) :
    Requests w (w.watchdogTimeoutSet timeout) :=
  .ite .refl (requests_serialWriteDataRequest w _ _ _ _)

theorem requests_acknowledge (f : Frame) (extraData : List UInt8) :
    Requests w (w.acknowledge f extraData) :=
  .ite (requests_serialWriteDataRequest w _ _ _ _) .refl

theorem requests_initRequests : Requests w w.initRequests := by
  rw [initRequests]
  exact (requests_scheduleTimeUpdateInternal w).trans <| (requests_dateTimeSync _).trans <|
    (requests_serialWriteDataRequest _ _ _ _ _).trans <|
    (requests_voltageThresholdSetInterval _ _ _ _ _ _ _ _ _).trans <|
    (requests_serialWriteDataRequest _ _ _ _ _).trans <|
    (requests_serialWriteDataRequest _ _ _ _ _).trans (requests_watchdogTimeoutSet _ _)

end Requests

/-- Two worlds with the same port. -/
structure SamePort (w w' : World) : Prop where
  initialized : w'.pmu.initialized = w.pmu.initialized
  channel : w'.pmu.serialChannel = w.pmu.serialChannel
  link : w'.pmu.link = w.pmu.link
  time : w'.monotonicTime = w.monotonicTime
  closedPortRequests : w'.main.closedPortRequests = w.main.closedPortRequests

/-- A relation that everything the manager does meets, if requests do and what is done to
the port apart from requests does. -/
structure PortRelation (R : World → World → Prop) : Prop where
  same : ∀ {w w' : World}, SamePort w w' → R w w'
  trans : ∀ {u v w : World}, R u v → R v w → R u w
  request : ∀ (w : World) (command : UInt16) (frameNum : Option UInt16) (extraData : List UInt8)
    (needAck : Bool), R w (w.serialWriteDataRequest command frameNum extraData needAck)

namespace PortRelation
variable {R : World → World → Prop}

theorem ite (_ : PortRelation R) {w w₁ w₂ : World} {p : Prop} [Decidable p] (h₁ : R w w₁)
    (h₂ : R w w₂) : R w (if p then w₁ else w₂) := by
  split
  · exact h₁
  · exact h₂

variable (h : PortRelation R) (w : World)
include h

theorem refl : R w w := h.same ⟨rfl, rfl, rfl, rfl, rfl⟩

theorem requests {w w' : World} (hrequests : Requests w w') : R w w' := by
  induction hrequests with
  | refl => exact h.refl w
  | request _ command frameNum extraData needAck ih =>
    exact h.trans ih (h.request _ command frameNum extraData needAck)

theorem statusClock (pmuTime : Option UnixTime) : R w (w.statusClock pmuTime) := by
  simp only [World.statusClock]
  split
  · exact h.ite (h.requests (requests_dateTimeSync w)) (h.refl w)
  · cases pmuTime <;> exact h.same ⟨rfl, rfl, rfl, rfl, rfl⟩

theorem statusDataParse (data : List UInt8) : R w (w.statusDataParse data) := by
  rw [World.statusDataParse]
  split
  · exact h.refl w
  · exact h.trans (h.statusClock w _) (h.same ⟨rfl, rfl, rfl, rfl, rfl⟩)

theorem handleCommand (f : Frame) : R w (w.handleCommand f) := by
  have hacknowledge (w : World) (extraData : List UInt8) : R w (w.acknowledge f extraData) :=
    h.requests (requests_acknowledge w f extraData)
  rw [World.handleCommand]
  split_ifs
  · exact h.refl w
  · exact h.trans (h.statusDataParse w _) (hacknowledge _ _)
  · exact h.trans (h.same ⟨rfl, rfl, rfl, rfl, rfl⟩ : R w (w.requestShutdown false)) (hacknowledge _ _)
  · exact h.same ⟨rfl, rfl, rfl, rfl, rfl⟩
  · exact h.refl w
  · exact h.same ⟨rfl, rfl, rfl, rfl, rfl⟩
  · exact h.refl w
  · exact h.trans (h.same ⟨rfl, rfl, rfl, rfl, rfl⟩ : R w { w with main := { w.main with
      spawned := w.main.spawned ++ ["pcat-factory-reset.sh"] } }) (hacknowledge _ _)
  · exact h.refl w
  · exact h.same ⟨rfl, rfl, rfl, rfl, rfl⟩
  · cases f.extraData with
    | nil => exact h.refl w
    | cons event rest => exact h.same ⟨rfl, rfl, rfl, rfl, rfl⟩
  · exact h.refl w

theorem powerScheduleLoop (dt : GregorianCalendar.DateTime) (schedule : List PowerScheduleData)
    (needAction : Bool) (w : World) : R w (World.powerScheduleLoop dt schedule needAction w) := by
  induction schedule generalizing needAction w with
  | nil => exact h.refl w
  | cons sdata rest ih =>
    rw [World.powerScheduleLoop]
    split_ifs
    · exact ih _ w
    · exact ih _ w
    · dsimp only
      refine h.trans (v := if needAction || entryMatches dt sdata then w.planShutdown else w)
        (h.ite (h.same ⟨rfl, rfl, rfl, rfl, rfl⟩) (h.refl w)) (ih _ _)

theorem checkPlannedShutdown : R w w.checkPlannedShutdown := by
  rw [World.checkPlannedShutdown]
  refine h.ite (h.ite (h.same ⟨rfl, rfl, rfl, rfl, rfl⟩) (h.refl w)) ?_
  split
  · exact h.refl w
  · exact h.ite (h.refl w) (h.powerScheduleLoop _ _ _ w)

theorem checkModemDevice : R w w.checkModemDevice := by
  rw [World.checkModemDevice]
  refine h.ite ?_ (h.refl w)
  refine h.trans (v := { w with pmu := { w.pmu with modemDeviceType := w.modemDeviceType } })
    (h.same ⟨rfl, rfl, rfl, rfl, rfl⟩) ?_
  exact h.requests (requests_voltageThresholdSetInterval _ _ _ _ _ _ _ _ _)

theorem checkTimeoutFunc
    (harm : ∀ w : World, R w (w.setLink (w.pmu.link.armWriteSource w.monotonicTime))) :
    R w w.checkTimeoutFunc := by
  rw [World.checkTimeoutFunc]
  refine h.ite (h.refl w) ?_
  have hrefresh : R w w.refreshChargerTimestamp := h.ite (h.same ⟨rfl, rfl, rfl, rfl, rfl⟩) (h.refl w)
  dsimp only
  generalize w.refreshChargerTimestamp = w₁ at hrefresh ⊢
  have hplan : R w
      (if (!w₁.pmu.rebootRequest && !w₁.pmu.shutdownRequest) = true then
        (w₁.serialWriteDataRequest commandHeartbeat none [] false).checkPlannedShutdown
      else w₁) :=
    h.ite (h.trans hrefresh (h.trans (h.request w₁ _ _ _ _) (h.checkPlannedShutdown _))) hrefresh
  exact h.trans (h.trans hplan (h.checkModemDevice _)) (harm _)

theorem dispatchFrame {f : Frame} (hrelease : R w (w.setLink (w.pmu.link.releaseAnswered f))) :
    R w (w.dispatchFrame f) :=
  h.ite (h.trans hrelease (h.handleCommand _ f)) hrelease

theorem serialReadWatchFunc (r : Read)
    (hframes : Along World.dispatchFrame
      (fun w f => R w (w.setLink (w.pmu.link.releaseAnswered f))) w (w.framesRead r)) :
    R w (w.serialReadWatchFunc r) := by
  have hrun : R w (run World.dispatchFrame w (w.framesRead r)) := by
    generalize w.framesRead r = frames at hframes ⊢
    induction frames generalizing w with
    | nil => exact h.refl w
    | cons f frames ih => exact h.trans (h.dispatchFrame w hframes.1) (ih _ hframes.2)
  refine h.trans hrun (h.same ?_)
  rw [← serialReadStep_eq_foldl]
  exact ⟨rfl, rfl, rfl, rfl, rfl⟩

/-- Every event but the initialisation and the passing of time. Only a firing of the write
watch writes. -/
theorem stepWriting (e : Event) (hwrite : ∀ (writes : ℕ → WriteResult) (wsize : WriteResult),
      e = .writeWatch writes wsize → w.pmu.link.writeSource = true →
        R w (w.setLink (w.pmu.link.serialWriteWatchFunc w.monotonicTime writes wsize)))
    (harm : ∀ w : World, R w (w.setLink (w.pmu.link.armWriteSource w.monotonicTime)))
    (hinit : ∀ opened, e ≠ .init opened)
    (helapse : ∀ microseconds, e ≠ .elapse microseconds)
    (hframes : ∀ r ∈ e.read?, w.pmu.serialChannel = true → Along World.dispatchFrame
      (fun w f => R w (w.setLink (w.pmu.link.releaseAnswered f))) w (w.framesRead r)) :
    R w (w.step e) := by
  have hrequested (w : World) : R w w.shutdownRequest :=
    h.trans (h.request w commandHostRequestShutdown none [] true) (h.same ⟨rfl, rfl, rfl, rfl, rfl⟩)
  have hrebooted (w : World) : R w w.rebootRequest :=
    h.trans (h.requests (requests_watchdogTimeoutSet w 60)) (h.same ⟨rfl, rfl, rfl, rfl, rfl⟩)
  cases e with
  | init opened => exact absurd rfl (hinit opened)
  | elapse microseconds => exact absurd rfl (helapse microseconds)
  | request command frameNum extraData needAck => exact h.request w _ _ _ _
  | writeWatch writes wsize =>
    rw [World.step]
    split
    · rename_i hinstalled
      exact hwrite writes wsize rfl hinstalled
    · exact h.refl w
  | read r =>
    rw [World.step]
    split
    · rename_i hopen
      exact h.serialReadWatchFunc w r (hframes r rfl hopen)
    · exact h.refl w
  | tick => exact h.checkTimeoutFunc w harm
  | setClock t => exact h.same ⟨rfl, rfl, rfl, rfl, rfl⟩
  | configure config => exact h.same ⟨rfl, rfl, rfl, rfl, rfl⟩
  | modem deviceType => exact h.same ⟨rfl, rfl, rfl, rfl, rfl⟩
  | watchdogTimeoutSet timeout => exact h.requests (requests_watchdogTimeoutSet w timeout)
  | shutdownRequest => exact hrequested w
  | rebootRequest => exact hrebooted w
  | scheduleTimeUpdate => exact h.requests (requests_scheduleTimeUpdate w)
  | chargerOnAutoStart state => exact h.requests (requests_chargerOnAutoStart w state)
  | netStatusLedSetup onTime downTime repeatTimes =>
    exact h.requests (requests_netStatusLedSetup w onTime downTime repeatTimes)
  | voltageThresholdSet a b c d e f g i =>
    exact h.requests (requests_voltageThresholdSet w a b c d e f g i)

theorem step (hwrite : ∀ (w : World) (writes : ℕ → WriteResult) (wsize : WriteResult),
      w.pmu.link.writeSource = true →
        R w (w.setLink (w.pmu.link.serialWriteWatchFunc w.monotonicTime writes wsize)))
    (harm : ∀ w : World, R w (w.setLink (w.pmu.link.armWriteSource w.monotonicTime)))
    (e : Event) (hinit : ∀ opened, e ≠ .init opened)
    (helapse : ∀ microseconds, e ≠ .elapse microseconds)
    (hframes : ∀ r ∈ e.read?, w.pmu.serialChannel = true → Along World.dispatchFrame
      (fun w f => R w (w.setLink (w.pmu.link.releaseAnswered f))) w (w.framesRead r)) :
    R w (w.step e) :=
  h.stepWriting w e (fun writes wsize _ => hwrite w writes wsize) harm hinit helapse hframes

end PortRelation

/-- `w'` is reached from `w` without time passing, by small steps of the link. -/
structure Moves (mayRelease : CommandData → Prop) (w w' : World) : Prop where
  link : SerialLink.Steps mayRelease w.monotonicTime w.pmu.link w'.pmu.link
  time : w'.monotonicTime = w.monotonicTime

variable {mayRelease : CommandData → Prop}

theorem portRelation_moves : PortRelation (Moves mayRelease) where
  same h := ⟨h.link ▸ .refl _, h.time⟩
  trans h h' := ⟨h.link.trans (h.time ▸ h'.link), h'.time.trans h.time⟩
  request w command frameNum extraData needAck := by
    rw [serialWriteDataRequest]
    split
    · exact ⟨SerialLink.steps_serialWriteDataRequest _ _ _ _ _, rfl⟩
    · exact ⟨(SerialLink.Step.counter _ _).steps, rfl⟩

/-- A frame releases at most a command that may be released. -/
def ReleasesOnly (mayRelease : CommandData → Prop) (w : World) (f : Frame) : Prop :=
  ∀ c, w.pmu.link.currentCommandData = some c → SerialLink.Answers f c → mayRelease c

/-- An event releases only commands that may be released. Only reads release any. -/
def ReleasesOnlyBy (mayRelease : CommandData → Prop) (w : World) (e : Event) : Prop :=
  ∀ r ∈ e.read?, w.pmu.serialChannel = true →
    Along dispatchFrame (ReleasesOnly mayRelease) w (w.framesRead r)

instance [DecidablePred mayRelease] (w : World) (f : Frame) :
    Decidable (ReleasesOnly mayRelease w f) :=
  inferInstanceAs (Decidable (∀ c ∈ w.pmu.link.currentCommandData,
    SerialLink.Answers f c → mayRelease c))

instance [DecidablePred mayRelease] (w : World) (e : Event) :
    Decidable (ReleasesOnlyBy mayRelease w e) :=
  inferInstanceAs (Decidable (∀ r ∈ e.read?, _))

theorem releasesOnlyBy_true (w : World) (e : Event) : ReleasesOnlyBy (fun _ => True) w e :=
  fun r _ _ => (along_true w (w.framesRead r)).mono fun _ _ _ _ _ _ => trivial

/-- Every event but the initialisation and the passing of time is a sequence of small
steps of the link. -/
theorem moves_step (w : World) (e : Event) (he : ReleasesOnlyBy mayRelease w e) :
    Moves mayRelease w (w.step e) ∨ (∃ opened, e = .init opened) ∨
      ∃ microseconds, e = .elapse microseconds := by
  by_cases hinit : ∃ opened, e = .init opened
  · exact .inr (.inl hinit)
  by_cases helapse : ∃ microseconds, e = .elapse microseconds
  · exact .inr (.inr helapse)
  refine .inl (portRelation_moves.step w ?_ ?_ e (fun _ h => hinit ⟨_, h⟩)
    (fun _ h => helapse ⟨_, h⟩) ?_)
  · intro w writes wsize _
    exact ⟨SerialLink.steps_serialWriteWatchFunc _ writes wsize, rfl⟩
  · intro w
    exact ⟨SerialLink.steps_armWriteSource _, rfl⟩
  · intro r hr hopen
    exact (he r hr hopen).mono fun w f hf => ⟨SerialLink.steps_releaseAnswered _ f hf, rfl⟩

theorem history_step (w : World) (e : Event) (hinit : ∀ opened, e ≠ .init opened) :
    w.pmu.link.history <+: (w.step e).pmu.link.history := by
  rcases moves_step w e (releasesOnlyBy_true w e) with h | ⟨opened, rfl⟩ | ⟨microseconds, rfl⟩
  · exact h.link.history
  · exact absurd rfl (hinit opened)
  · exact List.prefix_refl _

/-- An invariant of the link that holds of a freshly opened port, is kept by every small
step and does not mind time passing is kept by every event. -/
theorem link_invariant_step {I : SerialLink → ℤ → Prop}
    (hopened : ∀ (l : SerialLink) (now : ℤ), I l.opened now)
    (hsteps : ∀ l l' now, SerialLink.Steps mayRelease now l l' → I l now → I l' now)
    (helapse : ∀ l now now', now ≤ now' → I l now → I l now') (w : World) (e : Event)
    (h : I w.pmu.link w.monotonicTime) (he : ReleasesOnlyBy mayRelease w e) :
    I (w.step e).pmu.link (w.step e).monotonicTime := by
  have hmoves {w w' : World} (hw : Moves mayRelease w w') (h : I w.pmu.link w.monotonicTime) :
      I w'.pmu.link w'.monotonicTime := by
    rw [hw.time]
    exact hsteps _ _ _ hw.link h
  rcases moves_step w e he with hw | ⟨opened, rfl⟩ | ⟨microseconds, rfl⟩
  · exact hmoves hw h
  · simp only [step, managerInit]
    split_ifs
    · exact h
    · exact h
    · exact hmoves (portRelation_moves.requests (requests_initRequests _)) (hopened _ _)
  · exact helapse _ _ _ (Int.le_add_of_nonneg_right (Int.natCast_nonneg microseconds)) h

theorem stopAndWait_run (w : World) (events : List Event) :
    (run step w.start events).pmu.link.StopAndWait (run step w.start events).monotonicTime := by
  refine run_invariant (I := fun w : World => w.pmu.link.StopAndWait w.monotonicTime) ?_ ?_ events
  · intro w e h
    exact link_invariant_step SerialLink.stopAndWait_opened (fun _ _ _ hsteps h => h.steps hsteps)
      (fun _ _ _ hle h => h.elapse hle) w e h (releasesOnlyBy_true w e)
  · exact SerialLink.stopAndWait_opened ({} : PmuManagerData).link _

end World
end PcatManager
