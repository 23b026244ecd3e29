import PcatManager.SerialWriteLoop
import PcatManager.PmuManagerRuns

/-!
# The history is not read

The history of the link is not part of the program. Two states of the daemon that differ only
in the received frames it records do the same at every event: they queue the same commands and
write the same bytes.
-/

namespace PcatManager
open SerialFrame SerialReadParser GuardedRun

namespace SerialLink

/-- A history without the received frames: the commands queued and taken, the bytes written. -/
def acts (history : List LinkEvent) : List LinkEvent :=
  history.filter fun
    | .parsed .. => false
    | _ => true

@[simp] theorem acts_append (h h' : List LinkEvent) : acts (h ++ h') = acts h ++ acts h' :=
  List.filter_append _ _

theorem acts_parsed (current : Option ℕ) (command frameNum : UInt16) :
    acts [.parsed current command frameNum] = [] := rfl

/-- The two links differ only in the received frames of their histories. -/
def Alike (l l' : SerialLink) : Prop :=
  ∃ history, acts history = acts l.history ∧ l' = { l with history := history }

variable {l l' : SerialLink} {now : ℤ}

theorem Alike.refl (l : SerialLink) : Alike l l := ⟨l.history, rfl, rfl⟩

theorem Alike.trans {l'' : SerialLink} (h : Alike l l') (h' : Alike l' l'') : Alike l l'' := by
  obtain ⟨history, hacts, rfl⟩ := h
  obtain ⟨history', hacts', rfl⟩ := h'
  exact ⟨history', hacts'.trans hacts, rfl⟩

theorem Alike.symm (h : Alike l l') : Alike l' l := by
  obtain ⟨history, hacts, rfl⟩ := h
  exact ⟨l.history, hacts.symm, rfl⟩

theorem Alike.freeCurrent (h : Alike l l') : Alike l.freeCurrent l'.freeCurrent := by
  obtain ⟨history, hacts, rfl⟩ := h
  exact ⟨history, hacts, rfl⟩

theorem Alike.popCurrent (h : Alike l l') : Alike l.popCurrent l'.popCurrent := by
  obtain ⟨history', hacts', rfl⟩ := h
  obtain ⟨current, queue, frameNum, source, history, requests⟩ := l
  cases queue with
  | nil => exact ⟨history', hacts', rfl⟩
  | cons c queue =>
    exact ⟨history' ++ [.current c], by simp [hacts', SerialLink.popCurrent], rfl⟩

theorem Alike.refill (h : Alike l l') :
    Alike (if l.currentCommandData.isNone then l.popCurrent else l)
      (if l'.currentCommandData.isNone then l'.popCurrent else l') := by
  have hpop := h.popCurrent
  obtain ⟨history, hacts, rfl⟩ := h
  dsimp only at hpop ⊢
  cases l.currentCommandData.isNone with
  | true => exact hpop
  | false => exact ⟨history, hacts, rfl⟩

theorem Alike.serialWriteDataRequest (h : Alike l l') (now : ℤ) (command : UInt16)
    (frameNum : Option UInt16) (extraData : List UInt8) (needAck : Bool) :
    Alike (l.serialWriteDataRequest now command frameNum extraData needAck)
      (l'.serialWriteDataRequest now command frameNum extraData needAck) := by
  obtain ⟨history, hacts, rfl⟩ := h
  have hrefill := Alike.refill (l :=
    { l with
      frameNum := if frameNum.isSome then l.frameNum else l.frameNum + 1
      commandQueue := evictOldest l.commandQueue ++
        [l.newCommandData now command frameNum extraData needAck]
      history := l.history ++
        [.enqueued (l.newCommandData now command frameNum extraData needAck)]
      requests := l.requests + 1 })
    ⟨history ++ [.enqueued (l.newCommandData now command frameNum extraData needAck)],
      by simp [hacts], rfl⟩
  obtain ⟨history', hacts', hsame⟩ := hrefill
  exact ⟨history', hacts', congrArg (fun l => { l with writeSource := true }) hsame⟩

theorem Alike.writeLoop {writes : ℕ → WriteResult} (fuel : ℕ) {k : ℕ} {wsize : WriteResult}
    (h : Alike l l') {r : SerialLink × WriteResult × ℕ}
    (hloop : SerialLink.writeLoop now writes fuel k l wsize = some r) :
    ∃ l'', Alike r.1 l'' ∧
      SerialLink.writeLoop now writes fuel k l' wsize = some (l'', r.2) := by
  induction fuel generalizing k l l' wsize with
  | zero => cases hloop
  | succ fuel ih =>
    have hrefill := h.refill
    rw [SerialLink.writeLoop] at hloop ⊢
    generalize (if l.currentCommandData.isNone then l.popCurrent else l) = l₁ at hloop hrefill
    generalize (if l'.currentCommandData.isNone then l'.popCurrent else l') = l₂ at hrefill ⊢
    have hdone := hrefill
    have hfree := hrefill.freeCurrent
    obtain ⟨history, hacts, rfl⟩ := hrefill
    dsimp only at hloop ⊢
    split at hloop
    · cases hloop
      exact ⟨_, hdone, rfl⟩
    · split_ifs at hloop ⊢
      · cases hloop
        exact ⟨_, hdone, rfl⟩
      · exact ih hfree hloop
      · cases hloop
        exact ⟨_, hdone, rfl⟩
      · exact ih hfree hloop
      · split at hloop
        · split_ifs at hloop ⊢
          · exact ih ⟨_, by simp [hacts, SerialLink.recordWrite], rfl⟩ hloop
          · cases hloop
            exact ⟨_, hdone, rfl⟩
        · cases hloop
          exact ⟨_, hdone, rfl⟩

theorem Alike.endPass (h : Alike l l') : Alike l.endPass l'.endPass := by
  obtain ⟨history', hacts', rfl⟩ := h
  obtain ⟨current, queue, frameNum, source, history, requests⟩ := l
  cases current with
  | none => exact ⟨history', hacts', rfl⟩
  | some c =>
    simp only [SerialLink.endPass]
    split_ifs <;> exact ⟨history', hacts', rfl⟩

theorem Alike.serialWriteWatchFunc (h : Alike l l') (now : ℤ) (writes : ℕ → WriteResult)
    (wsize : WriteResult) :
    Alike (l.serialWriteWatchFunc now writes wsize) (l'.serialWriteWatchFunc now writes wsize) := by
  have hturns : l'.pendingTurns = l.pendingTurns := by
    obtain ⟨history, _, rfl⟩ := h
    rfl
  have hends : (SerialLink.writeLoop now writes (l.pendingTurns + 1) 0 l wsize).isSome :=
    writeLoop_isSome writes _ 0 l wsize (Nat.lt_succ_self _)
  obtain ⟨r, hloop⟩ := Option.isSome_iff_exists.mp hends
  obtain ⟨l'', hsame, hloop'⟩ := h.writeLoop _ hloop
  obtain ⟨history, hacts, hend⟩ := hsame.endPass
  rw [SerialLink.serialWriteWatchFunc, SerialLink.serialWriteWatchFunc, hturns, hloop, hloop']
  exact ⟨history, hacts, congrArg (fun l => { l with writeSource := r.2.1 = WriteResult.again }) hend⟩

theorem Alike.releaseAnswered (h : Alike l l') (f : Frame) :
    Alike (l.releaseAnswered f) (l'.releaseAnswered f) := by
  obtain ⟨history', hacts', rfl⟩ := h
  obtain ⟨current, queue, frameNum, source, history, requests⟩ := l
  cases current with
  | none => exact ⟨_, by simp [hacts', SerialLink.releaseAnswered, acts_parsed], rfl⟩
  | some c =>
    simp only [SerialLink.releaseAnswered]
    split <;> exact ⟨_, by simp [hacts', SerialLink.freeCurrent, acts_parsed], rfl⟩

theorem Alike.armWriteSource (h : Alike l l') (now : ℤ) :
    Alike (l.armWriteSource now) (l'.armWriteSource now) := by
  obtain ⟨history', hacts', rfl⟩ := h
  obtain ⟨current, queue, frameNum, source, history, requests⟩ := l
  cases current with
  | none => cases source <;> cases queue <;> exact ⟨history', hacts', rfl⟩
  | some c =>
    simp only [SerialLink.armWriteSource, Option.isNone_some, Bool.and_false, Bool.false_and,
      Bool.false_eq_true, if_false]
    split_ifs <;> exact ⟨history', hacts', rfl⟩

theorem Alike.opened (h : Alike l l') : l.opened = l'.opened := by
  obtain ⟨history, _, rfl⟩ := h
  rfl

end SerialLink

namespace World

/-- The two states of the daemon differ only in the received frames of their histories. -/
def Alike (w w' : World) : Prop :=
  ∃ history, SerialLink.acts history = SerialLink.acts w.pmu.link.history ∧
    w' = w.setLink { w.pmu.link with history := history }

variable {w w' : World}

theorem Alike.refl (w : World) : Alike w w := ⟨w.pmu.link.history, rfl, rfl⟩

theorem Alike.trans {w'' : World} (h : Alike w w') (h' : Alike w' w'') : Alike w w'' := by
  obtain ⟨history, hacts, rfl⟩ := h
  obtain ⟨history', hacts', rfl⟩ := h'
  exact ⟨history', hacts'.trans hacts, rfl⟩

theorem Alike.symm (h : Alike w w') : Alike w' w := by
  obtain ⟨history, hacts, rfl⟩ := h
  exact ⟨w.pmu.link.history, hacts.symm, rfl⟩

theorem Alike.setLink (h : Alike w w') {l l' : SerialLink} (hlink : SerialLink.Alike l l') :
    Alike (w.setLink l) (w'.setLink l') := by
  obtain ⟨history, _, rfl⟩ := h
  obtain ⟨history', hacts', rfl⟩ := hlink
  exact ⟨history', hacts', rfl⟩

theorem Alike.link (h : Alike w w') : SerialLink.Alike w.pmu.link w'.pmu.link := by
  obtain ⟨history, hacts, rfl⟩ := h
  exact ⟨history, hacts, rfl⟩

theorem Alike.ite {w₁ w₂ w₁' w₂' : World} {p : Prop} [Decidable p] (h₁ : Alike w₁ w₁')
    (h₂ : Alike w₂ w₂') : Alike (if p then w₁ else w₂) (if p then w₁' else w₂') := by
  split
  · exact h₁
  · exact h₂

theorem Alike.serialWriteDataRequest (h : Alike w w') (command : UInt16) (frameNum : Option UInt16)
    (extraData : List UInt8) (needAck : Bool) :
    Alike (w.serialWriteDataRequest command frameNum extraData needAck)
      (w'.serialWriteDataRequest command frameNum extraData needAck) := by
  have hlink := h.link.serialWriteDataRequest w.monotonicTime command frameNum extraData
    needAck
  have hset := h.setLink hlink
  obtain ⟨history, hacts, rfl⟩ := h
  exact .ite hset ⟨history, hacts, rfl⟩

theorem Alike.acknowledge (h : Alike w w') (f : Frame) (extraData : List UInt8) :
    Alike (w.acknowledge f extraData) (w'.acknowledge f extraData) :=
  .ite (h.serialWriteDataRequest _ _ _ _) h

theorem Alike.dateTimeSync (h : Alike w w') : Alike w.dateTimeSync w'.dateTimeSync := by
  have hrequest := h.serialWriteDataRequest commandDateTimeSync none
  obtain ⟨history, hacts, rfl⟩ := h
  exact hrequest _ _

theorem Alike.scheduleTimeUpdateInternal (h : Alike w w') :
    Alike w.scheduleTimeUpdateInternal w'.scheduleTimeUpdateInternal := by
  have hrequest := h.serialWriteDataRequest commandScheduleStartupTimeSet none
  obtain ⟨history, hacts, rfl⟩ := h
  simp only [World.scheduleTimeUpdateInternal, World.setLink]
  cases w.userConfig.powerScheduleData with
  | none => exact ⟨history, hacts, rfl⟩
  | some schedule => exact .ite (hrequest _ _) ⟨history, hacts, rfl⟩

theorem Alike.voltageThresholdSetInterval (h : Alike w w') (a b c d e f g i : UInt32) :
    Alike (w.voltageThresholdSetInterval a b c d e f g i)
      (w'.voltageThresholdSetInterval a b c d e f g i) := by
  have hrequest := h.serialWriteDataRequest commandVoltageThresholdSet none
  obtain ⟨history, hacts, rfl⟩ := h
  exact hrequest _ _

theorem Alike.watchdogTimeoutSet (h : Alike w w') (timeout : UInt32) :
    Alike (w.watchdogTimeoutSet timeout) (w'.watchdogTimeoutSet timeout) := by
  have hrequest := h.serialWriteDataRequest commandWatchdogTimeoutSet none
  obtain ⟨history, hacts, rfl⟩ := h
  exact .ite ⟨history, hacts, rfl⟩ (hrequest _ _)

theorem Alike.initRequests (h : Alike w w') : Alike w.initRequests w'.initRequests := by
  have hcharger {w w' : World} (h : Alike w w') :
      Alike (w.chargerOnAutoStartInternal w.userConfig.chargerOnAutoStart)
        (w'.chargerOnAutoStartInternal w'.userConfig.chargerOnAutoStart) := by
    have hrequest := h.serialWriteDataRequest commandChargerOnAutoStart none
    obtain ⟨history, hacts, rfl⟩ := h
    exact hrequest _ _
  have hvoltage {w w' : World} (h : Alike w w') :
      Alike (w.voltageThresholdSetInterval 0 0 0 0 0 w.mainConfig.pmAutoShutdownVoltageGeneral 0 0)
        (w'.voltageThresholdSetInterval 0 0 0 0 0 w'.mainConfig.pmAutoShutdownVoltageGeneral 0 0) := by
    have hset := h.voltageThresholdSetInterval 0 0 0 0 0
    obtain ⟨history, hacts, rfl⟩ := h
    exact hset _ _ _
  have hthresholds := hvoltage (hcharger h.scheduleTimeUpdateInternal.dateTimeSync)
  have hversion := hthresholds.serialWriteDataRequest commandPmuFwVersionGet none [] true
  exact (hversion.serialWriteDataRequest commandPowerOnEventGet none [] true).watchdogTimeoutSet 5

theorem Alike.managerInit (h : Alike w w') (opened : Bool) :
    Alike (w.managerInit opened) (w'.managerInit opened) := by
  have hset : Alike
      { w.resetForInit.serialOpen.setBatteryTables with
        pmu := { w.resetForInit.serialOpen.setBatteryTables.pmu with initialized := true } }
      { w'.resetForInit.serialOpen.setBatteryTables with
        pmu := { w'.resetForInit.serialOpen.setBatteryTables.pmu with initialized := true } } := by
    obtain ⟨history, _, rfl⟩ := h
    exact ⟨[], rfl, rfl⟩
  have hrequests := hset.initRequests
  obtain ⟨history, hacts, rfl⟩ := h
  exact .ite ⟨history, hacts, rfl⟩ (.ite ⟨history, hacts, rfl⟩ hrequests)

theorem Alike.statusClock (h : Alike w w') (pmuTime : Option UnixTime) :
    Alike (w.statusClock pmuTime) (w'.statusClock pmuTime) := by
  have hsync := h.dateTimeSync
  obtain ⟨history, hacts, rfl⟩ := h
  cases pmuTime with
  | none => exact .ite (.ite hsync ⟨history, hacts, rfl⟩) ⟨history, hacts, rfl⟩
  | some t => exact .ite (.ite hsync ⟨history, hacts, rfl⟩) ⟨history, hacts, rfl⟩

theorem Alike.statusDataParse (h : Alike w w') (data : List UInt8) :
    Alike (w.statusDataParse data) (w'.statusDataParse data) := by
  have hbattery {w w' : World} (h : Alike w w') (batteryVoltage chargerVoltage : UInt32)
      (boardTemp : ℤ) : Alike (w.statusBattery batteryVoltage chargerVoltage boardTemp)
        (w'.statusBattery batteryVoltage chargerVoltage boardTemp) := by
    obtain ⟨history, hacts, rfl⟩ := h
    exact ⟨history, hacts, rfl⟩
  exact .ite h (hbattery (h.statusClock _) _ _ _)

theorem Alike.handleCommand (h : Alike w w') (f : Frame) :
    Alike (w.handleCommand f) (w'.handleCommand f) := by
  have hreport := (h.statusDataParse f.extraData).acknowledge f []
  obtain ⟨history, hacts, rfl⟩ := h
  have hshutdown : Alike (w.requestShutdown false)
      ((w.setLink { w.pmu.link with history := history }).requestShutdown false) := ⟨history, hacts, rfl⟩
  have hreset : Alike
      { w with main := { w.main with spawned := w.main.spawned ++ ["pcat-factory-reset.sh"] } }
      { w.setLink { w.pmu.link with history := history } with
        main := { w.main with spawned := w.main.spawned ++ ["pcat-factory-reset.sh"] } } :=
    ⟨history, hacts, rfl⟩
  refine .ite (.ite ⟨history, hacts, rfl⟩ hreport) (.ite (hshutdown.acknowledge f []) ?_)
  refine .ite (.ite ⟨history, hacts, rfl⟩ ⟨history, hacts, rfl⟩)
    (.ite (.ite ⟨history, hacts, rfl⟩ ⟨history, hacts, rfl⟩) ?_)
  refine .ite (hreset.acknowledge f [0]) (.ite (.ite ⟨history, hacts, rfl⟩ ⟨history, hacts, rfl⟩) ?_)
  refine .ite ?_ ⟨history, hacts, rfl⟩
  cases f.extraData with
  | nil => exact ⟨history, hacts, rfl⟩
  | cons event rest => exact ⟨history, hacts, rfl⟩

theorem Alike.dispatchFrame (h : Alike w w') (f : Frame) :
    Alike (w.dispatchFrame f) (w'.dispatchFrame f) := by
  have hrelease := h.setLink (h.link.releaseAnswered f)
  exact .ite (hrelease.handleCommand f) hrelease

theorem Alike.run_dispatchFrame (h : Alike w w') (frames : List Frame) :
    Alike (run World.dispatchFrame w frames) (run World.dispatchFrame w' frames) := by
  induction frames generalizing w w' with
  | nil => exact h
  | cons f frames ih => exact ih (h.dispatchFrame f)

theorem Alike.powerScheduleLoop (dt : GregorianCalendar.DateTime)
    (schedule : List PowerScheduleData) (needAction : Bool) (h : Alike w w') :
    Alike (World.powerScheduleLoop dt schedule needAction w)
      (World.powerScheduleLoop dt schedule needAction w') := by
  induction schedule generalizing needAction w w' with
  | nil => exact h
  | cons sdata rest ih =>
    have hplan : Alike w.planShutdown w'.planShutdown := by
      obtain ⟨history, hacts, rfl⟩ := h
      exact ⟨history, hacts, rfl⟩
    rw [World.powerScheduleLoop, World.powerScheduleLoop]
    exact .ite (ih _ h) (.ite (ih _ h) (ih _ (.ite hplan h)))

theorem Alike.checkPlannedShutdown (h : Alike w w') :
    Alike w.checkPlannedShutdown w'.checkPlannedShutdown := by
  have hplan : Alike w.planShutdown w'.planShutdown := by
    obtain ⟨history, hacts, rfl⟩ := h
    exact ⟨history, hacts, rfl⟩
  have hloop (schedule : List PowerScheduleData) :=
    h.powerScheduleLoop w.realTime.utc schedule false
  obtain ⟨history, hacts, rfl⟩ := h
  refine .ite (.ite hplan ⟨history, hacts, rfl⟩) ?_
  simp only [World.setLink]
  cases w.userConfig.powerScheduleData with
  | none => exact ⟨history, hacts, rfl⟩
  | some schedule => exact .ite ⟨history, hacts, rfl⟩ (hloop schedule)

theorem Alike.checkModemDevice (h : Alike w w') : Alike w.checkModemDevice w'.checkModemDevice := by
  have hseen : Alike { w with pmu := { w.pmu with modemDeviceType := w.modemDeviceType } }
      { w' with pmu := { w'.pmu with modemDeviceType := w'.modemDeviceType } } := by
    obtain ⟨history, hacts, rfl⟩ := h
    exact ⟨history, hacts, rfl⟩
  have hset := hseen.voltageThresholdSetInterval 0 0 0 0 0
  obtain ⟨history, hacts, rfl⟩ := h
  exact .ite (hset _ _ _) ⟨history, hacts, rfl⟩

theorem Alike.checkTimeoutFunc (h : Alike w w') : Alike w.checkTimeoutFunc w'.checkTimeoutFunc := by
  have hrefresh : Alike w.refreshChargerTimestamp w'.refreshChargerTimestamp := by
    obtain ⟨history, hacts, rfl⟩ := h
    exact .ite ⟨history, hacts, rfl⟩ ⟨history, hacts, rfl⟩
  have hplan {w w' : World} (h : Alike w w') :
      Alike
        (if (!w.pmu.rebootRequest && !w.pmu.shutdownRequest) = true then
          (w.serialWriteDataRequest commandHeartbeat none [] false).checkPlannedShutdown else w)
        (if (!w'.pmu.rebootRequest && !w'.pmu.shutdownRequest) = true then
          (w'.serialWriteDataRequest commandHeartbeat none [] false).checkPlannedShutdown else w') := by
    have hbeat := (h.serialWriteDataRequest commandHeartbeat none [] false).checkPlannedShutdown
    obtain ⟨history, hacts, rfl⟩ := h
    exact .ite hbeat ⟨history, hacts, rfl⟩
  have harm {w w' : World} (h : Alike w w') :
      Alike (w.setLink (w.pmu.link.armWriteSource w.monotonicTime))
        (w'.setLink (w'.pmu.link.armWriteSource w'.monotonicTime)) := by
    have hset := h.setLink (h.link.armWriteSource w.monotonicTime)
    obtain ⟨history, hacts, rfl⟩ := h
    exact hset
  have htick := harm (hplan hrefresh).checkModemDevice
  obtain ⟨history, hacts, rfl⟩ := h
  exact .ite ⟨history, hacts, rfl⟩ htick

/-- What a read leaves in the buffer. -/
def bufferRead (w : World) (r : Read) : List UInt8 :=
  (serialReadStep (fun frames f => frames ++ [f]) w.pmu.serialReadBuffer ([] : List Frame) r.bytes).1

theorem serialReadWatchFunc_eq (w : World) (r : Read) :
    w.serialReadWatchFunc r =
      { run World.dispatchFrame w (w.framesRead r) with
        pmu :=
          { (run World.dispatchFrame w (w.framesRead r)).pmu with
            serialReadBuffer := w.bufferRead r } } := by
  rw [← serialReadStep_eq_foldl, bufferRead,
    ← buffer_serialReadStep World.dispatchFrame (fun frames f => frames ++ [f]) _ _ w]
  rfl

/-- A read finds the same frames and leaves the same in the buffer. -/
theorem Alike.serialReadWatchFunc (h : Alike w w') (r : Read) :
    Alike (w.serialReadWatchFunc r) (w'.serialReadWatchFunc r) := by
  have hframes : w'.framesRead r = w.framesRead r := by
    obtain ⟨history, _, rfl⟩ := h
    rfl
  have hbuffer : w'.pmu.serialReadBuffer = w.pmu.serialReadBuffer := by
    obtain ⟨history, _, rfl⟩ := h
    rfl
  rw [serialReadWatchFunc_eq, serialReadWatchFunc_eq, bufferRead, bufferRead, hframes, hbuffer]
  obtain ⟨history, hacts, hrun⟩ := h.run_dispatchFrame (w.framesRead r)
  rw [hrun]
  exact ⟨history, hacts, rfl⟩

theorem Alike.step (h : Alike w w') (e : Event) : Alike (w.step e) (w'.step e) := by
  cases e with
  | init opened => exact h.managerInit opened
  | request command frameNum extraData needAck => exact h.serialWriteDataRequest _ _ _ _
  | writeWatch writes wsize =>
    have hset := h.setLink (h.link.serialWriteWatchFunc w.monotonicTime writes wsize)
    obtain ⟨history, hacts, rfl⟩ := h
    exact .ite hset ⟨history, hacts, rfl⟩
  | read r =>
    have hread := h.serialReadWatchFunc r
    obtain ⟨history, hacts, rfl⟩ := h
    exact .ite hread ⟨history, hacts, rfl⟩
  | tick => exact h.checkTimeoutFunc
  | elapse microseconds =>
    obtain ⟨history, hacts, rfl⟩ := h
    exact ⟨history, hacts, rfl⟩
  | setClock t =>
    obtain ⟨history, hacts, rfl⟩ := h
    exact ⟨history, hacts, rfl⟩
  | configure config =>
    obtain ⟨history, hacts, rfl⟩ := h
    exact ⟨history, hacts, rfl⟩
  | modem deviceType =>
    obtain ⟨history, hacts, rfl⟩ := h
    exact ⟨history, hacts, rfl⟩
  | watchdogTimeoutSet timeout => exact h.watchdogTimeoutSet timeout
  | shutdownRequest =>
    obtain ⟨history, hacts, hsame⟩ := h.serialWriteDataRequest commandHostRequestShutdown none [] true
    rw [World.step, World.step, shutdownRequest, shutdownRequest, hsame]
    exact ⟨history, hacts, rfl⟩
  | rebootRequest =>
    obtain ⟨history, hacts, hsame⟩ := h.watchdogTimeoutSet 60
    rw [World.step, World.step, rebootRequest, rebootRequest, hsame]
    exact ⟨history, hacts, rfl⟩
  | scheduleTimeUpdate =>
    have hupdate := h.scheduleTimeUpdateInternal
    obtain ⟨history, hacts, rfl⟩ := h
    exact .ite hupdate ⟨history, hacts, rfl⟩
  | chargerOnAutoStart state =>
    have hrequest := h.serialWriteDataRequest commandChargerOnAutoStart none
      [if state then 1 else 0] true
    obtain ⟨history, hacts, rfl⟩ := h
    exact .ite hrequest ⟨history, hacts, rfl⟩
  | netStatusLedSetup onTime downTime repeatTimes =>
    have hrequest := h.serialWriteDataRequest commandNetStatusLedSetup none
      (le16 onTime.toUInt16 ++ le16 downTime.toUInt16 ++ le16 repeatTimes.toUInt16) true
    obtain ⟨history, hacts, rfl⟩ := h
    exact .ite hrequest ⟨history, hacts, rfl⟩
  | voltageThresholdSet a b c d e f g i =>
    have hset := h.voltageThresholdSetInterval a b c d e f g i
    obtain ⟨history, hacts, rfl⟩ := h
    exact .ite hset ⟨history, hacts, rfl⟩

end World
end PcatManager
