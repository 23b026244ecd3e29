import PcatManager.MainLoop
import PcatManager.RunTrace

/-!
# What the PMU is asked for

The calls of the request function that every event of the daemon makes, in order, and what
they enqueue: from the start of the daemon on the enqueued commands are these calls, with
the automatic frame numbers counted from 0.
-/

namespace PcatManager
open SerialFrame SerialReadParser GuardedRun RunTrace

/-- The arguments of `pcat_pmu_serial_write_data_request`. -/
structure DataRequest where
  command : UInt16
  frameNum : Option UInt16
  extraData : List UInt8
  needAck : Bool
  deriving DecidableEq, Repr

/-- A request that was given a frame number. -/
structure NumberedRequest where
  request : DataRequest
  frameNum : UInt16
  deriving DecidableEq, Repr

/-- Requests one after the other with the frame number counter at `n`. -/
def numbered : (n : UInt16) → List DataRequest → List NumberedRequest
  | _, [] => []
  | n, r :: requests =>
    ⟨r, r.frameNum.getD n⟩ :: numbered (if r.frameNum.isSome then n else n + 1) requests

/-- The frame number counter after some requests. -/
def counterAfter : (n : UInt16) → List DataRequest → UInt16
  | n, [] => n
  | n, r :: requests => counterAfter (if r.frameNum.isSome then n else n + 1) requests

theorem numbered_append (n : UInt16) (requests requests' : List DataRequest) :
    numbered n (requests ++ requests') =
      numbered n requests ++ numbered (counterAfter n requests) requests' := by
  induction requests generalizing n with
  | nil => rfl
  | cons r requests ih => rw [List.cons_append, numbered, ih, numbered, List.cons_append, counterAfter]

theorem counterAfter_append (n : UInt16) (requests requests' : List DataRequest) :
    counterAfter n (requests ++ requests') = counterAfter (counterAfter n requests) requests' := by
  induction requests generalizing n with
  | nil => rfl
  | cons r requests ih => rw [List.cons_append, counterAfter, ih, counterAfter]

theorem map_request_numbered (n : UInt16) (requests : List DataRequest) :
    (numbered n requests).map NumberedRequest.request = requests := by
  induction requests generalizing n with
  | nil => rfl
  | cons r requests ih => rw [numbered, List.map_cons, ih]

theorem request_mem_of_numbered {n : UInt16} {requests : List DataRequest} {r : NumberedRequest}
    (hr : r ∈ numbered n requests) : r.request ∈ requests := by
  rw [← map_request_numbered n requests]
  exact List.mem_map_of_mem hr

/-- What a command says, whatever has become of it. -/
structure CommandContent where
  command : UInt16
  frameNum : UInt16
  needAck : Bool
  buffer : List UInt8
  deriving DecidableEq, Repr

def CommandData.content (cmd : CommandData) : CommandContent :=
  ⟨cmd.command, cmd.frameNum, cmd.needAck, cmd.buffer⟩

def NumberedRequest.content (r : NumberedRequest) : CommandContent :=
  ⟨r.request.command, r.frameNum, r.request.needAck,
    serialWriteFrame r.frameNum r.request.command r.request.extraData r.request.needAck⟩

theorem command_content_numbered (n : UInt16) (requests : List DataRequest) :
    ((numbered n requests).map NumberedRequest.content).map CommandContent.command =
      requests.map DataRequest.command := by
  have hrequests := congrArg (List.map DataRequest.command) (map_request_numbered n requests)
  rw [List.map_map] at hrequests ⊢
  exact hrequests

namespace World

/-- The contents of the commands enqueued so far. -/
def enqueued (w : World) : List CommandContent :=
  (enqueuedCommands w.pmu.link.history).map CommandData.content

/-- From `w` to `w'` exactly these requests are made, and on an open port enqueued. -/
structure Asks (w w' : World) (requests : List DataRequest) : Prop where
  initialized : w'.pmu.initialized = w.pmu.initialized
  channel : w'.pmu.serialChannel = w.pmu.serialChannel
  counter : w'.pmu.link.frameNum = counterAfter w.pmu.link.frameNum requests
  enqueued : w'.enqueued = w.enqueued ++
    if w.pmu.serialChannel then
      (numbered w.pmu.link.frameNum requests).map NumberedRequest.content
    else []

theorem Asks.trans {u v w : World} {requests requests' : List DataRequest}
    (h : Asks u v requests) (h' : Asks v w requests') : Asks u w (requests ++ requests') where
  initialized := h'.initialized.trans h.initialized
  channel := h'.channel.trans h.channel
  counter := by rw [h'.counter, h.counter, counterAfter_append]
  enqueued := by
    rw [h'.enqueued, h.enqueued, h.channel, h.counter, List.append_assoc]
    cases u.pmu.serialChannel with
    | false => rfl
    | true => simp only [if_true, numbered_append, List.map_append]

/-- Nothing is asked for where the port, the counter and the enqueued commands stay. -/
theorem Asks.nothing {w w' : World} (hinitialized : w'.pmu.initialized = w.pmu.initialized)
    (hchannel : w'.pmu.serialChannel = w.pmu.serialChannel)
    (hcounter : w'.pmu.link.frameNum = w.pmu.link.frameNum)
    (henqueued : enqueuedCommands w'.pmu.link.history = enqueuedCommands w.pmu.link.history) :
    Asks w w' [] := by
  refine ⟨hinitialized, hchannel, hcounter, ?_⟩
  rw [World.enqueued, World.enqueued, henqueued]
  simp [numbered]

theorem Asks.refl (w : World) : Asks w w [] := .nothing rfl rfl rfl rfl

theorem Asks.of_samePort {w w' : World} (h : SamePort w w') : Asks w w' [] :=
  .nothing h.initialized h.channel (congrArg SerialLink.frameNum h.link)
    (congrArg (fun l => enqueuedCommands l.history) h.link)

theorem Asks.after_nothing {u v w : World} {requests : List DataRequest} (h : Asks u v [])
    (h' : Asks v w requests) : Asks u w requests := h.trans h'

theorem Asks.then_nothing {u v w : World} {requests : List DataRequest} (h : Asks u v requests)
    (h' : Asks v w []) : Asks u w requests := by
  have htrans := h.trans h'
  rwa [List.append_nil] at htrans

theorem Asks.ite {w w₁ w₂ : World} {requests₁ requests₂ : List DataRequest} {p : Prop} [Decidable p]
    (h₁ : p → Asks w w₁ requests₁) (h₂ : ¬p → Asks w w₂ requests₂) :
    Asks w (if p then w₁ else w₂) (if p then requests₁ else requests₂) := by
  split
  · exact h₁ ‹p›
  · exact h₂ ‹¬p›

theorem frameNum_refill (l : SerialLink) :
    (if l.currentCommandData.isNone then l.popCurrent else l).frameNum = l.frameNum := by
  split
  · rw [SerialLink.popCurrent]
    split <;> rfl
  · rfl

theorem frameNum_serialWriteDataRequest (l : SerialLink) (now : ℤ) (command : UInt16)
    (frameNum : Option UInt16) (extraData : List UInt8) (needAck : Bool) :
    (l.serialWriteDataRequest now command frameNum extraData needAck).frameNum =
      if frameNum.isSome then l.frameNum else l.frameNum + 1 :=
  frameNum_refill _

theorem frameNum_writeLoop {now : ℤ} {writes : ℕ → WriteResult} (fuel : ℕ) {k k' : ℕ}
    {l l' : SerialLink} {wsize wsize' : WriteResult}
    (h : SerialLink.writeLoop now writes fuel k l wsize = some (l', wsize', k')) :
    l'.frameNum = l.frameNum := by
  induction fuel generalizing k l wsize with
  | zero => cases h
  | succ fuel ih =>
    obtain ⟨l₁, hrefill, hturn⟩ := SerialLink.writeLoop_cases h
    have hsame : l₁.frameNum = l.frameNum := by
      rw [← hrefill]
      exact frameNum_refill l
    obtain ⟨rfl, -⟩ | ⟨-, hrest⟩ | ⟨c, n, -, hrest⟩ := hturn
    · exact hsame
    · exact (ih hrest).trans hsame
    · exact (ih hrest).trans hsame

theorem frameNum_serialWriteWatchFunc (l : SerialLink) (now : ℤ) (writes : ℕ → WriteResult)
    (wsize : WriteResult) :
    (l.serialWriteWatchFunc now writes wsize).frameNum = l.frameNum := by
  rw [SerialLink.serialWriteWatchFunc]
  split
  · rfl
  · rename_i l' wsize' k' h
    have hpass : l'.endPass.frameNum = l'.frameNum := by
      rw [SerialLink.endPass]
      split
      · rfl
      · split_ifs <;> rfl
    exact hpass.trans (frameNum_writeLoop _ h)

theorem asks_serialWriteDataRequest (w : World) (command : UInt16) (frameNum : Option UInt16)
    (extraData : List UInt8) (needAck : Bool) :
    Asks w (w.serialWriteDataRequest command frameNum extraData needAck)
      [⟨command, frameNum, extraData, needAck⟩] := by
  rw [serialWriteDataRequest]
  split
  · rename_i hopen
    refine ⟨rfl, rfl, frameNum_serialWriteDataRequest _ _ _ _ _ _, ?_⟩
    rw [hopen, if_pos rfl, World.enqueued, setLink]
    simp only [SerialLink.enqueuedCommands_serialWriteDataRequest, List.map_append]
    rfl
  · rename_i hclosed
    refine ⟨rfl, rfl, rfl, ?_⟩
    rw [if_neg hclosed, List.append_nil]
    rfl

/-- The bytes of a time in `DATE_TIME_SYNC`. -/
def clockRecord (t : UnixTime) : List UInt8 :=
  le16 (UInt16.ofNat t.utc.date.year.toNat) ++
    [UInt8.ofNat t.utc.date.month, UInt8.ofNat t.utc.date.day.toNat, UInt8.ofNat t.utc.hour.toNat,
      UInt8.ofNat t.utc.minute.toNat, UInt8.ofNat t.utc.second.toNat]

def syncRequest (w : World) : DataRequest :=
  ⟨commandDateTimeSync, none, clockRecord w.realTime, true⟩

def scheduleRequests (w : World) : List DataRequest :=
  match w.userConfig.powerScheduleData with
  | none => []
  | some schedule =>
    if 0 < (startupSetupLoop schedule []).length then
      [⟨commandScheduleStartupTimeSet, none, startupSetupLoop schedule [], true⟩]
    else []

def chargerRequest (state : Bool) : DataRequest :=
  ⟨commandChargerOnAutoStart, none, [if state then 1 else 0], true⟩

/-- The voltages of `VOLTAGE_THRESHOLD_SET`, in their order on the wire. -/
def thresholdVoltages (config : MainConfigData) (ledVh ledVm ledVl startupVoltage chargerVoltage
    shutdownVoltage ledWorkVl chargerFastVoltage : UInt32) : List UInt32 :=
  let orConfigured (v configured : UInt32) := if v = 0 then configured else v
  [orConfigured ledVh config.pmLedHighVoltage,
    orConfigured ledVm config.pmLedMediumVoltage,
    orConfigured ledVl config.pmLedLowVoltage,
    orConfigured startupVoltage config.pmStartupVoltage,
    orConfigured chargerVoltage config.pmChargerLimitVoltage,
    orConfigured shutdownVoltage config.pmAutoShutdownVoltageGeneral,
    orConfigured ledWorkVl config.pmLedWorkLowVoltage,
    orConfigured chargerFastVoltage config.pmChargerFastVoltage,
    config.pmBatteryFullThreshold]

def thresholdRequest (voltages : List UInt32) : DataRequest :=
  ⟨commandVoltageThresholdSet, none, voltages.flatMap fun v => le16 v.toUInt16, true⟩

def watchdogRequests (w : World) (timeout : UInt32) : List DataRequest :=
  if !w.pmu.initialized || !w.pmu.serialChannel then []
  else [⟨commandWatchdogTimeoutSet, none, [60, 60, timeout.toUInt8], true⟩]

def ledRequest (onTime downTime repeatTimes : UInt32) : DataRequest :=
  ⟨commandNetStatusLedSetup, none,
    le16 onTime.toUInt16 ++ le16 downTime.toUInt16 ++ le16 repeatTimes.toUInt16, true⟩

/-- The acknowledgement of a frame. -/
def ackRequests (f : Frame) (extraData : List UInt8) : List DataRequest :=
  if f.needAck then [⟨f.command + 1, some f.frameNum, extraData, false⟩] else []

/-- The time a status report carries. -/
def reportTime (data : List UInt8) : Option UnixTime :=
  let byte (i : ℕ) := data.getD i 0
  unixTimeOfUtc (ofLe16 (byte 8) (byte 9)).toNat (byte 10).toNat (byte 11).toNat (byte 12).toNat
    (byte 13).toNat (byte 14).toNat

/-- The clock of the PMU is more than a minute off the host's. -/
def OutOfStep (w : World) (pmuTime : Option UnixTime) : Prop :=
  let pmuUnixTime := match pmuTime with | some t => t.seconds | none => 0
  60 < pmuUnixTime - w.realTime.seconds ∨ 60 < w.realTime.seconds - pmuUnixTime

instance (w : World) (pmuTime : Option UnixTime) : Decidable (w.OutOfStep pmuTime) :=
  inferInstanceAs (Decidable (_ ∨ _))

def clockRequests (w : World) (pmuTime : Option UnixTime) : List DataRequest :=
  if w.pmu.systemTimeSetFlag && w.OutOfStep pmuTime then [w.syncRequest] else []

/-- What a frame for the host makes the daemon ask for. -/
def handleRequests (w : World) (f : Frame) : List DataRequest :=
  if f.command = commandStatusReport then
    if f.extraData.length < 16 then []
    else w.clockRequests (reportTime f.extraData) ++ ackRequests f []
  else if f.command = commandPmuRequestShutdown then ackRequests f []
  else if f.command = commandPmuRequestFactoryReset then ackRequests f [0]
  else []

def frameRequests (w : World) (f : Frame) : List DataRequest :=
  if forHost f then w.handleRequests f else []

/-- The shutdown voltage for the modem that is present. -/
def modemShutdownVoltage (config : MainConfigData) : ModemDeviceType → UInt32
  | .fiveG => config.pmAutoShutdownVoltage5g
  | .general => config.pmAutoShutdownVoltageLte
  | .none => config.pmAutoShutdownVoltageGeneral

def heartbeatRequest : DataRequest := ⟨commandHeartbeat, none, [], false⟩

def modemRequests (w : World) : List DataRequest :=
  if w.pmu.modemDeviceType ≠ w.modemDeviceType then
    [thresholdRequest (thresholdVoltages w.mainConfig 0 0 0 0 0
      (modemShutdownVoltage w.mainConfig w.modemDeviceType) 0 0)]
  else []

def tickRequests (w : World) : List DataRequest :=
  if !w.pmu.serialChannel then []
  else
    (if !w.pmu.rebootRequest && !w.pmu.shutdownRequest then [heartbeatRequest] else []) ++
      w.modemRequests

/-- What an event makes the daemon ask for. The initialisation is not among them. -/
def eventRequests (w : World) : Event → List DataRequest
  | .init _ => []
  | .request command frameNum extraData needAck => [⟨command, frameNum, extraData, needAck⟩]
  | .writeWatch _ _ => []
  | .read r =>
    if w.pmu.serialChannel then trace dispatchFrame frameRequests w (w.framesRead r) else []
  | .tick => w.tickRequests
  | .elapse _ => []
  | .setClock _ => []
  | .configure _ => []
  | .modem _ => []
  | .watchdogTimeoutSet timeout => w.watchdogRequests timeout
  | .shutdownRequest => [⟨commandHostRequestShutdown, none, [], true⟩]
  | .rebootRequest => w.watchdogRequests 60
  | .scheduleTimeUpdate => if w.pmu.initialized then w.scheduleRequests else []
  | .chargerOnAutoStart state => if w.pmu.initialized then [chargerRequest state] else []
  | .netStatusLedSetup onTime downTime repeatTimes =>
    if w.pmu.initialized then [ledRequest onTime downTime repeatTimes] else []
  | .voltageThresholdSet ledVh ledVm ledVl startupVoltage chargerVoltage shutdownVoltage
      ledWorkVl chargerFastVoltage =>
    if w.pmu.initialized then
      [thresholdRequest (thresholdVoltages w.mainConfig ledVh ledVm ledVl startupVoltage
        chargerVoltage shutdownVoltage ledWorkVl chargerFastVoltage)]
    else []

/-- The requests at the end of the initialisation. -/
def initialRequests (w : World) : List DataRequest :=
  w.scheduleRequests ++
    [w.syncRequest, chargerRequest w.userConfig.chargerOnAutoStart,
      thresholdRequest (thresholdVoltages w.mainConfig 0 0 0 0 0
        w.mainConfig.pmAutoShutdownVoltageGeneral 0 0),
      ⟨commandPmuFwVersionGet, none, [], true⟩, ⟨commandPowerOnEventGet, none, [], true⟩,
      ⟨commandWatchdogTimeoutSet, none, [60, 60, 5], true⟩]

section Functions
variable (w : World)

theorem asks_dateTimeSync : Asks w w.dateTimeSync [w.syncRequest] :=
  w.asks_serialWriteDataRequest _ _ _ _

theorem asks_scheduleTimeUpdateInternal :
    Asks w w.scheduleTimeUpdateInternal w.scheduleRequests := by
  rw [scheduleTimeUpdateInternal, scheduleRequests]
  cases w.userConfig.powerScheduleData with
  | none => exact .refl w
  | some schedule => exact .ite (fun _ => w.asks_serialWriteDataRequest _ _ _ _) (fun _ => .refl w)

theorem asks_voltageThresholdSetInterval (a b c d e f g h : UInt32) :
    Asks w (w.voltageThresholdSetInterval a b c d e f g h)
      [thresholdRequest (thresholdVoltages w.mainConfig a b c d e f g h)] :=
  w.asks_serialWriteDataRequest _ _ _ _

theorem asks_watchdogTimeoutSet (timeout : UInt32) :
    Asks w (w.watchdogTimeoutSet timeout) (w.watchdogRequests timeout) := by
  rw [watchdogTimeoutSet, watchdogRequests]
  exact .ite (fun _ => .refl w) (fun _ => w.asks_serialWriteDataRequest _ _ _ _)

theorem asks_acknowledge (f : Frame) (extraData : List UInt8) :
    Asks w (w.acknowledge f extraData) (ackRequests f extraData) := by
  rw [acknowledge, ackRequests]
  exact .ite (fun _ => w.asks_serialWriteDataRequest _ _ _ _) (fun _ => .refl w)

theorem asks_statusDataParse {data : List UInt8} (hlen : ¬data.length < 16) :
    Asks w (w.statusDataParse data) (w.clockRequests (reportTime data)) := by
  have hclock (pmuTime : Option UnixTime) :
      Asks w (w.statusClock pmuTime) (w.clockRequests pmuTime) := by
    simp only [statusClock, clockRequests]
    cases w.pmu.systemTimeSetFlag with
    | true =>
      rw [if_pos rfl, Bool.true_and]
      simp only [decide_eq_true_eq]
      exact .ite (fun _ => asks_dateTimeSync w) (fun _ => .refl w)
    | false =>
      rw [if_neg Bool.false_ne_true, Bool.false_and, if_neg Bool.false_ne_true]
      cases pmuTime <;> exact .nothing rfl rfl rfl rfl
  rw [statusDataParse, if_neg hlen]
  exact (hclock _).then_nothing (.nothing rfl rfl rfl rfl)

theorem asks_handleCommand (f : Frame) : Asks w (w.handleCommand f) (w.handleRequests f) := by
  rw [handleCommand, handleRequests]
  by_cases hstatus : f.command = commandStatusReport
  · rw [if_pos hstatus, if_pos hstatus]
    refine .ite (fun _ => .refl w) fun hlen => ?_
    exact (asks_statusDataParse w hlen).trans (asks_acknowledge _ f [])
  rw [if_neg hstatus, if_neg hstatus]
  by_cases hask : f.command = commandPmuRequestShutdown
  · rw [if_pos hask, if_pos hask]
    have hasked : Asks w (w.requestShutdown false) [] := .nothing rfl rfl rfl rfl
    exact hasked.after_nothing (asks_acknowledge _ f [])
  rw [if_neg hask, if_neg hask]
  by_cases hreset : f.command = commandPmuRequestFactoryReset
  · rw [if_neg (by rw [hreset]; decide), if_neg (by rw [hreset]; decide), if_pos hreset,
      if_pos hreset]
    have hspawned : Asks w
        { w with main := { w.main with spawned := w.main.spawned ++ ["pcat-factory-reset.sh"] } } [] :=
      .nothing rfl rfl rfl rfl
    exact hspawned.after_nothing (asks_acknowledge _ f [0])
  rw [if_neg hreset, if_neg hreset]
  have hnothing {w' : World} (h : SamePort w w') : Asks w w' [] := .of_samePort h
  split_ifs
  · exact hnothing ⟨rfl, rfl, rfl, rfl, rfl⟩
  · exact .refl w
  · exact hnothing ⟨rfl, rfl, rfl, rfl, rfl⟩
  · exact .refl w
  · exact .refl w
  · exact hnothing ⟨rfl, rfl, rfl, rfl, rfl⟩
  · cases f.extraData with
    | nil => exact .refl w
    | cons event rest => exact hnothing ⟨rfl, rfl, rfl, rfl, rfl⟩
  · exact .refl w

theorem asks_dispatchFrame (f : Frame) : Asks w (w.dispatchFrame f) (w.frameRequests f) := by
  have hrelease : Asks w (w.setLink (w.pmu.link.releaseAnswered f)) [] := by
    refine .nothing rfl rfl ?_ (SerialLink.enqueuedCommands_releaseAnswered _ f)
    rw [setLink, SerialLink.releaseAnswered]
    split
    · rfl
    · split <;> rfl
  rw [dispatchFrame, frameRequests]
  exact .ite (fun _ => hrelease.after_nothing (asks_handleCommand _ f)) (fun _ => hrelease)

theorem asks_frames (frames : List Frame) :
    Asks w (run dispatchFrame w frames) (trace dispatchFrame frameRequests w frames) := by
  induction frames generalizing w with
  | nil => exact .refl w
  | cons f frames ih => exact (asks_dispatchFrame w f).trans (ih _)

theorem asks_serialReadWatchFunc (r : Read) :
    Asks w (w.serialReadWatchFunc r) (trace dispatchFrame frameRequests w (w.framesRead r)) := by
  refine (asks_frames w (w.framesRead r)).then_nothing ?_
  rw [← serialReadStep_eq_foldl]
  exact .nothing rfl rfl rfl rfl

theorem asks_checkModemDevice : Asks w w.checkModemDevice w.modemRequests := by
  rw [checkModemDevice, modemRequests]
  refine .ite (fun _ => ?_) (fun _ => .refl w)
  have hnoted : Asks w { w with pmu := { w.pmu with modemDeviceType := w.modemDeviceType } } [] :=
    .nothing rfl rfl rfl rfl
  exact hnoted.after_nothing (asks_voltageThresholdSetInterval _ _ _ _ _ _ _ _ _)

/-- What the requests of a tick depend on besides the link. -/
def tickPart (w : World) : SerialLink × Bool × Bool × List DataRequest :=
  (w.pmu.link, w.pmu.initialized, w.pmu.serialChannel, w.modemRequests)

theorem asks_checkPlannedShutdown :
    Asks w w.checkPlannedShutdown [] ∧ w.checkPlannedShutdown.modemRequests = w.modemRequests := by
  have hpart : tickPart w.checkPlannedShutdown = tickPart w :=
    part_checkPlannedShutdown (fun _ => rfl) w
  simp only [tickPart, Prod.mk.injEq] at hpart
  obtain ⟨hlink, hinitialized, hchannel, hmodem⟩ := hpart
  exact ⟨.nothing hinitialized hchannel (by rw [hlink]) (by rw [hlink]), hmodem⟩

theorem asks_checkTimeoutFunc : Asks w w.checkTimeoutFunc w.tickRequests := by
  rw [checkTimeoutFunc, tickRequests]
  refine .ite (fun _ => .refl w) fun _ => ?_
  have harm (w : World) : Asks w (w.setLink (w.pmu.link.armWriteSource w.monotonicTime)) [] := by
    refine .nothing rfl rfl ?_ (congrArg enqueuedCommands (SerialLink.history_armWriteSource _ _))
    obtain ⟨b, hb⟩ := SerialLink.exists_armWriteSource w.pmu.link w.monotonicTime
    rw [setLink, hb]
  have hrefresh : Asks w w.refreshChargerTimestamp [] ∧
      w.refreshChargerTimestamp.modemRequests = w.modemRequests ∧
      w.refreshChargerTimestamp.pmu.rebootRequest = w.pmu.rebootRequest ∧
      w.refreshChargerTimestamp.pmu.shutdownRequest = w.pmu.shutdownRequest := by
    rw [refreshChargerTimestamp]
    split
    · exact ⟨.nothing rfl rfl rfl rfl, rfl, rfl, rfl⟩
    · exact ⟨.refl w, rfl, rfl, rfl⟩
  obtain ⟨hrefreshed, hmodem, hreboot, hshutdown⟩ := hrefresh
  dsimp only
  rw [hreboot, hshutdown]
  have hbeat (w : World) :
      Asks w (w.serialWriteDataRequest commandHeartbeat none [] false).checkPlannedShutdown
        [heartbeatRequest] ∧
      (w.serialWriteDataRequest commandHeartbeat none [] false).checkPlannedShutdown.modemRequests =
        w.modemRequests := by
    obtain ⟨hplanned, hkept⟩ :=
      asks_checkPlannedShutdown (w.serialWriteDataRequest commandHeartbeat none [] false)
    refine ⟨(asks_serialWriteDataRequest w _ _ _ _).then_nothing hplanned, hkept.trans ?_⟩
    obtain ⟨l, n, hsame⟩ := (requests_serialWriteDataRequest w commandHeartbeat none [] false).sameButLink
    rw [hsame]
    rfl
  refine Asks.then_nothing ?_ (harm _)
  cases hasking : (!w.pmu.rebootRequest && !w.pmu.shutdownRequest) with
  | true =>
    obtain ⟨hasked, hkept⟩ := hbeat w.refreshChargerTimestamp
    have hchecked := asks_checkModemDevice
      (w.refreshChargerTimestamp.serialWriteDataRequest commandHeartbeat none []
        false).checkPlannedShutdown
    rw [hkept, hmodem] at hchecked
    exact (hrefreshed.after_nothing hasked).trans hchecked
  | false =>
    have hchecked := asks_checkModemDevice w.refreshChargerTimestamp
    rw [hmodem] at hchecked
    exact hrefreshed.after_nothing hchecked

/-- Every event but the initialisation makes exactly its requests. -/
theorem asks_step (e : Event) (hinit : ∀ opened, e ≠ .init opened) :
    Asks w (w.step e) (w.eventRequests e) := by
  cases e with
  | init opened => exact absurd rfl (hinit opened)
  | request command frameNum extraData needAck => exact asks_serialWriteDataRequest w _ _ _ _
  | writeWatch writes wsize =>
    rw [World.step]
    split
    · exact .nothing rfl rfl (frameNum_serialWriteWatchFunc _ _ _ _)
        (SerialLink.enqueuedCommands_serialWriteWatchFunc _ _ _ _)
    · exact .refl w
  | read r => exact .ite (fun _ => asks_serialReadWatchFunc w r) (fun _ => .refl w)
  | tick => exact asks_checkTimeoutFunc w
  | elapse microseconds => exact .nothing rfl rfl rfl rfl
  | setClock t => exact .nothing rfl rfl rfl rfl
  | configure config => exact .nothing rfl rfl rfl rfl
  | modem deviceType => exact .nothing rfl rfl rfl rfl
  | watchdogTimeoutSet timeout => exact asks_watchdogTimeoutSet w timeout
  | shutdownRequest =>
    exact (asks_serialWriteDataRequest w commandHostRequestShutdown none [] true).then_nothing
      (.nothing rfl rfl rfl rfl)
  | rebootRequest => exact (asks_watchdogTimeoutSet w 60).then_nothing (.nothing rfl rfl rfl rfl)
  | scheduleTimeUpdate =>
    exact .ite (fun _ => asks_scheduleTimeUpdateInternal w) (fun _ => .refl w)
  | chargerOnAutoStart state =>
    exact .ite (fun _ => asks_serialWriteDataRequest w _ _ _ _) (fun _ => .refl w)
  | netStatusLedSetup onTime downTime repeatTimes =>
    exact .ite (fun _ => asks_serialWriteDataRequest w _ _ _ _) (fun _ => .refl w)
  | voltageThresholdSet a b c d e f g h =>
    exact .ite (fun _ => asks_voltageThresholdSetInterval w _ _ _ _ _ _ _ _) (fun _ => .refl w)

theorem asks_initRequests (hinitialized : w.pmu.initialized = true)
    (hopen : w.pmu.serialChannel = true) : Asks w w.initRequests w.initialRequests := by
  have hsync {w' : World} (h : SameButLink w w') : Asks w' w'.dateTimeSync [w.syncRequest] := by
    obtain ⟨l, n, rfl⟩ := h
    exact asks_dateTimeSync _
  have hcharger {w' : World} (h : SameButLink w w') :
      Asks w' (w'.chargerOnAutoStartInternal w'.userConfig.chargerOnAutoStart)
        [chargerRequest w.userConfig.chargerOnAutoStart] := by
    obtain ⟨l, n, rfl⟩ := h
    exact asks_serialWriteDataRequest _ _ _ _ _
  have hthreshold {w' : World} (h : SameButLink w w') :
      Asks w' (w'.voltageThresholdSetInterval 0 0 0 0 0 w'.mainConfig.pmAutoShutdownVoltageGeneral 0 0)
        [thresholdRequest (thresholdVoltages w.mainConfig 0 0 0 0 0
          w.mainConfig.pmAutoShutdownVoltageGeneral 0 0)] := by
    obtain ⟨l, n, rfl⟩ := h
    exact asks_voltageThresholdSetInterval _ _ _ _ _ _ _ _ _
  have hwatchdog {w' : World} (h : SameButLink w w') :
      Asks w' (w'.watchdogTimeoutSet 5) [⟨commandWatchdogTimeoutSet, none, [60, 60, 5], true⟩] := by
    have hasked := asks_watchdogTimeoutSet w' 5
    rw [watchdogRequests, h.initialized, h.serialChannel, hinitialized, hopen] at hasked
    exact hasked
  -- each request is read off the world at the start, which the ones before leave alone
  have hschedule := requests_scheduleTimeUpdateInternal w
  have hasked := asks_scheduleTimeUpdateInternal w
  rw [initRequests]
  generalize w.scheduleTimeUpdateInternal = w₁ at hschedule hasked ⊢
  have hclock := hschedule.trans (requests_dateTimeSync w₁)
  replace hasked := hasked.trans (hsync hschedule.sameButLink)
  generalize w₁.dateTimeSync = w₂ at hclock hasked ⊢
  have hstate := hclock.trans (requests_serialWriteDataRequest w₂ commandChargerOnAutoStart none
    [if w₂.userConfig.chargerOnAutoStart then 1 else 0] true)
  replace hasked := hasked.trans (hcharger hclock.sameButLink)
  change Requests w (w₂.chargerOnAutoStartInternal w₂.userConfig.chargerOnAutoStart) at hstate
  generalize w₂.chargerOnAutoStartInternal w₂.userConfig.chargerOnAutoStart = w₃ at hstate hasked ⊢
  have hvoltages := hstate.trans (requests_voltageThresholdSetInterval w₃ 0 0 0 0 0
    w₃.mainConfig.pmAutoShutdownVoltageGeneral 0 0)
  replace hasked := hasked.trans (hthreshold hstate.sameButLink)
  generalize w₃.voltageThresholdSetInterval 0 0 0 0 0
    w₃.mainConfig.pmAutoShutdownVoltageGeneral 0 0 = w₄ at hvoltages hasked ⊢
  have hversion := hvoltages.trans (requests_serialWriteDataRequest w₄ commandPmuFwVersionGet none [] true)
  replace hasked := hasked.trans (asks_serialWriteDataRequest w₄ commandPmuFwVersionGet none [] true)
  have hevent := hversion.trans (requests_serialWriteDataRequest _ commandPowerOnEventGet none [] true)
  replace hasked := hasked.trans (asks_serialWriteDataRequest _ commandPowerOnEventGet none [] true)
  replace hasked := hasked.trans (hwatchdog hevent.sameButLink)
  rw [initialRequests]
  simp only [List.append_assoc, List.singleton_append] at hasked
  exact hasked

end Functions

/-- The commands that an event may make the daemon ask for. -/
def eventCommands : Event → List UInt16
  | .request command _ _ _ => [command]
  | .read _ =>
    [commandDateTimeSync, commandStatusReport + 1, commandPmuRequestShutdown + 1,
      commandPmuRequestFactoryReset + 1]
  | .tick => [commandHeartbeat, commandVoltageThresholdSet]
  | .watchdogTimeoutSet _ => [commandWatchdogTimeoutSet]
  | .shutdownRequest => [commandHostRequestShutdown]
  | .rebootRequest => [commandWatchdogTimeoutSet]
  | .scheduleTimeUpdate => [commandScheduleStartupTimeSet]
  | .chargerOnAutoStart _ => [commandChargerOnAutoStart]
  | .netStatusLedSetup _ _ _ => [commandNetStatusLedSetup]
  | .voltageThresholdSet _ _ _ _ _ _ _ _ => [commandVoltageThresholdSet]
  | _ => []

section Commands
variable (w : World)

theorem command_scheduleRequests :
    ∀ r ∈ w.scheduleRequests, r.command = commandScheduleStartupTimeSet := by
  rw [scheduleRequests]
  cases w.userConfig.powerScheduleData with
  | none => exact List.forall_mem_nil _
  | some schedule =>
    dsimp only
    split
    · exact List.forall_mem_singleton.mpr rfl
    · exact List.forall_mem_nil _

theorem command_watchdogRequests (timeout : UInt32) :
    ∀ r ∈ w.watchdogRequests timeout, r.command = commandWatchdogTimeoutSet := by
  rw [watchdogRequests]
  split
  · exact List.forall_mem_nil _
  · exact List.forall_mem_singleton.mpr rfl

theorem command_modemRequests : ∀ r ∈ w.modemRequests, r.command = commandVoltageThresholdSet := by
  rw [modemRequests]
  split
  · exact List.forall_mem_singleton.mpr rfl
  · exact List.forall_mem_nil _

theorem command_ackRequests (f : Frame) (extraData : List UInt8) :
    ∀ r ∈ ackRequests f extraData, r.command = f.command + 1 := by
  rw [ackRequests]
  split
  · exact List.forall_mem_singleton.mpr rfl
  · exact List.forall_mem_nil _

theorem command_clockRequests (pmuTime : Option UnixTime) :
    ∀ r ∈ w.clockRequests pmuTime, r.command = commandDateTimeSync := by
  rw [clockRequests]
  split
  · exact List.forall_mem_singleton.mpr rfl
  · exact List.forall_mem_nil _

theorem command_frameRequests (f : Frame) (r : Read) :
    ∀ q ∈ w.frameRequests f, q.command ∈ eventCommands (.read r) := by
  have hack (extraData : List UInt8) (hcommand : f.command + 1 ∈ eventCommands (.read r)) :
      ∀ q ∈ ackRequests f extraData, q.command ∈ eventCommands (.read r) := by
    intro q hq
    rw [command_ackRequests f extraData q hq]
    exact hcommand
  rw [frameRequests, handleRequests]
  split_ifs with hhost hstatus hlen hask hreset
  · exact List.forall_mem_nil _
  · rw [List.forall_mem_append]
    refine ⟨fun q hq => ?_, hack [] (by rw [hstatus]; simp [eventCommands])⟩
    rw [w.command_clockRequests _ q hq]
    simp [eventCommands]
  · exact hack [] (by rw [hask]; simp [eventCommands])
  · exact hack [0] (by rw [hreset]; simp [eventCommands])
  · exact List.forall_mem_nil _
  · exact List.forall_mem_nil _

theorem command_initialRequests : ∀ r ∈ w.initialRequests, r.command ∈
    [commandScheduleStartupTimeSet, commandDateTimeSync, commandChargerOnAutoStart,
      commandVoltageThresholdSet, commandPmuFwVersionGet, commandPowerOnEventGet,
      commandWatchdogTimeoutSet] := by
  rw [initialRequests, List.forall_mem_append]
  refine ⟨fun r hr => ?_, ?_⟩
  · rw [w.command_scheduleRequests r hr]
    exact List.mem_cons_self
  · simp [syncRequest, chargerRequest, thresholdRequest]

theorem command_eventRequests (e : Event) : ∀ r ∈ w.eventRequests e, r.command ∈ eventCommands e := by
  have hguarded {r : DataRequest} (hr : r.command ∈ eventCommands e) :
      ∀ r' ∈ if w.pmu.initialized then [r] else [], r'.command ∈ eventCommands e := by
    split
    · exact List.forall_mem_singleton.mpr hr
    · exact List.forall_mem_nil _
  cases e with
  | request command frameNum extraData needAck =>
    exact List.forall_mem_singleton.mpr List.mem_cons_self
  | read r =>
    rw [eventRequests]
    split
    · exact forall_mem_trace (q := fun _ => True) (fun w f _ => w.command_frameRequests f r) w
        fun _ _ => trivial
    · exact List.forall_mem_nil _
  | tick =>
    rw [eventRequests, tickRequests]
    split
    · exact List.forall_mem_nil _
    · rw [List.forall_mem_append]
      constructor
      · split
        · exact List.forall_mem_singleton.mpr List.mem_cons_self
        · exact List.forall_mem_nil _
      · intro r hr
        rw [w.command_modemRequests r hr]
        simp [eventCommands]
  | watchdogTimeoutSet timeout =>
    exact fun r hr => List.mem_singleton.mpr (w.command_watchdogRequests timeout r hr)
  | shutdownRequest => exact List.forall_mem_singleton.mpr List.mem_cons_self
  | rebootRequest => exact fun r hr => List.mem_singleton.mpr (w.command_watchdogRequests 60 r hr)
  | scheduleTimeUpdate =>
    rw [eventRequests]
    split
    · exact fun r hr => List.mem_singleton.mpr (w.command_scheduleRequests r hr)
    · exact List.forall_mem_nil _
  | chargerOnAutoStart state => exact hguarded List.mem_cons_self
  | netStatusLedSetup onTime downTime repeatTimes => exact hguarded List.mem_cons_self
  | voltageThresholdSet a b c d e f g h => exact hguarded List.mem_cons_self
  | init opened => exact List.forall_mem_nil _
  | writeWatch writes wsize => exact List.forall_mem_nil _
  | elapse microseconds => exact List.forall_mem_nil _
  | setClock t => exact List.forall_mem_nil _
  | configure config => exact List.forall_mem_nil _
  | modem deviceType => exact List.forall_mem_nil _

theorem filter_eventRequests_eq_nil {e : Event} {command : UInt16} (h : command ∉ eventCommands e) :
    (w.eventRequests e).filter (fun r => r.command = command) = [] := by
  rw [List.filter_eq_nil_iff]
  intro r hr hcommand
  have hmem := w.command_eventRequests e r hr
  rw [of_decide_eq_true hcommand] at hmem
  exact h hmem

end Commands

end World

namespace MainLoop

/-- The event of the manager that an event of the main loop leads to. The initialisation and
the two requests are not the manager's own events. -/
def managerEvent? (s : MainLoop) : MainEvent → Option Event
  | .sigterm =>
    if s.world.main.requestShutdown || s.requestFile then
      if s.shutdown then none
      else if s.world.main.requestShutdownSendPmuRequest then some .shutdownRequest
      else none
    else if !s.watchdogDisabled then
      if s.reboot then none else some .rebootRequest
    else none
  | .sigusr1 => some (.watchdogTimeoutSet 0)
  | .requestShutdown _ => none
  | .createRequestFile => none
  | .removeRequestFile => none
  | .shutdownCheck => none
  | .rebootCheck => none
  | .manager (.init _) => none
  | .manager .shutdownRequest => none
  | .manager .rebootRequest => none
  | .manager e => some e

/-- The same, of a loop that may have been quit. -/
def stepEvent? (s : MainLoop) (e : MainEvent) : Option Event :=
  if s.quit then none else s.managerEvent? e

/-- What an event of the main loop makes the daemon ask for. -/
def stepRequests (s : MainLoop) (e : MainEvent) : List DataRequest :=
  (s.stepEvent? e).elim [] s.world.eventRequests

theorem world_sigtermFunc_eq (s : MainLoop) :
    s.sigtermFunc.world = (s.managerEvent? .sigterm).elim s.world s.world.step := by
  rw [sigtermFunc, managerEvent?]
  split
  · rw [systemShutdown]
    split
    · rfl
    · split <;> rfl
  · split
    · rw [systemReboot]
      split <;> rfl
    · rfl

/-- The daemon changes by the event of the manager, or by a call of the shutdown function of
the main program. -/
theorem world_step (s : MainLoop) (e : MainEvent) :
    (s.step e).world = (s.stepEvent? e).elim s.world s.world.step ∨
      s.stepEvent? e = none ∧ ∃ sendPmuRequest, e = .requestShutdown sendPmuRequest ∧
        (s.step e).world = s.world.requestShutdown sendPmuRequest := by
  rw [step, stepEvent?]
  split
  · exact .inl rfl
  · cases e with
    | sigterm => exact .inl s.world_sigtermFunc_eq
    | requestShutdown sendPmuRequest => exact .inr ⟨rfl, sendPmuRequest, rfl, rfl⟩
    | shutdownCheck =>
      rw [react, shutdownCheckTimeoutFunc]
      split_ifs <;> exact .inl rfl
    | rebootCheck =>
      rw [react, rebootCheckTimeoutFunc]
      split_ifs <;> exact .inl rfl
    | manager e => cases e <;> exact .inl rfl
    | _ => exact .inl rfl

/-- Where an event of the manager comes from. -/
inductive ComesFrom (s : MainLoop) : MainEvent → Event → Prop where
  | shutdown (hfirst : s.shutdown = false) : ComesFrom s .sigterm .shutdownRequest
  | reboot (hfirst : s.reboot = false) : ComesFrom s .sigterm .rebootRequest
  | watchdog : ComesFrom s .sigusr1 (.watchdogTimeoutSet 0)
  | manager {e : Event} (hinit : ∀ opened, e ≠ .init opened) (hshutdown : e ≠ .shutdownRequest)
      (hreboot : e ≠ .rebootRequest) : ComesFrom s (.manager e) e

theorem comesFrom_of_stepEvent? {s : MainLoop} {e : MainEvent} {e' : Event}
    (h : s.stepEvent? e = some e') : s.ComesFrom e e' := by
  rw [stepEvent?] at h
  split at h
  · cases h
  · cases e with
    | sigterm =>
      rw [managerEvent?] at h
      split_ifs at h with hasked hshutdown hsend hwatchdog hreboot
      · obtain rfl := Option.some.inj h
        exact .shutdown (Bool.eq_false_iff.mpr hshutdown)
      · obtain rfl := Option.some.inj h
        exact .reboot (Bool.eq_false_iff.mpr hreboot)
    | sigusr1 =>
      obtain rfl := Option.some.inj h
      exact .watchdog
    | manager e =>
      cases e with
      | init opened => cases h
      | shutdownRequest => cases h
      | rebootRequest => cases h
      | _ =>
        obtain rfl := Option.some.inj h
        exact .manager (by simp) (by simp) (by simp)
    | _ => cases h

theorem ComesFrom.ne_init {s : MainLoop} {e : MainEvent} {e' : Event} (h : s.ComesFrom e e')
    (opened : Bool) : e' ≠ .init opened := by
  cases h with
  | manager hinit => exact hinit opened
  | _ => simp

theorem stepEvent?_ne_init {s : MainLoop} {e : MainEvent} {e' : Event} (h : s.stepEvent? e = some e')
    (opened : Bool) : e' ≠ .init opened := (comesFrom_of_stepEvent? h).ne_init opened

theorem asks_step (s : MainLoop) (e : MainEvent) :
    World.Asks s.world (s.step e).world (s.stepRequests e) := by
  rw [stepRequests]
  obtain hworld | ⟨hnone, sendPmuRequest, -, hworld⟩ := s.world_step e
  · rw [hworld]
    cases h : s.stepEvent? e with
    | none => exact .refl s.world
    | some e' => exact World.asks_step s.world e' (stepEvent?_ne_init h)
  · rw [hworld, hnone]
    exact .nothing rfl rfl rfl rfl

theorem filter_stepRequests_eq_nil {s : MainLoop} {e : MainEvent} {command : UInt16}
    (h : ∀ e', s.stepEvent? e = some e' → command ∉ World.eventCommands e') :
    (s.stepRequests e).filter (fun r => r.command = command) = [] := by
  rw [stepRequests]
  cases hevent : s.stepEvent? e with
  | none => rfl
  | some e' => exact s.world.filter_eventRequests_eq_nil (h e' hevent)

theorem asks_run (s : MainLoop) (events : List MainEvent) :
    World.Asks s.world (run step s events).world (trace step stepRequests s events) := by
  induction events generalizing s with
  | nil => exact .refl s.world
  | cons e events ih => exact (s.asks_step e).trans (ih _)

/-- What a run of the daemon asks for, from its initialisation on. -/
def runRequests (w : World) (opened requestFile : Bool) (events : List MainEvent) :
    List DataRequest :=
  (if opened then w.initialRequests else []) ++
    trace step stepRequests (start w opened requestFile) events

/-- The initialisation makes its requests with the frame numbers from 0 on. -/
theorem asks_start (w : World) (opened requestFile : Bool) :
    (start w opened requestFile).world.pmu.serialChannel = opened ∧
    (start w opened requestFile).world.pmu.link.frameNum =
      counterAfter 0 (if opened then w.initialRequests else []) ∧
    (start w opened requestFile).world.enqueued =
      (numbered 0 (if opened then w.initialRequests else [])).map NumberedRequest.content := by
  cases opened with
  | false => exact ⟨rfl, rfl, rfl⟩
  | true =>
    have hasked := World.asks_initRequests
      { w.start.resetForInit.serialOpen.setBatteryTables with
        pmu := { w.start.resetForInit.serialOpen.setBatteryTables.pmu with initialized := true } }
      rfl rfl
    exact ⟨hasked.channel, hasked.counter, hasked.enqueued⟩

theorem enqueued_runRequests (w : World) (requestFile : Bool) (events : List MainEvent) :
    (run step (start w true requestFile) events).world.enqueued =
      (numbered 0 (runRequests w true requestFile events)).map NumberedRequest.content := by
  obtain ⟨hchannel, hcounter, hstart⟩ := asks_start w true requestFile
  rw [(asks_run _ events).enqueued, hchannel, hcounter, hstart, runRequests, if_pos rfl, if_pos rfl,
    numbered_append, List.map_append]

/-- In every run the commands enqueued are the requests of its events, in order, with the
automatic frame numbers counted from 0; without a port there are none. -/
theorem enqueued_run (w : World) (opened requestFile : Bool) (events : List MainEvent) :
    (run step (start w opened requestFile) events).world.enqueued =
      if opened then
        (numbered 0 (runRequests w opened requestFile events)).map NumberedRequest.content
      else [] := by
  cases opened with
  | false =>
    obtain ⟨hchannel, -, hstart⟩ := asks_start w false requestFile
    rw [(asks_run _ events).enqueued, hchannel, hstart]
    rfl
  | true => exact enqueued_runRequests w requestFile events

/-- The commands of the requests are those of the commands enqueued. -/
theorem commands_run (w : World) (requestFile : Bool) (events : List MainEvent) :
    (run step (start w true requestFile) events).world.enqueued.map CommandContent.command =
      (runRequests w true requestFile events).map DataRequest.command := by
  rw [enqueued_runRequests, command_content_numbered]

end MainLoop
end PcatManager
