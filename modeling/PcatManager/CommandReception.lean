import PcatManager.RequestLog
import PcatManager.SerialReception

/-!
# What the PMU receives

The requests of the daemon as a receiver at the other end of the line reads them. In every
run it reads the requested commands in order, none that was not requested, and each at most
as often as it may be sent.
-/

namespace PcatManager
open SerialFrame SerialReadParser SerialParserCorrectness GuardedRun RunTrace

/-- The extra data fits into a frame. -/
def DataRequest.Fits (r : DataRequest) : Prop := r.extraData.length ≤ 65529

/-- The frame of a request, as a receiver reads it. -/
def NumberedRequest.frame (r : NumberedRequest) : Frame :=
  ⟨0x01, 0x81, r.frameNum, r.request.command, r.request.extraData, r.request.needAck⟩

/-- An event with a request of its own asks for one that fits into a frame. -/
def Event.Fits : Event → Prop
  | .request _ _ extraData _ => extraData.length ≤ 65529
  | _ => True

def MainEvent.Fits : MainEvent → Prop
  | .manager e => e.Fits
  | _ => True

theorem NumberedRequest.content_isFrame {r : NumberedRequest} (h : r.request.Fits) :
    ∃ w : WireFrame, r.content.buffer = w.bytes ∧ fieldsAt w.bytes = r.frame :=
  ⟨encoded r.frameNum r.request.command r.request.extraData r.request.needAck h,
    serialWriteFrame_eq _ _ _ _ h, fieldsAt_encoded _ _ _ _ h⟩

/-- Commands that are requests which fit are the frames of these requests. -/
theorem frames_of_content {cmds : List CommandData} {requests : List NumberedRequest}
    (hcontent : cmds.map CommandData.content = requests.map NumberedRequest.content)
    (hfits : ∀ r ∈ requests, r.request.Fits) :
    (∀ cmd ∈ cmds, cmd.IsFrame) ∧
      cmds.map CommandData.frame = requests.map NumberedRequest.frame := by
  induction cmds generalizing requests with
  | nil =>
    cases requests with
    | nil => exact ⟨List.forall_mem_nil _, rfl⟩
    | cons r requests => cases hcontent
  | cons cmd cmds ih =>
    cases requests with
    | nil => cases hcontent
    | cons r requests =>
      rw [List.map_cons, List.map_cons, List.cons.injEq] at hcontent
      rw [List.forall_mem_cons] at hfits
      obtain ⟨w, hbytes, hfields⟩ := NumberedRequest.content_isFrame hfits.1
      obtain ⟨hframes, hrest⟩ := ih hcontent.2 hfits.2
      have hbuffer : cmd.buffer = w.bytes := by
        rw [← hbytes, ← hcontent.1]
        rfl
      refine ⟨List.forall_mem_cons.mpr ⟨⟨w, hbuffer⟩, hframes⟩, ?_⟩
      rw [List.map_cons, List.map_cons, hrest, CommandData.frame, hbuffer, hfields]

namespace World

theorem length_startupSetupLoop_le (schedule : List PowerScheduleData) (buffer : List UInt8)
    (h : buffer.length < 48) : (startupSetupLoop schedule buffer).length < 56 := by
  induction schedule generalizing buffer with
  | nil =>
    rw [startupSetupLoop]
    omega
  | cons sdata rest ih =>
    rw [startupSetupLoop]
    have hrecord : (startupRecord sdata).length = 8 := rfl
    split
    · exact ih buffer h
    · dsimp only
      split
      · rw [List.length_append, hrecord]
        omega
      · rename_i hroom
        exact ih _ (Nat.not_le.mp hroom)

section Fits
variable (w : World)

theorem fits_scheduleRequests : ∀ r ∈ w.scheduleRequests, r.Fits := by
  rw [scheduleRequests]
  cases w.userConfig.powerScheduleData with
  | none => exact List.forall_mem_nil _
  | some schedule =>
    dsimp only
    split
    · have hlength := length_startupSetupLoop_le schedule [] (by decide)
      exact List.forall_mem_singleton.mpr (hlength.le.trans (by decide))
    · exact List.forall_mem_nil _

theorem fits_watchdogRequests (timeout : UInt32) : ∀ r ∈ w.watchdogRequests timeout, r.Fits := by
  rw [watchdogRequests]
  split
  · exact List.forall_mem_nil _
  · simp [DataRequest.Fits]

theorem fits_syncRequest : w.syncRequest.Fits := by
  simp [DataRequest.Fits, syncRequest, clockRecord, le16]

theorem fits_thresholdRequest (config : MainConfigData) (a b c d e f g h : UInt32) :
    (thresholdRequest (thresholdVoltages config a b c d e f g h)).Fits := by
  simp [DataRequest.Fits, thresholdRequest, thresholdVoltages, le16]

theorem fits_ackRequests (f : Frame) {extraData : List UInt8} (h : extraData.length ≤ 1) :
    ∀ r ∈ ackRequests f extraData, r.Fits := by
  rw [ackRequests]
  split
  · exact List.forall_mem_singleton.mpr (h.trans (by decide))
  · exact List.forall_mem_nil _

theorem fits_frameRequests (f : Frame) : ∀ r ∈ w.frameRequests f, r.Fits := by
  rw [frameRequests, handleRequests]
  split_ifs
  · exact List.forall_mem_nil _
  · rw [List.forall_mem_append]
    refine ⟨?_, fits_ackRequests f (Nat.zero_le _)⟩
    rw [clockRequests]
    split
    · exact List.forall_mem_singleton.mpr w.fits_syncRequest
    · exact List.forall_mem_nil _
  · exact fits_ackRequests f (Nat.zero_le _)
  · exact fits_ackRequests f (Nat.le_refl _)
  · exact List.forall_mem_nil _
  · exact List.forall_mem_nil _

theorem fits_tickRequests : ∀ r ∈ w.tickRequests, r.Fits := by
  rw [tickRequests]
  split
  · exact List.forall_mem_nil _
  · rw [List.forall_mem_append, modemRequests]
    constructor
    · split
      · exact List.forall_mem_singleton.mpr (Nat.zero_le _)
      · exact List.forall_mem_nil _
    · split
      · exact List.forall_mem_singleton.mpr (fits_thresholdRequest _ _ _ _ _ _ _ _ _)
      · exact List.forall_mem_nil _

theorem fits_eventRequests {e : Event} (he : e.Fits) : ∀ r ∈ w.eventRequests e, r.Fits := by
  have hguarded {r : DataRequest} (hr : r.Fits) :
      ∀ r' ∈ if w.pmu.initialized then [r] else [], r'.Fits := by
    split
    · exact List.forall_mem_singleton.mpr hr
    · exact List.forall_mem_nil _
  cases e with
  | request command frameNum extraData needAck => exact List.forall_mem_singleton.mpr he
  | read r =>
    rw [eventRequests]
    split
    · exact forall_mem_trace (q := fun _ => True) (fun w f _ => w.fits_frameRequests f) w
        fun _ _ => trivial
    · exact List.forall_mem_nil _
  | tick => exact w.fits_tickRequests
  | watchdogTimeoutSet timeout => exact w.fits_watchdogRequests timeout
  | shutdownRequest => exact List.forall_mem_singleton.mpr (Nat.zero_le _)
  | rebootRequest => exact w.fits_watchdogRequests 60
  | scheduleTimeUpdate =>
    rw [eventRequests]
    split
    · exact w.fits_scheduleRequests
    · exact List.forall_mem_nil _
  | chargerOnAutoStart state => exact hguarded (by simp [DataRequest.Fits, chargerRequest])
  | netStatusLedSetup onTime downTime repeatTimes =>
    exact hguarded (by simp [DataRequest.Fits, ledRequest, le16])
  | voltageThresholdSet a b c d e f g h =>
    exact hguarded (fits_thresholdRequest _ _ _ _ _ _ _ _ _)
  | init opened => exact List.forall_mem_nil _
  | writeWatch writes wsize => exact List.forall_mem_nil _
  | elapse microseconds => exact List.forall_mem_nil _
  | setClock t => exact List.forall_mem_nil _
  | configure config => exact List.forall_mem_nil _
  | modem deviceType => exact List.forall_mem_nil _

theorem fits_initialRequests : ∀ r ∈ w.initialRequests, r.Fits := by
  rw [initialRequests, List.forall_mem_append]
  refine ⟨w.fits_scheduleRequests, ?_⟩
  have hsync := w.fits_syncRequest
  have hthreshold := fits_thresholdRequest w.mainConfig 0 0 0 0 0
    w.mainConfig.pmAutoShutdownVoltageGeneral 0 0
  rw [DataRequest.Fits] at hsync hthreshold
  simp [DataRequest.Fits, hsync, hthreshold, chargerRequest]

end Fits

/-- What the steps of a link keep with its discipline an event of the daemon keeps. -/
theorem keptWithDiscipline_step {mayRelease : CommandData → Prop} {P : SerialLink → Prop}
    (hopened : ∀ l : SerialLink, P l.opened)
    (hstep : ∀ now l l', SerialLink.Step mayRelease now l l' → l.StopAndWait now → P l → P l')
    {w : World} {e : Event} (hdiscipline : w.pmu.link.StopAndWait w.monotonicTime)
    (hkept : P w.pmu.link) (he : w.ReleasesOnlyBy mayRelease e) :
    (w.step e).pmu.link.StopAndWait (w.step e).monotonicTime ∧ P (w.step e).pmu.link :=
  link_invariant_step (I := fun l now => l.StopAndWait now ∧ P l)
    (fun l now => ⟨SerialLink.stopAndWait_opened l now, hopened l⟩)
    (fun _ _ now hsteps h => hsteps.invariant (P := fun l => l.StopAndWait now ∧ P l)
      (fun _ _ hl h => ⟨SerialLink.stopAndWait_step hl h.1, hstep _ _ _ hl h.1 h.2⟩) h)
    (fun _ _ _ hle h => ⟨h.1.elapse hle, h.2⟩) w e ⟨hdiscipline, hkept⟩ he

/-- The link keeps its discipline and only the current command is on the line in part. -/
structure LineKept (w : World) : Prop where
  discipline : w.pmu.link.StopAndWait w.monotonicTime
  whole : w.pmu.link.WholePasses

theorem lineKept_step {w : World} (h : w.LineKept) {e : Event}
    (he : w.ReleasesOnlyBy SerialLink.AtPassBoundary e) : (w.step e).LineKept := by
  obtain ⟨hdiscipline, hwhole⟩ := keptWithDiscipline_step SerialLink.wholePasses_opened
    (fun _ _ _ hstep => SerialLink.wholePasses_step (fun _ hc => hc) hstep) h.discipline h.whole he
  exact ⟨hdiscipline, hwhole⟩

theorem lineKept_start (w : World) : w.start.LineKept :=
  ⟨SerialLink.stopAndWait_opened ({} : PmuManagerData).link _,
    SerialLink.wholePasses_opened ({} : PmuManagerData).link⟩

theorem lineKept_init (w : World) (opened : Bool) : (w.start.step (.init opened)).LineKept :=
  lineKept_step w.lineKept_start fun r hr => by cases hr

end World

namespace MainLoop

theorem fits_stepRequests (s : MainLoop) {e : MainEvent} (he : e.Fits) :
    ∀ r ∈ s.stepRequests e, r.Fits := by
  rw [stepRequests]
  cases hevent : s.stepEvent? e with
  | none => exact List.forall_mem_nil _
  | some e' =>
    refine s.world.fits_eventRequests ?_
    cases comesFrom_of_stepEvent? hevent with
    | shutdown => trivial
    | reboot => trivial
    | watchdog => trivial
    | manager => exact he

theorem fits_runRequests (w : World) (opened requestFile : Bool) {events : List MainEvent}
    (hfits : ∀ e ∈ events, e.Fits) : ∀ r ∈ runRequests w opened requestFile events, r.Fits := by
  rw [runRequests, List.forall_mem_append]
  constructor
  · split
    · exact w.fits_initialRequests
    · exact List.forall_mem_nil _
  · exact forall_mem_trace (fun s _ he => s.fits_stepRequests he) _ hfits

/-- No frame of the event answers a command that is inside a pass. -/
def ReleasesBetween (s : MainLoop) (e : MainEvent) : Prop :=
  ∀ e' ∈ s.stepEvent? e, s.world.ReleasesOnlyBy SerialLink.AtPassBoundary e'

instance (s : MainLoop) (e : MainEvent) : Decidable (s.ReleasesBetween e) :=
  inferInstanceAs (Decidable (∀ e' ∈ s.stepEvent? e, _))

theorem lineKept_step {s : MainLoop} {e : MainEvent} (h : s.world.LineKept)
    (he : s.ReleasesBetween e) : (s.step e).world.LineKept := by
  obtain hworld | ⟨-, sendPmuRequest, -, hworld⟩ := s.world_step e
  · rw [hworld]
    cases hevent : s.stepEvent? e with
    | none => exact h
    | some e' => exact World.lineKept_step h (he e' hevent)
  · rw [hworld]
    exact ⟨h.discipline, h.whole⟩

/-- In every run in which no frame answers a command that is inside a pass a receiver reads
from the line the commands that the events ask for, in their order, each as often as it has
been written completely, and that is at most three times if it waits for an answer and else
at most once. -/
theorem frames_received_run (w : World) (requestFile : Bool) (events : List MainEvent)
    (hfits : ∀ e ∈ events, e.Fits)
    (hreleases : Along step ReleasesBetween (start w true requestFile) events)
    (reads : List Read)
    (hstream : streamOf reads =
      wire (run step (start w true requestFile) events).world.pmu.link.history) :
    let link := (run step (start w true requestFile) events).world.pmu.link
    (enqueuedCommands link.history).map CommandData.frame =
        (numbered 0 (runRequests w true requestFile events)).map NumberedRequest.frame ∧
      dispatchedFrames reads = ((enqueuedCommands link.history).flatMap fun cmd =>
        List.replicate (link.timesWritten cmd) cmd.frame) ∧
      ∀ cmd ∈ enqueuedCommands link.history,
        link.timesWritten cmd ≤ if cmd.needAck then 3 else 1 := by
  have hkept := hreleases.invariant (I := fun s : MainLoop => s.world.LineKept)
    (fun _ _ h he => lineKept_step h he) (World.lineKept_init w true)
  have hcontent := enqueued_runRequests w requestFile events
  have hshort : ∀ r ∈ numbered 0 (runRequests w true requestFile events), r.request.Fits :=
    fun r hr => fits_runRequests w true requestFile hfits r.request (request_mem_of_numbered hr)
  obtain ⟨hframes, hrequested⟩ := frames_of_content hcontent hshort
  refine ⟨hrequested, ?_, fun cmd hcmd => ?_⟩
  · rw [dispatchedFrames_eq, hstream]
    exact hkept.discipline.values_wire hkept.whole hframes
  · have hpasses : _ ≤ (if cmd.needAck then 3 else 1) * cmd.buffer.length :=
      (hkept.discipline.paced cmd hcmd).length_le
    exact Nat.div_le_of_le_mul (hpasses.trans_eq (Nat.mul_comm _ _))

/-- The first command is answered, and the second one is on the line in part. -/
def answeredRun : List MainEvent :=
  [.manager (.writeWatch (fun _ => .written 20) .again), .manager (.elapse 1000),
    .manager (.read World.dateTimeSyncAck), .manager .tick,
    .manager (.writeWatch (fun k => if k = 0 then .written 5 else .again) .again)]

def lineRead : Read :=
  ⟨wire (run step (start World.plain true false) answeredRun).world.pmu.link.history,
    by decide +kernel, by decide +kernel⟩

theorem frames_received_run_answered :
    dispatchedFrames [lineRead] = [NumberedRequest.frame ⟨World.plain.syncRequest, 0⟩] := by
  have hstream : streamOf [lineRead] =
      wire (run step (start World.plain true false) answeredRun).world.pmu.link.history := by
    rw [streamOf, List.map_singleton, List.flatten_singleton, lineRead]
  have hread := frames_received_run World.plain false answeredRun
    (by simp [answeredRun, MainEvent.Fits, Event.Fits]) (by decide +kernel) [lineRead] hstream
  exact hread.2.1.trans (by decide +kernel)

end MainLoop
end PcatManager
