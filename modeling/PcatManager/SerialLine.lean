import PcatManager.PmuManagerRuns
import PcatManager.SerialParserCorrectness

/-!
# What every run puts on the serial line

What a request enqueues, as the receiver of the line decodes it; the order and the pacing
of the frames in every run of the daemon; and the runs in which the line carries whole
frames only.
-/

namespace PcatManager.SerialLink
open SerialFrame SerialParserCorrectness

theorem enqueuedCommands_popCurrent (l : SerialLink) :
    enqueuedCommands l.popCurrent.history = enqueuedCommands l.history := by
  rw [popCurrent]
  split
  · rfl
  · exact enqueuedCommands_current _ _

theorem enqueuedCommands_serialWriteDataRequest (l : SerialLink) (now : ℤ) (command : UInt16)
    (frameNum : Option UInt16) (extraData : List UInt8) (needAck : Bool) :
    enqueuedCommands (l.serialWriteDataRequest now command frameNum extraData needAck).history =
      enqueuedCommands l.history ++ [l.newCommandData now command frameNum extraData needAck] := by
  have hrefill (l : SerialLink) :
      enqueuedCommands (if l.currentCommandData.isNone then l.popCurrent else l).history =
        enqueuedCommands l.history := by
    split
    · exact enqueuedCommands_popCurrent l
    · rfl
  exact (hrefill _).trans (enqueuedCommands_enqueued _ _)

theorem enqueuedCommands_recordWrite (l : SerialLink) (c : CommandData) (n : ℕ) (now : ℤ) :
    enqueuedCommands (l.recordWrite c n now).history = enqueuedCommands l.history := by
  rw [recordWrite]
  simp only [enqueuedCommands, List.filterMap_append, List.append_right_eq_self]
  rw [List.filterMap_map, List.filterMap_eq_nil_iff]
  intro k _
  rfl

theorem enqueuedCommands_writeLoop {now : ℤ} {writes : ℕ → WriteResult} (fuel : ℕ) {k k' : ℕ}
    {l l' : SerialLink} {wsize wsize' : WriteResult}
    (h : writeLoop now writes fuel k l wsize = some (l', wsize', k')) :
    enqueuedCommands l'.history = enqueuedCommands l.history := by
  induction fuel generalizing k l wsize with
  | zero => cases h
  | succ fuel ih =>
    obtain ⟨l₁, hrefill, hturn⟩ := writeLoop_cases h
    have htaken : enqueuedCommands l₁.history = enqueuedCommands l.history := by
      rw [← hrefill]
      split
      · exact enqueuedCommands_popCurrent l
      · rfl
    obtain ⟨rfl, -⟩ | ⟨-, hrest⟩ | ⟨c, n, -, hrest⟩ := hturn
    · exact htaken
    · exact (ih hrest).trans htaken
    · exact (ih hrest).trans ((enqueuedCommands_recordWrite l₁ c n now).trans htaken)

theorem endPass_frame (l : SerialLink) :
    l.endPass.history = l.history ∧ l.endPass.commandQueue = l.commandQueue := by
  rw [endPass]
  split
  · exact ⟨rfl, rfl⟩
  · split_ifs <;> exact ⟨rfl, rfl⟩

theorem enqueuedCommands_serialWriteWatchFunc (l : SerialLink) (now : ℤ) (writes : ℕ → WriteResult)
    (wsize : WriteResult) :
    enqueuedCommands (l.serialWriteWatchFunc now writes wsize).history = enqueuedCommands l.history := by
  rw [serialWriteWatchFunc]
  split
  · rfl
  · rename_i l' wsize' k' h
    rw [← enqueuedCommands_writeLoop _ h, ← (endPass_frame l').1]

theorem enqueuedCommands_releaseAnswered (l : SerialLink) (f : Frame) :
    enqueuedCommands (l.releaseAnswered f).history = enqueuedCommands l.history := by
  rw [releaseAnswered]
  split
  · exact enqueuedCommands_parsed _ _ _ _
  · split
    · exact enqueuedCommands_parsed _ _ _ _
    · exact enqueuedCommands_parsed _ _ _ _

theorem history_armWriteSource (l : SerialLink) (now : ℤ) :
    (l.armWriteSource now).history = l.history := by
  obtain ⟨b, harm⟩ := exists_armWriteSource l now
  rw [harm]

/-- What a request enqueues decodes back to its arguments exactly up to 65529 bytes of
extra data. -/
theorem request_decodes_back_iff (l : SerialLink) (now : ℤ) (command : UInt16)
    (frameNum : Option UInt16) (extraData : List UInt8) (needAck : Bool) :
    ∃ cmd : CommandData,
      enqueuedCommands (l.serialWriteDataRequest now command frameNum extraData needAck).history =
        enqueuedCommands l.history ++ [cmd] ∧
      (DecodesBack cmd.buffer (frameNum.getD l.frameNum) command extraData needAck ↔
        extraData.length ≤ 65529) :=
  ⟨_, enqueuedCommands_serialWriteDataRequest l now command frameNum extraData needAck,
    decodesBack_serialWriteFrame_iff _ command extraData needAck⟩

/-- The encoder admits 65530 bytes of extra data and the parser drops the frame. -/
theorem long_request_lost :
    (List.replicate 65530 (0 : UInt8)).length ≤ 65532 ∧
      ¬DecodesBack (serialWriteFrame 0 commandHeartbeat (List.replicate 65530 0) true) 0
        commandHeartbeat (List.replicate 65530 0) true := by
  rw [decodesBack_serialWriteFrame_iff, List.length_replicate]
  omega

end PcatManager.SerialLink

namespace PcatManager.World
open SerialFrame SerialReadParser GuardedRun

/-- In every run the commands are on the line in the order of their requests; each is
there as whole passes in order, one of them or at most three when it waits for an answer,
with a pause longer than the command timeout before each new pass; and a command that waits for an
answer hands the line over only after its answer or after three passes and a pause. -/
theorem stop_and_wait (w : World) (events : List Event) :
    let history := (run step w.start events).pmu.link.history
    (enqueuedCommands history).map (·.id) = List.range (enqueuedCommands history).length ∧
    (∀ id ∈ wireIds history, id < (enqueuedCommands history).length) ∧
    (wireIds history).Pairwise (· ≤ ·) ∧
    (∀ cmd ∈ enqueuedCommands history,
      Paced cmd.buffer (if cmd.needAck then 3 else 1) (bytesOf cmd.id history)) ∧
    HandedOver history := by
  have h := stopAndWait_run w events
  have hlength : (enqueuedCommands (run step w.start events).pmu.link.history).length =
      (run step w.start events).pmu.link.requests := by
    rw [← List.length_map (f := fun cmd : CommandData => cmd.id), h.inOrder.numbered,
      List.length_range]
  dsimp only
  rw [hlength]
  exact ⟨h.inOrder.numbered, h.inOrder.wire_requested, h.inOrder.wire_sorted, h.paced,
    h.handedOver⟩

/-- The line carries whole frames, and a beginning of the current one, in every run in
which no frame answers a command that is inside a pass. -/
theorem line_intact (w : World) (events : List Event)
    (h : Along step (ReleasesOnlyBy SerialLink.AtPassBoundary) w.start events) :
    (run step w.start events).pmu.link.Intact := by
  suffices hboth : (run step w.start events).pmu.link.Intact ∧
      (run step w.start events).pmu.link.InOrder from hboth.1
  refine h.invariant (I := fun w : World => w.pmu.link.Intact ∧ w.pmu.link.InOrder) ?_ ?_
  · intro w e hw he
    exact link_invariant_step (I := fun l _ => l.Intact ∧ l.InOrder)
      (fun l _ => ⟨SerialLink.intact_opened l, SerialLink.inOrder_opened l⟩)
      (fun _ _ _ hsteps h => h.1.steps h.2 hsteps) (fun _ _ _ _ h => h) w e hw he
  · exact ⟨SerialLink.intact_opened ({} : PmuManagerData).link,
      SerialLink.inOrder_opened ({} : PmuManagerData).link⟩

/-- A frame from the PMU to the host without extra data. -/
def answer (frameNum command : UInt16) : WireFrame :=
  ⟨0x81, 0x01, frameNum, le16 command ++ [0], by simp, by simp⟩

def answerRead (frameNum command : UInt16) : Read :=
  ⟨(answer frameNum command).bytes, by rw [WireFrame.length_bytes]; omega, by simp [answer]⟩

/-- The answer to the first command of `pcat_pmu_manager_init`. -/
def dateTimeSyncAck : Read := answerRead 0 0xA

/-- A first pass that is answered in time. -/
def answeredRun : List Event :=
  [.init true, .writeWatch (fun _ => .written 20) .again, .elapse 1000, .read dateTimeSyncAck]

theorem line_intact_answered : (run step plain.start answeredRun).pmu.link.Intact :=
  line_intact plain answeredRun (by decide +kernel)

/-- A second pass is under way, five bytes of it written, when the late answer to the
first one arrives. -/
def tornRun : List Event :=
  [.init true, .writeWatch (fun _ => .written 20) .again, .elapse 1000001, .tick,
    .writeWatch (fun k => if k = 0 then .written 5 else .again) .again, .read dateTimeSyncAck]

/-- Twenty-five bytes are not the length of a sequence of such frames. -/
theorem length_flatten_ne {frames : List (List UInt8)}
    (h : ∀ frame ∈ frames, 13 ≤ frame.length ∧ frame.length ≠ 25) : frames.flatten.length ≠ 25 := by
  match frames, h with
  | [], _ => simp
  | [frame], h => simpa using (h frame (by simp)).2
  | frame :: frame' :: rest, h =>
    have hfirst := (h frame (by simp)).1
    have hsecond := (h frame' (by simp)).1
    simp only [List.flatten_cons, List.length_append]
    omega

/-- The late answer frees the command and leaves five bytes of its frame on the line. -/
theorem line_torn : ¬(run step plain.start tornRun).pmu.link.Intact := by
  rintro ⟨frames, hframes, hwire⟩
  have hsizes : ∀ e ∈ enqueuedCommands (run step plain.start tornRun).pmu.link.history,
      13 ≤ e.buffer.length ∧ e.buffer.length ≠ 25 := by decide +kernel
  have hlength : (wire (run step plain.start tornRun).pmu.link.history).length = 25 := by
    decide +kernel
  have hunfinished : (run step plain.start tornRun).pmu.link.unfinished = [] := by decide +kernel
  rw [hwire, hunfinished, List.append_nil] at hlength
  refine length_flatten_ne (fun frame hf => ?_) hlength
  obtain ⟨e, he, rfl⟩ := hframes frame hf
  exact hsizes e he

end PcatManager.World
