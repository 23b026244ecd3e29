import PcatManager.PmuManagerFrame
import PcatManager.SerialLine

/-!
# The watchdog of a reboot

The daemon together with a PMU that answers the watchdog commands it has received, over a
line that delays, loses and duplicates its answers: what `pcat_pmu_manager_reboot_completed`
says about what the PMU has received.
-/

namespace PcatManager
open SerialFrame SerialReadParser GuardedRun

/-- The daemon and the PMU. `received` are the numbers of the watchdog commands the PMU
has received completely; each of them may be answered from then on, any number of times.
`rebootCommands` are the commands that `pcat_pmu_manager_reboot_request` enqueued. -/
structure PmuSystem where
  host : World
  received : List ℕ
  rebootCommands : List ℕ

/-- An event of the daemon other than its initialisation and its reads; the PMU receives
a command; the daemon reads bytes in which the watchdog answers are answers to these
commands. -/
inductive SystemEvent where
  | host (e : Event)
  | receive (id : ℕ)
  | deliver (r : Read) (answered : List ℕ)

namespace PmuSystem

/-- The frames the daemon handles as answers to a watchdog command. -/
def watchdogAnswers (frames : List Frame) : List Frame :=
  frames.filter fun f => World.forHost f && f.command = commandWatchdogTimeoutSetAck

/-- The frame number of a command. -/
def numberOf (history : List LinkEvent) (id : ℕ) : Option UInt16 :=
  ((enqueuedCommands history).find? fun cmd => cmd.id = id).map (·.frameNum)

variable (s : PmuSystem)

def history : List LinkEvent := s.host.pmu.link.history

/-- A watchdog command of which a whole frame is on the line can be received. -/
def CanReceive (id : ℕ) : Prop :=
  ∃ cmd ∈ enqueuedCommands s.history, cmd.id = id ∧ cmd.command = commandWatchdogTimeoutSet ∧
    cmd.buffer.length ≤ (bytesOf id s.history).length

instance (id : ℕ) : Decidable (s.CanReceive id) :=
  inferInstanceAs (Decidable (∃ cmd ∈ enqueuedCommands s.history, _))

/-- Answers echo the frame numbers of commands the PMU has received. -/
def CanDeliver (r : Read) (answered : List ℕ) : Prop :=
  (∀ id ∈ answered, id ∈ s.received) ∧
    (watchdogAnswers (s.host.framesRead r)).map (fun f => some f.frameNum) =
      answered.map (numberOf s.history)

instance (r : Read) (answered : List ℕ) : Decidable (s.CanDeliver r answered) :=
  inferInstanceAs (Decidable (_ ∧ _))

/-- The commands an event enqueues. -/
def newCommands (e : Event) : List CommandData :=
  (enqueuedCommands (s.host.step e).pmu.link.history).drop (enqueuedCommands s.history).length

/-- One event. What is not possible does not happen. -/
def step : SystemEvent → PmuSystem
  | .host (.init _) => s
  | .host (.read _) => s
  | .host .rebootRequest =>
    { s with
      host := s.host.step .rebootRequest
      rebootCommands := s.rebootCommands ++ (s.newCommands .rebootRequest).map (·.id) }
  | .host e => { s with host := s.host.step e }
  | .receive id => if s.CanReceive id then { s with received := s.received ++ [id] } else s
  | .deliver r answered =>
    if s.CanDeliver r answered then { s with host := s.host.step (.read r) } else s

/-- The system after `pcat_pmu_manager_init`. -/
def start (w : World) (opened : Bool) : PmuSystem :=
  { host := w.start.managerInit opened, received := [], rebootCommands := [] }

/-- While a reboot is requested, only answers to the commands of the reboot arrive. -/
def NoStaleAnswer (s : PmuSystem) : SystemEvent → Prop
  | .deliver r answered => s.CanDeliver r answered → s.host.pmu.rebootRequest = true →
      ∀ id ∈ answered, id ∈ s.rebootCommands
  | _ => True

instance : (s : PmuSystem) → (e : SystemEvent) → Decidable (NoStaleAnswer s e)
  | s, .deliver r answered => inferInstanceAs (Decidable (s.CanDeliver r answered → _ → _))
  | _, .host _ => isTrue trivial
  | _, .receive _ => isTrue trivial

/-- The PMU has received a command that `pcat_pmu_manager_reboot_request` enqueued, with
the timeout of a reboot. -/
def RebootReceived (s : PmuSystem) : Prop :=
  ∃ cmd ∈ enqueuedCommands s.history, cmd.id ∈ s.received ∧ cmd.id ∈ s.rebootCommands ∧
    cmd.command = commandWatchdogTimeoutSet ∧
    cmd.buffer = serialWriteFrame cmd.frameNum commandWatchdogTimeoutSet [60, 60, 60] true

/-- What holds in every state that is reached without a stale answer. -/
structure Sound (s : PmuSystem) : Prop where
  completed : s.host.pmu.rebootProcessCompleted = true →
    ∃ id ∈ s.received, id ∈ s.rebootCommands
  commands : ∀ id ∈ s.rebootCommands, ∃ cmd ∈ enqueuedCommands s.history, cmd.id = id ∧
    cmd.command = commandWatchdogTimeoutSet ∧
    cmd.buffer = serialWriteFrame cmd.frameNum commandWatchdogTimeoutSet [60, 60, 60] true

instance (s : PmuSystem) : Decidable s.RebootReceived :=
  inferInstanceAs (Decidable (∃ cmd ∈ enqueuedCommands s.history, _))

theorem Sound.rebootReceived {s : PmuSystem} (h : s.Sound)
    (hcompleted : s.host.pmu.rebootProcessCompleted = true) : s.RebootReceived := by
  obtain ⟨id, hreceived, hid⟩ := h.completed hcompleted
  obtain ⟨cmd, hcmd, rfl, hcommand, hbuffer⟩ := h.commands id hid
  exact ⟨cmd, hcmd, hreceived, hid, hcommand, hbuffer⟩

/-- A frame completes a reboot only as an answer to a watchdog command. -/
theorem rebootFlags_dispatchFrame (w : World) (f : Frame) :
    (w.dispatchFrame f).rebootFlags =
      (w.pmu.initialized, w.pmu.rebootRequest, w.pmu.rebootProcessCompleted ||
        (w.pmu.rebootRequest && (World.forHost f && f.command = commandWatchdogTimeoutSetAck))) := by
  rw [(World.sameFlags_dispatchFrame w f).flags, World.noteReboot]
  cases hanswer : (World.forHost f && f.command = commandWatchdogTimeoutSetAck) with
  | false => simp [World.rebootFlags]
  | true => cases hreboot : w.pmu.rebootRequest <;> simp [World.rebootFlags, hreboot]

theorem rebootProcessCompleted_frames (w : World) (frames : List Frame) :
    (run World.dispatchFrame w frames).pmu.rebootProcessCompleted =
      (w.pmu.rebootProcessCompleted ||
        (w.pmu.rebootRequest && !(watchdogAnswers frames).isEmpty)) := by
  have hrequest (w : World) (f : Frame) :
      (w.dispatchFrame f).pmu.rebootRequest = w.pmu.rebootRequest :=
    congrArg (fun flags => flags.2.1) (rebootFlags_dispatchFrame w f)
  have hcompleted (w : World) (f : Frame) : (w.dispatchFrame f).pmu.rebootProcessCompleted =
      (w.pmu.rebootProcessCompleted || (w.pmu.rebootRequest &&
        (World.forHost f && f.command = commandWatchdogTimeoutSetAck))) :=
    congrArg (fun flags => flags.2.2) (rebootFlags_dispatchFrame w f)
  have hlatch := run_latch (fun w => w.pmu.rebootRequest) (fun w => w.pmu.rebootProcessCompleted)
    (fun f => World.forHost f && f.command = commandWatchdogTimeoutSetAck) hrequest hcompleted w
    frames
  apply hlatch.2.trans
  congr 2
  rw [watchdogAnswers, Bool.eq_iff_iff]
  simp

/-- The daemon's own events leave the flags of a reboot alone, the request apart. -/
theorem rebootFlags_step (w : World) (e : Event) (hinit : ∀ opened, e ≠ .init opened)
    (hread : ∀ r, e ≠ .read r) (hreboot : e ≠ .rebootRequest) :
    (w.step e).rebootFlags = w.rebootFlags :=
  World.keptByTick_rebootFlags.step (fun _ _ _ _ _ => rfl) w e hinit hread (fun _ _ => rfl)
    fun h => absurd h hreboot

/-- `pcat_pmu_manager_reboot_request` enqueues at most its own watchdog command. -/
theorem newCommands_rebootRequest (s : PmuSystem) : ∀ cmd ∈ s.newCommands .rebootRequest,
    cmd.command = commandWatchdogTimeoutSet ∧
    cmd.buffer = serialWriteFrame cmd.frameNum commandWatchdogTimeoutSet [60, 60, 60] true := by
  intro cmd hcmd
  rw [newCommands, history] at hcmd
  change cmd ∈ (enqueuedCommands (s.host.watchdogTimeoutSet 60).pmu.link.history).drop _ at hcmd
  rw [World.watchdogTimeoutSet] at hcmd
  split at hcmd
  · simp at hcmd
  · rename_i hopen
    rw [Bool.or_eq_true, not_or, Bool.not_eq_true', Bool.not_eq_true', Bool.not_eq_false,
      Bool.not_eq_false] at hopen
    have hchannel : s.host.pmu.serialChannel = true := hopen.2
    rw [World.serialWriteDataRequest, if_pos hchannel] at hcmd
    change cmd ∈ (enqueuedCommands (SerialLink.serialWriteDataRequest _ _ _ _ _ _).history).drop _
      at hcmd
    rw [SerialLink.enqueuedCommands_serialWriteDataRequest, List.drop_left] at hcmd
    rw [List.mem_singleton.mp hcmd]
    exact ⟨rfl, rfl⟩

/-- An event of the daemon that leaves the completion flag alone and only adds to the
history keeps the state sound. -/
theorem Sound.hostStep {s : PmuSystem} (h : s.Sound) {w : World}
    (hcompleted : w.pmu.rebootProcessCompleted = s.host.pmu.rebootProcessCompleted)
    (hhistory : s.history <+: w.pmu.link.history) : Sound { s with host := w } := by
  refine ⟨fun hc => h.completed (hcompleted ▸ hc), fun id hid => ?_⟩
  obtain ⟨cmd, hcmd, hrest⟩ := h.commands id hid
  exact ⟨cmd, (enqueuedCommands_of_isPrefix hhistory).subset hcmd, hrest⟩

theorem completed_of_flags {w w' : World} (h : w'.rebootFlags = w.rebootFlags) :
    w'.pmu.rebootProcessCompleted = w.pmu.rebootProcessCompleted :=
  congrArg (fun flags => flags.2.2) h

theorem Sound.own {s : PmuSystem} (h : s.Sound) (e : Event) (hinit : ∀ opened, e ≠ .init opened)
    (hread : ∀ r, e ≠ .read r) (hreboot : e ≠ .rebootRequest) :
    Sound { s with host := s.host.step e } :=
  h.hostStep (completed_of_flags (rebootFlags_step s.host e hinit hread hreboot))
    (World.history_step s.host e hinit)

theorem Sound.rebootRequest {s : PmuSystem} (h : s.Sound) :
    Sound (s.step (.host .rebootRequest)) := by
  have hsame := completed_of_flags (World.requests_watchdogTimeoutSet s.host 60).sameFlags.flags
  have hprefix := enqueuedCommands_of_isPrefix (World.history_step s.host .rebootRequest (by simp))
  refine ⟨fun hc => ?_, fun id hid => ?_⟩
  · obtain ⟨id, hreceived, hid⟩ := h.completed (hsame ▸ hc)
    exact ⟨id, hreceived, List.mem_append_left _ hid⟩
  · rcases List.mem_append.mp hid with hid | hid
    · obtain ⟨cmd, hcmd, hrest⟩ := h.commands id hid
      exact ⟨cmd, hprefix.subset hcmd, hrest⟩
    · obtain ⟨cmd, hcmd, rfl⟩ := List.mem_map.mp hid
      exact ⟨cmd, List.mem_of_mem_drop hcmd, rfl, newCommands_rebootRequest s cmd hcmd⟩

theorem Sound.deliver {s : PmuSystem} (h : s.Sound) (r : Read) (answered : List ℕ)
    (hfresh : NoStaleAnswer s (.deliver r answered)) : Sound (s.step (.deliver r answered)) := by
  simp only [step]
  split
  · rename_i hdeliver
    have hhistory := World.history_step s.host (.read r) (by simp)
    by_cases hopen : s.host.pmu.serialChannel = true
    · have hframes := rebootProcessCompleted_frames s.host (s.host.framesRead r)
      rw [← World.serialReadStep_eq_foldl] at hframes
      have hafter : (s.host.step (.read r)).pmu.rebootProcessCompleted =
          (s.host.pmu.rebootProcessCompleted || (s.host.pmu.rebootRequest &&
            !(watchdogAnswers (s.host.framesRead r)).isEmpty)) := by
        simp only [World.step, hopen, if_true]
        exact hframes
      refine ⟨fun hc => ?_, (h.hostStep (w := { s.host with
        pmu := { s.host.pmu with link := (s.host.step (.read r)).pmu.link } }) rfl hhistory).commands⟩
      simp only [hafter, Bool.or_eq_true, Bool.and_eq_true, Bool.not_eq_true'] at hc
      rcases hc with hc | ⟨hreboot, hanswers⟩
      · exact h.completed hc
      · -- the frame that completes the reboot answers a command of the reboot
        have hne : answered ≠ [] := by
          rintro rfl
          have := hdeliver.2
          simp only [List.map_nil, List.map_eq_nil_iff] at this
          simp [this] at hanswers
        obtain ⟨id, hid⟩ := List.exists_mem_of_ne_nil _ hne
        exact ⟨id, hdeliver.1 id hid, hfresh hdeliver hreboot id hid⟩
    · have hsame : s.host.step (.read r) = s.host := by simp [World.step, hopen]
      rw [hsame]
      exact h
  · exact h

theorem Sound.step {s : PmuSystem} (h : s.Sound) (e : SystemEvent) (hfresh : NoStaleAnswer s e) :
    (s.step e).Sound := by
  cases e with
  | receive id =>
    simp only [PmuSystem.step]
    split
    · refine ⟨fun hc => ?_, h.commands⟩
      obtain ⟨id', hreceived, hid⟩ := h.completed hc
      exact ⟨id', List.mem_append_left _ hreceived, hid⟩
    · exact h
  | deliver r answered => exact h.deliver r answered hfresh
  | host e =>
    cases e with
    | init opened => exact h
    | read r => exact h
    | rebootRequest => exact h.rebootRequest
    | _ => exact h.own _ nofun nofun nofun

theorem sound_start (w : World) (opened : Bool) : (start w opened).Sound := by
  refine ⟨fun hc => ?_, by simp [start]⟩
  have hinit : (w.start.managerInit opened).pmu.rebootProcessCompleted = false := by
    rw [World.managerInit]
    split
    · rfl
    · split
      · rfl
      · exact completed_of_flags (World.requests_initRequests _).sameFlags.flags
  rw [start, hinit] at hc
  simp at hc

/-- When no stale answer arrives while a reboot is requested, the reboot is reported
completed only once the PMU has received the watchdog command of the reboot. -/
theorem reboot_completed_received (w : World) (opened : Bool) (events : List SystemEvent)
    (h : Along step NoStaleAnswer (start w opened) events)
    (hcompleted : (run step (start w opened) events).host.rebootCompleted = true) :
    (run step (start w opened) events).RebootReceived :=
  (h.invariant (fun _ e hs he => hs.step e he) (sound_start w opened)).rebootReceived hcompleted

/-- One command is written, answered and followed by the next. -/
def answeredCommand (frameNum command : UInt16) : List SystemEvent :=
  [.host (.writeWatch (fun _ => .written 100) .again), .deliver (World.answerRead frameNum command) [],
    .host .tick]

/-- The commands of `pcat_pmu_manager_init` before its watchdog command are answered, and
the PMU receives the latter. -/
def upToWatchdog : List SystemEvent :=
  answeredCommand 0 0xA ++ answeredCommand 1 0x16 ++ answeredCommand 2 0x18 ++
    answeredCommand 3 0x6 ++ answeredCommand 4 0x1C ++
    [.host (.writeWatch (fun _ => .written 100) .again), .receive 5]

/-- The answer to the watchdog command of the initialisation arrives before the reboot is
requested. -/
def rebootRun : List SystemEvent :=
  upToWatchdog ++
    [.deliver (World.answerRead 5 0x14) [5], .host .rebootRequest,
      .host (.writeWatch (fun _ => .written 100) .again), .receive 11,
      .deliver (World.answerRead 11 0x14) [11]]

theorem reboot_completed_received_answered :
    (run step (start World.plain true) rebootRun).RebootReceived :=
  reboot_completed_received World.plain true rebootRun (by decide +kernel) (by decide +kernel)

/-- It arrives after the request, while the watchdog command of the reboot is in the queue. -/
def staleRun : List SystemEvent :=
  upToWatchdog ++ [.host .rebootRequest, .deliver (World.answerRead 5 0x14) [5]]

/-- The stale answer completes the reboot. -/
theorem reboot_completed_stale :
    (run step (start World.plain true) staleRun).host.rebootCompleted = true ∧
      ¬(run step (start World.plain true) staleRun).RebootReceived := by
  decide +kernel

end PmuSystem
end PcatManager
