import PcatManager.PmuManagerFrame
import PcatManager.SerialLine

/-!
# Leaving the main loop

The signal handlers and check timers of `main.c` around the PMU manager: the reboot and the
shutdown sequence, which share one wait counter, and the ways to quit the main loop.
-/

namespace PcatManager
open SerialFrame SerialReadParser GuardedRun

/-- `g_pcat_main_shutdown_wait_max`. -/
def shutdownWaitMax : ℕ := 30

/-- The shutdown variables of `main.c`, whether the shutdown request file exists, which
check timers are installed, and whether `g_main_loop_quit` was called. The last two fields
are not part of the program: whether the answer to `HOST_REQUEST_SHUTDOWN` has been
processed since the request, and how often `pcat_main_shutdown_check_timeout_func` has run. -/
structure MainLoop where
  world : World
  requestFile : Bool
  shutdown : Bool := false
  reboot : Bool := false
  shutdownWaitCount : ℕ := 0
  watchdogDisabled : Bool := false
  shutdownCheck : Bool := false
  rebootCheck : Bool := false
  quit : Bool := false
  ackProcessed : Bool := false
  ownChecks : ℕ := 0

/-- What the main loop reacts to: signals, calls of `pcat_main_request_shutdown`, the
request file coming and going, the two check timers, and the events of the PMU manager. -/
inductive MainEvent where
  | sigterm
  | sigusr1
  | requestShutdown (sendPmuRequest : Bool)
  | createRequestFile
  | removeRequestFile
  | shutdownCheck
  | rebootCheck
  | manager (e : Event)

/-- The frame is handled as the answer to `HOST_REQUEST_SHUTDOWN`. -/
def isShutdownAck (f : Frame) : Bool :=
  World.forHost f && f.command = commandHostRequestShutdownAck

namespace MainLoop
variable (s : MainLoop)

/-- `pcat_main_shutdown_check_timeout_func`. -/
def shutdownCheckTimeoutFunc : MainLoop :=
  if s.world.shutdownCompleted then { s with quit := true, shutdownCheck := false }
  else if shutdownWaitMax < s.shutdownWaitCount then { s with quit := true, shutdownCheck := false }
  else { s with shutdownWaitCount := s.shutdownWaitCount + 1 }

/-- `pcat_main_reboot_check_timeout_func`. -/
def rebootCheckTimeoutFunc : MainLoop :=
  if s.world.rebootCompleted then { s with quit := true, rebootCheck := false }
  else if shutdownWaitMax < s.shutdownWaitCount then { s with quit := true, rebootCheck := false }
  else { s with shutdownWaitCount := s.shutdownWaitCount + 1 }

/-- `pcat_main_system_shutdown`. -/
def systemShutdown : MainLoop :=
  if s.shutdown then s
  else if s.world.main.requestShutdownSendPmuRequest then
    { s with world := s.world.shutdownRequest, shutdownCheck := true, shutdown := true }
  else { s with quit := true, shutdown := true }

/-- `pcat_main_system_reboot`. -/
def systemReboot : MainLoop :=
  if s.reboot then s
  else { s with world := s.world.rebootRequest, rebootCheck := true, reboot := true }

/-- `pcat_main_sigterm_func`. -/
def sigtermFunc : MainLoop :=
  if s.world.main.requestShutdown || s.requestFile then s.systemShutdown
  else if !s.watchdogDisabled then s.systemReboot
  else { s with quit := true }

/-- `pcat_main_sigusr1_func`. -/
def sigusr1Func : MainLoop :=
  { s with watchdogDisabled := true, world := s.world.watchdogTimeoutSet 0 }

/-- `HOST_REQUEST_SHUTDOWN` has been issued: only `pcat_pmu_manager_shutdown_request` sets
this flag. -/
def issued : Bool := s.world.pmu.shutdownRequest

/-- The event makes the manager process an answer to `HOST_REQUEST_SHUTDOWN`. -/
def processesAck : Event → Bool
  | .read r => s.world.pmu.serialChannel && (s.world.framesRead r).any isShutdownAck
  | _ => false

/-- An event of the manager. Its initialisation and the two requests are called by
`main.c` only. -/
def managerStep : Event → MainLoop
  | .init _ => s
  | .shutdownRequest => s
  | .rebootRequest => s
  | e =>
    { s with
      world := s.world.step e
      ackProcessed := s.ackProcessed || (s.issued && s.processesAck e) }

/-- What a running loop does on an event. A timer that is not installed does not fire. -/
def react : MainEvent → MainLoop
  | .sigterm => s.sigtermFunc
  | .sigusr1 => s.sigusr1Func
  | .requestShutdown sendPmuRequest => { s with world := s.world.requestShutdown sendPmuRequest }
  | .createRequestFile => { s with requestFile := true }
  | .removeRequestFile => { s with requestFile := false }
  | .shutdownCheck =>
    if s.shutdownCheck then { s.shutdownCheckTimeoutFunc with ownChecks := s.ownChecks + 1 } else s
  | .rebootCheck => if s.rebootCheck then s.rebootCheckTimeoutFunc else s
  | .manager e => s.managerStep e

/-- One event in an iteration of its own. A loop that was quit reacts to nothing. -/
def step (s : MainLoop) (e : MainEvent) : MainLoop := if s.quit then s else s.react e

/-- The loop when it starts to run. -/
def start (w : World) (opened requestFile : Bool) : MainLoop :=
  { world := w.start.managerInit opened, requestFile := requestFile }

/-- `HOST_REQUEST_SHUTDOWN` is issued and neither answered nor waited for long enough. -/
def HandshakeOpen (s : MainLoop) : Prop :=
  s.issued = true ∧ s.ackProcessed = false ∧ s.ownChecks ≤ shutdownWaitMax

/-- When the loop was quit after the request, the answer had been processed or the shutdown
check had run more often than its limit. -/
def HandshakeKept (s : MainLoop) : Prop :=
  s.quit = true → s.issued = true → s.ackProcessed = true ∨ shutdownWaitMax < s.ownChecks

/-- The loop was quit in the middle of the handshake. -/
def CutShort (s : MainLoop) : Prop := s.quit = true ∧ s.HandshakeOpen

/-- The event does not quit the loop in the middle of the handshake. While it is open,
no SIGTERM finds neither request flag nor file after the watchdog was disabled; no reboot
check finds the reboot completed or the shared counter above its limit; and no shutdown
check finds the counter above its limit before its own runs are. -/
def LeavesOpen (s : MainLoop) : MainEvent → Prop
  | .sigterm => s.quit = false → s.HandshakeOpen →
      (s.world.main.requestShutdown || s.requestFile || !s.watchdogDisabled) = true
  | .rebootCheck => s.quit = false → s.HandshakeOpen → s.rebootCheck = true →
      s.world.rebootCompleted = false ∧ s.shutdownWaitCount ≤ shutdownWaitMax
  | .shutdownCheck => s.quit = false → s.HandshakeOpen → s.shutdownCheck = true →
      shutdownWaitMax < s.shutdownWaitCount → shutdownWaitMax < s.ownChecks + 1
  | _ => True

instance : Decidable s.HandshakeOpen := inferInstanceAs (Decidable (_ ∧ _ ∧ _))

instance : Decidable s.HandshakeKept := inferInstanceAs (Decidable (_ → _ → _))

end MainLoop

namespace World

/-- The flags a shutdown of the PMU goes through. -/
def shutdownFlags (w : World) : Bool × Bool := (w.pmu.shutdownRequest, w.pmu.shutdownProcessCompleted)

theorem keptByTick_shutdownFlags : KeptByTick shutdownFlags where
  link := by
    rintro w w' ⟨l, n, rfl⟩
    rfl
  timestamp _ _ := rfl
  modem _ _ := rfl
  plan _ := rfl

/-- A frame completes the shutdown only as the answer to a request. -/
theorem shutdownFlags_dispatchFrame (w : World) (f : Frame) :
    (w.dispatchFrame f).shutdownFlags = (w.pmu.shutdownRequest,
      w.pmu.shutdownProcessCompleted || (w.pmu.shutdownRequest && isShutdownAck f)) := by
  have hother (hack : isShutdownAck f = false) {w' : World} (hw' : w'.shutdownFlags = w.shutdownFlags) :
      w'.shutdownFlags = (w.pmu.shutdownRequest,
        w.pmu.shutdownProcessCompleted || (w.pmu.shutdownRequest && isShutdownAck f)) := by
    rw [hw', hack, Bool.and_false, Bool.or_false]
    rfl
  have hcommand {command : UInt16} (h : f.command = command)
      (hne : command ≠ commandHostRequestShutdownAck) : isShutdownAck f = false := by
    simp [isShutdownAck, h, hne]
  obtain ⟨hhost, hsame⟩ | ⟨hhost, l, w', heffect, hsame⟩ := w.dispatchFrame_cases f
  · exact hother (by simp [isShutdownAck, hhost]) (keptByTick_shutdownFlags.link hsame)
  · rw [keptByTick_shutdownFlags.link hsame]
    cases heffect with
    | nothing _ _ hshutdown =>
      by_cases hack : f.command = commandHostRequestShutdownAck
      · have hrequest : w.pmu.shutdownRequest = false := hshutdown hack
        rw [hrequest, Bool.false_and, Bool.or_false, ← hrequest]
        rfl
      · exact hother (by simp [isShutdownAck, hack]) rfl
    | status h _ =>
      apply hother (hcommand h (by decide))
      exact keptByTick_shutdownFlags.statusDataParse (fun _ _ => rfl) (fun _ _ _ _ => rfl) _ _
    | askShutdown h => exact hother (hcommand h (by decide)) rfl
    | shutdownAck h hrequest =>
      have hset : w.pmu.shutdownRequest = true := hrequest
      rw [isShutdownAck, hhost, h, hset]
      simp [shutdownFlags, setLink, hset]
    | watchdogAck h => exact hother (hcommand h (by decide)) rfl
    | factoryReset h => exact hother (hcommand h (by decide)) rfl
    | fwVersion h => exact hother (hcommand h (by decide)) rfl
    | powerOnEvent h => exact hother (hcommand h (by decide)) rfl

theorem shutdownFlags_frames (w : World) (frames : List Frame) :
    (run dispatchFrame w frames).shutdownFlags = (w.pmu.shutdownRequest,
      w.pmu.shutdownProcessCompleted || (w.pmu.shutdownRequest && frames.any isShutdownAck)) := by
  have hrequest (w : World) (f : Frame) :
      (w.dispatchFrame f).pmu.shutdownRequest = w.pmu.shutdownRequest :=
    congrArg Prod.fst (shutdownFlags_dispatchFrame w f)
  have hcompleted (w : World) (f : Frame) : (w.dispatchFrame f).pmu.shutdownProcessCompleted =
      (w.pmu.shutdownProcessCompleted || (w.pmu.shutdownRequest && isShutdownAck f)) :=
    congrArg Prod.snd (shutdownFlags_dispatchFrame w f)
  have hlatch := run_latch (fun w => w.pmu.shutdownRequest)
    (fun w => w.pmu.shutdownProcessCompleted) isShutdownAck hrequest hcompleted w frames
  exact Prod.ext hlatch.1 hlatch.2

end World

namespace MainLoop

/-- What the loop knows about the handshake follows the PMU manager: the answer that was
processed is the completed shutdown, and only the shutdown sequence issues the request. -/
structure FollowsManager (s : MainLoop) : Prop where
  ack : s.ackProcessed = s.world.pmu.shutdownProcessCompleted
  issued : s.issued = true → s.shutdown = true

theorem followsManager_start (w : World) (opened requestFile : Bool) :
    (start w opened requestFile).FollowsManager := by
  have hflags : (w.start.managerInit opened).shutdownFlags = (false, false) := by
    rw [World.managerInit]
    split
    · rfl
    · split
      · rfl
      · exact World.keptByTick_shutdownFlags.link (World.requests_initRequests _).sameButLink
  simp only [World.shutdownFlags, Prod.mk.injEq] at hflags
  refine ⟨hflags.2.symm, fun hissued => ?_⟩
  exact absurd (hflags.1.symm.trans hissued) Bool.false_ne_true

/-- What the events of the manager do to the flags of the handshake. -/
theorem shutdownFlags_step (s : MainLoop) (e : Event) (hinit : ∀ opened, e ≠ .init opened)
    (hshutdown : e ≠ .shutdownRequest) :
    (s.world.step e).shutdownFlags =
      (s.issued, s.world.pmu.shutdownProcessCompleted || (s.issued && s.processesAck e)) := by
  by_cases hread : ∃ r, e = .read r
  · obtain ⟨r, rfl⟩ := hread
    rw [World.step, processesAck]
    cases hopen : s.world.pmu.serialChannel with
    | false =>
      rw [Bool.false_and, Bool.and_false, Bool.or_false]
      rfl
    | true =>
      rw [if_pos rfl, Bool.true_and]
      have hframes := World.shutdownFlags_frames s.world (s.world.framesRead r)
      rw [← World.serialReadStep_eq_foldl] at hframes
      exact hframes
  · have hnone : s.processesAck e = false := by
      cases e with
      | read r => exact absurd ⟨r, rfl⟩ hread
      | _ => rfl
    rw [hnone, Bool.and_false, Bool.or_false]
    exact World.keptByTick_shutdownFlags.step (fun _ _ _ _ _ => rfl) s.world e hinit
      (fun r he => hread ⟨r, he⟩) (fun he => absurd he hshutdown) fun _ _ => rfl

theorem FollowsManager.managerStep {s : MainLoop} (h : s.FollowsManager) (e : Event) :
    (s.managerStep e).FollowsManager := by
  by_cases hmain : (∃ opened, e = .init opened) ∨ e = .shutdownRequest ∨ e = .rebootRequest
  · rcases hmain with ⟨opened, rfl⟩ | rfl | rfl
    · exact h
    · exact h
    · exact h
  · rw [not_or, not_or, not_exists] at hmain
    obtain ⟨hinit, hshutdown, hreboot⟩ := hmain
    have hstep : s.managerStep e =
        { s with
          world := s.world.step e
          ackProcessed := s.ackProcessed || (s.issued && s.processesAck e) } := by
      cases e with
      | init opened => exact absurd rfl (hinit opened)
      | shutdownRequest => exact absurd rfl hshutdown
      | rebootRequest => exact absurd rfl hreboot
      | _ => rfl
    have hflags := shutdownFlags_step s e hinit hshutdown
    simp only [World.shutdownFlags, Prod.mk.injEq] at hflags
    rw [hstep]
    refine ⟨?_, fun hissued => h.issued (hflags.1.symm.trans hissued)⟩
    rw [hflags.2, h.ack]

theorem FollowsManager.congr {s s' : MainLoop} (h : s.FollowsManager)
    (hflags : s'.world.shutdownFlags = s.world.shutdownFlags)
    (hack : s'.ackProcessed = s.ackProcessed) (hshutdown : s'.shutdown = s.shutdown) :
    s'.FollowsManager := by
  simp only [World.shutdownFlags, Prod.mk.injEq] at hflags
  refine ⟨by rw [hack, hflags.2, h.ack], fun hissued => ?_⟩
  rw [hshutdown]
  exact h.issued (hflags.1.symm.trans hissued)

theorem FollowsManager.systemShutdown {s : MainLoop} (h : s.FollowsManager) :
    s.systemShutdown.FollowsManager := by
  rw [MainLoop.systemShutdown]
  split
  · exact h
  · split
    · refine ⟨?_, fun _ => rfl⟩
      have hsame := World.keptByTick_shutdownFlags.link
        (World.requests_serialWriteDataRequest s.world commandHostRequestShutdown none []
          true).sameButLink
      exact h.ack.trans (congrArg Prod.snd hsame).symm
    · exact ⟨h.ack, fun _ => rfl⟩

theorem FollowsManager.sigtermFunc {s : MainLoop} (h : s.FollowsManager) :
    s.sigtermFunc.FollowsManager := by
  rw [MainLoop.sigtermFunc]
  split
  · exact h.systemShutdown
  · split
    · rw [systemReboot]
      split
      · exact h
      · refine h.congr ?_ rfl rfl
        change s.world.rebootRequest.shutdownFlags = _
        have hsame := World.keptByTick_shutdownFlags.link
          (World.requests_watchdogTimeoutSet s.world 60).sameButLink
        exact hsame
    · exact h.congr rfl rfl rfl

theorem FollowsManager.step {s : MainLoop} (h : s.FollowsManager) (e : MainEvent) :
    (s.step e).FollowsManager := by
  rw [MainLoop.step]
  split
  · exact h
  · cases e with
    | sigterm => exact h.sigtermFunc
    | sigusr1 =>
      refine h.congr ?_ rfl rfl
      exact World.keptByTick_shutdownFlags.link
        (World.requests_watchdogTimeoutSet s.world 0).sameButLink
    | requestShutdown sendPmuRequest => exact h.congr rfl rfl rfl
    | createRequestFile => exact h.congr rfl rfl rfl
    | removeRequestFile => exact h.congr rfl rfl rfl
    | shutdownCheck =>
      rw [react, shutdownCheckTimeoutFunc]
      split_ifs
      · exact h.congr rfl rfl rfl
      · exact h.congr rfl rfl rfl
      · exact h.congr rfl rfl rfl
      · exact h
    | rebootCheck =>
      rw [react, rebootCheckTimeoutFunc]
      split_ifs
      · exact h.congr rfl rfl rfl
      · exact h.congr rfl rfl rfl
      · exact h.congr rfl rfl rfl
      · exact h
    | manager e => exact h.managerStep e

theorem not_cutShort {s : MainLoop} (h : s.quit = false) : ¬s.CutShort :=
  fun hcut => absurd (h.symm.trans hcut.1) Bool.false_ne_true

/-- A SIGTERM cuts the handshake short when it quits the loop directly. -/
theorem cutShort_sigtermFunc {s : MainLoop} (h : s.FollowsManager) (hquit : s.quit = false) :
    ¬s.sigtermFunc.CutShort ↔ s.LeavesOpen .sigterm := by
  rw [LeavesOpen, sigtermFunc]
  by_cases hrequest : (s.world.main.requestShutdown || s.requestFile) = true
  · rw [if_pos hrequest, hrequest]
    refine iff_of_true ?_ (fun _ _ => rfl)
    rw [systemShutdown]
    split_ifs with hshutdown
    · exact not_cutShort hquit
    · exact not_cutShort hquit
    · -- the request was not issued, or the shutdown would be under way
      exact fun hcut => hshutdown (h.issued hcut.2.1)
  · rw [if_neg hrequest]
    by_cases hwatchdog : (!s.watchdogDisabled) = true
    · rw [if_pos hwatchdog, hwatchdog, Bool.or_true]
      refine iff_of_true ?_ (fun _ _ => rfl)
      rw [systemReboot]
      split
      · exact not_cutShort hquit
      · exact not_cutShort hquit
    · rw [if_neg hwatchdog, Bool.eq_false_iff.mpr hrequest, Bool.eq_false_iff.mpr hwatchdog]
      constructor
      · exact fun hcut _ hopen => absurd ⟨rfl, hopen⟩ hcut
      · exact fun hleaves hcut => absurd (hleaves hquit hcut.2) Bool.false_ne_true

/-- A shutdown check does when the counter is above its limit before its own runs are. -/
theorem cutShort_shutdownCheck {s : MainLoop} (h : s.FollowsManager) (hquit : s.quit = false)
    (htimer : s.shutdownCheck = true) :
    ¬CutShort { s.shutdownCheckTimeoutFunc with ownChecks := s.ownChecks + 1 } ↔
      s.LeavesOpen .shutdownCheck := by
  rw [LeavesOpen, shutdownCheckTimeoutFunc]
  by_cases hcompleted : s.world.shutdownCompleted = true
  · rw [if_pos hcompleted]
    have hack : s.ackProcessed = true := h.ack.trans hcompleted
    constructor
    · exact fun _ _ hopen => absurd (hopen.2.1.symm.trans hack) Bool.false_ne_true
    · exact fun _ hcut => absurd (hcut.2.2.1.symm.trans hack) Bool.false_ne_true
  · rw [if_neg hcompleted]
    by_cases hcount : shutdownWaitMax < s.shutdownWaitCount
    · rw [if_pos hcount]
      constructor
      · intro hcut _ hopen _ _
        by_contra hown
        exact hcut ⟨rfl, hopen.1, hopen.2.1, Nat.not_lt.mp hown⟩
      · intro hleaves hcut
        obtain ⟨-, hissued, hack, hown⟩ := hcut
        have hopen : s.HandshakeOpen := ⟨hissued, hack, (Nat.le_succ _).trans hown⟩
        exact absurd (hleaves hquit hopen htimer hcount) (Nat.not_lt.mpr hown)
    · rw [if_neg hcount]
      exact iff_of_true (not_cutShort hquit) fun _ _ _ h => absurd h hcount

theorem cutShort_rebootCheckTimeoutFunc {s : MainLoop} (hquit : s.quit = false)
    (htimer : s.rebootCheck = true) :
    ¬s.rebootCheckTimeoutFunc.CutShort ↔ s.LeavesOpen .rebootCheck := by
  rw [LeavesOpen, rebootCheckTimeoutFunc]
  by_cases hcompleted : s.world.rebootCompleted = true
  · rw [if_pos hcompleted]
    constructor
    · exact fun hcut _ hopen => absurd ⟨rfl, hopen⟩ hcut
    · intro hleaves hcut
      exact absurd ((hleaves hquit hcut.2 htimer).1.symm.trans hcompleted) Bool.false_ne_true
  · rw [if_neg hcompleted]
    by_cases hcount : shutdownWaitMax < s.shutdownWaitCount
    · rw [if_pos hcount]
      constructor
      · exact fun hcut _ hopen => absurd ⟨rfl, hopen⟩ hcut
      · exact fun hleaves hcut => absurd hcount (Nat.not_lt.mpr (hleaves hquit hcut.2 htimer).2)
    · rw [if_neg hcount]
      refine iff_of_true (not_cutShort hquit) fun _ _ _ => ?_
      exact ⟨Bool.eq_false_iff.mpr hcompleted, Nat.not_lt.mp hcount⟩

/-- One event cuts the handshake short exactly when it does not leave it open. -/
theorem cutShort_step_iff (s : MainLoop) (e : MainEvent) (h : s.FollowsManager) :
    ¬(s.step e).CutShort ↔ ¬s.CutShort ∧ s.LeavesOpen e := by
  rw [step]
  cases hquit : s.quit with
  | true =>
    rw [if_pos rfl]
    refine (and_iff_left ?_).symm
    cases e with
    | sigterm => exact fun h => absurd (h.symm.trans hquit) Bool.false_ne_true
    | rebootCheck => exact fun h => absurd (h.symm.trans hquit) Bool.false_ne_true
    | shutdownCheck => exact fun h => absurd (h.symm.trans hquit) Bool.false_ne_true
    | _ => trivial
  | false =>
    rw [if_neg Bool.false_ne_true, and_iff_right (not_cutShort hquit)]
    cases e with
    | sigterm => exact cutShort_sigtermFunc h hquit
    | sigusr1 => exact iff_of_true (not_cutShort hquit) trivial
    | requestShutdown sendPmuRequest => exact iff_of_true (not_cutShort hquit) trivial
    | createRequestFile => exact iff_of_true (not_cutShort hquit) trivial
    | removeRequestFile => exact iff_of_true (not_cutShort hquit) trivial
    | shutdownCheck =>
      rw [react]
      split
      · rename_i htimer
        exact cutShort_shutdownCheck h hquit htimer
      · rename_i htimer
        exact iff_of_true (not_cutShort hquit) fun _ _ h => absurd h htimer
    | rebootCheck =>
      rw [react]
      split
      · rename_i htimer
        exact cutShort_rebootCheckTimeoutFunc hquit htimer
      · rename_i htimer
        exact iff_of_true (not_cutShort hquit) fun _ _ h => absurd h htimer
    | manager e =>
      refine iff_of_true (not_cutShort ?_) trivial
      cases e with
      | _ => exact hquit

theorem handshakeKept_iff (s : MainLoop) : s.HandshakeKept ↔ ¬s.CutShort := by
  rw [HandshakeKept, CutShort, HandshakeOpen]
  cases s.ackProcessed with
  | true => simp
  | false => simp

/-- In exactly the runs whose events all leave an open handshake open, the loop is quit
after `HOST_REQUEST_SHUTDOWN` only with the answer processed or after more than
`g_pcat_main_shutdown_wait_max` runs of the shutdown check. -/
theorem handshake_kept_iff (w : World) (opened requestFile : Bool) (events : List MainEvent) :
    (run step (start w opened requestFile) events).HandshakeKept ↔
      Along step LeavesOpen (start w opened requestFile) events := by
  have hstart : ¬(start w opened requestFile).CutShort := not_cutShort rfl
  have hrun := run_iff_along (P := fun s => ¬CutShort s)
    (fun s e (h : s.FollowsManager) => h.step e) cutShort_step_iff
    (followsManager_start w opened requestFile) events
  rwa [and_iff_right hstart, ← handshakeKept_iff] at hrun

/-- A reboot is under way when the request file makes the next SIGTERM start the shutdown;
then the watchdog command of the reboot is answered. -/
def overlapRun : List MainEvent :=
  [.sigterm, .createRequestFile, .sigterm, .manager (.read (World.answerRead 5 0x14)), .rebootCheck]

/-- The request file is gone and the watchdog disabled when a second SIGTERM arrives. -/
def directRun : List MainEvent :=
  [.createRequestFile, .sigterm, .removeRequestFile, .sigusr1, .sigterm]

/-- A reboot has used up the shared counter when the shutdown starts. -/
def sharedCounterRun : List MainEvent :=
  .sigterm :: List.replicate 31 .rebootCheck ++ [.createRequestFile, .sigterm, .shutdownCheck]

/-- Each of them quits the loop with the handshake open. -/
theorem handshake_cut_short :
    ¬(run step (start World.plain true false) overlapRun).HandshakeKept ∧
      ¬(run step (start World.plain true false) directRun).HandshakeKept ∧
      ¬(run step (start World.plain true false) sharedCounterRun).HandshakeKept := by
  decide +kernel

end MainLoop
end PcatManager
