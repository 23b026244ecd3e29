import PcatManager.MainLoop
import PcatManager.SerialLinkCalls

/-!
# The daemon without a port

The daemon keeps running when the serial port cannot be opened. Every function that sends
something to the PMU then does nothing, except the shutdown request.
-/

namespace PcatManager
open SerialFrame SerialReadParser GuardedRun

/-- A call of the write function by another function than those of the program. There is
none. -/
def MainEvent.IsBareRequest : MainEvent → Prop
  | .manager (.request _ _ _ _) => True
  | _ => False

namespace World

/-- The number of calls of the write function without a port. -/
def closedCalls (w : World) : ℕ := w.main.closedPortRequests

/-- The port exists exactly when the manager is initialised. -/
def PortInitialized (w : World) : Prop := w.pmu.initialized = w.pmu.serialChannel

/-- The port is not opened or closed, and an open one serves all requests. -/
structure Served (w w' : World) : Prop where
  initialized : w'.pmu.initialized = w.pmu.initialized
  channel : w'.pmu.serialChannel = w.pmu.serialChannel
  closedCalls : w.pmu.serialChannel = true → w'.closedCalls = w.closedCalls

theorem Served.trans {u v w : World} (h : Served u v) (h' : Served v w) : Served u w where
  initialized := h'.initialized.trans h.initialized
  channel := h'.channel.trans h.channel
  closedCalls hopen := (h'.closedCalls (h.channel.trans hopen)).trans (h.closedCalls hopen)

theorem portRelation_served : PortRelation Served where
  same h := ⟨h.initialized, h.channel, fun _ => h.closedPortRequests⟩
  trans := Served.trans
  request w command frameNum extraData needAck := by
    rw [serialWriteDataRequest]
    split
    · exact ⟨rfl, rfl, fun _ => rfl⟩
    · rename_i hclosed
      exact ⟨rfl, rfl, fun hopen => absurd hopen hclosed⟩

theorem served_step (w : World) (e : Event) (hinit : ∀ opened, e ≠ .init opened) :
    Served w (w.step e) := by
  by_cases helapse : ∃ microseconds, e = .elapse microseconds
  · obtain ⟨microseconds, rfl⟩ := helapse
    exact ⟨rfl, rfl, fun _ => rfl⟩
  · refine portRelation_served.step w (fun _ _ _ _ => ⟨rfl, rfl, fun _ => rfl⟩)
      (fun _ => ⟨rfl, rfl, fun _ => rfl⟩) e hinit (fun _ h => helapse ⟨_, h⟩) fun r _ _ => ?_
    exact (along_true w _).mono fun _ _ _ => ⟨rfl, rfl, fun _ => rfl⟩

theorem served_managerInit (w : World) (opened : Bool) (h : w.PortInitialized)
    (hclosed : w.pmu.initialized = false) :
    (w.managerInit opened).PortInitialized ∧ (w.managerInit opened).closedCalls = w.closedCalls := by
  rw [managerInit, if_neg (by rw [hclosed]; exact Bool.false_ne_true)]
  cases opened with
  | false => exact ⟨h, rfl⟩
  | true =>
    have hserved := portRelation_served.requests (requests_initRequests
      { w.resetForInit.serialOpen.setBatteryTables with
        pmu := { w.resetForInit.serialOpen.setBatteryTables.pmu with initialized := true } })
    exact ⟨hserved.initialized.trans hserved.channel.symm, hserved.closedCalls rfl⟩

section Closed
variable {w : World}

/-- The functions of the manager that send something look at the port first, the shutdown
request apart. -/
theorem closedCalls_step_closed (hport : w.PortInitialized) (hclosed : w.pmu.serialChannel = false)
    (e : Event) (hinit : ∀ opened, e ≠ .init opened) (hshutdown : e ≠ .shutdownRequest)
    (hbare : ∀ command frameNum extraData needAck,
      e ≠ .request command frameNum extraData needAck) :
    (w.step e).closedCalls = w.closedCalls := by
  have huninit : w.pmu.initialized = false := hport.trans hclosed
  cases e with
  | init opened => exact absurd rfl (hinit opened)
  | shutdownRequest => exact absurd rfl hshutdown
  | request command frameNum extraData needAck => exact absurd rfl (hbare _ _ _ _)
  | writeWatch writes wsize =>
    rw [step]
    split <;> rfl
  | read r => rw [step, hclosed, if_neg Bool.false_ne_true]
  | tick => rw [step, checkTimeoutFunc, hclosed, Bool.not_false, if_pos rfl]
  | elapse microseconds => rfl
  | setClock t => rfl
  | configure config => rfl
  | modem deviceType => rfl
  | watchdogTimeoutSet timeout => simp [step, watchdogTimeoutSet, huninit]
  | rebootRequest => simp [step, rebootRequest, watchdogTimeoutSet, huninit, closedCalls]
  | scheduleTimeUpdate => simp [step, scheduleTimeUpdate, huninit]
  | chargerOnAutoStart state => simp [step, chargerOnAutoStart, huninit]
  | netStatusLedSetup onTime downTime repeatTimes => simp [step, netStatusLedSetup, huninit]
  | voltageThresholdSet a b c d e f g i => simp [step, voltageThresholdSet, huninit]

theorem closedCalls_shutdownRequest (hclosed : w.pmu.serialChannel = false) :
    w.shutdownRequest.closedCalls = w.closedCalls + 1 := by
  rw [shutdownRequest, serialWriteDataRequest, hclosed, if_neg Bool.false_ne_true]
  rfl

end Closed
end World

namespace MainLoop

/-- A SIGTERM now starts the shutdown sequence with a request to the PMU. -/
def StartsShutdown (s : MainLoop) : Prop :=
  (s.world.main.requestShutdown || s.requestFile) = true ∧ s.shutdown = false ∧
    s.world.main.requestShutdownSendPmuRequest = true

instance (s : MainLoop) : Decidable s.StartsShutdown := inferInstanceAs (Decidable (_ ∧ _ ∧ _))

/-- No SIGTERM starts the shutdown sequence with a request to the PMU while there is no
port. -/
def SparesClosedPort (s : MainLoop) : MainEvent → Prop
  | .sigterm => s.quit = false → s.world.pmu.serialChannel = false → ¬s.StartsShutdown
  | _ => True

instance (s : MainLoop) : (e : MainEvent) → Decidable (s.SparesClosedPort e)
  | .sigterm => inferInstanceAs (Decidable (_ → _ → ¬_))
  | .sigusr1 | .requestShutdown _ | .createRequestFile | .removeRequestFile | .shutdownCheck
  | .rebootCheck | .manager _ => inferInstanceAs (Decidable True)

theorem world_sigtermFunc (s : MainLoop) :
    (s.StartsShutdown ∧ s.sigtermFunc.world = s.world.shutdownRequest) ∨
      (¬s.StartsShutdown ∧
        (s.sigtermFunc.world = s.world ∨ s.sigtermFunc.world = s.world.rebootRequest)) := by
  rw [sigtermFunc, StartsShutdown]
  cases hasked : (s.world.main.requestShutdown || s.requestFile) with
  | true =>
    rw [if_pos rfl, systemShutdown]
    cases hshutdown : s.shutdown with
    | true => exact .inr ⟨fun h => Bool.false_ne_true h.2.1.symm, .inl rfl⟩
    | false =>
      rw [if_neg Bool.false_ne_true]
      cases hsend : s.world.main.requestShutdownSendPmuRequest with
      | true => exact .inl ⟨⟨rfl, rfl, rfl⟩, rfl⟩
      | false => exact .inr ⟨fun h => Bool.false_ne_true h.2.2, .inl rfl⟩
  | false =>
    refine .inr ⟨fun h => Bool.false_ne_true h.1, ?_⟩
    rw [if_neg Bool.false_ne_true]
    split
    · rw [systemReboot]
      split
      · exact .inl rfl
      · exact .inr rfl
    · exact .inl rfl

/-- The initialisation and the two requests are not the manager's own events. -/
theorem world_managerStep (s : MainLoop) (e : Event) :
    (s.managerStep e).world = s.world ∨
      ((∀ opened, e ≠ .init opened) ∧ e ≠ .shutdownRequest ∧
        (s.managerStep e).world = s.world.step e) := by
  cases e with
  | init opened => exact .inl rfl
  | shutdownRequest => exact .inl rfl
  | rebootRequest => exact .inl rfl
  | _ => exact .inr ⟨by simp, by simp, rfl⟩

theorem served_step (s : MainLoop) (e : MainEvent) : World.Served s.world (s.step e).world := by
  have hport := World.portRelation_served
  have hshutdown : World.Served s.world s.world.shutdownRequest :=
    World.served_step s.world .shutdownRequest (by simp)
  have hreboot : World.Served s.world s.world.rebootRequest :=
    World.served_step s.world .rebootRequest (by simp)
  rw [step]
  split
  · exact hport.refl s.world
  · cases e with
    | sigterm =>
      rw [react]
      obtain ⟨-, hworld⟩ | ⟨-, hworld | hworld⟩ := s.world_sigtermFunc
      · rw [hworld]
        exact hshutdown
      · rw [hworld]
        exact hport.refl s.world
      · rw [hworld]
        exact hreboot
    | sigusr1 => exact World.served_step s.world (.watchdogTimeoutSet 0) (by simp)
    | requestShutdown sendPmuRequest => exact hport.same ⟨rfl, rfl, rfl, rfl, rfl⟩
    | createRequestFile => exact hport.refl s.world
    | removeRequestFile => exact hport.refl s.world
    | shutdownCheck =>
      rw [react, shutdownCheckTimeoutFunc]
      split_ifs <;> exact hport.refl s.world
    | rebootCheck =>
      rw [react, rebootCheckTimeoutFunc]
      split_ifs <;> exact hport.refl s.world
    | manager e =>
      rw [react]
      obtain hworld | ⟨hinit, -, hworld⟩ := s.world_managerStep e
      · rw [hworld]
        exact hport.refl s.world
      · rw [hworld]
        exact World.served_step s.world e hinit

section Closed
variable {s : MainLoop} (hport : s.world.PortInitialized) (hclosed : s.world.pmu.serialChannel = false)
include hport hclosed

/-- Without a port a SIGTERM calls the write function exactly when it starts the shutdown
sequence. -/
theorem closedCalls_sigtermFunc : s.sigtermFunc.world.closedCalls =
    s.world.closedCalls + if s.StartsShutdown then 1 else 0 := by
  obtain ⟨hstarts, hworld⟩ | ⟨hstarts, hworld | hworld⟩ := s.world_sigtermFunc
  · rw [hworld, if_pos hstarts, World.closedCalls_shutdownRequest hclosed]
  · rw [hworld, if_neg hstarts, Nat.add_zero]
  · rw [hworld, if_neg hstarts, Nat.add_zero]
    exact World.closedCalls_step_closed hport hclosed .rebootRequest (by simp) (by simp) (by simp)

theorem closedCalls_react_closed {e : MainEvent} (hsigterm : e ≠ .sigterm)
    (hbare : ¬e.IsBareRequest) : (s.react e).world.closedCalls = s.world.closedCalls := by
  cases e with
  | sigterm => exact absurd rfl hsigterm
  | sigusr1 =>
    exact World.closedCalls_step_closed hport hclosed (.watchdogTimeoutSet 0) (by simp) (by simp)
      (by simp)
  | requestShutdown sendPmuRequest => rfl
  | createRequestFile => rfl
  | removeRequestFile => rfl
  | shutdownCheck =>
    rw [react, shutdownCheckTimeoutFunc]
    split_ifs <;> rfl
  | rebootCheck =>
    rw [react, rebootCheckTimeoutFunc]
    split_ifs <;> rfl
  | manager e =>
    rw [react]
    obtain hworld | ⟨hinit, hshutdown, hworld⟩ := s.world_managerStep e
    · rw [hworld]
    · rw [hworld]
      refine World.closedCalls_step_closed hport hclosed e hinit hshutdown ?_
      rintro command frameNum extraData needAck rfl
      exact hbare trivial

end Closed

/-- A step calls the write function without a port exactly when it does not spare the closed
port. -/
theorem closedCalls_step {s : MainLoop} (hport : s.world.PortInitialized) {e : MainEvent}
    (hbare : ¬e.IsBareRequest) :
    (s.step e).world.closedCalls = 0 ↔ s.world.closedCalls = 0 ∧ s.SparesClosedPort e := by
  have hspared (hsame : (s.step e).world.closedCalls = s.world.closedCalls)
      (h : s.SparesClosedPort e) :
      (s.step e).world.closedCalls = 0 ↔ s.world.closedCalls = 0 ∧ s.SparesClosedPort e := by
    rw [hsame]
    exact (and_iff_left h).symm
  cases hquit : s.quit with
  | true =>
    refine hspared (by rw [step, if_pos hquit]) ?_
    cases e with
    | sigterm => exact fun hrunning => absurd (hrunning.symm.trans hquit) Bool.false_ne_true
    | _ => trivial
  | false =>
    have hreact : s.step e = s.react e := by rw [step, hquit, if_neg Bool.false_ne_true]
    cases hchannel : s.world.pmu.serialChannel with
    | true =>
      refine hspared ((s.served_step e).closedCalls hchannel) ?_
      cases e with
      | sigterm => exact fun _ hclosed => absurd (hclosed.symm.trans hchannel) Bool.false_ne_true
      | _ => trivial
    | false =>
      by_cases hsigterm : e = .sigterm
      · subst hsigterm
        have hcount := closedCalls_sigtermFunc hport hchannel
        have hspares : s.SparesClosedPort .sigterm ↔ ¬s.StartsShutdown := by
          simp [SparesClosedPort, hquit, hchannel]
        rw [hreact, react, hcount, hspares]
        split_ifs with hstarts
        · simp [hstarts]
        · simp [hstarts]
      · refine hspared ?_ ?_
        · rw [hreact, closedCalls_react_closed hport hchannel hsigterm hbare]
        · cases e with
          | sigterm => exact absurd rfl hsigterm
          | _ => trivial

/-- In every run of the program the write function is called on an open port only, exactly
when no SIGTERM starts the shutdown sequence with a request to the PMU while there is no
port. -/
theorem closed_port_spared_iff (w : World) (opened requestFile : Bool) (events : List MainEvent)
    (hbare : ∀ e ∈ events, ¬e.IsBareRequest) :
    (run step (start w opened requestFile) events).world.closedCalls = 0 ↔
      Along step SparesClosedPort (start w opened requestFile) events := by
  have hstart := World.served_managerInit w.start opened rfl rfl
  suffices h : ∀ s : MainLoop, s.world.PortInitialized →
      ((run step s events).world.closedCalls = 0 ↔
        s.world.closedCalls = 0 ∧ Along step SparesClosedPort s events) by
    exact (h _ hstart.1).trans (and_iff_right hstart.2)
  induction events with
  | nil => exact fun s _ => (and_iff_left trivial).symm
  | cons e events ih =>
    intro s hport
    rw [List.forall_mem_cons] at hbare
    have hserved := s.served_step e
    have hnext : (s.step e).world.PortInitialized :=
      hserved.initialized.trans (hport.trans hserved.channel.symm)
    rw [run_cons, ih hbare.2 _ hnext, closedCalls_step hport hbare.1, and_assoc]
    exact Iff.rfl

/-- A daemon without a port that is told to stop after a client asked for a shutdown. -/
def portlessRun : List MainEvent := [.manager .tick, .sigusr1, .createRequestFile, .sigterm]

theorem closed_port_spared_reboot :
    (run step (start World.plain false false) [.manager .tick, .sigterm]).world.closedCalls = 0 :=
  (closed_port_spared_iff World.plain false false [.manager .tick, .sigterm]
    (by simp [MainEvent.IsBareRequest])).mpr (by decide +kernel)

/-- The shutdown request enters the write function without a queue. -/
theorem closed_port_entered :
    (run step (start World.plain false false) portlessRun).world.closedCalls = 1 := by
  decide +kernel

end MainLoop
end PcatManager
