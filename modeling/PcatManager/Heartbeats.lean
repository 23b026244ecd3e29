import PcatManager.LoopIterations
import PcatManager.PmuAnswers

/-!
# The heartbeat and the end of the daemon

The PMU takes the heartbeats for a sign that the host is alive. They come with every tick up
to the first SIGTERM, whatever else happens, and end with it; only where it quits the loop
directly a tick that is pending with it still brings one. The request to power the host off is
made at most once, and nothing that keeps the PMU waiting follows it.
-/

namespace PcatManager
open SerialFrame SerialReadParser GuardedRun RunTrace LoopPasses

namespace World

/-- Whether a shutdown and whether a reboot has been requested. -/
def leaving (w : World) : Bool × Bool := (w.pmu.shutdownRequest, w.pmu.rebootRequest)

theorem keptByTick_leaving : KeptByTick leaving where
  link := by
    rintro w w' ⟨l, n, rfl⟩
    rfl
  timestamp _ _ := rfl
  modem _ _ := rfl
  plan _ := rfl

theorem leaving_dispatchFrame (w : World) (f : Frame) : (w.dispatchFrame f).leaving = w.leaving := by
  refine keptByTick_leaving.dispatchFrame fun _ l w' heffect => ?_
  cases heffect with
  | status hcommand hlen =>
    exact keptByTick_leaving.statusDataParse (fun _ _ => rfl) (fun _ _ _ _ => rfl) _ _
  | _ => rfl

theorem leaving_step (w : World) {e : Event} (hinit : ∀ opened, e ≠ .init opened)
    (hshutdown : e ≠ .shutdownRequest) (hreboot : e ≠ .rebootRequest) :
    (w.step e).leaving = w.leaving := by
  by_cases hread : ∃ r, e = .read r
  · obtain ⟨r, rfl⟩ := hread
    rw [World.step]
    split
    · have hframes := run_invariant (I := fun w' => w'.leaving = w.leaving)
        (fun w' f hw' => (leaving_dispatchFrame w' f).trans hw') rfl (w.framesRead r)
      rw [← serialReadStep_eq_foldl] at hframes
      exact hframes
    · rfl
  · exact keptByTick_leaving.step (fun _ _ _ _ _ => rfl) w e hinit (fun r he => hread ⟨r, he⟩)
      (fun he => absurd he hshutdown) fun he => absurd he hreboot

theorem leaving_shutdownRequest (w : World) :
    w.shutdownRequest.leaving = (true, w.pmu.rebootRequest) := by
  have hsame := keptByTick_leaving.link
    (requests_serialWriteDataRequest w commandHostRequestShutdown none [] true).sameButLink
  exact congrArg (fun asked : Bool × Bool => (true, asked.2)) hsame

theorem leaving_rebootRequest (w : World) :
    w.rebootRequest.leaving = (w.pmu.shutdownRequest, true) := by
  have hsame := keptByTick_leaving.link (requests_watchdogTimeoutSet w 60).sameButLink
  exact congrArg (fun asked : Bool × Bool => (asked.1, true)) hsame

theorem leaving_mono (w : World) {e : Event} (hinit : ∀ opened, e ≠ .init opened) :
    (w.pmu.shutdownRequest = true → (w.step e).pmu.shutdownRequest = true) ∧
      (w.pmu.rebootRequest = true → (w.step e).pmu.rebootRequest = true) := by
  by_cases hshutdown : e = .shutdownRequest
  · subst hshutdown
    exact ⟨fun _ => rfl, fun h => (congrArg Prod.snd w.leaving_shutdownRequest).trans h⟩
  by_cases hreboot : e = .rebootRequest
  · subst hreboot
    exact ⟨fun h => (congrArg Prod.fst w.leaving_rebootRequest).trans h, fun _ => rfl⟩
  have hsame := w.leaving_step hinit hshutdown hreboot
  exact ⟨(congrArg Prod.fst hsame).trans, (congrArg Prod.snd hsame).trans⟩

theorem heartbeats_tickRequests (w : World) (hopen : w.pmu.serialChannel = true) :
    (w.tickRequests.countP fun r => r.command = commandHeartbeat) =
      if !w.pmu.rebootRequest && !w.pmu.shutdownRequest then 1 else 0 := by
  have hmodem : (w.modemRequests.countP fun r => r.command = commandHeartbeat) = 0 := by
    rw [List.countP_eq_zero]
    intro r hr
    rw [w.command_modemRequests r hr]
    decide
  rw [tickRequests, hopen, Bool.not_true, if_neg Bool.false_ne_true, List.countP_append, hmodem]
  split <;> rfl

theorem heartbeats_eventRequests (w : World) {e : Event} (htick : e ≠ .tick)
    (hbare : ∀ command frameNum extraData needAck,
      e ≠ .request command frameNum extraData needAck) :
    ∀ r ∈ w.eventRequests e, r.command ≠ commandHeartbeat := by
  intro r hr hheartbeat
  have hmem := w.command_eventRequests e r hr
  rw [hheartbeat] at hmem
  cases e with
  | tick => exact htick rfl
  | request command frameNum extraData needAck => exact hbare _ _ _ _ rfl
  | _ => exact absurd hmem (by simp only [eventCommands]; decide)

end World

def MainEvent.isSigterm : MainEvent → Bool
  | .sigterm => true
  | _ => false

def MainEvent.isTick : MainEvent → Bool
  | .manager .tick => true
  | _ => false

theorem MainEvent.source?_of_isTick {e : MainEvent} (h : e.isTick = true) :
    decide (e.source? = some .checkTimeout) = true := by
  cases e with
  | manager e =>
    cases e with
    | tick => rfl
    | _ => cases h
  | _ => cases h

namespace MainLoop

/-- The heartbeats enqueued so far. -/
def beats (s : MainLoop) : ℕ := s.world.enqueued.countP fun c => c.command = commandHeartbeat

/-- A shutdown or a reboot was requested. -/
def Asked (s : MainLoop) : Prop :=
  s.world.pmu.shutdownRequest = true ∨ s.world.pmu.rebootRequest = true

/-- Neither was, and no check timer is installed. -/
structure Ticking (s : MainLoop) : Prop where
  shutdownCheck : s.shutdownCheck = false
  rebootCheck : s.rebootCheck = false
  leaving : s.world.leaving = (false, false)
  channel : s.world.pmu.serialChannel = true

/-- No sequence has been started. -/
structure Beating (s : MainLoop) : Prop extends s.Ticking where
  running : s.quit = false
  shutdown : s.shutdown = false
  reboot : s.reboot = false

/-- The heartbeats that an event asks for. -/
def heartbeats (s : MainLoop) (e : MainEvent) : ℕ :=
  (s.reactRequests e).countP fun r => r.command = commandHeartbeat

theorem heartbeats_eq_zero {s : MainLoop} {e : MainEvent} (htick : e ≠ .manager .tick)
    (hbare : ¬e.IsBareRequest) : s.heartbeats e = 0 := by
  rw [heartbeats, ← stepRequests_resumed, stepRequests, List.countP_eq_zero]
  cases hevent : s.resumed.stepEvent? e with
  | none => exact List.forall_mem_nil _
  | some e' =>
    intro r hr
    have hne : e' ≠ .tick := by
      rintro rfl
      cases comesFrom_of_stepEvent? hevent with
      | manager => exact htick rfl
    simpa using s.world.heartbeats_eventRequests hne (stepEvent?_ne_request hevent hbare) r hr

theorem heartbeats_tick {s : MainLoop} (hopen : s.world.pmu.serialChannel = true) :
    s.heartbeats (.manager .tick) =
      if !s.world.pmu.rebootRequest && !s.world.pmu.shutdownRequest then 1 else 0 :=
  s.world.heartbeats_tickRequests hopen

theorem Asked.heartbeats {s : MainLoop} (h : s.Asked) {e : MainEvent} (hbare : ¬e.IsBareRequest) :
    s.heartbeats e = 0 := by
  by_cases htick : e = .manager .tick
  · subst htick
    cases hopen : s.world.pmu.serialChannel with
    | true =>
      rw [heartbeats_tick hopen]
      rcases h with h | h
      · rw [h, Bool.not_true, Bool.and_false, if_neg Bool.false_ne_true]
      · rw [h, Bool.not_true, Bool.false_and, if_neg Bool.false_ne_true]
    | false =>
      change (s.world.tickRequests.countP _) = 0
      rw [World.tickRequests, hopen, Bool.not_false, if_pos rfl, List.countP_nil]
  · exact heartbeats_eq_zero htick hbare

theorem Ticking.heartbeats {s : MainLoop} (h : s.Ticking) {e : MainEvent} (hbare : ¬e.IsBareRequest) :
    s.heartbeats e = if e.isTick then 1 else 0 := by
  by_cases htick : e = .manager .tick
  · subst htick
    have hleaving := h.leaving
    simp only [World.leaving, Prod.mk.injEq] at hleaving
    rw [heartbeats_tick h.channel, hleaving.1, hleaving.2]
    rfl
  · rw [heartbeats_eq_zero htick hbare, if_neg]
    cases e with
    | manager e =>
      cases e with
      | tick => exact absurd rfl htick
      | _ => exact Bool.false_ne_true
    | _ => exact Bool.false_ne_true

theorem channel_react (s : MainLoop) (e : MainEvent) :
    (s.react e).world.pmu.serialChannel = s.world.pmu.serialChannel := (s.asks_react e).channel

theorem beats_react {s : MainLoop} (hopen : s.world.pmu.serialChannel = true) (e : MainEvent) :
    (s.react e).beats = s.beats + s.heartbeats e := by
  have hcommands := congrArg (List.countP fun command => command = commandHeartbeat)
    (command_content_numbered s.world.pmu.link.frameNum (s.reactRequests e))
  rw [List.countP_map, List.countP_map (f := DataRequest.command)] at hcommands
  rw [beats, (s.asks_react e).enqueued, hopen, if_pos rfl, List.countP_append]
  exact congrArg (s.beats + ·) hcommands

theorem Asked.react {s : MainLoop} (h : s.Asked) (hopen : s.world.pmu.serialChannel = true)
    {e : MainEvent} (hbare : ¬e.IsBareRequest) : (s.react e).Asked ∧ (s.react e).beats = s.beats := by
  refine ⟨?_, by rw [beats_react hopen, h.heartbeats hbare, Nat.add_zero]⟩
  rw [Asked, world_react]
  obtain hworld | ⟨-, sendPmuRequest, -, hworld⟩ := s.resumed.world_step e
  · rw [hworld]
    cases hevent : s.resumed.stepEvent? e with
    | none => exact h
    | some e' =>
      obtain ⟨hshutdown, hreboot⟩ := s.world.leaving_mono (stepEvent?_ne_init hevent)
      exact h.imp hshutdown hreboot
  · rw [hworld]
    exact h

theorem Asked.run_react {s : MainLoop} (h : s.Asked) (hopen : s.world.pmu.serialChannel = true)
    {events : List MainEvent} (hbare : ∀ e ∈ events, ¬e.IsBareRequest) :
    (run MainLoop.react s events).Asked ∧
      (run MainLoop.react s events).world.pmu.serialChannel = true ∧
      (run MainLoop.react s events).beats = s.beats := by
  induction events generalizing s with
  | nil => exact ⟨h, hopen, rfl⟩
  | cons e events ih =>
    rw [List.forall_mem_cons] at hbare
    obtain ⟨hasked, hbeats⟩ := h.react hopen hbare.1
    obtain ⟨hend, hchannel, hrest⟩ := ih hasked ((s.channel_react e).trans hopen) hbare.2
    exact ⟨hend, hchannel, hrest.trans hbeats⟩

theorem Asked.beats_iterate {s : MainLoop} (h : s.Asked) (hopen : s.world.pmu.serialChannel = true)
    {iterations : List (List MainEvent)} (hbare : ∀ e ∈ iterations.flatten, ¬e.IsBareRequest) :
    (run iterate s iterations).beats = s.beats := by
  induction iterations generalizing s with
  | nil => rfl
  | cons pending iterations ih =>
    rw [List.flatten_cons, List.forall_mem_append] at hbare
    rw [run_cons, iterate, LoopPasses.pass]
    split
    · exact ih h hopen hbare.2
    · obtain ⟨hasked, hchannel, hbeats⟩ := h.run_react hopen hbare.1
      exact (ih hasked hchannel hbare.2).trans hbeats

theorem Beating.beats_sigterm {s : MainLoop} (h : s.Beating) : s.sigtermFunc.beats = s.beats := by
  have hbeats := beats_react h.channel .sigterm
  rw [heartbeats_eq_zero (by simp) (by simp [MainEvent.IsBareRequest])] at hbeats
  exact hbeats

theorem Beating.sigterm {s : MainLoop} (h : s.Beating) :
    s.sigtermFunc.quit = true ∧ s.sigtermFunc.Ticking ∨
      s.sigtermFunc.quit = false ∧ s.sigtermFunc.Asked := by
  rw [sigtermFunc]
  split
  · rw [systemShutdown, h.shutdown, if_neg Bool.false_ne_true]
    split
    · exact .inr ⟨h.running, .inl rfl⟩
    · exact .inl ⟨rfl, h.shutdownCheck, h.rebootCheck, h.leaving, h.channel⟩
  · split
    · rw [systemReboot, h.reboot, if_neg Bool.false_ne_true]
      exact .inr ⟨h.running, .inr rfl⟩
    · exact .inl ⟨rfl, h.shutdownCheck, h.rebootCheck, h.leaving, h.channel⟩

theorem Ticking.react {s : MainLoop} (h : s.Ticking) {e : MainEvent} (hsigterm : e ≠ .sigterm) :
    (s.react e).Ticking ∧ (s.react e).quit = s.quit ∧ (s.react e).shutdown = s.shutdown ∧
      (s.react e).reboot = s.reboot := by
  have hchannel := (s.channel_react e).trans h.channel
  have hleaving : (s.react e).world.leaving = (false, false) := by
    rw [world_react]
    obtain hworld | ⟨-, sendPmuRequest, -, hworld⟩ := s.resumed.world_step e
    · rw [hworld]
      cases hevent : s.resumed.stepEvent? e with
      | none => exact h.leaving
      | some e' =>
        have hcome := comesFrom_of_stepEvent? hevent
        refine (s.world.leaving_step hcome.ne_init ?_ ?_).trans h.leaving
        · rintro rfl
          cases hcome with
          | shutdown => exact hsigterm rfl
          | manager hinit hshutdown => exact hshutdown rfl
        · rintro rfl
          cases hcome with
          | reboot => exact hsigterm rfl
          | manager hinit hshutdown hreboot => exact hreboot rfl
    · rw [hworld]
      exact h.leaving
  have hsame : (s.react e).quit = s.quit ∧ (s.react e).shutdown = s.shutdown ∧
      (s.react e).reboot = s.reboot ∧ (s.react e).shutdownCheck = s.shutdownCheck ∧
      (s.react e).rebootCheck = s.rebootCheck := by
    cases e with
    | sigterm => exact absurd rfl hsigterm
    | shutdownCheck => simp [MainLoop.react, h.shutdownCheck]
    | rebootCheck => simp [MainLoop.react, h.rebootCheck]
    | manager e => cases e <;> exact ⟨rfl, rfl, rfl, rfl, rfl⟩
    | _ => exact ⟨rfl, rfl, rfl, rfl, rfl⟩
  obtain ⟨hquit, hshutdown, hreboot, hshutdownCheck, hrebootCheck⟩ := hsame
  exact ⟨⟨hshutdownCheck.trans h.shutdownCheck, hrebootCheck.trans h.rebootCheck, hleaving,
    hchannel⟩, hquit, hshutdown, hreboot⟩

theorem Ticking.run_react {s : MainLoop} (h : s.Ticking) {events : List MainEvent}
    (hevents : ∀ e ∈ events, e ≠ .sigterm ∧ ¬e.IsBareRequest) :
    (run MainLoop.react s events).Ticking ∧ (run MainLoop.react s events).quit = s.quit ∧
      (run MainLoop.react s events).shutdown = s.shutdown ∧
      (run MainLoop.react s events).reboot = s.reboot ∧
      (run MainLoop.react s events).beats = s.beats + events.countP MainEvent.isTick := by
  induction events generalizing s with
  | nil => exact ⟨h, rfl, rfl, rfl, rfl⟩
  | cons e events ih =>
    rw [List.forall_mem_cons] at hevents
    obtain ⟨⟨hsigterm, hbare⟩, hrest⟩ := hevents
    obtain ⟨hticking, hquit, hshutdown, hreboot⟩ := h.react hsigterm
    obtain ⟨hend, hquit', hshutdown', hreboot', hbeats⟩ := ih hticking hrest
    refine ⟨hend, hquit'.trans hquit, hshutdown'.trans hshutdown, hreboot'.trans hreboot, ?_⟩
    rw [run_cons, hbeats, beats_react h.channel, h.heartbeats hbare, List.countP_cons]
    omega

theorem Beating.run_react {s : MainLoop} (h : s.Beating) {events : List MainEvent}
    (hevents : ∀ e ∈ events, e ≠ .sigterm ∧ ¬e.IsBareRequest) :
    (run MainLoop.react s events).Beating ∧
      (run MainLoop.react s events).beats = s.beats + events.countP MainEvent.isTick := by
  obtain ⟨hticking, hquit, hshutdown, hreboot, hbeats⟩ := h.toTicking.run_react hevents
  exact ⟨⟨hticking, hquit.trans h.running, hshutdown.trans h.shutdown, hreboot.trans h.reboot⟩,
    hbeats⟩

theorem beating_start (w : World) (requestFile : Bool) : (start w true requestFile).Beating where
  running := rfl
  shutdown := rfl
  reboot := rfl
  shutdownCheck := rfl
  rebootCheck := rfl
  leaving := World.keptByTick_leaving.link (World.requests_initRequests _).sameButLink
  channel := (asks_start w true requestFile).1

theorem beats_start (w : World) (requestFile : Bool) : (start w true requestFile).beats = 0 := by
  have hcommands := congrArg (List.countP fun command => command = commandHeartbeat)
    (commands_run w requestFile [])
  rw [List.countP_map, List.countP_map] at hcommands
  refine hcommands.trans (List.countP_eq_zero.mpr fun r hr hheartbeat => ?_)
  rw [runRequests, if_pos rfl, trace_nil, List.append_nil] at hr
  have hmem := w.command_initialRequests r hr
  have hcommand : r.command = commandHeartbeat := by simpa using hheartbeat
  rw [hcommand] at hmem
  exact absurd hmem (by decide)

/-- In every run on an open port one heartbeat is enqueued for each tick before the first
SIGTERM. Where that quits the loop directly, a tick that is still pending in its iteration
brings one more, and otherwise none follows. -/
theorem heartbeats_run (w : World) (requestFile : Bool) (iterations : List (List MainEvent))
    (honce : ∀ pending ∈ iterations, OncePerSource pending)
    (hbare : ∀ e ∈ iterations.flatten, ¬e.IsBareRequest) :
    let s := start w true requestFile
    (MainEvent.sigterm ∉ iterations.flatten →
      (run iterate s iterations).beats = iterations.flatten.countP MainEvent.isTick) ∧
    ∀ before first rest after, iterations = before ++ (first ++ .sigterm :: rest) :: after →
      MainEvent.sigterm ∉ before.flatten ++ first →
      (run iterate s iterations).beats = (before.flatten ++ first).countP MainEvent.isTick +
          (if (run react s (before.flatten ++ first)).sigtermFunc.quit then
            rest.countP MainEvent.isTick else 0) ∧
        rest.countP MainEvent.isTick ≤ 1 := by
  intro s
  have hstart : s.Beating := beating_start w requestFile
  have hbeats : s.beats = 0 := beats_start w requestFile
  constructor
  · intro hno
    obtain ⟨hend, hcount⟩ := hstart.run_react fun e he =>
      ⟨fun hsigterm => hno (hsigterm ▸ he), hbare e he⟩
    rw [iterate, run_pass_of_running quit_react hend.running, hcount, hbeats, Nat.zero_add]
  · rintro before first rest after rfl hno
    have hlast : OncePerSource (first ++ .sigterm :: rest) := honce _ (by simp)
    have hticks : rest.countP MainEvent.isTick ≤ 1 :=
      (List.countP_mono_left fun _ _ => MainEvent.source?_of_isTick).trans
        (hlast.rest.countP_le .checkTimeout)
    refine ⟨?_, hticks⟩
    simp only [List.flatten_append, List.flatten_cons, List.forall_mem_append,
      List.forall_mem_cons] at hbare
    obtain ⟨hbefore, ⟨hfirst, -, hrest⟩, hafter⟩ := hbare
    have hquiet : ∀ e ∈ before.flatten ++ first, e ≠ .sigterm ∧ ¬e.IsBareRequest := fun e he =>
      ⟨fun hsigterm => hno (hsigterm ▸ he), (List.mem_append.mp he).elim (hbefore e) (hfirst e)⟩
    obtain ⟨hbeating, hcount⟩ := hstart.run_react hquiet
    rw [iterate, run_pass_append quit_react hbeating.running, run_cons]
    rw [hbeats, Nat.zero_add] at hcount
    rw [← hcount, ← hbeating.beats_sigterm]
    rcases hbeating.sigterm with ⟨hquit, hticking⟩ | ⟨hquit, hasked⟩
    · obtain ⟨-, hend, -, -, hlate⟩ := hticking.run_react fun e he =>
        ⟨fun hsigterm => hlast.notMem_rest rfl (hsigterm ▸ he), hrest e he⟩
      exact (congrArg beats (run_pass_of_left (hend.trans hquit) after)).trans
        (hlate.trans (by rw [hquit, if_pos rfl]))
    · have hchannel := (channel_react _ .sigterm).trans hbeating.channel
      obtain ⟨hasked', hchannel', hsame⟩ := hasked.run_react hchannel hrest
      rw [hquit, if_neg Bool.false_ne_true, Nat.add_zero]
      exact (hasked'.beats_iterate hchannel' hafter).trans hsame

theorem heartbeats_run_sigterm :
    (run iterate (start World.plain true false) [[.manager .tick], [.sigusr1],
      [.manager .tick, .sigterm], [.manager .tick]]).beats = 2 ∧
    (run iterate (start World.plain true false) [[.manager .tick], [.sigusr1],
      [.sigterm, .manager .tick], [.manager .tick]]).beats = 2 :=
  ⟨((heartbeats_run World.plain false [[.manager .tick], [.sigusr1], [.manager .tick, .sigterm],
      [.manager .tick]] (by decide) (by simp [MainEvent.IsBareRequest])).2 [[.manager .tick],
      [.sigusr1]] [.manager .tick] [] [[.manager .tick]] rfl (by simp)).1.trans (by decide +kernel),
    ((heartbeats_run World.plain false [[.manager .tick], [.sigusr1], [.sigterm, .manager .tick],
      [.manager .tick]] (by decide) (by simp [MainEvent.IsBareRequest])).2 [[.manager .tick],
      [.sigusr1]] [] [.manager .tick] [[.manager .tick]] rfl (by simp)).1.trans (by decide +kernel)⟩

/-- Only the shutdown sequence asks the PMU to power the host off. -/
theorem stepEvent?_of_shutdown {s : MainLoop} {e : MainEvent} (hbare : ¬e.IsBareRequest)
    {r : DataRequest} (hr : r ∈ s.stepRequests e) (hcommand : r.command = commandHostRequestShutdown) :
    e = .sigterm ∧ s.shutdown = false ∧ s.stepEvent? e = some .shutdownRequest := by
  rw [stepRequests] at hr
  cases hevent : s.stepEvent? e with
  | none => simp [hevent] at hr
  | some e' =>
    rw [hevent] at hr
    have hmem := s.world.command_eventRequests e' r hr
    rw [hcommand] at hmem
    have hne := stepEvent?_ne_request hevent hbare
    have hcome := comesFrom_of_stepEvent? hevent
    cases hcome with
    | shutdown hfirst => exact ⟨rfl, hfirst, rfl⟩
    | reboot => exact absurd hmem (by decide)
    | watchdog => exact absurd hmem (by simp only [World.eventCommands]; decide)
    | manager hinit hshutdown hreboot =>
      cases e' with
      | shutdownRequest => exact absurd rfl hshutdown
      | request command frameNum extraData needAck => exact absurd rfl (hne _ _ _ _)
      | _ => exact absurd hmem (by simp only [World.eventCommands]; decide)

/-- A command that ends the conversation with the PMU: nothing like it and no heartbeat comes
after it. -/
def Final (command command' : UInt16) : Prop :=
  command = commandHostRequestShutdown →
    command' ≠ commandHostRequestShutdown ∧ command' ≠ commandHeartbeat

theorem final_trace {s : MainLoop} (h : s.FollowsManager) {events : List MainEvent}
    (hbare : ∀ e ∈ events, ¬e.IsBareRequest) :
    (trace step stepRequests s events).Pairwise fun r r' => Final r.command r'.command := by
  refine trace_pairwise (I := FollowsManager) (q := fun e => ¬e.IsBareRequest)
    (M := fun r s => r.command = commandHostRequestShutdown → s.issued = true)
    (fun s e _ h => h.step e) ?_ ?_ ?_ ?_ h hbare
  · intro s e he h
    by_cases hasks : ∃ r ∈ s.stepRequests e, r.command = commandHostRequestShutdown
    · obtain ⟨r, hr, hcommand⟩ := hasks
      obtain ⟨-, -, hevent⟩ := stepEvent?_of_shutdown he hr hcommand
      rw [stepRequests, hevent]
      exact List.pairwise_singleton _ _
    · exact List.pairwise_of_forall_mem_list fun r hr _ _ hcommand =>
        absurd ⟨r, hr, hcommand⟩ hasks
  · intro s e he h r hr hcommand
    obtain ⟨-, -, hevent⟩ := stepEvent?_of_shutdown he hr hcommand
    obtain hworld | ⟨hnone, -⟩ := s.world_step e
    · rw [issued, hworld, hevent]
      rfl
    · cases hnone.symm.trans hevent
  · intro r s e he h hmarked hcommand
    have hissued : s.world.pmu.shutdownRequest = true := hmarked hcommand
    obtain hworld | ⟨-, sendPmuRequest, -, hworld⟩ := s.world_step e
    · rw [issued, hworld]
      cases hevent : s.stepEvent? e with
      | none => exact hissued
      | some e' => exact (s.world.leaving_mono (stepEvent?_ne_init hevent)).1 hissued
    · rw [issued, hworld]
      exact hissued
  · intro r s e he h hmarked r' hr' hcommand
    have hissued := hmarked hcommand
    constructor
    · intro hcommand'
      obtain ⟨-, hfirst, -⟩ := stepEvent?_of_shutdown he hr' hcommand'
      exact Bool.false_ne_true (hfirst.symm.trans (h.issued hissued))
    · have hasked : s.Asked := .inl hissued
      have hnone := List.countP_eq_zero.mp (hasked.heartbeats he) r' (mem_reactRequests hr')
      simpa using hnone

/-- In every run on an open port `HOST_REQUEST_SHUTDOWN` is enqueued at most once, and no
heartbeat after it. -/
theorem shutdown_final_run (w : World) (requestFile : Bool) (events : List MainEvent)
    (hbare : ∀ e ∈ events, ¬e.IsBareRequest) :
    (run step (start w true requestFile) events).world.enqueued.Pairwise fun c c' =>
      Final c.command c'.command := by
  rw [← List.pairwise_map (f := CommandContent.command) (R := Final),
    commands_run, List.pairwise_map, runRequests, if_pos rfl, List.pairwise_append]
  have hinitial : ∀ r ∈ w.initialRequests, r.command ≠ commandHostRequestShutdown := by
    intro r hr hcommand
    have hmem := w.command_initialRequests r hr
    rw [hcommand] at hmem
    exact absurd hmem (by decide)
  refine ⟨?_, final_trace (followsManager_start w true requestFile) hbare, ?_⟩
  · exact List.pairwise_of_forall_mem_list fun r hr _ _ hcommand => absurd hcommand (hinitial r hr)
  · exact fun r hr _ _ hcommand => absurd hcommand (hinitial r hr)

theorem shutdown_final_run_sigterm :
    (run step (start World.plain true true) [.requestShutdown true, .manager .tick, .sigterm,
      .manager .tick, .sigterm]).world.enqueued.Pairwise fun c c' => Final c.command c'.command :=
  shutdown_final_run World.plain true
    [.requestShutdown true, .manager .tick, .sigterm, .manager .tick, .sigterm]
    (by simp [MainEvent.IsBareRequest])

end MainLoop
end PcatManager
