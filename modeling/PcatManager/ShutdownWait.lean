import PcatManager.Heartbeats

/-!
# The wait of the main loop is bounded

Whatever the PMU does, the loop is quit by the check timers. Both count in one variable, so
it is the number of all their firings that is bounded; where both are due in one iteration,
one can fire after the other has quit the loop.
-/

namespace PcatManager
open GuardedRun RunTrace LoopPasses

namespace MainLoop

/-- How many check timers fire when an event is dispatched. -/
def fires (s : MainLoop) : MainEvent → ℕ
  | .shutdownCheck => if s.shutdownCheck then 1 else 0
  | .rebootCheck => if s.rebootCheck then 1 else 0
  | _ => 0

/-- How often the check timers fire in a run. -/
def firings (s : MainLoop) (iterations : List (List MainEvent)) : ℕ :=
  (trace iterate (passEmits react MainLoop.quit fun s e => [s.fires e]) s iterations).sum

/-- While the loop runs, a check timer is installed once a SIGTERM was seen, and the counter
has every firing; a SIGTERM was seen when it was quit. -/
structure Waits (seen : Bool) (fired : ℕ) (s : MainLoop) : Prop where
  installed : s.quit = false → (s.shutdownCheck || s.rebootCheck) = seen
  shutdown : s.quit = false → s.shutdown = true → s.shutdownCheck = true
  reboot : s.quit = false → s.reboot = true → s.rebootCheck = true
  counted : s.quit = false → s.shutdownWaitCount = fired ∧ fired ≤ shutdownWaitMax + 1
  quit : s.quit = true → seen = true

theorem waits_start (w : World) (opened requestFile : Bool) :
    (start w opened requestFile).Waits false 0 :=
  ⟨fun _ => rfl, fun _ h => (nomatch h), fun _ h => (nomatch h), fun _ => ⟨rfl, Nat.zero_le _⟩,
    fun h => (nomatch h)⟩

variable {seen : Bool} {fired : ℕ}

theorem Waits.congr {s s' : MainLoop} (h : s.Waits seen fired) (hquit : s'.quit = s.quit)
    (hshutdownCheck : s'.shutdownCheck = s.shutdownCheck) (hrebootCheck : s'.rebootCheck = s.rebootCheck)
    (hshutdown : s'.shutdown = s.shutdown) (hreboot : s'.reboot = s.reboot)
    (hcount : s'.shutdownWaitCount = s.shutdownWaitCount) : s'.Waits seen fired := by
  obtain ⟨hinstalled, hshutdown', hreboot', hcounted, hquit'⟩ := h
  constructor
  · rwa [hquit, hshutdownCheck, hrebootCheck]
  · rwa [hquit, hshutdownCheck, hshutdown]
  · rwa [hquit, hrebootCheck, hreboot]
  · rwa [hquit, hcount]
  · rwa [hquit]

theorem waits_quit {s : MainLoop} (hquit : s.quit = true) (fired : ℕ) : s.Waits true fired := by
  have hrunning : ¬s.quit = false := by rw [hquit]; simp
  constructor
  · exact fun hnot => absurd hnot hrunning
  · exact fun hnot => absurd hnot hrunning
  · exact fun hnot => absurd hnot hrunning
  · exact fun hnot => absurd hnot hrunning
  · exact fun _ => rfl

theorem Waits.counts {s : MainLoop} (h : s.Waits seen fired) (hrunning : s.quit = false)
    (hcount : ¬shutdownWaitMax < s.shutdownWaitCount) :
    Waits seen (fired + 1) { s with shutdownWaitCount := s.shutdownWaitCount + 1 } := by
  obtain ⟨hsame, -⟩ := h.counted hrunning
  have hbound : fired + 1 ≤ shutdownWaitMax + 1 := by
    rw [← hsame]
    exact Nat.succ_le_succ (Nat.not_lt.mp hcount)
  constructor
  · exact h.installed
  · exact h.shutdown
  · exact h.reboot
  · exact fun _ => ⟨congrArg (· + 1) hsame, hbound⟩
  · intro hquit
    rw [show s.quit = true from hquit] at hrunning
    cases hrunning

theorem Waits.sigtermFunc {s : MainLoop} (h : s.Waits seen fired) (hrunning : s.quit = false) :
    s.sigtermFunc.Waits true fired := by
  have hcounted := h.counted hrunning
  have hnot : ¬s.quit = true := by rw [hrunning]; simp
  rw [MainLoop.sigtermFunc]
  split
  · rw [systemShutdown]
    split
    · rename_i hshutdown
      have hcheck := h.shutdown hrunning hshutdown
      have hinstalled := h.installed hrunning
      rw [hcheck, Bool.true_or] at hinstalled
      rw [hinstalled]
      exact h
    · split
      · constructor
        · exact fun _ => Bool.true_or _
        · exact fun _ _ => rfl
        · exact h.reboot
        · exact h.counted
        · exact fun hquit => absurd hquit hnot
      · exact waits_quit rfl fired
  · split
    · rw [systemReboot]
      split
      · rename_i hreboot
        have hcheck := h.reboot hrunning hreboot
        have hinstalled := h.installed hrunning
        rw [hcheck, Bool.or_true] at hinstalled
        rw [hinstalled]
        exact h
      · constructor
        · exact fun _ => Bool.or_true _
        · exact h.shutdown
        · exact fun _ _ => rfl
        · exact h.counted
        · exact fun hquit => absurd hquit hnot
    · exact waits_quit rfl fired

theorem Waits.shutdownCheckTimeoutFunc {s : MainLoop} (h : s.Waits seen fired)
    (hrunning : s.quit = false) (hcheck : s.shutdownCheck = true) (ownChecks : ℕ) :
    Waits seen (fired + 1) { s.shutdownCheckTimeoutFunc with ownChecks := ownChecks } := by
  have hseen := h.installed hrunning
  rw [hcheck, Bool.true_or] at hseen
  subst hseen
  rw [MainLoop.shutdownCheckTimeoutFunc]
  split
  · exact waits_quit rfl _
  · split
    · exact waits_quit rfl _
    · rename_i hcount
      exact (h.counts hrunning hcount).congr rfl rfl rfl rfl rfl rfl

theorem Waits.rebootCheckTimeoutFunc {s : MainLoop} (h : s.Waits seen fired)
    (hrunning : s.quit = false) (hcheck : s.rebootCheck = true) :
    s.rebootCheckTimeoutFunc.Waits seen (fired + 1) := by
  have hseen := h.installed hrunning
  rw [hcheck, Bool.or_true] at hseen
  subst hseen
  rw [MainLoop.rebootCheckTimeoutFunc]
  split
  · exact waits_quit rfl _
  · split
    · exact waits_quit rfl _
    · rename_i hcount
      exact h.counts hrunning hcount

theorem Waits.react {s : MainLoop} (h : s.Waits seen fired) (hrunning : s.quit = false)
    (e : MainEvent) : (s.react e).Waits (seen || e.isSigterm) (fired + s.fires e) := by
  cases e with
  | sigterm =>
    rw [MainEvent.isSigterm, Bool.or_true]
    exact h.sigtermFunc hrunning
  | shutdownCheck =>
    change Waits (seen || false) _ _
    rw [Bool.or_false, MainLoop.react, fires]
    split
    · rename_i hcheck
      exact h.shutdownCheckTimeoutFunc hrunning hcheck _
    · exact h
  | rebootCheck =>
    change Waits (seen || false) _ _
    rw [Bool.or_false, MainLoop.react, fires]
    split
    · rename_i hcheck
      exact h.rebootCheckTimeoutFunc hrunning hcheck
    · exact h
  | manager e =>
    change Waits (seen || false) _ _
    rw [Bool.or_false]
    cases e <;> exact h.congr rfl rfl rfl rfl rfl rfl
  | _ =>
    change Waits (seen || false) _ _
    rw [Bool.or_false]
    exact h.congr rfl rfl rfl rfl rfl rfl

theorem Waits.run_react {s : MainLoop} (h : s.Waits seen fired) {events : List MainEvent}
    (hrunning : (run MainLoop.react s events).quit = false) :
    (run MainLoop.react s events).Waits (seen || events.any MainEvent.isSigterm)
      (fired + (trace MainLoop.react (fun s e => [s.fires e]) s events).sum) := by
  induction events generalizing s seen fired with
  | nil =>
    rw [List.any_nil, Bool.or_false]
    exact h
  | cons e events ih =>
    have hrest := ih (h.react (running_of_run quit_react hrunning) e) hrunning
    rw [Bool.or_assoc, Nat.add_assoc] at hrest
    rw [run_cons, List.any_cons, trace_cons, List.singleton_append, List.sum_cons]
    exact hrest

theorem sum_fires_le (s : MainLoop) (events : List MainEvent) :
    (trace MainLoop.react (fun s e => [s.fires e]) s events).sum ≤
      (events.countP fun e => e.source? = some .shutdownCheck) +
        events.countP fun e => e.source? = some .rebootCheck := by
  induction events generalizing s with
  | nil => exact Nat.le_refl 0
  | cons e events ih =>
    have hfires : s.fires e ≤ (if e.source? = some .shutdownCheck then 1 else 0) +
        if e.source? = some .rebootCheck then 1 else 0 := by
      cases e with
      | shutdownCheck =>
        rw [fires]
        split <;> decide
      | rebootCheck =>
        rw [fires]
        split <;> decide
      | _ => exact Nat.zero_le _
    have hrest := ih (s.react e)
    rw [trace_cons, List.singleton_append, List.sum_cons, List.countP_cons, List.countP_cons]
    simp only [decide_eq_true_eq]
    omega

/-- The loop runs on until a SIGTERM comes, and from then on a check timer fires every second
until it is quit. Whatever else happens, it is quit by their thirty-second firing, and at most
one more comes in the iteration of that firing. -/
theorem quit_run (w : World) (opened requestFile : Bool) (iterations : List (List MainEvent))
    (honce : ∀ pending ∈ iterations, OncePerSource pending) :
    let s := run iterate (start w opened requestFile) iterations
    let fired := (start w opened requestFile).firings iterations
    (s.quit = true → iterations.flatten.any MainEvent.isSigterm = true) ∧
    (s.quit = false → (s.shutdownCheck || s.rebootCheck) = iterations.flatten.any MainEvent.isSigterm) ∧
    fired ≤ 33 ∧ (32 ≤ fired → s.quit = true) := by
  intro s fired
  have hstart := waits_start w opened requestFile
  have hrunning : (start w opened requestFile).quit = false := rfl
  obtain ⟨dispatched, hrun, htrace, hdispatched⟩ :=
    run_pass_cases react MainLoop.quit (fun s e => [s.fires e]) hrunning iterations
  have hs : s = run react (start w opened requestFile) dispatched := hrun
  have hfired : fired =
      (trace react (fun s e => [s.fires e]) (start w opened requestFile) dispatched).sum :=
    congrArg List.sum htrace
  rcases hdispatched with ⟨rfl, hrunning⟩ | ⟨before, first, e, rest, after, rfl, rfl, hrunning, hquit⟩
  · have hwaits := hstart.run_react hrunning
    rw [Bool.false_or, Nat.zero_add, ← hfired, ← hs] at hwaits
    rw [← hs] at hrunning
    have hbound : fired ≤ 31 := (hwaits.counted hrunning).2
    refine ⟨hwaits.quit, hwaits.installed, by omega, fun h => by omega⟩
  · have hwaits := hstart.run_react hrunning
    rw [Bool.false_or, Nat.zero_add] at hwaits
    have hbound := (hwaits.counted hrunning).2
    have hleft : s.quit = true := by
      rw [hs, run_append, run_cons]
      exact left_run quit_react hquit rest
    have hlast : OncePerSource (first ++ e :: rest) := honce _ (by simp)
    have hsigterm := (hwaits.react hrunning e).quit hquit
    have hchecks := sum_fires_le (run react (start w opened requestFile) (before.flatten ++ first))
      (e :: rest)
    have hshutdown := hlast.of_append_right.countP_le .shutdownCheck
    have hreboot := hlast.of_append_right.countP_le .rebootCheck
    rw [trace_append, List.sum_append] at hfired
    refine ⟨fun _ => ?_, fun hnot => ?_, ?_, fun _ => hleft⟩
    · simp only [List.flatten_append, List.flatten_cons, List.any_append, List.any_cons,
        Bool.or_eq_true] at hsigterm ⊢
      tauto
    · exact absurd (hnot.symm.trans hleft) Bool.false_ne_true
    · change _ ≤ 30 + 1 at hbound
      omega

/-- Both sequences are under way, and both timers are due when the wait is over. -/
def bothDue : List (List MainEvent) :=
  [[.createRequestFile], [.sigterm], [.removeRequestFile], [.sigterm]] ++
    List.replicate 31 [.shutdownCheck] ++ [[.shutdownCheck, .rebootCheck], [.rebootCheck]]

theorem quit_run_bothDue : (start World.plain true false).firings bothDue = 33 ∧
    (run iterate (start World.plain true false) bothDue).quit = true := by
  have hfirings : (start World.plain true false).firings bothDue = 33 := by decide +kernel
  refine ⟨hfirings, (quit_run World.plain true false bothDue (by decide +kernel)).2.2.2 ?_⟩
  rw [hfirings]
  decide

end MainLoop
end PcatManager
