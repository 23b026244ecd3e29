import PcatManager.RoutePolicy

/-!
# Two threads that set the route mode

The policy check and the connection check both set the route mode, without a lock: each
reads it and writes it later. Every access to it is a step of its own here, in any order of
the two threads.
-/

namespace PcatManager
open GuardedRun

/-- `check_address_list`. -/
def checkAddressList : List String := ["1.1.1.1", "8.8.8.8", "114.114.114.114", "223.6.6.6"]

/-- The loop over the addresses, where `answers` tells of each whether its `ping` exits with 0
and whether the flag of the thread is still set before it. -/
def pingAddresses (answers : String → Bool) (flag : String → Bool) : List String → Bool
  | [] => false
  | address :: rest =>
    if !flag address then false
    else if answers address then true
    else pingAddresses answers flag rest

/-- The loop over the attempts. -/
def connectionStatus (answers flag : ℕ → String → Bool) : (retries retryCount : ℕ) → Bool
  | 0, _ => false
  | retries + 1, retryCount =>
    if pingAddresses (answers retryCount) (flag retryCount) checkAddressList then true
    else connectionStatus answers flag retries (retryCount + 1)

/-- Where the policy check stands: between two passes, after a pass that found no interface,
or about to drop the mode. -/
inductive PolicyPoint where
  | between
  | undecided
  | dropping
  deriving DecidableEq, Repr

/-- Where the connection check stands: between two passes, in its attempts, after them, or
about to set the mode. -/
inductive ConnectionPoint where
  | between
  | pinging
  | pinged (status : Bool)
  | writing (status : Bool)
  deriving DecidableEq, Repr

/-- `g_pcat_main_network_route_mode` with the two threads. The last field is not part of the
program: the mode that the last pass of the policy check has decided on, if it has. -/
structure RouteThreads where
  routeMode : RouteMode := .none
  policy : PolicyPoint := .between
  connection : ConnectionPoint := .between
  decision : Option RouteMode := none
  deriving DecidableEq, Repr

/-- A step of the policy check or of the connection check. -/
inductive RouteEvent where
  | policyRead (found : Option MainIfaceType)
  | policyTest
  | policyDrop
  | connectionTest
  | connectionPing (answers flag : ℕ → String → Bool)
  | connectionGuard
  | connectionWrite

namespace RouteThreads

/-- The mode is WIRED or MOBILE. -/
def routed (mode : RouteMode) : Bool := RouteMode.unknown.value < mode.value

/-- What the connection check sets the mode to. -/
def connectionMode (status : Bool) : RouteMode := if status then .unknown else .none

theorem routed_iface (iface : MainIfaceType) : routed iface.routeMode = true := by
  cases iface <;> rfl

theorem routed_connectionMode (status : Bool) : routed (connectionMode status) = false := by
  cases status <;> rfl

/-- One step. A thread that stands elsewhere does not make it. -/
def step (s : RouteThreads) : RouteEvent → RouteThreads
  | .policyRead found =>
    if s.policy = .between then
      match found with
      | some iface => { s with routeMode := iface.routeMode, decision := some iface.routeMode }
      | none => { s with policy := .undecided, decision := none }
    else s
  | .policyTest =>
    if s.policy = .undecided then
      { s with policy := if routed s.routeMode then .dropping else .between }
    else s
  | .policyDrop =>
    if s.policy = .dropping then { s with routeMode := .none, policy := .between } else s
  | .connectionTest =>
    if s.connection = .between then
      if routed s.routeMode then s else { s with connection := .pinging }
    else s
  | .connectionPing answers flag =>
    if s.connection = .pinging then { s with connection := .pinged (connectionStatus answers flag 5 0) }
    else s
  | .connectionGuard =>
    match s.connection with
    | .pinged status =>
      { s with connection := if routed s.routeMode then .between else .writing status }
    | _ => s
  | .connectionWrite =>
    match s.connection with
    | .writing status => { s with routeMode := connectionMode status, connection := .between }
    | _ => s

theorem routeMode_pass (js : JsonLibrary) (getBoolean : Json → Bool) (hshort : js.ShortArrays)
    (now : ℤ) (ifaceStdout : MainIfaceType → Option (List UInt8))
    (mwan3Stdout : Option (List UInt8)) (harrays : PolicyCheck.BalancedArrays js mwan3Stdout)
    (ret : Bool) (timestamp : ℤ) (s : RouteThreads) (hpolicy : s.policy = .between) :
    (PolicyCheck.policyCheckPass js getBoolean now ifaceStdout mwan3Stdout ret
        ⟨s.routeMode, timestamp⟩).map PolicyCheck.routeMode =
      some (run step s [.policyRead (PolicyCheck.policyIface js mwan3Stdout), .policyTest,
        .policyDrop]).routeMode := by
  obtain ⟨timestamp', hpass⟩ := PolicyCheck.policyCheckPass_eq js getBoolean now ifaceStdout
    (fun policies h => ⟨PolicyCheck.readableRules js hshort harrays h (by simp),
      PolicyCheck.readableRules js hshort harrays h (by simp)⟩) ret ⟨s.routeMode, timestamp⟩
  rw [hpass, Option.map_some]
  obtain ⟨routeMode, policy, connection, decision⟩ := s
  subst hpolicy
  cases PolicyCheck.policyIface js mwan3Stdout with
  | some iface => rfl
  | none => cases routeMode <;> rfl

/-- What holds between the steps: a pass that decides is over at once, decisions are for an
interface, and a mode for an interface is the decision of the last pass or about to be
dropped. -/
structure Consistent (s : RouteThreads) : Prop where
  undecided : s.policy ≠ .between → s.decision = none
  routedDecision : ∀ mode ∈ s.decision, routed mode = true
  noStale : routed s.routeMode = true → s.decision = some s.routeMode ∨ s.policy ≠ .between

theorem consistent_step {s : RouteThreads} (h : s.Consistent) (e : RouteEvent) :
    (s.step e).Consistent := by
  cases e with
  | policyRead found =>
    cases found with
    | some iface =>
      rw [step]
      split
      · rename_i hbetween
        refine ⟨fun hpolicy => absurd hbetween hpolicy, ?_, fun _ => .inl rfl⟩
        rintro mode hmode
        cases hmode
        exact routed_iface iface
      · exact h
    | none =>
      rw [step]
      split
      · exact ⟨fun _ => rfl, fun _ hmode => by simp at hmode, fun _ => .inr (by simp)⟩
      · exact h
  | policyTest =>
    rw [step]
    split
    · rename_i hundecided
      have hnone := h.undecided (by rw [hundecided]; decide)
      refine ⟨fun _ => hnone, h.routedDecision, fun hrouted => .inr ?_⟩
      change (if routed s.routeMode then PolicyPoint.dropping else .between) ≠ .between
      rw [if_pos hrouted]
      decide
    · exact h
  | policyDrop =>
    rw [step]
    split
    · exact ⟨fun hpolicy => absurd rfl hpolicy, h.routedDecision, fun hrouted => nomatch hrouted⟩
    · exact h
  | connectionTest =>
    rw [step]
    split_ifs
    · exact h
    · exact ⟨h.undecided, h.routedDecision, h.noStale⟩
    · exact h
  | connectionPing answers flag =>
    rw [step]
    split
    · exact ⟨h.undecided, h.routedDecision, h.noStale⟩
    · exact h
  | connectionGuard =>
    rw [step]
    split
    · exact ⟨h.undecided, h.routedDecision, h.noStale⟩
    · exact h
  | connectionWrite =>
    rw [step]
    split
    · rename_i status _
      refine ⟨h.undecided, h.routedDecision, fun hrouted => ?_⟩
      exact absurd ((routed_connectionMode status).symm.trans hrouted) Bool.false_ne_true
    · exact h

/-- The mode is what the last pass of the policy check has decided, if it has. -/
def Follows (s : RouteThreads) : Prop := ∀ mode ∈ s.decision, s.routeMode = mode

/-- The connection check does not set the mode while a decision stands: since its own look at
the mode the policy check has decided on one. -/
def LeavesDecision (s : RouteThreads) : RouteEvent → Prop
  | .connectionWrite => (∃ status, s.connection = .writing status) → s.decision = none
  | _ => True

theorem follows_step_iff {s : RouteThreads} (h : s.Consistent) (hfollows : s.Follows)
    (e : RouteEvent) : (s.step e).Follows ↔ s.LeavesDecision e := by
  cases e with
  | policyRead found =>
    refine iff_of_true ?_ trivial
    cases found with
    | some iface =>
      rw [step]
      split
      · exact fun mode hmode => Option.some.inj hmode
      · exact hfollows
    | none =>
      rw [step]
      split
      · exact fun mode hmode => by simp at hmode
      · exact hfollows
  | policyTest =>
    refine iff_of_true ?_ trivial
    rw [step]
    split <;> exact hfollows
  | policyDrop =>
    refine iff_of_true ?_ trivial
    rw [step]
    split
    · rename_i hdropping
      have hnone := h.undecided (by rw [hdropping]; decide)
      intro mode hmode
      cases hnone.symm.trans hmode
    · exact hfollows
  | connectionTest =>
    refine iff_of_true ?_ trivial
    rw [step]
    split_ifs <;> exact hfollows
  | connectionPing answers flag =>
    refine iff_of_true ?_ trivial
    rw [step]
    split <;> exact hfollows
  | connectionGuard =>
    refine iff_of_true ?_ trivial
    rw [step]
    split <;> exact hfollows
  | connectionWrite =>
    rw [step, LeavesDecision]
    cases hconnection : s.connection with
    | writing status =>
      constructor
      · intro hnext _
        cases hdecision : s.decision with
        | none => rfl
        | some mode =>
          have hmode : connectionMode status = mode := hnext mode hdecision
          have hrouted := h.routedDecision mode hdecision
          rw [← hmode, routed_connectionMode] at hrouted
          cases hrouted
      · intro hleaves mode hmode
        have hnone : s.decision = none := hleaves ⟨status, rfl⟩
        cases hnone.symm.trans hmode
    | _ => exact iff_of_true hfollows fun ⟨_, hstatus⟩ => by cases hstatus

theorem consistent_initial : ({} : RouteThreads).Consistent :=
  ⟨fun h => absurd rfl h, fun mode hmode => by simp at hmode, fun h => nomatch h⟩

/-- In every order of the steps of the two threads a mode for an interface is never older than
the last pass of the policy check; and the mode follows the passes at every moment exactly
when the connection check never sets it while a decision stands. -/
theorem route_mode_follows_iff (events : List RouteEvent) :
    (routed (run step ({} : RouteThreads) events).routeMode = true →
      (run step ({} : RouteThreads) events).policy = .between →
      (run step ({} : RouteThreads) events).decision =
        some (run step ({} : RouteThreads) events).routeMode) ∧
    (Along step (fun s e => (s.step e).Follows) {} events ↔ Along step LeavesDecision {} events) := by
  constructor
  · intro hrouted hbetween
    have hconsistent : (run step ({} : RouteThreads) events).Consistent :=
      run_invariant (I := Consistent) (fun _ e h => consistent_step h e) consistent_initial events
    exact (hconsistent.noStale hrouted).resolve_right (not_not.mpr hbetween)
  · have hinitial : ({} : RouteThreads).Consistent ∧ ({} : RouteThreads).Follows :=
      ⟨consistent_initial, fun mode hmode => by simp at hmode⟩
    exact along_iff (I := fun s => Consistent s ∧ Follows s) (fun s e h hnext => ⟨consistent_step h.1 e, hnext⟩)
      (fun s e h => follows_step_iff h.1 h.2 e) hinitial events

-- The wired route is found between the look of the connection check and its write.
example : (run step ({} : RouteThreads) [.connectionTest, .connectionPing (fun _ _ => true)
    (fun _ _ => true), .connectionGuard, .policyRead (some .wired), .connectionWrite]).routeMode =
    .unknown := by decide

end RouteThreads
end PcatManager
