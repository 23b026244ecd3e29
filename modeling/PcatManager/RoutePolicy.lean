import PcatManager.ControllerCommands

/-!
# The route mode of the policy check

One pass of the thread that asks for the state of the multi-WAN manager and takes the route
mode from its policies. What the commands it spawns print is a parameter, and so is the JSON
library.
-/

namespace PcatManager

/-- `PCatMainIfaceType`. -/
inductive MainIfaceType where
  | wired | wiredV6 | mobile5g | mobile5gV6 | mobileLte | mobileLteV6
  deriving DecidableEq, Repr

namespace MainIfaceType

/-- `g_pcat_main_iface_names`. -/
def name : MainIfaceType → String
  | .wired => "wan"
  | .wiredV6 => "wan6"
  | .mobile5g => "wwan_5g"
  | .mobile5gV6 => "wwan_5g_v6"
  | .mobileLte => "wwan_lte"
  | .mobileLteV6 => "wwan_lte_v6"

/-- `g_pcat_main_iface_route_mode`. -/
def routeMode : MainIfaceType → RouteMode
  | .wired => .wired
  | .wiredV6 => .wired
  | .mobile5g => .mobile
  | .mobile5gV6 => .mobile
  | .mobileLte => .mobile
  | .mobileLteV6 => .mobile

theorem routeMode_cases (iface : MainIfaceType) :
    iface.routeMode = .wired ∨ iface.routeMode = .mobile := by
  cases iface <;> decide

/-- All interfaces in the order of their values. -/
def all : List MainIfaceType := [.wired, .wiredV6, .mobile5g, .mobile5gV6, .mobileLte, .mobileLteV6]

end MainIfaceType

/-- The value of a route mode in its enumeration. -/
def RouteMode.value : RouteMode → ℕ
  | .none => 0
  | .unknown => 1
  | .wired => 2
  | .mobile => 3

/-- `PCAT_MAIN_MWAN_STATUS_CHECK_TIMEOUT`, in microseconds. -/
def mwanStatusCheckTimeout : ℤ := 30 * 1000000

/-- What a pass reads and changes: the route mode and the time of the last good check. -/
structure PolicyCheck where
  routeMode : RouteMode
  interfaceCheckTimestamp : ℤ

namespace PolicyCheck
variable (js : JsonLibrary) (getBoolean : Json → Bool)

/-- The document a command has printed; without output there is none. -/
def document (stdout : Option (List UInt8)) : Option Json :=
  stdout.bind fun text => js.parse (text.takeWhile (· ≠ 0))

/-- The member is an array with something in it. -/
def hasItems : Option Json → Bool
  | some (.array items) => !items.isEmpty
  | _ => false

/-- What one turn of the loop over the interfaces makes of `iface_status[i]` and of `ret`.
`getBoolean` is `json_object_get_boolean`. -/
def ifaceStatus (stdout : Option (List UInt8)) (ret : Bool) : Bool × Bool :=
  match document js stdout with
  | none => (false, ret)
  | some root =>
    match root.member? "up" with
    | none => (false, ret)
    | some child =>
      if !getBoolean child then (false, ret)
      else
        let ret :=
          hasItems (root.member? "ipv4-address") || hasItems (root.member? "ipv6-address")
        (ret, ret)

/-- The loop over the interfaces, with the values of `iface_status`. -/
def ifaceStatusLoop (stdout : MainIfaceType → Option (List UInt8)) :
    List MainIfaceType → (ret : Bool) → List (MainIfaceType × Bool) × Bool
  | [], ret => ([], ret)
  | iface :: rest, ret =>
    let (status, ret) := ifaceStatus js getBoolean (stdout iface) ret
    let (statuses, ret) := ifaceStatusLoop stdout rest ret
    ((iface, status) :: statuses, ret)

/-- `mwan3_interface_check_flag`: every interface that is up and known is online. -/
def interfaceCheckFlag (interfaces : Json) : List (MainIfaceType × Bool) → Bool
  | [] => true
  | (iface, status) :: rest =>
    if !status then interfaceCheckFlag interfaces rest
    else
      match interfaces.member? iface.name with
      | none => interfaceCheckFlag interfaces rest
      | some interface =>
        match interface.member? "status" with
        | none => false
        | some child =>
          if js.getString child ≠ some "online" then false else interfaceCheckFlag interfaces rest

/-- The percentage of a rule. It is kept in a `guint` that `sscanf` writes an `int` to. -/
def rulePercent (rule : Json) : UInt32 :=
  match (rule.member? "percent").bind js.getString with
  | none => 0
  | some upercent => ((scanInt (utf8Bytes upercent)).getD 0).toUInt32

/-- What the loop over the names leaves in `route_iface`; `PCAT_MAIN_IFACE_LAST` is none. -/
def routeIface (rule : Json) : Option MainIfaceType :=
  let iface := (rule.member? "interface").bind js.getString
  if 0 < rulePercent js rule then MainIfaceType.all.find? fun j => iface = some j.name else none

/-- The loop over the rules of one protocol. -/
def balancedLoop : List Json → (ret : Bool) → RouteMode → Bool × RouteMode
  | [], ret, routeMode => (ret, routeMode)
  | rule :: rules, ret, routeMode =>
    let routeIface := routeIface js rule
    let ret := ret || routeIface.isSome
    if ret then
      (ret, match routeIface with | some iface => iface.routeMode | none => routeMode)
    else balancedLoop rules ret routeMode

/-- The `balanced` member of one protocol. -/
def balanced? (policies : Json) (protocol : String) : Option Json :=
  (policies.member? protocol).bind fun protocol => protocol.member? "balanced"

/-- The block of one protocol. `json_object_array_length` aborts on rules that are no array,
and its result is kept in 32 bits. -/
def readProtocol (policies : Json) (protocol : String) (ret : Bool) (routeMode : RouteMode) :
    Option (Bool × RouteMode) :=
  match balanced? policies protocol with
  | none => some (ret, routeMode)
  | some (.array rules) =>
    some (balancedLoop js (rules.take (rules.length % 2 ^ 32)) ret routeMode)
  | some _ => none

/-- The block on `mwan3_stdout`. -/
def readStatus (now : ℤ) (statuses : List (MainIfaceType × Bool)) (stdout : Option (List UInt8))
    (ret : Bool) (s : PolicyCheck) : Option (Bool × PolicyCheck) :=
  match document js stdout with
  | none => some (ret, s)
  | some root =>
    match root.member? "interfaces" with
    | none => some (ret, s)
    | some interfaces =>
      let s :=
        if interfaceCheckFlag js interfaces statuses then { s with interfaceCheckTimestamp := now }
        else s
      match root.member? "policies" with
      | none => some (ret, s)
      | some policies =>
        (readProtocol js policies "ipv4" ret s.routeMode).bind fun r =>
          if r.1 then some (r.1, { s with routeMode := r.2 })
          else
            (readProtocol js policies "ipv6" r.1 r.2).map fun r =>
              (r.1, { s with routeMode := r.2 })

/-- The end of a pass: a route mode that nothing has decided is dropped, and the time of the
last good check starts again when it is too long ago. -/
def endPass (now : ℤ) (ret : Bool) (s : PolicyCheck) : PolicyCheck :=
  let s :=
    if !ret && RouteMode.unknown.value < s.routeMode.value then { s with routeMode := .none } else s
  if s.interfaceCheckTimestamp + mwanStatusCheckTimeout < now then
    { s with interfaceCheckTimestamp := now }
  else s

/-- One pass of `pcat_main_mwan_policy_check_thread_func`. `ret` is what the variable holds
from the pass before, and is reset before the output of `mwan3` is looked at; the clock is
read once. -/
def policyCheckPass (now : ℤ) (ifaceStdout : MainIfaceType → Option (List UInt8))
    (mwan3Stdout : Option (List UInt8)) (ret : Bool) (s : PolicyCheck) : Option PolicyCheck :=
  let statuses := (ifaceStatusLoop js getBoolean ifaceStdout MainIfaceType.all ret).1
  (readStatus js now statuses mwan3Stdout false s).map fun r => endPass now r.1 r.2

/-- The rule is for this interface, and its percentage is a number other than 0. -/
def CountsFor (rule : Json) (iface : MainIfaceType) : Prop :=
  (rule.member? "interface").bind js.getString = some iface.name ∧
    ∃ text percent, (rule.member? "percent").bind js.getString = some text ∧
      scanInt (utf8Bytes text) = some percent ∧ percent ≠ 0

theorem toUInt32_pos_iff (n : Int32) : 0 < n.toUInt32 ↔ n ≠ 0 := by
  rw [UInt32.pos_iff_ne_zero]
  refine not_congr ⟨fun h => ?_, fun h => h ▸ rfl⟩
  rw [← Int32.toInt32_toUInt32 n, h]
  rfl

theorem rulePercent_pos_iff (rule : Json) :
    0 < rulePercent js rule ↔
      ∃ text percent, (rule.member? "percent").bind js.getString = some text ∧
        scanInt (utf8Bytes text) = some percent ∧ percent ≠ 0 := by
  rw [rulePercent]
  cases (rule.member? "percent").bind js.getString with
  | none => simp
  | some text =>
    dsimp only
    rw [toUInt32_pos_iff]
    cases hscan : scanInt (utf8Bytes text) with
    | none => simp [hscan]
    | some percent => simp [hscan]

theorem routeIface_eq_some_iff (rule : Json) (iface : MainIfaceType) :
    routeIface js rule = some iface ↔ CountsFor js rule iface := by
  rw [routeIface, CountsFor, ← rulePercent_pos_iff, Option.ite_none_right_eq_some, and_comm]
  refine and_congr_left fun _ => ?_
  constructor
  · intro h
    have hfound := List.find?_some h
    exact of_decide_eq_true hfound
  · intro h
    rw [h]
    cases iface <;> decide

theorem routeIface_eq_none_iff (rule : Json) :
    routeIface js rule = none ↔ ∀ iface, ¬CountsFor js rule iface := by
  rw [Option.eq_none_iff_forall_ne_some]
  exact forall_congr' fun iface => not_congr (routeIface_eq_some_iff js rule iface)

/-- What the loops leave of a route mode when they find this interface, or none. -/
def decided (found : Option MainIfaceType) (routeMode : RouteMode) : Bool × RouteMode :=
  (found.isSome, (found.map MainIfaceType.routeMode).getD routeMode)

theorem balancedLoop_eq (rules : List Json) (routeMode : RouteMode) :
    balancedLoop js rules false routeMode = decided (rules.findSome? (routeIface js)) routeMode := by
  induction rules with
  | nil => rfl
  | cons rule rules ih =>
    rw [balancedLoop, List.findSome?_cons]
    cases routeIface js rule with
    | none => exact ih
    | some iface => rfl

/-- The rules of one protocol. -/
def protocolRules (policies : Json) (protocol : String) : List Json :=
  match balanced? policies protocol with
  | some (.array rules) => rules
  | _ => []

/-- The rules of a protocol are an array if there are any, and the array is as long as its
length says. -/
def ReadableRules (policies : Json) (protocol : String) : Prop :=
  ∀ member ∈ balanced? policies protocol, ∃ rules, member = .array rules ∧ rules.length < 2 ^ 32

theorem readProtocol_eq {policies : Json} {protocol : String}
    (h : ReadableRules policies protocol) (routeMode : RouteMode) :
    readProtocol js policies protocol false routeMode =
      some (decided ((protocolRules policies protocol).findSome? (routeIface js)) routeMode) := by
  rw [readProtocol, protocolRules]
  cases hmember : balanced? policies protocol with
  | none => rfl
  | some member =>
    obtain ⟨rules, rfl, hlength⟩ := h member hmember
    dsimp only
    rw [Nat.mod_eq_of_lt hlength, List.take_length, balancedLoop_eq]

/-- The policies of a document that has interfaces. -/
def policies? (stdout : Option (List UInt8)) : Option Json :=
  (document js stdout).bind fun root =>
    if (root.member? "interfaces").isSome then root.member? "policies" else none

/-- All rules, those of IPv4 before those of IPv6. -/
def policyRules (policies : Json) : List Json :=
  protocolRules policies "ipv4" ++ protocolRules policies "ipv6"

/-- The interface of the first rule that counts for one. -/
def policyIface (stdout : Option (List UInt8)) : Option MainIfaceType :=
  (policies? js stdout).bind fun policies => (policyRules policies).findSome? (routeIface js)

/-- The block on the output leaves what the first rule that counts decides. -/
theorem readStatus_eq (now : ℤ) (statuses : List (MainIfaceType × Bool))
    {stdout : Option (List UInt8)}
    (h : ∀ policies ∈ policies? js stdout,
      ReadableRules policies "ipv4" ∧ ReadableRules policies "ipv6") (s : PolicyCheck) :
    ∃ timestamp, readStatus js now statuses stdout false s =
      some ((policyIface js stdout).isSome,
        ⟨((policyIface js stdout).map MainIfaceType.routeMode).getD s.routeMode, timestamp⟩) := by
  rw [readStatus, policyIface]
  cases hdocument : document js stdout with
  | none => exact ⟨s.interfaceCheckTimestamp, by simp [policies?, hdocument]⟩
  | some root =>
    dsimp only
    cases hinterfaces : root.member? "interfaces" with
    | none => exact ⟨s.interfaceCheckTimestamp, by simp [policies?, hdocument, hinterfaces]⟩
    | some interfaces =>
      have hchecked : ∃ timestamp, (if interfaceCheckFlag js interfaces statuses then
          { s with interfaceCheckTimestamp := now } else s) = ⟨s.routeMode, timestamp⟩ := by
        split
        · exact ⟨now, rfl⟩
        · exact ⟨s.interfaceCheckTimestamp, rfl⟩
      obtain ⟨timestamp, hchecked⟩ := hchecked
      dsimp only
      rw [hchecked]
      have hpolicies : policies? js stdout = root.member? "policies" := by
        simp [policies?, hdocument, hinterfaces]
      rw [hpolicies] at h ⊢
      refine ⟨timestamp, ?_⟩
      cases hmember : root.member? "policies" with
      | none => rfl
      | some policies =>
        obtain ⟨hipv4, hipv6⟩ := h policies hmember
        dsimp only
        rw [readProtocol_eq js hipv4, Option.bind_some, Option.bind_some, policyRules,
          List.findSome?_append]
        cases (protocolRules policies "ipv4").findSome? (routeIface js) with
        | some iface => rfl
        | none =>
          have hnothing : decided none s.routeMode = (false, s.routeMode) := rfl
          rw [hnothing, if_neg Bool.false_ne_true, readProtocol_eq js hipv6]
          rfl

/-- What a pass leaves of a route mode when no rule decides it. -/
def fallback : RouteMode → RouteMode
  | .unknown => .unknown
  | _ => .none

theorem endPass_eq (now : ℤ) (found : Option MainIfaceType) (routeMode : RouteMode)
    (timestamp : ℤ) :
    ∃ timestamp',
      endPass now found.isSome ⟨(found.map MainIfaceType.routeMode).getD routeMode, timestamp⟩ =
        ⟨(found.map MainIfaceType.routeMode).getD (fallback routeMode), timestamp'⟩ := by
  have htimestamp (s : PolicyCheck) :
      ∃ timestamp', (if s.interfaceCheckTimestamp + mwanStatusCheckTimeout < now then
        { s with interfaceCheckTimestamp := now } else s) = ⟨s.routeMode, timestamp'⟩ := by
    split
    · exact ⟨now, rfl⟩
    · exact ⟨s.interfaceCheckTimestamp, rfl⟩
  rw [endPass]
  obtain ⟨timestamp', hs⟩ := htimestamp _
  refine ⟨timestamp', hs.trans ?_⟩
  cases found with
  | some iface => rfl
  | none => cases routeMode <;> rfl

/-- A pass returns and takes the route mode from the first rule that counts, if there is one. -/
theorem policyCheckPass_eq (now : ℤ) (ifaceStdout : MainIfaceType → Option (List UInt8))
    {mwan3Stdout : Option (List UInt8)}
    (h : ∀ policies ∈ policies? js mwan3Stdout,
      ReadableRules policies "ipv4" ∧ ReadableRules policies "ipv6") (ret : Bool) (s : PolicyCheck) :
    ∃ timestamp, policyCheckPass js getBoolean now ifaceStdout mwan3Stdout ret s =
      some ⟨((policyIface js mwan3Stdout).map MainIfaceType.routeMode).getD (fallback s.routeMode),
        timestamp⟩ := by
  obtain ⟨checked, hread⟩ := readStatus_eq js now
    (ifaceStatusLoop js getBoolean ifaceStdout MainIfaceType.all ret).1 h s
  obtain ⟨timestamp, hend⟩ := endPass_eq now (policyIface js mwan3Stdout) s.routeMode checked
  refine ⟨timestamp, ?_⟩
  rw [policyCheckPass, hread, Option.map_some, hend]

/-- The members "balanced" that the output has are arrays. -/
def BalancedArrays (stdout : Option (List UInt8)) : Prop :=
  ∀ policies ∈ policies? js stdout, ∀ protocol ∈ ["ipv4", "ipv6"],
    ∀ member ∈ balanced? policies protocol, ∃ rules, member = .array rules

end PolicyCheck

/-- No array that names lead to has 2³² items. -/
def Json.ShortArrays (root : Json) : Prop :=
  ∀ (path : List String) (items : List Json),
    path.foldlM Json.member? root = some (.array items) → items.length < 2 ^ 32

theorem Json.shortArrays_object {members : List (String × Json)}
    (h : ∀ m ∈ members, m.2.ShortArrays) : (Json.object members).ShortArrays := by
  intro path items hitems
  cases path with
  | nil => cases hitems
  | cons key path =>
    obtain ⟨value, hvalue, hrest⟩ := Option.bind_eq_some_iff.mp hitems
    obtain ⟨before, after, rfl, -⟩ := List.lookup_eq_some_iff.mp hvalue
    exact h (key, value) (by simp) path items hrest

theorem Json.shortArrays_array {items : List Json} (h : items.length < 2 ^ 32) :
    (Json.array items).ShortArrays := by
  intro path items' hitems
  cases path with
  | nil =>
    cases hitems
    exact h
  | cons key path => cases hitems

/-- The parser takes the length of its text as an `int`, so no array in a document has 2³²
items. -/
def JsonLibrary.ShortArrays (js : JsonLibrary) : Prop :=
  ∀ text root, js.parse text = some root → root.ShortArrays

namespace PolicyCheck
variable (js : JsonLibrary) (getBoolean : Json → Bool)

theorem readableRules {stdout : Option (List UInt8)} (hshort : js.ShortArrays)
    (harrays : BalancedArrays js stdout) {policies : Json} (h : policies ∈ policies? js stdout)
    {protocol : String} (hprotocol : protocol ∈ ["ipv4", "ipv6"]) :
    ReadableRules policies protocol := by
  intro member hmember
  obtain ⟨rules, rfl⟩ := harrays policies h protocol hprotocol member hmember
  refine ⟨rules, rfl, ?_⟩
  obtain ⟨root, hroot, hpolicies⟩ := Option.bind_eq_some_iff.mp h
  obtain ⟨text, -, hparse⟩ := Option.bind_eq_some_iff.mp hroot
  obtain ⟨-, hpolicies⟩ := Option.ite_none_right_eq_some.mp hpolicies
  obtain ⟨member, hprotocol, hbalanced⟩ := Option.bind_eq_some_iff.mp hmember
  refine hshort _ root hparse ["policies", protocol, "balanced"] rules ?_
  simp only [List.foldlM_cons, List.foldlM_nil, hpolicies, hprotocol, hbalanced,
    Option.bind_eq_bind, Option.bind_some]
  rfl

theorem policyIface_eq_some_iff (stdout : Option (List UInt8)) (iface : MainIfaceType) :
    policyIface js stdout = some iface ↔
      ∃ policies ∈ policies? js stdout, ∃ before rule after,
        policyRules policies = before ++ rule :: after ∧ CountsFor js rule iface ∧
          ∀ earlier ∈ before, ∀ iface, ¬CountsFor js earlier iface := by
  rw [policyIface, Option.bind_eq_some_iff]
  refine exists_congr fun policies => and_congr_right fun _ => ?_
  rw [List.findSome?_eq_some_iff]
  simp only [routeIface_eq_some_iff, routeIface_eq_none_iff]

theorem policyIface_eq_none_iff (stdout : Option (List UInt8)) :
    policyIface js stdout = none ↔
      ¬∃ policies ∈ policies? js stdout, ∃ rule ∈ policyRules policies,
        ∃ iface, CountsFor js rule iface := by
  rw [policyIface, Option.bind_eq_none_iff]
  constructor
  · rintro hiface ⟨policies, hpolicies, rule, hrule, iface, hcounts⟩
    have hrules := List.findSome?_eq_none_iff.mp (hiface policies hpolicies) rule hrule
    exact (routeIface_eq_none_iff js rule).mp hrules iface hcounts
  · intro hnone policies hpolicies
    rw [List.findSome?_eq_none_iff]
    intro rule hrule
    rw [routeIface_eq_none_iff]
    exact fun iface hcounts => hnone ⟨policies, hpolicies, rule, hrule, iface, hcounts⟩

/-- A pass returns. It leaves the route mode WIRED or MOBILE exactly when the output has a rule
that counts for an interface, as the mode of the first such rule, and otherwise keeps
UNKNOWN and drops every other mode. -/
theorem route_mode_of_pass (hshort : js.ShortArrays) (now : ℤ)
    (ifaceStdout : MainIfaceType → Option (List UInt8)) (mwan3Stdout : Option (List UInt8))
    (harrays : BalancedArrays js mwan3Stdout) (ret : Bool) (s : PolicyCheck) :
    ∃ s', policyCheckPass js getBoolean now ifaceStdout mwan3Stdout ret s = some s' ∧
      ((s'.routeMode = .wired ∨ s'.routeMode = .mobile) ↔
        ∃ policies ∈ policies? js mwan3Stdout, ∃ rule ∈ policyRules policies,
          ∃ iface, CountsFor js rule iface) ∧
      (∀ policies ∈ policies? js mwan3Stdout, ∀ before rule after iface,
        policyRules policies = before ++ rule :: after → CountsFor js rule iface →
        (∀ earlier ∈ before, ∀ iface, ¬CountsFor js earlier iface) →
        s'.routeMode = iface.routeMode) ∧
      ((¬∃ policies ∈ policies? js mwan3Stdout, ∃ rule ∈ policyRules policies,
          ∃ iface, CountsFor js rule iface) →
        s'.routeMode = if s.routeMode = .unknown then .unknown else .none) := by
  obtain ⟨timestamp, hpass⟩ := policyCheckPass_eq js getBoolean now ifaceStdout
    (fun policies h => ⟨readableRules js hshort harrays h (by simp),
      readableRules js hshort harrays h (by simp)⟩) ret s
  refine ⟨_, hpass, ?_⟩
  cases hiface : policyIface js mwan3Stdout with
  | some iface =>
    obtain ⟨policies, hpolicies, before, rule, after, hrules, hcounts, hfirst⟩ :=
      (policyIface_eq_some_iff js mwan3Stdout iface).mp hiface
    have hexists : ∃ policies ∈ policies? js mwan3Stdout, ∃ rule ∈ policyRules policies,
        ∃ iface, CountsFor js rule iface :=
      ⟨policies, hpolicies, rule, by rw [hrules]; simp, iface, hcounts⟩
    refine ⟨iff_of_true ?_ hexists, ?_, fun hnone => absurd hexists hnone⟩
    · exact iface.routeMode_cases
    · intro policies hpolicies before rule after iface' hrules hcounts hfirst
      have hsame := (policyIface_eq_some_iff js mwan3Stdout iface').mpr
        ⟨policies, hpolicies, before, rule, after, hrules, hcounts, hfirst⟩
      cases hiface.symm.trans hsame
      rfl
  | none =>
    have hnone := (policyIface_eq_none_iff js mwan3Stdout).mp hiface
    have hdropped : ¬(fallback s.routeMode = .wired ∨ fallback s.routeMode = .mobile) := by
      cases s.routeMode <;> decide
    refine ⟨iff_of_false hdropped hnone, ?_, fun _ => ?_⟩
    · intro policies hpolicies before rule after iface hrules hcounts _
      exact absurd ⟨policies, hpolicies, rule, by rw [hrules]; simp, iface, hcounts⟩ hnone
    · cases s.routeMode <;> rfl

/-- A status in which the second rule is the first that counts. -/
def mwanStatus : List UInt8 :=
  utf8Bytes "\x7b\"interfaces\":\x7b\x7d,\"policies\":\x7b\"ipv4\":\x7b\"balanced\":["
    ++ utf8Bytes "\x7b\"interface\":\"wan\",\"percent\":0\x7d,"
    ++ utf8Bytes "\x7b\"interface\":\"wwan_5g\",\"percent\":100\x7d]\x7d\x7d\x7d"

def idleRule : Json := .object [("interface", .string "wan"), ("percent", .int 0)]

def mobileRule : Json := .object [("interface", .string "wwan_5g"), ("percent", .int 100)]

def mobilePolicies : Json :=
  .object [("ipv4", .object [("balanced", .array [idleRule, mobileRule])])]

/-- A library that parses this text only. -/
def mwanLibrary : JsonLibrary where
  toJsonConversions :=
    { JsonConversions.plain with
      getString
        | .string s => some s
        | .int n => some (toString n)
        | _ => none }
  parse text :=
    if text = mwanStatus then
      some (.object [("interfaces", .object []), ("policies", mobilePolicies)])
    else none
  print _ := .empty
  text _ := ""

/-- A pass takes the mode of the second rule. -/
theorem route_mode_of_pass_mobile :
    ∃ s', policyCheckPass mwanLibrary (fun _ => false) 0 (fun _ => none) (some mwanStatus) true
        ⟨.wired, 0⟩ = some s' ∧ s'.routeMode = .mobile := by
  have hstatus : mwanStatus.takeWhile (· ≠ 0) = mwanStatus := by decide +kernel
  have hparse : mwanLibrary.parse mwanStatus =
      some (.object [("interfaces", .object []), ("policies", mobilePolicies)]) := if_pos rfl
  have hpolicies : policies? mwanLibrary (some mwanStatus) = some mobilePolicies := by
    rw [policies?, document, Option.bind_some, hstatus, hparse]
    rfl
  have hshort : mwanLibrary.ShortArrays := by
    intro text root htext
    obtain ⟨-, hroot⟩ := Option.ite_none_right_eq_some.mp htext
    obtain rfl := Option.some.inj hroot
    have hrules : (Json.array [idleRule, mobileRule]).ShortArrays :=
      Json.shortArrays_array (by decide)
    have hempty : (Json.object []).ShortArrays := Json.shortArrays_object (by simp)
    have hpolicies : mobilePolicies.ShortArrays :=
      Json.shortArrays_object (by simpa using Json.shortArrays_object (by simpa using hrules))
    exact Json.shortArrays_object (by simpa using ⟨hempty, hpolicies⟩)
  have harrays : BalancedArrays mwanLibrary (some mwanStatus) := by
    intro policies h protocol hprotocol member hmember
    cases hpolicies.symm.trans h
    obtain rfl | hprotocol := List.mem_cons.mp hprotocol
    · cases hmember
      exact ⟨_, rfl⟩
    · cases List.mem_singleton.mp hprotocol
      cases hmember
  have hidle : ∀ earlier ∈ [idleRule], ∀ iface, ¬CountsFor mwanLibrary earlier iface := by
    intro earlier hearlier iface
    cases List.mem_singleton.mp hearlier
    rintro ⟨-, text, percent, htext, hscan, hne⟩
    obtain rfl := Option.some.inj htext
    have hzero : scanInt (utf8Bytes (toString (0 : ℤ))) = some 0 := by decide +kernel
    exact hne (Option.some.inj (hscan.symm.trans hzero))
  have hcounts : CountsFor mwanLibrary mobileRule .mobile5g :=
    ⟨rfl, toString (100 : ℤ), 100, rfl, by decide +kernel, by decide⟩
  obtain ⟨s', hpass, -, hfirst, -⟩ := route_mode_of_pass mwanLibrary (fun _ => false) hshort 0
    (fun _ => none) (some mwanStatus) harrays true ⟨.wired, 0⟩
  exact ⟨s', hpass, hfirst _ hpolicies [idleRule] mobileRule [] .mobile5g rfl hcounts hidle⟩

end PolicyCheck
end PcatManager
