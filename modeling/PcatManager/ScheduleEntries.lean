import PcatManager.Controller
import PcatManager.PrefixMap
import Mathlib.Data.List.ReduceOption

/-!
# What is stored for one event

For every node of an event list, the entry `schedule-power-event-set` stores for it, and the
entry it should store by the node's own members. They differ where a node without an action
comes after one with the action TRUE.
-/

namespace PcatManager
open PrefixMap

/-- A null node. -/
def Json.isNull : Json → Bool
  | .null => true
  | _ => false

theorem Json.isNull_eq_true_iff {node : Json} : node.isNull = true ↔ node = .null := by
  cases node <;> simp [isNull]

section
variable (jc : JsonConversions) (zone : LocalZone)

/-- What the loop stores for a node that follows others; `action` is what the uninitialised
variable holds before the first of them. -/
def storedFor (action : Bool) (before : List Json) (node : Json) : Option PowerScheduleData :=
  if node.isNull then none
  else
    let (carried, countOn, countOff) := eventCounts jc before action 0 0
    let action := eventAction jc node carried
    if (if action then countOn else countOff) < 6 then some (eventEntry jc zone node action)
    else none

/-- What is stored for each node of an event list. The loop stops at the length of the list
in 32 bits. -/
def storedEntries (array : List Json) (action : Bool) : List (Option PowerScheduleData) :=
  mapWithPrefix
    (fun before node =>
      if before.length < array.length % 2 ^ 32 then storedFor jc zone action before node else none)
    [] array

/-- The action of a node by itself: without an action it is an off-event. -/
def ownAction (node : Json) : Bool := eventAction jc node false

/-- How many of some nodes are events with this action by themselves. -/
def ownCount (action : Bool) (nodes : List Json) : ℕ :=
  nodes.countP fun node => !node.isNull && ownAction jc node == action

/-- What should be stored for a node that follows others: its own entry, if it is one of the
first six events with its action. -/
def ownEntryFor (before : List Json) (node : Json) : Option PowerScheduleData :=
  if node.isNull then none
  else if ownCount jc (ownAction jc node) before < 6 then
    some (eventEntry jc zone node (ownAction jc node))
  else none

/-- What should be stored for each node of an event list. -/
def ownEntries (array : List Json) : List (Option PowerScheduleData) :=
  mapWithPrefix (ownEntryFor jc zone) [] array

/-- The action a node without one takes over from the nodes before it. -/
def carriedAction (action : Bool) (before : List Json) : Bool := (eventCounts jc before action 0 0).1

theorem eventCounts_append (before : List Json) {node : Json} (hnull : node.isNull = false)
    (action : Bool) (countOn countOff : ℕ) :
    eventCounts jc (before ++ [node]) action countOn countOff =
      let s := eventCounts jc before action countOn countOff
      let action := eventAction jc node s.1
      (action, if action then s.2.1 + 1 else s.2.1, if action then s.2.2 else s.2.2 + 1) := by
  have hne : node ≠ .null := fun h => by simp [h, Json.isNull] at hnull
  induction before generalizing action countOn countOff with
  | nil =>
    rw [List.nil_append, eventCounts_cons jc hne, eventCounts, eventCounts]
  | cons first before ih =>
    by_cases hfirst : first = .null
    · subst hfirst
      exact ih action countOn countOff
    · rw [List.cons_append, eventCounts_cons jc hfirst, eventCounts_cons jc hfirst, ih]

theorem eventCounts_append_null (before : List Json) (action : Bool) (countOn countOff : ℕ) :
    eventCounts jc (before ++ [.null]) action countOn countOff =
      eventCounts jc before action countOn countOff := by
  induction before generalizing action countOn countOff with
  | nil => rfl
  | cons first before ih =>
    by_cases hfirst : first = .null
    · subst hfirst
      exact ih action countOn countOff
    · rw [List.cons_append, eventCounts_cons jc hfirst, eventCounts_cons jc hfirst, ih]

theorem powerEventLoop_eq (before nodes : List Json) (action : Bool) :
    powerEventLoop jc zone nodes (eventCounts jc before action 0 0).1
        (eventCounts jc before action 0 0).2.1 (eventCounts jc before action 0 0).2.2 =
      (mapWithPrefix (storedFor jc zone action) before nodes).reduceOption := by
  induction nodes generalizing before with
  | nil => rfl
  | cons node nodes ih =>
    have hnext := ih (before ++ [node])
    rw [mapWithPrefix]
    cases hnull : node.isNull with
    | true =>
      rw [Json.isNull_eq_true_iff] at hnull
      subst hnull
      rw [eventCounts_append_null] at hnext
      rw [powerEventLoop, hnext]
      rfl
    | false =>
      have hne : node ≠ .null := fun h => by simp [h, Json.isNull] at hnull
      rw [eventCounts_append jc before hnull] at hnext
      rw [powerEventLoop_cons jc zone hne, hnext, storedFor, hnull, if_neg Bool.false_ne_true]
      dsimp only
      by_cases hroom : (if eventAction jc node (eventCounts jc before action 0 0).1 then
          (eventCounts jc before action 0 0).2.1
        else (eventCounts jc before action 0 0).2.2) < 6
      · rw [if_pos hroom, if_pos hroom, List.reduceOption_cons_of_some, List.singleton_append]
      · rw [if_neg hroom, if_neg hroom, List.reduceOption_cons_of_none, List.nil_append]

theorem mapWithPrefix_take {α β : Type*} (f : List α → α → Option β) (seen : ℕ) (before xs : List α) :
    (mapWithPrefix (fun before x => if before.length < seen then f before x else none)
        before xs).reduceOption =
      (mapWithPrefix f before (xs.take (seen - before.length))).reduceOption := by
  induction xs generalizing before with
  | nil => rw [List.take_nil]; rfl
  | cons x xs ih =>
    have hnext := ih (before ++ [x])
    rw [List.length_append, List.length_singleton] at hnext
    rw [mapWithPrefix]
    by_cases hseen : before.length < seen
    · obtain ⟨more, hmore⟩ := Nat.exists_eq_add_of_lt hseen
      have htake : seen - before.length = more + 1 := by omega
      have htake' : seen - (before.length + 1) = more := by omega
      rw [if_pos hseen, htake, List.take_succ_cons, mapWithPrefix, ← htake']
      cases f before x with
      | none => rw [List.reduceOption_cons_of_none, List.reduceOption_cons_of_none, hnext]
      | some y => rw [List.reduceOption_cons_of_some, List.reduceOption_cons_of_some, hnext]
    · have htake : seen - before.length = 0 := by omega
      have htake' : seen - (before.length + 1) = 0 := by omega
      rw [if_neg hseen, List.reduceOption_cons_of_none, hnext, htake, htake']
      rfl

/-- The schedule a request asks for consists of what is stored for its nodes. -/
theorem requestedSchedule_eq {root : Json} {array : List Json}
    (hlist : root.member? "event-list" = some (.array array)) (action : Bool) :
    requestedSchedule jc zone root action =
      some (storedEntries jc zone array action).reduceOption := by
  have hloop := powerEventLoop_eq jc zone [] (array.take (array.length % 2 ^ 32)) action
  rw [requestedSchedule, hlist, storedEntries, mapWithPrefix_take]
  exact congrArg some hloop

/-- The counters of the loop have as much room as the nodes themselves leave. -/
def SameRoom (action : Bool) (before : List Json) : Prop :=
  ((eventCounts jc before action 0 0).2.1 = ownCount jc true before ∧
      (eventCounts jc before action 0 0).2.2 = ownCount jc false before) ∨
    (6 ≤ (eventCounts jc before action 0 0).2.1 ∧ 6 ≤ (eventCounts jc before action 0 0).2.2 ∧
      6 ≤ ownCount jc true before ∧ 6 ≤ ownCount jc false before)

theorem ownCount_append_null (action : Bool) (before : List Json) :
    ownCount jc action (before ++ [.null]) = ownCount jc action before := by
  simp [ownCount, Json.isNull]

theorem ownCount_append (action : Bool) (before : List Json) {node : Json}
    (hnull : node.isNull = false) :
    ownCount jc action (before ++ [node]) =
      ownCount jc action before + if ownAction jc node = action then 1 else 0 := by
  simp [ownCount, hnull]

theorem eventAction_of_some {node : Json} {iv : Int32} (h : intUnder jc node "action" = some iv)
    (action : Bool) : eventAction jc node action = ownAction jc node := by
  rw [ownAction, eventAction, eventAction, h]

theorem eventAction_of_none {node : Json} (h : intUnder jc node "action" = none) (action : Bool) :
    eventAction jc node action = action := by
  rw [eventAction, h]

/-- The action of a node is its own one, or the node takes over the action TRUE. -/
theorem eventAction_cases (node : Json) (action : Bool) :
    eventAction jc node action = ownAction jc node ∨
      (intUnder jc node "action" = none ∧ action = true ∧ eventAction jc node action = true ∧
        ownAction jc node = false) := by
  cases hiv : intUnder jc node "action" with
  | some iv => exact .inl (eventAction_of_some jc hiv action)
  | none =>
    cases action with
    | false => exact .inl rfl
    | true => exact .inr ⟨rfl, rfl, eventAction_of_none jc hiv true, eventAction_of_none jc hiv false⟩

theorem SameRoom.lt_iff {action : Bool} {before : List Json} (h : SameRoom jc action before)
    (kind : Bool) :
    (if kind then (eventCounts jc before action 0 0).2.1
      else (eventCounts jc before action 0 0).2.2) < 6 ↔ ownCount jc kind before < 6 := by
  obtain ⟨hon, hoff⟩ | ⟨hon, hoff, hownOn, hownOff⟩ := h
  · cases kind with
    | true => rw [if_pos rfl, hon]
    | false => rw [if_neg Bool.false_ne_true, hoff]
  · cases kind with
    | true =>
      rw [if_pos rfl]
      omega
    | false =>
      rw [if_neg Bool.false_ne_true]
      omega

theorem stored_true_eq_stored_false_iff (node : Json) (roomOn roomOff : Prop) [Decidable roomOn]
    [Decidable roomOff] :
    (if roomOn then some (eventEntry jc zone node true) else none) =
        (if roomOff then some (eventEntry jc zone node false) else none) ↔ ¬roomOn ∧ ¬roomOff := by
  by_cases hon : roomOn
  · by_cases hoff : roomOff
    · rw [if_pos hon, if_pos hoff]
      refine iff_of_false (fun h => ?_) (fun h => h.1 hon)
      have haction := congrArg PowerScheduleData.action (Option.some.inj h)
      rw [eventEntry_action, eventEntry_action] at haction
      exact Bool.false_ne_true haction.symm
    · simp [hon, hoff]
  · by_cases hoff : roomOff <;> simp [hon, hoff]

/-- Within the nodes the loop sees, a node that takes over the action TRUE comes after six
on-events and six off-events. -/
def FullBeforeCarried (action : Bool) (before : List Json) (node : Json) : Prop :=
  node.isNull = false → intUnder jc node "action" = none → carriedAction jc action before = true →
    6 ≤ ownCount jc true before ∧ 6 ≤ ownCount jc false before

/-- With the same room, a node is stored as it should be exactly when it does not take over
the action TRUE, or there is no room at all. -/
theorem SameRoom.storedFor_eq_iff {action : Bool} {before : List Json} {node : Json}
    (h : SameRoom jc action before) :
    storedFor jc zone action before node = ownEntryFor jc zone before node ↔
      FullBeforeCarried jc action before node := by
  rw [storedFor, ownEntryFor, FullBeforeCarried, carriedAction]
  cases hnull : node.isNull with
  | true => simp
  | false =>
    simp only [Bool.false_eq_true, if_false, true_implies]
    obtain hown | ⟨hnone, hcarried, htrue, hfalse⟩ :=
        eventAction_cases jc node (eventCounts jc before action 0 0).1
    · rw [hown, if_congr (h.lt_iff jc (ownAction jc node)) rfl rfl]
      refine iff_of_true rfl fun hnone hcarried => ?_
      rw [hcarried, eventAction_of_none jc hnone, ownAction, eventAction_of_none jc hnone] at hown
      exact absurd hown.symm Bool.false_ne_true
    · have hon := h.lt_iff jc true
      rw [if_pos rfl] at hon
      rw [htrue, hfalse, if_pos rfl, stored_true_eq_stored_false_iff, hon, Nat.not_lt, Nat.not_lt]
      simp [hnone, hcarried]

theorem SameRoom.append {action : Bool} {before : List Json} {node : Json}
    (h : SameRoom jc action before) (hfull : FullBeforeCarried jc action before node) :
    SameRoom jc action (before ++ [node]) := by
  cases hnull : node.isNull with
  | true =>
    rw [Json.isNull_eq_true_iff] at hnull
    subst hnull
    rw [SameRoom, eventCounts_append_null, ownCount_append_null, ownCount_append_null]
    exact h
  | false =>
    rw [SameRoom, eventCounts_append jc before hnull, ownCount_append jc true before hnull,
      ownCount_append jc false before hnull]
    dsimp only
    obtain hown | ⟨hnone, hcarried, htrue, hfalse⟩ :=
        eventAction_cases jc node (eventCounts jc before action 0 0).1
    · rw [hown]
      obtain ⟨hon, hoff⟩ | hroom := h
      · refine .inl ?_
        cases ownAction jc node <;> simp [hon, hoff]
      · refine .inr ?_
        cases ownAction jc node <;> simp <;> omega
    · obtain ⟨hownOn, hownOff⟩ := hfull hnull hnone hcarried
      have hroom := h.lt_iff jc
      have hon := hroom true
      have hoff := hroom false
      simp only [if_true, Bool.false_eq_true, if_false] at hon hoff
      rw [htrue, hfalse]
      refine .inr ?_
      simp
      omega

/-- A node gets its own entry: the loop sees it and it does not take over the action TRUE
while there is room, or the loop stops before it and there is no room for it. -/
def GetsOwnEntry (seen : ℕ) (action : Bool) (before : List Json) (node : Json) : Prop :=
  if before.length < seen then FullBeforeCarried jc action before node
  else node.isNull = false → 6 ≤ ownCount jc (ownAction jc node) before

theorem ownEntryFor_eq_none_iff {before : List Json} {node : Json} :
    none = ownEntryFor jc zone before node ↔
      (node.isNull = false → 6 ≤ ownCount jc (ownAction jc node) before) := by
  rw [ownEntryFor]
  cases node.isNull with
  | true => simp
  | false =>
    by_cases hroom : ownCount jc (ownAction jc node) before < 6
    · simp [hroom]
    · simp [Nat.not_lt.mp hroom]

theorem allStored_iff (seen : ℕ) (action : Bool) {before : List Json} (nodes : List Json)
    (hroom : before.length < seen → SameRoom jc action before) :
    AllWithPrefix (fun before node =>
        (if before.length < seen then storedFor jc zone action before node else none) =
          ownEntryFor jc zone before node) before nodes ↔
      AllWithPrefix (GetsOwnEntry jc seen action) before nodes := by
  induction nodes generalizing before with
  | nil => exact Iff.rfl
  | cons node nodes ih =>
    rw [AllWithPrefix, AllWithPrefix]
    by_cases hseen : before.length < seen
    · rw [if_pos hseen, (hroom hseen).storedFor_eq_iff, GetsOwnEntry, if_pos hseen]
      exact and_congr_right fun hfull => ih fun _ => (hroom hseen).append jc hfull
    · have hlater : ¬(before ++ [node]).length < seen := by
        rw [List.length_append]
        omega
      rw [if_neg hseen, ownEntryFor_eq_none_iff, GetsOwnEntry, if_neg hseen]
      exact and_congr_right fun _ => ih fun h => absurd h hlater

/-- The schedule of a request is what is stored for its nodes, and every node is stored as
its own members say exactly when every node gets its own entry. -/
theorem entries_decided_by_own_node_iff (array : List Json) (action : Bool) :
    (∀ root : Json, root.member? "event-list" = some (.array array) →
        requestedSchedule jc zone root action =
          some (storedEntries jc zone array action).reduceOption) ∧
      (storedEntries jc zone array action = ownEntries jc zone array ↔
        ∀ before node after, array = before ++ node :: after →
          GetsOwnEntry jc (array.length % 2 ^ 32) action before node) := by
  refine ⟨fun root hlist => requestedSchedule_eq jc zone hlist action, ?_⟩
  have hall : AllWithPrefix (GetsOwnEntry jc (array.length % 2 ^ 32) action) [] array ↔ _ :=
    allWithPrefix_iff
  simp only [List.nil_append] at hall
  rw [storedEntries, ownEntries, mapWithPrefix_eq_iff, ← hall]
  exact allStored_iff jc zone _ action array fun _ => .inl ⟨rfl, rfl⟩

end

/-- An on-event, and an event without an action. -/
def onThenNothing : List Json := [.object [("action", .int 1)], .object []]

/-- The second event is stored as an on-event. -/
theorem second_event_takes_over :
    requestedSchedule .plain (.fixedOffset ⟨0, by decide⟩)
        (.object [("event-list", .array onThenNothing)]) false ≠
      some (ownEntries .plain (.fixedOffset ⟨0, by decide⟩) onThenNothing).reduceOption := by
  intro h
  have hactions := congrArg (Option.map (List.map PowerScheduleData.action)) h
  exact absurd hactions (by decide +kernel)

end PcatManager
