import PcatManager.ControllerCommands
import PcatManager.PmuManagerRuns

/-!
# Every command gets one reply

All callbacks push a single reply that names their command. Only the schedule callback can
fail to return, on an event list that is no array.
-/

namespace PcatManager.Controller
open JsonConversions

variable (fmt : KeyFileFormat) (js : JsonLibrary) (zone : HostZone)

/-- From `c` to `c'` one reply that names the command has been pushed to a connection, and
nothing to the others. -/
def Answers (c c' : Controller) (id : ℕ) (command : String) : Prop :=
  ∃ reply : Json, reply.member? "command" = some (.string command) ∧
    c'.connections = Function.update c.connections id
      ((c.connections id).map fun connection => connection.outputJsonPush (js.print reply))

theorem answers_outputJsonPush {c c' : Controller} (h : c'.connections = c.connections) (id : ℕ)
    (command : String) (members : List (String × Json)) :
    Answers js c (c'.outputJsonPush js id (.object (("command", .string command) :: members)))
      id command :=
  ⟨_, rfl, by rw [outputJsonPush, h]; rfl⟩

theorem answers_okReply {c c' : Controller} (h : c'.connections = c.connections) (id : ℕ)
    (command : String) (members : List (String × Json)) :
    Answers js c (c'.outputJsonPush js id (okReply command members)) id command :=
  answers_outputJsonPush js h id command _

/-- A message whose event list is no array. -/
def MalformedEventList (root : Json) : Prop :=
  ∃ list, root.member? "event-list" = some list ∧ ∀ items, list ≠ .array items

theorem requestedSchedule_eq_none_iff {jc : JsonConversions} {z : LocalZone} {root : Json}
    {action : Bool} :
    requestedSchedule jc z root action = none ↔ MalformedEventList root := by
  rw [requestedSchedule, MalformedEventList]
  cases hlist : root.member? "event-list" with
  | none => simp
  | some list => cases list <;> simp

/-- The schedule callback returns, and answers, exactly when the event list is an array or
missing. -/
theorem schedulePowerEventSetFunc_answers_iff (c : Controller) (id : ℕ) (command : String)
    (m : ControlMessage) :
    (∃ c', c.schedulePowerEventSetFunc fmt js zone id command m = some c' ∧
      Answers js c c' id command) ↔ ¬MalformedEventList m.root := by
  have hnone : requestedSchedule js.toJsonConversions zone.toLocalZone m.root m.action = none ↔
      MalformedEventList m.root := requestedSchedule_eq_none_iff
  rw [← hnone, schedulePowerEventSetFunc, Daemon.schedulePowerEventSet]
  cases requestedSchedule js.toJsonConversions zone.toLocalZone m.root m.action with
  | none => simp
  | some schedule =>
    refine iff_of_true ⟨_, rfl, ?_⟩ (Option.some_ne_none schedule)
    exact answers_okReply js rfl id command []

theorem callback_answers {name : String} {callback : Callback}
    (h : (name, callback) ∈ commandList fmt js zone) (hname : name ≠ "schedule-power-event-set")
    (c : Controller) (id : ℕ) (command : String) (m : ControlMessage) :
    ∃ c', callback c id command m = some c' ∧ Answers js c c' id command := by
  simp only [commandList, List.mem_cons, List.not_mem_nil, or_false, Prod.mk.injEq] at h
  rcases h with ⟨-, rfl⟩ | ⟨rfl, -⟩ | ⟨-, rfl⟩ | ⟨-, rfl⟩ | ⟨-, rfl⟩ | ⟨-, rfl⟩ | ⟨-, rfl⟩ |
    ⟨-, rfl⟩ | ⟨-, rfl⟩ | ⟨-, rfl⟩ | ⟨-, rfl⟩
  · exact ⟨_, rfl, answers_okReply js rfl id command _⟩
  · exact absurd rfl hname
  · exact ⟨_, rfl, answers_okReply js rfl id command _⟩
  · exact ⟨_, rfl, answers_outputJsonPush js rfl id command _⟩
  · exact ⟨_, rfl, answers_okReply js rfl id command _⟩
  · exact ⟨_, rfl, answers_okReply js rfl id command _⟩
  · exact ⟨_, rfl, answers_okReply js rfl id command _⟩
  · exact ⟨_, rfl, answers_okReply js rfl id command _⟩
  · exact ⟨_, rfl, answers_okReply js rfl id command _⟩
  · exact ⟨_, rfl, answers_okReply js rfl id command _⟩
  · exact ⟨_, rfl, answers_okReply js rfl id command _⟩

theorem mem_of_lookup {command : String} {callback : Callback}
    (h : (commandList fmt js zone).lookup command = some callback) :
    (command, callback) ∈ commandList fmt js zone := by
  obtain ⟨before, after, hlist, -⟩ := List.lookup_eq_some_iff.mp h
  rw [hlist]
  simp

theorem lookup_schedulePowerEventSet :
    (commandList fmt js zone).lookup "schedule-power-event-set" =
      some fun c id command m => c.schedulePowerEventSetFunc fmt js zone id command m := rfl

/-- The message has a command of the table. -/
def Recognised (text : List UInt8) (root : Json) (command : String) : Prop :=
  js.parse text = some root ∧ commandOf js root = some command ∧
    command ∈ (commandList fmt js zone).map Prod.fst

theorem handleText_of_recognised {text : List UInt8} {root : Json} {command : String}
    (h : Recognised fmt js zone text root command) :
    ∃ callback, (commandList fmt js zone).lookup command = some callback ∧
      ∀ (c : Controller) (id : ℕ) (action stored : Bool),
        c.handleText fmt js zone id text action stored = callback c id command ⟨root, action, stored⟩ := by
  obtain ⟨hparse, hcommand, hname⟩ := h
  cases hlookup : (commandList fmt js zone).lookup command with
  | none =>
    obtain ⟨entry, hentry, rfl⟩ := List.mem_map.mp hname
    exact absurd (beq_self_eq_true entry.1)
      (by simpa using List.lookup_eq_none_iff.mp hlookup entry hentry)
  | some callback =>
    refine ⟨callback, rfl, fun c id action stored => ?_⟩
    simp only [handleText, hparse, hcommand, hlookup]

theorem handleText_of_not_recognised {text : List UInt8}
    (h : ¬∃ root command, Recognised fmt js zone text root command) (c : Controller) (id : ℕ)
    (action stored : Bool) : c.handleText fmt js zone id text action stored = some c := by
  rw [handleText]
  cases hparse : js.parse text with
  | none => rfl
  | some root =>
    dsimp only
    cases hcommand : commandOf js root with
    | none => rfl
    | some command =>
      dsimp only
      cases hlookup : (commandList fmt js zone).lookup command with
      | none => rfl
      | some callback =>
        refine absurd ⟨root, command, hparse, hcommand, ?_⟩ h
        exact List.mem_map_of_mem (mem_of_lookup fmt js zone hlookup)

/-- The message is recognised and answered once, or it is not recognised and changes
nothing. -/
def HandledOnce (c : Controller) (id : ℕ) (text : List UInt8) (action stored : Bool) : Prop :=
  (∀ root command, Recognised fmt js zone text root command →
    ∃ c', c.handleText fmt js zone id text action stored = some c' ∧ Answers js c c' id command) ∧
  ((¬∃ root command, Recognised fmt js zone text root command) →
    c.handleText fmt js zone id text action stored = some c)

/-- A message is handled as it should exactly when it is not a schedule whose event list is
no array. -/
theorem message_handled_iff (c : Controller) (id : ℕ) (text : List UInt8) (action stored : Bool) :
    HandledOnce fmt js zone c id text action stored ↔
      ¬∃ root, js.parse text = some root ∧
        commandOf js root = some "schedule-power-event-set" ∧ MalformedEventList root := by
  have hschedule (root : Json) := schedulePowerEventSetFunc_answers_iff fmt js zone c id
    "schedule-power-event-set" ⟨root, action, stored⟩
  constructor
  · rintro ⟨hanswered, -⟩ ⟨root, hparse, hcommand, hlist⟩
    obtain ⟨c', hc', hanswers⟩ := hanswered root "schedule-power-event-set"
      ⟨hparse, hcommand, by simp [commandList]⟩
    simp only [handleText, hparse, hcommand, lookup_schedulePowerEventSet] at hc'
    exact (hschedule root).mp ⟨c', hc', hanswers⟩ hlist
  · intro hlist
    refine ⟨fun root command hrecognised => ?_, fun h =>
      handleText_of_not_recognised fmt js zone h c id action stored⟩
    obtain ⟨callback, hlookup, hhandle⟩ := handleText_of_recognised fmt js zone hrecognised
    rw [hhandle]
    by_cases hname : command = "schedule-power-event-set"
    · subst hname
      cases hlookup
      exact (hschedule root).mpr fun h => hlist ⟨root, hrecognised.1, hrecognised.2.1, h⟩
    · exact callback_answers fmt js zone (mem_of_lookup fmt js zone hlookup) hname c id command
        ⟨root, action, stored⟩

/-- A schedule request with a null event list. -/
def nullEventList : List UInt8 :=
  utf8Bytes "\x7b\"command\": \"schedule-power-event-set\", \"event-list\": null\x7d"

/-- A library that parses this text only. -/
def nullEventListLibrary : JsonLibrary where
  toJsonConversions := .plain
  parse text :=
    if text = nullEventList then
      some (.object [("command", .string "schedule-power-event-set"), ("event-list", .null)])
    else none
  print _ := ⟨[], List.not_mem_nil⟩
  text _ := ""

/-- The request aborts the daemon. -/
theorem null_event_list_aborts :
    ¬HandledOnce .decimal nullEventListLibrary
      ⟨.fixedOffset ⟨0, by decide⟩, fun t => some t⟩
      ⟨⟨.plain, .empty, []⟩, {}, .none, ConnectionTable.opened.step (.incoming 0)⟩ 0
      nullEventList false true := by
  intro h
  have hparse : nullEventListLibrary.parse nullEventList =
      some (.object [("command", .string "schedule-power-event-set"), ("event-list", .null)]) :=
    if_pos rfl
  have hcommand : commandOf nullEventListLibrary
      (.object [("command", .string "schedule-power-event-set"), ("event-list", .null)]) =
      some "schedule-power-event-set" := rfl
  obtain ⟨c', hc', -⟩ := h.1 _ _ ⟨hparse, hcommand, by simp [commandList]⟩
  simp only [handleText, hparse, hcommand, lookup_schedulePowerEventSet] at hc'
  cases hc'

end PcatManager.Controller
