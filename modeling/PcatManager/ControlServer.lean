import PcatManager.ControllerAnswers

/-!
# The control socket as its clients see it

The input buffers, the command table and the output buffers put together. The messages of all
clients work on one daemon, but what a client is answered goes to its own connection: one
reply for each of its commands, in the order in which it has sent them.
-/

namespace PcatManager
open DelimitedStream SerialReadParser ControlInput

/-- The controller at its socket. What has been received on a connection since it was made is
not part of the program. -/
structure ControlServer where
  controller : Controller
  received : ℕ → List Read

namespace ControlServer
variable (fmt : KeyFileFormat) (js : JsonLibrary) (zone : HostZone)

/-- What happens at the control socket: a client connects; the input watch of a connection
reads some bytes, or finds the connection closed or broken; an output watch or the check
timer fires. The `k`-th message of a read finds `action k` in the uninitialised variable, and
the configuration file can be written if `stored k`. Elsewhere in the process the data that
the callbacks read may change. -/
inductive Event where
  | incoming (id : ℕ)
  | read (id : ℕ) (r : Read) (action stored : ℕ → Bool)
  | inputClosed (id : ℕ)
  | outputWatch (id : ℕ) (writes : ℕ → SocketWrite) (wsize : ℤ)
  | connectionCheck
  | elsewhere (daemon : Daemon) (modem : ModemManagerData) (routeMode : RouteMode)

/-- The next message of a read. There is no controller left when a callback aborts. -/
def handleNext (id : ℕ) (action stored : ℕ → Bool) (state : Option Controller × ℕ)
    (text : List UInt8) : Option Controller × ℕ :=
  (state.1.bind fun c => c.handleText fmt js zone id text (action state.2) (stored state.2),
    state.2 + 1)

/-- What the parser leaves in the input buffer of a connection. -/
def setInputBuffer (c : Controller) (id : ℕ) (buffer : List UInt8) : Controller :=
  { c with
    connections := Function.update c.connections id
      ((c.connections id).map fun connection => { connection with inputBuffer := buffer }) }

/-- A callback that works on the table of connections only. -/
def onConnections (s : ControlServer) (e : ConnectionTable.Event) : ControlServer :=
  { s with
    controller := { s.controller with connections := s.controller.connections.step e } }

/-- One event. A watch fires only on a connection of the table. -/
def step (s : ControlServer) : Event → Option ControlServer
  | .incoming id =>
    some { s.onConnections (.incoming id) with received := Function.update s.received id [] }
  | .read id r action stored =>
    match s.controller.connections id with
    | none => some s
    | some connection =>
      let (buffer, state) := inputStep (handleNext fmt js zone id action stored)
        connection.inputBuffer (some s.controller, 0) r.bytes
      state.1.map fun controller =>
        { controller := setInputBuffer controller id buffer
          received := Function.update s.received id (s.received id ++ [r]) }
  | .inputClosed id => some (s.onConnections (.inputClosed id))
  | .outputWatch id writes wsize => some (s.onConnections (.outputWatch id writes wsize))
  | .connectionCheck => some (s.onConnections .connectionCheck)
  | .elsewhere daemon modem routeMode =>
    some
      { s with
        controller :=
          { s.controller with daemon := daemon, modem := modem, routeMode := routeMode } }

/-- The server when the socket has been opened. -/
def opened (daemon : Daemon) (modem : ModemManagerData) (routeMode : RouteMode) :
    ControlServer where
  controller := ⟨daemon, modem, routeMode, ConnectionTable.opened⟩
  received _ := []

/-- The command of a message, if the table has it. -/
def requestOf (text : List UInt8) : Option String :=
  (js.parse text).bind fun root =>
    (Controller.commandOf js root).filter fun command =>
      command ∈ (Controller.commandList fmt js zone).map Prod.fst

theorem requestOf_eq_some_iff {text : List UInt8} {command : String} :
    requestOf fmt js zone text = some command ↔
      ∃ root, Controller.Recognised fmt js zone text root command := by
  rw [requestOf, Option.bind_eq_some_iff]
  refine exists_congr fun root => and_congr_right fun _ => ?_
  rw [Option.filter_eq_some_iff, decide_eq_true_eq]

/-- The text of a reply that names the command. -/
def Names (text : CString) (command : String) : Prop :=
  ∃ reply : Json, text = js.print reply ∧ reply.member? "command" = some (.string command)

/-- From `c` to `c'` the commands have been answered on one connection, and nothing has been
pushed to the others. -/
structure Serves (c c' : Controller) (id : ℕ) (commands : List String) : Prop where
  others : ∀ k ≠ id, c'.connections k = c.connections k
  own : ∀ connection, c.connections id = some connection → ∃ replies : List CString,
    List.Forall₂ (Names js) replies commands ∧
      c'.connections id = some (replies.foldl Connection.outputJsonPush connection)

section Serves
variable {js} {c c' c'' : Controller} {id : ℕ}

theorem Serves.refl (c : Controller) (id : ℕ) : Serves js c c id [] where
  others _ _ := rfl
  own _ h := ⟨[], .nil, h⟩

theorem Serves.trans {commands commands' : List String} (h : Serves js c c' id commands)
    (h' : Serves js c' c'' id commands') : Serves js c c'' id (commands ++ commands') where
  others k hk := (h'.others k hk).trans (h.others k hk)
  own connection hconnection := by
    obtain ⟨replies, hnames, hown⟩ := h.own connection hconnection
    obtain ⟨replies', hnames', hown'⟩ := h'.own _ hown
    refine ⟨replies ++ replies', List.rel_append hnames hnames', ?_⟩
    rw [hown', List.foldl_append]

theorem pushed_outputJsonPush (connection : Connection) (text : CString) :
    (connection.outputJsonPush text).pushed = connection.pushed ++ [text] := by
  rw [Connection.outputJsonPush, Connection.createOutputSource_append]
  split <;> rfl

theorem pushed_foldl (connection : Connection) (replies : List CString) :
    (replies.foldl Connection.outputJsonPush connection).pushed = connection.pushed ++ replies := by
  induction replies generalizing connection with
  | nil => exact (List.append_nil _).symm
  | cons text replies ih =>
    rw [List.foldl_cons, ih, pushed_outputJsonPush, List.append_assoc, List.singleton_append]

theorem Serves.of_answers {command : String} (h : Controller.Answers js c c' id command) :
    Serves js c c' id [command] := by
  obtain ⟨reply, hname, hconnections⟩ := h
  refine ⟨fun k hk => ?_, fun connection hconnection => ?_⟩
  · rw [hconnections, Function.update_of_ne hk]
  · refine ⟨[js.print reply], .cons ⟨reply, rfl, hname⟩ .nil, ?_⟩
    rw [hconnections, Function.update_self, hconnection]
    rfl

/-- A message is answered if the table has its command, else it changes nothing. -/
theorem serves_handleText {text : List UInt8} {action stored : Bool}
    (h : c.handleText fmt js zone id text action stored = some c') :
    Serves js c c' id (requestOf fmt js zone text).toList := by
  cases hrequest : requestOf fmt js zone text with
  | none =>
    have hunknown : ¬∃ root command, Controller.Recognised fmt js zone text root command := by
      rintro ⟨root, command, hrecognised⟩
      have hknown := (requestOf_eq_some_iff fmt js zone).mpr ⟨root, hrecognised⟩
      rw [hrequest] at hknown
      cases hknown
    rw [Controller.handleText_of_not_recognised fmt js zone hunknown] at h
    cases h
    exact .refl c id
  | some command =>
    obtain ⟨root, hrecognised⟩ := (requestOf_eq_some_iff fmt js zone).mp hrequest
    obtain ⟨callback, hlookup, hhandle⟩ :=
      Controller.handleText_of_recognised fmt js zone hrecognised
    rw [hhandle] at h
    apply Serves.of_answers
    by_cases hname : command = "schedule-power-event-set"
    · subst hname
      cases hlookup
      obtain ⟨daemon, -, rfl⟩ := Option.map_eq_some_iff.mp h
      exact Controller.answers_okReply js rfl id _ []
    · obtain ⟨c₁, hc₁, hanswers⟩ := Controller.callback_answers fmt js zone
        (Controller.mem_of_lookup fmt js zone hlookup) hname c id command ⟨root, action, stored⟩
      rw [hc₁] at h
      cases h
      exact hanswers

theorem foldl_handleNext_none {action stored : ℕ → Bool} (texts : List (List UInt8)) (k : ℕ) :
    (texts.foldl (handleNext fmt js zone id action stored) (none, k)).1 = none := by
  induction texts generalizing k with
  | nil => rfl
  | cons text texts ih => exact ih (k + 1)

theorem serves_foldl {action stored : ℕ → Bool} (texts : List (List UInt8)) (k : ℕ)
    (h : (texts.foldl (handleNext fmt js zone id action stored) (some c, k)).1 = some c') :
    Serves js c c' id (texts.filterMap (requestOf fmt js zone)) := by
  induction texts generalizing c k with
  | nil =>
    cases h
    exact .refl _ id
  | cons text texts ih =>
    rw [List.foldl_cons, handleNext, Option.bind_some] at h
    cases hfirst : c.handleText fmt js zone id text (action k) (stored k) with
    | none =>
      rw [hfirst, foldl_handleNext_none] at h
      cases h
    | some c₁ =>
      rw [hfirst] at h
      have hserved := (serves_handleText fmt zone hfirst).trans (ih (k + 1) h)
      cases hrequest : requestOf fmt js zone text with
      | none =>
        rw [hrequest] at hserved
        rwa [List.filterMap_cons_none hrequest]
      | some command =>
        rw [hrequest] at hserved
        rwa [List.filterMap_cons_some hrequest]

end Serves

/-- The connection has got one reply for each command received on it, in their order, and its
input buffer holds what the parser has left. -/
structure Session (s : ControlServer) (id : ℕ) (connection : Connection) : Prop where
  inputBuffer : connection.inputBuffer = inputBufferAfter (s.received id)
  pushed : List.Forall₂ (Names js) connection.pushed
    ((handedTexts (s.received id)).filterMap (requestOf fmt js zone))

/-- Every connection of the table is in such a session. -/
def InSession (s : ControlServer) : Prop :=
  ∀ id connection, s.controller.connections id = some connection →
    Session fmt js zone s id connection

theorem inSession_opened (daemon : Daemon) (modem : ModemManagerData) (routeMode : RouteMode) :
    InSession fmt js zone (opened daemon modem routeMode) := by
  intro id connection h
  cases h

section Session
variable {fmt js zone} {s s' : ControlServer} {id : ℕ} {connection : Connection}

/-- A session depends on what the parser has been given and on what has been pushed. -/
theorem Session.congr {connection' : Connection} (h : Session fmt js zone s id connection)
    (hreceived : s'.received id = s.received id)
    (hinput : connection'.inputBuffer = connection.inputBuffer)
    (hpushed : connection'.pushed = connection.pushed) :
    Session fmt js zone s' id connection' := by
  refine ⟨?_, ?_⟩
  · rw [hinput, hreceived]
    exact h.inputBuffer
  · rw [hpushed, hreceived]
    exact h.pushed

theorem kept_outputWatchFunc {connection' : Connection} {writes : ℕ → SocketWrite} {wsize : ℤ}
    (h : connection.outputWatchFunc writes wsize = some connection') :
    connection'.inputBuffer = connection.inputBuffer ∧
      connection'.pushed = connection.pushed := by
  rw [Connection.outputWatchFunc] at h
  cases hwrite : connection.outputWrite writes wsize with
  | none =>
    rw [hwrite] at h
    cases h
    exact ⟨rfl, rfl⟩
  | some result =>
    obtain ⟨total, wsize', error, attempts⟩ := result
    rw [hwrite] at h
    dsimp only at h
    generalize hwritten : (if 0 < total then connection.removeWritten total else connection) =
      written at h
    have hkept : written.inputBuffer = connection.inputBuffer ∧
        written.pushed = connection.pushed := by
      rw [← hwritten]
      split <;> exact ⟨rfl, rfl⟩
    cases error with
    | none =>
      dsimp only at h
      split at h
      · cases h
      · cases h
        exact hkept
    | some error =>
      cases error <;> cases h
      exact hkept

/-- One more read hands over further messages, whatever is done with them. -/
theorem exists_texts_read (reads : List Read) (r : Read) : ∃ texts,
    handedTexts (reads ++ [r]) = handedTexts reads ++ texts ∧
      ∀ {σ : Type} (handle : σ → List UInt8 → σ) (state : σ),
        inputStep handle (inputBufferAfter reads) state r.bytes =
          (inputBufferAfter (reads ++ [r]), texts.foldl handle state) := by
  have hsnoc {σ : Type} (handle : σ → List UInt8 → σ) (state : σ) :
      inputRun handle [] state (reads ++ [r]) =
        inputStep handle (inputBufferAfter reads) ((handedTexts reads).foldl handle state)
          r.bytes := by
    rw [inputRun, List.foldl_append, List.foldl_cons, List.foldl_nil, ← inputRun,
      inputRun_handedTexts]
  have hspec {σ : Type} (handle : σ → List UInt8 → σ) (state : σ) :=
    inputParse_spec handle (trimmed 2097152 1048576 (inputBufferAfter reads) ++ r.bytes) state
  have hbuffer : inputBufferAfter (reads ++ [r]) =
      tail 0 (trimmed 2097152 1048576 (inputBufferAfter reads) ++ r.bytes) := by
    rw [inputBufferAfter, hsnoc]
    exact congrArg Prod.fst (hspec _ _)
  refine ⟨nonempty (segments 0 (trimmed 2097152 1048576 (inputBufferAfter reads) ++ r.bytes)),
    ?_, fun handle state => ?_⟩
  · rw [handedTexts, hsnoc, foldl_snoc, List.nil_append]
    refine (congrArg Prod.snd (hspec _ _)).trans ?_
    rw [foldl_snoc]
  · rw [hbuffer]
    exact hspec handle state

theorem inSession_read {r : Read} {action stored : ℕ → Bool} (h : InSession fmt js zone s)
    (hstep : step fmt js zone s (.read id r action stored) = some s') :
    InSession fmt js zone s' := by
  rw [step] at hstep
  cases hconnection : s.controller.connections id with
  | none =>
    rw [hconnection] at hstep
    cases hstep
    exact h
  | some connection =>
    have hsession := h id connection hconnection
    obtain ⟨texts, htexts, hinput⟩ := exists_texts_read (s.received id) r
    rw [hconnection] at hstep
    dsimp only at hstep
    rw [hsession.inputBuffer, hinput] at hstep
    obtain ⟨controller, hcontroller, rfl⟩ := Option.map_eq_some_iff.mp hstep
    have hserves := serves_foldl fmt zone texts 0 hcontroller
    intro k connection' hk
    by_cases hid : k = id
    · subst hid
      obtain ⟨replies, hnames, hserved⟩ := hserves.own connection hconnection
      simp only [setInputBuffer, hserved, Function.update_self, Option.map_some,
        Option.some.injEq] at hk
      subst hk
      refine ⟨?_, ?_⟩
      · simp only [Function.update_self]
      · simp only [Function.update_self]
        rw [htexts, List.filterMap_append, pushed_foldl]
        exact List.rel_append hsession.pushed hnames
    · simp only [setInputBuffer, Function.update_of_ne hid] at hk
      rw [hserves.others k hid] at hk
      apply (h k connection' hk).congr
      · exact Function.update_of_ne hid _ _
      · rfl
      · rfl

theorem inSession_step {e : Event} (h : InSession fmt js zone s)
    (hstep : step fmt js zone s e = some s') : InSession fmt js zone s' := by
  cases e with
  | read id r action stored => exact inSession_read h hstep
  | incoming id =>
    cases hstep
    intro k connection hk
    by_cases hid : k = id
    · subst hid
      change Function.update s.controller.connections k (some {}) k = some connection at hk
      rw [Function.update_self] at hk
      cases hk
      refine ⟨?_, ?_⟩
      · simp only [Function.update_self]
        rfl
      · simp only [Function.update_self]
        exact .nil
    · change Function.update s.controller.connections id (some {}) k = some connection at hk
      rw [Function.update_of_ne hid] at hk
      apply (h k connection hk).congr
      · exact Function.update_of_ne hid _ _
      · rfl
      · rfl
  | inputClosed id =>
    cases hstep
    intro k connection hk
    obtain ⟨-, hnone⟩ | hsame := ConnectionTable.update_eq_some hk
    · cases hnone
    · exact (h k connection hsame).congr rfl rfl rfl
  | outputWatch id writes wsize =>
    cases hstep
    intro k connection hk
    obtain ⟨rfl, hwatch⟩ | hsame := ConnectionTable.update_eq_some hk
    · obtain ⟨before, hbefore, hwatch⟩ := Option.bind_eq_some_iff.mp hwatch
      split at hwatch
      · obtain ⟨hinput, hpushed⟩ := kept_outputWatchFunc hwatch
        exact (h _ before hbefore).congr rfl hinput hpushed
      · cases hwatch
        exact (h _ _ hbefore).congr rfl rfl rfl
    · exact (h k connection hsame).congr rfl rfl rfl
  | connectionCheck =>
    cases hstep
    intro k connection hk
    obtain ⟨before, hbefore, rfl⟩ := Option.map_eq_some_iff.mp hk
    have hkept : before.check.inputBuffer = before.inputBuffer ∧
        before.check.pushed = before.pushed := by
      rw [Connection.check]
      split <;> exact ⟨rfl, rfl⟩
    exact (h k before hbefore).congr rfl hkept.1 hkept.2
  | elsewhere daemon modem routeMode =>
    cases hstep
    exact fun k connection hk => (h k connection hk).congr rfl rfl rfl

theorem inSession_run {events : List Event} (h : InSession fmt js zone s)
    (hrun : events.foldlM (step fmt js zone) s = some s') : InSession fmt js zone s' := by
  induction events generalizing s with
  | nil =>
    cases hrun
    exact h
  | cons e events ih =>
    rw [List.foldlM_cons] at hrun
    obtain ⟨s₁, hstep, hrest⟩ := Option.bind_eq_some_iff.mp hrun
    exact ih (inSession_step h hstep) hrest

end Session

/-- Texts within the limit are handed over as the NUL bytes of the stream separate them. -/
theorem handedTexts_of_limit {reads : List Read}
    (hlimit : ∀ seg ∈ (streamOf reads).splitOn 0, seg.length ≤ 2097152) :
    handedTexts reads = ((streamOf reads).splitOn 0).dropLast.filter (· ≠ []) := by
  have hwithin : WithinLimit 0 2097152 [] (reads.map Read.bytes) := withinLimit_of_segments hlimit
  have hfeed : boundedFeed 0 2097152 1048576 [] (reads.map Read.bytes) =
      (segments 0 (streamOf reads), tail 0 (streamOf reads)) :=
    boundedFeed_eq List.not_mem_nil hwithin
  rw [handedTexts_eq, hfeed]
  rfl

/-- However the streams of the clients are cut into reads and mixed with each other, and
whatever else happens in the process: as long as no callback has aborted, each connection has
been pushed one reply for each command of its own stream, in their order, and nothing else. -/
theorem session_replies (daemon : Daemon) (modem : ModemManagerData) (routeMode : RouteMode)
    (events : List Event) {s : ControlServer}
    (hrun : events.foldlM (step fmt js zone) (opened daemon modem routeMode) = some s) {id : ℕ}
    {connection : Connection} (hconnection : s.controller.connections id = some connection)
    (hlimit : ∀ seg ∈ (streamOf (s.received id)).splitOn 0, seg.length ≤ 2097152) :
    List.Forall₂ (Names js) connection.pushed
      ((((streamOf (s.received id)).splitOn 0).dropLast.filter (· ≠ [])).filterMap
        (requestOf fmt js zone)) := by
  have hsession := inSession_run (inSession_opened fmt js zone daemon modem routeMode) hrun
    id connection hconnection
  rw [← handedTexts_of_limit hlimit]
  exact hsession.pushed

end ControlServer

/-- A string between quotation marks, as `json_object_to_json_string` writes it if it holds no
control characters. -/
def Json.quoted (s : String) : List UInt8 :=
  utf8Bytes "\"" ++
    ((utf8Bytes s).flatMap fun c => if c = 34 ∨ c = 92 ∨ c = 47 then [92, c] else [c]) ++
    utf8Bytes "\""

/-- The parts of an array or an object between its brackets. -/
def Json.bracketed (opening closing : String) (parts : List (List UInt8)) : List UInt8 :=
  utf8Bytes opening ++ utf8Bytes " " ++ (utf8Bytes ", ").intercalate parts ++ utf8Bytes " " ++
    utf8Bytes closing

mutual

/-- The text of a JSON value. -/
def Json.printed : Json → List UInt8
  | .null => utf8Bytes "null"
  | .bool b => utf8Bytes (toString b)
  | .int n => utf8Bytes (toString n)
  | .double text => utf8Bytes text
  | .string s => Json.quoted s
  | .array items => Json.bracketed "[" "]" (Json.printedItems items)
  | .object members => Json.bracketed "\x7b" "\x7d" (Json.printedMembers members)

def Json.printedItems : List Json → List (List UInt8)
  | [] => []
  | item :: items => item.printed :: Json.printedItems items

def Json.printedMembers : List (String × Json) → List (List UInt8)
  | [] => []
  | (key, value) :: members =>
    (Json.quoted key ++ utf8Bytes ": " ++ value.printed) :: Json.printedMembers members

end

/-- The string that some bytes begin with. -/
def CString.upTo (bytes : List UInt8) : CString :=
  ⟨bytes.takeWhile (· ≠ 0), fun h => by simpa using List.mem_takeWhile_imp h⟩

/-- A library that knows the texts of some messages. -/
def messageLibrary (messages : List (List UInt8 × Json)) : JsonLibrary where
  toJsonConversions := .plain
  parse text := messages.lookup text
  print json := .upTo json.printed
  text bytes := String.ofList (bytes.map fun c => Char.ofNat c.toNat)

namespace ControlServer

/-- A client asks for the route mode. -/
def routeModeText : List UInt8 := utf8Bytes "\x7b\"command\":\"network-route-mode-get\"\x7d"

def routeModeLibrary : JsonLibrary :=
  messageLibrary [(routeModeText, .object [("command", .string "network-route-mode-get")])]

/-- Two clients whose bytes arrive in turns. -/
def twoClients : List Event :=
  [.incoming 0, .incoming 1,
    .read 0 ⟨routeModeText.take 9, by decide +kernel, by decide +kernel⟩ (fun _ => false) fun _ => true,
    .read 1 ⟨routeModeText ++ 0 :: routeModeText, by decide +kernel, by decide +kernel⟩
      (fun _ => false) fun _ => true,
    .read 0 ⟨routeModeText.drop 9 ++ [0, 0, 120, 0], by decide +kernel, by decide +kernel⟩
      (fun _ => false) fun _ => true]

def utcZone : HostZone := ⟨.fixedOffset ⟨0, by decide⟩, some⟩

theorem session_replies_twoClients : ∃ s connection,
    twoClients.foldlM (step .decimal routeModeLibrary utcZone)
      (opened ⟨.plain, .empty, []⟩ {} .none) = some s ∧
    s.controller.connections 0 = some connection ∧
    streamOf (s.received 0) = routeModeText ++ [0, 0, 120, 0] ∧
    List.Forall₂ (Names routeModeLibrary) connection.pushed
      ((((streamOf (s.received 0)).splitOn 0).dropLast.filter (· ≠ [])).filterMap
        (requestOf .decimal routeModeLibrary utcZone)) := by
  have hseen : ((twoClients.foldlM (step .decimal routeModeLibrary utcZone)
      (opened ⟨.plain, .empty, []⟩ {} .none)).bind fun s =>
        (s.controller.connections 0).map fun _ => streamOf (s.received 0)) =
      some (routeModeText ++ [0, 0, 120, 0]) := by decide +kernel
  obtain ⟨s, hrun, hconnected⟩ := Option.bind_eq_some_iff.mp hseen
  obtain ⟨connection, hconnection, hstream⟩ := Option.map_eq_some_iff.mp hconnected
  refine ⟨s, connection, hrun, hconnection, hstream, ?_⟩
  refine session_replies .decimal routeModeLibrary utcZone ⟨.plain, .empty, []⟩ {} .none
    twoClients hrun hconnection ?_
  rw [hstream]
  decide +kernel

end ControlServer
end PcatManager
