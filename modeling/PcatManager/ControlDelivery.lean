import PcatManager.ControlReplies
import PcatManager.ControlSettings

/-!
# What a client gets

The way from the bytes that a client sends to the bytes that it gets back. As long as the
replies of an event fit into the output buffer, the client that splits what it gets at the
NUL bytes finds one reply for each of its commands, in their order.
-/

namespace PcatManager
open DelimitedStream SerialReadParser ControlInput GuardedRun

theorem segments_replyStream (replies : List CString) :
    segments 0 (replyStream replies) = replies.map CString.bytes := by
  induction replies with
  | nil => rfl
  | cons text replies ih =>
    rw [replyStream_cons, CString.stored, List.append_assoc, List.singleton_append,
      segments_append_cons text.noNul, ih, List.map_cons]

namespace Connection
variable {c c' : Connection}

/-- Nothing of the replies has been lost: what the socket has not accepted is in the output
buffer, and the output watch will write it. -/
structure Delivered (c : Connection) : Prop where
  sourceMatches : c.SourceMatches
  stream : c.accepted ++ c.outputBuffer = replyStream c.pushed

theorem delivered_new : Delivered {} :=
  ⟨iff_of_false Bool.false_ne_true (not_not.mpr rfl), rfl⟩

theorem Delivered.outputJsonPush (h : c.Delivered) (hroom : c.outputBuffer.length ≤ 2097152)
    (text : CString) :
    (c.outputJsonPush text).Delivered ∧
      (c.outputJsonPush text).outputBuffer = c.outputBuffer ++ text.stored := by
  rw [Connection.outputJsonPush, if_neg (Nat.not_lt.mpr hroom)]
  refine ⟨⟨sourceMatches_append c text, ?_⟩, ?_⟩
  · rw [createOutputSource_append]
    change c.accepted ++ (c.outputBuffer ++ text.stored) = replyStream (c.pushed ++ [text])
    rw [← List.append_assoc, h.stream, replyStream_append, replyStream_cons, replyStream_nil,
      List.append_nil]
  · rw [createOutputSource_append]
    rfl

/-- Replies that fit into the output buffer together are all put there. -/
theorem Delivered.foldl {replies : List CString} (h : c.Delivered)
    (hroom : c.outputBuffer.length + (replyStream replies).length ≤ 2097152) :
    (replies.foldl Connection.outputJsonPush c).Delivered := by
  induction replies generalizing c with
  | nil => exact h
  | cons text replies ih =>
    rw [replyStream_cons, List.length_append] at hroom
    obtain ⟨hpushed, hbuffer⟩ := h.outputJsonPush (by omega) text
    apply ih hpushed
    rw [hbuffer, List.length_append]
    omega

theorem Delivered.outputWatch (h : c.Delivered) (hsource : c.outputStreamSource = true)
    {writes : ℕ → SocketWrite} {wsize : ℤ} (hwatch : c.outputWatchFunc writes wsize = some c') :
    c'.Delivered := by
  refine ⟨h.sourceMatches.outputWatch hsource hwatch, ?_⟩
  obtain hnone | ⟨total, -, hpart⟩ | hall :=
    outputWatchFunc_cases (h.sourceMatches.mp hsource) writes wsize
  · rw [hnone] at hwatch
    cases hwatch
  · rw [hpart] at hwatch
    cases hwatch
    exact (removeWritten_bytes c total).trans h.stream
  · rw [hall] at hwatch
    cases hwatch
    exact (removeWritten_bytes c c.outputBuffer.length).trans h.stream

theorem Delivered.setInput (h : c.Delivered) (buffer : List UInt8) :
    { c with inputBuffer := buffer }.Delivered := ⟨h.sourceMatches, h.stream⟩

end Connection

namespace ControlServer
variable (fmt : KeyFileFormat) (js : JsonLibrary) (zone : HostZone)

/-- What an event pushes to a connection fits into its output buffer. -/
def Fits (s : ControlServer) (e : Event) : Prop :=
  ∀ id c c', s.controller.connections id = some c →
    (next fmt js zone s e).controller.connections id = some c' →
      c.outputBuffer.length + (replyStream c'.pushed).length ≤
        2097152 + (replyStream c.pushed).length

/-- Nothing of the replies has been lost on any connection. -/
def AllDelivered (s : ControlServer) : Prop :=
  ∀ id c, s.controller.connections id = some c → c.Delivered

section Runs
variable {fmt js zone} {s s' : ControlServer}

theorem next_of_step {e : Event} (hstep : step fmt js zone s e = some s') :
    next fmt js zone s e = s' := by rw [next, hstep, Option.getD_some]

theorem connections_read_of_ne {id k : ℕ} {r : Read} {action stored : ℕ → Bool} (hid : k ≠ id)
    (hstep : step fmt js zone s (.read id r action stored) = some s') :
    s'.controller.connections k = s.controller.connections k := by
  rw [step] at hstep
  cases hconnection : s.controller.connections id with
  | none =>
    rw [hconnection] at hstep
    cases hstep
    rfl
  | some connection =>
    rw [hconnection] at hstep
    dsimp only at hstep
    rw [inputStep, inputParse_spec] at hstep
    obtain ⟨controller, hcontroller, rfl⟩ := Option.map_eq_some_iff.mp hstep
    exact (Function.update_of_ne hid _ _).trans ((serves_foldl fmt zone _ 0 hcontroller).others k hid)

theorem connections_next_of_ne {id k : ℕ} {r : Read} {action stored : ℕ → Bool} (hid : k ≠ id) :
    (next fmt js zone s (.read id r action stored)).controller.connections k =
      s.controller.connections k := by
  rw [next]
  cases hstep : step fmt js zone s (.read id r action stored) with
  | none => rfl
  | some s' => exact connections_read_of_ne hid hstep

theorem allDelivered_read {id : ℕ} {r : Read} {action stored : ℕ → Bool} (h : s.AllDelivered)
    (hfits : Fits fmt js zone s (.read id r action stored))
    (hstep : step fmt js zone s (.read id r action stored) = some s') : s'.AllDelivered := by
  intro k c' hc'
  by_cases hid : k = id
  · subst hid
    have hnext := next_of_step hstep
    rw [step] at hstep
    cases hconnection : s.controller.connections k with
    | none =>
      rw [hconnection] at hstep
      cases hstep
      rw [hconnection] at hc'
      cases hc'
    | some connection =>
      rw [hconnection] at hstep
      dsimp only at hstep
      rw [inputStep, inputParse_spec] at hstep
      obtain ⟨controller, hcontroller, rfl⟩ := Option.map_eq_some_iff.mp hstep
      obtain ⟨replies, -, hserved⟩ :=
        (serves_foldl fmt zone _ 0 hcontroller).own connection hconnection
      have hroom := hfits k connection c' hconnection (by rw [hnext]; exact hc')
      simp only [setInputBuffer, hserved, Function.update_self, Option.map_some,
        Option.some.injEq] at hc'
      subst hc'
      dsimp only at hroom
      rw [pushed_foldl, replyStream_append, List.length_append] at hroom
      apply Connection.Delivered.setInput
      apply (h k connection hconnection).foldl
      omega
  · rw [connections_read_of_ne hid hstep] at hc'
    exact h k c' hc'

theorem allDelivered_step {e : Event} (h : s.AllDelivered) (hfits : Fits fmt js zone s e)
    (hstep : step fmt js zone s e = some s') : s'.AllDelivered := by
  cases e with
  | read id r action stored => exact allDelivered_read h hfits hstep
  | incoming id =>
    cases hstep
    intro k c' hc'
    obtain ⟨-, hnew⟩ | hsame := ConnectionTable.update_eq_some hc'
    · cases hnew
      exact Connection.delivered_new
    · exact h k c' hsame
  | inputClosed id =>
    cases hstep
    intro k c' hc'
    obtain ⟨-, hnone⟩ | hsame := ConnectionTable.update_eq_some hc'
    · cases hnone
    · exact h k c' hsame
  | outputWatch id writes wsize =>
    cases hstep
    intro k c' hc'
    obtain ⟨rfl, hwatch⟩ | hsame := ConnectionTable.update_eq_some hc'
    · obtain ⟨c, hc, hwatch⟩ := Option.bind_eq_some_iff.mp hwatch
      split at hwatch
      · rename_i hsource
        exact (h _ c hc).outputWatch hsource hwatch
      · cases hwatch
        exact h _ _ hc
    · exact h k c' hsame
  | connectionCheck =>
    cases hstep
    intro k c' hc'
    obtain ⟨c, hc, rfl⟩ := Option.map_eq_some_iff.mp hc'
    have hdelivered := h k c hc
    rwa [hdelivered.sourceMatches.check]
  | elsewhere daemon modem routeMode =>
    cases hstep
    exact h

theorem allDelivered_run {events : List Event} (h : s.AllDelivered)
    (hfits : Along (next fmt js zone) (Fits fmt js zone) s events)
    (hrun : events.foldlM (step fmt js zone) s = some s') : s'.AllDelivered := by
  induction events generalizing s with
  | nil =>
    cases hrun
    exact h
  | cons e events ih =>
    rw [List.foldlM_cons] at hrun
    obtain ⟨s₁, hstep, hrest⟩ := Option.bind_eq_some_iff.mp hrun
    obtain ⟨hfirst, hlater⟩ := hfits
    rw [next_of_step hstep] at hlater
    exact ih (allDelivered_step h hfirst hstep) hlater hrest

end Runs

/-- A client that splits what it gets at the NUL bytes finds replies to its commands, in
their order; and once the output watch has gone it has got all of them. -/
theorem session_delivered (daemon : Daemon) (modem : ModemManagerData) (routeMode : RouteMode)
    (events : List Event) {s : ControlServer}
    (hrun : events.foldlM (step fmt js zone) (opened daemon modem routeMode) = some s)
    (hfits : Along (next fmt js zone) (Fits fmt js zone) (opened daemon modem routeMode) events)
    {id : ℕ} {connection : Connection} (hconnection : s.controller.connections id = some connection)
    (hlimit : ∀ seg ∈ (streamOf (s.received id)).splitOn 0, seg.length ≤ 2097152) :
    ∃ replies : List CString,
      List.Forall₂ (Names js) replies
        ((((streamOf (s.received id)).splitOn 0).dropLast.filter (· ≠ [])).filterMap
          (requestOf fmt js zone)) ∧
      segments 0 connection.accepted <+: replies.map CString.bytes ∧
      (connection.outputStreamSource = false →
        segments 0 connection.accepted = replies.map CString.bytes) := by
  have hsession := inSession_run (inSession_opened fmt js zone daemon modem routeMode) hrun
    id connection hconnection
  have hdelivered := allDelivered_run (fun _ _ h => by cases h) hfits hrun id connection hconnection
  have hstream : segments 0 (connection.accepted ++ connection.outputBuffer) =
      connection.pushed.map CString.bytes := by
    rw [hdelivered.stream, segments_replyStream]
  rw [← handedTexts_of_limit hlimit]
  refine ⟨connection.pushed, hsession.pushed, ?_, fun hgone => ?_⟩
  · rw [← hstream, segments_append]
    exact List.prefix_append _ _
  · have hbuffer : connection.outputBuffer = [] := by
      by_contra hpending
      rw [hdelivered.sourceMatches.mpr hpending] at hgone
      cases hgone
    rw [← hstream, hbuffer, List.append_nil]

/-- One client that asks twice; the socket takes a part of the replies, then the rest. -/
def oneClient : List Event :=
  [.incoming 0,
    .read 0 ⟨routeModeText ++ 0 :: routeModeText ++ [0], by decide +kernel, by decide +kernel⟩
      (fun _ => false) fun _ => true,
    .outputWatch 0 (fun attempt => if attempt = 0 then .written 100 else .written 4096) 0]

theorem fits_of_first {s : ControlServer} {e : Event}
    (hother : ∀ id ≠ 0, s.controller.connections id = none)
    (hfirst : ∀ c ∈ s.controller.connections 0,
      ∀ c' ∈ (next fmt js zone s e).controller.connections 0,
        c.outputBuffer.length + (replyStream c'.pushed).length ≤
          2097152 + (replyStream c.pushed).length) : Fits fmt js zone s e := by
  intro id c c' hc hc'
  by_cases hid : id = 0
  · subst hid
    exact hfirst c hc c' hc'
  · rw [hother id hid] at hc
    cases hc

theorem fits_oneClient : Along (next .decimal routeModeLibrary utcZone)
    (Fits .decimal routeModeLibrary utcZone) (opened ⟨.plain, .empty, []⟩ {} .none) oneClient := by
  have hother {id : ℕ} (hid : id ≠ 0) (entry : Option Connection) :
      Function.update ConnectionTable.opened 0 entry id = none :=
    Function.update_of_ne hid _ _
  refine ⟨fits_of_first _ _ _ (fun _ _ => rfl) (by decide +kernel),
    fits_of_first _ _ _ (fun id hid => hother hid _) (by decide +kernel),
    fits_of_first _ _ _ (fun id hid => ?_) (by decide +kernel), trivial⟩
  rw [connections_next_of_ne hid]
  exact hother hid _

/-- The reply to the client. -/
def routeModeReply : List UInt8 :=
  utf8Bytes "\x7b \"command\": \"network-route-mode-get\", \"code\": 0, \"mode\": \"none\" \x7d"

theorem session_delivered_oneClient : ∃ s connection,
    oneClient.foldlM (step .decimal routeModeLibrary utcZone)
      (opened ⟨.plain, .empty, []⟩ {} .none) = some s ∧
    s.controller.connections 0 = some connection ∧
    connection.accepted = routeModeReply ++ 0 :: routeModeReply ++ [0] ∧
    ∃ replies : List CString,
      List.Forall₂ (Names routeModeLibrary) replies
        ((((streamOf (s.received 0)).splitOn 0).dropLast.filter (· ≠ [])).filterMap
          (requestOf .decimal routeModeLibrary utcZone)) ∧
      segments 0 connection.accepted <+: replies.map CString.bytes ∧
      (connection.outputStreamSource = false →
        segments 0 connection.accepted = replies.map CString.bytes) := by
  have hseen : ((oneClient.foldlM (step .decimal routeModeLibrary utcZone)
      (opened ⟨.plain, .empty, []⟩ {} .none)).bind fun s =>
        (s.controller.connections 0).map fun c => (streamOf (s.received 0), c.accepted)) =
      some (routeModeText ++ 0 :: routeModeText ++ [0],
        routeModeReply ++ 0 :: routeModeReply ++ [0]) := by decide +kernel
  obtain ⟨s, hrun, hconnected⟩ := Option.bind_eq_some_iff.mp hseen
  obtain ⟨connection, hconnection, hends⟩ := Option.map_eq_some_iff.mp hconnected
  obtain ⟨hstream, haccepted⟩ := Prod.mk.inj hends
  refine ⟨s, connection, hrun, hconnection, haccepted, ?_⟩
  refine session_delivered .decimal routeModeLibrary utcZone ⟨.plain, .empty, []⟩ {} .none oneClient
    hrun fits_oneClient hconnection ?_
  rw [hstream]
  decide +kernel

end ControlServer
end PcatManager
