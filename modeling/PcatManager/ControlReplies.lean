import PcatManager.ControlSocket

/-!
# Whole replies

What the client's socket has accepted, followed by the output buffer, is a sequence of whole
replies as long as the limit of the output buffer never strikes inside a reply.
-/

namespace PcatManager

/-- Bytes that end where a reply ends. -/
def AtReplyBoundary (accepted : List UInt8) : Prop := ∀ b ∈ accepted.getLast?, b = 0

instance (accepted : List UInt8) : Decidable (AtReplyBoundary accepted) :=
  inferInstanceAs (Decidable (∀ b ∈ accepted.getLast?, b = 0))

/-- Replies one after the other. -/
def replyStream (replies : List CString) : List UInt8 := (replies.map CString.stored).flatten

@[simp] theorem replyStream_nil : replyStream [] = [] := rfl

@[simp] theorem replyStream_cons (text : CString) (replies : List CString) :
    replyStream (text :: replies) = text.stored ++ replyStream replies := rfl

@[simp] theorem replyStream_append (replies replies' : List CString) :
    replyStream (replies ++ replies') = replyStream replies ++ replyStream replies' := by
  simp [replyStream]

/-- A beginning of a reply ends where a reply ends only if it is empty or all of it. -/
theorem AtReplyBoundary.eq_nil {text : CString} {front back : List UInt8}
    (hfront : AtReplyBoundary front) (h : text.stored = front ++ back) :
    front = [] ∨ back = [] := by
  rcases List.eq_nil_or_concat back with rfl | ⟨back, b, rfl⟩
  · exact .inr rfl
  · rcases List.eq_nil_or_concat front with rfl | ⟨front, a, rfl⟩
    · exact .inl rfl
    · have ha : a = 0 := hfront a (by simp)
      have hbytes : text.bytes = front.concat a ++ back := by
        have hconcat : text.bytes ++ [0] = (front.concat a ++ back) ++ [b] := by
          rw [List.append_assoc, ← (List.concat_eq_append : back.concat b = back ++ [b])]
          exact h
        exact (List.append_inj' hconcat rfl).1
      refine absurd ?_ text.noNul
      rw [hbytes, ha]
      simp

/-- A beginning of a stream of replies that ends where a reply ends is a stream of replies. -/
theorem AtReplyBoundary.split {front back : List UInt8} {replies : List CString}
    (hfront : AtReplyBoundary front) (h : front ++ back = replyStream replies) :
    ∃ before after, replies = before ++ after ∧ front = replyStream before := by
  induction replies generalizing front with
  | nil => exact ⟨[], [], rfl, (List.append_eq_nil_iff.mp h).1⟩
  | cons text replies ih =>
    rw [replyStream_cons, List.append_eq_append_iff] at h
    obtain ⟨more, htext, hback⟩ | ⟨more, hmore, hrest⟩ := h
    · obtain rfl | rfl := hfront.eq_nil htext
      · exact ⟨[], text :: replies, rfl, rfl⟩
      · rw [List.append_nil] at htext
        exact ⟨[text], replies, rfl, by simp [htext]⟩
    · have hlater : AtReplyBoundary more := by
        intro b hb
        refine hfront b ?_
        rw [hmore, List.getLast?_append]
        simp [Option.mem_def.mp hb]
      obtain ⟨before, after, rfl, rfl⟩ := ih hlater hrest.symm
      exact ⟨text :: before, after, rfl, hmore⟩

namespace Connection

/-- What the socket has accepted and what is still to be written are whole replies, some of
those pushed, in their order. -/
def WholeReplies (c : Connection) : Prop :=
  ∃ sent : List CString, sent.Sublist c.pushed ∧
    c.accepted ++ c.outputBuffer = replyStream sent

theorem WholeReplies.append {c : Connection} (h : c.WholeReplies) (text : CString) :
    (c.append text).createOutputSource.WholeReplies := by
  rw [createOutputSource_append]
  obtain ⟨sent, hsent, hbytes⟩ := h
  refine ⟨sent ++ [text], hsent.append (List.Sublist.refl [text]), ?_⟩
  simp only [Connection.append, replyStream_append, replyStream_cons, replyStream_nil,
    List.append_nil, ← hbytes, List.append_assoc]

/-- The reset of the output buffer between two replies leaves whole replies. -/
theorem WholeReplies.reset {c : Connection} (h : c.WholeReplies)
    (hboundary : AtReplyBoundary c.accepted) : { c with outputBuffer := [] }.WholeReplies := by
  obtain ⟨sent, hsent, hbytes⟩ := h
  obtain ⟨before, after, rfl, haccepted⟩ := hboundary.split hbytes
  refine ⟨before, (List.sublist_append_left before after).trans hsent, ?_⟩
  rw [List.append_nil, haccepted]

theorem WholeReplies.outputJsonPush {c : Connection} (h : c.WholeReplies)
    (hboundary : 2097152 < c.outputBuffer.length → AtReplyBoundary c.accepted) (text : CString) :
    (c.outputJsonPush text).WholeReplies := by
  rw [Connection.outputJsonPush]
  split
  · rename_i hlong
    exact (h.reset (hboundary hlong)).append text
  · exact h.append text

theorem removeWritten_bytes (c : Connection) (total : ℕ) :
    (c.removeWritten total).accepted ++ (c.removeWritten total).outputBuffer =
      c.accepted ++ c.outputBuffer := by
  rw [removeWritten, List.append_assoc, List.take_append_drop]

theorem WholeReplies.removeWritten {c : Connection} (h : c.WholeReplies) (total : ℕ) :
    (c.removeWritten total).WholeReplies := by
  obtain ⟨sent, hsent, hbytes⟩ := h
  exact ⟨sent, hsent, (c.removeWritten_bytes total).trans hbytes⟩

theorem WholeReplies.outputWatch {c c' : Connection} (h : c.WholeReplies)
    (hbuffer : c.outputBuffer ≠ []) {writes : ℕ → SocketWrite} {wsize : ℤ}
    (hwatch : c.outputWatchFunc writes wsize = some c') : c'.WholeReplies := by
  obtain hnone | ⟨total, -, hpart⟩ | hall := outputWatchFunc_cases hbuffer writes wsize
  · rw [hnone] at hwatch
    cases hwatch
  · rw [hpart] at hwatch
    cases hwatch
    exact h.removeWritten total
  · rw [hall] at hwatch
    cases hwatch
    exact h.removeWritten c.outputBuffer.length

end Connection

namespace ConnectionTable
open GuardedRun Connection

/-- A reply that finds the output buffer over its limit finds the socket at the end of a
reply. -/
def OverflowsAtBoundary (t : ConnectionTable) : Event → Prop
  | .push id (some _) =>
    ∀ c ∈ t id, 2097152 < c.outputBuffer.length → AtReplyBoundary c.accepted
  | _ => True

instance (t : ConnectionTable) : (e : Event) → Decidable (OverflowsAtBoundary t e)
  | .push id (some _) => inferInstanceAs (Decidable (∀ c ∈ t id, _ → AtReplyBoundary c.accepted))
  | .push _ none | .incoming _ | .broadcast _ | .outputWatch _ _ _ | .connectionCheck
  | .inputClosed _ => isTrue trivial

/-- In every run whose replies overflow the buffer between replies only, what a client gets
are whole replies. -/
theorem replies_whole (events : List Event)
    (h : Along step OverflowsAtBoundary opened events) (id : ℕ) (c : Connection)
    (hc : run step opened events id = some c) :
    ∃ sent : List CString, sent.Sublist c.pushed ∧
      c.accepted ++ c.outputBuffer = (sent.map CString.stored).flatten := by
  suffices hboth : All (fun c => c.SourceMatches ∧ c.WholeReplies) (run step opened events) from
    (hboth id c hc).2
  refine h.invariant (I := All fun c => c.SourceMatches ∧ c.WholeReplies) ?_ (all_opened _)
  intro t e ht hlimit
  refine ht.step ⟨iff_of_false Bool.false_ne_true (not_not.mpr rfl), [], .slnil, rfl⟩ ?_
  rintro id c c' hc hstep ⟨hmatches, hwhole⟩
  refine ⟨hstep.sourceMatches hmatches, ?_⟩
  cases hstep with
  | unchanged => exact hwhole
  | pushed text he =>
    subst he
    exact hwhole.outputJsonPush (hlimit c hc) text
  | broadcast text => exact hwhole.append text
  | watched writes wsize _ hsource hwatch =>
    exact hwhole.outputWatch (hmatches.mp hsource) hwatch
  | checked => rwa [hmatches.check]

/-- The reply of the rfkill command. -/
def rfkillReply : CString where
  bytes := "\x7b \"command\": \"modem-rfkill-mode-set\", \"code\": 0 \x7d".toUTF8.toList
  noNul := by decide +kernel

theorem length_rfkillReply : rfkillReply.stored.length = 50 := by decide +kernel

/-- A reply that is written in two parts, with another reply pushed between them. -/
def twoWrites : List Event :=
  [.incoming 0, .push 0 (some rfkillReply),
    .outputWatch 0 (fun k => if k = 0 then .written 7 else .failed .wouldBlock) 0,
    .push 0 (some rfkillReply), .outputWatch 0 (fun _ => .written 4096) 0]

theorem replies_whole_twoWrites : Along step OverflowsAtBoundary opened twoWrites ∧
    ∀ c, run step opened twoWrites 0 = some c → ∃ sent : List CString, sent.Sublist c.pushed ∧
      c.accepted ++ c.outputBuffer = (sent.map CString.stored).flatten := by
  have h : Along step OverflowsAtBoundary opened twoWrites := by decide +kernel
  exact ⟨h, fun c hc => replies_whole twoWrites h 0 c hc⟩

/-- A connection that has been sent a number of these replies and has read nothing. -/
def unread (n : ℕ) : Connection where
  outputBuffer := replyStream (List.replicate n rfkillReply)
  outputStreamSource := decide (0 < n)
  pushed := List.replicate n rfkillReply

theorem length_replyStream_replicate (n : ℕ) :
    (replyStream (List.replicate n rfkillReply)).length = n * 50 := by
  induction n with
  | zero => rfl
  | succ n ih =>
    rw [List.replicate_succ, replyStream_cons, List.length_append, ih, length_rfkillReply]
    omega

theorem outputJsonPush_unread {n : ℕ} (hn : n < 41944) :
    (unread n).outputJsonPush rfkillReply = unread (n + 1) := by
  have hlen : (unread n).outputBuffer.length = n * 50 := length_replyStream_replicate n
  rw [Connection.outputJsonPush, if_neg (by omega), createOutputSource_append]
  simp [unread, Connection.append, List.replicate_succ']

/-- 41944 replies to a client that reads nothing fill the buffer beyond its limit. -/
theorem run_pushes {n : ℕ} (hn : n ≤ 41944) :
    run step opened (.incoming 0 :: List.replicate n (.push 0 (some rfkillReply))) =
      Function.update opened 0 (some (unread n)) := by
  induction n with
  | zero => rfl
  | succ n ih =>
    rw [List.replicate_succ', ← List.cons_append, run_append, ih (by omega), run_cons, run_nil,
      step, Function.update_self, Function.update_idem, Option.map_some, outputJsonPush_unread hn]

/-- The socket takes one byte and would then block. -/
def oneByte (k : ℕ) : SocketWrite := if k = 0 then .written 1 else .failed .wouldBlock

theorem outputWatchFunc_oneByte {c : Connection} (hlen : 1 < c.outputBuffer.length) :
    c.outputWatchFunc oneByte 0 = some (c.removeWritten 1) := by
  have hasked : min 1 (askedWrite (c.outputBuffer.length - 0)) = 1 := by
    rw [askedWrite]
    split <;> omega
  have hwrite : c.outputWrite oneByte 0 = some (1, -1, some .wouldBlock, 2) := by
    rw [outputWrite, outputWriteLoop, if_neg (by omega)]
    simp only [oneByte, if_true, hasked]
    obtain ⟨fuel, hfuel⟩ := Nat.exists_eq_succ_of_ne_zero (Nat.ne_of_gt (Nat.zero_lt_of_lt hlen))
    rw [if_pos Nat.one_pos, hfuel, outputWriteLoop, if_neg (by omega)]
    rfl
  rw [outputWatchFunc, hwrite]
  rfl

/-- The client takes one byte of what `n` replies have filled the buffer with, then another
reply is pushed. -/
def tornRun (n : ℕ) : List Event :=
  .incoming 0 :: List.replicate n (.push 0 (some rfkillReply)) ++
    [.outputWatch 0 oneByte 0, .push 0 (some rfkillReply)]

theorem run_tornRun {n : ℕ} (hn : n ≤ 41944) (hfull : 2097153 < n * 50) :
    run step opened (tornRun n) 0 = some
      { outputBuffer := rfkillReply.stored
        outputStreamSource := true
        accepted := (unread n).outputBuffer.take 1
        pushed := List.replicate (n + 1) rfkillReply } := by
  have hlen : (unread n).outputBuffer.length = n * 50 := length_replyStream_replicate n
  have hsource : (unread n).outputStreamSource = true := decide_eq_true (by omega)
  have hlong : 2097152 < ((unread n).removeWritten 1).outputBuffer.length := by
    rw [removeWritten, List.length_drop]
    omega
  rw [tornRun, run_append, run_pushes hn]
  simp only [run_cons, run_nil, step, Function.update_self, Option.bind_some]
  rw [if_pos hsource, outputWatchFunc_oneByte (by omega), Option.map_some,
    Connection.outputJsonPush, if_pos hlong, createOutputSource_append]
  simp [removeWritten, Connection.append, unread, List.replicate_succ']

/-- The client gets a single byte of the first reply, and then a whole reply. -/
theorem reply_torn : ∃ c, run step opened (tornRun 41944) 0 = some c ∧
    ¬∃ sent : List CString, sent.Sublist c.pushed ∧
      c.accepted ++ c.outputBuffer = (sent.map CString.stored).flatten := by
  refine ⟨_, run_tornRun (le_refl _) (by omega), ?_⟩
  rintro ⟨sent, hsent, hbytes⟩
  obtain ⟨n, -, rfl⟩ := List.sublist_replicate_iff.mp hsent
  have hlen := congrArg List.length hbytes
  have hunread : (unread 41944).outputBuffer.length = 41944 * 50 := length_replyStream_replicate _
  rw [List.length_append, List.length_take, hunread, length_rfkillReply,
    ← replyStream, length_replyStream_replicate] at hlen
  omega

end ConnectionTable
end PcatManager
