import PcatManager.RepeatedBlocks
import PcatManager.SerialQueue
import PcatManager.SerialWriteLoop

/-!
# What is read from the serial line

A receiver that knows the frames reads from the line the frames of the commands, in the order
of their requests and each as often as it has been written completely, as long as no frame is
abandoned inside a pass. A command that has left the link between two passes has been read at
least once.
-/

namespace PcatManager
open SerialFrame SerialReadParser SerialParserCorrectness GuardedRun RepeatedBlocks

/-- The frame of a command, as a receiver reads it. -/
def CommandData.frame (cmd : CommandData) : Frame := fieldsAt cmd.buffer

/-- The bytes of a command are a frame that a receiver accepts. -/
def CommandData.IsFrame (cmd : CommandData) : Prop := ∃ w : WireFrame, cmd.buffer = w.bytes

/-- The command has been written completely at least once and is not inside a pass. -/
def CommandData.BetweenPasses (cmd : CommandData) : Prop :=
  cmd.writtenSize = 0 ∧ cmd.firstrun = false

instance : DecidablePred CommandData.BetweenPasses :=
  fun cmd => inferInstanceAs (Decidable (cmd.writtenSize = 0 ∧ cmd.firstrun = false))

/-- The bytes of a command in a history. -/
def sentBytes (history : List LinkEvent) (id : ℕ) : List UInt8 :=
  (bytesOf id history).map WireByte.byte

/-- The bytes on the wire with the commands they came from. -/
def sourcedBytes (history : List LinkEvent) : List (ℕ × UInt8) :=
  history.filterMap fun e => e.wireId?.bind fun id => e.wireByte?.map fun byte => (id, byte)

theorem sourcedBytes_spec (history : List LinkEvent) (id : ℕ) :
    (sourcedBytes history).map Prod.fst = wireIds history ∧
      (sourcedBytes history).map Prod.snd = wire history ∧
      ((sourcedBytes history).filter fun x => x.1 = id).map Prod.snd = sentBytes history id := by
  induction history with
  | nil => exact ⟨rfl, rfl, rfl⟩
  | cons e history ih =>
    obtain ⟨hids, hbytes, hpart⟩ := ih
    cases e with
    | wrote id' offset byte time =>
      refine ⟨congrArg (id' :: ·) hids, congrArg (byte :: ·) hbytes, ?_⟩
      have hcons : sourcedBytes (.wrote id' offset byte time :: history) =
          (id', byte) :: sourcedBytes history := rfl
      rw [hcons, List.filter_cons]
      rw [sentBytes, bytesOf] at hpart ⊢
      by_cases hid : id' = id
      · rw [if_pos (decide_eq_true hid), List.map_cons, hpart]
        simp [LinkEvent.byteOf?, hid]
      · rw [if_neg (fun h => hid (of_decide_eq_true h)), hpart]
        simp [LinkEvent.byteOf?, hid]
    | enqueued cmd => exact ⟨hids, hbytes, hpart⟩
    | current cmd => exact ⟨hids, hbytes, hpart⟩
    | parsed current command frameNum => exact ⟨hids, hbytes, hpart⟩

namespace SerialLink
variable {l l' : SerialLink} {now : ℤ}

/-- How often a command has been written completely. -/
def timesWritten (l : SerialLink) (cmd : CommandData) : ℕ :=
  (bytesOf cmd.id l.history).length / cmd.buffer.length

/-- What has been written of the pass it is in. -/
def partWritten (l : SerialLink) (cmd : CommandData) : ℕ :=
  (bytesOf cmd.id l.history).length % cmd.buffer.length

theorem InOrder.wire_eq (h : l.InOrder) :
    wire l.history = (enqueuedCommands l.history).flatMap fun cmd => sentBytes l.history cmd.id := by
  have hsorted : ((sourcedBytes l.history).map Prod.fst).Pairwise (· ≤ ·) := by
    rw [(sourcedBytes_spec l.history 0).1]
    exact h.wire_sorted
  have hlt : ∀ x ∈ sourcedBytes l.history, x.1 < l.requests := by
    intro x hx
    apply h.wire_requested
    rw [← (sourcedBytes_spec l.history 0).1]
    exact List.mem_map_of_mem hx
  have hsplit := congrArg (List.map Prod.snd) (flatMap_filter_of_sorted Prod.fst hsorted hlt)
  rw [(sourcedBytes_spec l.history 0).2.1, ← h.numbered, List.map_flatMap, List.flatMap_map] at hsplit
  rw [← hsplit]
  exact List.flatMap_congr fun cmd _ => (sourcedBytes_spec l.history cmd.id).2.2

/-- The bytes of a command on the line are whole frames and a beginning of one. -/
theorem StopAndWait.sentBytes_eq (h : l.StopAndWait now) {cmd : CommandData}
    (hcmd : cmd ∈ enqueuedCommands l.history) :
    sentBytes l.history cmd.id = (List.replicate (l.timesWritten cmd) cmd.buffer).flatten ++
      cmd.buffer.take (l.partWritten cmd) := by
  have hblock : cmd.buffer ≠ [] :=
    List.length_pos_iff.mp (h.inOrder.encoded cmd hcmd).2.length_pos
  have hpaced := h.paced cmd hcmd
  have hbyte : ∀ i byte, (sentBytes l.history cmd.id)[i]? = some byte →
      cmd.buffer[i % cmd.buffer.length]? = some byte := by
    intro i byte hi
    rw [sentBytes, List.getElem?_map, Option.map_eq_some_iff] at hi
    obtain ⟨w, hw, rfl⟩ := hi
    exact hpaced.byte i w hw
  have hblocks := eq_blocks hblock hbyte
  rw [sentBytes, List.length_map] at hblocks
  exact hblocks

/-- A step leaves the current command what it is, or frees it at the end of a pass. -/
structure StepEffect (mayRelease : CommandData → Prop) (l l' : SerialLink) : Prop where
  enqueued : enqueuedCommands l'.history = enqueuedCommands l.history ∨
    ∃ cmd, enqueuedCommands l'.history = enqueuedCommands l.history ++ [cmd] ∧ cmd.id = l.requests
  promoted : promotedCommands l'.history = promotedCommands l.history ∨
    ∃ c ∈ l'.currentCommandData,
      promotedCommands l'.history = promotedCommands l.history ++ [c]
  bytes : ∀ id, bytesOf id l.history <+: bytesOf id l'.history ∧
    (bytesOf id l'.history = bytesOf id l.history ∨ ∃ c ∈ l'.currentCommandData, c.id = id)
  left : ∀ c ∈ l.currentCommandData, (∃ c' ∈ l'.currentCommandData, c'.id = c.id) ∨
    c.BetweenPasses ∨ c.buffer.length ≤ c.writtenSize ∨ mayRelease c

variable {mayRelease : CommandData → Prop}

theorem promotedCommands_wrote (history : List LinkEvent) (id offset : ℕ) (byte : UInt8)
    (time : ℤ) :
    promotedCommands (history ++ [.wrote id offset byte time]) = promotedCommands history := by
  simp [promotedCommands, LinkEvent.current?]

theorem stepEffect_step (hstep : Step mayRelease now l l') : StepEffect mayRelease l l' := by
  have hkept (id : ℕ) {current : Option CommandData} : bytesOf id l.history <+: bytesOf id l.history ∧
      (bytesOf id l.history = bytesOf id l.history ∨ ∃ c ∈ current, c.id = id) :=
    ⟨List.prefix_rfl, .inl rfl⟩
  cases hstep with
  | enqueue cmd frameNum hfresh hencoded hid =>
    refine ⟨.inr ⟨cmd, enqueuedCommands_enqueued _ _, hid⟩, .inl (promotedCommands_enqueued _ _), ?_,
      fun c hc => .inl ⟨c, hc, rfl⟩⟩
    intro id
    rw [bytesOf_enqueued]
    exact hkept id
  | evict c queue hqueue =>
    exact ⟨.inl rfl, .inl rfl, fun id => hkept id, fun c hc => .inl ⟨c, hc, rfl⟩⟩
  | promote c queue hnone hqueue =>
    refine ⟨.inl (enqueuedCommands_current _ _), .inr ⟨c, rfl, promotedCommands_current _ _⟩, ?_,
      fun c' hc' => ?_⟩
    · intro id
      rw [bytesOf_current]
      exact hkept id
    · rw [hnone] at hc'
      cases hc'
  | write c hc hlen hmay =>
    refine ⟨.inl (enqueuedCommands_wrote _ _ _ _ _), .inl (promotedCommands_wrote _ _ _ _ _), ?_,
      fun c' hc' => ?_⟩
    · intro id
      rw [writeByte, bytesOf_wrote]
      refine ⟨List.prefix_append _ _, ?_⟩
      by_cases hid : c.id = id
      · exact .inr ⟨_, rfl, hid⟩
      · rw [if_neg hid, List.append_nil]
        exact .inl rfl
    · rw [hc] at hc'
      cases hc'
      exact .inl ⟨_, rfl, rfl⟩
  | giveUp c hc hrun hwritten htime hretry =>
    refine ⟨.inl rfl, .inl rfl, fun id => hkept id, fun c' hc' => ?_⟩
    rw [hc] at hc'
    cases hc'
    exact .inr (.inl ⟨hwritten, hrun⟩)
  | finish c hc hlen hack =>
    refine ⟨.inl rfl, .inl rfl, fun id => hkept id, fun c' hc' => ?_⟩
    rw [hc] at hc'
    cases hc'
    exact .inr (.inr (.inl hlen))
  | rewind c hc hlen hack hretry =>
    refine ⟨.inl rfl, .inl rfl, fun id => hkept id, fun c' hc' => ?_⟩
    rw [hc] at hc'
    cases hc'
    exact .inl ⟨_, rfl, rfl⟩
  | ignored f hf =>
    refine ⟨.inl (enqueuedCommands_parsed _ _ _ _), .inl (promotedCommands_parsed _ _ _ _), ?_,
      fun c hc => .inl ⟨c, hc, rfl⟩⟩
    intro id
    rw [seeFrame, bytesOf_parsed]
    exact hkept id
  | released f c hc hanswers hmay =>
    refine ⟨.inl (enqueuedCommands_parsed _ _ _ _), .inl (promotedCommands_parsed _ _ _ _), ?_,
      fun c' hc' => ?_⟩
    · intro id
      rw [freeCurrent, seeFrame, bytesOf_parsed]
      exact hkept id
    · rw [hc] at hc'
      cases hc'
      exact .inr (.inr (.inr hmay))
  | source b => exact ⟨.inl rfl, .inl rfl, fun id => hkept id, fun c hc => .inl ⟨c, hc, rfl⟩⟩
  | counter n => exact ⟨.inl rfl, .inl rfl, fun id => hkept id, fun c hc => .inl ⟨c, hc, rfl⟩⟩

theorem whole_of_passEnd {c : CommandData} {ws : List WireByte} (hp : c.Progress ws)
    (hend : c.writtenSize = 0 ∨ c.buffer.length ≤ c.writtenSize) : c.buffer.length ∣ ws.length := by
  rw [hp.length_eq]
  obtain hzero | hfull := hend
  · rw [hzero, Nat.add_zero]
    exact Nat.dvd_mul_left _ _
  · rw [Nat.le_antisymm hp.written_le hfull]
    exact Nat.dvd_add (Nat.dvd_mul_left _ _) (Nat.dvd_refl _)

theorem length_le_of_passEnd {c : CommandData} {ws : List WireByte} (hp : c.Progress ws)
    (hend : c.BetweenPasses ∨ c.buffer.length ≤ c.writtenSize) : c.buffer.length ≤ ws.length := by
  obtain hbetween | hfull := hend
  · refine Nat.le_of_dvd ?_ (whole_of_passEnd hp (.inl hbetween.1))
    rw [List.length_pos_iff]
    intro hnone
    exact Bool.false_ne_true (hbetween.2.symm.trans (hp.firstrun_iff.mpr hnone))
  · rw [hp.length_eq]
    exact hfull.trans (Nat.le_add_left _ _)

/-- Only the current command has part of a frame on the line. -/
def WholePasses (l : SerialLink) : Prop :=
  ∀ cmd ∈ enqueuedCommands l.history, (∀ c ∈ l.currentCommandData, c.id ≠ cmd.id) →
    cmd.buffer.length ∣ (bytesOf cmd.id l.history).length

theorem wholePasses_opened (l : SerialLink) : l.opened.WholePasses := by
  intro cmd hcmd
  cases hcmd

theorem wholePasses_step (hrelease : ∀ c, mayRelease c → AtPassBoundary c)
    (hstep : Step mayRelease now l l') (h : l.StopAndWait now) (hwhole : l.WholePasses) :
    l'.WholePasses := by
  obtain ⟨henqueued, -, hbytes, hleft⟩ := stepEffect_step hstep
  intro cmd hcmd hother
  have hsame : bytesOf cmd.id l'.history = bytesOf cmd.id l.history :=
    (hbytes cmd.id).2.resolve_right fun ⟨c, hc, hid⟩ => hother c hc hid
  rw [hsame]
  have hold : cmd ∈ enqueuedCommands l.history ∨ cmd.id = l.requests := by
    obtain hsame | ⟨new, hnew, hid⟩ := henqueued
    · exact .inl (hsame ▸ hcmd)
    · rw [hnew, List.mem_append, List.mem_singleton] at hcmd
      obtain hold | rfl := hcmd
      · exact .inl hold
      · exact .inr hid
  obtain hold | hnew := hold
  · by_cases hcurrent : ∃ c ∈ l.currentCommandData, c.id = cmd.id
    · obtain ⟨c, hc, hid⟩ := hcurrent
      have hrequest := h.inOrder.same (h.inOrder.current_requested hc) ⟨cmd, hold, .refl cmd⟩ hid
      obtain ⟨c', hc', hid'⟩ | hend := hleft c hc
      · exact absurd (hid'.trans hid) (hother c' hc')
      · rw [← hid, ← hrequest.buffer]
        apply whole_of_passEnd (h.progress c hc)
        obtain hbetween | hfull | hmay := hend
        · exact .inl hbetween.1
        · exact .inr hfull
        · exact .inl (hrelease c hmay)
    · exact hwhole cmd hold fun c hc hid => hcurrent ⟨c, hc, hid⟩
  · have hnone : bytesOf cmd.id l.history = [] := bytesOf_eq_nil fun hmem =>
      Nat.lt_irrefl _ (hnew ▸ h.inOrder.wire_requested cmd.id hmem)
    rw [hnone]
    exact Nat.dvd_zero _

/-- A command that became current is so still, or has been written completely. -/
def PromotedWritten (l : SerialLink) : Prop :=
  ∀ cmd ∈ promotedCommands l.history, (∃ c ∈ l.currentCommandData, c.id = cmd.id) ∨
    cmd.buffer.length ≤ (bytesOf cmd.id l.history).length

theorem promotedWritten_opened (l : SerialLink) : l.opened.PromotedWritten := by
  intro cmd hcmd
  cases hcmd

theorem promotedWritten_step (hrelease : ∀ c, mayRelease c → c.BetweenPasses)
    (hstep : Step mayRelease now l l') (h : l.StopAndWait now) (hwritten : l.PromotedWritten) :
    l'.PromotedWritten := by
  obtain ⟨-, hpromoted, hbytes, hleft⟩ := stepEffect_step hstep
  have hold : ∀ cmd ∈ promotedCommands l.history, (∃ c ∈ l'.currentCommandData, c.id = cmd.id) ∨
      cmd.buffer.length ≤ (bytesOf cmd.id l'.history).length := by
    intro cmd hcmd
    have hgrown := (hbytes cmd.id).1.length_le
    obtain ⟨c, hc, hid⟩ | hdone := hwritten cmd hcmd
    · have hmem : LinkEvent.current cmd ∈ l.history := by
        obtain ⟨e, he, hcurrent⟩ := List.mem_filterMap.mp hcmd
        cases e with
        | current cmd' =>
          cases hcurrent
          exact he
        | _ => cases hcurrent
      have hrequest := h.inOrder.promoted_same hc hmem hid.symm
      obtain ⟨c', hc', hid'⟩ | hend := hleft c hc
      · exact .inl ⟨c', hc', hid'.trans hid⟩
      · refine .inr (Nat.le_trans ?_ hgrown)
        rw [← hid, hrequest.buffer]
        apply length_le_of_passEnd (h.progress c hc)
        obtain hbetween | hfull | hmay := hend
        · exact .inl hbetween
        · exact .inr hfull
        · exact .inl (hrelease c hmay)
    · exact .inr (hdone.trans hgrown)
  intro cmd hcmd
  obtain hsame | ⟨c, hc, hnew⟩ := hpromoted
  · exact hold cmd (hsame ▸ hcmd)
  · rw [hnew, List.mem_append, List.mem_singleton] at hcmd
    obtain hbefore | rfl := hcmd
    · exact hold cmd hbefore
    · exact .inl ⟨cmd, hc, rfl⟩

/-- Every requested command has become current or is in the queue. -/
def NothingEvicted (l : SerialLink) : Prop :=
  enqueuedCommands l.history = promotedCommands l.history ++ l.commandQueue

theorem EvictsForRoom.length_le (h : EvictsForRoom l l') :
    (enqueuedCommands l.history).length ≤ (enqueuedCommands l'.history).length ∧
      l'.commandQueue.length + (enqueuedCommands l.history).length ≤
        l.commandQueue.length + (enqueuedCommands l'.history).length := by
  obtain ⟨new, promoted, evicted, hnew, -, hqueue, -⟩ := h
  have hlength := congrArg List.length hqueue
  simp only [List.length_append] at hlength
  rw [hnew, List.length_append]
  omega

/-- Nothing is evicted as long as the queue with all that is requested is within its limit. -/
theorem EvictsForRoom.nothingEvicted (h : EvictsForRoom l l') (hkept : l.NothingEvicted)
    (hroom : l.commandQueue.length + (enqueuedCommands l'.history).length ≤
      commandQueueMax + (enqueuedCommands l.history).length) : l'.NothingEvicted := by
  obtain ⟨new, promoted, evicted, hnew, hpromoted, hqueue, hevicted⟩ := h
  have hlength := congrArg List.length hqueue
  rw [hnew] at hroom
  simp only [List.length_append] at hlength hroom
  obtain rfl : evicted = [] := by
    by_contra hsome
    have hpos := List.length_pos_iff.mpr hsome
    have hfull := hevicted hsome
    omega
  rw [List.nil_append] at hqueue
  rw [NothingEvicted, hnew, hpromoted, hkept, List.append_assoc, hqueue, List.append_assoc]

theorem nothingEvicted_opened (l : SerialLink) : l.opened.NothingEvicted := rfl

theorem NothingEvicted.calls (hkept : l.NothingEvicted) {calls : List Call}
    (hroom : l.commandQueue.length + (enqueuedCommands (run call l calls).history).length ≤
      commandQueueMax + (enqueuedCommands l.history).length) :
    (run call l calls).NothingEvicted := by
  induction calls generalizing l with
  | nil => exact hkept
  | cons c calls ih =>
    have hcall := evictsForRoom_call l c
    have hgrown := hcall.length_le
    have hrest : (enqueuedCommands (l.call c).history).length ≤
        (enqueuedCommands (run call (l.call c) calls).history).length :=
      run_invariant
        (I := fun l' => (enqueuedCommands (l.call c).history).length ≤
          (enqueuedCommands l'.history).length)
        (fun l' c h => h.trans (evictsForRoom_call l' c).length_le.1) (Nat.le_refl _) calls
    rw [run_cons] at hroom ⊢
    refine ih (hcall.nothingEvicted hkept ?_) ?_
    · omega
    · omega

theorem StopAndWait.one_le_timesWritten (h : l.StopAndWait now) (hkept : l.NothingEvicted)
    (hwritten : l.PromotedWritten) {cmd : CommandData} (hcmd : cmd ∈ enqueuedCommands l.history)
    (hgone : ∀ c ∈ l.pending, c.id ≠ cmd.id) : 1 ≤ l.timesWritten cmd := by
  have hpos := (h.inOrder.encoded cmd hcmd).2.length_pos
  rw [hkept, List.mem_append] at hcmd
  obtain hpromoted | hqueue := hcmd
  · obtain ⟨c, hc, hid⟩ | hdone := hwritten cmd hpromoted
    · exact absurd hid (hgone c (List.mem_append_left _ (Option.mem_toList.mpr hc)))
    · exact (Nat.one_le_div_iff hpos).mpr hdone
  · exact absurd rfl (hgone cmd (List.mem_append_right _ hqueue))

end SerialLink

section Receiver

theorem values_replicate (w : WireFrame) (n : ℕ) (rest : List UInt8) :
    frameScanner.values ((List.replicate n w.bytes).flatten ++ rest) =
      List.replicate n (fieldsAt w.bytes) ++ frameScanner.values rest := by
  induction n with
  | zero => rfl
  | succ n ih =>
    rw [List.replicate_succ, List.flatten_cons, List.append_assoc, values_bytes_append, ih]
    rfl

theorem values_take (w : WireFrame) {n : ℕ} (hn : n < w.bytes.length) :
    frameScanner.values (w.bytes.take n) = [] := by
  refine frameScanner.values_wait (decide_part w (List.take_append_drop n w.bytes) ?_)
  rw [Ne, List.drop_eq_nil_iff]
  omega

end Receiver

namespace SerialLink
variable {l : SerialLink} {now : ℤ}

/-- Once a command is on the line in part there is nothing of the later ones. -/
theorem StopAndWait.part_last (h : l.StopAndWait now) (hwhole : l.WholePasses) :
    (enqueuedCommands l.history).Pairwise fun cmd later =>
      l.partWritten cmd ≠ 0 → bytesOf later.id l.history = [] := by
  have hids : (enqueuedCommands l.history).Pairwise fun cmd later => cmd.id < later.id := by
    have hnumbered := List.pairwise_lt_range (n := l.requests)
    rw [← h.inOrder.numbered, List.pairwise_map] at hnumbered
    exact hnumbered
  refine hids.imp_of_mem fun hcmd hlater hlt hpart => ?_
  rename_i cmd later
  by_contra hbytes
  obtain ⟨c, hc, hid⟩ : ∃ c ∈ l.currentCommandData, c.id = cmd.id := by
    by_contra hnone
    exact hpart (Nat.mod_eq_zero_of_dvd (hwhole cmd hcmd fun c hc hid => hnone ⟨c, hc, hid⟩))
  obtain ⟨w, hw⟩ := List.exists_mem_of_ne_nil _ hbytes
  have hle := h.inOrder.wire_le_current later.id (mem_wireIds_of_bytesOf hw).1 c hc
  omega

/-- A receiver reads the frame of each command as often as it has been written. -/
theorem StopAndWait.values_wire (h : l.StopAndWait now) (hwhole : l.WholePasses)
    (hframes : ∀ cmd ∈ enqueuedCommands l.history, cmd.IsFrame) :
    frameScanner.values (wire l.history) = (enqueuedCommands l.history).flatMap fun cmd =>
      List.replicate (l.timesWritten cmd) cmd.frame := by
  rw [h.inOrder.wire_eq]
  have hlast := h.part_last hwhole
  have hsent : ∀ cmd ∈ enqueuedCommands l.history, sentBytes l.history cmd.id =
      (List.replicate (l.timesWritten cmd) cmd.buffer).flatten ++
        cmd.buffer.take (l.partWritten cmd) := fun cmd hcmd => h.sentBytes_eq hcmd
  have hpos : ∀ cmd ∈ enqueuedCommands l.history, 0 < cmd.buffer.length :=
    fun cmd hcmd => (h.inOrder.encoded cmd hcmd).2.length_pos
  generalize enqueuedCommands l.history = cmds at hframes hlast hsent hpos ⊢
  induction cmds with
  | nil => exact values_nil
  | cons cmd cmds ih =>
    rw [List.forall_mem_cons] at hframes hsent hpos
    rw [List.pairwise_cons] at hlast
    have hrest := ih hframes.2 hlast.2 hsent.2 hpos.2
    obtain ⟨w, hw⟩ := hframes.1
    rw [List.flatMap_cons, List.flatMap_cons, hsent.1, CommandData.frame, hw, List.append_assoc,
      values_replicate]
    congr 1
    by_cases hpart : l.partWritten cmd = 0
    · rw [hpart, List.take_zero, List.nil_append, hrest]
    · -- the later commands are not on the line yet
      have hnone : ∀ later ∈ cmds, bytesOf later.id l.history = [] :=
        fun later hlater => hlast.1 later hlater hpart
      have hbytes : (cmds.flatMap fun later => sentBytes l.history later.id) = [] := by
        rw [List.flatMap_eq_nil_iff]
        intro later hlater
        rw [sentBytes, hnone later hlater]
        rfl
      have hlt : l.partWritten cmd < w.bytes.length := by
        rw [← hw]
        exact Nat.mod_lt _ hpos.1
      rw [hbytes] at hrest ⊢
      rw [List.append_nil, values_take w hlt, ← hrest, values_nil]

end SerialLink
end PcatManager
