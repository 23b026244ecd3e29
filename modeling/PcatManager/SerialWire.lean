import PcatManager.SerialLinkSteps
import Mathlib.Data.List.Nodup
import Mathlib.Data.List.GetD

/-!
# What is on the wire

The readings of a link's history that the discipline of the link speaks about, and the
first invariant: requests are numbered in order, and the line, the current command and
the queue hold their numbers in order.
-/

namespace PcatManager
open SerialFrame

/-- One byte of a command on the wire. -/
structure WireByte where
  offset : ℕ
  byte : UInt8
  time : ℤ
  deriving DecidableEq, Repr

namespace LinkEvent

def enqueued? : LinkEvent → Option CommandData
  | .enqueued cmd => some cmd
  | _ => none

def byteOf? (id : ℕ) : LinkEvent → Option WireByte
  | .wrote id' offset byte time => if id' = id then some ⟨offset, byte, time⟩ else none
  | _ => none

def wireId? : LinkEvent → Option ℕ
  | .wrote id _ _ _ => some id
  | _ => none

def wireByte? : LinkEvent → Option UInt8
  | .wrote _ _ byte _ => some byte
  | _ => none

def wireTime? : LinkEvent → Option ℤ
  | .wrote _ _ _ time => some time
  | _ => none

end LinkEvent

/-- The requests made so far, in order. -/
def enqueuedCommands (history : List LinkEvent) : List CommandData :=
  history.filterMap LinkEvent.enqueued?

/-- The bytes of command `id` on the wire, in order. -/
def bytesOf (id : ℕ) (history : List LinkEvent) : List WireByte :=
  history.filterMap (LinkEvent.byteOf? id)

/-- The command each byte on the wire came from. -/
def wireIds (history : List LinkEvent) : List ℕ := history.filterMap LinkEvent.wireId?

/-- The bytes written to `serial_fd`. -/
def wire (history : List LinkEvent) : List UInt8 := history.filterMap LinkEvent.wireByte?

/-- When each byte was written. -/
def wireTimes (history : List LinkEvent) : List ℤ := history.filterMap LinkEvent.wireTime?

theorem enqueuedCommands_of_isPrefix {history history' : List LinkEvent} (h : history <+: history') :
    enqueuedCommands history <+: enqueuedCommands history' := h.filterMap _

section Readings
variable (history : List LinkEvent) (cmd : CommandData) (id id' offset : ℕ) (byte : UInt8)
  (time : ℤ) (current : Option ℕ) (command frameNum : UInt16)

@[simp] theorem enqueuedCommands_enqueued :
    enqueuedCommands (history ++ [.enqueued cmd]) = enqueuedCommands history ++ [cmd] := by
  simp [enqueuedCommands, LinkEvent.enqueued?]

@[simp] theorem enqueuedCommands_current :
    enqueuedCommands (history ++ [.current cmd]) = enqueuedCommands history := by
  simp [enqueuedCommands, LinkEvent.enqueued?]

@[simp] theorem enqueuedCommands_wrote :
    enqueuedCommands (history ++ [.wrote id offset byte time]) = enqueuedCommands history := by
  simp [enqueuedCommands, LinkEvent.enqueued?]

@[simp] theorem enqueuedCommands_parsed :
    enqueuedCommands (history ++ [.parsed current command frameNum]) =
      enqueuedCommands history := by
  simp [enqueuedCommands, LinkEvent.enqueued?]

@[simp] theorem bytesOf_enqueued :
    bytesOf id (history ++ [.enqueued cmd]) = bytesOf id history := by
  simp [bytesOf, LinkEvent.byteOf?]

@[simp] theorem bytesOf_current :
    bytesOf id (history ++ [.current cmd]) = bytesOf id history := by
  simp [bytesOf, LinkEvent.byteOf?]

@[simp] theorem bytesOf_wrote :
    bytesOf id (history ++ [.wrote id' offset byte time]) =
      bytesOf id history ++ if id' = id then [⟨offset, byte, time⟩] else [] := by
  by_cases h : id' = id <;> simp [bytesOf, LinkEvent.byteOf?, h]

@[simp] theorem bytesOf_parsed :
    bytesOf id (history ++ [.parsed current command frameNum]) = bytesOf id history := by
  simp [bytesOf, LinkEvent.byteOf?]

@[simp] theorem wireIds_enqueued : wireIds (history ++ [.enqueued cmd]) = wireIds history := by
  simp [wireIds, LinkEvent.wireId?]

@[simp] theorem wireIds_current : wireIds (history ++ [.current cmd]) = wireIds history := by
  simp [wireIds, LinkEvent.wireId?]

@[simp] theorem wireIds_wrote :
    wireIds (history ++ [.wrote id offset byte time]) = wireIds history ++ [id] := by
  simp [wireIds, LinkEvent.wireId?]

@[simp] theorem wireIds_parsed :
    wireIds (history ++ [.parsed current command frameNum]) = wireIds history := by
  simp [wireIds, LinkEvent.wireId?]

@[simp] theorem wire_enqueued : wire (history ++ [.enqueued cmd]) = wire history := by
  simp [wire, LinkEvent.wireByte?]

@[simp] theorem wire_current : wire (history ++ [.current cmd]) = wire history := by
  simp [wire, LinkEvent.wireByte?]

@[simp] theorem wire_wrote :
    wire (history ++ [.wrote id offset byte time]) = wire history ++ [byte] := by
  simp [wire, LinkEvent.wireByte?]

@[simp] theorem wire_parsed :
    wire (history ++ [.parsed current command frameNum]) = wire history := by
  simp [wire, LinkEvent.wireByte?]

@[simp] theorem wireTimes_enqueued :
    wireTimes (history ++ [.enqueued cmd]) = wireTimes history := by
  simp [wireTimes, LinkEvent.wireTime?]

@[simp] theorem wireTimes_current : wireTimes (history ++ [.current cmd]) = wireTimes history := by
  simp [wireTimes, LinkEvent.wireTime?]

@[simp] theorem wireTimes_wrote :
    wireTimes (history ++ [.wrote id offset byte time]) = wireTimes history ++ [time] := by
  simp [wireTimes, LinkEvent.wireTime?]

@[simp] theorem wireTimes_parsed :
    wireTimes (history ++ [.parsed current command frameNum]) = wireTimes history := by
  simp [wireTimes, LinkEvent.wireTime?]

end Readings

theorem mem_wireIds_of_bytesOf {history : List LinkEvent} {id : ℕ} {w : WireByte}
    (h : w ∈ bytesOf id history) : id ∈ wireIds history ∧ w.time ∈ wireTimes history := by
  obtain ⟨e, he, hw⟩ := List.mem_filterMap.mp h
  cases e with
  | wrote id' offset byte time =>
    simp only [LinkEvent.byteOf?, Option.ite_none_right_eq_some, Option.some.injEq] at hw
    obtain ⟨rfl, rfl⟩ := hw
    exact ⟨List.mem_filterMap.mpr ⟨_, he, rfl⟩, List.mem_filterMap.mpr ⟨_, he, rfl⟩⟩
  | enqueued cmd => simp [LinkEvent.byteOf?] at hw
  | current cmd => simp [LinkEvent.byteOf?] at hw
  | parsed current command frameNum => simp [LinkEvent.byteOf?] at hw

theorem bytesOf_eq_nil {history : List LinkEvent} {id : ℕ} (h : id ∉ wireIds history) :
    bytesOf id history = [] :=
  List.eq_nil_iff_forall_not_mem.mpr fun _ hw => h (mem_wireIds_of_bytesOf hw).1

/-- Two records of one request: they differ in the progress of the transmission only. -/
structure CommandData.SameRequest (c e : CommandData) : Prop where
  id : c.id = e.id
  buffer : c.buffer = e.buffer
  command : c.command = e.command
  needAck : c.needAck = e.needAck
  frameNum : c.frameNum = e.frameNum

theorem CommandData.SameRequest.refl (c : CommandData) : c.SameRequest c := ⟨rfl, rfl, rfl, rfl, rfl⟩

/-- The command is one of the requests made so far. -/
def CommandData.RequestedIn (c : CommandData) (history : List LinkEvent) : Prop :=
  ∃ e ∈ enqueuedCommands history, c.SameRequest e

theorem CommandData.RequestedIn.append {c : CommandData} {history : List LinkEvent}
    (h : c.RequestedIn history) (more : List LinkEvent) : c.RequestedIn (history ++ more) := by
  obtain ⟨e, he, hsame⟩ := h
  exact ⟨e, by rw [enqueuedCommands, List.filterMap_append]; exact List.mem_append_left _ he, hsame⟩

namespace SerialLink

/-- Requests are numbered from zero on, and the line, the current command and the queue
are in the order of these numbers. -/
structure InOrder (l : SerialLink) : Prop where
  numbered : (enqueuedCommands l.history).map (·.id) = List.range l.requests
  encoded : ∀ e ∈ enqueuedCommands l.history, e.Fresh ∧ e.Encoded
  requested : ∀ c ∈ l.currentCommandData.toList ++ l.commandQueue, c.RequestedIn l.history
  queue_fresh : ∀ c ∈ l.commandQueue, c.Fresh
  pending_sorted : ((l.currentCommandData.toList ++ l.commandQueue).map (·.id)).Pairwise (· < ·)
  wire_sorted : (wireIds l.history).Pairwise (· ≤ ·)
  wire_requested : ∀ id ∈ wireIds l.history, id < l.requests
  wire_le_current : ∀ id ∈ wireIds l.history, ∀ c, l.currentCommandData = some c → id ≤ c.id
  wire_lt_queue : ∀ id ∈ wireIds l.history, ∀ c ∈ l.commandQueue, id < c.id
  promoted : ∀ c, LinkEvent.current c ∈ l.history → c.RequestedIn l.history

theorem InOrder.lt_requests {l : SerialLink} (h : l.InOrder) {c : CommandData}
    (hc : c.RequestedIn l.history) : c.id < l.requests := by
  obtain ⟨e, he, hsame⟩ := hc
  have hmem : e.id ∈ (enqueuedCommands l.history).map (·.id) := List.mem_map_of_mem he
  rw [h.numbered, List.mem_range] at hmem
  rwa [hsame.id]

theorem InOrder.same {l : SerialLink} (h : l.InOrder) {c d : CommandData}
    (hc : c.RequestedIn l.history) (hd : d.RequestedIn l.history) (hid : c.id = d.id) :
    c.SameRequest d := by
  obtain ⟨e, he, hce⟩ := hc
  obtain ⟨f, hf, hdf⟩ := hd
  have hnodup : ((enqueuedCommands l.history).map (·.id)).Nodup := by
    rw [h.numbered]
    exact List.nodup_range
  have hef : e = f := List.inj_on_of_nodup_map hnodup he hf (by rw [← hce.id, ← hdf.id, hid])
  subst hef
  exact ⟨hid, hce.buffer.trans hdf.buffer.symm, hce.command.trans hdf.command.symm,
    hce.needAck.trans hdf.needAck.symm, hce.frameNum.trans hdf.frameNum.symm⟩

theorem InOrder.current_requested {l : SerialLink} (h : l.InOrder) {c : CommandData}
    (hc : l.currentCommandData = some c) : c.RequestedIn l.history :=
  h.requested c (by simp [hc])

theorem InOrder.length_pos {l : SerialLink} (h : l.InOrder) {c : CommandData}
    (hc : c.RequestedIn l.history) : 0 < c.buffer.length := by
  obtain ⟨e, he, hsame⟩ := hc
  rw [hsame.buffer]
  exact (h.encoded e he).2.length_pos

theorem InOrder.bytesOf_queue {l : SerialLink} (h : l.InOrder) {c : CommandData}
    (hc : c ∈ l.commandQueue) : bytesOf c.id l.history = [] :=
  bytesOf_eq_nil fun hmem => Nat.lt_irrefl _ (h.wire_lt_queue _ hmem c hc)

theorem inOrder_opened (l : SerialLink) : l.opened.InOrder := by
  constructor <;> simp [opened, enqueuedCommands, wireIds]

variable {mayRelease : CommandData → Prop} {now : ℤ} {l l' : SerialLink}

/-- Nothing but the current command changes, and it stays the same request or is freed. -/
theorem InOrder.setCurrent (h : l.InOrder) (current : Option CommandData)
    (hcurrent : ∀ d, current = some d → ∃ c, l.currentCommandData = some c ∧ d.SameRequest c) :
    InOrder { l with currentCommandData := current } := by
  have hsorted := h.pending_sorted
  rw [List.map_append, List.pairwise_append] at hsorted
  obtain ⟨-, hqueue, hlt⟩ := hsorted
  refine { h with requested := ?_, pending_sorted := ?_, wire_le_current := ?_ }
  · intro d hd
    rcases List.mem_append.mp hd with hd | hd
    · obtain ⟨c, hc, hsame⟩ := hcurrent d (by simpa using hd)
      obtain ⟨e, he, hce⟩ := h.current_requested hc
      exact ⟨e, he, hsame.id.trans hce.id, hsame.buffer.trans hce.buffer,
        hsame.command.trans hce.command, hsame.needAck.trans hce.needAck,
        hsame.frameNum.trans hce.frameNum⟩
    · exact h.requested d (List.mem_append_right _ hd)
  · rw [List.map_append, List.pairwise_append]
    refine ⟨?_, hqueue, ?_⟩
    · cases current <;> simp
    · intro a ha b hb
      obtain ⟨d, hd, rfl⟩ := List.mem_map.mp ha
      obtain ⟨c, hc, hsame⟩ := hcurrent d (by simpa using hd)
      rw [hsame.id]
      exact hlt c.id (by simp [hc]) b hb
  · intro id hid d hd
    obtain ⟨c, hc, hsame⟩ := hcurrent d hd
    rw [hsame.id]
    exact h.wire_le_current id hid c hc

theorem InOrder.freeCurrent (h : l.InOrder) : l.freeCurrent.InOrder :=
  h.setCurrent none (by simp)

theorem InOrder.seeFrame (h : l.InOrder) (f : Frame) : (l.seeFrame f).InOrder := by
  refine ⟨?_, ?_, fun c hc => (h.requested c hc).append _, h.queue_fresh, h.pending_sorted,
    ?_, ?_, ?_, ?_, ?_⟩
  · simpa [SerialLink.seeFrame] using h.numbered
  · simpa [SerialLink.seeFrame] using h.encoded
  · simpa [SerialLink.seeFrame] using h.wire_sorted
  · simpa [SerialLink.seeFrame] using h.wire_requested
  · simpa [SerialLink.seeFrame] using h.wire_le_current
  · simpa [SerialLink.seeFrame] using h.wire_lt_queue
  · intro c hc
    exact (h.promoted c (by simpa [SerialLink.seeFrame] using hc)).append _

theorem InOrder.enqueue (h : l.InOrder) {cmd : CommandData} (hfresh : cmd.Fresh)
    (hencoded : cmd.Encoded) (hid : cmd.id = l.requests) (frameNum : UInt16) :
    InOrder
      { l with
        frameNum := frameNum
        commandQueue := l.commandQueue ++ [cmd]
        history := l.history ++ [.enqueued cmd]
        requests := l.requests + 1 } := by
  refine ⟨?_, ?_, ?_, ?_, ?_, ?_, ?_, ?_, ?_, ?_⟩
  · simp [h.numbered, List.range_succ, hid]
  · intro e he
    simp only [enqueuedCommands_enqueued, List.mem_append, List.mem_singleton] at he
    rcases he with he | rfl
    · exact h.encoded e he
    · exact ⟨hfresh, hencoded⟩
  · intro c hc
    rw [← List.append_assoc] at hc
    rcases List.mem_append.mp hc with hc | hc
    · exact (h.requested c hc).append _
    · rw [List.mem_singleton.mp hc]
      exact ⟨cmd, by simp, .refl cmd⟩
  · intro c hc
    rcases List.mem_append.mp hc with hc | hc
    · exact h.queue_fresh c hc
    · rw [List.mem_singleton.mp hc]
      exact hfresh
  · change ((l.currentCommandData.toList ++ (l.commandQueue ++ [cmd])).map (·.id)).Pairwise (· < ·)
    rw [← List.append_assoc, List.map_append, List.pairwise_append]
    refine ⟨h.pending_sorted, by simp, ?_⟩
    intro a ha b hb
    obtain ⟨c, hc, rfl⟩ := List.mem_map.mp ha
    simp only [List.map_cons, List.map_nil, List.mem_singleton] at hb
    rw [hb, hid]
    exact h.lt_requests (h.requested c hc)
  · simpa using h.wire_sorted
  · intro id hmem
    have := h.wire_requested id (by simpa using hmem)
    change id < l.requests + 1
    omega
  · simpa using h.wire_le_current
  · intro id hmem c hc
    simp only [wireIds_enqueued] at hmem
    rcases List.mem_append.mp hc with hc | hc
    · exact h.wire_lt_queue id hmem c hc
    · rw [List.mem_singleton.mp hc, hid]
      exact h.wire_requested id hmem
  · intro c hc
    exact (h.promoted c (by simpa using hc)).append _

theorem InOrder.evict (h : l.InOrder) {c : CommandData} {queue : List CommandData}
    (hq : l.commandQueue = c :: queue) : InOrder { l with commandQueue := queue } := by
  have hsub : ∀ d ∈ queue, d ∈ l.commandQueue := fun d hd => hq ▸ List.mem_cons_of_mem _ hd
  have hsublist : (l.currentCommandData.toList ++ queue).Sublist
      (l.currentCommandData.toList ++ l.commandQueue) := by
    rw [hq]
    exact (List.Sublist.refl _).append (List.sublist_cons_self c queue)
  exact { h with
    requested := fun d hd => h.requested d (hsublist.subset hd)
    queue_fresh := fun d hd => h.queue_fresh d (hsub d hd)
    pending_sorted := h.pending_sorted.sublist (hsublist.map _)
    wire_lt_queue := fun id hid d hd => h.wire_lt_queue id hid d (hsub d hd) }

theorem InOrder.promote (h : l.InOrder) {c : CommandData} {queue : List CommandData}
    (hnone : l.currentCommandData = none) (hq : l.commandQueue = c :: queue) :
    InOrder
      { l with
        currentCommandData := some c
        commandQueue := queue
        history := l.history ++ [.current c] } := by
  have hsub : ∀ d ∈ queue, d ∈ l.commandQueue := fun d hd => hq ▸ List.mem_cons_of_mem _ hd
  have hc : c ∈ l.commandQueue := hq ▸ List.mem_cons_self
  refine ⟨?_, ?_, ?_, fun d hd => h.queue_fresh d (hsub d hd), ?_, ?_, ?_, ?_, ?_, ?_⟩
  · simpa using h.numbered
  · simpa using h.encoded
  · intro d hd
    exact (h.requested d (by simpa [hnone, hq] using hd)).append _
  · simpa [hnone, hq] using h.pending_sorted
  · simpa using h.wire_sorted
  · simpa using h.wire_requested
  · intro id hid d hd
    simp only [wireIds_current] at hid
    obtain rfl := Option.some.inj hd
    exact Nat.le_of_lt (h.wire_lt_queue id hid c hc)
  · intro id hid d hd
    simp only [wireIds_current] at hid
    exact h.wire_lt_queue id hid d (hsub d hd)
  · intro d hd
    simp only [List.mem_append, List.mem_singleton, LinkEvent.current.injEq] at hd
    rcases hd with hd | rfl
    · exact (h.promoted d hd).append _
    · exact (h.requested d (List.mem_append_right _ hc)).append _

theorem InOrder.writeByte (h : l.InOrder) {c : CommandData} (hc : l.currentCommandData = some c)
    (now : ℤ) : (l.writeByte c now).InOrder := by
  have hset := h.setCurrent (some
    { c with writtenSize := c.writtenSize + 1, timestamp := now, firstrun := false })
    (fun d hd => ⟨c, hc, by obtain rfl := Option.some.inj hd; exact ⟨rfl, rfl, rfl, rfl, rfl⟩⟩)
  have hsorted := h.pending_sorted
  rw [List.map_append, List.pairwise_append] at hsorted
  refine ⟨?_, ?_, fun d hd => (hset.requested d hd).append _, h.queue_fresh, hset.pending_sorted,
    ?_, ?_, ?_, ?_, ?_⟩
  · simpa [SerialLink.writeByte] using h.numbered
  · simpa [SerialLink.writeByte] using h.encoded
  · simp only [SerialLink.writeByte, wireIds_wrote, List.pairwise_append]
    refine ⟨h.wire_sorted, by simp, fun a ha b hb => ?_⟩
    rw [List.mem_singleton.mp hb]
    exact h.wire_le_current a ha c hc
  · intro id hid
    simp only [SerialLink.writeByte, wireIds_wrote, List.mem_append, List.mem_singleton] at hid
    rcases hid with hid | rfl
    · exact h.wire_requested id hid
    · exact h.lt_requests (h.current_requested hc)
  · intro id hid d hd
    simp only [SerialLink.writeByte, wireIds_wrote, List.mem_append, List.mem_singleton] at hid
    obtain rfl := Option.some.inj hd
    rcases hid with hid | rfl
    · exact h.wire_le_current id hid c hc
    · exact Nat.le_refl c.id
  · intro id hid d hd
    simp only [SerialLink.writeByte, wireIds_wrote, List.mem_append, List.mem_singleton] at hid
    rcases hid with hid | rfl
    · exact h.wire_lt_queue id hid d hd
    · exact hsorted.2.2 c.id (by simp [hc]) d.id (List.mem_map_of_mem hd)
  · intro d hd
    exact (h.promoted d (by simpa [SerialLink.writeByte] using hd)).append _

theorem history_step (hstep : Step mayRelease now l l') : l.history <+: l'.history := by
  cases hstep with
  | enqueue cmd frameNum hfresh hencoded hid => exact List.prefix_append _ _
  | evict c queue hq => exact List.prefix_refl _
  | promote c queue hnone hq => exact List.prefix_append _ _
  | write c hc hlen hmay => exact List.prefix_append _ _
  | giveUp c hc hrun hwritten htime hretry => exact List.prefix_refl _
  | finish c hc hlen hack => exact List.prefix_refl _
  | rewind c hc hlen hack hretry => exact List.prefix_refl _
  | ignored f hf => exact List.prefix_append _ _
  | released f c hc hanswers hmay => exact List.prefix_append _ _
  | source b => exact List.prefix_refl _
  | counter n => exact List.prefix_refl _

theorem Steps.history (h : Steps mayRelease now l l') : l.history <+: l'.history :=
  h.invariant (P := fun l' => l.history <+: l'.history)
    (fun _ _ hstep hl => hl.trans (history_step hstep)) (List.prefix_refl _)

theorem inOrder_step (hstep : Step mayRelease now l l') (h : l.InOrder) : l'.InOrder := by
  cases hstep with
  | enqueue cmd frameNum hfresh hencoded hid => exact h.enqueue hfresh hencoded hid frameNum
  | evict c queue hq => exact h.evict hq
  | promote c queue hnone hq => exact h.promote hnone hq
  | write c hc hlen hmay => exact h.writeByte hc now
  | giveUp c hc hrun hwritten htime hretry => exact h.freeCurrent
  | finish c hc hlen hack => exact h.freeCurrent
  | rewind c hc hlen hack hretry =>
    exact h.setCurrent _ fun d hd =>
      ⟨c, hc, by obtain rfl := Option.some.inj hd; exact ⟨rfl, rfl, rfl, rfl, rfl⟩⟩
  | ignored f hf => exact h.seeFrame f
  | released f c hc hanswers hmay => exact (h.seeFrame f).freeCurrent
  | source b => exact { h with }
  | counter n => exact { h with }

end SerialLink
end PcatManager
