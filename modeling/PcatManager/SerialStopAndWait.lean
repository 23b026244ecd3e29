import PcatManager.SerialWire

/-!
# The stop-and-wait discipline of the link

Three invariants of the small steps: every command is on the wire as whole passes with a
pause between them, a command that waits for an answer gives up the line only for the
answer or after its last pass, and the line carries whole frames as long as no frame is
abandoned inside a pass.
-/

namespace PcatManager
open SerialFrame

theorem getElem?_snoc_cases {α : Type} {xs : List α} {x y : α} {i : ℕ}
    (h : (xs ++ [x])[i]? = some y) : xs[i]? = some y ∨ i = xs.length ∧ x = y := by
  rw [List.getElem?_append] at h
  split at h
  · exact .inl h
  · rename_i hle
    have hi : i - xs.length = 0 := by
      by_contra hne
      simp [hne] at h
    rw [hi] at h
    exact .inr ⟨by omega, by simpa using h⟩

/-- The passes a command may make: `retry_count` as the request sets it. -/
def CommandData.passes (c : CommandData) : ℕ := if c.needAck then 3 else 1

theorem CommandData.SameRequest.passes {c e : CommandData} (h : c.SameRequest e) :
    c.passes = e.passes := by
  rw [CommandData.passes, CommandData.passes, h.needAck]

/-- The bytes of one command on the wire are passes over its buffer from its first byte
on, at most as many as given, and a new pass begins more than the command timeout after
the byte before it. -/
structure Paced (buffer : List UInt8) (passes : ℕ) (ws : List WireByte) : Prop where
  length_le : ws.length ≤ passes * buffer.length
  offset : ∀ i w, ws[i]? = some w → w.offset = i % buffer.length
  byte : ∀ i w, ws[i]? = some w → buffer[i % buffer.length]? = some w.byte
  pause : ∀ i w w', ws[i]? = some w → ws[i + 1]? = some w' → (i + 1) % buffer.length = 0 →
    w.time + commandTimeout < w'.time

theorem paced_nil (buffer : List UInt8) (passes : ℕ) : Paced buffer passes [] := by
  constructor <;> simp

/-- What the fields of the current command say about its bytes on the wire. -/
structure CommandData.Progress (c : CommandData) (ws : List WireByte) : Prop where
  retry_le : c.retryCount ≤ c.passes
  retry_pos : c.writtenSize ≠ 0 → 0 < c.retryCount
  retry_unacknowledged : c.needAck = false → c.retryCount = 1
  written_le : c.writtenSize ≤ c.buffer.length
  length_eq : ws.length = (c.passes - c.retryCount) * c.buffer.length + c.writtenSize
  firstrun_iff : c.firstrun = true ↔ ws = []
  timestamp : ∀ w, ws.getLast? = some w → w.time = c.timestamp
  times : ∀ w ∈ ws, w.time ≤ c.timestamp

theorem CommandData.Fresh.progress {c : CommandData} (h : c.Fresh) : c.Progress [] := by
  constructor <;> simp +contextual [h.writtenSize, h.retryCount, h.firstrun, CommandData.passes]

theorem CommandData.passes_pos (c : CommandData) : 0 < c.passes := by
  rw [CommandData.passes]
  split <;> omega

namespace CommandData.Progress
variable {c : CommandData} {ws : List WireByte} {now : ℤ}

/-- A command that may write a byte has a pass left to write it in. -/
theorem retry_pos_of_mayWrite (hp : c.Progress ws) (hlen : c.writtenSize < c.buffer.length)
    (hmay : c.MayWrite now) : 0 < c.retryCount := by
  rcases hmay with hrun | hwritten | ⟨-, hretry⟩
  · have hzero := hp.length_eq
    rw [hp.firstrun_iff.mp hrun, List.length_nil] at hzero
    by_contra hnot
    have hr : c.retryCount = 0 := by omega
    rw [hr, Nat.sub_zero] at hzero
    have hprod : 0 < c.passes * c.buffer.length := Nat.mul_pos c.passes_pos (by omega)
    omega
  · exact hp.retry_pos hwritten
  · omega

theorem writeByte (hp : c.Progress ws) (hlen : c.writtenSize < c.buffer.length)
    (hmay : c.MayWrite now) (htimes : ∀ w ∈ ws, w.time ≤ now) (w : WireByte)
    (hw : w.time = now) :
    CommandData.Progress
      { c with writtenSize := c.writtenSize + 1, timestamp := now, firstrun := false }
      (ws ++ [w]) := by
  have hretry := hp.retry_pos_of_mayWrite hlen hmay
  refine ⟨hp.retry_le, fun _ => hretry, hp.retry_unacknowledged, hlen, ?_, ?_, ?_, ?_⟩
  · rw [List.length_append, List.length_singleton, hp.length_eq]
    rfl
  · simp
  · intro w' hw'
    rw [List.getLast?_concat] at hw'
    rw [← Option.some.inj hw', hw]
  · intro w' hw'
    rcases List.mem_append.mp hw' with hw' | hw'
    · exact htimes w' hw'
    · rw [List.mem_singleton.mp hw', hw]

theorem rewind (hp : c.Progress ws) (hlen : c.buffer.length ≤ c.writtenSize)
    (hack : c.needAck = true) (hretry : 0 < c.retryCount) :
    CommandData.Progress { c with retryCount := c.retryCount - 1, writtenSize := 0 } ws := by
  have hle := hp.retry_le
  have hwritten := hp.written_le
  refine ⟨?_, by simp, by simp [hack], Nat.zero_le _, ?_, hp.firstrun_iff, hp.timestamp, hp.times⟩
  · change c.retryCount - 1 ≤ c.passes
    omega
  · change ws.length = (c.passes - (c.retryCount - 1)) * c.buffer.length + 0
    rw [show c.passes - (c.retryCount - 1) = c.passes - c.retryCount + 1 by omega, Nat.succ_mul,
      hp.length_eq]
    omega

theorem length_of_retry_zero (hp : c.Progress ws) (hack : c.needAck = true)
    (hretry : c.retryCount = 0) : ws.length = 3 * c.buffer.length := by
  have hwritten : c.writtenSize = 0 := by
    by_contra hne
    have := hp.retry_pos hne
    omega
  rw [hp.length_eq, hretry, hwritten, CommandData.passes, if_pos hack]
  omega

/-- A command freed at the end of a pass does not wait for an answer. -/
theorem needAck_of_finish (hp : c.Progress ws) (hpos : 0 < c.buffer.length)
    (hlen : c.buffer.length ≤ c.writtenSize) (h : c.needAck = false ∨ c.retryCount = 0) :
    c.needAck = false := by
  rcases h with h | h
  · exact h
  · have := hp.retry_pos (by omega)
    omega

end CommandData.Progress

theorem Paced.snoc {c : CommandData} {ws : List WireByte} {now : ℤ}
    (h : Paced c.buffer c.passes ws) (hp : c.Progress ws) (hlen : c.writtenSize < c.buffer.length)
    (hmay : c.MayWrite now) :
    Paced c.buffer c.passes
      (ws ++ [⟨c.writtenSize, c.buffer.getD c.writtenSize 0, now⟩]) := by
  have hretry := hp.retry_pos_of_mayWrite hlen hmay
  have hmod : ws.length % c.buffer.length = c.writtenSize := by
    rw [hp.length_eq, Nat.mul_add_mod_of_lt hlen]
  refine ⟨?_, ?_, ?_, ?_⟩
  · have hmul : (c.passes - c.retryCount) * c.buffer.length + c.buffer.length ≤
        c.passes * c.buffer.length := by
      rw [← Nat.succ_mul]
      exact Nat.mul_le_mul_right _ (by have := hp.retry_le; omega)
    rw [List.length_append, List.length_singleton, hp.length_eq]
    omega
  · intro i w hi
    rcases getElem?_snoc_cases hi with hi | ⟨rfl, rfl⟩
    · exact h.offset i w hi
    · exact hmod.symm
  · intro i w hi
    rcases getElem?_snoc_cases hi with hi | ⟨rfl, rfl⟩
    · exact h.byte i w hi
    · rw [hmod]
      simp [List.getD, hlen]
  · intro i w w' hi hi' hzero
    rcases getElem?_snoc_cases hi' with hi' | ⟨hlast, rfl⟩
    · rcases getElem?_snoc_cases hi with hi | ⟨rfl, -⟩
      · exact h.pause i w w' hi hi' hzero
      · have := (List.getElem?_eq_some_iff.mp hi').1
        omega
    · -- the last byte before the new one was written at the timestamp of the command
      have hbefore : ws[i]? = some w := by
        rwa [List.getElem?_append_left (by omega)] at hi
      have hwritten : c.writtenSize = 0 := by rw [← hmod, ← hlast]; exact hzero
      have htime : w.time = c.timestamp := by
        apply hp.timestamp w
        rw [List.getLast?_eq_getElem?, ← hbefore]
        congr 1
        omega
      rcases hmay with hrun | hne | ⟨hlate, -⟩
      · rw [hp.firstrun_iff.mp hrun] at hlast
        simp at hlast
      · exact absurd hwritten hne
      · change w.time + commandTimeout < now
        omega

/-- A command has given up the line by a time: it was answered while it was current, or
it has made three passes and the command timeout has run out since its last byte. -/
def CommandData.Relinquished (x : CommandData) (history : List LinkEvent) (time : ℤ) : Prop :=
  (∃ command : UInt16, command.toNat = x.command.toNat + 1 ∧
    LinkEvent.parsed (some x.id) command x.frameNum ∈ history) ∨
  ((bytesOf x.id history).length = 3 * x.buffer.length ∧
    ∀ w ∈ bytesOf x.id history, w.time + commandTimeout < time)

theorem CommandData.Relinquished.mono {x : CommandData} {history : List LinkEvent}
    {time time' : ℤ} (h : x.Relinquished history time) (hle : time ≤ time') :
    x.Relinquished history time' := by
  rcases h with h | ⟨hlen, htimes⟩
  · exact .inl h
  · exact .inr ⟨hlen, fun w hw => by have := htimes w hw; omega⟩

theorem CommandData.Relinquished.snoc {x : CommandData} {history : List LinkEvent} {time : ℤ}
    (h : x.Relinquished history time) {e : LinkEvent}
    (he : bytesOf x.id (history ++ [e]) = bytesOf x.id history) :
    x.Relinquished (history ++ [e]) time := by
  rcases h with ⟨command, hcommand, hmem⟩ | ⟨hlen, htimes⟩
  · exact .inl ⟨command, hcommand, List.mem_append_left _ hmem⟩
  · exact .inr ⟨by rw [he]; exact hlen, by rw [he]; exact htimes⟩

/-- Between a command that waits for an answer becoming current and a byte of another
command, it gives up the line. -/
def HandedOver (history : List LinkEvent) : Prop :=
  ∀ (i j : ℕ) (x : CommandData) (id offset : ℕ) (byte : UInt8) (time : ℤ),
    history[i]? = some (.current x) → x.needAck = true → history[j]? = some (.wrote id offset byte time) →
    i < j → id ≠ x.id → x.Relinquished (history.take j) time

theorem handedOver_nil : HandedOver [] := by
  intro i j x id offset byte time hi
  simp at hi

/-- An event keeps `HandedOver` when, if it writes a byte, the others have given up the
line. -/
theorem HandedOver.snoc {history : List LinkEvent} (h : HandedOver history) {e : LinkEvent}
    (he : ∀ x id offset byte time, e = .wrote id offset byte time →
      LinkEvent.current x ∈ history → x.needAck = true → id ≠ x.id →
      x.Relinquished history time) : HandedOver (history ++ [e]) := by
  intro i j x id offset byte time hi hack hj hij hne
  have hibefore : i < history.length := by
    have := (List.getElem?_eq_some_iff.mp hj).1
    simp only [List.length_append, List.length_singleton] at this
    omega
  rw [List.getElem?_append_left hibefore] at hi
  rcases getElem?_snoc_cases hj with hj | ⟨rfl, rfl⟩
  · rw [List.take_append_of_le_length (Nat.le_of_lt (List.getElem?_eq_some_iff.mp hj).1)]
    exact h i j x id offset byte time hi hack hj hij hne
  · rw [List.take_left]
    exact he x id offset byte time rfl (List.mem_of_getElem? hi) hack hne

namespace SerialLink

/-- The discipline of the link at time `now`. -/
structure StopAndWait (l : SerialLink) (now : ℤ) : Prop where
  inOrder : l.InOrder
  times : ∀ t ∈ wireTimes l.history, t ≤ now
  progress : ∀ c, l.currentCommandData = some c → c.Progress (bytesOf c.id l.history)
  paced : ∀ e ∈ enqueuedCommands l.history, Paced e.buffer e.passes (bytesOf e.id l.history)
  relinquished : ∀ x, LinkEvent.current x ∈ l.history → x.needAck = true →
    (∀ c, l.currentCommandData = some c → c.id ≠ x.id) → x.Relinquished l.history now
  handedOver : HandedOver l.history

theorem stopAndWait_opened (l : SerialLink) (now : ℤ) : l.opened.StopAndWait now := by
  refine ⟨inOrder_opened l, ?_, ?_, ?_, ?_, handedOver_nil⟩
  · simp [opened, wireTimes]
  · simp [opened]
  · simp [opened, enqueuedCommands]
  · simp [opened]

variable {mayRelease : CommandData → Prop} {now now' : ℤ} {l l' : SerialLink}

theorem StopAndWait.elapse (h : l.StopAndWait now) (hle : now ≤ now') : l.StopAndWait now' :=
  { h with
    times := fun t ht => by have := h.times t ht; omega
    relinquished := fun x hx hack hcur => (h.relinquished x hx hack hcur).mono hle }

theorem StopAndWait.time_le (h : l.StopAndWait now) {id : ℕ} {w : WireByte}
    (hw : w ∈ bytesOf id l.history) : w.time ≤ now := h.times _ (mem_wireIds_of_bytesOf hw).2

/-- A promoted command with the number of the current command is the current command. -/
theorem InOrder.promoted_same (h : l.InOrder) {c x : CommandData}
    (hc : l.currentCommandData = some c) (hx : LinkEvent.current x ∈ l.history)
    (hid : x.id = c.id) : x.SameRequest c :=
  h.same (h.promoted x hx) (h.current_requested hc) hid

theorem StopAndWait.enqueue (h : l.StopAndWait now) {cmd : CommandData} (hfresh : cmd.Fresh)
    (hencoded : cmd.Encoded) (hid : cmd.id = l.requests) (frameNum : UInt16) :
    StopAndWait
      { l with
        frameNum := frameNum
        commandQueue := l.commandQueue ++ [cmd]
        history := l.history ++ [.enqueued cmd]
        requests := l.requests + 1 } now := by
  refine ⟨h.inOrder.enqueue hfresh hencoded hid frameNum, ?_, ?_, ?_, ?_, ?_⟩
  · simpa using h.times
  · simpa using h.progress
  · intro e he
    simp only [enqueuedCommands_enqueued, List.mem_append, List.mem_singleton] at he
    rcases he with he | rfl
    · simpa using h.paced e he
    · have hnil : bytesOf e.id l.history = [] := bytesOf_eq_nil fun hmem =>
        Nat.lt_irrefl _ (hid ▸ h.inOrder.wire_requested e.id hmem)
      simpa [hnil] using paced_nil e.buffer e.passes
  · intro x hx hack hcur
    exact (h.relinquished x (by simpa using hx) hack hcur).snoc (by simp)
  · exact h.handedOver.snoc (by simp)

theorem StopAndWait.promote (h : l.StopAndWait now) {c : CommandData} {queue : List CommandData}
    (hnone : l.currentCommandData = none) (hq : l.commandQueue = c :: queue) :
    StopAndWait
      { l with
        currentCommandData := some c
        commandQueue := queue
        history := l.history ++ [.current c] } now := by
  have hmem : c ∈ l.commandQueue := hq ▸ List.mem_cons_self
  refine ⟨h.inOrder.promote hnone hq, ?_, ?_, ?_, ?_, ?_⟩
  · simpa using h.times
  · intro d hd
    obtain rfl := Option.some.inj hd
    simpa [h.inOrder.bytesOf_queue hmem] using (h.inOrder.queue_fresh c hmem).progress
  · simpa using h.paced
  · intro x hx hack hcur
    simp only [List.mem_append, List.mem_singleton, LinkEvent.current.injEq] at hx
    rcases hx with hx | rfl
    · exact (h.relinquished x hx hack (by simp [hnone])).snoc (by simp)
    · exact absurd rfl (hcur x rfl)
  · exact h.handedOver.snoc (by simp)

theorem StopAndWait.writeByte (h : l.StopAndWait now) {c : CommandData}
    (hc : l.currentCommandData = some c) (hlen : c.writtenSize < c.buffer.length)
    (hmay : c.MayWrite now) : (l.writeByte c now).StopAndWait now := by
  have hp := h.progress c hc
  refine ⟨h.inOrder.writeByte hc now, ?_, ?_, ?_, ?_, ?_⟩
  · intro t ht
    simp only [SerialLink.writeByte, wireTimes_wrote, List.mem_append, List.mem_singleton] at ht
    rcases ht with ht | rfl
    · exact h.times t ht
    · exact le_refl t
  · intro d hd
    obtain rfl := Option.some.inj hd
    simpa [SerialLink.writeByte] using
      hp.writeByte hlen hmay (fun w hw => h.time_le hw) ⟨_, _, now⟩ rfl
  · intro e he
    simp only [SerialLink.writeByte, enqueuedCommands_wrote] at he
    simp only [SerialLink.writeByte, bytesOf_wrote]
    split
    · rename_i hid
      have hsame := h.inOrder.same (h.inOrder.current_requested hc) ⟨e, he, .refl e⟩ hid
      have hpaced := h.paced e he
      rw [← hid, ← hsame.buffer, ← hsame.passes] at hpaced ⊢
      exact hpaced.snoc hp hlen hmay
    · simpa using h.paced e he
  · intro x hx hack hcur
    have hne : c.id ≠ x.id := hcur
      { c with writtenSize := c.writtenSize + 1, timestamp := now, firstrun := false } rfl
    refine (h.relinquished x (by simpa [SerialLink.writeByte] using hx) hack ?_).snoc (by simp [hne])
    intro d hd
    obtain rfl := Option.some.inj (hc.symm.trans hd)
    exact hne
  · refine h.handedOver.snoc fun x id offset byte time he hx hack hne => ?_
    obtain ⟨rfl, -, -, rfl⟩ := LinkEvent.wrote.inj he
    refine h.relinquished x hx hack fun d hd => ?_
    obtain rfl := Option.some.inj (hc.symm.trans hd)
    exact hne

theorem StopAndWait.seeFrame (h : l.StopAndWait now) (f : Frame) :
    (l.seeFrame f).StopAndWait now := by
  refine ⟨h.inOrder.seeFrame f, ?_, ?_, ?_, ?_, ?_⟩
  · simpa [SerialLink.seeFrame] using h.times
  · simpa [SerialLink.seeFrame] using h.progress
  · simpa [SerialLink.seeFrame] using h.paced
  · intro x hx hack hcur
    exact (h.relinquished x (by simpa [SerialLink.seeFrame] using hx) hack hcur).snoc (by simp)
  · exact h.handedOver.snoc (by simp)

/-- Freeing the current command keeps the discipline when it has given up the line, or
does not wait for an answer. -/
theorem StopAndWait.freeCurrent (h : l.StopAndWait now) {c : CommandData}
    (hc : l.currentCommandData = some c)
    (hfree : c.needAck = true → c.Relinquished l.history now) :
    l.freeCurrent.StopAndWait now := by
  refine ⟨h.inOrder.freeCurrent, h.times, by simp [SerialLink.freeCurrent], h.paced, ?_,
    h.handedOver⟩
  intro x hx hack _
  by_cases hid : x.id = c.id
  · have hsame := h.inOrder.promoted_same hc hx hid
    have hr := hfree (hsame.needAck ▸ hack)
    rw [CommandData.Relinquished] at hr ⊢
    rwa [hsame.id, hsame.command, hsame.frameNum, hsame.buffer]
  · refine h.relinquished x hx hack fun d hd => ?_
    obtain rfl := Option.some.inj (hc.symm.trans hd)
    exact Ne.symm hid

theorem stopAndWait_step (hstep : Step mayRelease now l l') (h : l.StopAndWait now) :
    l'.StopAndWait now := by
  cases hstep with
  | enqueue cmd frameNum hfresh hencoded hid => exact h.enqueue hfresh hencoded hid frameNum
  | evict c queue hq => exact { h with inOrder := h.inOrder.evict hq }
  | promote c queue hnone hq => exact h.promote hnone hq
  | write c hc hlen hmay => exact h.writeByte hc hlen hmay
  | giveUp c hc hrun hwritten htime hretry =>
    have hp := h.progress c hc
    refine h.freeCurrent hc fun hack => .inr ⟨hp.length_of_retry_zero hack hretry, fun w hw => ?_⟩
    have := hp.times w hw
    omega
  | finish c hc hlen hack =>
    have hfalse := (h.progress c hc).needAck_of_finish
      (h.inOrder.length_pos (h.inOrder.current_requested hc)) hlen hack
    exact h.freeCurrent hc (by simp [hfalse])
  | rewind c hc hlen hack hretry =>
    have hrewind : Step mayRelease now l _ := .rewind l c hc hlen hack hretry
    refine ⟨inOrder_step hrewind h.inOrder, h.times, ?_, h.paced, ?_, h.handedOver⟩
    · intro d hd
      obtain rfl := Option.some.inj hd
      exact (h.progress c hc).rewind hlen hack hretry
    · intro x hx hneed hcur
      refine h.relinquished x hx hneed fun d hd => ?_
      obtain rfl := Option.some.inj (hc.symm.trans hd)
      exact hcur { c with retryCount := c.retryCount - 1, writtenSize := 0 } rfl
  | ignored f hf => exact h.seeFrame f
  | released f c hc hanswers hmay =>
    refine (h.seeFrame f).freeCurrent (c := c) hc fun _ => .inl ⟨f.command, hanswers.1.symm, ?_⟩
    simp [SerialLink.seeFrame, hc, hanswers.2]
  | source b => exact { h with inOrder := { h.inOrder with } }
  | counter n => exact { h with inOrder := { h.inOrder with } }

theorem StopAndWait.steps (h : l.StopAndWait now) (hsteps : Steps mayRelease now l l') :
    l'.StopAndWait now :=
  hsteps.invariant (fun _ _ => stopAndWait_step) h

/-- The part of the current frame that is on the wire. -/
def unfinished (l : SerialLink) : List UInt8 :=
  (l.currentCommandData.map fun c => c.buffer.take c.writtenSize).getD []

/-- The line carries whole frames of requested commands and then a beginning of the
current one. -/
def Intact (l : SerialLink) : Prop :=
  ∃ frames : List (List UInt8),
    (∀ frame ∈ frames, ∃ e ∈ enqueuedCommands l.history, frame = e.buffer) ∧
    wire l.history = frames.flatten ++ l.unfinished

/-- A command may be released only between two passes. -/
def AtPassBoundary (c : CommandData) : Prop := c.writtenSize = 0

instance : DecidablePred AtPassBoundary := fun c => inferInstanceAs (Decidable (c.writtenSize = 0))

theorem intact_opened (l : SerialLink) : l.opened.Intact :=
  ⟨[], by simp, by simp [opened, wire, unfinished]⟩

theorem Intact.complete {c : CommandData} (h : l.Intact) (hord : l.InOrder)
    (hc : l.currentCommandData = some c) (hlen : c.buffer.length ≤ c.writtenSize) :
    ∃ frames : List (List UInt8),
      (∀ frame ∈ frames, ∃ e ∈ enqueuedCommands l.history, frame = e.buffer) ∧
      wire l.history = frames.flatten := by
  obtain ⟨frames, hframes, hwire⟩ := h
  obtain ⟨e, he, hsame⟩ := hord.current_requested hc
  refine ⟨frames ++ [c.buffer], fun frame hf => ?_, ?_⟩
  · rcases List.mem_append.mp hf with hf | hf
    · exact hframes frame hf
    · exact ⟨e, he, by rw [List.mem_singleton.mp hf, hsame.buffer]⟩
  · simp [hwire, unfinished, hc, List.take_of_length_le hlen]

theorem intact_step (hstep : Step AtPassBoundary now l l') (hord : l.InOrder) (h : l.Intact) :
    l'.Intact := by
  have hstart {c : CommandData} (hc : l.currentCommandData = some c) (hzero : c.writtenSize = 0) :
      l.unfinished = [] := by simp [unfinished, hc, hzero]
  cases hstep with
  | enqueue cmd frameNum hfresh hencoded hid =>
    obtain ⟨frames, hframes, hwire⟩ := h
    refine ⟨frames, fun frame hf => ?_, by simpa [unfinished] using hwire⟩
    obtain ⟨e, he, hbuffer⟩ := hframes frame hf
    exact ⟨e, by simp [he], hbuffer⟩
  | evict c queue hq => exact h
  | promote c queue hnone hq =>
    obtain ⟨frames, hframes, hwire⟩ := h
    have hfresh := hord.queue_fresh c (hq ▸ List.mem_cons_self)
    refine ⟨frames, by simpa using hframes, ?_⟩
    simpa [unfinished, hnone, hfresh.writtenSize] using hwire
  | write c hc hlen hmay =>
    obtain ⟨frames, hframes, hwire⟩ := h
    refine ⟨frames, by simpa [writeByte] using hframes, ?_⟩
    have htake : c.buffer.take (c.writtenSize + 1) =
        c.buffer.take c.writtenSize ++ [c.buffer.getD c.writtenSize 0] := by
      rw [List.take_add_one, List.getD_eq_getElem?_getD, List.getElem?_eq_getElem hlen]
      rfl
    simp [writeByte, unfinished, hwire, hc, htake]
  | giveUp c hc hrun hwritten htime hretry =>
    obtain ⟨frames, hframes, hwire⟩ := h
    exact ⟨frames, hframes, by rw [hstart hc hwritten] at hwire; exact hwire⟩
  | finish c hc hlen hack =>
    obtain ⟨frames, hframes, hwire⟩ := h.complete hord hc hlen
    exact ⟨frames, hframes, by simpa [freeCurrent, unfinished] using hwire⟩
  | rewind c hc hlen hack hretry =>
    obtain ⟨frames, hframes, hwire⟩ := h.complete hord hc hlen
    exact ⟨frames, hframes, by simpa [unfinished] using hwire⟩
  | ignored f hf =>
    obtain ⟨frames, hframes, hwire⟩ := h
    exact ⟨frames, by simpa [seeFrame] using hframes, by simpa [seeFrame, unfinished] using hwire⟩
  | released f c hc hanswers hmay =>
    obtain ⟨frames, hframes, hwire⟩ := h
    rw [hstart hc hmay] at hwire
    exact ⟨frames, by simpa [seeFrame, freeCurrent] using hframes,
      by simpa [seeFrame, freeCurrent, unfinished] using hwire⟩
  | source b => exact h
  | counter n => exact h

theorem Intact.steps (h : l.Intact) (hord : l.InOrder) (hsteps : Steps AtPassBoundary now l l') :
    l'.Intact ∧ l'.InOrder :=
  hsteps.invariant (P := fun l => l.Intact ∧ l.InOrder)
    (fun _ _ hstep h => ⟨intact_step hstep h.2 h.1, inOrder_step hstep h.2⟩) ⟨h, hord⟩

end SerialLink
end PcatManager
