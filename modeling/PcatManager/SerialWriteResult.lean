import PcatManager.SerialWriteLoop
import PcatManager.SerialQueue

/-!
# The result of the last write

The write watch decides whether to stay installed by the result of the last `write()` of
its loop, and the variable that holds it has no initial value. The loop assigns it exactly
when it finds something to send.
-/

namespace PcatManager
open SerialFrame GuardedRun

theorem CommandData.Fresh.unfinished {c : CommandData} (hfresh : c.Fresh) (hencoded : c.Encoded) :
    c.writtenSize < c.buffer.length := by
  rw [hfresh.writtenSize]
  exact hencoded.length_pos

namespace SerialLink

/-- Everything to be sent has bytes, and what is queued is as it was requested. -/
structure Sendable (l : SerialLink) : Prop where
  current : ∀ c, l.currentCommandData = some c → 0 < c.buffer.length
  queue : ∀ c ∈ l.commandQueue, c.Fresh ∧ c.Encoded

/-- No call leaves a completely written command current. -/
structure Unfinished (l : SerialLink) : Prop extends Sendable l where
  unfinished : ∀ c, l.currentCommandData = some c → c.writtenSize < c.buffer.length

variable {mayRelease : CommandData → Prop} {now : ℤ} {l l' : SerialLink}

theorem Sendable.freeCurrent (h : l.Sendable) : l.freeCurrent.Sendable :=
  ⟨by simp [SerialLink.freeCurrent], h.queue⟩

theorem sendable_step (hstep : Step mayRelease now l l') (h : l.Sendable) : l'.Sendable := by
  cases hstep with
  | enqueue cmd frameNum hfresh hencoded hid =>
    refine ⟨h.current, fun c hc => ?_⟩
    rcases List.mem_append.mp hc with hc | hc
    · exact h.queue c hc
    · rw [List.mem_singleton.mp hc]
      exact ⟨hfresh, hencoded⟩
  | evict c queue hqueue =>
    exact ⟨h.current, fun d hd => h.queue d (hqueue ▸ List.mem_cons_of_mem c hd)⟩
  | promote c queue hnone hqueue =>
    refine ⟨fun d hd => ?_, fun d hd => h.queue d (hqueue ▸ List.mem_cons_of_mem c hd)⟩
    obtain rfl := Option.some.inj hd
    exact (h.queue c (hqueue ▸ List.mem_cons_self)).2.length_pos
  | write c hc hlen hmay =>
    refine ⟨fun d hd => ?_, h.queue⟩
    obtain rfl := Option.some.inj hd
    exact h.current c hc
  | giveUp c hc hrun hwritten htime hretry => exact h.freeCurrent
  | finish c hc hlen hack => exact h.freeCurrent
  | rewind c hc hlen hack hretry =>
    refine ⟨fun d hd => ?_, h.queue⟩
    obtain rfl := Option.some.inj hd
    exact h.current c hc
  | ignored f hf => exact ⟨h.current, h.queue⟩
  | released f c hc hanswers hmay => exact ⟨by simp [SerialLink.freeCurrent], h.queue⟩
  | source b => exact ⟨h.current, h.queue⟩
  | counter n => exact ⟨h.current, h.queue⟩

theorem Sendable.steps (h : l.Sendable) (hsteps : Steps mayRelease now l l') : l'.Sendable :=
  hsteps.invariant (fun _ _ => sendable_step) h

/-- The end of the write watch leaves no completely written command. -/
theorem unfinished_endPass (h : l.Sendable) {c : CommandData}
    (hc : l.endPass.currentCommandData = some c) : c.writtenSize < c.buffer.length := by
  rw [endPass] at hc
  split at hc
  · rename_i hnone
    rw [hnone] at hc
    cases hc
  · rename_i d hd
    split_ifs at hc with hlen hack
    · obtain rfl := Option.some.inj hc
      exact h.current d hd
    · cases hc
    · obtain rfl := Option.some.inj (hd.symm.trans hc)
      exact Nat.not_le.mp hlen

/-- The current command after taking a new one where there is none. -/
theorem current_refill {c : CommandData}
    (hc : (if l.currentCommandData.isNone then l.popCurrent else l).currentCommandData = some c) :
    l.currentCommandData = some c ∨ c ∈ l.commandQueue := by
  split at hc
  · rename_i hnone
    rw [popCurrent] at hc
    split at hc
    · exact .inl hc
    · rename_i d queue hqueue
      obtain rfl := Option.some.inj hc
      exact .inr (hqueue ▸ List.mem_cons_self)
  · exact .inl hc

/-- A request keeps the current command or makes one current that is as requested. -/
theorem unfinished_serialWriteDataRequest (h : l.Unfinished) (command : UInt16)
    (frameNum : Option UInt16) (extraData : List UInt8) (needAck : Bool) {c : CommandData}
    (hc : (l.serialWriteDataRequest now command frameNum extraData needAck).currentCommandData =
      some c) : c.writtenSize < c.buffer.length := by
  rw [serialWriteDataRequest] at hc
  rcases current_refill hc with hold | hmem
  · exact h.unfinished c hold
  · obtain ⟨evicted, hqueue, -⟩ := exists_evicted l.commandQueue
    rcases List.mem_append.mp hmem with hmem | hmem
    · have hsent := h.queue c (hqueue ▸ List.mem_append_right evicted hmem)
      exact hsent.1.unfinished hsent.2
    · rw [List.mem_singleton.mp hmem]
      exact (newCommandData_fresh l command frameNum extraData needAck).unfinished
        (newCommandData_encoded l command frameNum extraData needAck)

theorem unfinished_call (h : l.Unfinished) (c : Call) : (l.call c).Unfinished := by
  obtain ⟨now, hsteps⟩ := steps_call l c
  refine ⟨h.toSendable.steps hsteps, fun d hd => ?_⟩
  cases c with
  | request now command frameNum extraData needAck =>
    exact unfinished_serialWriteDataRequest h command frameNum extraData needAck hd
  | writeWatch now writes wsize =>
    rw [call] at hd
    split at hd
    · rw [serialWriteWatchFunc] at hd
      split at hd
      · exact h.unfinished d hd
      · rename_i l' wsize' k hloop
        have hsteps : Steps (fun _ => True) now l l' := steps_writeLoop _ hloop
        exact unfinished_endPass (h.toSendable.steps hsteps) hd
    · exact h.unfinished d hd
  | frame f =>
    rw [call, releaseAnswered] at hd
    split at hd
    · rename_i hnone
      rw [hnone] at hd
      cases hd
    · rename_i c hc
      split at hd
      · cases hd
      · exact h.unfinished d hd
  | tick now =>
    obtain ⟨b, harm⟩ := exists_armWriteSource l now
    rw [call, harm] at hd
    exact h.unfinished d hd

variable {writes : ℕ → WriteResult}

theorem count_le_writeLoop (fuel : ℕ) {k k' : ℕ} {l l' : SerialLink} {wsize wsize' : WriteResult}
    (h : writeLoop now writes fuel k l wsize = some (l', wsize', k')) : k ≤ k' := by
  induction fuel generalizing k l wsize with
  | zero => cases h
  | succ fuel ih =>
    obtain ⟨l₁, -, ⟨-, hle⟩ | ⟨-, hrest⟩ | ⟨c, n, -, hrest⟩⟩ := writeLoop_cases h
    · exact hle
    · exact ih hrest
    · exact (Nat.le_succ k).trans (ih hrest)

/-- A command that may be written and is not complete is written first. -/
theorem count_lt_writeLoop {fuel k k' : ℕ} {wsize wsize' : WriteResult} {c : CommandData}
    (hc : (if l.currentCommandData.isNone then l.popCurrent else l).currentCommandData = some c)
    (hmay : c.MayWrite now) (hlen : c.writtenSize < c.buffer.length)
    (h : writeLoop now writes fuel k l wsize = some (l', wsize', k')) : k < k' := by
  cases fuel with
  | zero => cases h
  | succ fuel =>
    have hwait : ¬(!c.firstrun && c.writtenSize = 0 && now ≤ c.timestamp + commandTimeout) = true := by
      rcases hmay with hrun | hwritten | ⟨htime, -⟩
      · simp [hrun]
      · simp [hwritten]
      · simp [htime]
    have hspent : ¬(!c.firstrun && c.writtenSize = 0 && c.retryCount = 0) = true := by
      rcases hmay with hrun | hwritten | ⟨-, hretry⟩
      · simp [hrun]
      · simp [hwritten]
      · simp [hretry]
    rw [writeLoop] at h
    generalize (if l.currentCommandData.isNone then l.popCurrent else l) = l₁ at h hc
    simp only [hc, if_neg hwait, if_neg hspent, if_neg (Nat.not_le.mpr hlen)] at h
    cases hw : writes k with
    | written n =>
      simp only [hw] at h
      split at h
      · exact Nat.lt_of_succ_le (count_le_writeLoop fuel h)
      · cases h
        exact Nat.lt_succ_self _
    | again =>
      simp only [hw] at h
      cases h
      exact Nat.lt_succ_self _
    | failed =>
      simp only [hw] at h
      cases h
      exact Nat.lt_succ_self _

/-- Once a write was reached the initial value of the variable does not matter. -/
theorem writeLoop_congr (fuel : ℕ) {k k' : ℕ} {l l' : SerialLink} {wsize wsize' : WriteResult}
    (h : writeLoop now writes fuel k l wsize = some (l', wsize', k')) (hlt : k < k')
    (initial : WriteResult) :
    writeLoop now writes fuel k l initial = some (l', wsize', k') := by
  induction fuel generalizing k l wsize with
  | zero => cases h
  | succ fuel ih =>
    rw [writeLoop] at h ⊢
    generalize (if l.currentCommandData.isNone then l.popCurrent else l) = l₁ at h ⊢
    dsimp only at h ⊢
    split at h
    · cases h
      exact absurd hlt (Nat.lt_irrefl _)
    · rename_i c hc
      split_ifs at h ⊢
      · cases h
        exact absurd hlt (Nat.lt_irrefl _)
      · exact ih h hlt
      · cases h
        exact absurd hlt (Nat.lt_irrefl _)
      · exact ih h hlt
      · exact h

/-- The write watch has something to send at time `now`: the current command may be
written, or there is none or it is given up, and the queue holds another. -/
def Sends (l : SerialLink) (now : ℤ) : Prop :=
  match l.currentCommandData with
  | none => l.commandQueue ≠ []
  | some c => c.MayWrite now ∨ (c.timestamp + commandTimeout < now ∧ l.commandQueue ≠ [])

/-- Without a current command the loop writes the head of the queue, if there is one. -/
theorem count_pos_iff_of_none (h : l.Sendable) (hnone : l.currentCommandData = none) {fuel k : ℕ}
    {wsize wsize' : WriteResult}
    (hloop : writeLoop now writes fuel 0 l wsize = some (l', wsize', k)) :
    0 < k ↔ l.commandQueue ≠ [] := by
  have hrefill : (if l.currentCommandData.isNone then l.popCurrent else l) = l.popCurrent := by
    rw [hnone, Option.isNone_none, if_pos rfl]
  cases hqueue : l.commandQueue with
  | nil =>
    have hpop : l.popCurrent = l := by rw [popCurrent, hqueue]
    cases fuel with
    | zero => cases hloop
    | succ fuel =>
      rw [writeLoop, hrefill, hpop] at hloop
      simp only [hnone] at hloop
      cases hloop
      exact iff_of_false (Nat.lt_irrefl 0) fun hne => hne rfl
  | cons c queue =>
    obtain ⟨hfresh, hencoded⟩ := h.queue c (hqueue ▸ List.mem_cons_self)
    have hcurrent : l.popCurrent.currentCommandData = some c := by rw [popCurrent, hqueue]
    exact iff_of_true (count_lt_writeLoop (by rw [hrefill]; exact hcurrent) (.inl hfresh.firstrun)
      (hfresh.unfinished hencoded) hloop) (List.cons_ne_nil c queue)

/-- A command that may not be written is waiting, or has no retry left. -/
theorem not_mayWrite {c : CommandData} (h : ¬c.MayWrite now) :
    c.firstrun = false ∧ c.writtenSize = 0 ∧
      (c.timestamp + commandTimeout < now → c.retryCount = 0) := by
  rw [CommandData.MayWrite, not_or, not_or, not_and, not_not, not_not] at h
  exact ⟨Bool.eq_false_iff.mpr h.1, h.2⟩

/-- The loop of the write watch reaches a `write()` exactly when there is something to send. -/
theorem count_pos_iff (h : l.Unfinished) {fuel k : ℕ} {wsize wsize' : WriteResult}
    (hloop : writeLoop now writes fuel 0 l wsize = some (l', wsize', k)) : 0 < k ↔ l.Sends now := by
  rw [Sends]
  cases hcurrent : l.currentCommandData with
  | none => exact count_pos_iff_of_none h.toSendable hcurrent hloop
  | some c =>
    have hrefill : (if l.currentCommandData.isNone then l.popCurrent else l) = l := by
      rw [hcurrent, Option.isNone_some, if_neg Bool.false_ne_true]
    by_cases hmay : c.MayWrite now
    · exact iff_of_true (count_lt_writeLoop (by rw [hrefill]; exact hcurrent) hmay
        (h.unfinished c hcurrent) hloop) (.inl hmay)
    · obtain ⟨hrun, hwritten, hretry⟩ := not_mayWrite hmay
      cases fuel with
      | zero => cases hloop
      | succ fuel =>
        rw [writeLoop, hrefill] at hloop
        simp only [hcurrent, hrun, hwritten, Bool.not_false, decide_true, Bool.true_and,
          decide_eq_true_eq] at hloop
        by_cases htime : c.timestamp + commandTimeout < now
        · -- The command is given up and the loop goes on with the queue.
          rw [if_neg (not_le.mpr htime), if_pos (hretry htime)] at hloop
          have hnext := count_pos_iff_of_none h.toSendable.freeCurrent rfl hloop
          refine hnext.trans ⟨fun hqueue => .inr ⟨htime, hqueue⟩, ?_⟩
          rintro (hmay' | ⟨-, hqueue⟩)
          · exact absurd hmay' hmay
          · exact hqueue
        · rw [if_pos (not_lt.mp htime)] at hloop
          cases hloop
          refine iff_of_false (Nat.lt_irrefl 0) ?_
          rintro (hmay' | ⟨htime', -⟩)
          · exact hmay hmay'
          · exact htime htime'

/-- One firing of the write watch: the result that is tested after the loop was assigned by
a `write()` of this firing, and what the firing does depends on the link, the time and the
results of `write()` alone. -/
structure WriteAssigned (l : SerialLink) (now : ℤ) (writes : ℕ → WriteResult) : Prop where
  assigned : ∃ l' wsize' k, 0 < k ∧
    ∀ wsize, writeLoop now writes (l.pendingTurns + 1) 0 l wsize = some (l', wsize', k)
  determined : ∀ wsize wsize', l.serialWriteWatchFunc now writes wsize =
    l.serialWriteWatchFunc now writes wsize'

/-- Exactly a firing that finds something to send tests a result of its own. -/
theorem writeAssigned_iff (h : l.Unfinished) (writes : ℕ → WriteResult) :
    l.WriteAssigned now writes ↔ l.Sends now := by
  have hends : (SerialLink.writeLoop now writes (l.pendingTurns + 1) 0 l .again).isSome :=
    writeLoop_isSome writes _ 0 l .again (Nat.lt_succ_self _)
  obtain ⟨⟨l', wsize', k⟩, hloop⟩ := Option.isSome_iff_exists.mp hends
  rw [← count_pos_iff h hloop]
  constructor
  · rintro ⟨⟨l'', wsize'', k', hpos, hall⟩, -⟩
    have hcount : k = k' := congrArg (fun r => r.2.2) (Option.some.inj (hloop.symm.trans (hall .again)))
    exact hcount ▸ hpos
  · intro hpos
    have hall (wsize : WriteResult) := writeLoop_congr _ hloop hpos wsize
    refine ⟨⟨l', wsize', k, hpos, hall⟩, fun wsize wsize'' => ?_⟩
    rw [serialWriteWatchFunc, serialWriteWatchFunc, hall wsize, hall wsize'']

theorem Idle.unfinished (h : l.Idle) : l.Unfinished :=
  ⟨⟨by simp [h.current], by simp [h.queue]⟩, by simp [h.current]⟩

theorem unfinished_opened (l : SerialLink) : l.opened.Unfinished :=
  ⟨⟨by simp [opened], by simp [opened]⟩, by simp [opened]⟩

end SerialLink

namespace World

theorem LinkCalled.unfinished {w : World} (h : w.LinkCalled) : w.pmu.link.Unfinished :=
  h.invariant (fun _ hidle => hidle.unfinished) SerialLink.unfinished_opened
    fun _ c h => SerialLink.unfinished_call h c

/-- If the event is a firing of the installed write watch, it tests a result of its own. -/
def WriteAssigned (w : World) : Event → Prop
  | .writeWatch writes _ =>
    w.pmu.link.writeSource = true → w.pmu.link.WriteAssigned w.monotonicTime writes
  | _ => True

/-- If the event is a firing of the installed write watch, it has something to send. -/
def FindsWork (w : World) : Event → Prop
  | .writeWatch _ _ => w.pmu.link.writeSource = true → w.pmu.link.Sends w.monotonicTime
  | _ => True

/-- Along a run every firing of the write watch tests a result of its own exactly when every
firing has something to send. -/
theorem write_assigned_iff (w : World) (events : List Event) :
    Along step WriteAssigned w.start events ↔ Along step FindsWork w.start events := by
  refine along_congr (I := LinkCalled) (fun _ e h => h.step e) ?_ (linkCalled_start w) events
  intro w e h
  cases e with
  | writeWatch writes wsize =>
    exact imp_congr_right fun _ => SerialLink.writeAssigned_iff h.unfinished writes
  | _ => exact Iff.rfl

/-- The first command is on the line and waits for its answer when the tick queues the next
one and installs the write watch. -/
def waitingRun : List Event :=
  [.init true, .writeWatch (fun _ => .written 20) .again, .elapse 500000, .tick]

/-- The write watch then ends its loop before any `write()`, and whether it stays installed
is left to what the variable holds. -/
theorem waiting_unassigned :
    ¬Along step WriteAssigned plain.start (waitingRun ++ [.writeWatch (fun _ => .written 20) .again]) ∧
      ((run step plain.start waitingRun).step
        (.writeWatch (fun _ => .written 20) .again)).pmu.link.writeSource = true ∧
      ((run step plain.start waitingRun).step
        (.writeWatch (fun _ => .written 20) .failed)).pmu.link.writeSource = false := by
  refine ⟨fun h => ?_, by decide +kernel, by decide +kernel⟩
  have hfired := ((along_concat _ _ _).mp h).2
  have hsame := congrArg SerialLink.writeSource
    ((hfired (by decide +kernel)).determined .again .failed)
  exact absurd hsame (by decide +kernel)

end World
end PcatManager
