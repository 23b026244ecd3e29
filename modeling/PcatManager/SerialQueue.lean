import PcatManager.SerialLine
import PcatManager.SerialLinkCalls

/-!
# The command queue

What enters the queue, what leaves it and when a command is evicted. The queue may hold one
command more than its limit: the limit is tested before a request is queued, and a request
that finds a current command stays in the queue.
-/

namespace PcatManager
open SerialFrame GuardedRun

def LinkEvent.current? : LinkEvent → Option CommandData
  | .current cmd => some cmd
  | _ => none

/-- The commands that became current, in order. -/
def promotedCommands (history : List LinkEvent) : List CommandData :=
  history.filterMap LinkEvent.current?

section Readings
variable (history : List LinkEvent) (cmd : CommandData) (current : Option ℕ)
  (command frameNum : UInt16)

@[simp] theorem promotedCommands_enqueued :
    promotedCommands (history ++ [.enqueued cmd]) = promotedCommands history := by
  simp [promotedCommands, LinkEvent.current?]

@[simp] theorem promotedCommands_current :
    promotedCommands (history ++ [.current cmd]) = promotedCommands history ++ [cmd] := by
  simp [promotedCommands, LinkEvent.current?]

@[simp] theorem promotedCommands_parsed :
    promotedCommands (history ++ [.parsed current command frameNum]) =
      promotedCommands history := by
  simp [promotedCommands, LinkEvent.current?]

end Readings

namespace SerialLink

/-- The queue is a block of the requests made so far that ends with the latest one. -/
def LatestRequests (l : SerialLink) : Prop := l.commandQueue <:+ enqueuedCommands l.history

/-- Commands enter the queue at its tail as they are requested and leave it at its head,
the evicted ones before those that become current. Keeping even the last of the evicted
ones would exceed the limit. -/
def EvictsForRoom (l l' : SerialLink) : Prop :=
  ∃ new promoted evicted : List CommandData,
    enqueuedCommands l'.history = enqueuedCommands l.history ++ new ∧
    promotedCommands l'.history = promotedCommands l.history ++ promoted ∧
    l.commandQueue ++ new = evicted ++ promoted ++ l'.commandQueue ∧
    (evicted ≠ [] → commandQueueMax < l'.commandQueue.length + 1)

variable {l l' : SerialLink}

/-- Whatever moves commands like this leaves the latest requests in the queue. -/
theorem EvictsForRoom.latestRequests (h : EvictsForRoom l l') (hl : l.LatestRequests) :
    l'.LatestRequests := by
  obtain ⟨new, promoted, evicted, hnew, -, hqueue, -⟩ := h
  rw [LatestRequests, hnew]
  have hgrown : l.commandQueue ++ new <:+ enqueuedCommands l.history ++ new :=
    List.suffix_append_self_iff.mpr hl
  rw [hqueue] at hgrown
  exact (List.suffix_append _ _).trans hgrown

/-- A call that requests nothing and only takes commands from the head. -/
theorem EvictsForRoom.of_promoted (promoted : List CommandData)
    (hnew : enqueuedCommands l'.history = enqueuedCommands l.history)
    (hpromoted : promotedCommands l'.history = promotedCommands l.history ++ promoted)
    (hqueue : l.commandQueue = promoted ++ l'.commandQueue) : EvictsForRoom l l' :=
  ⟨[], promoted, [], by rw [hnew, List.append_nil], hpromoted,
    by rw [List.append_nil, hqueue, List.nil_append],
    fun h => absurd rfl h⟩

theorem EvictsForRoom.refl (l : SerialLink) : EvictsForRoom l l :=
  .of_promoted [] rfl (List.append_nil _).symm rfl

theorem exists_promoted_refill (l : SerialLink) : ∃ promoted,
    promotedCommands (if l.currentCommandData.isNone then l.popCurrent else l).history =
      promotedCommands l.history ++ promoted ∧
    l.commandQueue =
      promoted ++ (if l.currentCommandData.isNone then l.popCurrent else l).commandQueue := by
  split
  · rw [popCurrent]
    split
    · exact ⟨[], (List.append_nil _).symm, rfl⟩
    · rename_i c queue hqueue
      exact ⟨[c], promotedCommands_current _ _, hqueue⟩
  · exact ⟨[], (List.append_nil _).symm, rfl⟩

theorem promotedCommands_recordWrite (l : SerialLink) (c : CommandData) (n : ℕ) (now : ℤ) :
    promotedCommands (l.recordWrite c n now).history = promotedCommands l.history := by
  rw [recordWrite]
  simp only [promotedCommands, List.filterMap_append, List.append_right_eq_self]
  rw [List.filterMap_map, List.filterMap_eq_nil_iff]
  intro k _
  rfl

theorem exists_promoted_writeLoop {now : ℤ} {writes : ℕ → WriteResult} (fuel : ℕ) {k k' : ℕ}
    {wsize wsize' : WriteResult}
    (h : writeLoop now writes fuel k l wsize = some (l', wsize', k')) : ∃ promoted,
      promotedCommands l'.history = promotedCommands l.history ++ promoted ∧
      l.commandQueue = promoted ++ l'.commandQueue := by
  induction fuel generalizing k l wsize with
  | zero => cases h
  | succ fuel ih =>
    obtain ⟨promoted, hhistory, hqueue⟩ := exists_promoted_refill l
    obtain ⟨l₁, hrefill, hturn⟩ := writeLoop_cases h
    rw [hrefill] at hhistory hqueue
    have hturns (l₂ : SerialLink) (hsame : promotedCommands l₂.history = promotedCommands l₁.history)
        (hrest : l₂.commandQueue = l₁.commandQueue) {k : ℕ} {wsize : WriteResult}
        (h : writeLoop now writes fuel k l₂ wsize = some (l', wsize', k')) : ∃ promoted,
          promotedCommands l'.history = promotedCommands l.history ++ promoted ∧
          l.commandQueue = promoted ++ l'.commandQueue := by
      obtain ⟨more, hmore, hleft⟩ := ih h
      refine ⟨promoted ++ more, ?_, ?_⟩
      · rw [hmore, hsame, hhistory, List.append_assoc]
      · rw [hqueue, ← hrest, hleft, List.append_assoc]
    obtain ⟨rfl, -⟩ | ⟨-, hrest⟩ | ⟨c, n, -, hrest⟩ := hturn
    · exact ⟨promoted, hhistory, hqueue⟩
    · exact hturns l₁.freeCurrent rfl rfl hrest
    · exact hturns _ (promotedCommands_recordWrite l₁ c n now) rfl hrest

theorem evictsForRoom_serialWriteWatchFunc (l : SerialLink) (now : ℤ) (writes : ℕ → WriteResult)
    (wsize : WriteResult) : EvictsForRoom l (l.serialWriteWatchFunc now writes wsize) := by
  have hnew := enqueuedCommands_serialWriteWatchFunc l now writes wsize
  rw [serialWriteWatchFunc] at hnew ⊢
  split at hnew
  · exact .refl l
  · rename_i l' wsize' k' h
    obtain ⟨promoted, hhistory, hqueue⟩ := exists_promoted_writeLoop _ h
    obtain ⟨hsame, hrest⟩ := endPass_frame l'
    refine .of_promoted promoted hnew ?_ ?_
    · exact (congrArg promotedCommands hsame).trans hhistory
    · exact hqueue.trans (congrArg (promoted ++ ·) hrest.symm)

/-- What the loop over the limit drops is no longer than it has to be. -/
theorem exists_evicted (queue : List CommandData) :
    ∃ evicted, queue = evicted ++ evictOldest queue ∧
      (evictOldest queue).length = min queue.length commandQueueMax ∧
      (evicted ≠ [] → (evictOldest queue).length = commandQueueMax) := by
  induction queue with
  | nil => exact ⟨[], rfl, rfl, fun h => absurd rfl h⟩
  | cons c queue ih =>
    rw [evictOldest]
    split
    · rename_i hfull
      obtain ⟨evicted, hqueue, hlength, -⟩ := ih
      refine ⟨c :: evicted, congrArg (c :: ·) hqueue, ?_, fun _ => ?_⟩
      · rw [hlength, List.length_cons]
        omega
      · rw [hlength]
        omega
    · rename_i hroom
      refine ⟨[], rfl, ?_, fun h => absurd rfl h⟩
      rw [List.length_cons]
      omega

section Request
variable (l : SerialLink) (now : ℤ) (command : UInt16) (frameNum : Option UInt16)
  (extraData : List UInt8) (needAck : Bool)

/-- A request that finds a current command leaves its own at the end of the queue; one that
finds none makes the head of the queue current. -/
theorem commandQueue_serialWriteDataRequest :
    (l.serialWriteDataRequest now command frameNum extraData needAck).commandQueue =
      (evictOldest l.commandQueue ++
        [l.newCommandData now command frameNum extraData needAck]).drop
        (if l.currentCommandData.isNone then 1 else 0) := by
  rw [serialWriteDataRequest]
  cases l.currentCommandData with
  | none =>
    cases evictOldest l.commandQueue with
    | nil => simp [popCurrent]
    | cons c queue => simp [popCurrent]
  | some c => simp

theorem length_serialWriteDataRequest :
    (l.serialWriteDataRequest now command frameNum extraData needAck).commandQueue.length =
      min l.commandQueue.length commandQueueMax + if l.currentCommandData.isNone then 0 else 1 := by
  obtain ⟨evicted, -, hlength, -⟩ := exists_evicted l.commandQueue
  rw [commandQueue_serialWriteDataRequest, List.length_drop, List.length_append, hlength,
    List.length_singleton]
  split <;> omega

theorem evictsForRoom_serialWriteDataRequest :
    EvictsForRoom l (l.serialWriteDataRequest now command frameNum extraData needAck) := by
  obtain ⟨evicted, hqueue, hlength, hfull⟩ := exists_evicted l.commandQueue
  have hkept := length_serialWriteDataRequest l now command frameNum extraData needAck
  have hnew := enqueuedCommands_serialWriteDataRequest l now command frameNum extraData needAck
  obtain ⟨promoted, hhistory, hrest⟩ := exists_promoted_refill
    { l with
      frameNum := if frameNum.isSome then l.frameNum else l.frameNum + 1
      commandQueue := evictOldest l.commandQueue ++
        [l.newCommandData now command frameNum extraData needAck]
      history := l.history ++
        [.enqueued (l.newCommandData now command frameNum extraData needAck)]
      requests := l.requests + 1 }
  refine ⟨[l.newCommandData now command frameNum extraData needAck], promoted, evicted, hnew, ?_, ?_,
    fun hevicted => ?_⟩
  · rw [promotedCommands_enqueued] at hhistory
    exact hhistory
  · have hsplit : l.commandQueue ++ [l.newCommandData now command frameNum extraData needAck] =
        evicted ++ (evictOldest l.commandQueue ++
          [l.newCommandData now command frameNum extraData needAck]) := by
      rw [← List.append_assoc, ← hqueue]
    rw [hsplit, List.append_assoc]
    exact congrArg (evicted ++ ·) hrest
  · have := hfull hevicted
    omega

end Request

theorem evictsForRoom_call (l : SerialLink) (c : Call) : EvictsForRoom l (l.call c) := by
  cases c with
  | request now command frameNum extraData needAck =>
    exact evictsForRoom_serialWriteDataRequest l now command frameNum extraData needAck
  | writeWatch now writes wsize =>
    rw [call]
    split
    · exact evictsForRoom_serialWriteWatchFunc l now writes wsize
    · exact .refl l
  | frame f =>
    refine .of_promoted [] (enqueuedCommands_releaseAnswered l f) ?_ ?_
    · rw [call, releaseAnswered, List.append_nil]
      split
      · exact promotedCommands_parsed _ _ _ _
      · split
        · exact promotedCommands_parsed _ _ _ _
        · exact promotedCommands_parsed _ _ _ _
    · rw [call, releaseAnswered]
      split
      · rfl
      · split <;> rfl
  | tick now =>
    obtain ⟨b, harm⟩ := exists_armWriteSource l now
    rw [call, harm]
    exact .of_promoted [] rfl (List.append_nil _).symm rfl

theorem length_call_le (l : SerialLink) (c : Call)
    (h : ∀ now command frameNum extraData needAck,
      c ≠ .request now command frameNum extraData needAck) :
    (l.call c).commandQueue.length ≤ l.commandQueue.length := by
  obtain ⟨new, promoted, evicted, hnew, -, hqueue, -⟩ := evictsForRoom_call l c
  have hnone : new = [] := by
    cases c with
    | request now command frameNum extraData needAck => exact absurd rfl (h _ _ _ _ _)
    | writeWatch now writes wsize =>
      rw [call] at hnew
      split at hnew
      · rw [enqueuedCommands_serialWriteWatchFunc] at hnew
        exact List.self_eq_append_right.mp hnew
      · exact List.self_eq_append_right.mp hnew
    | frame f =>
      rw [call, enqueuedCommands_releaseAnswered] at hnew
      exact List.self_eq_append_right.mp hnew
    | tick now =>
      rw [call, history_armWriteSource] at hnew
      exact List.self_eq_append_right.mp hnew
  have hlength := congrArg List.length hqueue
  rw [hnone] at hlength
  simp only [List.length_append, List.length_nil] at hlength
  omega

/-- No request is made while a command is current and the queue holds as many commands as
its limit allows. -/
def HasRoom (l : SerialLink) : Call → Prop
  | .request _ _ _ _ _ => l.currentCommandData = none ∨ l.commandQueue.length < commandQueueMax
  | _ => True

/-- After the call the queue is within its limit and holds the latest requests, and the
call evicted no more than it had to. -/
structure WithinLimit (l : SerialLink) (c : Call) : Prop where
  bound : (l.call c).commandQueue.length ≤ commandQueueMax
  latest : (l.call c).LatestRequests
  evicts : EvictsForRoom l (l.call c)

/-- From within the limit exactly a request without room leaves it. -/
theorem bound_call_iff (h : l.commandQueue.length ≤ commandQueueMax) (c : Call) :
    (l.call c).commandQueue.length ≤ commandQueueMax ↔ HasRoom l c := by
  cases c with
  | request now command frameNum extraData needAck =>
    rw [call, length_serialWriteDataRequest, HasRoom]
    cases hcurrent : l.currentCommandData with
    | none =>
      rw [Option.isNone_none, if_pos rfl]
      exact iff_of_true (by omega) (.inl rfl)
    | some c =>
      rw [Option.isNone_some, if_neg Bool.false_ne_true]
      refine ⟨fun hle => .inr (by omega), ?_⟩
      rintro (hnone | hlt)
      · cases hnone
      · omega
  | writeWatch now writes wsize =>
    exact iff_of_true ((length_call_le l _ (by simp)).trans h) trivial
  | frame f => exact iff_of_true ((length_call_le l _ (by simp)).trans h) trivial
  | tick now => exact iff_of_true ((length_call_le l _ (by simp)).trans h) trivial

theorem latestRequests_opened (l : SerialLink) : l.opened.LatestRequests := List.nil_suffix

/-- Along a run of calls on an opened port the queue stays within its limit, holds the
latest requests and loses commands only for room, exactly when every request finds room. -/
theorem within_limit_iff (l : SerialLink) (calls : List Call) :
    Along call WithinLimit l.opened calls ↔ Along call HasRoom l.opened calls := by
  refine along_iff (I := fun l => l.commandQueue.length ≤ commandQueueMax ∧ l.LatestRequests)
    (fun l c _ h => ⟨h.bound, h.latest⟩) ?_ ⟨Nat.zero_le _, latestRequests_opened l⟩ calls
  rintro l c ⟨hbound, hlatest⟩
  have hevicts := evictsForRoom_call l c
  rw [← bound_call_iff hbound]
  exact ⟨WithinLimit.bound, fun h => ⟨h, hevicts.latestRequests hlatest, hevicts⟩⟩

theorem length_call_le_succ (h : l.commandQueue.length ≤ commandQueueMax + 1) (c : Call) :
    (l.call c).commandQueue.length ≤ commandQueueMax + 1 := by
  cases c with
  | request now command frameNum extraData needAck =>
    rw [call, length_serialWriteDataRequest]
    split <;> omega
  | writeWatch now writes wsize => exact (length_call_le l _ (by simp)).trans h
  | frame f => exact (length_call_le l _ (by simp)).trans h
  | tick now => exact (length_call_le l _ (by simp)).trans h

end SerialLink

namespace World

/-- Calls leave the latest requests in the queue, at most one more than its limit. -/
theorem LinkCalled.latestRequests {w : World} (h : w.LinkCalled) :
    w.pmu.link.LatestRequests ∧ w.pmu.link.commandQueue.length ≤ commandQueueMax + 1 := by
  refine h.invariant (I := fun l => l.LatestRequests ∧
    l.commandQueue.length ≤ commandQueueMax + 1) ?_ ?_ ?_
  · intro l hidle
    rw [SerialLink.LatestRequests, hidle.queue]
    exact ⟨List.nil_suffix, Nat.zero_le _⟩
  · exact fun l => ⟨SerialLink.latestRequests_opened l, Nat.zero_le _⟩
  · rintro l c ⟨hlatest, hlength⟩
    exact ⟨(SerialLink.evictsForRoom_call l c).latestRequests hlatest,
      SerialLink.length_call_le_succ hlength c⟩

/-- In every run the queue holds the latest requests, at most one more than its limit. -/
theorem queue_run (w : World) (events : List Event) :
    (run step w.start events).pmu.link.LatestRequests ∧
      (run step w.start events).pmu.link.commandQueue.length ≤ commandQueueMax + 1 :=
  (linkCalled_run w events).latestRequests

/-- A client makes requests while the PMU does not answer: the first of the six requests of
the initialisation stays current. -/
def stalledRun : List Event :=
  .init true :: List.replicate 124 (.netStatusLedSetup 100 100 0)

/-- The same many requests leave one command more in the queue than its limit. -/
theorem queue_overfull :
    (run step plain.start stalledRun).pmu.link.commandQueue.length = commandQueueMax + 1 ∧
      ¬Along SerialLink.call SerialLink.WithinLimit plain.pmu.link.opened
        (List.replicate 130 (.request 0 commandNetStatusLedSetup none [] true)) := by
  refine ⟨by decide +kernel, fun h => ?_⟩
  have hbound := h.mono fun _ _ h => h.bound
  exact absurd hbound (by decide +kernel)

end World
end PcatManager
