import PcatManager.SerialWriteLoop
import PcatManager.SerialQueue
import PcatManager.ClockSync

/-!
# No request stays on the link for ever

Every second in which the port takes what it is offered takes a pass from a command that is
in front, whether the PMU answers or not. So the requests made up to some moment are over a
bounded number of such seconds later, whatever is requested after them.
-/

namespace PcatManager
open SerialFrame SerialReadParser GuardedRun DoWhile

/-- The passes a command has left, and the last wait for an answer. -/
def CommandData.chances (c : CommandData) : ℕ := if c.needAck then c.retryCount + 1 else 1

theorem CommandData.chances_pos (c : CommandData) : 0 < c.chances := by
  rw [chances]
  split
  · exact Nat.succ_pos _
  · exact Nat.one_pos

/-- The chances left to the commands that were requested before the `n`-th request. -/
def chancesBefore (n : ℕ) (cmds : List CommandData) : ℕ :=
  ((cmds.filter fun c => c.id < n).map CommandData.chances).sum

section Chances
variable {n : ℕ}

theorem chancesBefore_append (cmds cmds' : List CommandData) :
    chancesBefore n (cmds ++ cmds') = chancesBefore n cmds + chancesBefore n cmds' := by
  rw [chancesBefore, List.filter_append, List.map_append, List.sum_append, chancesBefore,
    chancesBefore]

theorem chancesBefore_cons (c : CommandData) (cmds : List CommandData) :
    chancesBefore n (c :: cmds) = (if c.id < n then c.chances else 0) + chancesBefore n cmds := by
  rw [chancesBefore, List.filter_cons]
  split
  · rename_i hid
    rw [if_pos (of_decide_eq_true hid), List.map_cons, List.sum_cons]
    rfl
  · rename_i hid
    rw [if_neg (fun h => hid (decide_eq_true h)), Nat.zero_add]
    rfl

theorem chancesBefore_cons_le (c : CommandData) (cmds : List CommandData) :
    chancesBefore n cmds ≤ chancesBefore n (c :: cmds) := by
  rw [chancesBefore_cons]
  exact Nat.le_add_left _ _

theorem chancesBefore_of_le {cmds : List CommandData} (h : ∀ c ∈ cmds, n ≤ c.id) :
    chancesBefore n cmds = 0 := by
  induction cmds with
  | nil => rfl
  | cons c cmds ih =>
    rw [List.forall_mem_cons] at h
    rw [chancesBefore_cons, if_neg (Nat.not_lt.mpr h.1), ih h.2]

theorem le_id_of_chancesBefore {cmds : List CommandData} (h : chancesBefore n cmds = 0) :
    ∀ c ∈ cmds, n ≤ c.id := by
  induction cmds with
  | nil => exact List.forall_mem_nil _
  | cons c cmds ih =>
    rw [chancesBefore_cons, Nat.add_eq_zero_iff] at h
    rw [List.forall_mem_cons]
    refine ⟨?_, ih h.2⟩
    by_contra hlt
    have hpos := c.chances_pos
    rw [if_pos (Nat.not_le.mp hlt)] at h
    omega

theorem chancesBefore_le_length {cmds : List CommandData} (h : ∀ c ∈ cmds, c.chances ≤ 4) :
    chancesBefore n cmds ≤ 4 * cmds.length := by
  induction cmds with
  | nil => exact Nat.le_refl _
  | cons c cmds ih =>
    rw [List.forall_mem_cons] at h
    have hrest := ih h.2
    have hfirst := h.1
    rw [chancesBefore_cons, List.length_cons]
    split <;> omega

theorem chancesBefore_cons_mono {c c' : CommandData} (hid : c'.id = c.id)
    (hchances : c'.chances ≤ c.chances) (cmds : List CommandData) :
    chancesBefore n (c' :: cmds) ≤ chancesBefore n (c :: cmds) := by
  rw [chancesBefore_cons, chancesBefore_cons, hid]
  split
  · exact Nat.add_le_add_right hchances _
  · exact Nat.le_refl _

end Chances

namespace SerialLink
variable {mayRelease : CommandData → Prop} {now : ℤ} {l l' : SerialLink} {n : ℕ}

theorem chancesBefore_step (hstep : Step mayRelease now l l') (hn : n ≤ l.requests) :
    chancesBefore n l'.pending ≤ chancesBefore n l.pending ∧ n ≤ l'.requests := by
  cases hstep with
  | enqueue cmd frameNum hfresh hencoded hid =>
    refine ⟨?_, hn.trans (Nat.le_succ _)⟩
    have hlater : chancesBefore n [cmd] = 0 := by
      rw [chancesBefore_cons, if_neg (by omega)]
      rfl
    rw [pending, pending, ← List.append_assoc, chancesBefore_append, hlater]
    exact Nat.le_refl _
  | evict c queue hqueue =>
    refine ⟨?_, hn⟩
    rw [pending, pending, hqueue, chancesBefore_append, chancesBefore_append]
    exact Nat.add_le_add_left (chancesBefore_cons_le c queue) _
  | promote c queue hnone hqueue =>
    refine ⟨?_, hn⟩
    rw [pending, pending, hnone, hqueue]
    exact Nat.le_refl _
  | write c hc hlen hmay =>
    refine ⟨?_, hn⟩
    rw [pending_eq_cons hc, pending_eq_cons rfl]
    apply chancesBefore_cons_mono
    · rfl
    · exact Nat.le_refl _
  | rewind c hc hlen hack hretry =>
    refine ⟨?_, hn⟩
    rw [pending_eq_cons hc, pending_eq_cons rfl]
    apply chancesBefore_cons_mono
    · rfl
    · rw [CommandData.chances, CommandData.chances]
      simp only [hack, if_true]
      exact Nat.succ_le_succ (Nat.sub_le _ _)
  | giveUp c hc _ _ _ _ | finish c hc _ _ =>
    refine ⟨?_, hn⟩
    rw [pending_eq_cons hc]
    exact chancesBefore_cons_le c _
  | released f c hc _ _ =>
    refine ⟨?_, hn⟩
    rw [pending_eq_cons hc]
    exact chancesBefore_cons_le c _
  | ignored | source | counter => exact ⟨Nat.le_refl _, hn⟩

theorem chancesBefore_steps (hsteps : Steps mayRelease now l l') (hn : n ≤ l.requests) :
    chancesBefore n l'.pending ≤ chancesBefore n l.pending ∧ n ≤ l'.requests := by
  refine hsteps.invariant (P := fun l' => chancesBefore n l'.pending ≤ chancesBefore n l.pending ∧
    n ≤ l'.requests) ?_ ⟨Nat.le_refl _, hn⟩
  intro l₁ l₂ hstep h
  obtain ⟨hle, hmade⟩ := chancesBefore_step hstep h.2
  exact ⟨hle.trans h.1, hmade⟩

/-- `write()` always takes everything. -/
def FullWrites (writes : ℕ → WriteResult) : Prop := ∀ k, ∃ n, writes k = .written n ∧ 4096 ≤ n

/-- A command in the loop is new, in the middle of a pass, or waits no longer. -/
def GoesOn (l : SerialLink) (now : ℤ) : Prop :=
  (∀ c ∈ l.currentCommandData,
    c.firstrun = true ∨ c.writtenSize ≠ 0 ∨ c.timestamp + commandTimeout < now) ∧
  ∀ c ∈ l.commandQueue, c.firstrun = true

theorem goesOn_refilled (h : l.GoesOn now) : l.refilled.GoesOn now := by
  rw [refilled]
  split
  · rw [popCurrent]
    split
    · exact h
    · rename_i c queue hqueue
      have hnew := h.2
      rw [hqueue, List.forall_mem_cons] at hnew
      refine ⟨fun c' hc' => ?_, hnew.2⟩
      cases hc'
      exact .inl hnew.1
  · exact h

theorem goesOn_writeTurn {writes : ℕ → WriteResult} {t t' : WriteTurn}
    (hagain : Again (writeTurn now writes) t t') (h : t.link.GoesOn now) : t'.link.GoesOn now := by
  have hrefilled := goesOn_refilled h
  obtain ⟨wsize, count, -, hturn⟩ | ⟨c, hc, hturn | ⟨n, hpos, -, hturn⟩⟩ :=
    writeTurn_cases now writes t
  · cases hturn.symm.trans hagain
  · cases hturn.symm.trans hagain
    exact ⟨fun c hc => (nomatch hc), hrefilled.2⟩
  · cases hturn.symm.trans hagain
    refine ⟨fun c' hc' => ?_, hrefilled.2⟩
    cases hc'
    refine .inr (.inl ?_)
    change c.writtenSize + n ≠ 0
    omega

theorem pending_of_refilled_none (h : l.refilled.currentCommandData = none) :
    l.refilled.pending = [] := by
  rw [pending_refilled]
  rw [refilled] at h
  split at h
  · rename_i hnone
    rw [popCurrent] at h
    split at h
    · rename_i hqueue
      rw [pending, h, hqueue]
      rfl
    · cases h
  · rename_i hsome
    rw [h] at hsome
    exact absurd rfl hsome

theorem askedSize_pos {remainingSize : ℕ} (h : 0 < remainingSize) :
    0 < askedSize remainingSize ∧ askedSize remainingSize ≤ 4096 := by
  rw [askedSize]
  split <;> omega

/-- When `write()` takes everything, the loop ends with no command left or with one that is
written and waits for its answer. -/
theorem writeTurn_last {writes : ℕ → WriteResult} (hwrites : FullWrites writes) {t t' : WriteTurn}
    (hlast : writeTurn now writes t = (false, t')) (h : t.link.GoesOn now) :
    t'.link.pending = [] ∨ ∃ c, t'.link.currentCommandData = some c ∧ c.needAck = true ∧
      c.buffer.length ≤ c.writtenSize := by
  have hgoes := goesOn_refilled h
  rw [writeTurn] at hlast
  cases hc : t.link.refilled.currentCommandData with
  | none =>
    simp only [hc] at hlast
    cases hlast
    exact .inl (pending_of_refilled_none hc)
  | some c =>
    simp only [hc] at hlast
    have hmay := hgoes.1 c hc
    split_ifs at hlast with hwait hspent hfull hack
    · exfalso
      simp only [Bool.and_eq_true, Bool.not_eq_true', decide_eq_true_eq] at hwait
      obtain ⟨⟨hrun, hwritten⟩, htime⟩ := hwait
      obtain hfirst | hpass | hover := hmay
      · rw [hrun] at hfirst
        cases hfirst
      · exact hpass hwritten
      · exact absurd htime (not_le.mpr hover)
    · cases hlast
    · cases hlast
      exact .inr ⟨c, hc, hack, hfull⟩
    · cases hlast
    · exfalso
      obtain ⟨n, hn, hsize⟩ := hwrites t.count
      obtain ⟨hpos, hle⟩ := askedSize_pos (Nat.sub_pos_of_lt (Nat.not_le.mp hfull))
      have htaken : 0 < min n (askedSize (c.buffer.length - c.writtenSize)) := by omega
      simp only [hn, if_pos htaken] at hlast
      cases hlast

/-- The write watch ends with a turn from one of the heads of its loop. -/
theorem exists_last_turn (l : SerialLink) (now : ℤ) (writes : ℕ → WriteResult)
    (wsize : WriteResult) :
    ∃ t last, Heads (writeTurn now writes) ⟨l, wsize, 0⟩ t ∧
      writeTurn now writes t = (false, last) ∧
      l.serialWriteWatchFunc now writes wsize =
        { last.link.endPass with writeSource := last.wsize = .again } := by
  have hsome : (writeLoop now writes (l.pendingTurns + 1) 0 l wsize).isSome :=
    writeLoop_isSome writes _ 0 l wsize (Nat.lt_succ_self _)
  obtain ⟨ended, hends⟩ := Option.isSome_iff_exists.mp hsome
  have hloop := writeLoop_eq_loop now writes (l.pendingTurns + 1) ⟨l, wsize, 0⟩
  rw [hends] at hloop
  obtain ⟨last, hlast, hresult⟩ := Option.map_eq_some_iff.mp hloop.symm
  obtain ⟨t, hheads, hturn⟩ := exists_last_head hlast
  refine ⟨t, last, hheads, hturn, ?_⟩
  rw [serialWriteWatchFunc, hends, ← hresult]

/-- What is left of the commands has the ids and the chances it had. -/
theorem writtenOn_kept {cmds cmds' : List CommandData}
    (h : List.Forall₂ CommandData.WrittenOn cmds cmds') :
    cmds'.map (·.id) = cmds.map (·.id) ∧ chancesBefore n cmds' = chancesBefore n cmds := by
  induction h with
  | nil => exact ⟨rfl, rfl⟩
  | cons hhead _ ih =>
    obtain ⟨size, timestamp, firstrun, rfl⟩ := hhead
    refine ⟨?_, ?_⟩
    · rw [List.map_cons, List.map_cons, ih.1]
    · rw [chancesBefore_cons, chancesBefore_cons, ih.2]
      rfl

theorem PutsNothingBack.sorted (h : l.PutsNothingBack l')
    (hsorted : (l.pending.map (·.id)).Pairwise (· < ·)) :
    (l'.pending.map (·.id)).Pairwise (· < ·) := by
  obtain ⟨rest, hrest, hwritten⟩ := h.pending
  rw [(writtenOn_kept (n := 0) hwritten).1]
  exact hsorted.sublist (hrest.sublist.map _)

theorem PutsNothingBack.chancesBefore_le (h : l.PutsNothingBack l') :
    chancesBefore n l'.pending ≤ chancesBefore n l.pending := by
  obtain ⟨rest, ⟨gone, hgone⟩, hwritten⟩ := h.pending
  rw [(writtenOn_kept hwritten).2, ← hgone, chancesBefore_append]
  exact Nat.le_add_left _ _

/-- The end of a pass takes a chance from the command that has been written, or frees it. -/
theorem chancesBefore_endPass {c : CommandData} (hc : l.currentCommandData = some c)
    (hack : c.needAck = true) (hfull : c.buffer.length ≤ c.writtenSize) :
    chancesBefore n l.endPass.pending + (if c.id < n then 1 else 0) ≤
      chancesBefore n l.pending := by
  have hchances : c.chances = c.retryCount + 1 := by rw [CommandData.chances, if_pos hack]
  rw [pending_eq_cons hc, chancesBefore_cons, hchances]
  simp only [endPass, hc, if_pos hfull, hack, Bool.true_and]
  by_cases hretry : 0 < c.retryCount
  · rw [if_pos (decide_eq_true hretry), pending_eq_cons rfl, chancesBefore_cons,
      CommandData.chances, if_pos rfl, Nat.sub_add_cancel hretry]
    change (if c.id < n then c.retryCount else 0) + chancesBefore n l.commandQueue + _ ≤ _
    split <;> omega
  · rw [if_neg (fun h => hretry (of_decide_eq_true h))]
    change chancesBefore n l.commandQueue + _ ≤ _
    split <;> omega

/-- A firing of the write watch that takes everything takes a chance from a command in front,
if there is one. -/
theorem chancesBefore_writeWatch {writes : ℕ → WriteResult} (hwrites : FullWrites writes)
    (wsize : WriteResult) (hsorted : (l.pending.map (·.id)).Pairwise (· < ·))
    (hgoes : l.GoesOn now) :
    chancesBefore n (l.serialWriteWatchFunc now writes wsize).pending ≤
      chancesBefore n l.pending - 1 := by
  obtain ⟨t, last, hheads, hturn, hwatch⟩ := exists_last_turn l now writes wsize
  have hgoes' : t.link.GoesOn now := hheads.invariant (I := fun t => t.link.GoesOn now)
    (fun _ _ hagain h => goesOn_writeTurn hagain h) hgoes
  have hfinal := putsNothingBack_writeTurn now writes t
  rw [hturn] at hfinal
  have hback : l.PutsNothingBack last.link := (putsNothingBack_heads hheads).trans hfinal
  have hle := hback.chancesBefore_le (n := n)
  rw [hwatch]
  change chancesBefore n last.link.endPass.pending ≤ _
  obtain hnone | ⟨c, hc, hack, hfull⟩ := writeTurn_last hwrites hturn hgoes'
  · have hempty : last.link.currentCommandData = none := by
      rw [pending, List.append_eq_nil_iff, Option.toList_eq_nil_iff] at hnone
      exact hnone.1
    simp only [endPass, hempty]
    rw [hnone]
    exact Nat.zero_le _
  · have htaken := chancesBefore_endPass (n := n) hc hack hfull
    by_cases hid : c.id < n
    · rw [if_pos hid] at htaken
      omega
    · -- The commands behind the current one were requested later than it.
      have hlater : ∀ c' ∈ last.link.pending, n ≤ c'.id := by
        have hids := hback.sorted hsorted
        rw [pending_eq_cons hc, List.map_cons, List.pairwise_cons] at hids
        rw [pending_eq_cons hc, List.forall_mem_cons]
        refine ⟨Nat.not_lt.mp hid, fun c' hc' => ?_⟩
        have hlt := hids.1 c'.id (List.mem_map_of_mem hc')
        omega
      rw [chancesBefore_of_le hlater] at htaken
      omega

/-- The commands of the link have last been written at `t` or before. -/
structure WrittenBy (l : SerialLink) (t : ℤ) : Prop where
  current : ∀ c ∈ l.currentCommandData, c.firstrun = true ∨ c.timestamp ≤ t
  queue : ∀ c ∈ l.commandQueue, c.firstrun = true

/-- The write watch is installed when there is a command. -/
def Armed (l : SerialLink) : Prop := l.pending ≠ [] → l.writeSource = true

section Quiet
variable {t : ℤ}

theorem StopAndWait.writtenBy (h : l.StopAndWait now) : l.WrittenBy now := by
  refine ⟨fun c hc => ?_, fun c hc => (h.inOrder.queue_fresh c hc).firstrun⟩
  have hprogress := h.progress c hc
  rw [hprogress.firstrun_iff]
  cases hlast : (bytesOf c.id l.history).getLast? with
  | none => exact .inl (List.getLast?_eq_none_iff.mp hlast)
  | some w =>
    refine .inr ?_
    rw [← hprogress.timestamp w hlast]
    exact h.time_le (List.mem_of_getLast? hlast)

theorem WrittenBy.goesOn (h : l.WrittenBy t) (hover : t + commandTimeout < now) :
    l.GoesOn now := by
  refine ⟨fun c hc => ?_, h.queue⟩
  obtain hfirst | htime := h.current c hc
  · exact .inl hfirst
  · exact .inr (.inr (by omega))

theorem WrittenBy.popCurrent (h : l.WrittenBy t) : l.popCurrent.WrittenBy t := by
  rw [SerialLink.popCurrent]
  split
  · exact h
  · rename_i c queue hqueue
    have hfirst := h.queue
    rw [hqueue, List.forall_mem_cons] at hfirst
    refine ⟨fun c' hc' => ?_, hfirst.2⟩
    cases hc'
    exact .inl hfirst.1

theorem WrittenBy.serialWriteDataRequest (h : l.WrittenBy t) (command : UInt16)
    (frameNum : Option UInt16) (extraData : List UInt8) (needAck : Bool) :
    (l.serialWriteDataRequest now command frameNum extraData needAck).WrittenBy t := by
  rw [SerialLink.serialWriteDataRequest]
  generalize hnew : l.newCommandData now command frameNum extraData needAck = newData
  have hfirst : newData.firstrun = true := by
    rw [← hnew]
    rfl
  obtain ⟨evicted, hevicted⟩ := exists_evicted l.commandQueue
  have hadded : WrittenBy
      { l with
        frameNum := if frameNum.isSome then l.frameNum else l.frameNum + 1
        commandQueue := evictOldest l.commandQueue ++ [newData]
        history := l.history ++ [LinkEvent.enqueued newData]
        requests := l.requests + 1 } t := by
    refine ⟨h.current, fun c hc => ?_⟩
    obtain hold | hlast := List.mem_append.mp hc
    · apply h.queue c
      rw [hevicted.1]
      exact List.mem_append_right _ hold
    · rw [List.mem_singleton.mp hlast]
      exact hfirst
  dsimp only
  split
  · exact ⟨hadded.popCurrent.current, hadded.popCurrent.queue⟩
  · exact ⟨hadded.current, hadded.queue⟩

theorem WrittenBy.releaseAnswered (h : l.WrittenBy t) (f : Frame) :
    (l.releaseAnswered f).WrittenBy t := by
  rw [SerialLink.releaseAnswered]
  split
  · exact ⟨h.current, h.queue⟩
  · split
    · refine ⟨fun c' hc' => ?_, h.queue⟩
      cases hc'
    · exact ⟨h.current, h.queue⟩

/-- A frame leaves the write watch as it is and puts no command on the link. -/
theorem Armed.releaseAnswered (h : l.Armed) (f : Frame) : (l.releaseAnswered f).Armed := by
  rw [SerialLink.releaseAnswered]
  split
  · exact h
  · rename_i c hc
    split
    · intro _
      refine h ?_
      rw [pending_eq_cons hc]
      exact List.cons_ne_nil _ _
    · exact h

theorem writeSource_armWriteSource (l : SerialLink) (now : ℤ) :
    (l.armWriteSource now).writeSource = true ↔ l.writeSource = true ∨
      (l.currentCommandData = none ∧ l.commandQueue ≠ []) ∨
      ∃ c ∈ l.currentCommandData, c.firstrun = true ∨ c.timestamp + commandTimeout < now := by
  obtain ⟨current, queue, frameNum, source, history, requests⟩ := l
  cases source with
  | true => cases current <;> simp [armWriteSource]
  | false =>
    cases current with
    | none => cases queue <;> simp [armWriteSource]
    | some c =>
      by_cases hmay : c.firstrun = true ∨ c.timestamp + commandTimeout < now
      · simp [armWriteSource, hmay]
      · simp [armWriteSource, hmay]

theorem pending_armWriteSource (l : SerialLink) (now : ℤ) :
    (l.armWriteSource now).pending = l.pending := by
  obtain ⟨source, harm⟩ := exists_armWriteSource l now
  rw [harm]
  rfl

theorem Armed.armWriteSource (h : l.Armed) (now : ℤ) : (l.armWriteSource now).Armed := by
  intro hpending
  rw [pending_armWriteSource] at hpending
  rw [writeSource_armWriteSource]
  exact .inl (h hpending)

/-- Once the wait for an answer is over the tick installs the write watch. -/
theorem WrittenBy.armed (h : l.WrittenBy t) (hover : t + commandTimeout < now) :
    (l.armWriteSource now).Armed := by
  intro hpending
  rw [pending_armWriteSource, pending] at hpending
  rw [writeSource_armWriteSource]
  cases hc : l.currentCommandData with
  | none =>
    rw [hc, Option.toList_none, List.nil_append] at hpending
    exact .inr (.inl ⟨rfl, hpending⟩)
  | some c =>
    refine .inr (.inr ⟨c, rfl, ?_⟩)
    obtain hfirst | htime := h.current c hc
    · exact .inl hfirst
    · exact .inr (by omega)

end Quiet

end SerialLink

open SerialLink

/-- The microseconds an event takes. -/
def Event.duration : Event → ℕ
  | .elapse microseconds => microseconds
  | _ => 0

def Event.isWriteWatch : Event → Bool
  | .writeWatch _ _ => true
  | _ => false

/-- Events in which more than a second passes before a tick, and the write watch does not
fire until `write()` takes all it is offered. Anything else may happen in between. -/
structure FreeSecond where
  before : List Event
  between : List Event
  writes : ℕ → WriteResult
  wsize : WriteResult
  passed : commandTimeout < (before.map Event.duration).sum
  unwritten : ∀ e ∈ before ++ between, e.isWriteWatch = false
  taken : FullWrites writes

/-- What happens before the write watch fires. -/
def FreeSecond.waiting (s : FreeSecond) : List Event := s.before ++ .tick :: s.between

def FreeSecond.events (s : FreeSecond) : List Event :=
  s.waiting ++ [.writeWatch s.writes s.wsize]

namespace World

/-- The manager works on its link. -/
structure Working (w : World) : Prop where
  initialized : w.pmu.initialized = true
  called : w.LinkCalled
  discipline : w.pmu.link.StopAndWait w.monotonicTime

theorem Working.step {w : World} (h : w.Working) (e : Event) : (w.step e).Working := by
  refine ⟨initialized_step h.initialized e, h.called.step e, ?_⟩
  exact link_invariant_step SerialLink.stopAndWait_opened (fun _ _ _ hsteps h => h.steps hsteps)
    (fun _ _ _ hle h => h.elapse hle) w e h.discipline (releasesOnlyBy_true w e)

theorem Working.run {w : World} (h : w.Working) (events : List Event) :
    (run World.step w events).Working :=
  run_invariant (I := Working) (fun _ e h => h.step e) h events

theorem working_run (w : World) (events : List Event) :
    (run step w.start (.init true :: events)).Working :=
  ⟨initialized_run w.start List.mem_cons_self, linkCalled_run w _, stopAndWait_run w _⟩

theorem monotonicTime_step {w : World} (h : w.pmu.initialized = true) (e : Event) :
    (w.step e).monotonicTime = w.monotonicTime + e.duration := by
  cases e with
  | init opened =>
    rw [step_init_again h]
    exact (Int.add_zero _).symm
  | elapse microseconds => rfl
  | _ =>
    obtain hmoves | ⟨opened, he⟩ | ⟨microseconds, he⟩ := moves_step w _ (releasesOnlyBy_true w _)
    · exact hmoves.time.trans (Int.add_zero _).symm
    · cases he
    · cases he

theorem monotonicTime_run {w : World} (h : w.pmu.initialized = true) (events : List Event) :
    (run step w events).monotonicTime =
      w.monotonicTime + (events.map Event.duration).sum := by
  induction events generalizing w with
  | nil => exact (Int.add_zero _).symm
  | cons e events ih =>
    rw [run_cons, ih (initialized_step h e), monotonicTime_step h, List.map_cons, List.sum_cons,
      Nat.cast_add, Int.add_assoc]

theorem chancesBefore_run {w : World} (h : w.Working) {n : ℕ} (hn : n ≤ w.pmu.link.requests)
    (events : List Event) :
    chancesBefore n (run step w events).pmu.link.pending ≤
        chancesBefore n w.pmu.link.pending ∧
      n ≤ (run step w events).pmu.link.requests := by
  induction events generalizing w with
  | nil => exact ⟨Nat.le_refl _, hn⟩
  | cons e events ih =>
    have hstep : chancesBefore n (w.step e).pmu.link.pending ≤
        chancesBefore n w.pmu.link.pending ∧ n ≤ (w.step e).pmu.link.requests := by
      obtain hmoves | ⟨opened, rfl⟩ | ⟨microseconds, rfl⟩ :=
        moves_step w e (releasesOnlyBy_true w e)
      · exact chancesBefore_steps hmoves.link hn
      · rw [step_init_again h.initialized]
        exact ⟨Nat.le_refl _, hn⟩
      · exact ⟨Nat.le_refl _, hn⟩
    obtain ⟨hle, hmade⟩ := ih (h.step e) hstep.2
    exact ⟨hle.trans hstep.1, hmade⟩

/-- What all but the write watch and the initialisation keep of the link. -/
structure KeepsLink (t : ℤ) (w w' : World) : Prop where
  written : w.pmu.link.WrittenBy t → w'.pmu.link.WrittenBy t
  armed : w.pmu.link.Armed → w'.pmu.link.Armed

theorem portRelation_keepsLink (t : ℤ) : PortRelation (KeepsLink t) where
  same h := by
    refine ⟨?_, ?_⟩
    · rw [h.link]
      exact id
    · rw [h.link]
      exact id
  trans h h' := ⟨h'.written ∘ h.written, h'.armed ∘ h.armed⟩
  request w command frameNum extraData needAck := by
    rw [serialWriteDataRequest]
    split
    · exact ⟨fun h => h.serialWriteDataRequest _ _ _ _, fun _ _ => rfl⟩
    · exact ⟨fun h => ⟨h.current, h.queue⟩, id⟩

theorem keepsLink_step {w : World} (h : w.pmu.initialized = true) {e : Event}
    (he : e.isWriteWatch = false) (t : ℤ) : KeepsLink t w (w.step e) := by
  cases e with
  | init opened =>
    rw [step_init_again h]
    exact ⟨id, id⟩
  | elapse microseconds => exact ⟨id, id⟩
  | writeWatch writes wsize => cases he
  | _ =>
    refine (portRelation_keepsLink t).stepWriting w _ ?_ ?_ ?_ ?_ ?_
    · intro writes wsize hwatch
      cases hwatch
    · intro w
      refine ⟨fun h => ?_, fun h => h.armWriteSource _⟩
      obtain ⟨source, harm⟩ := exists_armWriteSource w.pmu.link w.monotonicTime
      change (w.pmu.link.armWriteSource w.monotonicTime).WrittenBy t
      rw [harm]
      exact ⟨h.current, h.queue⟩
    · intro opened hinit
      cases hinit
    · intro microseconds helapse
      cases helapse
    · intro r _ _
      exact (along_true w _).mono fun w f _ =>
        ⟨fun h => h.releaseAnswered f, fun h => h.releaseAnswered f⟩

theorem keepsLink_run {w : World} (h : w.pmu.initialized = true) {events : List Event}
    (hevents : ∀ e ∈ events, e.isWriteWatch = false) (t : ℤ) :
    KeepsLink t w (run step w events) := by
  induction events generalizing w with
  | nil => exact ⟨id, id⟩
  | cons e events ih =>
    rw [List.forall_mem_cons] at hevents
    exact (portRelation_keepsLink t).trans (keepsLink_step h hevents.1 t)
      (ih (initialized_step h e) hevents.2)

/-- After a tick the write watch is installed when there is a command and its wait for an
answer is over. -/
theorem Working.armed_tick {w : World} (h : w.Working) {t : ℤ} (hwritten : w.pmu.link.WrittenBy t)
    (hover : t + commandTimeout < w.monotonicTime) : (w.step .tick).pmu.link.Armed := by
  obtain ⟨hopen, -⟩ | ⟨hclosed, hidle⟩ := h.called
  · obtain ⟨w', htick⟩ : ∃ w' : World, w.step .tick =
        w'.setLink (w'.pmu.link.armWriteSource w'.monotonicTime) := by
      rw [World.step, checkTimeoutFunc, if_neg (by rw [hopen]; exact Bool.false_ne_true)]
      exact ⟨_, rfl⟩
    have hkept := (keepsLink_step h.initialized (e := .tick) rfl t).written hwritten
    have htime := monotonicTime_step h.initialized .tick
    rw [htick] at hkept htime ⊢
    have hbefore : w'.pmu.link.WrittenBy t := by
      obtain ⟨source, harm⟩ := exists_armWriteSource w'.pmu.link w'.monotonicTime
      change (w'.pmu.link.armWriteSource w'.monotonicTime).WrittenBy t at hkept
      rw [harm] at hkept
      exact ⟨hkept.current, hkept.queue⟩
    refine hbefore.armed ?_
    change w'.monotonicTime = w.monotonicTime + 0 at htime
    omega
  · rw [World.step, checkTimeoutFunc, if_pos (by rw [hclosed]; rfl)]
    intro hpending
    rw [pending, hidle.current, hidle.queue] at hpending
    exact absurd rfl hpending

/-- When the write watch fires in a free second it is because it is installed, if there is a
command, and nothing has been written for more than the time an answer is waited for. -/
theorem waiting_freeSecond {w : World} (h : w.Working) (s : FreeSecond) :
    (run step w s.waiting).pmu.link.Armed ∧
      (run step w s.waiting).pmu.link.WrittenBy w.monotonicTime ∧
      w.monotonicTime + commandTimeout < (run step w s.waiting).monotonicTime := by
  have hunwritten := List.forall_mem_append.mp s.unwritten
  have htime := monotonicTime_run h.initialized s.before
  have hover : w.monotonicTime + commandTimeout <
      (run step w s.before).monotonicTime := by
    have hpassed := s.passed
    omega
  have hwritten := (keepsLink_run h.initialized hunwritten.1 _).written h.discipline.writtenBy
  have hbefore := h.run s.before
  have harmed := hbefore.armed_tick hwritten hover
  have htick := keepsLink_step hbefore.initialized (e := .tick) rfl w.monotonicTime
  have hkept := keepsLink_run (hbefore.step .tick).initialized hunwritten.2 w.monotonicTime
  have hlater := monotonicTime_run hbefore.initialized (.tick :: s.between)
  rw [FreeSecond.waiting, run_append]
  refine ⟨hkept.armed harmed, hkept.written (htick.written hwritten), ?_⟩
  omega

/-- A free second takes a chance from a command in front, if there is one. -/
theorem chancesBefore_freeSecond {w : World} (h : w.Working) {n : ℕ}
    (hn : n ≤ w.pmu.link.requests) (s : FreeSecond) :
    chancesBefore n (run step w s.events).pmu.link.pending ≤
      chancesBefore n w.pmu.link.pending - 1 := by
  obtain ⟨harmed, hwritten, hover⟩ := waiting_freeSecond h s
  obtain ⟨hle, hmade⟩ := chancesBefore_run h hn s.waiting
  have hwaited := h.run s.waiting
  rw [FreeSecond.events, run_append]
  by_cases hpending : (run step w s.waiting).pmu.link.pending = []
  · have hnone := (chancesBefore_run hwaited hmade [.writeWatch s.writes s.wsize]).1
    rw [hpending] at hnone
    exact (Nat.le_zero.mp hnone).trans_le (Nat.zero_le _)
  · have hfired := chancesBefore_writeWatch (n := n) s.taken s.wsize
      hwaited.discipline.inOrder.pending_sorted (hwritten.goesOn hover)
    rw [run_cons, run_nil, World.step, if_pos (harmed hpending)]
    exact hfired.trans (Nat.sub_le_sub_right hle 1)

theorem chancesBefore_rounds {w : World} (h : w.Working) {n : ℕ} (hn : n ≤ w.pmu.link.requests)
    (rounds : List (List Event × FreeSecond)) :
    chancesBefore n (run step w
        (rounds.flatMap fun round => round.1 ++ round.2.events)).pmu.link.pending ≤
      chancesBefore n w.pmu.link.pending - rounds.length := by
  induction rounds generalizing w with
  | nil => exact Nat.le_refl _
  | cons round rounds ih =>
    obtain ⟨hle, hmade⟩ := chancesBefore_run h hn round.1
    have hfree := chancesBefore_freeSecond (h.run round.1) hmade round.2
    have hlater := (chancesBefore_run (h.run round.1) hmade round.2.events).2
    have hrest := ih ((h.run round.1).run round.2.events) hlater
    rw [List.flatMap_cons, run_append, run_append, List.length_cons]
    omega

/-- No command on the link has more than the three passes and the last wait. -/
theorem Working.chances_le {w : World} (h : w.Working) :
    ∀ c ∈ w.pmu.link.pending, c.chances ≤ 4 := by
  intro c hc
  have hretry : c.retryCount ≤ c.passes := by
    obtain hcurrent | hqueue := List.mem_append.mp hc
    · exact (h.discipline.progress c (Option.mem_toList.mp hcurrent)).retry_le
    · exact (h.discipline.inOrder.queue_fresh c hqueue).progress.retry_le
  rw [CommandData.passes] at hretry
  rw [CommandData.chances]
  split
  · rename_i hack
    rw [if_pos hack] at hretry
    exact Nat.succ_le_succ hretry
  · exact Nat.le_of_ble_eq_true rfl

theorem Working.chancesBefore_le {w : World} (h : w.Working) (n : ℕ) :
    chancesBefore n w.pmu.link.pending ≤ 520 := by
  have hsum := chancesBefore_le_length (n := n) h.chances_le
  have hqueue := h.called.latestRequests.2
  have hlength : w.pmu.link.pending.length ≤ 1 + (commandQueueMax + 1) := by
    rw [pending, List.length_append]
    exact Nat.add_le_add (Option.length_toList_le) hqueue
  rw [commandQueueMax] at hlength
  omega

/-- Whatever is requested and received later, the requests made up to some moment are no
longer on the link after 520 free seconds. -/
theorem requests_done_run (w : World) (events : List Event)
    (rounds : List (List Event × FreeSecond)) (hrounds : 520 ≤ rounds.length) :
    ∀ c ∈ (run step w.start (.init true :: events ++
        rounds.flatMap fun round => round.1 ++ round.2.events)).pmu.link.pending,
      (run step w.start (.init true :: events)).pmu.link.requests ≤ c.id := by
  have hworking := working_run w events
  have hle := chancesBefore_rounds hworking (Nat.le_refl _) rounds
  have hbound := hworking.chancesBefore_le
    (run step w.start (.init true :: events)).pmu.link.requests
  rw [run_append]
  apply le_id_of_chancesBefore
  omega

/-- A second in which the PMU says nothing and the port takes everything. -/
def silentSecond : FreeSecond where
  before := [.elapse 1000001]
  between := []
  writes _ := .written 4096
  wsize := .again
  passed := by decide
  unwritten := by decide
  taken _ := ⟨4096, rfl, Nat.le_refl _⟩

theorem requests_done_silent : ∃ rounds, rounds = List.replicate 520 ([], silentSecond) ∧
    ∀ c ∈ (run step plain.start (.init true :: [] ++
        rounds.flatMap fun round => round.1 ++ round.2.events)).pmu.link.pending,
      (run step plain.start [.init true]).pmu.link.requests ≤ c.id := by
  refine ⟨_, rfl, requests_done_run plain [] _ ?_⟩
  rw [List.length_replicate]

end World
end PcatManager
