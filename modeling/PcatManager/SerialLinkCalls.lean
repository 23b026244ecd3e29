import PcatManager.PmuManagerRuns

/-!
# The link as its callers see it

Every callback of the daemon works on the transmit side by calls of four functions. What
holds of every sequence of these calls on an opened port holds in every run.
-/

namespace PcatManager
open SerialFrame SerialReadParser GuardedRun

namespace SerialLink

/-- A call that works on the transmit side: a request, a firing of the write watch, the
release by a received frame, and the end of a tick. -/
inductive Call where
  | request (now : ℤ) (command : UInt16) (frameNum : Option UInt16) (extraData : List UInt8)
      (needAck : Bool)
  | writeWatch (now : ℤ) (writes : ℕ → WriteResult) (wsize : WriteResult)
  | frame (f : Frame)
  | tick (now : ℤ)

/-- One call. A write watch that is not installed does not fire. -/
def call (l : SerialLink) : Call → SerialLink
  | .request now command frameNum extraData needAck =>
    l.serialWriteDataRequest now command frameNum extraData needAck
  | .writeWatch now writes wsize =>
    if l.writeSource then l.serialWriteWatchFunc now writes wsize else l
  | .frame f => l.releaseAnswered f
  | .tick now => l.armWriteSource now

theorem steps_call (l : SerialLink) (c : Call) :
    ∃ now, Steps (fun _ => True) now l (l.call c) := by
  cases c with
  | request now command frameNum extraData needAck =>
    exact ⟨now, steps_serialWriteDataRequest l command frameNum extraData needAck⟩
  | writeWatch now writes wsize =>
    refine ⟨now, ?_⟩
    rw [call]
    split
    · exact steps_serialWriteWatchFunc l writes wsize
    · exact .refl l
  | frame f => exact ⟨0, steps_releaseAnswered l f fun _ _ _ => trivial⟩
  | tick now => exact ⟨now, steps_armWriteSource l⟩

/-- Nothing is sent and nothing waits to be sent. -/
structure Idle (l : SerialLink) : Prop where
  current : l.currentCommandData = none
  queue : l.commandQueue = []
  source : l.writeSource = false

theorem Idle.releaseAnswered {l : SerialLink} (h : l.Idle) (f : Frame) :
    (l.releaseAnswered f).Idle := by
  obtain ⟨current, queue, frameNum, writeSource, history, requests⟩ := l
  obtain ⟨hcurrent, hqueue, hsource⟩ := h
  subst hcurrent
  exact ⟨rfl, hqueue, hsource⟩

theorem Idle.armWriteSource {l : SerialLink} (h : l.Idle) (now : ℤ) :
    (l.armWriteSource now).Idle := by
  obtain ⟨current, queue, frameNum, writeSource, history, requests⟩ := l
  obtain ⟨hcurrent, hqueue, hsource⟩ := h
  subst hcurrent hqueue hsource
  exact ⟨rfl, rfl, rfl⟩

end SerialLink

namespace World

/-- On an open port `w'` is reached from `w` by calls; a closed port stays closed and its
link idle. -/
structure Calls (w w' : World) : Prop where
  channel : w'.pmu.serialChannel = w.pmu.serialChannel
  opened : w.pmu.serialChannel = true → ∃ calls, w'.pmu.link = run SerialLink.call w.pmu.link calls
  closed : w.pmu.serialChannel = false → w.pmu.link.Idle → w'.pmu.link.Idle

theorem Calls.trans {u v w : World} (h : Calls u v) (h' : Calls v w) : Calls u w where
  channel := h'.channel.trans h.channel
  opened hopen := by
    obtain ⟨calls, hlink⟩ := h.opened hopen
    obtain ⟨calls', hlink'⟩ := h'.opened (h.channel.trans hopen)
    exact ⟨calls ++ calls', by rw [run_append, hlink', hlink]⟩
  closed hclosed hidle := h'.closed (h.channel.trans hclosed) (h.closed hclosed hidle)

theorem calls_call (w : World) (c : SerialLink.Call)
    (hclosed : w.pmu.link.Idle → (w.pmu.link.call c).Idle) : Calls w (w.setLink (w.pmu.link.call c)) :=
  ⟨rfl, fun _ => ⟨[c], rfl⟩, fun _ => hclosed⟩

theorem portRelation_calls : PortRelation Calls where
  same h := ⟨h.channel, fun _ => ⟨[], h.link⟩, fun _ hidle => h.link ▸ hidle⟩
  trans := Calls.trans
  request w command frameNum extraData needAck := by
    rw [serialWriteDataRequest]
    split
    · rename_i hopen
      exact ⟨rfl, fun _ => ⟨[.request w.monotonicTime command frameNum extraData needAck], rfl⟩,
        fun hclosed => absurd (hclosed.symm.trans hopen) Bool.false_ne_true⟩
    · rename_i hclosed
      exact ⟨rfl, fun hopen => absurd hopen hclosed, fun _ hidle =>
        ⟨hidle.current, hidle.queue, hidle.source⟩⟩

theorem calls_step (w : World) (e : Event) (hinit : ∀ opened, e ≠ .init opened) :
    Calls w (w.step e) := by
  by_cases helapse : ∃ microseconds, e = .elapse microseconds
  · obtain ⟨microseconds, rfl⟩ := helapse
    exact ⟨rfl, fun _ => ⟨[], rfl⟩, fun _ hidle => hidle⟩
  refine portRelation_calls.step w ?_ ?_ e hinit (fun _ h => helapse ⟨_, h⟩) ?_
  · intro w writes wsize hinstalled
    have hcall : w.pmu.link.serialWriteWatchFunc w.monotonicTime writes wsize =
        w.pmu.link.call (.writeWatch w.monotonicTime writes wsize) := by
      rw [SerialLink.call, if_pos hinstalled]
    rw [hcall]
    exact calls_call w _ fun hidle => absurd (hidle.source.symm.trans hinstalled) Bool.false_ne_true
  · intro w
    exact calls_call w (.tick w.monotonicTime) fun hidle => hidle.armWriteSource _
  · intro r _ _
    exact (along_true w _).mono fun w f _ => calls_call w (.frame f) fun hidle => hidle.releaseAnswered f

/-- The link was opened and then worked on by calls, or there is no port. -/
def LinkCalled (w : World) : Prop :=
  (w.pmu.serialChannel = true ∧
    ∃ (l : SerialLink) (calls : List SerialLink.Call),
      w.pmu.link = run SerialLink.call l.opened calls) ∨
  (w.pmu.serialChannel = false ∧ w.pmu.link.Idle)

theorem LinkCalled.calls {w w' : World} (h : w.LinkCalled) (hcalls : Calls w w') :
    w'.LinkCalled := by
  rcases h with ⟨hopen, l, calls, hlink⟩ | ⟨hclosed, hidle⟩
  · obtain ⟨calls', hlink'⟩ := hcalls.opened hopen
    exact .inl ⟨hcalls.channel.trans hopen, l, calls ++ calls', by
      rw [run_append, ← hlink, hlink']⟩
  · exact .inr ⟨hcalls.channel.trans hclosed, hcalls.closed hclosed hidle⟩

theorem linkCalled_start (w : World) : w.start.LinkCalled := .inr ⟨rfl, rfl, rfl, rfl⟩

theorem LinkCalled.step {w : World} (h : w.LinkCalled) (e : Event) : (w.step e).LinkCalled := by
  by_cases hinit : ∃ opened, e = .init opened
  · obtain ⟨opened, rfl⟩ := hinit
    simp only [World.step, managerInit]
    split
    · exact h
    split
    · exact h
    exact LinkCalled.calls (.inl ⟨rfl, w.pmu.link, [], rfl⟩)
      (portRelation_calls.requests (requests_initRequests _))
  · exact h.calls (calls_step w e fun _ h => hinit ⟨_, h⟩)

theorem linkCalled_run (w : World) (events : List Event) : (run step w.start events).LinkCalled :=
  run_invariant (I := LinkCalled) (fun _ e h => h.step e) (linkCalled_start w) events

/-- What holds of an idle and of an opened link and is kept by every call holds of a link
worked on by calls. -/
theorem LinkCalled.invariant {I : SerialLink → Prop} (hidle : ∀ l, l.Idle → I l)
    (hopened : ∀ l, I (SerialLink.opened l)) (hcall : ∀ l c, I l → I (SerialLink.call l c))
    {w : World} (h : w.LinkCalled) : I w.pmu.link := by
  rcases h with ⟨-, l, calls, hlink⟩ | ⟨-, h⟩
  · rw [hlink]
    exact run_invariant hcall (hopened l) calls
  · exact hidle _ h

end World
end PcatManager
