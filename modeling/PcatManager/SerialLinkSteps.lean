import PcatManager.SerialLink
import Mathlib.Logic.Relation

/-!
# What a step of the link can do

Every function of the transmit side is a sequence of the small steps below, each with the
guard under which the code takes it. Invariants are proved once for each small step and
hold of every run of the code. The predicate `mayRelease` restricts the commands a
received frame may release.
-/

namespace PcatManager
open SerialFrame Relation

/-- A command as a request allocates it. -/
structure CommandData.Fresh (c : CommandData) : Prop where
  writtenSize : c.writtenSize = 0
  retryCount : c.retryCount = if c.needAck then 3 else 1
  firstrun : c.firstrun = true

/-- The buffer is what the encoder builds for this command. -/
def CommandData.Encoded (c : CommandData) : Prop :=
  ∃ extraData, c.buffer = serialWriteFrame c.frameNum c.command extraData c.needAck

theorem length_serialWriteFrame_pos (frameNum command : UInt16) (extraData : List UInt8)
    (needAck : Bool) : 0 < (serialWriteFrame frameNum command extraData needAck).length := by
  simp [serialWriteFrame]

theorem CommandData.Encoded.length_pos {c : CommandData} (h : c.Encoded) :
    0 < c.buffer.length := by
  obtain ⟨extraData, h⟩ := h
  rw [h]
  exact length_serialWriteFrame_pos _ _ _ _

/-- The current command may go on writing at time `now`: it is inside a pass, or has not
been written yet, or may start a new pass. -/
def CommandData.MayWrite (c : CommandData) (now : ℤ) : Prop :=
  c.firstrun = true ∨ c.writtenSize ≠ 0 ∨
    (c.timestamp + commandTimeout < now ∧ c.retryCount ≠ 0)

namespace SerialLink

/-- One byte of the current command is written. -/
def writeByte (l : SerialLink) (c : CommandData) (now : ℤ) : SerialLink :=
  { l with
    currentCommandData := some
      { c with writtenSize := c.writtenSize + 1, timestamp := now, firstrun := false }
    history := l.history ++ [.wrote c.id c.writtenSize (c.buffer.getD c.writtenSize 0) now] }

/-- The history of a parsed frame. -/
def seeFrame (l : SerialLink) (f : Frame) : SerialLink :=
  { l with
    history := l.history ++ [.parsed (l.currentCommandData.map (·.id)) f.command f.frameNum] }

/-- The small steps of the link at time `now`. -/
inductive Step (mayRelease : CommandData → Prop) (now : ℤ) : SerialLink → SerialLink → Prop where
  | enqueue (l : SerialLink) (cmd : CommandData) (frameNum : UInt16) (hfresh : cmd.Fresh)
      (hencoded : cmd.Encoded) (hid : cmd.id = l.requests) :
      Step mayRelease now l
        { l with
          frameNum := frameNum
          commandQueue := l.commandQueue ++ [cmd]
          history := l.history ++ [.enqueued cmd]
          requests := l.requests + 1 }
  | evict (l : SerialLink) (c : CommandData) (queue : List CommandData)
      (h : l.commandQueue = c :: queue) :
      Step mayRelease now l { l with commandQueue := queue }
  | promote (l : SerialLink) (c : CommandData) (queue : List CommandData)
      (hnone : l.currentCommandData = none) (h : l.commandQueue = c :: queue) :
      Step mayRelease now l
        { l with
          currentCommandData := some c
          commandQueue := queue
          history := l.history ++ [.current c] }
  | write (l : SerialLink) (c : CommandData) (h : l.currentCommandData = some c)
      (hlen : c.writtenSize < c.buffer.length) (hmay : c.MayWrite now) :
      Step mayRelease now l (l.writeByte c now)
  | giveUp (l : SerialLink) (c : CommandData) (h : l.currentCommandData = some c)
      (hrun : c.firstrun = false) (hwritten : c.writtenSize = 0)
      (htime : c.timestamp + commandTimeout < now) (hretry : c.retryCount = 0) :
      Step mayRelease now l l.freeCurrent
  | finish (l : SerialLink) (c : CommandData) (h : l.currentCommandData = some c)
      (hlen : c.buffer.length ≤ c.writtenSize) (hack : c.needAck = false ∨ c.retryCount = 0) :
      Step mayRelease now l l.freeCurrent
  | rewind (l : SerialLink) (c : CommandData) (h : l.currentCommandData = some c)
      (hlen : c.buffer.length ≤ c.writtenSize) (hack : c.needAck = true)
      (hretry : 0 < c.retryCount) :
      Step mayRelease now l
        { l with
          currentCommandData := some
            { c with retryCount := c.retryCount - 1, writtenSize := 0 } }
  | ignored (l : SerialLink) (f : Frame)
      (h : ∀ c, l.currentCommandData = some c → ¬Answers f c) :
      Step mayRelease now l (l.seeFrame f)
  | released (l : SerialLink) (f : Frame) (c : CommandData) (h : l.currentCommandData = some c)
      (hanswers : Answers f c) (hmay : mayRelease c) :
      Step mayRelease now l (l.seeFrame f).freeCurrent
  | source (l : SerialLink) (b : Bool) : Step mayRelease now l { l with writeSource := b }
  | counter (l : SerialLink) (n : UInt16) : Step mayRelease now l { l with frameNum := n }

/-- Any number of small steps at one time. -/
def Steps (mayRelease : CommandData → Prop) (now : ℤ) : SerialLink → SerialLink → Prop :=
  ReflTransGen (Step mayRelease now)

variable {mayRelease : CommandData → Prop} {now : ℤ} {l : SerialLink}

theorem Steps.refl (l : SerialLink) : Steps mayRelease now l l := ReflTransGen.refl

theorem Steps.trans {l l' l'' : SerialLink} (h : Steps mayRelease now l l')
    (h' : Steps mayRelease now l' l'') : Steps mayRelease now l l'' := ReflTransGen.trans h h'

theorem Step.steps {l l' : SerialLink} (h : Step mayRelease now l l') :
    Steps mayRelease now l l' := ReflTransGen.single h

/-- An invariant of the small steps is an invariant of their sequences. -/
theorem Steps.invariant {P : SerialLink → Prop}
    (hstep : ∀ l l', Step mayRelease now l l' → P l → P l') {l l' : SerialLink}
    (h : Steps mayRelease now l l') (hl : P l) : P l' := by
  induction h with
  | refl => exact hl
  | tail _ h ih => exact hstep _ _ h ih

theorem steps_popCurrent (h : l.currentCommandData = none) :
    Steps mayRelease now l l.popCurrent := by
  rw [popCurrent]
  split
  · exact .refl l
  · rename_i c queue hq
    exact (Step.promote l c queue h hq).steps

/-- Both places that take a new current command do it only when there is none. -/
theorem steps_refill :
    Steps mayRelease now l (if l.currentCommandData.isNone then l.popCurrent else l) := by
  split
  · rename_i h
    exact steps_popCurrent (Option.isNone_iff_eq_none.mp h)
  · exact .refl l

theorem steps_evictOldest (l : SerialLink) :
    Steps mayRelease now l { l with commandQueue := evictOldest l.commandQueue } := by
  suffices h : ∀ queue l, l.commandQueue = queue →
      Steps mayRelease now l { l with commandQueue := evictOldest queue } from h _ l rfl
  intro queue
  induction queue with
  | nil =>
    intro l hl
    rw [evictOldest, ← hl]
    exact .refl l
  | cons c queue ih =>
    intro l hl
    rw [evictOldest]
    split
    · exact (Step.evict l c queue hl).steps.trans (ih _ rfl)
    · rw [← hl]
      exact .refl l

theorem newCommandData_fresh (l : SerialLink) (command : UInt16) (frameNum : Option UInt16)
    (extraData : List UInt8) (needAck : Bool) :
    (l.newCommandData now command frameNum extraData needAck).Fresh := ⟨rfl, rfl, rfl⟩

theorem newCommandData_encoded (l : SerialLink) (command : UInt16) (frameNum : Option UInt16)
    (extraData : List UInt8) (needAck : Bool) :
    (l.newCommandData now command frameNum extraData needAck).Encoded := ⟨extraData, rfl⟩

theorem steps_serialWriteDataRequest (l : SerialLink) (command : UInt16)
    (frameNum : Option UInt16) (extraData : List UInt8) (needAck : Bool) :
    Steps mayRelease now l
      (l.serialWriteDataRequest now command frameNum extraData needAck) := by
  rw [serialWriteDataRequest]
  refine (steps_evictOldest l).trans (.trans ?_ (.trans steps_refill (Step.source _ true).steps))
  exact (Step.enqueue { l with commandQueue := evictOldest l.commandQueue }
    (l.newCommandData now command frameNum extraData needAck) _
    (newCommandData_fresh l command frameNum extraData needAck)
    (newCommandData_encoded l command frameNum extraData needAck) rfl).steps

/-- A `write()` that takes several bytes takes them one after the other. -/
theorem steps_recordWrite {c : CommandData} (h : l.currentCommandData = some c) {n : ℕ}
    (hlen : c.writtenSize + n ≤ c.buffer.length) (hmay : c.MayWrite now) (hn : 0 < n) :
    Steps mayRelease now l (l.recordWrite c n now) := by
  induction n with
  | zero => omega
  | succ n ih =>
    have hlast : l.recordWrite c (n + 1) now =
        (l.recordWrite c n now).writeByte
          { c with writtenSize := c.writtenSize + n, timestamp := now, firstrun := false } now := by
      simp [recordWrite, writeByte, List.range_succ, Nat.add_assoc]
    by_cases hzero : n = 0
    · subst hzero
      have hone : l.recordWrite c 1 now = l.writeByte c now := by
        simp [recordWrite, writeByte]
      rw [Nat.zero_add, hone]
      exact (Step.write l c h (by omega) hmay).steps
    · rw [hlast]
      refine (ih (by omega) (by omega)).trans (Step.write _ _ rfl ?_ ?_).steps
      · change c.writtenSize + n < c.buffer.length
        omega
      · exact .inr (.inl (by change c.writtenSize + n ≠ 0; omega))

/-- What is written, if anything, never exceeds what is left of the buffer. -/
theorem min_askedSize_le (n remainingSize : ℕ) : min n (askedSize remainingSize) ≤ remainingSize := by
  rw [askedSize]
  split <;> omega

/-- One turn of the write loop: with the link `l₁` that has taken a command it ends the loop,
frees the command, or writes some of it. -/
theorem writeLoop_cases {writes : ℕ → WriteResult} {fuel k k' : ℕ} {l l' : SerialLink}
    {wsize wsize' : WriteResult}
    (h : writeLoop now writes (fuel + 1) k l wsize = some (l', wsize', k')) :
    ∃ l₁, (if l.currentCommandData.isNone then l.popCurrent else l) = l₁ ∧
      ((l' = l₁ ∧ k ≤ k') ∨
        ((∀ mayRelease, Steps mayRelease now l₁ l₁.freeCurrent) ∧
          writeLoop now writes fuel k l₁.freeCurrent wsize = some (l', wsize', k')) ∨
        ∃ c n, (∀ mayRelease, Steps mayRelease now l₁ (l₁.recordWrite c n now)) ∧
          writeLoop now writes fuel (k + 1) (l₁.recordWrite c n now) (.written n) =
            some (l', wsize', k')) := by
  refine ⟨_, rfl, ?_⟩
  rw [writeLoop] at h
  generalize (if l.currentCommandData.isNone then l.popCurrent else l) = l₁ at h ⊢
  have hends {l₂ : SerialLink} {wsize₂ : WriteResult} {k₂ : ℕ}
      (h : some (l₂, wsize₂, k₂) = some (l', wsize', k')) (hk : k ≤ k₂) : l' = l₂ ∧ k ≤ k' := by
    cases h
    exact ⟨rfl, hk⟩
  cases hc : l₁.currentCommandData with
  | none =>
    simp only [hc] at h
    exact .inl (hends h (Nat.le_refl k))
  | some c =>
    simp only [hc] at h
    split_ifs at h with hwait hspent hfull hack
    · exact .inl (hends h (Nat.le_refl k))
    · simp only [Bool.and_eq_true, Bool.not_eq_true', decide_eq_true_eq] at hwait hspent
      have htime : c.timestamp + commandTimeout < now := by
        by_contra hle
        exact hwait ⟨hspent.1, not_lt.mp hle⟩
      exact .inr (.inl
        ⟨fun _ => (Step.giveUp l₁ c hc hspent.1.1 hspent.1.2 htime hspent.2).steps, h⟩)
    · exact .inl (hends h (Nat.le_refl k))
    · exact .inr (.inl ⟨fun _ => (Step.finish l₁ c hc hfull (.inl (by simpa using hack))).steps, h⟩)
    · have hmay : c.MayWrite now := by
        simp only [Bool.and_eq_true, Bool.not_eq_true', decide_eq_true_eq] at hwait hspent
        by_cases hrun : c.firstrun = true
        · exact .inl hrun
        · by_cases hwritten : c.writtenSize = 0
          · refine .inr (.inr ⟨?_, fun hretry => hspent ⟨⟨by simpa using hrun, hwritten⟩, hretry⟩⟩)
            by_contra hle
            exact hwait ⟨⟨by simpa using hrun, hwritten⟩, not_lt.mp hle⟩
          · exact .inr (.inl hwritten)
      cases hw : writes k with
      | written n =>
        simp only [hw] at h
        split_ifs at h with hpos
        · have hle := min_askedSize_le n (c.buffer.length - c.writtenSize)
          exact .inr (.inr ⟨c, _, fun _ => steps_recordWrite hc (by omega) hmay hpos, h⟩)
        · exact .inl (hends h (Nat.le_succ k))
      | again =>
        simp only [hw] at h
        exact .inl (hends h (Nat.le_succ k))
      | failed =>
        simp only [hw] at h
        exact .inl (hends h (Nat.le_succ k))

theorem steps_writeLoop {writes : ℕ → WriteResult} (fuel : ℕ) {k k' : ℕ} {l l' : SerialLink}
    {wsize wsize' : WriteResult}
    (h : writeLoop now writes fuel k l wsize = some (l', wsize', k')) :
    Steps mayRelease now l l' := by
  induction fuel generalizing k l wsize with
  | zero => cases h
  | succ fuel ih =>
    obtain ⟨l₁, hrefill, hturn⟩ := writeLoop_cases h
    have htaken : Steps mayRelease now l l₁ := hrefill ▸ steps_refill
    obtain ⟨rfl, -⟩ | ⟨hfree, hrest⟩ | ⟨c, n, hwrite, hrest⟩ := hturn
    · exact htaken
    · exact htaken.trans ((hfree mayRelease).trans (ih hrest))
    · exact htaken.trans ((hwrite mayRelease).trans (ih hrest))

theorem steps_endPass (l : SerialLink) : Steps mayRelease now l l.endPass := by
  rw [endPass]
  split
  · exact .refl l
  · rename_i c hc
    split_ifs with hlen hack
    · simp only [Bool.and_eq_true, decide_eq_true_eq] at hack
      exact (Step.rewind l c hc hlen hack.1 hack.2).steps
    · refine (Step.finish l c hc hlen ?_).steps
      cases hneed : c.needAck with
      | false => exact .inl rfl
      | true => exact .inr (by simpa [hneed] using hack)
    · exact .refl l

theorem steps_serialWriteWatchFunc (l : SerialLink) (writes : ℕ → WriteResult)
    (wsize : WriteResult) :
    Steps mayRelease now l (l.serialWriteWatchFunc now writes wsize) := by
  rw [serialWriteWatchFunc]
  split
  · exact .refl l
  · rename_i l' wsize' k' h
    exact (steps_writeLoop _ h).trans ((steps_endPass l').trans (Step.source _ _).steps)

theorem steps_releaseAnswered (l : SerialLink) (f : Frame)
    (h : ∀ c, l.currentCommandData = some c → Answers f c → mayRelease c) :
    Steps mayRelease now l (l.releaseAnswered f) := by
  rw [releaseAnswered]
  cases hc : l.currentCommandData with
  | none =>
    have hstep : Step mayRelease now l (l.seeFrame f) := .ignored l f (by simp [hc])
    simpa [seeFrame, hc] using hstep.steps
  | some c =>
    by_cases hanswers : Answers f c
    · have hstep : Step mayRelease now l (l.seeFrame f).freeCurrent :=
        .released l f c hc hanswers (h c hc hanswers)
      simpa [seeFrame, freeCurrent, hc, hanswers] using hstep.steps
    · have hstep : Step mayRelease now l (l.seeFrame f) := .ignored l f (by simp [hc, hanswers])
      simpa [seeFrame, hc, hanswers] using hstep.steps

/-- The timer changes nothing but whether the write watch is installed. -/
theorem exists_armWriteSource (l : SerialLink) (now : ℤ) :
    ∃ b, l.armWriteSource now = { l with writeSource := b } := by
  have hset (l₁ : SerialLink) (hl₁ : ∃ b, l₁ = { l with writeSource := b }) (p : Prop)
      [Decidable p] :
      ∃ b, (if p then { l₁ with writeSource := true } else l₁) = { l with writeSource := b } := by
    obtain ⟨b, rfl⟩ := hl₁
    by_cases hp : p
    · exact ⟨true, if_pos hp⟩
    · exact ⟨b, if_neg hp⟩
  have hfirst := hset l ⟨l.writeSource, rfl⟩
    ((!l.writeSource && l.currentCommandData.isNone && !l.commandQueue.isEmpty) = true)
  rw [armWriteSource]
  generalize (if (!l.writeSource && l.currentCommandData.isNone && !l.commandQueue.isEmpty) = true
    then ({ l with writeSource := true } : SerialLink) else l) = l₁ at hfirst ⊢
  split
  · exact hfirst
  · exact hset l₁ hfirst _

theorem steps_armWriteSource (l : SerialLink) : Steps mayRelease now l (l.armWriteSource now) := by
  obtain ⟨b, harm⟩ := exists_armWriteSource l now
  rw [harm]
  exact (Step.source l b).steps

end SerialLink
end PcatManager
