import PcatManager.DoWhile
import PcatManager.SerialLinkSteps
import Mathlib.Data.List.Forall2

/-!
# The loop of the write watch

The loop has no counter. A turn that goes round again frees the current command or writes
some of it, and nothing is rewound or queued before the loop has ended.
-/

namespace PcatManager
open DoWhile

/-- `write()` has taken more of the command's bytes, or none. -/
def CommandData.WrittenOn (c c' : CommandData) : Prop :=
  ∃ n timestamp firstrun,
    c' = { c with writtenSize := c.writtenSize + n, timestamp, firstrun }

theorem CommandData.WrittenOn.refl (c : CommandData) : c.WrittenOn c :=
  ⟨0, c.timestamp, c.firstrun, rfl⟩

theorem CommandData.WrittenOn.trans {c c' c'' : CommandData} (h : c.WrittenOn c')
    (h' : c'.WrittenOn c'') : c.WrittenOn c'' := by
  obtain ⟨n, timestamp, firstrun, rfl⟩ := h
  obtain ⟨n', timestamp', firstrun', rfl⟩ := h'
  exact ⟨n + n', timestamp', firstrun', by rw [Nat.add_assoc]⟩

theorem forall₂_writtenOn_refl (cmds : List CommandData) :
    List.Forall₂ CommandData.WrittenOn cmds cmds :=
  List.forall₂_same.mpr fun c _ => .refl c

theorem forall₂_writtenOn_trans {cmds cmds' cmds'' : List CommandData}
    (h : List.Forall₂ CommandData.WrittenOn cmds cmds')
    (h' : List.Forall₂ CommandData.WrittenOn cmds' cmds'') :
    List.Forall₂ CommandData.WrittenOn cmds cmds'' := by
  induction h generalizing cmds'' with
  | nil => exact h'
  | cons hhead _ ih =>
    cases h' with
    | cons hhead' htail' => exact .cons (hhead.trans hhead') (ih htail')

namespace SerialLink

/-- The commands that are still to be dealt with, the current one first. -/
def pending (l : SerialLink) : List CommandData :=
  l.currentCommandData.toList ++ l.commandQueue

/-- The bytes that are still to be written. -/
def unwritten (l : SerialLink) : ℕ :=
  (l.pending.map fun c => c.buffer.length - c.writtenSize).sum

/-- Commands have only gone from the front, and those that are left have at most been
written on. -/
structure PutsNothingBack (l l' : SerialLink) : Prop where
  queue : l'.commandQueue <:+ l.commandQueue
  pending : ∃ rest, rest <:+ l.pending ∧ List.Forall₂ CommandData.WrittenOn rest l'.pending

theorem PutsNothingBack.refl (l : SerialLink) : l.PutsNothingBack l :=
  ⟨List.suffix_refl _, l.pending, List.suffix_refl _, forall₂_writtenOn_refl _⟩

theorem PutsNothingBack.trans {l l' l'' : SerialLink} (h : l.PutsNothingBack l')
    (h' : l'.PutsNothingBack l'') : l.PutsNothingBack l'' := by
  obtain ⟨rest, hrest, hwritten⟩ := h.pending
  obtain ⟨rest', hrest', hwritten'⟩ := h'.pending
  obtain ⟨gone, hgone⟩ := hrest'
  have hdropped := List.forall₂_drop gone.length hwritten
  rw [← hgone, List.drop_left] at hdropped
  exact ⟨h'.queue.trans h.queue, _, (List.drop_suffix _ _).trans hrest,
    forall₂_writtenOn_trans hdropped hwritten'⟩

variable {l : SerialLink}

theorem pending_popCurrent (h : l.currentCommandData = none) : l.popCurrent.pending = l.pending := by
  rw [popCurrent]
  split
  · rfl
  · rename_i c queue hq
    simp [pending, h, hq]

/-- The link after a turn has looked for a current command. -/
def refilled (l : SerialLink) : SerialLink :=
  if l.currentCommandData.isNone then l.popCurrent else l

theorem pending_refilled (l : SerialLink) : l.refilled.pending = l.pending := by
  rw [refilled]
  split
  · rename_i h
    exact pending_popCurrent (Option.isNone_iff_eq_none.mp h)
  · rfl

theorem putsNothingBack_refilled (l : SerialLink) : l.PutsNothingBack l.refilled := by
  refine ⟨?_, l.pending, List.suffix_refl _, ?_⟩
  · rw [refilled, popCurrent]
    split
    · split
      · exact List.suffix_refl _
      · rename_i c queue hq
        rw [hq]
        exact List.suffix_cons c queue
    · exact List.suffix_refl _
  · rw [pending_refilled]
    exact forall₂_writtenOn_refl _

theorem putsNothingBack_freeCurrent (l : SerialLink) : l.PutsNothingBack l.freeCurrent :=
  ⟨List.suffix_refl _, l.commandQueue, List.suffix_append _ _, forall₂_writtenOn_refl _⟩

theorem pending_eq_cons {c : CommandData} (h : l.currentCommandData = some c) :
    l.pending = c :: l.commandQueue := by
  rw [pending, h]
  rfl

theorem putsNothingBack_recordWrite {c : CommandData} (h : l.currentCommandData = some c) (n : ℕ)
    (now : ℤ) : l.PutsNothingBack (l.recordWrite c n now) := by
  refine ⟨List.suffix_refl _, l.pending, List.suffix_refl _, ?_⟩
  rw [pending_eq_cons h]
  exact .cons ⟨n, now, false, rfl⟩ (forall₂_writtenOn_refl _)

theorem unwritten_refilled (l : SerialLink) : l.refilled.unwritten = l.unwritten := by
  rw [unwritten, pending_refilled, unwritten]

theorem unwritten_eq_add {c : CommandData} (h : l.currentCommandData = some c) :
    l.unwritten = (c.buffer.length - c.writtenSize) + l.freeCurrent.unwritten := by
  rw [unwritten, pending_eq_cons h, List.map_cons, List.sum_cons]
  rfl

theorem unwritten_recordWrite (now : ℤ) {c : CommandData} (h : l.currentCommandData = some c) {n : ℕ}
    (hlen : c.writtenSize + n ≤ c.buffer.length) :
    (l.recordWrite c n now).unwritten + n = l.unwritten := by
  have hwritten : (l.recordWrite c n now).unwritten =
      (c.buffer.length - (c.writtenSize + n)) + l.freeCurrent.unwritten := by
    rw [unwritten_eq_add rfl]
    rfl
  have hbefore := unwritten_eq_add h
  omega

theorem pendingTurns_refilled (l : SerialLink) : l.refilled.pendingTurns = l.pendingTurns := by
  rw [pendingTurns, ← pending, pending_refilled]
  rfl

theorem pendingTurns_freeCurrent {c : CommandData} (h : l.currentCommandData = some c) :
    l.freeCurrent.pendingTurns < l.pendingTurns := by
  simp [pendingTurns, freeCurrent, h]

theorem pendingTurns_recordWrite (now : ℤ) {c : CommandData} (h : l.currentCommandData = some c) {n : ℕ}
    (hn : 0 < n) (hlen : c.writtenSize + n ≤ c.buffer.length) :
    (l.recordWrite c n now).pendingTurns < l.pendingTurns := by
  simp [pendingTurns, recordWrite, h]
  omega

end SerialLink

open SerialLink

/-- What the loop works on: the link, the local `wsize` and the number of `write()` calls
made so far. -/
structure WriteTurn where
  link : SerialLink
  wsize : WriteResult
  count : ℕ

/-- The body of the loop. It goes round again where the body says `continue` and at its end,
and is left where the body says `break`. -/
def writeTurn (now : ℤ) (writes : ℕ → WriteResult) (t : WriteTurn) : Bool × WriteTurn :=
  let l := t.link.refilled
  match l.currentCommandData with
  | none => (false, { t with link := l })
  | some c =>
    if !c.firstrun && c.writtenSize = 0 && now ≤ c.timestamp + commandTimeout then
      (false, { t with link := l })
    else if !c.firstrun && c.writtenSize = 0 && c.retryCount = 0 then
      (true, { t with link := l.freeCurrent })
    else if c.buffer.length ≤ c.writtenSize then
      if c.needAck then (false, { t with link := l })
      else (true, { t with link := l.freeCurrent })
    else
      let asked := askedSize (c.buffer.length - c.writtenSize)
      match writes t.count with
      | .written n =>
        if 0 < min n asked then
          (true, ⟨l.recordWrite c (min n asked) now, .written (min n asked), t.count + 1⟩)
        else (false, ⟨l, .written 0, t.count + 1⟩)
      | result => (false, ⟨l, result, t.count + 1⟩)

section Turns
variable (now : ℤ) (writes : ℕ → WriteResult)

theorem writeLoop_eq_loop (fuel : ℕ) (t : WriteTurn) :
    writeLoop now writes fuel t.count t.link t.wsize =
      (loop (writeTurn now writes) fuel t).map fun t => (t.link, t.wsize, t.count) := by
  induction fuel generalizing t with
  | zero => rfl
  | succ fuel ih =>
    rw [writeLoop, loop, writeTurn, refilled]
    generalize (if t.link.currentCommandData.isNone then t.link.popCurrent else t.link) = l
    cases hc : l.currentCommandData with
    | none => rfl
    | some c =>
      simp only
      split_ifs with hwait hspent hfull hack
      · rfl
      · exact ih { t with link := l.freeCurrent }
      · rfl
      · exact ih { t with link := l.freeCurrent }
      · cases hw : writes t.count with
        | written n =>
          simp only
          split_ifs with hpos
          · exact ih ⟨l.recordWrite c _ now, .written _, t.count + 1⟩
          · rfl
        | again => rfl
        | failed => rfl

/-- A turn ends the loop with the command it has taken, or goes round again having freed
the command or written some of it. -/
theorem writeTurn_cases (t : WriteTurn) :
    (∃ wsize count, count ≤ t.count + 1 ∧
      writeTurn now writes t = (false, ⟨t.link.refilled, wsize, count⟩)) ∨
    ∃ c, t.link.refilled.currentCommandData = some c ∧
      (writeTurn now writes t = (true, { t with link := t.link.refilled.freeCurrent }) ∨
        ∃ n, 0 < n ∧ c.writtenSize + n ≤ c.buffer.length ∧
          writeTurn now writes t =
            (true, ⟨t.link.refilled.recordWrite c n now, .written n, t.count + 1⟩)) := by
  rw [writeTurn]
  cases hc : t.link.refilled.currentCommandData with
  | none => exact .inl ⟨t.wsize, t.count, Nat.le_succ _, rfl⟩
  | some c =>
    simp only
    split_ifs with hwait hspent hfull hack
    · exact .inl ⟨t.wsize, t.count, Nat.le_succ _, rfl⟩
    · exact .inr ⟨c, rfl, .inl rfl⟩
    · exact .inl ⟨t.wsize, t.count, Nat.le_succ _, rfl⟩
    · exact .inr ⟨c, rfl, .inl rfl⟩
    · cases hw : writes t.count with
      | written n =>
        simp only
        split_ifs with hpos
        · have hle := min_askedSize_le n (c.buffer.length - c.writtenSize)
          exact .inr ⟨c, rfl, .inr ⟨_, hpos, by omega, rfl⟩⟩
        · exact .inl ⟨_, _, Nat.le_refl _, rfl⟩
      | again => exact .inl ⟨_, _, Nat.le_refl _, rfl⟩
      | failed => exact .inl ⟨_, _, Nat.le_refl _, rfl⟩

theorem putsNothingBack_writeTurn (t : WriteTurn) :
    t.link.PutsNothingBack (writeTurn now writes t).2.link := by
  have hrefilled := putsNothingBack_refilled t.link
  obtain ⟨wsize, count, -, hturn⟩ | ⟨c, hc, hturn | ⟨n, -, -, hturn⟩⟩ :=
    writeTurn_cases now writes t
  · rw [hturn]
    exact hrefilled
  · rw [hturn]
    exact hrefilled.trans (putsNothingBack_freeCurrent _)
  · rw [hturn]
    exact hrefilled.trans (putsNothingBack_recordWrite hc n now)

variable {now writes}

/-- A turn that goes round again makes the bound on the turns smaller. -/
theorem pendingTurns_lt {t t' : WriteTurn} (h : Again (writeTurn now writes) t t') :
    t'.link.pendingTurns < t.link.pendingTurns := by
  rw [← pendingTurns_refilled t.link]
  obtain ⟨wsize, count, -, hturn⟩ | ⟨c, hc, hturn | ⟨n, hpos, hlen, hturn⟩⟩ :=
    writeTurn_cases now writes t
  · cases hturn.symm.trans h
  · cases hturn.symm.trans h
    exact pendingTurns_freeCurrent hc
  · cases hturn.symm.trans h
    exact pendingTurns_recordWrite now hc hpos hlen

theorem SerialLink.writeLoop_isSome (writes : ℕ → WriteResult) (fuel k : ℕ) (l : SerialLink)
    (wsize : WriteResult) (h : l.pendingTurns < fuel) :
    (writeLoop now writes fuel k l wsize).isSome := by
  have hless (t t' : WriteTurn) (hagain : Again (writeTurn now writes) t t') :
      t'.link.pendingTurns < t.link.pendingTurns := pendingTurns_lt hagain
  obtain ⟨last, hlast⟩ := exists_loop_of_measure hless (s := ⟨l, wsize, k⟩) h
  rw [writeLoop_eq_loop now writes fuel ⟨l, wsize, k⟩, hlast]
  rfl

/-- Every call of `write()` in a turn that goes round again writes at least a byte. -/
theorem count_add_unwritten_le {t t' : WriteTurn} (h : Again (writeTurn now writes) t t') :
    t'.count + t'.link.unwritten ≤ t.count + t.link.unwritten := by
  have hsame := unwritten_refilled t.link
  obtain ⟨wsize, count, -, hturn⟩ | ⟨c, hc, hturn | ⟨n, hpos, hlen, hturn⟩⟩ :=
    writeTurn_cases now writes t
  · cases hturn.symm.trans h
  · cases hturn.symm.trans h
    have hfreed := unwritten_eq_add hc
    change t.count + t.link.refilled.freeCurrent.unwritten ≤ _
    omega
  · cases hturn.symm.trans h
    have hwritten := unwritten_recordWrite now hc hlen
    change t.count + 1 + (t.link.refilled.recordWrite c n now).unwritten ≤ _
    omega

variable (now writes) in
theorem count_writeTurn_le (t : WriteTurn) : (writeTurn now writes t).2.count ≤ t.count + 1 := by
  obtain ⟨wsize, count, hcount, hturn⟩ | ⟨c, -, hturn | ⟨n, -, -, hturn⟩⟩ :=
    writeTurn_cases now writes t
  · rw [hturn]
    exact hcount
  · rw [hturn]
    exact Nat.le_succ _
  · exact Nat.le_of_eq (congrArg (fun r => r.2.count) hturn)

theorem putsNothingBack_heads {t t' : WriteTurn} (h : Heads (writeTurn now writes) t t') :
    t.link.PutsNothingBack t'.link := by
  refine h.related (R := fun t t' => t.link.PutsNothingBack t'.link) (fun t => .refl t.link)
    (fun t t' t'' h h' => h.trans h') fun t t' hagain => ?_
  have hturn := putsNothingBack_writeTurn now writes t
  rw [hagain] at hturn
  exact hturn

end Turns

/-- Whatever `write()` returns, the loop ends: given turns enough it ends in the same way,
after at most one `write()` more than there are bytes to write. From no head to a later one,
nor from the first to the end, has a command been put back. -/
theorem writeLoop_ends (l : SerialLink) (now : ℤ) (writes : ℕ → WriteResult)
    (wsize : WriteResult) :
    ∃ l' wsize' count,
      (∀ fuel, l.pendingTurns < fuel →
        writeLoop now writes fuel 0 l wsize = some (l', wsize', count)) ∧
      l.serialWriteWatchFunc now writes wsize =
        { l'.endPass with writeSource := wsize' = .again } ∧
      count ≤ l.unwritten + 1 ∧
      (∀ t t', Heads (writeTurn now writes) ⟨l, wsize, 0⟩ t → Heads (writeTurn now writes) t t' →
        t.link.PutsNothingBack t'.link) ∧
      l.PutsNothingBack l' := by
  have hsome : (writeLoop now writes (l.pendingTurns + 1) 0 l wsize).isSome :=
    writeLoop_isSome writes _ 0 l wsize (Nat.lt_succ_self _)
  obtain ⟨⟨l', wsize', count⟩, hends⟩ := Option.isSome_iff_exists.mp hsome
  have hloop := writeLoop_eq_loop now writes (l.pendingTurns + 1) ⟨l, wsize, 0⟩
  rw [hends] at hloop
  obtain ⟨last, hlast, hresult⟩ := Option.map_eq_some_iff.mp hloop.symm
  cases hresult
  obtain ⟨head, hheads, hturn, hcost⟩ :=
    exists_last_cost (fun t t' => count_add_unwritten_le) hlast
  refine ⟨last.link, last.wsize, last.count, fun fuel hfuel => ?_, ?_, ?_,
    fun t t' _ h => putsNothingBack_heads h, ?_⟩
  · rw [writeLoop_eq_loop now writes fuel ⟨l, wsize, 0⟩, loop_mono hfuel hlast]
    rfl
  · rw [serialWriteWatchFunc, hends]
  · have hcount := count_writeTurn_le now writes head
    rw [hturn] at hcount
    rw [Nat.zero_add] at hcost
    exact Nat.le_trans hcount (Nat.succ_le_succ hcost)
  · have hfinal := putsNothingBack_writeTurn now writes head
    rw [hturn] at hfinal
    exact (putsNothingBack_heads hheads).trans hfinal

end PcatManager
