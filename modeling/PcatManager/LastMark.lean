import Mathlib.Data.List.Induction
import Mathlib.Order.Lattice

/-!
# The time of the last mark

A log of timed entries some of which are marked. A timer that is restarted by every marked
entry has run for longer than a span only if no entry of that span is marked. Nothing here
is about a program.
-/

namespace LastMark

variable {α τ : Type*} (mark : α → Bool) (time : α → τ)

/-- The time of the last marked entry, or of the start if there is none. -/
def lastMark (start : τ) (log : List α) : τ :=
  log.foldl (fun t x => if mark x then time x else t) start

theorem lastMark_concat (start : τ) (log : List α) (x : α) :
    lastMark mark time start (log ++ [x]) =
      if mark x then time x else lastMark mark time start log := by
  rw [lastMark, List.foldl_append]
  rfl

variable [LinearOrder τ]

/-- The entries follow one another from the start up to now. -/
structure Chronicle (start now : τ) (log : List α) : Prop where
  sorted : log.Pairwise fun x y => time x ≤ time y
  started : ∀ x ∈ log, start ≤ time x
  past : ∀ x ∈ log, time x ≤ now
  start_le : start ≤ now

variable {time} {start now : τ} {log : List α}

theorem chronicle_nil (h : start ≤ now) : Chronicle time start now [] := by
  constructor
  · exact List.Pairwise.nil
  · simp
  · simp
  · exact h

theorem Chronicle.mono (h : Chronicle time start now log) {now' : τ} (hle : now ≤ now') :
    Chronicle time start now' log :=
  { h with past := fun x hx => (h.past x hx).trans hle, start_le := h.start_le.trans hle }

theorem Chronicle.concat (h : Chronicle time start now log) {x : α} (hx : time x = now) :
    Chronicle time start now (log ++ [x]) := by
  refine ⟨?_, ?_, ?_, h.start_le⟩
  · rw [List.pairwise_append]
    refine ⟨h.sorted, List.pairwise_singleton _ x, fun y hy z hz => ?_⟩
    rw [List.mem_singleton.mp hz, hx]
    exact h.past y hy
  · intro y hy
    rcases List.mem_append.mp hy with hy | hy
    · exact h.started y hy
    · rw [List.mem_singleton.mp hy, hx]
      exact h.start_le
  · intro y hy
    rcases List.mem_append.mp hy with hy | hy
    · exact h.past y hy
    · rw [List.mem_singleton.mp hy, hx]

variable {mark}

theorem start_le_lastMark (h : Chronicle time start now log) :
    start ≤ lastMark mark time start log := by
  have hstarted := h.started
  clear h
  induction log using List.reverseRecOn with
  | nil => exact le_refl start
  | append_singleton log x ih =>
    rw [lastMark_concat]
    split
    · exact hstarted x (by simp)
    · exact ih fun y hy => hstarted y (List.mem_append_left _ hy)

/-- No marked entry is later than the last mark. -/
theorem le_lastMark (h : Chronicle time start now log) {x : α} (hx : x ∈ log)
    (hmark : mark x = true) : time x ≤ lastMark mark time start log := by
  have hsorted := h.sorted
  clear h
  induction log using List.reverseRecOn with
  | nil => cases hx
  | append_singleton log y ih =>
    rw [List.pairwise_append] at hsorted
    rw [lastMark_concat]
    rcases List.mem_append.mp hx with hx | hx
    · split
      · exact hsorted.2.2 x hx y List.mem_cons_self
      · exact ih hx hsorted.1
    · obtain rfl := List.mem_singleton.mp hx
      rw [if_pos hmark]

/-- A span that begins after the last mark has no marked entry. -/
theorem not_marked_of_lastMark_lt (h : Chronicle time start now log) {since : τ}
    (hsince : lastMark mark time start log < since) {x : α} (hx : x ∈ log) (hspan : since ≤ time x) :
    mark x = false := by
  by_contra hmark
  have hle := le_lastMark h hx (Bool.eq_true_of_not_eq_false hmark)
  exact absurd hle (not_le.mpr (hsince.trans_le hspan))

end LastMark
