import PcatManager.RunTrace
import Mathlib.Data.List.Destutter

/-!
# Telling of changes

A system looks at a value now and then and tells of it when it is not the value it told of
last. Over a run it tells of the values looked at without their repetitions. Nothing here is
about a program.
-/

namespace ChangeNotifier
open GuardedRun RunTrace

section Changes
variable {α : Type*} [DecidableEq α]

/-- The values that are told of, when `last` was told of before. -/
def changes (last : α) (values : List α) : List α := (values.destutter' (· ≠ ·) last).tail

theorem cons_changes (last : α) (values : List α) :
    last :: changes last values = values.destutter' (· ≠ ·) last := by
  induction values generalizing last with
  | nil => rfl
  | cons x values ih =>
    by_cases hx : last ≠ x
    · rw [changes, List.destutter'_cons_pos (h := hx), List.tail_cons]
    · rw [changes, List.destutter'_cons_neg (h := hx)]
      exact ih last

@[simp] theorem changes_nil (last : α) : changes last [] = [] := rfl

theorem changes_cons_ne {last x : α} (hx : last ≠ x) (values : List α) :
    changes last (x :: values) = x :: changes x values := by
  rw [changes, List.destutter'_cons_pos (h := hx), List.tail_cons, cons_changes]

@[simp] theorem changes_cons_self (x : α) (values : List α) :
    changes x (x :: values) = changes x values := by
  rw [changes, List.destutter'_cons_neg (h := not_not.mpr rfl), changes]

theorem changes_append (last : α) (values values' : List α) :
    changes last (values ++ values') =
      changes last values ++ changes (values.getLastD last) values' := by
  induction values generalizing last with
  | nil => rfl
  | cons x values ih =>
    rw [List.cons_append, List.getLastD_cons]
    by_cases hx : last = x
    · subst hx
      rw [changes_cons_self, changes_cons_self, ih]
    · rw [changes_cons_ne hx, changes_cons_ne hx, ih, List.cons_append]

end Changes

section Run
variable {σ ε α ω : Type*} [DecidableEq α] {step : σ → ε → σ} {emits : σ → ε → List ω}
  {samples : σ → ε → List α} {tell : α → ω} {I : σ → Prop} {q : ε → Prop}

/-- Over a run a system tells of the changes among the values it looks at. -/
theorem trace_eq_changes (told : σ → α) (hstep : ∀ s e, q e → I s → I (step s e))
    (hemits : ∀ s e, q e → I s → emits s e = (changes (told s) (samples s e)).map tell)
    (htold : ∀ s e, q e → I s → told (step s e) = (samples s e).getLastD (told s)) {s : σ}
    (hs : I s) {events : List ε} (hevents : ∀ e ∈ events, q e) :
    trace step emits s events = (changes (told s) (trace step samples s events)).map tell := by
  induction events generalizing s with
  | nil => rfl
  | cons e events ih =>
    rw [List.forall_mem_cons] at hevents
    rw [trace_cons, trace_cons, changes_append, List.map_append, hemits s e hevents.1 hs,
      ih (hstep s e hevents.1 hs) hevents.2, htold s e hevents.1 hs]

end Run
end ChangeNotifier
