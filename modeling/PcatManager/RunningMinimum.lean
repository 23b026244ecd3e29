import Mathlib.Data.List.DropRight
import Mathlib.Order.Lattice

/-!
# The minimum since the last reset

Of a list, the least value of the elements after the last one that does not count, and never
more than a top value. Nothing here is about a program.
-/

namespace RunningMinimum

variable {α β : Type*} [LinearOrder β] (top : β) (counts : α → Bool) (value : α → β)

/-- The least value, and at most `top`, of the elements after the last that does not count. -/
def runningMin (xs : List α) : β := ((xs.rtakeWhile counts).map value).foldl min top

variable {counts}

theorem runningMin_append_of_counts (xs : List α) {x : α} (h : counts x = true) :
    runningMin top counts value (xs ++ [x]) = min (runningMin top counts value xs) (value x) := by
  rw [runningMin, List.rtakeWhile_concat_pos counts xs x h, List.map_append, List.foldl_append]
  rfl

theorem runningMin_append_of_not_counts (xs : List α) {x : α} (h : counts x = false) :
    runningMin top counts value (xs ++ [x]) = top := by
  rw [runningMin, List.rtakeWhile_concat_neg counts xs x (by simp [h])]
  rfl

theorem runningMin_le_top (xs : List α) : runningMin top counts value xs ≤ top := by
  induction xs using List.reverseRecOn with
  | nil => exact le_refl top
  | append_singleton xs x ih =>
    cases h : counts x with
    | true =>
      rw [runningMin_append_of_counts top value xs h]
      exact (min_le_left _ _).trans ih
    | false => rw [runningMin_append_of_not_counts top value xs h]

theorem runningMin_append_le (xs : List α) {x : α} (h : counts x = true) :
    runningMin top counts value (xs ++ [x]) ≤ runningMin top counts value xs := by
  rw [runningMin_append_of_counts top value xs h]
  exact min_le_left _ _

end RunningMinimum
