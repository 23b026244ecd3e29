import Mathlib.Data.List.Basic

/-!
# Elements of a list together with what stands before them

A map and a condition over a list that see, with every element, the elements before it.
Nothing here is about a program.
-/

namespace PrefixMap

variable {α β : Type*}

/-- The list of the values of the elements, each with what stands before it. -/
def mapWithPrefix (f : List α → α → β) : (before : List α) → List α → List β
  | _, [] => []
  | before, x :: xs => f before x :: mapWithPrefix f (before ++ [x]) xs

/-- The condition holds for all elements, each with what stands before it. -/
def AllWithPrefix (p : List α → α → Prop) : (before : List α) → List α → Prop
  | _, [] => True
  | before, x :: xs => p before x ∧ AllWithPrefix p (before ++ [x]) xs

theorem mapWithPrefix_eq_iff {f g : List α → α → β} {before xs : List α} :
    mapWithPrefix f before xs = mapWithPrefix g before xs ↔
      AllWithPrefix (fun before x => f before x = g before x) before xs := by
  induction xs generalizing before with
  | nil => exact iff_of_true rfl trivial
  | cons x xs ih => rw [mapWithPrefix, mapWithPrefix, List.cons.injEq, ih, AllWithPrefix]

theorem allWithPrefix_iff {p : List α → α → Prop} {before xs : List α} :
    AllWithPrefix p before xs ↔
      ∀ first x rest, xs = first ++ x :: rest → p (before ++ first) x := by
  induction xs generalizing before with
  | nil => simp [AllWithPrefix]
  | cons y xs ih =>
    rw [AllWithPrefix, ih]
    constructor
    · rintro ⟨hy, hrest⟩ first x rest hxs
      cases first with
      | nil =>
        obtain ⟨rfl, -⟩ := List.cons.inj hxs
        rwa [List.append_nil]
      | cons z first =>
        rw [List.cons_append] at hxs
        obtain ⟨rfl, hlater⟩ := List.cons.inj hxs
        simpa using hrest first x rest hlater
    · intro h
      refine ⟨by simpa using h [] y xs rfl, fun first x rest hxs => ?_⟩
      simpa using h (y :: first) x rest (by rw [hxs, List.cons_append])

end PrefixMap
