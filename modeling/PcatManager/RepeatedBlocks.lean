import Mathlib.Data.List.Basic
import Mathlib.Data.List.Flatten
import Mathlib.Data.List.Induction

/-!
# Lists that are sorted by a key or repeat a block

A list sorted by a number is its parts of one number each, one after the other; a list that
goes through a block again and again is whole blocks and a beginning of one. Nothing here is
about a program.
-/

namespace RepeatedBlocks
variable {α : Type*}

/-- A list sorted by a number comes apart at every number. -/
theorem filter_append_filter_of_sorted (key : α → ℕ) {xs : List α}
    (hsorted : (xs.map key).Pairwise (· ≤ ·)) (n : ℕ) :
    (xs.filter fun x => key x < n) ++ (xs.filter fun x => ¬key x < n) = xs := by
  induction xs with
  | nil => rfl
  | cons x xs ih =>
    rw [List.map_cons, List.pairwise_cons] at hsorted
    by_cases hx : key x < n
    · rw [List.filter_cons_of_pos (by simpa using hx), List.filter_cons_of_neg (by simpa using hx),
        List.cons_append, ih hsorted.2]
    · have hnone : (xs.filter fun y => key y < n) = [] := by
        rw [List.filter_eq_nil_iff]
        intro y hy hlt
        have hle := hsorted.1 (key y) (List.mem_map_of_mem hy)
        exact hx (Nat.lt_of_le_of_lt hle (of_decide_eq_true hlt))
      have hrest := ih hsorted.2
      rw [hnone, List.nil_append] at hrest
      rw [List.filter_cons_of_neg (by simpa using hx), List.filter_cons_of_pos (by simpa using hx),
        hnone, List.nil_append, hrest]

/-- A list sorted by a number is its parts in the order of the numbers. -/
theorem flatMap_filter_of_sorted (key : α → ℕ) {n : ℕ} {xs : List α}
    (hsorted : (xs.map key).Pairwise (· ≤ ·)) (hlt : ∀ x ∈ xs, key x < n) :
    ((List.range n).flatMap fun k => xs.filter fun x => key x = k) = xs := by
  induction n generalizing xs with
  | zero =>
    cases xs with
    | nil => rfl
    | cons x xs => exact absurd (hlt x List.mem_cons_self) (Nat.not_lt_zero _)
  | succ n ih =>
    have hbelow : ((List.range n).flatMap fun k => xs.filter fun x => key x = k) =
        xs.filter fun x => key x < n := by
      have hpart : ((List.range n).flatMap fun k =>
          (xs.filter fun x => key x < n).filter fun x => key x = k) =
            xs.filter fun x => key x < n :=
        ih (hsorted.sublist (List.filter_sublist.map key))
          (fun x hx => of_decide_eq_true (List.mem_filter.mp hx).2)
      refine Eq.trans (List.flatMap_congr fun k hk => ?_) hpart
      rw [List.filter_filter]
      refine List.filter_congr fun x _ => ?_
      have hkn := List.mem_range.mp hk
      by_cases hx : key x = k
      · simp [hx, hkn]
      · simp [hx]
    have hlast : (xs.filter fun x => key x = n) = xs.filter fun x => ¬key x < n := by
      refine List.filter_congr fun x hx => ?_
      have hle := hlt x hx
      rw [decide_eq_decide]
      omega
    rw [List.range_succ, List.flatMap_append, hbelow, List.flatMap_singleton, hlast]
    exact filter_append_filter_of_sorted key hsorted n

/-- A list that goes through a block again and again is whole blocks and a beginning of one. -/
theorem eq_blocks {block : List α} (hblock : block ≠ []) {xs : List α}
    (h : ∀ i x, xs[i]? = some x → block[i % block.length]? = some x) :
    xs = (List.replicate (xs.length / block.length) block).flatten ++
      block.take (xs.length % block.length) := by
  have hpos := List.length_pos_iff.mpr hblock
  induction xs using List.reverseRecOn with
  | nil => simp
  | append_singleton xs x ih =>
    have hbefore := ih fun i y hy => h i y (by
      rw [List.getElem?_append_left (List.getElem?_eq_some_iff.mp hy).1]
      exact hy)
    have hlast : block[xs.length % block.length]? = some x := h xs.length x (by simp)
    have hnext : block.take (xs.length % block.length) ++ [x] =
        block.take (xs.length % block.length + 1) := by
      rw [List.take_add_one, hlast]
      rfl
    rw [List.length_append, List.length_singleton]
    have hmod := Nat.mod_lt xs.length hpos
    have hsplit := Nat.div_add_mod xs.length block.length
    by_cases hfull : xs.length % block.length + 1 = block.length
    · have hlength : xs.length + 1 = block.length * (xs.length / block.length + 1) := by
        rw [Nat.mul_succ]
        omega
      have hwhole : block.take (xs.length % block.length) ++ [x] = block := by
        rw [hnext, hfull, List.take_length]
      rw [hlength, Nat.mul_div_cancel_left _ hpos, Nat.mul_mod_right, List.take_zero,
        List.append_nil, List.replicate_succ', List.flatten_append, List.flatten_singleton]
      nth_rewrite 1 [hbefore]
      rw [List.append_assoc, hwhole]
    · have hlength : xs.length + 1 =
          block.length * (xs.length / block.length) + (xs.length % block.length + 1) := by
        omega
      have hshort : xs.length % block.length + 1 < block.length := by omega
      rw [hlength, Nat.mul_add_div hpos, Nat.div_eq_of_lt hshort, Nat.add_zero, Nat.mul_add_mod,
        Nat.mod_eq_of_lt hshort, ← hnext, ← List.append_assoc, ← hbefore]

/-- Whatever is repeated at least once is there in its order. -/
theorem map_sublist_flatMap_replicate {β : Type*} (f : α → β) (times : α → ℕ) {xs : List α}
    (h : ∀ x ∈ xs, 1 ≤ times x) :
    (xs.map f).Sublist (xs.flatMap fun x => List.replicate (times x) (f x)) := by
  induction xs with
  | nil => exact List.Sublist.refl []
  | cons x xs ih =>
    rw [List.forall_mem_cons] at h
    have hfirst : List.Sublist [f x] (List.replicate (times x) (f x)) :=
      List.replicate_sublist_replicate (f x) |>.mpr h.1
    exact hfirst.append (ih h.2)

/-- Repetitions do not change what comes last. -/
theorem getLast?_filter_flatMap_replicate {β : Type*} (f : α → β) (times : α → ℕ) (p : β → Bool)
    {xs : List α} (h : ∀ x ∈ xs, 1 ≤ times x) :
    ((xs.flatMap fun x => List.replicate (times x) (f x)).filter p).getLast? =
      ((xs.map f).filter p).getLast? := by
  induction xs using List.reverseRecOn with
  | nil => rfl
  | append_singleton xs x ih =>
    rw [List.forall_mem_append, List.forall_mem_singleton] at h
    obtain ⟨k, hk⟩ := Nat.exists_eq_add_of_le' h.2
    rw [List.flatMap_append, List.flatMap_singleton, List.filter_append, List.map_append,
      List.map_singleton, List.filter_append, List.filter_replicate, hk]
    by_cases hp : p (f x) = true
    · rw [if_pos hp, List.filter_cons_of_pos hp, List.filter_nil, List.replicate_succ',
        ← List.append_assoc, List.getLast?_concat, List.getLast?_concat]
    · rw [if_neg hp, List.filter_cons_of_neg hp, List.filter_nil, List.append_nil, List.append_nil]
      exact ih h.1

end RepeatedBlocks
