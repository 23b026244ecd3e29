import Mathlib.Algebra.Order.Field.Basic
import Mathlib.Data.List.FinRange
import Mathlib.Order.Fin.Basic
import Mathlib.Tactic.Linarith
import Mathlib.Tactic.FieldSimp
import Mathlib.Tactic.Ring

/-!
# Linear interpolation in a falling table

A table of knots is searched from its top for the segment an argument lies in. Within the
segment the value is on the line through its knots; above and below the table it is the
value of the last knot. When the knots fall strictly and their values fall, what comes out
is monotone, stays within the values of the table and meets them at the knots.
-/

namespace PiecewiseLinear

variable {K : Type*} {n : ℕ}

section Segment
variable [LinearOrder K]

/-- The first segment from the top whose lower knot is not above the argument. -/
def segment (x : Fin (n + 1) → K) (v : K) : Option (Fin n) :=
  (List.finRange n).find? fun i => x i.succ ≤ v

variable {x : Fin (n + 1) → K} {v : K} {i : Fin n}

/-- The segment found has the argument between its knots. -/
theorem mem_of_segment (htop : v ≤ x 0) (h : segment x v = some i) :
    x i.succ ≤ v ∧ v ≤ x i.castSucc := by
  obtain ⟨hle, j, hj, hij, hbefore⟩ := List.find?_eq_some_iff_getElem.mp h
  rw [decide_eq_true_eq] at hle
  refine ⟨hle, ?_⟩
  rw [List.getElem_finRange] at hij
  subst hij
  rcases Nat.eq_zero_or_pos j with rfl | hpos
  · exact htop
  · have hlast := hbefore (j - 1) (by omega)
    rw [List.getElem_finRange, Bool.not_eq_true', decide_eq_false_iff_not, not_le] at hlast
    refine hlast.le.trans_eq (congrArg x (Fin.ext ?_))
    exact Nat.sub_add_cancel hpos

/-- An argument within the table is in some segment. -/
theorem isSome_segment (hbottom : x (Fin.last n) < v) (htop : v ≤ x 0) :
    (segment x v).isSome := by
  rw [segment, List.find?_isSome]
  cases n with
  | zero => exact absurd (hbottom.trans_le htop) (lt_irrefl _)
  | succ n =>
    refine ⟨Fin.last n, List.mem_finRange _, ?_⟩
    rw [Fin.succ_last, decide_eq_true_eq]
    exact hbottom.le

end Segment

variable [Field K]

/-- The line through the two knots of a segment. -/
def line (x y : Fin (n + 1) → K) (i : Fin n) (v : K) : K :=
  y i.succ + (v - x i.succ) * (y i.castSucc - y i.succ) / (x i.castSucc - x i.succ)

theorem line_succ (x y : Fin (n + 1) → K) (i : Fin n) : line x y i (x i.succ) = y i.succ := by
  rw [line, sub_self, zero_mul, zero_div, add_zero]

variable [LinearOrder K]

/-- The interpolated value. -/
def interpolate (x y : Fin (n + 1) → K) (v : K) : K :=
  if x 0 < v then y 0
  else if x (Fin.last n) < v then
    match segment x v with
    | some i => line x y i v
    | none => y (Fin.last n)
  else y (Fin.last n)

variable {x y : Fin (n + 1) → K} {v : K} {i : Fin n}

theorem line_castSucc (hx : StrictAnti x) (i : Fin n) :
    line x y i (x i.castSucc) = y i.castSucc := by
  have hwidth : x i.castSucc - x i.succ ≠ 0 := sub_ne_zero.mpr (hx i.castSucc_lt_succ).ne'
  rw [line, mul_div_assoc, mul_div_cancel₀ _ hwidth, add_sub_cancel]

/-- Where two segments meet their lines do. -/
theorem line_eq_line (hx : StrictAnti x) {j : Fin n} (hi : x i.succ ≤ v ∧ v ≤ x i.castSucc)
    (hj : x j.succ ≤ v ∧ v ≤ x j.castSucc) : line x y i v = line x y j v := by
  wlog hij : i < j generalizing i j
  · rcases (not_lt.mp hij).lt_or_eq with hlt | rfl
    · exact (this hj hi hlt).symm
    · rfl
  have hknots : x j.castSucc ≤ x i.succ := hx.antitone (Fin.succ_le_castSucc_iff.mpr hij)
  have hv : v = x i.succ := le_antisymm (hj.2.trans hknots) hi.1
  have hv' : v = x j.castSucc := le_antisymm hj.2 (hknots.trans hi.1)
  have hsame : i.succ = j.castSucc := hx.injective (hv.symm.trans hv')
  calc line x y i v = y i.succ := by rw [hv, line_succ]
    _ = y j.castSucc := by rw [hsame]
    _ = line x y j v := by rw [hv', line_castSucc hx]

/-- Between the knots of a segment the value is on its line, whichever segment is found. -/
theorem interpolate_of_mem (hx : StrictAnti x) (hi : x i.succ ≤ v ∧ v ≤ x i.castSucc) :
    interpolate x y v = line x y i v := by
  have htop : v ≤ x 0 := hi.2.trans (hx.antitone (Fin.zero_le _))
  rw [interpolate, if_neg (not_lt.mpr htop)]
  by_cases hbottom : x (Fin.last n) < v
  · obtain ⟨j, hj⟩ := Option.isSome_iff_exists.mp (isSome_segment hbottom htop)
    rw [if_pos hbottom, hj]
    exact line_eq_line hx (mem_of_segment htop hj) hi
  · have hlast : x (Fin.last n) ≤ x i.succ := hx.antitone (Fin.le_last _)
    have hv : v = x i.succ := le_antisymm ((not_lt.mp hbottom).trans hlast) hi.1
    have hsame : i.succ = Fin.last n :=
      hx.injective (le_antisymm (hv ▸ not_lt.mp hbottom) hlast)
    rw [if_neg hbottom, hv, line_succ, hsame]

/-- At a knot the value is that of the table. -/
theorem interpolate_knot (hx : StrictAnti x) (k : Fin (n + 1)) : interpolate x y (x k) = y k := by
  cases k using Fin.lastCases with
  | last =>
    rw [interpolate, if_neg (not_lt.mpr (hx.antitone (Fin.zero_le _))), if_neg (lt_irrefl _)]
  | cast i =>
    rw [interpolate_of_mem hx ⟨hx.antitone i.castSucc_lt_succ.le, le_refl _⟩, line_castSucc hx]

variable [IsStrictOrderedRing K]

theorem line_mono (hx : StrictAnti x) (hy : Antitone y) (i : Fin n) : Monotone (line x y i) := by
  intro v v' h
  have hwidth : 0 ≤ x i.castSucc - x i.succ := sub_nonneg.mpr (hx i.castSucc_lt_succ).le
  have hrise : 0 ≤ y i.castSucc - y i.succ := sub_nonneg.mpr (hy i.castSucc_lt_succ.le)
  rw [line, line]
  gcongr

/-- Between its knots a line is between their values. -/
theorem line_mem (hx : StrictAnti x) (hy : Antitone y) (hi : x i.succ ≤ v ∧ v ≤ x i.castSucc) :
    y i.succ ≤ line x y i v ∧ line x y i v ≤ y i.castSucc :=
  ⟨(line_succ x y i).symm.trans_le (line_mono hx hy i hi.1),
    (line_mono hx hy i hi.2).trans_eq (line_castSucc hx i)⟩

/-- The value is within those of the table. -/
theorem interpolate_mem (hx : StrictAnti x) (hy : Antitone y) (v : K) :
    y (Fin.last n) ≤ interpolate x y v ∧ interpolate x y v ≤ y 0 := by
  have htable : y (Fin.last n) ≤ y 0 := hy (Fin.zero_le _)
  rw [interpolate]
  split
  · exact ⟨htable, le_refl _⟩
  · rename_i htop
    split
    · split
      · rename_i i hi
        obtain ⟨hlow, hhigh⟩ := line_mem hx hy (mem_of_segment (not_lt.mp htop) hi)
        exact ⟨(hy (Fin.le_last _)).trans hlow, hhigh.trans (hy (Fin.zero_le _))⟩
      · exact ⟨le_refl _, htable⟩
    · exact ⟨le_refl _, htable⟩

/-- A greater argument does not lower the value. -/
theorem interpolate_mono (hx : StrictAnti x) (hy : Antitone y) : Monotone (interpolate x y) := by
  intro v v' h
  by_cases htop : x 0 < v'
  · have hv' : interpolate x y v' = y 0 := by rw [interpolate, if_pos htop]
    exact (interpolate_mem hx hy v).2.trans_eq hv'.symm
  by_cases hbottom : x (Fin.last n) < v
  · rw [not_lt] at htop
    obtain ⟨i, hi⟩ := Option.isSome_iff_exists.mp (isSome_segment hbottom (h.trans htop))
    obtain ⟨j, hj⟩ := Option.isSome_iff_exists.mp (isSome_segment (hbottom.trans_le h) htop)
    have hi := mem_of_segment (h.trans htop) hi
    have hj := mem_of_segment htop hj
    rw [interpolate_of_mem hx hi, interpolate_of_mem hx hj]
    rcases lt_trichotomy i j with hij | rfl | hij
    · -- the greater argument is in the lower segment: they are the same
      have hknots : x j.castSucc ≤ x i.succ := hx.antitone (Fin.succ_le_castSucc_iff.mpr hij)
      have hsame : v = v' := le_antisymm h (hj.2.trans (hknots.trans hi.1))
      subst hsame
      exact (line_eq_line hx hi hj).le
    · exact line_mono hx hy i h
    · calc line x y i v ≤ y i.castSucc := (line_mem hx hy hi).2
        _ ≤ y j.succ := hy (Fin.succ_le_castSucc_iff.mpr hij)
        _ ≤ line x y j v' := (line_mem hx hy hj).1
  · have hv : interpolate x y v = y (Fin.last n) := by
      rw [interpolate, if_neg (not_lt.mpr (h.trans (not_lt.mp htop))), if_neg hbottom]
    exact hv.trans_le (interpolate_mem hx hy v').1

end PiecewiseLinear
