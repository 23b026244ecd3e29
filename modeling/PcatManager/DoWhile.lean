import Mathlib.Logic.Relation
import Mathlib.Data.Nat.Notation

/-!
# Loops that test at their end

A turn of such a loop gives the next state and says whether the loop goes round again. The
states in which a turn begins are the heads of the loop. Nothing here is about a program.
-/

namespace DoWhile

variable {σ : Type*} (turn : σ → Bool × σ)

/-- The state after the loop, if it takes at most `fuel` turns. -/
def loop : (fuel : ℕ) → σ → Option σ
  | 0, _ => none
  | fuel + 1, s =>
    match turn s with
    | (true, s') => loop fuel s'
    | (false, s') => some s'

/-- The loop goes round from the head `s` to the head `s'`. -/
def Again (s s' : σ) : Prop := turn s = (true, s')

/-- The loop comes from the head `s` to the head `s'` in any number of turns. -/
def Heads : σ → σ → Prop := Relation.ReflTransGen (Again turn)

variable {turn}

theorem Heads.refl (s : σ) : Heads turn s s := Relation.ReflTransGen.refl

/-- What every turn keeps holds at every head. -/
theorem Heads.invariant {I : σ → Prop} (hturn : ∀ s s', Again turn s s' → I s → I s') {s s' : σ}
    (h : Heads turn s s') (hs : I s) : I s' := by
  induction h with
  | refl => exact hs
  | tail _ hagain ih => exact hturn _ _ hagain ih

/-- A relation that holds of neighbouring heads holds of any two heads. -/
theorem Heads.related {R : σ → σ → Prop} (hrefl : ∀ s, R s s)
    (htrans : ∀ s s' s'', R s s' → R s' s'' → R s s'')
    (hturn : ∀ s s', Again turn s s' → R s s') {s s' : σ} (h : Heads turn s s') : R s s' :=
  h.invariant (I := R s) (fun t t' hagain ht => htrans s t t' ht (hturn t t' hagain)) (hrefl s)

theorem loop_again (fuel : ℕ) {s s' : σ} (h : Again turn s s') :
    loop turn (fuel + 1) s = loop turn fuel s' := by
  rw [loop, h]

theorem loop_last (fuel : ℕ) {s s' : σ} (h : turn s = (false, s')) :
    loop turn (fuel + 1) s = some s' := by
  rw [loop, h]

/-- A turn goes round again or is the last. -/
theorem again_or_last (turn : σ → Bool × σ) (s : σ) :
    ∃ s', Again turn s s' ∨ turn s = (false, s') := by
  refine ⟨(turn s).2, ?_⟩
  cases h : (turn s).1 with
  | true => exact .inl (Prod.ext h rfl)
  | false => exact .inr (Prod.ext h rfl)

/-- A loop that has ended ends the same way when it is given more turns. -/
theorem loop_mono {fuel fuel' : ℕ} (hle : fuel ≤ fuel') {s s' : σ}
    (h : loop turn fuel s = some s') : loop turn fuel' s = some s' := by
  induction fuel generalizing s fuel' with
  | zero => cases h
  | succ fuel ih =>
    obtain ⟨more, rfl⟩ := Nat.exists_eq_add_of_le' hle
    obtain ⟨s₁, hagain | hlast⟩ := again_or_last turn s
    · rw [loop_again fuel hagain] at h
      rw [← Nat.add_assoc, loop_again _ hagain]
      exact ih (Nat.le_add_left _ _) h
    · rw [loop_last fuel hlast] at h
      rw [← Nat.add_assoc, loop_last _ hlast, h]

/-- A loop ends with a turn from one of its heads. -/
theorem exists_last_head {fuel : ℕ} {s s' : σ} (h : loop turn fuel s = some s') :
    ∃ t, Heads turn s t ∧ turn t = (false, s') := by
  induction fuel generalizing s with
  | zero => cases h
  | succ fuel ih =>
    obtain ⟨s₁, hagain | hlast⟩ := again_or_last turn s
    · rw [loop_again fuel hagain] at h
      obtain ⟨t, hheads, hlast⟩ := ih h
      exact ⟨t, hheads.head hagain, hlast⟩
    · rw [loop_last fuel hlast] at h
      cases h
      exact ⟨s, .refl s, hlast⟩

/-- A loop whose turns all lower a bound ends within that many turns and one more. -/
theorem exists_loop_of_measure {μ : σ → ℕ} (hturn : ∀ s s', Again turn s s' → μ s' < μ s) {fuel : ℕ}
    {s : σ} (h : μ s < fuel) : ∃ s', loop turn fuel s = some s' := by
  induction fuel generalizing s with
  | zero => exact absurd h (Nat.not_lt_zero _)
  | succ fuel ih =>
    obtain ⟨s₁, hagain | hlast⟩ := again_or_last turn s
    · rw [loop_again fuel hagain]
      exact ih (Nat.lt_of_lt_of_le (hturn s s₁ hagain) (Nat.lt_succ_iff.mp h))
    · exact ⟨s₁, loop_last fuel hlast⟩

/-- When every turn that goes round again is paid for by what it takes off a budget, the cost
of a loop is at most the budget at its start and the cost of its last turn. -/
theorem exists_last_cost {cost budget : σ → ℕ}
    (hturn : ∀ s s', Again turn s s' → cost s' + budget s' ≤ cost s + budget s) {fuel : ℕ}
    {s s' : σ} (h : loop turn fuel s = some s') :
    ∃ t, Heads turn s t ∧ turn t = (false, s') ∧ cost t ≤ cost s + budget s := by
  obtain ⟨t, hheads, hlast⟩ := exists_last_head h
  have hpaid := hheads.invariant (I := fun t => cost t + budget t ≤ cost s + budget s)
    (fun t t' hagain ht => Nat.le_trans (hturn t t' hagain) ht) (Nat.le_refl _)
  exact ⟨t, hheads, hlast, Nat.le_trans (Nat.le_add_right _ _) hpaid⟩

end DoWhile
