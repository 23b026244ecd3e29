import Mathlib.Data.List.GetD
import Mathlib.Data.Nat.Notation
import Mathlib.Logic.Function.Iterate

/-!
# Reflected cyclic redundancy checks

A register of `n` bits takes a bit stream, lowest bits first: each bit is added to the lowest
bit of the register, which then moves down one place and feeds back when a one falls out. The
register is linear over exclusive or. When the feedback reaches the highest bit, no run of at
most `n` bits hides an error; when it is odd, the register keeps the parity of what it took.
-/

namespace CyclicRedundancy

variable {n : ℕ}

/-- One move of the register with feedback `g`. -/
def advance (g s : BitVec n) : BitVec n := if s.getLsbD 0 then (s >>> 1) ^^^ g else s >>> 1

/-- A bit in the lowest place. -/
def unit (b : Bool) : BitVec n := if b then 1#n else 0#n

/-- The bits of a list, the first one lowest. -/
def word : List Bool → BitVec n
  | [] => 0#n
  | b :: bits => (word bits <<< 1) ^^^ unit b

/-- The register takes one bit. -/
def feed (g s : BitVec n) (b : Bool) : BitVec n := advance g (s ^^^ unit b)

/-- The register takes a list of bits. -/
def register (g s : BitVec n) (bits : List Bool) : BitVec n := bits.foldl (feed g) s

variable {g s t : BitVec n}

theorem unit_xor (b c : Bool) : (unit (b ^^ c) : BitVec n) = unit b ^^^ unit c := by
  cases b <;> cases c <;> simp [unit]

theorem getLsbD_unit (b : Bool) {i : ℕ} (hi : i < n) :
    (unit b : BitVec n).getLsbD i = (decide (i = 0) && b) := by
  cases b with
  | false => simp [unit]
  | true =>
    rw [unit, if_pos rfl, BitVec.getLsbD_one, Bool.and_true]
    have hn : 0 < n := by omega
    simp [hn]

theorem xor_xor_xor_comm (a b c d : BitVec n) : a ^^^ b ^^^ (c ^^^ d) = a ^^^ c ^^^ (b ^^^ d) := by
  ac_rfl

theorem advance_xor (g s t : BitVec n) : advance g (s ^^^ t) = advance g s ^^^ advance g t := by
  simp only [advance, BitVec.getLsbD_xor, BitVec.ushiftRight_xor_distrib]
  cases s.getLsbD 0 <;> cases t.getLsbD 0 <;> simp
  · ac_rfl
  · ac_rfl
  · rw [xor_xor_xor_comm, BitVec.xor_self, BitVec.xor_zero]

theorem advance_zero (g : BitVec n) : advance g 0#n = 0#n := by simp [advance]

theorem iterate_advance_zero (k : ℕ) : (advance g)^[k] 0#n = 0#n :=
  Function.iterate_fixed (advance_zero g) k

/-- The register of a sum is the sum of the registers. -/
theorem register_xor {bits bits' : List Bool} (h : bits.length = bits'.length) (s t : BitVec n) :
    register g (s ^^^ t) (List.zipWith xor bits bits') =
      register g s bits ^^^ register g t bits' := by
  induction bits generalizing s t bits' with
  | nil =>
    obtain rfl := List.eq_nil_of_length_eq_zero h.symm
    rfl
  | cons b bits ih =>
    cases bits' with
    | nil => exact absurd h (Nat.succ_ne_zero _)
    | cons c bits' =>
      have hfeed : feed g (s ^^^ t) (b ^^ c) = feed g s b ^^^ feed g t c := by
        rw [feed, feed, feed, ← advance_xor, unit_xor, xor_xor_xor_comm]
      calc register g (s ^^^ t) (List.zipWith xor (b :: bits) (c :: bits'))
          = register g (feed g s b ^^^ feed g t c) (List.zipWith xor bits bits') := by
            rw [← hfeed]
            rfl
        _ = _ := ih (Nat.succ.inj h) _ _

theorem register_append (s : BitVec n) (bits bits' : List Bool) :
    register g s (bits ++ bits') = register g (register g s bits) bits' := List.foldl_append

theorem getLsbD_word (bits : List Bool) {i : ℕ} (hi : i < n) :
    (word bits : BitVec n).getLsbD i = bits.getD i false := by
  induction bits generalizing i with
  | nil => simp [word]
  | cons b bits ih =>
    rw [word, BitVec.getLsbD_xor, getLsbD_unit b hi, BitVec.getLsbD_shiftLeft]
    cases i with
    | zero => simp [hi]
    | succ i =>
      have hbit := ih (Nat.lt_of_succ_lt hi)
      simp [hi, hbit]

/-- A word that leaves the highest place free comes back unchanged. -/
theorem advance_shiftLeft (h : t.getLsbD (n - 1) = false) : advance g (t <<< 1) = t := by
  have hlow : (t <<< 1).getLsbD 0 = false := by simp
  rw [advance, hlow, if_neg Bool.false_ne_true]
  apply BitVec.eq_of_getLsbD_eq
  intro i hi
  rw [BitVec.getLsbD_ushiftRight, BitVec.getLsbD_shiftLeft]
  by_cases hlast : 1 + i < n
  · simp [hlast]
  · obtain rfl : i = n - 1 := by omega
    simp [hlast, h]

/-- Up to `n` bits may as well be added at once. -/
theorem register_eq_iterate {bits : List Bool} (h : bits.length ≤ n) (s : BitVec n) :
    register g s bits = (advance g)^[bits.length] (s ^^^ word bits) := by
  induction bits generalizing s with
  | nil => simp [register, word]
  | cons b bits ih =>
    rw [List.length_cons] at h
    have hfree : (word bits : BitVec n).getLsbD (n - 1) = false := by
      rw [getLsbD_word bits (by omega), List.getD_eq_default _ _ (by omega)]
    have hadvance : advance g (s ^^^ word (b :: bits)) = feed g s b ^^^ word bits := by
      rw [word, BitVec.xor_comm (word bits <<< 1), ← BitVec.xor_assoc, advance_xor,
        advance_shiftLeft hfree]
      rfl
    rw [List.length_cons, Function.iterate_succ_apply, hadvance]
    exact ih (Nat.le_of_succ_le h) (feed g s b)

theorem register_zeros (s : BitVec n) (k : ℕ) :
    register g s (List.replicate k false) = (advance g)^[k] s := by
  induction k generalizing s with
  | zero => rfl
  | succ k ih =>
    have hfeed : feed g s false = advance g s := by simp [feed, unit]
    rw [List.replicate_succ, Function.iterate_succ_apply, ← hfeed]
    exact ih (feed g s false)

section Injective

/-- With feedback into the highest place nothing but zero becomes zero. -/
theorem advance_eq_zero (hg : g.getLsbD (n - 1) = true) (h : advance g s = 0#n) : s = 0#n := by
  have hbit (i : ℕ) : (advance g s).getLsbD i = false := by rw [h, BitVec.getLsbD_zero]
  rw [advance] at hbit
  cases hlow : s.getLsbD 0 with
  | true =>
    -- the highest place holds the feedback
    have htop := hbit (n - 1)
    have hout : s.getLsbD (1 + (n - 1)) = false := BitVec.getLsbD_of_ge _ _ (by omega)
    rw [hlow, if_pos rfl, BitVec.getLsbD_xor, BitVec.getLsbD_ushiftRight, hg, hout] at htop
    exact absurd htop (by decide)
  | false =>
    apply BitVec.eq_of_getLsbD_eq
    intro i _
    rw [BitVec.getLsbD_zero]
    cases i with
    | zero => exact hlow
    | succ i =>
      have hi := hbit i
      rw [hlow, if_neg Bool.false_ne_true, BitVec.getLsbD_ushiftRight, Nat.add_comm] at hi
      exact hi

theorem iterate_advance_eq_zero_iff (hg : g.getLsbD (n - 1) = true) (k : ℕ) :
    (advance g)^[k] s = 0#n ↔ s = 0#n := by
  constructor
  · intro h
    induction k generalizing s with
    | zero => exact h
    | succ k ih => exact advance_eq_zero hg (ih h)
  · rintro rfl
    exact iterate_advance_zero k

/-- Up to `n` bits bring the register to zero exactly when they are what it held. -/
theorem register_eq_zero_iff (hg : g.getLsbD (n - 1) = true) {bits : List Bool}
    (h : bits.length ≤ n) : register g s bits = 0#n ↔ s = word bits := by
  rw [register_eq_iterate h, iterate_advance_eq_zero_iff hg, BitVec.xor_eq_zero_iff]

/-- Zeros, at most `n` bits that are not all zero, and zeros again leave a residue. -/
theorem register_window_ne_zero (hg : g.getLsbD (n - 1) = true) {bits : List Bool} (a c : ℕ)
    (hlen : bits.length ≤ n) (herror : true ∈ bits) :
    register g 0#n (List.replicate a false ++ bits ++ List.replicate c false) ≠ 0#n := by
  rw [register_append, register_append, register_zeros, register_zeros, iterate_advance_zero]
  intro hzero
  rw [iterate_advance_eq_zero_iff hg, register_eq_zero_iff hg hlen] at hzero
  obtain ⟨j, hj⟩ := List.mem_iff_getElem?.mp herror
  have hjn : j < n := Nat.lt_of_lt_of_le (List.getElem?_eq_some_iff.mp hj).1 hlen
  have hbit := getLsbD_word bits hjn
  rw [← hzero, BitVec.getLsbD_zero, List.getD_eq_getElem?_getD, hj] at hbit
  exact Bool.false_ne_true hbit

/-- Errors that lie within `n` consecutive bits leave a residue. -/
theorem register_burst_ne_zero (hg : g.getLsbD (n - 1) = true) {bits : List Bool} {k : ℕ}
    (herror : true ∈ bits) (hburst : ∀ j, bits[j]? = some true → k ≤ j ∧ j < k + n) :
    register g 0#n bits ≠ 0#n := by
  have hbefore : bits.take k = List.replicate (bits.take k).length false := by
    refine List.eq_replicate_iff.mpr ⟨rfl, fun b hb => Bool.eq_false_iff.mpr ?_⟩
    rintro rfl
    obtain ⟨j, hj⟩ := List.mem_iff_getElem?.mp hb
    rw [List.getElem?_take] at hj
    split at hj
    · rename_i hjk
      exact absurd (hburst j hj).1 (Nat.not_le.mpr hjk)
    · cases hj
  have hafter : (bits.drop k).drop n = List.replicate ((bits.drop k).drop n).length false := by
    refine List.eq_replicate_iff.mpr ⟨rfl, fun b hb => Bool.eq_false_iff.mpr ?_⟩
    rintro rfl
    obtain ⟨j, hj⟩ := List.mem_iff_getElem?.mp hb
    rw [List.getElem?_drop, List.getElem?_drop] at hj
    exact absurd (hburst _ hj).2 (by omega)
  have hsplit : bits = bits.take k ++ (bits.drop k).take n ++ (bits.drop k).drop n := by
    rw [List.append_assoc, List.take_append_drop, List.take_append_drop]
  have hwithin : true ∈ (bits.drop k).take n := by
    rw [hsplit, hbefore, hafter] at herror
    simpa using herror
  rw [hsplit, hbefore, hafter]
  exact register_window_ne_zero hg _ _ (List.length_take_le _ _) hwithin

end Injective

section Parity

/-- The parity of the lowest `k` bits. -/
def parityBelow (s : BitVec n) : ℕ → Bool
  | 0 => false
  | k + 1 => parityBelow s k ^^ s.getLsbD k

/-- The parity of a word. -/
def parity (s : BitVec n) : Bool := parityBelow s n

/-- The parity of a list of bits. -/
def parityOf (bits : List Bool) : Bool := bits.foldr xor false

theorem parityBelow_xor (s t : BitVec n) (k : ℕ) :
    parityBelow (s ^^^ t) k = (parityBelow s k ^^ parityBelow t k) := by
  induction k with
  | zero => rfl
  | succ k ih =>
    rw [parityBelow, parityBelow, parityBelow, ih, BitVec.getLsbD_xor, Bool.xor_assoc,
      Bool.xor_left_comm (parityBelow t k), ← Bool.xor_assoc]

theorem parity_xor (s t : BitVec n) : parity (s ^^^ t) = (parity s ^^ parity t) :=
  parityBelow_xor s t n

theorem parityBelow_ushiftRight (s : BitVec n) (k : ℕ) :
    parityBelow (s >>> 1) k = (parityBelow s (k + 1) ^^ s.getLsbD 0) := by
  induction k with
  | zero => simp [parityBelow]
  | succ k ih =>
    have hnext : parityBelow s (k + 2) = (parityBelow s (k + 1) ^^ s.getLsbD (k + 1)) := rfl
    rw [hnext, parityBelow, ih, BitVec.getLsbD_ushiftRight, Nat.add_comm 1 k, Bool.xor_assoc,
      Bool.xor_comm (s.getLsbD 0), Bool.xor_assoc]

theorem parity_ushiftRight (s : BitVec n) : parity (s >>> 1) = (parity s ^^ s.getLsbD 0) := by
  rw [parity, parityBelow_ushiftRight, parityBelow, BitVec.getLsbD_of_ge s n (Nat.le_refl n),
    Bool.xor_false]
  rfl

/-- With odd feedback a move keeps the parity. -/
theorem parity_advance (hg : parity g = true) (s : BitVec n) : parity (advance g s) = parity s := by
  rw [advance]
  cases hlow : s.getLsbD 0 with
  | true => rw [if_pos rfl, parity_xor, parity_ushiftRight, hlow, hg, Bool.xor_assoc,
      Bool.xor_self, Bool.xor_false]
  | false => rw [if_neg Bool.false_ne_true, parity_ushiftRight, hlow, Bool.xor_false]

theorem parity_zero : parity (0#n) = false := by
  have hbelow (k : ℕ) : parityBelow (0#n) k = false := by
    induction k with
    | zero => rfl
    | succ k ih => rw [parityBelow, ih, BitVec.getLsbD_zero, Bool.xor_false]
  exact hbelow n

theorem parity_unit (hn : 0 < n) (b : Bool) : parity (unit b : BitVec n) = b := by
  have hbelow (k : ℕ) (hk : k + 1 ≤ n) : parityBelow (unit b : BitVec n) (k + 1) = b := by
    induction k with
    | zero =>
      rw [parityBelow, getLsbD_unit b hn]
      exact Bool.false_xor b
    | succ k ih => rw [parityBelow, ih (Nat.le_of_succ_le hk), getLsbD_unit b hk]; simp
  have hall := hbelow (n - 1) (by omega)
  rwa [Nat.sub_add_cancel hn] at hall

/-- With odd feedback the register has the parity of what it held and took. -/
theorem parity_register (hg : parity g = true) (s : BitVec n) (bits : List Bool) :
    parity (register g s bits) = (parity s ^^ parityOf bits) := by
  have hn : 0 < n := by
    rcases Nat.eq_zero_or_pos n with rfl | hn
    · exact absurd hg Bool.false_ne_true
    · exact hn
  induction bits generalizing s with
  | nil => exact (Bool.xor_false _).symm
  | cons b bits ih =>
    have hfeed : parity (feed g s b) = (parity s ^^ b) := by
      rw [feed, parity_advance hg, parity_xor, parity_unit hn]
    calc parity (register g s (b :: bits)) = (parity (feed g s b) ^^ parityOf bits) := ih _
      _ = (parity s ^^ parityOf (b :: bits)) := by
        rw [hfeed, Bool.xor_assoc]
        rfl

/-- Errors in an odd number of bits leave a residue. -/
theorem register_odd_ne_zero (hg : parity g = true) {bits : List Bool}
    (herror : parityOf bits = true) : register g 0#n bits ≠ 0#n := by
  intro hzero
  have hparity := parity_register hg 0#n bits
  rw [hzero, herror, parity_zero] at hparity
  exact Bool.false_ne_true hparity

theorem parityOf_eq (bits : List Bool) : parityOf bits = decide (bits.count true % 2 = 1) := by
  induction bits with
  | nil => rfl
  | cons b bits ih =>
    have hcons : parityOf (b :: bits) = (b ^^ parityOf bits) := rfl
    rw [hcons, ih]
    cases b with
    | false => simp
    | true =>
      rw [List.count_cons_self, Bool.true_xor, ← decide_not]
      exact decide_eq_decide.mpr (by omega)

end Parity

end CyclicRedundancy
