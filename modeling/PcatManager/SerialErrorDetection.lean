import PcatManager.CyclicRedundancy
import PcatManager.SerialReadParser

/-!
# Errors the checksum finds

The checksum of the frames is a reflected cyclic redundancy check whose feedback is odd and
reaches the highest bit, and a frame carries it low byte first. So the register that takes
the covered bytes and the checksum field ends at zero, and what an error pattern adds to it
is the residue of the pattern alone.
-/

namespace PcatManager
open SerialFrame SerialReadParser CyclicRedundancy

namespace SerialErrorDetection

/-- The feedback of the checksum. -/
def feedback : BitVec 16 := 0xA001#16

/-- The bits of a byte, the least significant one first. -/
def byteBits (b : UInt8) : List Bool := (List.range 8).map fun k => b.toBitVec.getLsbD k

/-- The bits of bytes in order. -/
def bitsOf (bytes : List UInt8) : List Bool := bytes.flatMap byteBits

@[simp] theorem bitsOf_cons (b : UInt8) (bytes : List UInt8) :
    bitsOf (b :: bytes) = byteBits b ++ bitsOf bytes := rfl

theorem bitsOf_append (bytes bytes' : List UInt8) :
    bitsOf (bytes ++ bytes') = bitsOf bytes ++ bitsOf bytes' := List.flatMap_append

@[simp] theorem length_byteBits (b : UInt8) : (byteBits b).length = 8 := by simp [byteBits]

theorem length_bitsOf (bytes : List UInt8) : (bitsOf bytes).length = 8 * bytes.length := by
  induction bytes with
  | nil => rfl
  | cons b bytes ih =>
    rw [bitsOf_cons, List.length_append, length_byteBits, List.length_cons]
    omega

theorem getD_byteBits (b : UInt8) (i : ℕ) : (byteBits b).getD i false = b.toBitVec.getLsbD i := by
  by_cases hi : i < 8
  · simp [byteBits, List.getD_eq_getElem?_getD, hi]
  · rw [List.getD_eq_default _ _ (by rw [length_byteBits]; omega),
      BitVec.getLsbD_of_ge _ _ (Nat.not_lt.mp hi)]

theorem word_byteBits (b : UInt8) : (word (byteBits b) : BitVec 16) = b.toBitVec.setWidth 16 := by
  apply BitVec.eq_of_getLsbD_eq
  intro i hi
  rw [getLsbD_word _ hi, getD_byteBits, BitVec.getLsbD_setWidth]
  simp [hi]

theorem crcRound_toBitVec (s : UInt16) : (crcRound s).toBitVec = advance feedback s.toBitVec := by
  have hlow : (s &&& 1).toBitVec = BitVec.setWidth 16 (BitVec.ofBool (s.toBitVec.getLsbD 0)) := by
    rw [UInt16.toBitVec_and]
    exact BitVec.and_one_eq_setWidth_ofBool_getLsbD
  rw [crcRound, advance]
  cases hbit : s.toBitVec.getLsbD 0 with
  | true =>
    have hone : s &&& 1 = 1 := UInt16.toBitVec_inj.mp (by rw [hlow, hbit]; rfl)
    rw [if_pos (by rw [hone]; decide), if_pos rfl]
    rfl
  | false =>
    have hzero : s &&& 1 = 0 := UInt16.toBitVec_inj.mp (by rw [hlow, hbit]; rfl)
    rw [if_neg (by rw [hzero]; decide), if_neg Bool.false_ne_true]
    rfl

theorem iterate_crcRound_toBitVec (k : ℕ) (s : UInt16) :
    (crcRound^[k] s).toBitVec = (advance feedback)^[k] s.toBitVec := by
  induction k generalizing s with
  | zero => rfl
  | succ k ih => rw [Function.iterate_succ_apply, ih, crcRound_toBitVec]; rfl

theorem register_byteBits (s : BitVec 16) (b : UInt8) :
    register feedback s (byteBits b) = (advance feedback)^[8] (s ^^^ b.toBitVec.setWidth 16) := by
  rw [register_eq_iterate (by rw [length_byteBits]; decide), length_byteBits, word_byteBits]

theorem serialComputeCrc16_toBitVec (data : List UInt8) :
    (serialComputeCrc16 data).toBitVec = register feedback 0xFFFF#16 (bitsOf data) := by
  have hfold (s : UInt16) : (data.foldl (fun crc b => crcRound^[8] (crc ^^^ b.toUInt16)) s).toBitVec =
      register feedback s.toBitVec (bitsOf data) := by
    induction data generalizing s with
    | nil => rfl
    | cons b data ih =>
      rw [List.foldl_cons, ih, iterate_crcRound_toBitVec, bitsOf_cons, register_append,
        register_byteBits]
      rfl
  exact hfold 0xFFFF

theorem word_le16 (lo hi : UInt8) :
    (word (bitsOf [lo, hi]) : BitVec 16) = (ofLe16 lo hi).toBitVec := by
  apply BitVec.eq_of_getLsbD_eq
  intro i hi16
  have hbits : (ofLe16 lo hi).toBitVec.getLsbD i = (2 ^ 8 * hi.toNat + lo.toNat).testBit i := by
    have hsum : 2 ^ 8 * hi.toNat + lo.toNat = (ofLe16 lo hi).toNat := by
      rw [toNat_ofLe16]
      omega
    rw [hsum]
    rfl
  rw [hbits, Nat.testBit_two_pow_mul_add _ lo.toNat_lt, getLsbD_word _ hi16, bitsOf_cons]
  split
  · rw [List.getD_append _ _ _ _ (by rwa [length_byteBits]), getD_byteBits]
    rfl
  · rename_i hhigh
    rw [List.getD_append_right _ _ _ _ (by rw [length_byteBits]; omega), length_byteBits,
      bitsOf_cons, List.getD_append _ _ _ _ (by rw [length_byteBits]; omega), getD_byteBits]
    rfl

theorem feedback_top : feedback.getLsbD (16 - 1) = true := rfl

theorem parity_feedback : parity feedback = true := rfl

/-- The checksum field is right exactly when the register ends at zero. -/
theorem checksum_eq_iff (covered : List UInt8) (c₀ c₁ : UInt8) :
    ofLe16 c₀ c₁ = serialComputeCrc16 covered ↔
      register feedback 0xFFFF#16 (bitsOf (covered ++ [c₀, c₁])) = 0#16 := by
  rw [bitsOf_append, register_append, register_eq_zero_iff feedback_top (le_refl _), word_le16,
    ← serialComputeCrc16_toBitVec, UInt16.toBitVec_inj, eq_comm]

theorem byteBits_xor (b c : UInt8) :
    byteBits (b ^^^ c) = List.zipWith xor (byteBits b) (byteBits c) := by
  rw [byteBits, byteBits, byteBits, List.zipWith_map, List.zipWith_self]
  exact List.map_congr_left fun k _ => BitVec.getLsbD_xor

theorem bitsOf_zipWith {bytes e : List UInt8} (h : bytes.length = e.length) :
    bitsOf (List.zipWith (· ^^^ ·) bytes e) = List.zipWith xor (bitsOf bytes) (bitsOf e) := by
  induction bytes generalizing e with
  | nil =>
    obtain rfl := List.eq_nil_of_length_eq_zero h.symm
    rfl
  | cons b bytes ih =>
    cases e with
    | nil => exact absurd h (Nat.succ_ne_zero _)
    | cons c e =>
      rw [List.zipWith_cons_cons, bitsOf_cons, ih (Nat.succ.inj h), byteBits_xor, bitsOf_cons,
        bitsOf_cons, List.zipWith_append (by rw [length_byteBits, length_byteBits])]

/-- What an error pattern makes of bytes whose register ends at zero. -/
theorem register_zipWith {bytes e : List UInt8} (h : bytes.length = e.length)
    (hzero : register feedback 0xFFFF#16 (bitsOf bytes) = 0#16) :
    register feedback 0xFFFF#16 (bitsOf (List.zipWith (· ^^^ ·) bytes e)) =
      register feedback 0#16 (bitsOf e) := by
  have hlen : (bitsOf bytes).length = (bitsOf e).length := by rw [length_bitsOf, length_bitsOf, h]
  have hsum := register_xor (g := feedback) hlen 0xFFFF#16 0#16
  rw [BitVec.xor_zero, hzero, BitVec.zero_xor] at hsum
  rw [bitsOf_zipWith h, hsum]

/-- The flipped bits lie within 16 consecutive ones, or they are odd in number. -/
def Detectable (e : List UInt8) : Prop :=
  (∃ k, ∀ j, (bitsOf e)[j]? = some true → k ≤ j ∧ j < k + 16) ∨
    (bitsOf e).count true % 2 = 1

theorem true_mem_bitsOf {e : List UInt8} (h : ∃ b ∈ e, b ≠ 0) : true ∈ bitsOf e := by
  obtain ⟨b, hb, hne⟩ := h
  refine List.mem_flatMap.mpr ⟨b, hb, ?_⟩
  by_contra hnone
  refine hne (UInt8.toBitVec_inj.mp (BitVec.eq_of_getLsbD_eq fun i hi => ?_))
  have hbit : b.toBitVec.getLsbD i ∈ byteBits b :=
    List.mem_map.mpr ⟨i, List.mem_range.mpr hi, rfl⟩
  cases hval : b.toBitVec.getLsbD i with
  | true => exact absurd (hval ▸ hbit) hnone
  | false => exact (BitVec.getLsbD_zero).symm

theorem register_detectable_ne_zero {e : List UInt8} (hne : ∃ b ∈ e, b ≠ 0) (h : Detectable e) :
    register feedback 0#16 (bitsOf e) ≠ 0#16 := by
  obtain ⟨k, hburst⟩ | hodd := h
  · exact register_burst_ne_zero feedback_top (true_mem_bitsOf hne) hburst
  · exact register_odd_ne_zero parity_feedback (by rw [parityOf_eq, hodd]; rfl)

/-- A received string with an error pattern on its bytes from index 1 on. -/
def alter (p e : List UInt8) : List UInt8 :=
  p.take 1 ++ List.zipWith (· ^^^ ·) (p.drop 1) e ++ p.drop (1 + e.length)

theorem alter_cons (b : UInt8) {body e : List UInt8} (rest : List UInt8) (h : body.length = e.length) :
    alter (b :: (body ++ rest)) e = b :: (List.zipWith (· ^^^ ·) body e ++ rest) := by
  have hzip : List.zipWith (· ^^^ ·) (body ++ rest) e = List.zipWith (· ^^^ ·) body e := by
    have happ : List.zipWith (· ^^^ ·) (body ++ rest) (e ++ []) =
        List.zipWith (· ^^^ ·) body e ++ List.zipWith (· ^^^ ·) rest [] := List.zipWith_append h
    rwa [List.append_nil, List.zipWith_nil_right, List.append_nil] at happ
  have hrest : (b :: (body ++ rest)).drop (1 + e.length) = rest := by
    rw [Nat.add_comm, List.drop_succ_cons, ← h, List.drop_left]
  rw [alter, hrest]
  change [b] ++ List.zipWith (· ^^^ ·) (body ++ rest) e ++ rest = _
  rw [hzip]
  rfl

theorem exists_pattern_split {e : List UInt8} {L : ℕ} (hlen : e.length = 8 + L) :
    ∃ e₁ e₂ e₃ e₄ e₅ e₆ eData g₀ g₁, eData.length = L ∧
      e = e₁ :: e₂ :: e₃ :: e₄ :: e₅ :: e₆ :: (eData ++ [g₀, g₁]) := by
  obtain ⟨e₁, _, rfl, k₁⟩ := exists_cons_of_lt (show 7 < e.length by omega)
  obtain ⟨e₂, _, rfl, k₂⟩ := exists_cons_of_lt k₁
  obtain ⟨e₃, _, rfl, k₃⟩ := exists_cons_of_lt k₂
  obtain ⟨e₄, _, rfl, k₄⟩ := exists_cons_of_lt k₃
  obtain ⟨e₅, _, rfl, k₅⟩ := exists_cons_of_lt k₄
  obtain ⟨e₆, body, rfl, -⟩ := exists_cons_of_lt k₅
  simp only [List.length_cons] at hlen
  obtain ⟨g₀, _, hg, t₁⟩ := exists_cons_of_lt (show 1 < (body.drop L).length by
    rw [List.length_drop]
    omega)
  obtain ⟨g₁, tail, rfl, -⟩ := exists_cons_of_lt t₁
  have hlast := congrArg List.length hg
  rw [List.length_drop, List.length_cons, List.length_cons] at hlast
  obtain rfl : tail = [] := List.eq_nil_of_length_eq_zero (by omega)
  refine ⟨e₁, e₂, e₃, e₄, e₅, e₆, body.take L, g₀, g₁, ?_, ?_⟩
  · rw [List.length_take]
    omega
  · rw [← hg, List.take_append_drop]

/-- The fields of a frame and their checksum field under an error pattern that leaves the
declared length alone. -/
theorem zipWith_fields (w : WireFrame) (crc : UInt16) (e₁ e₂ e₃ e₄ g₀ g₁ : UInt8)
    {eData : List UInt8} (hdata : eData.length = w.data.length) :
    List.zipWith (· ^^^ ·) (w.covered ++ le16 crc)
        (e₁ :: e₂ :: e₃ :: e₄ :: 0 :: 0 :: (eData ++ [g₀, g₁])) =
      ((w.src ^^^ e₁) :: (w.dst ^^^ e₂) :: (w.frameNum.toUInt8 ^^^ e₃) ::
        ((w.frameNum >>> 8).toUInt8 ^^^ e₄) :: (UInt16.ofNat w.data.length).toUInt8 ::
          (UInt16.ofNat w.data.length >>> 8).toUInt8 :: List.zipWith (· ^^^ ·) w.data eData) ++
        [crc.toUInt8 ^^^ g₀, (crc >>> 8).toUInt8 ^^^ g₁] := by
  have hcovered : w.covered ++ le16 crc =
      w.src :: w.dst :: w.frameNum.toUInt8 :: (w.frameNum >>> 8).toUInt8 ::
        (UInt16.ofNat w.data.length).toUInt8 :: (UInt16.ofNat w.data.length >>> 8).toUInt8 ::
          (w.data ++ le16 crc) := by
    rw [w.covered_eq]
    rfl
  rw [hcovered]
  simp only [List.zipWith_cons_cons, List.zipWith_append hdata.symm, UInt8.xor_zero,
    List.cons_append]
  rfl

/-- With a detectable error pattern that leaves the declared length alone, a frame is one
with a bad checksum. -/
theorem examine_alter (w : WireFrame) {e : List UInt8} (hlen : e.length = 8 + w.data.length)
    (hkeep : e.getD 4 0 = 0 ∧ e.getD 5 0 = 0) (hne : ∃ b ∈ e, b ≠ 0) (hdetectable : Detectable e)
    (q : List UInt8) :
    ∃ covered c₀ c₁, covered.length = 6 + w.data.length ∧
      alter (w.bytes ++ q) e = 0xA5 :: (covered ++ c₀ :: c₁ :: 0x5A :: q) ∧
      ofLe16 c₀ c₁ ≠ serialComputeCrc16 covered ∧
      examine (alter (w.bytes ++ q) e) = .badChecksum w.data.length := by
  let field := le16 (serialComputeCrc16 w.covered)
  have hbody : (w.covered ++ field).length = e.length := by
    rw [List.length_append, w.length_covered, hlen]
    exact Nat.add_right_comm _ _ _
  have hbytes : w.bytes ++ q = 0xA5 :: ((w.covered ++ field) ++ 0x5A :: q) := by
    simp [WireFrame.bytes, field]
  have haltered := alter_cons 0xA5 (0x5A :: q) hbody
  rw [← hbytes] at haltered
  have hresidue : register feedback 0xFFFF#16
      (bitsOf (List.zipWith (· ^^^ ·) (w.covered ++ field) e)) ≠ 0#16 := by
    have hzero := (checksum_eq_iff w.covered _ _).mp (ofLe16_le16 (serialComputeCrc16 w.covered))
    rw [register_zipWith hbody hzero]
    exact register_detectable_ne_zero hne hdetectable
  obtain ⟨e₁, e₂, e₃, e₄, e₅, e₆, eData, g₀, g₁, hdata, rfl⟩ := exists_pattern_split hlen
  obtain rfl : e₅ = 0 := hkeep.1
  obtain rfl : e₆ = 0 := hkeep.2
  have hzip : List.zipWith (· ^^^ ·) (w.covered ++ field) _ = _ :=
    zipWith_fields w (serialComputeCrc16 w.covered) e₁ e₂ e₃ e₄ g₀ g₁ hdata
  rw [hzip] at haltered hresidue
  rw [List.append_assoc] at haltered
  have hdata' : (List.zipWith (· ^^^ ·) w.data eData).length = w.data.length := by
    rw [List.length_zipWith, hdata, Nat.min_self]
  have hcrc := mt (checksum_eq_iff _ _ _).mp hresidue
  refine ⟨_, _, _, ?_, haltered, hcrc, ?_⟩
  · simp only [List.length_cons, hdata']
    omega
  · rw [examine_whole 0xA5 _ _ _ _ _ _ _ _ 0x5A _ _ q haltered
      (by rw [hdata', w.declared_length]) (by rw [hdata']; exact w.three_le_length)
      (by rw [hdata']; exact w.length_le), if_neg (by decide), if_pos hcrc, hdata']

/-- An accepted frame with a detectable error pattern on the bytes from the source to the
checksum field, which leaves its declared length alone: the checksum of the altered bytes is
not the altered field. So the frame is dropped as one with a bad checksum, and however the
stream is read, only what follows it is dispatched. -/
theorem errors_detected {p : List UInt8} {expectLen : ℕ} {f : Frame}
    (hstart : p.head? = some 0xA5) (haccepted : examine p = .accepted expectLen f)
    {e : List UInt8} (hlen : e.length = 8 + expectLen)
    (hkeep : e.getD 4 0 = 0 ∧ e.getD 5 0 = 0) (hne : ∃ b ∈ e, b ≠ 0)
    (hdetectable : Detectable e) :
    let altered := alter p e
    ofLe16 (altered.getD (7 + expectLen) 0) (altered.getD (8 + expectLen) 0) ≠
        serialComputeCrc16 ((altered.drop 1).take (6 + expectLen)) ∧
      examine altered = .badChecksum expectLen ∧
      ∀ reads reads' : List Read, streamOf reads = altered →
        streamOf reads' = p.drop (10 + expectLen) →
          dispatchedFrames reads = dispatchedFrames reads' := by
  intro altered
  obtain ⟨⟨w, hw⟩, -⟩ := wellFormed_of_accepted hstart haccepted
  obtain ⟨q, rfl⟩ : ∃ q, p = w.bytes ++ q :=
    ⟨p.drop (10 + expectLen), by rw [hw, List.take_append_drop]⟩
  obtain rfl : w.data.length = expectLen :=
    (Verdict.accepted.inj ((examine_bytes w q).symm.trans haccepted)).1
  obtain ⟨covered, c₀, c₁, hcovered, haltered, hcrc, hexamine⟩ :=
    examine_alter w hlen hkeep hne hdetectable q
  change altered = _ at haltered
  change examine altered = _ at hexamine
  clear_value altered
  have hfield (j : ℕ) : altered.getD (7 + w.data.length + j) 0 = (c₀ :: c₁ :: 0x5A :: q).getD j 0 := by
    rw [haltered, show 7 + w.data.length + j = 6 + w.data.length + j + 1 by omega,
      List.getD_cons_succ, List.getD_append_right _ _ _ _ (by omega), hcovered,
      Nat.add_sub_cancel_left]
  refine ⟨?_, hexamine, fun reads reads' hreads hreads' => ?_⟩
  · have h₀ := hfield 0
    have h₁ := hfield 1
    rw [Nat.add_zero] at h₀
    rw [Nat.add_right_comm] at h₁
    rw [h₀, h₁, haltered, List.drop_one, List.tail_cons, List.take_left' hcovered]
    exact hcrc
  · have hdecide : frameScanner.decide altered = some (10 + w.data.length, none) := by
      change decideFrame altered = _
      rw [haltered] at hexamine ⊢
      simp only [decideFrame, hexamine, if_true]
    have hrest : altered.drop (10 + w.data.length) = q := by
      rw [haltered, show 10 + w.data.length = 6 + w.data.length + 3 + 1 by omega,
        List.drop_succ_cons, ← hcovered, ← List.drop_drop, List.drop_left]
      rfl
    rw [← w.length_bytes, List.drop_left] at hreads'
    rw [dispatchedFrames_eq, dispatchedFrames_eq, hreads, hreads',
      frameScanner.values_step hdecide, hrest]
    rfl

/-- A frame without extra data, followed by a byte. -/
def soundFrame : WireFrame := ⟨0x81, 0x01, 0, [7, 0, 0], by decide, by decide⟩

/-- One flipped bit in the source is found. -/
theorem errors_detected_single_bit :
    examine (alter (soundFrame.bytes ++ [0]) [1, 0, 0, 0, 0, 0, 0, 0, 0, 0, 0]) = .badChecksum 3 :=
  (errors_detected (f := fieldsAt soundFrame.bytes) rfl (by decide +kernel) rfl ⟨rfl, rfl⟩
    ⟨1, by decide, by decide⟩ (.inr (by decide))).2.1

end SerialErrorDetection
end PcatManager
