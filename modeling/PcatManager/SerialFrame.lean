import Mathlib.Data.List.Basic
import Mathlib.Data.List.GetD
import Mathlib.Logic.Function.Iterate

/-!
# The PMU serial frame: checksum, encoder and the examination of a candidate

A frame is a start byte, a source, a destination, a frame number, a declared length
`L`, `L` bytes holding command, extra data and the acknowledge flag, a checksum and an
end byte. The encoder is the first half of `pcat_pmu_serial_write_data_request`. The
examination is the part of `pcat_pmu_serial_read_data_parse` that looks at one
candidate start byte, up to the point where the frame is accepted.
-/

namespace PcatManager.SerialFrame

/-- A 16-bit value as it is appended after `GUINT16_TO_LE`. -/
def le16 (v : UInt16) : List UInt8 := [v.toUInt8, (v >>> 8).toUInt8]

/-- The parser's `p[k] + ((guint16)p[k+1] << 8)`. -/
def ofLe16 (lo hi : UInt8) : UInt16 := lo.toUInt16 + (hi.toUInt16 <<< 8)

@[simp] theorem length_le16 (v : UInt16) : (le16 v).length = 2 := rfl

theorem toNat_ofLe16 (lo hi : UInt8) : (ofLe16 lo hi).toNat = lo.toNat + 256 * hi.toNat := by
  have hlo := lo.toNat_lt
  have hhi := hi.toNat_lt
  simp [ofLe16, UInt16.toNat_add, UInt16.toNat_shiftLeft, Nat.shiftLeft_eq]
  omega

@[simp] theorem ofLe16_le16 (v : UInt16) : ofLe16 v.toUInt8 (v >>> 8).toUInt8 = v := by
  apply UInt16.toNat_inj.mp
  have hv := v.toNat_lt
  simp only [toNat_ofLe16, UInt16.toNat_toUInt8, UInt16.toNat_shiftRight,
    Nat.shiftRight_eq_div_pow, UInt16.reduceToNat, Nat.reduceMod, Nat.reducePow]
  omega

@[simp] theorem le16_ofLe16 (lo hi : UInt8) : le16 (ofLe16 lo hi) = [lo, hi] := by
  have hlo := lo.toNat_lt
  have hhi := hi.toNat_lt
  have hlow : (ofLe16 lo hi).toUInt8 = lo := by
    apply UInt8.toNat_inj.mp
    rw [UInt16.toNat_toUInt8, toNat_ofLe16]
    omega
  have hhigh : (ofLe16 lo hi >>> 8).toUInt8 = hi := by
    apply UInt8.toNat_inj.mp
    simp only [UInt16.toNat_toUInt8, UInt16.toNat_shiftRight, toNat_ofLe16,
      Nat.shiftRight_eq_div_pow, UInt16.reduceToNat, Nat.reduceMod, Nat.reducePow]
    omega
  simp [le16, hlow, hhigh]

/-- One round of the inner loop of the checksum. -/
def crcRound (crc : UInt16) : UInt16 :=
  if crc &&& 1 ≠ 0 then (crc >>> 1) ^^^ 0xA001 else crc >>> 1

/-- `pcat_pmu_serial_compute_crc16`. -/
def serialComputeCrc16 (data : List UInt8) : UInt16 :=
  data.foldl (fun crc b => crcRound^[8] (crc ^^^ b.toUInt16)) 0xFFFF

/-- The bytes `pcat_pmu_serial_write_data_request` builds for the wire. An absent
`extra_data` is the empty list. An extra data of more than 65532 bytes is not put on
the wire at all: the frame goes out as if there were none. -/
def serialWriteFrame (frameNum command : UInt16) (extraData : List UInt8)
    (needAck : Bool) : List UInt8 :=
  let head := [0xA5, 0x01, 0x81] ++ le16 frameNum
  let (body, dpSize) :=
    if 0 < extraData.length ∧ extraData.length ≤ 65532 then
      (le16 (UInt16.ofNat (extraData.length + 3)) ++ le16 command ++ extraData,
        extraData.length + 3)
    else (le16 3 ++ le16 command, 3)
  let ba := head ++ body ++ [if needAck then 0x01 else 0x00]
  let sv := serialComputeCrc16 ((ba.drop 1).take (dpSize + 6))
  ba ++ le16 sv ++ [0x5A]

/-- The fields the parser decodes from an accepted frame. -/
structure Frame where
  src : UInt8
  dst : UInt8
  frameNum : UInt16
  command : UInt16
  extraData : List UInt8
  needAck : Bool
  deriving DecidableEq, Repr

/-- The six exits of the parser for one candidate start byte. -/
inductive Verdict where
  | tooShort
  | badLength
  | incomplete
  | badTrailer
  | badChecksum (expectLen : ℕ)
  | accepted (expectLen : ℕ) (frame : Frame)
  deriving DecidableEq, Repr

/-- What `pcat_pmu_serial_read_data_parse` decides at `p = buffer->data + i`. Every
index is within the buffer because of the checks made before it. -/
def examine (p : List UInt8) : Verdict :=
  if h13 : p.length < 13 then .tooShort
  else
    let expectLen := (ofLe16 p[5] p[6]).toNat
    if hlen : expectLen < 3 ∨ 65532 < expectLen then .badLength
    else if hrem : p.length < expectLen + 10 then .incomplete
    else if p[9 + expectLen] ≠ 0x5A then .badTrailer
    else
      let checksum := ofLe16 p[7 + expectLen] p[8 + expectLen]
      let rchecksum := serialComputeCrc16 ((p.drop 1).take (6 + expectLen))
      if checksum ≠ rchecksum then .badChecksum expectLen
      else .accepted expectLen
        { src := p[1]
          dst := p[2]
          frameNum := ofLe16 p[3] p[4]
          command := ofLe16 p[7] p[8]
          extraData := (p.drop 9).take (expectLen - 3)
          needAck := p[6 + expectLen] ≠ 0 }

/-- The frame grammar: what stands between the start byte and the checksum. The
declared length is that of `data` and is within the parser's limits. -/
structure WireFrame where
  src : UInt8
  dst : UInt8
  frameNum : UInt16
  data : List UInt8
  three_le_length : 3 ≤ data.length
  length_le : data.length ≤ 65532

namespace WireFrame

variable (w : WireFrame)

/-- The part of a frame its checksum covers. -/
def covered : List UInt8 :=
  w.src :: w.dst :: le16 w.frameNum ++ le16 (UInt16.ofNat w.data.length) ++ w.data

/-- A frame as a string of bytes. -/
def bytes : List UInt8 :=
  0xA5 :: w.covered ++ le16 (serialComputeCrc16 w.covered) ++ [0x5A]

@[simp] theorem length_covered : w.covered.length = 6 + w.data.length := by
  simp [covered]
  omega

@[simp] theorem length_bytes : w.bytes.length = 10 + w.data.length := by
  simp [bytes]
  omega

end WireFrame

/-- A byte string is a well-formed frame. -/
def WellFormed (bs : List UInt8) : Prop := ∃ w : WireFrame, w.bytes = bs

/-- The fields of a frame read at their offsets: the command at 7 and 8, the extra data
from 9 on, the acknowledge flag at `6 + L`. -/
def fieldsAt (bs : List UInt8) : Frame :=
  let expectLen := (ofLe16 (bs.getD 5 0) (bs.getD 6 0)).toNat
  { src := bs.getD 1 0
    dst := bs.getD 2 0
    frameNum := ofLe16 (bs.getD 3 0) (bs.getD 4 0)
    command := ofLe16 (bs.getD 7 0) (bs.getD 8 0)
    extraData := (bs.drop 9).take (expectLen - 3)
    needAck := bs.getD (6 + expectLen) 0 ≠ 0 }

theorem examine_short {p : List UInt8} (h : p.length < 13) : examine p = .tooShort := by
  simp [examine, h]

/-- The length a candidate declares. -/
def declaredLength (bs : List UInt8) : ℕ := (ofLe16 (bs.getD 5 0) (bs.getD 6 0)).toNat

theorem fieldsAt_append (bs q : List UInt8) (h13 : 13 ≤ bs.length)
    (hlen : declaredLength bs + 10 ≤ bs.length) : fieldsAt (bs ++ q) = fieldsAt bs := by
  have hget (k : ℕ) (hk : k < bs.length) : (bs ++ q).getD k 0 = bs.getD k 0 :=
    List.getD_append _ _ _ _ hk
  have hextra : ((bs ++ q).drop 9).take (declaredLength bs - 3) =
      (bs.drop 9).take (declaredLength bs - 3) := by
    rw [List.drop_append_of_le_length (by omega), List.take_append_of_le_length]
    rw [List.length_drop]
    omega
  have hack := hget (6 + declaredLength bs) (by omega)
  rw [declaredLength] at hextra hack
  simp only [fieldsAt, hget 1 (by omega), hget 2 (by omega), hget 3 (by omega),
    hget 4 (by omega), hget 5 (by omega), hget 6 (by omega), hget 7 (by omega),
    hget 8 (by omega), hextra, hack]

/-- The examination of a candidate whose declared extent is in the buffer. -/
theorem examine_whole (b src dst f₀ f₁ l₀ l₁ c₀ c₁ t : UInt8) (data p q : List UInt8)
    (hp : p = b :: src :: dst :: f₀ :: f₁ :: l₀ :: l₁ :: (data ++ c₀ :: c₁ :: t :: q))
    (hlen : (ofLe16 l₀ l₁).toNat = data.length) (hge : 3 ≤ data.length)
    (hle : data.length ≤ 65532) :
    examine p =
      if t ≠ 0x5A then .badTrailer
      else if ofLe16 c₀ c₁ ≠ serialComputeCrc16 (src :: dst :: f₀ :: f₁ :: l₀ :: l₁ :: data)
      then .badChecksum data.length
      else .accepted data.length (fieldsAt p) := by
  have hplen : p.length = data.length + 10 + q.length := by simp [hp]; omega
  have hat (j k : ℕ) (hk : k = 7 + data.length + j) (hkp : k < p.length)
      (hj : j < (c₀ :: c₁ :: t :: q).length) : p[k] = (c₀ :: c₁ :: t :: q)[j] := by
    subst hk
    have hsplit : p = (b :: src :: dst :: f₀ :: f₁ :: l₀ :: l₁ :: data) ++ c₀ :: c₁ :: t :: q := by
      simp [hp]
    rw [List.getElem_of_eq hsplit, List.getElem_append_right (by simp; omega)]
    congr 1
    simp
    omega
  have h7 : p[7 + data.length] = c₀ := hat 0 _ (by omega) (by omega) (by simp)
  have h8 : p[8 + data.length] = c₁ := hat 1 _ (by omega) (by omega) (by simp)
  have h9 : p[9 + data.length] = t := hat 2 _ (by omega) (by omega) (by simp)
  have hcrc : (p.drop 1).take (6 + data.length) = src :: dst :: f₀ :: f₁ :: l₀ :: l₁ :: data := by
    simp [hp, Nat.add_comm 6, List.take_succ_cons]
  have hfields : fieldsAt p =
      { src := p[1], dst := p[2], frameNum := ofLe16 p[3] p[4], command := ofLe16 p[7] p[8],
        extraData := (p.drop 9).take (data.length - 3),
        needAck := p[6 + data.length] ≠ 0 } := by
    have h5 : p.getD 5 0 = l₀ := by rw [hp]; rfl
    have h6 : p.getD 6 0 = l₁ := by rw [hp]; rfl
    simp only [fieldsAt, h5, h6, hlen]
    simp only [List.getD_eq_getElem p 0 (show 1 < p.length by omega),
      List.getD_eq_getElem p 0 (show 2 < p.length by omega),
      List.getD_eq_getElem p 0 (show 3 < p.length by omega),
      List.getD_eq_getElem p 0 (show 4 < p.length by omega),
      List.getD_eq_getElem p 0 (show 7 < p.length by omega),
      List.getD_eq_getElem p 0 (show 8 < p.length by omega),
      List.getD_eq_getElem p 0 (show 6 + data.length < p.length by omega)]
  have h5 : p[5] = l₀ := by simp [hp]
  have h6 : p[6] = l₁ := by simp [hp]
  rw [examine, dif_neg (by omega), hfields]
  simp only [h5, h6, hlen, h7, h8, h9, hcrc,
    show ¬(data.length < 3 ∨ 65532 < data.length) by omega,
    show ¬p.length < data.length + 10 by omega, dif_neg, not_false_eq_true]

namespace WireFrame

variable (w : WireFrame)

theorem covered_eq : w.covered =
    w.src :: w.dst :: w.frameNum.toUInt8 :: (w.frameNum >>> 8).toUInt8 ::
      (UInt16.ofNat w.data.length).toUInt8 :: (UInt16.ofNat w.data.length >>> 8).toUInt8 ::
      w.data := by
  simp [covered, le16]

theorem bytes_append_eq (q : List UInt8) : w.bytes ++ q =
    0xA5 :: w.src :: w.dst :: w.frameNum.toUInt8 :: (w.frameNum >>> 8).toUInt8 ::
      (UInt16.ofNat w.data.length).toUInt8 :: (UInt16.ofNat w.data.length >>> 8).toUInt8 ::
      (w.data ++ (serialComputeCrc16 w.covered).toUInt8 ::
        (serialComputeCrc16 w.covered >>> 8).toUInt8 :: 0x5A :: q) := by
  rw [bytes, covered_eq]
  simp [le16]

theorem declared_length :
    (ofLe16 (UInt16.ofNat w.data.length).toUInt8
      (UInt16.ofNat w.data.length >>> 8).toUInt8).toNat = w.data.length := by
  have hle := w.length_le
  rw [ofLe16_le16]
  exact UInt16.toNat_ofNat_of_lt' (by simp only [UInt16.size]; omega)

theorem declaredLength_bytes : declaredLength w.bytes = w.data.length := by
  have h := w.bytes_append_eq []
  rw [List.append_nil] at h
  rw [declaredLength, h]
  exact w.declared_length

end WireFrame

/-- A well-formed frame is accepted wherever it stands, whatever follows it. -/
theorem examine_bytes (w : WireFrame) (q : List UInt8) :
    examine (w.bytes ++ q) = .accepted w.data.length (fieldsAt w.bytes) := by
  rw [examine_whole _ _ _ _ _ _ _ _ _ _ w.data _ q (w.bytes_append_eq q) w.declared_length
    w.three_le_length w.length_le, ofLe16_le16, ← w.covered_eq]
  have hfields : fieldsAt (w.bytes ++ q) = fieldsAt w.bytes := by
    apply fieldsAt_append
    · have := w.three_le_length
      rw [w.length_bytes]
      omega
    · rw [w.declaredLength_bytes, w.length_bytes]
      omega
  simp [hfields]

theorem exists_cons_of_lt {α : Type} {n : ℕ} {xs : List α} (h : n < xs.length) :
    ∃ x rest, xs = x :: rest ∧ n ≤ rest.length := by
  cases xs with
  | nil => exact absurd h (Nat.not_lt_zero n)
  | cons x rest => exact ⟨x, rest, rfl, Nat.le_of_lt_succ h⟩

/-- A candidate whose declared extent is in the buffer, cut at its fields. -/
theorem exists_split {p : List UInt8} (h3 : 3 ≤ declaredLength p)
    (hrem : declaredLength p + 10 ≤ p.length) :
    ∃ b src dst f₀ f₁ l₀ l₁ c₀ c₁ t data q,
      p = b :: src :: dst :: f₀ :: f₁ :: l₀ :: l₁ :: (data ++ c₀ :: c₁ :: t :: q) ∧
      (ofLe16 l₀ l₁).toNat = declaredLength p ∧ data.length = declaredLength p := by
  obtain ⟨b, _, rfl, k₁⟩ := exists_cons_of_lt (show 6 < p.length by omega)
  obtain ⟨src, _, rfl, k₂⟩ := exists_cons_of_lt k₁
  obtain ⟨dst, _, rfl, k₃⟩ := exists_cons_of_lt k₂
  obtain ⟨f₀, _, rfl, k₄⟩ := exists_cons_of_lt k₃
  obtain ⟨f₁, _, rfl, k₅⟩ := exists_cons_of_lt k₄
  obtain ⟨l₀, _, rfl, k₆⟩ := exists_cons_of_lt k₅
  obtain ⟨l₁, body, rfl, -⟩ := exists_cons_of_lt k₆
  have hdecl : declaredLength (b :: src :: dst :: f₀ :: f₁ :: l₀ :: l₁ :: body) =
      (ofLe16 l₀ l₁).toNat := rfl
  rw [hdecl] at hrem ⊢
  simp only [List.length_cons] at hrem
  have htail : 2 < (body.drop (ofLe16 l₀ l₁).toNat).length := by
    rw [List.length_drop]
    omega
  obtain ⟨c₀, _, hq, t₁⟩ := exists_cons_of_lt htail
  obtain ⟨c₁, _, rfl, t₂⟩ := exists_cons_of_lt t₁
  obtain ⟨t, q, rfl, -⟩ := exists_cons_of_lt t₂
  refine ⟨b, src, dst, f₀, f₁, l₀, l₁, c₀, c₁, t, body.take (ofLe16 l₀ l₁).toNat, q, ?_, ?_, ?_⟩
  · rw [← hq, List.take_append_drop]
  · rfl
  · rw [List.length_take]
    omega

theorem examine_badLength {p : List UInt8} (h13 : 13 ≤ p.length)
    (h : declaredLength p < 3 ∨ 65532 < declaredLength p) : examine p = .badLength := by
  have h5 : p.getD 5 0 = p[5] := List.getD_eq_getElem _ _ (by omega)
  have h6 : p.getD 6 0 = p[6] := List.getD_eq_getElem _ _ (by omega)
  rw [declaredLength, h5, h6] at h
  rw [examine, dif_neg (by omega)]
  simp only [h, dif_pos]

theorem examine_incomplete {p : List UInt8} (h13 : 13 ≤ p.length)
    (h : 3 ≤ declaredLength p ∧ declaredLength p ≤ 65532)
    (hrem : p.length < declaredLength p + 10) : examine p = .incomplete := by
  have h5 : p.getD 5 0 = p[5] := List.getD_eq_getElem _ _ (by omega)
  have h6 : p.getD 6 0 = p[6] := List.getD_eq_getElem _ _ (by omega)
  rw [declaredLength, h5, h6] at h hrem
  rw [examine, dif_neg (by omega)]
  simp only [show ¬((ofLe16 p[5] p[6]).toNat < 3 ∨ 65532 < (ofLe16 p[5] p[6]).toNat) by omega,
    hrem, dif_pos, dif_neg, not_false_eq_true]

/-- The extent of a candidate is known as soon as its header is in the buffer. -/
theorem declaredLength_append {p : List UInt8} (h : 7 ≤ p.length) (q : List UInt8) :
    declaredLength (p ++ q) = declaredLength p := by
  rw [declaredLength, declaredLength, List.getD_append _ _ _ _ (by omega),
    List.getD_append _ _ _ _ (by omega)]

theorem examine_cases (p : List UInt8) :
    p.length < 13 ∧ examine p = .tooShort ∨
    13 ≤ p.length ∧ (declaredLength p < 3 ∨ 65532 < declaredLength p) ∧
      examine p = .badLength ∨
    13 ≤ p.length ∧ (3 ≤ declaredLength p ∧ declaredLength p ≤ 65532) ∧
      p.length < declaredLength p + 10 ∧ examine p = .incomplete ∨
    (3 ≤ declaredLength p ∧ declaredLength p ≤ 65532) ∧ declaredLength p + 10 ≤ p.length ∧
      (examine p = .badTrailer ∨ examine p = .badChecksum (declaredLength p) ∨
        examine p = .accepted (declaredLength p) (fieldsAt p)) := by
  by_cases h13 : p.length < 13
  · exact .inl ⟨h13, examine_short h13⟩
  · rw [Nat.not_lt] at h13
    by_cases hbad : declaredLength p < 3 ∨ 65532 < declaredLength p
    · exact .inr (.inl ⟨h13, hbad, examine_badLength h13 hbad⟩)
    · have hlen : 3 ≤ declaredLength p ∧ declaredLength p ≤ 65532 := by omega
      by_cases hrem : p.length < declaredLength p + 10
      · exact .inr (.inr (.inl ⟨h13, hlen, hrem, examine_incomplete h13 hlen hrem⟩))
      · refine .inr (.inr (.inr ⟨hlen, by omega, ?_⟩))
        obtain ⟨b, src, dst, f₀, f₁, l₀, l₁, c₀, c₁, t, data, q, hp, hdecl, hdata⟩ :=
          exists_split hlen.1 (Nat.not_lt.mp hrem)
        rw [examine_whole b src dst f₀ f₁ l₀ l₁ c₀ c₁ t data p q hp (hdecl.trans hdata.symm)
          (by omega) (by omega), hdata]
        split_ifs
        · exact .inl rfl
        · exact .inr (.inl rfl)
        · exact .inr (.inr rfl)

/-- A verdict that does not wait for more bytes is not changed by them. -/
theorem examine_append {p : List UInt8} (hshort : examine p ≠ .tooShort)
    (hinc : examine p ≠ .incomplete) (q : List UInt8) : examine (p ++ q) = examine p := by
  rcases examine_cases p with ⟨-, h⟩ | ⟨h13, hbad, h⟩ | ⟨-, -, -, h⟩ | ⟨hlen, hrem, -⟩
  · exact absurd h hshort
  · rw [h]
    rw [← declaredLength_append (by omega) q] at hbad
    exact examine_badLength (by rw [List.length_append]; omega) hbad
  · exact absurd h hinc
  · obtain ⟨b, src, dst, f₀, f₁, l₀, l₁, c₀, c₁, t, data, q', hp, hdecl, hdata⟩ :=
      exists_split hlen.1 hrem
    have happ : p ++ q = b :: src :: dst :: f₀ :: f₁ :: l₀ :: l₁ ::
        (data ++ c₀ :: c₁ :: t :: (q' ++ q)) := by simp [hp]
    rw [examine_whole b src dst f₀ f₁ l₀ l₁ c₀ c₁ t data (p ++ q) (q' ++ q) happ
        (hdecl.trans hdata.symm) (by omega) (by omega),
      examine_whole b src dst f₀ f₁ l₀ l₁ c₀ c₁ t data p q' hp (hdecl.trans hdata.symm)
        (by omega) (by omega), fieldsAt_append p q (by omega) hrem]

/-- What is accepted at a start byte is a well-formed frame with the fields at their
offsets. -/
theorem wellFormed_of_accepted {p : List UInt8} {expectLen : ℕ} {frame : Frame}
    (hstart : p.head? = some 0xA5) (h : examine p = .accepted expectLen frame) :
    WellFormed (p.take (10 + expectLen)) ∧ frame = fieldsAt (p.take (10 + expectLen)) := by
  rcases examine_cases p with ⟨-, h'⟩ | ⟨-, -, h'⟩ | ⟨-, -, -, h'⟩ | ⟨hlen, hrem, -⟩
  · simp [h] at h'
  · simp [h] at h'
  · simp [h] at h'
  · obtain ⟨b, src, dst, f₀, f₁, l₀, l₁, c₀, c₁, t, data, q, hp, hdecl, hdata⟩ :=
      exists_split hlen.1 hrem
    rw [examine_whole b src dst f₀ f₁ l₀ l₁ c₀ c₁ t data p q hp (hdecl.trans hdata.symm)
      (by omega) (by omega)] at h
    split_ifs at h with ht hcrc
    obtain ⟨rfl, rfl⟩ := Verdict.accepted.inj h
    obtain rfl : b = 0xA5 := by simpa [hp] using hstart
    obtain rfl : t = 0x5A := not_not.mp ht
    let w : WireFrame := ⟨src, dst, ofLe16 f₀ f₁, data, by omega, by omega⟩
    have hL : UInt16.ofNat data.length = ofLe16 l₀ l₁ := by
      rw [hdata, ← hdecl, UInt16.ofNat_toNat]
    have hcov : w.covered = src :: dst :: f₀ :: f₁ :: l₀ :: l₁ :: data := by
      simp [w, WireFrame.covered, hL]
    have hbytes : p.take (10 + data.length) = w.bytes := by
      have hcrc' : le16 (serialComputeCrc16 w.covered) = [c₀, c₁] := by
        rw [hcov, ← not_not.mp hcrc, le16_ofLe16]
      rw [WireFrame.bytes, hcrc', hcov, hp, Nat.add_comm]
      simp [List.take_succ_cons, List.take_append, List.take_of_length_le]
    refine ⟨⟨w, hbytes.symm⟩, ?_⟩
    have hp' : p = p.take (10 + data.length) ++ p.drop (10 + data.length) :=
      (List.take_append_drop _ _).symm
    conv_lhs => rw [hp']
    apply fieldsAt_append
    · rw [hbytes, w.length_bytes]
      exact Nat.add_le_add (by omega) w.three_le_length
    · rw [hbytes, w.declaredLength_bytes, w.length_bytes]
      omega

end PcatManager.SerialFrame
