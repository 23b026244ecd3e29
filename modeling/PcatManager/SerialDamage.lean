import PcatManager.SerialParserCorrectness

/-!
# What a damaged frame costs

The parser goes on behind the whole extent a start byte claims when the checksum in it is
wrong, and the length of the extent is then taken from bytes that may be damaged. So the
frame behind a damaged one is dispatched exactly when none of the extents met in the damaged
bytes reaches into it.
-/

namespace PcatManager
open SerialFrame SerialReadParser SerialParserCorrectness StreamScanner

namespace SerialDamage

/-- A start byte, an admissible length and the end byte where the length puts it. -/
def Claims (p : List UInt8) : Prop :=
  p.head? = some 0xA5 ∧ (3 ≤ declaredLength p ∧ declaredLength p ≤ 65532) ∧
    p.getD (9 + declaredLength p) 0 = 0x5A

instance (p : List UInt8) : Decidable (Claims p) := inferInstanceAs (Decidable (_ ∧ _ ∧ _))

/-- How far the bytes at the front go on the parser's way: the claimed extent, else one. -/
def extent (p : List UInt8) : ℕ := if Claims p then 10 + declaredLength p else 1

/-- The bytes `p`, with `q` behind them, divide from the front into single bytes that claim
nothing and claimed extents, none of which reaches into `q`. -/
inductive Divided (q : List UInt8) : List UInt8 → Prop
  | done : Divided q []
  | next {p : List UInt8} (hne : p ≠ []) (hle : extent (p ++ q) ≤ p.length)
      (hrest : Divided q (p.drop (extent (p ++ q)))) : Divided q p

/-- The dispatched frames with their places in the stream. -/
def dispatchReports (reads : List Read) : List (Report Frame) :=
  (frameScanner.drain 0 (streamOf reads)).1

/-- A frame was dispatched from position `pos` of the stream. -/
def DispatchedAt (reads : List Read) (pos : ℕ) (f : Frame) : Prop :=
  ∃ len, (⟨pos, len, f⟩ : Report Frame) ∈ dispatchReports reads

theorem extent_pos (p : List UInt8) : 0 < extent p := by
  rw [extent]
  split <;> omega

theorem examine_badTrailer_iff {p : List UInt8} (hlen : 3 ≤ declaredLength p ∧ declaredLength p ≤ 65532)
    (hrem : declaredLength p + 10 ≤ p.length) :
    examine p = .badTrailer ↔ p.getD (9 + declaredLength p) 0 ≠ 0x5A := by
  obtain ⟨b, src, dst, f₀, f₁, l₀, l₁, c₀, c₁, t, data, q, hp, hdecl, hdata⟩ :=
    exists_split hlen.1 hrem
  have ht : p.getD (9 + declaredLength p) 0 = t := by
    have hsplit : p = (b :: src :: dst :: f₀ :: f₁ :: l₀ :: l₁ :: data) ++ c₀ :: c₁ :: t :: q := by
      simp [hp]
    have hfront : (b :: src :: dst :: f₀ :: f₁ :: l₀ :: l₁ :: data).length + 2 =
        9 + declaredLength p := by
      simp only [List.length_cons, hdata]
      omega
    rw [← hfront, hsplit, List.getD_append_right _ _ _ _ (Nat.le_add_right _ _),
      Nat.add_sub_cancel_left]
    rfl
  rw [examine_whole b src dst f₀ f₁ l₀ l₁ c₀ c₁ t data p q hp (hdecl.trans hdata.symm)
    (by omega) (by omega), ht]
  split_ifs <;> simp_all

/-- With enough bytes behind it the parser decides, and goes as far as the bytes claim. -/
theorem exists_decide {p : List UInt8} (hlen : 65542 ≤ p.length) :
    ∃ v, frameScanner.decide p = some (extent p, v) := by
  cases p with
  | nil => exact absurd hlen (by decide)
  | cons b rest =>
    by_cases hb : b = 0xA5
    · subst hb
      have hhead : (0xA5 :: rest).head? = some (0xA5 : UInt8) := rfl
      change ∃ v, decideFrame (0xA5 :: rest) = some (extent (0xA5 :: rest), v)
      rcases examine_cases (0xA5 :: rest) with ⟨hshort, -⟩ | ⟨-, hbad, he⟩ | ⟨-, hdecl, hrem, -⟩ |
        ⟨hdecl, hrem, he⟩
      · omega
      · have hnone : ¬Claims (0xA5 :: rest) := fun h => by
          have := h.2.1
          omega
        rw [decideFrame, if_pos rfl, he, extent, if_neg hnone]
        exact ⟨none, rfl⟩
      · omega
      · have htrailer := examine_badTrailer_iff hdecl hrem
        rcases he with he | he | he
        · have hnone : ¬Claims (0xA5 :: rest) := fun h => htrailer.mp he h.2.2
          rw [decideFrame, if_pos rfl, he, extent, if_neg hnone]
          exact ⟨none, rfl⟩
        all_goals
          have hclaims : Claims (0xA5 :: rest) := by
            refine ⟨hhead, hdecl, ?_⟩
            by_contra hne
            rw [htrailer.mpr hne] at he
            cases he
          rw [decideFrame, if_pos rfl, he, extent, if_pos hclaims]
          exact ⟨_, rfl⟩
    · have hnone : ¬Claims (b :: rest) := fun h => hb (Option.some.inj h.1)
      rw [frameScanner_skip hb, extent, if_neg hnone]
      exact ⟨none, rfl⟩

theorem visits_length_iff {p q : List UInt8} (hq : 65542 ≤ q.length) :
    frameScanner.Visits (p ++ q) p.length ↔ Divided q p := by
  constructor
  · intro h
    generalize hk : p.length = k at h
    generalize hpq : p ++ q = xs at h
    induction h generalizing p with
    | start xs =>
      obtain rfl := List.eq_nil_of_length_eq_zero hk
      exact .done
    | @step xs n k v hdecide hnext ih =>
      subst hpq
      obtain ⟨v', hv'⟩ := exists_decide (p := p ++ q) (by rw [List.length_append]; omega)
      obtain ⟨rfl, -⟩ := Prod.mk.inj (Option.some.inj (hv'.symm.trans hdecide))
      have hpos := extent_pos (p ++ q)
      refine .next (List.ne_nil_of_length_pos (by omega)) (by omega) (ih ?_ ?_)
      · rw [List.length_drop]
        omega
      · rw [List.drop_append_of_le_length (by omega)]
  · intro h
    induction h with
    | done => exact .start _
    | @next p hne hle hrest ih =>
      obtain ⟨v, hv⟩ := exists_decide (p := p ++ q) (by rw [List.length_append]; omega)
      rw [← List.drop_append_of_le_length hle] at ih
      have hvisits := Scanner.Visits.step hv ih
      rwa [List.length_drop, Nat.add_sub_cancel' hle] at hvisits

/-- A change of one byte that is neither the start byte nor the end byte nor in the length
leaves the frame an extent of its own. -/
theorem divided_set (frame : WireFrame) {k : ℕ} (b : UInt8)
    (hk : k ≠ 0 ∧ k ≠ 5 ∧ k ≠ 6 ∧ k ≠ 9 + frame.data.length) (q : List UInt8) :
    Divided q (frame.bytes.set k b) := by
  obtain ⟨h₀, h₅, h₆, hend⟩ := hk
  have hlen := frame.length_bytes
  have hlength : (frame.bytes.set k b).length = frame.bytes.length := List.length_set
  have hkept {j : ℕ} (hj : j < frame.bytes.length) (hne : k ≠ j) :
      (frame.bytes.set k b ++ q)[j]? = frame.bytes[j]? := by
    rw [List.getElem?_append_left (by omega), List.getElem?_set_ne hne]
  have hgetD {j : ℕ} (hj : j < frame.bytes.length) (hne : k ≠ j) :
      (frame.bytes.set k b ++ q).getD j 0 = frame.bytes.getD j 0 := by
    rw [List.getD_eq_getElem?_getD, hkept hj hne, List.getD_eq_getElem?_getD]
  have hdeclared : declaredLength (frame.bytes.set k b ++ q) = frame.data.length := by
    rw [declaredLength, hgetD (by omega) h₅, hgetD (by omega) h₆]
    exact frame.declaredLength_bytes
  have htrailer : frame.bytes.getD (9 + frame.data.length) 0 = 0x5A := by
    have hfront : (0xA5 :: frame.covered ++ le16 (serialComputeCrc16 frame.covered)).length =
        9 + frame.data.length := by
      rw [List.length_append, List.length_cons, frame.length_covered, length_le16]
      omega
    rw [WireFrame.bytes, ← hfront, List.getD_append_right _ _ _ _ (le_refl _), Nat.sub_self]
    rfl
  have hclaims : Claims (frame.bytes.set k b ++ q) := by
    refine ⟨?_, ?_, ?_⟩
    · rw [List.head?_eq_getElem?, hkept (by omega) h₀]
      rfl
    · rw [hdeclared]
      exact ⟨frame.three_le_length, frame.length_le⟩
    · rw [hdeclared, hgetD (by omega) hend, htrailer]
  have hextent : extent (frame.bytes.set k b ++ q) = frame.bytes.length := by
    rw [extent, if_pos hclaims, hdeclared, hlen]
  refine .next (List.ne_nil_of_length_pos (by omega)) (by rw [hextent, hlength]) ?_
  rw [hextent, ← hlength, List.drop_length]
  exact .done

/-- Two frames, the first one with one byte changed, and 65542 bytes without a start byte: in
whatever chunks they are read, the second frame is dispatched from its place exactly when the
damaged bytes divide, and they do unless it is the start byte, the end byte or the length
that is hit. -/
theorem next_frame_survives_iff (frame next : WireFrame) (k : ℕ) (b : UInt8) (tail : Gap)
    (htail : tail.bytes.length = 65542) (reads : List Read)
    (hreads : streamOf reads = frame.bytes.set k b ++ (next.bytes ++ tail.bytes)) :
    dispatchedFrames reads = (dispatchReports reads).map Report.value ∧
      (DispatchedAt reads frame.bytes.length (fieldsAt next.bytes) ↔
        Divided (next.bytes ++ tail.bytes) (frame.bytes.set k b)) ∧
      (k ≠ 0 ∧ k ≠ 5 ∧ k ≠ 6 ∧ k ≠ 9 + frame.data.length →
        Divided (next.bytes ++ tail.bytes) (frame.bytes.set k b)) := by
  refine ⟨dispatchedFrames_eq reads, ?_, fun hk => divided_set frame b hk _⟩
  have hq : 65542 ≤ (next.bytes ++ tail.bytes).length := by
    rw [List.length_append]
    omega
  have hlength : (frame.bytes.set k b).length = frame.bytes.length := List.length_set
  have hdrop : (streamOf reads).drop frame.bytes.length = next.bytes ++ tail.bytes := by
    rw [hreads, ← hlength, List.drop_left]
  rw [← visits_length_iff hq, hlength, ← hreads, DispatchedAt, dispatchReports]
  constructor
  · rintro ⟨len, hreport⟩
    rw [← Nat.zero_add frame.bytes.length, Scanner.mem_drain_iff] at hreport
    exact hreport.1
  · intro hvisits
    refine ⟨10 + next.data.length, ?_⟩
    rw [← Nat.zero_add frame.bytes.length, Scanner.mem_drain_iff, hdrop]
    exact ⟨hvisits, decide_bytes next _⟩

/-- The reads that deliver a stream byte by byte. -/
def byteReads (stream : List UInt8) : List Read :=
  stream.map fun b => ⟨[b], Nat.one_pos, Nat.succ_le_of_lt (by decide)⟩

theorem streamOf_byteReads (stream : List UInt8) : streamOf (byteReads stream) = stream := by
  induction stream with
  | nil => rfl
  | cons b stream ih =>
    have hcons : streamOf (byteReads (b :: stream)) = b :: streamOf (byteReads stream) := rfl
    rw [hcons, ih]

/-- The answer to a clock command, that to the next one, and zeros. -/
def firstFrame : WireFrame := ⟨0x81, 0x01, 0, [0xA, 0, 0], by decide, by decide⟩

def secondFrame : WireFrame := ⟨0x81, 0x01, 1, [0xA, 0, 0], by decide, by decide⟩

def zeros : Gap where
  bytes := List.replicate 65542 0
  noStart b hb := by
    rw [List.eq_of_mem_replicate hb]
    decide

theorem next_frame_survives_source_hit :
    DispatchedAt (byteReads (firstFrame.bytes.set 1 0 ++ (secondFrame.bytes ++ zeros.bytes))) 13
      (fieldsAt secondFrame.bytes) :=
  have hresult := next_frame_survives_iff firstFrame secondFrame 1 0 zeros List.length_replicate _
    (streamOf_byteReads _)
  hresult.2.1.mpr (hresult.2.2 (by decide))

/-- When the length of the first frame becomes 16, its extent ends with the second frame. -/
theorem next_frame_lost :
    ∃ reads : List Read,
      streamOf reads = firstFrame.bytes.set 5 16 ++ (secondFrame.bytes ++ zeros.bytes) ∧
        fieldsAt secondFrame.bytes ∉ dispatchedFrames reads := by
  refine ⟨byteReads _, streamOf_byteReads _, ?_⟩
  have hdecide : frameScanner.decide (firstFrame.bytes.set 5 16 ++ secondFrame.bytes) =
      some (26, none) := by decide +kernel
  have hlength : (firstFrame.bytes.set 5 16 ++ secondFrame.bytes).length = 26 := by decide
  rw [dispatchedFrames_eq, streamOf_byteReads, ← List.append_assoc,
    frameScanner.values_step (frameScanner.decide_append hdecide _), ← hlength, List.drop_left,
    values_gap]
  exact List.not_mem_nil

end SerialDamage
end PcatManager
