import PcatManager.SerialReadParser

/-!
# What the receive parser accepts on whole streams

The frames dispatched over a stream do not depend on its cut into reads, are the
well-formed frames the scanner finds, and include every frame of a stream made of
well-formed frames and gaps without a start byte. A frame alone is dispatched when its
last byte arrives and leaves nothing behind.
-/

namespace PcatManager.SerialParserCorrectness
open SerialFrame SerialReadParser StreamScanner

/-- Two ways of cutting one stream into reads dispatch the same frames and leave the
same buffer once the garbage before its first start byte is stripped. -/
theorem chunking_irrelevant (reads reads' : List Read)
    (hstream : streamOf reads = streamOf reads') :
    dispatchedFrames reads = dispatchedFrames reads' ∧
      stripLeading (bufferAfter reads) = stripLeading (bufferAfter reads') := by
  constructor
  · rw [dispatchedFrames_eq, dispatchedFrames_eq, hstream]
  · rw [stripLeading_bufferAfter, stripLeading_bufferAfter, hstream]

theorem chunking_irrelevant_split :
    dispatchedFrames [⟨[0xA5, 1], by decide, by decide⟩, ⟨[0xA5], by decide, by decide⟩] =
      dispatchedFrames [⟨[0xA5, 1, 0xA5], by decide, by decide⟩] :=
  (chunking_irrelevant _ _ rfl).1

/-- A stretch of a stream without a start byte. -/
structure Gap where
  bytes : List UInt8
  noStart : ∀ b ∈ bytes, b ≠ 0xA5

/-- A gap followed by a well-formed frame. -/
structure Segment where
  gap : Gap
  frame : WireFrame

namespace Segment

/-- The bytes of a segment. -/
def bytes (g : Segment) : List UInt8 := g.gap.bytes ++ g.frame.bytes

end Segment

/-- A stream of well-formed frames separated by gaps. -/
def segmented (segments : List Segment) (tail : Gap) : List UInt8 :=
  segments.flatMap Segment.bytes ++ tail.bytes

/-- The frames whose last byte is among the first `n` bytes of a segmented stream. -/
def completed : ℕ → List Segment → List Frame
  | _, [] => []
  | n, g :: segments =>
    if g.bytes.length ≤ n then
      fieldsAt g.frame.bytes :: completed (n - g.bytes.length) segments
    else []

theorem values_append_gap (g : Gap) (p : List UInt8) :
    frameScanner.values (g.bytes ++ p) = frameScanner.values p := by
  rw [← values_stripLeading, stripLeading_append_of_garbage g.noStart, values_stripLeading]

theorem values_gap (g : Gap) : frameScanner.values g.bytes = [] := by
  simpa [values_nil] using values_append_gap g []

theorem decide_bytes (w : WireFrame) (q : List UInt8) :
    frameScanner.decide (w.bytes ++ q) =
      some (10 + w.data.length, some (fieldsAt w.bytes)) := by
  change decideFrame (w.bytes ++ q) = _
  have hcons : w.bytes ++ q = 0xA5 :: (w.covered ++ le16 (serialComputeCrc16 w.covered) ++
      [0x5A] ++ q) := by simp [WireFrame.bytes]
  have hexamine := examine_bytes w q
  rw [hcons] at hexamine ⊢
  simp only [decideFrame, hexamine, if_true]

theorem values_bytes_append (w : WireFrame) (q : List UInt8) :
    frameScanner.values (w.bytes ++ q) = fieldsAt w.bytes :: frameScanner.values q := by
  rw [frameScanner.values_step (decide_bytes w q), ← w.length_bytes, List.drop_left]
  rfl

theorem decide_part (w : WireFrame) {p q : List UInt8} (h : p ++ q = w.bytes) (hq : q ≠ []) :
    frameScanner.decide p = none := by
  cases hdec : frameScanner.decide p with
  | none => rfl
  | some d =>
    obtain ⟨n, v⟩ := d
    have hwhole := frameScanner.decide_append hdec q
    have hle := frameScanner.decide_le hdec
    have hlen := congrArg List.length h
    rw [h, ← List.append_nil w.bytes, decide_bytes w] at hwhole
    obtain ⟨rfl, -⟩ := Prod.mk.inj (Option.some.inj hwhole)
    have hpos := List.length_pos_iff.mpr hq
    rw [List.length_append, w.length_bytes] at hlen
    omega

theorem values_prefix_gap_append (g : Gap) {p q : List UInt8} (h : p <+: g.bytes ++ q)
    (hlen : p.length < g.bytes.length) : frameScanner.values p = [] := by
  have hp : p <+: g.bytes := List.prefix_of_prefix_length_le h (List.prefix_append _ _) hlen.le
  exact values_gap ⟨p, fun b hb => g.noStart b (hp.subset hb)⟩

/-- Every prefix of a segmented stream dispatches exactly the frames completed in it. -/
theorem values_prefix_segmented (segments : List Segment) (tail : Gap) (p : List UInt8)
    (h : p <+: segmented segments tail) :
    frameScanner.values p = completed p.length segments := by
  induction segments generalizing p with
  | nil =>
    have hp : p <+: tail.bytes := by simpa [segmented] using h
    exact values_gap ⟨p, fun b hb => tail.noStart b (hp.subset hb)⟩
  | cons g segments ih =>
    have hstream : segmented (g :: segments) tail = g.bytes ++ segmented segments tail := by
      simp [segmented]
    rw [hstream] at h
    by_cases hlen : g.bytes.length ≤ p.length
    · obtain ⟨q, rfl⟩ := List.prefix_of_prefix_length_le (List.prefix_append _ _) h hlen
      have hq : q <+: segmented segments tail := (List.prefix_append_right_inj _).mp h
      rw [completed, if_pos hlen, List.length_append, Nat.add_sub_cancel_left, ← ih q hq]
      rw [Segment.bytes, List.append_assoc, values_append_gap, values_bytes_append]
    · rw [completed, if_neg hlen]
      have hp : p <+: g.gap.bytes ++ g.frame.bytes :=
        List.prefix_of_prefix_length_le h (List.prefix_append _ _)
          (by change p.length ≤ g.bytes.length; omega)
      by_cases hgap : p.length < g.gap.bytes.length
      · exact values_prefix_gap_append g.gap hp hgap
      · obtain ⟨part, rfl⟩ := List.prefix_of_prefix_length_le (List.prefix_append _ _) hp
          (not_lt.mp hgap)
        obtain ⟨q, hq⟩ := (List.prefix_append_right_inj _).mp hp
        rw [values_append_gap]
        apply frameScanner.values_wait (decide_part g.frame hq _)
        rintro rfl
        simp only [Segment.bytes, ← hq, List.length_append, List.append_nil] at hlen
        omega

/-- Reports on a stream: well-formed substrings of it with the fields at their offsets,
in order and without overlap. -/
def FramesOf (stream : List UInt8) (reports : List (Report Frame)) : Prop :=
  reports.Pairwise (fun r r' => r.pos < r'.pos ∧ r.pos + r.len ≤ r'.pos) ∧
    ∀ r ∈ reports, r.pos + r.len ≤ stream.length ∧
      WellFormed ((stream.drop r.pos).take r.len) ∧
      r.value = fieldsAt ((stream.drop r.pos).take r.len)

theorem framesOf_drain (stream : List UInt8) : FramesOf stream (frameScanner.drain 0 stream).1 := by
  have hsound := frameScanner.drain_sound 0 stream
  refine ⟨?_, ?_⟩
  · apply (frameScanner.drain_pairwise 0 stream).imp_of_mem
    intro r r' hr _ hle
    have := frameScanner.decide_pos (hsound r hr).2
    omega
  · intro r hr
    have hdec : decideFrame (stream.drop r.pos) = some (r.len, some r.value) :=
      (hsound r hr).2
    have hle := (decideFrame_bounds hdec).2
    have hpos := (decideFrame_bounds hdec).1
    rw [List.length_drop] at hle
    refine ⟨by omega, ?_⟩
    cases hp : stream.drop r.pos with
    | nil => simp [hp, decideFrame] at hdec
    | cons b rest =>
      rw [hp] at hdec
      by_cases hb : b = 0xA5
      · subst hb
        simp only [decideFrame, if_true] at hdec
        split at hdec <;> try simp at hdec
        rename_i expectLen frame he
        obtain ⟨hlen, rfl⟩ := hdec
        rw [← hlen]
        exact wellFormed_of_accepted rfl he
      · simp [decideFrame_skip hb] at hdec

theorem completed_all (segments : List Segment) (n : ℕ)
    (h : (segments.flatMap Segment.bytes).length ≤ n) :
    completed n segments = segments.map (fun g => fieldsAt g.frame.bytes) := by
  induction segments generalizing n with
  | nil => rfl
  | cons g segments ih =>
    rw [List.flatMap_cons, List.length_append] at h
    rw [completed, if_pos (by omega), ih _ (by omega), List.map_cons]

/-- The parser accepts exactly its grammar. Whatever the stream, what is dispatched are
well-formed substrings of it, in order and without overlap. A stream of well-formed
frames separated by gaps dispatches each frame once, in order, with its last byte. -/
theorem accepts_grammar :
    (∀ reads : List Read, ∃ reports : List (Report Frame),
      FramesOf (streamOf reads) reports ∧ dispatchedFrames reads = reports.map Report.value) ∧
    (∀ (segments : List Segment) (tail : Gap) (reads : List Read),
      (streamOf reads <+: segmented segments tail →
        dispatchedFrames reads = completed (streamOf reads).length segments) ∧
      (streamOf reads = segmented segments tail →
        dispatchedFrames reads = segments.map (fun g => fieldsAt g.frame.bytes))) := by
  refine ⟨fun reads => ⟨_, framesOf_drain (streamOf reads), ?_⟩, ?_⟩
  · rw [dispatchedFrames_eq]
    rfl
  · intro segments tail reads
    have hpart (h : streamOf reads <+: segmented segments tail) :
        dispatchedFrames reads = completed (streamOf reads).length segments := by
      rw [dispatchedFrames_eq]
      exact values_prefix_segmented segments tail _ h
    refine ⟨hpart, fun h => ?_⟩
    rw [hpart (h ▸ List.prefix_refl _), h]
    apply completed_all
    simp [segmented]

/-- A heartbeat behind two bytes of noise. -/
def heartbeatSegment : Segment :=
  ⟨⟨[0, 1], by simp⟩, ⟨0x81, 0x01, 7, [1, 0, 0], by decide, by decide⟩⟩

def heartbeatRead : Read :=
  ⟨[0, 1, 0xA5, 0x81, 0x01, 7, 0, 3, 0, 1, 0, 0, 0xC4, 0x6A, 0x5A], by decide, by decide⟩

theorem accepts_grammar_heartbeat :
    dispatchedFrames [heartbeatRead] = [heartbeatSegment].map (fun g => fieldsAt g.frame.bytes) :=
  (accepts_grammar.2 [heartbeatSegment] ⟨[], by simp⟩ [heartbeatRead]).2 (by decide +kernel)

section Alone
variable {σ : Type*} (dispatch : σ → Frame → σ)

/-- A buffer on which the parser waits at its first byte stays as it is. -/
theorem serialReadDataParse_wait {p : List UInt8} (hwait : frameScanner.decide p = none) (s : σ) :
    serialReadDataParse dispatch p s = (p, s) := by
  obtain ⟨hstate, hkept, hsuffix, -⟩ := serialReadDataParse_spec dispatch p s
  rw [frameScanner.values_wait hwait] at hstate
  rw [frameScanner.rest_wait hwait] at hkept
  have hle : p.length ≤ (serialReadDataParse dispatch p s).1.length := by
    calc p.length = (stripLeading (serialReadDataParse dispatch p s).1).length := by rw [hkept]
      _ ≤ _ := (List.dropWhile_suffix _).length_le
  exact Prod.ext (hsuffix.eq_of_length_le hle) hstate

theorem readDataParseLoop_nil (fuel i usedSize : ℕ) (s : σ) :
    readDataParseLoop dispatch fuel i usedSize [] s = (usedSize, s) := by
  cases fuel <;> rfl

theorem serialReadDataParse_bytes (w : WireFrame) (s : σ) :
    serialReadDataParse dispatch w.bytes s = ([], dispatch s (fieldsAt w.bytes)) := by
  have hge := w.three_le_length
  have hexamine := examine_bytes w []
  rw [List.append_nil] at hexamine
  obtain ⟨rest, hrest⟩ : ∃ rest, w.bytes = 0xA5 :: rest := ⟨_, rfl⟩
  have hlen : rest.length = 9 + w.data.length := by
    have := w.length_bytes
    rw [hrest, List.length_cons] at this
    omega
  have hloop : readDataParseLoop dispatch (0xA5 :: rest).length 0 0 (0xA5 :: rest) s =
      (10 + w.data.length, dispatch s (fieldsAt w.bytes)) := by
    rw [hrest] at hexamine ⊢
    simp only [List.length_cons, readDataParseLoop, hexamine, if_true,
      List.drop_of_length_le hlen.le, readDataParseLoop_nil]
  have h13 : ¬(0xA5 :: rest).length < 13 := by
    rw [List.length_cons]
    omega
  have hdrop : (0xA5 :: rest).drop (10 + w.data.length) = [] :=
    List.drop_of_length_le (by rw [List.length_cons]; omega)
  rw [hrest, serialReadDataParse, if_neg h13, hloop]
  simp only [hdrop, show 0 < 10 + w.data.length by omega, if_true, hrest]

/-- A frame that arrives alone, in any reads, is dispatched once, with its last byte, and
leaves the buffer empty. -/
theorem serialReadRun_bytes (w : WireFrame) (s : σ) (buffer : List UInt8) (reads : List Read)
    (hreads : reads ≠ []) (h : buffer ++ streamOf reads = w.bytes) :
    serialReadRun dispatch buffer s reads = ([], dispatch s (fieldsAt w.bytes)) := by
  induction reads generalizing buffer with
  | nil => exact absurd rfl hreads
  | cons r reads ih =>
    have hstream : (buffer ++ r.bytes) ++ streamOf reads = w.bytes := by
      rw [← h]
      simp [streamOf]
    have htrim : ¬131072 < (buffer ++ r.bytes).length := by
      have hlen := congrArg List.length hstream
      have := w.length_le
      rw [List.length_append, w.length_bytes] at hlen
      omega
    have hstep : serialReadStep dispatch buffer s r.bytes =
        serialReadDataParse dispatch (buffer ++ r.bytes) s := by
      simp only [serialReadStep, htrim, if_false]
    rw [serialReadRun, List.foldl_cons, hstep]
    by_cases hlast : reads = []
    · subst hlast
      have hbytes : buffer ++ r.bytes = w.bytes := by simpa [streamOf] using hstream
      rw [hbytes, serialReadDataParse_bytes]
      rfl
    · have hrest : streamOf reads ≠ [] := by
        obtain ⟨r', reads', rfl⟩ := List.exists_cons_of_ne_nil hlast
        apply List.ne_nil_of_length_pos
        have := r'.pos
        simp [streamOf]
        omega
      rw [serialReadDataParse_wait dispatch (decide_part w hstream hrest)]
      exact ih (buffer ++ r.bytes) hlast hstream

end Alone

/-- The frame the encoder builds for an extra data that fits the declared length. -/
def encoded (frameNum command : UInt16) (extraData : List UInt8) (needAck : Bool)
    (h : extraData.length ≤ 65529) : WireFrame where
  src := 0x01
  dst := 0x81
  frameNum := frameNum
  data := le16 command ++ extraData ++ [if needAck then 0x01 else 0x00]
  three_le_length := by simp; omega
  length_le := by simp; omega

/-- The shape of what the encoder puts on the wire for an extra data it admits. -/
theorem serialWriteFrame_shape (frameNum command : UInt16) (extraData : List UInt8)
    (needAck : Bool) (h : extraData.length ≤ 65532) :
    let covered := 0x01 :: 0x81 :: le16 frameNum ++
      le16 (UInt16.ofNat (extraData.length + 3)) ++
      (le16 command ++ extraData ++ [if needAck then 0x01 else 0x00])
    serialWriteFrame frameNum command extraData needAck =
      0xA5 :: covered ++ le16 (serialComputeCrc16 covered) ++ [0x5A] := by
  intro covered
  have hcovered : covered.length = extraData.length + 3 + 6 := by
    simp [covered]
    omega
  have hbody : (if 0 < extraData.length ∧ extraData.length ≤ 65532 then
      (le16 (UInt16.ofNat (extraData.length + 3)) ++ le16 command ++ extraData,
        extraData.length + 3)
      else (le16 3 ++ le16 command, 3)) =
      (le16 (UInt16.ofNat (extraData.length + 3)) ++ le16 command ++ extraData,
        extraData.length + 3) := by
    cases extraData with
    | nil => rfl
    | cons b rest => rw [if_pos ⟨by simp, h⟩]
  have hba : [0xA5, 0x01, 0x81] ++ le16 frameNum ++
      (le16 (UInt16.ofNat (extraData.length + 3)) ++ le16 command ++ extraData) ++
      [if needAck then 0x01 else 0x00] = 0xA5 :: covered := by
    simp [covered]
  have hspan : ((0xA5 :: covered).drop 1).take (extraData.length + 3 + 6) = covered := by
    rw [List.drop_succ_cons, List.drop_zero, List.take_of_length_le hcovered.le]
  simp only [serialWriteFrame, hbody, hba, hspan]

theorem serialWriteFrame_eq (frameNum command : UInt16) (extraData : List UInt8)
    (needAck : Bool) (h : extraData.length ≤ 65529) :
    serialWriteFrame frameNum command extraData needAck =
      (encoded frameNum command extraData needAck h).bytes := by
  have hlen : (encoded frameNum command extraData needAck h).data.length =
      extraData.length + 3 := by
    simp [encoded]
    omega
  rw [serialWriteFrame_shape frameNum command extraData needAck (by omega), WireFrame.bytes,
    WireFrame.covered, hlen]
  rfl

theorem fieldsAt_encoded (frameNum command : UInt16) (extraData : List UInt8)
    (needAck : Bool) (h : extraData.length ≤ 65529) :
    fieldsAt (encoded frameNum command extraData needAck h).bytes =
      ⟨0x01, 0x81, frameNum, command, extraData, needAck⟩ := by
  set w := encoded frameNum command extraData needAck h with hw
  have hlen : w.data.length = extraData.length + 3 := by
    simp [hw, encoded]
    omega
  have hbytes := w.bytes_append_eq []
  rw [List.append_nil] at hbytes
  have hdecl : (ofLe16 (w.bytes.getD 5 0) (w.bytes.getD 6 0)).toNat = extraData.length + 3 := by
    rw [← hlen]
    exact w.declaredLength_bytes
  have hdata : w.data = command.toUInt8 :: (command >>> 8).toUInt8 ::
      (extraData ++ [if needAck then 0x01 else 0x00]) := by
    simp [hw, encoded, le16]
  have hflag : (w.bytes.getD (6 + (extraData.length + 3)) 0 ≠ 0) ↔ needAck = true := by
    rw [hbytes, hdata, show 6 + (extraData.length + 3) = extraData.length + 9 by omega]
    simp only [List.getD_cons_succ, List.cons_append, List.append_assoc]
    rw [List.getD_append_right _ _ _ _ le_rfl, Nat.sub_self]
    cases needAck <;> simp
  have hextra : (w.bytes.drop 9).take (extraData.length + 3 - 3) = extraData := by
    rw [hbytes, hdata]
    simp
  rw [fieldsAt]
  simp only [hdecl, hflag, hextra, Bool.decide_eq_true, Frame.mk.injEq, and_true]
  rw [hbytes, hdata]
  simp [hw, encoded]

/-- The frames a byte string dispatches when it reaches an empty buffer all at once,
and the buffer it leaves. -/
def parseOnce (bs : List UInt8) : List UInt8 × List Frame :=
  serialReadDataParse (fun frames f => frames ++ [f]) bs []

/-- The same for successive reads. -/
def parseReads (reads : List Read) : List UInt8 × List Frame :=
  serialReadRun (fun frames f => frames ++ [f]) [] [] reads

/-- Exactly one frame came out, with these contents, and the buffer is empty. -/
def YieldsOnly (frameNum command : UInt16) (extraData : List UInt8) (needAck : Bool)
    (result : List UInt8 × List Frame) : Prop :=
  ∃ f : Frame, result = ([], [f]) ∧ f.frameNum = frameNum ∧ f.command = command ∧
    f.extraData = extraData ∧ f.needAck = needAck

/-- Feeding a byte string to an empty parser gives the encoded contents back, whether it
arrives all at once or in reads. -/
def DecodesBack (bs : List UInt8) (frameNum command : UInt16) (extraData : List UInt8)
    (needAck : Bool) : Prop :=
  YieldsOnly frameNum command extraData needAck (parseOnce bs) ∧
    ∀ reads : List Read, streamOf reads = bs →
      YieldsOnly frameNum command extraData needAck (parseReads reads)

/-- No frame the parser dispatches carries more than 65529 bytes of extra data. -/
theorem extraData_length_le {p : List UInt8} {f : Frame} (hf : f ∈ frameScanner.values p) :
    f.extraData.length ≤ 65529 := by
  obtain ⟨r, hr, rfl⟩ := List.mem_map.mp hf
  obtain ⟨-, ⟨w, hw⟩, hfields⟩ := (framesOf_drain p).2 r hr
  have hdecl : (ofLe16 (w.bytes.getD 5 0) (w.bytes.getD 6 0)).toNat = w.data.length :=
    w.declaredLength_bytes
  have hle := w.length_le
  rw [hfields, ← hw]
  simp only [fieldsAt, hdecl, List.length_take]
  omega

/-- Within what the encoder admits, decoding undoes encoding exactly up to 65529 bytes of
extra data: the three command and flag bytes count against the parser's limit on the
declared length, not against the encoder's limit on the extra data. -/
theorem decodesBack_serialWriteFrame_iff (frameNum command : UInt16) (extraData : List UInt8)
    (needAck : Bool) :
    DecodesBack (serialWriteFrame frameNum command extraData needAck) frameNum command extraData
      needAck ↔ extraData.length ≤ 65529 := by
  constructor
  · rintro ⟨⟨f, hparse, -, -, hextra, -⟩, -⟩
    rw [← hextra]
    have hspec := (serialReadDataParse_spec (fun frames f => frames ++ [f])
      (serialWriteFrame frameNum command extraData needAck) []).1
    rw [foldl_snoc, List.nil_append] at hspec
    apply extraData_length_le (p := serialWriteFrame frameNum command extraData needAck)
    rw [← hspec]
    change f ∈ (parseOnce _).2
    simp [hparse]
  · intro h
    have hfields := fieldsAt_encoded frameNum command extraData needAck h
    rw [serialWriteFrame_eq frameNum command extraData needAck h]
    set w := encoded frameNum command extraData needAck h
    have hyields : YieldsOnly frameNum command extraData needAck ([], [fieldsAt w.bytes]) :=
      ⟨_, rfl, by simp [hfields], by simp [hfields], by simp [hfields], by simp [hfields]⟩
    refine ⟨?_, ?_⟩
    · rw [parseOnce, serialReadDataParse_bytes]
      exact hyields
    · intro reads hstream
      have hne : reads ≠ [] := by
        rintro rfl
        have hlen := congrArg List.length hstream
        rw [w.length_bytes] at hlen
        simp only [streamOf, List.map_nil, List.flatten_nil, List.length_nil] at hlen
        omega
      rw [parseReads, serialReadRun_bytes _ w [] [] reads hne (by simpa using hstream)]
      exact hyields

end PcatManager.SerialParserCorrectness
