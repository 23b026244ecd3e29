import PcatManager.SerialFrame
import PcatManager.StreamScanner
import Mathlib.Data.List.TakeWhile

/-!
# The receive parser of the PMU link

`pcat_pmu_serial_read_data_parse` walks over the receive buffer with the two indices
`i` and `used_size` and calls the dispatch of the manager for every accepted frame.
The dispatch is a parameter here: the parser never looks at what it does. The buffer
walk refines a prefix-stable scanner, from which its behaviour on whole streams
follows.
-/

namespace PcatManager.SerialReadParser
open SerialFrame StreamScanner

section Parser
variable {σ : Type*} (dispatch : σ → Frame → σ)

/-- The `for` loop of `pcat_pmu_serial_read_data_parse` from index `i` on, where `p` is
`buffer->data + i`. Returns `used_size` and the state the dispatched frames leave. -/
def readDataParseLoop : (fuel i usedSize : ℕ) → (p : List UInt8) → σ → ℕ × σ
  | 0, _, usedSize, _, s => (usedSize, s)
  | _ + 1, _, usedSize, [], s => (usedSize, s)
  | fuel + 1, i, _, b :: rest, s =>
    if b = 0xA5 then
      match examine (b :: rest) with
      | .tooShort => (i, s)
      | .badLength => readDataParseLoop fuel (i + 1) i rest s
      -- the early return drops the same `used_size` bytes as the end of the function
      | .incomplete => (i, s)
      | .badTrailer => readDataParseLoop fuel (i + 1) i rest s
      | .badChecksum expectLen =>
        readDataParseLoop fuel (i + 10 + expectLen) (i + 10 + expectLen)
          (rest.drop (9 + expectLen)) s
      | .accepted expectLen frame =>
        readDataParseLoop fuel (i + 10 + expectLen) (i + 10 + expectLen)
          (rest.drop (9 + expectLen)) (dispatch s frame)
    else readDataParseLoop fuel (i + 1) i rest s

/-- `pcat_pmu_serial_read_data_parse` on a receive buffer. -/
def serialReadDataParse (buffer : List UInt8) (s : σ) : List UInt8 × σ :=
  if buffer.length < 13 then (buffer, s)
  else
    let (usedSize, s) := readDataParseLoop dispatch buffer.length 0 0 buffer s
    (if 0 < usedSize then buffer.drop usedSize else buffer, s)

/-- One turn of the `while` loop of `pcat_pmu_serial_read_watch_func`: append what was
read, trim an oversized buffer, parse. -/
def serialReadStep (buffer : List UInt8) (s : σ) (chunk : List UInt8) : List UInt8 × σ :=
  let buffer := buffer ++ chunk
  let buffer := if 131072 < buffer.length then buffer.drop (buffer.length - 65536) else buffer
  serialReadDataParse dispatch buffer s

end Parser

/-- What one `read` of `pcat_pmu_serial_read_watch_func` delivers when it delivers
anything: at least one byte and at most its 4096-byte buffer. -/
structure Read where
  bytes : List UInt8
  pos : 0 < bytes.length
  length_le : bytes.length ≤ 4096

/-- The parser run over successive reads. -/
def serialReadRun {σ : Type*} (dispatch : σ → Frame → σ) (buffer : List UInt8) (s : σ)
    (reads : List Read) : List UInt8 × σ :=
  reads.foldl (fun acc r => serialReadStep dispatch acc.1 acc.2 r.bytes) (buffer, s)

/-- The stream a list of reads delivers. -/
def streamOf (reads : List Read) : List UInt8 := (reads.map Read.bytes).flatten

/-- The frames dispatched when a list of reads reaches an empty buffer. -/
def dispatchedFrames (reads : List Read) : List Frame :=
  (serialReadRun (fun frames f => frames ++ [f]) [] [] reads).2

/-- The receive buffer a list of reads leaves when it starts empty. -/
def bufferAfter (reads : List Read) : List UInt8 :=
  (serialReadRun (fun frames f => frames ++ [f]) [] ([] : List Frame) reads).1

/-- A buffer without its leading bytes other than the start byte. -/
def stripLeading (buffer : List UInt8) : List UInt8 := buffer.dropWhile (· ≠ 0xA5)

/-- The parser's decision at a stream position. -/
def decideFrame : List UInt8 → Option (ℕ × Option Frame)
  | [] => none
  | b :: rest =>
    if b = 0xA5 then
      match examine (b :: rest) with
      | .tooShort => none
      | .badLength => some (1, none)
      | .incomplete => none
      | .badTrailer => some (1, none)
      | .badChecksum expectLen => some (10 + expectLen, none)
      | .accepted expectLen frame => some (10 + expectLen, some frame)
    else some (1, none)

theorem decideFrame_skip {b : UInt8} (hb : b ≠ 0xA5) (rest : List UInt8) :
    decideFrame (b :: rest) = some (1, none) := by
  simp [decideFrame, hb]

theorem decideFrame_bounds {p : List UInt8} {n : ℕ} {v : Option Frame}
    (h : decideFrame p = some (n, v)) : 0 < n ∧ n ≤ p.length := by
  cases p with
  | nil => simp [decideFrame] at h
  | cons b rest =>
    by_cases hb : b = 0xA5
    · have hcases := examine_cases (b :: rest)
      simp only [decideFrame, hb, if_true] at h hcases
      rcases hcases with ⟨-, he⟩ | ⟨h13, -, he⟩ | ⟨-, -, -, he⟩ | ⟨hlen, hrem, he | he | he⟩ <;>
        simp only [he, reduceCtorEq, Option.some.injEq, Prod.mk.injEq] at h
      all_goals
        obtain ⟨rfl, -⟩ := h
        simp only [List.length_cons] at *
        omega
    · rw [decideFrame_skip hb] at h
      obtain ⟨rfl, -⟩ := Prod.mk.inj (Option.some.inj h)
      simp

theorem decideFrame_append {p : List UInt8} {n : ℕ} {v : Option Frame}
    (h : decideFrame p = some (n, v)) (q : List UInt8) : decideFrame (p ++ q) = some (n, v) := by
  cases p with
  | nil => simp [decideFrame] at h
  | cons b rest =>
    by_cases hb : b = 0xA5
    · have hshort : examine (b :: rest) ≠ .tooShort := by
        intro he
        simp [decideFrame, hb ▸ he, hb] at h
      have hinc : examine (b :: rest) ≠ .incomplete := by
        intro he
        simp [decideFrame, hb ▸ he, hb] at h
      have hsame := examine_append hshort hinc q
      rw [List.cons_append] at hsame ⊢
      simp only [decideFrame, hsame]
      exact h
    · rw [decideFrame_skip hb] at h
      rw [List.cons_append, decideFrame_skip hb, h]

/-- The parser as a prefix-stable scanner. -/
def frameScanner : Scanner UInt8 Frame where
  decide := decideFrame
  decide_pos h := (decideFrame_bounds h).1
  decide_le h := (decideFrame_bounds h).2
  decide_append := decideFrame_append

theorem frameScanner_skip {b : UInt8} (hb : b ≠ 0xA5) (rest : List UInt8) :
    frameScanner.decide (b :: rest) = some (1, none) := decideFrame_skip hb rest

theorem values_skip {b : UInt8} (hb : b ≠ 0xA5) (rest : List UInt8) :
    frameScanner.values (b :: rest) = frameScanner.values rest := by
  rw [frameScanner.values_step (frameScanner_skip hb rest)]
  simp

theorem rest_skip {b : UInt8} (hb : b ≠ 0xA5) (rest : List UInt8) :
    frameScanner.rest (b :: rest) = frameScanner.rest rest := by
  rw [frameScanner.rest_step (frameScanner_skip hb rest)]
  simp

theorem values_nil : frameScanner.values [] = [] := frameScanner.values_wait rfl

theorem rest_nil : frameScanner.rest [] = [] := frameScanner.rest_wait rfl

theorem values_stripLeading (p : List UInt8) :
    frameScanner.values (stripLeading p) = frameScanner.values p := by
  induction p with
  | nil => rfl
  | cons b rest ih =>
    by_cases hb : b = 0xA5
    · simp [stripLeading, hb]
    · rw [values_skip hb, ← ih]
      simp [stripLeading, hb]

theorem rest_stripLeading (p : List UInt8) :
    frameScanner.rest (stripLeading p) = frameScanner.rest p := by
  induction p with
  | nil => rfl
  | cons b rest ih =>
    by_cases hb : b = 0xA5
    · simp [stripLeading, hb]
    · rw [rest_skip hb, ← ih]
      simp [stripLeading, hb]

theorem stripLeading_append_of_garbage {q : List UInt8} (hq : ∀ b ∈ q, b ≠ 0xA5)
    (p : List UInt8) : stripLeading (q ++ p) = stripLeading p := by
  induction q with
  | nil => rfl
  | cons b q ih =>
    have hb : b ≠ 0xA5 := hq b List.mem_cons_self
    rw [List.cons_append, ← ih (fun c hc => hq c (List.mem_cons_of_mem b hc))]
    simp [stripLeading, hb]

theorem stripLeading_garbage {q : List UInt8} (hq : ∀ b ∈ q, b ≠ 0xA5) : stripLeading q = [] := by
  simpa [stripLeading] using stripLeading_append_of_garbage hq []

theorem eq_startByte_of_stripLeading {p rest : List UInt8} {b : UInt8}
    (h : stripLeading p = b :: rest) : b = 0xA5 := by
  induction p with
  | nil => simp [stripLeading] at h
  | cons c p ih =>
    by_cases hc : c = 0xA5
    · have : c :: p = b :: rest := by simpa [stripLeading, hc] using h
      rw [← hc, (List.cons.inj this).1]
    · exact ih (by simpa [stripLeading, hc] using h)

theorem exists_garbage_append_stripLeading (p : List UInt8) :
    ∃ q, (∀ b ∈ q, b ≠ 0xA5) ∧ p = q ++ stripLeading p := by
  refine ⟨p.takeWhile (· ≠ 0xA5), ?_, (List.takeWhile_append_dropWhile).symm⟩
  intro b hb
  simpa using List.mem_takeWhile_imp hb

section Refinement
variable {σ : Type*} (dispatch : σ → Frame → σ)

/-- How far the walk gets does not depend on what is done with the frames. -/
theorem usedSize_readDataParseLoop {τ : Type*} (dispatch' : τ → Frame → τ) (fuel i usedSize : ℕ)
    (p : List UInt8) (s : σ) (s' : τ) :
    (readDataParseLoop dispatch fuel i usedSize p s).1 =
      (readDataParseLoop dispatch' fuel i usedSize p s').1 := by
  induction fuel generalizing i usedSize p s s' with
  | zero => rfl
  | succ fuel ih =>
    cases p with
    | nil => rfl
    | cons b rest =>
      rw [readDataParseLoop, readDataParseLoop]
      split
      · cases examine (b :: rest) with
        | tooShort => rfl
        | badLength => exact ih _ _ _ _ _
        | incomplete => rfl
        | badTrailer => exact ih _ _ _ _ _
        | badChecksum expectLen => exact ih _ _ _ _ _
        | accepted expectLen frame => exact ih _ _ _ _ _
      · exact ih _ _ _ _ _

theorem buffer_serialReadDataParse {τ : Type*} (dispatch' : τ → Frame → τ) (buffer : List UInt8)
    (s : σ) (s' : τ) :
    (serialReadDataParse dispatch buffer s).1 = (serialReadDataParse dispatch' buffer s').1 := by
  have hused := usedSize_readDataParseLoop dispatch dispatch' buffer.length 0 0 buffer s s'
  rw [serialReadDataParse, serialReadDataParse]
  by_cases hshort : buffer.length < 13
  · rw [if_pos hshort, if_pos hshort]
  · rw [if_neg hshort, if_neg hshort]
    dsimp only
    rw [hused]

theorem buffer_serialReadStep {τ : Type*} (dispatch' : τ → Frame → τ) (buffer chunk : List UInt8)
    (s : σ) (s' : τ) :
    (serialReadStep dispatch buffer s chunk).1 = (serialReadStep dispatch' buffer s' chunk).1 :=
  buffer_serialReadDataParse dispatch dispatch' _ s s'

/-- What the walk from `p` must deliver when `q` is the part of the buffer before it. -/
def WalkSpec (q p : List UInt8) (s : σ) (result : ℕ × σ) : Prop :=
  result.2 = (frameScanner.values p).foldl dispatch s ∧
    stripLeading ((q ++ p).drop result.1) = frameScanner.rest p ∧
    result.1 ≤ (q ++ p).length ∧
    ((q ++ p).drop result.1).length ≤ max 1 (frameScanner.rest p).length

/-- What the walk leaves behind itself: at most one byte, and no start byte. -/
def Passed (q : List UInt8) (usedSize : ℕ) : Prop :=
  (∀ b ∈ q.drop usedSize, b ≠ 0xA5) ∧ q.length ≤ usedSize + 1

theorem WalkSpec.end_of_buffer {q : List UInt8} {usedSize : ℕ} (hused : usedSize ≤ q.length)
    (hq : Passed q usedSize) (s : σ) : WalkSpec dispatch q [] s (usedSize, s) := by
  refine ⟨by simp [values_nil], ?_, by simpa using hused, ?_⟩
  · rw [List.append_nil, stripLeading_garbage hq.1, rest_nil]
  · rw [List.append_nil, List.length_drop]
    have := hq.2
    omega

theorem WalkSpec.wait {q p : List UInt8} (h : frameScanner.decide p = none) (s : σ) :
    WalkSpec dispatch q p s (q.length, s) := by
  refine ⟨by rw [frameScanner.values_wait h]; rfl, ?_, by simp, ?_⟩
  swap
  · rw [List.drop_left, frameScanner.rest_wait h]
    exact le_max_right _ _
  cases p with
  | nil => simp [rest_nil, stripLeading]
  | cons b rest =>
    have hb : b = 0xA5 := by
      by_contra hb
      simp [frameScanner_skip hb] at h
    rw [List.drop_left, frameScanner.rest_wait h]
    simp [stripLeading, hb]

theorem WalkSpec.step {q p : List UInt8} {n : ℕ} {v : Option Frame} {s : σ} {result : ℕ × σ}
    (h : frameScanner.decide p = some (n, v))
    (hnext : WalkSpec dispatch (q ++ p.take n) (p.drop n) (v.toList.foldl dispatch s) result) :
    WalkSpec dispatch q p s result := by
  obtain ⟨hstate, hkept, hle, hlen⟩ := hnext
  rw [List.append_assoc, List.take_append_drop] at hkept hle hlen
  refine ⟨?_, ?_, hle, ?_⟩
  · rw [hstate, frameScanner.values_step h, List.foldl_append]
  · rw [hkept, frameScanner.rest_step h]
  · rwa [frameScanner.rest_step h]

/-- The buffer walk dispatches what the scanner reports and keeps, after its leading
garbage, what the scanner leaves. The part `q` of the buffer has been walked over. -/
theorem readDataParseLoop_spec (fuel usedSize : ℕ) (q p : List UInt8) (s : σ)
    (hfuel : p.length ≤ fuel) (hused : usedSize ≤ q.length)
    (hq : Passed q usedSize ∨ p ≠ []) :
    WalkSpec dispatch q p s (readDataParseLoop dispatch fuel q.length usedSize p s) := by
  induction fuel generalizing usedSize q p s with
  | zero =>
    obtain rfl : p = [] := List.eq_nil_of_length_eq_zero (by omega)
    exact .end_of_buffer dispatch hused (hq.resolve_right (by simp)) s
  | succ fuel ih =>
    cases p with
    | nil => exact .end_of_buffer dispatch hused (hq.resolve_right (by simp)) s
    | cons b rest =>
      simp only [List.length_cons] at hfuel
      -- one byte is passed over: the walk goes on behind it with `used_size` at it
      have hskip (hdec : frameScanner.decide (b :: rest) = some (1, none))
          (hnext : b ≠ 0xA5 ∨ rest ≠ []) :
          WalkSpec dispatch q (b :: rest) s
            (readDataParseLoop dispatch fuel (q.length + 1) q.length rest s) := by
        apply WalkSpec.step dispatch hdec
        have := ih q.length (q ++ [b]) rest s (by omega) (by simp)
          (hnext.imp_left (by intro hb; simpa [Passed] using hb))
        simpa using this
      -- a whole extent is passed over
      have hframe (expectLen : ℕ) (v : Option Frame)
          (hdec : frameScanner.decide (b :: rest) = some (10 + expectLen, v))
          (hle : 10 + expectLen ≤ rest.length + 1) :
          WalkSpec dispatch q (b :: rest) s
            (readDataParseLoop dispatch fuel (q.length + 10 + expectLen)
              (q.length + 10 + expectLen) (rest.drop (9 + expectLen))
              (v.toList.foldl dispatch s)) := by
        apply WalkSpec.step dispatch hdec
        have hlen : (q ++ (b :: rest).take (10 + expectLen)).length =
            q.length + 10 + expectLen := by
          simp only [List.length_append, List.length_take, List.length_cons]
          omega
        have hdrop : (b :: rest).drop (10 + expectLen) = rest.drop (9 + expectLen) := by
          rw [show 10 + expectLen = 9 + expectLen + 1 by omega, List.drop_succ_cons]
        have := ih (q.length + 10 + expectLen) (q ++ (b :: rest).take (10 + expectLen))
          (rest.drop (9 + expectLen)) (v.toList.foldl dispatch s)
          (by rw [List.length_drop]; omega) hlen.ge
          (.inl ⟨by rw [List.drop_of_length_le hlen.le]; simp, by omega⟩)
        rw [hlen] at this
        rwa [hdrop]
      by_cases hb : b = 0xA5
      · subst hb
        have hdec : frameScanner.decide (0xA5 :: rest) = decideFrame (0xA5 :: rest) := rfl
        rcases examine_cases (0xA5 :: rest) with ⟨-, he⟩ | ⟨h13, -, he⟩ | ⟨-, -, -, he⟩ |
          ⟨-, hrem, he | he | he⟩ <;>
          simp only [readDataParseLoop, decideFrame, he, if_true] at hdec ⊢
        · exact .wait dispatch hdec s
        · exact hskip hdec (.inr (List.ne_nil_of_length_pos (by simp at h13; omega)))
        · exact .wait dispatch hdec s
        · exact hskip hdec (.inr (List.ne_nil_of_length_pos (by simp at hrem; omega)))
        · exact hframe _ none hdec (by simp at hrem; omega)
        · exact hframe _ (some _) hdec (by simp at hrem; omega)
      · simp only [readDataParseLoop, hb, if_false]
        exact hskip (frameScanner_skip hb rest) (.inl hb)

theorem length_le_of_wait {p : List UInt8} (h : frameScanner.decide p = none) :
    p.length ≤ 65541 := by
  cases p with
  | nil => simp
  | cons b rest =>
    by_cases hb : b = 0xA5
    · change decideFrame (b :: rest) = none at h
      simp only [decideFrame, hb, if_true] at h
      rcases examine_cases (0xA5 :: rest) with ⟨hlen, -⟩ | ⟨-, -, he⟩ | ⟨-, hlen, hrem, -⟩ |
        ⟨-, -, he | he | he⟩
      · simp only [List.length_cons] at hlen ⊢
        omega
      · simp [he] at h
      · simp only [List.length_cons] at hrem ⊢
        omega
      all_goals simp [he] at h
    · simp [frameScanner_skip hb] at h

theorem length_rest_le (p : List UInt8) : (frameScanner.rest p).length ≤ 65541 :=
  length_le_of_wait (frameScanner.drain_rest 0 p).1

/-- `pcat_pmu_serial_read_data_parse` dispatches what the scanner reports on the buffer,
and what it keeps is, after its leading garbage, what the scanner leaves. -/
theorem serialReadDataParse_spec (buffer : List UInt8) (s : σ) :
    (serialReadDataParse dispatch buffer s).2 =
      (frameScanner.values buffer).foldl dispatch s ∧
    stripLeading (serialReadDataParse dispatch buffer s).1 = frameScanner.rest buffer ∧
    (serialReadDataParse dispatch buffer s).1 <:+ buffer ∧
    (serialReadDataParse dispatch buffer s).1.length ≤ 65541 := by
  by_cases h13 : buffer.length < 13
  · have hwait : frameScanner.decide (stripLeading buffer) = none := by
      have hshort : (stripLeading buffer).length < 13 :=
        (List.dropWhile_suffix _).length_le.trans_lt h13
      cases hstrip : stripLeading buffer with
      | nil => rfl
      | cons b rest =>
        rw [hstrip] at hshort
        obtain rfl := eq_startByte_of_stripLeading hstrip
        simp [frameScanner, decideFrame, examine_short hshort]
    have hvalues : frameScanner.values buffer = [] := by
      rw [← values_stripLeading, frameScanner.values_wait hwait]
    have hrest : frameScanner.rest buffer = stripLeading buffer := by
      rw [← rest_stripLeading, frameScanner.rest_wait hwait]
    simp only [serialReadDataParse, h13, if_true, hvalues, hrest]
    exact ⟨rfl, trivial, List.suffix_refl _, by omega⟩
  · obtain ⟨hstate, hkept, -, hlen⟩ := readDataParseLoop_spec dispatch buffer.length 0 [] buffer
      s le_rfl le_rfl (.inr (List.ne_nil_of_length_pos (by omega)))
    rw [List.nil_append, List.length_nil] at hkept hlen
    have hdrop (n : ℕ) : (if 0 < n then buffer.drop n else buffer) = buffer.drop n := by
      cases n <;> simp
    simp only [serialReadDataParse, h13, if_false, hdrop]
    exact ⟨hstate, hkept, List.drop_suffix _ _,
      hlen.trans (max_le (by omega) (length_rest_le buffer))⟩

/-- One read, when the buffer is within the parser's own bound: nothing is trimmed. -/
theorem serialReadStep_spec (buffer : List UInt8) (s : σ) (r : Read)
    (hlen : buffer.length ≤ 65541) :
    (serialReadStep dispatch buffer s r.bytes).2 =
      (frameScanner.values (stripLeading buffer ++ r.bytes)).foldl dispatch s ∧
    stripLeading (serialReadStep dispatch buffer s r.bytes).1 =
      frameScanner.rest (stripLeading buffer ++ r.bytes) ∧
    (serialReadStep dispatch buffer s r.bytes).1.length ≤ 65541 := by
  obtain ⟨q, hq, hsplit⟩ := exists_garbage_append_stripLeading buffer
  have htrim : ¬131072 < (buffer ++ r.bytes).length := by
    have := r.length_le
    rw [List.length_append]
    omega
  obtain ⟨hstate, hkept, -, hle⟩ := serialReadDataParse_spec dispatch (buffer ++ r.bytes) s
  have hstrip : stripLeading (buffer ++ r.bytes) =
      stripLeading (stripLeading buffer ++ r.bytes) := by
    conv_lhs => rw [hsplit, List.append_assoc]
    exact stripLeading_append_of_garbage hq _
  rw [← values_stripLeading, hstrip, values_stripLeading] at hstate
  rw [← rest_stripLeading, hstrip, rest_stripLeading] at hkept
  simp only [serialReadStep, htrim, if_false]
  exact ⟨hstate, hkept, hle⟩

/-- The parser over successive reads refines the reader of a chunked stream: it keeps, after
its leading garbage, what the reader leaves, and dispatches what the reader reports. -/
theorem serialReadRun_feed (buffer : List UInt8) (s : σ) (reads : List Read)
    (hlen : buffer.length ≤ 65541) :
    (serialReadRun dispatch buffer s reads).2 =
      (frameScanner.feed (stripLeading buffer) (reads.map Read.bytes)).1.foldl dispatch s ∧
    stripLeading (serialReadRun dispatch buffer s reads).1 =
      (frameScanner.feed (stripLeading buffer) (reads.map Read.bytes)).2 := by
  induction reads generalizing buffer s with
  | nil => exact ⟨rfl, rfl⟩
  | cons r reads ih =>
    obtain ⟨hstate, hkept, hle⟩ := serialReadStep_spec dispatch buffer s r hlen
    obtain ⟨hstate', hkept'⟩ := ih _ (serialReadStep dispatch buffer s r.bytes).2 hle
    rw [List.map_cons, Scanner.feed, ← hkept]
    constructor
    · rw [List.foldl_append, ← hstate]
      exact hstate'
    · exact hkept'

/-- The parser over successive reads of a stream is the scanner on that stream. -/
theorem serialReadRun_spec (buffer : List UInt8) (s : σ) (reads : List Read)
    (hwait : frameScanner.decide (stripLeading buffer) = none)
    (hlen : buffer.length ≤ 65541) :
    (serialReadRun dispatch buffer s reads).2 =
      (frameScanner.values (stripLeading buffer ++ streamOf reads)).foldl dispatch s ∧
    stripLeading (serialReadRun dispatch buffer s reads).1 =
      frameScanner.rest (stripLeading buffer ++ streamOf reads) := by
  have h := serialReadRun_feed dispatch buffer s reads hlen
  rwa [frameScanner.feed_eq _ _ hwait] at h

end Refinement

theorem foldl_snoc {α : Type*} (init xs : List α) :
    xs.foldl (fun acc x => acc ++ [x]) init = init ++ xs := by
  induction xs generalizing init with
  | nil => simp
  | cons x xs ih => simp [ih]

/-- What is dispatched over a stream that starts on an empty buffer. -/
theorem dispatchedFrames_eq (reads : List Read) :
    dispatchedFrames reads = frameScanner.values (streamOf reads) := by
  have h := (serialReadRun_spec (fun frames f => frames ++ [f]) [] ([] : List Frame) reads rfl
    (by simp)).1
  rw [dispatchedFrames, h, foldl_snoc]
  simp [stripLeading]

theorem stripLeading_bufferAfter (reads : List Read) :
    stripLeading (bufferAfter reads) = frameScanner.rest (streamOf reads) :=
  (serialReadRun_spec (fun frames f => frames ++ [f]) [] ([] : List Frame) reads rfl
    (by simp)).2

end PcatManager.SerialReadParser
