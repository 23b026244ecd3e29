import PcatManager.DelimitedStream
import PcatManager.SerialReadParser

/-!
# The input side of the control socket

`pcat_controller_unix_socket_input_parse` takes the messages out of the input buffer of a
connection. What is done with a message is a parameter here. The walk over the buffer
refines the bounded reader of a stream whose segments end with a NUL byte.
-/

namespace PcatManager.ControlInput
open DelimitedStream SerialReadParser

section Parser
variable {σ : Type*} (handle : σ → List UInt8 → σ)

/-- The `for` loop of `pcat_controller_unix_socket_input_parse` from index `i` on, where
`rest` is what the buffer holds from there. Returns `used_size` and the state the handled
messages leave. -/
def inputParseLoop (data : List UInt8) :
    (rest : List UInt8) → (i usedSize start : ℕ) → σ → ℕ × σ
  | [], _, usedSize, _, s => (usedSize, s)
  | b :: rest, i, usedSize, start, s =>
    if b = 0 then
      let s := if usedSize < i then handle s ((data.drop start).take (i - usedSize)) else s
      inputParseLoop data rest (i + 1) (i + 1) (i + 1) s
    else inputParseLoop data rest (i + 1) usedSize start s

/-- `pcat_controller_unix_socket_input_parse` on an input buffer. -/
def inputParse (buffer : List UInt8) (s : σ) : List UInt8 × σ :=
  let (usedSize, s) := inputParseLoop handle buffer buffer 0 0 0 s
  (if 0 < usedSize then buffer.drop usedSize else buffer, s)

/-- One turn of the loop of `pcat_controller_unix_socket_input_watch_func`: trim an
oversized buffer, append what was read, parse. -/
def inputStep (buffer : List UInt8) (s : σ) (chunk : List UInt8) : List UInt8 × σ :=
  let buffer := if 2097152 < buffer.length then buffer.drop 1048576 else buffer
  inputParse handle (buffer ++ chunk) s

/-- The parser run over successive reads. -/
def inputRun (buffer : List UInt8) (s : σ) (reads : List Read) : List UInt8 × σ :=
  reads.foldl (fun acc r => inputStep handle acc.1 acc.2 r.bytes) (buffer, s)

/-- The loop in the middle of a buffer: `used` has been taken out, `pending` has no NUL. -/
theorem inputParseLoop_spec (used pending rest : List UInt8) (hpending : 0 ∉ pending) (s : σ) :
    inputParseLoop handle (used ++ pending ++ rest) rest (used.length + pending.length)
        used.length used.length s =
      ((used ++ pending ++ rest).length - (tail 0 (pending ++ rest)).length,
        (nonempty (segments 0 (pending ++ rest))).foldl handle s) := by
  induction rest generalizing used pending s with
  | nil =>
    simp only [inputParseLoop, List.append_nil, tail_of_notMem hpending,
      segments_of_notMem hpending, List.length_append, Nat.add_sub_cancel]
    rfl
  | cons b rest ih =>
    by_cases hb : b = 0
    · subst hb
      have htext : ((used ++ pending ++ 0 :: rest).drop used.length).take
          (used.length + pending.length - used.length) = pending := by
        rw [Nat.add_sub_cancel_left, List.append_assoc, List.drop_left, List.take_left]
      have hnext := ih (used ++ pending ++ [0]) [] (by simp)
        (if used.length < used.length + pending.length then handle s pending else s)
      simp only [List.append_assoc, List.length_append, List.length_singleton, List.length_nil,
        List.singleton_append, List.nil_append, Nat.add_zero] at hnext htext ⊢
      rw [inputParseLoop, if_pos rfl, htext, Nat.add_assoc, hnext, tail_append_cons hpending,
        segments_append_cons hpending]
      cases pending with
      | nil =>
        rw [nonempty_nil_cons, if_neg (by simp)]
      | cons c pending =>
        rw [nonempty_cons (by simp), if_pos (by simp)]
        rfl
    · have hmore : 0 ∉ pending ++ [b] := by
        rw [List.mem_append, List.mem_singleton, not_or]
        exact ⟨hpending, fun h => hb h.symm⟩
      have hnext := ih used (pending ++ [b]) hmore s
      simp only [List.append_assoc, List.length_append, List.length_singleton,
        List.singleton_append] at hnext ⊢
      rw [inputParseLoop, if_neg hb, Nat.add_assoc, hnext]

/-- The parser takes out the complete segments of the buffer, passes the non-empty ones on
and leaves the unterminated tail. -/
theorem inputParse_spec (buffer : List UInt8) (s : σ) :
    inputParse handle buffer s = (tail 0 buffer, (nonempty (segments 0 buffer)).foldl handle s) := by
  have hloop := inputParseLoop_spec handle [] [] buffer (by simp) s
  simp only [List.nil_append, List.length_nil] at hloop
  rw [inputParse, hloop]
  dsimp only
  rw [drop_segments]

/-- The parser over all reads is the bounded reader of the stream. -/
theorem inputRun_eq (buffer : List UInt8) (s : σ) (reads : List Read) :
    inputRun handle buffer s reads =
      ((boundedFeed 0 2097152 1048576 buffer (reads.map Read.bytes)).2,
        (nonempty (boundedFeed 0 2097152 1048576 buffer (reads.map Read.bytes)).1).foldl
          handle s) := by
  induction reads generalizing buffer s with
  | nil => rfl
  | cons r reads ih =>
    have hstep : inputStep handle buffer s r.bytes =
        (tail 0 (trimmed 2097152 1048576 buffer ++ r.bytes),
          (nonempty (segments 0 (trimmed 2097152 1048576 buffer ++ r.bytes))).foldl handle s) :=
      inputParse_spec handle _ s
    have hrun := ih (tail 0 (trimmed 2097152 1048576 buffer ++ r.bytes))
      ((nonempty (segments 0 (trimmed 2097152 1048576 buffer ++ r.bytes))).foldl handle s)
    rw [List.map_cons, boundedFeed, nonempty_append, List.foldl_append, ← hrun]
    exact congrArg (fun acc => inputRun handle acc.1 acc.2 reads) hstep

end Parser

/-- The texts handed to the JSON parser when a list of reads reaches an empty buffer. -/
def handedTexts (reads : List Read) : List (List UInt8) :=
  (inputRun (fun texts text => texts ++ [text]) [] [] reads).2

/-- The input buffer a list of reads leaves when it starts empty. -/
def inputBufferAfter (reads : List Read) : List UInt8 :=
  (inputRun (fun texts text => texts ++ [text]) [] ([] : List (List UInt8)) reads).1

theorem handedTexts_eq (reads : List Read) :
    handedTexts reads = nonempty (boundedFeed 0 2097152 1048576 [] (reads.map Read.bytes)).1 := by
  rw [handedTexts, inputRun_eq, foldl_snoc]
  rfl

/-- Whatever is done with the texts, it is done with the texts handed over, in their order,
and the buffer does not depend on it. -/
theorem inputRun_handedTexts {σ : Type*} (handle : σ → List UInt8 → σ) (s : σ)
    (reads : List Read) :
    inputRun handle [] s reads = (inputBufferAfter reads, (handedTexts reads).foldl handle s) := by
  rw [handedTexts_eq, inputBufferAfter, inputRun_eq, inputRun_eq]

/-- Segments within the limit come out of any split of the stream into reads as they are,
and the buffer holds the tail. -/
theorem texts_are_segments (reads : List Read)
    (hlimit : ∀ seg ∈ (streamOf reads).splitOn 0, seg.length ≤ 2097152) :
    handedTexts reads = ((streamOf reads).splitOn 0).dropLast.filter (· ≠ []) ∧
      inputBufferAfter reads =
        ((streamOf reads).splitOn 0).getLast (List.splitOn_ne_nil 0 (streamOf reads)) := by
  have hwithin : WithinLimit 0 2097152 [] (reads.map Read.bytes) := withinLimit_of_segments hlimit
  have hfeed : boundedFeed 0 2097152 1048576 [] (reads.map Read.bytes) =
      (segments 0 (streamOf reads), tail 0 (streamOf reads)) :=
    boundedFeed_eq List.not_mem_nil hwithin
  rw [handedTexts_eq, inputBufferAfter, inputRun_eq, hfeed]
  exact ⟨rfl, rfl⟩

/-- Three texts with an empty segment between them, the last one unterminated. -/
theorem texts_are_segments_split :
    handedTexts [⟨[97, 0, 0], by decide, by decide⟩, ⟨[98, 99, 0, 100], by decide, by decide⟩] =
        [[97], [98, 99]] ∧
      inputBufferAfter
        [⟨[97, 0, 0], by decide, by decide⟩, ⟨[98, 99, 0, 100], by decide, by decide⟩] = [100] := by
  have hlimit : ∀ seg ∈ (streamOf [⟨[97, 0, 0], by decide, by decide⟩,
      ⟨[98, 99, 0, 100], by decide, by decide⟩]).splitOn 0, seg.length ≤ 2097152 := by decide
  exact texts_are_segments _ hlimit

/-- Each text handed over is a segment of its own exactly when nothing ends a segment that
has outgrown the limit between two reads. -/
theorem texts_whole_iff (reads : List Read) :
    (handedTexts reads).Sublist (segments 0 (streamOf reads)) ↔
      ∀ before after, reads = before ++ after →
        2097152 < (tail 0 (streamOf before)).length → 0 ∉ streamOf after := by
  have hiff : (nonempty (boundedFeed 0 2097152 1048576 [] (reads.map Read.bytes)).1).Sublist
      (segments 0 (streamOf reads)) ↔ NoLongSegment 0 2097152 [] (reads.map Read.bytes) :=
    nonempty_boundedFeed_sublist_iff (by omega) (by omega) List.not_mem_nil
  rw [handedTexts_eq]
  refine hiff.trans ⟨fun h before after hreads hlong => ?_, fun h before after hreads hlong => ?_⟩
  · refine h (before.map Read.bytes) (after.map Read.bytes) ?_ hlong
    rw [hreads, List.map_append]
  · obtain ⟨before, after, rfl, rfl, rfl⟩ := List.map_eq_append_iff.mp hreads
    exact h before after rfl hlong

/-- A full read of the letter a. -/
def fullRead : Read where
  bytes := List.replicate 4096 97
  pos := by rw [List.length_replicate]; omega
  length_le := by rw [List.length_replicate]

theorem streamOf_replicate_fullRead (n : ℕ) :
    streamOf (List.replicate n fullRead) = List.replicate (n * 4096) 97 := by
  rw [streamOf, List.map_replicate]
  exact List.flatten_replicate_replicate

theorem notMem_replicate (n : ℕ) : (0 : UInt8) ∉ List.replicate n 97 := by
  intro h
  exact absurd (List.eq_of_mem_replicate h) (by decide)

/-- A message of 2101248 bytes in 513 full reads, and its NUL. -/
def longMessage : List Read :=
  List.replicate 513 fullRead ++ [⟨[0], by decide, by decide⟩]

theorem boundedFeed_fullReads :
    boundedFeed 0 2097152 1048576 [] ((List.replicate 513 fullRead).map Read.bytes) =
      ([], List.replicate 2101248 97) := by
  have hwithin : WithinLimit 0 2097152 [] ((List.replicate 513 fullRead).map Read.bytes) := by
    rintro before after hreads hafter
    rw [List.map_replicate, List.replicate_eq_append_iff] at hreads
    obtain ⟨hcount, hbefore, -⟩ := hreads
    have hpos := List.length_pos_iff.mpr hafter
    have hbytes : before.flatten = List.replicate (before.length * 4096) 97 := by
      rw [hbefore]
      exact List.flatten_replicate_replicate.trans (by rw [List.length_replicate])
    rw [List.nil_append, hbytes, tail_of_notMem (notMem_replicate _), List.length_replicate]
    omega
  have hstream : ((List.replicate 513 fullRead).map Read.bytes).flatten =
      List.replicate 2101248 97 := streamOf_replicate_fullRead 513
  rw [boundedFeed_eq (List.not_mem_nil) hwithin, hstream, List.nil_append,
    segments_of_notMem (notMem_replicate _), tail_of_notMem (notMem_replicate _)]

/-- Of the long message the last 1052672 bytes are handed over as if they were a message. -/
theorem fragment_handed :
    handedTexts longMessage = [List.replicate 1052672 97] ∧
      List.replicate 1052672 97 ∉ segments 0 (streamOf longMessage) := by
  have hkept : trimmed 2097152 1048576 (List.replicate 2101248 (97 : UInt8)) =
      List.replicate 1052672 97 := by
    rw [trimmed, List.length_replicate, if_pos (by omega), List.drop_replicate]
  constructor
  · rw [handedTexts_eq, longMessage, List.map_append, boundedFeed_append, boundedFeed_fullReads]
    simp only [List.map_cons, List.map_nil, boundedFeed, hkept, List.nil_append,
      segments_append_cons (notMem_replicate 1052672)]
    rfl
  · have hstream : streamOf longMessage = List.replicate 2101248 97 ++ [0] := by
      rw [streamOf, longMessage, List.map_append, List.flatten_append]
      exact congrArg (· ++ [0]) (streamOf_replicate_fullRead 513)
    rw [hstream, segments_append_cons (notMem_replicate _)]
    intro hmem
    have hlen := congrArg List.length (List.mem_singleton.mp hmem)
    rw [List.length_replicate, List.length_replicate] at hlen
    omega

end PcatManager.ControlInput
