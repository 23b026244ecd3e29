import PcatManager.DelimitedStream
import PcatManager.ModemManager

/-!
# The lines of the dialer's output

The parser of the dialer's output takes the start of the first line before it appends what
was read, and the append may move the text. All other lines are the lines of the stream,
whatever the reads.
-/

namespace PcatManager
open DelimitedStream SerialReadParser

/-- The lines handed on, where the first one is read at an address the text was moved from. -/
def handedLines (stale : Option (List UInt8)) (lines : List (List UInt8)) : List (List UInt8) :=
  match stale, lines with
  | some old, _ :: lines => old.takeWhile (· ≠ 0) :: lines
  | _, lines => lines

@[simp] theorem handedLines_nil (stale : Option (List UInt8)) : handedLines stale [] = [] := by
  cases stale <;> rfl

@[simp] theorem handedLines_none (lines : List (List UInt8)) : handedLines none lines = lines := rfl

theorem handedLines_cons (stale : Option (List UInt8)) (line : List UInt8)
    (lines : List (List UInt8)) :
    handedLines stale (line :: lines) = (stale.map (·.takeWhile (· ≠ 0))).getD line :: lines := by
  cases stale <;> rfl

theorem length_handedLines (stale : Option (List UInt8)) (lines : List (List UInt8)) :
    (handedLines stale lines).length = lines.length := by
  cases lines with
  | nil => rw [handedLines_nil]
  | cons line lines => rw [handedLines_cons, List.length_cons, List.length_cons]

theorem takeWhile_of_notMem {line : List UInt8} (h : 0 ∉ line) : line.takeWhile (· ≠ 0) = line := by
  rw [List.takeWhile_eq_self_iff]
  intro b hb
  exact decide_eq_true fun hzero => h (hzero ▸ hb)

/-- The loop in the middle of a buffer without NUL bytes: `used` has been taken out, `pending`
has no newline. -/
theorem lineParserLoop_spec {σ : Type*} (parse : σ → List UInt8 → Option σ)
    (used pending rest : List UInt8) (hpending : 10 ∉ pending) (hzero : 0 ∉ pending ++ rest)
    (stale : Option (List UInt8)) (s : σ) :
    lineParserLoop parse (used ++ pending ++ rest) rest (used.length + pending.length)
        used.length used.length stale s =
      ((handedLines stale (segments 10 (pending ++ rest))).foldlM parse s).map fun s =>
        ((used ++ pending ++ rest).length - (tail 10 (pending ++ rest)).length, s) := by
  induction rest generalizing used pending stale s with
  | nil =>
    simp only [lineParserLoop, List.append_nil, tail_of_notMem hpending,
      segments_of_notMem hpending, List.length_append, Nat.add_sub_cancel, handedLines_nil]
    rfl
  | cons b rest ih =>
    by_cases hb : b = 10
    · subst hb
      have htext : ((used ++ pending ++ 10 :: rest).drop used.length).take
          (used.length + pending.length - used.length) = pending := by
        rw [Nat.add_sub_cancel_left, List.append_assoc, List.drop_left, List.take_left]
      rw [List.mem_append, List.mem_cons, not_or, not_or] at hzero
      have hline : (stale.getD pending).takeWhile (· ≠ 0) =
          (stale.map (·.takeWhile (· ≠ 0))).getD pending := by
        cases stale with
        | none => exact takeWhile_of_notMem hzero.1
        | some old => rfl
      rw [lineParserLoop, if_pos rfl]
      dsimp only
      rw [htext, hline, segments_append_cons hpending, tail_append_cons hpending,
        handedLines_cons, List.foldlM_cons]
      cases parse s ((stale.map (·.takeWhile (· ≠ 0))).getD pending) with
      | none => rfl
      | some s' =>
        have hnext := ih (used ++ pending ++ [10]) [] List.not_mem_nil hzero.2.2 none s'
        simp only [List.append_assoc, List.length_append, List.length_singleton, List.length_nil,
          List.singleton_append, List.nil_append, Nat.add_zero, handedLines_none] at hnext ⊢
        rw [Option.bind_some, Nat.add_assoc, hnext]
        rfl
    · have hmore : 10 ∉ pending ++ [b] := by
        rw [List.mem_append, List.mem_singleton, not_or]
        exact ⟨hpending, fun h => hb h.symm⟩
      have hnext := ih used (pending ++ [b]) hmore (by simpa using hzero) stale s
      simp only [List.append_assoc, List.length_append, List.length_singleton,
        List.singleton_append] at hnext ⊢
      rw [lineParserLoop, if_neg hb, Nat.add_assoc, hnext]

namespace ModemManagerData

/-- The line makes the parser look up the mode of a `SIGNALINFO` without a `MODE`. -/
def Crashes (line : List UInt8) : Prop :=
  fieldValue (lineFields line) "CMD" = some (utf8Bytes "SIGNALINFO") ∧
    fieldValue (lineFields line) "MODE" = none

instance (line : List UInt8) : Decidable (Crashes line) := inferInstanceAs (Decidable (_ ∧ _))

theorem isSome_parseLine_iff (now : ℤ) (s : ModemManagerData × Bool) (line : List UInt8) :
    (parseLine now s line).isSome ↔ ¬Crashes line := by
  rw [parseLine, Crashes, not_and]
  split
  · rename_i hcmd
    rw [signalInfo, Option.isSome_map, ← Option.ne_none_iff_isSome]
    exact ⟨fun h _ => h, fun h => h hcmd⟩
  · rename_i hcmd
    refine iff_of_true ?_ fun h => absurd h hcmd
    split
    · rfl
    · split <;> rfl

/-- A line as the parser handles it, which is also noted. -/
def noteLine (now : ℤ) (s : (ModemManagerData × Bool) × List (List UInt8)) (line : List UInt8) :
    Option ((ModemManagerData × Bool) × List (List UInt8)) :=
  (parseLine now s.1 line).map fun s' => (s', s.2 ++ [line])

/-- `lineParser` with a second result, the lines that have been split into fields so far. -/
def notedParser (s : ModemManagerData × List (List UInt8)) (now : ℤ) (stale : Option (List UInt8))
    (chunk : List UInt8) : Option (ModemManagerData × List (List UInt8)) :=
  let str := s.1.externalControlExecStdoutBuffer ++ chunk
  let str := if 1048576 < str.length then [] else str
  (lineParserLoop (noteLine now) str str 0 0 0 stale ((s.1, false), s.2)).map fun r =>
    ({ r.2.1.1 with
      externalControlExecStdoutBuffer := if 0 < r.1 then str.drop r.1 else str }, r.2.2)

theorem lineParserLoop_noteLine (now : ℤ) (str rest : List UInt8) (i usedSize start : ℕ)
    (stale : Option (List UInt8)) (s : ModemManagerData × Bool) (lines : List (List UInt8)) :
    (lineParserLoop (noteLine now) str rest i usedSize start stale (s, lines)).map
        (fun r => (r.1, r.2.1)) =
      lineParserLoop (parseLine now) str rest i usedSize start stale s := by
  induction rest generalizing i usedSize start stale s lines with
  | nil => rfl
  | cons b rest ih =>
    rw [lineParserLoop, lineParserLoop]
    split
    · dsimp only
      rw [noteLine]
      cases parseLine now s _ with
      | none => rfl
      | some s' => exact ih _ _ _ _ _ _
    · exact ih _ _ _ _ _ _

theorem notedParser_fst (mm : ModemManagerData) (lines : List (List UInt8)) (now : ℤ)
    (stale : Option (List UInt8)) (chunk : List UInt8) :
    (notedParser (mm, lines) now stale chunk).map Prod.fst = mm.lineParser now stale chunk := by
  rw [notedParser, lineParser]
  dsimp only
  rw [← lineParserLoop_noteLine now _ _ 0 0 0 stale (mm, false) lines, Option.map_map,
    Option.map_map]
  rfl

theorem foldlM_noteLine (now : ℤ) (handed : List (List UInt8)) (s : ModemManagerData × Bool)
    (lines : List (List UInt8)) :
    handed.foldlM (noteLine now) (s, lines) =
      (handed.foldlM (parseLine now) s).map fun s' => (s', lines ++ handed) := by
  induction handed generalizing s lines with
  | nil => simp
  | cons line handed ih =>
    rw [List.foldlM_cons, List.foldlM_cons, noteLine]
    cases parseLine now s line with
    | none => rfl
    | some s' =>
      have hrest := ih s' (lines ++ [line])
      rw [List.append_assoc, List.singleton_append] at hrest
      exact hrest

theorem isSome_foldlM_parseLine (now : ℤ) (handed : List (List UInt8))
    (s : ModemManagerData × Bool) :
    (handed.foldlM (parseLine now) s).isSome ↔ ∀ line ∈ handed, ¬Crashes line := by
  induction handed generalizing s with
  | nil => simp
  | cons line handed ih =>
    rw [List.foldlM_cons, List.forall_mem_cons, ← isSome_parseLine_iff now s line]
    cases parseLine now s line with
    | none => simp
    | some s' => simpa using ih s'

/-- One read on a buffer within the limit: the lines it completes are handed on, and the
buffer keeps what follows the last newline. -/
theorem notedParser_spec (mm : ModemManagerData) (lines : List (List UInt8)) (now : ℤ)
    (stale : Option (List UInt8)) {chunk : List UInt8}
    (hlength : (mm.externalControlExecStdoutBuffer ++ chunk).length ≤ 1048576)
    (hzero : 0 ∉ mm.externalControlExecStdoutBuffer ++ chunk) :
    notedParser (mm, lines) now stale chunk =
      ((handedLines stale (segments 10 (mm.externalControlExecStdoutBuffer ++ chunk))).foldlM
        (parseLine now) (mm, false)).map fun s =>
          ({ s.1 with
            externalControlExecStdoutBuffer := tail 10 (mm.externalControlExecStdoutBuffer ++ chunk) },
            lines ++ handedLines stale (segments 10 (mm.externalControlExecStdoutBuffer ++ chunk))) := by
  rw [notedParser]
  dsimp only
  rw [if_neg (Nat.not_lt.mpr hlength)]
  generalize mm.externalControlExecStdoutBuffer ++ chunk = str at hzero ⊢
  have hloop := lineParserLoop_spec (noteLine now) [] [] str List.not_mem_nil hzero stale
    ((mm, false), lines)
  simp only [List.nil_append, List.length_nil, Nat.add_zero] at hloop
  rw [hloop, foldlM_noteLine, Option.map_map, Option.map_map]
  have hkept := drop_segments (d := (10 : UInt8)) str
  generalize str.length - (tail 10 str).length = used at hkept ⊢
  rw [← hkept]
  rfl

theorem lineParser_spec (mm : ModemManagerData) (now : ℤ) (stale : Option (List UInt8))
    {chunk : List UInt8}
    (hlength : (mm.externalControlExecStdoutBuffer ++ chunk).length ≤ 1048576)
    (hzero : 0 ∉ mm.externalControlExecStdoutBuffer ++ chunk) :
    mm.lineParser now stale chunk =
      ((handedLines stale (segments 10 (mm.externalControlExecStdoutBuffer ++ chunk))).foldlM
        (parseLine now) (mm, false)).map fun s =>
          { s.1 with
            externalControlExecStdoutBuffer :=
              tail 10 (mm.externalControlExecStdoutBuffer ++ chunk) } := by
  rw [← notedParser_fst mm [] now stale chunk, notedParser_spec mm [] now stale hlength hzero,
    Option.map_map]
  rfl

end ModemManagerData

/-- A read of the dialer's output, the time of its callback and, if the append has moved the
text, what is read at its old address. -/
structure DialerRead where
  now : ℤ
  stale : Option (List UInt8)
  chunk : Read

/-- The stream that the reads deliver. -/
def dialerStream (reads : List DialerRead) : List UInt8 := streamOf (reads.map DialerRead.chunk)

theorem dialerStream_cons (r : DialerRead) (reads : List DialerRead) :
    dialerStream (r :: reads) = r.chunk.bytes ++ dialerStream reads := rfl

/-- The lines handed on by successive reads, where `left` is in the buffer before. -/
def handedOver : (left : List UInt8) → List DialerRead → List (List UInt8)
  | _, [] => []
  | left, r :: reads =>
    handedLines r.stale (segments 10 (left ++ r.chunk.bytes)) ++
      handedOver (tail 10 (left ++ r.chunk.bytes)) reads

/-- Whenever a read with a newline makes the append move the text, its old address still
shows the first line that the read completes. -/
def FirstLinesIntact (left : List UInt8) (reads : List DialerRead) : Prop :=
  ∀ before r after, reads = before ++ r :: after → 10 ∈ r.chunk.bytes → ∀ old ∈ r.stale,
    old.takeWhile (· ≠ 0) =
      tail 10 (left ++ dialerStream before) ++ r.chunk.bytes.takeWhile (· ≠ 10)

theorem firstLinesIntact_cons {left : List UInt8} (hleft : 10 ∉ left) (r : DialerRead)
    (reads : List DialerRead) :
    FirstLinesIntact left (r :: reads) ↔
      (10 ∈ r.chunk.bytes → ∀ old ∈ r.stale,
        old.takeWhile (· ≠ 0) = left ++ r.chunk.bytes.takeWhile (· ≠ 10)) ∧
      FirstLinesIntact (tail 10 (left ++ r.chunk.bytes)) reads := by
  have htail (before : List DialerRead) : tail 10 (left ++ dialerStream (r :: before)) =
      tail 10 (tail 10 (left ++ r.chunk.bytes) ++ dialerStream before) := by
    rw [dialerStream_cons, ← List.append_assoc, tail_append]
  have hstart : tail 10 (left ++ dialerStream []) = left := by
    rw [dialerStream, List.map_nil]
    exact (congrArg (tail 10) (List.append_nil left)).trans (tail_of_notMem hleft)
  constructor
  · intro h
    refine ⟨fun hd old hold => ?_, fun before r' after hreads hd old hold => ?_⟩
    · rw [h [] r reads rfl hd old hold, hstart]
    · rw [h (r :: before) r' after (by rw [hreads, List.cons_append]) hd old hold, htail]
  · rintro ⟨hfirst, hrest⟩ before r' after hreads hd old hold
    cases before with
    | nil =>
      obtain ⟨rfl, -⟩ := List.cons.inj hreads
      rw [hstart]
      exact hfirst hd old hold
    | cons r'' before =>
      obtain ⟨rfl, hlater⟩ := List.cons.inj hreads
      rw [htail]
      exact hrest before r' after hlater hd old hold

/-- A read hands on the lines it completes exactly when it finds the first of them. -/
theorem handedLines_eq_iff (stale : Option (List UInt8)) {left chunk : List UInt8}
    (hleft : 10 ∉ left) :
    handedLines stale (segments 10 (left ++ chunk)) = segments 10 (left ++ chunk) ↔
      (10 ∈ chunk → ∀ old ∈ stale,
        old.takeWhile (· ≠ 0) = left ++ chunk.takeWhile (· ≠ 10)) := by
  by_cases hd : 10 ∈ chunk
  · obtain ⟨seg, rest, hseg, rfl⟩ := exists_first_delimiter hd
    have hother : ∀ b ∈ seg, decide (b ≠ 10) = true := by
      intro b hb
      exact decide_eq_true fun hten => hseg (hten ▸ hb)
    have hbegin : (seg ++ 10 :: rest).takeWhile (· ≠ 10) = seg := by
      rw [List.takeWhile_append_of_pos hother]
      simp
    rw [((Keeps.refl hleft).first_segment hseg rest).1, handedLines_cons, hbegin]
    cases stale with
    | none => simp
    | some old => simp
  · have hnone : 10 ∉ left ++ chunk := by
      rw [List.mem_append, not_or]
      exact ⟨hleft, hd⟩
    rw [segments_of_notMem hnone, handedLines_nil]
    exact iff_of_true rfl fun h => absurd h hd

/-- What is handed on over all reads are the lines of the stream exactly when every read
finds the first line it completes. -/
theorem handedOver_eq_iff {left : List UInt8} (hleft : 10 ∉ left) (reads : List DialerRead) :
    handedOver left reads = segments 10 (left ++ dialerStream reads) ↔
      FirstLinesIntact left reads := by
  induction reads generalizing left with
  | nil =>
    refine iff_of_true ?_ fun before r after hreads => ?_
    · exact (segments_of_notMem ((List.append_nil left).symm ▸ hleft)).symm
    · exact absurd hreads (by simp)
  | cons r reads ih =>
    rw [firstLinesIntact_cons hleft, ← handedLines_eq_iff r.stale hleft, ← ih (notMem_tail _),
      handedOver, dialerStream_cons, ← List.append_assoc, segments_append (left ++ r.chunk.bytes)]
    constructor
    · intro h
      exact List.append_inj h (length_handedLines _ _)
    · rintro ⟨hfirst, hrest⟩
      rw [hfirst, hrest]

open ModemManagerData

/-- The parser over successive reads, and the lines it has split into fields. -/
def dialerRun (s : ModemManagerData × List (List UInt8)) (reads : List DialerRead) :
    Option (ModemManagerData × List (List UInt8)) :=
  reads.foldlM (fun s r => notedParser s r.now r.stale r.chunk.bytes) s

/-- Lines within the limit are handed on until one of them crashes the program. -/
theorem dialerRun_spec (reads : List DialerRead) (mm : ModemManagerData)
    (lines : List (List UInt8)) (hnewline : 10 ∉ mm.externalControlExecStdoutBuffer)
    (hzero : 0 ∉ mm.externalControlExecStdoutBuffer ++ dialerStream reads)
    (hlimit : WithinLimit 10 1044480 mm.externalControlExecStdoutBuffer
      (reads.map fun r => r.chunk.bytes)) :
    ((dialerRun (mm, lines) reads).isSome ↔
      ∀ line ∈ handedOver mm.externalControlExecStdoutBuffer reads, ¬Crashes line) ∧
    ∀ s' ∈ dialerRun (mm, lines) reads,
      s'.2 = lines ++ handedOver mm.externalControlExecStdoutBuffer reads ∧
        s'.1.externalControlExecStdoutBuffer =
          tail 10 (mm.externalControlExecStdoutBuffer ++ dialerStream reads) := by
  induction reads generalizing mm lines with
  | nil =>
    refine ⟨iff_of_true rfl (by simp [handedOver]), fun s' hs' => ?_⟩
    cases hs'
    refine ⟨(List.append_nil _).symm, ?_⟩
    exact ((congrArg (tail 10) (List.append_nil _)).trans (tail_of_notMem hnewline)).symm
  | cons r reads ih =>
    have hlength : (mm.externalControlExecStdoutBuffer ++ r.chunk.bytes).length ≤ 1048576 := by
      have hpending := hlimit.left_le hnewline
      have hchunk := r.chunk.length_le
      rw [List.length_append]
      omega
    rw [dialerStream_cons, ← List.append_assoc] at hzero ⊢
    rw [List.mem_append, not_or] at hzero
    have hread := notedParser_spec mm lines r.now r.stale hlength hzero.1
    have hcrash := isSome_foldlM_parseLine r.now
      (handedLines r.stale (segments 10 (mm.externalControlExecStdoutBuffer ++ r.chunk.bytes)))
      (mm, false)
    rw [dialerRun, List.foldlM_cons, hread, handedOver, List.forall_mem_append, ← hcrash,
      tail_append (mm.externalControlExecStdoutBuffer ++ r.chunk.bytes)]
    cases hs₁ : List.foldlM (parseLine r.now) (mm, false)
        (handedLines r.stale (segments 10 (mm.externalControlExecStdoutBuffer ++ r.chunk.bytes))) with
    | none => exact ⟨by simp, fun s' hs' => absurd hs' (by simp)⟩
    | some s₁ =>
      have hlater := ih
        { s₁.1 with
          externalControlExecStdoutBuffer :=
            tail 10 (mm.externalControlExecStdoutBuffer ++ r.chunk.bytes) }
        (lines ++ handedLines r.stale
          (segments 10 (mm.externalControlExecStdoutBuffer ++ r.chunk.bytes)))
        (notMem_tail _) ?_ hlimit.step
      · refine ⟨hlater.1.trans (by simp), fun s' hs' => ?_⟩
        obtain ⟨hlines, hbuffer⟩ := hlater.2 s' hs'
        exact ⟨by rw [hlines, List.append_assoc], hbuffer⟩
      · intro hmem
        rcases List.mem_append.mp hmem with hmem | hmem
        · exact hzero.1 ((tail_isSuffix _).subset hmem)
        · exact hzero.2 hmem

/-- On a buffer that starts empty, the lines split into fields over all reads are the
terminated lines of the stream, and the buffer finally holds the unterminated tail. -/
def SplitsExactly (mm : ModemManagerData) (reads : List DialerRead) : Prop :=
  ∃ mm' : ModemManagerData,
    dialerRun ({ mm with externalControlExecStdoutBuffer := [] }, []) reads =
      some (mm', segments 10 (dialerStream reads)) ∧
    mm'.externalControlExecStdoutBuffer = tail 10 (dialerStream reads)

/-- A stream of lines within the limit is split exactly when no line crashes the program and
every first line of a moved text is still to be read at its old address. -/
theorem splits_exactly_iff (mm : ModemManagerData) (reads : List DialerRead)
    (hzero : 0 ∉ dialerStream reads)
    (hlimit : ∀ line ∈ (dialerStream reads).splitOn 10, line.length ≤ 1044480) :
    SplitsExactly mm reads ↔
      FirstLinesIntact [] reads ∧ ∀ line ∈ segments 10 (dialerStream reads), ¬Crashes line := by
  have hstream : dialerStream reads = (reads.map fun r => r.chunk.bytes).flatten := by
    rw [dialerStream, streamOf, List.map_map]
    rfl
  rw [hstream] at hlimit
  obtain ⟨hsome, hresult⟩ := dialerRun_spec reads { mm with externalControlExecStdoutBuffer := [] }
    [] List.not_mem_nil hzero (withinLimit_of_segments hlimit)
  have hintact := handedOver_eq_iff List.not_mem_nil reads
  rw [List.nil_append] at hintact
  constructor
  · rintro ⟨mm', hrun, -⟩
    have hlines : segments 10 (dialerStream reads) = handedOver [] reads :=
      (hresult _ hrun).1.trans (List.nil_append _)
    refine ⟨hintact.mp hlines.symm, ?_⟩
    rw [hlines]
    exact hsome.mp (Option.isSome_of_eq_some hrun)
  · rintro ⟨hfirst, hcrash⟩
    have hlines := hintact.mpr hfirst
    rw [← hlines] at hcrash
    obtain ⟨⟨mm', lines⟩, hrun⟩ := Option.isSome_iff_exists.mp (hsome.mpr hcrash)
    obtain ⟨hnoted, hbuffer⟩ := hresult _ hrun
    have hall : lines = segments 10 (dialerStream reads) :=
      hnoted.trans ((List.nil_append _).trans hlines)
    exact ⟨mm', hall ▸ hrun, hbuffer⟩

/-- A line cut by two reads, the second of which moves the text and leaves it as it was. -/
theorem splits_exactly_moved :
    SplitsExactly {}
      [⟨0, none, ⟨[97, 10, 98], by decide, by decide⟩⟩,
        ⟨0, some [98, 99, 0], ⟨[99, 10, 100], by decide, by decide⟩⟩] := by
  refine (splits_exactly_iff {} _ (by decide) (by decide)).mpr ⟨?_, by decide +kernel⟩
  exact (handedOver_eq_iff List.not_mem_nil _).mp (by decide)

/-- The first read is longer than the memory the buffer starts with, and nothing is left at
the old address of the text. -/
def movedRead : List DialerRead :=
  [⟨0, some [], ⟨List.replicate 64 97 ++ [10], by decide, by decide⟩⟩]

/-- The line that is split into fields is not the line that was read. -/
theorem moved_line_lost :
    0 ∉ dialerStream movedRead ∧
      (∀ line ∈ (dialerStream movedRead).splitOn 10, line.length ≤ 1044480) ∧
      ¬SplitsExactly {} movedRead := by
  refine ⟨by decide, by decide +kernel, ?_⟩
  rintro ⟨mm', hrun, -⟩
  have hlines : (dialerRun ({}, []) movedRead).map Prod.snd = some [[]] := by decide +kernel
  have hnoted : some (segments 10 (dialerStream movedRead)) = some [[]] :=
    (congrArg (Option.map Prod.snd) hrun).symm.trans hlines
  exact absurd hnoted (by decide +kernel)

end PcatManager
