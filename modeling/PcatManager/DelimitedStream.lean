import Mathlib.Data.List.Basic
import Mathlib.Data.List.Infix

/-!
# Streams cut into segments by a delimiter

The complete segments of a stream are those that end with the delimiter, the tail is what
follows the last delimiter. A bounded reader keeps the tail between reads and cuts it off
when it has grown too long. Nothing here is about a program.
-/

namespace DelimitedStream

variable {α : Type*} [DecidableEq α] (d : α)

/-- The complete segments of a stream, without their delimiters. -/
def segments (xs : List α) : List (List α) := (xs.splitOn d).dropLast

/-- What follows the last delimiter of a stream. -/
def tail (xs : List α) : List α := (xs.splitOn d).getLast (List.splitOn_ne_nil d xs)

variable {d}

theorem segments_of_notMem {xs : List α} (h : d ∉ xs) : segments d xs = [] := by
  rw [segments, List.splitOn_eq_singleton h]
  rfl

theorem tail_of_notMem {xs : List α} (h : d ∉ xs) : tail d xs = xs := by
  simp only [tail, List.splitOn_eq_singleton h]
  rfl

theorem segments_append_cons {seg : List α} (h : d ∉ seg) (xs : List α) :
    segments d (seg ++ d :: xs) = seg :: segments d xs := by
  rw [segments, List.splitOn_append_cons_self_of_not_mem h,
    List.dropLast_cons_of_ne_nil (List.splitOn_ne_nil d xs)]
  rfl

theorem tail_append_cons {seg : List α} (h : d ∉ seg) (xs : List α) :
    tail d (seg ++ d :: xs) = tail d xs := by
  simp only [tail, List.splitOn_append_cons_self_of_not_mem h]
  exact List.getLast_cons (List.splitOn_ne_nil d xs)

omit [DecidableEq α] in
/-- The first delimiter of a stream. -/
theorem exists_first_delimiter {xs : List α} (h : d ∈ xs) :
    ∃ seg rest, d ∉ seg ∧ xs = seg ++ d :: rest := by
  obtain ⟨seg, rest, hxs, hseg⟩ := List.eq_append_cons_of_mem h
  exact ⟨seg, rest, hseg, hxs⟩

/-- Induction along the segments of a stream. -/
theorem segment_induction {motive : List α → Prop} (tail : ∀ xs, d ∉ xs → motive xs)
    (segment : ∀ seg xs, d ∉ seg → motive xs → motive (seg ++ d :: xs)) (xs : List α) :
    motive xs := by
  induction h : xs.length using Nat.strong_induction_on generalizing xs with
  | _ n ih =>
    by_cases hd : d ∈ xs
    · obtain ⟨seg, rest, hseg, rfl⟩ := exists_first_delimiter hd
      have hlt : rest.length < n := by
        simp only [List.length_append, List.length_cons] at h
        omega
      exact segment seg rest hseg (ih _ hlt rest rfl)
    · exact tail xs hd

theorem notMem_tail (xs : List α) : d ∉ tail d xs := by
  induction xs using segment_induction with
  | tail xs h => rwa [tail_of_notMem h]
  | segment seg xs h ih => rwa [tail_append_cons h]

theorem tail_isSuffix (xs : List α) : tail d xs <:+ xs := by
  induction xs using segment_induction with
  | tail xs h => rw [tail_of_notMem h]
  | segment seg xs h ih =>
    rw [tail_append_cons h]
    exact ih.trans ((List.suffix_cons d xs).trans (List.suffix_append seg _))

/-- Taking out the segments with their delimiters, if there are any, leaves the tail. -/
theorem drop_segments (xs : List α) :
    (if 0 < xs.length - (tail d xs).length then xs.drop (xs.length - (tail d xs).length) else xs) =
      tail d xs := by
  have hdrop : tail d xs = xs.drop (xs.length - (tail d xs).length) :=
    List.suffix_iff_eq_drop.mp (tail_isSuffix xs)
  split
  · exact hdrop.symm
  · rename_i hnone
    rw [Nat.eq_zero_of_not_pos hnone, List.drop_zero] at hdrop
    exact hdrop.symm

/-- What follows is segmented together with the tail. -/
theorem segments_append (xs ys : List α) :
    segments d (xs ++ ys) = segments d xs ++ segments d (tail d xs ++ ys) := by
  induction xs using segment_induction with
  | tail xs h => rw [segments_of_notMem h, tail_of_notMem h, List.nil_append]
  | segment seg xs h ih =>
    rw [List.append_assoc, List.cons_append, segments_append_cons h, segments_append_cons h,
      tail_append_cons h, ih, List.cons_append]

theorem tail_append (xs ys : List α) : tail d (xs ++ ys) = tail d (tail d xs ++ ys) := by
  induction xs using segment_induction with
  | tail xs h => rw [tail_of_notMem h]
  | segment seg xs h ih =>
    rw [List.append_assoc, List.cons_append, tail_append_cons h, tail_append_cons h, ih]

theorem segments_append_tail (xs : List α) : segments d xs ++ [tail d xs] = xs.splitOn d :=
  List.dropLast_append_getLast (List.splitOn_ne_nil d xs)

/-- The tail of a prefix of the stream is the beginning of a segment. -/
theorem exists_tail_isPrefix (xs ys : List α) :
    ∃ seg ∈ (xs ++ ys).splitOn d, tail d xs <+: seg := by
  rw [← segments_append_tail, segments_append, tail_append]
  by_cases hd : d ∈ ys
  · obtain ⟨seg, rest, hseg, rfl⟩ := exists_first_delimiter hd
    have hfirst : d ∉ tail d xs ++ seg := by
      rw [List.mem_append, not_or]
      exact ⟨notMem_tail xs, hseg⟩
    refine ⟨tail d xs ++ seg, ?_, List.prefix_append _ _⟩
    rw [← List.append_assoc (tail d xs), segments_append_cons hfirst]
    simp
  · have hlast : d ∉ tail d xs ++ ys := by
      rw [List.mem_append, not_or]
      exact ⟨notMem_tail xs, hd⟩
    refine ⟨tail d xs ++ ys, ?_, List.prefix_append _ _⟩
    rw [tail_of_notMem hlast]
    simp

section Keeps
variable {limit cut : ℕ}
omit [DecidableEq α]

/-- What a reader keeps of a tail: an end of it, and something of it if it is not empty. -/
structure Keeps (d : α) (left kept : List α) : Prop where
  delimiter : d ∉ left
  suffix : kept <:+ left
  ne_nil : kept = [] → left = []

theorem Keeps.refl {left : List α} (h : d ∉ left) : Keeps d left left :=
  ⟨h, List.suffix_refl left, id⟩

theorem Keeps.notMem {left kept : List α} (h : Keeps d left kept) : d ∉ kept :=
  fun hd => h.delimiter (h.suffix.subset hd)

/-- A buffer longer than the limit loses its first `cut` symbols. -/
def trimmed (limit cut : ℕ) (buffer : List α) : List α :=
  if limit < buffer.length then buffer.drop cut else buffer

theorem length_trimmed_le (limit cut : ℕ) (buffer : List α) :
    (trimmed limit cut buffer).length ≤ buffer.length := by
  rw [trimmed]
  split
  · rw [List.length_drop]
    omega
  · exact le_refl _

theorem Keeps.trim (hcut : cut ≤ limit) {left kept : List α} (h : Keeps d left kept) :
    Keeps d left (trimmed limit cut kept) := by
  rw [trimmed]
  split
  · rename_i hlong
    refine ⟨h.delimiter, (List.drop_suffix cut kept).trans h.suffix, fun hnil => ?_⟩
    rw [List.drop_eq_nil_iff] at hnil
    omega
  · exact h

theorem Keeps.append {left kept chunk : List α} (h : Keeps d left kept) (hchunk : d ∉ chunk) :
    Keeps d (left ++ chunk) (kept ++ chunk) := by
  refine ⟨?_, ?_, fun hnil => ?_⟩
  · rw [List.mem_append, not_or]
    exact ⟨h.delimiter, hchunk⟩
  · obtain ⟨gone, rfl⟩ := h.suffix
    exact ⟨gone, by rw [List.append_assoc]⟩
  · obtain ⟨hkept, rfl⟩ := List.append_eq_nil_iff.mp hnil
    rw [h.ne_nil hkept, List.nil_append]

theorem Keeps.append_ne_nil {left kept chunk : List α} (h : Keeps d left kept) :
    kept ++ chunk ≠ [] ↔ left ++ chunk ≠ [] := by
  refine not_congr ⟨fun hnil => ?_, fun hnil => ?_⟩
  · obtain ⟨hkept, rfl⟩ := List.append_eq_nil_iff.mp hnil
    rw [h.ne_nil hkept, List.nil_append]
  · obtain ⟨rfl, rfl⟩ := List.append_eq_nil_iff.mp hnil
    rw [List.append_nil, List.suffix_nil.mp h.suffix]

/-- The segments that are not empty. -/
def nonempty (segs : List (List α)) : List (List α) := segs.filter (· ≠ [])

theorem nonempty_cons {seg : List α} (h : seg ≠ []) (segs : List (List α)) :
    nonempty (seg :: segs) = seg :: nonempty segs := List.filter_cons_of_pos (by simpa using h)

@[simp] theorem nonempty_nil_cons (segs : List (List α)) : nonempty ([] :: segs) = nonempty segs :=
  List.filter_cons_of_neg (by simp)

theorem nonempty_append (segs segs' : List (List α)) :
    nonempty (segs ++ segs') = nonempty segs ++ nonempty segs' := List.filter_append ..

end Keeps

/-- The first segment a read completes begins with what was kept of it. -/
theorem Keeps.first_segment {left kept chunk : List α} (h : Keeps d left kept)
    (hchunk : d ∉ chunk) (rest : List α) :
    segments d (kept ++ (chunk ++ d :: rest)) = (kept ++ chunk) :: segments d rest ∧
      tail d (kept ++ (chunk ++ d :: rest)) = tail d rest := by
  have hfirst : d ∉ kept ++ chunk := by
    rw [List.mem_append, not_or]
    exact ⟨h.notMem, hchunk⟩
  rw [← List.append_assoc]
  exact ⟨segments_append_cons hfirst rest, tail_append_cons hfirst rest⟩

section BoundedReader
variable (d) (limit cut : ℕ)

/-- The bounded reader: trim what is left, append a read, take out the segments. -/
def boundedFeed : (left : List α) → List (List α) → List (List α) × List α
  | left, [] => ([], left)
  | left, chunk :: reads =>
    let buffer := trimmed limit cut left ++ chunk
    let later := boundedFeed (tail d buffer) reads
    (segments d buffer ++ later.1, later.2)

variable {d limit cut}

theorem boundedFeed_append (left : List α) (before after : List (List α)) :
    boundedFeed d limit cut left (before ++ after) =
      ((boundedFeed d limit cut left before).1 ++
          (boundedFeed d limit cut (boundedFeed d limit cut left before).2 after).1,
        (boundedFeed d limit cut (boundedFeed d limit cut left before).2 after).2) := by
  induction before generalizing left with
  | nil => rfl
  | cons chunk before ih => rw [List.cons_append, boundedFeed, ih, boundedFeed, List.append_assoc]

/-- The tail stays within the limit whenever more is read. -/
def WithinLimit (d : α) (limit : ℕ) (left : List α) (reads : List (List α)) : Prop :=
  ∀ before after, reads = before ++ after → after ≠ [] →
    (tail d (left ++ before.flatten)).length ≤ limit

theorem WithinLimit.step {left chunk : List α} {reads : List (List α)}
    (h : WithinLimit d limit left (chunk :: reads)) :
    WithinLimit d limit (tail d (left ++ chunk)) reads := by
  intro before after hreads hafter
  have htail := h (chunk :: before) after (by rw [hreads, List.cons_append]) hafter
  rwa [List.flatten_cons, ← List.append_assoc, tail_append] at htail

/-- What is left before a read is within the limit. -/
theorem WithinLimit.left_le {left chunk : List α} {reads : List (List α)} (hleft : d ∉ left)
    (h : WithinLimit d limit left (chunk :: reads)) : left.length ≤ limit := by
  have htail := h [] (chunk :: reads) rfl (List.cons_ne_nil chunk reads)
  rwa [List.flatten_nil, List.append_nil, tail_of_notMem hleft] at htail

/-- A reader that never trims takes out exactly the segments of the stream. -/
theorem boundedFeed_eq {left : List α} {reads : List (List α)} (hleft : d ∉ left)
    (h : WithinLimit d limit left reads) :
    boundedFeed d limit cut left reads =
      (segments d (left ++ reads.flatten), tail d (left ++ reads.flatten)) := by
  induction reads generalizing left with
  | nil => simp [boundedFeed, segments_of_notMem hleft, tail_of_notMem hleft]
  | cons chunk reads ih =>
    have hkept : trimmed limit cut left = left := if_neg (Nat.not_lt.mpr (h.left_le hleft))
    rw [boundedFeed, hkept, ih (notMem_tail _) h.step, List.flatten_cons, ← List.append_assoc,
      segments_append (left ++ chunk), tail_append (left ++ chunk)]

/-- No delimiter follows once the tail has outgrown the limit. -/
def NoLongSegment (d : α) (limit : ℕ) (left : List α) (reads : List (List α)) : Prop :=
  ∀ before after, reads = before ++ after →
    limit < (tail d (left ++ before.flatten)).length → d ∉ after.flatten

theorem noLongSegment_cons {left chunk : List α} {reads : List (List α)} (hleft : d ∉ left) :
    NoLongSegment d limit left (chunk :: reads) ↔
      (limit < left.length → d ∉ (chunk :: reads).flatten) ∧
        NoLongSegment d limit (tail d (left ++ chunk)) reads := by
  have htail (before : List (List α)) : tail d (left ++ (chunk :: before).flatten) =
      tail d (tail d (left ++ chunk) ++ before.flatten) := by
    rw [List.flatten_cons, ← List.append_assoc, tail_append]
  constructor
  · intro h
    refine ⟨fun hlong => h [] _ rfl (by simpa [tail_of_notMem hleft] using hlong), ?_⟩
    intro before after hreads hlong
    exact h (chunk :: before) after (by rw [hreads, List.cons_append]) (by rwa [htail])
  · rintro ⟨hfirst, hrest⟩ before after hreads hlong
    cases before with
    | nil =>
      rw [List.nil_append] at hreads
      rw [← hreads]
      exact hfirst (by simpa [tail_of_notMem hleft] using hlong)
    | cons chunk' before =>
      rw [List.cons_append] at hreads
      obtain ⟨rfl, hlater⟩ := List.cons.inj hreads
      exact hrest before after hlater (by rwa [← htail])

/-- As many segments are taken out as the stream has. -/
theorem Keeps.length_boundedFeed (hcut : cut ≤ limit) {left kept : List α} {reads : List (List α)}
    (h : Keeps d left kept) :
    (nonempty (boundedFeed d limit cut kept reads).1).length =
      (nonempty (segments d (left ++ reads.flatten))).length := by
  induction reads generalizing left kept with
  | nil => simp [boundedFeed, nonempty, segments_of_notMem h.delimiter]
  | cons chunk reads ih =>
    have hkept := h.trim hcut
    rw [boundedFeed, List.flatten_cons, ← List.append_assoc, segments_append (left ++ chunk)]
    by_cases hd : d ∈ chunk
    · obtain ⟨chunk, rest, hchunk, rfl⟩ := exists_first_delimiter hd
      have hfirst := (Keeps.refl h.delimiter).first_segment hchunk rest
      have hfirst' := hkept.first_segment hchunk rest
      rw [hfirst.1, hfirst.2, hfirst'.1, hfirst'.2]
      dsimp only
      rw [nonempty_append, nonempty_append, List.length_append, List.length_append,
        ih (.refl (notMem_tail rest))]
      congr 1
      rw [nonempty, nonempty, List.filter_cons, List.filter_cons]
      simp only [decide_eq_true_eq, hkept.append_ne_nil]
      split <;> rfl
    · have hmore := hkept.append hd
      rw [segments_of_notMem hmore.delimiter, tail_of_notMem hmore.delimiter,
        segments_of_notMem hmore.notMem, tail_of_notMem hmore.notMem]
      exact ih hmore

/-- A segment that has lost something is not taken out as it was. -/
theorem Keeps.nonempty_ne_of_mem {left kept chunk : List α} (h : Keeps d left kept)
    (hlost : kept.length < left.length) (hd : d ∈ chunk) (later later' : List (List α)) :
    nonempty (segments d (kept ++ chunk) ++ later) ≠
      nonempty (segments d (left ++ chunk) ++ later') := by
  obtain ⟨chunk, rest, hchunk, rfl⟩ := exists_first_delimiter hd
  have hleft : left ++ chunk ≠ [] := by
    intro hnil
    rw [(List.append_eq_nil_iff.mp hnil).1] at hlost
    exact absurd hlost (Nat.not_lt_zero _)
  intro heq
  rw [((Keeps.refl h.delimiter).first_segment hchunk rest).1, (h.first_segment hchunk rest).1,
    List.cons_append, List.cons_append, nonempty_cons (h.append_ne_nil.mpr hleft),
    nonempty_cons hleft] at heq
  have hsame := congrArg List.length (List.cons.inj heq).1
  rw [List.length_append, List.length_append] at hsame
  omega

/-- Once something of a segment is lost, what is taken out is wrong as soon as it ends. -/
theorem Keeps.nonempty_eq_iff_of_lt (hcut : cut ≤ limit) {left kept chunk : List α}
    {reads : List (List α)} (h : Keeps d left kept) (hlost : kept.length < left.length) :
    nonempty (segments d (kept ++ chunk) ++
        (boundedFeed d limit cut (tail d (kept ++ chunk)) reads).1) =
        nonempty (segments d (left ++ (chunk :: reads).flatten)) ↔
      d ∉ (chunk :: reads).flatten := by
  rw [List.flatten_cons, ← List.append_assoc]
  induction reads generalizing left kept chunk with
  | nil =>
    by_cases hd : d ∈ chunk
    · have hne := h.nonempty_ne_of_mem hlost hd [] []
      simpa [boundedFeed, hd] using hne
    · have hmore := h.append hd
      simp [boundedFeed, segments_of_notMem hmore.delimiter, segments_of_notMem hmore.notMem, hd]
  | cons chunk' reads ih =>
    by_cases hd : d ∈ chunk
    · rw [segments_append (left ++ chunk)]
      exact iff_of_false (h.nonempty_ne_of_mem hlost hd _ _) (by simp [hd])
    · have hmore := h.append hd
      have hkept := hmore.trim hcut
      have hlost' : (trimmed limit cut (kept ++ chunk)).length < (left ++ chunk).length := by
        have hle := length_trimmed_le limit cut (kept ++ chunk)
        rw [List.length_append] at hle ⊢
        omega
      rw [segments_of_notMem hmore.notMem, tail_of_notMem hmore.notMem, List.nil_append, boundedFeed,
        List.flatten_cons, ← List.append_assoc, ih hkept hlost']
      simp [hd]

/-- The segments taken out are those of the stream exactly when no segment that ends has
outgrown the limit before. -/
theorem nonempty_boundedFeed_eq_iff (hcut : cut ≤ limit) (hpos : 0 < cut) {left : List α}
    {reads : List (List α)} (hleft : d ∉ left) :
    nonempty (boundedFeed d limit cut left reads).1 =
        nonempty (segments d (left ++ reads.flatten)) ↔
      NoLongSegment d limit left reads := by
  induction reads generalizing left with
  | nil =>
    refine iff_of_true (by simp [boundedFeed, segments_of_notMem hleft]) ?_
    intro before after hreads _
    simp [(List.append_eq_nil_iff.mp hreads.symm).2]
  | cons chunk reads ih =>
    rw [noLongSegment_cons hleft]
    by_cases hlong : limit < left.length
    · have hkeeps : Keeps d left (trimmed limit cut left) := (Keeps.refl hleft).trim hcut
      have hlost : (trimmed limit cut left).length < left.length := by
        rw [trimmed, if_pos hlong, List.length_drop]
        omega
      rw [boundedFeed, hkeeps.nonempty_eq_iff_of_lt hcut hlost]
      refine ⟨fun hd => ⟨fun _ => hd, fun before after hreads _ => ?_⟩, fun h => h.1 hlong⟩
      rw [hreads, List.flatten_cons, List.flatten_append, List.mem_append, List.mem_append] at hd
      tauto
    · have hkept : trimmed limit cut left = left := if_neg hlong
      rw [boundedFeed, hkept, List.flatten_cons, ← List.append_assoc, segments_append (left ++ chunk),
        nonempty_append, nonempty_append, List.append_cancel_left_eq, ih (notMem_tail _)]
      exact ⟨fun h => ⟨fun hlt => absurd hlt hlong, h⟩, And.right⟩

/-- Everything taken out is a segment of its own exactly when no segment that ends has
outgrown the limit before. -/
theorem nonempty_boundedFeed_sublist_iff (hcut : cut ≤ limit) (hpos : 0 < cut) {left : List α}
    {reads : List (List α)} (hleft : d ∉ left) :
    (nonempty (boundedFeed d limit cut left reads).1).Sublist
        (segments d (left ++ reads.flatten)) ↔
      NoLongSegment d limit left reads := by
  rw [← nonempty_boundedFeed_eq_iff hcut hpos hleft]
  constructor
  · intro h
    have hfiltered := h.filter (· ≠ [])
    rw [nonempty, List.filter_filter] at hfiltered
    simp only [Bool.and_self] at hfiltered
    exact hfiltered.eq_of_length ((Keeps.refl hleft).length_boundedFeed hcut)
  · intro h
    rw [h]
    exact List.filter_sublist

/-- A limit that holds for all segments of the stream holds for the tail at any time. -/
theorem withinLimit_of_segments {left : List α} {reads : List (List α)}
    (h : ∀ seg ∈ (left ++ reads.flatten).splitOn d, seg.length ≤ limit) :
    WithinLimit d limit left reads := by
  rintro before after rfl -
  obtain ⟨seg, hseg, htail⟩ := exists_tail_isPrefix (d := d) (left ++ before.flatten) after.flatten
  rw [List.append_assoc, ← List.flatten_append] at hseg
  exact htail.length_le.trans (h seg hseg)

end BoundedReader
end DelimitedStream
