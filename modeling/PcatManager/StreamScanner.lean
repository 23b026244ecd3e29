import Mathlib.Data.List.Basic
import Mathlib.Data.List.Infix

/-!
# Prefix-stable scanners over chunked streams

A scanner looks at the unread part of a stream and either waits for more input or
consumes a positive number of symbols, possibly reporting a value. The only
requirement on it is that a decision once taken is not changed by the symbols that
follow. From that alone the reports and the unread rest depend on the stream and
not on the way it was cut into reads.
-/

namespace StreamScanner

/-- A decision on the unread input: `none` waits, `some (n, v)` consumes `n` symbols
and reports `v` if there is one. -/
structure Scanner (α β : Type*) where
  decide : List α → Option (ℕ × Option β)
  decide_pos {xs : List α} {n : ℕ} {v : Option β} : decide xs = some (n, v) → 0 < n
  decide_le {xs : List α} {n : ℕ} {v : Option β} : decide xs = some (n, v) → n ≤ xs.length
  decide_append {xs : List α} {n : ℕ} {v : Option β} :
    decide xs = some (n, v) → ∀ ys, decide (xs ++ ys) = some (n, v)

/-- A reported value with the position and the length of the symbols it came from. -/
structure Report (β : Type*) where
  pos : ℕ
  len : ℕ
  value : β
  deriving DecidableEq, Repr

variable {α β : Type*} (S : Scanner α β)

namespace Scanner

/-- Take decisions from stream position `pos` until the scanner waits. The second
component is the unread rest. -/
def drain (pos : ℕ) (xs : List α) : List (Report β) × List α :=
  match _h : S.decide xs with
  | none => ([], xs)
  | some (n, v) =>
    let tail := drain (pos + n) (xs.drop n)
    (v.toList.map (Report.mk pos n) ++ tail.1, tail.2)
termination_by xs.length
decreasing_by
  have hpos := S.decide_pos _h
  have hle := S.decide_le _h
  simp only [List.length_drop]
  omega

theorem drain_wait {xs : List α} (h : S.decide xs = none) (pos : ℕ) :
    S.drain pos xs = ([], xs) := by
  rw [drain]
  split
  · rfl
  · rename_i n v hsome
    cases h.symm.trans hsome

theorem drain_step {xs : List α} {n : ℕ} {v : Option β} (h : S.decide xs = some (n, v))
    (pos : ℕ) :
    S.drain pos xs =
      (v.toList.map (Report.mk pos n) ++ (S.drain (pos + n) (xs.drop n)).1,
        (S.drain (pos + n) (xs.drop n)).2) := by
  rw [drain]
  split
  · rename_i hnone
    cases h.symm.trans hnone
  · rename_i n' v' h'
    cases h.symm.trans h'
    rfl

/-- Induction along the decisions of a scanner. -/
theorem drain_induction {motive : ℕ → List α → Prop}
    (wait : ∀ pos xs, S.decide xs = none → motive pos xs)
    (step : ∀ pos xs n v, S.decide xs = some (n, v) → motive (pos + n) (xs.drop n) →
      motive pos xs) (pos : ℕ) (xs : List α) : motive pos xs := by
  induction pos, xs using drain.induct (S := S) with
  | case1 pos xs h => exact wait pos xs h
  | case2 pos xs n v h ih => exact step pos xs n v h ih

/-- The unread rest is a suffix of the input on which the scanner waits. -/
theorem drain_rest (pos : ℕ) (xs : List α) :
    S.decide (S.drain pos xs).2 = none ∧ (S.drain pos xs).2 <:+ xs := by
  induction pos, xs using S.drain_induction with
  | wait pos xs h => simpa [S.drain_wait h] using h
  | step pos xs n v h ih =>
    rw [S.drain_step h]
    exact ⟨ih.1, ih.2.trans (List.drop_suffix n xs)⟩

theorem drain_rest_length_le (pos : ℕ) (xs : List α) :
    (S.drain pos xs).2.length ≤ xs.length :=
  (S.drain_rest pos xs).2.length_le

/-- Input that follows is scanned from where the scanner stopped. -/
theorem drain_append (pos : ℕ) (xs ys : List α) :
    S.drain pos (xs ++ ys) =
      let first := S.drain pos xs
      let second := S.drain (pos + (xs.length - first.2.length)) (first.2 ++ ys)
      (first.1 ++ second.1, second.2) := by
  induction pos, xs using S.drain_induction with
  | wait pos xs h => simp [S.drain_wait h]
  | step pos xs n v h ih =>
    have hle := S.decide_le h
    have hrest := S.drain_rest_length_le (pos + n) (xs.drop n)
    have hpos : pos + n + ((xs.drop n).length - (S.drain (pos + n) (xs.drop n)).2.length) =
        pos + (xs.length - (S.drain (pos + n) (xs.drop n)).2.length) := by
      rw [List.length_drop] at hrest ⊢
      omega
    rw [S.drain_step (S.decide_append h ys), S.drain_step h, List.drop_append_of_le_length hle, ih]
    simp only [hpos, List.append_assoc]

/-- Moving the start position moves every report and changes nothing else. -/
theorem drain_shift (k pos : ℕ) (xs : List α) :
    S.drain (k + pos) xs =
      ((S.drain pos xs).1.map (fun r => ⟨k + r.pos, r.len, r.value⟩), (S.drain pos xs).2) := by
  induction pos, xs using S.drain_induction with
  | wait pos xs h => simp [S.drain_wait h]
  | step pos xs n v h ih =>
    rw [S.drain_step h, S.drain_step h, Nat.add_assoc, ih]
    simp [List.map_map, Function.comp_def]

/-- The values reported on an input, in order. -/
def values (xs : List α) : List β := (S.drain 0 xs).1.map Report.value

/-- What the scanner leaves unread of an input. -/
def rest (xs : List α) : List α := (S.drain 0 xs).2

theorem drain_values (pos : ℕ) (xs : List α) :
    (S.drain pos xs).1.map Report.value = S.values xs := by
  rw [values, ← Nat.add_zero pos, S.drain_shift]
  simp [List.map_map, Function.comp_def]

theorem drain_rest_eq (pos : ℕ) (xs : List α) : (S.drain pos xs).2 = S.rest xs := by
  rw [rest, ← Nat.add_zero pos, S.drain_shift]

theorem values_append (xs ys : List α) :
    S.values (xs ++ ys) = S.values xs ++ S.values (S.rest xs ++ ys) := by
  rw [values, S.drain_append]
  simp only [List.map_append, S.drain_values]
  rfl

theorem rest_append (xs ys : List α) : S.rest (xs ++ ys) = S.rest (S.rest xs ++ ys) := by
  rw [rest, S.drain_append]
  simp only [S.drain_rest_eq]

theorem values_wait {xs : List α} (h : S.decide xs = none) : S.values xs = [] := by
  rw [values, S.drain_wait h]
  rfl

theorem rest_wait {xs : List α} (h : S.decide xs = none) : S.rest xs = xs := by
  rw [rest, S.drain_wait h]

theorem values_step {xs : List α} {n : ℕ} {v : Option β} (h : S.decide xs = some (n, v)) :
    S.values xs = v.toList ++ S.values (xs.drop n) := by
  rw [values, S.drain_step h, List.map_append, S.drain_values]
  simp [List.map_map, Function.comp_def]

theorem rest_step {xs : List α} {n : ℕ} {v : Option β} (h : S.decide xs = some (n, v)) :
    S.rest xs = S.rest (xs.drop n) := by
  rw [rest, S.drain_step h, S.drain_rest_eq]

/-- The reader of a chunked stream: append a read to what is left, then drain. -/
def feed : List α → List (List α) → List β × List α
  | left, [] => ([], left)
  | left, chunk :: reads =>
    let later := feed (S.rest (left ++ chunk)) reads
    (S.values (left ++ chunk) ++ later.1, later.2)

/-- Reports and rest are those of the whole stream, however it was cut into reads. -/
theorem feed_eq (left : List α) (reads : List (List α)) (h : S.decide left = none) :
    S.feed left reads = (S.values (left ++ reads.flatten), S.rest (left ++ reads.flatten)) := by
  induction reads generalizing left with
  | nil => simp [feed, S.values_wait h, S.rest_wait h]
  | cons chunk reads ih =>
    have hwait : S.decide (S.rest (left ++ chunk)) = none := (S.drain_rest 0 _).1
    rw [feed, ih _ hwait, List.flatten_cons, ← List.append_assoc,
      S.values_append (left ++ chunk), S.rest_append (left ++ chunk)]

/-- Every report is the scanner's decision at its own position. -/
theorem drain_sound (pos : ℕ) (xs : List α) :
    ∀ r ∈ (S.drain pos xs).1, pos ≤ r.pos ∧
      S.decide (xs.drop (r.pos - pos)) = some (r.len, some r.value) := by
  induction pos, xs using S.drain_induction with
  | wait pos xs h => simp [S.drain_wait h]
  | step pos xs n v h ih =>
    intro r hr
    rw [S.drain_step h, List.mem_append] at hr
    rcases hr with hr | hr
    · obtain ⟨b, hb, rfl⟩ := List.mem_map.mp hr
      obtain rfl : v = some b := by simpa using hb
      simpa using h
    · obtain ⟨hle, hd⟩ := ih r hr
      rw [List.drop_drop, show n + (r.pos - (pos + n)) = r.pos - pos by omega] at hd
      exact ⟨by omega, hd⟩

/-- Reports come in stream order and do not overlap. -/
theorem drain_pairwise (pos : ℕ) (xs : List α) :
    (S.drain pos xs).1.Pairwise (fun r r' => r.pos + r.len ≤ r'.pos) := by
  induction pos, xs using S.drain_induction with
  | wait pos xs h => simp [S.drain_wait h]
  | step pos xs n v h ih =>
    rw [S.drain_step h, List.pairwise_append]
    refine ⟨?_, ih, ?_⟩
    · cases v <;> simp
    · intro r hr r' hr'
      obtain ⟨b, -, rfl⟩ := List.mem_map.mp hr
      exact (S.drain_sound _ _ r' hr').1

/-- The scanner comes to position `k` of the input and decides there. -/
inductive Visits : List α → ℕ → Prop
  | start (xs : List α) : Visits xs 0
  | step {xs : List α} {n k : ℕ} {v : Option β} :
      S.decide xs = some (n, v) → Visits (xs.drop n) k → Visits xs (n + k)

theorem visits_of_wait {xs : List α} (h : S.decide xs = none) {k : ℕ} (hk : S.Visits xs k) :
    k = 0 := by
  cases hk with
  | start => rfl
  | step hdecide _ => cases h.symm.trans hdecide

theorem visits_step_iff {xs : List α} {n : ℕ} {v : Option β} (h : S.decide xs = some (n, v)) {k : ℕ}
    (hk : 0 < k) : S.Visits xs k ↔ n ≤ k ∧ S.Visits (xs.drop n) (k - n) := by
  constructor
  · intro hvisits
    cases hvisits with
    | start => exact absurd hk (Nat.lt_irrefl 0)
    | step hdecide hnext =>
      obtain ⟨rfl, -⟩ := Prod.mk.inj (Option.some.inj (h.symm.trans hdecide))
      rw [Nat.add_sub_cancel_left]
      exact ⟨Nat.le_add_right _ _, hnext⟩
  · rintro ⟨hle, hnext⟩
    have hvisits := Visits.step h hnext
    rwa [Nat.add_sub_cancel' hle] at hvisits

/-- A report is that of the first decision, or one of those behind it. -/
theorem mem_drain_step {pos : ℕ} {xs : List α} {n : ℕ} {v : Option β} (h : S.decide xs = some (n, v))
    {k len : ℕ} {value : β} :
    (⟨pos + k, len, value⟩ : Report β) ∈ (S.drain pos xs).1 ↔
      (k = 0 ∧ n = len ∧ v = some value) ∨
        (n ≤ k ∧ ⟨pos + n + (k - n), len, value⟩ ∈ (S.drain (pos + n) (xs.drop n)).1) := by
  rw [S.drain_step h, List.mem_append]
  apply or_congr
  · constructor
    · intro hhere
      obtain ⟨b, hb, hsame⟩ := List.mem_map.mp hhere
      obtain ⟨hk, rfl, rfl⟩ := Report.mk.inj hsame
      exact ⟨by omega, rfl, Option.mem_toList.mp hb⟩
    · rintro ⟨rfl, rfl, rfl⟩
      exact List.mem_singleton_self _
  · constructor
    · intro hlater
      have hle : pos + n ≤ pos + k := (S.drain_sound _ _ _ hlater).1
      rw [show pos + k = pos + n + (k - n) by omega] at hlater
      exact ⟨by omega, hlater⟩
    · rintro ⟨hle, hlater⟩
      rwa [show pos + k = pos + n + (k - n) by omega]

/-- The reports are the decisions to report where the scanner comes by. -/
theorem mem_drain_iff (pos : ℕ) (xs : List α) {k len : ℕ} {value : β} :
    (⟨pos + k, len, value⟩ : Report β) ∈ (S.drain pos xs).1 ↔
      S.Visits xs k ∧ S.decide (xs.drop k) = some (len, some value) := by
  induction pos, xs using S.drain_induction generalizing k with
  | wait pos xs h =>
    rw [S.drain_wait h]
    refine iff_of_false List.not_mem_nil fun ⟨hvisits, hdecide⟩ => ?_
    rw [S.visits_of_wait h hvisits, List.drop_zero, h] at hdecide
    cases hdecide
  | step pos xs n v h ih =>
    have hpos := S.decide_pos h
    rw [S.mem_drain_step h]
    rcases Nat.eq_zero_or_pos k with rfl | hk
    · have hhere : S.decide (xs.drop 0) = some (len, some value) ↔ n = len ∧ v = some value := by
        rw [List.drop_zero, h, Option.some_inj, Prod.mk.injEq]
      rw [or_iff_left (by omega), hhere]
      exact ⟨fun hreport => ⟨.start xs, hreport.2⟩, fun hvisited => ⟨rfl, hvisited.2⟩⟩
    · rw [or_iff_right (by omega), ih, S.visits_step_iff h hk, List.drop_drop, and_assoc]
      refine and_congr_right fun hle => ?_
      rw [Nat.add_sub_cancel' hle]

end Scanner
end StreamScanner
