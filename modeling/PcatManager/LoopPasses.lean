import PcatManager.RunTrace

/-!
# A loop that is left at the end of a pass

A loop takes its events pass by pass: all that is pending when a pass begins is dispatched in
it, also after one of the events has asked to leave the loop. What is dispatched is a run, and
at most the rest of one pass of it comes after that event. Nothing here is about a program.
-/

namespace LoopPasses
open GuardedRun RunTrace

variable {σ ε ω : Type*} (react : σ → ε → σ) (left : σ → Bool) (emits : σ → ε → List ω)

/-- One pass over what is pending. -/
def pass (s : σ) (pending : List ε) : σ := if left s then s else run react s pending

/-- What a pass emits. -/
def passEmits (s : σ) (pending : List ε) : List ω :=
  if left s then [] else trace react emits s pending

variable {react left emits}

theorem run_pass_of_left {s : σ} (h : left s = true) (passes : List (List ε)) :
    run (pass react left) s passes = s := by
  induction passes with
  | nil => rfl
  | cons pending passes ih =>
    have hsame : pass react left s pending = s := if_pos h
    rw [run_cons, hsame]
    exact ih

theorem trace_pass_of_left {s : σ} (h : left s = true) (passes : List (List ε)) :
    trace (pass react left) (passEmits react left emits) s passes = [] := by
  induction passes with
  | nil => rfl
  | cons pending passes ih =>
    have hsame : pass react left s pending = s := if_pos h
    have hnone : passEmits react left emits s pending = [] := if_pos h
    rw [trace_cons, hsame, hnone]
    exact ih

theorem left_run (hmono : ∀ s e, left s = true → left (react s e) = true) {s : σ}
    (h : left s = true) (events : List ε) : left (run react s events) = true :=
  run_invariant (I := fun s => left s = true) (fun s e hs => hmono s e hs) h events

theorem running_of_run (hmono : ∀ s e, left s = true → left (react s e) = true) {s : σ}
    {events : List ε} (h : left (run react s events) = false) : left s = false := by
  rw [Bool.eq_false_iff]
  exact fun hleft => Bool.false_ne_true (h.symm.trans (left_run hmono hleft events))

theorem run_pass_of_running (hmono : ∀ s e, left s = true → left (react s e) = true) {s : σ}
    {passes : List (List ε)} (h : left (run react s passes.flatten) = false) :
    run (pass react left) s passes = run react s passes.flatten := by
  induction passes generalizing s with
  | nil => rfl
  | cons pending passes ih =>
    have hrunning := running_of_run hmono h
    have hpass : pass react left s pending = run react s pending := if_neg (by simp [hrunning])
    rw [List.flatten_cons, run_append] at h ⊢
    rw [run_cons, hpass]
    exact ih h

/-- A run of passes that is still in the loop in the middle of one of them. -/
theorem run_pass_append (hmono : ∀ s e, left s = true → left (react s e) = true) {s : σ}
    {before : List (List ε)} {first : List ε} (h : left (run react s (before.flatten ++ first)) = false)
    (rest : List ε) (after : List (List ε)) :
    run (pass react left) s (before ++ (first ++ rest) :: after) =
      run (pass react left) (run react (run react s (before.flatten ++ first)) rest) after := by
  rw [run_append react] at h ⊢
  have hbefore : left (run react s before.flatten) = false := running_of_run hmono h
  have hpass : pass react left (run react s before.flatten) (first ++ rest) =
      run react (run react s before.flatten) (first ++ rest) := if_neg (by simp [hbefore])
  rw [run_append (pass react left), run_cons, run_pass_of_running hmono hbefore, hpass, run_append]

/-- Where a run that leaves the loop does so. -/
theorem exists_leaving_event {s : σ} (h : left s = false) {events : List ε}
    (hleft : left (run react s events) = true) :
    ∃ first e rest, events = first ++ e :: rest ∧ left (run react s first) = false ∧
      left (react (run react s first) e) = true := by
  induction events generalizing s with
  | nil => exact absurd (h.symm.trans hleft) Bool.false_ne_true
  | cons e events ih =>
    cases hnext : left (react s e) with
    | true => exact ⟨[], e, events, rfl, h, hnext⟩
    | false =>
      obtain ⟨first, e', rest, rfl, hrunning, hquit⟩ := ih hnext hleft
      exact ⟨e :: first, e', rest, rfl, hrunning, hquit⟩

variable (react left emits)

/-- What is dispatched: everything, or everything up to the end of the pass in which an event
leaves the loop. -/
theorem run_pass_cases {s : σ} (h : left s = false) (passes : List (List ε)) :
    ∃ dispatched, run (pass react left) s passes = run react s dispatched ∧
      trace (pass react left) (passEmits react left emits) s passes =
        trace react emits s dispatched ∧
      (dispatched = passes.flatten ∧ left (run react s dispatched) = false ∨
        ∃ before first e rest after, passes = before ++ (first ++ e :: rest) :: after ∧
          dispatched = (before.flatten ++ first) ++ e :: rest ∧
          left (run react s (before.flatten ++ first)) = false ∧
          left (react (run react s (before.flatten ++ first)) e) = true) := by
  induction passes generalizing s with
  | nil => exact ⟨[], rfl, rfl, .inl ⟨rfl, h⟩⟩
  | cons pending passes ih =>
    have hpass : pass react left s pending = run react s pending := if_neg (by simp [h])
    have hemits : passEmits react left emits s pending = trace react emits s pending :=
      if_neg (by simp [h])
    rw [run_cons, trace_cons, hpass, hemits]
    cases hnext : left (run react s pending) with
    | true =>
      obtain ⟨first, e, rest, rfl, hrunning, hquit⟩ := exists_leaving_event h hnext
      refine ⟨first ++ e :: rest, run_pass_of_left hnext passes, ?_, .inr ⟨[], first, e, rest,
        passes, rfl, rfl, hrunning, hquit⟩⟩
      rw [trace_pass_of_left hnext, List.append_nil]
    | false =>
      obtain ⟨dispatched, hrun, htrace, hdispatched⟩ := ih hnext
      refine ⟨pending ++ dispatched, ?_, ?_, ?_⟩
      · rw [hrun, run_append]
      · rw [htrace, trace_append]
      · rcases hdispatched with ⟨rfl, hrunning⟩ | ⟨before, first, e, rest, after, rfl, rfl,
          hrunning, hquit⟩
        · refine .inl ⟨List.flatten_cons.symm, ?_⟩
          rw [run_append]
          exact hrunning
        · refine .inr ⟨pending :: before, first, e, rest, after, rfl, ?_, ?_, ?_⟩
          · rw [List.flatten_cons, List.append_assoc pending, List.append_assoc pending]
          · rw [List.flatten_cons, List.append_assoc, run_append]
            exact hrunning
          · rw [List.flatten_cons, List.append_assoc, run_append]
            exact hquit

end LoopPasses
