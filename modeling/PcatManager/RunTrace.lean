import PcatManager.GuardedRun

/-!
# What a run emits

A step function whose steps emit something. The trace of a run is what its steps emit, one
after the other, and a log that every step extends by what it emits ends as the trace of the
run. Nothing here is about a program.
-/

namespace RunTrace
open GuardedRun

variable {σ ε ω ω' : Type*} (step : σ → ε → σ) (emits : σ → ε → List ω)

/-- What the steps of a run emit. -/
def trace : σ → List ε → List ω
  | _, [] => []
  | s, e :: events => emits s e ++ trace (step s e) events

@[simp] theorem trace_nil (s : σ) : trace step emits s [] = [] := rfl

@[simp] theorem trace_cons (s : σ) (e : ε) (events : List ε) :
    trace step emits s (e :: events) = emits s e ++ trace step emits (step s e) events := rfl

theorem trace_append (s : σ) (events events' : List ε) :
    trace step emits s (events ++ events') =
      trace step emits s events ++ trace step emits (run step s events) events' := by
  induction events generalizing s with
  | nil => rfl
  | cons e events ih =>
    rw [List.cons_append, trace_cons, ih, trace_cons, run_cons, List.append_assoc]

/-- A part of what is emitted, translated. -/
theorem trace_filterMap (f : ω → Option ω') (s : σ) (events : List ε) :
    (trace step emits s events).filterMap f =
      trace step (fun s e => (emits s e).filterMap f) s events := by
  induction events generalizing s with
  | nil => rfl
  | cons e events ih => rw [trace_cons, List.filterMap_append, ih, trace_cons]

theorem trace_map (f : ω → ω') (s : σ) (events : List ε) :
    (trace step emits s events).map f = trace step (fun s e => (emits s e).map f) s events := by
  induction events generalizing s with
  | nil => rfl
  | cons e events ih => rw [trace_cons, List.map_append, ih, trace_cons]

theorem trace_filter_map (p : ω → Bool) (f : ω → ω') (s : σ) (events : List ε) :
    ((trace step emits s events).filter p).map f =
      trace step (fun s e => ((emits s e).filter p).map f) s events := by
  induction events generalizing s with
  | nil => rfl
  | cons e events ih => rw [trace_cons, List.filter_append, List.map_append, ih, trace_cons]

theorem trace_flatMap (f : ω → List ω') (s : σ) (events : List ε) :
    (trace step emits s events).flatMap f =
      trace step (fun s e => (emits s e).flatMap f) s events := by
  induction events generalizing s with
  | nil => rfl
  | cons e events ih => rw [trace_cons, List.flatMap_append, ih, trace_cons]

/-- What does not depend on the states. -/
theorem trace_of_events (emitted : ε → List ω) (s : σ) (events : List ε) :
    trace step (fun _ e => emitted e) s events = events.flatMap emitted := by
  induction events generalizing s with
  | nil => rfl
  | cons e events ih => rw [trace_cons, ih, List.flatMap_cons]

/-- What is overwritten by the events that say something about it ends as the last of them
says. -/
theorem run_getD {α : Type*} (said : ε → Option α) (a : α) (events : List ε) :
    run (fun a e => (said e).getD a) a events = (events.filterMap said).getLast?.getD a := by
  induction events generalizing a with
  | nil => rfl
  | cons e events ih =>
    rw [run_cons, ih]
    cases hsaid : said e with
    | none =>
      rw [List.filterMap_cons_none hsaid]
      rfl
    | some b =>
      rw [List.filterMap_cons_some hsaid, List.getLast?_cons]
      rfl

/-- A part of the state that the steps change by itself. -/
theorem run_part {α : Type*} (part : σ → α) (upd : α → ε → α)
    (hstep : ∀ s e, part (step s e) = upd (part s) e) (s : σ) (events : List ε) :
    part (run step s events) = run upd (part s) events := by
  induction events generalizing s with
  | nil => rfl
  | cons e events ih => rw [run_cons, ih, run_cons, hstep]

theorem run_overwritten {α : Type*} (part : σ → α) (said : ε → Option α)
    (hstep : ∀ s e, part (step s e) = (said e).getD (part s)) (s : σ) (events : List ε) :
    part (run step s events) = (events.filterMap said).getLast?.getD (part s) := by
  have hpart := run_part step part (fun a e => (said e).getD a) hstep s events
  exact hpart.trans (run_getD said (part s) events)

/-- The same where a step can fail. -/
theorem foldlM_part {step : σ → ε → Option σ} {α : Type*} (part : σ → α) (upd : α → ε → α)
    (hstep : ∀ {s e s'}, step s e = some s' → part s' = upd (part s) e) {s s' : σ}
    {events : List ε} (h : events.foldlM step s = some s') : part s' = run upd (part s) events := by
  induction events generalizing s with
  | nil =>
    cases h
    rfl
  | cons e events ih =>
    rw [List.foldlM_cons] at h
    obtain ⟨s₁, hfirst, hrest⟩ := Option.bind_eq_some_iff.mp h
    rw [ih hrest, run_cons, hstep hfirst]

variable {step emits} {emits' : σ → ε → List ω} {I : σ → Prop} {q : ε → Prop}

/-- What every step emits has a property. -/
theorem forall_mem_trace {p : ω → Prop} (hemits : ∀ s e, q e → ∀ x ∈ emits s e, p x) (s : σ)
    {events : List ε} (hevents : ∀ e ∈ events, q e) : ∀ x ∈ trace step emits s events, p x := by
  induction events generalizing s with
  | nil => exact fun x hx => absurd hx List.not_mem_nil
  | cons e events ih =>
    rw [List.forall_mem_cons] at hevents
    rw [trace_cons, List.forall_mem_append]
    exact ⟨hemits s e hevents.1, ih _ hevents.2⟩

/-- What is emitted leaves a mark in the state that every step keeps, and what is emitted
where the mark is set is related to it. -/
theorem trace_pairwise {R : ω → ω → Prop} {M : ω → σ → Prop}
    (hstep : ∀ s e, q e → I s → I (step s e))
    (hself : ∀ s e, q e → I s → (emits s e).Pairwise R)
    (hmark : ∀ s e, q e → I s → ∀ x ∈ emits s e, M x (step s e))
    (hkeep : ∀ x s e, q e → I s → M x s → M x (step s e))
    (hlater : ∀ x s e, q e → I s → M x s → ∀ y ∈ emits s e, R x y) {s : σ} (hs : I s)
    {events : List ε} (hevents : ∀ e ∈ events, q e) : (trace step emits s events).Pairwise R := by
  have hafter (x : ω) {s : σ} (hs : I s) (hmarked : M x s) {events : List ε}
      (hevents : ∀ e ∈ events, q e) : ∀ y ∈ trace step emits s events, R x y := by
    induction events generalizing s with
    | nil => exact List.forall_mem_nil _
    | cons e events ih =>
      rw [List.forall_mem_cons] at hevents
      rw [trace_cons, List.forall_mem_append]
      exact ⟨hlater x s e hevents.1 hs hmarked,
        ih (hstep s e hevents.1 hs) (hkeep x s e hevents.1 hs hmarked) hevents.2⟩
  induction events generalizing s with
  | nil => exact List.Pairwise.nil
  | cons e events ih =>
    rw [List.forall_mem_cons] at hevents
    have hnext := hstep s e hevents.1 hs
    rw [trace_cons, List.pairwise_append]
    exact ⟨hself s e hevents.1 hs, ih hnext hevents.2,
      fun x hx => hafter x hnext (hmark s e hevents.1 hs x hx) hevents.2⟩

/-- Steps that emit the same wherever an invariant holds have the same trace. -/
theorem trace_congr (hstep : ∀ s e, q e → I s → I (step s e))
    (hemits : ∀ s e, q e → I s → emits s e = emits' s e) {s : σ} (hs : I s) {events : List ε}
    (hevents : ∀ e ∈ events, q e) : trace step emits s events = trace step emits' s events := by
  induction events generalizing s with
  | nil => rfl
  | cons e events ih =>
    rw [List.forall_mem_cons] at hevents
    rw [trace_cons, trace_cons, hemits s e hevents.1 hs, ih (hstep s e hevents.1 hs) hevents.2]

/-- A log that every step extends by what it emits ends as the trace of the run. -/
theorem log_run {log : σ → List ω} (hlog : ∀ s e, log (step s e) = log s ++ emits s e) (s : σ)
    (events : List ε) : log (run step s events) = log s ++ trace step emits s events := by
  induction events generalizing s with
  | nil => exact (List.append_nil _).symm
  | cons e events ih => rw [run_cons, ih, hlog, trace_cons, List.append_assoc]

/-- Two parts of what is emitted that every step emits equally often. -/
theorem countP_trace {emits' : σ → ε → List ω'} {p : ω → Bool} {p' : ω' → Bool}
    (h : ∀ s e, (emits s e).countP p = (emits' s e).countP p') (s : σ) (events : List ε) :
    (trace step emits s events).countP p = (trace step emits' s events).countP p' := by
  induction events generalizing s with
  | nil => rfl
  | cons e events ih => rw [trace_cons, trace_cons, List.countP_append, List.countP_append, h, ih]

section Refinement
variable {σ' ε' : Type*} {step' : σ' → ε' → σ'} {emits' : σ' → ε' → List ω} {low : σ → ε → List ε'}
  {abs : σ → σ'}

/-- Where every step is a run of another system, a run is one of its runs. -/
theorem run_refines (hstep : ∀ s e, abs (step s e) = run step' (abs s) (low s e)) (s : σ)
    (events : List ε) : abs (run step s events) = run step' (abs s) (trace step low s events) := by
  induction events generalizing s with
  | nil => rfl
  | cons e events ih => rw [run_cons, ih, trace_cons, run_append, hstep]

/-- And it emits what that run emits. -/
theorem trace_refines (hstep : ∀ s e, abs (step s e) = run step' (abs s) (low s e)) (s : σ)
    (events : List ε) :
    trace step' emits' (abs s) (trace step low s events) =
      trace step (fun s e => trace step' emits' (abs s) (low s e)) s events := by
  induction events generalizing s with
  | nil => rfl
  | cons e events ih => rw [trace_cons, trace_append, ← hstep, ih, trace_cons]

end Refinement

end RunTrace
