import Mathlib.Logic.Basic

/-!
# Runs of a step function

A run is a list of events, each taken by a total step function; a guarded run is one
whose steps all meet a condition on the state before the step and its event. Nothing here
is about a program.
-/

namespace GuardedRun

variable {σ ε : Type*} (step : σ → ε → σ)

/-- The state after a list of events. -/
def run (s : σ) (events : List ε) : σ := events.foldl step s

@[simp] theorem run_nil (s : σ) : run step s [] = s := rfl

@[simp] theorem run_cons (s : σ) (e : ε) (events : List ε) :
    run step s (e :: events) = run step (step s e) events := rfl

theorem run_append (s : σ) (events events' : List ε) :
    run step s (events ++ events') = run step (run step s events) events' :=
  List.foldl_append

/-- The condition holds at every step of the run. -/
def Along (p : σ → ε → Prop) : σ → List ε → Prop
  | _, [] => True
  | s, e :: events => p s e ∧ Along p (step s e) events

variable {step}

/-- Whether a condition holds along a run can be computed. -/
def Along.decide {p : σ → ε → Prop} (hp : ∀ s e, Decidable (p s e)) :
    (s : σ) → (events : List ε) → Decidable (Along step p s events)
  | _, [] => isTrue trivial
  | s, e :: events => @instDecidableAnd _ _ (hp s e) (Along.decide hp (step s e) events)

instance {p : σ → ε → Prop} [hp : ∀ s e, Decidable (p s e)] (s : σ) (events : List ε) :
    Decidable (Along step p s events) := Along.decide hp s events

theorem Along.mono {p q : σ → ε → Prop} (hpq : ∀ s e, p s e → q s e) {s : σ} {events : List ε}
    (h : Along step p s events) : Along step q s events := by
  induction events generalizing s with
  | nil => trivial
  | cons e events ih => exact ⟨hpq s e h.1, ih h.2⟩

/-- A condition on the events alone. -/
theorem along_of_forall_mem {p : ε → Prop} {events : List ε} (h : ∀ e ∈ events, p e) (s : σ) :
    Along step (fun _ e => p e) s events := by
  induction events generalizing s with
  | nil => trivial
  | cons e events ih =>
    obtain ⟨hfirst, hrest⟩ := List.forall_mem_cons.mp h
    exact ⟨hfirst, ih hrest _⟩

theorem along_true (s : σ) (events : List ε) : Along step (fun _ _ => True) s events :=
  along_of_forall_mem (fun _ _ => trivial) s

theorem along_append {p : σ → ε → Prop} (s : σ) (events events' : List ε) :
    Along step p s (events ++ events') ↔
      Along step p s events ∧ Along step p (run step s events) events' := by
  induction events generalizing s with
  | nil => exact (and_iff_right trivial).symm
  | cons e events ih => exact (and_congr_right fun _ => ih (step s e)).trans and_assoc.symm

theorem along_concat {p : σ → ε → Prop} (s : σ) (events : List ε) (e : ε) :
    Along step p s (events ++ [e]) ↔ Along step p s events ∧ p (run step s events) e :=
  (along_append s events [e]).trans (and_congr_right fun _ => and_iff_left trivial)

/-- What every step that meets the condition preserves holds at the end of every run whose
steps all meet it. -/
theorem Along.invariant {p : σ → ε → Prop} {I : σ → Prop}
    (hstep : ∀ s e, I s → p s e → I (step s e)) {s : σ} {events : List ε}
    (h : Along step p s events) (hs : I s) : I (run step s events) := by
  induction events generalizing s with
  | nil => exact hs
  | cons e events ih => exact ih h.2 (hstep s e hs h.1)

/-- Two conditions agree along a run if they agree wherever an invariant holds that every
step keeps which meets the first one. -/
theorem along_iff {I : σ → Prop} {p q : σ → ε → Prop}
    (hstep : ∀ s e, I s → p s e → I (step s e)) (hpq : ∀ s e, I s → (p s e ↔ q s e)) {s : σ}
    (hs : I s) (events : List ε) : Along step p s events ↔ Along step q s events := by
  induction events generalizing s with
  | nil => exact Iff.rfl
  | cons e events ih =>
    constructor
    · rintro ⟨hp, hrest⟩
      exact ⟨(hpq s e hs).mp hp, (ih (hstep s e hs hp)).mp hrest⟩
    · rintro ⟨hq, hrest⟩
      have hp := (hpq s e hs).mpr hq
      exact ⟨hp, (ih (hstep s e hs hp)).mpr hrest⟩

/-- Two conditions that agree wherever an invariant holds agree along a run. -/
theorem along_congr {I : σ → Prop} {p q : σ → ε → Prop} (hstep : ∀ s e, I s → I (step s e))
    (hpq : ∀ s e, I s → (p s e ↔ q s e)) {s : σ} (hs : I s) (events : List ε) :
    Along step p s events ↔ Along step q s events :=
  along_iff (fun s e h _ => hstep s e h) hpq hs events

/-- A property that a step keeps exactly when it meets the condition holds at the end of
exactly the runs from a state with the property whose steps all meet the condition. -/
theorem run_iff_along {I P : σ → Prop} {p : σ → ε → Prop} (hstep : ∀ s e, I s → I (step s e))
    (hkeeps : ∀ s e, I s → (P (step s e) ↔ P s ∧ p s e)) {s : σ} (hs : I s) (events : List ε) :
    P (run step s events) ↔ P s ∧ Along step p s events := by
  induction events generalizing s with
  | nil => exact (and_iff_left trivial).symm
  | cons e events ih =>
    rw [run_cons, ih (hstep s e hs), hkeeps s e hs, and_assoc]
    exact Iff.rfl

/-- A latch that a step sets on certain events while it is enabled, and never clears, is set
at the end of a run when it was before or such an event is among the events. -/
theorem run_latch (enabled latch : σ → Bool) (sets : ε → Bool)
    (henabled : ∀ s e, enabled (step s e) = enabled s)
    (hlatch : ∀ s e, latch (step s e) = (latch s || (enabled s && sets e))) (s : σ)
    (events : List ε) :
    enabled (run step s events) = enabled s ∧
      latch (run step s events) = (latch s || (enabled s && events.any sets)) := by
  induction events generalizing s with
  | nil => exact ⟨rfl, by rw [List.any_nil, Bool.and_false, Bool.or_false, run_nil]⟩
  | cons e events ih =>
    obtain ⟨hrun, hset⟩ := ih (step s e)
    rw [run_cons]
    refine ⟨hrun.trans (henabled s e), ?_⟩
    rw [hset, henabled, hlatch, List.any_cons, Bool.or_assoc, Bool.and_or_distrib_left]

/-- What every step preserves holds at the end of every run. -/
theorem run_invariant {I : σ → Prop} (hstep : ∀ s e, I s → I (step s e)) {s : σ}
    (hs : I s) (events : List ε) : I (run step s events) :=
  Along.invariant (fun s e hs _ => hstep s e hs) (along_true s events) hs

end GuardedRun
