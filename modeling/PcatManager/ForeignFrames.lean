import PcatManager.HistoryBlind
import PcatManager.SerialLine

/-!
# Frames for other stations

A frame that is not addressed to the host is to have no effect. It has none unless it
answers the current command: the answer is looked for before the address is.
-/

namespace PcatManager
open SerialFrame SerialReadParser SerialParserCorrectness GuardedRun

namespace World

/-- The frame answers the current command. -/
def AnswersCurrent (w : World) (f : Frame) : Prop :=
  ∃ c ∈ w.pmu.link.currentCommandData, SerialLink.Answers f c

instance (w : World) (f : Frame) : Decidable (w.AnswersCurrent f) :=
  inferInstanceAs (Decidable (∃ c ∈ w.pmu.link.currentCommandData, SerialLink.Answers f c))

theorem dispatchFrame_foreign (w : World) {f : Frame} (hf : forHost f = false) :
    w.dispatchFrame f = w.setLink (w.pmu.link.releaseAnswered f) := by
  rw [dispatchFrame, hf, if_neg Bool.false_ne_true]

/-- A frame for another station changes nothing exactly when it does not answer the current
command. -/
theorem alike_dispatchFrame_iff (w : World) {f : Frame} (hf : forHost f = false) :
    Alike w (w.dispatchFrame f) ↔ ¬w.AnswersCurrent f := by
  rw [dispatchFrame_foreign w hf, AnswersCurrent]
  constructor
  · rintro hsame ⟨c, hc, hanswers⟩
    obtain ⟨history, _, hlink⟩ := hsame.link
    have hcurrent := congrArg SerialLink.currentCommandData hlink
    rw [setLink, SerialLink.releaseAnswered, hc] at hcurrent
    simp [hanswers, SerialLink.freeCurrent] at hcurrent
  · intro hother
    have hrelease : w.pmu.link.releaseAnswered f = w.pmu.link.seeFrame f := by
      rw [SerialLink.releaseAnswered]
      split
      · rfl
      · rename_i c hc
        rw [if_neg fun hanswers => hother ⟨c, hc, hanswers⟩]
        rfl
    rw [hrelease]
    exact ⟨_, by simp [SerialLink.acts_parsed], rfl⟩

/-- Every frame for another station among those the event reads leaves everything as it
is. -/
def IgnoresForeign (w : World) : Event → Prop
  | .read r => w.pmu.serialChannel = true →
      Along dispatchFrame (fun w f => forHost f = false → Alike w (w.dispatchFrame f)) w
        (w.framesRead r)
  | _ => True

/-- No frame for another station among those the event reads answers the command that is
current then. -/
def NoForeignAnswer (w : World) : Event → Prop
  | .read r => w.pmu.serialChannel = true →
      Along dispatchFrame (fun w f => forHost f = false → ¬w.AnswersCurrent f) w (w.framesRead r)
  | _ => True

theorem ignoresForeign_iff (w : World) (e : Event) : w.IgnoresForeign e ↔ w.NoForeignAnswer e := by
  cases e with
  | read r =>
    refine imp_congr_right fun _ => ?_
    exact along_congr (I := fun _ => True) (fun _ _ _ => trivial)
      (fun w f _ => imp_congr_right fun hf => alike_dispatchFrame_iff w hf) trivial _
  | _ => exact Iff.rfl

/-- A read whose first frame is one for another station that answers the current command. -/
theorem not_ignoresForeign {w w' : World} {events : List Event} (hrun : run step w events = w')
    (hopen : w'.pmu.serialChannel = true) {r : Read} {f : Frame}
    {frames : List Frame} (hframes : w'.framesRead r = f :: frames) (hf : forHost f = false)
    (hanswers : w'.AnswersCurrent f) : ¬Along step IgnoresForeign w (events ++ [.read r]) := by
  intro h
  rw [along_concat, hrun, ignoresForeign_iff, NoForeignAnswer, hframes] at h
  exact (h.2 hopen).1 hf hanswers

/-- The event without the frames for other stations in what it reads. -/
def stepWithoutForeign (w : World) : Event → World
  | .read r =>
    if w.pmu.serialChannel then
      { run dispatchFrame w ((w.framesRead r).filter forHost) with
        pmu :=
          { (run dispatchFrame w ((w.framesRead r).filter forHost)).pmu with
            serialReadBuffer := w.bufferRead r } }
    else w
  | e => w.step e

/-- Without the frames for other stations the rest of the frames does the same, unless one
of those answers a command. -/
theorem Alike.filter_forHost {w w' : World} (h : Alike w w') {frames : List Frame}
    (hframes : Along World.dispatchFrame (fun w f => forHost f = false → ¬w.AnswersCurrent f) w frames) :
    Alike (run World.dispatchFrame w frames)
      (run World.dispatchFrame w' (frames.filter forHost)) := by
  induction frames generalizing w w' with
  | nil => exact h
  | cons f frames ih =>
    cases hf : forHost f with
    | true =>
      rw [List.filter_cons_of_pos hf]
      exact ih (h.dispatchFrame f) hframes.2
    | false =>
      rw [List.filter_cons_of_neg (by rw [hf]; exact Bool.false_ne_true)]
      have hsame := (alike_dispatchFrame_iff w hf).mpr (hframes.1 hf)
      exact ih (hsame.symm.trans h) hframes.2

theorem Alike.stepWithoutForeign {w w' : World} (h : Alike w w') {e : Event}
    (he : w.NoForeignAnswer e) : Alike (w.step e) (w'.stepWithoutForeign e) := by
  cases e with
  | read r =>
    rw [World.step, World.stepWithoutForeign]
    have hsame : w'.pmu.serialChannel = w.pmu.serialChannel ∧ w'.framesRead r = w.framesRead r ∧
        w'.bufferRead r = w.bufferRead r := by
      obtain ⟨history, _, rfl⟩ := h
      exact ⟨rfl, rfl, rfl⟩
    rw [hsame.1]
    by_cases hopen : w.pmu.serialChannel = true
    · rw [if_pos hopen, if_pos hopen, serialReadWatchFunc_eq, hsame.2.1, hsame.2.2]
      obtain ⟨history, hacts, hrun⟩ := h.filter_forHost (he hopen)
      rw [hrun]
      exact ⟨history, hacts, rfl⟩
    · rw [if_neg hopen, if_neg hopen]
      exact h
  | _ => exact h.step _

/-- In every run the frames for other stations leave everything as it is exactly when none
of them answers the command that is current when it arrives; and then the run without them
ends the same. -/
theorem foreign_ignored_iff (w : World) (events : List Event) :
    (Along step IgnoresForeign w.start events ↔ Along step NoForeignAnswer w.start events) ∧
      (Along step NoForeignAnswer w.start events →
        Alike (run step w.start events) (run stepWithoutForeign w.start events)) := by
  refine ⟨along_congr (I := fun _ => True) (fun _ _ _ => trivial)
    (fun w e _ => ignoresForeign_iff w e) trivial events, ?_⟩
  suffices h : ∀ s s' : World, Alike s s' → Along step NoForeignAnswer s events →
      Alike (run step s events) (run stepWithoutForeign s' events) from h _ _ (.refl _)
  induction events with
  | nil => exact fun _ _ h _ => h
  | cons e events ih => exact fun s s' h halong => ih _ _ (h.stepWithoutForeign halong.1) halong.2

/-- A frame for station 2 that looks like the answer to the first command. -/
def foreignAnswer : WireFrame :=
  ⟨0x81, 0x02, 0, le16 0xA ++ [0], by simp, by simp⟩

def foreignAnswerRead : Read :=
  ⟨foreignAnswer.bytes, by rw [WireFrame.length_bytes]; omega, by simp [foreignAnswer]⟩

/-- The first command waits for its answer. -/
def pendingRun : List Event := [.init true, .writeWatch (fun _ => .written 20) .again]

/-- The frame for the other station takes the command away. -/
theorem foreign_answer_releases :
    ¬Along step IgnoresForeign plain.start (pendingRun ++ [.read foreignAnswerRead]) ∧
      (run step plain.start pendingRun).pmu.link.currentCommandData ≠ none ∧
      (run step plain.start (pendingRun ++ [.read foreignAnswerRead])).pmu.link.currentCommandData = none := by
  refine ⟨?_, by decide +kernel, by decide +kernel⟩
  have hopen : (run step plain.start pendingRun).pmu.serialChannel = true := by decide +kernel
  have hframes : (run step plain.start pendingRun).framesRead foreignAnswerRead =
      [⟨0x81, 0x02, 0, 0xA, [], false⟩] := by decide +kernel
  have hanswers : (run step plain.start pendingRun).AnswersCurrent ⟨0x81, 0x02, 0, 0xA, [], false⟩ := by
    decide +kernel
  exact not_ignoresForeign rfl hopen hframes (by decide) hanswers

/-- A stream of frames without those for other stations dispatches the frames for the host
as before. -/
theorem dispatchedFrames_without_foreign (segments : List Segment) (tail : Gap)
    (reads reads' : List Read) (h : streamOf reads = segmented segments tail)
    (h' : streamOf reads' =
      segmented (segments.filter fun g => forHost (fieldsAt g.frame.bytes)) tail) :
    dispatchedFrames reads' = (dispatchedFrames reads).filter forHost := by
  have hall (segments : List Segment) (reads : List Read)
      (h : streamOf reads = segmented segments tail) :
      dispatchedFrames reads = segments.map fun g => fieldsAt g.frame.bytes := by
    rw [dispatchedFrames_eq, values_prefix_segmented segments tail _ (h ▸ List.prefix_refl _), h]
    exact completed_all segments _ (by simp [segmented])
  rw [hall _ _ h, hall _ _ h', List.filter_map]
  rfl

end World
end PcatManager
