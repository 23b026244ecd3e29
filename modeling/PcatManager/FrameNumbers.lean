import PcatManager.PmuAnswers
import PcatManager.SerialQueue

/-!
# The frame numbers in the queue

The frame number counter wraps around, but the queue is short: the commands that wait in it,
acknowledgements apart, carry the last numbers taken from the counter, in order and without
a repetition, in every run.
-/

namespace PcatManager
open SerialFrame GuardedRun RunTrace

/-- `k` frame numbers counted from `n`. -/
def consecutive : (n : UInt16) → (k : ℕ) → List UInt16
  | _, 0 => []
  | n, k + 1 => n :: consecutive (n + 1) k

@[simp] theorem length_consecutive (n : UInt16) (k : ℕ) : (consecutive n k).length = k := by
  induction k generalizing n with
  | zero => rfl
  | succ k ih => rw [consecutive, List.length_cons, ih]

theorem add_one_add_ofNat (n : UInt16) (j : ℕ) :
    n + 1 + UInt16.ofNat j = n + UInt16.ofNat (j + 1) := by
  rw [UInt16.ofNat_add, UInt16.add_assoc, UInt16.add_comm 1]
  rfl

theorem drop_consecutive (n : UInt16) (j k : ℕ) :
    (consecutive n (j + k)).drop j = consecutive (n + UInt16.ofNat j) k := by
  induction j generalizing n with
  | zero =>
    rw [Nat.zero_add, List.drop_zero]
    exact congrArg (consecutive · k) (UInt16.add_zero n).symm
  | succ j ih => rw [Nat.add_right_comm, consecutive, List.drop_succ_cons, ih, add_one_add_ofNat]

/-- The end of a block of consecutive numbers is the block of its length before the number
that comes next. -/
theorem eq_consecutive_of_suffix {l : List UInt16} {n : UInt16} {k : ℕ} (h : l <:+ consecutive n k) :
    l = consecutive (n + UInt16.ofNat k - UInt16.ofNat l.length) l.length := by
  have hlength := h.length_le
  rw [length_consecutive] at hlength
  obtain ⟨j, rfl⟩ := Nat.exists_eq_add_of_le' hlength
  have hdrop := List.suffix_iff_eq_drop.mp h
  rw [length_consecutive, Nat.add_sub_cancel, drop_consecutive] at hdrop
  have hstart : n + UInt16.ofNat (j + l.length) - UInt16.ofNat l.length = n + UInt16.ofNat j := by
    rw [UInt16.ofNat_add, ← UInt16.add_assoc, UInt16.add_sub_cancel]
  rw [hstart]
  exact hdrop

theorem exists_of_mem_consecutive {m n : UInt16} {k : ℕ} (h : m ∈ consecutive n k) :
    ∃ i < k, m = n + UInt16.ofNat i := by
  induction k generalizing n with
  | zero => cases h
  | succ k ih =>
    rcases List.mem_cons.mp h with rfl | h
    · exact ⟨0, Nat.succ_pos k, (UInt16.add_zero m).symm⟩
    · obtain ⟨i, hi, rfl⟩ := ih h
      exact ⟨i + 1, Nat.succ_lt_succ hi, add_one_add_ofNat n i⟩

theorem nodup_consecutive (n : UInt16) {k : ℕ} (hk : k ≤ 65536) : (consecutive n k).Nodup := by
  induction k generalizing n with
  | zero => exact List.nodup_nil
  | succ k ih =>
    refine List.nodup_cons.mpr ⟨fun hmem => ?_, ih (n + 1) (by omega)⟩
    obtain ⟨i, hi, hn⟩ := exists_of_mem_consecutive hmem
    rw [add_one_add_ofNat] at hn
    have hzero : UInt16.ofNat (i + 1) = 0 := UInt16.left_eq_add.mp hn
    have hmod := congrArg UInt16.toNat hzero
    rw [UInt16.toNat_ofNat'] at hmod
    change (i + 1) % 65536 = 0 at hmod
    omega

/-- How many of some requests take a number from the counter. -/
def automaticCount (requests : List DataRequest) : ℕ :=
  requests.countP fun r => !isAnswer r.command

/-- The commands other than acknowledgements are numbered one after the other. -/
theorem frameNums_numbered (n : UInt16) {requests : List DataRequest}
    (hproper : ∀ r ∈ requests, r.Proper) :
    ((((numbered n requests).map NumberedRequest.content).filter fun c => !isAnswer c.command).map
        CommandContent.frameNum = consecutive n (automaticCount requests)) ∧
      counterAfter n requests = n + UInt16.ofNat (automaticCount requests) := by
  induction requests generalizing n with
  | nil => exact ⟨rfl, (UInt16.add_zero n).symm⟩
  | cons r requests ih =>
    rw [List.forall_mem_cons] at hproper
    obtain ⟨hr, hrest⟩ := hproper
    rw [DataRequest.Proper] at hr
    rw [numbered, counterAfter, List.map_cons, automaticCount, List.countP_cons, hr]
    cases hanswer : isAnswer r.command with
    | true =>
      rw [List.filter_cons_of_neg (by simp [NumberedRequest.content, hanswer])]
      exact ih n hrest
    | false =>
      obtain ⟨hnums, hcounter⟩ := ih (n + 1) hrest
      have hnone : r.frameNum = none := Option.not_isSome_iff_eq_none.mp (by simp [hr, hanswer])
      rw [List.filter_cons_of_pos (by simp [NumberedRequest.content, hanswer]), List.map_cons]
      refine ⟨?_, hcounter.trans (add_one_add_ofNat n _)⟩
      change (r.frameNum.getD n :: _) = n :: _
      rw [hnone, Option.getD_none]
      exact congrArg (n :: ·) hnums

/-- The frame numbers of the queued commands that are no acknowledgements. -/
def SerialLink.queuedNumbers (l : SerialLink) : List UInt16 :=
  (l.commandQueue.filter fun cmd => !isAnswer cmd.command).map CommandData.frameNum

namespace MainLoop

theorem linkCalled_run (w : World) (opened requestFile : Bool) (events : List MainEvent) :
    (run step (start w opened requestFile) events).world.LinkCalled := by
  refine run_invariant (I := fun s : MainLoop => s.world.LinkCalled) ?_
    ((World.linkCalled_start w).step (.init opened)) events
  intro s e h
  obtain hworld | ⟨-, sendPmuRequest, -, hworld⟩ := s.world_step e
  · rw [hworld]
    cases s.stepEvent? e with
    | none => exact h
    | some e' => exact h.step e'
  · rw [hworld]
    exact h

/-- In every run the queued commands other than acknowledgements carry the last frame numbers
taken, one after the other, and no two of them the same. -/
theorem queued_numbers_run (w : World) (requestFile : Bool) (events : List MainEvent)
    (hbare : ∀ e ∈ events, ¬e.IsBareRequest) :
    let link := (run step (start w true requestFile) events).world.pmu.link
    link.queuedNumbers = consecutive
        (link.frameNum - UInt16.ofNat link.queuedNumbers.length) link.queuedNumbers.length ∧
      link.queuedNumbers.Nodup := by
  intro link
  obtain ⟨hlatest, hlength⟩ := (linkCalled_run w true requestFile events).latestRequests
  have hproper := proper_runRequests w requestFile hbare
  obtain ⟨hnums, hcounter⟩ := frameNums_numbered 0 hproper
  have hsuffix : link.queuedNumbers <:+
      consecutive 0 (automaticCount (runRequests w true requestFile events)) := by
    have henqueued := enqueued_runRequests w requestFile events
    rw [← hnums, ← henqueued, World.enqueued, List.filter_map, List.map_map]
    exact (hlatest.filter _).map _
  have htaken : link.frameNum =
      0 + UInt16.ofNat (automaticCount (runRequests w true requestFile events)) := by
    obtain ⟨hchannel, hstart, -⟩ := asks_start w true requestFile
    rw [← hcounter, runRequests, counterAfter_append, ← hstart]
    exact (asks_run _ events).counter
  have hblock := eq_consecutive_of_suffix hsuffix
  rw [← htaken] at hblock
  refine ⟨hblock, ?_⟩
  rw [hblock]
  refine nodup_consecutive _ ?_
  have hqueued : link.queuedNumbers.length ≤ link.commandQueue.length := by
    rw [SerialLink.queuedNumbers, List.length_map]
    exact List.length_filter_le _ _
  exact (hqueued.trans hlength).trans (by decide)

theorem queued_numbers_stalled :
    let link := (run step (start World.plain true false)
      [.manager (.read askingRead), .manager .tick]).world.pmu.link
    link.queuedNumbers = [1, 2, 3, 4, 5, 6] ∧ link.queuedNumbers.Nodup :=
  have h := queued_numbers_run World.plain false [.manager (.read askingRead), .manager .tick]
    (by simp [MainEvent.IsBareRequest])
  ⟨h.1.trans (by decide +kernel), h.2⟩

end MainLoop
end PcatManager
