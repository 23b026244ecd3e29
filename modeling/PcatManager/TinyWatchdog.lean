import PcatManager.SerialParserCorrectness
import PcatManager.RunTrace

/-!
# The tiny watchdog

`tinywatchdog.c` keeps the PMU from resetting a system without the manager. It fills one
buffer in again every second, with a checksum of its own.
-/

namespace PcatManager
open SerialFrame SerialReadParser SerialParserCorrectness GuardedRun RunTrace

/-- `compute_crc16`, the same as in the manager. -/
def computeCrc16 (data : List UInt8) : UInt16 :=
  data.foldl (fun crc b => crcRound^[8] (crc ^^^ b.toUInt16)) 0xFFFF

/-- The locals of `main` that its loop changes. -/
structure TinyWatchdog where
  buffer : List UInt8 := [0xA5, 0x01, 0x81, 0x0, 0x0, 0x3, 0x0, 0x1, 0x0, 0x0, 0x0, 0x0, 0x5A]
  frameNum : UInt16 := 0
  deriving DecidableEq, Repr

namespace TinyWatchdog

/-- The buffer as a turn of the loop fills it in. -/
def fill (s : TinyWatchdog) : List UInt8 :=
  let buffer := (s.buffer.set 3 s.frameNum.toUInt8).set 4 (s.frameNum >>> 8).toUInt8
  let crc := computeCrc16 ((buffer.drop 1).take 9)
  (buffer.set 10 crc.toUInt8).set 11 (crc >>> 8).toUInt8

/-- One turn of the loop. -/
def turn (s : TinyWatchdog) (_written : ℕ) : TinyWatchdog where
  buffer := s.fill
  frameNum := s.frameNum + 1

/-- What reaches the wire in a turn: as many bytes as `write` takes. -/
def sends (s : TinyWatchdog) (written : ℕ) : List UInt8 := s.fill.take written

/-- The parts of the buffer that no turn changes. -/
def Template (buffer : List UInt8) : Prop :=
  ∃ n₀ n₁ c₀ c₁, buffer = [0xA5, 0x01, 0x81, n₀, n₁, 0x3, 0x0, 0x1, 0x0, 0x0, c₀, c₁, 0x5A]

theorem fill_eq {s : TinyWatchdog} (h : Template s.buffer) :
    s.fill = serialWriteFrame s.frameNum 0x1 [] false := by
  obtain ⟨n₀, n₁, c₀, c₁, hbuffer⟩ := h
  rw [fill, hbuffer]
  rfl

theorem template_fill {s : TinyWatchdog} (h : Template s.buffer) : Template s.fill := by
  obtain ⟨n₀, n₁, c₀, c₁, hbuffer⟩ := h
  rw [fill, hbuffer]
  exact ⟨_, _, _, _, rfl⟩

/-- The heartbeat that is read from a turn. -/
def heartbeat (frameNum : UInt16) : Frame := ⟨0x01, 0x81, frameNum, 0x1, [], false⟩

theorem values_fill_append {s : TinyWatchdog} (h : Template s.buffer) (rest : List UInt8) :
    frameScanner.values (s.fill ++ rest) = heartbeat s.frameNum :: frameScanner.values rest := by
  have hshort : ([] : List UInt8).length ≤ 65529 := Nat.zero_le _
  rw [fill_eq h, serialWriteFrame_eq s.frameNum 0x1 [] false hshort, values_bytes_append,
    fieldsAt_encoded]
  rfl

/-- The heartbeats of the turns that reach the wire, numbered from `k` on. -/
def heartbeats (written : List ℕ) (k : ℕ) : List Frame :=
  ((written.zipIdx k).filter fun turn => turn.1 ≠ 0).map fun turn => heartbeat (UInt16.ofNat turn.2)

theorem values_trace {s : TinyWatchdog} (h : Template s.buffer) {k : ℕ}
    (hnum : s.frameNum = UInt16.ofNat k) {written : List ℕ}
    (hwritten : ∀ n ∈ written, n = 0 ∨ n = 13) :
    frameScanner.values (trace turn sends s written) = heartbeats written k := by
  induction written generalizing s k with
  | nil => exact values_nil
  | cons n written ih =>
    rw [List.forall_mem_cons] at hwritten
    have hnext : (s.turn n).frameNum = UInt16.ofNat (k + 1) := by
      rw [turn, hnum, UInt16.ofNat_add]
      rfl
    have hrest := ih (template_fill h) hnext hwritten.2
    rw [trace_cons, heartbeats, List.zipIdx_cons]
    obtain rfl | rfl := hwritten.1
    · rw [List.filter_cons_of_neg (by simp)]
      exact hrest
    · have hwhole : s.sends 13 = s.fill := by
        obtain ⟨n₀, n₁, c₀, c₁, hfill⟩ := template_fill h
        rw [sends, hfill]
        rfl
      rw [List.filter_cons_of_pos (by simp), List.map_cons, hwhole, values_fill_append h, hnum]
      exact congrArg _ hrest

/-- However the stream of the watchdog is cut into reads, it is read as one heartbeat for
every turn whose `write` takes the frame, numbered by its turn modulo 2^16, and nothing
else. -/
theorem heartbeats_decoded (written : List ℕ) (hwritten : ∀ n ∈ written, n = 0 ∨ n = 13)
    (reads : List Read) (hstream : streamOf reads = trace turn sends {} written) :
    dispatchedFrames reads = heartbeats written 0 := by
  rw [dispatchedFrames_eq, hstream]
  exact values_trace ⟨0, 0, 0, 0, rfl⟩ rfl hwritten

/-- What three turns send when the second `write` fails. -/
def threeTurns : List UInt8 := trace turn sends {} [13, 0, 13]

theorem heartbeats_decoded_threeTurns :
    dispatchedFrames [⟨threeTurns.take 5, by decide +kernel, by decide +kernel⟩,
      ⟨threeTurns.drop 5, by decide +kernel, by decide +kernel⟩] = [heartbeat 0, heartbeat 2] :=
  heartbeats_decoded [13, 0, 13] (by simp) [⟨threeTurns.take 5, by decide +kernel,
    by decide +kernel⟩, ⟨threeTurns.drop 5, by decide +kernel, by decide +kernel⟩] (by decide +kernel)

end TinyWatchdog
end PcatManager
