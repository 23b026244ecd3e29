import PcatManager.PmuManagerFrame

/-!
# The reads of the parser

The parser and its handlers once more, with every access to a byte checked: a read that
leaves its array, or a removal of a range that does, has no result. Beside its result the
walk says what it has looked at.
-/

namespace PcatManager
open SerialFrame SerialReadParser GuardedRun

namespace SerialReadBounds

/-- The word at index `k`, low byte first. -/
def wordAt (p : List UInt8) (k : ℕ) : Option UInt16 := do
  let low ← p[k]?
  let high ← p[k + 1]?
  some (ofLe16 low high)

/-- The `n` bytes from `start` on. -/
def bytesAt (p : List UInt8) (start n : ℕ) : Option (List UInt8) :=
  if start + n ≤ p.length then some ((p.drop start).take n) else none

/-- `g_byte_array_remove_range`. -/
def removeRange (buffer : List UInt8) (index length : ℕ) : Option (List UInt8) :=
  if index + length ≤ buffer.length then
    some (buffer.take index ++ buffer.drop (index + length))
  else none

section Access
variable {p : List UInt8} {β : Type}

theorem byte_bind {k : ℕ} (h : k < p.length) (f : UInt8 → Option β) : (p[k]? >>= f) = f p[k] := by
  rw [List.getElem?_eq_getElem h]
  rfl

theorem word_bind {k : ℕ} (k' : ℕ) (hk : k' = k + 1) (h : k' < p.length) (f : UInt16 → Option β) :
    (wordAt p k >>= f) = f (ofLe16 p[k] p[k']) := by
  subst hk
  rw [wordAt, List.getElem?_eq_getElem (Nat.lt_of_succ_lt h), List.getElem?_eq_getElem h]
  rfl

theorem bytes_bind {start n : ℕ} (h : start + n ≤ p.length) (f : List UInt8 → Option β) :
    (bytesAt p start n >>= f) = f ((p.drop start).take n) := by
  rw [bytesAt, if_pos h]
  rfl

end Access

/-- What `pcat_pmu_serial_read_data_parse` decides at `p = buffer->data + i`. -/
def examineAt (p : List UInt8) : Option Verdict :=
  if p.length < 13 then some .tooShort
  else do
    let expectLen := (← wordAt p 5).toNat
    if expectLen < 3 ∨ 65532 < expectLen then some .badLength
    else if p.length < expectLen + 10 then some .incomplete
    else do
      let trailer ← p[9 + expectLen]?
      if trailer ≠ 0x5A then some .badTrailer
      else do
        let checksum ← wordAt p (7 + expectLen)
        let covered ← bytesAt p 1 (6 + expectLen)
        if checksum ≠ serialComputeCrc16 covered then some (.badChecksum expectLen)
        else do
          let src ← p[1]?
          let dst ← p[2]?
          let frameNum ← wordAt p 3
          let command ← wordAt p 7
          let extraData ← bytesAt p 9 (expectLen - 3)
          let needAck ← p[6 + expectLen]?
          some (.accepted expectLen
            { src := src
              dst := dst
              frameNum := frameNum
              command := command
              extraData := extraData
              needAck := needAck ≠ 0 })

theorem examineAt_eq (p : List UInt8) : examineAt p = some (examine p) := by
  rw [examineAt, examine]
  by_cases h13 : p.length < 13
  · rw [if_pos h13, dif_pos h13]
  rw [if_neg h13, dif_neg h13, word_bind 6 rfl (by omega)]
  dsimp only
  split_ifs with hlen hrem htrailer hchecksum
  · rfl
  · rfl
  -- from here on the whole extent is in the buffer
  · rw [byte_bind (by omega), if_pos htrailer]
  · rw [byte_bind (by omega), if_neg htrailer,
      word_bind (8 + (ofLe16 p[5] p[6]).toNat) (by omega) (by omega), bytes_bind (by omega),
      if_pos hchecksum]
  · rw [byte_bind (by omega), if_neg htrailer,
      word_bind (8 + (ofLe16 p[5] p[6]).toNat) (by omega) (by omega), bytes_bind (by omega),
      if_neg hchecksum, byte_bind (by omega), byte_bind (by omega),
      word_bind 4 rfl (by omega), word_bind 8 rfl (by omega),
      bytes_bind (by omega), byte_bind (by omega)]

/-- What the walk has looked at: a byte as the start of a frame, or the extent a start byte
claims. -/
inductive Seen where
  | start (i : ℕ)
  | claimed (i expectLen : ℕ)
  deriving DecidableEq, Repr

/-- The byte at `k` was looked at. -/
def Seen.Covers : Seen → ℕ → Prop
  | .start i, k => k = i
  | .claimed i expectLen, k => i ≤ k ∧ k < i + 10 + expectLen

section Walk
variable {σ : Type} (dispatch : σ → Frame → Option σ)

/-- The `for` loop of `pcat_pmu_serial_read_data_parse` from index `i` on. Neither index
passes the length of the buffer, so their widths do not matter. -/
def readDataParseLoopAt (buffer : List UInt8) :
    (fuel i usedSize : ℕ) → List Seen → σ → Option (ℕ × List Seen × σ)
  | 0, _, _, _, _ => none
  | fuel + 1, i, usedSize, seen, s =>
    if i < buffer.length then do
      let b ← buffer[i]?
      if b = 0xA5 then
        match ← examineAt (buffer.drop i) with
        | .tooShort => some (i, seen, s)
        | .badLength => readDataParseLoopAt buffer fuel (i + 1) i (seen ++ [.start i]) s
        | .incomplete => some (i, seen, s)
        | .badTrailer => readDataParseLoopAt buffer fuel (i + 1) i (seen ++ [.start i]) s
        | .badChecksum expectLen =>
          readDataParseLoopAt buffer fuel (i + 10 + expectLen) (i + 10 + expectLen)
            (seen ++ [.claimed i expectLen]) s
        | .accepted expectLen frame => do
          let s ← dispatch s frame
          readDataParseLoopAt buffer fuel (i + 10 + expectLen) (i + 10 + expectLen)
            (seen ++ [.claimed i expectLen]) s
      else readDataParseLoopAt buffer fuel (i + 1) i (seen ++ [.start i]) s
    else some (usedSize, seen, s)

/-- `pcat_pmu_serial_read_data_parse`. -/
def serialReadDataParseAt (buffer : List UInt8) (s : σ) : Option (List UInt8 × List Seen × σ) :=
  if buffer.length < 13 then some (buffer, [], s)
  else do
    let (usedSize, seen, s) ← readDataParseLoopAt dispatch buffer (buffer.length + 1) 0 0 [] s
    let buffer ← if 0 < usedSize then removeRange buffer 0 usedSize else some buffer
    some (buffer, seen, s)

variable {dispatch} {dispatch' : σ → Frame → σ}

/-- What is looked at next covers the bytes up to where the walk goes on. -/
theorem covers_append {seen : List Seen} {i j : ℕ} (new : Seen)
    (hseen : ∀ k < i, ∃ e ∈ seen, e.Covers k) (hnew : ∀ k, i ≤ k → k < j → new.Covers k) :
    ∀ k < j, ∃ e ∈ seen ++ [new], e.Covers k := by
  intro k hk
  by_cases hki : k < i
  · obtain ⟨e, he, hcovers⟩ := hseen k hki
    exact ⟨e, List.mem_append_left _ he, hcovers⟩
  · exact ⟨new, List.mem_append_right _ (List.mem_singleton_self new),
      hnew k (Nat.not_lt.mp hki) hk⟩

theorem drop_extent (buffer : List UInt8) (i expectLen : ℕ) :
    (buffer.drop (i + 1)).drop (9 + expectLen) = buffer.drop (i + 10 + expectLen) := by
  rw [List.drop_drop]
  congr 1
  omega

/-- The walk has a result, that of the parser, and has looked at every byte it passes. -/
theorem readDataParseLoopAt_eq (hdispatch : ∀ s f, dispatch s f = some (dispatch' s f))
    (buffer : List UInt8) (fuel i usedSize : ℕ) (seen : List Seen) (s : σ)
    (hfuel : buffer.length - i ≤ fuel) (hi : i ≤ buffer.length) (hused : usedSize ≤ i)
    (hseen : ∀ k < i, ∃ e ∈ seen, e.Covers k) :
    ∃ usedSize' seen' s', readDataParseLoopAt dispatch buffer (fuel + 1) i usedSize seen s =
        some (usedSize', seen', s') ∧
      readDataParseLoop dispatch' fuel i usedSize (buffer.drop i) s = (usedSize', s') ∧
      usedSize' ≤ buffer.length ∧ ∀ k < usedSize', ∃ e ∈ seen', e.Covers k := by
  induction fuel generalizing i usedSize seen s with
  | zero =>
    refine ⟨usedSize, seen, s, ?_, rfl, by omega, fun k hk => hseen k (by omega)⟩
    rw [readDataParseLoopAt, if_neg (by omega)]
  | succ fuel ih =>
    rcases hi.lt_or_eq with hlt | rfl
    · have hskip := ih (i + 1) i (seen ++ [.start i]) s (by omega) hlt (Nat.le_succ i)
        (covers_append (.start i) hseen fun k hk hk' => Nat.le_antisymm (Nat.le_of_lt_succ hk') hk)
      have hframe (expectLen : ℕ) (s : σ) (hle : i + 10 + expectLen ≤ buffer.length) :=
        ih (i + 10 + expectLen) (i + 10 + expectLen) (seen ++ [.claimed i expectLen]) s (by omega)
          hle (le_refl _) (covers_append (.claimed i expectLen) hseen fun k hk hk' => ⟨hk, hk'⟩)
      have hwait : ∃ usedSize' seen' s', some (i, seen, s) = some (usedSize', seen', s') ∧
          (i, s) = (usedSize', s') ∧
          usedSize' ≤ buffer.length ∧ ∀ k < usedSize', ∃ e ∈ seen', e.Covers k :=
        ⟨i, seen, s, rfl, rfl, hi, hseen⟩
      have hdrop : buffer.drop i = buffer[i] :: buffer.drop (i + 1) :=
        List.drop_eq_getElem_cons hlt
      have hlength : (buffer.drop i).length = buffer.length - i := List.length_drop
      rw [readDataParseLoopAt, if_pos hlt, byte_bind hlt, examineAt_eq, hdrop, readDataParseLoop]
      by_cases hb : buffer[i] = 0xA5
      · rw [if_pos hb, if_pos hb, ← hdrop]
        rcases examine_cases (buffer.drop i) with ⟨-, he⟩ | ⟨-, -, he⟩ | ⟨-, -, -, he⟩ |
          ⟨-, hrem, he | he | he⟩ <;> rw [he]
        · exact hwait
        · exact hskip
        · exact hwait
        · exact hskip
        · simp only [drop_extent]
          exact hframe _ s (by omega)
        · simp only [drop_extent]
          rw [Option.bind_eq_bind, Option.bind_some]
          dsimp only
          rw [hdispatch]
          exact hframe _ _ (by omega)
      · rw [if_neg hb, if_neg hb]
        exact hskip
    · refine ⟨usedSize, seen, s, ?_, ?_, hused, fun k hk => hseen k (by omega)⟩
      · rw [readDataParseLoopAt, if_neg (lt_irrefl _)]
      · rw [List.drop_length, readDataParseLoop]

theorem removeRange_zero {buffer : List UInt8} {n : ℕ} (h : n ≤ buffer.length) :
    removeRange buffer 0 n = some (buffer.drop n) := by
  rw [removeRange, Nat.zero_add, if_pos h]
  rfl

variable (dispatch dispatch') in
/-- The parser stays within the buffer: it has a result, keeps a suffix that is bounded, and
has looked at every byte it removes. -/
structure ParsesInRange (buffer : List UInt8) (s : σ) (left : List UInt8) (seen : List Seen)
    (s' : σ) : Prop where
  result : serialReadDataParseAt dispatch buffer s = some (left, seen, s')
  same : serialReadDataParse dispatch' buffer s = (left, s')
  suffix : left <:+ buffer
  bounded : left.length ≤ 65541
  looked : ∀ k < buffer.length - left.length, ∃ e ∈ seen, e.Covers k

theorem exists_parsesInRange (hdispatch : ∀ s f, dispatch s f = some (dispatch' s f))
    (buffer : List UInt8) (s : σ) :
    ∃ left seen s', ParsesInRange dispatch dispatch' buffer s left seen s' := by
  obtain ⟨-, -, hsuffix, hbounded⟩ := serialReadDataParse_spec dispatch' buffer s
  by_cases hshort : buffer.length < 13
  · have hsame : serialReadDataParse dispatch' buffer s = (buffer, s) := if_pos hshort
    rw [hsame] at hsuffix hbounded
    refine ⟨buffer, [], s, if_pos hshort, hsame, hsuffix, hbounded, fun k hk => ?_⟩
    rw [Nat.sub_self] at hk
    exact absurd hk (Nat.not_lt_zero k)
  · obtain ⟨usedSize, seen, s', hloop, hwalk, hused, hseen⟩ :=
      readDataParseLoopAt_eq hdispatch buffer buffer.length 0 0 [] s (Nat.sub_le _ _)
        (Nat.zero_le _) (le_refl _) fun k hk => absurd hk (Nat.not_lt_zero k)
    have hdrop : (if 0 < usedSize then buffer.drop usedSize else buffer) = buffer.drop usedSize := by
      cases usedSize <;> rfl
    have hsame : serialReadDataParse dispatch' buffer s = (buffer.drop usedSize, s') := by
      rw [List.drop_zero] at hwalk
      rw [serialReadDataParse, if_neg hshort, hwalk]
      dsimp only
      rw [hdrop]
    rw [hsame] at hsuffix hbounded
    refine ⟨buffer.drop usedSize, seen, s', ?_, hsame, hsuffix, hbounded, fun k hk => hseen k ?_⟩
    · rw [serialReadDataParseAt, if_neg hshort, hloop, Option.bind_eq_bind, Option.bind_some]
      rcases Nat.eq_zero_or_pos usedSize with rfl | hpos
      · rfl
      · dsimp only
        rw [if_pos hpos, removeRange_zero hused]
        rfl
    · rw [List.length_drop] at hk
      omega

end Walk

end SerialReadBounds

namespace World
open SerialReadBounds

/-- `pcat_pmu_serial_status_data_parse`. -/
def statusDataParseAt (w : World) (data : List UInt8) : Option World :=
  if data.length < 16 then some w
  else do
    let batteryVoltage ← wordAt data 0
    let chargerVoltage ← wordAt data 2
    let _gpioInput ← wordAt data 4
    let _gpioOutput ← wordAt data 6
    let y ← wordAt data 8
    let m ← data[10]?
    let d ← data[11]?
    let h ← data[12]?
    let min ← data[13]?
    let s ← data[14]?
    let boardTemp ← if 18 ≤ data.length then data[17]? else some 0
    let pmuTime := unixTimeOfUtc y.toNat m.toNat d.toNat h.toNat min.toNat s.toNat
    some ((w.statusClock pmuTime).statusBattery batteryVoltage.toUInt32 chargerVoltage.toUInt32
      boardTemp.toNat)

/-- The `switch` of `pcat_pmu_serial_read_data_parse`, of which three cases read the extra
data. -/
def handleCommandAt (w : World) (f : Frame) : Option World :=
  if f.command = commandStatusReport then
    if f.extraData.length < 16 then some w
    else do
      let w ← w.statusDataParseAt f.extraData
      some (w.acknowledge f [])
  else if f.command = commandPmuFwVersionGetAck then
    if f.extraData.length < 14 then some w
    else do
      let version ← bytesAt f.extraData 0 f.extraData.length
      some { w with pmu := { w.pmu with pmuFwVersion := some (version.takeWhile (· ≠ 0)) } }
  else if f.command = commandPowerOnEventGetAck then
    if f.extraData.length < 1 then some w
    else do
      let event ← f.extraData[0]?
      some { w with pmu := { w.pmu with powerOnEvent := event.toUInt32 } }
  else some (w.handleCommand f)

/-- What `pcat_pmu_serial_read_data_parse` does with an accepted frame. -/
def dispatchFrameAt (w : World) (f : Frame) : Option World :=
  let w := w.setLink (w.pmu.link.releaseAnswered f)
  if forHost f then w.handleCommandAt f else some w

theorem statusDataParseAt_eq (w : World) (data : List UInt8) :
    w.statusDataParseAt data = some (w.statusDataParse data) := by
  rw [statusDataParseAt, statusDataParse]
  by_cases hlen : data.length < 16
  · rw [if_pos hlen, if_pos hlen]
  have hbyte {k : ℕ} (hk : k < data.length) : data.getD k 0 = data[k] :=
    List.getD_eq_getElem _ _ hk
  rw [if_neg hlen, if_neg hlen, word_bind 1 rfl (by omega),
    word_bind 3 rfl (by omega), word_bind 5 rfl (by omega),
    word_bind 7 rfl (by omega), word_bind 9 rfl (by omega), byte_bind (by omega),
    byte_bind (by omega), byte_bind (by omega), byte_bind (by omega), byte_bind (by omega)]
  simp only [hbyte (show 0 < data.length by omega), hbyte (show 0 + 1 < data.length by omega),
    hbyte (show 2 < data.length by omega), hbyte (show 2 + 1 < data.length by omega),
    hbyte (show 8 < data.length by omega), hbyte (show 8 + 1 < data.length by omega),
    hbyte (show 10 < data.length by omega), hbyte (show 11 < data.length by omega),
    hbyte (show 12 < data.length by omega), hbyte (show 13 < data.length by omega),
    hbyte (show 14 < data.length by omega)]
  by_cases htemp : 18 ≤ data.length
  · rw [if_pos htemp, if_pos htemp, byte_bind htemp, hbyte htemp]
  · rw [if_neg htemp, if_neg htemp]
    rfl

theorem handleCommand_fwVersion (w : World) {f : Frame} (h : f.command = commandPmuFwVersionGetAck) :
    w.handleCommand f =
      if f.extraData.length < 14 then w
      else { w with pmu := { w.pmu with pmuFwVersion := some (f.extraData.takeWhile (· ≠ 0)) } } := by
  rw [handleCommand, h]
  rfl

theorem handleCommand_powerOnEvent (w : World) {f : Frame} (h : f.command = commandPowerOnEventGetAck) :
    w.handleCommand f =
      match f.extraData with
      | [] => w
      | event :: _ => { w with pmu := { w.pmu with powerOnEvent := event.toUInt32 } } := by
  rw [handleCommand, h]
  rfl

theorem handleCommandAt_eq (w : World) (f : Frame) :
    w.handleCommandAt f = some (w.handleCommand f) := by
  rw [handleCommandAt]
  split_ifs with hstatus hshort hversion hshort hevent hshort
  · rw [handleCommand, if_pos hstatus, if_pos hshort]
  · rw [statusDataParseAt_eq, handleCommand, if_pos hstatus, if_neg hshort]
    rfl
  · rw [handleCommand_fwVersion w hversion, if_pos hshort]
  · rw [handleCommand_fwVersion w hversion, if_neg hshort, bytes_bind (Nat.zero_add _).le,
      List.drop_zero, List.take_length]
  · have hnone : f.extraData = [] := List.eq_nil_of_length_eq_zero (Nat.lt_one_iff.mp hshort)
    rw [handleCommand_powerOnEvent w hevent, hnone]
  · rw [handleCommand_powerOnEvent w hevent]
    cases hdata : f.extraData with
    | nil => exact absurd (congrArg List.length hdata) (by simpa using hshort)
    | cons event rest => rfl
  · rfl

theorem dispatchFrameAt_eq (w : World) (f : Frame) :
    w.dispatchFrameAt f = some (w.dispatchFrame f) := by
  rw [dispatchFrameAt, dispatchFrame]
  split
  · exact handleCommandAt_eq _ f
  · rfl

/-- One turn of the loop of `pcat_pmu_serial_read_watch_func`; beside the state it says what
the parser has looked at. -/
def serialReadWatchFuncAt (w : World) (r : Read) : Option (List Seen × World) := do
  let buffer := w.pmu.serialReadBuffer ++ r.bytes
  let buffer ←
    if 131072 < buffer.length then removeRange buffer 0 (buffer.length - 65536) else some buffer
  let (left, seen, w') ← serialReadDataParseAt dispatchFrameAt buffer w
  some (seen, { w' with pmu := { w'.pmu with serialReadBuffer := left } })

/-- The read is handled within the buffer and without trimming: what it drops from the
buffer the parser has looked at. -/
def ReadsInRange (w : World) : Event → Prop
  | .read r => w.pmu.serialChannel = true →
      (w.pmu.serialReadBuffer ++ r.bytes).length ≤ 131072 ∧
        ∃ seen dropped,
          w.serialReadWatchFuncAt r = some (seen, w.serialReadWatchFunc r) ∧
            w.pmu.serialReadBuffer ++ r.bytes =
              dropped ++ (w.serialReadWatchFunc r).pmu.serialReadBuffer ∧
            ∀ k < dropped.length, ∃ e ∈ seen, e.Covers k
  | _ => True

theorem readsInRange_of_bounded {w : World} (h : w.pmu.serialReadBuffer.length ≤ 65541)
    (e : Event) : w.ReadsInRange e := by
  cases e with
  | read r =>
    intro _
    have hroom : (w.pmu.serialReadBuffer ++ r.bytes).length ≤ 131072 := by
      have := r.length_le
      rw [List.length_append]
      omega
    obtain ⟨left, seen, w', hparse⟩ :=
      exists_parsesInRange dispatchFrameAt_eq (w.pmu.serialReadBuffer ++ r.bytes) w
    obtain ⟨dropped, hdropped⟩ := hparse.suffix
    have hread : w.serialReadWatchFunc r =
        { w' with pmu := { w'.pmu with serialReadBuffer := left } } := by
      rw [serialReadWatchFunc, serialReadStep]
      dsimp only
      rw [if_neg (Nat.not_lt.mpr hroom), hparse.same]
    refine ⟨hroom, seen, dropped, ?_, by rw [hread, hdropped], fun k hk => hparse.looked k ?_⟩
    · rw [serialReadWatchFuncAt]
      dsimp only
      rw [if_neg (Nat.not_lt.mpr hroom), Option.bind_eq_bind, Option.bind_some, hparse.result,
        hread]
      rfl
    · rw [← hdropped, List.length_append, Nat.add_sub_cancel]
      exact hk
  | _ => trivial

theorem keptByTick_serialReadBuffer : KeptByTick fun w => w.pmu.serialReadBuffer where
  link := by
    rintro w w' ⟨l, n, rfl⟩
    rfl
  timestamp _ _ := rfl
  modem _ _ := rfl
  plan _ := rfl

theorem length_serialReadBuffer_step {w : World} (h : w.pmu.serialReadBuffer.length ≤ 65541)
    (e : Event) : (w.step e).pmu.serialReadBuffer.length ≤ 65541 := by
  by_cases hinit : ∃ opened, e = .init opened
  · obtain ⟨opened, rfl⟩ := hinit
    rw [World.step, managerInit]
    split
    · exact h
    · cases opened with
      | false => exact h
      | true =>
        have hrequests := keptByTick_serialReadBuffer.link (requests_initRequests
          { w.resetForInit.serialOpen.setBatteryTables with
            pmu := { w.resetForInit.serialOpen.setBatteryTables.pmu with
              initialized := true } }).sameButLink
        exact (congrArg List.length hrequests).trans_le (Nat.zero_le _)
  · by_cases hread : ∃ r, e = .read r
    · obtain ⟨r, rfl⟩ := hread
      rw [World.step]
      split
      · exact (serialReadStep_spec dispatchFrame w.pmu.serialReadBuffer w r h).2.2
      · exact h
    · have hkept := keptByTick_serialReadBuffer.step (fun _ _ _ _ _ => rfl) w e
        (fun opened he => hinit ⟨opened, he⟩) (fun r he => hread ⟨r, he⟩) (fun _ _ => rfl)
        fun _ _ => rfl
      exact (congrArg List.length hkept).trans_le h

/-- The parser and its handlers read existing bytes of whatever buffer they get, remove a
range of it and keep a suffix of at most 65541 bytes. So in every run of the daemon no read
makes the buffer be trimmed, and no byte is dropped before the parser has looked at it. -/
theorem reads_in_range :
    (∀ (buffer : List UInt8) (w : World), ∃ left seen w',
      ParsesInRange dispatchFrameAt dispatchFrame buffer w left seen w') ∧
      ∀ (w : World) (events : List Event), Along step ReadsInRange w.start events := by
  refine ⟨exists_parsesInRange dispatchFrameAt_eq, fun w events => ?_⟩
  suffices h : ∀ s : World, s.pmu.serialReadBuffer.length ≤ 65541 →
      Along step ReadsInRange s events from h w.start (Nat.zero_le _)
  induction events with
  | nil => exact fun _ _ => trivial
  | cons e events ih =>
    exact fun s hs => ⟨readsInRange_of_bounded hs e, ih _ (length_serialReadBuffer_step hs e)⟩

end World
end PcatManager
