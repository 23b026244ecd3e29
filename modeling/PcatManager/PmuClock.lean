import PcatManager.PmuReports

/-!
# The clock of the PMU and the clock of the host

At the start the host takes over the time of the PMU, once and if the system lets it;
afterwards the PMU is told the time of the host. Both ways the time travels as seven bytes, and
the bytes of a time are the only ones that stand for it.
-/

namespace PcatManager
open SerialFrame SerialReadParser GuardedRun RunTrace GregorianCalendar

theorem toSeconds_ofSeconds (n : ℤ) : (DateTime.ofSeconds n).toSeconds = n := by
  have hminutes := DateTime.toMinutes_ofMinutes (n / 60)
  rw [DateTime.toSeconds]
  change (DateTime.ofMinutes (n / 60)).toMinutes * 60 + n % 60 = n
  omega

theorem ofSeconds_toSeconds (t : DateTime) : DateTime.ofSeconds t.toSeconds = t := by
  have hsecond := t.second_le
  have hminutes : t.toSeconds / 60 = t.toMinutes := by
    rw [DateTime.toSeconds]
    omega
  obtain ⟨hdate, hhour, hminute⟩ := t.fields_eq
  apply DateTime.ext
  · change (DateTime.ofMinutes (t.toSeconds / 60)).date = t.date
    rw [hminutes, DateTime.ofMinutes_toMinutes]
    rfl
  · change (DateTime.ofMinutes (t.toSeconds / 60)).hour = t.hour
    rw [hminutes, DateTime.ofMinutes_toMinutes]
    rfl
  · change (DateTime.ofMinutes (t.toSeconds / 60)).minute = t.minute
    rw [hminutes, DateTime.ofMinutes_toMinutes]
    rfl
  · change t.toSeconds % 60 = t.second
    rw [DateTime.toSeconds]
    omega

theorem ofUnix_toUnix (t : DateTime) : DateTime.ofUnix t.toUnix = t := by
  rw [DateTime.ofUnix, DateTime.toUnix, Int.sub_add_cancel, ofSeconds_toSeconds]

theorem toUnix_ofUnix (n : ℤ) : (DateTime.ofUnix n).toUnix = n := by
  rw [DateTime.toUnix, DateTime.ofUnix, toSeconds_ofSeconds, Int.add_sub_cancel]

theorem UnixTime.eq_of_seconds {t t' : UnixTime} (h : t.seconds = t'.seconds) : t = t' := by
  cases t
  cases t'
  cases h
  rfl

/-- The times that GLib has a date for are those of the years 1 to 9999. -/
theorem UnixTime.year_le (t : UnixTime) : 1 ≤ t.utc.date.year ∧ t.utc.date.year ≤ 9999 := by
  have hrange := t.range
  have hin : InCalendar ((t.seconds + unixEpoch) / 60 / 1440) := by
    rw [InCalendar, unixEpoch]
    omega
  exact (inCalendar_iff _).mp hin

/-- The fields of a date and time stand for a time exactly when they are the fields of its
date. -/
theorem unixTimeOfUtc_eq_some_iff (year month day hour minute second : ℕ) (t : UnixTime) :
    unixTimeOfUtc year month day hour minute second = some t ↔
      t.utc.date.year = year ∧ t.utc.date.month = month ∧ t.utc.date.day = day ∧
        t.utc.hour = hour ∧ t.utc.minute = minute ∧ t.utc.second = second := by
  rw [unixTimeOfUtc]
  constructor
  · intro h
    split at h
    · dsimp only at h
      split at h
      · rename_i hfields hrange
        rw [Option.some.injEq] at h
        rw [← h, UnixTime.utc, ofUnix_toUnix]
        exact ⟨rfl, rfl, rfl, rfl, rfl, rfl⟩
      · cases h
    · cases h
  · rintro ⟨hyear, hmonth, hday, hhour, hminute, hsecond⟩
    have hrange := t.year_le
    have hmonthRange := t.utc.date.month_le
    have hdayRange := t.utc.date.day_le
    have hhourRange := t.utc.hour_le
    have hminuteRange := t.utc.minute_le
    have hsecondRange := t.utc.second_le
    rw [hyear] at hrange hdayRange
    rw [hmonth] at hmonthRange hdayRange
    rw [hday] at hdayRange
    rw [hhour] at hhourRange
    rw [hminute] at hminuteRange
    rw [hsecond] at hsecondRange
    have hfields : (1 ≤ year ∧ year ≤ 9999) ∧ (1 ≤ month ∧ month ≤ 12) ∧
        (1 ≤ (day : ℤ) ∧ (day : ℤ) ≤ monthLength (leapDay year) month) ∧
        (0 ≤ (hour : ℤ) ∧ (hour : ℤ) < 24) ∧ (0 ≤ (minute : ℤ) ∧ (minute : ℤ) < 60) ∧
        (0 ≤ (second : ℤ) ∧ (second : ℤ) < 60) :=
      ⟨by omega, hmonthRange, hdayRange, hhourRange, hminuteRange, hsecondRange⟩
    have hdate : (⟨⟨year, month, day, hmonthRange, hdayRange⟩, hour, minute, second, hhourRange,
        hminuteRange, hsecondRange⟩ : DateTime) = t.utc :=
      DateTime.ext (Date.ext hyear.symm hmonth.symm hday.symm) hhour.symm hminute.symm hsecond.symm
    have hseconds : (⟨⟨year, month, day, hmonthRange, hdayRange⟩, hour, minute, second, hhourRange,
        hminuteRange, hsecondRange⟩ : DateTime).toUnix = t.seconds := by
      rw [hdate, UnixTime.utc, toUnix_ofUnix]
    rw [dif_pos hfields]
    dsimp only
    rw [dif_pos (hseconds.symm ▸ t.range), Option.some.injEq]
    exact UnixTime.eq_of_seconds hseconds

namespace World

theorem ofNat_eq_iff {n : ℤ} {b : UInt8} (h : 0 ≤ n ∧ n < 256) :
    n = b.toNat ↔ UInt8.ofNat n.toNat = b := by
  rw [← UInt8.toNat_inj, UInt8.toNat_ofNat', Nat.mod_eq_of_lt (by omega)]
  omega

theorem ofLe16_eq_iff {n : ℤ} {lo hi : UInt8} (h : 0 ≤ n ∧ n < 65536) :
    n = (ofLe16 lo hi).toNat ↔ le16 (UInt16.ofNat n.toNat) = [lo, hi] := by
  have hword : n = (ofLe16 lo hi).toNat ↔ UInt16.ofNat n.toNat = ofLe16 lo hi := by
    rw [← UInt16.toNat_inj, UInt16.toNat_ofNat', Nat.mod_eq_of_lt (by omega)]
    omega
  rw [hword]
  constructor
  · intro hsame
    rw [hsame, le16_ofLe16]
  · intro hbytes
    rw [← ofLe16_le16 (UInt16.ofNat n.toNat)]
    obtain ⟨hlo, hhi⟩ := List.cons_eq_cons.mp hbytes
    obtain ⟨hhi, -⟩ := List.cons_eq_cons.mp hhi
    rw [hlo, hhi]

/-- The bytes at the place of the time in a status report stand for a time exactly when they
are the bytes that the PMU is told this time with. -/
theorem reportTime_eq_some_iff {front record : List UInt8} (back : List UInt8)
    (hfront : front.length = 8) (hrecord : record.length = 7) (t : UnixTime) :
    reportTime (front ++ record ++ back) = some t ↔ record = clockRecord t := by
  have hbyte (i : ℕ) : (front ++ record ++ back).getD (8 + i) 0 = (record ++ back).getD i 0 := by
    rw [List.append_assoc, List.getD_append_right _ _ _ _ (by omega), hfront,
      Nat.add_sub_cancel_left]
  have hyear := t.year_le
  obtain ⟨hmonth, hday, hhour, hminute⟩ := t.utc.fields_le
  have hsecond := t.utc.second_le
  obtain ⟨b₀, b₁, b₂, b₃, b₄, b₅, b₆, rfl⟩ : ∃ b₀ b₁ b₂ b₃ b₄ b₅ b₆,
      record = [b₀, b₁, b₂, b₃, b₄, b₅, b₆] := by
    match record, hrecord with
    | [b₀, b₁, b₂, b₃, b₄, b₅, b₆], _ => exact ⟨b₀, b₁, b₂, b₃, b₄, b₅, b₆, rfl⟩
  have htime : reportTime (front ++ [b₀, b₁, b₂, b₃, b₄, b₅, b₆] ++ back) =
      unixTimeOfUtc (ofLe16 b₀ b₁).toNat b₂.toNat b₃.toNat b₄.toNat b₅.toNat b₆.toNat := by
    rw [reportTime]
    dsimp only
    rw [hbyte 0, hbyte 1, hbyte 2, hbyte 3, hbyte 4, hbyte 5, hbyte 6]
    rfl
  have hrecorded : [b₀, b₁, b₂, b₃, b₄, b₅, b₆] = clockRecord t ↔
      le16 (UInt16.ofNat t.utc.date.year.toNat) = [b₀, b₁] ∧
        UInt8.ofNat t.utc.date.month = b₂ ∧ UInt8.ofNat t.utc.date.day.toNat = b₃ ∧
        UInt8.ofNat t.utc.hour.toNat = b₄ ∧ UInt8.ofNat t.utc.minute.toNat = b₅ ∧
        UInt8.ofNat t.utc.second.toNat = b₆ := by
    rw [eq_comm, clockRecord]
    simp only [le16, List.cons_append, List.nil_append, List.cons.injEq, and_true, and_assoc]
  rw [htime, unixTimeOfUtc_eq_some_iff, hrecorded, ofLe16_eq_iff (by omega),
    ← ofNat_eq_iff (by omega), ← ofNat_eq_iff (by omega), ← ofNat_eq_iff (by omega),
    ← ofNat_eq_iff (by omega)]
  refine and_congr_right fun _ => and_congr_left fun _ => ?_
  have hmonthByte := ofNat_eq_iff (n := t.utc.date.month) (b := b₂) (by omega)
  rwa [Int.toNat_natCast, Nat.cast_inj] at hmonthByte

/-- 2024-02-29 23:59:58. -/
def leapEvening : UnixTime := ⟨1709251198, by decide⟩

theorem reportTime_leapEvening :
    reportTime ([0, 0, 0, 0, 0, 0, 0, 0] ++ [0xE8, 0x07, 2, 29, 23, 59, 58] ++ [0]) =
      some leapEvening :=
  (reportTime_eq_some_iff [0] rfl rfl leapEvening).mpr (by decide)

/-- What a frame reports as the time, if it is a status report: a time, or no date. -/
def reportedTime? (f : Frame) : Option (Option UnixTime) :=
  if isReport f then some (reportTime f.extraData) else none

/-- The flag that the clock has been set, after a frame. -/
def clockTaken (set : Bool) (f : Frame) : Bool := set || (reportedTime? f).isSome

/-- What a frame makes the daemon call `settimeofday` with. -/
def clockSet (set : Bool) (f : Frame) : List UnixTime :=
  if set then [] else (reportedTime? f).join.toList

/-- The clock after some calls of `settimeofday`. -/
def clockAfter (w : World) (calls : List UnixTime) : UnixTime :=
  if w.settimeofdaySucceeds then calls.getLast?.getD w.realTime else w.realTime

@[simp] theorem clockAfter_nil (w : World) : w.clockAfter [] = w.realTime := ite_self _

/-- The clock, what has been done to it and what can be done to it. -/
def clockPart (w : World) : Bool × UnixTime × Bool :=
  (w.pmu.systemTimeSetFlag, w.realTime, w.settimeofdaySucceeds)

theorem keptByTick_clockPart : KeptByTick clockPart where
  link := by
    rintro w w' ⟨l, n, rfl⟩
    rfl
  timestamp _ _ := rfl
  modem _ _ := rfl
  plan _ := rfl

theorem exists_statusBattery (w : World) {data : List UInt8} (hlen : 16 ≤ data.length) :
    ∃ batteryVoltage chargerVoltage boardTemp, w.statusDataParse data =
      (w.statusClock (reportTime data)).statusBattery batteryVoltage chargerVoltage boardTemp := by
  rw [statusDataParse, if_neg (Nat.not_lt.mpr hlen)]
  exact ⟨_, _, _, rfl⟩

theorem clock_statusDataParse (w : World) {data : List UInt8} (hlen : 16 ≤ data.length) :
    (w.statusDataParse data).clockPart =
      (true, w.clockAfter (if w.pmu.systemTimeSetFlag then [] else (reportTime data).toList),
        w.settimeofdaySucceeds) := by
  have hbattery (w : World) (batteryVoltage chargerVoltage : UInt32) (boardTemp : ℤ) :
      (w.statusBattery batteryVoltage chargerVoltage boardTemp).clockPart = w.clockPart := rfl
  obtain ⟨batteryVoltage, chargerVoltage, boardTemp, hparsed⟩ := w.exists_statusBattery hlen
  rw [hparsed, hbattery]
  cases hflag : w.pmu.systemTimeSetFlag with
  | true =>
    obtain ⟨-, hsame⟩ | ⟨hunset, -⟩ := w.statusClock_cases (reportTime data)
    · rw [if_pos rfl, clockAfter_nil, ← hflag]
      exact keptByTick_clockPart.link hsame
    · rw [hflag] at hunset
      cases hunset
  | false =>
    rw [if_neg Bool.false_ne_true]
    cases reportTime data with
    | none => simp [statusClock, hflag, clockPart]
    | some t => simp [statusClock, hflag, clockPart, clockAfter]

theorem clock_dispatchFrame (w : World) (f : Frame) :
    (w.dispatchFrame f).clockPart = (clockTaken w.pmu.systemTimeSetFlag f,
      w.clockAfter (clockSet w.pmu.systemTimeSetFlag f), w.settimeofdaySucceeds) := by
  rw [clockTaken, clockSet, reportedTime?]
  cases hreport : isReport f with
  | true =>
    obtain ⟨hhost, hcommand, hlen⟩ := (isReport_iff f).mp hreport
    have hkept := keptByTick_clockPart.link (requests_acknowledge
      ((w.setLink (w.pmu.link.releaseAnswered f)).statusDataParse f.extraData) f []).sameButLink
    rw [dispatchFrame, if_pos hhost, handleCommand, if_pos hcommand,
      if_neg (Nat.not_lt.mpr hlen), hkept,
      (w.setLink (w.pmu.link.releaseAnswered f)).clock_statusDataParse hlen, if_pos rfl,
      Option.isSome_some, Bool.or_true]
    rfl
  | false =>
    have hkept := keptByTick_clockPart.dispatchFrame (w := w) (f := f) fun hhost l w' heffect => by
      cases heffect with
      | status hcommand hlen =>
        rw [(isReport_iff f).mpr ⟨hhost, hcommand, hlen⟩] at hreport
        cases hreport
      | _ => rfl
    rw [hkept, if_neg Bool.false_ne_true, Option.isSome_none, Bool.or_false, Option.join_none,
      Option.toList_none, ite_self, clockAfter_nil]
    rfl

theorem changedByFrames_systemTimeSetFlag :
    ChangedByFrames (fun w => w.pmu.systemTimeSetFlag) clockTaken where
  kept :=
    ⟨fun h => congrArg Prod.fst (keptByTick_clockPart.link h), fun _ _ => rfl, fun _ _ => rfl,
      fun _ => rfl⟩
  environment _ _ _ _ _ := rfl
  shutdown _ := rfl
  reboot _ := rfl
  asked _ _ := rfl
  buffer _ _ := rfl
  frame w f := congrArg Prod.fst (w.clock_dispatchFrame f)

theorem clockSet_frames (set : Bool) (received : List Frame) :
    trace clockTaken clockSet set received =
      if set then [] else (received.filterMap reportedTime?).head?.join.toList := by
  induction received generalizing set with
  | nil =>
    rw [trace_nil]
    split <;> rfl
  | cons f received ih =>
    rw [trace_cons, ih, clockTaken, clockSet]
    cases set with
    | true => rfl
    | false =>
      rw [if_neg Bool.false_ne_true, if_neg Bool.false_ne_true, Bool.false_or]
      cases htime : reportedTime? f with
      | none =>
        rw [List.filterMap_cons_none htime]
        rfl
      | some pmuTime =>
        rw [List.filterMap_cons_some htime]
        exact List.append_nil _

theorem realTime_step_of_unread (w : World) {e : Event} (hinit : ∀ opened, e ≠ .init opened)
    (hread : ∀ r, e ≠ .read r) (hset : ∀ t, e ≠ .setClock t) :
    (w.step e).realTime = w.realTime := by
  have hlink {w w' : World} (hsame : SameButLink w w') : w'.realTime = w.realTime :=
    congrArg (fun clock => clock.2.1) (keptByTick_clockPart.link hsame)
  by_cases htick : e = .tick
  · subst htick
    exact congrArg (fun clock => clock.2.1) (keptByTick_clockPart.checkTimeoutFunc w)
  · apply part_step_of_environment hlink w e _ hinit hread htick (fun _ _ => rfl) fun _ _ => rfl
    intro hchange
    cases e with
    | setClock t => exact absurd rfl (hset t)
    | elapse => rfl
    | configure => rfl
    | modem => rfl
    | _ => cases hchange

theorem realTime_frames (w : World) (received : List Frame) :
    (run dispatchFrame w received).realTime =
      w.clockAfter (trace clockTaken clockSet w.pmu.systemTimeSetFlag received) := by
  induction received generalizing w with
  | nil => exact w.clockAfter_nil.symm
  | cons f received ih =>
    have hclock := w.clock_dispatchFrame f
    simp only [clockPart, Prod.mk.injEq] at hclock
    obtain ⟨hflag, htime, hsettable⟩ := hclock
    rw [run_cons, ih, clockAfter, hflag, htime, hsettable, trace_cons, clockAfter, clockAfter,
      List.getLast?_append, Option.getD_or]
    split <;> rfl

end World

namespace MainLoop

/-- What an event makes the daemon call `settimeofday` with. -/
def clockSets (s : MainLoop) (e : MainEvent) : List UnixTime :=
  trace World.clockTaken World.clockSet s.world.pmu.systemTimeSetFlag (s.framesSeen e)

/-- These calls change the clock, unless it is the world outside that sets it. -/
theorem realTime_step (s : MainLoop) {e : MainEvent} (hset : ∀ t, e ≠ .manager (.setClock t)) :
    (s.step e).world.realTime = s.world.clockAfter (s.clockSets e) := by
  rw [clockSets, ← World.realTime_frames, framesSeen, readsSeen]
  obtain hworld | ⟨hnone, sendPmuRequest, -, hworld⟩ := s.world_step e
  · rw [hworld]
    cases hevent : s.stepEvent? e with
    | none => rfl
    | some e' =>
      change (s.world.step e').realTime = _
      by_cases hread : ∃ r, e' = .read r
      · obtain ⟨r, rfl⟩ := hread
        rw [World.step]
        dsimp only
        split
        · rw [List.flatMap_singleton, World.serialReadWatchFunc]
          dsimp only
          rw [World.serialReadStep_eq_foldl]
        · rfl
      · have hsame : (s.world.step e').realTime = s.world.realTime := by
          apply World.realTime_step_of_unread
          · exact stepEvent?_ne_init hevent
          · exact fun r he => hread ⟨r, he⟩
          · rintro t rfl
            cases comesFrom_of_stepEvent? hevent with
            | manager => exact hset t rfl
        cases e' with
        | read r => exact absurd ⟨r, rfl⟩ hread
        | _ => exact hsame
  · rw [hworld, hnone]
    rfl

/-- The daemon calls `settimeofday` at most once in a run: with the time of the first status
report of the received stream, and not at all if that report has no date. Where the call
succeeds the clock is set to that time; every other change of it comes from outside. -/
theorem clockSets_run (w : World) (requestFile : Bool) (events : List MainEvent) :
    trace step clockSets (start w true requestFile) events =
        ((framesReceived w requestFile events).filterMap World.reportedTime?).head?.join.toList ∧
      Along step (fun s e => (∀ t, e ≠ .manager (.setClock t)) →
        (s.step e).world.realTime = s.world.clockAfter (s.clockSets e))
        (start w true requestFile) events := by
  let taken (s : MainLoop) : Bool := s.world.pmu.systemTimeSetFlag
  have hunset : taken (start w true requestFile) = false :=
    part_start w requestFile World.changedByFrames_systemTimeSetFlag.kept
  have hstep (s : MainLoop) (e : MainEvent) :
      taken (s.step e) = run World.clockTaken (taken s) (s.framesSeen e) :=
    World.changedByFrames_systemTimeSetFlag.step s e
  constructor
  · have hsets := World.clockSet_frames (taken (start w true requestFile))
      (trace step framesSeen (start w true requestFile) events)
    rw [trace_refines hstep, hunset, if_neg Bool.false_ne_true] at hsets
    rw [framesReceived_eq]
    exact hsets
  · apply (along_true _ events).mono
    intro s e _ hset
    exact s.realTime_step hset

end MainLoop
end PcatManager
