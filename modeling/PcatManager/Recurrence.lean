import PcatManager.GregorianCalendar

/-!
# Date-times that come back, seen from two zones

A recurrence compares some fields of a date-time with those of the one asked for. When
both are shifted by an offset, the comparison of the shifted fields need not mean the
same; how far it does is settled here for every offset of at most a day. Nothing here is
about a program.
-/

namespace GregorianCalendar

/-- How often a date-time comes back; a weekly one has its own days, Sunday being bit
zero. -/
inductive Recurrence where
  | once
  | yearly
  | monthly
  | weekly (days : ℕ)
  | daily
  | hourly
  deriving DecidableEq, Repr

/-- The fields the recurrence compares agree. -/
def Recurrence.Hits (r : Recurrence) (asked now : DateTime) : Prop :=
  match r with
  | .once => now.date.year = asked.date.year ∧ now.date.month = asked.date.month ∧
      now.date.day = asked.date.day ∧ now.hour = asked.hour ∧ now.minute = asked.minute
  | .yearly => now.date.month = asked.date.month ∧ now.date.day = asked.date.day ∧
      now.hour = asked.hour ∧ now.minute = asked.minute
  | .monthly => now.date.day = asked.date.day ∧ now.hour = asked.hour ∧ now.minute = asked.minute
  | .weekly days => days.testBit now.date.weekday.toNat = true ∧ now.hour = asked.hour ∧
      now.minute = asked.minute
  | .daily => now.hour = asked.hour ∧ now.minute = asked.minute
  | .hourly => now.minute = asked.minute

instance (r : Recurrence) (asked now : DateTime) : Decidable (r.Hits asked now) := by
  simp only [Recurrence.Hits]
  cases r <;> infer_instance

theorem Recurrence.hits_congr {asked asked' now now' : DateTime}
    (hasked : asked.date = asked'.date ∧ asked.hour = asked'.hour ∧ asked.minute = asked'.minute)
    (hnow : now.date = now'.date ∧ now.hour = now'.hour ∧ now.minute = now'.minute)
    (r : Recurrence) : r.Hits asked now ↔ r.Hits asked' now' := by
  simp only [Recurrence.Hits, hasked, hnow]

namespace Date

theorem next_cases (d : Date) :
    (d.day < monthLength (leapDay d.year) d.month ∧ d.next.month = d.month ∧
        d.next.day = d.day + 1) ∨
      (d.day = monthLength (leapDay d.year) d.month ∧ d.month < 12 ∧ d.next.month = d.month + 1 ∧
        d.next.day = 1) ∨
      (d.day = 31 ∧ d.month = 12 ∧ d.next.month = 1 ∧ d.next.day = 1) := by
  rcases Int.lt_or_eq_of_le d.day_le.2 with hlt | hend
  · exact .inl ⟨hlt, (next_of_lt d hlt).2⟩
  · rcases Nat.lt_or_eq_of_le d.month_le.2 with hmonth | hmonth
    · exact .inr (.inl ⟨hend, hmonth, (next_of_monthEnd d hend hmonth).2⟩)
    · have hday : d.day = 31 := by
        rw [hend, hmonth]
        rfl
      exact .inr (.inr ⟨hday, hmonth, (next_of_yearEnd d hday hmonth).2⟩)

theorem monthLength_eq {m : ℕ} (hm : 1 ≤ m ∧ m ≤ 12) (h : m ≠ 2) (leap leap' : ℤ) :
    monthLength leap m = monthLength leap' m := by
  rcases month_cases hm with rfl | rfl | rfl | rfl | rfl | rfl | rfl | rfl | rfl | rfl | rfl | rfl
  case inr.inl => exact absurd rfl h
  all_goals rfl

/-- Away from the end of February a day of the year is told by the day after it. -/
theorem monthDay_next_iff {e : Date} (he : ¬(e.month = 2 ∧ 28 ≤ e.day)) (d : Date) :
    (d.next.month = e.next.month ∧ d.next.day = e.next.day) ↔ (d.month = e.month ∧ d.day = e.day) := by
  have hdl := monthLength_bounds (leapDay_cases d.year) d.month_le
  have hel := monthLength_bounds (leapDay_cases e.year) e.month_le
  have hd := d.day_le
  have hed := e.day_le
  have hdm := d.month_le
  have hem := e.month_le
  by_cases hfeb : e.month = 2
  · rcases next_cases e with ⟨h1, h2, h3⟩ | ⟨h1, h2, h3, h4⟩ | ⟨h1, h2, h3, h4⟩ <;>
      rcases next_cases d with ⟨g1, g2, g3⟩ | ⟨g1, g2, g3, g4⟩ | ⟨g1, g2, g3, g4⟩ <;> omega
  · have hlength (hmonth : d.month = e.month) :
        monthLength (leapDay d.year) d.month = monthLength (leapDay e.year) e.month := by
      rw [hmonth, monthLength_eq e.month_le hfeb _ (leapDay e.year)]
    rcases next_cases e with ⟨h1, h2, h3⟩ | ⟨h1, h2, h3, h4⟩ | ⟨h1, h2, h3, h4⟩ <;>
      rcases next_cases d with ⟨g1, g2, g3⟩ | ⟨g1, g2, g3, g4⟩ | ⟨g1, g2, g3, g4⟩ <;> omega

/-- Up to the 27th a day of the month is told by the day after it. -/
theorem day_next_iff {e : Date} (he : e.day ≤ 27) (d : Date) :
    d.next.day = e.next.day ↔ d.day = e.day := by
  have hdl := monthLength_bounds (leapDay_cases d.year) d.month_le
  have hel := monthLength_bounds (leapDay_cases e.year) e.month_le
  have hd := d.day_le
  have hed := e.day_le
  rcases next_cases e with ⟨h1, h2, h3⟩ | ⟨h1, h2, h3, h4⟩ | ⟨h1, h2, h3, h4⟩ <;>
    rcases next_cases d with ⟨g1, g2, g3⟩ | ⟨g1, g2, g3, g4⟩ | ⟨g1, g2, g3, g4⟩ <;> omega

end Date

/-- The two days have the same month and day of the month. -/
def SameMonthDay (m n : ℤ) : Prop :=
  (Date.ofOrdinal m).month = (Date.ofOrdinal n).month ∧
    (Date.ofOrdinal m).day = (Date.ofOrdinal n).day

/-- The two days have the same day of the month. -/
def SameDay (m n : ℤ) : Prop := (Date.ofOrdinal m).day = (Date.ofOrdinal n).day

/-- A day of the end of February. -/
def AtFebruaryEnd (n : ℤ) : Prop := (Date.ofOrdinal n).month = 2 ∧ 28 ≤ (Date.ofOrdinal n).day

instance (n : ℤ) : Decidable (AtFebruaryEnd n) := inferInstanceAs (Decidable (_ ∧ _))

theorem sameMonthDay_succ {n : ℤ} (h : ¬AtFebruaryEnd n) (u : ℤ) :
    SameMonthDay (u + 1) (n + 1) ↔ SameMonthDay u n := by
  simp only [SameMonthDay, Date.ofOrdinal_succ]
  exact Date.monthDay_next_iff h _

theorem sameDay_succ {n : ℤ} (h : (Date.ofOrdinal n).day ≤ 27) (u : ℤ) :
    SameDay (u + 1) (n + 1) ↔ SameDay u n := by
  simp only [SameDay, Date.ofOrdinal_succ]
  exact Date.day_next_iff h _

/-- At the end of February one of 2000-02-28 and 2001-02-28 tells the days apart. -/
theorem atFebruaryEnd_differs {n : ℤ} (h : AtFebruaryEnd n) :
    ∃ u, 730119 ≤ u ∧ u < 730849 ∧ ¬(SameMonthDay (u + 1) (n + 1) ↔ SameMonthDay u n) := by
  have hleap : (Date.ofOrdinal 730177).month = 2 ∧ (Date.ofOrdinal 730177).day = 28 ∧
      (Date.ofOrdinal (730177 + 1)).month = 2 := by decide
  have hplain : (Date.ofOrdinal 730543).month = 2 ∧ (Date.ofOrdinal 730543).day = 28 ∧
      (Date.ofOrdinal (730543 + 1)).month = 3 ∧ (Date.ofOrdinal (730543 + 1)).day = 1 := by decide
  obtain ⟨hmonth, hday⟩ := h
  have hnext := (Date.ofOrdinal n).next_cases
  rw [← Date.ofOrdinal_succ] at hnext
  by_cases hmarch : (Date.ofOrdinal (n + 1)).month = 3
  · by_cases h28 : (Date.ofOrdinal n).day = 28
    · refine ⟨730177, by omega, by omega, ?_⟩
      simp only [SameMonthDay]
      omega
    · refine ⟨730543, by omega, by omega, ?_⟩
      simp only [SameMonthDay]
      omega
  · refine ⟨730543, by omega, by omega, ?_⟩
    have hlength := monthLength_bounds (leapDay_cases (Date.ofOrdinal n).year)
      (Date.ofOrdinal n).month_le
    have h29 : monthLength (leapDay (Date.ofOrdinal n).year) (Date.ofOrdinal n).month ≤ 29 := by
      have hleapDay := leapDay_cases (Date.ofOrdinal n).year
      rw [hmonth]
      simp only [monthLength]
      omega
    simp only [SameMonthDay]
    omega

/-- From the 28th on one of these days tells the days of the month apart. -/
theorem lateDay_differs {n : ℤ} (h : 28 ≤ (Date.ofOrdinal n).day) :
    ∃ u, 730119 ≤ u ∧ u < 730849 ∧ ¬(SameDay (u + 1) (n + 1) ↔ SameDay u n) := by
  have hnext := (Date.ofOrdinal n).next_cases
  rw [← Date.ofOrdinal_succ] at hnext
  have hlength := monthLength_bounds (leapDay_cases (Date.ofOrdinal n).year)
    (Date.ofOrdinal n).month_le
  have hday := (Date.ofOrdinal n).day_le
  -- days inside a month and last days of a month, by their day of the month
  have hinside : (Date.ofOrdinal 730512).day = 28 ∧ (Date.ofOrdinal (730512 + 1)).day = 29 ∧
      (Date.ofOrdinal 730513).day = 29 ∧ (Date.ofOrdinal (730513 + 1)).day = 30 ∧
      (Date.ofOrdinal 730514).day = 30 ∧ (Date.ofOrdinal (730514 + 1)).day = 31 := by decide
  have hlast : (Date.ofOrdinal 730543).day = 28 ∧ (Date.ofOrdinal (730543 + 1)).day = 1 ∧
      (Date.ofOrdinal 730178).day = 29 ∧ (Date.ofOrdinal (730178 + 1)).day = 1 ∧
      (Date.ofOrdinal 730604).day = 30 ∧ (Date.ofOrdinal (730604 + 1)).day = 1 := by decide
  have hcases : (Date.ofOrdinal n).day = 28 ∨ (Date.ofOrdinal n).day = 29 ∨
      (Date.ofOrdinal n).day = 30 ∨ (Date.ofOrdinal n).day = 31 := by omega
  simp only [SameDay]
  by_cases hfirst : (Date.ofOrdinal (n + 1)).day = 1
  · rcases hcases with h28 | h29 | h30 | h31
    · exact ⟨730512, by omega, by omega, by omega⟩
    · exact ⟨730513, by omega, by omega, by omega⟩
    · exact ⟨730514, by omega, by omega, by omega⟩
    · exact ⟨730604, by omega, by omega, by omega⟩
  · rcases hcases with h28 | h29 | h30 | h31
    · exact ⟨730543, by omega, by omega, by omega⟩
    · exact ⟨730178, by omega, by omega, by omega⟩
    · exact ⟨730604, by omega, by omega, by omega⟩
    · omega

/-- Every day of the week or none. -/
def EveryDayOrNone (days : ℕ) : Prop :=
  (∀ i < 7, days.testBit i = true) ∨ ∀ i < 7, days.testBit i = false

instance (days : ℕ) : Decidable (EveryDayOrNone days) := inferInstanceAs (Decidable (_ ∨ _))

/-- The day of the week is one of the days. -/
def OnWeekday (days : ℕ) (n : ℤ) : Prop :=
  days.testBit (Date.ofOrdinal n).weekday.toNat = true

theorem onWeekday_of_everyDayOrNone {days : ℕ} (h : EveryDayOrNone days) (m n : ℤ) :
    OnWeekday days m ↔ OnWeekday days n := by
  have hm := (Date.ofOrdinal m).weekday_bounds
  have hn := (Date.ofOrdinal n).weekday_bounds
  simp only [OnWeekday]
  rcases h with h | h <;> rw [h _ (by omega), h _ (by omega)]

theorem weekday_ofOrdinal_add {i : ℕ} (hi : i < 7) :
    (Date.ofOrdinal (730120 + i)).weekday.toNat = i := by
  rw [Date.weekday_ofOrdinal]
  omega

theorem everyDayOrNone_of_shift {days : ℕ}
    (h : ∀ u, 730119 ≤ u → u < 730849 → (OnWeekday days (u + 1) ↔ OnWeekday days u)) :
    EveryDayOrNone days := by
  have hstep (i : ℕ) (hi : i + 1 < 7) : days.testBit (i + 1) = days.testBit i := by
    have hday := h (730120 + i) (by omega) (by omega)
    simp only [OnWeekday] at hday
    rw [weekday_ofOrdinal_add (by omega), show 730120 + (i : ℤ) + 1 = 730120 + ((i + 1 : ℕ) : ℤ) by omega,
      weekday_ofOrdinal_add hi] at hday
    exact Bool.eq_iff_iff.mpr hday
  have hall (i : ℕ) (hi : i < 7) : days.testBit i = days.testBit 0 := by
    induction i with
    | zero => rfl
    | succ i ih => rw [hstep i hi, ih (by omega)]
  cases hzero : days.testBit 0 with
  | true => exact .inl fun i hi => (hall i hi).trans hzero
  | false => exact .inr fun i hi => (hall i hi).trans hzero

namespace Recurrence

/-- The days the recurrence comes back on, given the day asked for. -/
def OnDay (r : Recurrence) (asked day : ℤ) : Prop :=
  match r with
  | .once => day = asked
  | .yearly => SameMonthDay day asked
  | .monthly => SameDay day asked
  | .weekly days => OnWeekday days day
  | .daily | .hourly => True

theorem ofMinutes_time_iff (m n : ℤ) :
    ((DateTime.ofMinutes n).hour = (DateTime.ofMinutes m).hour ∧
      (DateTime.ofMinutes n).minute = (DateTime.ofMinutes m).minute) ↔ n % 1440 = m % 1440 := by
  simp only [DateTime.ofMinutes]
  omega

/-- All recurrences but the hourly one compare the day and the time of day. -/
theorem hits_ofMinutes {r : Recurrence} (hr : r ≠ .hourly) (m n : ℤ) :
    r.Hits (.ofMinutes m) (.ofMinutes n) ↔
      r.OnDay (m / 1440) (n / 1440) ∧ n % 1440 = m % 1440 := by
  rw [← ofMinutes_time_iff]
  cases r with
  | once =>
    have hdate : ((DateTime.ofMinutes n).date.year = (DateTime.ofMinutes m).date.year ∧
        (DateTime.ofMinutes n).date.month = (DateTime.ofMinutes m).date.month ∧
        (DateTime.ofMinutes n).date.day = (DateTime.ofMinutes m).date.day) ↔ n / 1440 = m / 1440 := by
      constructor
      · rintro ⟨hyear, hmonth, hday⟩
        exact Date.ofOrdinal_injective (Date.ext hyear hmonth hday)
      · intro h
        simp only [DateTime.ofMinutes, h, and_self]
    rw [OnDay, ← hdate]
    simp only [Hits, and_assoc]
  | yearly => simp only [Hits, OnDay, SameMonthDay, DateTime.ofMinutes, and_assoc]
  | monthly => exact Iff.rfl
  | weekly days => exact Iff.rfl
  | daily => simp only [Hits, OnDay, true_and]
  | hourly => exact absurd rfl hr

theorem hourly_hits_ofMinutes (m n : ℤ) :
    hourly.Hits (.ofMinutes m) (.ofMinutes n) ↔ n % 60 = m % 60 := Iff.rfl

/-- At every minute of the calendar the recurrence of `kept` hits exactly when that of
`asked` does with the offset added. -/
def Agrees (r : Recurrence) (offset kept asked : ℤ) : Prop :=
  ∀ n, 0 ≤ n → n < 3652059 * 1440 →
    (r.Hits (.ofMinutes kept) (.ofMinutes n) ↔ r.Hits (.ofMinutes asked) (.ofMinutes (n + offset)))

/-- Agreement is that of the times of day, and that of the days shifted alike. -/
theorem agrees_iff {r : Recurrence} (hr : r ≠ .hourly) {offset kept asked : ℤ}
    (hsome : ∃ u, InCalendar u ∧ r.OnDay (kept / 1440) u) :
    r.Agrees offset kept asked ↔ kept % 1440 = (asked - offset) % 1440 ∧
      ∀ u, InCalendar u → (r.OnDay (kept / 1440) u ↔
        r.OnDay (asked / 1440) (u + (asked / 1440 - (asked - offset) / 1440))) := by
  simp only [Agrees, hits_ofMinutes hr]
  constructor
  · intro h
    -- the minutes at the time of day that is kept
    have hat (u : ℤ) (hu : InCalendar u) := h (u * 1440 + kept % 1440)
      (by rw [InCalendar] at hu; omega) (by rw [InCalendar] at hu; omega)
    have hquot (u : ℤ) : (u * 1440 + kept % 1440) / 1440 = u := by omega
    have hrem (u : ℤ) : (u * 1440 + kept % 1440) % 1440 = kept % 1440 := by omega
    simp only [hquot, hrem, and_true] at hat
    obtain ⟨u, hu, hon⟩ := hsome
    have haligned : kept % 1440 = (asked - offset) % 1440 := by
      have htime := ((hat u hu).mp hon).2
      omega
    refine ⟨haligned, fun u hu => ?_⟩
    have hday : (u * 1440 + kept % 1440 + offset) / 1440 =
        u + (asked / 1440 - (asked - offset) / 1440) := by omega
    have htime : (u * 1440 + kept % 1440 + offset) % 1440 = asked % 1440 := by omega
    rw [hat u hu, hday]
    exact and_iff_left htime
  · rintro ⟨haligned, hdays⟩ n h0 h1
    by_cases htime : n % 1440 = kept % 1440
    · have hday : (n + offset) / 1440 =
          n / 1440 + (asked / 1440 - (asked - offset) / 1440) := by omega
      have htime' : (n + offset) % 1440 = asked % 1440 := by omega
      rw [hday, and_iff_left htime, and_iff_left htime']
      exact hdays (n / 1440) ⟨by omega, by omega⟩
    · have htime' : ¬(n + offset) % 1440 = asked % 1440 := by omega
      simp only [htime, htime', and_false]

/-- Days that are compared the same way one day on, unless they are of a bad kind. -/
theorem shifted_days_iff {same : ℤ → ℤ → Prop} {bad : ℤ → Prop}
    (hgood : ∀ n, ¬bad n → ∀ u, same (u + 1) (n + 1) ↔ same u n)
    (hbad : ∀ n, bad n →
      ∃ u, 730119 ≤ u ∧ u < 730849 ∧ ¬(same (u + 1) (n + 1) ↔ same u n))
    {v m : ℤ} (hshift : m = v + 1 ∨ v = m + 1) :
    (∀ u, InCalendar u → (same u v ↔ same (u + (m - v)) m)) ↔ ¬bad (min v m) := by
  rcases hshift with rfl | rfl
  · rw [min_eq_left (by omega), show v + 1 - v = 1 by omega]
    constructor
    · intro h hb
      obtain ⟨u, h0, h1, hdiffers⟩ := hbad v hb
      exact hdiffers (h u ⟨by omega, by omega⟩).symm
    · intro hb u _
      exact (hgood v hb u).symm
  · rw [min_eq_right (by omega), show m - (m + 1) = -1 by omega]
    constructor
    · intro h hb
      obtain ⟨u, h0, h1, hdiffers⟩ := hbad m hb
      have hday := h (u + 1) ⟨by omega, by omega⟩
      rw [show u + 1 + -1 = u by omega] at hday
      exact hdiffers hday
    · intro hb u _
      have hday := hgood m hb (u + -1)
      rwa [show u + -1 + 1 = u by omega] at hday

theorem shifted_weekdays_iff {days : ℕ} {shift : ℤ} (hshift : shift = 1 ∨ shift = -1) :
    (∀ u, InCalendar u → (OnWeekday days u ↔ OnWeekday days (u + shift))) ↔ EveryDayOrNone days := by
  constructor
  · intro h
    refine everyDayOrNone_of_shift fun u h0 h1 => ?_
    rcases hshift with rfl | rfl
    · exact (h u ⟨by omega, by omega⟩).symm
    · have hday := h (u + 1) ⟨by omega, by omega⟩
      rwa [show u + 1 + -1 = u by omega] at hday
  · exact fun h u _ => onWeekday_of_everyDayOrNone h u (u + shift)

theorem weekly_agrees_iff {days : ℕ} {offset kept asked : ℤ} :
    (weekly days).Agrees offset kept asked ↔ (∀ i < 7, days.testBit i = false) ∨
      kept % 1440 = (asked - offset) % 1440 ∧
        ∀ u, InCalendar u → (OnWeekday days u ↔
          OnWeekday days (u + (asked / 1440 - (asked - offset) / 1440))) := by
  by_cases hnone : ∀ i < 7, days.testBit i = false
  · have hoff (u : ℤ) : ¬OnWeekday days u := by
      have hbounds := (Date.ofOrdinal u).weekday_bounds
      rw [OnWeekday]
      rw [hnone _ (by omega)]
      exact Bool.false_ne_true
    refine iff_of_true (fun n _ _ => ?_) (.inl hnone)
    simp only [hits_ofMinutes (r := weekly days) nofun, OnDay, hoff, false_and]
  · obtain ⟨i, hi, hbit⟩ : ∃ i < 7, days.testBit i = true := by
      simpa only [not_forall, Bool.not_eq_false, exists_prop] using hnone
    have hsome : ∃ u, InCalendar u ∧ (weekly days).OnDay (kept / 1440) u := by
      refine ⟨730120 + i, ⟨by omega, by omega⟩, ?_⟩
      rw [OnDay, OnWeekday, weekday_ofOrdinal_add hi, hbit]
    rw [agrees_iff (r := weekly days) nofun hsome, or_iff_right hnone]
    exact Iff.rfl

/-- The recurrence keeps its meaning over midnight; `earlier` is the earlier of the two
days. -/
def KeptOverMidnight (r : Recurrence) (earlier : ℤ) : Prop :=
  match r with
  | .once | .daily | .hourly => True
  | .yearly => ¬AtFebruaryEnd earlier
  | .monthly => ¬28 ≤ (Date.ofOrdinal earlier).day
  | .weekly days => EveryDayOrNone days

instance (r : Recurrence) (earlier : ℤ) : Decidable (r.KeptOverMidnight earlier) := by
  simp only [KeptOverMidnight]
  cases r <;> infer_instance

/-- A date-time shifted by its offset agrees with the one asked for exactly when the shift
does not pass midnight or the recurrence keeps its meaning over it. -/
theorem agrees_shifted_iff (r : Recurrence) {offset asked : ℤ}
    (hoffset : -1440 ≤ offset ∧ offset ≤ 1440) (hin : InCalendar ((asked - offset) / 1440)) :
    r.Agrees offset (asked - offset) asked ↔ asked / 1440 = (asked - offset) / 1440 ∨
      r.KeptOverMidnight (min ((asked - offset) / 1440) (asked / 1440)) := by
  have hshift : asked / 1440 = (asked - offset) / 1440 ∨
      asked / 1440 = (asked - offset) / 1440 + 1 ∨
      (asked - offset) / 1440 = asked / 1440 + 1 := by omega
  -- what is left of the agreement of a recurrence that comes back on the kept day
  have hdays (r : Recurrence) (hr : r ≠ .hourly)
      (hon : r.OnDay ((asked - offset) / 1440) ((asked - offset) / 1440)) :
      r.Agrees offset (asked - offset) asked ↔
        ∀ u, InCalendar u → (r.OnDay ((asked - offset) / 1440) u ↔
          r.OnDay (asked / 1440) (u + (asked / 1440 - (asked - offset) / 1440))) :=
    (agrees_iff hr ⟨_, hin, hon⟩).trans (and_iff_right rfl)
  cases r with
  | hourly =>
    refine iff_of_true (fun n _ _ => ?_) (.inr trivial)
    simp only [hourly_hits_ofMinutes]
    omega
  | daily => exact iff_of_true ((hdays daily nofun trivial).mpr fun _ _ => Iff.rfl) (.inr trivial)
  | once =>
    refine iff_of_true ((hdays once nofun rfl).mpr fun u _ => ?_) (.inr trivial)
    simp only [OnDay]
    omega
  | yearly =>
    rw [hdays yearly nofun ⟨rfl, rfl⟩]
    rcases hshift with hsame | hmidnight
    · refine iff_of_true (fun u _ => ?_) (.inl hsame)
      rw [hsame, sub_self, add_zero]
    · rw [or_iff_right (by omega)]
      exact shifted_days_iff (fun n hn u => sameMonthDay_succ hn u)
        (fun n hn => atFebruaryEnd_differs hn) hmidnight
  | monthly =>
    rw [hdays monthly nofun rfl]
    rcases hshift with hsame | hmidnight
    · refine iff_of_true (fun u _ => ?_) (.inl hsame)
      rw [hsame, sub_self, add_zero]
    · rw [or_iff_right (by omega)]
      exact shifted_days_iff (fun n hn u => sameDay_succ (by omega) u)
        (fun n hn => lateDay_differs hn) hmidnight
  | weekly days =>
    rw [weekly_agrees_iff, and_iff_right rfl]
    rcases hshift with hsame | hmidnight
    · refine iff_of_true (.inr fun u _ => ?_) (.inl hsame)
      rw [hsame, sub_self, add_zero]
    · rw [or_iff_right (by omega : ¬asked / 1440 = (asked - offset) / 1440),
        shifted_weekdays_iff (by omega)]
      exact or_iff_right_of_imp .inr

/-- 2000-01-01 00:00. -/
def start2000 : ℤ := 730119 * 1440

/-- The recurrence keeps its meaning when its date-time is replaced by the start of
2000. -/
def KeptByReset (r : Recurrence) (asked shifted : ℤ) : Prop :=
  match r with
  | .once | .monthly => False
  | .yearly => shifted % 1440 = 0 ∧ (Date.ofOrdinal (asked / 1440)).month = 12
  | .weekly days => (∀ i < 7, days.testBit i = false) ∨
      shifted % 1440 = 0 ∧ ∀ i < 7, days.testBit i = true
  | .daily => shifted % 1440 = 0
  | .hourly => shifted % 60 = 0

instance (r : Recurrence) (asked shifted : ℤ) : Decidable (r.KeptByReset asked shifted) := by
  simp only [KeptByReset]
  cases r <;> infer_instance

theorem start2000_day : start2000 / 1440 = 730119 := by decide

theorem start2000_time : start2000 % 1440 = 0 := by decide

theorem inCalendar_start2000 : InCalendar (start2000 / 1440) := by
  rw [start2000_day]
  exact ⟨by omega, by omega⟩

/-- A shift of at most a day leaves the calendar over its first or over its last day. -/
theorem ends_of_shifted_out {offset asked : ℤ} (hoffset : -1440 ≤ offset ∧ offset ≤ 1440)
    (hasked : InCalendar (asked / 1440)) (hout : ¬InCalendar ((asked - offset) / 1440)) :
    (asked / 1440 = 0 ∧ (asked - offset) / 1440 = -1) ∨
      (asked / 1440 = 3652058 ∧ (asked - offset) / 1440 = 3652059) := by
  rw [InCalendar] at hasked hout
  omega

theorem hourly_agrees_start2000_iff {offset asked : ℤ} :
    hourly.Agrees offset start2000 asked ↔ hourly.KeptByReset asked (asked - offset) := by
  simp only [Agrees, hourly_hits_ofMinutes, KeptByReset]
  have hminute : start2000 % 60 = 0 := by decide
  constructor
  · intro h
    have hstart := h start2000 (by decide) (by decide)
    omega
  · intro h n _ _
    omega

/-- Only the last day of December is followed by the date on which 2000 starts. -/
theorem yearly_agrees_start2000_iff {offset asked : ℤ} (hoffset : -1440 ≤ offset ∧ offset ≤ 1440)
    (hasked : InCalendar (asked / 1440)) (hout : ¬InCalendar ((asked - offset) / 1440)) :
    yearly.Agrees offset start2000 asked ↔ yearly.KeptByReset asked (asked - offset) := by
  rw [agrees_iff (r := yearly) nofun ⟨_, inCalendar_start2000, rfl, rfl⟩, start2000_time,
    start2000_day, KeptByReset, eq_comm (a := (0 : ℤ))]
  refine and_congr_right fun _ => ?_
  rcases ends_of_shifted_out hoffset hasked hout with ⟨hasked0, hout0⟩ | ⟨hasked1, hout1⟩
  · have hfirst : (Date.ofOrdinal 0).month = 1 ∧ (Date.ofOrdinal 0).day = 1 := by decide
    have hsecond : (Date.ofOrdinal (730119 + 1)).day = 2 := by decide
    rw [hasked0, hout0, hfirst.1]
    refine iff_of_false (fun hdays => ?_) (by omega)
    have hstart := ((hdays 730119 ⟨by omega, by omega⟩).mp ⟨rfl, rfl⟩).2
    rw [show (730119 : ℤ) + (0 - -1) = 730119 + 1 by omega] at hstart
    omega
  · have hlast : (Date.ofOrdinal 3652058).month = 12 ∧ (Date.ofOrdinal 3652058).day = 31 := by
      decide
    have hnewYear : SameMonthDay 730119 (3652058 + 1) := ⟨by decide, by decide⟩
    have hend : ¬AtFebruaryEnd 3652058 := by
      rw [AtFebruaryEnd]
      omega
    rw [hasked1, hout1, hlast.1]
    refine iff_of_true (fun u _ => ?_) rfl
    have hnext := sameMonthDay_succ hend (u + -1)
    rw [show u + -1 + 1 = u by omega] at hnext
    rw [show u + (3652058 - 3652059) = u + -1 by omega]
    refine Iff.trans ?_ hnext
    simp only [OnDay, SameMonthDay, hnewYear.1, hnewYear.2]

theorem not_monthly_agrees_start2000 {offset asked : ℤ} (hoffset : -1440 ≤ offset ∧ offset ≤ 1440)
    (hasked : InCalendar (asked / 1440)) (hout : ¬InCalendar ((asked - offset) / 1440)) :
    ¬monthly.Agrees offset start2000 asked := by
  rw [agrees_iff (r := monthly) nofun ⟨_, inCalendar_start2000, rfl⟩, start2000_day]
  rintro ⟨-, hdays⟩
  have hjanuary : (Date.ofOrdinal 730119).day = 1 ∧ (Date.ofOrdinal (730119 + 1)).day = 2 := by
    decide
  rcases ends_of_shifted_out hoffset hasked hout with ⟨hasked0, hout0⟩ | ⟨hasked1, hout1⟩
  · rw [hasked0, hout0] at hdays
    have hstart := (hdays 730119 ⟨by omega, by omega⟩).mp rfl
    rw [show (730119 : ℤ) + (0 - -1) = 730119 + 1 by omega] at hstart
    simp only [OnDay, SameDay] at hstart
    have hfirst : (Date.ofOrdinal 0).day = 1 := by decide
    omega
  · -- the day before the first of March of a leap year is the 29th
    have hmarch : (Date.ofOrdinal (730178 + 1)).day = 1 ∧
        (Date.ofOrdinal (730178 + 1 + -1)).day = 29 := by decide
    have hlast : (Date.ofOrdinal 3652058).day = 31 := by decide
    rw [hasked1, hout1] at hdays
    have hstart := (hdays (730178 + 1) ⟨by omega, by omega⟩).mp (hmarch.1.trans hjanuary.1.symm)
    rw [show (730178 + 1 : ℤ) + (3652058 - 3652059) = 730178 + 1 + -1 by omega] at hstart
    simp only [OnDay, SameDay] at hstart
    omega

theorem not_once_agrees_start2000 {offset asked : ℤ} (hoffset : -1440 ≤ offset ∧ offset ≤ 1440)
    (hasked : InCalendar (asked / 1440)) (hout : ¬InCalendar ((asked - offset) / 1440)) :
    ¬once.Agrees offset start2000 asked := by
  rw [agrees_iff (r := once) nofun ⟨_, inCalendar_start2000, rfl⟩, start2000_day]
  rintro ⟨-, hdays⟩
  have hends := ends_of_shifted_out hoffset hasked hout
  have hstart := (hdays 730119 ⟨by omega, by omega⟩).mp rfl
  simp only [OnDay] at hstart
  omega

theorem weekly_agrees_start2000_iff (days : ℕ) {offset asked : ℤ}
    (hoffset : -1440 ≤ offset ∧ offset ≤ 1440) (hasked : InCalendar (asked / 1440))
    (hout : ¬InCalendar ((asked - offset) / 1440)) :
    (weekly days).Agrees offset start2000 asked ↔
      (weekly days).KeptByReset asked (asked - offset) := by
  have hends := ends_of_shifted_out hoffset hasked hout
  rw [weekly_agrees_iff, shifted_weekdays_iff (by omega), start2000_time, KeptByReset,
    EveryDayOrNone, eq_comm (a := (0 : ℤ))]
  constructor
  · rintro (hnone | ⟨haligned, hall | hnone⟩)
    · exact .inl hnone
    · exact .inr ⟨haligned, hall⟩
    · exact .inl hnone
  · rintro (hnone | ⟨haligned, hall⟩)
    · exact .inl hnone
    · exact .inr ⟨haligned, .inl hall⟩

/-- When a date-time of the calendar is shifted out of it and replaced by the start of
2000. -/
theorem agrees_start2000_iff (r : Recurrence) {offset asked : ℤ}
    (hoffset : -1440 ≤ offset ∧ offset ≤ 1440) (hasked : InCalendar (asked / 1440))
    (hout : ¬InCalendar ((asked - offset) / 1440)) :
    r.Agrees offset start2000 asked ↔ r.KeptByReset asked (asked - offset) := by
  cases r with
  | hourly => exact hourly_agrees_start2000_iff
  | daily =>
    rw [agrees_iff (r := daily) nofun ⟨_, inCalendar_start2000, trivial⟩, start2000_time, KeptByReset]
    simp only [OnDay, implies_true, and_true, eq_comm]
  | once =>
    rw [KeptByReset, iff_false]
    exact not_once_agrees_start2000 hoffset hasked hout
  | yearly => exact yearly_agrees_start2000_iff hoffset hasked hout
  | monthly =>
    rw [KeptByReset, iff_false]
    exact not_monthly_agrees_start2000 hoffset hasked hout
  | weekly days => exact weekly_agrees_start2000_iff days hoffset hasked hout

end Recurrence

end GregorianCalendar
