import Mathlib.Data.Int.Order.Basic
import Mathlib.Order.Basic
import Mathlib.Algebra.Order.Ring.Int

/-!
# The proleptic Gregorian calendar

Dates and their ordinals, counted in days from the first of January of the year one, over
all the integers, and the times of day over them. Nothing here is about a program.
-/

namespace GregorianCalendar

def IsLeap (year : ℤ) : Prop := year % 4 = 0 ∧ (year % 100 ≠ 0 ∨ year % 400 = 0)

instance (year : ℤ) : Decidable (IsLeap year) := inferInstanceAs (Decidable (_ ∧ _))

/-- The extra day of a leap year. -/
def leapDay (year : ℤ) : ℤ := if IsLeap year then 1 else 0

theorem leapDay_cases (year : ℤ) : leapDay year = 0 ∨ leapDay year = 1 := by
  rw [leapDay]
  split
  · exact .inr rfl
  · exact .inl rfl

/-- The length of a month, given the leap day of its year. -/
def monthLength (leap : ℤ) : ℕ → ℤ
  | 1 => 31 | 2 => 28 + leap | 3 => 31 | 4 => 30 | 5 => 31 | 6 => 30
  | 7 => 31 | 8 => 31 | 9 => 30 | 10 => 31 | 11 => 30 | 12 => 31
  | _ => 0

/-- The days of the year before a month. -/
def monthStart (leap : ℤ) : ℕ → ℤ
  | 1 => 0 | 2 => 31 | 3 => 59 + leap | 4 => 90 + leap | 5 => 120 + leap | 6 => 151 + leap
  | 7 => 181 + leap | 8 => 212 + leap | 9 => 243 + leap | 10 => 273 + leap | 11 => 304 + leap
  | 12 => 334 + leap
  | _ => 365 + leap

theorem month_cases {m : ℕ} (h : 1 ≤ m ∧ m ≤ 12) : m = 1 ∨ m = 2 ∨ m = 3 ∨ m = 4 ∨ m = 5 ∨ m = 6 ∨
    m = 7 ∨ m = 8 ∨ m = 9 ∨ m = 10 ∨ m = 11 ∨ m = 12 := by omega

theorem monthStart_succ (leap : ℤ) {m : ℕ} (h : 1 ≤ m ∧ m ≤ 12) :
    monthStart leap (m + 1) = monthStart leap m + monthLength leap m := by
  rcases month_cases h with rfl | rfl | rfl | rfl | rfl | rfl | rfl | rfl | rfl | rfl | rfl | rfl <;>
    simp only [monthStart, monthLength] <;> omega

theorem monthLength_bounds {leap : ℤ} (hleap : leap = 0 ∨ leap = 1) {m : ℕ}
    (hm : 1 ≤ m ∧ m ≤ 12) : 28 ≤ monthLength leap m ∧ monthLength leap m ≤ 31 := by
  rcases month_cases hm with rfl | rfl | rfl | rfl | rfl | rfl | rfl | rfl | rfl | rfl | rfl | rfl <;>
    simp only [monthLength] <;> omega

theorem monthStart_mono {leap : ℤ} (hleap : leap = 0 ∨ leap = 1) {m n : ℕ} (hm : 1 ≤ m)
    (hle : m ≤ n) (hn : n ≤ 13) : monthStart leap m ≤ monthStart leap n := by
  induction n, hle using Nat.le_induction with
  | base => exact le_refl _
  | succ n hle ih =>
    have hlen := monthLength_bounds hleap (m := n) (by omega)
    have hprev := ih (by omega)
    rw [monthStart_succ leap (by omega)]
    omega

/-- The month of a day of the year, tried from a month on. -/
def monthFrom (leap day : ℤ) : ℕ → ℕ → ℕ
  | 0, m => m
  | left + 1, m => if day < monthStart leap (m + 1) then m else monthFrom leap day left (m + 1)

theorem monthFrom_spec (leap day : ℤ) (left m : ℕ) (h0 : monthStart leap m ≤ day)
    (h1 : day < monthStart leap (m + left + 1)) :
    m ≤ monthFrom leap day left m ∧ monthFrom leap day left m ≤ m + left ∧
      monthStart leap (monthFrom leap day left m) ≤ day ∧
      day < monthStart leap (monthFrom leap day left m + 1) := by
  induction left generalizing m with
  | zero => exact ⟨le_refl m, by simp [monthFrom], h0, h1⟩
  | succ left ih =>
    rw [monthFrom]
    split
    · rename_i hlt
      exact ⟨le_refl m, by omega, h0, hlt⟩
    · rename_i hge
      obtain ⟨h2, h3, h4, h5⟩ := ih (m + 1) (by omega)
        (by rw [show m + 1 + left + 1 = m + (left + 1) + 1 by omega]; exact h1)
      exact ⟨by omega, by omega, h4, h5⟩

/-- The month of a day of the year, counted from zero. -/
def monthOf (leap day : ℤ) : ℕ := monthFrom leap day 11 1

/-- A day of the year lies in its month. -/
theorem monthOf_spec {leap day : ℤ} (h0 : 0 ≤ day) (h1 : day < 365 + leap) :
    (1 ≤ monthOf leap day ∧ monthOf leap day ≤ 12) ∧
      monthStart leap (monthOf leap day) ≤ day ∧
      day < monthStart leap (monthOf leap day) + monthLength leap (monthOf leap day) := by
  obtain ⟨h2, h3, h4, h5⟩ := monthFrom_spec leap day 11 1 h0 h1
  have hm : 1 ≤ monthOf leap day ∧ monthOf leap day ≤ 12 := ⟨h2, h3⟩
  exact ⟨hm, h4, by rw [← monthStart_succ leap hm]; exact h5⟩

/-- The days of a month belong to it and to the year. -/
theorem monthOf_add {leap d : ℤ} {m : ℕ} (hleap : leap = 0 ∨ leap = 1) (hm : 1 ≤ m ∧ m ≤ 12)
    (h0 : 0 ≤ d) (h1 : d < monthLength leap m) :
    monthOf leap (monthStart leap m + d) = m ∧ 0 ≤ monthStart leap m + d ∧
      monthStart leap m + d < 365 + leap := by
  have hfirst : 0 ≤ monthStart leap m := monthStart_mono hleap (le_refl 1) hm.1 (by omega)
  have hlast : monthStart leap (m + 1) ≤ 365 + leap :=
    monthStart_mono hleap (by omega) (by omega) (le_refl 13)
  have hsucc := monthStart_succ leap hm
  obtain ⟨hr, h2, h3⟩ := monthOf_spec (show 0 ≤ monthStart leap m + d by omega)
    (show monthStart leap m + d < 365 + leap by omega)
  rw [← monthStart_succ leap hr] at h3
  refine ⟨?_, by omega, by omega⟩
  generalize monthOf leap (monthStart leap m + d) = r at hr h2 h3
  -- the months do not overlap
  rcases Nat.lt_trichotomy r m with hlt | heq | hlt
  · have := monthStart_mono hleap (m := r + 1) (n := m) (by omega) hlt (by omega)
    omega
  · exact heq
  · have := monthStart_mono hleap (m := m + 1) (n := r) (by omega) hlt (by omega)
    omega

/-- The days before the first day of a year. -/
def yearStart (year : ℤ) : ℤ :=
  365 * (year - 1) + (year - 1) / 4 - (year - 1) / 100 + (year - 1) / 400

theorem yearStart_succ (year : ℤ) : yearStart (year + 1) = yearStart year + 365 + leapDay year := by
  simp only [yearStart, leapDay, IsLeap]
  rw [add_sub_cancel_right]
  split_ifs with h
  · omega
  · omega

theorem yearStart_mono {a b : ℤ} (h : a ≤ b) : yearStart a ≤ yearStart b := by
  simp only [yearStart]
  omega

/-- The year of a day, found near the mean length of a year. -/
def yearOf (day : ℤ) : ℤ :=
  let year := day * 400 / 146097 + 1
  if day < yearStart year then year - 1
  else if day < yearStart (year + 1) then year
  else year + 1

/-- A day lies in its year. -/
theorem yearStart_le (day : ℤ) :
    yearStart (yearOf day) ≤ day ∧ day < yearStart (yearOf day + 1) := by
  unfold yearOf
  dsimp only
  split_ifs with h1 h2
  · rw [sub_add_cancel]
    refine ⟨?_, h1⟩
    rw [yearStart]
    omega
  · exact ⟨not_lt.mp h1, h2⟩
  · refine ⟨not_lt.mp h2, ?_⟩
    rw [yearStart]
    omega

/-- The day of its year, from zero. -/
def dayOfYear (day : ℤ) : ℤ := day - yearStart (yearOf day)

theorem dayOfYear_bounds (day : ℤ) :
    0 ≤ dayOfYear day ∧ dayOfYear day < 365 + leapDay (yearOf day) := by
  obtain ⟨h0, h1⟩ := yearStart_le day
  rw [yearStart_succ] at h1
  rw [dayOfYear]
  omega

/-- Years do not overlap. -/
theorem yearOf_unique {day year : ℤ} (h0 : yearStart year ≤ day) (h1 : day < yearStart (year + 1)) :
    yearOf day = year := by
  obtain ⟨h2, h3⟩ := yearStart_le day
  by_contra hne
  rcases Int.lt_or_lt_of_ne hne with hlt | hlt
  · have := yearStart_mono (show yearOf day + 1 ≤ year by omega)
    omega
  · have := yearStart_mono (show year + 1 ≤ yearOf day by omega)
    omega

/-- A date of the calendar. -/
@[ext] structure Date where
  year : ℤ
  month : ℕ
  day : ℤ
  month_le : 1 ≤ month ∧ month ≤ 12
  day_le : 1 ≤ day ∧ day ≤ monthLength (leapDay year) month
  deriving DecidableEq, Repr

namespace Date

/-- The number of the date. -/
def ordinal (d : Date) : ℤ :=
  yearStart d.year + (monthStart (leapDay d.year) d.month + (d.day - 1))

/-- The date with a number. -/
def ofOrdinal (n : ℤ) : Date :=
  have h := monthOf_spec (dayOfYear_bounds n).1 (dayOfYear_bounds n).2
  { year := yearOf n
    month := monthOf (leapDay (yearOf n)) (dayOfYear n)
    day := dayOfYear n -
      monthStart (leapDay (yearOf n)) (monthOf (leapDay (yearOf n)) (dayOfYear n)) + 1
    month_le := h.1
    day_le := by omega }

theorem ordinal_ofOrdinal (n : ℤ) : (ofOrdinal n).ordinal = n := by
  simp only [ordinal, ofOrdinal, dayOfYear]
  omega

theorem ofOrdinal_ordinal (d : Date) : ofOrdinal d.ordinal = d := by
  have hleap := leapDay_cases d.year
  obtain ⟨hmonth, h0, h1⟩ := monthOf_add hleap d.month_le (d := d.day - 1)
    (by have := d.day_le; omega) (by have := d.day_le; omega)
  have hyear : yearOf d.ordinal = d.year := by
    refine yearOf_unique ?_ ?_
    · rw [ordinal]
      omega
    · rw [yearStart_succ]
      rw [ordinal]
      omega
  have hday : d.ordinal - yearStart d.year = monthStart (leapDay d.year) d.month + (d.day - 1) := by
    rw [ordinal]
    omega
  ext
  · exact hyear
  · simp only [ofOrdinal, dayOfYear, hyear, hday, hmonth]
  · simp only [ofOrdinal, dayOfYear, hyear, hday, hmonth]
    omega

theorem ordinal_injective {d e : Date} (h : d.ordinal = e.ordinal) : d = e := by
  rw [← ofOrdinal_ordinal d, h, ofOrdinal_ordinal]

theorem ofOrdinal_injective {m n : ℤ} (h : ofOrdinal m = ofOrdinal n) : m = n := by
  rw [← ordinal_ofOrdinal m, h, ordinal_ofOrdinal]

/-- The day after. -/
def next (d : Date) : Date := ofOrdinal (d.ordinal + 1)

theorem ofOrdinal_succ (n : ℤ) : ofOrdinal (n + 1) = (ofOrdinal n).next := by
  rw [next, ordinal_ofOrdinal]

/-- Inside a month the next day has the next number. -/
theorem next_of_lt (d : Date) (h : d.day < monthLength (leapDay d.year) d.month) :
    d.next.year = d.year ∧ d.next.month = d.month ∧ d.next.day = d.day + 1 := by
  have hnext : d.next = ⟨d.year, d.month, d.day + 1, d.month_le, by have := d.day_le; omega⟩ := by
    apply ordinal_injective
    rw [next, ordinal_ofOrdinal]
    simp only [ordinal]
    omega
  rw [hnext]
  exact ⟨rfl, rfl, rfl⟩

/-- The last day of a month is followed by the first of the next. -/
theorem next_of_monthEnd (d : Date) (h : d.day = monthLength (leapDay d.year) d.month)
    (hm : d.month < 12) :
    d.next.year = d.year ∧ d.next.month = d.month + 1 ∧ d.next.day = 1 := by
  have hmonth : 1 ≤ d.month + 1 ∧ d.month + 1 ≤ 12 := by omega
  have hbounds := monthLength_bounds (leapDay_cases d.year) hmonth
  have hnext : d.next = ⟨d.year, d.month + 1, 1, hmonth, by omega⟩ := by
    apply ordinal_injective
    have hstart := monthStart_succ (leapDay d.year) d.month_le
    rw [next, ordinal_ofOrdinal]
    simp only [ordinal]
    omega
  rw [hnext]
  exact ⟨rfl, rfl, rfl⟩

/-- New Year. -/
theorem next_of_yearEnd (d : Date) (h : d.day = 31) (hm : d.month = 12) :
    d.next.year = d.year + 1 ∧ d.next.month = 1 ∧ d.next.day = 1 := by
  have hnext : d.next = ⟨d.year + 1, 1, 1, by omega, by simp only [monthLength]; omega⟩ := by
    apply ordinal_injective
    rw [next, ordinal_ofOrdinal]
    simp only [ordinal, hm, h, yearStart_succ, monthStart]
    omega
  rw [hnext]
  exact ⟨rfl, rfl, rfl⟩

/-- The first of January of the year one is a Monday; Sundays are zero. -/
def weekday (d : Date) : ℤ := (d.ordinal + 1) % 7

theorem weekday_ofOrdinal (n : ℤ) : (ofOrdinal n).weekday = (n + 1) % 7 := by
  rw [weekday, ordinal_ofOrdinal]

theorem weekday_bounds (d : Date) : 0 ≤ d.weekday ∧ d.weekday < 7 := by
  rw [weekday]
  omega

end Date

/-- The days of the years 1 to 9999. -/
def InCalendar (n : ℤ) : Prop := 0 ≤ n ∧ n < 3652059

instance (n : ℤ) : Decidable (InCalendar n) := inferInstanceAs (Decidable (_ ∧ _))

theorem inCalendar_iff (n : ℤ) :
    InCalendar n ↔ 1 ≤ (Date.ofOrdinal n).year ∧ (Date.ofOrdinal n).year ≤ 9999 := by
  obtain ⟨hlow, hhigh⟩ := yearStart_le n
  have hfirst : yearStart 1 = 0 := by decide
  have hend : yearStart 10000 = 3652059 := by decide
  change _ ↔ 1 ≤ yearOf n ∧ yearOf n ≤ 9999
  rw [InCalendar]
  constructor
  · rintro ⟨h0, h1⟩
    constructor
    · by_contra hlt
      have hmono := yearStart_mono (show yearOf n + 1 ≤ 1 by omega)
      omega
    · by_contra hlt
      have hmono := yearStart_mono (show 10000 ≤ yearOf n by omega)
      omega
  · rintro ⟨h0, h1⟩
    have hmono := yearStart_mono h0
    have hmono' := yearStart_mono (show yearOf n + 1 ≤ 10000 by omega)
    omega

/-- A date and a time of day, to the second. -/
@[ext] structure DateTime where
  date : Date
  hour : ℤ
  minute : ℤ
  second : ℤ
  hour_le : 0 ≤ hour ∧ hour < 24
  minute_le : 0 ≤ minute ∧ minute < 60
  second_le : 0 ≤ second ∧ second < 60
  deriving DecidableEq, Repr

namespace DateTime

/-- Minutes from the start of the year one. -/
def toMinutes (t : DateTime) : ℤ := t.date.ordinal * 1440 + t.hour * 60 + t.minute

theorem zero_le_lt_sixty : (0 : ℤ) ≤ 0 ∧ (0 : ℤ) < 60 := ⟨Int.le_refl 0, by decide⟩

/-- The start of a minute. -/
def ofMinutes (n : ℤ) : DateTime :=
  { date := .ofOrdinal (n / 1440)
    hour := n % 1440 / 60
    minute := n % 60
    second := 0
    hour_le := by omega
    minute_le := by omega
    second_le := zero_le_lt_sixty }

/-- Seconds from the start of the year one. -/
def toSeconds (t : DateTime) : ℤ := t.toMinutes * 60 + t.second

def ofSeconds (n : ℤ) : DateTime :=
  { ofMinutes (n / 60) with second := n % 60, second_le := by omega }

/-- The fields of a date-time in terms of its minutes. -/
theorem fields_eq (t : DateTime) :
    t.date = .ofOrdinal (t.toMinutes / 1440) ∧ t.hour = t.toMinutes % 1440 / 60 ∧
      t.minute = t.toMinutes % 60 := by
  have hhour := t.hour_le
  have hminute := t.minute_le
  have hday : t.toMinutes / 1440 = t.date.ordinal := by
    rw [toMinutes]
    omega
  refine ⟨by rw [hday, Date.ofOrdinal_ordinal], ?_, ?_⟩
  · rw [toMinutes]
    omega
  · rw [toMinutes]
    omega

/-- The bounds of the fields, whatever the month. -/
theorem fields_le (t : DateTime) :
    (1 ≤ t.date.month ∧ t.date.month ≤ 12) ∧ (1 ≤ t.date.day ∧ t.date.day ≤ 31) ∧
      (0 ≤ t.hour ∧ t.hour < 24) ∧ (0 ≤ t.minute ∧ t.minute < 60) := by
  have hlength := (monthLength_bounds (leapDay_cases t.date.year) t.date.month_le).2
  obtain ⟨hfirst, hlast⟩ := t.date.day_le
  exact ⟨t.date.month_le, ⟨hfirst, hlast.trans hlength⟩, t.hour_le, t.minute_le⟩

theorem toMinutes_ofMinutes (n : ℤ) : (ofMinutes n).toMinutes = n := by
  rw [toMinutes]
  simp only [ofMinutes, Date.ordinal_ofOrdinal]
  omega

/-- The start of the minute a date and time is in. -/
def startOfMinute (t : DateTime) : DateTime :=
  { t with second := 0, second_le := zero_le_lt_sixty }

theorem ofMinutes_toMinutes (t : DateTime) : ofMinutes t.toMinutes = t.startOfMinute := by
  obtain ⟨hdate, hhour, hminute⟩ := t.fields_eq
  exact DateTime.ext hdate.symm hhour.symm hminute.symm rfl

end DateTime

/-- 1970-01-01 00:00:00, in seconds from the start of the year one. -/
def unixEpoch : ℤ := 719162 * 86400

/-- The date and time of a Unix time. -/
def DateTime.ofUnix (t : ℤ) : DateTime := ofSeconds (t + unixEpoch)

/-- The Unix time of a date and time. -/
def DateTime.toUnix (t : DateTime) : ℤ := t.toSeconds - unixEpoch

example : (DateTime.ofUnix 951782399).date = ⟨2000, 2, 28, by decide, by decide⟩ := by decide

end GregorianCalendar
