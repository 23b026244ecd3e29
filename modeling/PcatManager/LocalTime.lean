import PcatManager.GregorianCalendar

/-!
# Local time

How the host turns a local date and time into UTC, and the zones that do it by a fixed
offset.
-/

namespace PcatManager
open GregorianCalendar

/-- A date and time that GLib has in UTC. -/
structure UtcTime where
  dateTime : DateTime
  range : 1 ≤ dateTime.date.year ∧ dateTime.date.year ≤ 9999

/-- The local time zone: `g_date_time_new_local` of a year, month, day, hour and minute,
followed by `g_date_time_to_utc`. -/
structure LocalZone where
  toUtc : (year month day hour minute : Int32) → Option UtcTime

/-- The date and time with these fields, if there is one in the years 1 to 9999. -/
def dateTimeOfFields (year month day hour minute : ℤ) : Option DateTime :=
  if h : (1 ≤ year ∧ year ≤ 9999) ∧ (1 ≤ month.toNat ∧ month.toNat ≤ 12) ∧
      (1 ≤ day ∧ day ≤ monthLength (leapDay year) month.toNat) ∧ (0 ≤ hour ∧ hour < 24) ∧
      (0 ≤ minute ∧ minute < 60) then
    some
      ⟨⟨year, month.toNat, day, h.2.1, h.2.2.1⟩, hour, minute, 0, h.2.2.2.1, h.2.2.2.2, by omega⟩
  else none

theorem dateTimeOfFields_fields (t : DateTime) (hyear : 1 ≤ t.date.year ∧ t.date.year ≤ 9999) :
    dateTimeOfFields t.date.year t.date.month t.date.day t.hour t.minute =
      some { t with second := 0, second_le := by omega } := by
  rw [dateTimeOfFields, dif_pos ⟨hyear, t.date.month_le, t.date.day_le, t.hour_le, t.minute_le⟩]
  rfl

/-- The offset of local time from UTC, in whole minutes; POSIX has offsets of up to 24
hours. -/
structure UtcOffset where
  minutes : ℤ
  range : -1440 ≤ minutes ∧ minutes ≤ 1440

/-- The UTC time that is local time `t`, if GLib has it. -/
def UtcOffset.toUtc (offset : UtcOffset) (t : DateTime) : Option UtcTime :=
  let utc := DateTime.ofMinutes (t.toMinutes - offset.minutes)
  if h : 1 ≤ utc.date.year ∧ utc.date.year ≤ 9999 then some ⟨utc, h⟩ else none

theorem UtcOffset.map_toUtc (offset : UtcOffset) (t : DateTime) :
    (offset.toUtc t).map (·.dateTime) =
      if InCalendar ((t.toMinutes - offset.minutes) / 1440) then
        some (.ofMinutes (t.toMinutes - offset.minutes))
      else none := by
  have hin := inCalendar_iff ((t.toMinutes - offset.minutes) / 1440)
  rw [toUtc]
  by_cases hrange : InCalendar ((t.toMinutes - offset.minutes) / 1440)
  · rw [if_pos hrange]
    exact congrArg _ (dif_pos (hin.mp hrange))
  · rw [if_neg hrange]
    exact congrArg _ (dif_neg (mt hin.mpr hrange))

/-- The zone with a fixed offset. -/
def LocalZone.fixedOffset (offset : UtcOffset) : LocalZone where
  toUtc year month day hour minute :=
    (dateTimeOfFields year.toInt month.toInt day.toInt hour.toInt minute.toInt).bind offset.toUtc

/-- The local date and time at a Unix time. -/
def UtcOffset.localTime (offset : UtcOffset) (seconds : ℤ) : DateTime :=
  DateTime.ofUnix (seconds + offset.minutes * 60)

end PcatManager
