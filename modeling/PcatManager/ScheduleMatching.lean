import PcatManager.Recurrence
import PcatManager.UserConfigRestart

/-!
# Scheduled power-offs at local times

The controller turns the local time of an event into UTC field by field, and the timer
compares some of the fields. When this means the same as comparing the local fields, for
every zone with a fixed offset, every event and every instant.
-/

namespace PcatManager
open GregorianCalendar World

/-- What a client asks for with an enabled off-event. -/
structure ClientEvent where
  time : DateTime
  year_le : 1 ≤ time.date.year ∧ time.date.year ≤ 9999
  enableBits : Int32
  dowBits : Int32

/-- The event asks for it. -/
structure ClientEvent.AskedBy (jc : JsonConversions) (node : Json) (e : ClientEvent) : Prop where
  enabled : ∃ iv, iv ≠ 0 ∧ intUnder jc node "enabled" = some iv
  action : intUnder jc node "action" = some 0
  enableBits : intUnder jc node "enable-bits" = some e.enableBits
  dowBits : intUnder jc node "dow-bits" = some e.dowBits
  year : intUnder jc node "year" = some (Int32.ofInt e.time.date.year)
  month : intUnder jc node "month" = some (Int32.ofNat e.time.date.month)
  day : intUnder jc node "day" = some (Int32.ofInt e.time.date.day)
  hour : intUnder jc node "hour" = some (Int32.ofInt e.time.hour)
  minute : intUnder jc node "minute" = some (Int32.ofInt e.time.minute)

/-- The recurrence of enable bits: the first one set decides. -/
def recurrenceOf (enableBits dowBits : UInt8) : Recurrence :=
  if enableBits &&& scheduleEnableYear ≠ 0 then .once
  else if enableBits &&& scheduleEnableMonth ≠ 0 then .yearly
  else if enableBits &&& scheduleEnableDay ≠ 0 then .monthly
  else if enableBits &&& scheduleEnableDow ≠ 0 then .weekly dowBits.toNat
  else if enableBits &&& scheduleEnableHour ≠ 0 then .daily
  else .hourly

theorem recurrenceOf_minute_or (enableBits dowBits : UInt8) :
    recurrenceOf (scheduleEnableMinute ||| enableBits) dowBits = recurrenceOf enableBits dowBits := by
  have hbit (bit : UInt8) (hbit : scheduleEnableMinute &&& bit = 0) :
      (scheduleEnableMinute ||| enableBits) &&& bit = 0 ↔ enableBits &&& bit = 0 :=
    (or_and_eq_zero_iff _ _ _).trans (and_iff_right hbit)
  simp only [recurrenceOf, Ne, hbit scheduleEnableYear (by decide),
    hbit scheduleEnableMonth (by decide), hbit scheduleEnableDay (by decide),
    hbit scheduleEnableDow (by decide), hbit scheduleEnableHour (by decide)]

/-- The comparison of the timer is that of the recurrence of the bits. -/
theorem entryMatches_iff {sdata : PowerScheduleData} {stored : DateTime}
    (hyear : sdata.year.toInt = stored.date.year) (hmonth : sdata.month.toNat = stored.date.month)
    (hday : sdata.day.toNat = stored.date.day) (hhour : sdata.hour.toNat = stored.hour)
    (hminute : sdata.minute.toNat = stored.minute) (now : DateTime) :
    entryMatches now sdata = true ↔ (recurrenceOf sdata.enableBits sdata.dowBits).Hits stored now := by
  simp only [entryMatches, recurrenceOf, PowerScheduleData.has, hyear, hmonth, hday, hhour, hminute]
  by_cases byear : sdata.enableBits &&& scheduleEnableYear = 0
  case neg => simp [byear, Recurrence.Hits, and_assoc]
  by_cases bmonth : sdata.enableBits &&& scheduleEnableMonth = 0
  case neg => simp [byear, bmonth, Recurrence.Hits, and_assoc]
  by_cases bday : sdata.enableBits &&& scheduleEnableDay = 0
  case neg => simp [byear, bmonth, bday, Recurrence.Hits, and_assoc]
  by_cases bdow : sdata.enableBits &&& scheduleEnableDow = 0
  case neg => simp [byear, bmonth, bday, bdow, Recurrence.Hits, and_assoc]
  by_cases bhour : sdata.enableBits &&& scheduleEnableHour = 0
  case neg => simp [byear, bmonth, bday, bdow, bhour, Recurrence.Hits]
  simp [byear, bmonth, bday, bdow, bhour, Recurrence.Hits]

namespace ClientEvent

variable {jc : JsonConversions} {node : Json} {e : ClientEvent}

/-- How often the client wants the event. -/
def recurrence (e : ClientEvent) : Recurrence :=
  recurrenceOf (UInt8.ofInt e.enableBits.toInt) (UInt8.ofInt e.dowBits.toInt)

theorem AskedBy.eventEnabled (h : e.AskedBy jc node) : eventEnabled jc node = true := by
  obtain ⟨iv, hne, henabled⟩ := h.enabled
  simp [PcatManager.eventEnabled, henabled, hne]

theorem AskedBy.eventAction (h : e.AskedBy jc node) (action : Bool) :
    eventAction jc node action = false := by
  simp [PcatManager.eventAction, h.action]

theorem AskedBy.eventEnableBits (h : e.AskedBy jc node) :
    eventEnableBits jc node = scheduleEnableMinute ||| UInt8.ofInt e.enableBits.toInt := by
  simp [PcatManager.eventEnableBits, h.eventEnabled, h.enableBits]

theorem AskedBy.eventDowBits (h : e.AskedBy jc node) :
    eventDowBits jc node = UInt8.ofInt e.dowBits.toInt := by
  simp [PcatManager.eventDowBits, h.dowBits]

theorem AskedBy.offEntry (h : e.AskedBy jc node) (zone : LocalZone) :
    offEntry (eventEntry jc zone node false) = true := by
  have hbit : (scheduleEnableMinute ||| UInt8.ofInt e.enableBits.toInt) &&& scheduleEnableMinute ≠
      0 := fun hzero => absurd ((or_and_eq_zero_iff _ _ _).mp hzero).1 (by decide)
  simp [World.offEntry, PowerScheduleData.has, h.eventEnabled, h.eventEnableBits, hbit]

/-- The minutes of the local time, and of the UTC time it stands for. -/
def askedMinutes (e : ClientEvent) : ℤ := e.time.toMinutes

def shiftedMinutes (e : ClientEvent) (offset : UtcOffset) : ℤ := e.askedMinutes - offset.minutes

/-- The minutes of the time that is stored. -/
def keptMinutes (e : ClientEvent) (offset : UtcOffset) : ℤ :=
  if InCalendar (e.shiftedMinutes offset / 1440) then e.shiftedMinutes offset
  else Recurrence.start2000

theorem askedMinutes_inCalendar (e : ClientEvent) : InCalendar (e.askedMinutes / 1440) := by
  rw [inCalendar_iff, askedMinutes, ← e.time.fields_eq.1]
  exact e.year_le

theorem AskedBy.eventUtc (h : e.AskedBy jc node) (offset : UtcOffset) :
    (eventUtc jc (.fixedOffset offset) node).map (·.dateTime) =
      if InCalendar (e.shiftedMinutes offset / 1440) then
        some (.ofMinutes (e.shiftedMinutes offset))
      else none := by
  have hyear := e.year_le
  have hfields := e.time.fields_le
  simp only [PcatManager.eventUtc, h.year, h.month, h.day, h.hour, h.minute, Option.getD_some,
    LocalZone.fixedOffset]
  rw [Int32.toInt_ofInt_of_le (by omega) (by omega), Int32.toInt_ofNat_of_lt (by omega),
    Int32.toInt_ofInt_of_le (by omega) (by omega), Int32.toInt_ofInt_of_le (by omega) (by omega),
    Int32.toInt_ofInt_of_le (by omega) (by omega), dateTimeOfFields_fields _ hyear,
    Option.bind_some]
  exact offset.map_toUtc { e.time with second := 0, second_le := by omega }

end ClientEvent

theorem eventEntry_of_eventUtc {jc : JsonConversions} {zone : LocalZone} {node : Json} {dt2 : UtcTime}
    (h : eventUtc jc zone node = some dt2) (action : Bool) :
    (eventEntry jc zone node action).year.toInt = dt2.dateTime.date.year ∧
      (eventEntry jc zone node action).month.toNat = dt2.dateTime.date.month ∧
      (eventEntry jc zone node action).day.toNat = dt2.dateTime.date.day ∧
      (eventEntry jc zone node action).hour.toNat = dt2.dateTime.hour ∧
      (eventEntry jc zone node action).minute.toNat = dt2.dateTime.minute := by
  obtain ⟨t, hyear⟩ := dt2
  have hfields := t.fields_le
  simp only [eventEntry, h, UInt8.ofInt, UInt8.toNat_ofNat',
    Int16.toInt_ofInt_of_le (n := t.date.year) (by omega) (by omega), true_and]
  omega

namespace ClientEvent

variable {jc : JsonConversions} {node : Json} {e : ClientEvent}

theorem AskedBy.entryMatches_iff (h : e.AskedBy jc node) (offset : UtcOffset) (now : DateTime) :
    entryMatches now (eventEntry jc (.fixedOffset offset) node false) = true ↔
      e.recurrence.Hits (.ofMinutes (e.keptMinutes offset)) now := by
  have hutc := h.eventUtc offset
  have hrecurrence : recurrenceOf (eventEntry jc (.fixedOffset offset) node false).enableBits
      (eventEntry jc (.fixedOffset offset) node false).dowBits = e.recurrence := by
    rw [eventEntry_enableBits, eventEntry_dowBits, h.eventEnableBits, h.eventDowBits,
      recurrenceOf_minute_or]
    rfl
  rw [← hrecurrence, keptMinutes]
  by_cases hrange : InCalendar (e.shiftedMinutes offset / 1440)
  · rw [if_pos hrange] at hutc ⊢
    obtain ⟨dt2, hdt2, hdateTime⟩ := Option.map_eq_some_iff.mp hutc
    obtain ⟨hyear, hmonth, hday, hhour, hminute⟩ := eventEntry_of_eventUtc hdt2 false
    rw [← hdateTime]
    exact PcatManager.entryMatches_iff hyear hmonth hday hhour hminute now
  · rw [if_neg hrange] at hutc ⊢
    have hnone := Option.map_eq_none_iff.mp hutc
    refine PcatManager.entryMatches_iff ?_ ?_ ?_ ?_ ?_ now <;>
      · simp only [eventEntry, hnone]
        decide

/-- The local times of the instants the system clock can have are those of the minutes of
the calendar. -/
theorem agrees_iff_unixTime (r : Recurrence) (offset : UtcOffset) (kept : ℤ) (asked : DateTime) :
    r.Agrees offset.minutes kept asked.toMinutes ↔
      ∀ t : UnixTime, (r.Hits (.ofMinutes kept) t.utc ↔
        r.Hits asked (offset.localTime t.seconds)) := by
  have hnow (t : UnixTime) : (r.Hits (.ofMinutes kept) t.utc ↔
        r.Hits asked (offset.localTime t.seconds)) ↔
      (r.Hits (.ofMinutes kept) (.ofMinutes ((t.seconds + unixEpoch) / 60)) ↔
        r.Hits (.ofMinutes asked.toMinutes)
          (.ofMinutes ((t.seconds + unixEpoch) / 60 + offset.minutes))) := by
    have hlocal : (t.seconds + offset.minutes * 60 + unixEpoch) / 60 =
        (t.seconds + unixEpoch) / 60 + offset.minutes := by omega
    refine iff_congr (Recurrence.hits_congr ⟨rfl, rfl, rfl⟩ ⟨rfl, rfl, rfl⟩ r)
      (Recurrence.hits_congr asked.fields_eq ?_ r)
    rw [← hlocal]
    exact ⟨rfl, rfl, rfl⟩
  simp only [hnow]
  constructor
  · intro h t
    have hrange := t.range
    exact h _ (by rw [unixEpoch]; omega) (by rw [unixEpoch]; omega)
  · intro h n h0 h1
    have hminute := h ⟨n * 60 - unixEpoch, by rw [unixEpoch]; omega⟩
    rwa [show (n * 60 - unixEpoch + unixEpoch) / 60 = n by omega] at hminute

/-- The shift to UTC keeps what the event means: where GLib has the UTC time, unless it
falls on another day than the local time and the recurrence does not keep its meaning over
midnight; elsewhere, where the start of 2000 stands for it. -/
def KeepsMeaning (e : ClientEvent) (offset : UtcOffset) : Prop :=
  if InCalendar (e.shiftedMinutes offset / 1440) then
    e.askedMinutes / 1440 = e.shiftedMinutes offset / 1440 ∨
      e.recurrence.KeptOverMidnight
        (min (e.shiftedMinutes offset / 1440) (e.askedMinutes / 1440))
  else e.recurrence.KeptByReset e.askedMinutes (e.shiftedMinutes offset)

instance (e : ClientEvent) (offset : UtcOffset) : Decidable (e.KeepsMeaning offset) := by
  rw [KeepsMeaning]
  infer_instance

/-- The timer fires for the entry at the local times asked for exactly when the shift
keeps the meaning of the event. -/
theorem AskedBy.fires_iff (h : e.AskedBy jc node) (offset : UtcOffset) :
    (∀ t : UnixTime,
      (World.offEntry (eventEntry jc (.fixedOffset offset) node false) &&
          entryMatches t.utc (eventEntry jc (.fixedOffset offset) node false)) = true ↔
        e.recurrence.Hits e.time (offset.localTime t.seconds)) ↔ e.KeepsMeaning offset := by
  simp only [h.offEntry, Bool.true_and, h.entryMatches_iff]
  rw [← agrees_iff_unixTime, KeepsMeaning, keptMinutes]
  by_cases hrange : InCalendar (e.shiftedMinutes offset / 1440)
  · rw [if_pos hrange, if_pos hrange]
    exact e.recurrence.agrees_shifted_iff offset.range hrange
  · rw [if_neg hrange, if_neg hrange]
    exact e.recurrence.agrees_start2000_iff offset.range e.askedMinutes_inCalendar hrange

theorem AskedBy.ne_null (h : e.AskedBy jc node) : node ≠ .null := by
  rintro rfl
  exact nomatch h.action

/-- The event as a client writes it. -/
def json (e : ClientEvent) : Json :=
  .object [("enabled", .int 1), ("action", .int 0), ("enable-bits", .int e.enableBits.toInt),
    ("dow-bits", .int e.dowBits.toInt), ("year", .int e.time.date.year),
    ("month", .int e.time.date.month), ("day", .int e.time.date.day), ("hour", .int e.time.hour),
    ("minute", .int e.time.minute)]

theorem askedBy_json (e : ClientEvent) (jc : JsonConversions) : e.AskedBy jc e.json := by
  have hyear := e.year_le
  have hfields := e.time.fields_le
  constructor
  case enabled =>
    refine ⟨1, by decide, ?_⟩
    simpa [intUnder, json, Json.member?, List.lookup_cons] using jc.getInt_toInt 1
  all_goals simp only [intUnder, json, Json.member?, List.lookup_cons, String.reduceBEq,
    Option.map_some, Option.some.injEq]
  case action => exact jc.getInt_toInt 0
  case enableBits => exact jc.getInt_toInt e.enableBits
  case dowBits => exact jc.getInt_toInt e.dowBits
  all_goals exact jc.getInt_int _ (by omega) (by omega)

end ClientEvent

section Requests
variable {fmt : KeyFileFormat} {jc : JsonConversions}

/-- The entry stored for an off-event, when there are fewer than six before it. -/
theorem stored_of_askedBy {zone : LocalZone} {d d' : Daemon} {root : Json} {action stored : Bool}
    {array before after : List Json} {node : Json} {e : ClientEvent}
    (hlist : root.member? "event-list" = some (.array array))
    (hevents : array.take (array.length % 2 ^ 32) = before ++ node :: after)
    (hasked : e.AskedBy jc node) (hroom : (eventCounts jc before action 0 0).2.2 < 6)
    (hset : d.schedulePowerEventSet fmt jc zone root action stored = some d') :
    (d'.world.userConfig.powerScheduleData.getD [])[
      (powerEventLoop jc zone before action 0 0).length]? = some (eventEntry jc zone node false) := by
  obtain ⟨schedule, hschedule, rfl⟩ := Option.map_eq_some_iff.mp hset
  have hloop : schedule = powerEventLoop jc zone (before ++ node :: after) action 0 0 := by
    rw [requestedSchedule, hlist] at hschedule
    simp only [hevents] at hschedule
    exact (Option.some.inj hschedule).symm
  rw [Daemon.storeSchedule_powerScheduleData, Option.getD_some, hloop, powerEventLoop_append,
    List.getElem?_append_right (Nat.le_refl _), Nat.sub_self,
    powerEventLoop_cons _ _ hasked.ne_null, hasked.eventAction]
  simp [hroom]

/-- Every off-event that is sent is stored, and the timer fires for it at the local times
the client asked for exactly when the shift to UTC keeps the meaning of the event. -/
theorem off_event_fires_as_asked_iff (offset : UtcOffset) {d d' : Daemon} {root : Json}
    {action stored : Bool} {array before after : List Json} {node : Json} {e : ClientEvent}
    (hlist : root.member? "event-list" = some (.array array))
    (hevents : array.take (array.length % 2 ^ 32) = before ++ node :: after)
    (hasked : e.AskedBy jc node) (hroom : (eventCounts jc before action 0 0).2.2 < 6)
    (hset : d.schedulePowerEventSet fmt jc (.fixedOffset offset) root action stored = some d') :
    ∃ sdata : PowerScheduleData,
      (d'.world.userConfig.powerScheduleData.getD [])[
        (powerEventLoop jc (.fixedOffset offset) before action 0 0).length]? = some sdata ∧
      ((∀ t : UnixTime, (offEntry sdata && entryMatches t.utc sdata) = true ↔
          e.recurrence.Hits e.time (offset.localTime t.seconds)) ↔
        e.KeepsMeaning offset) :=
  ⟨_, stored_of_askedBy hlist hevents hasked hroom hset, hasked.fires_iff offset⟩

/-- The first of every month at seven. -/
def firstAtSeven : ClientEvent where
  time :=
    { date := ⟨2024, 1, 1, by decide, by decide⟩
      hour := 7
      minute := 0
      second := 0
      hour_le := by decide
      minute_le := DateTime.zero_le_lt_sixty
      second_le := DateTime.zero_le_lt_sixty }
  year_le := by decide
  enableBits := 4
  dowBits := 0

/-- The fifteenth of every month at seven. -/
def fifteenthAtSeven : ClientEvent :=
  { firstAtSeven with
    time := { firstAtSeven.time with date := ⟨2024, 1, 15, by decide, by decide⟩ }
    year_le := by decide }

/-- Eight hours east of Greenwich. -/
def eightHoursEast : UtcOffset := ⟨480, by decide⟩

/-- The daemon after one event. -/
def sentAlone (e : ClientEvent) (offset : UtcOffset) : Daemon :=
  (Daemon.mk .plain .empty []).storeSchedule .decimal
    [eventEntry .plain (.fixedOffset offset) e.json false] true

theorem schedulePowerEventSet_json (e : ClientEvent) (offset : UtcOffset) :
    (Daemon.mk .plain .empty []).schedulePowerEventSet .decimal .plain (.fixedOffset offset)
      (.object [("event-list", .array [e.json])]) false true = some (sentAlone e offset) := by
  rw [Daemon.schedulePowerEventSet, ClientEvent.json, Daemon.requestedSchedule_single,
    ← ClientEvent.json, (e.askedBy_json .plain).eventAction]
  rfl

theorem takeEvent (e : ClientEvent) :
    [e.json].take ([e.json].length % 2 ^ 32) = [] ++ e.json :: [] := rfl

/-- The fifteenth at seven is kept eight hours east of Greenwich. -/
theorem fifteenth_fires_as_asked :
    ∃ sdata : PowerScheduleData,
      ((sentAlone fifteenthAtSeven eightHoursEast).world.userConfig.powerScheduleData.getD [])[0]? =
        some sdata ∧
      ∀ t : UnixTime, (offEntry sdata && entryMatches t.utc sdata) = true ↔
        fifteenthAtSeven.recurrence.Hits fifteenthAtSeven.time
          (eightHoursEast.localTime t.seconds) := by
  obtain ⟨sdata, hstored, hfires⟩ := off_event_fires_as_asked_iff eightHoursEast rfl
    (takeEvent fifteenthAtSeven) (fifteenthAtSeven.askedBy_json .plain) (by decide)
    (schedulePowerEventSet_json fifteenthAtSeven eightHoursEast)
  exact ⟨sdata, hstored, hfires.mpr (by decide)⟩

/-- The first at seven is not: in UTC it is the 31st at 23. -/
theorem first_of_month_misfires :
    ∃ sdata : PowerScheduleData,
      ((sentAlone firstAtSeven eightHoursEast).world.userConfig.powerScheduleData.getD [])[0]? =
        some sdata ∧
      ¬∀ t : UnixTime, (offEntry sdata && entryMatches t.utc sdata) = true ↔
        firstAtSeven.recurrence.Hits firstAtSeven.time (eightHoursEast.localTime t.seconds) := by
  refine ⟨_, stored_of_askedBy rfl (takeEvent firstAtSeven)
    (firstAtSeven.askedBy_json .plain) (by decide)
    (schedulePowerEventSet_json firstAtSeven eightHoursEast), ?_⟩
  rw [(firstAtSeven.askedBy_json .plain).fires_iff]
  decide

end Requests
end PcatManager
