import PcatManager.ControllerCommands
import PcatManager.ScheduleMatching

/-!
# Reading the schedule and writing it back

`schedule-power-event-get` makes events in local time of the stored entries, and
`schedule-power-event-set` makes entries of events. In a zone whose conversions undo each
other, a schedule that was stored for a request comes back unchanged from the events it is
read as.
-/

namespace PcatManager
open GregorianCalendar Controller

/-- The fields the callbacks read of a date and time. -/
def HasFields (t : DateTime) (year month day hour minute : Int32) : Prop :=
  t.date.year = year.toInt ∧ (t.date.month : ℤ) = month.toInt ∧ t.date.day = day.toInt ∧
    t.hour = hour.toInt ∧ t.minute = minute.toInt

namespace HostZone

/-- GLib's conversions between local time and UTC undo each other to the minute, where both
are defined, and the start of 2000 has a local time. -/
structure ConvertsBack (zone : HostZone) : Prop where
  local_of_utc : ∀ {y m d h min : Int32} {u : UtcTime}, zone.toUtc y m d h min = some u →
    ∃ t, zone.toLocal u.dateTime.startOfMinute = some t ∧ HasFields t y m d h min
  utc_of_local : ∀ {u : UtcTime} {t : DateTime},
    zone.toLocal u.dateTime.startOfMinute = some t →
      ∃ y m d h min, HasFields t y m d h min ∧
        ∃ u' : UtcTime, zone.toUtc y m d h min = some u' ∧
          u'.dateTime.startOfMinute = u.dateTime.startOfMinute
  start_local : ∃ t, zone.toLocal (.ofMinutes Recurrence.start2000) = some t

/-- The zone with a fixed offset, in both directions. -/
def fixedOffset (offset : UtcOffset) : HostZone where
  toLocalZone := .fixedOffset offset
  toLocal u :=
    let t := DateTime.ofMinutes (u.toMinutes + offset.minutes)
    if 1 ≤ t.date.year ∧ t.date.year ≤ 9999 then
      some { t with second := u.second, second_le := u.second_le }
    else none

end HostZone

theorem dateTimeOfFields_eq_some {year month day hour minute : ℤ} {t : DateTime}
    (h : dateTimeOfFields year month day hour minute = some t) :
    (1 ≤ t.date.year ∧ t.date.year ≤ 9999) ∧ t.date.year = year ∧ (t.date.month : ℤ) = month ∧
      t.date.day = day ∧ t.hour = hour ∧ t.minute = minute := by
  rw [dateTimeOfFields, Option.dite_none_right_eq_some] at h
  obtain ⟨hfields, ht⟩ := h
  obtain rfl := Option.some.inj ht
  refine ⟨hfields.1, rfl, ?_, rfl, rfl, rfl⟩
  have hmonth := hfields.2.1
  dsimp only
  omega

/-- The fields of a date and time GLib has fit into their variables. -/
theorem hasFields_ofInt (t : DateTime) (hyear : 1 ≤ t.date.year ∧ t.date.year ≤ 9999) :
    HasFields t (.ofInt t.date.year) (.ofInt t.date.month) (.ofInt t.date.day) (.ofInt t.hour)
      (.ofInt t.minute) := by
  have hfields := t.fields_le
  refine ⟨?_, ?_, ?_, ?_, ?_⟩
  all_goals rw [Int32.toInt_ofInt_of_le (by omega) (by omega)]

namespace HostZone

theorem fixedOffset_local_of_utc {offset : UtcOffset} {y m d h min : Int32} {u : UtcTime}
    (hutc : (fixedOffset offset).toUtc y m d h min = some u) :
    ∃ t, (fixedOffset offset).toLocal u.dateTime.startOfMinute = some t ∧
      HasFields t y m d h min := by
  obtain ⟨s, hs, hshift⟩ := Option.bind_eq_some_iff.mp hutc
  obtain ⟨hyear, hfields⟩ := dateTimeOfFields_eq_some hs
  have hu : u.dateTime = .ofMinutes (s.toMinutes - offset.minutes) := by
    rw [UtcOffset.toUtc, Option.dite_none_right_eq_some] at hshift
    obtain ⟨hrange, hu⟩ := hshift
    obtain rfl := Option.some.inj hu
    rfl
  have hback : u.dateTime.startOfMinute.toMinutes + offset.minutes = s.toMinutes := by
    rw [hu]
    exact (congrArg (· + offset.minutes) (DateTime.toMinutes_ofMinutes _)).trans
      (Int.sub_add_cancel _ _)
  refine ⟨s.startOfMinute, ?_, hfields⟩
  simp only [fixedOffset, hback, DateTime.ofMinutes_toMinutes]
  exact if_pos hyear

theorem fixedOffset_toUtc (offset : UtcOffset) {t : DateTime} {y m d h min : Int32}
    (hyear : 1 ≤ t.date.year ∧ t.date.year ≤ 9999) (hfields : HasFields t y m d h min) :
    (fixedOffset offset).toUtc y m d h min = offset.toUtc t.startOfMinute := by
  obtain ⟨hy, hm, hd, hh, hmin⟩ := hfields
  simp only [fixedOffset, LocalZone.fixedOffset, ← hy, ← hm, ← hd, ← hh, ← hmin]
  rw [dateTimeOfFields_fields t hyear]
  rfl

theorem fixedOffset_utc_of_local {offset : UtcOffset} {u : UtcTime} {t : DateTime}
    (hlocal : (fixedOffset offset).toLocal u.dateTime.startOfMinute = some t) :
    ∃ y m d h min, HasFields t y m d h min ∧
      ∃ u' : UtcTime, (fixedOffset offset).toUtc y m d h min = some u' ∧
        u'.dateTime.startOfMinute = u.dateTime.startOfMinute := by
  obtain ⟨hyear, ht⟩ := Option.ite_none_right_eq_some.mp hlocal
  obtain rfl := Option.some.inj ht
  have hfields := hasFields_ofInt _ hyear
  refine ⟨_, _, _, _, _, hfields, ?_⟩
  have hutc := fixedOffset_toUtc offset hyear hfields
  have hback : (DateTime.ofMinutes (u.dateTime.startOfMinute.toMinutes +
      offset.minutes)).startOfMinute.toMinutes - offset.minutes = u.dateTime.toMinutes :=
    (congrArg (· - offset.minutes) (DateTime.toMinutes_ofMinutes _)).trans
      (Int.add_sub_cancel _ _)
  rw [UtcOffset.toUtc] at hutc
  simp only [hback, DateTime.ofMinutes_toMinutes] at hutc
  exact ⟨_, hutc.trans (dif_pos u.range), rfl⟩

theorem convertsBack_fixedOffset (offset : UtcOffset) : (fixedOffset offset).ConvertsBack where
  local_of_utc := fixedOffset_local_of_utc
  utc_of_local := fixedOffset_utc_of_local
  start_local := by
    have hrange := offset.range
    have hin : InCalendar ((Recurrence.start2000 + offset.minutes) / 1440) := by
      rw [InCalendar, Recurrence.start2000]
      omega
    refine ⟨_, if_pos ?_⟩
    rw [DateTime.toMinutes_ofMinutes]
    exact (inCalendar_iff _).mp hin

end HostZone

/-- The time of an entry, in UTC. -/
def PowerScheduleData.At (sdata : PowerScheduleData) (t : DateTime) : Prop :=
  sdata.year.toInt = t.date.year ∧ sdata.month.toNat = t.date.month ∧ sdata.day.toNat = t.date.day ∧
    sdata.hour.toNat = t.hour ∧ sdata.minute.toNat = t.minute

theorem PowerScheduleData.At.dateTimeOfFields {sdata : PowerScheduleData} {t : DateTime}
    (h : sdata.At t) (hyear : 1 ≤ t.date.year ∧ t.date.year ≤ 9999) :
    dateTimeOfFields sdata.year.toInt sdata.month.toNat sdata.day.toNat sdata.hour.toNat
      sdata.minute.toNat = some t.startOfMinute := by
  obtain ⟨hy, hm, hd, hh, hmin⟩ := h
  rw [hy, hm, hd, hh, hmin, dateTimeOfFields_fields t hyear]
  rfl

/-- Entries that differ in nothing but their times do not differ when these are the same. -/
theorem PowerScheduleData.At.eq {a b : PowerScheduleData} {t : DateTime} (ha : a.At t) (hb : b.At t)
    (henabled : a.enabled = b.enabled) (haction : a.action = b.action)
    (henableBits : a.enableBits = b.enableBits) (hdowBits : a.dowBits = b.dowBits) : a = b := by
  obtain ⟨hy, hm, hd, hh, hmin⟩ := ha
  obtain ⟨hy', hm', hd', hh', hmin'⟩ := hb
  have hyear : a.year = b.year := Int16.toInt_inj.mp (hy.trans hy'.symm)
  have hmonth : a.month = b.month := UInt8.toNat_inj.mp (hm.trans hm'.symm)
  have hday : a.day = b.day := UInt8.toNat_inj.mp (by omega)
  have hhour : a.hour = b.hour := UInt8.toNat_inj.mp (by omega)
  have hminute : a.minute = b.minute := UInt8.toNat_inj.mp (by omega)
  cases a
  cases b
  simp only [PowerScheduleData.mk.injEq]
  exact ⟨henabled, haction, henableBits, hyear, hmonth, hday, hhour, hminute, hdowBits⟩

section Entries
variable {jc : JsonConversions} {zone : HostZone}

theorem eventEntry_at (jc : JsonConversions) (z : LocalZone) (node : Json) (action : Bool) :
    (∃ u, eventUtc jc z node = some u ∧ (eventEntry jc z node action).At u.dateTime) ∨
      (eventEntry jc z node action).At (.ofMinutes Recurrence.start2000) := by
  cases h : eventUtc jc z node with
  | some u => exact .inl ⟨u, rfl, eventEntry_of_eventUtc h action⟩
  | none =>
    refine .inr ?_
    rw [PowerScheduleData.At, eventEntry, h]
    dsimp only
    decide

/-- The members of a date and time. -/
def timeMembers (year month day hour minute : Int32) : List (String × Json) :=
  [("year", .int year.toInt), ("month", .int month.toInt), ("day", .int day.toInt),
    ("hour", .int hour.toInt), ("minute", .int minute.toInt)]

theorem entryLocalTime_eq {sdata : PowerScheduleData} {u t : DateTime} {y m d h min : Int32}
    (hat : sdata.At u) (hyear : 1 ≤ u.date.year ∧ u.date.year ≤ 9999)
    (hlocal : zone.toLocal u.startOfMinute = some t) (hfields : HasFields t y m d h min) :
    entryLocalTime zone sdata = timeMembers y m d h min := by
  obtain ⟨hy, hm, hd, hh, hmin⟩ := hfields
  rw [entryLocalTime, hat.dateTimeOfFields hyear]
  simp only [Option.bind_some, hlocal, timeMembers, hy, hm, hd, hh, hmin]

/-- An entry that was made for an event is read as a local time that GLib takes to the time
of the entry. -/
theorem exists_localTime (jc : JsonConversions) (hzone : zone.ConvertsBack) (node : Json)
    (action : Bool) :
    ∃ y m d h min u,
      entryLocalTime zone (eventEntry jc zone.toLocalZone node action) =
        timeMembers y m d h min ∧
      zone.toUtc y m d h min = some u ∧
      (eventEntry jc zone.toLocalZone node action).At u.dateTime := by
  obtain ⟨u, hutc, hat⟩ | hat := eventEntry_at jc zone.toLocalZone node action
  · obtain ⟨t, hlocal, hfields⟩ := hzone.local_of_utc hutc
    exact ⟨_, _, _, _, _, u, entryLocalTime_eq hat u.range hlocal hfields, hutc, hat⟩
  · have hyear : 1 ≤ (DateTime.ofMinutes Recurrence.start2000).date.year ∧
        (DateTime.ofMinutes Recurrence.start2000).date.year ≤ 9999 :=
      (inCalendar_iff _).mp Recurrence.inCalendar_start2000
    obtain ⟨t, hlocal⟩ := hzone.start_local
    obtain ⟨y, m, d, h, min, hfields, u, hutc, hsame⟩ :=
      hzone.utc_of_local (u := ⟨_, hyear⟩) hlocal
    refine ⟨y, m, d, h, min, u, entryLocalTime_eq hat hyear hlocal hfields, hutc, ?_⟩
    change (eventEntry jc zone.toLocalZone node action).At u.dateTime.startOfMinute
    rw [hsame]
    exact hat

/-- What the members of an event are for an entry whose local time has these fields. -/
structure ReadAs (jc : JsonConversions) (node : Json) (sdata : PowerScheduleData)
    (year month day hour minute : Int32) : Prop where
  enabled : intUnder jc node "enabled" = some (if sdata.enabled then 1 else 0)
  enableBits : intUnder jc node "enable-bits" = some (Int32.ofNat sdata.enableBits.toNat)
  action : intUnder jc node "action" = some (if sdata.action then 1 else 0)
  year : intUnder jc node "year" = some year
  month : intUnder jc node "month" = some month
  day : intUnder jc node "day" = some day
  hour : intUnder jc node "hour" = some hour
  minute : intUnder jc node "minute" = some minute
  dowBits : intUnder jc node "dow-bits" = some (Int32.ofNat sdata.dowBits.toNat)

theorem getInt_flag (b : Bool) : jc.getInt (jsonFlag b) = if b then 1 else 0 := by
  cases b with
  | true => exact jc.getInt_toInt 1
  | false => exact jc.getInt_toInt 0

theorem getInt_byte (b : UInt8) : jc.getInt (.int b.toNat) = Int32.ofNat b.toNat := by
  have hlt := b.toNat_lt
  exact jc.getInt_int _ (by omega) (by omega)

theorem readAs_entryNode {sdata : PowerScheduleData} {y m d h min : Int32}
    (htime : entryLocalTime zone sdata = timeMembers y m d h min) :
    ReadAs jc (entryNode zone sdata) sdata y m d h min := by
  rw [entryNode, htime]
  constructor
  all_goals simp only [intUnder, timeMembers, Json.member?, List.cons_append, List.nil_append,
    List.lookup_cons, String.reduceBEq, Option.map_some, Option.some.injEq]
  case enabled => exact getInt_flag _
  case enableBits => exact getInt_byte _
  case action => exact getInt_flag _
  case dowBits => exact getInt_byte _
  all_goals exact jc.getInt_toInt _

namespace ReadAs
variable {node : Json} {sdata : PowerScheduleData} {y m d h min : Int32}

theorem ne_null (hread : ReadAs jc node sdata y m d h min) : node ≠ .null := by
  rintro rfl
  exact nomatch hread.enabled

theorem flag_ne_zero (b : Bool) : decide ((if b then (1 : Int32) else 0) ≠ 0) = b := by
  cases b <;> rfl

theorem eventEnabled (hread : ReadAs jc node sdata y m d h min) :
    eventEnabled jc node = sdata.enabled := by
  rw [PcatManager.eventEnabled, hread.enabled]
  exact flag_ne_zero sdata.enabled

theorem eventAction (hread : ReadAs jc node sdata y m d h min) (action : Bool) :
    eventAction jc node action = sdata.action := by
  rw [PcatManager.eventAction, hread.action]
  exact flag_ne_zero sdata.action

theorem eventEnableBits (hread : ReadAs jc node sdata y m d h min) :
    eventEnableBits jc node =
      (if sdata.enabled then scheduleEnableMinute else 0) ||| sdata.enableBits := by
  simp only [PcatManager.eventEnableBits, hread.eventEnabled, hread.enableBits, byte_value]

theorem eventDowBits (hread : ReadAs jc node sdata y m d h min) :
    eventDowBits jc node = sdata.dowBits := by
  simp only [PcatManager.eventDowBits, hread.dowBits, byte_value]

theorem eventUtc (hread : ReadAs jc node sdata y m d h min) (z : LocalZone) :
    eventUtc jc z node = z.toUtc y m d h min := by
  simp only [PcatManager.eventUtc, hread.year, hread.month, hread.day, hread.hour, hread.minute,
    Option.getD_some]

end ReadAs

/-- The minute bit of an enabled event is in its enable bits already. -/
theorem minute_or_eventEnableBits (node : Json) :
    (if eventEnabled jc node then scheduleEnableMinute else 0) ||| eventEnableBits jc node =
      eventEnableBits jc node := by
  rw [eventEnableBits]
  cases eventEnabled jc node with
  | true =>
    cases intUnder jc node "enable-bits" with
    | none => rfl
    | some iv => simp only [if_true, ← UInt8.or_assoc, UInt8.or_self]
  | false => simp only [Bool.false_eq_true, if_false, UInt8.zero_or]

/-- An entry that was made for an event is made again for the event it is read as. -/
theorem eventEntry_entryNode (hzone : zone.ConvertsBack) {node : Json} {action : Bool}
    {sdata : PowerScheduleData} (hsdata : sdata = eventEntry jc zone.toLocalZone node action) :
    (∀ before, eventAction jc (entryNode zone sdata) before = sdata.action) ∧
      eventEntry jc zone.toLocalZone (entryNode zone sdata) sdata.action = sdata := by
  obtain ⟨y, m, d, h, min, u, hlocal, hutc, hat⟩ := exists_localTime jc hzone node action
  rw [← hsdata] at hlocal hat
  have hread : ReadAs jc (entryNode zone sdata) sdata y m d h min := readAs_entryNode hlocal
  refine ⟨hread.eventAction, ?_⟩
  have hat' := eventEntry_of_eventUtc ((hread.eventUtc zone.toLocalZone).trans hutc) sdata.action
  refine PowerScheduleData.At.eq hat' hat ?_ ?_ ?_ ?_
  · rw [eventEntry_enabled, hread.eventEnabled]
  · rw [eventEntry_action]
  · rw [eventEntry_enableBits, hread.eventEnableBits, hsdata, eventEntry_enabled,
      eventEntry_enableBits, minute_or_eventEnableBits]
  · rw [eventEntry_dowBits, hread.eventDowBits]

end Entries

/-- A schedule the loop can build from here on: every entry is made for an event, and there
is room for all on-events and all off-events. -/
structure Storable (jc : JsonConversions) (z : LocalZone) (countOn countOff : ℕ)
    (schedule : List PowerScheduleData) : Prop where
  made : ∀ sdata ∈ schedule, ∃ node action, sdata = eventEntry jc z node action
  room : ∀ kind, schedule.countP (·.action = kind) ≤ 6 - if kind then countOn else countOff

namespace Storable
variable {jc : JsonConversions} {z : LocalZone} {countOn countOff : ℕ}
  {schedule : List PowerScheduleData}

theorem nil : Storable jc z countOn countOff [] :=
  ⟨fun _ h => (nomatch h), fun _ => Nat.zero_le _⟩

theorem cons_iff {sdata : PowerScheduleData} :
    Storable jc z countOn countOff (sdata :: schedule) ↔
      (∃ node action, sdata = eventEntry jc z node action) ∧
        (if sdata.action then countOn else countOff) < 6 ∧
          Storable jc z (if sdata.action then countOn + 1 else countOn)
            (if sdata.action then countOff else countOff + 1) schedule := by
  constructor
  · rintro ⟨hmade, hroom⟩
    have hfirst := hroom sdata.action
    refine ⟨hmade sdata (List.mem_cons_self ..), ?_, fun e he => hmade e (.tail _ he), ?_⟩
    · simp only [List.countP_cons, decide_true, if_true] at hfirst
      omega
    · intro kind
      have hkind := hroom kind
      rw [List.countP_cons] at hkind
      cases hsdata : sdata.action <;> cases kind <;> simp [hsdata] at hkind ⊢ <;> omega
  · rintro ⟨hfirst, hplace, hmade, hroom⟩
    refine ⟨List.forall_mem_cons.mpr ⟨hfirst, hmade⟩, fun kind => ?_⟩
    have hkind := hroom kind
    rw [List.countP_cons]
    cases hsdata : sdata.action <;> cases kind <;> simp [hsdata] at hplace hkind ⊢ <;> omega

theorem mono {countOn' countOff' : ℕ} (h : Storable jc z countOn' countOff' schedule)
    (hon : countOn ≤ countOn') (hoff : countOff ≤ countOff') :
    Storable jc z countOn countOff schedule := by
  refine ⟨h.made, fun kind => (h.room kind).trans (Nat.sub_le_sub_left ?_ 6)⟩
  cases kind with
  | true => exact hon
  | false => exact hoff

theorem length_le (h : Storable jc z countOn countOff schedule) : schedule.length ≤ 12 := by
  have hon := h.room true
  have hoff := h.room false
  have hsplit : schedule.length = schedule.countP (·.action = true) +
      schedule.countP (·.action = false) := by
    simpa using List.length_eq_countP_add_countP
      (fun e : PowerScheduleData => decide (e.action = true)) (l := schedule)
  rw [if_pos rfl] at hon
  rw [if_neg Bool.false_ne_true] at hoff
  omega

end Storable

section Loop
variable {jc : JsonConversions}

theorem storable_powerEventLoop {z : LocalZone} (nodes : List Json) (action : Bool)
    (countOn countOff : ℕ) :
    Storable jc z countOn countOff (powerEventLoop jc z nodes action countOn countOff) := by
  induction nodes generalizing action countOn countOff with
  | nil => exact .nil
  | cons node nodes ih =>
    by_cases hnull : node = .null
    · subst hnull
      exact ih action countOn countOff
    · rw [powerEventLoop_cons _ _ hnull]
      have hrest := ih (eventAction jc node action)
        (if eventAction jc node action then countOn + 1 else countOn)
        (if eventAction jc node action then countOff else countOff + 1)
      by_cases hplace : (if eventAction jc node action then countOn else countOff) < 6
      · rw [if_pos hplace]
        refine Storable.cons_iff.mpr ⟨⟨node, _, rfl⟩, ?_, ?_⟩
        · rw [eventEntry_action]
          exact hplace
        · rw [eventEntry_action]
          exact hrest
      · rw [if_neg hplace]
        refine hrest.mono ?_ ?_
        · split <;> omega
        · split <;> omega

/-- The loop builds a schedule again from the events it is read as. -/
theorem powerEventLoop_entryNodes {zone : HostZone} (hzone : zone.ConvertsBack)
    {countOn countOff : ℕ} {schedule : List PowerScheduleData}
    (h : Storable jc zone.toLocalZone countOn countOff schedule) (action : Bool) :
    powerEventLoop jc zone.toLocalZone (schedule.map (entryNode zone)) action countOn countOff =
      schedule := by
  induction schedule generalizing countOn countOff action with
  | nil => rfl
  | cons sdata schedule ih =>
    obtain ⟨⟨node, made, hsdata⟩, hplace, hrest⟩ := Storable.cons_iff.mp h
    obtain ⟨haction, hentry⟩ := eventEntry_entryNode hzone hsdata
    have hnull : entryNode zone sdata ≠ .null := fun h => nomatch h
    rw [List.map_cons, powerEventLoop_cons _ _ hnull, haction, if_pos hplace, hentry, ih hrest]
    rfl

theorem storable_requestedSchedule {z : LocalZone} {root : Json} {action : Bool}
    {schedule : List PowerScheduleData}
    (h : requestedSchedule jc z root action = some schedule) : Storable jc z 0 0 schedule := by
  rw [requestedSchedule] at h
  cases hlist : root.member? "event-list" with
  | none =>
    rw [hlist] at h
    obtain rfl := Option.some.inj h
    exact .nil
  | some list =>
    rw [hlist] at h
    cases list with
    | array array =>
      obtain rfl := Option.some.inj h
      exact storable_powerEventLoop _ _ _ _
    | null | bool | int | double | string | object => cases h

/-- A request with the events a schedule is read as asks for the same schedule. -/
theorem requestedSchedule_entryNodes {zone : HostZone} (hzone : zone.ConvertsBack)
    {schedule : List PowerScheduleData} (h : Storable jc zone.toLocalZone 0 0 schedule)
    {root : Json}
    (hlist : root.member? "event-list" = some (.array (schedule.map (entryNode zone))))
    (action : Bool) :
    requestedSchedule jc zone.toLocalZone root action = some schedule := by
  have hlength := h.length_le
  have hseen : (schedule.map (entryNode zone)).length % 2 ^ 32 =
      (schedule.map (entryNode zone)).length := by
    rw [List.length_map]
    exact Nat.mod_eq_of_lt (by omega)
  rw [requestedSchedule, hlist]
  simp only [hseen, List.take_length]
  rw [powerEventLoop_entryNodes hzone h]

end Loop

namespace Daemon
variable {fmt : KeyFileFormat} {jc : JsonConversions} {z : LocalZone}

/-- The daemon holds a schedule the loop can build. -/
def HoldsStorable (jc : JsonConversions) (z : LocalZone) (d : Daemon) : Prop :=
  ∃ schedule, d.world.userConfig.powerScheduleData = some schedule ∧ Storable jc z 0 0 schedule

theorem userConfigDataSync_powerScheduleData (d : Daemon) (stored : Bool) :
    (d.userConfigDataSync fmt stored).world.userConfig.powerScheduleData =
      d.world.userConfig.powerScheduleData := by
  cases stored with
  | false => rw [userConfigDataSync_false]
  | true =>
    cases hdirty : d.world.userConfig.dirty with
    | false => rw [userConfigDataSync_of_clean hdirty]
    | true =>
      rw [userConfigDataSync_of_dirty hdirty]
      rfl

theorem chargerConfig_powerScheduleData (config : UserConfigData) (root : Json) :
    (chargerConfig jc config root).powerScheduleData = config.powerScheduleData := by
  rw [chargerConfig]
  cases intUnder jc root "state" <;> cases intUnder jc root "timeout" <;> rfl

theorem callback_powerScheduleData {d d' : Daemon} {r : ControllerRequest}
    (hcommand : r.command ≠ .schedulePowerEventSet) (hr : d.callback fmt jc z r = some d') :
    d'.world.userConfig.powerScheduleData = d.world.userConfig.powerScheduleData := by
  rw [callback] at hr
  cases h : r.command with
  | schedulePowerEventSet => exact absurd h hcommand
  | chargerOnAutoStartSet =>
    rw [h] at hr
    obtain rfl := Option.some.inj hr
    rw [chargerOnAutoStartSet, userConfigDataSync_powerScheduleData]
    dsimp only
    rw [(World.requests_chargerOnAutoStart _ _).sameButLink.userConfig]
    exact chargerConfig_powerScheduleData _ _
  | modemNetworkSetup =>
    rw [h] at hr
    obtain rfl := Option.some.inj hr
    exact userConfigDataSync_powerScheduleData _ _

theorem holdsStorable_callback {d d' : Daemon} {r : ControllerRequest}
    (h : r.command = .schedulePowerEventSet ∨ d.HoldsStorable jc z)
    (hr : d.callback fmt jc z r = some d') : d'.HoldsStorable jc z := by
  by_cases hcommand : r.command = .schedulePowerEventSet
  · rw [callback, hcommand] at hr
    obtain ⟨schedule, hschedule, rfl⟩ := Option.map_eq_some_iff.mp hr
    exact ⟨schedule, storeSchedule_powerScheduleData d schedule r.stored,
      storable_requestedSchedule hschedule⟩
  · obtain ⟨schedule, hheld, hstorable⟩ := h.resolve_left hcommand
    exact ⟨schedule, (callback_powerScheduleData hcommand hr).trans hheld, hstorable⟩

theorem holdsStorable_callbacks {d d' : Daemon} {requests : List ControllerRequest}
    (h : (∃ r ∈ requests, r.command = .schedulePowerEventSet) ∨ d.HoldsStorable jc z)
    (hrun : d.callbacks fmt jc z requests = some d') : d'.HoldsStorable jc z := by
  induction requests generalizing d with
  | nil =>
    obtain rfl := Option.some.inj hrun
    exact h.resolve_left (by simp)
  | cons r rest ih =>
    obtain ⟨next, hr, hrest⟩ := Option.bind_eq_some_iff.mp hrun
    refine ih ?_ hrest
    obtain ⟨r', hmem, hcommand⟩ | hheld := h
    · obtain rfl | hmem := List.mem_cons.mp hmem
      · exact .inr (holdsStorable_callback (.inl hcommand) hr)
      · exact .inl ⟨r', hmem, hcommand⟩
    · exact .inr (holdsStorable_callback (.inr hheld) hr)

end Daemon

namespace Controller
variable (fmt : KeyFileFormat) (js : JsonLibrary)

/-- The reply to `schedule-power-event-get`. -/
def powerEventReply (zone : HostZone) (c : Controller) (command : String) : Json :=
  okReply command
    [("event-list",
      .array ((c.daemon.world.userConfig.powerScheduleData.getD []).map (entryNode zone)))]

/-- Sending the event list of the reply to `schedule-power-event-get` back, with whatever else
the message holds, leaves a schedule that commands have stored as it is. -/
theorem schedule_read_and_written_back {zone : HostZone} (hzone : zone.ConvertsBack)
    {d d' : Daemon} {requests : List ControllerRequest}
    (hrun : d.callbacks fmt js.toJsonConversions zone.toLocalZone requests = some d')
    (hset : ∃ r ∈ requests, r.command = .schedulePowerEventSet)
    {schedule : List PowerScheduleData}
    (hstored : d'.world.userConfig.powerScheduleData = some schedule) {c : Controller}
    (hheld : c.daemon.world.userConfig.powerScheduleData = some schedule) (id id' : ℕ)
    (get set : String) :
    c.schedulePowerEventGetFunc js zone id get =
        c.outputJsonPush js id (c.powerEventReply zone get) ∧
      ∀ m : ControlMessage,
        m.root.member? "event-list" = (c.powerEventReply zone get).member? "event-list" →
        ∃ c', (c.schedulePowerEventGetFunc js zone id get).schedulePowerEventSetFunc fmt js zone
            id' set m = some c' ∧
          c'.daemon.world.userConfig.powerScheduleData = some schedule := by
  refine ⟨rfl, fun m hm => ?_⟩
  have hstorable : Storable js.toJsonConversions zone.toLocalZone 0 0 schedule := by
    obtain ⟨schedule', hstored', h⟩ := Daemon.holdsStorable_callbacks (.inl hset) hrun
    obtain rfl := Option.some.inj (hstored.symm.trans hstored')
    exact h
  have hlist : m.root.member? "event-list" = some (.array (schedule.map (entryNode zone))) := by
    rw [hm, powerEventReply, hheld]
    rfl
  have hasked := requestedSchedule_entryNodes hzone hstorable hlist m.action
  exact ⟨_, congrArg _ (congrArg _ hasked), Daemon.storeSchedule_powerScheduleData _ _ _⟩

/-- A disabled event with a date that does not exist, and one in the last minute GLib has. -/
def lastMinuteRequest : ControllerRequest where
  command := .schedulePowerEventSet
  root := .object [("event-list", .array
    [.object [("enabled", .int 0), ("enable-bits", .int 16), ("action", .int 0),
        ("year", .int 2023), ("month", .int 2), ("day", .int 29), ("dow-bits", .int 0)],
      .object [("enabled", .int 1), ("enable-bits", .int 8), ("action", .int 1),
        ("year", .int 9999), ("month", .int 12), ("day", .int 31), ("hour", .int 23),
        ("minute", .int 59), ("dow-bits", .int 127)]])]
  action := false
  stored := true

/-- What is stored for them eight hours east of Greenwich. -/
def lastMinuteSchedule : List PowerScheduleData :=
  [⟨false, false, 16, 2000, 1, 1, 0, 0, 0⟩, ⟨true, true, 24, 9999, 12, 31, 15, 59, 127⟩]

/-- The text of the schedule in local time, and of a reply without members. -/
def lastMinuteReply : CString where
  bytes :=
    ["\x7b \"command\": \"schedule-power-event-get\", ", "\"code\": 0, \"event-list\": [ ",
      "\x7b \"enabled\": 0, \"enable-bits\": 16, \"action\": 0, ",
      "\"year\": 2000, \"month\": 1, \"day\": 1, ",
      "\"hour\": 8, \"minute\": 0, \"dow-bits\": 0 \x7d, ",
      "\x7b \"enabled\": 1, \"enable-bits\": 24, \"action\": 1, ",
      "\"year\": 9999, \"month\": 12, \"day\": 31, ",
      "\"hour\": 23, \"minute\": 59, \"dow-bits\": 127 \x7d ] \x7d"].flatMap utf8Bytes
  noNul := by decide +kernel

def scheduleSetReply : CString where
  bytes := utf8Bytes "\x7b \"command\": \"schedule-power-event-set\", \"code\": 0 \x7d"
  noNul := by decide +kernel

/-- A library that prints these two replies. -/
def lastMinuteLibrary : JsonLibrary where
  toJsonConversions := .plain
  parse _ := none
  print root := if (root.member? "event-list").isSome then lastMinuteReply else scheduleSetReply
  text _ := ""

/-- The daemon that holds the schedule, with one connection. -/
def lastMinuteController : Controller where
  daemon := (Daemon.mk .plain .empty []).storeSchedule .decimal lastMinuteSchedule true
  modem := {}
  routeMode := .none
  connections := ConnectionTable.opened.step (.incoming 0)

theorem lastMinute_written_back :
    ∃ c', (lastMinuteController.schedulePowerEventGetFunc lastMinuteLibrary
          (.fixedOffset eightHoursEast) 0 "schedule-power-event-get").schedulePowerEventSetFunc
        .decimal lastMinuteLibrary (.fixedOffset eightHoursEast) 0 "schedule-power-event-set"
        ⟨.object [("event-list", .array (lastMinuteSchedule.map
          (entryNode (.fixedOffset eightHoursEast))))], false, true⟩ = some c' ∧
      c'.daemon.world.userConfig.powerScheduleData = some lastMinuteSchedule := by
  have hasked : requestedSchedule .plain (.fixedOffset eightHoursEast) lastMinuteRequest.root
      lastMinuteRequest.action = some lastMinuteSchedule := by
    decide +kernel
  have hrun : (Daemon.mk .plain .empty []).callbacks .decimal .plain (.fixedOffset eightHoursEast)
      [lastMinuteRequest] = some lastMinuteController.daemon :=
    Daemon.callbacks_of_requestedSchedule rfl hasked
  have hheld : lastMinuteController.daemon.world.userConfig.powerScheduleData =
      some lastMinuteSchedule :=
    Daemon.storeSchedule_powerScheduleData _ _ _
  obtain ⟨-, hback⟩ := schedule_read_and_written_back .decimal lastMinuteLibrary
    (HostZone.convertsBack_fixedOffset eightHoursEast) hrun ⟨_, List.mem_singleton_self _, rfl⟩
    hheld hheld 0 0 "schedule-power-event-get" "schedule-power-event-set"
  refine hback ⟨_, false, true⟩ ?_
  rw [powerEventReply, hheld]
  rfl

end Controller

end PcatManager
