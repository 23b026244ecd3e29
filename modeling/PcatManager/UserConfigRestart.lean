import PcatManager.Controller
import PcatManager.PmuManagerFrame
import PcatManager.UserConfigRoundTrip

/-!
# The user configuration over a restart

What the controller can make of a configuration that was loaded, how it stands to the
file, and when saving and loading gives it back.
-/

namespace PcatManager
open World

/-- What every configuration that was loaded has, whatever the file, and every command
keeps. -/
structure UserConfigData.Normal (config : UserConfigData) : Prop where
  valid : config.valid = true
  schedule : config.powerScheduleData.isSome = true
  apn : config.modemDialApn ≠ some ""
  user : config.modemDialUser ≠ some ""
  password : config.modemDialPassword ≠ some ""
  auth : config.modemDialAuth ≠ some ""
  failTimeout : ¬config.modem5gFailTimeout < 60

theorem UserConfigData.Normal.setCharger {config : UserConfigData} (h : config.Normal)
    (dirty autoStart : Bool) (timeout : UInt32) :
    UserConfigData.Normal
      { config with
        dirty := dirty
        chargerOnAutoStart := autoStart
        chargerOnAutoStartTimeout := timeout } := { h with }

theorem filter_ne_empty (s : Option String) : s.filter (· ≠ "") ≠ some "" := by
  intro h
  have hmem := Option.eq_some_of_filter_eq_some h
  simp [hmem] at h

theorem filter_eq_self {s : Option String} (h : s ≠ some "") : s.filter (· ≠ "") = s := by
  cases s with
  | none => rfl
  | some s =>
    have hne : s ≠ "" := fun heq => h (heq ▸ rfl)
    simp [hne]

section Load
variable {fmt : KeyFileFormat}

theorem normal_userConfigDataLoad (kf : KeyFile) : (userConfigDataLoad fmt kf).Normal where
  valid := rfl
  schedule := rfl
  apn := filter_ne_empty _
  user := filter_ne_empty _
  password := filter_ne_empty _
  auth := filter_ne_empty _
  failTimeout := by
    simp only [userConfigDataLoad]
    split
    · decide
    · assumption

theorem map_reread_eq_iff (schedule : List PowerScheduleData) :
    schedule.map PowerScheduleData.reread = schedule ↔ ∀ sdata ∈ schedule, sdata.Fits := by
  conv_lhs => rw [← List.map_id schedule, List.map_map, List.map_inj_left]
  exact forall₂_congr fun sdata _ => sdata.reread_eq_iff

/-- A saved configuration is loaded as it was exactly when its entries fit. -/
theorem load_userConfigKeyFile_iff {config : UserConfigData} (h : config.Normal) :
    userConfigDataLoad fmt (userConfigKeyFile fmt config) = { config with dirty := false } ↔
      ∀ sdata ∈ config.powerScheduleData.getD [], sdata.Fits := by
  obtain ⟨schedule, hschedule⟩ := Option.isSome_iff_exists.mp h.schedule
  rw [userConfigDataLoad_userConfigKeyFile, filter_eq_self h.apn, filter_eq_self h.user,
    filter_eq_self h.password, filter_eq_self h.auth, if_neg h.failTimeout, ← h.valid, hschedule,
    Option.getD_some, ← map_reread_eq_iff]
  constructor
  · intro heq
    exact Option.some_inj.mp (congrArg UserConfigData.powerScheduleData heq)
  · intro heq
    rw [heq]

end Load

section Events
variable {jc : JsonConversions} {zone : LocalZone}

theorem eventEntry_dateFits (node : Json) (action : Bool) :
    (eventEntry jc zone node action).DateFits ∧
      (eventEntry jc zone node action).hour.toNat ≤ 99 ∧
      (eventEntry jc zone node action).minute.toNat ≤ 99 := by
  rw [eventEntry, PowerScheduleData.DateFits]
  split
  · rename_i dt2 hdt2
    obtain ⟨t, hyear⟩ := dt2
    have hfields := t.fields_le
    simp only [UInt8.ofInt, UInt8.toNat_ofNat', Int16.toInt_ofInt_of_le (n := t.date.year)
      (by omega) (by omega)]
    omega
  · dsimp only
    decide

/-- An entry made for an event fits unless the event is disabled and still asks for the
minute bit. -/
theorem eventEntry_fits_iff (node : Json) (action : Bool) :
    (eventEntry jc zone node action).Fits ↔
      (eventEnabled jc node = false → eventEnableBits jc node &&& scheduleEnableMinute = 0) := by
  have hminute (h : eventEnabled jc node = true) :
      eventEnableBits jc node &&& scheduleEnableMinute ≠ 0 := by
    simp only [eventEnableBits, h, if_true]
    cases intUnder jc node "enable-bits" with
    | none => decide
    | some iv => exact fun hzero => absurd ((or_and_eq_zero_iff _ _ _).mp hzero).1 (by decide)
  rw [PowerScheduleData.Fits, PowerScheduleData.has, eventEntry_enabled, eventEntry_enableBits,
    and_iff_left (eventEntry_dateFits node action)]
  cases h : eventEnabled jc node with
  | true => simpa [h] using hminute h
  | false => simp

end Events

/-- The command changes the configuration, to the same values or to others. -/
def ControllerRequest.Changes (r : ControllerRequest) : Prop :=
  match r.command with
  | .chargerOnAutoStartSet =>
    (r.root.member? "state").isSome = true ∨ (r.root.member? "timeout").isSome = true
  | _ => True

/-- How the configuration stands to its file, given whether a command has changed it since
it was loaded. -/
structure Daemon.FileKept (fmt : KeyFileFormat) (changed : Prop) (d : Daemon) : Prop where
  normal : d.world.userConfig.Normal
  loaded : ¬changed → d.world.userConfig = PcatManager.userConfigDataLoad fmt d.file
  saved : changed → d.world.userConfig.dirty = false →
    d.file = userConfigKeyFile fmt d.world.userConfig

namespace Daemon
variable {fmt : KeyFileFormat} {jc : JsonConversions} {zone : LocalZone}

theorem userConfigDataSync_of_clean {d : Daemon} (h : d.world.userConfig.dirty = false)
    (stored : Bool) : d.userConfigDataSync fmt stored = d := by
  simp [userConfigDataSync, userConfigDataSave, setConfig, h]

theorem userConfigDataSync_of_dirty {d : Daemon} (h : d.world.userConfig.dirty = true) :
    d.userConfigDataSync fmt true =
      { d.setConfig { d.world.userConfig with dirty := false } with
        file := userConfigKeyFile fmt d.world.userConfig } := by
  simp [userConfigDataSync, userConfigDataSave, h]

theorem userConfigDataSync_false (d : Daemon) : d.userConfigDataSync fmt false = d := by
  simp [userConfigDataSync, userConfigDataSave, setConfig]

theorem FileKept.congr {changed : Prop} {d d' : Daemon} (h : d.FileKept fmt changed)
    (hconfig : d'.world.userConfig = d.world.userConfig) (hfile : d'.file = d.file) :
    d'.FileKept fmt changed := by
  refine ⟨hconfig ▸ h.normal, ?_, ?_⟩
  · rw [hconfig, hfile]
    exact h.loaded
  · rw [hconfig, hfile]
    exact h.saved

theorem FileKept.of_dirty {d : Daemon} (hnormal : d.world.userConfig.Normal)
    (hdirty : d.world.userConfig.dirty = true) {changed : Prop} (hchanged : changed) :
    d.FileKept fmt changed :=
  ⟨hnormal, fun h => absurd hchanged h, fun _ h => nomatch hdirty.symm.trans h⟩

theorem FileKept.sync {changed : Prop} {d : Daemon} (h : d.FileKept fmt changed) (stored : Bool) :
    (d.userConfigDataSync fmt stored).FileKept fmt changed := by
  cases hdirty : d.world.userConfig.dirty with
  | false => rwa [userConfigDataSync_of_clean hdirty]
  | true =>
    cases stored with
    | false => rwa [userConfigDataSync_false]
    | true =>
      have hchanged : changed := by
        by_contra hnot
        have hclean := congrArg UserConfigData.dirty (h.loaded hnot)
        exact nomatch hdirty.symm.trans hclean
      rw [userConfigDataSync_of_dirty hdirty]
      exact ⟨h.normal.setCharger false _ _, fun hnot => absurd hchanged hnot, fun _ _ => rfl⟩

/-- The schedule a request stores, whether or not the file could be written. -/
theorem storeSchedule_powerScheduleData (d : Daemon) (schedule : List PowerScheduleData)
    (stored : Bool) : (d.storeSchedule fmt schedule stored).world.userConfig.powerScheduleData =
      some schedule := by
  rw [storeSchedule]
  dsimp only
  rw [(requests_scheduleTimeUpdate _).sameButLink.userConfig]
  cases stored <;> rfl

theorem fileKept_storeSchedule {changed : Prop} {d : Daemon} (h : d.FileKept fmt changed)
    (schedule : List PowerScheduleData) (stored : Bool) :
    (d.storeSchedule fmt schedule stored).FileKept fmt True := by
  rw [storeSchedule]
  generalize hconfig : ({ d.world.userConfig with
    powerScheduleData := some schedule, dirty := true } : UserConfigData) = config
  have hnormal : config.Normal := hconfig ▸ { h.normal with schedule := rfl }
  have hdirty : (d.setConfig config).FileKept fmt True := .of_dirty hnormal (hconfig ▸ rfl) trivial
  refine (hdirty.sync stored).congr ?_ rfl
  exact (requests_scheduleTimeUpdate
    ((d.setConfig config).userConfigDataSync fmt stored).world).sameButLink.userConfig

theorem chargerConfig_of_unchanged {config : UserConfigData} {root : Json}
    (hstate : (root.member? "state").isSome = false)
    (htimeout : (root.member? "timeout").isSome = false) : chargerConfig jc config root = config := by
  rw [Option.isSome_eq_false_iff, Option.isNone_iff_eq_none] at hstate htimeout
  simp [chargerConfig, intUnder, hstate, htimeout]

theorem chargerConfig_of_changed {config : UserConfigData} {root : Json} (hnormal : config.Normal)
    (h : (root.member? "state").isSome = true ∨ (root.member? "timeout").isSome = true) :
    (chargerConfig jc config root).Normal ∧ (chargerConfig jc config root).dirty = true := by
  rw [chargerConfig, intUnder, intUnder]
  cases hstate : root.member? "state" with
  | none =>
    obtain ⟨json, htimeout⟩ : ∃ json, root.member? "timeout" = some json :=
      Option.isSome_iff_exists.mp (by simpa [hstate] using h)
    rw [htimeout]
    exact ⟨hnormal.setCharger true _ _, rfl⟩
  | some json =>
    cases root.member? "timeout" with
    | none => exact ⟨hnormal.setCharger true _ _, rfl⟩
    | some json' => exact ⟨hnormal.setCharger true _ _, rfl⟩

theorem fileKept_chargerOnAutoStartSet {changed : Prop} {d : Daemon} {root : Json} {stored : Bool}
    (h : d.FileKept fmt changed) :
    (d.chargerOnAutoStartSet fmt jc root stored).FileKept fmt
      (changed ∨ (root.member? "state").isSome = true ∨ (root.member? "timeout").isSome = true) := by
  rw [chargerOnAutoStartSet]
  refine FileKept.sync ?_ stored
  have hset : (d.setConfig (chargerConfig jc d.world.userConfig root)).FileKept fmt
      (changed ∨ (root.member? "state").isSome = true ∨
        (root.member? "timeout").isSome = true) := by
    by_cases hchanges : (root.member? "state").isSome = true ∨ (root.member? "timeout").isSome = true
    · obtain ⟨hnormal, hdirty⟩ : (chargerConfig jc d.world.userConfig root).Normal ∧
          (chargerConfig jc d.world.userConfig root).dirty = true :=
        chargerConfig_of_changed h.normal hchanges
      exact .of_dirty hnormal hdirty (.inr hchanges)
    · obtain ⟨hstate, htimeout⟩ := not_or.mp hchanges
      rw [Bool.not_eq_true] at hstate htimeout
      rw [chargerConfig_of_unchanged hstate htimeout, or_iff_left hchanges]
      exact h
  refine hset.congr ?_ rfl
  exact (requests_chargerOnAutoStart
    (d.setConfig (chargerConfig jc d.world.userConfig root)).world _).sameButLink.userConfig

theorem fileKept_modemNetworkSetup {changed : Prop} {d : Daemon} {root : Json} {stored : Bool}
    (h : d.FileKept fmt changed) : (d.modemNetworkSetup fmt jc root stored).FileKept fmt True := by
  have hnormal : (modemConfig jc d.world.userConfig root).Normal :=
    { h.normal with
      apn := filter_ne_empty _
      user := filter_ne_empty _
      password := filter_ne_empty _
      auth := filter_ne_empty _ }
  have hdirty : (d.setConfig (modemConfig jc d.world.userConfig root)).FileKept fmt True :=
    .of_dirty hnormal rfl trivial
  exact (hdirty.sync stored).congr rfl rfl

theorem fileKept_callback {changed : Prop} {d d' : Daemon} {r : ControllerRequest}
    (h : d.FileKept fmt changed) (hr : d.callback fmt jc zone r = some d') :
    d'.FileKept fmt (changed ∨ r.Changes) := by
  rw [callback] at hr
  rw [ControllerRequest.Changes]
  cases hcommand : r.command with
  | schedulePowerEventSet =>
    rw [hcommand] at hr
    obtain ⟨schedule, -, rfl⟩ := Option.map_eq_some_iff.mp hr
    rw [or_true]
    exact fileKept_storeSchedule h schedule r.stored
  | chargerOnAutoStartSet =>
    rw [hcommand] at hr
    obtain rfl := Option.some.inj hr
    exact fileKept_chargerOnAutoStartSet h
  | modemNetworkSetup =>
    rw [hcommand] at hr
    obtain rfl := Option.some.inj hr
    rw [or_true]
    exact fileKept_modemNetworkSetup h

theorem fileKept_callbacks {changed : Prop} {d d' : Daemon} {requests : List ControllerRequest}
    (h : d.FileKept fmt changed) (hrun : d.callbacks fmt jc zone requests = some d') :
    d'.FileKept fmt (changed ∨ ∃ r ∈ requests, r.Changes) := by
  induction requests generalizing d changed with
  | nil =>
    obtain rfl := Option.some.inj hrun
    simpa using h
  | cons r rest ih =>
    obtain ⟨next, hr, hrest⟩ := Option.bind_eq_some_iff.mp hrun
    simpa [or_assoc] using ih (fileKept_callback h hr) hrest

theorem fileKept_load (d : Daemon) : (d.userConfigDataLoad fmt).FileKept fmt False :=
  ⟨normal_userConfigDataLoad _, fun _ => rfl, fun h => h.elim⟩

/-- A successful save followed by a load gives the configuration back. -/
def Reproduced (fmt : KeyFileFormat) (d : Daemon) : Prop :=
  ((d.userConfigDataSync fmt true).userConfigDataLoad fmt).world.userConfig =
    { d.world.userConfig with dirty := false }

/-- When a configuration is reproduced, in terms of how it stands to its file. -/
theorem reproduced_iff {changed : Prop} {d : Daemon} (h : d.FileKept fmt changed) :
    d.Reproduced fmt ↔
      ¬changed ∨ ∀ sdata ∈ d.world.userConfig.powerScheduleData.getD [], sdata.Fits := by
  rw [Reproduced]
  by_cases hchanged : changed
  · have hfile : (d.userConfigDataSync fmt true).file = userConfigKeyFile fmt d.world.userConfig := by
      cases hdirty : d.world.userConfig.dirty with
      | false => rw [userConfigDataSync_of_clean hdirty, ← h.saved hchanged hdirty]
      | true => rw [userConfigDataSync_of_dirty hdirty]
    have hload := @load_userConfigKeyFile_iff fmt _ h.normal
    rw [← hload, ← hfile]
    simp only [hchanged, not_true, false_or]
    rfl
  · have hloaded := h.loaded hchanged
    have hclean : d.world.userConfig.dirty = false := congrArg UserConfigData.dirty hloaded
    rw [userConfigDataSync_of_clean hclean]
    simp only [hchanged, not_false_eq_true, true_or, iff_true, userConfigDataLoad, setConfig]
    rw [← hloaded, ← hclean]

theorem requestedSchedule_single (members : List (String × Json)) (action : Bool) :
    requestedSchedule jc zone (.object [("event-list", .array [.object members])]) action =
      some [eventEntry jc zone (.object members) (eventAction jc (.object members) action)] := by
  simp only [requestedSchedule, Json.member?, List.lookup_cons, beq_self_eq_true, List.length_cons,
    List.length_nil]
  rw [show (0 + 1) % 2 ^ 32 = 1 from rfl, List.take_succ_cons, List.take_nil]
  simp [powerEventLoop]

theorem callbacks_of_requestedSchedule {d : Daemon} {r : ControllerRequest}
    {schedule : List PowerScheduleData} (hcommand : r.command = .schedulePowerEventSet)
    (h : requestedSchedule jc zone r.root r.action = some schedule) :
    d.callbacks fmt jc zone [r] = some (d.storeSchedule fmt schedule r.stored) := by
  rw [callbacks, callback, hcommand]
  dsimp only
  rw [schedulePowerEventSet, h]
  rfl

/-- After any commands on a configuration that was loaded, saving and loading gives the
configuration back exactly when no command has changed it or every entry of its schedule
fits the file. -/
theorem configuration_survives_iff (d : Daemon) {d' : Daemon} {requests : List ControllerRequest}
    (hrun : (d.userConfigDataLoad fmt).callbacks fmt jc zone requests = some d') :
    d'.Reproduced fmt ↔ (¬∃ r ∈ requests, r.Changes) ∨
      ∀ sdata ∈ d'.world.userConfig.powerScheduleData.getD [], sdata.Fits := by
  rw [reproduced_iff (fileKept_callbacks d.fileKept_load hrun), false_or]

/-- An event that is enabled. -/
def enabledEvent : ControllerRequest where
  command := .schedulePowerEventSet
  root := .object [("event-list", .array [.object [("enabled", .int 1), ("action", .int 1)]])]
  action := false
  stored := true

/-- The event survives. -/
theorem configuration_survives_enabled :
    ∃ d', Daemon.callbacks .decimal .plain (.fixedOffset ⟨0, by decide⟩)
        ((Daemon.mk .plain .empty []).userConfigDataLoad .decimal) [enabledEvent] = some d' ∧
      d'.Reproduced .decimal := by
  have hrun : Daemon.callbacks .decimal .plain (.fixedOffset ⟨0, by decide⟩)
      ((Daemon.mk .plain .empty []).userConfigDataLoad .decimal) [enabledEvent] = some _ :=
    callbacks_of_requestedSchedule rfl (requestedSchedule_single _ _)
  refine ⟨_, hrun, (configuration_survives_iff _ hrun).mpr (.inr ?_)⟩
  rw [storeSchedule_powerScheduleData, Option.getD_some, List.forall_mem_singleton,
    eventEntry_fits_iff]
  simp [eventEnabled, intUnder, Json.member?, JsonConversions.plain]

/-- An event that is disabled and asks for the minute bit. -/
def disabledEvent : ControllerRequest where
  command := .schedulePowerEventSet
  root := .object [("event-list", .array [.object [("enabled", .int 0), ("action", .int 0),
    ("enable-bits", .int 16)]])]
  action := false
  stored := true

/-- The event is stored disabled and loaded enabled. -/
theorem disabled_entry_comes_back_enabled :
    ∃ d', Daemon.callbacks .decimal .plain (.fixedOffset ⟨0, by decide⟩)
        ((Daemon.mk .plain .empty []).userConfigDataLoad .decimal) [disabledEvent] = some d' ∧
      ¬d'.Reproduced .decimal := by
  refine ⟨_, callbacks_of_requestedSchedule rfl (requestedSchedule_single _ _), ?_⟩
  rw [reproduced_iff (fileKept_storeSchedule (fileKept_load _) _ disabledEvent.stored),
    storeSchedule_powerScheduleData, Option.getD_some, List.forall_mem_singleton,
    eventEntry_fits_iff]
  simp only [eventEnabled, eventEnableBits, intUnder, Json.member?, List.lookup_cons]
  simp [JsonConversions.plain]
  decide

end Daemon
end PcatManager
