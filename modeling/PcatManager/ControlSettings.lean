import PcatManager.ControlServer
import PcatManager.PmuManagerFrame
import PcatManager.RunTrace

/-!
# The settings of the clients

The messages of all clients overwrite one set of settings, in the order in which they are
handled. What a get command shows of a setting is what the last message has set that has set
it, whichever client has sent it.
-/

namespace PcatManager
open DelimitedStream SerialReadParser ControlInput GuardedRun RunTrace

/-- What `modem-network-setup` sets, all of it at once. -/
structure ModemSetting where
  apn : Option String
  user : Option String
  password : Option String
  auth : Option String
  failAutoReset : Bool
  deriving DecidableEq

/-- What clients can set. -/
structure Settings where
  powerScheduleData : Option (List PowerScheduleData)
  chargerOnAutoStart : Bool
  chargerOnAutoStartTimeout : UInt32
  modem : ModemSetting

def UserConfigData.settings (config : UserConfigData) : Settings where
  powerScheduleData := config.powerScheduleData
  chargerOnAutoStart := config.chargerOnAutoStart
  chargerOnAutoStartTimeout := config.chargerOnAutoStartTimeout
  modem := ⟨config.modemDialApn, config.modemDialUser, config.modemDialPassword,
    config.modemDialAuth, config.modemDisable5gFailAutoReset⟩

namespace Settings
variable (js : JsonLibrary) (zone : HostZone)

/-- What a text sets if it is a message with this command. -/
def argument {α : Type} (command : String) (argumentOf : Json → Option α) (text : List UInt8) :
    Option α :=
  (js.parse text).bind fun root =>
    if Controller.commandOf js root = some command then argumentOf root else none

/-- The schedule a message sets. With it comes what the uninitialised variable of the callback
holds. -/
def schedule? (m : List UInt8 × Bool) : Option (List PowerScheduleData) :=
  argument js "schedule-power-event-set"
    (fun root => requestedSchedule js.toJsonConversions zone.toLocalZone root m.2) m.1

def chargerState? (text : List UInt8) : Option Bool :=
  argument js "charger-on-auto-start-set"
    (fun root => (intUnder js.toJsonConversions root "state").map fun iv => decide (iv ≠ 0)) text

def chargerTimeout? (text : List UInt8) : Option UInt32 :=
  argument js "charger-on-auto-start-set"
    (fun root => (intUnder js.toJsonConversions root "timeout").map fun iv => iv.toUInt32) text

def modemSetting? (text : List UInt8) : Option ModemSetting :=
  argument js "modem-network-setup"
    (fun root => some
      { apn := Daemon.stringUnder js.toJsonConversions root "apn"
        user := Daemon.stringUnder js.toJsonConversions root "user"
        password := Daemon.stringUnder js.toJsonConversions root "password"
        auth := Daemon.stringUnder js.toJsonConversions root "auth"
        failAutoReset :=
          ((intUnder js.toJsonConversions root "connection-5g-fail-auto-reset").map
            fun iv => decide (iv ≠ 0)).getD false }) text

/-- A message overwrites what it sets. -/
def write (st : Settings) (m : List UInt8 × Bool) : Settings where
  powerScheduleData := ((schedule? js zone m).map some).getD st.powerScheduleData
  chargerOnAutoStart := (chargerState? js m.1).getD st.chargerOnAutoStart
  chargerOnAutoStartTimeout := (chargerTimeout? js m.1).getD st.chargerOnAutoStartTimeout
  modem := (modemSetting? js m.1).getD st.modem

/-- After some messages each setting is what the last message says that says anything about
it. -/
theorem run_write (st : Settings) (messages : List (List UInt8 × Bool)) :
    let last {α : Type} (said : List UInt8 × Bool → Option α) := (messages.filterMap said).getLast?
    run (write js zone) st messages =
      { powerScheduleData := ((last (schedule? js zone)).map some).getD st.powerScheduleData
        chargerOnAutoStart := (last fun m => chargerState? js m.1).getD st.chargerOnAutoStart
        chargerOnAutoStartTimeout :=
          (last fun m => chargerTimeout? js m.1).getD st.chargerOnAutoStartTimeout
        modem := (last fun m => modemSetting? js m.1).getD st.modem } := by
  have hschedule := run_overwritten (write js zone) powerScheduleData
    (fun m => (schedule? js zone m).map some) (fun _ _ => rfl) st messages
  have hstate := run_overwritten (write js zone) chargerOnAutoStart
    (fun m => chargerState? js m.1) (fun _ _ => rfl) st messages
  have htimeout := run_overwritten (write js zone) chargerOnAutoStartTimeout
    (fun m => chargerTimeout? js m.1) (fun _ _ => rfl) st messages
  have hmodem := run_overwritten (write js zone) modem
    (fun m => modemSetting? js m.1) (fun _ _ => rfl) st messages
  rw [← List.map_filterMap, List.getLast?_map] at hschedule
  intro last
  rw [← hschedule, ← hstate, ← htimeout, ← hmodem]

section Argument
variable {js zone} {text : List UInt8} {root : Json} {name : String}

theorem argument_of_command {α : Type} {argumentOf : Json → Option α} {command : String}
    (hparse : js.parse text = some root) (hcommand : Controller.commandOf js root = some name) :
    argument js command argumentOf text = if name = command then argumentOf root else none := by
  rw [argument, hparse, Option.bind_some, hcommand]
  by_cases hname : name = command
  · rw [if_pos hname, if_pos (congrArg some hname)]
  · rw [if_neg hname, if_neg fun h => hname (Option.some.inj h)]

/-- A text that is no message with one of the three commands sets nothing. -/
theorem write_of_argument_none {m : List UInt8 × Bool} (st : Settings)
    (hnone : ∀ {α : Type} (argumentOf : Json → Option α), ∀ command ∈
      ["schedule-power-event-set", "charger-on-auto-start-set", "modem-network-setup"],
      argument js command argumentOf m.1 = none) : st.write js zone m = st := by
  rw [write, schedule?, chargerState?, chargerTimeout?, modemSetting?,
    hnone _ "schedule-power-event-set" (by simp), hnone _ "charger-on-auto-start-set" (by simp),
    hnone _ "charger-on-auto-start-set" (by simp), hnone _ "modem-network-setup" (by simp)]
  rfl

end Argument

end Settings

namespace Daemon
variable (fmt : KeyFileFormat) (d : Daemon)

theorem settings_userConfigDataSync (stored : Bool) :
    (d.userConfigDataSync fmt stored).world.userConfig.settings = d.world.userConfig.settings := by
  rw [userConfigDataSync, userConfigDataSave]
  split_ifs <;> rfl

theorem settings_storeSchedule (schedule : List PowerScheduleData) (stored : Bool) :
    (d.storeSchedule fmt schedule stored).world.userConfig.settings =
      { d.world.userConfig.settings with powerScheduleData := some schedule } := by
  have hrequests (w : World) : w.scheduleTimeUpdate.userConfig = w.userConfig :=
    (World.requests_scheduleTimeUpdate w).sameButLink.userConfig
  rw [storeSchedule]
  dsimp only
  rw [hrequests]
  exact settings_userConfigDataSync fmt (d.setConfig _) stored

theorem settings_chargerOnAutoStartSet (jc : JsonConversions) (root : Json) (stored : Bool) :
    (d.chargerOnAutoStartSet fmt jc root stored).world.userConfig.settings =
      { d.world.userConfig.settings with
        chargerOnAutoStart :=
          ((intUnder jc root "state").map fun iv => decide (iv ≠ 0)).getD
            d.world.userConfig.chargerOnAutoStart
        chargerOnAutoStartTimeout :=
          ((intUnder jc root "timeout").map fun iv => iv.toUInt32).getD
            d.world.userConfig.chargerOnAutoStartTimeout } := by
  have hrequests (w : World) (state : Bool) :
      (w.chargerOnAutoStart state).userConfig = w.userConfig :=
    (World.requests_chargerOnAutoStart w state).sameButLink.userConfig
  rw [chargerOnAutoStartSet, settings_userConfigDataSync]
  dsimp only
  rw [hrequests]
  change (chargerConfig jc d.world.userConfig root).settings = _
  rw [chargerConfig]
  cases intUnder jc root "state" <;> cases intUnder jc root "timeout" <;> rfl

theorem settings_modemNetworkSetup (jc : JsonConversions) (root : Json) (stored : Bool) :
    (d.modemNetworkSetup fmt jc root stored).world.userConfig.settings =
      { d.world.userConfig.settings with
        modem :=
          { apn := stringUnder jc root "apn"
            user := stringUnder jc root "user"
            password := stringUnder jc root "password"
            auth := stringUnder jc root "auth"
            failAutoReset :=
              ((intUnder jc root "connection-5g-fail-auto-reset").map
                fun iv => decide (iv ≠ 0)).getD false } } := by
  rw [modemNetworkSetup]
  apply (settings_userConfigDataSync fmt (d.setConfig _) stored).trans
  change (modemConfig jc d.world.userConfig root).settings = _
  rw [modemConfig]
  cases intUnder jc root "connection-5g-fail-auto-reset" <;> rfl

end Daemon

namespace Controller
variable {fmt : KeyFileFormat} {js : JsonLibrary} {zone : HostZone} {c c' : Controller} {id : ℕ}

def settings (c : Controller) : Settings := c.daemon.world.userConfig.settings

theorem settings_callback {text : List UInt8} {root : Json} {name : String} {callback : Callback}
    {action stored : Bool} (hparse : js.parse text = some root)
    (hcommand : commandOf js root = some name) (hmem : (name, callback) ∈ commandList fmt js zone)
    (h : callback c id name ⟨root, action, stored⟩ = some c') :
    c'.settings = c.settings.write js zone (text, action) := by
  have hargument {α : Type} (command : String) (argumentOf : Json → Option α) :
      Settings.argument js command argumentOf text =
        if name = command then argumentOf root else none :=
    Settings.argument_of_command hparse hcommand
  have hgets (hname : name ∉
      ["schedule-power-event-set", "charger-on-auto-start-set", "modem-network-setup"]) :
      c.settings.write js zone (text, action) = c.settings := by
    apply Settings.write_of_argument_none
    intro α argumentOf command hset
    rw [hargument, if_neg]
    rintro rfl
    exact hname hset
  simp only [commandList, List.mem_cons, List.not_mem_nil, or_false, Prod.mk.injEq] at hmem
  rcases hmem with ⟨rfl, rfl⟩ | ⟨rfl, rfl⟩ | ⟨rfl, rfl⟩ | ⟨rfl, rfl⟩ | ⟨rfl, rfl⟩ | ⟨rfl, rfl⟩ |
    ⟨rfl, rfl⟩ | ⟨rfl, rfl⟩ | ⟨rfl, rfl⟩ | ⟨rfl, rfl⟩ | ⟨rfl, rfl⟩
  · rw [hgets (by simp)]
    cases h
    rfl
  · obtain ⟨daemon, hdaemon, rfl⟩ := Option.map_eq_some_iff.mp h
    obtain ⟨schedule, hschedule, rfl⟩ := Option.map_eq_some_iff.mp hdaemon
    apply (Daemon.settings_storeSchedule fmt c.daemon schedule stored).trans
    rw [Settings.write, Settings.schedule?, Settings.chargerState?, Settings.chargerTimeout?,
      Settings.modemSetting?, hargument, hargument, hargument, hargument, if_pos rfl, hschedule,
      if_neg (by simp), if_neg (by simp), if_neg (by simp)]
    rfl
  · rw [hgets (by simp)]
    cases h
    rfl
  · rw [hgets (by simp)]
    cases h
    rfl
  · rw [hgets (by simp)]
    cases h
    rfl
  · cases h
    apply (Daemon.settings_chargerOnAutoStartSet fmt c.daemon js.toJsonConversions root
      stored).trans
    rw [Settings.write, Settings.schedule?, Settings.chargerState?, Settings.chargerTimeout?,
      Settings.modemSetting?, hargument, hargument, hargument, hargument, if_pos rfl, if_pos rfl,
      if_neg (by simp), if_neg (by simp)]
    rfl
  · rw [hgets (by simp)]
    cases h
    rfl
  · rw [hgets (by simp)]
    cases h
    rfl
  · rw [hgets (by simp)]
    cases h
    rfl
  · cases h
    apply (Daemon.settings_modemNetworkSetup fmt c.daemon js.toJsonConversions root stored).trans
    rw [Settings.write, Settings.schedule?, Settings.chargerState?, Settings.chargerTimeout?,
      Settings.modemSetting?, hargument, hargument, hargument, hargument, if_pos rfl,
      if_neg (by simp), if_neg (by simp), if_neg (by simp)]
    rfl
  · rw [hgets (by simp)]
    cases h
    rfl

theorem settings_handleText {text : List UInt8} {action stored : Bool}
    (h : c.handleText fmt js zone id text action stored = some c') :
    c'.settings = c.settings.write js zone (text, action) := by
  by_cases hrecognised : ∃ root command, Recognised fmt js zone text root command
  · obtain ⟨root, command, hrecognised⟩ := hrecognised
    obtain ⟨callback, hlookup, hhandle⟩ := handleText_of_recognised fmt js zone hrecognised
    rw [hhandle] at h
    exact settings_callback hrecognised.1 hrecognised.2.1 (mem_of_lookup fmt js zone hlookup) h
  · rw [handleText_of_not_recognised fmt js zone hrecognised] at h
    cases h
    apply (Settings.write_of_argument_none c.settings ?_).symm
    intro α argumentOf command hset
    rw [Settings.argument]
    cases hparse : js.parse text with
    | none => rfl
    | some root =>
      rw [Option.bind_some, if_neg]
      intro hcommand
      apply hrecognised
      refine ⟨root, command, hparse, hcommand, ?_⟩
      simp only [List.mem_cons, List.not_mem_nil, or_false] at hset
      rcases hset with rfl | rfl | rfl <;> simp [commandList]

end Controller

namespace ControlServer
variable (fmt : KeyFileFormat) (js : JsonLibrary) (zone : HostZone)

/-- The texts of a read in their order, each with what the uninitialised variable holds. -/
def handNext (action : ℕ → Bool) (state : List (List UInt8 × Bool) × ℕ) (text : List UInt8) :
    List (List UInt8 × Bool) × ℕ := (state.1 ++ [(text, action state.2)], state.2 + 1)

/-- The texts that an event hands over to the callbacks. -/
def handed (s : ControlServer) : Event → List (List UInt8 × Bool)
  | .read id r action _ =>
    match s.controller.connections id with
    | none => []
    | some connection => (inputStep (handNext action) connection.inputBuffer ([], 0) r.bytes).2.1
  | _ => []

/-- The server after an event that does not abort it. -/
def next (s : ControlServer) (e : Event) : ControlServer := (step fmt js zone s e).getD s

/-- Elsewhere in the process nothing writes the user configuration. -/
def SparesConfig (s : ControlServer) : Event → Prop
  | .elsewhere daemon _ _ => daemon.world.userConfig = s.controller.daemon.world.userConfig
  | _ => True

section Runs
variable {fmt js zone} {s s' : ControlServer}

theorem foldl_handNext {action : ℕ → Bool} (texts : List (List UInt8))
    (before : List (List UInt8 × Bool)) (k : ℕ) :
    (texts.foldl (handNext action) (before, k)).1 =
      before ++ (texts.foldl (handNext action) ([], k)).1 := by
  induction texts generalizing before k with
  | nil => exact (List.append_nil before).symm
  | cons text texts ih =>
    rw [List.foldl_cons, List.foldl_cons, handNext, handNext, ih, ih ([] ++ _), List.nil_append,
      List.append_assoc]

theorem settings_foldl {c c' : Controller} {id : ℕ} {action stored : ℕ → Bool}
    (texts : List (List UInt8)) (k : ℕ)
    (h : (texts.foldl (handleNext fmt js zone id action stored) (some c, k)).1 = some c') :
    c'.settings = run (Settings.write js zone) c.settings
      (texts.foldl (handNext action) ([], k)).1 := by
  induction texts generalizing c k with
  | nil =>
    cases h
    rfl
  | cons text texts ih =>
    rw [List.foldl_cons, handleNext, Option.bind_some] at h
    rw [List.foldl_cons, handNext, foldl_handNext, List.nil_append, run_append, run_cons, run_nil]
    cases hfirst : c.handleText fmt js zone id text (action k) (stored k) with
    | none =>
      rw [hfirst, foldl_handleNext_none] at h
      cases h
    | some c₁ =>
      rw [hfirst] at h
      rw [ih (k + 1) h, Controller.settings_handleText hfirst]

theorem settings_step {e : Event} (hstep : step fmt js zone s e = some s')
    (hspares : SparesConfig s e) :
    s'.controller.settings = run (Settings.write js zone) s.controller.settings (handed s e) := by
  cases e with
  | read id r action stored =>
    rw [step] at hstep
    rw [handed]
    cases hconnection : s.controller.connections id with
    | none =>
      rw [hconnection] at hstep
      cases hstep
      rfl
    | some connection =>
      rw [hconnection] at hstep
      dsimp only at hstep ⊢
      rw [inputStep, inputParse_spec] at hstep
      rw [inputStep, inputParse_spec]
      obtain ⟨controller, hcontroller, rfl⟩ := Option.map_eq_some_iff.mp hstep
      exact (settings_foldl _ 0 hcontroller : controller.settings = _)
  | elsewhere daemon modem routeMode =>
    cases hstep
    exact congrArg UserConfigData.settings hspares
  | incoming id =>
    cases hstep
    rfl
  | inputClosed id =>
    cases hstep
    rfl
  | outputWatch id writes wsize =>
    cases hstep
    rfl
  | connectionCheck =>
    cases hstep
    rfl

theorem settings_run {events : List Event} (hrun : events.foldlM (step fmt js zone) s = some s')
    (hspares : Along (next fmt js zone) SparesConfig s events) :
    s'.controller.settings = run (Settings.write js zone) s.controller.settings
      (trace (next fmt js zone) handed s events) := by
  induction events generalizing s with
  | nil =>
    cases hrun
    rfl
  | cons e events ih =>
    rw [List.foldlM_cons] at hrun
    obtain ⟨s₁, hstep, hrest⟩ := Option.bind_eq_some_iff.mp hrun
    obtain ⟨hfirst, hlater⟩ := hspares
    have hnext : next fmt js zone s e = s₁ := by rw [next, hstep, Option.getD_some]
    rw [hnext] at hlater
    rw [trace_cons, hnext, run_append, ih hrest hlater, settings_step hstep hfirst]

end Runs

/-- However the streams of the clients are cut into reads and mixed, the get commands show of
each setting what the last message has set that has set it, of whichever client, and what the
configuration had at the start if there is none. -/
theorem settings_replies (daemon : Daemon) (modem : ModemManagerData) (routeMode : RouteMode)
    (events : List Event) {s : ControlServer}
    (hrun : events.foldlM (step fmt js zone) (opened daemon modem routeMode) = some s)
    (hspares : Along (next fmt js zone) SparesConfig (opened daemon modem routeMode) events)
    (id : ℕ) (command : String) :
    let before := daemon.world.userConfig.settings
    let messages := trace (next fmt js zone) handed (opened daemon modem routeMode) events
    let last {α : Type} (said : List UInt8 × Bool → Option α) := (messages.filterMap said).getLast?
    let schedule := (last (Settings.schedule? js zone)).getD (before.powerScheduleData.getD [])
    let state := (last fun m => Settings.chargerState? js m.1).getD before.chargerOnAutoStart
    let timeout :=
      (last fun m => Settings.chargerTimeout? js m.1).getD before.chargerOnAutoStartTimeout
    let network := (last fun m => Settings.modemSetting? js m.1).getD before.modem
    let world := s.controller.daemon.world
    let elapsed := (world.monotonicTime - world.pmu.chargerOnAutoStartLastTimestamp).tdiv 1000000
    s.controller.schedulePowerEventGetFunc js zone id command =
      s.controller.outputJsonPush js id (okReply command
        [("event-list", .array (schedule.map (Controller.entryNode zone)))]) ∧
    s.controller.chargerOnAutoStartGetFunc js id command =
      s.controller.outputJsonPush js id (okReply command
        [("state", jsonFlag state), ("timeout", jsonInt timeout),
          ("countdown", .int (Int32.ofInt (timeout.toNat - elapsed)).toInt)]) ∧
    s.controller.modemNetworkGetFunc js id command =
      s.controller.outputJsonPush js id (okReply command
        [("apn", .string (network.apn.getD "")), ("user", .string (network.user.getD "")),
          ("password", .string (network.password.getD "")),
          ("auth", .string (network.auth.getD "")),
          ("connection-5g-fail-auto-reset", jsonFlag network.failAutoReset)]) := by
  intro before messages last schedule state timeout network world elapsed
  have hsettings := settings_run hrun hspares
  rw [Settings.run_write] at hsettings
  have hschedule : world.userConfig.powerScheduleData.getD [] = schedule := by
    rw [show world.userConfig.powerScheduleData = _ from
      congrArg Settings.powerScheduleData hsettings]
    change (((last (Settings.schedule? js zone)).map some).getD _).getD [] =
      (last (Settings.schedule? js zone)).getD _
    cases last (Settings.schedule? js zone) <;> rfl
  have hstate : world.userConfig.chargerOnAutoStart = state :=
    congrArg Settings.chargerOnAutoStart hsettings
  have htimeout : world.userConfig.chargerOnAutoStartTimeout = timeout :=
    congrArg Settings.chargerOnAutoStartTimeout hsettings
  have hnetwork : world.userConfig.settings.modem = network := congrArg Settings.modem hsettings
  rw [← hschedule, ← hstate, ← htimeout, ← hnetwork]
  exact ⟨rfl, rfl, rfl⟩

def apnText : List UInt8 := utf8Bytes "\x7b\"command\":\"modem-network-setup\",\"apn\":\"internet\"\x7d"

def chargerText : List UInt8 :=
  utf8Bytes "\x7b\"command\":\"charger-on-auto-start-set\",\"timeout\":30\x7d"

def settingLibrary : JsonLibrary :=
  messageLibrary
    [(apnText, .object [("command", .string "modem-network-setup"), ("apn", .string "internet")]),
      (chargerText, .object [("command", .string "charger-on-auto-start-set"), ("timeout", .int 30)])]

/-- One client sets the access point, another one the charger. -/
def twoSetters : List Event :=
  [.incoming 0, .incoming 1,
    .read 0 ⟨apnText ++ [0], by decide +kernel, by decide +kernel⟩ (fun _ => false) fun _ => true,
    .elsewhere ⟨{ World.plain with userConfig := { modemDialApn := some "internet" } }, .empty, []⟩
      {} .wired,
    .read 1 ⟨chargerText ++ [0], by decide +kernel, by decide +kernel⟩ (fun _ => false) fun _ => true]

theorem settings_replies_twoSetters : ∃ s,
    twoSetters.foldlM (step .decimal settingLibrary utcZone)
      (opened ⟨.plain, .empty, []⟩ {} .none) = some s ∧
    s.controller.modemNetworkGetFunc settingLibrary 1 "modem-network-get" =
      s.controller.outputJsonPush settingLibrary 1 (okReply "modem-network-get"
        [("apn", .string "internet"), ("user", .string ""), ("password", .string ""),
          ("auth", .string ""), ("connection-5g-fail-auto-reset", .int 0)]) := by
  have hsome : (twoSetters.foldlM (step .decimal settingLibrary utcZone)
      (opened ⟨.plain, .empty, []⟩ {} .none)).isSome = true := by decide +kernel
  obtain ⟨s, hrun⟩ := Option.isSome_iff_exists.mp hsome
  refine ⟨s, hrun, ?_⟩
  have hspares : Along (next .decimal settingLibrary utcZone) SparesConfig
      (opened ⟨.plain, .empty, []⟩ {} .none) twoSetters := by
    refine ⟨trivial, trivial, trivial, ?_, trivial, trivial⟩
    rw [SparesConfig]
    decide +kernel
  have hreply := (settings_replies .decimal settingLibrary utcZone ⟨.plain, .empty, []⟩ {} .none
    twoSetters hrun hspares 1 "modem-network-get").2.2
  have hnetwork : (((trace (next .decimal settingLibrary utcZone) handed
      (opened ⟨.plain, .empty, []⟩ {} .none) twoSetters).filterMap fun m =>
        Settings.modemSetting? settingLibrary m.1).getLast?).getD
      World.plain.userConfig.settings.modem = ⟨some "internet", none, none, none, false⟩ := by
    decide +kernel
  dsimp only at hreply
  rw [hnetwork] at hreply
  exact hreply

end ControlServer
end PcatManager
