import PcatManager.ControllerAnswers
import PcatManager.DialerLines
import PcatManager.LastMark
import PcatManager.ModemReset
import PcatManager.UserConfigRestart

/-!
# The delay of the modem reset

The loader does not accept a timeout below a minute, and no command changes it. A
configuration that could not be loaded has a timeout of 0.
-/

namespace PcatManager
open GuardedRun JsonConversions

/-- What the main loop reacts to: the message of a client, the other callbacks of the control
socket, output of the dialer, the reset timer, the events of the PMU manager, and the network
threads, which set the route mode. -/
inductive ProgramEvent where
  | message (id : ℕ) (text : List UInt8) (action stored : Bool)
  | connection (e : ConnectionTable.Event)
  | dialerOutput (stale : Option (List UInt8)) (chunk : SerialReadParser.Read)
  | modemScan
  | manager (e : Event)
  | routeMode (mode : RouteMode)

namespace Controller
variable (fmt : KeyFileFormat) (js : JsonLibrary) (zone : HostZone)

/-- The program when its main loop starts. Without a file that could be loaded the user
configuration is as the loader zeroes it. -/
def programStart (w : World) (file : Option KeyFile) : Controller where
  daemon :=
    { world :=
        { w.start with
          userConfig := match file with | some kf => userConfigDataLoad fmt kf | none => {} }
      file := file.getD .empty
      replies := [] }
  modem := {}
  routeMode := .none
  connections := ConnectionTable.opened

/-- An event of the PMU manager. Only the commands change the configuration. -/
def managerStep (c : Controller) : Event → Controller
  | .configure _ => c
  | e => { c with daemon := { c.daemon with world := c.daemon.world.step e } }

/-- One callback. All of them read the same clock. -/
def programStep (c : Controller) : ProgramEvent → Option Controller
  | .message id text action stored => c.handleText fmt js zone id text action stored
  | .connection e => some { c with connections := c.connections.step e }
  | .dialerOutput stale chunk =>
    (c.modem.lineParser c.daemon.world.monotonicTime stale chunk.bytes).map fun modem =>
      { c with modem := modem }
  | .modemScan =>
    some
      { c with
        modem := c.modem.scanTimeout c.daemon.world.monotonicTime c.daemon.world.userConfig }
  | .manager e => some (c.managerStep e)
  | .routeMode mode => some { c with routeMode := mode }

/-- A callback in a run. Nothing happens any more once the program has crashed. -/
def programRunStep (s : Option Controller) (e : ProgramEvent) : Option Controller :=
  s.bind fun c => c.programStep fmt js zone e

/-- The timeout of the reset. -/
def failTimeout (c : Controller) : UInt32 := c.daemon.world.userConfig.modem5gFailTimeout

end Controller

section Commands
variable {fmt : KeyFileFormat} {js : JsonLibrary} {zone : HostZone}

namespace Daemon
variable (d : Daemon)

theorem failTimeout_userConfigDataSync (stored : Bool) :
    (d.userConfigDataSync fmt stored).world.userConfig.modem5gFailTimeout =
      d.world.userConfig.modem5gFailTimeout := by
  rw [userConfigDataSync, userConfigDataSave]
  split_ifs <;> rfl

theorem failTimeout_storeSchedule (schedule : List PowerScheduleData) (stored : Bool) :
    (d.storeSchedule fmt schedule stored).world.userConfig.modem5gFailTimeout =
      d.world.userConfig.modem5gFailTimeout := by
  rw [storeSchedule]
  dsimp only
  rw [(World.requests_scheduleTimeUpdate _).sameButLink.userConfig]
  exact failTimeout_userConfigDataSync _ stored

theorem failTimeout_chargerConfig (config : UserConfigData) (root : Json) :
    (chargerConfig js.toJsonConversions config root).modem5gFailTimeout =
      config.modem5gFailTimeout := by
  rw [chargerConfig]
  cases intUnder js.toJsonConversions root "state" <;>
    cases intUnder js.toJsonConversions root "timeout" <;> rfl

theorem failTimeout_chargerOnAutoStartSet (root : Json) (stored : Bool) :
    (d.chargerOnAutoStartSet fmt js.toJsonConversions root
      stored).world.userConfig.modem5gFailTimeout = d.world.userConfig.modem5gFailTimeout := by
  rw [chargerOnAutoStartSet, failTimeout_userConfigDataSync]
  dsimp only
  rw [(World.requests_chargerOnAutoStart _ _).sameButLink.userConfig]
  exact failTimeout_chargerConfig _ root

end Daemon

namespace Controller

/-- The timeout is the same, and the modem but for its rfkill switch. -/
structure KeepsDelay (c c' : Controller) : Prop where
  failTimeout : c'.failTimeout = c.failTimeout
  modem : c'.modem = c.modem ∨ ∃ state, c'.modem = c.modem.rfkillModeSet state

theorem KeepsDelay.refl (c : Controller) : KeepsDelay c c := ⟨rfl, .inl rfl⟩

theorem keepsDelay_callback {name : String} {callback : Callback}
    (h : (name, callback) ∈ commandList fmt js zone) {c c' : Controller} {id : ℕ}
    {command : String} {m : ControlMessage} (hcallback : callback c id command m = some c') :
    KeepsDelay c c' := by
  simp only [commandList, List.mem_cons, List.not_mem_nil, or_false, Prod.mk.injEq] at h
  rcases h with ⟨-, rfl⟩ | ⟨-, rfl⟩ | ⟨-, rfl⟩ | ⟨-, rfl⟩ | ⟨-, rfl⟩ | ⟨-, rfl⟩ | ⟨-, rfl⟩ |
    ⟨-, rfl⟩ | ⟨-, rfl⟩ | ⟨-, rfl⟩ | ⟨-, rfl⟩
  · cases hcallback
    exact ⟨rfl, .inl rfl⟩
  · obtain ⟨daemon, hdaemon, rfl⟩ := Option.map_eq_some_iff.mp hcallback
    obtain ⟨schedule, -, rfl⟩ := Option.map_eq_some_iff.mp hdaemon
    exact ⟨Daemon.failTimeout_storeSchedule _ _ _, .inl rfl⟩
  · cases hcallback
    exact ⟨rfl, .inl rfl⟩
  · cases hcallback
    exact ⟨rfl, .inl rfl⟩
  · cases hcallback
    exact ⟨rfl, .inl rfl⟩
  · cases hcallback
    exact ⟨Daemon.failTimeout_chargerOnAutoStartSet _ _ _, .inl rfl⟩
  · cases hcallback
    exact ⟨rfl, .inl rfl⟩
  · cases hcallback
    exact ⟨rfl, .inl rfl⟩
  · cases hcallback
    exact ⟨rfl, .inr ⟨_, rfl⟩⟩
  · cases hcallback
    exact ⟨Daemon.failTimeout_userConfigDataSync _ _, .inl rfl⟩
  · cases hcallback
    exact ⟨rfl, .inl rfl⟩

theorem keepsDelay_handleText {c c' : Controller} {id : ℕ} {text : List UInt8}
    {action stored : Bool} (h : c.handleText fmt js zone id text action stored = some c') :
    KeepsDelay c c' := by
  by_cases hrecognised : ∃ root command, Recognised fmt js zone text root command
  · obtain ⟨root, command, hrecognised⟩ := hrecognised
    obtain ⟨callback, hlookup, hhandle⟩ := handleText_of_recognised fmt js zone hrecognised
    rw [hhandle] at h
    exact keepsDelay_callback (mem_of_lookup fmt js zone hlookup) h
  · rw [handleText_of_not_recognised fmt js zone hrecognised] at h
    cases h
    exact .refl c

theorem keepsDelay_managerStep (c : Controller) (e : Event) : KeepsDelay c (c.managerStep e) := by
  cases e with
  | configure config => exact .refl c
  | _ =>
    exact ⟨congrArg UserConfigData.modem5gFailTimeout (World.userConfig_step _ (by simp)), .inl rfl⟩

/-- What the reset timer goes by: the timeout the program started with, and the last 5G
report since the last reset. -/
structure DelayInvariant (timeout : UInt32) (c : Controller) : Prop where
  failTimeout : c.failTimeout = timeout
  counts : c.modem.CountsFromReport

theorem KeepsDelay.invariant {c c' : Controller} (hkeeps : KeepsDelay c c') {timeout : UInt32}
    (h : c.DelayInvariant timeout) : c'.DelayInvariant timeout := by
  refine ⟨hkeeps.failTimeout.trans h.failTimeout, ?_⟩
  obtain hsame | ⟨state, hset⟩ := hkeeps.modem
  · rw [hsame]
    exact h.counts
  · rw [hset]
    exact h.counts.rfkillModeSet state

theorem DelayInvariant.programStep {c c' : Controller} {timeout : UInt32}
    (h : c.DelayInvariant timeout) {e : ProgramEvent}
    (hstep : c.programStep fmt js zone e = some c') : c'.DelayInvariant timeout := by
  cases e with
  | message id text action stored => exact (keepsDelay_handleText hstep).invariant h
  | connection e =>
    cases hstep
    exact ⟨h.failTimeout, h.counts⟩
  | dialerOutput stale chunk =>
    obtain ⟨modem, hmodem, rfl⟩ := Option.map_eq_some_iff.mp hstep
    exact ⟨h.failTimeout, h.counts.lineParser hmodem⟩
  | modemScan =>
    cases hstep
    exact ⟨h.failTimeout, h.counts.scanTimeout _ _⟩
  | manager e =>
    cases hstep
    exact (keepsDelay_managerStep c e).invariant h
  | routeMode mode =>
    cases hstep
    exact ⟨h.failTimeout, h.counts⟩

end Controller
end Commands

namespace ModemManagerData
open LastMark

/-- A report of 5G. -/
def isFiveG : ModemHistory → Bool
  | .reported mode _ => mode = .fiveG
  | .autoReset => false

def reportTime : ModemHistory → Option ℤ
  | .reported _ time => some time
  | .autoReset => none

/-- The time of the last 5G report of all. -/
def latestFiveG (history : List ModemHistory) : Option ℤ :=
  lastMark isFiveG reportTime none history

theorem latestFiveG_of_lastFiveG {history : List ModemHistory} {t : ℤ}
    (h : lastFiveG history = some t) : latestFiveG history = some t := by
  induction history using List.reverseRecOn with
  | nil => cases h
  | append_singleton history item ih =>
    rw [latestFiveG, lastMark_concat]
    cases item with
    | reported mode time =>
      rw [lastFiveG_reported] at h
      by_cases hmode : mode = .fiveG
      · rw [if_pos hmode] at h
        have hmark : isFiveG (.reported mode time) = true := decide_eq_true hmode
        rw [if_pos hmark]
        exact h
      · rw [if_neg hmode] at h
        rw [if_neg (by simp [isFiveG, hmode])]
        exact ih h
    | autoReset =>
      rw [lastFiveG_autoReset] at h
      cases h

theorem CountsFromReport.latest_of_expired {mm : ModemManagerData} (h : mm.CountsFromReport)
    {now : ℤ} {config : UserConfigData} (hexpired : mm.Expired now config) :
    lastFiveG mm.history = some mm.modem5gConnectionTimestamp ∧
      latestFiveG mm.history = some mm.modem5gConnectionTimestamp := by
  obtain ⟨-, hconnected, -, -⟩ := hexpired
  rw [h.connected, Option.isSome_iff_exists] at hconnected
  obtain ⟨t, ht⟩ := hconnected
  rw [h.timestamp t ht]
  exact ⟨ht, latestFiveG_of_lastFiveG ht⟩

end ModemManagerData

/-- The least timeout the loader accepts, in microseconds. -/
def leastFailTimeout : ℤ := 60 * 1000000

namespace Controller
open ModemManagerData

/-- If this callback is the reset timer and it switches rfkill, the last 5G report is older
than the least timeout. -/
def WaitsAfterReport (s : Option Controller) : ProgramEvent → Prop
  | .modemScan => ∀ c ∈ s,
    (c.modem.scanTimeout c.daemon.world.monotonicTime
      c.daemon.world.userConfig).rfkillCommands ≠ c.modem.rfkillCommands →
    ∀ t ∈ latestFiveG c.modem.history, t + leastFailTimeout < c.daemon.world.monotonicTime
  | _ => True

/-- If this callback is the reset timer and finds the reset enabled, rfkill off and, since
the last reset, a 5G report before now, the report is older than the least timeout. -/
def NoEarlyScan (s : Option Controller) : ProgramEvent → Prop
  | .modemScan => ∀ c ∈ s, c.daemon.world.userConfig.modemDisable5gFailAutoReset = false →
    c.modem.modemRfkillState = false →
    ∀ t ∈ lastFiveG c.modem.history, t < c.daemon.world.monotonicTime →
      t + leastFailTimeout < c.daemon.world.monotonicTime
  | _ => True

theorem DelayInvariant.waits {timeout : UInt32} (htimeout : ¬timeout < 60) {s : Option Controller}
    (h : ∀ c ∈ s, c.DelayInvariant timeout) (e : ProgramEvent) : WaitsAfterReport s e := by
  cases e with
  | modemScan =>
    intro c hc hswitched t ht
    rw [rfkillCommands_ne_iff] at hswitched
    obtain ⟨-, hlatest⟩ := (h c hc).counts.latest_of_expired hswitched
    obtain ⟨-, -, -, hlate⟩ := hswitched
    have hconfigured : c.daemon.world.userConfig.modem5gFailTimeout = timeout := (h c hc).failTimeout
    rw [UInt32.lt_iff_toNat_lt] at htimeout
    cases hlatest.symm.trans ht
    rw [hconfigured] at hlate
    rw [leastFailTimeout]
    change ¬timeout.toNat < 60 at htimeout
    omega
  | _ => trivial

theorem DelayInvariant.waits_iff {s : Option Controller} (h : ∀ c ∈ s, c.DelayInvariant 0)
    (e : ProgramEvent) : WaitsAfterReport s e ↔ NoEarlyScan s e := by
  cases e with
  | modemScan =>
    refine forall₂_congr fun c hc => ?_
    have hcounts := (h c hc).counts
    have hconfigured : c.daemon.world.userConfig.modem5gFailTimeout = 0 := (h c hc).failTimeout
    rw [rfkillCommands_ne_iff]
    constructor
    · intro hwaits henabled hrfkill t ht hbefore
      refine hwaits ⟨henabled, ?_, hrfkill, ?_⟩ t (latestFiveG_of_lastFiveG ht)
      · rw [hcounts.connected, Option.mem_def.mp ht]
        rfl
      · rw [hcounts.timestamp t ht, hconfigured]
        exact (Int.add_zero t).symm ▸ hbefore
    · intro hearly hexpired t ht
      obtain ⟨hlast, hlatest⟩ := hcounts.latest_of_expired hexpired
      obtain ⟨henabled, -, hrfkill, hlate⟩ := hexpired
      cases hlatest.symm.trans ht
      rw [hconfigured] at hlate
      refine hearly henabled hrfkill _ hlast ?_
      have hzero : (0 : UInt32).toNat = 0 := rfl
      rw [hzero] at hlate
      omega
  | _ => exact Iff.rfl

end Controller

section Early
open ModemManagerData DelimitedStream

/-- A line of the dialer that reports 5G. -/
def fiveGLine : List UInt8 := utf8Bytes "CMD=SIGNALINFO,MODE=NR5G-SA"

def fiveGOutput : SerialReadParser.Read :=
  ⟨fiveGLine ++ [10], by decide +kernel, by decide +kernel⟩

/-- A manager that has just read this line. -/
def fiveGReported (now : ℤ) : ModemManagerData where
  modemMode := .fiveG
  modemHave5gConnected := true
  modem5gConnectionTimestamp := now
  history := [.reported .fiveG now]

theorem parseLine_fiveGLine (now : ℤ) :
    parseLine now ({}, false) fiveGLine = some (fiveGReported now, true) := by
  have hcmd : fieldValue (lineFields fiveGLine) "CMD" = some (utf8Bytes "SIGNALINFO") := by
    decide +kernel
  have hmode : fieldValue (lineFields fiveGLine) "MODE" = some (utf8Bytes "NR5G-SA") := by
    decide +kernel
  have hfiveG : modemModeTable.lookup (utf8Bytes "NR5G-SA") = some .fiveG := by decide +kernel
  have hsignal : signalValue (lineFields fiveGLine) = 0 := by decide +kernel
  rw [parseLine]
  dsimp only
  rw [if_pos hcmd, signalInfo, hmode, Option.map_some, hfiveG, hsignal]
  rfl

theorem lineParser_fiveGOutput (now : ℤ) :
    ({} : ModemManagerData).lineParser now none fiveGOutput.bytes = some (fiveGReported now) := by
  have hlines : segments 10 fiveGOutput.bytes = [fiveGLine] := by decide +kernel
  have htail : tail 10 fiveGOutput.bytes = [] := by decide +kernel
  have hbuffer : ({} : ModemManagerData).externalControlExecStdoutBuffer ++ fiveGOutput.bytes =
      fiveGOutput.bytes := rfl
  have hlength : fiveGOutput.bytes.length ≤ 1048576 := by decide +kernel
  have hzero : 0 ∉ fiveGOutput.bytes := by decide +kernel
  rw [← hbuffer] at hlength hzero
  rw [lineParser_spec {} now none hlength hzero, hbuffer, hlines, htail, handedLines_none,
    List.foldlM_cons, parseLine_fiveGLine]
  rfl

end Early

namespace Controller
open ModemManagerData
variable (fmt : KeyFileFormat) (js : JsonLibrary) (zone : HostZone)

/-- A 5G report, and the reset timer in the next microsecond. -/
def earlyScan : List ProgramEvent := [.dialerOutput none fiveGOutput, .manager (.elapse 1), .modemScan]

theorem not_waits_earlyScan (w : World) :
    ¬Along (programRunStep fmt js zone) WaitsAfterReport (some (programStart fmt w none))
      earlyScan := by
  rintro ⟨-, -, hwaits, -⟩
  have houtput : programRunStep fmt js zone (some (programStart fmt w none))
      (.dialerOutput none fiveGOutput) =
      some { programStart fmt w none with modem := fiveGReported w.monotonicTime } :=
    congrArg
      (Option.map fun modem => ({ programStart fmt w none with modem := modem } : Controller))
      (lineParser_fiveGOutput w.monotonicTime)
  rw [houtput] at hwaits
  have hlate : w.monotonicTime + (0 : UInt32).toNat * 1000000 < w.monotonicTime + (1 : ℕ) := by
    have hzero : (0 : UInt32).toNat = 0 := rfl
    rw [hzero]
    omega
  have hswitched := (rfkillCommands_ne_iff (fiveGReported w.monotonicTime)
    (w.monotonicTime + (1 : ℕ)) {}).mpr ⟨rfl, rfl, rfl, hlate⟩
  have hwaited : w.monotonicTime + leastFailTimeout < w.monotonicTime + (1 : ℕ) :=
    hwaits _ rfl hswitched w.monotonicTime rfl
  rw [leastFailTimeout] at hwaited
  omega

theorem delayInvariant_programStart (w : World) (file : Option KeyFile) :
    (programStart fmt w file).DelayInvariant (programStart fmt w file).failTimeout :=
  ⟨rfl, countsFromReport_initial⟩

theorem delayInvariant_programRunStep {timeout : UInt32} {s : Option Controller}
    (h : ∀ c ∈ s, c.DelayInvariant timeout) (e : ProgramEvent) :
    ∀ c ∈ programRunStep fmt js zone s e, c.DelayInvariant timeout := by
  intro c' hc'
  obtain ⟨c, hc, hstep⟩ := Option.bind_eq_some_iff.mp hc'
  exact (h c hc).programStep hstep

/-- In every run of a program that could load its configuration the reset timer waits for the
least timeout. In a run of one that could not it does so exactly when it does not run early,
and there is a run in which it does not. -/
theorem waits_after_report_iff (w : World) (file : Option KeyFile) :
    (∀ events, Along (programRunStep fmt js zone) WaitsAfterReport
        (some (programStart fmt w file)) events ↔
      file.isSome ∨ Along (programRunStep fmt js zone) NoEarlyScan
        (some (programStart fmt w file)) events) ∧
    ((∀ events, Along (programRunStep fmt js zone) WaitsAfterReport
        (some (programStart fmt w file)) events) ↔ file.isSome) := by
  have hstart : ∀ c ∈ some (programStart fmt w file),
      c.DelayInvariant (programStart fmt w file).failTimeout := by
    intro c hc
    obtain rfl := Option.some.inj hc
    exact delayInvariant_programStart fmt w file
  cases file with
  | none =>
    have hiff (events : List ProgramEvent) := along_congr
      (I := fun s : Option Controller => ∀ c ∈ s, c.DelayInvariant 0)
      (fun s e h => delayInvariant_programRunStep fmt js zone h e)
      (fun s e h => DelayInvariant.waits_iff h e) hstart events
    refine ⟨fun events => (hiff events).trans (by simp), iff_of_false (fun h => ?_) (by simp)⟩
    exact not_waits_earlyScan fmt js zone w (h earlyScan)
  | some kf =>
    have hwaits (events : List ProgramEvent) :
        Along (programRunStep fmt js zone) WaitsAfterReport (some (programStart fmt w (some kf)))
          events := by
      have htimeout := (@normal_userConfigDataLoad fmt kf).failTimeout
      have hiff := along_congr
        (I := fun s : Option Controller =>
          ∀ c ∈ s, c.DelayInvariant (userConfigDataLoad fmt kf).modem5gFailTimeout)
        (fun s e h => delayInvariant_programRunStep fmt js zone h e)
        (fun s e h => iff_of_true (DelayInvariant.waits htimeout h e) trivial) hstart events
      exact hiff.mpr (along_true _ events)
    exact ⟨fun events => iff_of_true (hwaits events) (.inl rfl), iff_of_true hwaits rfl⟩

/-- A unit without a configuration file is reset one microsecond after a 5G report. -/
theorem reset_after_report :
    ¬Along (programRunStep .decimal
        ⟨.plain, fun _ => none, fun _ => .empty, fun _ => ""⟩
        ⟨.fixedOffset ⟨0, by decide⟩, fun t => some t⟩)
      WaitsAfterReport (some (programStart .decimal World.plain none)) earlyScan :=
  not_waits_earlyScan _ _ _ World.plain

end Controller
end PcatManager
