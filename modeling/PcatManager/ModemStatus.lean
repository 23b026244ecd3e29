import PcatManager.ControlServer
import PcatManager.DialerLines
import PcatManager.ModemReset
import PcatManager.RunTrace

/-!
# What the dialer has told

The state of the modem is put together from lines of three kinds, of which each overwrites
what it reports. After any run a client is shown of each part what the last line tells that
reports it, however the output of the dialer was cut into reads. The radio switch is set by two
threads: by the commands, and by the work thread, which clears it when it begins to power the
modem up.
-/

namespace PcatManager
open DelimitedStream SerialReadParser GuardedRun RunTrace

/-- What the dialer reports about the modem. -/
structure ModemStatus where
  mode : ModemMode := .none
  signalStrength : Int32 := 0
  simState : Int32 := 0
  ispName : Option (List UInt8) := none
  ispPlmn : Option (List UInt8) := none

/-- The fields of a line of the kind, no fields of another line. -/
def fieldsOf (kind : String) (line : List UInt8) : List (List UInt8 × List UInt8) :=
  if fieldValue (lineFields line) "CMD" = some (utf8Bytes kind) then lineFields line else []

/-- The mode of a `SIGNALINFO` line; one that is not in the table counts as none. -/
def reportedMode? (line : List UInt8) : Option ModemMode :=
  (fieldValue (fieldsOf "SIGNALINFO" line) "MODE").map fun smode =>
    (modemModeTable.lookup smode).getD .none

def reportedSignal? (line : List UInt8) : Option Int32 :=
  (reportedMode? line).map fun _ => signalValue (lineFields line)

def reportedSimState? (line : List UInt8) : Option Int32 :=
  (fieldValue (fieldsOf "SIMSTATUS" line) "STATE").bind scanInt

/-- The name of the operator, or with `"RPLMN"` its number. -/
def reportedIsp? (key : String) (line : List UInt8) : Option (List UInt8) :=
  fieldValue (fieldsOf "ISPINFO" line) key

/-- A line overwrites what it reports. -/
def ModemStatus.told (status : ModemStatus) (line : List UInt8) : ModemStatus where
  mode := (reportedMode? line).getD status.mode
  signalStrength := (reportedSignal? line).getD status.signalStrength
  simState := (reportedSimState? line).getD status.simState
  ispName := (reportedIsp? "FNN" line).or status.ispName
  ispPlmn := (reportedIsp? "RPLMN" line).or status.ispPlmn

/-- After some lines each part is what the last line tells that reports it. -/
theorem ModemStatus.run_told (status : ModemStatus) (lines : List (List UInt8)) :
    run told status lines =
      { mode := (lines.filterMap reportedMode?).getLast?.getD status.mode
        signalStrength := (lines.filterMap reportedSignal?).getLast?.getD status.signalStrength
        simState := (lines.filterMap reportedSimState?).getLast?.getD status.simState
        ispName := (lines.filterMap (reportedIsp? "FNN")).getLast?.or status.ispName
        ispPlmn := (lines.filterMap (reportedIsp? "RPLMN")).getLast?.or status.ispPlmn } := by
  have hmode := run_overwritten told mode reportedMode? (fun _ _ => rfl) status lines
  have hsignal := run_overwritten told signalStrength reportedSignal? (fun _ _ => rfl) status lines
  have hsim := run_overwritten told simState reportedSimState? (fun _ _ => rfl) status lines
  have hisp (key : String) (part : ModemStatus → Option (List UInt8))
      (htold : ∀ status line, part (told status line) = (reportedIsp? key line).or (part status)) :
      part (run told status lines) =
        (lines.filterMap (reportedIsp? key)).getLast?.or (part status) := by
    have hpart := run_overwritten told part (fun line => (reportedIsp? key line).map some)
      (fun status line => by rw [htold]; cases reportedIsp? key line <;> rfl) status lines
    rw [hpart, ← List.map_filterMap, List.getLast?_map]
    cases (lines.filterMap (reportedIsp? key)).getLast? <;> rfl
  rw [← hmode, ← hsignal, ← hsim, ← hisp "FNN" ispName fun _ _ => rfl,
    ← hisp "RPLMN" ispPlmn fun _ _ => rfl]

namespace ModemManagerData
variable {mm mm' : ModemManagerData}

def status (mm : ModemManagerData) : ModemStatus :=
  ⟨mm.modemMode, mm.modemSignalStrength, mm.simState, mm.ispName, mm.ispPlmn⟩

theorem status_modeReported (mm : ModemManagerData) (downgradeFrom5g : Bool) (modemMode : ModemMode)
    (now : ℤ) : (mm.modeReported downgradeFrom5g modemMode now).1.status =
      { mm.status with mode := modemMode } := by
  rw [modeReported]
  dsimp only
  split_ifs <;> rfl

theorem status_parseLine {now : ℤ} {s s' : ModemManagerData × Bool} {line : List UInt8}
    (h : parseLine now s line = some s') : s'.1.status = s.1.status.told line := by
  have hother (kind : String) (hkind : fieldValue (lineFields line) "CMD" ≠ some (utf8Bytes kind)) :
      fieldsOf kind line = [] := if_neg hkind
  have hown (kind : String) (hkind : fieldValue (lineFields line) "CMD" = some (utf8Bytes kind)) :
      fieldsOf kind line = lineFields line := if_pos hkind
  rw [parseLine] at h
  rw [ModemStatus.told, reportedSignal?, reportedMode?, reportedSimState?,
    reportedIsp?, reportedIsp?]
  split at h
  · rename_i hcmd
    rw [hown "SIGNALINFO" hcmd, hother "SIMSTATUS" (by rw [hcmd]; decide +kernel),
      hother "ISPINFO" (by rw [hcmd]; decide +kernel)]
    obtain ⟨smode, hsmode, rfl⟩ := Option.map_eq_some_iff.mp h
    rw [hsmode]
    have hmode := status_modeReported s.1 s.2 ((modemModeTable.lookup smode).getD .none) now
    exact congrArg
      (fun st : ModemStatus => { st with signalStrength := signalValue (lineFields line) }) hmode
  · rename_i hsignal
    rw [hother "SIGNALINFO" hsignal]
    split at h
    · rename_i hcmd
      rw [hown "SIMSTATUS" hcmd, hother "ISPINFO" (by rw [hcmd]; decide +kernel)]
      cases h
      rw [simStatus]
      cases (fieldValue (lineFields line) "STATE").bind scanInt <;> rfl
    · rename_i hsim
      rw [hother "SIMSTATUS" hsim]
      split at h
      · rename_i hcmd
        rw [hown "ISPINFO" hcmd]
        cases h
        rfl
      · rename_i hisp
        rw [hother "ISPINFO" hisp]
        cases h
        rfl

/-- One read on a buffer within the limit tells the lines it hands on. -/
theorem status_lineParser {now : ℤ} {stale : Option (List UInt8)} {chunk : List UInt8}
    (hlength : (mm.externalControlExecStdoutBuffer ++ chunk).length ≤ 1048576)
    (hzero : 0 ∉ mm.externalControlExecStdoutBuffer ++ chunk)
    (h : mm.lineParser now stale chunk = some mm') :
    mm'.status = run ModemStatus.told mm.status
        (handedLines stale (segments 10 (mm.externalControlExecStdoutBuffer ++ chunk))) ∧
      mm'.externalControlExecStdoutBuffer =
        tail 10 (mm.externalControlExecStdoutBuffer ++ chunk) := by
  rw [lineParser_spec mm now stale hlength hzero] at h
  obtain ⟨s, hlines, rfl⟩ := Option.map_eq_some_iff.mp h
  exact ⟨foldlM_part (fun s : ModemManagerData × Bool => s.1.status) ModemStatus.told
    status_parseLine hlines, rfl⟩

/-- The read of the dialer's output, if the event is one. -/
def SharedEvent.read? : SharedEvent → Option DialerRead
  | .callback (.stdout now stale chunk) => some ⟨now, stale, chunk⟩
  | _ => none

/-- What the radio switch is set to by a command or by the thread. -/
def SharedEvent.rfkill? : SharedEvent → Option Bool
  | .callback (.rfkillModeSet state) => some state
  | .powerInit => some false
  | _ => none

theorem status_unread {e : SharedEvent} (hread : e.read? = none) (h : mm.sharedStep e = some mm') :
    mm'.status = mm.status ∧
      mm'.externalControlExecStdoutBuffer = mm.externalControlExecStdoutBuffer := by
  cases e with
  | powerInit =>
    cases h
    exact ⟨rfl, rfl⟩
  | callback e =>
    cases e with
    | stdout now stale chunk => cases hread
    | rfkillModeSet state =>
      cases h
      rw [rfkillModeSet]
      split <;> exact ⟨rfl, rfl⟩
    | scanTimeout now config =>
      cases h
      by_cases hexpired : mm.Expired now config
      · rw [scanTimeout_of_expired hexpired]
        exact ⟨rfl, rfl⟩
      · rw [scanTimeout_of_not_expired hexpired]
        exact ⟨rfl, rfl⟩

theorem status_run {events : List SharedEvent} (h : events.foldlM sharedStep mm = some mm')
    (hnewline : 10 ∉ mm.externalControlExecStdoutBuffer)
    (hzero : 0 ∉ mm.externalControlExecStdoutBuffer ++ dialerStream (events.filterMap SharedEvent.read?))
    (hlimit : WithinLimit 10 1044480 mm.externalControlExecStdoutBuffer
      ((events.filterMap SharedEvent.read?).map fun r => r.chunk.bytes)) :
    mm'.status = run ModemStatus.told mm.status
      (handedOver mm.externalControlExecStdoutBuffer (events.filterMap SharedEvent.read?)) := by
  induction events generalizing mm with
  | nil =>
    cases h
    rfl
  | cons e events ih =>
    rw [List.foldlM_cons] at h
    obtain ⟨mm₁, hstep, hrest⟩ := Option.bind_eq_some_iff.mp h
    cases hread : e.read? with
    | none =>
      rw [List.filterMap_cons_none hread] at hzero hlimit ⊢
      obtain ⟨hstatus, hbuffer⟩ := status_unread hread hstep
      rw [← hbuffer] at hnewline hzero hlimit
      rw [← hstatus, ← hbuffer]
      exact ih hrest hnewline hzero hlimit
    | some r =>
      rw [List.filterMap_cons_some hread] at hzero hlimit ⊢
      rw [dialerStream_cons, ← List.append_assoc] at hzero
      have hlength : (mm.externalControlExecStdoutBuffer ++ r.chunk.bytes).length ≤ 1048576 := by
        have hpending := hlimit.left_le hnewline
        have hchunk := r.chunk.length_le
        rw [List.length_append]
        omega
      have hparser : mm.lineParser r.now r.stale r.chunk.bytes = some mm₁ := by
        cases e with
        | powerInit => cases hread
        | callback e =>
          cases e with
          | stdout now stale chunk =>
            cases hread
            exact hstep
          | _ => cases hread
      obtain ⟨hstatus, hbuffer⟩ :=
        status_lineParser hlength (fun hmem => hzero (List.mem_append_left _ hmem)) hparser
      rw [handedOver, run_append, ← hstatus, ← hbuffer]
      apply ih hrest
      · rw [hbuffer]
        exact notMem_tail _
      · rw [hbuffer]
        intro hmem
        apply hzero
        rcases List.mem_append.mp hmem with hmem | hmem
        · exact List.mem_append_left _ ((tail_isSuffix _).subset hmem)
        · exact List.mem_append_right _ hmem
      · rw [hbuffer]
        exact hlimit.step

/-- What a line leaves alone. -/
def switches (mm : ModemManagerData) : Bool × Bool := (mm.initialized, mm.modemRfkillState)

theorem switches_parseLine {now : ℤ} {s s' : ModemManagerData × Bool} {line : List UInt8}
    (h : parseLine now s line = some s') : s'.1.switches = s.1.switches := by
  rw [parseLine] at h
  split at h
  · obtain ⟨smode, -, rfl⟩ := Option.map_eq_some_iff.mp h
    dsimp only
    rw [modeReported]
    dsimp only
    split_ifs <;> rfl
  · split at h
    · cases h
      rw [simStatus]
      split <;> rfl
    · split at h
      · cases h
        rfl
      · cases h
        rfl

theorem switches_sharedStep {e : SharedEvent} (h : mm.sharedStep e = some mm') :
    mm'.switches = (mm.initialized, e.rfkill?.getD mm.modemRfkillState) := by
  cases e with
  | powerInit =>
    cases h
    rfl
  | callback e =>
    cases e with
    | stdout now stale chunk =>
      obtain ⟨r, hloop, rfl⟩ := Option.map_eq_some_iff.mp h
      apply lineParserLoop_invariant (I := fun s => s.1.switches = mm.switches) _ rfl hloop
      intro s line s' hs hline
      exact (switches_parseLine hline).trans hs
    | rfkillModeSet state =>
      cases h
      rw [rfkillModeSet]
      split_ifs with hsame
      · rw [switches, hsame]
        rfl
      · rfl
    | scanTimeout now config =>
      cases h
      by_cases hexpired : mm.Expired now config
      · rw [scanTimeout_of_expired hexpired]
        rfl
      · rw [scanTimeout_of_not_expired hexpired]
        rfl

theorem switches_run {events : List SharedEvent} (h : events.foldlM sharedStep mm = some mm') :
    mm'.initialized = mm.initialized ∧
      mm'.modemRfkillState =
        (events.filterMap SharedEvent.rfkill?).getLast?.getD mm.modemRfkillState := by
  constructor
  · rw [foldlM_part initialized (fun initialized _ => initialized)
      (fun hstep => congrArg Prod.fst (switches_sharedStep hstep)) h]
    apply run_invariant (I := fun initialized => initialized = mm.initialized)
    · exact fun _ _ hs => hs
    · rfl
  · rw [foldlM_part modemRfkillState (fun state (e : SharedEvent) => e.rfkill?.getD state)
      (fun hstep => congrArg Prod.snd (switches_sharedStep hstep)) h]
    exact run_getD SharedEvent.rfkill? _ events

end ModemManagerData

/-- In every run in which the parser finds the lines it completes, a client that asks is
shown what the last lines of the dialer's output report, and the radio switch as the last
command or power-up has set it. -/
theorem modemStatus_run (events : List ModemManagerData.SharedEvent) {mm : ModemManagerData}
    (hrun : events.foldlM ModemManagerData.sharedStep { initialized := true } = some mm)
    (hzero : 0 ∉ dialerStream (events.filterMap (·.read?)))
    (hlimit : ∀ line ∈ (dialerStream (events.filterMap (·.read?))).splitOn 10,
      line.length ≤ 1044480)
    (hintact : FirstLinesIntact [] (events.filterMap (·.read?))) (js : JsonLibrary)
    (c : Controller) (id : ℕ) (command : String) :
    let lines := segments 10 (dialerStream (events.filterMap (·.read?)))
    let last {α : Type} (reported : List UInt8 → Option α) := (lines.filterMap reported).getLast?
    let text (bytes : Option (List UInt8)) : Json := .string ((bytes.map js.text).getD "")
    let asked : Controller := { c with modem := mm }
    asked.modemStatusGetFunc js id command = asked.outputJsonPush js id (.object
      [("command", .string command), ("code", .int 0),
        ("mode", .string ((last reportedMode?).getD .none).text),
        ("rfkill-state", jsonFlag ((events.filterMap (·.rfkill?)).getLast?.getD false)),
        ("sim-state", .string (simStateText ((last reportedSimState?).getD 0))),
        ("isp-name", text (last (reportedIsp? "FNN"))),
        ("isp-lpmn", text (last (reportedIsp? "RPLMN"))),
        ("signal-strength", .int ((last reportedSignal?).getD 0).toInt)]) := by
  intro lines last text asked
  have hstream : dialerStream (events.filterMap (·.read?)) =
      ((events.filterMap (·.read?)).map fun r => r.chunk.bytes).flatten := by
    rw [dialerStream, streamOf, List.map_map]
    rfl
  rw [hstream] at hlimit
  have hstatus := ModemManagerData.status_run hrun List.not_mem_nil hzero
    (withinLimit_of_segments hlimit)
  rw [(handedOver_eq_iff List.not_mem_nil _).mpr hintact, ModemStatus.run_told] at hstatus
  obtain ⟨hinitialized, hrfkill⟩ :
      asked.modem.initialized = true ∧ asked.modem.modemRfkillState =
        (events.filterMap (·.rfkill?)).getLast?.getD false := ModemManagerData.switches_run hrun
  have hmode : asked.modem.modemMode = (last reportedMode?).getD .none :=
    congrArg ModemStatus.mode hstatus
  have hsignal : asked.modem.modemSignalStrength = (last reportedSignal?).getD 0 :=
    congrArg ModemStatus.signalStrength hstatus
  have hsim : asked.modem.simState = (last reportedSimState?).getD 0 :=
    congrArg ModemStatus.simState hstatus
  have hname : asked.modem.ispName = last (reportedIsp? "FNN") :=
    (congrArg ModemStatus.ispName hstatus).trans Option.or_none
  have hplmn : asked.modem.ispPlmn = last (reportedIsp? "RPLMN") :=
    (congrArg ModemStatus.ispPlmn hstatus).trans Option.or_none
  simp only [Controller.modemStatusGetFunc, hinitialized, if_true]
  rw [hmode, hrfkill, hsim, hname, hplmn, hsignal]
  cases last (reportedIsp? "FNN") <;> cases last (reportedIsp? "RPLMN") <;> rfl

/-- Rfkill is set before the power-up, then a report comes in two reads. -/
def lteRun : List ModemManagerData.SharedEvent :=
  [.callback (.rfkillModeSet true), .powerInit,
    .callback (.stdout 0 none ⟨utf8Bytes "CMD=SIGNALINFO,MO", by decide +kernel, by decide +kernel⟩),
    .callback (.scanTimeout 1 {}),
    .callback (.stdout 2 (some (utf8Bytes "CMD=SIGNALINFO,MODE=LTE,RSSI=-60"))
      ⟨utf8Bytes "DE=LTE,RSSI=-60\nCMD=SIM", by decide +kernel, by decide +kernel⟩)]

theorem modemStatus_run_lte : ∃ mm,
    lteRun.foldlM ModemManagerData.sharedStep { initialized := true } = some mm ∧
    let asked : Controller := ⟨⟨.plain, .empty, []⟩, mm, .none, ConnectionTable.opened⟩
    asked.modemStatusGetFunc ControlServer.routeModeLibrary 0 "modem-status-get" =
      asked.outputJsonPush ControlServer.routeModeLibrary 0 (.object
        [("command", .string "modem-status-get"), ("code", .int 0), ("mode", .string "lte"),
          ("rfkill-state", .int 0), ("sim-state", .string "absent"), ("isp-name", .string ""),
          ("isp-lpmn", .string ""), ("signal-strength", .int 100)]) := by
  have hsome : (lteRun.foldlM ModemManagerData.sharedStep { initialized := true }).isSome = true := by
    decide +kernel
  obtain ⟨mm, hrun⟩ := Option.isSome_iff_exists.mp hsome
  refine ⟨mm, hrun, ?_⟩
  have hintact : FirstLinesIntact [] (lteRun.filterMap (·.read?)) :=
    (handedOver_eq_iff List.not_mem_nil _).mp (by decide +kernel)
  have hreply := modemStatus_run lteRun hrun (by decide +kernel) (by decide +kernel) hintact
    ControlServer.routeModeLibrary ⟨⟨.plain, .empty, []⟩, mm, .none, ConnectionTable.opened⟩ 0
    "modem-status-get"
  let lines := segments 10 (dialerStream (lteRun.filterMap (·.read?)))
  have hmode : (lines.filterMap reportedMode?).getLast? = some .lte := by decide +kernel
  have hsignal : (lines.filterMap reportedSignal?).getLast? = some 100 := by decide +kernel
  have hsim : (lines.filterMap reportedSimState?).getLast? = none := by decide +kernel
  have hname : (lines.filterMap (reportedIsp? "FNN")).getLast? = none := by decide +kernel
  have hplmn : (lines.filterMap (reportedIsp? "RPLMN")).getLast? = none := by decide +kernel
  dsimp only at hreply
  rw [hmode, hsignal, hsim, hname, hplmn] at hreply
  exact hreply

end PcatManager
