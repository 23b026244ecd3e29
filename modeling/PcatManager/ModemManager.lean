import PcatManager.GuardedRun
import PcatManager.ManagerConfig
import PcatManager.SerialReadParser
import Mathlib.Algebra.Group.Int.Defs

/-!
# The modem manager

The part of `modem-manager.c` that runs in the main loop: the parser of what the dialer
prints, the rfkill switch and the reset timer. The clock is read once in a callback.
-/

namespace PcatManager
open SerialReadParser

/-- `PCatModemManagerMode`. -/
inductive ModemMode where
  | none | twoG | threeG | lte | fiveG
  deriving DecidableEq, Repr

/-- The value of a mode in its enumeration. -/
def ModemMode.value : ModemMode → ℕ
  | .none => 0
  | .twoG => 1
  | .threeG => 2
  | .lte => 3
  | .fiveG => 4

/-- What has happened to the modem: it reported a mode, or the timer reset it. -/
inductive ModemHistory where
  | reported (mode : ModemMode) (time : ℤ)
  | autoReset
  deriving DecidableEq, Repr

/-- The fields of `PCatModemManagerData` that the main loop uses; of the dialer's strings
the bytes are kept. The last two are the rfkill processes started so far (`true`: block)
and what has happened to the modem; the program does not have them. -/
structure ModemManagerData where
  initialized : Bool := false
  modemMode : ModemMode := .none
  modemRfkillState : Bool := false
  modemSignalStrength : Int32 := 0
  simState : Int32 := 0
  ispName : Option (List UInt8) := none
  ispPlmn : Option (List UInt8) := none
  externalControlExecStdoutBuffer : List UInt8 := []
  modemHave5gConnected : Bool := false
  modem5gConnectionTimestamp : ℤ := 0
  rfkillCommands : List Bool := []
  history : List ModemHistory := []
  deriving DecidableEq, Repr

/-- The bytes of a string constant. -/
def utf8Bytes (s : String) : List UInt8 := s.toUTF8.toList

/-- `modem_mode_table` as `pcat_modem_manager_init` fills it. -/
def modemModeTable : List (List UInt8 × ModemMode) :=
  [(utf8Bytes "NR5G-SA", .fiveG), (utf8Bytes "NR5G-NSA", .fiveG), (utf8Bytes "LTE", .lte),
    (utf8Bytes "WCDMA", .threeG), (utf8Bytes "TDSCDMA", .threeG), (utf8Bytes "GSM", .twoG),
    (utf8Bytes "HDR", .twoG), (utf8Bytes "CDMA", .twoG)]

/-- The fields of a line: of what stands between commas, the part before the first equals
sign and the part after it. -/
def lineFields (line : List UInt8) : List (List UInt8 × List UInt8) :=
  (line.splitOn 44).filterMap fun field =>
    match field.dropWhile (· ≠ 61) with
    | [] => none
    | _ :: value => some (field.takeWhile (· ≠ 61), value)

/-- The value of a field. A later field of the same name replaces an earlier one. -/
def fieldValue (fields : List (List UInt8 × List UInt8)) (key : String) : Option (List UInt8) :=
  fields.reverse.lookup (utf8Bytes key)

/-- `isspace`. -/
def isSpace (b : UInt8) : Bool := b = 32 || (9 ≤ b && b ≤ 13)

/-- `isdigit`. -/
def isDigit (b : UInt8) : Bool := 48 ≤ b && b ≤ 57

/-- `sscanf` with `%d`: a `long` that stops at the ends of its range, cut to an `int`. -/
def scanInt (text : List UInt8) : Option Int32 :=
  let text := text.dropWhile isSpace
  let (negative, text) :=
    match text with
    | 45 :: rest => (true, rest)
    | 43 :: rest => (false, rest)
    | _ => (false, text)
  let digits := text.takeWhile isDigit
  if digits.isEmpty then none
  else
    let n : ℕ := digits.foldl (fun n b => n * 10 + (b.toNat - 48)) 0
    some (Int32.ofInt (if negative then max (-2 ^ 63) (-n) else min (2 ^ 63 - 1) n))

/-- One of the readings the signal strength is taken from: all from `full` on, nothing
below `empty`. -/
def signalReading (fields : List (List UInt8 × List UInt8)) (key : String)
    (full empty : Int32) (scale : Int32 → Int32) : Option Int32 :=
  ((fieldValue fields key).bind scanInt).map fun signalRaw =>
    if full ≤ signalRaw then 100 else if empty ≤ signalRaw then scale signalRaw else 0

/-- The signal strength of a line: the first reading there is. -/
def signalValue (fields : List (List UInt8 × List UInt8)) : Int32 :=
  (signalReading fields "RSSI" (-65) (-85) (fun raw => (raw + 85) * 5) <|>
    signalReading fields "RSRQ" (-10) (-20) (fun raw => (raw + 20) * 10) <|>
    signalReading fields "RSRP" (-80) (-100) (fun raw => (raw + 100) * 5) <|>
    signalReading fields "RSCP" (-60) (-100) (fun raw => (raw + 100) * 5 / 2)).getD 0

namespace ModemManagerData

/-- The modem has reported a mode: the new mode, and what is remembered of its 5G
connection. The second part is the local `downgrade_from_5g`. -/
def modeReported (mm : ModemManagerData) (downgradeFrom5g : Bool) (modemMode : ModemMode)
    (now : ℤ) : ModemManagerData × Bool :=
  let downgradeFrom5g :=
    downgradeFrom5g ||
      (decide (modemMode = .fiveG) && decide (mm.modemMode.value < ModemMode.fiveG.value))
  let mm :=
    { mm with modemMode := modemMode, history := mm.history ++ [.reported modemMode now] }
  if mm.modemMode = .fiveG then
    ({ mm with modemHave5gConnected := true, modem5gConnectionTimestamp := now },
      downgradeFrom5g)
  else if mm.modemHave5gConnected && downgradeFrom5g then
    ({ mm with modem5gConnectionTimestamp := now }, downgradeFrom5g)
  else (mm, downgradeFrom5g)

/-- A `SIGNALINFO` line. Without a `MODE` field the lookup of the mode dereferences a null
pointer; a mode that is not in the table counts as none. -/
def signalInfo (mm : ModemManagerData) (downgradeFrom5g : Bool)
    (fields : List (List UInt8 × List UInt8)) (now : ℤ) : Option (ModemManagerData × Bool) :=
  (fieldValue fields "MODE").map fun smode =>
    let (mm, downgradeFrom5g) :=
      mm.modeReported downgradeFrom5g ((modemModeTable.lookup smode).getD .none) now
    ({ mm with modemSignalStrength := signalValue fields }, downgradeFrom5g)

/-- A `SIMSTATUS` line. -/
def simStatus (mm : ModemManagerData) (fields : List (List UInt8 × List UInt8)) :
    ModemManagerData :=
  match (fieldValue fields "STATE").bind scanInt with
  | some simState => { mm with simState := simState }
  | none => mm

/-- An `ISPINFO` line. -/
def ispInfo (mm : ModemManagerData) (fields : List (List UInt8 × List UInt8)) :
    ModemManagerData :=
  { mm with
    ispName := (fieldValue fields "FNN").or mm.ispName
    ispPlmn := (fieldValue fields "RPLMN").or mm.ispPlmn }

/-- One line of the dialer's output. -/
def parseLine (now : ℤ) (s : ModemManagerData × Bool) (line : List UInt8) :
    Option (ModemManagerData × Bool) :=
  let fields := lineFields line
  let cmd := fieldValue fields "CMD"
  if cmd = some (utf8Bytes "SIGNALINFO") then s.1.signalInfo s.2 fields now
  else if cmd = some (utf8Bytes "SIMSTATUS") then some (s.1.simStatus fields, s.2)
  else if cmd = some (utf8Bytes "ISPINFO") then some (s.1.ispInfo fields, s.2)
  else some s

end ModemManagerData

/-- The `for` loop of `pcat_modem_manager_external_control_exec_line_parser` from index `i`
on, where `rest` is what the buffer holds from there. A line is a C string, so it ends at
its first NUL. `start` is set before the new output is appended, and until the first
newline it points to where the text was then: when the append has moved the text, `stale`
is what is read there. -/
def lineParserLoop {σ : Type*} (parse : σ → List UInt8 → Option σ) (str : List UInt8) :
    (rest : List UInt8) → (i usedSize start : ℕ) → (stale : Option (List UInt8)) → σ →
      Option (ℕ × σ)
  | [], _, usedSize, _, _, s => some (usedSize, s)
  | b :: rest, i, usedSize, start, stale, s =>
    if b = 10 then
      let line := (stale.getD ((str.drop start).take (i - start))).takeWhile (· ≠ 0)
      (parse s line).bind fun s =>
        lineParserLoop parse str rest (i + 1) (i + 1) (i + 1) none s
    else lineParserLoop parse str rest (i + 1) usedSize start stale s

namespace ModemManagerData

/-- `pcat_modem_manager_external_control_exec_line_parser`. There is no manager left when a
line makes it dereference a null pointer. -/
def lineParser (mm : ModemManagerData) (now : ℤ) (stale : Option (List UInt8))
    (chunk : List UInt8) : Option ModemManagerData :=
  let str := mm.externalControlExecStdoutBuffer ++ chunk
  let str := if 1048576 < str.length then [] else str
  (lineParserLoop (parseLine now) str str 0 0 0 stale (mm, false)).map fun r =>
    { r.2.1 with
      externalControlExecStdoutBuffer := if 0 < r.1 then str.drop r.1 else str }

/-- `pcat_modem_manager_device_rfkill_mode_set`. -/
def rfkillModeSet (mm : ModemManagerData) (state : Bool) : ModemManagerData :=
  if mm.modemRfkillState = state then mm
  else
    { mm with modemRfkillState := state, rfkillCommands := mm.rfkillCommands ++ [state] }

/-- `pcat_modem_scan_timeout_func`. -/
def scanTimeout (mm : ModemManagerData) (now : ℤ) (config : UserConfigData) :
    ModemManagerData :=
  if !config.modemDisable5gFailAutoReset then
    if mm.modemHave5gConnected && !mm.modemRfkillState then
      if mm.modem5gConnectionTimestamp + config.modem5gFailTimeout.toNat * 1000000 < now then
        let mm := (mm.rfkillModeSet true).rfkillModeSet false
        { mm with modemHave5gConnected := false, history := mm.history ++ [.autoReset] }
      else mm
    else mm
  else mm

/-- The callbacks of the main loop that change the modem manager. -/
inductive Event where
  | stdout (now : ℤ) (stale : Option (List UInt8)) (chunk : Read)
  | rfkillModeSet (state : Bool)
  | scanTimeout (now : ℤ) (config : UserConfigData)

/-- One callback. -/
def step (mm : ModemManagerData) : Event → Option ModemManagerData
  | .stdout now stale chunk => mm.lineParser now stale chunk.bytes
  | .rfkillModeSet state => some (mm.rfkillModeSet state)
  | .scanTimeout now config => some (mm.scanTimeout now config)

/-- What changes the modem manager: a callback of the main loop, or the work thread where it
begins `pcat_modem_manager_modem_power_init`. -/
inductive SharedEvent where
  | callback (e : Event)
  | powerInit

/-- One of them. -/
def sharedStep (mm : ModemManagerData) : SharedEvent → Option ModemManagerData
  | .callback e => mm.step e
  | .powerInit => some { mm with modemRfkillState := false }

end ModemManagerData
end PcatManager
