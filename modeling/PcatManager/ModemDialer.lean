import PcatManager.ModemLines

/-!
# The dialer of the modem

A scan starts a dialer when it finds a modem and none is known to run. The thread starts it,
the main loop hears of its end, and the thread ends the last one when it ends itself.
-/

namespace PcatManager
open GuardedRun

namespace WorkEvent

/-- Whether a step is the callback that hears of the end of a dialer. -/
def isProcessWait : WorkEvent → Bool
  | .processWait _ => true
  | _ => false

/-- The text that a step brings for a setting, when it begins to replace the settings. -/
def replaces (field : DialField) : WorkEvent → Option (Option String)
  | .dispatch (.networkSetup texts) => some (texts field)
  | _ => none

/-- Whether a step does not end a dialer and starts one where it tries to. -/
def keepsDialer : WorkEvent → Bool
  | .work ok _ => ok
  | .processWait _ => false
  | _ => true

end WorkEvent

/-- The thread has left its loop. -/
def WorkPoint.over : WorkPoint → Bool
  | .closing _ | .ended => true
  | _ => false

namespace ModemWork
variable {hw : ManagerMainConfigData} {distro : Bool}

/-- Only the dialer that the manager holds may run, and it is the one that the main loop waits
for; a thread that has left its loop has been told to, and holds none. -/
structure DialerHeld (s : ModemWork) : Prop where
  waits : s.point.over = false → s.waits = s.process.toList
  waitsForOne : s.waits.length ≤ 1
  alive : s.alive = [] ∨ ∃ id, s.process = some id ∧ s.alive = [id]
  stopped : s.point.over = true → s.workFlag = false ∧ s.process = none

/-- A step that leaves the dialer alone and keeps the thread in its loop or after it. -/
theorem DialerHeld.of_same {s s' : ModemWork} (h : DialerHeld s)
    (hpoint : s'.point.over = s.point.over)
    (hflag : s'.workFlag = s.workFlag ∨ s'.workFlag = false) (hwaits : s'.waits = s.waits)
    (hprocess : s'.process = s.process) (halive : s'.alive = s.alive) : DialerHeld s' := by
  refine ⟨?_, hwaits ▸ h.waitsForOne, ?_, fun hover => ?_⟩
  · rw [hpoint, hwaits, hprocess]
    exact h.waits
  · rw [halive, hprocess]
    exact h.alive
  · obtain ⟨hstopped, hnone⟩ := h.stopped (hpoint ▸ hover)
    exact ⟨hflag.elim (fun hsame => hsame.trans hstopped) id, hprocess.trans hnone⟩

theorem dialerHeld_endDialer {s : ModemWork} (h : DialerHeld s) (hflag : s.workFlag = false) :
    DialerHeld s.endDialer := by
  refine ⟨fun hloop => (nomatch hloop), h.waitsForOne, .inl ?_, fun _ => ⟨hflag, rfl⟩⟩
  obtain halive | ⟨id, hprocess, halive⟩ := h.alive
  · rw [endDialer, halive]
    cases s.process <;> rfl
  · rw [endDialer, halive, hprocess]
    simp

theorem powerStep_dialer (hw : ManagerMainConfigData) (ok : Bool) (s : ModemWork)
    (ops : List PowerOp) (op : PowerOp) :
    (s.powerStep hw ok ops op).waits = s.waits ∧ (s.powerStep hw ok ops op).process = s.process ∧
      (s.powerStep hw ok ops op).alive = s.alive ∧
      (s.powerStep hw ok ops op).started = s.started := by
  cases op with
  | wait time => cases time <;> rw [powerStep] <;> split <;> exact ⟨rfl, rfl, rfl, rfl⟩
  | openChip gpio | getLine gpio =>
    rw [powerStep]
    split
    · exact ⟨rfl, rfl, rfl, rfl⟩
    · split <;> exact ⟨rfl, rfl, rfl, rfl⟩
  | _ => exact ⟨rfl, rfl, rfl, rfl⟩

theorem runExternalExec_point (ok : Bool) (moments : DialField → ℕ × ℕ) (s : ModemWork)
    (usbData : ModemUsbData) : (s.runExternalExec ok moments usbData).point = s.point := by
  rw [runExternalExec]
  split
  · rfl
  · split <;> rfl

/-- A dialer is started only when none is held, and none runs then. -/
theorem dialerHeld_runExternalExec {s : ModemWork} (h : DialerHeld s) (hpoint : s.point.over = false)
    (ok : Bool) (moments : DialField → ℕ × ℕ) (usbData : ModemUsbData) :
    DialerHeld (s.runExternalExec ok moments usbData) := by
  rw [runExternalExec]
  split
  · exact h
  · split
    · exact h
    · rename_i hstarts
      have hnone : s.process = none := by
        cases hprocess : s.process with
        | none => rfl
        | some id => simp [hprocess] at hstarts
      have hwaits : s.waits = [] := by rw [h.waits hpoint, hnone]; rfl
      have halive : s.alive = [] := by
        obtain halive | ⟨id, hprocess, -⟩ := h.alive
        · exact halive
        · rw [hnone] at hprocess
          cases hprocess
      rw [hwaits, halive]
      refine ⟨fun _ => rfl, Nat.le_refl 1, .inr ⟨_, rfl, rfl⟩, fun hover => ?_⟩
      exact absurd (hpoint.symm.trans hover) Bool.false_ne_true

theorem powerStep_over (ok : Bool) (s : ModemWork) (ops : List PowerOp) (op : PowerOp) :
    (s.powerStep hw ok ops op).point.over = false := by
  obtain h | h | ⟨-, time, time', -, h⟩ := powerStep_point hw ok s ops op <;> rw [h] <;> rfl

theorem DialerHeld.work {s : ModemWork} (h : DialerHeld s) (ok : Bool)
    (moments : DialField → ℕ × ℕ) : DialerHeld (s.work hw ok moments) := by
  rw [ModemWork.work]
  cases hpoint : s.point with
  | start =>
    dsimp only
    split
    · exact h.of_same (by rw [hpoint]; rfl) (.inl rfl) rfl rfl rfl
    · rename_i hflag
      exact dialerHeld_endDialer h (Bool.not_eq_true _ ▸ hflag)
  | powerInit ops =>
    cases ops with
    | nil => exact h.of_same (by rw [hpoint]; rfl) (.inl rfl) rfl rfl rfl
    | cons op ops =>
      obtain ⟨hwaits, hprocess, halive, -⟩ := powerStep_dialer hw ok s ops op
      have hover : (s.powerStep hw ok ops op).point.over = s.point.over := by
        rw [powerStep_over, hpoint]
        rfl
      exact h.of_same hover (.inl (powerStep_frame hw ok s ops op).1) hwaits hprocess halive
  | ready =>
    dsimp only
    split
    · exact h
    · rename_i hflag
      exact dialerHeld_endDialer h (Bool.not_eq_true _ ▸ hflag)
  | scanning devs deviceType =>
    have hloop : s.point.over = false := by rw [hpoint]; rfl
    cases devs with
    | nil => exact h.of_same hloop.symm (.inl rfl) rfl rfl rfl
    | cons dev devs =>
      dsimp only
      rw [scanStep]
      split
      · exact h.of_same hloop.symm (.inl rfl) rfl rfl rfl
      · rename_i usbData _
        have hheld := dialerHeld_runExternalExec h hloop ok moments usbData
        have hover : (s.runExternalExec ok moments usbData).point.over = false := by
          rwa [runExternalExec_point]
        exact hheld.of_same hover.symm (.inl rfl) rfl rfl rfl
  | closing gpios =>
    have hover : s.point.over = true := by rw [hpoint]; rfl
    cases gpios <;> exact h.of_same hover.symm (.inl rfl) rfl rfl rfl
  | ended => exact h

theorem callbackStep_dialer (hw : ManagerMainConfigData) (ok : Bool) (s : ModemWork)
    (ops : List CallbackOp) (op : CallbackOp) :
    (s.callbackStep hw ok ops op).waits = s.waits ∧
      (s.callbackStep hw ok ops op).process = s.process ∧
      (s.callbackStep hw ok ops op).alive = s.alive ∧
      (s.callbackStep hw ok ops op).started = s.started ∧
      (s.callbackStep hw ok ops op).deviceType = s.deviceType := by
  cases op with
  | rfkill phase state => cases phase <;> exact ⟨rfl, rfl, rfl, rfl, rfl⟩
  | _ => exact ⟨rfl, rfl, rfl, rfl, rfl⟩

theorem DialerHeld.step {s : ModemWork} (h : DialerHeld s) (e : WorkEvent) :
    DialerHeld (s.step hw distro e) := by
  cases e with
  | work ok moments => exact (h.work ok moments).of_same rfl (.inl rfl) rfl rfl rfl
  | scan devs =>
    cases devs with
    | none =>
      rw [ModemWork.step]
      split <;> exact h
    | some devs =>
      rw [ModemWork.step]
      split
      · rename_i hready
        exact h.of_same (by rw [hready.1]; rfl) (.inl rfl) rfl rfl rfl
      · exact h
  | dispatch callback =>
    rw [ModemWork.step]
    split
    · exact h.of_same rfl (.inl rfl) rfl rfl rfl
    · exact h
  | callback ok =>
    rw [ModemWork.step]
    split
    · exact h
    · rename_i op ops _
      obtain ⟨hwaits, hprocess, halive, -⟩ := callbackStep_dialer hw ok s ops op
      obtain ⟨hflag, hpoint⟩ := callbackStep_frame hw ok s ops op
      exact h.of_same (congrArg WorkPoint.over hpoint) (.inl hflag) hwaits hprocess halive
  | processExit id =>
    refine ⟨h.waits, h.waitsForOne, ?_, h.stopped⟩
    obtain halive | ⟨id', hprocess, halive⟩ := h.alive
    · exact .inl (by rw [ModemWork.step, halive]; rfl)
    · by_cases hsame : id = id'
      · subst hsame
        exact .inl (by rw [ModemWork.step, halive]; simp)
      · exact .inr ⟨id', hprocess, by rw [ModemWork.step, halive]; simp [Ne.symm hsame]⟩
  | processWait id =>
    rw [ModemWork.step]
    split
    · rename_i hheard
      obtain ⟨hflag, -, hwaits, hexited⟩ := hheard
      have hloop : s.point.over = false := by
        by_contra hover
        rw [(h.stopped (Bool.not_eq_false _ ▸ hover)).1] at hflag
        cases hflag
      have hprocess : s.process = some id := by
        rw [h.waits hloop] at hwaits
        exact Option.mem_toList.mp hwaits
      have hwaits' : s.waits.erase id = [] := by
        rw [h.waits hloop, hprocess]
        simp
      refine ⟨fun _ => hwaits', ?_, .inl ?_, fun hover => ⟨(h.stopped hover).1, rfl⟩⟩
      · change (s.waits.erase id).length ≤ 1
        rw [hwaits']
        exact Nat.zero_le 1
      · obtain halive | ⟨id', hprocess', halive⟩ := h.alive
        · exact halive
        · rw [hprocess] at hprocess'
          cases hprocess'
          exact absurd (by rw [halive]; exact List.mem_singleton_self id) hexited
    · exact h
  | uninit =>
    rw [ModemWork.step]
    split
    · exact h.of_same rfl (.inr rfl) rfl rfl rfl
    · exact h

theorem supportedDev_exec {dev : UsbDevice} {usbData : ModemUsbData}
    (h : supportedDev dev = some usbData) : usbData.idVendor = 0x2C7C ∧
      usbData.externalControlExec = some "quectel-cm" ∧
      usbData.externalControlExecIsDaemon = false := by
  obtain ⟨desc, -, hfind⟩ := Option.bind_eq_some_iff.mp h
  have hmem := List.mem_of_find?_eq_some hfind
  rw [modemSupportedDevList, List.mem_pair] at hmem
  obtain rfl | rfl := hmem <;> exact ⟨rfl, rfl, rfl⟩

/-- A command each of whose settings was tested and passed on as one of `texts`. -/
def DialedWith (disableIpv6 : Bool) (texts : DialField → List (Option String))
    (command : List String) : Prop :=
  ∃ tested passed : DialField → Option String,
    command = dialCommand "quectel-cm" 0x2C7C disableIpv6 tested passed ∧
      ∀ field, tested field ∈ texts field ∧ passed field ∈ texts field

/-- The settings since the last operation of the thread. -/
def recentTexts (s : ModemWork) (field : DialField) : List (Option String) :=
  (s.userConfig :: s.replaced).map fun userConfig => userConfig.dial field

theorem dialRead_mem (s : ModemWork) (moment : DialField → ℕ) (field : DialField) :
    s.dialRead moment field ∈ s.recentTexts field := by
  refine List.mem_map.mpr ⟨_, ?_, rfl⟩
  cases hget : (s.userConfig :: s.replaced)[moment field]? with
  | none => exact List.mem_cons_self
  | some userConfig => exact List.mem_of_getElem? hget

/-- What a step does to the dialers: it leaves them alone, starts one that the main loop waits
for, or hears of the end of one. -/
inductive DialerStep (s s' : ModemWork) (e : WorkEvent) : Prop where
  | same (hstarted : s'.started = s.started) (hwaits : s'.waits = s.waits)
  | starts (command : List String) (hstarted : s'.started = s.started ++ [command])
    (hcommand : DialedWith s.userConfig.modemDisableIpv6 s.recentTexts command)
    (hwaits : s'.waits.length = s.waits.length + 1)
  | hears (hevent : e.isProcessWait = true) (hstarted : s'.started = s.started)
    (hwaits : s.waits.length ≤ s'.waits.length + 1)

theorem dialerStep_work (hw : ManagerMainConfigData) (s : ModemWork) (ok : Bool)
    (moments : DialField → ℕ × ℕ) :
    DialerStep s (s.work hw ok moments) (.work ok moments) := by
  rw [work]
  split
  · split <;> exact .same rfl rfl
  · exact .same rfl rfl
  · obtain ⟨hwaits, -, -, hstarted⟩ := powerStep_dialer hw ok s _ _
    exact .same hstarted hwaits
  · split <;> exact .same rfl rfl
  · exact .same rfl rfl
  · rename_i dev _ _ _
    rw [scanStep]
    split
    · exact .same rfl rfl
    · rename_i usbData hsupported
      obtain ⟨hvendor, hexec, hdaemon⟩ := supportedDev_exec hsupported
      rw [runExternalExec, hexec]
      dsimp only
      split
      · exact .same rfl rfl
      · refine .starts _ rfl ⟨_, _, by rw [hvendor], fun field => ⟨?_, ?_⟩⟩ rfl
        · exact dialRead_mem s _ field
        · exact dialRead_mem s _ field
  · exact .same rfl rfl
  · exact .same rfl rfl
  · exact .same rfl rfl

theorem dialerStep_step (hw : ManagerMainConfigData) (distro : Bool) (s : ModemWork)
    (e : WorkEvent) : DialerStep s (s.step hw distro e) e := by
  cases e with
  | work ok moments =>
    obtain ⟨hstarted, hwaits⟩ | ⟨command, hstarted, hcommand, hwaits⟩ | ⟨hevent, hstarted, hwaits⟩ :=
      dialerStep_work hw s ok moments
    · exact .same hstarted hwaits
    · exact .starts command hstarted hcommand hwaits
    · exact .hears hevent hstarted hwaits
  | scan devs =>
    cases devs <;> rw [step] <;> split <;> exact .same rfl rfl
  | dispatch callback | uninit =>
    rw [step]
    split <;> exact .same rfl rfl
  | callback ok =>
    rw [step]
    split
    · exact .same rfl rfl
    · rename_i op ops _
      obtain ⟨hwaits, -, -, hstarted, -⟩ := callbackStep_dialer hw ok s ops op
      exact .same hstarted hwaits
  | processExit id => exact .same rfl rfl
  | processWait id =>
    rw [step]
    split
    · rename_i hheard
      refine .hears rfl rfl ?_
      change s.waits.length ≤ (s.waits.erase id).length + 1
      rw [List.length_erase_of_mem hheard.2.2.1]
      exact Nat.le_add_of_sub_le (Nat.le_refl _)
    · exact .same rfl rfl

/-- All settings and all commands come from `texts`. -/
structure TextsFrom (disableIpv6 : Bool) (texts : DialField → List (Option String)) (s : ModemWork) :
    Prop where
  disable : s.userConfig.modemDisableIpv6 = disableIpv6
  recent : ∀ field, s.recentTexts field ⊆ texts field
  stored : ∀ field text, .storeDial field text ∈ s.callback → text ∈ texts field
  started : ∀ command ∈ s.started, DialedWith disableIpv6 texts command

theorem DialedWith.mono {disableIpv6 : Bool} {texts texts' : DialField → List (Option String)}
    {command : List String} (h : DialedWith disableIpv6 texts command)
    (hsub : ∀ field, texts field ⊆ texts' field) : DialedWith disableIpv6 texts' command := by
  obtain ⟨tested, passed, hcommand, htexts⟩ := h
  exact ⟨tested, passed, hcommand, fun field =>
    ⟨hsub field (htexts field).1, hsub field (htexts field).2⟩⟩

theorem recentTexts_setDial (s : ModemWork) (field field' : DialField) (text : Option String)
    (ops : List CallbackOp) :
    ({ s with
        userConfig := s.userConfig.setDial text field
        replaced := s.userConfig :: s.replaced
        callback := ops } : ModemWork).recentTexts field' =
      (if field' = field then text else s.userConfig.dial field') :: s.recentTexts field' := by
  rw [recentTexts, List.map_cons, UserConfigData.dial_setDial]
  rfl

variable {disableIpv6 : Bool} {texts : DialField → List (Option String)}

theorem TextsFrom.of_same {s s' : ModemWork} (h : TextsFrom disableIpv6 texts s)
    (hconfig : s'.userConfig = s.userConfig) (hreplaced : s'.replaced = s.replaced ∨ s'.replaced = [])
    (hstored : ∀ field text, .storeDial field text ∈ s'.callback → text ∈ texts field)
    (hstarted : s'.started = s.started) : TextsFrom disableIpv6 texts s' := by
  refine ⟨hconfig ▸ h.disable, fun field => ?_, hstored, hstarted ▸ h.started⟩
  have hrecent := h.recent field
  obtain hsame | hnone := hreplaced
  · rwa [recentTexts, hconfig, hsame]
  · rw [recentTexts, hconfig, hnone]
    exact fun text htext => hrecent (List.mem_cons.mpr (.inl (List.mem_singleton.mp htext)))

theorem textsFrom_work {s : ModemWork} (h : TextsFrom disableIpv6 texts s) (ok : Bool)
    (moments : DialField → ℕ × ℕ) :
    TextsFrom disableIpv6 texts (s.step hw distro (.work ok moments)) := by
  obtain ⟨-, hcallback, hconfig⟩ := work_frame hw ok moments s
  have hstored (field : DialField) (text : Option String)
      (hmem : .storeDial field text ∈ (s.step hw distro (.work ok moments)).callback) :
      text ∈ texts field := h.stored field text (hcallback ▸ hmem)
  obtain ⟨hstarted, -⟩ | ⟨command, hstarted, hcommand, -⟩ | ⟨hevent, -⟩ :=
    dialerStep_step hw distro s (.work ok moments)
  · exact h.of_same hconfig (.inr rfl) hstored hstarted
  · have hidle : TextsFrom disableIpv6 texts { s.step hw distro (.work ok moments) with
        started := s.started } := h.of_same hconfig (.inr rfl) hstored rfl
    refine ⟨hidle.disable, hidle.recent, hidle.stored, ?_⟩
    rw [hstarted, List.forall_mem_append, List.forall_mem_singleton]
    rw [h.disable] at hcommand
    exact ⟨h.started, hcommand.mono h.recent⟩
  · cases hevent

theorem textsFrom_callbackStep {s : ModemWork} {op : CallbackOp} {ops : List CallbackOp}
    (hcallback : s.callback = op :: ops) (h : TextsFrom disableIpv6 texts s) (ok : Bool) :
    TextsFrom disableIpv6 texts (s.callbackStep hw ok ops op) := by
  have hops (field : DialField) (text : Option String) (hmem : .storeDial field text ∈ ops) :
      text ∈ texts field := h.stored field text (hcallback ▸ List.mem_cons_of_mem op hmem)
  cases op with
  | rfkill phase state =>
    cases phase with
    | compare =>
      refine h.of_same rfl (.inl rfl) (fun field text hmem => ?_) rfl
      rw [callbackStep] at hmem
      dsimp only at hmem
      split at hmem
      · exact hops field text hmem
      · exact hops field text ((List.mem_cons.mp hmem).resolve_left (by simp))
    | store | spawn =>
      exact h.of_same rfl (.inl rfl)
        (fun field text hmem => hops field text ((List.mem_cons.mp hmem).resolve_left (by simp))) rfl
    | drive => exact h.of_same rfl (.inl rfl) hops rfl
  | checkScan now config =>
    refine h.of_same rfl (.inl rfl) (fun field text hmem => ?_) rfl
    rw [callbackStep] at hmem
    dsimp only at hmem
    split at hmem
    · simp only [List.mem_cons, reduceCtorEq, false_or] at hmem
      exact hops field text hmem
    · exact hops field text hmem
  | stdout now stale chunk => exact h.of_same rfl (.inl rfl) hops rfl
  | endReset => exact h.of_same rfl (.inl rfl) hops rfl
  | storeDial field text =>
    refine ⟨?_, fun field' => ?_, hops, h.started⟩
    · rw [callbackStep, UserConfigData.modemDisableIpv6_setDial]
      exact h.disable
    · rw [callbackStep, recentTexts_setDial]
      refine List.cons_subset.mpr ⟨?_, h.recent field'⟩
      split
      · rename_i hsame
        exact hsame ▸ h.stored field text (hcallback ▸ List.mem_cons_self)
      · exact h.recent field' List.mem_cons_self

theorem storeDial_mem_ops {callback : MainCallback} {field : DialField} {text : Option String}
    (h : .storeDial field text ∈ callback.ops) :
    (WorkEvent.dispatch callback).replaces field = some text := by
  cases callback with
  | manager e => cases e <;> cases List.mem_singleton.mp h
  | networkSetup texts =>
    simp only [MainCallback.ops, List.mem_cons, CallbackOp.storeDial.injEq, List.not_mem_nil,
      or_false] at h
    obtain ⟨rfl, rfl⟩ | ⟨rfl, rfl⟩ | ⟨rfl, rfl⟩ | ⟨rfl, rfl⟩ := h <;> rfl

theorem TextsFrom.step {s : ModemWork} (h : TextsFrom disableIpv6 texts s) {e : WorkEvent}
    (he : ∀ field text, e.replaces field = some text → text ∈ texts field) :
    TextsFrom disableIpv6 texts (s.step hw distro e) := by
  cases e with
  | work ok moments => exact textsFrom_work h ok moments
  | scan devs =>
    cases devs <;> rw [ModemWork.step] <;> split
    · exact h
    · exact h
    · exact h.of_same rfl (.inl rfl) h.stored rfl
    · exact h
  | dispatch callback =>
    rw [ModemWork.step]
    split
    · exact h.of_same rfl (.inl rfl) (fun field text hmem => he field text (storeDial_mem_ops hmem)) rfl
    · exact h
  | callback ok =>
    rw [ModemWork.step]
    split
    · exact h
    · rename_i hcallback
      exact textsFrom_callbackStep hcallback h ok
  | processExit id => exact h.of_same rfl (.inl rfl) h.stored rfl
  | processWait id | uninit =>
    rw [ModemWork.step]
    split
    · exact h.of_same rfl (.inl rfl) h.stored rfl
    · exact h

-- Between two stores of the main loop the command mixes two configurations.
example :
    let s := run (step oneChip false) (initial
        { modemDialApn := some "old", modemDialUser := some "guest", modemDialPassword := some "pw",
          modemDialAuth := some "1" })
      (List.replicate 150 (.work true) ++
        [.dispatch (.networkSetup fun field => if field = .apn then some "new" else none),
          .callback true, .scan (some [some (0x2C7C, 0x900)]), .work true])
    s.started = [["quectel-cm", "-4", "-6", "-s", "new", "guest", "pw", "1"]] := by
  decide +kernel

/-- The type that a scan of a list comes to: that of the last supported device. -/
def scannedType (devs : List UsbDevice) (deviceType : ModemDeviceType) : ModemDeviceType :=
  ((devs.filterMap supportedDev).map ModemUsbData.deviceType).getLastD deviceType

/-- Whether there is a modem to dial with. -/
def modemFound (devs : List UsbDevice) : Bool := devs.any fun dev => (supportedDev dev).isSome

theorem step_of_not_work (hw : ManagerMainConfigData) (distro : Bool) {s : ModemWork}
    {e : WorkEvent} (h : e.isWork = false) :
    (s.step hw distro e).deviceType = s.deviceType ∧
      ((s.step hw distro e).point = s.point ∨ s.point = .ready) ∧
      (e.keepsDialer = true → (s.step hw distro e).process = s.process) := by
  cases e with
  | work ok moments => cases h
  | scan devs =>
    cases devs with
    | none =>
      rw [step]
      split <;> exact ⟨rfl, .inl rfl, fun _ => rfl⟩
    | some devs =>
      rw [step]
      split
      · rename_i hready
        exact ⟨rfl, .inr hready.1, fun _ => rfl⟩
      · exact ⟨rfl, .inl rfl, fun _ => rfl⟩
  | dispatch callback | uninit =>
    rw [step]
    split <;> exact ⟨rfl, .inl rfl, fun _ => rfl⟩
  | callback ok =>
    rw [step]
    split
    · exact ⟨rfl, .inl rfl, fun _ => rfl⟩
    · rename_i op ops _
      obtain ⟨-, hprocess, -, -, htype⟩ := callbackStep_dialer hw ok s ops op
      exact ⟨htype, .inl (callbackStep_frame hw ok s ops op).2, fun _ => hprocess⟩
  | processWait id =>
    rw [step]
    split <;> exact ⟨rfl, .inl rfl, fun hkeeps => by cases hkeeps⟩
  | processExit id => exact ⟨rfl, .inl rfl, fun _ => rfl⟩

theorem run_of_not_work (hw : ManagerMainConfigData) (distro : Bool) (s : ModemWork)
    {events : List WorkEvent} (h : events.countP WorkEvent.isWork = 0) :
    (run (step hw distro) s events).deviceType = s.deviceType ∧
      (events.all WorkEvent.keepsDialer = true →
        (run (step hw distro) s events).process = s.process) := by
  induction events generalizing s with
  | nil => exact ⟨rfl, fun _ => rfl⟩
  | cons e events ih =>
    rw [List.countP_cons, Nat.add_eq_zero_iff] at h
    obtain ⟨hrest, he⟩ := h
    have hwork : e.isWork = false := by
      by_contra hne
      rw [Bool.not_eq_false] at hne
      rw [if_pos hne] at he
      cases he
    obtain ⟨htype, -, hprocess⟩ := step_of_not_work hw distro (s := s) hwork
    obtain ⟨htypes, hprocesses⟩ := ih (s.step hw distro e) hrest
    refine ⟨htypes.trans htype, fun hall => ?_⟩
    rw [List.all_cons, Bool.and_eq_true] at hall
    exact (hprocesses hall.2).trans (hprocess hall.1)

theorem scanStep_scan (ok : Bool) (moments : DialField → ℕ × ℕ) (s : ModemWork)
    (devs : List UsbDevice) (deviceType : ModemDeviceType) (dev : UsbDevice) :
    ∃ deviceType', (s.scanStep ok moments devs deviceType dev).point = .scanning devs deviceType' ∧
      scannedType devs deviceType' = scannedType (dev :: devs) deviceType ∧
      (ok = true → (s.scanStep ok moments devs deviceType dev).process.isSome =
        (s.process.isSome || (supportedDev dev).isSome)) := by
  rw [scanStep]
  cases hsupported : supportedDev dev with
  | none =>
    refine ⟨deviceType, rfl, ?_, fun _ => (Bool.or_false _).symm⟩
    rw [scannedType, scannedType, List.filterMap_cons_none hsupported]
  | some usbData =>
    refine ⟨usbData.deviceType, rfl, ?_, ?_⟩
    · rw [scannedType, scannedType, List.filterMap_cons_some hsupported, List.map_cons,
        List.getLastD_cons]
    · rintro rfl
      obtain ⟨-, hexec, hdaemon⟩ := supportedDev_exec hsupported
      dsimp only
      rw [runExternalExec, hexec]
      dsimp only
      rw [hdaemon]
      cases hprocess : s.process with
      | none => rfl
      | some id => simp [hprocess]

/-- Whatever happens beside it, a scan comes to the type of the last supported device of its
list; and if no dialer ends meanwhile and every start succeeds, a dialer is held at its end
exactly when one was at its begin or there is a modem in the list. -/
theorem scan_run (hw : ManagerMainConfigData) (distro : Bool) {s : ModemWork}
    {devs : List UsbDevice} {deviceType : ModemDeviceType}
    (hpoint : s.point = .scanning devs deviceType) (events : List WorkEvent)
    (hcount : events.countP WorkEvent.isWork = devs.length + 1) :
    (run (step hw distro) s events).deviceType = scannedType devs deviceType ∧
      (events.all WorkEvent.keepsDialer = true →
        (run (step hw distro) s events).process.isSome =
          (s.process.isSome || modemFound devs)) := by
  induction events generalizing s devs deviceType with
  | nil => cases hcount
  | cons e events ih =>
    rw [List.countP_cons] at hcount
    cases hwork : e.isWork with
    | false =>
      obtain ⟨htype, hsame, hprocess⟩ := step_of_not_work hw distro (s := s) hwork
      have hpoint' : (s.step hw distro e).point = .scanning devs deviceType := by
        obtain hsame | hready := hsame
        · exact hsame.trans hpoint
        · rw [hpoint] at hready
          cases hready
      rw [hwork] at hcount
      obtain ⟨htypes, hprocesses⟩ := ih hpoint' hcount
      refine ⟨htypes, fun hall => ?_⟩
      rw [List.all_cons, Bool.and_eq_true] at hall
      rw [run_cons, hprocesses hall.2, hprocess hall.1]
    | true =>
      cases e with
      | work ok moments =>
        rw [if_pos hwork, Nat.add_right_cancel_iff] at hcount
        cases devs with
        | nil =>
          have hstep : s.step hw distro (.work ok moments) =
              { s with deviceType := deviceType, point := .ready, replaced := [] } := by
            rw [step, work, hpoint]
          obtain ⟨htype, hprocess⟩ :=
            run_of_not_work hw distro (s.step hw distro (.work ok moments)) hcount
          refine ⟨htype.trans (by rw [hstep]; rfl), fun hall => ?_⟩
          rw [List.all_cons, Bool.and_eq_true] at hall
          rw [run_cons, hprocess hall.2, hstep]
          exact (Bool.or_false _).symm
        | cons dev devs =>
          have hstep : s.step hw distro (.work ok moments) =
              { s.scanStep ok moments devs deviceType dev with replaced := [] } := by
            rw [step, work, hpoint]
          obtain ⟨deviceType', hscan, hsame, hstarts⟩ := scanStep_scan ok moments s devs deviceType dev
          obtain ⟨htype, hprocess⟩ := ih ((congrArg ModemWork.point hstep).trans hscan) hcount
          refine ⟨htype.trans hsame, fun hall => ?_⟩
          rw [List.all_cons, Bool.and_eq_true] at hall
          rw [run_cons, hprocess hall.2, hstep, hstarts hall.1, modemFound, modemFound,
            List.any_cons, Bool.or_assoc]
      | _ => cases hwork

/-- A hub, a device that cannot be read and a 5G modem. -/
def busyScan : ModemWork :=
  { point := .scanning [some (0x1D6B, 2), none, some (0x2C7C, 0x900)] .none }

theorem scan_run_busy :
    (run (step oneChip false) busyScan
      [.work true, .uninit, .work true, .processExit 0, .work true, .work true]).deviceType =
      scannedType [some (0x1D6B, 2), none, some (0x2C7C, 0x900)] .none :=
  (scan_run oneChip false (by rfl)
    [.work true, .uninit, .work true, .processExit 0, .work true, .work true] (by rfl)).1

end ModemWork
end PcatManager
