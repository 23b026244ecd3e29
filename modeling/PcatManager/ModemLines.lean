import PcatManager.ModemWork

/-!
# The lines of the modem

However the work thread comes to its end, the last thing it asks of every line that it has held
is the value that keeps the modem quiet, and it gives the line back. Whether the line follows
depends on that call, whose result is not looked at.
-/

namespace PcatManager
open GuardedRun

namespace ModemLine

/-- A line that was driven was asked to, and it is where the last call that succeeded left it. -/
structure Followed (line : ModemLine) : Prop where
  asked : line.value ≠ none → line.lastCall ≠ none
  driven : ∀ call ∈ line.lastCall, call.2 = true → line.value = some call.1

theorem followed_setValue {line : ModemLine} (h : line.Followed) (ok value : Bool) :
    (line.setValue ok value).Followed := by
  rw [setValue]
  split
  · exact h
  · refine ⟨fun _ => Option.some_ne_none _, ?_⟩
    rintro call hcall hok
    obtain rfl := Option.mem_some.mp hcall
    cases hok
  · refine ⟨fun _ => Option.some_ne_none _, ?_⟩
    rintro call hcall hok
    obtain rfl := Option.mem_some.mp hcall
    exact if_pos hok

theorem followed_request {line : ModemLine} (h : line.Followed) (ok value : Bool) :
    (line.request ok value).Followed := by
  rw [request]
  split
  · exact h
  · split
    · refine ⟨fun _ => Option.some_ne_none _, ?_⟩
      rintro call hcall -
      obtain rfl := Option.mem_some.mp hcall
      rfl
    · refine ⟨fun _ => Option.some_ne_none _, ?_⟩
      rintro call hcall hok
      obtain rfl := Option.mem_some.mp hcall
      cases hok
  · exact followed_setValue h ok value

/-- The last call on a line that the thread does not hold asked for `quiet`. -/
def LastQuiet (quiet : Bool) (line : ModemLine) : Prop :=
  line.handle = .null → ∀ call ∈ line.lastCall, call.1 = quiet

theorem handle_setValue (line : ModemLine) (ok value : Bool) :
    (line.setValue ok value).handle = line.handle := by
  rw [setValue]
  split <;> simp [*]

theorem setValue_of_null {line : ModemLine} (h : line.handle = .null) (ok value : Bool) :
    line.setValue ok value = line := by
  rw [setValue, h]

theorem lastQuiet_setValue {quiet : Bool} {line : ModemLine} (h : line.LastQuiet quiet)
    (ok value : Bool) : (line.setValue ok value).LastQuiet quiet := by
  intro hnull
  rw [handle_setValue] at hnull
  rw [setValue_of_null hnull]
  exact h hnull

theorem lastQuiet_request {quiet : Bool} {line : ModemLine} (h : line.LastQuiet quiet)
    (ok value : Bool) : (line.request ok value).LastQuiet quiet := by
  rw [request]
  split
  · exact h
  · rename_i hopened
    split
    · exact fun hnull => nomatch hnull
    · exact fun hnull => nomatch hopened.symm.trans hnull
  · exact lastQuiet_setValue h ok value

/-- The last call on a line that is given back is the one that sets it for the last time. -/
theorem lastQuiet_release {quiet : Bool} {line : ModemLine} (h : line.LastQuiet quiet) (ok : Bool) :
    (line.release ok quiet).LastQuiet quiet := by
  rintro - call hcall
  rw [release, setValue] at hcall
  split at hcall
  · rename_i hnull
    exact h hnull call hcall
  · rw [← Option.mem_some.mp hcall]
  · rw [← Option.mem_some.mp hcall]

end ModemLine

/-- Whether a step is an operation of the thread. -/
def WorkEvent.isWork : WorkEvent → Bool
  | .work _ _ => true
  | _ => false

/-- The thread has given the line back. -/
def WorkPoint.GivenBack (gpio : ModemGpio) : WorkPoint → Prop
  | .closing gpios => gpio ∉ gpios
  | .ended => True
  | _ => False

namespace ModemWork
variable {hw : ManagerMainConfigData} {distro : Bool}

theorem forall_setLine {P : ModemGpio → ModemLine → Prop} {s : ModemWork} {gpio : ModemGpio}
    {line : ModemLine} (h : ∀ gpio, P gpio (s.gpio gpio)) (hline : P gpio line) :
    ∀ gpio', P gpio' ((s.setLine gpio line).gpio gpio') :=
  (Function.forall_update_iff s.gpio P).mpr ⟨hline, fun gpio' _ => h gpio'⟩

@[simp] theorem setLine_gpio_of_ne (s : ModemWork) {gpio gpio' : ModemGpio} (line : ModemLine)
    (h : gpio' ≠ gpio) : (s.setLine gpio line).gpio gpio' = s.gpio gpio' := by
  simp [setLine, h]

@[simp] theorem setLine_gpio_self (s : ModemWork) (gpio : ModemGpio) (line : ModemLine) :
    (s.setLine gpio line).gpio gpio = line := by
  simp [setLine]

/-- The value that keeps the modem quiet: off, without radio, out of reset. -/
def quietLevel (hw : ManagerMainConfigData) (gpio : ModemGpio) : Bool :=
  level hw gpio (gpio = .rfKill)

/-- The line is given back. The last call asked for the value that keeps the modem quiet. Where
it succeeded, the line is there, and without any call it was never driven. -/
structure Quiet (hw : ManagerMainConfigData) (gpio : ModemGpio) (line : ModemLine) : Prop where
  null : line.handle = .null
  chip : line.chip = false
  last : ∀ call ∈ line.lastCall, call.1 = quietLevel hw gpio
  followed : line.Followed

/-- What holds of a line wherever the thread stands. -/
structure LineKept (hw : ManagerMainConfigData) (gpio : ModemGpio) (line : ModemLine) : Prop where
  followed : line.Followed
  last : line.LastQuiet (quietLevel hw gpio)

/-- And what holds of it where the thread stands. -/
structure LinesKept (hw : ManagerMainConfigData) (s : ModemWork) : Prop where
  kept : ∀ gpio, LineKept hw gpio (s.gpio gpio)
  null : ∀ gpio, s.point.GivenBack gpio → (s.gpio gpio).handle = .null
  chip : s.point = .ended → ∀ gpio, (s.gpio gpio).chip = false

theorem linesKept_initial (hw : ManagerMainConfigData) (userConfig : UserConfigData) :
    LinesKept hw (initial userConfig) :=
  ⟨fun _ => ⟨⟨fun h => absurd rfl h, fun _ h => nomatch h⟩, fun _ _ h => nomatch h⟩, fun _ _ => rfl,
    fun h => nomatch h⟩

theorem linesKept_of_held {s : ModemWork} (h : ∀ gpio, LineKept hw gpio (s.gpio gpio))
    (hpoint : ∀ gpio, ¬s.point.GivenBack gpio) : LinesKept hw s := by
  refine ⟨h, fun gpio hback => absurd hback (hpoint gpio), fun hended => ?_⟩
  exact absurd (hended ▸ trivial) (hpoint .power)

theorem LinesKept.of_same {s s' : ModemWork} (h : LinesKept hw s) (hgpio : s'.gpio = s.gpio)
    (hpoint : s'.point = s.point ∨ ∀ gpio, ¬s'.point.GivenBack gpio) : LinesKept hw s' := by
  obtain hpoint | hpoint := hpoint
  · obtain ⟨hkept, hnull, hchip⟩ := h
    rw [← hgpio] at hkept hnull hchip
    rw [← hpoint] at hnull hchip
    exact ⟨hkept, hnull, hchip⟩
  · refine linesKept_of_held (fun gpio => ?_) hpoint
    rw [hgpio]
    exact h.kept gpio

/-- Where the thread stands after an operation: before the next one, at the end of the power
initialisation, or in a wait. -/
theorem powerStep_point (hw : ManagerMainConfigData) (ok : Bool) (s : ModemWork)
    (ops : List PowerOp) (op : PowerOp) :
    (s.powerStep hw ok ops op).point = .powerInit ops ∨ (s.powerStep hw ok ops op).point = .ready ∨
      (s.workFlag = true ∧ ∃ time time', op = .wait time ∧
        (s.powerStep hw ok ops op).point = .powerInit (.wait time' :: ops)) := by
  cases op with
  | clearRfkillState => exact .inl rfl
  | configured gpio =>
    rw [powerStep]
    split
    · exact .inl rfl
    · exact .inr (.inl rfl)
  | openChip gpio | getLine gpio =>
    rw [powerStep]
    split
    · exact .inl rfl
    · split
      · exact .inl rfl
      · by_cases hrfKill : gpio = .rfKill
        · exact .inl (if_pos hrfKill)
        · exact .inr (.inl (if_neg hrfKill))
  | request gpio active => exact .inl rfl
  | set gpio active => exact .inl rfl
  | wait time =>
    cases hflag : s.workFlag with
    | false => cases time <;> rw [powerStep, hflag] <;> exact .inr (.inl rfl)
    | true =>
      cases time with
      | zero =>
        rw [powerStep, hflag]
        exact .inl rfl
      | succ time =>
        rw [powerStep, hflag]
        exact .inr (.inr ⟨rfl, time + 1, time, rfl, rfl⟩)

theorem powerStep_not_givenBack (ok : Bool) (s : ModemWork) (ops : List PowerOp) (op : PowerOp)
    (gpio : ModemGpio) : ¬(s.powerStep hw ok ops op).point.GivenBack gpio := by
  obtain h | h | ⟨-, time, time', -, h⟩ := powerStep_point hw ok s ops op <;> rw [h] <;> exact id

theorem lineKept_powerStep {s : ModemWork} (h : ∀ gpio, LineKept hw gpio (s.gpio gpio)) (ok : Bool)
    (ops : List PowerOp) (op : PowerOp) (gpio : ModemGpio) :
    LineKept hw gpio ((s.powerStep hw ok ops op).gpio gpio) := by
  have hset {gpio : ModemGpio} {line : ModemLine} (hline : LineKept hw gpio line) :
      ∀ gpio', LineKept hw gpio' ((s.setLine gpio line).gpio gpio') :=
    forall_setLine (P := LineKept hw) h hline
  cases op with
  | clearRfkillState => exact h gpio
  | configured gpio' => exact h gpio
  | openChip gpio' =>
    rw [powerStep]
    split
    · exact h gpio
    · split
      · have hopen : LineKept hw gpio' { s.gpio gpio' with chip := true } :=
          ⟨⟨(h gpio').followed.asked, (h gpio').followed.driven⟩, (h gpio').last⟩
        exact hset hopen gpio
      · exact h gpio
  | getLine gpio' =>
    rw [powerStep]
    split
    · exact h gpio
    · split
      · have hopened : LineKept hw gpio' { s.gpio gpio' with handle := .opened } :=
          ⟨⟨(h gpio').followed.asked, (h gpio').followed.driven⟩, fun hnull => nomatch hnull⟩
        exact hset hopened gpio
      · exact h gpio
  | request gpio' active =>
    exact hset ⟨ModemLine.followed_request (h gpio').followed _ _,
      ModemLine.lastQuiet_request (h gpio').last _ _⟩ gpio
  | set gpio' active =>
    exact hset ⟨ModemLine.followed_setValue (h gpio').followed _ _,
      ModemLine.lastQuiet_setValue (h gpio').last _ _⟩ gpio
  | wait time => cases time <;> rw [powerStep] <;> split <;> exact h gpio

theorem scanStep_frame (ok : Bool) (moments : DialField → ℕ × ℕ) (s : ModemWork)
    (devs : List UsbDevice) (deviceType : ModemDeviceType) (dev : UsbDevice) :
    (s.scanStep ok moments devs deviceType dev).gpio = s.gpio ∧
      (s.scanStep ok moments devs deviceType dev).manager = s.manager ∧
      (s.scanStep ok moments devs deviceType dev).callback = s.callback ∧
      (s.scanStep ok moments devs deviceType dev).radioOn = s.radioOn ∧
      (s.scanStep ok moments devs deviceType dev).workFlag = s.workFlag ∧
      (s.scanStep ok moments devs deviceType dev).userConfig = s.userConfig ∧
      ∃ deviceType', (s.scanStep ok moments devs deviceType dev).point = .scanning devs deviceType' := by
  rw [scanStep]
  split
  · exact ⟨rfl, rfl, rfl, rfl, rfl, rfl, _, rfl⟩
  · rw [runExternalExec]
    split
    · exact ⟨rfl, rfl, rfl, rfl, rfl, rfl, _, rfl⟩
    · split <;> exact ⟨rfl, rfl, rfl, rfl, rfl, rfl, _, rfl⟩

theorem linesKept_endDialer {s : ModemWork} (h : LinesKept hw s) : LinesKept hw s.endDialer := by
  refine linesKept_of_held h.kept fun gpio hback => hback ?_
  cases gpio <;> simp

theorem linesKept_closeLine {s : ModemWork} {gpio : ModemGpio} {gpios : List ModemGpio}
    (hpoint : s.point = .closing (gpio :: gpios)) (h : LinesKept hw s) (ok : Bool) :
    LinesKept hw (s.closeLine hw ok gpio gpios) := by
  have hreleased : LineKept hw gpio ((s.gpio gpio).release ok (quietLevel hw gpio)) :=
    have hset := ModemLine.followed_setValue (h.kept gpio).followed ok (quietLevel hw gpio)
    ⟨⟨hset.asked, hset.driven⟩, ModemLine.lastQuiet_release (h.kept gpio).last ok⟩
  refine ⟨forall_setLine (P := LineKept hw) h.kept hreleased, fun gpio' hback => ?_, fun h => nomatch h⟩
  by_cases hsame : gpio' = gpio
  · subst hsame
    exact congrArg ModemLine.handle (setLine_gpio_self s gpio' _)
  · refine (congrArg ModemLine.handle (setLine_gpio_of_ne s _ hsame)).trans (h.null gpio' ?_)
    rw [hpoint]
    exact fun hmem => hback ((List.mem_cons.mp hmem).resolve_left hsame)

theorem linesKept_closeChips {s : ModemWork} (hpoint : s.point = .closing []) (h : LinesKept hw s) :
    LinesKept hw s.closeChips := by
  refine ⟨fun gpio => ?_, fun gpio _ => h.null gpio ?_, fun _ _ => rfl⟩
  · exact ⟨⟨(h.kept gpio).followed.asked, (h.kept gpio).followed.driven⟩, (h.kept gpio).last⟩
  · rw [hpoint]
    exact List.not_mem_nil

theorem LinesKept.work {s : ModemWork} (h : LinesKept hw s) (ok : Bool)
    (moments : DialField → ℕ × ℕ) : LinesKept hw (s.work hw ok moments) := by
  rw [ModemWork.work]
  cases hpoint : s.point with
  | start =>
    dsimp only
    split
    · exact h.of_same rfl (.inr fun _ => id)
    · exact linesKept_endDialer h
  | ready =>
    dsimp only
    split
    · exact h
    · exact linesKept_endDialer h
  | powerInit ops =>
    cases ops with
    | nil => exact h.of_same rfl (.inr fun _ => id)
    | cons op ops =>
      exact linesKept_of_held (lineKept_powerStep h.kept ok ops op)
        fun gpio => powerStep_not_givenBack ok s ops op gpio
  | scanning devs deviceType =>
    cases devs with
    | nil => exact h.of_same rfl (.inr fun _ => id)
    | cons dev devs =>
      obtain ⟨hgpio, -, -, -, -, -, deviceType', hscan⟩ :=
        scanStep_frame ok moments s devs deviceType dev
      exact h.of_same hgpio (.inr fun _ => hscan ▸ id)
  | closing gpios =>
    cases gpios with
    | nil => exact linesKept_closeChips hpoint h
    | cons gpio gpios => exact linesKept_closeLine hpoint h ok
  | ended => exact h

/-- A callback touches the rfkill line alone, and not once it is given back. -/
theorem linesKept_callbackStep {s : ModemWork} (h : LinesKept hw s) (ok : Bool)
    (ops : List CallbackOp) (op : CallbackOp) : LinesKept hw (s.callbackStep hw ok ops op) := by
  cases op with
  | rfkill phase state =>
    cases phase with
    | drive =>
      by_cases hnull : (s.gpio .rfKill).handle = .null
      · refine h.of_same ?_ (.inl rfl)
        rw [callbackStep, ModemLine.setValue_of_null hnull]
        exact Function.update_eq_self _ _
      · have hline : LineKept hw .rfKill ((s.gpio .rfKill).setValue ok (level hw .rfKill state)) :=
          ⟨ModemLine.followed_setValue (h.kept .rfKill).followed _ _,
            ModemLine.lastQuiet_setValue (h.kept .rfKill).last _ _⟩
        refine ⟨forall_setLine (P := LineKept hw) h.kept hline, fun gpio hback => ?_, fun hended => ?_⟩
        · have hne : gpio ≠ .rfKill := fun hsame => hnull (hsame ▸ h.null gpio hback)
          exact (congrArg ModemLine.handle (setLine_gpio_of_ne s _ hne)).trans (h.null gpio hback)
        · have hended : s.point = .ended := hended
          exact absurd (h.null .rfKill (hended ▸ trivial)) hnull
    | _ => exact h.of_same rfl (.inl rfl)
  | _ => exact h.of_same rfl (.inl rfl)

theorem LinesKept.step {s : ModemWork} (h : LinesKept hw s) (e : WorkEvent) :
    LinesKept hw (s.step hw distro e) := by
  cases e with
  | work ok moments => exact (h.work ok moments).of_same rfl (.inl rfl)
  | scan devs =>
    cases devs with
    | none =>
      rw [ModemWork.step]
      split <;> exact h
    | some devs =>
      rw [ModemWork.step]
      split
      · exact h.of_same rfl (.inr fun _ => id)
      · exact h
  | dispatch callback =>
    rw [ModemWork.step]
    split
    · exact h.of_same rfl (.inl rfl)
    · exact h
  | callback ok =>
    rw [ModemWork.step]
    split
    · exact h
    · exact linesKept_callbackStep h ok _ _
  | processExit id => exact h.of_same rfl (.inl rfl)
  | processWait id | uninit =>
    rw [ModemWork.step]
    split
    · exact h.of_same rfl (.inl rfl)
    · exact h

/-- How many operations the thread still makes once it is told to stop. -/
def remaining : WorkPoint → ℕ
  | .start | .ready => 5
  | .powerInit ops => ops.length + 6
  | .scanning devs _ => devs.length + 6
  | .closing gpios => gpios.length + 1
  | .ended => 0

theorem ended_of_remaining {point : WorkPoint} (h : remaining point = 0) : point = .ended := by
  cases point with
  | ended => rfl
  | _ => cases h

theorem remaining_powerStep {s : ModemWork} (hflag : s.workFlag = false) (ok : Bool)
    (ops : List PowerOp) (op : PowerOp) :
    remaining (s.powerStep hw ok ops op).point ≤ ops.length + 6 := by
  obtain h | h | ⟨hgoes, -⟩ := powerStep_point hw ok s ops op
  · rw [h]
    exact Nat.le_refl _
  · rw [h]
    exact Nat.le_add_left 5 (ops.length + 1)
  · rw [hflag] at hgoes
    cases hgoes

theorem powerStep_frame (hw : ManagerMainConfigData) (ok : Bool) (s : ModemWork)
    (ops : List PowerOp) (op : PowerOp) :
    (s.powerStep hw ok ops op).workFlag = s.workFlag ∧
      (s.powerStep hw ok ops op).callback = s.callback ∧
      (s.powerStep hw ok ops op).userConfig = s.userConfig := by
  cases op with
  | wait time => cases time <;> rw [powerStep] <;> split <;> exact ⟨rfl, rfl, rfl⟩
  | openChip gpio | getLine gpio =>
    rw [powerStep]
    split
    · exact ⟨rfl, rfl, rfl⟩
    · split <;> exact ⟨rfl, rfl, rfl⟩
  | _ => exact ⟨rfl, rfl, rfl⟩

/-- The thread changes neither its flag nor what belongs to the main loop. -/
theorem work_frame (hw : ManagerMainConfigData) (ok : Bool) (moments : DialField → ℕ × ℕ)
    (s : ModemWork) :
    (s.work hw ok moments).workFlag = s.workFlag ∧
      (s.work hw ok moments).callback = s.callback ∧
      (s.work hw ok moments).userConfig = s.userConfig := by
  rw [work]
  split
  · split <;> exact ⟨rfl, rfl, rfl⟩
  · exact ⟨rfl, rfl, rfl⟩
  · exact powerStep_frame hw ok s _ _
  · split <;> exact ⟨rfl, rfl, rfl⟩
  · exact ⟨rfl, rfl, rfl⟩
  · obtain ⟨-, -, hcallback, -, hflag, hconfig, -⟩ := scanStep_frame ok moments s _ _ _
    exact ⟨hflag, hcallback, hconfig⟩
  · exact ⟨rfl, rfl, rfl⟩
  · exact ⟨rfl, rfl, rfl⟩
  · exact ⟨rfl, rfl, rfl⟩

theorem remaining_work {s : ModemWork} (hflag : s.workFlag = false) (ok : Bool)
    (moments : DialField → ℕ × ℕ) :
    remaining (s.work hw ok moments).point ≤ remaining s.point - 1 := by
  rw [work]
  cases hpoint : s.point with
  | start | ready =>
    dsimp only
    rw [hflag]
    exact Nat.le_refl 4
  | powerInit ops =>
    cases ops with
    | nil => exact Nat.le_refl 5
    | cons op ops => exact remaining_powerStep hflag ok ops op
  | scanning devs deviceType =>
    cases devs with
    | nil => exact Nat.le_refl 5
    | cons dev devs =>
      obtain ⟨-, -, -, -, -, -, deviceType', hscan⟩ :=
        scanStep_frame ok moments s devs deviceType dev
      dsimp only
      rw [hscan]
      exact Nat.le_refl (devs.length + 6)
  | closing gpios =>
    cases gpios with
    | nil => exact Nat.le_refl 0
    | cons gpio gpios => exact Nat.le_refl (gpios.length + 1)
  | ended =>
    dsimp only
    rw [hpoint]
    exact Nat.le_refl 0

theorem callbackStep_frame (hw : ManagerMainConfigData) (ok : Bool) (s : ModemWork)
    (ops : List CallbackOp) (op : CallbackOp) :
    (s.callbackStep hw ok ops op).workFlag = s.workFlag ∧
      (s.callbackStep hw ok ops op).point = s.point := by
  cases op with
  | rfkill phase state => cases phase <;> exact ⟨rfl, rfl⟩
  | _ => exact ⟨rfl, rfl⟩

theorem step_of_stopped (hw : ManagerMainConfigData) (distro : Bool) {s : ModemWork}
    (hflag : s.workFlag = false) (e : WorkEvent) :
    (s.step hw distro e).workFlag = false ∧
      remaining (s.step hw distro e).point ≤ remaining s.point - if e.isWork then 1 else 0 := by
  cases e with
  | work ok moments =>
    exact ⟨(work_frame hw ok moments s).1.trans hflag, remaining_work hflag ok moments⟩
  | scan devs =>
    cases devs <;> rw [step, if_neg (by simp [hflag])] <;> exact ⟨hflag, Nat.le_refl _⟩
  | dispatch callback | processWait id =>
    rw [step, if_neg (by simp [hflag])]
    exact ⟨hflag, Nat.le_refl _⟩
  | callback ok =>
    rw [step]
    split
    · exact ⟨hflag, Nat.le_refl _⟩
    · rename_i op ops _
      obtain ⟨hsame, hpoint⟩ := callbackStep_frame hw ok s ops op
      rw [hpoint]
      exact ⟨hsame.trans hflag, Nat.le_refl _⟩
  | processExit id => exact ⟨hflag, Nat.le_refl _⟩
  | uninit =>
    rw [step]
    split
    · exact ⟨rfl, Nat.le_refl _⟩
    · exact ⟨hflag, Nat.le_refl _⟩

/-- Told to stop, the thread comes to its end by its own operations, whatever else happens. -/
theorem ended_of_stopped {s : ModemWork} (hflag : s.workFlag = false) {events : List WorkEvent}
    (hcount : remaining s.point ≤ events.countP WorkEvent.isWork) :
    (run (step hw distro) s events).point = .ended := by
  induction events generalizing s with
  | nil => exact ended_of_remaining (Nat.le_zero.mp hcount)
  | cons e events ih =>
    obtain ⟨hstopped, hless⟩ := step_of_stopped hw distro hflag e
    rw [List.countP_cons] at hcount
    exact ih hstopped (hless.trans (Nat.sub_le_of_le_add hcount))

/-- From any moment of any run on, told to stop, the thread comes to its end within the
operations that are left to it. Whenever it has ended, it has given every line back, and the
last thing it asked of the line is the value that keeps the modem quiet. -/
theorem lines_quiet_run (hw : ManagerMainConfigData) (distro : Bool) (userConfig : UserConfigData)
    (events events' : List WorkEvent) :
    let s := run (step hw distro) (initial userConfig) events
    (s.workFlag = false → remaining s.point ≤ events'.countP WorkEvent.isWork →
      (run (step hw distro) s events').point = .ended) ∧
    (s.point = .ended → ∀ gpio, Quiet hw gpio (s.gpio gpio)) := by
  intro s
  refine ⟨fun hflag hcount => ended_of_stopped hflag hcount, fun hended gpio => ?_⟩
  have hkept : LinesKept hw s :=
    run_invariant (fun _ e h => h.step e) (linesKept_initial hw userConfig) events
  have hnull : (s.gpio gpio).handle = .null := hkept.null gpio (hended ▸ trivial)
  exact ⟨hnull, hkept.chip hended gpio, (hkept.kept gpio).last hnull, (hkept.kept gpio).followed⟩

end ModemWork
end PcatManager
