import PcatManager.ModemLines

/-!
# The rfkill line and the rfkill state

The main loop stores the state, spawns `rfkill` and sets the line, one after the other; the work
thread sets the line once by itself, when it switches the modem on, and does not look at the
state.
-/

namespace PcatManager
open GuardedRun

namespace ModemManagerData

theorem rfkill_parseLine {s s' : ModemManagerData × Bool} {now : ℤ} {line : List UInt8}
    (hline : parseLine now s line = some s') :
    s'.1.rfkillCommands = s.1.rfkillCommands ∧ s'.1.modemRfkillState = s.1.modemRfkillState := by
  obtain ⟨mm, flag⟩ := s
  rw [parseLine] at hline
  dsimp only at hline
  split at hline
  · obtain ⟨smode, -, rfl⟩ := Option.map_eq_some_iff.mp hline
    dsimp only
    rw [modeReported]
    dsimp only
    split
    · exact ⟨rfl, rfl⟩
    · split <;> exact ⟨rfl, rfl⟩
  · split at hline
    · cases hline
      rw [simStatus]
      split <;> exact ⟨rfl, rfl⟩
    · split at hline <;> cases hline <;> exact ⟨rfl, rfl⟩

theorem rfkill_lineParser {mm mm' : ModemManagerData} {now : ℤ} {stale : Option (List UInt8)}
    {chunk : List UInt8} (hparser : mm.lineParser now stale chunk = some mm') :
    mm'.rfkillCommands = mm.rfkillCommands ∧ mm'.modemRfkillState = mm.modemRfkillState := by
  obtain ⟨r, hloop, rfl⟩ := Option.map_eq_some_iff.mp hparser
  exact lineParserLoop_invariant
    (I := fun s => s.1.rfkillCommands = mm.rfkillCommands ∧
      s.1.modemRfkillState = mm.modemRfkillState)
    (fun s line s' hs hline =>
      have hkept := rfkill_parseLine hline
      ⟨hkept.1.trans hs.1, hkept.2.trans hs.2⟩) ⟨rfl, rfl⟩ hloop

end ModemManagerData

/-- Whether an operation is one on the reset line, or a wait. -/
def PowerOp.onReset : PowerOp → Bool
  | .wait _ => true
  | .set gpio _ => gpio = .reset
  | _ => false

/-- What is used of the order of the operations: after the rfkill line only the reset line is
set. -/
def RadioLast : List PowerOp → Prop
  | [] => True
  | op :: ops => (op = .set .rfKill false → ops.all PowerOp.onReset = true) ∧ RadioLast ops

instance : (ops : List PowerOp) → Decidable (RadioLast ops)
  | [] => isTrue trivial
  | op :: ops =>
    @instDecidableAnd (op = .set .rfKill false → ops.all PowerOp.onReset = true) (RadioLast ops)
      inferInstance (instDecidableRadioLast ops)

theorem radioLast_modemPowerInit : RadioLast modemPowerInit := by decide

/-- Whether a callback that does this next is between the comparison of the state and the line. -/
def CallbackOp.switching : CallbackOp → Bool
  | .rfkill .compare _ => false
  | .rfkill _ _ => true
  | _ => false

/-- The thread is past the power initialisation. -/
def WorkPoint.past : WorkPoint → Bool
  | .start | .powerInit _ => false
  | _ => true

namespace ModemWork
variable {hw : ManagerMainConfigData} {distro : Bool}

/-- The main loop is about to store the state or to set the line. -/
def Switching (s : ModemWork) : Prop := ∃ op ∈ s.callback.head?, op.switching = true

/-- Once the thread has set the line, and while the main loop does not switch, the line is at the
value of the rfkill state, if it could be requested. -/
def LineAgrees (hw : ManagerMainConfigData) (s : ModemWork) : Prop :=
  ¬s.Switching → s.radioOn = true → (s.gpio .rfKill).handle = .requested →
    (s.gpio .rfKill).value = some (level hw .rfKill s.manager.modemRfkillState)

/-- A call that sets the line sets it to the state, or fails when it is there already. -/
def SetsLine (hw : ManagerMainConfigData) (s : ModemWork) (ok state : Bool) : Prop :=
  if ok then state = s.manager.modemRfkillState
  else (s.gpio .rfKill).value = some (level hw .rfKill s.manager.modemRfkillState)

/-- The two calls that set the line of a modem that is on: that of the thread, which is not
followed by one of the main loop, and that of the main loop after it. -/
def KeepsLine (hw : ManagerMainConfigData) (s : ModemWork) : WorkEvent → Prop
  | .work ok _ => ∀ ops, s.point = .powerInit (.set .rfKill false :: ops) → ¬s.Switching →
      (s.gpio .rfKill).handle = .requested → SetsLine hw s ok false
  | .callback ok => ∀ state ops, s.callback = .rfkill .drive state :: ops → s.radioOn = true →
      (s.gpio .rfKill).handle = .requested → SetsLine hw s ok state
  | _ => True

/-- The thread sets the line last but for the reset line, and a callback begins no switch before
its turn. -/
structure RadioOrder (s : ModemWork) : Prop where
  start : s.point = .start → s.radioOn = false
  last : ∀ ops, s.point = .powerInit ops →
    RadioLast ops ∧ (s.radioOn = true → ops.all PowerOp.onReset = true)
  turn : ∀ op ∈ s.callback.tail, op.switching = false

theorem radioOrder_initial (userConfig : UserConfigData) : RadioOrder (initial userConfig) :=
  ⟨fun _ => rfl, fun _ h => (nomatch h), fun _ h => (nomatch h)⟩

theorem RadioOrder.of_past {s s' : ModemWork} (h : RadioOrder s) (hcallback : s'.callback = s.callback)
    (hpast : s'.point.past = true) : RadioOrder s' := by
  refine ⟨fun hpoint => ?_, fun ops hpoint => ?_, hcallback ▸ h.turn⟩ <;> rw [hpoint] at hpast <;>
    cases hpast

theorem RadioOrder.of_same {s s' : ModemWork} (h : RadioOrder s) (hpoint : s'.point = s.point)
    (hradio : s'.radioOn = s.radioOn) (hturn : ∀ op ∈ s'.callback.tail, op.switching = false) :
    RadioOrder s' := by
  obtain ⟨hstart, hlast, -⟩ := h
  rw [← hpoint, ← hradio] at hstart
  rw [← hpoint, ← hradio] at hlast
  exact ⟨hstart, hlast, hturn⟩

theorem level_injective (hw : ManagerMainConfigData) (gpio : ModemGpio) {a b : Bool} :
    level hw gpio a = level hw gpio b ↔ a = b := by
  simp [level]

theorem LineAgrees.of_same {s s' : ModemWork} (h : LineAgrees hw s)
    (hline : s'.gpio .rfKill = s.gpio .rfKill)
    (hstate : s'.manager.modemRfkillState = s.manager.modemRfkillState)
    (hradio : s'.radioOn = s.radioOn) (hswitching : s.Switching → s'.Switching) :
    LineAgrees hw s' := by
  rw [LineAgrees, hline, hstate, hradio]
  exact fun hidle => h (mt hswitching hidle)

theorem value_setValue_iff (s : ModemWork) (ok state : Bool)
    (hrequested : (s.gpio .rfKill).handle = .requested) :
    ((s.gpio .rfKill).setValue ok (level hw .rfKill state)).value =
        some (level hw .rfKill s.manager.modemRfkillState) ↔ SetsLine hw s ok state := by
  rw [ModemLine.setValue, hrequested, SetsLine]
  cases ok with
  | true =>
    rw [if_pos rfl, if_pos rfl, Option.some.injEq]
    exact level_injective hw .rfKill
  | false => rfl

theorem radioOn_powerStep (hw : ManagerMainConfigData) (ok : Bool) (s : ModemWork)
    (ops : List PowerOp) {op : PowerOp} (hother : op ≠ .set .rfKill false) :
    (s.powerStep hw ok ops op).radioOn = s.radioOn := by
  cases op with
  | wait time => cases time <;> rw [powerStep] <;> split <;> rfl
  | openChip gpio | getLine gpio =>
    rw [powerStep]
    split
    · rfl
    · split <;> rfl
  | set gpio active =>
    have hoff : (decide (gpio = .rfKill) && !active) = false := by
      by_contra hon
      rw [Bool.not_eq_false, Bool.and_eq_true, decide_eq_true_eq, Bool.not_eq_true'] at hon
      exact hother (by rw [hon.1, hon.2])
    rw [powerStep, hoff]
    exact Bool.or_false _
  | _ => rfl

theorem powerStep_onReset (hw : ManagerMainConfigData) (ok : Bool) (s : ModemWork)
    (ops : List PowerOp) {op : PowerOp} (h : op.onReset = true) :
    (s.powerStep hw ok ops op).gpio .rfKill = s.gpio .rfKill ∧
      (s.powerStep hw ok ops op).manager = s.manager := by
  cases op with
  | wait time => cases time <;> rw [powerStep] <;> split <;> exact ⟨rfl, rfl⟩
  | set gpio active =>
    have hreset : gpio = .reset := of_decide_eq_true h
    subst hreset
    exact ⟨by simp [powerStep], rfl⟩
  | _ => cases h

theorem switching_congr {s s' : ModemWork} (h : s'.callback = s.callback) :
    s'.Switching ↔ s.Switching := by
  rw [Switching, Switching, h]

theorem radioOrder_powerStep {s : ModemWork} {ops : List PowerOp} {op : PowerOp}
    (hpoint : s.point = .powerInit (op :: ops)) (h : RadioOrder s) (ok : Bool) :
    RadioOrder (s.powerStep hw ok ops op) := by
  obtain ⟨⟨hset, hrest⟩, hreset⟩ := h.last _ hpoint
  have hcallback := (powerStep_frame hw ok s ops op).2.1
  have hlast : (s.powerStep hw ok ops op).radioOn = true → ops.all PowerOp.onReset = true := by
    intro hon
    by_cases hsame : op = .set .rfKill false
    · exact hset hsame
    · have hall := hreset ((radioOn_powerStep hw ok s ops hsame).symm.trans hon)
      rw [List.all_cons, Bool.and_eq_true] at hall
      exact hall.2
  obtain hafter | hafter | ⟨-, time, time', hwait, hafter⟩ := powerStep_point hw ok s ops op
  · refine ⟨fun hs => (nomatch hafter.symm.trans hs), fun ops' hs => ?_, hcallback ▸ h.turn⟩
    rw [hafter] at hs
    cases hs
    exact ⟨hrest, hlast⟩
  · exact h.of_past hcallback (by rw [hafter]; rfl)
  · refine ⟨fun hs => (nomatch hafter.symm.trans hs), fun ops' hs => ?_, hcallback ▸ h.turn⟩
    rw [hafter] at hs
    cases hs
    exact ⟨⟨fun hsame => (nomatch hsame), hrest⟩, hlast⟩

/-- The power-up keeps the line with the state if it sets the line to it. -/
theorem lineAgrees_powerStep {s : ModemWork} {ops : List PowerOp} {op : PowerOp}
    (hpoint : s.point = .powerInit (op :: ops)) (horder : RadioOrder s) (h : LineAgrees hw s)
    (ok : Bool) :
    LineAgrees hw (s.powerStep hw ok ops op) ↔
      (op = .set .rfKill false → ¬s.Switching → (s.gpio .rfKill).handle = .requested →
        SetsLine hw s ok false) := by
  obtain ⟨-, hreset⟩ := horder.last _ hpoint
  have hcallback := (powerStep_frame hw ok s ops op).2.1
  by_cases hset : op = .set .rfKill false
  · subst hset
    have hon : (s.powerStep hw ok ops (.set .rfKill false)).radioOn = true := Bool.or_true _
    have hline : (s.powerStep hw ok ops (.set .rfKill false)).gpio .rfKill =
        (s.gpio .rfKill).setValue ok (level hw .rfKill false) := setLine_gpio_self s .rfKill _
    rw [LineAgrees, imp_iff_right hon, imp_iff_right rfl, switching_congr hcallback, hline,
      ModemLine.handle_setValue]
    exact forall_congr' fun _ => forall_congr' fun hrequested =>
      value_setValue_iff s ok false hrequested
  · refine iff_of_true ?_ fun hsame => absurd hsame hset
    have hradio := radioOn_powerStep hw ok s ops hset
    by_cases hon : s.radioOn = true
    · have hall := hreset hon
      rw [List.all_cons, Bool.and_eq_true] at hall
      obtain ⟨hline, hmanager⟩ := powerStep_onReset hw ok s ops hall.1
      exact h.of_same hline (congrArg _ hmanager) hradio (switching_congr hcallback).mpr
    · rw [LineAgrees, hradio]
      exact fun _ hset => absurd hset hon

theorem lineAgrees_closeLine {s : ModemWork} (h : LineAgrees hw s) (ok : Bool) (gpio : ModemGpio)
    (gpios : List ModemGpio) : LineAgrees hw (s.closeLine hw ok gpio gpios) := by
  by_cases hsame : gpio = .rfKill
  · subst hsame
    intro _ _ hrequested
    rw [closeLine, setLine_gpio_self] at hrequested
    cases hrequested
  · exact h.of_same (setLine_gpio_of_ne s _ (Ne.symm hsame)) rfl rfl id

theorem lineAgrees_work {s : ModemWork} (horder : RadioOrder s) (h : LineAgrees hw s) (ok : Bool)
    (moments : DialField → ℕ × ℕ) :
    LineAgrees hw (s.work hw ok moments) ↔ s.KeepsLine hw (.work ok moments) := by
  rw [KeepsLine]
  cases hpoint : s.point with
  | powerInit ops =>
    rw [work, hpoint]
    cases ops with
    | nil => exact iff_of_true (h.of_same rfl rfl rfl id) fun ops hops => by cases hops
    | cons op ops =>
      dsimp only
      rw [lineAgrees_powerStep hpoint horder h]
      constructor
      · intro hkeeps ops' hops
        cases hops
        exact hkeeps rfl
      · rintro hkeeps rfl
        exact hkeeps ops rfl
  | start | ready =>
    refine iff_of_true ?_ fun ops hops => by cases hops
    rw [work, hpoint]
    dsimp only
    split <;> exact h.of_same rfl rfl rfl id
  | scanning devs deviceType =>
    refine iff_of_true ?_ fun ops hops => by cases hops
    rw [work, hpoint]
    cases devs with
    | nil => exact h.of_same rfl rfl rfl id
    | cons dev devs =>
      obtain ⟨hgpio, hmanager, hcallback, hradio, -⟩ := scanStep_frame ok moments s devs deviceType dev
      exact h.of_same (congrFun hgpio _) (congrArg _ hmanager) hradio (switching_congr hcallback).mpr
  | closing gpios =>
    refine iff_of_true ?_ fun ops hops => by cases hops
    rw [work, hpoint]
    cases gpios with
    | nil => exact h
    | cons gpio gpios => exact lineAgrees_closeLine h ok gpio gpios
  | ended =>
    refine iff_of_true ?_ fun ops hops => by cases hops
    rw [work, hpoint]
    exact h

theorem RadioOrder.work {s : ModemWork} (h : RadioOrder s) (ok : Bool) (moments : DialField → ℕ × ℕ) :
    RadioOrder (s.work hw ok moments) := by
  rw [ModemWork.work]
  cases hpoint : s.point with
  | start =>
    dsimp only
    split
    · refine ⟨by simp, fun ops hs => ?_, h.turn⟩
      cases hs
      refine ⟨radioLast_modemPowerInit, fun hon => ?_⟩
      exact absurd ((h.start hpoint).symm.trans hon) Bool.false_ne_true
    · exact h.of_past rfl rfl
  | powerInit ops =>
    cases ops with
    | nil => exact h.of_past rfl rfl
    | cons op ops => exact radioOrder_powerStep hpoint h ok
  | ready =>
    dsimp only
    split
    · exact h
    · exact h.of_past rfl rfl
  | scanning devs deviceType =>
    cases devs with
    | nil => exact h.of_past rfl rfl
    | cons dev devs =>
      obtain ⟨-, -, hcallback, -, -, -, deviceType', hscan⟩ :=
        scanStep_frame ok moments s devs deviceType dev
      exact h.of_past hcallback (by rw [hscan]; rfl)
  | closing gpios =>
    cases gpios <;> exact h.of_past rfl rfl
  | ended => exact h

theorem not_switching {s : ModemWork} (h : ∀ op ∈ s.callback, op.switching = false) :
    ¬s.Switching := by
  rintro ⟨op, hop, hswitching⟩
  rw [h op (List.mem_of_head? hop)] at hswitching
  cases hswitching

/-- An access that begins no switch and sets no line, before others that begin none. -/
theorem LineAgrees.of_idle {s s' : ModemWork} {op : CallbackOp} {ops : List CallbackOp}
    (h : LineAgrees hw s) (hcallback : s.callback = op :: ops) (hop : op.switching = false)
    (hops : ∀ op ∈ ops, op.switching = false) (hline : s'.gpio .rfKill = s.gpio .rfKill)
    (hstate : s'.manager.modemRfkillState = s.manager.modemRfkillState)
    (hradio : s'.radioOn = s.radioOn) : LineAgrees hw s' := by
  refine h.of_same hline hstate hradio fun hswitching => absurd hswitching (not_switching ?_)
  rw [hcallback]
  exact List.forall_mem_cons.mpr ⟨hop, hops⟩

theorem lineAgrees_of_switching {s : ModemWork} {op : CallbackOp} {ops : List CallbackOp}
    (hcallback : s.callback = op :: ops) (hop : op.switching = true) : LineAgrees hw s := by
  refine fun hidle => absurd ⟨op, ?_, hop⟩ hidle
  rw [hcallback]
  exact rfl

/-- A callback keeps the line with the state if its call sets the line to it. -/
theorem lineAgrees_callbackStep {s : ModemWork} {op : CallbackOp} {ops : List CallbackOp}
    (hcallback : s.callback = op :: ops) (hops : ∀ op ∈ ops, op.switching = false)
    (h : LineAgrees hw s) (ok : Bool) :
    LineAgrees hw (s.callbackStep hw ok ops op) ↔ s.KeepsLine hw (.callback ok) := by
  rw [KeepsLine, hcallback]
  cases op with
  | rfkill phase state =>
    cases phase with
    | compare =>
      refine iff_of_true ?_ fun _ _ hdrive => by cases hdrive
      by_cases hsame : s.manager.modemRfkillState = state
      · exact h.of_idle hcallback rfl hops rfl rfl rfl
      · exact lineAgrees_of_switching (if_neg hsame) rfl
    | store =>
      refine iff_of_true ?_ fun _ _ hdrive => by cases hdrive
      exact lineAgrees_of_switching (by rfl) rfl
    | spawn =>
      refine iff_of_true ?_ fun _ _ hdrive => by cases hdrive
      exact lineAgrees_of_switching (by rfl) rfl
    | drive =>
      have hline : (s.callbackStep hw ok ops (.rfkill .drive state)).gpio .rfKill =
          (s.gpio .rfKill).setValue ok (level hw .rfKill state) := setLine_gpio_self s .rfKill _
      have hidle : ¬(s.callbackStep hw ok ops (.rfkill .drive state)).Switching := not_switching hops
      rw [LineAgrees, imp_iff_right hidle, hline, ModemLine.handle_setValue]
      constructor
      · rintro hagrees state' ops' hdrive hon hrequested
        cases hdrive
        exact (value_setValue_iff s ok state hrequested).mp (hagrees hon hrequested)
      · intro hkeeps hon hrequested
        exact (value_setValue_iff s ok state hrequested).mpr (hkeeps state ops rfl hon hrequested)
  | stdout now stale chunk =>
    refine iff_of_true ?_ fun _ _ hdrive => by cases hdrive
    refine h.of_idle hcallback rfl hops rfl ?_ rfl
    rw [callbackStep]
    cases hparser : s.manager.lineParser now stale chunk.bytes with
    | none => rfl
    | some mm => exact (ModemManagerData.rfkill_lineParser hparser).2
  | checkScan now config =>
    refine iff_of_true ?_ fun _ _ hdrive => by cases hdrive
    exact h.of_idle hcallback rfl hops rfl rfl rfl
  | endReset | storeDial field text =>
    refine iff_of_true ?_ fun _ _ hdrive => by cases hdrive
    exact h.of_idle hcallback rfl hops rfl rfl rfl

theorem radioOrder_callbackStep {s : ModemWork} {op : CallbackOp} {ops : List CallbackOp}
    (hcallback : s.callback = op :: ops) (h : RadioOrder s) (ok : Bool) :
    RadioOrder (s.callbackStep hw ok ops op) := by
  have hops : ∀ op ∈ ops, op.switching = false := by
    have hturn := h.turn
    rwa [hcallback] at hturn
  have htail : ∀ op ∈ ops.tail, op.switching = false := fun op hop => hops op (List.mem_of_mem_tail hop)
  cases op with
  | rfkill phase state =>
    cases phase with
    | compare =>
      refine h.of_same rfl rfl ?_
      rw [callbackStep]
      dsimp only
      split
      · exact htail
      · exact hops
    | store | spawn => exact h.of_same rfl rfl hops
    | drive => exact h.of_same rfl rfl htail
  | checkScan now config =>
    refine h.of_same rfl rfl ?_
    rw [callbackStep]
    dsimp only
    split
    · exact List.forall_mem_cons.mpr ⟨rfl, List.forall_mem_cons.mpr ⟨rfl, hops⟩⟩
    · exact htail
  | stdout now stale chunk => exact h.of_same rfl rfl htail
  | endReset => exact h.of_same rfl rfl htail
  | storeDial field text => exact h.of_same rfl rfl htail

theorem switching_ops (callback : MainCallback) : ∀ op ∈ callback.ops, op.switching = false := by
  intro op hop
  cases callback with
  | manager e =>
    cases e <;> rw [List.mem_singleton.mp hop] <;> rfl
  | networkSetup texts =>
    simp only [MainCallback.ops, List.mem_cons, List.not_mem_nil, or_false] at hop
    obtain rfl | rfl | rfl | rfl := hop <;> rfl

theorem RadioOrder.step {s : ModemWork} (h : RadioOrder s) (e : WorkEvent) :
    RadioOrder (s.step hw distro e) := by
  cases e with
  | work ok moments =>
    have hwork : RadioOrder (s.work hw ok moments) := h.work ok moments
    exact hwork.of_same rfl rfl hwork.turn
  | scan devs =>
    cases devs with
    | none =>
      rw [ModemWork.step]
      split <;> exact h
    | some devs =>
      rw [ModemWork.step]
      split
      · exact h.of_past rfl rfl
      · exact h
  | dispatch callback =>
    rw [ModemWork.step]
    split
    · exact h.of_same rfl rfl fun op hop => switching_ops callback op (List.mem_of_mem_tail hop)
    · exact h
  | callback ok =>
    rw [ModemWork.step]
    split
    · exact h
    · rename_i hcallback
      exact radioOrder_callbackStep hcallback h ok
  | processExit id => exact h.of_same rfl rfl h.turn
  | processWait id | uninit =>
    rw [ModemWork.step]
    split
    · exact h.of_same rfl rfl h.turn
    · exact h

theorem lineAgrees_step {s : ModemWork} (horder : RadioOrder s) (h : LineAgrees hw s)
    (e : WorkEvent) : LineAgrees hw (s.step hw distro e) ↔ s.KeepsLine hw e := by
  cases e with
  | work ok moments => exact lineAgrees_work horder h ok moments
  | scan devs =>
    refine iff_of_true ?_ trivial
    cases devs <;> rw [step] <;> split <;> exact h
  | dispatch callback =>
    refine iff_of_true ?_ trivial
    rw [step]
    split
    · rename_i hidle
      have hbefore : s.callback = [] := List.isEmpty_iff.mp hidle.2
      refine h.of_same rfl rfl rfl fun hswitching => absurd hswitching (not_switching ?_)
      rw [hbefore]
      exact List.forall_mem_nil _
    · exact h
  | callback ok =>
    rw [step]
    split
    · rename_i hnone
      refine iff_of_true h fun state ops hdrive => ?_
      rw [hnone] at hdrive
      cases hdrive
    · rename_i op ops hcallback
      have hops := horder.turn
      rw [hcallback] at hops
      exact lineAgrees_callbackStep hcallback hops h ok
  | processExit id => exact iff_of_true h trivial
  | processWait id | uninit =>
    refine iff_of_true ?_ trivial
    rw [step]
    split <;> exact h

/-- Once the thread has switched the radio on, the rfkill line shows the rfkill state at every
moment of a run but within a switch of the main loop, if it could be requested, exactly when
each of the two calls that set it finds the state that it sets, or fails with the line there. -/
theorem rfkill_line_iff (hw : ManagerMainConfigData) (distro : Bool) (userConfig : UserConfigData)
    (events : List WorkEvent) :
    Along (step hw distro) (fun s e => LineAgrees hw (s.step hw distro e)) (initial userConfig)
        events ↔
      Along (step hw distro) (KeepsLine hw) (initial userConfig) events :=
  along_iff (I := fun s => RadioOrder s ∧ LineAgrees hw s)
    (fun _ e h hnext => ⟨h.1.step e, hnext⟩) (fun _ e h => lineAgrees_step h.1 h.2 e)
    ⟨radioOrder_initial userConfig, fun _ hon => nomatch hon⟩ events

-- Rfkill is set in the first wait; after the power-up the radio is on.
example :
    let s := run (step oneChip false) (initial {}) (List.replicate 20 (.work true) ++
      .dispatch (.manager (.rfkillModeSet true)) :: List.replicate 4 (.callback true) ++
      List.replicate 120 (.work true))
    s.point = .ready ∧ s.manager.modemRfkillState = true ∧
      (s.gpio .rfKill).value = some (level oneChip .rfKill false) := by
  decide +kernel

end ModemWork
end PcatManager
