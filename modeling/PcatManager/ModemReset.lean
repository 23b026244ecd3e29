import PcatManager.ModemManager

/-!
# The reset after a lost 5G connection

The timer counts from the last 5G report, since the test for a downgrade looks for an
upgrade. It is right when no tick finds a 5G report that has grown too old before the
connection has been lost for as long.
-/

namespace PcatManager.ModemManagerData
open GuardedRun

/-- The reports of a history. -/
def reports (history : List ModemHistory) : List (ModemMode × ℤ) :=
  history.filterMap fun
    | .reported mode time => some (mode, time)
    | .autoReset => none

/-- The reports end with one of 5G and, after it, some below 5G, the first of them more
than `timeout` seconds before `now`. -/
def LostFor (reports : List (ModemMode × ℤ)) (now : ℤ) (timeout : ℕ) : Prop :=
  ∃ before time first rest, reports = before ++ (.fiveG, time) :: first :: rest ∧
    (∀ report ∈ first :: rest, report.1 ≠ .fiveG) ∧ first.2 + timeout * 1000000 < now

/-- The time of the last 5G report since the last reset. -/
def lastFiveG (history : List ModemHistory) : Option ℤ :=
  history.foldl
    (fun last item =>
      match item with
      | .reported mode time => if mode = .fiveG then some time else last
      | .autoReset => none)
    none

@[simp] theorem lastFiveG_reported (history : List ModemHistory) (mode : ModemMode) (time : ℤ) :
    lastFiveG (history ++ [.reported mode time]) =
      if mode = .fiveG then some time else lastFiveG history := by
  simp [lastFiveG]

@[simp] theorem lastFiveG_autoReset (history : List ModemHistory) :
    lastFiveG (history ++ [.autoReset]) = none := by
  simp [lastFiveG]

/-- What the manager remembers of its 5G connection is the last report of it since the last
reset. -/
structure CountsFromReport (mm : ModemManagerData) : Prop where
  connected : mm.modemHave5gConnected = (lastFiveG mm.history).isSome
  timestamp : ∀ t ∈ lastFiveG mm.history, mm.modem5gConnectionTimestamp = t

theorem countsFromReport_initial : ({} : ModemManagerData).CountsFromReport :=
  ⟨rfl, fun _ h => nomatch h⟩

/-- The downgrade flag is set only once 5G has been reported in the same callback. -/
def FlagAfterReport (now : ℤ) (s : ModemManagerData × Bool) : Prop :=
  s.2 = true → lastFiveG s.1.history = some now

theorem CountsFromReport.modeReported {mm : ModemManagerData} (h : mm.CountsFromReport)
    {flag : Bool} {now : ℤ} (hflag : FlagAfterReport now (mm, flag)) (mode : ModemMode) :
    (mm.modeReported flag mode now).1.CountsFromReport ∧
      FlagAfterReport now (mm.modeReported flag mode now) := by
  rw [ModemManagerData.modeReported]
  dsimp only
  by_cases hmode : mode = .fiveG
  · rw [if_pos hmode]
    subst hmode
    exact ⟨⟨by simp, by simp⟩, fun _ => by simp⟩
  · rw [if_neg hmode]
    have hsame : (flag || (decide (mode = .fiveG) &&
        decide (mm.modemMode.value < ModemMode.fiveG.value))) = flag := by simp [hmode]
    rw [hsame]
    split
    · rename_i hdown
      rw [Bool.and_eq_true] at hdown
      have hlast := hflag hdown.2
      exact ⟨⟨by simp [hmode, h.connected], by simp [hmode, hlast]⟩, fun _ => by simp [hmode, hlast]⟩
    · exact ⟨⟨by simp [hmode, h.connected], by simpa [hmode] using h.timestamp⟩,
        fun hf => by simpa [hmode] using hflag hf⟩

/-- Only a `SIGNALINFO` line changes what is remembered of the 5G connection. -/
theorem CountsFromReport.parseLine {s s' : ModemManagerData × Bool} {now : ℤ} {line : List UInt8}
    (h : s.1.CountsFromReport ∧ FlagAfterReport now s) (hline : parseLine now s line = some s') :
    s'.1.CountsFromReport ∧ FlagAfterReport now s' := by
  obtain ⟨mm, flag⟩ := s
  rw [ModemManagerData.parseLine] at hline
  dsimp only at hline
  split at hline
  · obtain ⟨smode, -, rfl⟩ := Option.map_eq_some_iff.mp hline
    have hreported := h.1.modeReported h.2 ((modemModeTable.lookup smode).getD .none)
    exact ⟨⟨hreported.1.connected, hreported.1.timestamp⟩, hreported.2⟩
  · split at hline
    · cases hline
      rw [simStatus]
      split
      · exact ⟨⟨h.1.connected, h.1.timestamp⟩, h.2⟩
      · exact h
    · split at hline
      · cases hline
        exact ⟨⟨h.1.connected, h.1.timestamp⟩, h.2⟩
      · cases hline
        exact h

theorem lineParserLoop_invariant {σ : Type*} {parse : σ → List UInt8 → Option σ} {I : σ → Prop}
    (hparse : ∀ s line s', I s → parse s line = some s' → I s') {str rest : List UInt8}
    {i usedSize start : ℕ} {stale : Option (List UInt8)} {s : σ} {r : ℕ × σ} (hs : I s)
    (hloop : lineParserLoop parse str rest i usedSize start stale s = some r) : I r.2 := by
  induction rest generalizing i usedSize start stale s with
  | nil =>
    cases hloop
    exact hs
  | cons b rest ih =>
    rw [lineParserLoop] at hloop
    split at hloop
    · obtain ⟨s', hline, hrest⟩ := Option.bind_eq_some_iff.mp hloop
      exact ih (hparse _ _ _ hs hline) hrest
    · exact ih hs hloop

theorem CountsFromReport.lineParser {mm mm' : ModemManagerData} (h : mm.CountsFromReport)
    {now : ℤ} {stale : Option (List UInt8)} {chunk : List UInt8}
    (hparser : mm.lineParser now stale chunk = some mm') : mm'.CountsFromReport := by
  obtain ⟨r, hloop, rfl⟩ := Option.map_eq_some_iff.mp hparser
  have hr := lineParserLoop_invariant
    (I := fun s => s.1.CountsFromReport ∧ FlagAfterReport now s)
    (fun s line s' hs hline => CountsFromReport.parseLine hs hline)
    ⟨h, fun hflag => absurd hflag Bool.false_ne_true⟩ hloop
  exact ⟨hr.1.connected, hr.1.timestamp⟩

theorem CountsFromReport.rfkillModeSet {mm : ModemManagerData} (h : mm.CountsFromReport)
    (state : Bool) : (mm.rfkillModeSet state).CountsFromReport := by
  rw [ModemManagerData.rfkillModeSet]
  split
  · exact h
  · exact ⟨h.connected, h.timestamp⟩

/-- The timer resets the modem. -/
def Expired (mm : ModemManagerData) (now : ℤ) (config : UserConfigData) : Prop :=
  config.modemDisable5gFailAutoReset = false ∧ mm.modemHave5gConnected = true ∧
    mm.modemRfkillState = false ∧
    mm.modem5gConnectionTimestamp + config.modem5gFailTimeout.toNat * 1000000 < now

theorem scanTimeout_of_not_expired {mm : ModemManagerData} {now : ℤ} {config : UserConfigData}
    (h : ¬mm.Expired now config) : mm.scanTimeout now config = mm := by
  rw [scanTimeout]
  split
  · split
    · split
      · rename_i henabled hconnected hlate
        rw [Bool.not_eq_true'] at henabled
        rw [Bool.and_eq_true, Bool.not_eq_true'] at hconnected
        exact absurd ⟨henabled, hconnected.1, hconnected.2, hlate⟩ h
      · rfl
    · rfl
  · rfl

theorem scanTimeout_of_expired {mm : ModemManagerData} {now : ℤ} {config : UserConfigData}
    (h : mm.Expired now config) :
    mm.scanTimeout now config =
      { mm with
        modemHave5gConnected := false
        rfkillCommands := mm.rfkillCommands ++ [true] ++ [false]
        history := mm.history ++ [.autoReset] } := by
  obtain ⟨henabled, hconnected, hrfkill, hlate⟩ := h
  rw [scanTimeout, henabled, hconnected, hrfkill, if_pos (by rfl), if_pos (by rfl), if_pos hlate]
  simp [rfkillModeSet, hrfkill]

theorem CountsFromReport.scanTimeout {mm : ModemManagerData} (h : mm.CountsFromReport)
    (now : ℤ) (config : UserConfigData) : (mm.scanTimeout now config).CountsFromReport := by
  by_cases hexpired : mm.Expired now config
  · rw [scanTimeout_of_expired hexpired]
    exact ⟨by simp, by simp⟩
  · rwa [scanTimeout_of_not_expired hexpired]

theorem CountsFromReport.step {mm mm' : ModemManagerData} (h : mm.CountsFromReport) {e : Event}
    (hstep : mm.step e = some mm') : mm'.CountsFromReport := by
  cases e with
  | stdout now stale chunk => exact h.lineParser hstep
  | rfkillModeSet state =>
    cases hstep
    exact h.rfkillModeSet state
  | scanTimeout now config =>
    cases hstep
    exact h.scanTimeout now config

/-- A callback in a run. Nothing happens any more once the program has crashed. -/
def runStep (s : Option ModemManagerData) (e : Event) : Option ModemManagerData :=
  s.bind fun mm => mm.step e

/-- If this callback is a tick of the reset timer and switches rfkill, 5G was lost long
enough ago. -/
def ResetsAfterLoss (s : Option ModemManagerData) : Event → Prop
  | .scanTimeout now config =>
    ∀ mm ∈ s, (mm.scanTimeout now config).rfkillCommands ≠ mm.rfkillCommands →
      LostFor (reports mm.history) now config.modem5gFailTimeout.toNat
  | _ => True

/-- If this callback is a tick of the reset timer that finds the reset enabled, rfkill off
and the last 5G report, made since the last reset, older than the timeout, then 5G was lost
long enough ago. -/
def OldReportLost (s : Option ModemManagerData) : Event → Prop
  | .scanTimeout now config =>
    ∀ mm ∈ s, config.modemDisable5gFailAutoReset = false → mm.modemRfkillState = false →
      ∀ time ∈ lastFiveG mm.history, time + config.modem5gFailTimeout.toNat * 1000000 < now →
        LostFor (reports mm.history) now config.modem5gFailTimeout.toNat
  | _ => True

theorem rfkillCommands_ne_iff (mm : ModemManagerData) (now : ℤ) (config : UserConfigData) :
    (mm.scanTimeout now config).rfkillCommands ≠ mm.rfkillCommands ↔ mm.Expired now config := by
  by_cases h : mm.Expired now config
  · rw [scanTimeout_of_expired h]
    exact iff_of_true (by simp) h
  · rw [scanTimeout_of_not_expired h]
    exact iff_of_false (not_not.mpr rfl) h

/-- The timer resets only a modem that has lost 5G for longer than the timeout exactly when
no tick finds an old 5G report of a modem that has not. -/
theorem resets_after_loss_iff (events : List Event) :
    Along runStep ResetsAfterLoss (some {}) events ↔
      Along runStep OldReportLost (some {}) events := by
  refine along_congr (I := fun s => ∀ mm ∈ s, mm.CountsFromReport) ?_ ?_ ?_ events
  · intro s e hs mm' hmm'
    obtain ⟨mm, hmm, hstep⟩ := Option.bind_eq_some_iff.mp hmm'
    exact (hs mm hmm).step hstep
  · intro s e hs
    cases e with
    | stdout now stale chunk => exact Iff.rfl
    | rfkillModeSet state => exact Iff.rfl
    | scanTimeout now config =>
      refine forall₂_congr fun mm hmm => ?_
      rw [rfkillCommands_ne_iff]
      have hcounts := hs mm hmm
      constructor
      · intro h henabled hrfkill time htime hlate
        refine h ⟨henabled, ?_, hrfkill, ?_⟩
        · rw [hcounts.connected, Option.mem_def.mp htime]
          rfl
        · rwa [hcounts.timestamp time htime]
      · rintro h ⟨henabled, hconnected, hrfkill, hlate⟩
        rw [hcounts.connected, Option.isSome_iff_exists] at hconnected
        obtain ⟨time, htime⟩ := hconnected
        refine h henabled hrfkill time htime ?_
        rwa [hcounts.timestamp time htime] at hlate
  · intro mm hmm
    cases hmm
    exact countsFromReport_initial

theorem LostFor.two_le_length {reports : List (ModemMode × ℤ)} {now : ℤ} {timeout : ℕ}
    (h : LostFor reports now timeout) : 2 ≤ reports.length := by
  obtain ⟨before, time, first, rest, rfl, -, -⟩ := h
  rw [List.length_append, List.length_cons, List.length_cons]
  omega

/-- A single 5G report, and a tick after ten quiet minutes. -/
def quietRun : List Event :=
  [.stdout 0 none ⟨utf8Bytes "CMD=SIGNALINFO,MODE=NR5G-SA\n", by decide +kernel, by decide +kernel⟩,
    .scanTimeout 600000001 { modem5gFailTimeout := 600 }]

/-- The manager after the report. -/
def quietModem : ModemManagerData where
  modemMode := .fiveG
  modemHave5gConnected := true
  history := [.reported .fiveG 0]

/-- A modem whose latest report is 5G is reset. -/
theorem quiet_modem_reset : ¬Along runStep ResetsAfterLoss (some {}) quietRun := by
  intro h
  have hreport : runStep (some {}) (quietRun.head (by decide)) = some quietModem := by
    decide +kernel
  have hlost : LostFor [(.fiveG, 0)] 600000001 600 :=
    h.2.1 quietModem hreport (by decide +kernel)
  exact absurd hlost.two_le_length (by decide)

end PcatManager.ModemManagerData
