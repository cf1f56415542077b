import SC04Monitor.UserApp.ChargeInterlock

/-! # The charge-enable command

`HmiInputUpdate` keeps in `Charge_Enable` whether the operator allows a module to charge.
The state machine of the module reads the other inputs and not this one: a disabled module
is started like any other. -/

namespace SC04Monitor.UserApp
open SC04Monitor.Lib.Run SC04Monitor.Can

/-! ## The command -/

namespace Logic

/-- The charge-enable command that `HmiInputUpdate` consumes: its module and its value. -/
def enableCommand (s : Logic) : Option (ModuleId × UInt16) :=
  if s.hmiAddr = some .chargeEn then
    (moduleOf s.hmi.ctrCmd.chargeEn.cmd1).map fun k => (k, s.hmi.ctrCmd.chargeEn.cmd2)
  else none

/-- A disable command clears `Charge_Enable`. -/
theorem hmiInputUpdate_disable (s : Logic) (k : ModuleId) (h : s.enableCommand = some (k, 2)) :
    (s.hmiInputUpdate.lga.cbSys k).input.chargeEnable = false := by
  unfold enableCommand at h
  split_ifs at h with ha
  obtain ⟨j, hj, he⟩ := Option.map_eq_some_iff.mp h
  simp only [Prod.mk.injEq] at he
  obtain ⟨rfl, hv⟩ := he
  unfold hmiInputUpdate
  rw [ha]
  simp [lower, setInputOf_cbSys, hj, setChargeEnable, hv]

/-- Only an enable command sets it. -/
theorem hmiInputUpdate_chargeEnable (s : Logic) (k : ModuleId)
    (h : s.enableCommand ≠ some (k, 1)) (h0 : (s.lga.cbSys k).input.chargeEnable = false) :
    (s.hmiInputUpdate.lga.cbSys k).input.chargeEnable = false := by
  unfold hmiInputUpdate
  dsimp only
  split
  next ha =>
    simp only [lower, setInputOf_cbSys]
    split_ifs with hm
    · unfold setChargeEnable
      split_ifs with h1
      · refine absurd ?_ h
        simp [enableCommand, ha, hm, h1]
      · rfl
      · exact h0
    · exact h0
  · simp only [lower, setInputOf_cbSys]
    split_ifs <;> exact h0
  all_goals exact h0

end Logic

/-! ## Which output mode the state machine selects -/

/-- The inputs of a module with `Charge_Enable` set to `b`. -/
def CbIn.withChargeEnable (i : CbIn) (b : Bool) : CbIn :=
  { i with sys := { i.sys with input := { i.sys.input with chargeEnable := b } } }

namespace CbMode

/-- `ModuleManage` selects manual charging. -/
def SelectsManual (i : CbIn) (m : CbMode) : Prop :=
  m.state = .idle ∧ i.sys.input.fault = false ∧ i.sys.input.chargeModeSet = chargeModeManual ∨
    i.cb1Fault = false ∧ i.systemState = .standby ∧
      (m.state = .manual ∧ i.sys.input.chargeModeSet ≠ chargeModeAuto ∧
          i.sys.input.chargeModeSet ≠ chargeModeStandby ∨
        m.state = .auto ∧ i.sys.input.chargeModeSet = chargeModeManual)

/-- `ModuleManage` selects automatic charging. -/
def SelectsAuto (i : CbIn) (m : CbMode) : Prop :=
  m.state = .idle ∧ i.sys.input.fault = false ∧ i.sys.input.chargeModeSet = chargeModeAuto ∨
    i.cb1Fault = false ∧ i.systemState = .standby ∧
      (m.state = .manual ∧ i.sys.input.chargeModeSet = chargeModeAuto ∨
        m.state = .auto ∧ i.sys.input.chargeModeSet ≠ chargeModeManual)

variable {i : CbIn} {m : CbMode}

theorem selectsManual_iff : (m.moduleManage i).outputMode = .manual ↔ SelectsManual i m := by
  have ham : chargeModeAuto ≠ chargeModeManual := by decide
  unfold moduleManage SelectsManual
  cases m.state with
  | idle | manual | auto | fault =>
    simp only
    split_ifs <;> simp_all [goto]

theorem selectsAuto_iff : (m.moduleManage i).outputMode = .auto ↔ SelectsAuto i m := by
  unfold moduleManage SelectsAuto
  cases m.state with
  | idle | manual | auto | fault =>
    simp only
    split_ifs <;> simp_all [goto]

/-- A call does the same whatever `Charge_Enable` is. -/
theorem cbCtrl_chargeEnable (cmd : UInt8) (b : Bool) :
    m.cbCtrl (i.withChargeEnable b) cmd = m.cbCtrl i cmd := rfl

end CbMode

/-! ## Runs -/

section
variable (ins : Nat → TickIn) (k : ModuleId) (n₀ n : Nat)

/-- The charge-enable command consumed in tick `n`. -/
def enableConsumed : Option (ModuleId × UInt16) :=
  (((logicAt ins n).environment (ins n)).digitalInputUpdate (ins n)).enableCommand

/-- Tick `n` lies behind a disable command for module `k` that tick `n₀` consumes, and no
enable command for it has been consumed since. -/
def DisabledPeriod : Prop :=
  n₀ ≤ n ∧ enableConsumed ins n₀ = some (k, 2) ∧
    ∀ j, n₀ < j → j ≤ n → enableConsumed ins j ≠ some (k, 1)

/-- A disabled module is not told to start. -/
def DisableObeyed : Prop := ∀ n₀ n, DisabledPeriod ins k n₀ n → ¬ (callAt ins n k).Starts

/-- The tick finds the module without current, and it is in manual charging, or in
automatic charging in the station with its start delay run out. -/
def StartSelected : Prop :=
  (cbInAt ins n k).sys.input.charging = false ∧
    (CbMode.SelectsManual (cbInAt ins n k) ((logicAt ins n).cb k) ∨
      CbMode.SelectsAuto (cbInAt ins n k) ((logicAt ins n).cb k) ∧
        (cbInAt ins n k).sys.input.instation = true ∧ ((logicAt ins n).cb k).startDelay = 0)

variable {ins k n₀ n}

/-- In the period `Charge_Enable` is clear whenever the state machines run. -/
theorem chargeEnable_of_disabled (h : DisabledPeriod ins k n₀ n) :
    (cbInAt ins n k).sys.input.chargeEnable = false := by
  obtain ⟨hle, h0, hno⟩ := h
  induction n, hle using Nat.le_induction with
  | base => exact Logic.hmiInputUpdate_disable _ k h0
  | succ n hn ih =>
    have hbefore : (cbInAt ins n k).sys.input.chargeEnable = false :=
      ih fun j h₁ h₂ => hno j h₁ (by omega)
    have hkept : ((logicAt ins (n + 1)).lga.cbSys k).input.chargeEnable = false := by
      rw [logicAt_succ, (Logic.tick_cbSys _ _ k).1]
      exact hbefore
    exact Logic.hmiInputUpdate_chargeEnable _ k (hno (n + 1) (by omega) (Nat.le_refl _)) hkept

theorem starts_iff_selected : (callAt ins n k).Starts ↔ StartSelected ins k n := by
  unfold StartSelected
  rw [callAt_eq, CbMode.cbCtrl_starts_iff, CbMode.selectsManual_iff, CbMode.selectsAuto_iff]
  unfold AutoReady
  rw [cbInAt_chargeComplet]
  simp only [true_and]

end

/-- In a run no disabled module is started exactly if no tick of a disabled period finds a
module without current for which the state machine selects manual charging, or automatic
charging with the module in the station and its start delay run out. `Charge_Enable` is
clear all that time, and the state machine does the same as if it were set. -/
theorem disable_obeyed_iff (ins : Nat → TickIn) :
    ((∀ k, DisableObeyed ins k) ↔
        ∀ k n₀ n, DisabledPeriod ins k n₀ n → ¬ StartSelected ins k n) ∧
      ∀ k n₀ n, DisabledPeriod ins k n₀ n →
        (cbInAt ins n k).sys.input.chargeEnable = false ∧
          callAt ins n k = ((logicAt ins n).cb k).cbCtrl ((cbInAt ins n k).withChargeEnable true)
            ((logicAt ins n).lga.chargeCmd k).cmd := by
  constructor
  · refine forall_congr' fun k => forall_congr' fun n₀ => forall_congr' fun n => ?_
    rw [starts_iff_selected]
  · intro k n₀ n h
    refine ⟨chargeEnable_of_disabled h, ?_⟩
    rw [CbMode.cbCtrl_chargeEnable, callAt_eq]

/-- The touch screen sends a charge-enable command for module `k`. -/
def writeEnable (k : ModuleId) (v : UInt16) (h : Hmi) : Hmi :=
  { h with
    wAddrFlag := Function.update h.wAddrFlag .chargeEn true
    ctrCmd := { h.ctrCmd with chargeEn := ⟨UInt16.ofNat (k + 1), v⟩ } }

/-- The operator disables module 1 before tick 0 and sends MANUAL for it before tick 1. -/
def disabledManual : Nat → TickIn
  | 0 => { quietTick with modbus := writeEnable 0 2 }
  | 1 => { quietTick with modbus := writeMode 0 chargeModeManual }
  | _ => quietTick

/-- The disabled module is told to start in tick 1. -/
theorem disabled_module_starts :
    DisabledPeriod disabledManual 0 0 1 ∧ (callAt disabledManual 1 0).Starts ∧
      ¬ DisableObeyed disabledManual 0 := by
  have hperiod : DisabledPeriod disabledManual 0 0 1 := by
    refine ⟨Nat.zero_le 1, by decide +kernel, fun j h₁ h₂ => ?_⟩
    obtain rfl : j = 1 := by omega
    decide +kernel
  have hstart : (callAt disabledManual 1 0).Starts := by decide +kernel
  exact ⟨hperiod, hstart, fun h => h 0 1 hperiod hstart⟩

end SC04Monitor.UserApp
