import SC04Monitor.UserApp.LogicTick

/-! # When a module is told to start

Two interlocks over whole runs. A start needs the system in STANDBY: MANUAL and
AUTO check that before they select an output mode, IDLE does not, and its choice
runs in the same tick. A standby command of the operator ends every charge: IDLE
and MANUAL obey it, AUTO does not look at it. Both theorems say exactly in which
ticks the interlock fails.

`modeAt_of_period` carries the operator's command from the tick that consumes it
to the end of its period; `startDelay_of_idle` says what the first tick makes of
the delays. -/

namespace SC04Monitor.UserApp
open SC04Monitor.Lib.ByteMem SC04Monitor.Lib.Run SC04Monitor.Lib.Scan SC04Monitor.Can

/-! ## The delays after the first tick -/

section
variable (ins : Nat → TickIn)

/-- After the first tick the start delay of a module in IDLE is loaded. -/
theorem startDelay_of_idle {n : Nat} {k : ModuleId} (hn : 0 < n)
    (h : ((logicAt ins n).cb k).state = .idle) :
    ((logicAt ins n).cb k).startDelay = chargeStartT := by
  obtain ⟨m, rfl⟩ : ∃ m, n = m + 1 := ⟨n - 1, by omega⟩
  rw [logicAt_succ, Logic.tick_cb] at h ⊢
  rw [show (logicAt ins m).call (ins m) k = callAt ins m k from rfl, callAt_eq] at h ⊢
  rw [CbMode.cbCtrl_state, ← CbMode.moduleManage_agrees] at h
  apply CbMode.outputManage_loaded
  left
  generalize hout : CbMode.outputMode _ = o at h ⊢
  cases o with
  | idle => rfl
  | _ => cases h

end

/-! ## The start interlock -/

section
variable (ins : Nat → TickIn) (n : Nat) (k : ModuleId)

/-- A start command is issued only while the system is in STANDBY. -/
def StartInterlock : Prop := (callAt ins n k).Starts → (cbInAt ins n k).systemState = .standby

/-- The tick finds the module in IDLE without a fault of its own and without
current, the system is not in STANDBY, and the operator's mode is MANUAL, or it
is AUTO in the very first tick with the vehicle in the station. -/
def UncheckedStart : Prop :=
  ((logicAt ins n).cb k).state = .idle ∧ (cbInAt ins n k).sys.input.fault = false ∧
    (cbInAt ins n k).sys.input.charging = false ∧ (cbInAt ins n k).systemState ≠ .standby ∧
    ((cbInAt ins n k).sys.input.chargeModeSet = chargeModeManual ∨
      n = 0 ∧ (cbInAt ins n k).sys.input.chargeModeSet = chargeModeAuto ∧
        (cbInAt ins n k).sys.input.instation = true)

/-- Outside STANDBY only IDLE can select an output mode that starts a module. -/
theorem CbMode.starts_outside_standby {i : CbIn} {m : CbMode} {cmd : UInt8}
    (hs : i.systemState ≠ .standby) :
    (m.cbCtrl i cmd).Starts ↔ m.state = .idle ∧ i.sys.input.fault = false ∧
      i.sys.input.charging = false ∧ (i.sys.input.chargeModeSet = chargeModeManual ∨
        i.sys.input.chargeModeSet = chargeModeAuto ∧ AutoReady i m) := by
  rw [CbMode.cbCtrl_starts_iff]
  unfold CbMode.moduleManage
  cases hm : m.state with
  | idle =>
    have hne : chargeModeAuto ≠ chargeModeManual := by decide
    simp only
    split_ifs <;> simp_all [CbMode.goto]
  | manual | auto | fault =>
    simp only
    split_ifs <;> simp_all [CbMode.goto]

/-- In IDLE the start delay of AUTO has run out only in the very first tick. -/
theorem autoReady_of_idle (h : ((logicAt ins n).cb k).state = .idle) :
    AutoReady (cbInAt ins n k) ((logicAt ins n).cb k) ↔
      n = 0 ∧ (cbInAt ins n k).sys.input.instation = true := by
  unfold AutoReady
  constructor
  · rintro ⟨hin, _, hd⟩
    refine ⟨?_, hin⟩
    by_contra hn
    rw [startDelay_of_idle ins (Nat.pos_of_ne_zero hn) h] at hd
    cases hd
  · rintro ⟨rfl, hin⟩
    exact ⟨hin, cbInAt_chargeComplet ins 0 k, rfl⟩

theorem not_startInterlock_iff : ¬ StartInterlock ins n k ↔ UncheckedStart ins n k := by
  unfold StartInterlock UncheckedStart
  rw [callAt_eq, Classical.not_imp]
  constructor
  · rintro ⟨hst, hs⟩
    obtain ⟨hidle, hf, hc, hmode⟩ := (CbMode.starts_outside_standby hs).mp hst
    rw [autoReady_of_idle ins n k hidle] at hmode
    refine ⟨hidle, hf, hc, hs, hmode.imp id ?_⟩
    rintro ⟨ha, h0, hin⟩
    exact ⟨h0, ha, hin⟩
  · rintro ⟨hidle, hf, hc, hs, hmode⟩
    refine ⟨(CbMode.starts_outside_standby hs).mpr ⟨hidle, hf, hc, ?_⟩, hs⟩
    rw [autoReady_of_idle ins n k hidle]
    refine hmode.imp id ?_
    rintro ⟨h0, ha, hin⟩
    exact ⟨ha, h0, hin⟩

end

/-- **The start interlock.** In every run and every tick a module is started
outside STANDBY exactly when the tick finds it in IDLE and the mode command is
obeyed at once. -/
theorem start_interlock_iff (ins : Nat → TickIn) :
    (∀ n k, StartInterlock ins n k) ↔ ∀ n k, ¬ UncheckedStart ins n k := by
  constructor
  · intro h n k hu
    exact (not_startInterlock_iff ins n k).mpr hu (h n k)
  · intro h n k
    by_contra hn
    exact h n k ((not_startInterlock_iff ins n k).mp hn)

theorem start_interlock_power_on : ¬ StartInterlock manualAtPowerOn 0 0 := by
  rw [not_startInterlock_iff]
  refine ⟨rfl, by decide, by decide, by decide, .inl (by decide)⟩

/-! ## The standby command of the operator -/

section
variable (ins : Nat → TickIn)

/-- The mode command consumed in tick `n`. -/
def consumed (n : Nat) : Option (ModuleId × UInt16) :=
  (((logicAt ins n).environment (ins n)).digitalInputUpdate (ins n)).modeCommand

/-- Tick `n` lies in the period that begins when tick `n₀` consumes a standby
command for module `k` and ends before the next mode command for it. -/
def StandbyPeriod (n₀ n : Nat) (k : ModuleId) : Prop :=
  n₀ ≤ n ∧ consumed ins n₀ = some (k, chargeModeStandby) ∧
    ∀ j, n₀ < j → j ≤ n → ∀ v, consumed ins j ≠ some (k, v)

/-- The module is not told to start and, if it charges, told to stop. -/
def ObeysStandby (n : Nat) (k : ModuleId) : Prop :=
  ¬ (callAt ins n k).Starts ∧
    ((cbInAt ins n k).sys.input.charging = true → (callAt ins n k).Stops)

/-- The tick keeps the module in AUTO, in the station, and either the module does
not charge and its start delay has run out, or it charges and the float charge
has not ended. -/
def IgnoresStandby (n : Nat) (k : ModuleId) : Prop :=
  ((logicAt ins n).cb k).state = .auto ∧ (cbInAt ins n k).cb1Fault = false ∧
    (cbInAt ins n k).systemState = .standby ∧ (cbInAt ins n k).sys.input.instation = true ∧
    ((cbInAt ins n k).sys.input.charging = false ∧ ((logicAt ins n).cb k).startDelay = 0 ∨
      (cbInAt ins n k).sys.input.charging = true ∧
        ¬ ((cbInAt ins n k).sys.input.floatChargeN = true ∧
          ((logicAt ins n).cb k).floatDelay = 0))

/-- The mode that module `k` reads in tick `n`. -/
def modeAt (n : Nat) (k : ModuleId) : UInt16 := (cbInAt ins n k).sys.input.chargeModeSet

theorem modeAt_of_consumed {n : Nat} {k : ModuleId} {v : UInt16}
    (h : consumed ins n = some (k, v)) : modeAt ins n k = v :=
  Logic.hmiInputUpdate_mode _ k v h

theorem modeAt_succ {n : Nat} {k : ModuleId} (h : ∀ v, consumed ins (n + 1) ≠ some (k, v)) :
    modeAt ins (n + 1) k = modeAt ins n k := by
  have hkeep := Logic.hmiInputUpdate_mode_of_ne _ k h
  have htick := (Logic.tick_cbSys (logicAt ins n) (ins n) k).1
  show ((((logicAt ins (n + 1)).environment _).digitalInputUpdate _).hmiInputUpdate.lga.cbSys
    k).input.chargeModeSet = _
  rw [hkeep]
  exact congrArg InputStyp.chargeModeSet htick

/-- During the period the module reads the standby command. -/
theorem modeAt_of_period {n₀ n : Nat} {k : ModuleId} (h : StandbyPeriod ins n₀ n k) :
    modeAt ins n k = chargeModeStandby := by
  obtain ⟨hle, h0, hno⟩ := h
  induction n, hle using Nat.le_induction with
  | base => exact modeAt_of_consumed ins h0
  | succ n hn ih =>
    rw [modeAt_succ ins (hno (n + 1) (by omega) (Nat.le_refl _))]
    exact ih fun j hj hjn => hno j hj (by omega)

end

/-- Where the standby command is read, only AUTO can go on charging. -/
theorem CbMode.outputMode_of_standby {i : CbIn} {m : CbMode}
    (h : i.sys.input.chargeModeSet = chargeModeStandby) :
    (m.moduleManage i).outputMode ≠ .manual ∧
      ((m.moduleManage i).outputMode = .auto ↔
        m.state = .auto ∧ i.cb1Fault = false ∧ i.systemState = .standby) := by
  have ha : chargeModeStandby ≠ chargeModeAuto := by decide
  have hm : chargeModeStandby ≠ chargeModeManual := by decide
  unfold CbMode.moduleManage
  rw [h]
  cases m.state with
  | idle | manual | auto | fault =>
    simp only
    split_ifs <;> simp_all [CbMode.goto]

theorem not_obeysStandby_iff (ins : Nat → TickIn) (n : Nat) (k : ModuleId)
    (h : modeAt ins n k = chargeModeStandby) :
    ¬ ObeysStandby ins n k ↔ IgnoresStandby ins n k := by
  obtain ⟨hman, hauto⟩ := CbMode.outputMode_of_standby (m := (logicAt ins n).cb k) h
  unfold ObeysStandby IgnoresStandby
  rw [callAt_eq, CbMode.cbCtrl_starts_iff]
  cases hc : (cbInAt ins n k).sys.input.charging with
  | false =>
    simp only [hman, false_or, hauto, AutoReady, cbInAt_chargeComplet]
    simp [and_assoc]
  | true =>
    have hstop := CbMode.outputManage_stops_of_charging (cbInAt ins n k)
      (((logicAt ins n).cb k).moduleManage (cbInAt ins n k))
      ((logicAt ins n).lga.chargeCmd k).cmd hc
    rw [CbMode.cbCtrl, hstop, CbMode.moduleManage_floatDelay, hauto]
    simp only [Bool.true_eq_false, false_and, not_false_eq_true, true_and, forall_const,
      ne_eq, hman, false_or]
    constructor
    · intro hn
      by_contra hcon
      apply hn
      intro hready hin
      obtain ⟨hs, hf, hst⟩ := hready
      by_contra hfl
      exact hcon ⟨hs, hf, hst, hin, hfl⟩
    · rintro ⟨hs, hf, hst, hin, hfl⟩ hall
      exact hfl (hall ⟨hs, hf, hst⟩ hin)

/-- **The standby command.** In every tick of the period the command is obeyed
exactly when the tick does not keep the module in AUTO, ready to charge on. -/
theorem operator_standby_iff (ins : Nat → TickIn) (n₀ n : Nat) (k : ModuleId)
    (h : StandbyPeriod ins n₀ n k) : ObeysStandby ins n k ↔ ¬ IgnoresStandby ins n k := by
  rw [← not_obeysStandby_iff ins n k (modeAt_of_period ins h), Classical.not_not]

/-- One of the two fragments with which the AD board reports every charge voltage
above the in-station threshold. -/
def voltFrame (packet : Nat) : CanRx :=
  .full port2 (packet * 2 ^ 4 + canIdAD * 2 ^ 9 + canIdM1 * 2 ^ 16 + canFuncADPoll * 2 ^ 21)
    (.replicate 8 0x0A)

/-- The vehicle stands in the station, the start button is down and the operator
chooses AUTO for module 1; the system reaches STANDBY in tick 1 and the operator
sends the standby command before tick 2. -/
def standbyInAuto : Nat → TickIn
  | 0 => { quietTick with
      canEvents := [.rx (voltFrame 0), .rx (voltFrame 1), .cycle]
      modbus := writeMode 0 chargeModeAuto
      cabinetEnN := true
      busVoltOK := true }
  | 1 => { quietTick with cabinetEnN := true, busVoltOK := true }
  | 2 => { quietTick with
      modbus := writeMode 0 chargeModeStandby
      cabinetEnN := true
      busVoltOK := true }
  | _ => quietTick

theorem standbyInAuto_period : StandbyPeriod standbyInAuto 2 2 0 :=
  ⟨Nat.le_refl 2, by decide, fun j h₁ h₂ => absurd h₁ (by omega)⟩

theorem operator_standby_auto : StandbyPeriod standbyInAuto 2 2 0 ∧
    (ObeysStandby standbyInAuto 2 0 ↔ ¬ IgnoresStandby standbyInAuto 2 0) :=
  ⟨standbyInAuto_period, operator_standby_iff standbyInAuto 2 2 0 standbyInAuto_period⟩

/-- The command is consumed in tick 2, and the same tick starts the module again. -/
theorem operator_standby_ignored :
    StandbyPeriod standbyInAuto 2 2 0 ∧ ¬ ObeysStandby standbyInAuto 2 0 := by
  refine ⟨standbyInAuto_period, ?_⟩
  rw [not_obeysStandby_iff _ _ _ (modeAt_of_period _ standbyInAuto_period)]
  refine ⟨by decide, by decide, by decide, by decide, .inl ⟨by decide, by decide⟩⟩

end SC04Monitor.UserApp
