import SC04Monitor.UserApp.AppMonitor
import Mathlib.Tactic.Common

/-! # The charge state machine of a module

`CbMode` of `appModule.cc`: `ModuleManage` moves a module between its four
states, `OutputManage` runs the routine of the selected output mode, which
writes the command byte of the module and may trigger its transmission. -/

namespace SC04Monitor.UserApp

/-- `CB_STATE_*`; `State` only ever holds these values. -/
inductive CbState
  | idle | manual | auto | fault
  deriving DecidableEq, Repr

/-- `CB_OUT_*`; `standy` is the standby within MANUAL. -/
inductive CbOut
  | idle | manual | standy | auto | fault
  deriving DecidableEq, Repr

def CbState.code : CbState → UInt16
  | .idle => 0x0000
  | .manual => 0x0010
  | .auto => 0x0020
  | .fault => 0x0030

/-- `CHARGE_START_T` and `CHARGE_FLOAT_T`, in ticks. -/
def chargeStartT : Nat := 2000 / chargeBaseT
def chargeFloatT : Nat := 5000 / chargeBaseT

/-- The members of `CbMode`; the pointers and the message index are the module's
number. Both delays are only reloaded, or decremented when positive. -/
structure CbMode where
  state : CbState
  outputMode : CbOut
  startDelay : Nat
  floatDelay : Nat
  deriving DecidableEq

/-- The object at power-on: the constructor leaves the delays at zero. -/
def CbMode.init : CbMode := ⟨.idle, .idle, 0, 0⟩

/-- What `CbCtrl` reads outside the object: `*pcb_sys`, the fault flag of module
1 and the state of the system. -/
structure CbIn where
  sys : ModuleSys
  cb1Fault : Bool
  systemState : SysState

/-- A module after its output routine: `sent` tells whether the routine called
`SendCan`. Every routine that calls it has written the command byte before and
does not change it afterwards. -/
structure CbRun where
  mode : CbMode
  cmd : UInt8
  sent : Bool
  deriving DecidableEq

namespace CbMode

def goto (m : CbMode) (s : CbState) (o : CbOut) : CbMode :=
  { m with state := s, outputMode := o }

/-- `CbMode::ModuleManage`. Only IDLE looks at the module's own fault flag; the
other states look at the one of module 1. -/
def moduleManage (i : CbIn) (m : CbMode) : CbMode :=
  match m.state with
  | .idle =>
    if i.sys.input.fault then m.goto .fault .fault
    else if i.sys.input.chargeModeSet = chargeModeAuto then m.goto .auto .auto
    else if i.sys.input.chargeModeSet = chargeModeManual then m.goto .manual .manual
    else m.goto .idle .idle
  | .manual =>
    if i.cb1Fault then m.goto .fault .fault
    else if i.systemState ≠ .standby then m.goto .idle .idle
    else if i.sys.input.chargeModeSet = chargeModeAuto then m.goto .auto .auto
    else if i.sys.input.chargeModeSet = chargeModeStandby then m.goto .manual .standy
    else m.goto .manual .manual
  | .auto =>
    if i.cb1Fault then m.goto .fault .fault
    else if i.systemState ≠ .standby then m.goto .idle .idle
    else if i.sys.input.chargeModeSet = chargeModeManual then m.goto .manual .manual
    else m.goto .auto .auto
  | .fault =>
    if !i.cb1Fault then m.goto .idle .idle
    else m.goto .fault .fault

/-- Both delays at their full length. -/
def reload (m : CbMode) : CbMode :=
  { m with startDelay := chargeStartT, floatDelay := chargeFloatT }

/-- `CbMode::CB_Idle_Cal` and `CbMode::CB_Fault_Cal`, which are the same code. -/
def cbIdleCal (i : CbIn) (m : CbMode) (cmd : UInt8) : CbRun :=
  if i.sys.input.charging then ⟨m.reload, 0, true⟩ else ⟨m.reload, cmd, false⟩

@[inherit_doc cbIdleCal]
def cbFaultCal (i : CbIn) (m : CbMode) (cmd : UInt8) : CbRun := m.cbIdleCal i cmd

/-- `CbMode::CB_Manual_Cal`: the start command is repeated until the module
reports charging. -/
def cbManualCal (i : CbIn) (m : CbMode) (_cmd : UInt8) : CbRun :=
  if !i.sys.input.charging then ⟨m, 1, true⟩ else ⟨m.reload, 1, false⟩

/-- `CbMode::CB_Standby_Cal`: unlike in IDLE the command byte is cleared even
when nothing is sent. -/
def cbStandbyCal (i : CbIn) (m : CbMode) (_cmd : UInt8) : CbRun :=
  ⟨m.reload, 0, i.sys.input.charging⟩

/-- `CbMode::CB_Auto_Cal`. -/
def cbAutoCal (i : CbIn) (m : CbMode) (cmd : UInt8) : CbRun :=
  if i.sys.input.instation then
    if !i.sys.input.charging && !i.sys.output.chargeComplet then
      if 0 < m.startDelay then ⟨{ m with startDelay := m.startDelay - 1 }, cmd, false⟩
      else ⟨m, 1, true⟩
    else if i.sys.input.floatChargeN then
      if 0 < m.floatDelay then ⟨{ m with floatDelay := m.floatDelay - 1 }, cmd, false⟩
      else ⟨m, 0, true⟩
    else ⟨m, cmd, false⟩
  else m.cbStandbyCal i cmd

/-- `CbMode::OutputManage`. -/
def outputManage (i : CbIn) (m : CbMode) (cmd : UInt8) : CbRun :=
  match m.outputMode with
  | .idle => m.cbIdleCal i cmd
  | .manual => m.cbManualCal i cmd
  | .standy => m.cbStandbyCal i cmd
  | .auto => m.cbAutoCal i cmd
  | .fault => m.cbFaultCal i cmd

/-- `CbMode::CbCtrl` on the object and its command byte. -/
def cbCtrl (i : CbIn) (m : CbMode) (cmd : UInt8) : CbRun :=
  (m.moduleManage i).outputManage i cmd

end CbMode

/-! ## What a call can do -/

/-- The call issues a start command. -/
def CbRun.Starts (r : CbRun) : Prop := r.sent = true ∧ r.cmd = 1

/-- The call issues a stop command. -/
def CbRun.Stops (r : CbRun) : Prop := r.sent = true ∧ r.cmd = 0

instance (r : CbRun) : Decidable r.Starts := inferInstanceAs (Decidable (_ ∧ _))
instance (r : CbRun) : Decidable r.Stops := inferInstanceAs (Decidable (_ ∧ _))

/-- The start delay of AUTO has run out for a module that stands in the station
and does not charge. -/
def AutoReady (i : CbIn) (m : CbMode) : Prop :=
  i.sys.input.instation = true ∧ i.sys.output.chargeComplet = false ∧ m.startDelay = 0

namespace CbMode
variable (i : CbIn) (m : CbMode) (cmd : UInt8)

@[simp] theorem moduleManage_startDelay : (m.moduleManage i).startDelay = m.startDelay := by
  unfold moduleManage
  split <;> split_ifs <;> rfl

@[simp] theorem moduleManage_floatDelay : (m.moduleManage i).floatDelay = m.floatDelay := by
  unfold moduleManage
  split <;> split_ifs <;> rfl

theorem cbIdleCal_eq :
    m.cbIdleCal i cmd =
      ⟨m.reload, if i.sys.input.charging then 0 else cmd, i.sys.input.charging⟩ := by
  unfold cbIdleCal
  cases i.sys.input.charging <;> rfl

theorem cbManualCal_eq :
    m.cbManualCal i cmd =
      ⟨if i.sys.input.charging then m.reload else m, 1, !i.sys.input.charging⟩ := by
  unfold cbManualCal
  cases i.sys.input.charging <;> rfl

/-- The output routines keep the state and the output mode. -/
theorem outputManage_mode :
    (m.outputManage i cmd).mode.state = m.state ∧
      (m.outputManage i cmd).mode.outputMode = m.outputMode := by
  unfold outputManage cbFaultCal
  split
  · rw [cbIdleCal_eq]; exact ⟨rfl, rfl⟩
  · rw [cbManualCal_eq]; dsimp only; split_ifs <;> exact ⟨rfl, rfl⟩
  · exact ⟨rfl, rfl⟩
  · unfold cbAutoCal cbStandbyCal; split_ifs <;> exact ⟨rfl, rfl⟩
  · rw [cbIdleCal_eq]; exact ⟨rfl, rfl⟩

@[simp] theorem cbCtrl_state : (m.cbCtrl i cmd).mode.state = (m.moduleManage i).state :=
  (outputManage_mode i _ cmd).1

@[simp] theorem cbCtrl_outputMode :
    (m.cbCtrl i cmd).mode.outputMode = (m.moduleManage i).outputMode :=
  (outputManage_mode i _ cmd).2

/-- The state that an output mode belongs to. -/
def stateOf : CbOut → CbState
  | .idle => .idle
  | .manual | .standy => .manual
  | .auto => .auto
  | .fault => .fault

/-- A selected output mode is one of the new state's. -/
theorem moduleManage_agrees :
    stateOf (m.moduleManage i).outputMode = (m.moduleManage i).state := by
  unfold moduleManage
  split <;> split_ifs <;> rfl

/-- What is sent is a stop for a module that charges and a start for one that
does not, as long as nothing reports the charge complete. -/
theorem outputManage_cmd_of_sent (hcomplet : i.sys.output.chargeComplet = false)
    (h : (m.outputManage i cmd).sent = true) :
    (m.outputManage i cmd).cmd = if i.sys.input.charging then 0 else 1 := by
  revert h
  unfold outputManage cbFaultCal
  cases m.outputMode with
  | idle | fault =>
    rw [cbIdleCal_eq]
    cases i.sys.input.charging <;> simp
  | manual =>
    rw [cbManualCal_eq]
    cases i.sys.input.charging <;> simp
  | standy =>
    intro h
    simp only [cbStandbyCal] at h ⊢
    rw [h]
    rfl
  | auto =>
    unfold cbAutoCal cbStandbyCal
    rw [hcomplet]
    cases hc : i.sys.input.charging <;> split_ifs <;> simp_all

theorem outputManage_starts_iff :
    (m.outputManage i cmd).Starts ↔ i.sys.input.charging = false ∧
      (m.outputMode = .manual ∨ m.outputMode = .auto ∧ AutoReady i m) := by
  unfold outputManage CbRun.Starts AutoReady cbFaultCal
  cases m.outputMode with
  | idle | fault =>
    rw [cbIdleCal_eq]
    cases i.sys.input.charging <;> simp
  | manual =>
    rw [cbManualCal_eq]
    cases i.sys.input.charging <;> simp
  | standy => simp [cbStandbyCal]
  | auto =>
    unfold cbAutoCal cbStandbyCal
    split_ifs <;> simp_all [Nat.pos_iff_ne_zero]

/-- When a start can be issued: in MANUAL at once, in AUTO after the delay. -/
theorem cbCtrl_starts_iff :
    (m.cbCtrl i cmd).Starts ↔ i.sys.input.charging = false ∧
      ((m.moduleManage i).outputMode = .manual ∨
        (m.moduleManage i).outputMode = .auto ∧ AutoReady i m) := by
  rw [cbCtrl, outputManage_starts_iff]
  simp only [AutoReady, moduleManage_startDelay]

/-- A charging module is told to stop in every output mode but MANUAL and, while
it stands in the station, AUTO. -/
theorem outputManage_stops_of_charging (h : i.sys.input.charging = true) :
    (m.outputManage i cmd).Stops ↔ m.outputMode ≠ .manual ∧
      (m.outputMode = .auto → i.sys.input.instation = true →
        i.sys.input.floatChargeN = true ∧ m.floatDelay = 0) := by
  unfold outputManage CbRun.Stops cbFaultCal
  cases m.outputMode with
  | idle | fault => simp [cbIdleCal_eq, h]
  | manual => simp [cbManualCal_eq, h]
  | standy => simp [cbStandbyCal, h]
  | auto =>
    unfold cbAutoCal cbStandbyCal
    simp only [h]
    split_ifs <;> simp_all [Nat.pos_iff_ne_zero]

theorem outputManage_cmd_of_off (h : m.outputMode = .idle ∨ m.outputMode = .fault) :
    (m.outputManage i cmd).cmd = if i.sys.input.charging then 0 else cmd := by
  unfold outputManage cbFaultCal
  rcases h with h | h <;> rw [h] <;> dsimp only <;> rw [cbIdleCal_eq]

theorem outputManage_cmd_of_standy (h : m.outputMode = .standy) :
    (m.outputManage i cmd).cmd = 0 := by
  unfold outputManage
  rw [h]
  rfl

/-- Leaving MANUAL or AUTO for IDLE or FAULT. -/
theorem moduleManage_off_iff (h : m.state = .manual ∨ m.state = .auto) :
    (m.moduleManage i).outputMode = .idle ∨ (m.moduleManage i).outputMode = .fault ↔
      i.cb1Fault = true ∨ i.systemState ≠ .standby := by
  unfold moduleManage
  rcases h with h | h <;> simp only [h] <;> split_ifs <;> simp_all [goto]

/-- The delays are loaded by the routines of IDLE and FAULT. -/
theorem outputManage_loaded (h : m.outputMode = .idle ∨ m.outputMode = .fault) :
    (m.outputManage i cmd).mode.startDelay = chargeStartT := by
  unfold outputManage cbFaultCal
  rcases h with h | h <;> rw [h] <;> dsimp only <;> rw [cbIdleCal_eq] <;> rfl

end CbMode

end SC04Monitor.UserApp
