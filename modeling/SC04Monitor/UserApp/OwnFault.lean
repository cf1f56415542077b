import SC04Monitor.UserApp.LogicTick

/-! # The fault of a module and the module it stops

`ModuleManage` is one class with five objects. Its IDLE branch asks the fault flag of the
object's own module, the other three branches that of module 1, so that a module in MANUAL
or AUTO goes on with a fault of its own, and one in FAULT leaves it. -/

namespace SC04Monitor.UserApp
open SC04Monitor.Can

namespace CbMode
variable {i : CbIn} {m : CbMode}

/-- With a fault of its own a module goes to FAULT from IDLE, and from anywhere else if
module 1 has a fault too. -/
theorem moduleManage_fault_iff (h : i.sys.input.fault = true) :
    (m.moduleManage i).state = .fault ↔ m.state = .idle ∨ i.cb1Fault = true := by
  unfold moduleManage
  cases m.state with
  | idle => simp [h, goto]
  | manual | auto | fault =>
    simp only
    split_ifs <;> simp_all [goto]

theorem moduleManage_outputMode_fault_iff :
    (m.moduleManage i).outputMode = .fault ↔ (m.moduleManage i).state = .fault := by
  rw [← moduleManage_agrees]
  generalize (m.moduleManage i).outputMode = o
  cases o <;> simp [stateOf]

end CbMode

section
variable (ins : Nat → TickIn) (n : Nat) (k : ModuleId)

/-- The fault flag of module `k` in tick `n`. -/
def ownFault : Bool := (cbInAt ins n k).sys.input.fault

/-- What a fault of its own does to a module in tick `n`. -/
structure StopsOnFault : Prop where
  state : ownFault ins n k = true → ((logicAt ins (n + 1)).cb k).state = .fault
  outputMode : ownFault ins n k = true → ((logicAt ins (n + 1)).cb k).outputMode = .fault
  silent : ownFault ins n k = true → ¬ (callAt ins n k).Starts
  leaves : ((logicAt ins n).cb k).state = .fault → ((logicAt ins (n + 1)).cb k).state ≠ .fault →
    ownFault ins n k = false

theorem logicAt_succ_cb : (logicAt ins (n + 1)).cb k = (callAt ins n k).mode :=
  (logicAt ins n).tick_cb (ins n) k

/-- The state that a fault of its own leaves a module in. -/
theorem state_of_ownFault (h : ownFault ins n k = true) :
    ((logicAt ins (n + 1)).cb k).state = .fault ↔
      ((logicAt ins n).cb k).state = .idle ∨ (cbInAt ins n k).cb1Fault = true := by
  rw [logicAt_succ_cb, callAt_eq, CbMode.cbCtrl_state]
  exact CbMode.moduleManage_fault_iff h

/-- **The fault of a module.** In every tick of every run a module is stopped by a fault of
its own exactly if it was in IDLE or module 1 has a fault. -/
theorem own_fault_iff :
    StopsOnFault ins n k ↔ (ownFault ins n k = true →
      ((logicAt ins n).cb k).state = .idle ∨ (cbInAt ins n k).cb1Fault = true) := by
  constructor
  · intro hstop hfault
    exact (state_of_ownFault ins n k hfault).mp (hstop.state hfault)
  · intro hcond
    have hstate : ownFault ins n k = true → ((logicAt ins (n + 1)).cb k).state = .fault :=
      fun hfault => (state_of_ownFault ins n k hfault).mpr (hcond hfault)
    have hout : ownFault ins n k = true → ((logicAt ins (n + 1)).cb k).outputMode = .fault := by
      intro hfault
      have hs := hstate hfault
      rw [logicAt_succ_cb, callAt_eq] at hs ⊢
      rw [CbMode.cbCtrl_state] at hs
      rw [CbMode.cbCtrl_outputMode]
      exact CbMode.moduleManage_outputMode_fault_iff.mpr hs
    refine ⟨hstate, hout, fun hfault hstarts => ?_, fun _ hleft => ?_⟩
    · -- the routine of FAULT starts nothing
      have ho := hout hfault
      rw [logicAt_succ_cb, callAt_eq, CbMode.cbCtrl_outputMode] at ho
      rw [callAt_eq, CbMode.cbCtrl_starts_iff, ho] at hstarts
      simp at hstarts
    · by_contra hfault
      exact hleft (hstate (by simpa using hfault))

end

/-- One of the three fragments of a status of module 2 that reports a fault. -/
def faultFrame (packet : Nat) : CanRx :=
  .full port1 (packet * 2 ^ 4 + canIdC 1 * 2 ^ 9 + canIdM1CX * 2 ^ 16 + canFuncSPoll * 2 ^ 21)
    (if packet = 0 then #v[0, 0, 0, 0x80, 0, 0, 0, 0] else .replicate 8 0)

/-- The operator chooses MANUAL for module 2 before tick 0; the system reaches STANDBY in
tick 1, before which module 2 reports a fault. -/
def faultInManual : Nat → TickIn
  | 0 => { quietTick with
      modbus := writeMode 1 chargeModeManual
      cabinetEnN := true
      busVoltOK := true }
  | 1 => { quietTick with
      canEvents := [.rx (faultFrame 0), .rx (faultFrame 1), .rx (faultFrame 2), .cycle]
      cabinetEnN := true
      busVoltOK := true }
  | _ => quietTick

/-- Module 2 is told to start in the tick that finds its fault. -/
theorem own_fault_ignored :
    ownFault faultInManual 1 1 = true ∧ (callAt faultInManual 1 1).Starts ∧
      ((logicAt faultInManual 2).cb 1).state = .manual ∧ ¬ StopsOnFault faultInManual 1 1 := by
  have hfault : ownFault faultInManual 1 1 = true := by decide
  have hstart : (callAt faultInManual 1 1).Starts := by decide
  exact ⟨hfault, hstart, by decide, fun hstop => hstop.silent hfault hstart⟩

end SC04Monitor.UserApp
