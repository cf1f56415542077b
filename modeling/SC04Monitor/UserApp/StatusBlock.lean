import SC04Monitor.UserApp.LogicTick

/-! # The published status block

The second half of `MonitorUpdate`: what it writes into `MB_LGA.mbStatus` for the
touch screen, as far as its sources are modelled. The first half, the inputs of
the modules, is `Logic.monitorUpdate`.

The mode words of all five modules are taken from module 1, and so is the float
charge bit of the step words. `logicAt_chargeModeNow` says what the mode word
carries: the state that module 1 had at the end of the tick before. -/

namespace SC04Monitor.UserApp
open SC04Monitor.Lib.Run SC04Monitor.Lib.Scan SC04Monitor.Can

/-- `Run_Flags_STYP`. -/
structure RunFlags where
  canLostN : Bool
  adLost : Bool
  /-- `rail1FailN` to `rail5FailN`. -/
  railFailN : ModuleId → Bool

/-- The members of `HMI_Status_STYP` whose sources are modelled. -/
structure HmiStatus where
  sysMode : UInt16
  dcdcMode : ModuleId → UInt16
  dcdcStep : ModuleId → UInt16
  cabinetEnN : Bool
  runFlags : RunFlags
  dcOutVolt : ModuleId → UInt16
  cbStatus : ModuleId → CBStatus

-- for the literals of an index into a `CBStatus`
instance neZero_cbStatus : @NeZero Nat Zero.ofOfNat0 24 := ⟨Nat.succ_ne_zero 23⟩

/-- The flags `chargeOnN`, `floatChargeN` and `sysFailN` of a status message. -/
def chargeOnN (status : CBStatus) : Bool := (status.get 4).toNat.testBit 0
def floatChargeN (status : CBStatus) : Bool := (status.get 4).toNat.testBit 1
def sysFailN (status : CBStatus) : Bool := (status.get 3).toNat.testBit 7

namespace Logic

/-- `p->dcdc<k>_mode`: every module's word is computed from `cb1_SYS`. -/
def dcdcMode (s : Logic) (_k : ModuleId) : UInt16 := (s.lga.cbSys 0).output.chargeModeNow / 0x10

/-- `p->dcdc<k>_step`: the float charge bit is the one of `cb1Status`. -/
def dcdcStep (s : Logic) (k : ModuleId) : UInt16 :=
  (chargeOnN (s.lga.cbStatus k)).toUInt16 + (floatChargeN (s.lga.cbStatus 0)).toUInt16

/-- The published block; `adFault` and `canFault` are the members of
`MB_SYS_INFO` that the CAN task keeps. -/
def monitorStatus (adFault canFault : Bool) (s : Logic) : HmiStatus where
  sysMode := s.sys.mode.systemState.code / 0x100
  dcdcMode := s.dcdcMode
  dcdcStep := s.dcdcStep
  cabinetEnN := s.lga.cabinetEnN
  runFlags :=
    { canLostN := canFault
      adLost := adFault
      railFailN := fun k => canFault || !s.can.canStateWord.toNat.testBit k }
  dcOutVolt := s.lga.chargeVolt
  cbStatus := s.lga.cbStatus

/-- The state in which a tick calls `MonitorUpdate`. -/
def atMonitor (i : TickIn) (s : Logic) : Logic :=
  (((s.environment i).digitalInputUpdate i).hmiInputUpdate).canInputUpdate

/-! ## What the mode word carries -/

/-- `Charge_Mode_Now` of a module is the code of its state. -/
def ModeCurrent (s : Logic) (k : ModuleId) : Prop :=
  (s.lga.cbSys k).output.chargeModeNow = (s.cb k).state.code

theorem cbCtrl_modeCurrent {s : Logic} {j k : ModuleId} (h : s.ModeCurrent k) :
    (s.cbCtrl j).ModeCurrent k := by
  unfold ModeCurrent at h ⊢
  unfold cbCtrl
  by_cases hj : k = j
  · subst hj
    simp
  · simpa [Function.update_of_ne hj] using h

theorem dcDcManage_modeCurrent {s : Logic} {k : ModuleId} (h : s.ModeCurrent k) :
    s.dcDcManage.ModeCurrent k := by
  unfold dcDcManage
  induction List.finRange 5 generalizing s with
  | nil => exact h
  | cons j l ih => exact ih (cbCtrl_modeCurrent h)

theorem tick_modeCurrent {s : Logic} {k : ModuleId} (i : TickIn) (h : s.ModeCurrent k) :
    (s.tick i).ModeCurrent k := by
  have hbefore : (s.beforeDcDc i).ModeCurrent k := by
    unfold ModeCurrent
    rw [beforeDcDc_output, (beforeDcDc_frame i s).1]
    exact h
  have hafter := dcDcManage_modeCurrent hbefore
  unfold ModeCurrent at hafter ⊢
  unfold tick afterCanOutput
  rw [(userRecord_frame i _).1, (userRecord_frame i _).2.2.2.2]
  show ((s.beforeDcDc i).dcDcManage.parManage.lga.cbSys k).output.chargeModeNow =
    ((s.beforeDcDc i).dcDcManage.parManage.cb k).state.code
  rw [(parManage_frame _).1, (parManage_frame _).2.2.2]
  exact hafter

end Logic

theorem logicAt_chargeModeNow (ins : Nat → TickIn) (n : Nat) (k : ModuleId) :
    (logicAt ins n).ModeCurrent k :=
  stateAt_inv (P := fun s : Logic => s.ModeCurrent k) (show Logic.init.ModeCurrent k from rfl)
    (fun _ i h => Logic.tick_modeCurrent i h) n

/-! ## Runs -/

section
variable (ins : Nat → TickIn) (n : Nat) (k : ModuleId)

/-- The state in which tick `n` calls `MonitorUpdate`. -/
def monitorAt : Logic := (logicAt ins n).atMonitor (ins n)

/-- Whatever the module, the mode word published in tick `n` is the state of
module 1. -/
theorem monitorAt_dcdcMode :
    (monitorAt ins n).dcdcMode k = ((logicAt ins n).cb 0).state.code / 0x10 := by
  have hout : ((monitorAt ins n).lga.cbSys 0).output = ((logicAt ins n).lga.cbSys 0).output :=
    Logic.hmiInputUpdate_output (((logicAt ins n).environment (ins n)).digitalInputUpdate (ins n)) 0
  unfold Logic.dcdcMode
  rw [hout, logicAt_chargeModeNow ins n 0]

end

end SC04Monitor.UserApp
