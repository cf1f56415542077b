import SC04Monitor.UserApp.StatusBlock

/-! # Isolation of the modules

A property of two runs: where they agree, tick by tick, on what belongs to a
module and on the state of the system, the module behaves alike in both and is
reported alike. What comes of a module is a function of the inputs that
`CbInput` collects, and one of them, the fault flag, is module 1's. So are the
mode word and one bit of the step word. Module 1 is isolated, no other module
is, and every module is in two runs that agree on module 1 as well. -/

namespace SC04Monitor.UserApp
open SC04Monitor.Lib.Run SC04Monitor.Can

/-! ## What a call of `CbCtrl` depends on -/

/-- What `CbCtrl` reads, without the members of `*pcb_sys` that it does not use. -/
structure CbInput where
  mode : UInt16
  charging : Bool
  floatChargeN : Bool
  instation : Bool
  fault : Bool
  chargeComplet : Bool
  cb1Fault : Bool
  systemState : SysState

def CbIn.used (i : CbIn) : CbInput :=
  ⟨i.sys.input.chargeModeSet, i.sys.input.charging, i.sys.input.floatChargeN,
    i.sys.input.instation, i.sys.input.fault, i.sys.output.chargeComplet, i.cb1Fault,
    i.systemState⟩

namespace CbMode
variable {i i' : CbIn} (m : CbMode) (cmd : UInt8)

theorem moduleManage_congr (h : i.used = i'.used) : m.moduleManage i = m.moduleManage i' := by
  simp only [CbIn.used, CbInput.mk.injEq] at h
  obtain ⟨hmode, _, _, _, hfault, _, hcb1, hsys⟩ := h
  unfold moduleManage
  simp only [hmode, hfault, hcb1, hsys]

theorem outputManage_congr (h : i.used = i'.used) :
    m.outputManage i cmd = m.outputManage i' cmd := by
  simp only [CbIn.used, CbInput.mk.injEq] at h
  obtain ⟨_, hcharging, hfloat, hin, _, hcomplet, _, _⟩ := h
  unfold outputManage cbFaultCal cbIdleCal cbManualCal cbAutoCal cbStandbyCal
  simp only [hcharging, hfloat, hin, hcomplet]

theorem cbCtrl_congr (h : i.used = i'.used) : m.cbCtrl i cmd = m.cbCtrl i' cmd := by
  unfold cbCtrl
  rw [moduleManage_congr m h, outputManage_congr _ _ h]

end CbMode

/-! ## Two runs -/

/-- A module's own inputs: its CAN status, its charge voltage and the mode that
the operator has set for it. -/
structure OwnInputs where
  status : CBStatus
  volt : UInt16
  modeSet : UInt16
  deriving DecidableEq

section
variable (ins : Nat → TickIn) (n : Nat) (k : ModuleId)

/-- The own inputs of module `k` in tick `n`. -/
def ownAt : OwnInputs :=
  let s := (logicAt ins n).beforeDcDc (ins n)
  ⟨s.lga.cbStatus k, s.lga.chargeVolt k, (s.lga.cbSys k).input.chargeModeSet⟩

/-- What becomes of a module: its state machine, its charge command and the words
published for it. -/
structure ModuleView where
  mode : CbMode
  cmd : UInt8
  sent : Bool
  dcdcMode : UInt16
  dcdcStep : UInt16

/-- Module `k` after tick `n`. -/
def viewAt : ModuleView :=
  ⟨(callAt ins n k).mode, (callAt ins n k).cmd, (callAt ins n k).sent,
    (monitorAt ins n).dcdcMode k, (monitorAt ins n).dcdcStep k⟩

/-- What module `k` reads in tick `n`, in terms of own inputs. -/
theorem cbInAt_used : (cbInAt ins n k).used =
    { mode := (ownAt ins n k).modeSet
      charging := chargeOnN (ownAt ins n k).status
      floatChargeN := floatChargeN (ownAt ins n k).status
      instation := chargeStartV < (ownAt ins n k).volt
      fault := sysFailN (ownAt ins n k).status
      chargeComplet := false
      cb1Fault := sysFailN (ownAt ins n 0).status
      systemState := (cbInAt ins n k).systemState } := by
  have hc := cbInAt_chargeComplet ins n k
  unfold CbIn.used
  rw [hc]
  rfl

theorem monitorAt_dcdcStep : (monitorAt ins n).dcdcStep k =
    (chargeOnN (ownAt ins n k).status).toUInt16 +
      (floatChargeN (ownAt ins n 0).status).toUInt16 := rfl

end

/-- Up to tick `n` the two runs agree on what belongs to module `k` and on the
state of the system. -/
def AgreeOn (ins ins' : Nat → TickIn) (n : Nat) (k : ModuleId) : Prop :=
  ∀ j ≤ n, ownAt ins j k = ownAt ins' j k ∧
    (cbInAt ins j k).systemState = (cbInAt ins' j k).systemState

/-- Module `k` does not depend on the other modules. -/
def Isolated (k : ModuleId) : Prop :=
  ∀ ins ins' n, AgreeOn ins ins' n k → viewAt ins n k = viewAt ins' n k

section
variable {ins ins' : Nat → TickIn} {n : Nat} {k : ModuleId}

theorem cbInAt_used_congr (h : AgreeOn ins ins' n k) (h1 : AgreeOn ins ins' n 0) {j : Nat}
    (hj : j ≤ n) : (cbInAt ins j k).used = (cbInAt ins' j k).used := by
  rw [cbInAt_used, cbInAt_used, (h j hj).1, (h1 j hj).1, (h j hj).2]

/-- The state machine of module `k` and its command byte. -/
def cellOf (k : ModuleId) (s : Logic) : CbMode × UInt8 := (s.cb k, (s.lga.chargeCmd k).cmd)

/-- One step: where module `k` is alike before the tick and reads alike in it, the
call does the same. -/
theorem callAt_congr {j : Nat} (hcell : cellOf k (logicAt ins j) = cellOf k (logicAt ins' j))
    (hin : (cbInAt ins j k).used = (cbInAt ins' j k).used) :
    callAt ins j k = callAt ins' j k := by
  simp only [cellOf, Prod.mk.injEq] at hcell
  rw [callAt_eq, callAt_eq, hcell.1, hcell.2]
  exact CbMode.cbCtrl_congr _ _ hin

theorem cellOf_logicAt_succ (j : Nat) :
    cellOf k (logicAt ins (j + 1)) = ((callAt ins j k).mode, (callAt ins j k).cmd) := by
  unfold cellOf
  rw [logicAt_succ, Logic.tick_cb, Logic.tick_cmd]
  rfl

/-- The run: module `k` is alike before every tick up to `n`. -/
theorem cellOf_congr (h : AgreeOn ins ins' n k) (h1 : AgreeOn ins ins' n 0) {m : Nat}
    (hm : m ≤ n) : cellOf k (logicAt ins m) = cellOf k (logicAt ins' m) := by
  refine stateAt_rel (R := fun s t => cellOf k s = cellOf k t) rfl fun j hj ih => ?_
  have hcall := callAt_congr ih (cbInAt_used_congr h h1 (by omega))
  show cellOf k (logicAt ins (j + 1)) = cellOf k (logicAt ins' (j + 1))
  rw [cellOf_logicAt_succ, cellOf_logicAt_succ, hcall]

/-- Two runs that agree on module `k` and on module 1 treat module `k` alike. -/
theorem viewAt_congr (h : AgreeOn ins ins' n k) (h1 : AgreeOn ins ins' n 0) :
    viewAt ins n k = viewAt ins' n k := by
  have hle : n ≤ n := Nat.le_refl n
  have hcall := callAt_congr (cellOf_congr h h1 hle) (cbInAt_used_congr h h1 hle)
  have hcell1 := cellOf_congr h1 h1 hle
  simp only [cellOf, Prod.mk.injEq] at hcell1
  unfold viewAt
  rw [hcall, monitorAt_dcdcMode, monitorAt_dcdcMode, hcell1.1, monitorAt_dcdcStep,
    monitorAt_dcdcStep, (h n hle).1, (h1 n hle).1]

end

/-! ## What module 1 gives away -/

/-- A status of module 1 in its three fragments: a fault and the end of a float
charge (`sysFailN` and `floatChargeN`). -/
def statusFragments : List CanEvent :=
  [0, 1, 2].map fun packet => .rx <|
    .full port1 (packet * 2 ^ 4 + canIdC 0 * 2 ^ 9 + canIdM1CX * 2 ^ 16 + canFuncSPoll * 2 ^ 21)
      (.ofFn fun i => if packet ≠ 0 then 0 else if i.val = 3 then 0x80 else if i.val = 4 then 2 else 0)

/-- Module 2 is told MANUAL in tick 0; in tick `n₀` module 1 reports its status. -/
def reportAt (n₀ n : Nat) : TickIn :=
  { quietTick with
    modbus := if n = 0 then writeMode 1 chargeModeManual else id
    canEvents := if n = n₀ then statusFragments ++ [.cycle] else [] }

/-- The tick in which module 1 reports publishes its float charge for every
module. -/
theorem reportAt_step : ∀ k, k ≠ 0 →
    ownAt (reportAt 0) 0 k = ownAt (reportAt 2) 0 k ∧
      (cbInAt (reportAt 0) 0 k).systemState = (cbInAt (reportAt 2) 0 k).systemState ∧
      (monitorAt (reportAt 0) 0).dcdcStep k ≠ (monitorAt (reportAt 2) 0).dcdcStep k := by
  decide +kernel

theorem not_isolated {k : ModuleId} (hk : k ≠ 0) : ¬ Isolated k := by
  intro h
  obtain ⟨hown, hsys, hne⟩ := reportAt_step k hk
  have hagree : AgreeOn (reportAt 0) (reportAt 2) 0 k := by
    intro j hj
    obtain rfl : j = 0 := Nat.le_zero.mp hj
    exact ⟨hown, hsys⟩
  exact hne (congrArg ModuleView.dcdcStep (h _ _ 0 hagree))

/-- **Module isolation.** Exactly module 1 is isolated; the other modules are in
two runs that also agree on what belongs to module 1. -/
theorem module_isolation (k : ModuleId) : (Isolated k ↔ k = 0) ∧
    ∀ ins ins' n, AgreeOn ins ins' n k → AgreeOn ins ins' n 0 →
      viewAt ins n k = viewAt ins' n k := by
  refine ⟨⟨fun h => ?_, ?_⟩, fun ins ins' n h h1 => viewAt_congr h h1⟩
  · by_contra hk
    exact not_isolated hk h
  · rintro rfl ins ins' n h
    exact viewAt_congr h h

/-- In tick 1 the fault of module 1 takes module 2 to FAULT instead of IDLE. -/
theorem module_isolation_fails :
    AgreeOn (reportAt 1) (reportAt 2) 1 1 ∧ (viewAt (reportAt 1) 1 1).mode.state = .fault ∧
      (viewAt (reportAt 2) 1 1).mode.state = .idle ∧ ¬ Isolated 1 := by
  have hagree : AgreeOn (reportAt 1) (reportAt 2) 1 1 := by
    intro j hj
    obtain rfl | rfl : j = 0 ∨ j = 1 := by omega
    · exact ⟨rfl, rfl⟩
    · exact ⟨by decide +kernel, by decide⟩
  have hfault : (viewAt (reportAt 1) 1 1).mode.state = .fault := by decide
  have hidle : (viewAt (reportAt 2) 1 1).mode.state = .idle := by decide
  refine ⟨hagree, hfault, hidle, fun h => ?_⟩
  rw [h _ _ 1 hagree, hidle] at hfault
  cases hfault

end SC04Monitor.UserApp
