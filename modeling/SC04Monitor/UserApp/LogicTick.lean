import SC04Monitor.UserApp.LogicTask

/-! # What a tick does to one module

The five state machines run one after the other and none of them touches what
another one reads, so a tick is, for module `k`, one call of `CbCtrl` on the
state that `beforeDcDc` leaves. The rest of the tick only copies the command. -/

namespace SC04Monitor.UserApp
open SC04Monitor.Lib.ByteMem SC04Monitor.Lib.Run SC04Monitor.Lib.Scan SC04Monitor.Can

namespace Logic

/-- The state in which `DcDcManage` calls module `k`. -/
def atCall (s : Logic) (k : ModuleId) : Logic := ((List.finRange 5).take k).foldl cbCtrl s

/-- What module `k` reads and writes in a call of `CbCtrl`. -/
def cell (s : Logic) (k : ModuleId) : CbMode × ChargeCmd × CbIn :=
  (s.cb k, s.lga.chargeCmd k, s.cbIn k)

theorem cbRun_eq {s t : Logic} {k : ModuleId} (h : s.cell k = t.cell k) :
    s.cbRun k = t.cbRun k := by
  simp only [cell, Prod.mk.injEq] at h
  obtain ⟨hm, hc, hi⟩ := h
  unfold cbRun
  rw [hm, hc, hi]

theorem cbCtrl_cell_of_ne {k j : ModuleId} (h : j ≠ k) (s : Logic) :
    (s.cbCtrl j).cell k = s.cell k := by
  have hk : k ≠ j := h.symm
  simp only [cell, cbCtrl, cbIn, Function.update_of_ne hk, Prod.mk.injEq, true_and]
  by_cases h0 : (0 : ModuleId) = j
  · subst h0
    simp
  · simp [Function.update_of_ne h0]

theorem take_ne : ∀ k : ModuleId, ∀ j ∈ (List.finRange 5).take k, j ≠ k := by decide

theorem drop_ne : ∀ k : ModuleId, ∀ j ∈ (List.finRange 5).drop (k + 1), j ≠ k := by decide

theorem atCall_cell (s : Logic) (k : ModuleId) : (s.atCall k).cell k = s.cell k :=
  scan_frame (fun t => t.cell k) (fun j hj t => cbCtrl_cell_of_ne (take_ne k j hj) t) s

/-- The calls before module `k` do not change what its own call does. -/
theorem atCall_cbRun (s : Logic) (k : ModuleId) : (s.atCall k).cbRun k = s.cbRun k :=
  cbRun_eq (s.atCall_cell k)

theorem dcDcManage_split (s : Logic) (k : ModuleId) :
    s.dcDcManage = ((List.finRange 5).drop (k + 1)).foldl cbCtrl ((s.atCall k).cbCtrl k) := by
  have hl : List.finRange 5 = (List.finRange 5).take k ++ k :: (List.finRange 5).drop (k + 1) := by
    revert k
    decide
  unfold dcDcManage atCall
  conv_lhs => rw [hl]
  rw [List.foldl_append, List.foldl_cons]

theorem dcDcManage_cell (s : Logic) (k : ModuleId) :
    s.dcDcManage.cell k = ((s.atCall k).cbCtrl k).cell k := by
  rw [dcDcManage_split s k]
  exact scan_frame (fun t => t.cell k) (fun j hj t => cbCtrl_cell_of_ne (drop_ne k j hj) t) _

theorem dcDcManage_cb (s : Logic) (k : ModuleId) : s.dcDcManage.cb k = (s.cbRun k).mode := by
  have h := congrArg Prod.fst (s.dcDcManage_cell k)
  simp only [cell] at h
  rw [h, ← atCall_cbRun]
  simp [cbCtrl]

theorem dcDcManage_cmd (s : Logic) (k : ModuleId) :
    (s.dcDcManage.lga.chargeCmd k).cmd = (s.cbRun k).cmd := by
  have h := congrArg (fun c => c.2.1.cmd) (s.dcDcManage_cell k)
  simp only [cell] at h
  rw [h, ← atCall_cbRun]
  simp [cbCtrl]

/-! ## The rest of the tick -/

theorem parManage_frame (s : Logic) :
    s.parManage.cb = s.cb ∧ s.parManage.lga.chargeCmd = s.lga.chargeCmd ∧
      s.parManage.sys = s.sys ∧ s.parManage.lga.cbSys = s.lga.cbSys := by
  unfold parManage
  split
  · split_ifs <;> exact ⟨rfl, rfl, rfl, rfl⟩
  · dsimp only
    split_ifs <;> exact ⟨rfl, rfl, rfl, rfl⟩
  · exact ⟨rfl, rfl, rfl, rfl⟩

theorem userRecord_frame (i : TickIn) (s : Logic) :
    (s.userRecord i).cb = s.cb ∧ (s.userRecord i).lga.chargeCmd = s.lga.chargeCmd ∧
      (s.userRecord i).can = s.can ∧ (s.userRecord i).sys = s.sys ∧
      (s.userRecord i).lga.cbSys = s.lga.cbSys := by
  unfold userRecord
  split_ifs <;> exact ⟨rfl, rfl, rfl, rfl, rfl⟩

theorem setInputOf_frame (s : Logic) (c : UInt16) (f : InputStyp → InputStyp) :
    (s.setInputOf c f).cb = s.cb ∧ (s.setInputOf c f).lga.chargeCmd = s.lga.chargeCmd ∧
      (s.setInputOf c f).sys = s.sys := by
  unfold setInputOf
  split <;> exact ⟨rfl, rfl, rfl⟩

theorem hmiInputUpdate_frame (s : Logic) :
    s.hmiInputUpdate.cb = s.cb ∧ s.hmiInputUpdate.lga.chargeCmd = s.lga.chargeCmd ∧
      s.hmiInputUpdate.sys = s.sys := by
  unfold hmiInputUpdate
  dsimp only
  split
  · exact setInputOf_frame s _ _
  · exact setInputOf_frame { s with lga := { s.lga with sysModeSet := sysModeCharge } } _ _
  all_goals exact ⟨rfl, rfl, rfl⟩

theorem beforeDcDc_frame (i : TickIn) (s : Logic) :
    (s.beforeDcDc i).cb = s.cb ∧ (s.beforeDcDc i).lga.chargeCmd = s.lga.chargeCmd :=
  ⟨((s.environment i).digitalInputUpdate i).hmiInputUpdate_frame.1,
    ((s.environment i).digitalInputUpdate i).hmiInputUpdate_frame.2.1⟩

/-- `CanOutputUpdate` puts the command of every module into `AppBuf`. -/
theorem canOutputUpdate_cmd (s : Logic) (k : ModuleId) :
    s.canOutputUpdate.can.ram (appBuf (.chargeCmd k)) = (s.lga.chargeCmd k).cmd := by
  have h := readBytes_writeAll (fun k => appBuf (.chargeCmd k)) (fun k => (s.lga.chargeCmd k).bytes)
    (l := List.finRange 5) (i := k)
    (m := writeAll (fun k => appBuf (.wPara k)) (fun k => (s.lga.cbWPara k).toList)
      (List.finRange 5) s.can.ram)
    (List.nodup_finRange 5) (List.mem_finRange k) fun j _ hj => by
      simp only [ChargeCmd.length_bytes]
      exact appBuf_apart (f := .chargeCmd j) (g := .chargeCmd k) (by simpa using hj)
  exact readBytes_head h

/-! ## One tick -/

/-- The call of `CbCtrl` of module `k` in the tick. -/
def call (s : Logic) (i : TickIn) (k : ModuleId) : CbRun := ((s.beforeDcDc i).atCall k).cbRun k

variable (s : Logic) (i : TickIn) (k : ModuleId)

theorem call_eq : s.call i k =
    (s.cb k).cbCtrl ((s.beforeDcDc i).cbIn k) (s.lga.chargeCmd k).cmd := by
  unfold call
  rw [atCall_cbRun]
  unfold cbRun
  rw [(s.beforeDcDc_frame i).1, (s.beforeDcDc_frame i).2]

theorem tick_cb : (s.tick i).cb k = (s.call i k).mode := by
  unfold tick afterCanOutput
  rw [(userRecord_frame i _).1]
  show (s.beforeDcDc i).dcDcManage.parManage.cb k = _
  rw [(parManage_frame _).1, dcDcManage_cb, call, atCall_cbRun]

theorem tick_cmd : ((s.tick i).lga.chargeCmd k).cmd = (s.call i k).cmd := by
  unfold tick afterCanOutput
  rw [(userRecord_frame i _).2.1]
  show ((s.beforeDcDc i).dcDcManage.parManage.lga.chargeCmd k).cmd = _
  rw [(parManage_frame _).2.1, dcDcManage_cmd, call, atCall_cbRun]

/-- After a tick the cyclic message of a module carries what its call left. -/
theorem tick_appBuf : (s.tick i).can.ram (appBuf (.chargeCmd k)) = (s.call i k).cmd := by
  unfold tick afterCanOutput
  rw [(userRecord_frame i _).2.2.1, canOutputUpdate_cmd, (parManage_frame _).2.1, dcDcManage_cmd,
    call, atCall_cbRun]

end Logic

/-! ## Runs -/

section
variable (ins : Nat → TickIn) (n : Nat) (k : ModuleId)

theorem logicAt_succ : logicAt ins (n + 1) = (logicAt ins n).tick (ins n) := rfl

/-- The call of `CbCtrl` of module `k` in tick `n`. -/
def callAt : CbRun := (logicAt ins n).call (ins n) k

/-- What module `k` reads in tick `n`. -/
def cbInAt : CbIn := ((logicAt ins n).beforeDcDc (ins n)).cbIn k

theorem callAt_eq : callAt ins n k = ((logicAt ins n).cb k).cbCtrl (cbInAt ins n k)
    ((logicAt ins n).lga.chargeCmd k).cmd :=
  (logicAt ins n).call_eq (ins n) k

end

/-! ## What becomes of the module records -/

namespace Logic

theorem setInputOf_cbSys (s : Logic) (c : UInt16) (f : InputStyp → InputStyp) (k : ModuleId) :
    (s.setInputOf c f).lga.cbSys k =
      if moduleOf c = some k then { s.lga.cbSys k with input := f (s.lga.cbSys k).input }
      else s.lga.cbSys k := by
  unfold setInputOf
  cases hm : moduleOf c with
  | none => simp
  | some j =>
    by_cases hj : j = k
    · subst hj
      simp [setInput]
    · simp [setInput, hj, Function.update_of_ne (Ne.symm hj)]

/-- The mode command that `HmiInputUpdate` consumes: its module and its mode. -/
def modeCommand (s : Logic) : Option (ModuleId × UInt16) :=
  if s.hmiAddr = some .chargeCmd then
    (moduleOf s.hmi.ctrCmd.chargeCmd.cmd1).map fun k => (k, s.hmi.ctrCmd.chargeCmd.cmd2)
  else none

/-- `HmiInputUpdate` keeps the outputs of every module and sets the mode of the
one whose command it consumes. -/
theorem hmiInputUpdate_output (s : Logic) (k : ModuleId) :
    (s.hmiInputUpdate.lga.cbSys k).output = (s.lga.cbSys k).output := by
  unfold hmiInputUpdate
  dsimp only
  split
  · simp only [lower, setInputOf_cbSys]
    split_ifs <;> rfl
  · simp only [lower, setInputOf_cbSys]
    split_ifs <;> rfl
  all_goals rfl

theorem hmiInputUpdate_mode_of_ne (s : Logic) (k : ModuleId)
    (h : ∀ v, s.modeCommand ≠ some (k, v)) :
    (s.hmiInputUpdate.lga.cbSys k).input.chargeModeSet =
      (s.lga.cbSys k).input.chargeModeSet := by
  unfold hmiInputUpdate
  dsimp only
  split
  · simp only [lower, setInputOf_cbSys]
    split_ifs
    · simp only [setChargeEnable]
      split_ifs <;> rfl
    · rfl
  next ha =>
    simp only [lower, setInputOf_cbSys]
    rw [if_neg]
    intro hm
    exact h s.hmi.ctrCmd.chargeCmd.cmd2 (by simp [modeCommand, ha, hm])
  all_goals rfl

theorem hmiInputUpdate_mode (s : Logic) (k : ModuleId) (v : UInt16)
    (h : s.modeCommand = some (k, v)) :
    (s.hmiInputUpdate.lga.cbSys k).input.chargeModeSet = v := by
  unfold modeCommand at h
  split_ifs at h with ha
  obtain ⟨j, hj, he⟩ := Option.map_eq_some_iff.mp h
  simp only [Prod.mk.injEq] at he
  obtain ⟨rfl, rfl⟩ := he
  simp [hmiInputUpdate, ha, lower, setInputOf_cbSys, hj]

/-- Up to the state machines of the modules nothing touches the outputs. -/
theorem beforeDcDc_output (i : TickIn) (s : Logic) (k : ModuleId) :
    ((s.beforeDcDc i).lga.cbSys k).output = (s.lga.cbSys k).output :=
  hmiInputUpdate_output ((s.environment i).digitalInputUpdate i) k

/-- The call of one module keeps the inputs and `chargeComplet` of all. -/
theorem cbCtrl_cbSys (s : Logic) (j k : ModuleId) :
    ((s.cbCtrl j).lga.cbSys k).input = (s.lga.cbSys k).input ∧
      ((s.cbCtrl j).lga.cbSys k).output.chargeComplet = (s.lga.cbSys k).output.chargeComplet := by
  unfold cbCtrl
  by_cases hj : k = j
  · subst hj
    simp
  · simp [Function.update_of_ne hj]

theorem tick_cbSys (s : Logic) (i : TickIn) (k : ModuleId) :
    ((s.tick i).lga.cbSys k).input = ((s.beforeDcDc i).lga.cbSys k).input ∧
      ((s.tick i).lga.cbSys k).output.chargeComplet = (s.lga.cbSys k).output.chargeComplet := by
  have hrest : (s.tick i).lga.cbSys = (s.beforeDcDc i).dcDcManage.lga.cbSys := by
    unfold tick afterCanOutput
    rw [(userRecord_frame i _).2.2.2.2]
    exact (parManage_frame _).2.2.2
  rw [hrest, ← beforeDcDc_output i s k]
  exact ⟨scan_frame (fun t : Logic => (t.lga.cbSys k).input)
      (fun j _ t => (cbCtrl_cbSys t j k).1) _,
    scan_frame (fun t : Logic => (t.lga.cbSys k).output.chargeComplet)
      (fun j _ t => (cbCtrl_cbSys t j k).2) _⟩

end Logic

section
variable (ins : Nat → TickIn)

/-- Nothing ever sets `chargeComplet`. -/
theorem chargeComplet_false (n : Nat) (k : ModuleId) :
    ((logicAt ins n).lga.cbSys k).output.chargeComplet = false := by
  induction n with
  | zero => rfl
  | succ n ih =>
    rw [logicAt_succ, (Logic.tick_cbSys _ _ k).2]
    exact ih

theorem cbInAt_chargeComplet (n : Nat) (k : ModuleId) :
    (cbInAt ins n k).sys.output.chargeComplet = false := by
  have h := Logic.beforeDcDc_output (ins n) (logicAt ins n) k
  show (((logicAt ins n).beforeDcDc (ins n)).lga.cbSys k).output.chargeComplet = false
  rw [h]
  exact chargeComplet_false ins n k

end

/-! ## Inputs of concrete runs -/

/-- A tick in which nothing happens. -/
def quietTick : TickIn := ⟨[], id, false, false, false, .replicate 28 0⟩

/-- The touch screen sends a mode command for module `k`. -/
def writeMode (k : ModuleId) (mode : UInt16) (h : Hmi) : Hmi :=
  { h with
    wAddrFlag := Function.update h.wAddrFlag .chargeCmd true
    ctrCmd := { h.ctrCmd with chargeCmd := ⟨UInt16.ofNat (k + 1), mode⟩ } }

/-- MANUAL for module 1 in the first tick, with the system in STOP. -/
def manualAtPowerOn (n : Nat) : TickIn :=
  if n = 0 then { quietTick with modbus := writeMode 0 chargeModeManual } else quietTick

end SC04Monitor.UserApp
