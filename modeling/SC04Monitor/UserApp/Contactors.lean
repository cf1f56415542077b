import SC04Monitor.UserApp.PrechargeSafety
import SC04Monitor.UserApp.LogicTick

/-! # The contactors over whole runs

`System_Output` runs the routine of the selected output mode, and two of the six
routines may leave the contactors as they are. Three facts about every run: the
output mode is the one of the state, the contactors exclude one another as long
as the device test is never entered, and a severe fault opens them. The first
fails in one branch of `ChargeModeManage`; the third holds wherever the system
does not sleep, which takes precedence over a fault in every state. -/

namespace SC04Monitor.UserApp
open SC04Monitor.Lib.Run SC04Monitor.Lib.Scan SC04Monitor.Can

/-! ## State and output mode -/

/-- The output mode is the one that belongs to the state. -/
def SystemMode.Agrees (m : SystemMode) : Prop := m.systemOutput = SystemMode.outOf m.systemState

instance (m : SystemMode) : Decidable m.Agrees := inferInstanceAs (Decidable (_ = _))

/-- The call takes the branch from the device test to sleep. -/
def SleepsFromTest (m : SystemMode) (i : SysIn) : Prop :=
  m.systemState = .test ∧ i.sysModeSet = sysModeSleep

theorem SystemMode.chargeModeManage_from_test {m : SystemMode} {i : SysIn}
    (h : SleepsFromTest m i) : m.chargeModeManage i = { m with systemState := .sleep } := by
  unfold chargeModeManage
  rw [h.1]
  exact if_pos h.2

/-- Only that branch goes from the device test to sleep. -/
theorem SystemMode.sleepsFromTest_of_sleep {m : SystemMode} {i : SysIn}
    (hm : m.systemState = .test) (h : (m.chargeModeManage i).systemState = .sleep) :
    SleepsFromTest m i := by
  refine ⟨hm, ?_⟩
  unfold chargeModeManage at h
  rw [hm] at h
  by_contra hs
  simp only [hs, ↓reduceIte] at h
  split_ifs at h <;> simp [goto] at h

/-- **State and output mode.** In every reachable state, a call of
`ChargeModeManage` selects the output mode of the new state exactly when it does
not take the branch from the device test to sleep. -/
theorem output_agrees_iff (ins : Nat → SysIn) (n : Nat) :
    ((sysAt ins n).mode.chargeModeManage (ins n)).Agrees ↔
      ¬ SleepsFromTest (sysAt ins n).mode (ins n) := by
  constructor
  · intro ha hs
    have hagree : (sysAt ins n).TestAgrees := sysAt_testAgrees n
    have hout := hagree hs.1
    rw [SystemMode.chargeModeManage_from_test hs] at ha
    -- the branch keeps the output mode of the device test
    have hne : SysOut.test ≠ SystemMode.outOf .sleep := by decide
    exact hne (hout.symm.trans ha)
  · intro hs
    rcases (sysAt ins n).mode.chargeModeManage_output (ins n) with ho | ⟨ht, hsleep, _⟩
    · exact ho
    · exact absurd (SystemMode.sleepsFromTest_of_sleep ht hsleep) hs

/-- The device test, then the sleep command. -/
def testThenSleep (n : Nat) : SysIn :=
  { quietIn false false with
    sysModeSet := if n = 0 then sysModeDeviceTest else sysModeSleep
    sleepCmd := inSleep }

/-- The system sleeps, and the routine of the device test goes on running. -/
theorem output_disagrees :
    ((sysAt testThenSleep 1).mode.chargeModeManage (testThenSleep 1)).systemState = .sleep ∧
      ((sysAt testThenSleep 1).mode.chargeModeManage (testThenSleep 1)).systemOutput = .test ∧
      ¬ ((sysAt testThenSleep 1).mode.chargeModeManage (testThenSleep 1)).Agrees := by
  refine ⟨by decide, by decide, by decide⟩

/-! ## Exclusion -/

/-- The precharge contactor and the second main contactor exclude one another,
the second main contactor needs the first, and the outputs are open. -/
structure OutFlags.Exclusive (o : OutFlags) : Prop where
  pre : ¬ (o.preConN = true ∧ o.mainCon2N = true)
  main : o.mainCon2N = true → o.mainCon1N = true
  out : ∀ k, o.outConN k = false

theorem OutFlags.exclusive_off : OutFlags.off.Exclusive :=
  ⟨fun h => Bool.false_ne_true h.1, fun h => absurd h Bool.false_ne_true, fun _ => rfl⟩

/-- Every output routine but the one of the device test keeps the exclusion. -/
theorem SystemMode.systemOutputCal_exclusive {i : SysIn} {m : SystemMode} {o : OutFlags}
    (h : o.Exclusive) (ht : m.systemOutput ≠ .test) :
    (m.systemOutputCal i o).2.Exclusive := by
  unfold systemOutputCal
  cases hm : m.systemOutput with
  | stop | fault =>
    simp only [stopCal, faultCal]
    split_ifs
    · exact OutFlags.exclusive_off
    · exact h
  | precharge =>
    simp only [preChargeCal]
    split_ifs <;> exact ⟨by simp [OutFlags.off], by simp [OutFlags.off], fun _ => rfl⟩
  | standby => exact ⟨by simp [standbyCal], fun _ => rfl, h.out⟩
  | test => exact absurd hm ht
  | sleep => exact h

/-- **Contactor exclusion.** It holds at the end of every tick of a run that has
not been in TEST. -/
theorem contactor_exclusion (ins : Nat → SysIn) (n : Nat)
    (h : ∀ j ≤ n, (sysAt ins j).mode.systemState ≠ .test) : (sysAt ins n).out.Exclusive := by
  induction n with
  | zero => exact OutFlags.exclusive_off
  | succ n ih =>
    have hprev := ih fun j hj => h j (by omega)
    exact SystemMode.systemOutputCal_exclusive hprev
      (output_ne_test (h n (by omega)) (h (n + 1) (Nat.le_refl _)))

/-- A precharge that is complete in the first tick. -/
theorem contactor_exclusion_first_tick :
    (sysAt (fun _ => quietIn true true) 1).out.mainCon2N = true ∧
      (sysAt (fun _ => quietIn true true) 1).out.Exclusive := by
  refine ⟨by decide, contactor_exclusion _ 1 ?_⟩
  intro j hj
  obtain rfl | rfl : j = 0 ∨ j = 1 := by omega
  all_goals decide

/-! ## The system part of the logic task -/

namespace Logic

theorem inputs_sys (i : TickIn) (s : Logic) : (s.inputs i).sys = s.sys :=
  ((s.environment i).digitalInputUpdate i).hmiInputUpdate_frame.2.2

theorem dcDcManage_frame (s : Logic) :
    s.dcDcManage.sys = s.sys ∧ s.dcDcManage.lga.sysModeSet = s.lga.sysModeSet :=
  ⟨scan_frame (fun t : Logic => t.sys) (fun j _ t => show (cbCtrl t j).sys = t.sys from rfl) s,
    scan_frame (fun t : Logic => t.lga.sysModeSet)
      (fun j _ t => show (cbCtrl t j).lga.sysModeSet = t.lga.sysModeSet from rfl) s⟩

/-- A tick of the task is, for the system part, one tick of the state machine. -/
theorem tick_sys (s : Logic) (i : TickIn) : (s.tick i).sys = s.sys.tick (s.inputs i).sysIn := by
  unfold tick afterCanOutput
  rw [(userRecord_frame i _).2.2.2.1]
  show (s.beforeDcDc i).dcDcManage.parManage.sys = _
  rw [(parManage_frame _).2.2.1, (dcDcManage_frame _).1]
  show (s.inputs i).sys.tick (s.inputs i).sysIn = _
  rw [inputs_sys]

end Logic

/-- What the system state machine reads in tick `n`. -/
def sysInAt (ins : Nat → TickIn) (n : Nat) : SysIn := ((logicAt ins n).inputs (ins n)).sysIn

/-- The system part of a run of the logic task is a run of the state machine. -/
theorem logicAt_sys (ins : Nat → TickIn) : ∀ n, (logicAt ins n).sys = sysAt (sysInAt ins) n
  | 0 => rfl
  | n + 1 => by
    rw [logicAt_succ, Logic.tick_sys, logicAt_sys ins n]
    rfl

/-! ## The mode that is set -/

/-- The values that `HmiInputUpdate` stores in `SysModeSet`. -/
def Commanded (c : UInt16) : Prop :=
  c = sysModeCharge ∨ c = sysModeDeviceTest ∨ c = sysModeSleep

namespace Logic

theorem setInputOf_sysModeSet (s : Logic) (c : UInt16) (f : InputStyp → InputStyp) :
    (s.setInputOf c f).lga.sysModeSet = s.lga.sysModeSet := by
  unfold setInputOf
  split <;> rfl

/-- The commands that set `SysModeSet`, with what they set it to. -/
def modeOf : HmiAddr → Option UInt16
  | .chargeCmd => some sysModeCharge
  | .devTest => some sysModeDeviceTest
  | .sleep => some sysModeSleep
  | _ => none

theorem hmiInputUpdate_sysModeSet (s : Logic) :
    s.hmiInputUpdate.lga.sysModeSet = (s.hmiAddr.bind modeOf).getD s.lga.sysModeSet := by
  unfold hmiInputUpdate
  cases s.hmiAddr with
  | none => rfl
  | some a => cases a <;> simp [lower, setInputOf_sysModeSet, modeOf]

theorem commanded_of_modeOf {a : HmiAddr} {c : UInt16} (h : modeOf a = some c) : Commanded c := by
  cases a with
  | chargeCmd => exact .inl (Option.some.inj h).symm
  | devTest => exact .inr (.inl (Option.some.inj h).symm)
  | sleep => exact .inr (.inr (Option.some.inj h).symm)
  | chargeEn | restart | restore | wMbPara | wCbPara _ | wMbRtc => cases h

theorem hmiInputUpdate_commanded {s : Logic} (h : Commanded s.lga.sysModeSet) :
    Commanded s.hmiInputUpdate.lga.sysModeSet := by
  rw [hmiInputUpdate_sysModeSet]
  cases hmode : s.hmiAddr.bind modeOf with
  | none => exact h
  | some c =>
    obtain ⟨a, -, ha⟩ := Option.bind_eq_some_iff.mp hmode
    exact commanded_of_modeOf ha

theorem inputs_commanded {s : Logic} (i : TickIn) (h : Commanded s.lga.sysModeSet) :
    Commanded (s.inputs i).lga.sysModeSet := by
  have hread : (s.inputs i).lga.sysModeSet =
      ((s.environment i).digitalInputUpdate i).hmiInputUpdate.lga.sysModeSet := rfl
  rw [hread]
  exact hmiInputUpdate_commanded h

theorem parManage_sysModeSet (s : Logic) : s.parManage.lga.sysModeSet = s.lga.sysModeSet := by
  unfold parManage
  split
  · split_ifs <;> rfl
  · dsimp only
    split_ifs <;> rfl
  · rfl

theorem userRecord_sysModeSet (i : TickIn) (s : Logic) :
    (s.userRecord i).lga.sysModeSet = s.lga.sysModeSet := by
  unfold userRecord
  split_ifs <;> rfl

/-- After the inputs nothing changes the mode that is set. -/
theorem tick_sysModeSet (s : Logic) (i : TickIn) :
    (s.tick i).lga.sysModeSet = (s.inputs i).lga.sysModeSet := by
  unfold tick afterCanOutput
  rw [userRecord_sysModeSet]
  show (s.beforeDcDc i).dcDcManage.parManage.lga.sysModeSet = _
  rw [parManage_sysModeSet, (dcDcManage_frame _).2]
  rfl

end Logic

theorem logicAt_commanded (ins : Nat → TickIn) (n : Nat) :
    Commanded (logicAt ins n).lga.sysModeSet := by
  refine stateAt_inv (P := fun s : Logic => Commanded s.lga.sysModeSet) (.inl rfl) ?_ n
  intro s i h
  rw [Logic.tick_sysModeSet]
  exact s.inputs_commanded i h

theorem sysInAt_commanded (ins : Nat → TickIn) (n : Nat) : Commanded (sysInAt ins n).sysModeSet :=
  (logicAt ins n).inputs_commanded (ins n) (logicAt_commanded ins n)

/-! ## The reaction to a severe fault -/

/-- A severe fault while no module charges and no device test is asked for. -/
structure SysIn.SevereFault (i : SysIn) : Prop where
  fault : i.sFault = true
  idle : ∀ k, i.charging k = false
  mode : i.sysModeSet ≠ sysModeDeviceTest

/-- Where `ChargeModeManage` goes under a severe fault. -/
theorem SystemMode.chargeModeManage_severe {m : SystemMode} {i : SysIn} (h : i.SevereFault)
    (hc : Commanded i.sysModeSet) :
    (m.chargeModeManage i).systemState = .sleep ∨
      (m.chargeModeManage i).systemOutput = .fault ∧ (m.chargeModeManage i).systemState = .fault ∨
      (m.chargeModeManage i).systemOutput = .stop ∧ (m.chargeModeManage i).systemState = .stop := by
  have hf := h.fault
  have hmode : i.sysModeSet = sysModeCharge ∨ i.sysModeSet = sysModeSleep := by
    rcases hc with hc | hc | hc
    · exact .inl hc
    · exact absurd hc h.mode
    · exact .inr hc
  have hct : sysModeCharge ≠ sysModeDeviceTest := by decide
  have hcs : sysModeCharge ≠ sysModeSleep := by decide
  unfold chargeModeManage
  rcases hmode with hmode | hmode <;> cases m.systemState <;> simp only [hmode, hf] <;>
    split_ifs <;> simp_all [goto]

namespace SysMachine

/-- Under a severe fault a tick opens the contactors or ends in SLEEP. -/
theorem tick_severe {s : SysMachine} {i : SysIn} (h : i.SevereFault)
    (hc : Commanded i.sysModeSet) :
    (s.tick i).mode.systemState = .sleep ∨
      (s.tick i).out = .off ∧ (s.tick i).mode.systemState ≠ .test := by
  rw [tick_systemState]
  rcases SystemMode.chargeModeManage_severe (m := s.mode) h hc with hs | ⟨ho, hs⟩ | ⟨ho, hs⟩
  · exact .inl hs
  all_goals
    refine .inr ⟨?_, by rw [hs]; decide⟩
    unfold tick SystemMode.systemOutputCal
    simp only [ho]
    exact if_pos h.idle

/-- Sleeping, but for the branch from the device test, leaves the contactors. -/
theorem tick_sleep {s : SysMachine} {i : SysIn} (ht : s.mode.systemState ≠ .test)
    (h : (s.tick i).mode.systemState = .sleep) : (s.tick i).out = s.out := by
  rw [tick_systemState] at h
  have ho : (s.mode.chargeModeManage i).systemOutput = .sleep := by
    rw [output_of_state ht, h]
    rfl
  unfold tick SystemMode.systemOutputCal
  simp only [ho]
  rfl

end SysMachine

/-- **The reaction to a severe fault.** In every run and for every two ticks in a
row with a severe fault, no module charging and no device test asked for, all
contactors are open after the second tick, unless the system sleeps through both:
SLEEP does not look at faults and leaves the contactors as they are. -/
theorem severe_fault_opens (ins : Nat → TickIn) (n : Nat) (h₁ : (sysInAt ins n).SevereFault)
    (h₂ : (sysInAt ins (n + 1)).SevereFault) :
    (logicAt ins (n + 2)).sys.out = .off ∨
      (logicAt ins (n + 1)).sys.mode.systemState = .sleep ∧
        (logicAt ins (n + 2)).sys.mode.systemState = .sleep ∧
        (logicAt ins (n + 2)).sys.out = (logicAt ins (n + 1)).sys.out := by
  simp only [logicAt_sys]
  have hfirst := SysMachine.tick_severe (s := sysAt (sysInAt ins) n) h₁ (sysInAt_commanded ins n)
  have hsecond := SysMachine.tick_severe (s := sysAt (sysInAt ins) (n + 1)) h₂
    (sysInAt_commanded ins (n + 1))
  rcases hsecond with hsleep | ⟨hoff, _⟩
  · rcases hfirst with hs | ⟨hoff, hne⟩
    · refine .inr ⟨hs, hsleep, SysMachine.tick_sleep (fun ht => ?_) hsleep⟩
      -- asleep is not in the device test
      exact absurd (hs.symm.trans ht) (by decide)
    · -- the first tick has opened them, falling asleep leaves them open
      exact .inl ((SysMachine.tick_sleep hne hsleep).trans hoff)
  · exact .inl hoff

/-- The touch screen sends a sleep command. -/
def writeSleep (cmd : UInt16) (h : Hmi) : Hmi :=
  { h with
    wAddrFlag := Function.update h.wAddrFlag .sleep true
    ctrCmd := { h.ctrCmd with sleepCmd := cmd } }

/-- The start button closes the precharge contactor in tick 0 and a severe fault
stands from tick 1 on. -/
def faultInPrecharge (n : Nat) : TickIn :=
  if n = 0 then { quietTick with cabinetEnN := true } else { quietTick with sFault := true }

theorem severe_fault_opens_precharge : (logicAt faultInPrecharge 1).sys.out.preConN = true ∧
    ((logicAt faultInPrecharge 3).sys.out = .off ∨
      (logicAt faultInPrecharge 2).sys.mode.systemState = .sleep ∧
        (logicAt faultInPrecharge 3).sys.mode.systemState = .sleep ∧
        (logicAt faultInPrecharge 3).sys.out = (logicAt faultInPrecharge 2).sys.out) := by
  refine ⟨by decide, severe_fault_opens faultInPrecharge 1 ?_ ?_⟩
  all_goals exact ⟨by decide, by decide, by decide⟩

/-- As before, and the sleep command comes together with the fault. -/
def faultInSleep (n : Nat) : TickIn :=
  if n = 1 then { faultInPrecharge 1 with modbus := writeSleep inSleep } else faultInPrecharge n

theorem severe_fault_asleep :
    (sysInAt faultInSleep 1).SevereFault ∧ (sysInAt faultInSleep 2).SevereFault ∧
      (logicAt faultInSleep 3).sys.out.preConN = true := by
  refine ⟨⟨by decide, by decide, by decide⟩, ⟨by decide, by decide, by decide⟩, by decide⟩

end SC04Monitor.UserApp
