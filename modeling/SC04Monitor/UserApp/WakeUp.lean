import SC04Monitor.UserApp.Contactors

/-! # Waking up

Sleep is asked for twice over: `SysModeSet` sends every state to SLEEP, `SleepCmd` decides
whether SLEEP is left. The command to wake up sets both, and the mode that it sets is
SLEEP: from STOP the system goes back where it came from. -/

namespace SC04Monitor.UserApp
open SC04Monitor.Lib.Run

/-- Who goes to SLEEP and who stays there. -/
theorem SystemMode.chargeModeManage_sleep_iff {i : SysIn} {m : SystemMode} :
    (m.chargeModeManage i).systemState = .sleep ↔
      if m.systemState = .sleep then i.sleepCmd = inSleep else i.sysModeSet = sysModeSleep := by
  unfold chargeModeManage
  cases h : m.systemState <;> simp only [reduceCtorEq, ↓reduceIte] <;> split_ifs <;>
    simp_all [goto]

namespace Logic

theorem hmiInputUpdate_sleepCmd {s : Logic} (h : s.hmiAddr = some .sleep) :
    s.hmiInputUpdate.lga.sleepCmd = s.hmi.ctrCmd.sleepCmd := by
  unfold hmiInputUpdate
  dsimp only
  rw [h]
  rfl

end Logic

section
variable (ins : Nat → TickIn) (n : Nat)

/-- What the other tasks have left when tick `n` calls `HmiInputUpdate`. -/
def hmiInputAt : Logic := ((logicAt ins n).environment (ins n)).digitalInputUpdate (ins n)

/-- The command that tick `n` consumes. -/
def commandAt : Option HmiAddr := (hmiInputAt ins n).hmiAddr

/-- Tick `n` finds the system in SLEEP and consumes the command to wake up. -/
structure WakesUp : Prop where
  asleep : (logicAt ins n).sys.mode.systemState = .sleep
  command : commandAt ins n = some .sleep
  out : (hmiInputAt ins n).hmi.ctrCmd.sleepCmd = outSleep

/-- Tick `n` leaves SLEEP, and no later one enters it before the next sleep command. -/
structure StaysAwake : Prop where
  leaves : (logicAt ins (n + 1)).sys.mode.systemState ≠ .sleep
  stays : ∀ m, n < m → (∀ j, n < j → j ≤ m → commandAt ins j ≠ some .sleep) →
    (logicAt ins (m + 1)).sys.mode.systemState ≠ .sleep

theorem logicAt_succ_sleep_iff :
    (logicAt ins (n + 1)).sys.mode.systemState = .sleep ↔
      if (logicAt ins n).sys.mode.systemState = .sleep then (sysInAt ins n).sleepCmd = inSleep
      else (sysInAt ins n).sysModeSet = sysModeSleep := by
  rw [logicAt_succ, Logic.tick_sys, SysMachine.tick_systemState]
  exact SystemMode.chargeModeManage_sleep_iff

theorem sysInAt_sysModeSet :
    (sysInAt ins n).sysModeSet =
      ((commandAt ins n).bind Logic.modeOf).getD (logicAt ins n).lga.sysModeSet :=
  Logic.hmiInputUpdate_sysModeSet (hmiInputAt ins n)

theorem logicAt_succ_sysModeSet :
    (logicAt ins (n + 1)).lga.sysModeSet = (sysInAt ins n).sysModeSet :=
  Logic.tick_sysModeSet (logicAt ins n) (ins n)

end

section
variable {ins : Nat → TickIn} {n : Nat}

theorem WakesUp.leaves (h : WakesUp ins n) :
    (logicAt ins (n + 1)).sys.mode.systemState ≠ .sleep := by
  have hcmd : (sysInAt ins n).sleepCmd = outSleep :=
    (Logic.hmiInputUpdate_sleepCmd h.command).trans h.out
  rw [Ne, logicAt_succ_sleep_iff, if_pos h.asleep, hcmd]
  decide

/-- The mode stays SLEEP. -/
theorem WakesUp.sysModeSet (h : WakesUp ins n) :
    (logicAt ins (n + 1)).lga.sysModeSet = sysModeSleep := by
  rw [logicAt_succ_sysModeSet, sysInAt_sysModeSet, h.command]
  rfl

/-- The next tick decides. -/
theorem WakesUp.next_iff (h : WakesUp ins n) :
    (logicAt ins (n + 2)).sys.mode.systemState ≠ .sleep ↔
      commandAt ins (n + 1) = some .chargeCmd ∨ commandAt ins (n + 1) = some .devTest := by
  rw [Ne, logicAt_succ_sleep_iff, if_neg h.leaves, sysInAt_sysModeSet, h.sysModeSet]
  cases commandAt ins (n + 1) with
  | none => simp
  | some a => cases a <;> simp [Logic.modeOf] <;> decide

/-- Awake in another mode than SLEEP the system stays awake. -/
theorem awake_succ (hmode : (logicAt ins n).lga.sysModeSet ≠ sysModeSleep)
    (hstate : (logicAt ins n).sys.mode.systemState ≠ .sleep)
    (hcmd : commandAt ins n ≠ some .sleep) :
    (logicAt ins (n + 1)).lga.sysModeSet ≠ sysModeSleep ∧
      (logicAt ins (n + 1)).sys.mode.systemState ≠ .sleep := by
  have hset : (sysInAt ins n).sysModeSet ≠ sysModeSleep := by
    rw [sysInAt_sysModeSet]
    generalize commandAt ins n = c at hcmd
    cases c with
    | none => exact hmode
    | some a =>
      cases a with
      | sleep => exact absurd rfl hcmd
      | chargeCmd => exact show sysModeCharge ≠ sysModeSleep by decide
      | devTest => exact show sysModeDeviceTest ≠ sysModeSleep by decide
      | chargeEn | restart | restore | wMbPara | wCbPara _ | wMbRtc => exact hmode
  refine ⟨by rwa [logicAt_succ_sysModeSet], ?_⟩
  rw [Ne, logicAt_succ_sleep_iff, if_neg hstate]
  exact hset

end

/-- **Waking up.** The system stays awake exactly if the tick after the command brings
another one that sets the mode. -/
theorem wake_up_iff (ins : Nat → TickIn) (n : Nat) (h : WakesUp ins n) :
    StaysAwake ins n ↔ commandAt ins (n + 1) = some .chargeCmd ∨
      commandAt ins (n + 1) = some .devTest ∨ commandAt ins (n + 1) = some .sleep := by
  rw [← or_assoc, ← h.next_iff]
  constructor
  · intro hawake
    by_cases hcmd : commandAt ins (n + 1) = some .sleep
    · exact Or.inr hcmd
    · refine Or.inl (hawake.stays (n + 1) (Nat.lt_succ_self n) fun j hj hjn => ?_)
      rwa [show j = n + 1 by omega]
  · rintro (hnext | hcmd)
    · refine ⟨h.leaves, fun m hm hnone => ?_⟩
      -- from tick `n + 1` on the mode is not SLEEP
      have hrun : (logicAt ins (m + 1)).lga.sysModeSet ≠ sysModeSleep ∧
          (logicAt ins (m + 1)).sys.mode.systemState ≠ .sleep := by
        induction m, hm using Nat.le_induction with
        | base =>
          refine ⟨?_, hnext⟩
          rw [logicAt_succ_sysModeSet, sysInAt_sysModeSet]
          rcases h.next_iff.mp hnext with hc | hc
          · rw [hc]
            exact show sysModeCharge ≠ sysModeSleep by decide
          · rw [hc]
            exact show sysModeDeviceTest ≠ sysModeSleep by decide
        | succ m hm ih =>
          obtain ⟨hmode, hstate⟩ := ih fun j hj hjm => hnone j hj (by omega)
          exact awake_succ hmode hstate (hnone (m + 1) (by omega) (Nat.le_refl _))
      exact hrun.2
    · exact ⟨h.leaves, fun m hm hnone =>
        absurd hcmd (hnone (n + 1) (Nat.lt_succ_self n) hm)⟩

/-- To sleep before tick 0, to wake up before tick 1, and then `later`. -/
def sleepThenWake (later : TickIn) : Nat → TickIn
  | 0 => { quietTick with modbus := writeSleep inSleep }
  | 1 => { quietTick with modbus := writeSleep outSleep }
  | 2 => later
  | _ => quietTick

theorem sleepThenWake_wakes (later : TickIn) : WakesUp (sleepThenWake later) 1 :=
  ⟨rfl, rfl, rfl⟩

/-- With a mode command in time the system stays awake. -/
theorem wake_up_with_mode :
    StaysAwake (sleepThenWake { quietTick with modbus := writeMode 0 chargeModeAuto }) 1 :=
  (wake_up_iff _ 1 (sleepThenWake_wakes _)).mpr (Or.inl rfl)

/-- Without one it is asleep again after the next tick. -/
theorem wake_up_sleeps_again : WakesUp (sleepThenWake quietTick) 1 ∧
    (logicAt (sleepThenWake quietTick) 2).sys.mode.systemState = .stop ∧
    (logicAt (sleepThenWake quietTick) 3).sys.mode.systemState = .sleep ∧
    ¬ StaysAwake (sleepThenWake quietTick) 1 := by
  have hsleep : (logicAt (sleepThenWake quietTick) 3).sys.mode.systemState = .sleep := rfl
  refine ⟨sleepThenWake_wakes _, rfl, hsleep, fun hawake => ?_⟩
  refine hawake.stays 2 (by decide) (fun j hj hj2 => ?_) hsleep
  obtain rfl : j = 2 := by omega
  decide

end SC04Monitor.UserApp
