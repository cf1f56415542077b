import SC04Monitor.Lib.Run
import SC04Monitor.UserApp.AppMonitor

/-! # Precharge safety over whole runs

The main contactors may close only after the bus has been charged through the
precharge resistor: `PRE_CHARGE_DELAY1` ticks, then `PRE_CHARGE_DELAY2` more with
the bus voltage in range. The guard is the latch `PreFinsh` with two counters
that the other output routines reload.

The latch is never cleared and the counters are zero before the first tick, so
the guard is sound exactly for the visits of PRECHARGE that begin after the
first tick with the latch clear. `Visit` is what holds inside such a visit. -/

namespace SC04Monitor.UserApp
open SC04Monitor.Lib.Run

/-! ## What one call of `ChargeModeManage` can do -/

/-- Nothing sends the system to sleep, to the device test, to fault or to stop. -/
def SysIn.Runs (i : SysIn) : Prop :=
  i.sysModeSet ≠ sysModeSleep ∧ i.sysModeSet ≠ sysModeDeviceTest ∧ i.sFault = false ∧
    i.cabinetEnN = true

namespace SystemMode

variable (i : SysIn) (m : SystemMode)

/-- The output mode that belongs to a state. -/
def outOf : SysState → SysOut
  | .stop => .stop
  | .precharge => .precharge
  | .standby => .standby
  | .fault => .fault
  | .test => .test
  | .sleep => .sleep

/-- The counters and the latch are not touched. -/
theorem chargeModeManage_frame :
    (m.chargeModeManage i).preDelayCnt = m.preDelayCnt ∧
      (m.chargeModeManage i).preDelay2Cnt = m.preDelay2Cnt ∧
      (m.chargeModeManage i).preFinsh = m.preFinsh := by
  unfold chargeModeManage
  split <;> split_ifs <;> exact ⟨rfl, rfl, rfl⟩

theorem chargeModeManage_precharge_iff :
    (m.chargeModeManage i).systemState = .precharge ↔
      i.Runs ∧ (m.systemState = .stop ∨ m.systemState = .precharge ∧ m.preFinsh = false) := by
  unfold chargeModeManage SysIn.Runs
  cases h : m.systemState <;> simp only <;> split_ifs <;> simp_all [goto]

theorem chargeModeManage_standby (h : (m.chargeModeManage i).systemState = .standby) :
    m.systemState = .standby ∨ m.systemState = .precharge ∧ m.preFinsh = true := by
  revert h
  unfold chargeModeManage
  cases h : m.systemState <;> simp only <;> split_ifs <;> simp_all [goto]

/-- The output mode is the new state's, but for the one branch that goes from
the device test to sleep. -/
theorem chargeModeManage_output :
    (m.chargeModeManage i).systemOutput = outOf (m.chargeModeManage i).systemState ∨
      m.systemState = .test ∧ (m.chargeModeManage i).systemState = .sleep ∧
        (m.chargeModeManage i).systemOutput = m.systemOutput := by
  unfold chargeModeManage
  cases h : m.systemState <;> simp only <;> split_ifs <;> simp [goto, outOf]

end SystemMode

namespace SysMachine

variable (s : SysMachine) (i : SysIn)

/-- The output routines leave state and output as they were selected. -/
theorem tick_selects :
    (s.tick i).mode.systemState = (s.mode.chargeModeManage i).systemState ∧
      (s.tick i).mode.systemOutput = (s.mode.chargeModeManage i).systemOutput := by
  unfold tick SystemMode.systemOutputCal
  split <;> simp only [SystemMode.stopCal, SystemMode.faultCal, SystemMode.standbyCal,
    SystemMode.devTestCal, SystemMode.sleepCal, SystemMode.reload, and_self]
  unfold SystemMode.preChargeCal
  dsimp only
  constructor <;> split_ifs <;> rfl

theorem tick_systemState :
    (s.tick i).mode.systemState = (s.mode.chargeModeManage i).systemState :=
  (tick_selects s i).1

theorem tick_systemOutput :
    (s.tick i).mode.systemOutput = (s.mode.chargeModeManage i).systemOutput :=
  (tick_selects s i).2

/-- The state's own output routine runs in the device test. -/
def TestAgrees (s : SysMachine) : Prop :=
  s.mode.systemState = .test → s.mode.systemOutput = .test

theorem tick_testAgrees : TestAgrees (s.tick i) := by
  intro h
  rw [tick_systemState] at h
  rw [tick_systemOutput]
  rcases s.mode.chargeModeManage_output i with ho | ⟨_, hs, _⟩
  · rw [ho, h]; rfl
  · rw [h] at hs; cases hs

/-- `PreChargeCal` runs exactly in the ticks that end in PRECHARGE. -/
theorem output_precharge_iff (h : TestAgrees s) :
    (s.mode.chargeModeManage i).systemOutput = .precharge ↔
      (s.mode.chargeModeManage i).systemState = .precharge := by
  rcases s.mode.chargeModeManage_output i with ho | ⟨ht, hs, ho⟩
  · rw [ho]
    cases (s.mode.chargeModeManage i).systemState <;> simp [SystemMode.outOf]
  · rw [ho, h ht, hs]; simp

/-- Both delays are loaded. -/
def Loaded (s : SysMachine) : Prop :=
  s.mode.preDelayCnt = preChargeDelay1 ∧ s.mode.preDelay2Cnt = preChargeDelay2

/-- A tick that runs any routine but `PreChargeCal` loads the delays and leaves
the latch alone. -/
theorem tick_other (h : (s.mode.chargeModeManage i).systemOutput ≠ .precharge) :
    Loaded (s.tick i) ∧ (s.tick i).mode.preFinsh = s.mode.preFinsh := by
  have hf := (s.mode.chargeModeManage_frame i).2.2
  unfold tick SystemMode.systemOutputCal
  split
  case h_2 hp => exact absurd hp h
  all_goals exact ⟨⟨rfl, rfl⟩, hf⟩

end SysMachine

/-! ## Runs -/

/-- The system part before tick `n`. -/
def sysAt (ins : Nat → SysIn) (n : Nat) : SysMachine :=
  stateAt SysMachine.tick SysMachine.init ins n

section
variable (ins : Nat → SysIn)

/-- Tick `j` enters PRECHARGE. -/
def Entry (j : Nat) : Prop :=
  (sysAt ins j).mode.systemState ≠ .precharge ∧ (sysAt ins (j + 1)).mode.systemState = .precharge

/-- Tick `j` executes `PreChargeCal`. -/
def PreTick (j : Nat) : Prop :=
  ((sysAt ins j).mode.chargeModeManage (ins j)).systemOutput = .precharge

/-- Tick `j` executes `PreChargeCal` with the bus voltage in range. -/
def PreTickBusOK (j : Nat) : Prop := PreTick ins j ∧ (ins j).busVoltOK = true

instance : DecidablePred (PreTick ins) := fun _ => inferInstanceAs (Decidable (_ = _))

instance : DecidablePred (PreTickBusOK ins) := fun _ => inferInstanceAs (Decidable (_ ∧ _))

/-- Since the most recent entry into PRECHARGE, the ticks before `n` made the
full precharge sequence: `PRE_CHARGE_DELAY1` ticks of `PreChargeCal` and, after
those, `PRE_CHARGE_DELAY2` more with the bus voltage in range. -/
def FullPrecharge (n : Nat) : Prop :=
  ∃ e m, LastOcc (Entry ins) e n ∧ e ≤ m ∧ m ≤ n ∧
    preChargeDelay1 ≤ window (PreTick ins) e m ∧
    preChargeDelay2 ≤ window (PreTickBusOK ins) m n

/-- Tick `n` takes the system from PRECHARGE to STANDBY. -/
def ToStandby (n : Nat) : Prop :=
  (sysAt ins n).mode.systemState = .precharge ∧ (sysAt ins (n + 1)).mode.systemState = .standby

/-- Tick `n` switches the second main contactor on. -/
def MainCon2On (n : Nat) : Prop :=
  (sysAt ins n).out.mainCon2N = false ∧ (sysAt ins (n + 1)).out.mainCon2N = true

/-- The precharge guard: no transition to STANDBY without the full sequence, and
as long as the system has not been in TEST no closing of the second main
contactor without it. -/
def PrechargeGuard (n : Nat) : Prop :=
  (ToStandby ins n → FullPrecharge ins n) ∧
    ((∀ j ≤ n + 1, (sysAt ins j).mode.systemState ≠ .test) → MainCon2On ins n →
      FullPrecharge ins n)

/-- The tick takes the branch from STOP into PRECHARGE. -/
def EntersPrecharge (s : SysMachine) (i : SysIn) : Prop :=
  s.mode.systemState = .stop ∧ i.Runs

/-- Tick `j` does not enter PRECHARGE as the first tick after power-on, nor with
the latch still set by an earlier precharge. -/
def FreshEntry (j : Nat) : Prop :=
  EntersPrecharge (sysAt ins j) (ins j) → 0 < j ∧ (sysAt ins j).mode.preFinsh = false

end

section
variable {ins : Nat → SysIn}

theorem sysAt_succ (n : Nat) : sysAt ins (n + 1) = (sysAt ins n).tick (ins n) := rfl

theorem sysAt_testAgrees (n : Nat) : (sysAt ins n).TestAgrees :=
  stateAt_inv (P := SysMachine.TestAgrees) (fun h => by cases h)
    (fun s i _ => s.tick_testAgrees i) n

theorem preTick_iff (n : Nat) :
    PreTick ins n ↔ (sysAt ins (n + 1)).mode.systemState = .precharge := by
  rw [sysAt_succ, SysMachine.tick_systemState]
  exact SysMachine.output_precharge_iff _ _ (sysAt_testAgrees n)

theorem entry_iff (n : Nat) : Entry ins n ↔ EntersPrecharge (sysAt ins n) (ins n) := by
  unfold Entry EntersPrecharge
  rw [sysAt_succ, SysMachine.tick_systemState, SystemMode.chargeModeManage_precharge_iff]
  constructor
  · rintro ⟨hne, hr, hs | ⟨hp, _⟩⟩
    · exact ⟨hs, hr⟩
    · exact absurd hp hne
  · rintro ⟨hs, hr⟩
    exact ⟨by rw [hs]; decide, hr, .inl hs⟩

/-- After the first tick the delays are loaded whenever the system is not in
PRECHARGE. -/
theorem loaded_of_not_precharge {n : Nat} (hn : 0 < n)
    (h : (sysAt ins n).mode.systemState ≠ .precharge) : (sysAt ins n).Loaded := by
  obtain ⟨k, rfl⟩ : ∃ k, n = k + 1 := ⟨n - 1, by omega⟩
  rw [sysAt_succ]
  refine (SysMachine.tick_other _ _ ?_).1
  intro hp
  exact h ((preTick_iff k).mp hp)

end

/-! ## Inside a visit of PRECHARGE -/

/-- What one tick of `PreChargeCal` does to the counters, the latch and the
second main contactor. -/
theorem preTick_cases {ins : Nat → SysIn} {n : Nat} (h : PreTick ins n) :
    let s := sysAt ins n
    let t := sysAt ins (n + 1)
    (0 < s.mode.preDelayCnt ∧ t.mode.preDelayCnt = s.mode.preDelayCnt - 1 ∧
      t.mode.preDelay2Cnt = s.mode.preDelay2Cnt ∧ t.mode.preFinsh = s.mode.preFinsh ∧
      t.out.mainCon2N = false) ∨
    (s.mode.preDelayCnt = 0 ∧ (ins n).busVoltOK = false ∧ t.mode.preDelayCnt = 0 ∧
      t.mode.preDelay2Cnt = s.mode.preDelay2Cnt ∧ t.mode.preFinsh = s.mode.preFinsh ∧
      t.out.mainCon2N = false) ∨
    (s.mode.preDelayCnt = 0 ∧ (ins n).busVoltOK = true ∧ 0 < s.mode.preDelay2Cnt ∧
      t.mode.preDelayCnt = 0 ∧ t.mode.preDelay2Cnt = s.mode.preDelay2Cnt - 1 ∧
      t.mode.preFinsh = s.mode.preFinsh ∧ t.out.mainCon2N = false) ∨
    (s.mode.preDelayCnt = 0 ∧ (ins n).busVoltOK = true ∧ s.mode.preDelay2Cnt = 0 ∧
      t.mode.preFinsh = true ∧ t.out.mainCon2N = true) := by
  unfold PreTick at h
  obtain ⟨h1, h2, h3⟩ := (sysAt ins n).mode.chargeModeManage_frame (ins n)
  intro s t
  rw [show t = s.tick (ins n) from rfl]
  unfold SysMachine.tick SystemMode.systemOutputCal
  simp only [s, h]
  unfold SystemMode.preChargeCal
  simp only [h1, h2, h3]
  split_ifs with hc hb hd
  · exact .inl ⟨hc, rfl, rfl, rfl, rfl⟩
  · have hz := Nat.eq_zero_of_not_pos hc
    exact .inr (.inr (.inl ⟨hz, hb, hd, hz, rfl, rfl, rfl⟩))
  · exact .inr (.inr (.inr ⟨Nat.eq_zero_of_not_pos hc, hb, Nat.eq_zero_of_not_pos hd, rfl, rfl⟩))
  · have hz := Nat.eq_zero_of_not_pos hc
    exact .inr (.inl ⟨hz, by simpa using hb, hz, rfl, rfl, rfl⟩)

/-- How far the visit that tick `e` began has come before tick `n`. -/
inductive Phase (ins : Nat → SysIn) (e n : Nat) : Prop
  | delay1 (latch : (sysAt ins n).mode.preFinsh = false)
      (cnt : (sysAt ins n).mode.preDelayCnt + (n - e) = preChargeDelay1)
      (cnt2 : (sysAt ins n).mode.preDelay2Cnt = preChargeDelay2)
  | delay2 (latch : (sysAt ins n).mode.preFinsh = false)
      (cnt : (sysAt ins n).mode.preDelayCnt = 0) (le : preChargeDelay1 ≤ n - e)
      (cnt2 : (sysAt ins n).mode.preDelay2Cnt +
        window (PreTickBusOK ins) (e + preChargeDelay1) n = preChargeDelay2)
  | done (latch : (sysAt ins n).mode.preFinsh = true) (le : preChargeDelay1 ≤ n - e)
      (full : preChargeDelay2 ≤ window (PreTickBusOK ins) (e + preChargeDelay1) n)
      (con2 : (sysAt ins n).out.mainCon2N = true)

/-- A visit of PRECHARGE under way before tick `n`: tick `e` entered it and every
tick since has executed `PreChargeCal`. -/
structure Visit (ins : Nat → SysIn) (e n : Nat) : Prop where
  last : LastOcc (Entry ins) e n
  ticks : ∀ j, e ≤ j → j < n → PreTick ins j
  phase : Phase ins e n

section
variable {ins : Nat → SysIn} {e n : Nat}

/-- The second delay, once the first has run out, by one tick of `PreChargeCal`. -/
theorem phase_step_delay2 (he : e ≤ n) (ht : PreTick ins n)
    (latch : (sysAt ins n).mode.preFinsh = false) (cnt : (sysAt ins n).mode.preDelayCnt = 0)
    (le : preChargeDelay1 ≤ n - e)
    (cnt2 : (sysAt ins n).mode.preDelay2Cnt +
      window (PreTickBusOK ins) (e + preChargeDelay1) n = preChargeDelay2) :
    Phase ins e (n + 1) := by
  have hle : e + preChargeDelay1 ≤ n := by omega
  rcases preTick_cases ht with ⟨h, _⟩ | ⟨_, hb, h1, h2, h3, _⟩ | ⟨_, hb, h0, h1, h2, h3, _⟩ |
    ⟨_, hb, h0, h3, hc⟩
  · omega
  · have hw : window (PreTickBusOK ins) (e + preChargeDelay1) (n + 1) = _ :=
      window_succ_neg hle fun h => by rw [h.2] at hb; cases hb
    exact .delay2 (h3.trans latch) h1 (by omega) (by rw [hw, h2, cnt2])
  · have hw : window (PreTickBusOK ins) (e + preChargeDelay1) (n + 1) = _ :=
      window_succ_pos hle ⟨ht, hb⟩
    exact .delay2 (h3.trans latch) h1 (by omega) (by rw [hw, h2]; omega)
  · have hw : window (PreTickBusOK ins) (e + preChargeDelay1) (n + 1) = _ :=
      window_succ_pos hle ⟨ht, hb⟩
    exact .done h3 (by omega) (by rw [hw]; omega) hc

/-- One more tick of `PreChargeCal` keeps the phase. -/
theorem phase_step (he : e ≤ n) (ht : PreTick ins n) (h : Phase ins e n)
    (hl : (sysAt ins n).mode.preFinsh = false) : Phase ins e (n + 1) := by
  cases h with
  | delay1 latch cnt cnt2 =>
    rcases Nat.eq_zero_or_pos (sysAt ins n).mode.preDelayCnt with hz | hp
    · refine phase_step_delay2 he ht latch hz (by omega) ?_
      rw [window_empty (by omega), cnt2]
      rfl
    · rcases preTick_cases ht with ⟨_, h1, h2, h3, _⟩ | ⟨h, _⟩ | ⟨h, _⟩ | ⟨h, _⟩
      · exact .delay1 (h3.trans latch) (by rw [h1]; omega) (h2.trans cnt2)
      all_goals omega
  | delay2 latch cnt le cnt2 => exact phase_step_delay2 he ht latch cnt le cnt2
  | done latch => rw [latch] at hl; cases hl

/-- A fresh entry starts a visit. -/
theorem visit_start (hent : Entry ins n) (hf : FreshEntry ins n) : Visit ins n (n + 1) := by
  obtain ⟨hpos, hlatch⟩ := hf ((entry_iff n).mp hent)
  obtain ⟨h1, h2⟩ := loaded_of_not_precharge hpos hent.1
  have ht : PreTick ins n := (preTick_iff n).mpr hent.2
  refine ⟨(LastOcc.self hent).succ fun h => h.1 hent.2, fun j _ _ => ?_, ?_⟩
  · rwa [show j = n by omega]
  · exact phase_step (Nat.le_refl n) ht (.delay1 hlatch (by omega) h2) hlatch

/-- A tick that stays in PRECHARGE has found the latch clear. -/
theorem latch_of_stays (hs : (sysAt ins n).mode.systemState = .precharge)
    (hs' : (sysAt ins (n + 1)).mode.systemState = .precharge) :
    (sysAt ins n).mode.preFinsh = false := by
  rw [sysAt_succ, SysMachine.tick_systemState,
    SystemMode.chargeModeManage_precharge_iff] at hs'
  obtain ⟨_, hstop | ⟨_, hl⟩⟩ := hs'
  · rw [hs] at hstop; cases hstop
  · exact hl

/-- A tick that stays in PRECHARGE continues the visit. -/
theorem Visit.next (h : Visit ins e n) (hs : (sysAt ins n).mode.systemState = .precharge)
    (hs' : (sysAt ins (n + 1)).mode.systemState = .precharge) : Visit ins e (n + 1) := by
  have ht : PreTick ins n := (preTick_iff n).mpr hs'
  refine ⟨h.last.succ fun hent => hent.1 hs', fun j h₁ h₂ => ?_,
    phase_step h.last.le ht h.phase (latch_of_stays hs hs')⟩
  rcases Nat.lt_or_ge j n with hj | hj
  · exact h.ticks j h₁ hj
  · rwa [show j = n by omega]

/-- The run lemma: before every tick that finds the system in PRECHARGE a visit
is under way, provided every entry so far was fresh. -/
theorem visit_of_precharge : ∀ n, (∀ j < n, FreshEntry ins j) →
    (sysAt ins n).mode.systemState = .precharge → ∃ e, Visit ins e n
  | 0, _, h => by cases h
  | n + 1, hok, h => by
    by_cases hs : (sysAt ins n).mode.systemState = .precharge
    · obtain ⟨e, hv⟩ := visit_of_precharge n (fun j hj => hok j (by omega)) hs
      exact ⟨e, hv.next hs h⟩
    · exact ⟨n, visit_start ⟨hs, h⟩ (hok n (by omega))⟩

/-- A visit that has reached the latch has made the full sequence. -/
theorem Visit.full (h : Visit ins e n) (hl : (sysAt ins n).mode.preFinsh = true) :
    FullPrecharge ins n := by
  cases h.phase with
  | delay1 latch => rw [hl] at latch; cases latch
  | delay2 latch => rw [hl] at latch; cases latch
  | done _ le full _ =>
    have hle := h.last.le
    refine ⟨e, e + preChargeDelay1, h.last, by omega, by omega, ?_, full⟩
    rw [window_full fun j h₁ h₂ => h.ticks j h₁ (by omega)]
    omega

/-- The tick that sets the latch comes after the full sequence. -/
theorem Visit.full_of_cnt (h : Visit ins e n)
    (h2 : (sysAt ins n).mode.preDelay2Cnt = 0) (hl : (sysAt ins n).mode.preFinsh = false) :
    FullPrecharge ins n := by
  cases h.phase with
  | delay1 _ _ cnt2 =>
    rw [h2] at cnt2
    cases cnt2
  | delay2 _ _ le cnt2 =>
    have hle := h.last.le
    refine ⟨e, e + preChargeDelay1, h.last, by omega, by omega, ?_, by omega⟩
    rw [window_full fun j h₁ h₂ => h.ticks j h₁ (by omega)]
    omega
  | done latch => rw [hl] at latch; cases latch

end

/-! ## The second main contactor -/

/-- Only three output routines can close the second main contactor. -/
theorem tick_con2 {s : SysMachine} {i : SysIn} (h0 : s.out.mainCon2N = false)
    (h : (s.tick i).out.mainCon2N = true) :
    (s.mode.chargeModeManage i).systemOutput = .precharge ∨
      (s.mode.chargeModeManage i).systemOutput = .standby ∨
      (s.mode.chargeModeManage i).systemOutput = .test := by
  revert h
  unfold SysMachine.tick SystemMode.systemOutputCal
  cases (s.mode.chargeModeManage i).systemOutput with
  | precharge => intro _; exact .inl rfl
  | standby => intro _; exact .inr (.inl rfl)
  | test => intro _; exact .inr (.inr rfl)
  | stop | fault =>
    simp only [SystemMode.stopCal, SystemMode.faultCal]
    split_ifs <;> simp [OutFlags.off, h0]
  | sleep => simp [SystemMode.sleepCal, h0]

section
variable {ins : Nat → SysIn} {n : Nat}

/-- A state but the device test runs its own output routine. -/
theorem output_of_state {s : SysMachine} {i : SysIn} (h : s.mode.systemState ≠ .test) :
    (s.mode.chargeModeManage i).systemOutput =
      SystemMode.outOf (s.mode.chargeModeManage i).systemState := by
  rcases s.mode.chargeModeManage_output i with hout | ⟨htest, _⟩
  · exact hout
  · exact absurd htest h

/-- `StandbyCal` has closed it in every tick that ends in STANDBY. -/
theorem con2_of_standby (h : (sysAt ins n).mode.systemState = .standby) :
    (sysAt ins n).out.mainCon2N = true := by
  cases n with
  | zero => cases h
  | succ n =>
    rw [sysAt_succ] at h ⊢
    rw [SysMachine.tick_systemState] at h
    have ho : ((sysAt ins n).mode.chargeModeManage (ins n)).systemOutput = .standby := by
      rcases (sysAt ins n).mode.chargeModeManage_output (ins n) with ho | ⟨_, hs, _⟩
      · rw [ho, h]; rfl
      · rw [hs] at h; cases h
    unfold SysMachine.tick SystemMode.systemOutputCal
    simp only [ho]
    rfl

/-- Without the device test its routine does not run. -/
theorem output_ne_test (h : (sysAt ins n).mode.systemState ≠ .test)
    (h' : (sysAt ins (n + 1)).mode.systemState ≠ .test) :
    ((sysAt ins n).mode.chargeModeManage (ins n)).systemOutput ≠ .test := by
  rw [sysAt_succ, SysMachine.tick_systemState] at h'
  rw [output_of_state h]
  cases hs : ((sysAt ins n).mode.chargeModeManage (ins n)).systemState with
  | test => exact absurd hs h'
  | _ => simp [SystemMode.outOf]

/-- A closing outside the device test is made by `PreChargeCal`, in the tick that
sets the latch. -/
theorem full_of_con2 (hok : ∀ j ≤ n, FreshEntry ins j)
    (ht : ∀ j ≤ n + 1, (sysAt ins j).mode.systemState ≠ .test) (h : MainCon2On ins n) :
    FullPrecharge ins n := by
  obtain ⟨h0, h1⟩ := h
  have hvisit := visit_of_precharge n fun j hj => hok j (by omega)
  rcases tick_con2 h0 h1 with hp | hs | hx
  · -- `PreChargeCal`: the visit must have run both delays down
    have hs' := (preTick_iff n).mp hp
    rcases preTick_cases hp with ⟨_, _, _, _, hc⟩ | ⟨_, _, _, _, _, hc⟩ | ⟨_, _, _, _, _, _, hc⟩ |
      ⟨hz, _, hz2, _⟩
    · rw [hc] at h1; cases h1
    · rw [hc] at h1; cases h1
    · rw [hc] at h1; cases h1
    · by_cases hs : (sysAt ins n).mode.systemState = .precharge
      · obtain ⟨e, hv⟩ := hvisit hs
        exact hv.full_of_cnt hz2 (latch_of_stays hs hs')
      · have hent : Entry ins n := ⟨hs, hs'⟩
        have hl := (loaded_of_not_precharge (hok n (Nat.le_refl n) ((entry_iff n).mp hent)).1 hs).1
        rw [hz] at hl
        cases hl
  · -- `StandbyCal`: the contactor was closed already
    have hst : ((sysAt ins n).mode.chargeModeManage (ins n)).systemState = .standby := by
      rw [output_of_state (ht n (by omega))] at hs
      cases hc : ((sysAt ins n).mode.chargeModeManage (ins n)).systemState with
      | standby => rfl
      | _ => rw [hc] at hs; cases hs
    rcases (sysAt ins n).mode.chargeModeManage_standby (ins n) hst with hb | ⟨hp, hl⟩
    · rw [con2_of_standby hb] at h0; cases h0
    · obtain ⟨e, hv⟩ := hvisit hp
      cases hv.phase with
      | delay1 latch => rw [hl] at latch; cases latch
      | delay2 latch => rw [hl] at latch; cases latch
      | done _ _ _ con2 => rw [con2] at h0; cases h0
  · exact absurd hx (output_ne_test (ht n (by omega)) (ht (n + 1) (Nat.le_refl _)))

end

/-! ## The guard -/

/-- **Precharge safety.** In every run whose ticks so far never entered PRECHARGE
as the first tick or with the latch set, the guard holds. -/
theorem precharge_guard (ins : Nat → SysIn) (n : Nat) (hok : ∀ j ≤ n, FreshEntry ins j) :
    PrechargeGuard ins n := by
  refine ⟨fun ⟨hp, hs⟩ => ?_, full_of_con2 hok⟩
  obtain ⟨e, hv⟩ := visit_of_precharge n (fun j hj => hok j (by omega)) hp
  rw [sysAt_succ, SysMachine.tick_systemState] at hs
  rcases (sysAt ins n).mode.chargeModeManage_standby (ins n) hs with hb | ⟨_, hl⟩
  · rw [hp] at hb; cases hb
  · exact hv.full hl

/-- The inputs of the runs below: nothing charges, no fault, no command. -/
def quietIn (cabinetEnN busVoltOK : Bool) : SysIn :=
  ⟨sysModeCharge, false, cabinetEnN, busVoltOK, 0, 0, fun _ => false⟩

/-- A stopped first tick, then the start button: a fresh entry at tick 1. -/
theorem precharge_guard_button :
    (∀ j ≤ 1, FreshEntry (fun j => quietIn (decide (0 < j)) true) j) ∧
      PrechargeGuard (fun j => quietIn (decide (0 < j)) true) 1 := by
  have hok : ∀ j ≤ 1, FreshEntry (fun j => quietIn (decide (0 < j)) true) j := by
    intro j hj
    obtain rfl | rfl : j = 0 ∨ j = 1 := by omega
    · intro h; exact absurd h.2.2.2.2 (by decide)
    · intro _; exact ⟨by decide, by decide⟩
  exact ⟨hok, precharge_guard _ 1 hok⟩

/-- The start button is down when the board powers up: the counters are still
zero, the first tick completes the precharge and the second one enters STANDBY. -/
theorem precharge_guard_first_tick :
    ToStandby (fun _ => quietIn true true) 1 ∧ MainCon2On (fun _ => quietIn true true) 0 ∧
      ¬ PrechargeGuard (fun _ => quietIn true true) 1 := by
  have hs : ToStandby (fun _ => quietIn true true) 1 := ⟨by decide, by decide⟩
  refine ⟨hs, ⟨by decide, by decide⟩, fun h => ?_⟩
  obtain ⟨e, m, _, _, hm, hw, _⟩ := h.1 hs
  have := window_le (P := PreTick fun _ => quietIn true true) e m
  have hd : preChargeDelay1 = 6000 := rfl
  omega

end SC04Monitor.UserApp
