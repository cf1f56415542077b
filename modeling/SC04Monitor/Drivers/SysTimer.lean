import SC04Monitor.Lib.Divider
import SC04Monitor.Lib.Run

/-! # The timer interrupt

`BSP_TIM_IRQHandler` derives the two task periods from two free-running 8-bit
counters. `256` is a multiple of neither period, so that the ticks shift each time
the counters wrap. -/

namespace SC04Monitor.Drivers
open SC04Monitor.Lib.Run SC04Monitor.Lib.Divider

/-- `cnt1` and `cnt2`. -/
structure TimerState where
  cnt1 : UInt8
  cnt2 : UInt8

/-- What `Bsp_can_send_cycle_event` tests: `_ev_cansend_init == RT_EOK` and
`CanStartComm == 1`. -/
structure CanSend where
  evCansendInit : Bool
  canStartComm : Bool

/-- What one invocation releases and sends. -/
structure Released where
  semAdioTask : Bool
  canCycleEvent : Bool
  semLogicTask : Bool
  semUsartTxTask : Bool
  semFmrecord10ms : Bool

/-- `Bsp_can_send_cycle_event`: whether the event is sent. -/
def bspCanSendCycleEvent (c : CanSend) : Bool := c.evCansendInit && c.canStartComm

/-- `BSP_TIM_IRQHandler`. -/
def bspTimIRQHandler (s : TimerState) (c : CanSend) : TimerState × Released :=
  let adio : Bool := s.cnt1 % 5 == 0
  let logic : Bool := s.cnt2 % 10 == 0
  (⟨s.cnt1 + 1, s.cnt2 + 1⟩, ⟨adio, adio && bspCanSendCycleEvent c, logic, logic, logic⟩)

/-- The state before invocation `n`; `cs` says for every invocation whether the CAN
communication has started. -/
def timerAt (cs : Nat → CanSend) (n : Nat) : TimerState :=
  stateAt (fun s c => (bspTimIRQHandler s c).1) ⟨0, 0⟩ cs n

/-- What invocation `n` releases. -/
def releasedAt (cs : Nat → CanSend) (n : Nat) : Released :=
  (bspTimIRQHandler (timerAt cs n) (cs n)).2

theorem timerAt_eq (cs : Nat → CanSend) (n : Nat) :
    timerAt cs n = ⟨UInt8.ofNat n, UInt8.ofNat n⟩ := by
  induction n with
  | zero => rfl
  | succ n ih =>
    show (bspTimIRQHandler (timerAt cs n) (cs n)).1 = _
    rw [ih, UInt8.ofNat_add]
    rfl

theorem cnt_mod {n k : Nat} (hk : k < 256) :
    (UInt8.ofNat n % UInt8.ofNat k == 0) = decide (Tick 256 k n) := by
  have hmod : (UInt8.ofNat n % UInt8.ofNat k).toNat = n % 256 % k := by
    rw [UInt8.toNat_mod, UInt8.toNat_ofNat', UInt8.toNat_ofNat', Nat.mod_eq_of_lt hk]
  rw [Bool.eq_iff_iff, beq_iff_eq, decide_eq_true_iff, ← UInt8.toNat_inj, hmod]
  rfl

/-- What an invocation does, by its number. -/
theorem releasedAt_eq (cs : Nat → CanSend) (n : Nat) :
    releasedAt cs n =
      ⟨Tick 256 5 n, decide (Tick 256 5 n) && bspCanSendCycleEvent (cs n), Tick 256 10 n,
        Tick 256 10 n, Tick 256 10 n⟩ := by
  have h5 := cnt_mod (n := n) (k := 5) (by omega)
  have h10 := cnt_mod (n := n) (k := 10) (by omega)
  unfold releasedAt
  rw [timerAt_eq]
  show Released.mk _ _ _ _ _ = _
  rw [← h5, ← h10]
  rfl

/-! ## The periods -/

/-- Invocation `n` is right: the logic task is released at the multiples of 10, the
IO task at the multiples of 5, and the CAN event is sent there once the
communication has started. -/
structure RightAt (cs : Nat → CanSend) (n : Nat) : Prop where
  logic : (releasedAt cs n).semLogicTask = true ↔ 10 ∣ n
  adio : (releasedAt cs n).semAdioTask = true ↔ 5 ∣ n
  event : (releasedAt cs n).canCycleEvent = true ↔ 5 ∣ n ∧ bspCanSendCycleEvent (cs n) = true

/-- The wraps so far make up a multiple of 5, or neither the counter nor the number of
the invocation is one. -/
def InPhase (n : Nat) : Prop := 5 ∣ n / 256 ∨ ¬ 5 ∣ n % 256 ∧ ¬ 5 ∣ n

theorem inPhase_iff (n : Nat) : InPhase n ↔ (Tick 256 5 n ↔ 5 ∣ n) := by
  have hwraps : 5 ∣ 256 * (n / 256) ↔ 5 ∣ n / 256 := by omega
  rw [tick_iff_dvd, hwraps]
  rfl

/-- The slower ticks are in phase with the faster ones. -/
theorem tick_ten {n : Nat} (h : Tick 256 5 n ↔ 5 ∣ n) : Tick 256 10 n ↔ 10 ∣ n := by
  unfold Tick at *
  omega

theorem rightAt_iff (cs : Nat → CanSend) (n : Nat) : RightAt cs n ↔ InPhase n := by
  have hreleased := releasedAt_eq cs n
  rw [inPhase_iff]
  constructor
  · intro hright
    have hadio := hright.adio
    rwa [hreleased, decide_eq_true_iff] at hadio
  · intro h5
    refine ⟨?_, ?_, ?_⟩
    · rw [hreleased, decide_eq_true_iff]
      exact tick_ten h5
    · rw [hreleased, decide_eq_true_iff]
      exact h5
    · rw [hreleased, Bool.and_eq_true, decide_eq_true_iff, h5]

/-- The logic ticks and the IO ticks of a run. -/
def LogicTick (cs : Nat → CanSend) (n : Nat) : Prop := (releasedAt cs n).semLogicTask = true
def AdioTick (cs : Nat → CanSend) (n : Nat) : Prop := (releasedAt cs n).semAdioTask = true

theorem logicTick_eq (cs : Nat → CanSend) : LogicTick cs = Tick 256 10 := by
  funext n
  unfold LogicTick
  rw [releasedAt_eq, decide_eq_true_eq]

theorem adioTick_eq (cs : Nat → CanSend) : AdioTick cs = Tick 256 5 := by
  funext n
  unfold AdioTick
  rw [releasedAt_eq, decide_eq_true_eq]

/-- **The task periods.** In every run, exactly the invocations in phase are right;
a logic tick is followed by the next one after ten interrupts, and an IO tick after
five, exactly if the counters do not wrap before. -/
theorem task_periods (cs : Nat → CanSend) :
    (∀ n, RightAt cs n ↔ InPhase n) ∧
      (∀ n m, Consecutive (LogicTick cs) n m → (m = n + 10 ↔ n % 256 ≠ 250)) ∧
      ∀ n m, Consecutive (AdioTick cs) n m → (m = n + 5 ↔ n % 256 ≠ 255) := by
  refine ⟨rightAt_iff cs, fun n m h => ?_, fun n m h => ?_⟩
  · rw [logicTick_eq] at h
    have htick : n % 256 % 10 = 0 := h.first
    rw [gap_iff (by omega) (by omega) h]
    omega
  · rw [adioTick_eq] at h
    have htick : n % 256 % 5 = 0 := h.first
    rw [gap_iff (by omega) (by omega) h]
    omega

/-- A run is right up to the first wrap and no longer. -/
theorem right_until_wrap (cs : Nat → CanSend) (n : Nat) : (∀ m < n, RightAt cs m) ↔ n ≤ 256 := by
  constructor
  · intro hall
    by_contra hlong
    have hwrap := (rightAt_iff cs 256).mp (hall 256 (by omega))
    unfold InPhase at hwrap
    omega
  · intro hn m hm
    rw [rightAt_iff]
    exact Or.inl (by omega)

/-- Invocation 256 releases both tasks, six interrupts after the last logic tick. -/
theorem period_shifts :
    LogicTick (fun _ => ⟨true, true⟩) 256 ∧ AdioTick (fun _ => ⟨true, true⟩) 256 ∧ ¬ 5 ∣ 256 ∧
      Consecutive (LogicTick fun _ => ⟨true, true⟩) 250 256 := by
  rw [logicTick_eq, adioTick_eq]
  exact ⟨by decide, by decide, by decide, next_tick (by decide) (by decide) (by decide)⟩

end SC04Monitor.Drivers
