import SC04Monitor.Can.CanFault
import SC04Monitor.UserApp.AppFault

/-! # Timeouts as they are reported

`AdFault` and `CanFault` against the calls of `Bsp_can_fault` that have passed since
the last frame. The count behind `AdFault` is right, but the member that it is
stored in is one bit wide; the count behind `CanFault` has arrivals in it. -/

namespace SC04Monitor.Can
open SC04Monitor.Lib.Timeout SC04Monitor.UserApp

/-! ## The AD board -/

/-- After operation `n`, `AdFault` tells whether the AD board has been silent for
`CAN_RX_TIME` calls, and no charge voltage is trusted that is older. -/
structure AdReported (q : CanQueue CanRx) (ops : Nat → LinkOp) (n : Nat) : Prop where
  flag : (linkAt q ops (n + 1)).adFault = true ↔
    canRxTime ≤ nodeTicks q ops RxEntry.ad.node (n + 1)
  trusted : ∀ (i : FaultIn) (k : ModuleId), i.info.adFault = (linkAt q ops (n + 1)).adFault →
    (chargeVoltFails i k).set = true → nodeTicks q ops RxEntry.ad.node (n + 1) < canRxTime

/-- The report has room for bit 0 of the word, and the AD board has bit 5. -/
theorem linkAt_adFault {q : CanQueue CanRx} {ops : Nat → LinkOp} {n : Nat} (h : IsTick ops n) :
    (linkAt q ops (n + 1)).adFault = false := by
  rw [(linkAt_tick h).1, bspCanFault_adFault]

/-- So a lost AD board is not reported. -/
theorem AdReported.not_lost {q : CanQueue CanRx} {ops : Nat → LinkOp} {n : Nat}
    (hrep : AdReported q ops n) (h : IsTick ops n) :
    nodeTicks q ops RxEntry.ad.node (n + 1) < canRxTime := by
  by_contra hlost
  have hset := hrep.flag.mpr (Nat.le_of_not_lt hlost)
  rw [linkAt_adFault h] at hset
  cases hset

/-- **The AD board.** After a call of `Bsp_can_fault`, the report is right exactly
while the AD board is not lost. -/
theorem ad_fault_iff (q : CanQueue CanRx) (ops : Nat → LinkOp) (n : Nat) (h : IsTick ops n) :
    AdReported q ops n ↔ nodeTicks q ops RxEntry.ad.node (n + 1) < canRxTime := by
  refine ⟨fun hrep => hrep.not_lost h, fun hlt => ⟨?_, fun _ _ _ _ => hlt⟩⟩
  rw [linkAt_adFault h]
  exact ⟨fun hset => absurd hset Bool.false_ne_true, fun hle => absurd hlt (Nat.not_lt_of_le hle)⟩

/-- A frame of PORT2 that belongs to no entry. -/
def strayFrame : CanRx := .full port2 0 (.replicate 8 0)

/-- A receive queue right after power-on. -/
def idleQueue : CanQueue CanRx :=
  ⟨0, 0, 0, 0, false, .empty, 0, fun _ => 0, fun _ => (0, strayFrame), 0⟩

theorem not_handles {ops : Nat → LinkOp} {q : CanQueue CanRx} {P : CanRx → Bool} {n : Nat}
    (h : ops n ≠ .handle) : ¬ Handles q ops P n := by
  unfold Handles
  cases hop : ops n with
  | handle => exact absurd hop h
  | arrive m => exact Bool.false_ne_true
  | tick => exact Bool.false_ne_true

theorem silent_nodeTicks (n : Nat) :
    nodeTicks idleQueue (fun _ => .tick) RxEntry.ad.node n = n :=
  since_all (fun m _ => not_handles (by simp)) fun m _ => rfl

/-- In the first call nothing is lost yet. -/
theorem ad_fault_iff_first : IsTick (fun _ => .tick) 0 ∧ AdReported idleQueue (fun _ => .tick) 0 := by
  have htick : IsTick (fun _ => .tick) 0 := rfl
  refine ⟨htick, (ad_fault_iff idleQueue _ 0 htick).mpr ?_⟩
  rw [silent_nodeTicks]
  decide

/-- Two hundred calls without a frame, and `AdFault` reads 0. -/
theorem ad_fault_never : nodeTicks idleQueue (fun _ => .tick) RxEntry.ad.node 200 = 200 ∧
    (linkAt idleQueue (fun _ => .tick) 200).adFault = false ∧
    ¬ AdReported idleQueue (fun _ => .tick) 199 := by
  have htick : IsTick (fun _ => .tick) 199 := rfl
  refine ⟨silent_nodeTicks 200, linkAt_adFault htick, fun hrep => ?_⟩
  have hlt := hrep.not_lost htick
  rw [silent_nodeTicks] at hlt
  exact absurd hlt (by decide)

/-! ## The bus -/

/-- After operation `n`, `CanFault` tells whether `CAN_RX_TIME` calls have passed
since a matching PORT1 frame was handled. -/
def CanReported (q : CanQueue CanRx) (ops : Nat → LinkOp) (n : Nat) : Prop :=
  (linkAt q ops (n + 1)).canFault = true ↔ canRxTime ≤ busTicks q ops (n + 1)

/-- **The bus.** In every run in which the arrivals between two calls do not take
the counter to its end, the report after a call is right exactly if the bus is lost
or the calls and the arrivals together are still below the limit. -/
theorem can_fault_iff (q : CanQueue CanRx) (ops : Nat → LinkOp) (n : Nat) (h : IsTick ops n)
    (harr : ∀ m ≤ n, arrivals ops m < arrivalLimit) :
    CanReported q ops n ↔
      canRxTime ≤ busTicks q ops (n + 1) ∨ busCount q ops (n + 1) < canRxTime := by
  have hle : busTicks q ops (n + 1) ≤ busCount q ops (n + 1) :=
    since_mono (fun m hm => Or.inl hm) (n + 1)
  unfold CanReported
  rw [canFault_iff h harr]
  constructor
  · intro hiff
    rcases Nat.lt_or_ge (busCount q ops (n + 1)) canRxTime with hlt | hge
    · exact Or.inr hlt
    · exact Or.inl (hiff.mp hge)
  · rintro (hticks | hlt)
    · exact ⟨fun _ => hticks, fun _ => Nat.le_trans hticks hle⟩
    · exact ⟨fun hge => absurd hlt (Nat.not_lt_of_le hge),
        fun hticks => Nat.le_trans hticks hle⟩

/-- Stray frames arrive, then `Bsp_can_fault` is called. -/
def straysThenTick (k n : Nat) : LinkOp := if n < k then .arrive (2, strayFrame) else .tick

theorem straysThenTick_not_handles (k m : Nat) (P : CanRx → Bool) :
    ¬ Handles idleQueue (straysThenTick k) P m := by
  refine not_handles ?_
  unfold straysThenTick
  split_ifs <;> simp

theorem straysThenTick_counts (k m : Nat) :
    IsTick (straysThenTick k) m ∨ IsArrival (straysThenTick k) m := by
  unfold IsTick IsArrival straysThenTick
  split_ifs
  · exact Or.inr rfl
  · exact Or.inl rfl

theorem straysThenTick_busCount (k n : Nat) : busCount idleQueue (straysThenTick k) n = n :=
  since_all (fun m _ => straysThenTick_not_handles k m _) fun m _ => straysThenTick_counts k m

theorem straysThenTick_tick (k : Nat) : IsTick (straysThenTick k) k := by
  simp [IsTick, straysThenTick, LinkOp.isTick]

theorem straysThenTick_busTicks (k : Nat) : busTicks idleQueue (straysThenTick k) (k + 1) = 1 := by
  have hnone : busTicks idleQueue (straysThenTick k) k = 0 := by
    refine since_none fun m hm => ?_
    simp [IsTick, straysThenTick, hm, LinkOp.isTick]
  unfold busTicks at hnone ⊢
  rw [since_counts (straysThenTick_not_handles k k _) (straysThenTick_tick k), hnone]

theorem arrivals_lt {n : Nat} (ops : Nat → LinkOp) (h : n < arrivalLimit) :
    ∀ m ≤ n, arrivals ops m < arrivalLimit := fun m hm =>
  Nat.lt_of_le_of_lt (since_le m) (Nat.lt_of_le_of_lt hm h)

/-- Traffic that matches nothing, and one call: nothing is lost. -/
theorem can_fault_iff_strays : IsTick (straysThenTick 10) 10 ∧
    (∀ m ≤ 10, arrivals (straysThenTick 10) m < arrivalLimit) ∧
    CanReported idleQueue (straysThenTick 10) 10 := by
  have harr := arrivals_lt (straysThenTick 10) (n := 10) (by decide)
  refine ⟨straysThenTick_tick 10, harr,
    (can_fault_iff idleQueue _ 10 (straysThenTick_tick 10) harr).mpr (Or.inr ?_)⟩
  rw [straysThenTick_busCount]
  decide

/-- As much of it, and the first call reports the bus as lost. -/
theorem can_fault_by_traffic :
    busTicks idleQueue (straysThenTick 199) 200 = 1 ∧
    (linkAt idleQueue (straysThenTick 199) 200).canFault = true ∧
    ¬ CanReported idleQueue (straysThenTick 199) 199 := by
  have hticks := straysThenTick_busTicks 199
  have hflag : (linkAt idleQueue (straysThenTick 199) 200).canFault = true := by
    refine (canFault_iff (straysThenTick_tick 199)
      (arrivals_lt (straysThenTick 199) (by decide))).mpr ?_
    rw [straysThenTick_busCount]
    decide
  refine ⟨hticks, hflag, fun hrep => ?_⟩
  have hlost := hrep.mp hflag
  rw [hticks] at hlost
  exact absurd hlost (by decide)

end SC04Monitor.Can
