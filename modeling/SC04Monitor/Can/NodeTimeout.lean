import SC04Monitor.Can.LinkTimeout
import SC04Monitor.UserApp.StatusBlock

/-! # The timeout of a node

The counters and the bits of the six nodes, and what `MonitorUpdate` makes of them for the
touch screen. Both tasks work on the one object `can`. -/

namespace SC04Monitor.Can
open SC04Monitor.Lib.WordBits SC04Monitor.Lib.Timeout SC04Monitor.UserApp

section
variable (q : CanQueue CanRx) (ops : Nat → LinkOp)

/-- What `MonitorUpdate` publishes before operation `n`. -/
def monitorStatusAt (s : Logic) (n : Nat) : HmiStatus :=
  let link := linkAt q ops n
  { s with can := link.can }.monitorStatus link.adFault link.canFault

/-- The timeout of every node, over a run. -/
structure NodeTimeout : Prop where
  limit : ∀ (k : Fin 6) (n : Nat), (linkAt q ops n).can.canFltCnt k ≤ canRxTime
  lost : ∀ (k : Fin 6) (n : Nat), IsTick ops n →
    (hasBit (linkAt q ops (n + 1)).can.canStateWord k = false ↔
      canRxTime ≤ nodeTicks q ops k (n + 1))
  /-- A frame is of no concern to the other nodes. -/
  others : ∀ (j k : Fin 6) (n : Nat), Handles q ops (fromNode k) n → j ≠ k →
    (linkAt q ops (n + 1)).can.canFltCnt j = (linkAt q ops n).can.canFltCnt j ∧
      hasBit (linkAt q ops (n + 1)).can.canStateWord j = hasBit (linkAt q ops n).can.canStateWord j
  /-- What `MonitorUpdate` reads is what the last call of `Bsp_can_fault` left. -/
  kept : ∀ n, ¬ IsTick ops n →
    (linkAt q ops (n + 1)).can.canStateWord = (linkAt q ops n).can.canStateWord ∧
      (linkAt q ops (n + 1)).canFault = (linkAt q ops n).canFault
  rails : ∀ (k : ModuleId) (s : Logic) (n : Nat),
    (monitorStatusAt q ops s n).runFlags.railFailN k = true ↔
      (linkAt q ops n).canFault = true ∨ hasBit (linkAt q ops n).can.canStateWord k = false

end

theorem msgRxManage_canStateWord (s : CanApp) (p : CanRx) :
    (msgRxManage stdMsgTable s p).canStateWord = s.canStateWord := by
  by_cases hex : ∃ r : RxEntry, r.Accepts p
  · obtain ⟨r, hr⟩ := hex
    rw [msgRxManage_eq hr]
    unfold markAlive msgRxDeal
    dsimp only
    split_ifs <;> rfl
  · rw [msgRxManage_none (not_exists.mp hex)]

/-- A frame is of one node. -/
theorem fromNode_unique {p : CanRx} {j k : Fin 6} (hk : fromNode k p = true) (hjk : j ≠ k) :
    fromNode j p = false := by
  obtain ⟨r, hacc, hnode⟩ := belongs_iff.mp hk
  rw [decide_eq_true_eq] at hnode
  unfold fromNode
  rw [belongs_of_accepts hacc, decide_eq_false_iff_not, hnode]
  exact hjk.symm

theorem linkStep_kept {s : CanLink} {op : LinkOp} (h : ¬ op.isTick = true) :
    (linkStep s op).can.canStateWord = s.can.canStateWord ∧ (linkStep s op).canFault = s.canFault := by
  cases op with
  | tick => exact absurd rfl h
  | arrive m => exact ⟨rfl, rfl⟩
  | handle =>
    refine ⟨?_, rfl⟩
    show (appCanRx s.can (nextFrame s)).canStateWord = _
    cases nextFrame s with
    | none => rfl
    | some p => exact msgRxManage_canStateWord s.can p

/-- **The timeout of a node.** -/
theorem node_timeout (q : CanQueue CanRx) (ops : Nat → LinkOp) : NodeTimeout q ops := by
  have hkept : ∀ n, ¬ IsTick ops n →
      (linkAt q ops (n + 1)).can.canStateWord = (linkAt q ops n).can.canStateWord ∧
        (linkAt q ops (n + 1)).canFault = (linkAt q ops n).canFault :=
    fun n hn => linkStep_kept hn
  refine ⟨canFltCnt_le, fun k n => node_lost_iff k, fun j k n hk hjk => ?_, hkept,
    fun k s n => ?_⟩
  · -- an operation that hands over a frame is no call of `Bsp_can_fault`
    have hnot : ¬ IsTick ops n := fun htick => (linkAt_tick (q := q) htick).2 _ hk
    have hother : ¬ Handles q ops (fromNode j) n := by
      unfold Handles at hk ⊢
      rw [Option.any_eq_true] at hk ⊢
      obtain ⟨p, hp, hpk⟩ := hk
      rintro ⟨p', hp', hpj⟩
      rw [Option.mem_def.mp hp] at hp'
      cases hp'
      rw [fromNode_unique hpk hjk] at hpj
      exact Bool.false_ne_true hpj
    refine ⟨?_, by rw [(hkept n hnot).1]⟩
    rw [linkAt_succ, linkStep_canFltCnt _ _ (canFltCnt_le j n)]
    exact (if_neg hother).trans (if_neg hnot)
  · show ((linkAt q ops n).canFault || !hasBit (linkAt q ops n).can.canStateWord k) = true ↔ _
    rw [Bool.or_eq_true, Bool.not_eq_true']

end SC04Monitor.Can
