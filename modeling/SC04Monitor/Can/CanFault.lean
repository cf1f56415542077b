import SC04Monitor.Lib.WordBits
import SC04Monitor.Lib.Timeout
import SC04Monitor.Can.CanQueue
import SC04Monitor.Can.RxEntry

/-! # Communication loss on the CAN side

`Bsp_can_fault` of `canTask.cc` counts its calls per node and for the whole bus and
derives the flags `AdFault` and `CanFault`; the counters are reset where a frame is
handled, and the interrupt that queues a frame touches the counter of the bus too.
`CanLink` is what the three share, and an operation is a call of one of them. -/

namespace SC04Monitor.Can
open SC04Monitor.Lib.Run SC04Monitor.Lib.Scan SC04Monitor.Lib.WordBits SC04Monitor.Lib.Timeout

/-- `CAN_RX_TIME`. -/
def canRxTime : Nat := 200

/-- The object `can`, the receive queue and the two flags of `MB_SYS_INFO`. -/
structure CanLink where
  can : CanApp
  rxQueue : CanQueue CanRx
  adFault : Bool
  canFault : Bool

/-- At power-on, whatever the memory of the queue holds. -/
def CanLink.init (q : CanQueue CanRx) : CanLink := ⟨.init, q, false, false⟩

/-- The body of the loop of `Bsp_can_fault`. -/
def faultScan (s : CanApp) (portScan : Fin 6) : CanApp :=
  let cnt := (s.canFltCnt portScan + 1) % 2 ^ 16
  if canRxTime ≤ cnt then
    { s with
      canFltCnt := Function.update s.canFltCnt portScan canRxTime
      canStateWord := s.canStateWord &&& ~~~bitMask portScan }
  else
    { s with
      canFltCnt := Function.update s.canFltCnt portScan cnt
      canStateWord := s.canStateWord ||| bitMask portScan }

/-- The assignment to a member of one bit keeps the lowest bit. -/
def toBit (v : UInt16) : Bool := hasBit v 0

/-- `Bsp_can_fault`. -/
def bspCanFault (s : CanLink) : CanLink :=
  let can := (List.finRange 6).foldl faultScan s.can
  let cnt := (can.canCnt + 1) % 2 ^ 16
  { s with
    can := { can with canCnt := if canRxTime ≤ cnt then canRxTime else cnt }
    adFault := toBit (~~~can.canStateWord &&& 0x0020)
    canFault := decide (canRxTime ≤ cnt) }

/-- `can_Rx_Push_Msg`, called by the receive interrupt. -/
def canRxPushMsg (s : CanLink) (m : Slot CanRx) : CanLink :=
  { s with
    can := { s.can with canCnt := (s.can.canCnt + 1) % 2 ^ 16 }
    rxQueue := s.rxQueue.pushMsg canRxQueueSize m }

/-- The frame in a slot of the queue. -/
def frameOf (m : Slot CanRx) : CanRx := { m.2 with canPort := m.1.toNat }

/-- The frame that the next round of `CanApp_Rx_Task` handles. -/
def nextFrame (s : CanLink) : Option CanRx := (s.rxQueue.take .rx).1.map frameOf

/-- `_App_Can_Rx`, if there is a frame. -/
def appCanRx (s : CanApp) : Option CanRx → CanApp
  | some p => msgRxManage stdMsgTable s p
  | none => s

/-- One round of `CanApp_Rx_Task`. -/
def canAppRxTask (s : CanLink) : CanLink :=
  { s with
    can := appCanRx s.can (nextFrame s)
    rxQueue := (s.rxQueue.take .rx).2 }

/-- The calls, in any order. -/
inductive LinkOp
  | arrive (m : Slot CanRx)
  | handle
  | tick

namespace LinkOp

def isArrival : LinkOp → Bool
  | arrive _ => true
  | handle | tick => false

def isTick : LinkOp → Bool
  | tick => true
  | arrive _ | handle => false

end LinkOp

def linkStep (s : CanLink) : LinkOp → CanLink
  | .arrive m => canRxPushMsg s m
  | .handle => canAppRxTask s
  | .tick => bspCanFault s

/-- The frame that an operation hands to `MsgRx_Manage`. -/
def handled (s : CanLink) : LinkOp → Option CanRx
  | .handle => nextFrame s
  | .arrive _ | .tick => none

/-! ## One call of `Bsp_can_fault` -/

theorem faultScan_of_ne {j k : Fin 6} (s : CanApp) (h : k ≠ j) :
    (faultScan s j).canFltCnt k = s.canFltCnt k ∧
      hasBit (faultScan s j).canStateWord k = hasBit s.canStateWord k := by
  have hj : (j : Nat) < 16 := Nat.lt_trans j.isLt (by decide)
  have hk : (k : Nat) < 16 := Nat.lt_trans k.isLt (by decide)
  have hne : (k : Nat) ≠ j := fun he => h (Fin.ext he)
  unfold faultScan
  dsimp only
  split_ifs
  · simp [h, hasBit_clear _ hj hk, hne]
  · simp [h, hasBit_set _ hj hk, hne]

/-- A node that has been counted up to the limit is lost. -/
theorem faultScan_self {k : Fin 6} (s : CanApp) (h : s.canFltCnt k ≤ canRxTime) :
    (faultScan s k).canFltCnt k = min (s.canFltCnt k + 1) canRxTime ∧
      (hasBit (faultScan s k).canStateWord k = true ↔ s.canFltCnt k + 1 < canRxTime) := by
  have hk : (k : Nat) < 16 := Nat.lt_trans k.isLt (by decide)
  have hnext : (s.canFltCnt k + 1) % 2 ^ 16 = s.canFltCnt k + 1 := by
    unfold canRxTime at h
    omega
  unfold faultScan
  dsimp only
  rw [hnext]
  split_ifs with hle
  · simp [hasBit_clear _ hk hk]
    omega
  · simp [hasBit_set _ hk hk]
    omega

theorem faultScan_canCnt (s : CanApp) (k : Fin 6) : (faultScan s k).canCnt = s.canCnt := by
  unfold faultScan
  dsimp only
  split_ifs <;> rfl

/-- What the loop leaves for a node. -/
theorem faultScans_node {k : Fin 6} (s : CanApp) (h : s.canFltCnt k ≤ canRxTime) :
    ((List.finRange 6).foldl faultScan s).canFltCnt k = min (s.canFltCnt k + 1) canRxTime ∧
      (hasBit ((List.finRange 6).foldl faultScan s).canStateWord k = true ↔
        s.canFltCnt k + 1 < canRxTime) := by
  let obs (t : CanApp) := (t.canFltCnt k, hasBit t.canStateWord k)
  have hother : ∀ j ∈ List.finRange 6, j ≠ k → ∀ t, obs (faultScan t j) = obs t := by
    intro j _ hj t
    obtain ⟨hcnt, hbit⟩ := faultScan_of_ne t hj.symm
    simp only [obs, hcnt, hbit]
  obtain ⟨t, ht, he⟩ := scan_at obs (List.nodup_finRange 6) (List.mem_finRange k) hother s
  simp only [obs, Prod.mk.injEq] at ht he
  rw [he.1, he.2, ← ht.1]
  exact faultScan_self t (ht.1 ▸ h)

theorem faultScans_canCnt (s : CanApp) :
    ((List.finRange 6).foldl faultScan s).canCnt = s.canCnt :=
  scan_frame (fun t : CanApp => t.canCnt) (fun k _ t => faultScan_canCnt t k) s

/-- `0x0020` has no lowest bit. -/
theorem bspCanFault_adFault (s : CanLink) : (bspCanFault s).adFault = false := by
  have hlow : hasBit 0x0020 0 = false := by decide
  unfold bspCanFault toBit
  dsimp only
  rw [hasBit_and, hlow, Bool.and_false]

theorem bspCanFault_canFltCnt {k : Fin 6} (s : CanLink) (h : s.can.canFltCnt k ≤ canRxTime) :
    (bspCanFault s).can.canFltCnt k = min (s.can.canFltCnt k + 1) canRxTime := by
  unfold bspCanFault
  dsimp only
  exact (faultScans_node s.can h).1

theorem bspCanFault_canCnt (s : CanLink) (h : s.can.canCnt + 1 < 2 ^ 16) :
    (bspCanFault s).can.canCnt = min (s.can.canCnt + 1) canRxTime := by
  unfold bspCanFault
  dsimp only
  rw [faultScans_canCnt, Nat.mod_eq_of_lt h]
  split_ifs with hle
  · exact (Nat.min_eq_right hle).symm
  · exact (Nat.min_eq_left (by omega)).symm

theorem bspCanFault_canFault (s : CanLink) (h : s.can.canCnt + 1 < 2 ^ 16) :
    (bspCanFault s).canFault = decide (canRxTime ≤ s.can.canCnt + 1) := by
  unfold bspCanFault
  dsimp only
  rw [faultScans_canCnt, Nat.mod_eq_of_lt h]

/-! ## One operation -/

theorem appCanRx_canFltCnt (s : CanApp) (o : Option CanRx) (k : Fin 6) :
    (appCanRx s o).canFltCnt k = if o.any (fromNode k) then 0 else s.canFltCnt k := by
  cases o with
  | none => rfl
  | some p => exact msgRxManage_canFltCnt s p k

theorem appCanRx_canCnt (s : CanApp) (o : Option CanRx) :
    (appCanRx s o).canCnt = if o.any matchesPort1 then 0 else s.canCnt := by
  cases o with
  | none => rfl
  | some p => exact msgRxManage_canCnt s p

/-- What an operation does to the counter of a node. -/
theorem linkStep_canFltCnt {k : Fin 6} (s : CanLink) (op : LinkOp)
    (h : s.can.canFltCnt k ≤ canRxTime) :
    (linkStep s op).can.canFltCnt k =
      if (handled s op).any (fromNode k) then 0
      else if op.isTick then min (s.can.canFltCnt k + 1) canRxTime
      else s.can.canFltCnt k := by
  cases op with
  | arrive m => rfl
  | tick => exact bspCanFault_canFltCnt s h
  | handle => exact appCanRx_canFltCnt s.can (nextFrame s) k

/-- What an operation does to the counter of the bus. -/
theorem linkStep_canCnt (s : CanLink) (op : LinkOp) (h : s.can.canCnt + 1 < 2 ^ 16) :
    (linkStep s op).can.canCnt =
      if (handled s op).any matchesPort1 then 0
      else if op.isTick then min (s.can.canCnt + 1) canRxTime
      else if op.isArrival then s.can.canCnt + 1
      else s.can.canCnt := by
  cases op with
  | arrive m => exact Nat.mod_eq_of_lt h
  | tick => exact bspCanFault_canCnt s h
  | handle => exact appCanRx_canCnt s.can (nextFrame s)

/-! ## Runs -/

section
variable (q : CanQueue CanRx) (ops : Nat → LinkOp)

/-- The state before operation `n`. -/
def linkAt (n : Nat) : CanLink := stateAt linkStep (CanLink.init q) ops n

/-- Operation `n` hands a frame with the property `P` to `MsgRx_Manage`. -/
def Handles (P : CanRx → Bool) (n : Nat) : Prop := (handled (linkAt q ops n) (ops n)).any P = true

instance (P : CanRx → Bool) : DecidablePred (Handles q ops P) :=
  fun _ => inferInstanceAs (Decidable (_ = true))

/-- Operation `n` is a call of `Bsp_can_fault`. -/
def IsTick (n : Nat) : Prop := (ops n).isTick = true

/-- Operation `n` is the arrival of a frame. -/
def IsArrival (n : Nat) : Prop := (ops n).isArrival = true

instance : DecidablePred (IsTick ops) := fun _ => inferInstanceAs (Decidable (_ = true))

instance : DecidablePred (IsArrival ops) := fun _ => inferInstanceAs (Decidable (_ = true))

/-- The calls of `Bsp_can_fault` before operation `n` since a frame of node `k` was
handled. -/
def nodeTicks (k : Fin 6) (n : Nat) : Nat := since (Handles q ops (fromNode k)) (IsTick ops) n

/-- The calls since a PORT1 frame that matches an entry was handled. -/
def busTicks (n : Nat) : Nat := since (Handles q ops matchesPort1) (IsTick ops) n

/-- The calls and the arrivals since then. -/
def busCount (n : Nat) : Nat :=
  since (Handles q ops matchesPort1) (fun m => IsTick ops m ∨ IsArrival ops m) n

/-- The arrivals since the last call. -/
def arrivals (n : Nat) : Nat := since (IsTick ops) (IsArrival ops) n

end

/-- So many arrivals between two calls take the counter of the bus, 16 bits wide, to
its end. -/
def arrivalLimit : Nat := 2 ^ 16 - 1 - canRxTime

section
variable {q : CanQueue CanRx} {ops : Nat → LinkOp}

theorem linkAt_succ (n : Nat) : linkAt q ops (n + 1) = linkStep (linkAt q ops n) (ops n) := rfl

theorem linkAt_tick {n : Nat} (h : IsTick ops n) :
    linkAt q ops (n + 1) = bspCanFault (linkAt q ops n) ∧ ∀ P, ¬ Handles q ops P n := by
  have hop : ops n = .tick := by
    unfold IsTick LinkOp.isTick at h
    split at h
    · assumption
    · cases h
    · cases h
  refine ⟨by rw [linkAt_succ, hop]; rfl, fun P hP => ?_⟩
  unfold Handles at hP
  rw [hop] at hP
  cases hP

/-! ### The nodes -/

theorem canFltCnt_le (k : Fin 6) (n : Nat) : (linkAt q ops n).can.canFltCnt k ≤ canRxTime :=
  stateAt_inv (P := fun s : CanLink => s.can.canFltCnt k ≤ canRxTime) (Nat.zero_le _)
    (fun s op h => by
      rw [linkStep_canFltCnt s op h]
      split_ifs
      · exact Nat.zero_le _
      · exact Nat.min_le_right _ _
      · exact h) n

/-- The counter of a node counts the calls since its last frame. -/
theorem canFltCnt_follows (k : Fin 6) (n : Nat) :
    Follows (Handles q ops (fromNode k)) (IsTick ops) canRxTime
      (fun n => (linkAt q ops n).can.canFltCnt k) n := by
  have hstep := linkStep_canFltCnt (linkAt q ops n) (ops n) (canFltCnt_le k n)
  unfold Follows Handles IsTick
  simp only [linkAt_succ, hstep]
  refine ⟨fun hr => if_pos hr, fun hr ht => ?_, fun hr ht => ?_⟩
  · rw [if_neg hr, if_pos ht, Nat.min_assoc, Nat.min_self]
  · rw [if_neg hr, if_neg ht]

/-- **The nodes.** After every call, the bit of a node in `CanStateWord` is clear
exactly if `CAN_RX_TIME` calls have passed since its last frame. -/
theorem node_lost_iff (k : Fin 6) {n : Nat} (h : IsTick ops n) :
    hasBit (linkAt q ops (n + 1)).can.canStateWord k = false ↔
      canRxTime ≤ nodeTicks q ops k (n + 1) := by
  obtain ⟨hnext, hnot⟩ := linkAt_tick (q := q) h
  have hbit := (faultScans_node (linkAt q ops n).can (canFltCnt_le k n)).2
  have hcnt : canRxTime ≤ (linkAt q ops (n + 1)).can.canFltCnt k ↔
      canRxTime ≤ nodeTicks q ops k (n + 1) :=
    limit_le_iff rfl fun m _ => canFltCnt_follows k m
  rw [← hcnt, hnext, bspCanFault_canFltCnt _ (canFltCnt_le k n), ← Bool.not_eq_true]
  unfold bspCanFault
  dsimp only
  rw [hbit]
  omega

/-! ### The bus -/

theorem canCnt_le {n : Nat} (h : ∀ m < n, arrivals ops m < arrivalLimit) :
    (linkAt q ops n).can.canCnt ≤ canRxTime + arrivals ops n := by
  induction n with
  | zero => exact Nat.zero_le _
  | succ n ih =>
    have hprev := ih fun m hm => h m (Nat.lt_succ_of_lt hm)
    have hlt := h n (Nat.lt_succ_self n)
    have hroom : (linkAt q ops n).can.canCnt + 1 < 2 ^ 16 := by
      unfold arrivalLimit at hlt
      omega
    rw [linkAt_succ, linkStep_canCnt _ _ hroom]
    split_ifs with hr ht ha
    · exact Nat.zero_le _
    · exact Nat.le_trans (Nat.min_le_right _ _) (Nat.le_add_right _ _)
    · have harr : arrivals ops (n + 1) = arrivals ops n + 1 := since_counts ht ha
      omega
    · have harr : arrivals ops (n + 1) = arrivals ops n := since_other ht ha
      omega

theorem canCnt_room {n : Nat} (h : ∀ m ≤ n, arrivals ops m < arrivalLimit) :
    (linkAt q ops n).can.canCnt + 1 < 2 ^ 16 := by
  have hle := canCnt_le (q := q) fun m hm => h m (Nat.le_of_lt hm)
  have hlt := h n (Nat.le_refl n)
  unfold arrivalLimit at hlt
  omega

/-- The counter of the bus counts calls and arrivals alike. -/
theorem canCnt_follows {n : Nat} (h : ∀ m ≤ n, arrivals ops m < arrivalLimit) :
    Follows (Handles q ops matchesPort1) (fun m => IsTick ops m ∨ IsArrival ops m) canRxTime
      (fun n => (linkAt q ops n).can.canCnt) n := by
  have hstep := linkStep_canCnt (linkAt q ops n) (ops n) (canCnt_room h)
  unfold Follows Handles IsTick IsArrival
  simp only [linkAt_succ, hstep]
  refine ⟨fun hr => if_pos hr, fun hr hp => ?_, fun hr hp => ?_⟩
  · rw [if_neg hr]
    by_cases ht : (ops n).isTick = true
    · rw [if_pos ht, Nat.min_assoc, Nat.min_self]
    · rw [if_neg ht, if_pos (hp.resolve_left ht)]
  · obtain ⟨ht, ha⟩ := not_or.mp hp
    rw [if_neg hr, if_neg ht, if_neg ha]

/-- What `CanFault` says after a call. -/
theorem canFault_iff {n : Nat} (ht : IsTick ops n) (h : ∀ m ≤ n, arrivals ops m < arrivalLimit) :
    (linkAt q ops (n + 1)).canFault = true ↔ canRxTime ≤ busCount q ops (n + 1) := by
  obtain ⟨hnext, hnot⟩ := linkAt_tick (q := q) ht
  have hfollows : ∀ m < n, Follows (Handles q ops matchesPort1)
      (fun m => IsTick ops m ∨ IsArrival ops m) canRxTime
      (fun n => (linkAt q ops n).can.canCnt) m :=
    fun m hm => canCnt_follows fun l hl => h l (by omega)
  have hcnt := follows_since rfl hfollows
  have hcount : busCount q ops (n + 1) = busCount q ops n + 1 :=
    since_counts (hnot _) (Or.inl ht)
  rw [hnext, bspCanFault_canFault _ (canCnt_room h), decide_eq_true_eq, hcount]
  unfold busCount
  omega

end

end SC04Monitor.Can
