import SC04Monitor.Lib.PointerRing
import SC04Monitor.Lib.Run

/-! # The CAN queues

`RxQueue` and `TxQueue` are the same code over different messages: a ring of
pointers (`QueueRam`) into a ring of message slots (`DataFIFO`). `QEnd` points
at the last word of `QueueRam` and a pointer wraps when it gets there, so the
pointer ring has one slot less than the queue declares. The two consumer tasks
reset the status register at different moments.

The queue is a FIFO in every run that never pushes onto `size - 1` pending
messages. `Synced` is what such a run keeps: the pending pointers are those of
the last slots written. -/

namespace SC04Monitor.Can
open SC04Monitor.Lib.Ring SC04Monitor.Lib.PointerRing SC04Monitor.Lib.Run

/-- `FIFO_EMPTY_MASK` and `FIFO_FULL_MASK`. -/
inductive FifoReg
  | empty | full
  deriving DecidableEq

/-- The two queues. -/
inductive QueueKind
  | rx | tx
  deriving DecidableEq

def canRxQueueSize : Nat := 20
def canTxQueueSize : Nat := 20

def QueueKind.size : QueueKind → Nat
  | .rx => canRxQueueSize
  | .tx => canTxQueueSize

/-- What a slot of `DataFIFO` holds: the port and the message. -/
abbrev Slot (M : Type) := UInt8 × M

/-- The members of `RxQueue` and `TxQueue`. Pointers into `QueueRam` are indices
of its words, pointers into `DataFIFO` are numbers of its slots, and `sem` is the
count of `can_OPsem`. -/
structure CanQueue (M : Type) where
  qEntriesMax : Nat
  qIn : Nat
  qOut : Nat
  qEntries : Nat
  qInitRegister : Bool
  register : FifoReg
  fifoRamPtr : Nat
  queueRam : Nat → Nat
  dataFIFO : Nat → Slot M
  sem : Nat

section
variable {M : Type}

namespace CanQueue

/-- `QueueInit`, on whatever the memory held. -/
def queueInit (q : CanQueue M) : CanQueue M :=
  { q with
    fifoRamPtr := 0
    register := .empty
    qEntriesMax := 0
    qIn := 0
    qOut := 0
    qEntries := 0
    qInitRegister := true }

variable (size : Nat)

/-- `pop_Q`, which puts a pointer into the queue. -/
def popQ (q : CanQueue M) (msg : Nat) : CanQueue M :=
  if !q.qInitRegister then q
  else if size ≤ q.qEntries then { q with register := .full }
  else
    { q with
      queueRam := Function.update q.queueRam q.qIn msg
      qIn := next (size - 1) q.qIn
      qEntries := q.qEntries + 1
      qEntriesMax := max q.qEntriesMax (q.qEntries + 1) }

/-- `Push_Msg`: the slot is written before `pop_Q` looks at the count. -/
def pushMsg (q : CanQueue M) (m : Slot M) : CanQueue M :=
  if q.register = .full then q
  else
    let q := { q with dataFIFO := Function.update q.dataFIFO q.fifoRamPtr m }
    let q := q.popQ size q.fifoRamPtr
    { q with fifoRamPtr := next size q.fifoRamPtr, sem := q.sem + 1 }

/-- `push_Q`, which takes a pointer out of the queue; `none` is `QUEUE_NULL`. -/
def pushQ (q : CanQueue M) : Option Nat × CanQueue M :=
  if q.qEntries = 0 then (none, q)
  else
    (some (q.queueRam q.qOut),
      { q with qOut := next (size - 1) q.qOut, qEntries := q.qEntries - 1 })

/-- One round of `CanApp_Rx_Task` or `CanApp_Tx_Task`: the message read through
the pointer, and the queue with its register as the task leaves it. -/
def take (kind : QueueKind) (q : CanQueue M) : Option (Slot M) × CanQueue M :=
  match q.pushQ kind.size, kind with
  | (some p, q), .rx => (some (q.dataFIFO p), q)
  | (none, q), .rx => (none, { q with register := .empty })
  | (some p, q), .tx => (some (q.dataFIFO p), { q with register := .empty })
  | (none, q), .tx => (none, q)

/-- A push that puts its message into the queue. -/
def Accepts (q : CanQueue M) : Prop := q.register = .empty ∧ q.qEntries < size

instance (q : CanQueue M) : Decidable (q.Accepts size) := inferInstanceAs (Decidable (_ ∧ _))

/-- The messages that the pending pointers point at, oldest first. -/
def contents (q : CanQueue M) : List (Slot M) :=
  (entries q.queueRam (size - 1) q.qOut q.qEntries).map q.dataFIFO

end CanQueue

/-! ## Runs -/

inductive QueueOp (M : Type)
  | push (m : Slot M)
  | pop

/-- A queue with the messages read from it and the messages it accepted so far. -/
structure QueueRun (M : Type) where
  queue : CanQueue M
  reads : List (Slot M)
  accepted : List (Slot M)

namespace QueueRun
variable (kind : QueueKind)

def step (r : QueueRun M) : QueueOp M → QueueRun M
  | .push m =>
    { r with
      queue := r.queue.pushMsg kind.size m
      accepted := if r.queue.Accepts kind.size then r.accepted ++ [m] else r.accepted }
  | .pop =>
    { r with
      queue := (r.queue.take kind).2
      reads := r.reads ++ (r.queue.take kind).1.toList }

/-- The run before operation `n`, from `QueueInit` on. -/
def before (q₀ : CanQueue M) (ops : Nat → QueueOp M) (n : Nat) : QueueRun M :=
  stateAt (step kind) ⟨q₀.queueInit, [], []⟩ ops n

/-- What a bounded FIFO promises: the messages read, followed by those still in
the queue, are the accepted ones in order, and a push on a queue that holds its
declared capacity leaves the contents as they are. -/
structure IsFifo (r : QueueRun M) : Prop where
  order : r.reads ++ r.queue.contents kind.size = r.accepted
  drop : r.queue.qEntries = kind.size → ∀ m,
    (r.queue.pushMsg kind.size m).contents kind.size = r.queue.contents kind.size

end QueueRun

/-- No push finds more than `size - 2` pending messages. -/
def KeepsSlotFree (kind : QueueKind) (q₀ : CanQueue M) (ops : Nat → QueueOp M) : Prop :=
  ∀ n m, ops n = .push m → (QueueRun.before kind q₀ ops n).queue.qEntries < kind.size - 1

/-- No message is pushed twice. -/
def PushesDistinct (ops : Nat → QueueOp M) : Prop :=
  ∀ i j m, ops i = .push m → ops j = .push m → i = j

/-! ## The invariant -/

theorem QueueKind.size_eq (kind : QueueKind) : kind.size = 20 := by
  cases kind <;> rfl

/-- The two rings are in step. -/
structure Synced (size : Nat) (q : CanQueue M) : Prop where
  ready : q.qInitRegister = true
  register : q.register = .empty
  out : q.qOut < size - 1
  ptr : q.fifoRamPtr < size
  le : q.qEntries ≤ size - 1
  qin : q.qIn = (q.qOut + q.qEntries) % (size - 1)
  pending : entries q.queueRam (size - 1) q.qOut q.qEntries =
    entries id size (q.fifoRamPtr + size - q.qEntries) q.qEntries

/-- The queue as a ring of pointers into a ring of slots. -/
def CanQueue.ring (q : CanQueue M) : PtrRing (Slot M) :=
  ⟨q.qIn, q.qOut, q.qEntries, q.fifoRamPtr, q.queueRam, q.dataFIFO⟩

namespace Synced
variable {size : Nat} {q : CanQueue M}

theorem ring (h : Synced size q) : q.ring.Synced size := ⟨h.out, h.ptr, h.le, h.qin, h.pending⟩

theorem of_ring (hready : q.qInitRegister = true) (hreg : q.register = .empty)
    (h : q.ring.Synced size) : Synced size q :=
  ⟨hready, hreg, h.out, h.ptr, h.le, h.qin, h.pending⟩

theorem queueInit (hs : 2 ≤ size) (q : CanQueue M) : Synced size q.queueInit :=
  of_ring rfl rfl (PtrRing.Synced.empty hs q.queueRam q.dataFIFO)

theorem pushMsg_eq (h : Synced size q) (hlt : q.qEntries < size) (m : Slot M) :
    q.pushMsg size m =
      { q with
        dataFIFO := Function.update q.dataFIFO q.fifoRamPtr m
        queueRam := Function.update q.queueRam q.qIn q.fifoRamPtr
        qIn := next (size - 1) q.qIn
        qEntries := q.qEntries + 1
        qEntriesMax := max q.qEntriesMax (q.qEntries + 1)
        fifoRamPtr := next size q.fifoRamPtr
        sem := q.sem + 1 } := by
  simp [CanQueue.pushMsg, CanQueue.popQ, h.register, h.ready, Nat.not_le.mpr hlt]

theorem pushMsg_ring (h : Synced size q) (hlt : q.qEntries < size) (m : Slot M) :
    (q.pushMsg size m).ring = q.ring.push size m := by
  rw [h.pushMsg_eq hlt]
  rfl

/-- A push onto a free pointer slot appends its message. -/
theorem push (h : Synced size q) (hlt : q.qEntries < size - 1) (m : Slot M) :
    Synced size (q.pushMsg size m) ∧
      (q.pushMsg size m).contents size = q.contents size ++ [m] := by
  have hring := h.pushMsg_ring (by omega) m
  have hpush := h.pushMsg_eq (by omega) m
  constructor
  · refine of_ring (by rw [hpush]; exact h.ready) (by rw [hpush]; exact h.register) ?_
    rw [hring]
    exact h.ring.push hlt m
  · show (q.pushMsg size m).ring.contents size = q.ring.contents size ++ [m]
    rw [hring]
    exact h.ring.contents_push hlt m

/-- Where a push onto a full pointer ring seems to append, its message was pending before. -/
theorem mem_of_overrun (h : Synced size q) (hs : 2 ≤ size) (hfull : q.qEntries = size - 1)
    {m : Slot M} (happ : (q.pushMsg size m).contents size = q.contents size ++ [m]) :
    m ∈ q.contents size := by
  change (q.pushMsg size m).ring.contents size = q.ring.contents size ++ [m] at happ
  rw [h.pushMsg_ring (by omega)] at happ
  have hmem := h.ring.mem_of_overrun (g := id) (l := [m]) hs hfull (by rw [happ, List.map_append]; rfl)
  rwa [List.map_id] at hmem

/-- A pop reads the oldest message and takes it out. -/
theorem pop (h : Synced size q) (hpos : q.qEntries ≠ 0) :
    ∃ p q', q.pushQ size = (some p, q') ∧ Synced size q' ∧
      q.contents size = q'.dataFIFO p :: q'.contents size := by
  obtain ⟨hsync, hcont⟩ := h.ring.pop hpos
  exact ⟨q.queueRam q.qOut, { q with qOut := next (size - 1) q.qOut, qEntries := q.qEntries - 1 },
    if_neg hpos, of_ring h.ready h.register hsync, hcont⟩

end Synced

/-! ## The queue refines a FIFO -/

namespace QueueRun
variable {kind : QueueKind}

/-- What every step of a run that keeps a slot free preserves. -/
structure Good (kind : QueueKind) (r : QueueRun M) : Prop where
  synced : Synced kind.size r.queue
  order : r.reads ++ r.queue.contents kind.size = r.accepted

theorem Good.push {r : QueueRun M} (h : Good kind r) {m : Slot M}
    (hlt : r.queue.qEntries < kind.size - 1) : Good kind (r.step kind (.push m)) := by
  obtain ⟨hsync, hcont⟩ := h.synced.push hlt m
  have hacc : r.queue.Accepts kind.size := ⟨h.synced.register, by omega⟩
  refine ⟨hsync, ?_⟩
  show r.reads ++ (r.queue.pushMsg kind.size m).contents kind.size =
    if r.queue.Accepts kind.size then r.accepted ++ [m] else r.accepted
  rw [hcont, if_pos hacc, ← List.append_assoc, h.order]

theorem Good.pop {r : QueueRun M} (h : Good kind r) : Good kind (r.step kind .pop) := by
  by_cases hz : r.queue.qEntries = 0
  · -- an empty queue reads nothing; the register is empty already
    have htake : r.queue.take kind = (none, r.queue) := by
      have hreg : { r.queue with register := .empty } = r.queue := by
        rw [← h.synced.register]
      have hpush : r.queue.pushQ kind.size = (none, r.queue) := if_pos hz
      unfold CanQueue.take
      rw [hpush]
      cases kind
      · simp only [hreg]
      · rfl
    unfold step
    simp only [htake, Option.toList_none, List.append_nil]
    exact h
  · obtain ⟨p, q', hpush, hsync, hcont⟩ := h.synced.pop hz
    have htake : r.queue.take kind = (some (q'.dataFIFO p), q') := by
      have hreg : { q' with register := .empty } = q' := by
        rw [← hsync.register]
      unfold CanQueue.take
      rw [hpush]
      cases kind
      · rfl
      · simp only [hreg]
    unfold step
    simp only [htake, Option.toList_some]
    refine ⟨hsync, ?_⟩
    rw [List.append_assoc, List.singleton_append, ← hcont]
    exact h.order

theorem good_before {q₀ : CanQueue M} {ops : Nat → QueueOp M} {n : Nat}
    (h : ∀ j < n, ∀ m, ops j = .push m →
      (before kind q₀ ops j).queue.qEntries < kind.size - 1) :
    Good kind (before kind q₀ ops n) := by
  induction n with
  | zero => exact ⟨Synced.queueInit (by rw [kind.size_eq]; omega) q₀, rfl⟩
  | succ n ih =>
    have hn := ih fun j hj => h j (by omega)
    show Good kind ((before kind q₀ ops n).step kind (ops n))
    cases hop : ops n with
    | push m => exact hn.push (h n (by omega) m hop)
    | pop => exact hn.pop

theorem Good.isFifo {r : QueueRun M} (h : Good kind r) : IsFifo kind r := by
  refine ⟨h.order, fun hfull => ?_⟩
  have hle := h.synced.le
  rw [hfull, kind.size_eq] at hle
  omega

/-- What has been accepted has been pushed. -/
theorem mem_accepted {q₀ : CanQueue M} {ops : Nat → QueueOp M} {n : Nat} {m : Slot M}
    (h : m ∈ (before kind q₀ ops n).accepted) : ∃ j < n, ops j = .push m := by
  refine stateAt_collected accepted (fun op x => op = .push x) rfl (fun r op x hx => ?_) h
  cases op with
  | pop => exact .inl hx
  | push y =>
    simp only [step] at hx
    split_ifs at hx
    · rcases List.mem_append.mp hx with hx | hx
      · exact .inl hx
      · rw [List.mem_singleton.mp hx]
        exact .inr rfl
    · exact .inl hx

/-- The first push that finds `size - 1` pending messages breaks the order. -/
theorem not_isFifo_of_overrun {q₀ : CanQueue M} {ops : Nat → QueueOp M} {n : Nat} {m : Slot M}
    (hd : PushesDistinct ops) (hg : Good kind (before kind q₀ ops n)) (hop : ops n = .push m)
    (hfull : kind.size - 1 ≤ (before kind q₀ ops n).queue.qEntries) :
    ¬ IsFifo kind (before kind q₀ ops (n + 1)) := by
  intro hf
  have hsize := kind.size_eq
  have hle := hg.synced.le
  have heq : (before kind q₀ ops n).queue.qEntries = kind.size - 1 := by omega
  have hacc : (before kind q₀ ops n).queue.Accepts kind.size := ⟨hg.synced.register, by omega⟩
  have hstep : before kind q₀ ops (n + 1) = (before kind q₀ ops n).step kind (.push m) := by
    rw [← hop]
    rfl
  have horder := hf.order
  rw [hstep] at horder
  simp only [step, if_pos hacc] at horder
  rw [← hg.order, List.append_assoc, List.append_cancel_left_eq] at horder
  -- so the new message was pending, and accepted before
  have hmem : m ∈ (before kind q₀ ops n).accepted := by
    rw [← hg.order]
    exact List.mem_append_right _ (hg.synced.mem_of_overrun (by omega) heq horder)
  obtain ⟨j, hj, hpush⟩ := mem_accepted hmem
  exact absurd (hd j n m hpush hop) (by omega)

end QueueRun

/-- **The CAN queues as FIFOs.** For both queues, from any memory contents before
`QueueInit`: a run whose pushes all find a free pointer slot is a FIFO at every
point, and a run of distinct messages that is a FIFO at every point has no other
pushes. -/
theorem queue_refines_fifo (kind : QueueKind) (q₀ : CanQueue M) (ops : Nat → QueueOp M) :
    (KeepsSlotFree kind q₀ ops → ∀ n, QueueRun.IsFifo kind (QueueRun.before kind q₀ ops n)) ∧
      (PushesDistinct ops → (∀ n, QueueRun.IsFifo kind (QueueRun.before kind q₀ ops n)) →
        KeepsSlotFree kind q₀ ops) := by
  constructor
  · intro hk n
    exact (QueueRun.good_before fun j _ m hop => hk j m hop).isFifo
  · intro hd hf n
    induction n using Nat.strong_induction_on with
    | _ n ih =>
      intro m hop
      have hg : QueueRun.Good kind (QueueRun.before kind q₀ ops n) :=
        QueueRun.good_before fun j hj x hx => ih j hj x hx
      by_contra hcon
      exact QueueRun.not_isFifo_of_overrun hd hg hop (by omega) (hf (n + 1))

end

/-! ## Concrete runs -/

/-- An uninitialised queue of numbers. -/
def rawQueue : CanQueue Nat :=
  ⟨0, 0, 0, 0, false, .empty, 0, fun _ => 0, fun _ => (0, 0), 0⟩

/-- Three messages arrive, then the queue is read. -/
def threeMessages (n : Nat) : QueueOp Nat := if n < 3 then .push (1, n) else .pop

theorem queue_refines_fifo_three : KeepsSlotFree .tx rawQueue threeMessages ∧
    QueueRun.IsFifo .tx (QueueRun.before .tx rawQueue threeMessages 5) := by
  have hk : KeepsSlotFree .tx rawQueue threeMessages := by
    intro n m hop
    have hn : n < 3 := by
      by_contra hcon
      simp [threeMessages, hcon] at hop
    obtain rfl | rfl | rfl : n = 0 ∨ n = 1 ∨ n = 2 := by omega
    all_goals decide
  exact ⟨hk, (queue_refines_fifo .tx rawQueue threeMessages).1 hk 5⟩

/-- Messages `0`, `1`, ... arrive and nobody reads. -/
def burst (n : Nat) : QueueOp Nat := .push (1, n)

/-- Twenty messages fill a queue to its declared size, and the next pop reads the
last of them. -/
theorem burst_overwrites :
    (QueueRun.before .rx rawQueue burst 20).accepted.length = canRxQueueSize ∧
      ((QueueRun.before .rx rawQueue burst 20).queue.take .rx).1 = some (1, 19) ∧
      ¬ QueueRun.IsFifo .rx (QueueRun.before .rx rawQueue burst 20) := by
  refine ⟨by decide, by decide, fun h => ?_⟩
  have horder := h.order
  revert horder
  decide

end SC04Monitor.Can
