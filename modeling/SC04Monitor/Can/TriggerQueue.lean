import SC04Monitor.Can.CanQueue
import SC04Monitor.Can.Fragmentation
import SC04Monitor.Lib.Batches

/-! # Triggered messages and the room in the transmit queue

`TriggerMsgPush` lowers the `update` of every pending message and hands its fragments to
`can_Tx_Push_Msg`, which says nothing of a fragment that the queue does not take. Equal
frames are told apart by labels: every frame carries the entry and the number of its
fragment, and none if it was in the queue before. -/

namespace SC04Monitor.Can
open SC04Monitor.Lib.ByteMem SC04Monitor.Lib.Batches SC04Monitor.Lib.PointerRing

/-! ## Pushing several messages -/

namespace CanQueue
section
variable {M N : Type}

/-- The queue with its messages relabelled. -/
def map (f : M → N) (q : CanQueue M) : CanQueue N where
  qEntriesMax := q.qEntriesMax
  qIn := q.qIn
  qOut := q.qOut
  qEntries := q.qEntries
  qInitRegister := q.qInitRegister
  register := q.register
  fifoRamPtr := q.fifoRamPtr
  queueRam := q.queueRam
  dataFIFO := fun i => Prod.map id f (q.dataFIFO i)
  sem := q.sem

theorem pushMsg_map (f : M → N) (size : Nat) (q : CanQueue M) (m : Slot M) :
    (q.map f).pushMsg size (Prod.map id f m) = (q.pushMsg size m).map f := by
  have hslots : Function.update (fun i => Prod.map id f (q.dataFIFO i)) q.fifoRamPtr
      (Prod.map id f m) = fun i => Prod.map id f (Function.update q.dataFIFO q.fifoRamPtr m i) := by
    funext i
    exact (Function.apply_update (fun _ => Prod.map id f) q.dataFIFO q.fifoRamPtr m i).symm
  unfold pushMsg popQ map
  dsimp only
  rw [hslots]
  split_ifs <;> rfl

theorem contents_map (f : M → N) (size : Nat) (q : CanQueue M) :
    (q.map f).contents size = (q.contents size).map (Prod.map id f) := by
  unfold contents
  rw [List.map_map]
  rfl

/-- Messages pushed onto the transmit queue one after the other. -/
def pushAll (q : CanQueue M) (l : List (Slot M)) : CanQueue M :=
  l.foldl (pushMsg canTxQueueSize) q

theorem pushAll_map (f : M → N) (q : CanQueue M) (l : List (Slot M)) :
    (q.map f).pushAll (l.map (Prod.map id f)) = (q.pushAll l).map f := by
  induction l generalizing q with
  | nil => rfl
  | cons m l ih =>
    show ((q.map f).pushMsg canTxQueueSize (Prod.map id f m)).pushAll _ = _
    rw [pushMsg_map, ih]
    rfl

/-- The push puts its frame into the queue, which is initialised. -/
def Takes (q : CanQueue M) : Prop := q.qInitRegister = true ∧ q.Accepts canTxQueueSize

/-- How many more frames the queue takes. -/
def room (q : CanQueue M) : Nat :=
  if q.qInitRegister = true ∧ q.register = .empty then canTxQueueSize - q.qEntries else 0

variable {q : CanQueue M}

/-- A push that is taken fills a slot and queues its pointer. One that is not leaves the
count, and a queue that takes nothing. -/
theorem pushMsg_cases (q : CanQueue M) (m : Slot M) :
    (q.Takes ∧ (q.pushMsg canTxQueueSize m).qInitRegister = true ∧
        (q.pushMsg canTxQueueSize m).register = .empty ∧
        (q.pushMsg canTxQueueSize m).ring = q.ring.push canTxQueueSize m) ∨
      (¬ q.Takes ∧ (q.pushMsg canTxQueueSize m).qEntries = q.qEntries ∧
        ¬ ((q.pushMsg canTxQueueSize m).qInitRegister = true ∧
          (q.pushMsg canTxQueueSize m).register = .empty)) := by
  unfold Takes Accepts
  cases hreg : q.register with
  | full =>
    have hsame : q.pushMsg canTxQueueSize m = q := if_pos hreg
    simp [hsame, hreg]
  | empty =>
    cases hinit : q.qInitRegister with
    | false =>
      right
      simp [pushMsg, popQ, hreg, hinit]
    | true =>
      by_cases hlt : q.qEntries < canTxQueueSize
      · left
        refine ⟨⟨rfl, rfl, hlt⟩, ?_, ?_, ?_⟩
        all_goals simp [pushMsg, popQ, ring, PtrRing.push, hreg, hinit, Nat.not_le.mpr hlt]
      · right
        simp [pushMsg, popQ, hreg, hinit, hlt, Nat.not_lt.mp hlt]

/-- The slot is written before the count is looked at. -/
theorem pushMsg_refused (hinit : q.qInitRegister = true) (hreg : q.register = .empty)
    (hfull : canTxQueueSize ≤ q.qEntries) (m : Slot M) :
    q.pushMsg canTxQueueSize m =
      { q with
        dataFIFO := Function.update q.dataFIFO q.fifoRamPtr m
        register := .full
        fifoRamPtr := Lib.Ring.next canTxQueueSize q.fifoRamPtr
        sem := q.sem + 1 } := by
  simp [pushMsg, popQ, hreg, hinit, hfull]

end

/-! ### The reachable states -/

/-- What every push and every round of the task keeps. -/
structure Ready {M : Type} (q : CanQueue M) : Prop where
  init : q.qInitRegister = true
  placed : q.ring.Placed canTxQueueSize

namespace Ready
variable {M N : Type} {q : CanQueue M}

theorem map (h : q.Ready) (f : M → N) : (q.map f).Ready :=
  ⟨h.init, h.placed.out, h.placed.ptr, h.placed.qin⟩

theorem queueInit (q : CanQueue M) : q.queueInit.Ready :=
  ⟨rfl, PtrRing.Placed.empty (by decide) q.queueRam q.dataFIFO⟩

theorem pushMsg (h : q.Ready) (m : Slot M) : (q.pushMsg canTxQueueSize m).Ready := by
  rcases q.pushMsg_cases m with ⟨-, hinit, -, hring⟩ | ⟨hno, -, -⟩
  · refine ⟨hinit, ?_⟩
    rw [hring]
    exact h.placed.push m
  · cases hreg : q.register with
    | full =>
      have hsame : q.pushMsg canTxQueueSize m = q := if_pos hreg
      rw [hsame]
      exact h
    | empty =>
      have hfull : canTxQueueSize ≤ q.qEntries :=
        Nat.le_of_not_lt fun hlt => hno ⟨h.init, hreg, hlt⟩
      rw [pushMsg_refused h.init hreg hfull m]
      exact ⟨h.init, h.placed.out, (h.placed.push m).ptr, h.placed.qin⟩

theorem take (h : q.Ready) : (q.take .tx).2.Ready := by
  by_cases hz : q.qEntries = 0
  · have htake : (q.take .tx).2 = q := by
      unfold CanQueue.take pushQ
      rw [if_pos hz]
    rw [htake]
    exact h
  · have hpop := h.placed.pop hz
    have htake : (q.take .tx).2 =
        { q with qOut := Lib.Ring.next (canTxQueueSize - 1) q.qOut, qEntries := q.qEntries - 1,
                 register := .empty } := by
      unfold CanQueue.take pushQ
      rw [if_neg hz]
      rfl
    rw [htake]
    exact ⟨h.init, hpop.out, hpop.ptr, hpop.qin⟩

end Ready

end CanQueue

/-! ## One call of `TriggerMsgPush` -/

/-- The entry and the number of a fragment, or `none` for a frame from before. -/
abbrev Label := Option (FrameId × Nat)

section
variable (tb : MsgTable) (junk : FrameId → Nat → Nat) (s : CanApp) (q : CanQueue CanTx)

/-- How many fragments an entry has to send, `(len + 7) / 8` if it is pending. -/
def pendingCount (f : FrameId) : Nat := if pending tb s f then fragmentCount (tb f).len else 0

/-- The fragments of the pending messages, in the order in which they are sent. -/
def triggered : List (FrameId × Nat) :=
  tagged (fun f => List.range (pendingCount tb s f)) (List.finRange canStdFrameNum)

/-- What `can_Tx_Push_Msg` puts into its slot for a frame. -/
def txSlot {L : Type} (label : L) (t : CanTx) : Slot (L × CanTx) :=
  (UInt8.ofNat t.canPort, label, t)

/-- A fragment with its label, as it is to stand in the queue. -/
def labelledSlot (p : FrameId × Nat) : Slot (Label × CanTx) :=
  txSlot (some p) (fragment (tb p.1) s.ram (junk p.1) p.2)

/-- The queue after `TriggerMsgPush`. -/
def afterTrigger : CanQueue CanTx :=
  q.pushAll ((triggerMsgPush tb junk s).1.map fun t => (UInt8.ofNat t.canPort, t))

/-- The same with labels. -/
def labelledAfter : CanQueue (Label × CanTx) :=
  (q.map (Prod.mk none)).pushAll ((triggered tb s).map (labelledSlot tb junk s))

end

section
variable {tb : MsgTable} {junk : FrameId → Nat → Nat} {s : CanApp} {q : CanQueue CanTx}

theorem triggerFrames_eq (f : FrameId) : triggerFrames tb junk s f =
    (List.range (pendingCount tb s f)).map (fragment (tb f) s.ram (junk f)) := by
  unfold triggerFrames pendingCount
  split_ifs
  · exact pushMsg_eq _ _ _
  · rfl

/-- Without the labels it is the queue that `TriggerMsgPush` leaves. -/
theorem labelledAfter_map (tb : MsgTable) (junk : FrameId → Nat → Nat) (s : CanApp)
    (q : CanQueue CanTx) :
    (labelledAfter tb junk s q).map Prod.snd = afterTrigger tb junk s q := by
  have hslots : ((triggered tb s).map (labelledSlot tb junk s)).map (Prod.map id Prod.snd) =
      (triggerMsgPush tb junk s).1.map fun t => (UInt8.ofNat t.canPort, t) := by
    show _ = ((List.finRange canStdFrameNum).flatMap (triggerFrames tb junk s)).map _
    unfold triggered tagged
    simp only [List.map_flatMap, List.map_map, triggerFrames_eq]
    rfl
  unfold labelledAfter afterTrigger
  rw [← CanQueue.pushAll_map, hslots]
  rfl

end

namespace CanQueue.Ready
variable {tb : MsgTable} {junk : FrameId → Nat → Nat} {s : CanApp} {q : CanQueue CanTx}

end CanQueue.Ready

end SC04Monitor.Can
