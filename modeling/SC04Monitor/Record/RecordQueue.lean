import SC04Monitor.Lib.PointerRing
import SC04Monitor.Lib.Run

/-! # The queue of flash records

`_FlashWrite` fills the next of 20 slots, whether there is room or not, and queues its
address in a ring that wraps at its last word: the queue counts up to 20 entries in a ring of
19. The length is stored as it is given, although only 528 bytes are copied. -/

namespace SC04Monitor.Record
open SC04Monitor.Lib.Ring SC04Monitor.Lib.PointerRing SC04Monitor.Lib.Run

def flashQueueSize : Nat := 20
def flashBufSize : Nat := 528

/-- `FBuff`: what is to be written. -/
structure FBuff where
  infoType : UInt16
  size : UInt16
  number : UInt16
  index : UInt8
  payload : Nat → UInt8

/-- `DATA_RAM`: a slot of `Flash_DataWriteFIFO`. -/
structure DataSlot where
  infoType : UInt16
  len : UInt16
  number : UInt16
  index : UInt8
  dataRam : Nat → UInt8

/-- `DATA_Q` with its ring `FLASH_OP_Q`, the slots and `flashRam_Ptr`. Pointers into
`FLASH_OP_Q` are indices of its words, those into the slots are their numbers. -/
structure RecordQueue where
  qEntriesMax : Nat
  qIn : Nat
  qOut : Nat
  qEntries : Nat
  flashRamPtr : Nat
  flashOpQ : Nat → Nat
  flashDataWriteFIFO : Nat → DataSlot

namespace RecordQueue

/-- `DataRecord_Init` with `rt_Q_Init`, on whatever the memory held. -/
def dataRecordInit (q : RecordQueue) : RecordQueue :=
  { q with flashRamPtr := 0, qEntriesMax := 0, qIn := 0, qOut := 0, qEntries := 0 }

/-- `rt_Q_Add`; `QEnd` is the address of the last word. -/
def rtQAdd (q : RecordQueue) (msg : Nat) : RecordQueue :=
  if flashQueueSize ≤ q.qEntries then q
  else
    { q with
      flashOpQ := Function.update q.flashOpQ q.qIn msg
      qIn := if q.qIn + 1 = flashQueueSize - 1 then 0 else q.qIn + 1
      qEntries := q.qEntries + 1
      qEntriesMax := max q.qEntriesMax (q.qEntries + 1) }

/-- `rt_Q_Remove`; `none` is `QUEUE_NULL`. -/
def rtQRemove (q : RecordQueue) : Option Nat × RecordQueue :=
  if q.qEntries = 0 then (none, q)
  else
    (some (q.flashOpQ q.qOut),
      { q with
        qOut := if q.qOut + 1 = flashQueueSize - 1 then 0 else q.qOut + 1
        qEntries := q.qEntries - 1 })

/-- What `_FlashWrite` makes of a slot. -/
def fillSlot (fBuf : FBuff) (d : DataSlot) : DataSlot :=
  let size := if flashBufSize < fBuf.size.toNat then flashBufSize else fBuf.size.toNat
  { infoType := fBuf.infoType
    number := fBuf.number
    index := fBuf.index
    dataRam := fun i => if i < size then fBuf.payload i else d.dataRam i
    len := fBuf.size }

/-- `_FlashWrite`. -/
def flashWrite (q : RecordQueue) (fBuf : FBuff) : RecordQueue :=
  let q := { q with
    flashDataWriteFIFO := Function.update q.flashDataWriteFIFO q.flashRamPtr
      (fillSlot fBuf (q.flashDataWriteFIFO q.flashRamPtr)) }
  let q := q.rtQAdd q.flashRamPtr
  { q with
    flashRamPtr := if flashQueueSize ≤ q.flashRamPtr + 1 then 0 else q.flashRamPtr + 1 }

/-- One round of `Bsp_DataRecord`: the slot that `flash_DataWrite` gets. -/
def bspDataRecord (q : RecordQueue) : Option DataSlot × RecordQueue :=
  let r := q.rtQRemove
  (r.1.map r.2.flashDataWriteFIFO, r.2)

end RecordQueue

/-! ## Records -/

/-- A record as the consumer sees it. -/
structure FlashRecord where
  infoType : UInt16
  number : UInt16
  index : UInt8
  len : Nat
  payload : List UInt8
  deriving DecidableEq

/-- The record in a slot. -/
def DataSlot.record (d : DataSlot) : FlashRecord :=
  ⟨d.infoType, d.number, d.index, d.len.toNat,
    (List.range (min d.len.toNat flashBufSize)).map d.dataRam⟩

/-- The record that a write asks for: no longer than a slot. -/
def FBuff.record (f : FBuff) : FlashRecord :=
  ⟨f.infoType, f.number, f.index, min f.size.toNat flashBufSize,
    (List.range (min f.size.toNat flashBufSize)).map f.payload⟩

/-- The records of the pending pointers, oldest first. -/
def RecordQueue.pending (q : RecordQueue) : List FlashRecord :=
  (entries q.flashOpQ (flashQueueSize - 1) q.qOut q.qEntries).map
    fun p => (q.flashDataWriteFIFO p).record

/-! ## Runs -/

inductive RecordOp
  | write (fBuf : FBuff)
  | remove

/-- The queue with the records that the consumer has seen and the writes accepted so far. -/
structure RecordRun where
  queue : RecordQueue
  seen : List FlashRecord
  accepted : List FBuff

namespace RecordRun

def step (r : RecordRun) : RecordOp → RecordRun
  | .write f =>
    { r with
      queue := r.queue.flashWrite f
      accepted := if r.queue.qEntries < flashQueueSize then r.accepted ++ [f] else r.accepted }
  | .remove =>
    { r with
      queue := r.queue.bspDataRecord.2
      seen := r.seen ++ (r.queue.bspDataRecord.1.map DataSlot.record).toList }

/-- The run before operation `n`, from `DataRecord_Init` on. -/
def before (q₀ : RecordQueue) (ops : Nat → RecordOp) (n : Nat) : RecordRun :=
  stateAt step ⟨q₀.dataRecordInit, [], []⟩ ops n

/-- The records seen, followed by those pending, are the accepted writes in order, none
longer than a slot, and a write onto a full queue leaves the pending ones as they are. -/
structure Delivers (r : RecordRun) : Prop where
  order : r.seen ++ r.queue.pending = r.accepted.map FBuff.record
  len_le : ∀ d ∈ r.seen, d.len ≤ flashBufSize
  drop : r.queue.qEntries = flashQueueSize → ∀ f, (r.queue.flashWrite f).pending = r.queue.pending

end RecordRun

/-- Every write fits into a slot and finds 18 pending records at most. -/
def WritesFit (q₀ : RecordQueue) (ops : Nat → RecordOp) : Prop :=
  ∀ n f, ops n = .write f → f.size.toNat ≤ flashBufSize ∧
    (RecordRun.before q₀ ops n).queue.qEntries < flashQueueSize - 1

/-- No record is written twice. -/
def WritesDistinct (ops : Nat → RecordOp) : Prop :=
  ∀ i j f g, ops i = .write f → ops j = .write g → f.record = g.record → i = j

/-! ## The queue and the ring of pointers -/

namespace RecordQueue

/-- The queue as a ring of pointers into a ring of slots. -/
def ring (q : RecordQueue) : PtrRing DataSlot :=
  ⟨q.qIn, q.qOut, q.qEntries, q.flashRamPtr, q.flashOpQ, q.flashDataWriteFIFO⟩

variable {q : RecordQueue}

theorem pending_eq (q : RecordQueue) :
    q.pending = (q.ring.contents flashQueueSize).map DataSlot.record := by
  unfold pending PtrRing.contents
  rw [List.map_map]
  rfl

/-- A write that is accepted is a push. -/
theorem flashWrite_ring (h : q.qEntries < flashQueueSize) (hp : q.flashRamPtr < flashQueueSize)
    (f : FBuff) : (q.flashWrite f).ring =
      q.ring.push flashQueueSize (fillSlot f (q.flashDataWriteFIFO q.flashRamPtr)) := by
  unfold flashWrite rtQAdd ring PtrRing.push next
  dsimp only
  rw [if_neg (Nat.not_le.mpr h)]
  dsimp only
  congr 1
  split_ifs <;> omega

theorem bspDataRecord_empty (h : q.qEntries = 0) : q.bspDataRecord = (none, q) := by
  unfold bspDataRecord rtQRemove
  rw [if_pos h]
  rfl

/-- A removal is a pop, and the consumer gets what the oldest pointer points at. -/
theorem bspDataRecord_eq (h : q.qEntries ≠ 0) :
    q.bspDataRecord.1 = some q.ring.head ∧ q.bspDataRecord.2.ring = q.ring.pop flashQueueSize := by
  unfold bspDataRecord rtQRemove
  rw [if_neg h]
  exact ⟨rfl, rfl⟩

/-- A slot holds the record that fits into it. -/
theorem record_fillSlot {f : FBuff} (h : f.size.toNat ≤ flashBufSize) (d : DataSlot) :
    (fillSlot f d).record = f.record := by
  unfold fillSlot DataSlot.record FBuff.record
  dsimp only
  rw [if_neg (Nat.not_lt.mpr h), Nat.min_eq_left h]
  congr 1
  refine List.map_congr_left fun i hi => if_pos (List.mem_range.mp hi)

/-- One that does not fit keeps its length. -/
theorem record_fillSlot_len {f : FBuff} (d : DataSlot) :
    (fillSlot f d).record.len = f.size.toNat := rfl

theorem record_len_le (f : FBuff) : f.record.len ≤ flashBufSize := Nat.min_le_right _ _

end RecordQueue

namespace RecordRun

/-- What every step of a run whose writes fit preserves. -/
structure Good (r : RecordRun) : Prop where
  synced : r.queue.ring.Synced flashQueueSize
  order : r.seen ++ r.queue.pending = r.accepted.map FBuff.record

variable {r : RecordRun} {f : FBuff}

theorem Good.pending_write (h : Good r) (hlt : r.queue.qEntries < flashQueueSize - 1) (f : FBuff) :
    (r.queue.flashWrite f).pending = r.queue.pending ++
      [(RecordQueue.fillSlot f (r.queue.flashDataWriteFIFO r.queue.flashRamPtr)).record] := by
  rw [RecordQueue.pending_eq, RecordQueue.pending_eq,
    RecordQueue.flashWrite_ring (Nat.lt_of_lt_of_le hlt (by decide)) h.synced.ptr,
    h.synced.contents_push hlt, List.map_append]
  rfl

theorem Good.write (h : Good r) (hlt : r.queue.qEntries < flashQueueSize - 1)
    (hsize : f.size.toNat ≤ flashBufSize) : Good (r.step (.write f)) := by
  have hacc : r.queue.qEntries < flashQueueSize := Nat.lt_of_lt_of_le hlt (by decide)
  constructor
  · show (r.queue.flashWrite f).ring.Synced flashQueueSize
    rw [RecordQueue.flashWrite_ring hacc h.synced.ptr]
    exact h.synced.push hlt _
  · show r.seen ++ (r.queue.flashWrite f).pending =
      (if r.queue.qEntries < flashQueueSize then r.accepted ++ [f] else r.accepted).map FBuff.record
    rw [if_pos hacc, h.pending_write hlt, RecordQueue.record_fillSlot hsize, List.map_append,
      ← h.order, List.append_assoc]
    rfl

theorem Good.remove (h : Good r) : Good (r.step .remove) := by
  unfold step
  by_cases hz : r.queue.qEntries = 0
  · rw [RecordQueue.bspDataRecord_empty hz]
    refine ⟨h.synced, ?_⟩
    show r.seen ++ [] ++ r.queue.pending = _
    rw [List.append_nil]
    exact h.order
  · obtain ⟨hhead, hring⟩ := RecordQueue.bspDataRecord_eq hz
    obtain ⟨hsync, hcont⟩ := h.synced.pop hz
    constructor
    · show r.queue.bspDataRecord.2.ring.Synced flashQueueSize
      rw [hring]
      exact hsync
    · show r.seen ++ (r.queue.bspDataRecord.1.map DataSlot.record).toList ++
        r.queue.bspDataRecord.2.pending = _
      have hold := h.order
      rw [RecordQueue.pending_eq, hcont] at hold
      rw [RecordQueue.pending_eq, hring, hhead, List.append_assoc, ← hold]
      rfl

theorem good_before {q₀ : RecordQueue} {ops : Nat → RecordOp} {n : Nat}
    (h : ∀ j < n, ∀ f, ops j = .write f → f.size.toNat ≤ flashBufSize ∧
      (before q₀ ops j).queue.qEntries < flashQueueSize - 1) :
    Good (before q₀ ops n) := by
  induction n with
  | zero => exact ⟨PtrRing.Synced.empty (by decide) q₀.flashOpQ q₀.flashDataWriteFIFO, rfl⟩
  | succ n ih =>
    have hn := ih fun j hj => h j (by omega)
    show Good ((before q₀ ops n).step (ops n))
    cases hop : ops n with
    | write f =>
      obtain ⟨hsize, hlt⟩ := h n (by omega) f hop
      exact hn.write hlt hsize
    | remove => exact hn.remove

theorem Good.delivers (h : Good r) : Delivers r := by
  refine ⟨h.order, fun d hd => ?_, fun hfull => ?_⟩
  · have hmem : d ∈ r.accepted.map FBuff.record := by
      rw [← h.order]
      exact List.mem_append_left _ hd
    obtain ⟨f, -, rfl⟩ := List.mem_map.mp hmem
    exact RecordQueue.record_len_le f
  · have hle : r.queue.qEntries ≤ flashQueueSize - 1 := h.synced.le
    rw [hfull] at hle
    exact absurd hle (by decide)

/-! ## The writes that break the queue -/

/-- What has been accepted has been written. -/
theorem mem_accepted {q₀ : RecordQueue} {ops : Nat → RecordOp} {n : Nat}
    (h : f ∈ (before q₀ ops n).accepted) : ∃ j < n, ops j = .write f := by
  refine stateAt_collected accepted (fun op g => op = .write g) rfl (fun r op g hg => ?_) h
  cases op with
  | remove => exact .inl hg
  | write y =>
    simp only [step] at hg
    split_ifs at hg
    · rcases List.mem_append.mp hg with hg | hg
      · exact .inl hg
      · rw [List.mem_singleton.mp hg]
        exact .inr rfl
    · exact .inl hg

/-- A write that is too long puts a record into the queue that nobody asked for. -/
theorem Good.too_long (h : Good r) (hlt : r.queue.qEntries < flashQueueSize - 1)
    (hsize : flashBufSize < f.size.toNat) : ¬ Delivers (r.step (.write f)) := by
  intro hd
  have horder : r.seen ++ (r.queue.flashWrite f).pending = (if r.queue.qEntries < flashQueueSize
      then r.accepted ++ [f] else r.accepted).map FBuff.record := hd.order
  rw [if_pos (Nat.lt_of_lt_of_le hlt (by decide)), h.pending_write hlt, List.map_append,
    ← h.order, List.append_assoc, List.append_cancel_left_eq, List.append_cancel_left_eq] at horder
  have hlen := congrArg FlashRecord.len (List.cons.inj horder).1
  rw [RecordQueue.record_fillSlot_len] at hlen
  have hle := RecordQueue.record_len_le f
  omega

/-- A write that finds 19 pending records puts its own in the place of the oldest one. If that
goes unnoticed, the record had been accepted before. -/
theorem Good.overrun (h : Good r) (hfull : r.queue.qEntries = flashQueueSize - 1)
    (hd : Delivers (r.step (.write f))) : ∃ g ∈ r.accepted, g.record = f.record := by
  have hacc : r.queue.qEntries < flashQueueSize := by
    rw [hfull]
    decide
  have horder : r.seen ++ (r.queue.flashWrite f).pending = (if r.queue.qEntries < flashQueueSize
      then r.accepted ++ [f] else r.accepted).map FBuff.record := hd.order
  rw [if_pos hacc, List.map_append, ← h.order, List.append_assoc, List.append_cancel_left_eq,
    RecordQueue.pending_eq, RecordQueue.pending_eq,
    RecordQueue.flashWrite_ring hacc h.synced.ptr] at horder
  have hmem := h.synced.mem_of_overrun (by decide) hfull horder
  rw [← RecordQueue.pending_eq] at hmem
  have haccepted := h.order ▸ List.mem_append_right r.seen hmem
  obtain ⟨g, hg, heq⟩ := List.mem_map.mp haccepted
  have hlen : f.size.toNat ≤ flashBufSize := by
    have hcut := RecordQueue.record_len_le g
    rwa [heq, RecordQueue.record_fillSlot_len] at hcut
  rw [RecordQueue.record_fillSlot hlen] at heq
  exact ⟨g, hg, heq⟩

theorem not_delivers_of_overrun {q₀ : RecordQueue} {ops : Nat → RecordOp} {n : Nat}
    (hd : WritesDistinct ops) (hg : Good (before q₀ ops n)) (hop : ops n = .write f)
    (hfull : (before q₀ ops n).queue.qEntries = flashQueueSize - 1) :
    ¬ Delivers (before q₀ ops (n + 1)) := by
  intro hdel
  change Delivers ((before q₀ ops n).step (ops n)) at hdel
  rw [hop] at hdel
  obtain ⟨g, hacc, heq⟩ := hg.overrun hfull hdel
  obtain ⟨j, hj, hopj⟩ := mem_accepted hacc
  exact absurd (hd j n g f hopj hop heq) (by omega)

end RecordRun

/-- In every run whose writes fit, the queue delivers at every point; and a run of distinct
records in which it does has no other writes. -/
theorem record_queue_delivers (q₀ : RecordQueue) (ops : Nat → RecordOp) :
    (WritesFit q₀ ops → ∀ n, RecordRun.Delivers (RecordRun.before q₀ ops n)) ∧
      (WritesDistinct ops → (∀ n, RecordRun.Delivers (RecordRun.before q₀ ops n)) →
        WritesFit q₀ ops) := by
  constructor
  · intro h n
    exact (RecordRun.good_before fun j _ f hop => h j f hop).delivers
  · intro hd hdel n
    induction n using Nat.strong_induction_on with
    | _ n ih =>
      intro f hop
      have hg : RecordRun.Good (RecordRun.before q₀ ops n) :=
        RecordRun.good_before fun j hj g hg => ih j hj g hg
      have hle : (RecordRun.before q₀ ops n).queue.qEntries ≤ flashQueueSize - 1 := hg.synced.le
      have hlt : (RecordRun.before q₀ ops n).queue.qEntries < flashQueueSize - 1 := by
        rcases Nat.lt_or_eq_of_le hle with hlt | hfull
        · exact hlt
        · exact absurd (hdel (n + 1)) (RecordRun.not_delivers_of_overrun hd hg hop hfull)
      refine ⟨?_, hlt⟩
      by_contra hlong
      have hnext := hdel (n + 1)
      change RecordRun.Delivers ((RecordRun.before q₀ ops n).step (ops n)) at hnext
      rw [hop] at hnext
      exact hg.too_long hlt (Nat.not_le.mp hlong) hnext

/-! ## Concrete runs -/

/-- A queue in zeroed memory. -/
def rawRecords : RecordQueue :=
  ⟨0, 0, 0, 0, 0, fun _ => 0, fun _ => ⟨0, 0, 0, 0, fun _ => 0⟩⟩

/-- A write of `size` bytes of ones with its number. -/
def numbered (size : UInt16) (n : Nat) : FBuff := ⟨0x05, size, UInt16.ofNat n, 0, fun _ => 1⟩

/-- Three records are written, then the queue is read. -/
def threeRecords (n : Nat) : RecordOp := if n < 3 then .write (numbered 2 n) else .remove

theorem record_queue_delivers_three : WritesFit rawRecords threeRecords ∧
    RecordRun.Delivers (RecordRun.before rawRecords threeRecords 5) := by
  have hfit : WritesFit rawRecords threeRecords := by
    intro n f hop
    have hn : n < 3 := by
      by_contra hcon
      simp [threeRecords, hcon] at hop
    obtain rfl | rfl | rfl : n = 0 ∨ n = 1 ∨ n = 2 := by omega
    all_goals
      cases hop
      exact ⟨by decide, by decide⟩
  exact ⟨hfit, (record_queue_delivers rawRecords threeRecords).1 hfit 5⟩

/-- Twenty records are written before the queue is read. -/
def twentyRecords (n : Nat) : RecordOp := if n < 20 then .write (numbered 0 n) else .remove

/-- One record of 600 bytes. -/
def longRecord (n : Nat) : RecordOp := if n = 0 then .write (numbered 600 0) else .remove

/-- Of twenty records the last one comes out first, and a record of 600 bytes comes out with
that length. -/
theorem twentyRecords_spoilt :
    (¬ ∀ n, RecordRun.Delivers (RecordRun.before rawRecords twentyRecords n)) ∧
      ¬ ∀ n, RecordRun.Delivers (RecordRun.before rawRecords longRecord n) := by
  constructor
  · intro h
    have horder := (h 20).order
    revert horder
    decide +kernel
  · intro h
    have hseen : ((RecordRun.before rawRecords longRecord 2).seen.map FlashRecord.len) = [600] := by
      decide +kernel
    obtain ⟨d, hd, hlen⟩ := List.mem_map.mp (hseen ▸ List.mem_singleton_self 600)
    have hle := (h 2).len_le d hd
    rw [hlen] at hle
    exact absurd hle (by decide)

end SC04Monitor.Record
