import SC04Monitor.Can.CanQueue
import SC04Monitor.Lib.Steps

/-! # The transmit queue and its two sides

`TxQueue::Push_Msg` and the task of `CanApp_Tx_Task`, statement by statement and
interleaved. `pop_Q` writes `FIFO_FULL_MASK` after it has enabled the interrupts
again, so the write can come late: when the task has emptied the queue in between,
nothing will ever reset the register. -/

namespace SC04Monitor.Can
open SC04Monitor.Lib.Steps

/-- The next statement of a call of `Push_Msg`. -/
inductive PushPc
  | test  -- not called yet; `Register != FIFO_FULL_MASK`
  | fill  -- the slot at `FifoRamPtr`
  | enqueue (msg : Nat)  -- the locked part of `pop_Q`
  | setFull  -- `Register = FIFO_FULL_MASK`
  | advance  -- `FifoRamPtr`
  | release  -- `rt_sem_release`
  | returned
  deriving DecidableEq

/-- The next statement of `Bsp_can_tx_task`. -/
inductive TxTaskPc
  | take  -- `rt_sem_take`
  | dequeue  -- `push_Q`
  | setEmpty (msg : Nat)  -- `SetFifoReg(FIFO_EMPTY_MASK)`
  | send (msg : Nat)  -- `_App_Can_Tx`
  deriving DecidableEq

/-- The queue, the calls and the task; `sent` is what the task handed to the
controller. -/
structure TxState (M : Type) where
  queue : CanQueue M
  calls : Nat → PushPc
  task : TxTaskPc
  sent : List (Slot M)

/-- Who runs next. -/
inductive TxTurn
  | call (k : Nat)
  | task
  deriving DecidableEq

section
variable {M : Type}

namespace TxState

/-- After `rt_sem_init` and `QueueInit`, whatever the memory held. -/
def init (q : CanQueue M) : TxState M :=
  ⟨{ q.queueInit with sem := 1 }, fun _ => .test, .take, []⟩

/-- Call `k` goes on with statement `pc`, over the queue `q`. -/
def goto (s : TxState M) (k : Nat) (pc : PushPc) (q : CanQueue M) : TxState M :=
  { s with queue := q, calls := Function.update s.calls k pc }

end TxState

/-- The locked part of `pop_Q`, and where it goes on. -/
def popLocked (q : CanQueue M) (msg : Nat) : PushPc × CanQueue M :=
  if !q.qInitRegister then (.advance, q)
  else if canTxQueueSize ≤ q.qEntries then (.setFull, q)
  else (.advance, q.popQ canTxQueueSize msg)

/-- One statement of call `k`, which pushes the message `m`. -/
def callStep (m : Slot M) (k : Nat) (s : TxState M) : Option (TxState M) :=
  match s.calls k with
  | .test =>
    if s.queue.register = .full then some (s.goto k .returned s.queue)
    else some (s.goto k .fill s.queue)
  | .fill =>
    some (s.goto k (.enqueue s.queue.fifoRamPtr)
      { s.queue with dataFIFO := Function.update s.queue.dataFIFO s.queue.fifoRamPtr m })
  | .enqueue msg =>
    let (pc, q) := popLocked s.queue msg
    some (s.goto k pc q)
  | .setFull => some (s.goto k .advance { s.queue with register := .full })
  | .advance =>
    some (s.goto k .release
      { s.queue with fifoRamPtr := Lib.Ring.next canTxQueueSize s.queue.fifoRamPtr })
  | .release => some (s.goto k .returned { s.queue with sem := s.queue.sem + 1 })
  | .returned => none

/-- One statement of the task; at a semaphore of `0` it waits. -/
def taskStep (s : TxState M) : Option (TxState M) :=
  match s.task with
  | .take =>
    if s.queue.sem = 0 then none
    else some { s with queue := { s.queue with sem := s.queue.sem - 1 }, task := .dequeue }
  | .dequeue =>
    match s.queue.pushQ canTxQueueSize with
    | (some msg, q) => some { s with queue := q, task := .setEmpty msg }
    | (none, q) => some { s with queue := q, task := .take }
  | .setEmpty msg =>
    some { s with queue := { s.queue with register := .empty }, task := .send msg }
  | .send msg => some { s with sent := s.sent ++ [s.queue.dataFIFO msg], task := .dequeue }

/-- Call `k` pushes `msgs k`. -/
def txStep (msgs : Nat → Slot M) (s : TxState M) : TxTurn → Option (TxState M)
  | .call k => callStep (msgs k) k s
  | .task => taskStep s

/-! ## What the steps amount to

Undisturbed, a call is `pushMsg` and a round of the task is `take`. -/

@[simp] theorem goto_calls (s : TxState M) (k : Nat) (pc : PushPc) (q : CanQueue M) :
    (s.goto k pc q).calls k = pc := by
  show Function.update s.calls k pc k = pc
  exact Function.update_self _ _ _

theorem goto_calls_of_ne (s : TxState M) {j k : Nat} (h : j ≠ k) (pc : PushPc) (q : CanQueue M) :
    (s.goto k pc q).calls j = s.calls j := by
  show Function.update s.calls k pc j = s.calls j
  exact Function.update_of_ne h _ _

@[simp] theorem goto_queue (s : TxState M) (k : Nat) (pc : PushPc) (q : CanQueue M) :
    (s.goto k pc q).queue = q := rfl

@[simp] theorem goto_goto (s : TxState M) (k : Nat) (pc pc' : PushPc) (q q' : CanQueue M) :
    (s.goto k pc q).goto k pc' q' = s.goto k pc' q' := by
  unfold TxState.goto
  rw [Function.update_idem]

theorem call_undisturbed (msgs : Nat → Slot M) {s : TxState M} {k : Nat} (h : s.calls k = .test) :
    ∃ n, runSteps (txStep msgs) s (List.replicate n (.call k)) =
      some (s.goto k .returned (s.queue.pushMsg canTxQueueSize (msgs k))) := by
  unfold CanQueue.pushMsg
  by_cases hfull : s.queue.register = .full
  · refine ⟨1, ?_⟩
    simp [runSteps, txStep, callStep, h, hfull]
  · by_cases hinit : s.queue.qInitRegister = true
    · by_cases hsize : canTxQueueSize ≤ s.queue.qEntries
      · refine ⟨6, ?_⟩
        simp [runSteps, List.replicate, txStep, callStep, h, hfull, popLocked, CanQueue.popQ, hinit,
          hsize]
      · refine ⟨5, ?_⟩
        simp [runSteps, List.replicate, txStep, callStep, h, hfull, popLocked, CanQueue.popQ, hinit,
          hsize]
    · refine ⟨5, ?_⟩
      simp [runSteps, List.replicate, txStep, callStep, h, hfull, popLocked, CanQueue.popQ, hinit]

theorem task_undisturbed (msgs : Nat → Slot M) {s : TxState M} (h : s.task = .dequeue) :
    ∃ n, runSteps (txStep msgs) s (List.replicate n .task) =
      some { s with
        queue := (s.queue.take .tx).2
        task := if (s.queue.take .tx).1.isSome then .dequeue else .take
        sent := s.sent ++ (s.queue.take .tx).1.toList } := by
  have hsize : canTxQueueSize = QueueKind.tx.size := rfl
  unfold CanQueue.take
  rcases hpush : s.queue.pushQ QueueKind.tx.size with ⟨msg, q⟩
  cases msg with
  | none =>
    refine ⟨1, ?_⟩
    simp [runSteps, txStep, taskStep, h, hsize, hpush]
  | some msg =>
    refine ⟨3, ?_⟩
    simp [runSteps, List.replicate, txStep, taskStep, h, hsize, hpush]

/-! ## The wedge -/

/-- The queue is empty, the task waits for a semaphore of `0`, the register says full,
and no call is under way. -/
structure Wedged (s : TxState M) : Prop where
  empty : s.queue.qEntries = 0
  task : s.task = .take
  sem : s.queue.sem = 0
  register : s.queue.register = .full
  calls : ∀ k, s.calls k = .test ∨ s.calls k = .returned

/-- A wedged queue stays as it is: the task waits, and a call returns at once. -/
theorem Wedged.stuck {msgs : Nat → Slot M} {s s' : TxState M} {t : TxTurn} (h : Wedged s)
    (hstep : txStep msgs s t = some s') :
    Wedged s' ∧ s'.queue = s.queue ∧ ∃ k, t = .call k ∧ s'.calls k = .returned := by
  cases t with
  | task =>
    unfold txStep taskStep at hstep
    simp only [h.task, h.sem, ↓reduceIte] at hstep
    cases hstep
  | call k =>
    unfold txStep callStep at hstep
    rcases h.calls k with htest | hret
    · simp only [htest, h.register, ↓reduceIte, Option.some.injEq] at hstep
      obtain rfl := hstep
      refine ⟨⟨h.empty, h.task, h.sem, h.register, fun j => ?_⟩, rfl, k, rfl, goto_calls _ _ _ _⟩
      by_cases hj : j = k
      · subst hj
        exact Or.inr (goto_calls _ _ _ _)
      · rw [goto_calls_of_ne s hj]
        exact h.calls j
    · simp only [hret] at hstep
      cases hstep

/-- The task has taken a message out and is about to reset the register. -/
def TxTaskPc.resets : TxTaskPc → Bool
  | setEmpty _ => true
  | take | dequeue | send _ => false

/-- The register is not set late: where a call sets it to full, the queue is not
empty, or the task is about to reset it. -/
def SetsInTime (s : TxState M) : TxTurn → Prop
  | .call k => s.calls k = .setFull → 0 < s.queue.qEntries ∨ s.task.resets = true
  | .task => True

instance (s : TxState M) : DecidablePred (SetsInTime s)
  | .call k => inferInstanceAs
      (Decidable (s.calls k = .setFull → 0 < s.queue.qEntries ∨ s.task.resets = true))
  | .task => inferInstanceAs (Decidable True)

/-- The invariant of such runs: a register that says full will be reset. -/
def WillReset (s : TxState M) : Prop :=
  s.queue.register = .full → 0 < s.queue.qEntries ∨ s.task.resets = true

theorem WillReset.call {m : Slot M} {k : Nat} {s s' : TxState M} (h : WillReset s)
    (hok : s.calls k = .setFull → 0 < s.queue.qEntries ∨ s.task.resets = true)
    (hstep : callStep m k s = some s') : WillReset s' := by
  unfold callStep at hstep
  rcases hpc : s.calls k with _ | _ | msg | _ | _ | _ | _
  all_goals simp only [hpc, Option.some.injEq] at hstep
  · split_ifs at hstep
    · obtain rfl := Option.some.inj hstep
      exact h
    · obtain rfl := Option.some.inj hstep
      exact h
  · subst hstep
    exact h
  · subst hstep
    unfold popLocked
    split_ifs with hinit hsize
    · exact h
    · exact h
    · -- the enqueued message is what the register waits for
      intro _
      refine Or.inl ?_
      show 0 < (s.queue.popQ canTxQueueSize msg).qEntries
      unfold CanQueue.popQ
      rw [if_neg hinit, if_neg hsize]
      exact Nat.succ_pos _
  · subst hstep
    intro _
    exact hok hpc
  · subst hstep
    exact h
  · subst hstep
    exact h
  · cases hstep

theorem WillReset.task {s s' : TxState M} (h : WillReset s) (hstep : taskStep s = some s') :
    WillReset s' := by
  unfold taskStep at hstep
  rcases hpc : s.task with _ | _ | msg | msg
  all_goals simp only [hpc, Option.some.injEq] at hstep
  · split_ifs at hstep
    obtain rfl := Option.some.inj hstep
    intro hfull
    rcases h hfull with hpos | hset
    · exact Or.inl hpos
    · rw [hpc] at hset
      cases hset
  · unfold CanQueue.pushQ at hstep
    split_ifs at hstep with hzero
    · -- an empty queue: the register does not say full
      obtain rfl := Option.some.inj hstep
      intro hfull
      rcases h hfull with hpos | hset
      · exact absurd hzero (Nat.ne_of_gt hpos)
      · rw [hpc] at hset
        cases hset
    · obtain rfl := Option.some.inj hstep
      exact fun _ => Or.inr rfl
  · subst hstep
    intro hfull
    cases hfull
  · subst hstep
    intro hfull
    rcases h hfull with hpos | hset
    · exact Or.inl hpos
    · rw [hpc] at hset
      cases hset

/-- **The transmit queue.** In every run, with any number of calls and any
interleaving, in which the register is not set late, no state is wedged. -/
theorem tx_never_wedges {msgs : Nat → Slot M} {q : CanQueue M} {s : TxState M}
    (h : Reach (txStep msgs) SetsInTime (.init q) s) : ¬ Wedged s := by
  have hinv : WillReset s := by
    refine h.inv ?_ fun s t s' hs hok hstep => ?_
    · intro hfull
      cases hfull
    · cases t with
      | call k => exact hs.call hok hstep
      | task => exact hs.task hstep
  intro hw
  rcases hinv hw.register with hpos | hset
  · exact absurd hw.empty (Nat.ne_of_gt hpos)
  · rw [hw.task] at hset
    cases hset

/-- A statement of a call moves that call only. -/
theorem callStep_goto {m : Slot M} {k : Nat} {s s' : TxState M} (h : callStep m k s = some s') :
    ∃ pc q, s' = s.goto k pc q := by
  unfold callStep at h
  rcases hpc : s.calls k with _ | _ | msg | _ | _ | _ | _
  all_goals simp only [hpc, Option.some.injEq] at h
  · split_ifs at h
    · exact ⟨_, _, (Option.some.inj h).symm⟩
    · exact ⟨_, _, (Option.some.inj h).symm⟩
  · exact ⟨_, _, h.symm⟩
  · exact ⟨_, _, h.symm⟩
  · exact ⟨_, _, h.symm⟩
  · exact ⟨_, _, h.symm⟩
  · exact ⟨_, _, h.symm⟩
  · cases h

theorem taskStep_calls {s s' : TxState M} (h : taskStep s = some s') : s'.calls = s.calls := by
  unfold taskStep at h
  rcases hpc : s.task with _ | _ | msg | msg
  all_goals simp only [hpc] at h
  · split_ifs at h
    obtain rfl := Option.some.inj h
    rfl
  · rcases hpush : s.queue.pushQ canTxQueueSize with ⟨_ | msg, q⟩
    all_goals
      simp only [hpush] at h
      obtain rfl := Option.some.inj h
      rfl
  · obtain rfl := Option.some.inj h
    rfl
  · obtain rfl := Option.some.inj h
    rfl

/-- A call that does not run stays where it is. -/
theorem calls_of_idle {msgs : Nat → Slot M} {ts : List TxTurn} {s s' : TxState M} {k : Nat}
    (hidle : .call k ∉ ts) (hrun : runSteps (txStep msgs) s ts = some s') :
    s'.calls k = s.calls k := by
  refine runSteps_inv (P := fun t => t.calls k = s.calls k) (fun t ht u u' hu hstep => ?_) rfl hrun
  rw [← hu]
  cases t with
  | task => rw [taskStep_calls hstep]
  | call j =>
    have hne : k ≠ j := by
      rintro rfl
      exact hidle ht
    obtain ⟨pc, q, rfl⟩ := callStep_goto hstep
    exact goto_calls_of_ne u hne pc q

end

/-! ## The late write -/

/-- Twenty calls fill the queue, the next one finds it full and is interrupted; the
task empties the queue and waits; the call goes on. -/
def lateWrite : List TxTurn :=
  (List.range 20).flatMap (fun k => List.replicate 5 (.call k)) ++ List.replicate 3 (.call 20) ++
    List.replicate 102 .task ++ List.replicate 3 (.call 20) ++ List.replicate 2 .task

/-- What the task and the calls see of a state. -/
def TxState.summary (s : TxState Nat) : Nat × TxTaskPc × Nat × FifoReg × Bool :=
  (s.queue.qEntries, s.task, s.queue.sem, s.queue.register,
    (List.range 21).all fun k => decide (s.calls k = .returned))

theorem lateWrite_summary :
    (runSteps (txStep fun k => (1, k)) (.init rawQueue) lateWrite).map TxState.summary =
      some (0, .take, 0, .full, true) := by
  decide +kernel

/-- The register is set to full on the emptied queue: a reachable state is wedged. -/
theorem lateWrite_wedges :
    ∃ s, Reach (txStep fun k => (1, k)) Always (.init rawQueue) s ∧ Wedged s := by
  obtain ⟨s, hrun, hsum⟩ := Option.map_eq_some_iff.mp lateWrite_summary
  refine ⟨s, Reach.start.run hrun, ?_⟩
  simp only [TxState.summary, Prod.mk.injEq] at hsum
  obtain ⟨hempty, htask, hsem, hreg, hcalls⟩ := hsum
  refine ⟨hempty, htask, hsem, hreg, fun k => ?_⟩
  rcases Nat.lt_or_ge k 21 with hk | hk
  · exact Or.inr (of_decide_eq_true (List.all_eq_true.mp hcalls k (List.mem_range.mpr hk)))
  · refine Or.inl (calls_of_idle (fun hmem => ?_) hrun)
    simp [lateWrite] at hmem
    omega

/-- The same calls, but the task runs when the register has been set. -/
def timelyWrite : List TxTurn :=
  (List.range 20).flatMap (fun k => List.replicate 5 (.call k)) ++ List.replicate 6 (.call 20) ++
    List.replicate 104 .task

theorem timelyWrite_runs :
    (runSteps (guarded (txStep fun k => (1, k)) SetsInTime) (.init rawQueue) timelyWrite).isSome := by
  decide +kernel

theorem tx_never_wedges_timely :
    ∃ s, runSteps (txStep fun k => (1, k)) (.init rawQueue) timelyWrite = some s ∧ ¬ Wedged s := by
  obtain ⟨s, hrun⟩ := Option.isSome_iff_exists.mp timelyWrite_runs
  exact ⟨s, runSteps_of_guarded hrun, tx_never_wedges (Reach.start.runGuarded hrun)⟩

end SC04Monitor.Can
