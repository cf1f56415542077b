import SC04Monitor.Lib.Run
import SC04Monitor.UserApp.DataStruct
import SC04Monitor.Flash.Storage

/-! # The buffers of queued writes

`sys_par_write` copies the parameters into a heap block, queues the write by pointer
through `flash_storage_write` and frees the block; the thread of
`flash_storage_entry` writes the record and frees the same block. A block is named
by the call that allocated it, so a pointer says which block it meant; what is read
through it after the block has been freed can be anything, since the block may have
been given away again. -/

namespace SC04Monitor.Flash
open SC04Monitor.Lib.Run SC04Monitor.UserApp

/-! ## The heap, the mailbox and the processes -/

/-- `sizeof(fs_mailbox_pool) / 4`. -/
def fsMailboxSize : Nat := 32

/-- `sizeof(MB_Para_STYP)`. -/
def parSize : Nat := 28

/-- The blocks that call `k` allocates: `tmp` in `sys_par_write`, `optr` in
`flash_storage_write`. -/
inductive Block
  | tmp (k : Nat)
  | optr (k : Nat)
  deriving DecidableEq

/-- `flash_storage_operate` of a queued write; `parameter` is the call whose `tmp` it
points at. -/
structure Operate where
  type : RecordType
  size : Nat
  parameter : Nat

/-- The next statement of a call of `sys_par_write`. -/
inductive CallerPc
  | ready  -- not called yet
  | copy  -- `rt_memcpy`
  | alloc  -- `rt_malloc` in `flash_storage_write`
  | fill  -- the members of `optr`
  | send  -- `rt_mb_send`
  | free  -- `rt_free(tmp)`
  | returned
  deriving DecidableEq

/-- The next statement of `flash_storage_entry`; `k` is the operation that
`mail_box_rx` points at. -/
inductive FstPc
  | recv  -- `rt_mb_recv`
  | write (k : Nat)  -- `try_write_record`
  | freeParameter (k : Nat)  -- `rt_free(mail_box_rx->parameter)`
  | freeOptr (k : Nat)  -- `rt_free(mail_box_rx)`
  deriving DecidableEq

/-- The heap cells of the calls with how often each was freed, the mailbox, and the
two kinds of processes. `written` is what `write_record` was handed, operation by
operation, and `staleRead` says whether a block was read after it had been freed. -/
structure WriteState where
  caller : Nat → CallerPc
  fst : FstPc
  mailbox : List Nat
  allocated : Block → Bool
  freed : Block → Nat
  tmpData : Nat → List UInt8
  optrData : Nat → Operate
  written : List (Nat × List UInt8)
  staleRead : Bool

namespace WriteState

def init : WriteState :=
  ⟨fun _ => .ready, .recv, [], fun _ => false, fun _ => 0, fun _ => [], fun _ => ⟨.catalog, 0, 0⟩,
    [], false⟩

/-- `rt_malloc`. -/
def malloc (s : WriteState) (b : Block) : WriteState :=
  { s with allocated := Function.update s.allocated b true }

/-- `rt_free`. -/
def free (s : WriteState) (b : Block) : WriteState :=
  { s with freed := Function.update s.freed b (s.freed b + 1) }

/-- A block is read. -/
def touch (s : WriteState) (b : Block) : WriteState :=
  { s with staleRead := s.staleRead || decide (0 < s.freed b) }

/-- What a read of a buffer finds. -/
def readTmp (s : WriteState) (junk : List UInt8) (k : Nat) : List UInt8 :=
  if s.freed (.tmp k) = 0 then s.tmpData k else junk

/-- `rt_mb_send`: a full mailbox refuses, and nobody looks at the result. -/
def mbSend (s : WriteState) (k : Nat) : WriteState :=
  if s.mailbox.length = fsMailboxSize then s else { s with mailbox := s.mailbox ++ [k] }

/-- One statement of call `k`, for the parameters `par`. -/
def callerStep (par : MBPara) (k : Nat) (s : WriteState) : WriteState :=
  match s.caller k with
  | .ready => { s.malloc (.tmp k) with caller := Function.update s.caller k .copy }
  | .copy =>
    { s with
      tmpData := Function.update s.tmpData k par.toList
      caller := Function.update s.caller k .alloc }
  | .alloc => { s.malloc (.optr k) with caller := Function.update s.caller k .fill }
  | .fill =>
    { s with
      optrData := Function.update s.optrData k ⟨.par, parSize, k⟩
      caller := Function.update s.caller k .send }
  | .send => { s.mbSend k with caller := Function.update s.caller k .free }
  | .free => { s.free (.tmp k) with caller := Function.update s.caller k .returned }
  | .returned => s

/-- One statement of `flash_storage_entry`. -/
def fstStep (junk : List UInt8) (s : WriteState) : WriteState :=
  match s.fst with
  | .recv =>
    match s.mailbox with
    | [] => s  -- the thread waits
    | k :: rest => { s with mailbox := rest, fst := .write k }
  | .write k =>
    let o := s.optrData k
    { (s.touch (.optr k)).touch (.tmp o.parameter) with
      written := s.written ++ [(k, (s.readTmp junk o.parameter).take o.size)]
      fst := .freeParameter k }
  | .freeParameter k =>
    { (s.touch (.optr k)).free (.tmp (s.optrData k).parameter) with fst := .freeOptr k }
  | .freeOptr k => { s.free (.optr k) with fst := .recv }

end WriteState

/-- Who runs next; `junk` is what the memory of a freed block holds then. -/
inductive Turn
  | caller (k : Nat)
  | fst (junk : List UInt8)

section
variable (pars : Nat → MBPara) (turns : Nat → Turn)

def writeStep (s : WriteState) : Turn → WriteState
  | .caller k => s.callerStep (pars k) k
  | .fst junk => s.fstStep junk

/-- The state before turn `n`; call `k` is `sys_par_write(&pars k)`. -/
def writesAt (n : Nat) : WriteState := stateAt (writeStep pars) .init turns n

end

/-! ## Ownership -/

namespace WriteState

/-- Every call that was made has returned, and the thread waits for mail. -/
structure Complete (s : WriteState) : Prop where
  callers : ∀ k, s.caller k = .ready ∨ s.caller k = .returned
  mailbox : s.mailbox = []
  fst : s.fst = .recv

/-- Every allocated block was freed once, none was read after that, and every record
that was written has the parameters of its call. -/
structure Owned (pars : Nat → MBPara) (s : WriteState) : Prop where
  once : ∀ b, s.allocated b = true → s.freed b = 1
  fresh : s.staleRead = false
  data : ∀ w ∈ s.written, w.2 = (pars w.1).toList

end WriteState

/-! ## The account of one call

What the two processes do to the blocks of one call is a small machine of its own;
every turn moves it by one statement or leaves it alone. -/

/-- Where the thread is with an operation. -/
inductive Stage
  | away | write | freeParameter | freeOptr
  deriving DecidableEq

def FstPc.stage : FstPc → Nat → Stage
  | recv, _ => .away
  | write k', k => if k' = k then .write else .away
  | freeParameter k', k => if k' = k then .freeParameter else .away
  | freeOptr k', k => if k' = k then .freeOptr else .away

structure Account where
  pc : CallerPc
  stage : Stage
  queued : Nat
  tmpAlloc : Bool
  optrAlloc : Bool
  tmpFreed : Nat
  optrFreed : Nat
  parameter : Nat

/-- The account of call `k`. -/
def WriteState.account (s : WriteState) (k : Nat) : Account where
  pc := s.caller k
  stage := s.fst.stage k
  queued := s.mailbox.count k
  tmpAlloc := s.allocated (.tmp k)
  optrAlloc := s.allocated (.optr k)
  tmpFreed := s.freed (.tmp k)
  optrFreed := s.freed (.optr k)
  parameter := (s.optrData k).parameter

namespace Account

/-- One statement of the caller; `sent` says whether the mailbox takes the mail. -/
def advance (k : Nat) (sent : Bool) (a : Account) : Account :=
  match a.pc with
  | .ready => { a with tmpAlloc := true, pc := .copy }
  | .copy => { a with pc := .alloc }
  | .alloc => { a with optrAlloc := true, pc := .fill }
  | .fill => { a with parameter := k, pc := .send }
  | .send => { a with queued := a.queued + sent.toNat, pc := .free }
  | .free => { a with tmpFreed := a.tmpFreed + 1, pc := .returned }
  | .returned => a

/-- A turn, seen from call `k`. -/
inductive Move (k : Nat) : Account → Account → Prop
  | stay (a : Account) : Move k a a
  | advance (sent : Bool) (a : Account) : Move k a (a.advance k sent)
  | receive (a : Account) : 0 < a.queued → a.stage = .away →
      Move k a { a with queued := a.queued - 1, stage := .write }
  | write (a : Account) : a.stage = .write → Move k a { a with stage := .freeParameter }
  | freeParameter (a : Account) : a.stage = .freeParameter →
      Move k a { a with tmpFreed := a.tmpFreed + 1, stage := .freeOptr }
  | freeOptr (a : Account) : a.stage = .freeOptr →
      Move k a { a with optrFreed := a.optrFreed + 1, stage := .away }

end Account

namespace CallerPc

/-- How often the caller has freed its buffer. -/
def freed : CallerPc → Nat
  | returned => 1
  | ready | copy | alloc | fill | send | free => 0

/-- How many operations it has tried to send. -/
def sent : CallerPc → Nat
  | free | returned => 1
  | ready | copy | alloc | fill | send => 0

def filled : CallerPc → Bool
  | send | free | returned => true
  | ready | copy | alloc | fill => false

def hasOptr : CallerPc → Bool
  | fill | send | free | returned => true
  | ready | copy | alloc => false

def hasTmp : CallerPc → Bool
  | copy | alloc | fill | send | free | returned => true
  | ready => false

end CallerPc

/-- One while the thread has an operation in hand. -/
def Stage.weight : Stage → Nat
  | away => 0
  | write | freeParameter | freeOptr => 1

/-- One while the thread has freed a buffer and not yet its operation. -/
def Stage.ahead : Stage → Nat
  | freeOptr => 1
  | away | write | freeParameter => 0

/-- What every account keeps: a buffer is freed by its caller and once more for its
operation, and an operation that was sent is in one place. -/
structure Ledger (k : Nat) (a : Account) : Prop where
  tmp : a.tmpFreed = a.pc.freed + a.optrFreed + a.stage.ahead
  optr : a.optrFreed + a.queued + a.stage.weight ≤ a.pc.sent
  param : a.pc.filled = true → a.parameter = k
  tmpAlloc : a.pc.hasTmp = true → a.tmpAlloc = true
  optrAlloc : a.pc.hasOptr = true → a.optrAlloc = true

theorem Ledger.advance {k : Nat} {a : Account} (h : Ledger k a) (sent : Bool) :
    Ledger k (a.advance k sent) := by
  obtain ⟨pc, stage, queued, tmpAlloc, optrAlloc, tmpFreed, optrFreed, parameter⟩ := a
  obtain ⟨htmp, hoptr, hparam, hta, hoa⟩ := h
  have hno : ∀ {p : Prop}, false = true → p := fun h => absurd h Bool.false_ne_true
  cases pc with
  | ready => exact ⟨htmp, hoptr, hno, fun _ => rfl, hno⟩
  | copy => exact ⟨htmp, hoptr, hno, fun _ => hta rfl, hno⟩
  | alloc => exact ⟨htmp, hoptr, hno, fun _ => hta rfl, fun _ => rfl⟩
  | fill => exact ⟨htmp, hoptr, fun _ => rfl, fun _ => hta rfl, fun _ => hoa rfl⟩
  | send =>
    refine ⟨htmp, ?_, fun _ => hparam rfl, fun _ => hta rfl, fun _ => hoa rfl⟩
    have hsent := Bool.toNat_le sent
    simp only [CallerPc.sent, Account.advance] at hoptr ⊢
    omega
  | free =>
    refine ⟨?_, hoptr, fun _ => hparam rfl, fun _ => hta rfl, fun _ => hoa rfl⟩
    simp only [CallerPc.freed, Account.advance] at htmp ⊢
    omega
  | returned => exact ⟨htmp, hoptr, hparam, hta, hoa⟩

/-- The ledger is kept by every move. -/
theorem Ledger.move {k : Nat} {a a' : Account} (h : Ledger k a) (hm : Account.Move k a a') :
    Ledger k a' := by
  obtain ⟨htmp, hoptr, hparam, hta, hoa⟩ := h
  cases hm with
  | stay => exact ⟨htmp, hoptr, hparam, hta, hoa⟩
  | advance sent => exact Ledger.advance ⟨htmp, hoptr, hparam, hta, hoa⟩ sent
  | receive _ hq hs =>
    rw [hs] at htmp hoptr
    refine ⟨htmp, ?_, hparam, hta, hoa⟩
    simp only [Stage.weight] at hoptr ⊢
    omega
  | write _ hs =>
    rw [hs] at htmp hoptr
    exact ⟨htmp, hoptr, hparam, hta, hoa⟩
  | freeParameter _ hs =>
    rw [hs] at htmp hoptr
    refine ⟨?_, hoptr, hparam, hta, hoa⟩
    simp only [Stage.ahead] at htmp ⊢
    omega
  | freeOptr _ hs =>
    rw [hs] at htmp hoptr
    refine ⟨?_, ?_, hparam, hta, hoa⟩
    · simp only [Stage.ahead] at htmp ⊢
      omega
    · simp only [Stage.weight] at hoptr ⊢
      omega

/-- An operation in the mailbox or in hand was sent, so it points at its own buffer. -/
theorem Ledger.parameter_eq {k : Nat} {a : Account} (h : Ledger k a)
    (hs : 0 < a.queued + a.stage.weight) : a.parameter = k := by
  have hle := h.optr
  refine h.param ?_
  cases hpc : a.pc with
  | send | free | returned => rfl
  | ready | copy | alloc | fill =>
    rw [hpc, CallerPc.sent] at hle
    omega

/-! ## Every turn moves every account -/

section
variable {s : WriteState} {par : MBPara} {junk : List UInt8} {j k : Nat}

theorem account_callerStep_of_ne (h : k ≠ j) :
    (s.callerStep par j).account k = s.account k := by
  unfold WriteState.callerStep
  cases s.caller j with
  | ready => simp [WriteState.account, WriteState.malloc, h]
  | copy => simp [WriteState.account, h]
  | alloc => simp [WriteState.account, WriteState.malloc, h]
  | fill => simp [WriteState.account, h]
  | send =>
    unfold WriteState.mbSend
    split_ifs
    · simp [WriteState.account, h]
    · simp [WriteState.account, h, h.symm]
  | free => simp [WriteState.account, WriteState.free, h]
  | returned => rfl

theorem account_callerStep_self :
    (s.callerStep par k).account k =
      (s.account k).advance k (decide (s.mailbox.length ≠ fsMailboxSize)) := by
  unfold WriteState.callerStep Account.advance
  cases hpc : s.caller k with
  | ready => simp [WriteState.account, WriteState.malloc, hpc]
  | copy => simp [WriteState.account, hpc]
  | alloc => simp [WriteState.account, WriteState.malloc, hpc]
  | fill => simp [WriteState.account, hpc]
  | send =>
    unfold WriteState.mbSend
    split_ifs with hfull
    · simp [WriteState.account, hpc, hfull]
    · simp [WriteState.account, hpc, hfull]
  | free => simp [WriteState.account, WriteState.free, hpc]
  | returned => simp [WriteState.account, hpc]

theorem account_fstStep (h : ∀ k, Ledger k (s.account k)) :
    Account.Move k (s.account k) ((s.fstStep junk).account k) := by
  unfold WriteState.fstStep
  cases hfst : s.fst with
  | recv =>
    have haway : (s.account k).stage = .away := by simp [WriteState.account, hfst, FstPc.stage]
    cases hmail : s.mailbox with
    | nil => exact .stay _
    | cons m rest =>
      rcases eq_or_ne m k with rfl | hne
      · have hmove := Account.Move.receive (k := m) (s.account m)
          (by simp [WriteState.account, hmail]) haway
        simpa [WriteState.account, hmail, FstPc.stage] using hmove
      · have hstay := Account.Move.stay (k := k) (s.account k)
        simpa [WriteState.account, hfst, hmail, FstPc.stage, hne] using hstay
  | write m =>
    rcases eq_or_ne m k with rfl | hne
    · have hmove := Account.Move.write (k := m) (s.account m)
        (by simp [WriteState.account, hfst, FstPc.stage])
      simpa [WriteState.account, WriteState.touch, FstPc.stage] using hmove
    · have hstay := Account.Move.stay (k := k) (s.account k)
      simpa [WriteState.account, WriteState.touch, hfst, FstPc.stage, hne] using hstay
  | freeParameter m =>
    have hparam : (s.optrData m).parameter = m :=
      (h m).parameter_eq (by simp [WriteState.account, hfst, FstPc.stage, Stage.weight])
    rcases eq_or_ne m k with rfl | hne
    · have hmove := Account.Move.freeParameter (k := m) (s.account m)
        (by simp [WriteState.account, hfst, FstPc.stage])
      simpa [WriteState.account, WriteState.touch, WriteState.free, hparam, FstPc.stage] using hmove
    · have hstay := Account.Move.stay (k := k) (s.account k)
      simpa [WriteState.account, WriteState.touch, WriteState.free, hparam, hfst, FstPc.stage, hne,
        hne.symm] using hstay
  | freeOptr m =>
    rcases eq_or_ne m k with rfl | hne
    · have hmove := Account.Move.freeOptr (k := m) (s.account m)
        (by simp [WriteState.account, hfst, FstPc.stage])
      simpa [WriteState.account, WriteState.free, FstPc.stage] using hmove
    · have hstay := Account.Move.stay (k := k) (s.account k)
      simpa [WriteState.account, WriteState.free, hfst, FstPc.stage, hne, hne.symm] using hstay

end

/-! ## Runs -/

section
variable {pars : Nat → MBPara} {turns : Nat → Turn}

theorem account_writeStep {s : WriteState} (h : ∀ k, Ledger k (s.account k)) (t : Turn) (k : Nat) :
    Account.Move k (s.account k) ((writeStep pars s t).account k) := by
  cases t with
  | fst junk => exact account_fstStep h
  | caller j =>
    show Account.Move k (s.account k) ((s.callerStep (pars j) j).account k)
    rcases eq_or_ne k j with rfl | hne
    · rw [account_callerStep_self]
      exact .advance _ _
    · rw [account_callerStep_of_ne hne]
      exact .stay _

theorem ledger_init (k : Nat) : Ledger k (WriteState.init.account k) :=
  ⟨rfl, Nat.le_refl 0, fun h => absurd h Bool.false_ne_true,
    fun h => absurd h Bool.false_ne_true, fun h => absurd h Bool.false_ne_true⟩

/-- The ledger of every call holds in every run. -/
theorem ledger_at (n k : Nat) : Ledger k ((writesAt pars turns n).account k) := by
  have hstep : ∀ (s : WriteState) (t : Turn), (∀ k, Ledger k (s.account k)) →
      ∀ k, Ledger k ((writeStep pars s t).account k) :=
    fun s t h k => (h k).move (account_writeStep h t k)
  exact stateAt_inv (P := fun s : WriteState => ∀ k, Ledger k (s.account k)) ledger_init hstep n k

/-- When everything is done, a call has freed its buffer once by itself and once more
if its operation was handled; if the mailbox refused it, the operation was never
freed. -/
theorem returned_call {n k : Nat} (hc : (writesAt pars turns n).Complete)
    (hk : (writesAt pars turns n).caller k = .returned) :
    (writesAt pars turns n).allocated (.tmp k) = true ∧
    (writesAt pars turns n).allocated (.optr k) = true ∧
    ((writesAt pars turns n).freed (.tmp k) = 2 ∧ (writesAt pars turns n).freed (.optr k) = 1 ∨
      (writesAt pars turns n).freed (.tmp k) = 1 ∧ (writesAt pars turns n).freed (.optr k) = 0) := by
  have hledger : Ledger k ((writesAt pars turns n).account k) := ledger_at n k
  obtain ⟨htmp, hoptr, -, hta, hoa⟩ := hledger
  simp only [WriteState.account, hk, hc.fst, hc.mailbox] at htmp hoptr hta hoa
  refine ⟨hta rfl, hoa rfl, ?_⟩
  simp only [CallerPc.freed, CallerPc.sent, FstPc.stage, Stage.ahead, Stage.weight,
    List.count_nil] at htmp hoptr
  omega

/-- The record of an operation is read from a freed buffer exactly if its caller has
returned by then. -/
theorem stale_write_iff {n k : Nat} (hw : (writesAt pars turns n).fst = .write k) :
    0 < (writesAt pars turns n).freed (.tmp k) ↔ (writesAt pars turns n).caller k = .returned := by
  have hledger : Ledger k ((writesAt pars turns n).account k) := ledger_at n k
  obtain ⟨htmp, hoptr, -⟩ := hledger
  simp only [WriteState.account, hw, FstPc.stage, ↓reduceIte, Stage.ahead, Stage.weight]
    at htmp hoptr
  cases hpc : (writesAt pars turns n).caller k <;>
    simp_all [CallerPc.freed, CallerPc.sent]

/-! ## What a record is written from -/

/-- The call has copied its parameters. -/
def CallerPc.copied : CallerPc → Bool
  | alloc | fill | send | free | returned => true
  | ready | copy => false

/-- What a call has written into its blocks by the statement it has come to. -/
structure Prepared (pars : Nat → MBPara) (s : WriteState) (k : Nat) : Prop where
  tmp : (s.caller k).copied = true → s.tmpData k = (pars k).toList
  optr : (s.caller k).filled = true → s.optrData k = ⟨.par, parSize, k⟩

/-- What a turn leaves alone stays prepared. -/
theorem Prepared.kept {s s' : WriteState} {k : Nat} (h : Prepared pars s k)
    (hc : s'.caller k = s.caller k) (ht : s'.tmpData k = s.tmpData k)
    (ho : s'.optrData k = s.optrData k) : Prepared pars s' k := by
  refine ⟨?_, ?_⟩
  · rw [hc, ht]
    exact h.tmp
  · rw [hc, ho]
    exact h.optr

theorem prepared_callerStep_self {s : WriteState} {k : Nat} (h : Prepared pars s k) :
    Prepared pars (s.callerStep (pars k) k) k := by
  obtain ⟨htmp, hoptr⟩ := h
  unfold WriteState.callerStep
  cases hpc : s.caller k with
  | ready => exact ⟨by simp [CallerPc.copied], by simp [CallerPc.filled]⟩
  | copy => exact ⟨by simp, by simp [CallerPc.filled]⟩
  | alloc =>
    have htmp' := htmp (by rw [hpc, CallerPc.copied])
    exact ⟨fun _ => htmp', by simp [CallerPc.filled]⟩
  | fill =>
    have htmp' := htmp (by rw [hpc, CallerPc.copied])
    exact ⟨fun _ => htmp', by simp⟩
  | send =>
    have htmp' := htmp (by rw [hpc, CallerPc.copied])
    have hoptr' := hoptr (by rw [hpc, CallerPc.filled])
    unfold WriteState.mbSend
    split_ifs
    · exact ⟨fun _ => htmp', fun _ => hoptr'⟩
    · exact ⟨fun _ => htmp', fun _ => hoptr'⟩
  | free =>
    have htmp' := htmp (by rw [hpc, CallerPc.copied])
    have hoptr' := hoptr (by rw [hpc, CallerPc.filled])
    exact ⟨fun _ => htmp', fun _ => hoptr'⟩
  | returned => exact ⟨htmp, hoptr⟩

theorem prepared_callerStep_of_ne {s : WriteState} {j k : Nat} (h : Prepared pars s k)
    (hne : k ≠ j) : Prepared pars (s.callerStep (pars j) j) k := by
  unfold WriteState.callerStep
  cases s.caller j with
  | ready => exact h.kept (Function.update_of_ne hne _ _) rfl rfl
  | copy => exact h.kept (Function.update_of_ne hne _ _) (Function.update_of_ne hne _ _) rfl
  | alloc => exact h.kept (Function.update_of_ne hne _ _) rfl rfl
  | fill => exact h.kept (Function.update_of_ne hne _ _) rfl (Function.update_of_ne hne _ _)
  | send =>
    unfold WriteState.mbSend
    split_ifs
    · exact h.kept (Function.update_of_ne hne _ _) rfl rfl
    · exact h.kept (Function.update_of_ne hne _ _) rfl rfl
  | free => exact h.kept (Function.update_of_ne hne _ _) rfl rfl
  | returned => exact h

theorem prepared_fstStep {s : WriteState} {k : Nat} (h : Prepared pars s k) (junk : List UInt8) :
    Prepared pars (s.fstStep junk) k := by
  unfold WriteState.fstStep
  cases s.fst with
  | recv => cases s.mailbox <;> exact h.kept rfl rfl rfl
  | write | freeParameter | freeOptr => exact h.kept rfl rfl rfl

theorem prepared_at (n k : Nat) : Prepared pars (writesAt pars turns n) k := by
  have hinit : Prepared pars .init k :=
    ⟨fun h => absurd h Bool.false_ne_true, fun h => absurd h Bool.false_ne_true⟩
  refine stateAt_inv (P := fun s => Prepared pars s k) hinit (fun s t h => ?_) n
  cases t with
  | caller j =>
    rcases eq_or_ne k j with rfl | hne
    · exact prepared_callerStep_self h
    · exact prepared_callerStep_of_ne h hne
  | fst junk => exact prepared_fstStep h junk

/-- While its caller is at work, a record is written from what the caller was passed. -/
theorem written_of_not_returned {n k : Nat} (hw : (writesAt pars turns n).fst = .write k)
    (hc : (writesAt pars turns n).caller k ≠ .returned) (junk : List UInt8) :
    ((writesAt pars turns n).fstStep junk).written =
      (writesAt pars turns n).written ++ [(k, (pars k).toList)] := by
  have hledger : Ledger k ((writesAt pars turns n).account k) := ledger_at n k
  have hsent := hledger.optr
  simp only [WriteState.account, hw, FstPc.stage, ↓reduceIte, Stage.weight] at hsent
  have hpc : (writesAt pars turns n).caller k = .free := by
    cases hpc : (writesAt pars turns n).caller k with
    | free => rfl
    | returned => exact absurd hpc hc
    | ready | copy | alloc | fill | send =>
      rw [hpc, CallerPc.sent] at hsent
      omega
  have hfreed : (writesAt pars turns n).freed (.tmp k) = 0 :=
    Nat.eq_zero_of_not_pos fun h => hc ((stale_write_iff hw).mp h)
  have hprepared : Prepared pars (writesAt pars turns n) k := prepared_at n k
  obtain ⟨htmp, hoptr⟩ := hprepared
  rw [hpc] at htmp hoptr
  have hlen : (pars k).toList.length = parSize := (pars k).length_toList
  unfold WriteState.fstStep
  rw [hw]
  dsimp only
  rw [hoptr rfl, WriteState.readTmp, if_pos hfreed, htmp rfl, ← hlen, List.take_length]

/-! ## Runs without a call -/

/-- Nothing has happened yet. -/
structure WriteState.Idle (s : WriteState) : Prop where
  mailbox : s.mailbox = []
  fst : s.fst = .recv
  allocated : ∀ b, s.allocated b = false
  staleRead : s.staleRead = false
  written : s.written = []

theorem fstStep_of_idle {s : WriteState} (h : s.Idle) (junk : List UInt8) : s.fstStep junk = s := by
  unfold WriteState.fstStep
  rw [h.fst]
  dsimp only
  rw [h.mailbox]

theorem fstStep_caller (s : WriteState) (junk : List UInt8) : (s.fstStep junk).caller = s.caller := by
  unfold WriteState.fstStep
  cases s.fst with
  | recv => cases s.mailbox <;> rfl
  | write | freeParameter | freeOptr => rfl

theorem callerStep_not_ready (s : WriteState) (par : MBPara) (k : Nat) :
    (s.callerStep par k).caller k ≠ .ready := by
  have hself : ((s.callerStep par k).account k).pc ≠ .ready := by
    rw [account_callerStep_self, Account.advance]
    cases hpc : (s.account k).pc with
    | ready | copy | alloc | fill | send | free => exact CallerPc.noConfusion
    | returned => exact fun h => CallerPc.noConfusion (hpc.symm.trans h)
  exact hself

/-- A call that was made stays made. -/
theorem writeStep_not_ready {s : WriteState} {k : Nat} (h : s.caller k ≠ .ready) (t : Turn) :
    (writeStep pars s t).caller k ≠ .ready := by
  cases t with
  | fst junk =>
    rw [writeStep, fstStep_caller]
    exact h
  | caller j =>
    rcases eq_or_ne k j with rfl | hne
    · exact callerStep_not_ready s (pars k) k
    · have hpc : (s.callerStep (pars j) j).caller k = s.caller k :=
        congrArg Account.pc (account_callerStep_of_ne hne)
      exact fun hready => h (hpc.symm.trans hready)

/-- A call has run in the first `n` turns. -/
def Called (turns : Nat → Turn) (n : Nat) : Prop := ∃ m < n, ∃ k, turns m = .caller k

theorem called_not_ready {m n k : Nat} (hm : m < n) (h : turns m = .caller k) :
    (writesAt pars turns n).caller k ≠ .ready := by
  induction n with
  | zero => exact absurd hm (Nat.not_lt_zero m)
  | succ n ih =>
    show (writeStep pars (writesAt pars turns n) (turns n)).caller k ≠ .ready
    rcases Nat.lt_succ_iff_lt_or_eq.mp hm with hlt | rfl
    · exact writeStep_not_ready (ih hlt) (turns n)
    · rw [h]
      exact callerStep_not_ready _ (pars k) k

/-- As long as nobody calls `sys_par_write` nothing happens. -/
theorem idle_of_not_called {n : Nat} (h : ¬ Called turns n) : (writesAt pars turns n).Idle := by
  induction n with
  | zero => exact ⟨rfl, rfl, fun _ => rfl, rfl, rfl⟩
  | succ n ih =>
    have hidle := ih fun ⟨m, hm, hk⟩ => h ⟨m, Nat.lt_succ_of_lt hm, hk⟩
    show (writeStep pars (writesAt pars turns n) (turns n)).Idle
    cases ht : turns n with
    | caller k => exact absurd ⟨n, Nat.lt_succ_self n, k, ht⟩ h
    | fst junk =>
      rw [writeStep, fstStep_of_idle hidle junk]
      exact hidle

/-! ## Nobody owns the buffer -/

/-- When every call has returned and the thread has emptied the mailbox, the blocks are
accounted for only if there was no call at all. -/
theorem write_buffer_iff {n : Nat} (h : (writesAt pars turns n).Complete) :
    (writesAt pars turns n).Owned pars ↔ ¬ Called turns n := by
  constructor
  · rintro howned ⟨m, hm, k, hk⟩
    have hreturned : (writesAt pars turns n).caller k = .returned :=
      (h.callers k).resolve_left (called_not_ready hm hk)
    obtain ⟨htmp, hoptr, ⟨hfreed, -⟩ | ⟨-, hfreed⟩⟩ := returned_call h hreturned
    · have honce := howned.once _ htmp
      omega
    · have honce := howned.once _ hoptr
      omega
  · intro hno
    have hidle : (writesAt pars turns n).Idle := idle_of_not_called hno
    refine ⟨fun b hb => ?_, hidle.staleRead, fun w hw => ?_⟩
    · rw [hidle.allocated b] at hb
      exact absurd hb Bool.false_ne_true
    · rw [hidle.written] at hw
      exact absurd hw List.not_mem_nil

end

/-- One call runs to its end before the thread looks into the mailbox. -/
def callFirst (n : Nat) : Turn := if n < 6 then .caller 0 else .fst []

theorem callFirst_complete (pars : Nat → MBPara) : (writesAt pars callFirst 10).Complete := by
  refine ⟨fun k => ?_, rfl, rfl⟩
  cases k with
  | zero => exact Or.inr rfl
  | succ k => exact Or.inl rfl

theorem write_buffer_iff_call :
    ¬ (writesAt (fun _ => Vector.replicate 28 1) callFirst 10).Owned
      (fun _ => Vector.replicate 28 1) := by
  rw [write_buffer_iff (callFirst_complete _), not_not]
  exact ⟨0, by decide, 0, rfl⟩

theorem write_buffer_unowned :
    ∃ pars turns n, (writesAt pars turns n).Complete ∧ ¬ (writesAt pars turns n).Owned pars ∧
      (writesAt pars turns n).freed (.tmp 0) = 2 ∧ (writesAt pars turns n).staleRead = true ∧
      (writesAt pars turns n).written = [(0, [])] := by
  refine ⟨fun _ => Vector.replicate 28 1, callFirst, 10, callFirst_complete _, fun h => ?_, rfl, rfl,
    rfl⟩
  exact absurd h.fresh Bool.true_eq_false.mp

end SC04Monitor.Flash
