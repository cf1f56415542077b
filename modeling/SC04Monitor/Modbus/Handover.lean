import SC04Monitor.Modbus.RegMap
import SC04Monitor.Lib.Steps

/-! # The hand-over of commands

The serial task and the logic task share `HMI`: `RegAddressGet` raises the flag of a
command and then copies it, `HmiInputUpdate` looks for a flag, acts on the command and
lowers the flag. Here the two run interleaved, statement by statement. The flag goes up
before the value is there, and there is one place for each command: a run hands over
every value once exactly as far as no step meets a value that is not the one written. -/

namespace SC04Monitor.Modbus
open SC04Monitor.Lib.ByteMem SC04Monitor.Lib.WordMem SC04Monitor.Lib.Steps SC04Monitor.UserApp
open SC04Monitor.Can

/-- The next statement of the Modbus side. -/
inductive MbPc
  | idle
  | raise (a : HmiAddr)  -- the registers are written
  | copy (a : HmiAddr)  -- the flag is raised
  deriving DecidableEq

/-- The next statement of `HmiInputUpdate`; `rest` are the flags not yet looked at. -/
inductive LogicPc
  | scan (rest : List HmiAddr)
  | read (a : HmiAddr)
  | act (a : HmiAddr) (v : List UInt16)
  | clear (a : HmiAddr)
  deriving DecidableEq

/-- The registers with `HMI`, the logic task, where the two sides are, and the values
written to each command and acted on for it. -/
structure Handover where
  app : MbApp
  logic : Logic
  mb : MbPc
  pc : LogicPc
  written : HmiAddr → List (List UInt16)
  acted : HmiAddr → List (List UInt16)

/-- A step of one of the two sides. -/
inductive HandTurn
  | write (a : HmiAddr) (buf : Nat → UInt8)
  | modbus
  | logic

/-- `HMI.HMI_WAddr_flag[a] = false`. -/
def HmiType.lower (h : HmiType) (a : HmiAddr) : HmiType :=
  { h with wAddrFlag := Function.update h.wAddrFlag a false }

/-- What `HmiInputUpdate` does with the words of a command. -/
def actOn (s : Logic) (v : List UInt16) : HmiAddr → Logic
  | .chargeEn => s.setInputOf (v.getD 0 0) (Logic.setChargeEnable (v.getD 1 0))
  | .chargeCmd =>
    { s with lga := { s.lga with sysModeSet := sysModeCharge } }.setInputOf (v.getD 0 0)
      fun i => { i with chargeModeSet := v.getD 1 0 }
  | .devTest =>
    { s with lga := { s.lga with sysModeSet := sysModeDeviceTest, devTestCmd := v.getD 0 0 } }
  | .sleep => { s with lga := { s.lga with sysModeSet := sysModeSleep, sleepCmd := v.getD 0 0 } }
  | .restart => { s with can := sendCan stdMsgTable s.can reboot }
  | .wMbPara => { s with lga := { s.lga with mbWrPara := s.hmi.mbWrPara } }
  | .restore | .wMbRtc | .wCbPara _ => s

/-- The flags that `HmiInputUpdate` lowers. -/
def clears : HmiAddr → Bool
  | .wMbPara | .wCbPara _ => false
  | .chargeEn | .chargeCmd | .devTest | .sleep | .restart | .restore | .wMbRtc => true

/-- The end of `HmiInputUpdate` for a command: `HMI.HMI_WAddr_flag[a] = false`. -/
def MbApp.lowered (app : MbApp) (a : HmiAddr) : MbApp :=
  if clears a then { app with hmi := app.hmi.lower a } else app

namespace Handover

/-- What the logic task sees. -/
def view (s : Handover) : Logic := { s.logic with hmi := s.app.hmi.toHmi }

/-- The registers of a command are written. -/
def write (a : HmiAddr) (buf : Nat → UInt8) (s : Handover) : Option Handover :=
  match s.mb with
  | .idle =>
    some { s with
      app := { s.app with reg := writtenReg s.app buf a }
      mb := .raise a
      written := Function.update s.written a (s.written a ++ [frameWords buf 0 (fieldSize a)]) }
  | .raise _ | .copy _ => none

/-- The two statements of `RegAddressGet`. -/
def mbStep (s : Handover) : Option Handover :=
  match s.mb with
  | .idle => none
  | .raise a =>
    some { s with
      app := { s.app with hmiRegAddress := hmiAddr a, hmi := s.app.hmi.raise a }
      mb := .copy a }
  | .copy a => some { s with app := { s.app with hmi := s.app.hmi.copy s.app.reg a }, mb := .idle }

/-- A statement of `HmiInputUpdate`; at its end it is called again. -/
def logicStep (s : Handover) : Option Handover :=
  match s.pc with
  | .scan [] => some { s with pc := .scan HmiAddr.all }
  | .scan (a :: rest) =>
    some { s with pc := if s.app.hmi.wAddrFlag a then .read a else .scan rest }
  | .read a => some { s with pc := .act a (s.app.hmi.field a) }
  | .act a v =>
    some { s with
      logic := actOn s.view v a
      pc := .clear a
      acted := Function.update s.acted a (s.acted a ++ [v]) }
  | .clear a =>
    some { s with app := s.app.lowered a, pc := .scan HmiAddr.all }

def step (s : Handover) : HandTurn → Option Handover
  | .write a buf => s.write a buf
  | .modbus => s.mbStep
  | .logic => s.logicStep

/-- Nothing is written yet and no flag is up. -/
def start (app : MbApp) (logic : Logic) : Handover :=
  ⟨{ app with hmi := { app.hmi with wAddrFlag := fun _ => false } }, logic, .idle,
    .scan HmiAddr.all, fun _ => [], fun _ => []⟩

end Handover

/-! ## What the steps amount to

Undisturbed, the Modbus side is `eMBRegHoldingCB` and the logic side `HmiInputUpdate`. -/

namespace Handover

theorem write_undisturbed {s : Handover} (h : s.mb = .idle) (a : HmiAddr) (buf : Nat → UInt8) :
    runSteps step s [.write a buf, .modbus, .modbus] =
      some { s with
        app := (writeCommand s.app buf a).2.2
        written := Function.update s.written a
          (s.written a ++ [frameWords buf 0 (fieldSize a)]) } := by
  have haddr : hmiAddr a + 1 - 1 = hmiAddr a := UInt16.add_sub_cancel _ _
  rw [writeCommand_eq]
  unfold regAddressGet
  simp only [haddr, find_hmiAddr]
  simp only [runSteps, step, write, h, Option.bind_some, mbStep]

/-- The search for a flag. -/
theorem scan_undisturbed (l : List HmiAddr) {s : Handover} (h : s.pc = .scan l) :
    ∃ n, runSteps step s (List.replicate n .logic) =
      some { s with pc := match l.find? s.app.hmi.wAddrFlag with
        | some a => .read a
        | none => .scan [] } := by
  induction l generalizing s with
  | nil =>
    refine ⟨0, ?_⟩
    rw [List.replicate_zero, runSteps, List.find?_nil, ← h]
  | cons a l ih =>
    by_cases hup : s.app.hmi.wAddrFlag a = true
    · refine ⟨1, ?_⟩
      rw [List.find?_cons_of_pos hup]
      simp only [List.replicate_one, runSteps, step, logicStep, h, hup, ↓reduceIte, Option.bind_some]
    · obtain ⟨n, hn⟩ := @ih { s with pc := .scan l } rfl
      refine ⟨n + 1, ?_⟩
      rw [List.find?_cons_of_neg hup, List.replicate_succ, runSteps]
      simp only [step, logicStep, h, hup, Bool.false_eq_true, ↓reduceIte, Option.bind_some]
      exact hn

/-- What the handled command does to the logic task, flag and all. -/
theorem hmiInputUpdate_eq {s : Handover} {a : HmiAddr} (h : s.view.hmiAddr = some a) :
    s.view.hmiInputUpdate =
      if clears a then (actOn s.view (s.app.hmi.field a) a).lower a
      else actOn s.view (s.app.hmi.field a) a := by
  unfold Logic.hmiInputUpdate
  rw [h]
  cases a <;> rfl

theorem hmiInputUpdate_none {s : Handover} (h : s.view.hmiAddr = none) :
    s.view.hmiInputUpdate = s.view := by
  unfold Logic.hmiInputUpdate
  rw [h]

theorem actOn_hmi (s : Logic) (v : List UInt16) (a : HmiAddr) : (actOn s v a).hmi = s.hmi := by
  have hset : ∀ (t : Logic) c f, (t.setInputOf c f).hmi = t.hmi := by
    intro t c f
    unfold Logic.setInputOf
    split <;> rfl
  cases a with
  | chargeEn => exact hset _ _ _
  | chargeCmd => exact hset _ _ _
  | devTest | sleep | restart | restore | wMbPara | wCbPara _ | wMbRtc => rfl

theorem call_undisturbed {s : Handover} (h : s.pc = .scan HmiAddr.all) :
    ∃ n s', runSteps step s (List.replicate n .logic) = some s' ∧
      s'.pc = .scan HmiAddr.all ∧ s'.view = s.view.hmiInputUpdate ∧ s'.mb = s.mb ∧
      s'.app.reg = s.app.reg := by
  obtain ⟨n, hscan⟩ := scan_undisturbed HmiAddr.all h
  cases hfind : HmiAddr.all.find? s.app.hmi.wAddrFlag with
  | none =>
    have hnone : s.view.hmiAddr = none := hfind
    rw [hfind] at hscan
    refine ⟨n + 1, { s with pc := .scan HmiAddr.all }, ?_, rfl, ?_, rfl, rfl⟩
    · rw [List.replicate_succ', runSteps_append, hscan, Option.bind_some]
      rfl
    · rw [hmiInputUpdate_none hnone]
      rfl
  | some a =>
    have hsome : s.view.hmiAddr = some a := hfind
    rw [hfind] at hscan
    refine ⟨n + 3, { s with
      app := s.app.lowered a
      logic := actOn s.view (s.app.hmi.field a) a
      acted := Function.update s.acted a (s.acted a ++ [s.app.hmi.field a])
      pc := .scan HmiAddr.all }, ?_, rfl, ?_, rfl, ?_⟩
    · rw [List.replicate_add, runSteps_append, hscan, Option.bind_some]
      rfl
    · rw [hmiInputUpdate_eq hsome]
      have hhmi := actOn_hmi s.view (s.app.hmi.field a) a
      generalize actOn s.view (s.app.hmi.field a) a = t at hhmi
      unfold MbApp.lowered
      cases clears a with
      | true =>
        simp only [view, Logic.lower, ↓reduceIte]
        rw [hhmi]
        rfl
      | false =>
        simp only [view, Bool.false_eq_true, ↓reduceIte]
        rw [show s.app.hmi.toHmi = t.hmi from hhmi.symm]
    · show (s.app.lowered a).reg = s.app.reg
      unfold MbApp.lowered
      split_ifs <;> rfl

end Handover

/-! ## The condition -/

/-- The commands that are handed over: charge enable, charge, device test and sleep. -/
def isCommand : HmiAddr → Bool
  | .chargeEn | .chargeCmd | .devTest | .sleep => true
  | .restart | .restore | .wMbPara | .wCbPara _ | .wMbRtc => false

/-- The words that `RegAddressGet` copies for a command. -/
def MbApp.words (app : MbApp) (a : HmiAddr) : List UInt16 :=
  readWords app.reg (2 * fieldOffset a) (fieldSize a)

/-- The flag of a command is raised when it is down. -/
def RaiseOk (app : MbApp) : MbPc → Prop
  | .raise a => isCommand a = true → app.hmi.wAddrFlag a = false
  | .idle | .copy _ => True

/-- A command is read when it has been copied, or when the copy changes nothing. -/
def ReadOk (app : MbApp) (mb : MbPc) : LogicPc → Prop
  | .read a => isCommand a = true → mb = .copy a → app.hmi.field a = app.words a
  | .scan _ | .act _ _ | .clear _ => True

/-- The condition on a step: these two, and a command is written where it is copied
from, or what is there is the same. -/
def HandOk (s : Handover) : HandTurn → Prop
  | .write a buf => isCommand a = true → Aligned a ∨ s.app.words a = frameWords buf 0 (fieldSize a)
  | .modbus => RaiseOk s.app s.mb
  | .logic => ReadOk s.app s.mb s.pc

instance (app : MbApp) : DecidablePred (RaiseOk app)
  | .raise _ => inferInstanceAs (Decidable (_ → _))
  | .idle | .copy _ => inferInstanceAs (Decidable True)

instance (app : MbApp) (mb : MbPc) : DecidablePred (ReadOk app mb)
  | .read _ => inferInstanceAs (Decidable (_ → _ → _))
  | .scan _ | .act _ _ | .clear _ => inferInstanceAs (Decidable True)

instance (s : Handover) : DecidablePred (HandOk s)
  | .write _ _ => inferInstanceAs (Decidable (_ → _ ∨ _))
  | .modbus => inferInstanceAs (Decidable (RaiseOk s.app s.mb))
  | .logic => inferInstanceAs (Decidable (ReadOk s.app s.mb s.pc))

/-! ## The values under way -/

namespace LogicPc

/-- The logic side is busy with the command. -/
def handles (a : HmiAddr) : LogicPc → Bool
  | scan _ => false
  | read b | act b _ | clear b => b = a

/-- Of a command whose flag is up, the value not acted on yet: the one that was read,
or else the one in its place. -/
def pending (cur : List UInt16) (a : HmiAddr) : LogicPc → List (List UInt16)
  | scan _ | read _ => [cur]
  | act b v => if b = a then [v] else [cur]
  | clear b => if b = a then [] else [cur]

end LogicPc

namespace Handover

/-- The value in the place of a command, once a copy under way is done. -/
def current (s : Handover) (a : HmiAddr) : List UInt16 :=
  if s.mb = .copy a then s.app.words a else s.app.hmi.field a

/-- The value behind a raised flag. -/
def flagged (s : Handover) (a : HmiAddr) : List (List UInt16) :=
  if s.app.hmi.wAddrFlag a then s.pc.pending (s.current a) a else []

/-- The value written and not announced yet. -/
def announced (s : Handover) (a : HmiAddr) : List (List UInt16) :=
  if s.mb = .raise a then [s.app.words a] else []

/-- The invariant: what was written has been acted on, is behind the flag or is about
to be announced, in this order. -/
structure Carried (s : Handover) (a : HmiAddr) : Prop where
  lists : s.written a = s.acted a ++ s.flagged a ++ s.announced a
  up : s.pc.handles a = true → s.app.hmi.wAddrFlag a = true

/-- What the hand-over promises for a command. -/
structure HandedOver (s : Handover) (a : HmiAddr) : Prop where
  inOrder : s.acted a <+: s.written a
  complete : (∀ b, s.app.hmi.wAddrFlag b = false) → s.mb = .idle → s.acted a = s.written a

theorem Carried.handedOver {s : Handover} {a : HmiAddr} (h : Carried s a) : HandedOver s a := by
  refine ⟨?_, fun hdown hidle => ?_⟩
  · rw [h.lists, List.append_assoc]
    exact List.prefix_append _ _
  · have hlists := h.lists
    unfold flagged announced at hlists
    rw [hdown a, hidle] at hlists
    simpa using hlists.symm

theorem lower_field (h : HmiType) (a b : HmiAddr) : (h.lower b).field a = h.field a := by
  cases a <;> rfl

section
variable {s s' : Handover} {a : HmiAddr}

/-- A step that a command does not see. -/
theorem Carried.congr (h : Carried s a) (hlists : s'.written a = s.written a ∧ s'.acted a = s.acted a)
    (hpc : s'.pc = s.pc) (hflag : s'.app.hmi.wAddrFlag a = s.app.hmi.wAddrFlag a)
    (hcur : s'.current a = s.current a) (hann : s'.announced a = s.announced a) : Carried s' a := by
  refine ⟨?_, fun hup => ?_⟩
  · rw [hlists.1, hlists.2, hann]
    unfold flagged
    rw [hpc, hflag, hcur]
    exact h.lists
  · rw [hflag]
    rw [hpc] at hup
    exact h.up hup

theorem carried_write {b : HmiAddr} {buf : Nat → UInt8} (h : Carried s a)
    (hok : a = b → Aligned b ∨ s.app.words b = frameWords buf 0 (fieldSize b))
    (hstep : s.write b buf = some s') : Carried s' a := by
  unfold write at hstep
  cases hmb : s.mb with
  | raise c | copy c =>
    simp only [hmb] at hstep
    cases hstep
  | idle =>
    simp only [hmb, Option.some.injEq] at hstep
    subst hstep
    have hlists := h.lists
    unfold flagged current announced at hlists
    simp only [hmb, reduceCtorEq, ↓reduceIte, List.append_nil] at hlists
    refine ⟨?_, h.up⟩
    unfold flagged current announced
    by_cases hab : a = b
    · subst hab
      have hwords : ({ s.app with reg := writtenReg s.app buf a } : MbApp).words a =
          frameWords buf 0 (fieldSize a) := by
        unfold MbApp.words
        rw [readWords_writtenReg]
        rcases hok rfl with hal | hsame
        · exact if_pos hal
        · split_ifs
          · rfl
          · exact hsame
      simp only [Function.update_self, reduceCtorEq, ↓reduceIte, hwords, hlists]
    · have hba : ¬ MbPc.raise b = MbPc.raise a := by
        intro he
        exact hab (MbPc.raise.inj he).symm
      simp only [Function.update_of_ne hab, reduceCtorEq, ↓reduceIte, hba, List.append_nil, hlists]

/-- Raising the flag puts the announced value behind it. -/
theorem carried_raise {app : MbApp} (h : Carried s a) (hmb : s.mb = .raise a)
    (hdown : s.app.hmi.wAddrFlag a = false)
    (happ : app = { s.app with hmiRegAddress := hmiAddr a, hmi := s.app.hmi.raise a }) :
    Carried { s with app := app, mb := .copy a } a := by
  have hlists := h.lists
  have hfree : s.pc.handles a = false := by
    by_contra hcon
    rw [Bool.not_eq_false] at hcon
    rw [h.up hcon] at hdown
    cases hdown
  have hpending : ∀ cur, s.pc.pending cur a = [cur] := by
    intro cur
    cases hpc : s.pc with
    | scan _ | read _ => rfl
    | act c _ | clear c =>
      rw [hpc] at hfree
      exact if_neg (of_decide_eq_false hfree)
  have hup : app.hmi.wAddrFlag a = true := by
    rw [happ]
    exact Function.update_self a true s.app.hmi.wAddrFlag
  have hwords : app.words a = s.app.words a := by
    rw [happ]
    rfl
  unfold flagged announced at hlists
  simp only [hmb, hdown, Bool.false_eq_true, ↓reduceIte, List.append_nil] at hlists
  refine ⟨?_, fun _ => hup⟩
  unfold flagged announced current
  simp only [hup, hwords, hpending, reduceCtorEq, ↓reduceIte, List.append_nil, hlists]

theorem carried_mbStep (hcmd : isCommand a = true) (h : Carried s a)
    (hok : RaiseOk s.app s.mb) (hstep : s.mbStep = some s') : Carried s' a := by
  unfold mbStep at hstep
  cases hmb : s.mb with
  | idle =>
    simp only [hmb] at hstep
    cases hstep
  | raise b =>
    simp only [hmb, Option.some.injEq] at hstep
    subst hstep
    by_cases hab : a = b
    · subst hab
      rw [hmb] at hok
      exact carried_raise h hmb (hok hcmd) rfl
    · have hba : b ≠ a := fun he => hab he.symm
      refine h.congr ⟨rfl, rfl⟩ rfl (Function.update_of_ne hab _ _) ?_ ?_
      · unfold current
        simp only [hmb, MbPc.copy.injEq, hba, reduceCtorEq, ↓reduceIte, raise_field]
      · unfold announced
        simp only [hmb, MbPc.raise.injEq, hba, reduceCtorEq, ↓reduceIte]
  | copy b =>
    simp only [hmb, Option.some.injEq] at hstep
    subst hstep
    refine h.congr ⟨rfl, rfl⟩ rfl ?_ ?_ ?_
    · exact congrFun (copy_wAddrFlag s.app.hmi s.app.reg b) a
    · unfold current
      by_cases hab : a = b
      · subst hab
        simp only [hmb, reduceCtorEq, ↓reduceIte, copy_field]
        rfl
      · have hba : b ≠ a := fun he => hab he.symm
        simp only [hmb, MbPc.copy.injEq, hba, reduceCtorEq, ↓reduceIte,
          copy_field_of_ne s.app.hmi s.app.reg hba]
    · unfold announced
      simp only [hmb, reduceCtorEq, ↓reduceIte]

/-- A statement of the logic side that only moves it on. -/
theorem Carried.move {pc : LogicPc} (h : Carried s a)
    (hpending : s.app.hmi.wAddrFlag a = true →
      pc.pending (s.current a) a = s.pc.pending (s.current a) a)
    (hup : pc.handles a = true → s.app.hmi.wAddrFlag a = true) :
    Carried { s with pc := pc } a := by
  have hlists := h.lists
  refine ⟨?_, hup⟩
  show s.written a = s.acted a ++ (if s.app.hmi.wAddrFlag a then pc.pending (s.current a) a else []) ++
    s.announced a
  unfold flagged at hlists
  split_ifs at hlists ⊢ with hflag
  · rw [hpending hflag]
    exact hlists
  · exact hlists

/-- Acting on a value takes it from behind the flag. -/
theorem carried_act {b : HmiAddr} {v : List UInt16} {logic : Logic} (h : Carried s a)
    (hpc : s.pc = .act b v) :
    Carried { s with
      logic := logic
      pc := .clear b
      acted := Function.update s.acted b (s.acted b ++ [v]) } a := by
  have hlists := h.lists
  have hup := h.up
  unfold flagged at hlists
  rw [hpc] at hlists hup
  refine ⟨?_, hup⟩
  show s.written a = Function.update s.acted b (s.acted b ++ [v]) a ++
    (if s.app.hmi.wAddrFlag a then LogicPc.pending (s.current a) a (.clear b) else []) ++ s.announced a
  by_cases hab : a = b
  · subst hab
    have hflag := hup (decide_eq_true rfl)
    simp only [hflag, LogicPc.pending, ↓reduceIte] at hlists ⊢
    rw [Function.update_self, List.append_nil]
    exact hlists
  · have hba : b ≠ a := fun he => hab he.symm
    simp only [LogicPc.pending, hba, ↓reduceIte] at hlists ⊢
    rw [Function.update_of_ne hab]
    exact hlists

theorem lowered_words (app : MbApp) (a b : HmiAddr) : (app.lowered b).words a = app.words a := by
  unfold MbApp.lowered
  split_ifs <;> rfl

theorem lowered_field (app : MbApp) (a b : HmiAddr) :
    (app.lowered b).hmi.field a = app.hmi.field a := by
  unfold MbApp.lowered
  split_ifs
  · exact lower_field app.hmi a b
  · rfl

theorem lowered_flag_of_ne (app : MbApp) {a b : HmiAddr} (h : a ≠ b) :
    (app.lowered b).hmi.wAddrFlag a = app.hmi.wAddrFlag a := by
  unfold MbApp.lowered
  split_ifs
  · exact Function.update_of_ne h _ _
  · rfl

theorem lowered_flag (app : MbApp) {a : HmiAddr} (h : isCommand a = true) :
    (app.lowered a).hmi.wAddrFlag a = false := by
  have hclears : clears a = true := by
    cases a with
    | chargeEn | chargeCmd | devTest | sleep => rfl
    | restart | restore | wMbPara | wCbPara _ | wMbRtc => cases h
  unfold MbApp.lowered
  rw [if_pos hclears]
  exact Function.update_self a false app.hmi.wAddrFlag

/-- Lowering the flag of a command that was acted on. -/
theorem carried_clear {b : HmiAddr} (hcmd : isCommand a = true) (h : Carried s a)
    (hpc : s.pc = .clear b) : Carried { s with app := s.app.lowered b, pc := .scan HmiAddr.all } a := by
  have hlists := h.lists
  unfold flagged announced current at hlists
  rw [hpc] at hlists
  refine ⟨?_, fun hup => absurd hup Bool.false_ne_true⟩
  unfold flagged announced current
  by_cases hab : a = b
  · subst hab
    have hflag := h.up (by rw [hpc]; exact decide_eq_true rfl)
    simp only [hflag, LogicPc.pending, ↓reduceIte] at hlists
    simp only [lowered_flag s.app hcmd, lowered_words, Bool.false_eq_true, ↓reduceIte]
    exact hlists
  · have hba : b ≠ a := fun he => hab he.symm
    simp only [LogicPc.pending, hba, ↓reduceIte] at hlists
    simp only [lowered_flag_of_ne s.app hab, lowered_words, lowered_field, LogicPc.pending]
    exact hlists

theorem carried_logicStep (hcmd : isCommand a = true) (h : Carried s a)
    (hok : ReadOk s.app s.mb s.pc) (hstep : s.logicStep = some s') : Carried s' a := by
  unfold logicStep at hstep
  split at hstep
  · next hpc =>
    obtain rfl := Option.some.inj hstep
    refine h.move (fun _ => ?_) fun hup => absurd hup Bool.false_ne_true
    rw [hpc]
    rfl
  · next c rest hpc =>
    obtain rfl := Option.some.inj hstep
    refine h.move (fun _ => ?_) fun hup => ?_
    · rw [hpc]
      split_ifs <;> rfl
    · split_ifs at hup with hflag
      · rwa [← of_decide_eq_true hup]
      · cases hup
  · next b hpc =>
    obtain rfl := Option.some.inj hstep
    refine h.move (fun _ => ?_) fun hup => h.up (by rw [hpc]; exact hup)
    rw [hpc]
    by_cases hab : a = b
    · subst hab
      have hcur : s.current a = s.app.hmi.field a := by
        unfold current
        split_ifs with hmb
        · rw [hpc] at hok
          exact (hok hcmd hmb).symm
        · rfl
      simp only [LogicPc.pending, ↓reduceIte, hcur]
    · have hba : b ≠ a := fun he => hab he.symm
      simp only [LogicPc.pending, hba, ↓reduceIte]
  · next b v hpc =>
    obtain rfl := Option.some.inj hstep
    exact carried_act h hpc
  · next b hpc =>
    obtain rfl := Option.some.inj hstep
    exact carried_clear hcmd h hpc

end

theorem start_carried (app : MbApp) (logic : Logic) (a : HmiAddr) : Carried (start app logic) a :=
  ⟨rfl, fun h => absurd h Bool.false_ne_true⟩

/-- **The hand-over of commands.** In every run of the two sides in which each step
meets the condition, each of the four commands is handed over at every moment. -/
theorem commands_handed_over {app : MbApp} {logic : Logic} {s : Handover}
    (h : Reach step HandOk (start app logic) s) {a : HmiAddr} (hcmd : isCommand a = true) :
    HandedOver s a := by
  have hcarried : Carried s a := by
    refine h.inv (P := fun s => Carried s a) (start_carried app logic a)
      fun s t s' hs hok hstep => ?_
    cases t with
    | write b buf =>
      refine carried_write hs (fun hab => ?_) hstep
      subst hab
      exact hok hcmd
    | modbus => exact carried_mbStep hcmd hs hok hstep
    | logic => exact carried_logicStep hcmd hs hok hstep
  exact hcarried.handedOver

/-- A frame with the value 1. -/
def frameOne : Nat → UInt8 := fun j => if j = 1 then 1 else 0

/-- The lists of the device test. -/
def testLists (s : Handover) : List (List UInt16) × List (List UInt16) :=
  (s.written .devTest, s.acted .devTest)

/-- A device test is written, announced and copied; then the logic task takes it. -/
def undisturbedTest : List HandTurn :=
  [.write .devTest frameOne, .modbus, .modbus] ++ List.replicate 6 .logic

theorem undisturbedTest_lists :
    (runSteps (guarded step HandOk) (start .zero .init) undisturbedTest).map testLists =
      some ([[1]], [[1]]) := by
  decide +kernel

theorem commands_handed_over_test :
    ∃ s, runSteps step (start .zero .init) undisturbedTest = some s ∧ s.acted .devTest = [[1]] ∧
      HandedOver s .devTest := by
  obtain ⟨s, hrun, hlists⟩ := Option.map_eq_some_iff.mp undisturbedTest_lists
  exact ⟨s, runSteps_of_guarded hrun, congrArg Prod.snd hlists,
    commands_handed_over (Reach.start.runGuarded hrun) rfl⟩

/-- The logic task runs when the flag is up and the value is not copied. -/
def hastyTest : List HandTurn :=
  [.write .devTest frameOne, .modbus] ++ List.replicate 5 .logic

theorem hastyTest_lists :
    (runSteps step (start .zero .init) hastyTest).map testLists = some ([[1]], [[0]]) := by
  decide +kernel

/-- The logic task acts on the value before the one that was written. -/
theorem devTest_stale :
    ∃ s, Reach step Always (start .zero .init) s ∧ ¬ HandedOver s .devTest := by
  obtain ⟨s, hrun, hlists⟩ := Option.map_eq_some_iff.mp hastyTest_lists
  refine ⟨s, Reach.start.run hrun, fun hhanded => ?_⟩
  obtain ⟨hwritten, hacted⟩ := Prod.mk.inj hlists
  have hprefix := hhanded.inOrder
  rw [hwritten, hacted] at hprefix
  exact absurd hprefix (by decide)

end Handover

end SC04Monitor.Modbus
