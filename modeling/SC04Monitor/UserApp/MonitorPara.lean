import SC04Monitor.Lib.FlagScan
import SC04Monitor.UserApp.LogicTick

/-! # What becomes of a write of the monitor parameters

The parameters lie in four places: `HMI.mbWrPara`, and in `MB_LGA` the copies
`MB_WrPara`, `MB_RdPara` and `MB_Para`. A tick works on them as `ParaBlock.tick`
does, and all it has to know of the other commands is whether one of them is
served first. -/

namespace SC04Monitor.UserApp
open SC04Monitor.Lib.Run SC04Monitor.Lib.Scan SC04Monitor.Lib.FlagScan SC04Monitor.Can

/-! ## The parameter block -/

/-- The copies of the parameters, the flag of the touch screen, the two flags of
`UserRecord` and the record in the file system. -/
structure ParaBlock where
  raised : Bool
  written : MBPara
  wrPara : MBPara
  rdPara : MBPara
  para : MBPara
  wParFlag : Bool
  rParFlag : Bool
  record : Option MBPara

namespace ParaBlock

/-- `HmiInputUpdate` takes the written parameters over when their flag is the first. -/
def take (first : Bool) (b : ParaBlock) : ParaBlock :=
  if first then { b with wrPara := b.written } else b

/-- `ParManage` puts `MB_WrPara` into force where it is new. -/
def manage (b : ParaBlock) : ParaBlock :=
  if b.raised ∧ b.wrPara ≠ b.rdPara then
    { b with rdPara := b.wrPara, para := b.wrPara, wParFlag := true, raised := false }
  else b

/-- `UserRecord`. -/
def userRecord (stored : MBPara) (b : ParaBlock) : ParaBlock :=
  if b.wParFlag then { b with wParFlag := false, record := some b.para }
  else if b.rParFlag then { b with rParFlag := false, para := stored, wrPara := stored }
  else b

/-- What a tick makes of the block. -/
def tick (first : Bool) (stored : MBPara) (b : ParaBlock) : ParaBlock :=
  (b.take first).manage.userRecord stored

end ParaBlock

/-- The parameter block of the logic task. -/
def Logic.paraBlock (s : Logic) : ParaBlock :=
  ⟨s.hmi.wAddrFlag .wMbPara, s.hmi.mbWrPara, s.lga.mbWrPara, s.lga.mbRdPara, s.lga.mbPara,
    s.lga.wParFlag, s.lga.rParFlag, s.record⟩

/-! ## The tick refines the block -/

namespace Logic

/-- The write of the monitor parameters is what `HmiInputUpdate` serves. -/
def paraFirst (s : Logic) : Bool := decide (s.hmiAddr = some .wMbPara)

theorem lower_flag (s : Logic) (a b : HmiAddr) :
    (s.lower a).hmi.wAddrFlag b = if b = a then false else s.hmi.wAddrFlag b := by
  simp only [lower, Hmi.lower, Function.update_apply]

theorem lower_paraBlock {a : HmiAddr} (h : a ≠ .wMbPara) (s : Logic) :
    (s.lower a).paraBlock = s.paraBlock := by
  have hflag : (s.lower a).hmi.wAddrFlag .wMbPara = s.hmi.wAddrFlag .wMbPara := by
    rw [lower_flag, if_neg (Ne.symm h)]
  simp only [paraBlock, hflag]
  rfl

theorem setInputOf_paraBlock (s : Logic) (c : UInt16) (f : InputStyp → InputStyp) :
    (s.setInputOf c f).paraBlock = s.paraBlock := by
  unfold setInputOf
  split <;> rfl

theorem hmiInputUpdate_paraBlock (s : Logic) :
    s.hmiInputUpdate.paraBlock = s.paraBlock.take s.paraFirst := by
  by_cases hfirst : s.hmiAddr = some .wMbPara
  · have hyes : s.paraFirst = true := decide_eq_true hfirst
    unfold hmiInputUpdate
    rw [hyes, hfirst]
    rfl
  · have hno : s.paraFirst = false := decide_eq_false hfirst
    rw [hno]
    show s.hmiInputUpdate.paraBlock = s.paraBlock
    unfold hmiInputUpdate
    dsimp only
    split
    · exact (lower_paraBlock (by decide) _).trans (setInputOf_paraBlock _ _ _)
    · exact (lower_paraBlock (by decide) _).trans (setInputOf_paraBlock _ _ _)
    · exact lower_paraBlock (by decide) _
    · exact lower_paraBlock (by decide) _
    · exact lower_paraBlock (by decide) _
    · exact lower_paraBlock (by decide) _
    next h => exact absurd h hfirst
    · exact lower_paraBlock (by decide) _
    · rfl
    · rfl

theorem cbCtrl_paraBlock (s : Logic) (k : ModuleId) : (s.cbCtrl k).paraBlock = s.paraBlock := rfl

theorem dcDcManage_paraBlock (s : Logic) : s.dcDcManage.paraBlock = s.paraBlock :=
  scan_frame paraBlock (fun k _ s => s.cbCtrl_paraBlock k) s

/-- `ParManage` looks at the flag of the monitor parameters first. -/
theorem paras_find?_wMbPara {f : HmiAddr → Bool} (h : f .wMbPara = true) :
    HmiAddr.paras.find? f = some .wMbPara :=
  List.find?_cons_of_pos h

theorem paras_find?_ne {f : HmiAddr → Bool} (h : f .wMbPara = false) :
    HmiAddr.paras.find? f ≠ some .wMbPara := by
  intro hf
  have := List.find?_some hf
  rw [h] at this
  exact absurd this (by decide)

theorem parManage_paraBlock (s : Logic) : s.parManage.paraBlock = s.paraBlock.manage := by
  unfold parManage ParaBlock.manage
  cases hr : s.hmi.wAddrFlag .wMbPara with
  | true =>
    rw [paras_find?_wMbPara hr]
    dsimp only
    by_cases hne : s.lga.mbWrPara ≠ s.lga.mbRdPara
    · have hb : s.paraBlock.raised = true ∧ s.paraBlock.wrPara ≠ s.paraBlock.rdPara := ⟨hr, hne⟩
      rw [if_pos hne, if_pos hb]
      simp [paraBlock, lower, Hmi.lower]
    · rw [if_neg hne, if_neg fun hb => hne hb.2]
  | false =>
    have hb : ¬ (s.paraBlock.raised = true ∧ s.paraBlock.wrPara ≠ s.paraBlock.rdPara) := by
      rintro ⟨hup, -⟩
      exact absurd (hr.symm.trans hup) (by decide)
    rw [if_neg hb]
    split
    next h => exact absurd h (paras_find?_ne hr)
    next k _ =>
      dsimp only
      split_ifs
      · rfl
      · exact lower_paraBlock (by simp) _
      · rfl
    · rfl

theorem userRecord_paraBlock (i : TickIn) (s : Logic) :
    (s.userRecord i).paraBlock = s.paraBlock.userRecord i.storedPara := by
  unfold userRecord ParaBlock.userRecord
  cases hw : s.lga.wParFlag with
  | true => simp [paraBlock, hw]
  | false =>
    cases hr : s.lga.rParFlag with
    | true => simp [paraBlock, hw, hr]
    | false => simp [paraBlock, hw, hr]

theorem canInputUpdate_paraBlock (s : Logic) : s.canInputUpdate.paraBlock = s.paraBlock := rfl

theorem monitorUpdate_paraBlock (s : Logic) : s.monitorUpdate.paraBlock = s.paraBlock := rfl

theorem faultManage_paraBlock (i : TickIn) (s : Logic) :
    (s.faultManage i).paraBlock = s.paraBlock := rfl

theorem sysModeTick_paraBlock (s : Logic) : s.sysModeTick.paraBlock = s.paraBlock := rfl

theorem beforeDcDc_paraBlock (i : TickIn) (s : Logic) :
    (s.beforeDcDc i).paraBlock =
      (s.environment i).paraBlock.take (s.environment i).paraFirst := by
  unfold beforeDcDc inputs
  rw [sysModeTick_paraBlock, faultManage_paraBlock, monitorUpdate_paraBlock,
    canInputUpdate_paraBlock, hmiInputUpdate_paraBlock]
  rfl

theorem afterCanOutput_paraBlock (s : Logic) (i : TickIn) :
    (s.afterCanOutput i).paraBlock =
      ((s.environment i).paraBlock.take (s.environment i).paraFirst).manage := by
  show ((s.beforeDcDc i).dcDcManage.parManage).paraBlock = _
  rw [parManage_paraBlock, dcDcManage_paraBlock, beforeDcDc_paraBlock]

/-- The tick of the logic task is the tick of its parameter block. -/
theorem tick_paraBlock (s : Logic) (i : TickIn) :
    (s.tick i).paraBlock =
      (s.environment i).paraBlock.tick (s.environment i).paraFirst i.storedPara := by
  unfold tick
  rw [userRecord_paraBlock, afterCanOutput_paraBlock]
  rfl

end Logic

/-! ## One tick of the block -/

namespace ParaBlock

/-- The tick may serve the write: what `ParManage` compares with `MB_RdPara` is what
was written, and where they agree there is nothing to do. -/
def Ready (first : Bool) (b : ParaBlock) : Prop :=
  b.raised = true →
    if first then b.written ≠ b.rdPara ∨ b.written = b.para
    else b.wrPara = b.rdPara ∨ b.wrPara = b.written

/-- A write that is still to be served. -/
structure Pending (w : MBPara) (b : ParaBlock) : Prop where
  raised : b.raised = true
  written : b.written = w
  new : w ≠ b.rdPara ∨ (b.rParFlag = false ∧ w ≠ b.para)

/-- Before the start-up load nothing but a write sets the parameters. -/
def Loads (b : ParaBlock) : Prop := b.rParFlag = true → b.para = b.rdPara

/-- The three copies agree and are not loaded again. -/
structure Synced (b : ParaBlock) : Prop where
  loaded : b.rParFlag = false
  rd : b.rdPara = b.para
  wr : b.wrPara = b.para

variable {first : Bool} {stored w : MBPara} {b : ParaBlock}

theorem take_rest (first : Bool) (b : ParaBlock) :
    (b.take first).raised = b.raised ∧ (b.take first).written = b.written ∧
      (b.take first).rdPara = b.rdPara ∧ (b.take first).para = b.para ∧
      (b.take first).wParFlag = b.wParFlag ∧ (b.take first).rParFlag = b.rParFlag ∧
      (b.take first).record = b.record := by
  unfold take
  split_ifs <;> exact ⟨rfl, rfl, rfl, rfl, rfl, rfl, rfl⟩

@[simp] theorem userRecord_raised : (b.userRecord stored).raised = b.raised := by
  unfold userRecord
  split_ifs <;> rfl

@[simp] theorem userRecord_written : (b.userRecord stored).written = b.written := by
  unfold userRecord
  split_ifs <;> rfl

@[simp] theorem userRecord_rdPara : (b.userRecord stored).rdPara = b.rdPara := by
  unfold userRecord
  split_ifs <;> rfl

/-- What the tick compares with `MB_RdPara`. -/
def candidate (first : Bool) (b : ParaBlock) : MBPara := if first then b.written else b.wrPara

theorem take_wrPara : (b.take first).wrPara = b.candidate first := by
  unfold take candidate
  split_ifs <;> rfl

/-- A tick that serves the write puts the candidate into force and has it recorded. -/
theorem tick_served (stored : MBPara) (hup : b.raised = true) (hne : b.candidate first ≠ b.rdPara) :
    (b.take first).manage =
        { b.take first with
          rdPara := b.candidate first, para := b.candidate first, wParFlag := true,
          raised := false } ∧
      (b.tick first stored).raised = false ∧
      (b.tick first stored).record = some (b.candidate first) := by
  obtain ⟨hr, -, hrd, -⟩ := take_rest first b
  have hm : (b.take first).manage =
      { b.take first with
        rdPara := b.candidate first, para := b.candidate first, wParFlag := true,
        raised := false } := by
    unfold manage
    rw [if_pos ⟨hr.trans hup, by rw [take_wrPara, hrd]; exact hne⟩]
    simp only [take_wrPara]
  refine ⟨hm, ?_, ?_⟩
  · unfold tick
    rw [userRecord_raised, hm]
  · unfold tick userRecord
    rw [hm, if_pos rfl]

/-- A tick that does not serve it only takes it over and may load the stored parameters. -/
theorem tick_passed (stored : MBPara) (h : b.raised = true → b.candidate first = b.rdPara) :
    b.tick first stored = (b.take first).userRecord stored := by
  obtain ⟨hr, -, hrd, -⟩ := take_rest first b
  unfold tick manage
  rw [if_neg]
  rintro ⟨hup, hne⟩
  rw [take_wrPara, hrd] at hne
  exact hne (h (hr.symm.trans hup))

/-- What a tick that serves nothing keeps. -/
theorem tick_passed_rest (stored : MBPara) (h : b.raised = true → b.candidate first = b.rdPara) :
    (b.tick first stored).raised = b.raised ∧ (b.tick first stored).written = b.written ∧
      (b.tick first stored).rdPara = b.rdPara := by
  obtain ⟨hr, hw, hrd, -⟩ := take_rest first b
  rw [tick_passed stored h, userRecord_raised, userRecord_written, userRecord_rdPara]
  exact ⟨hr, hw, hrd⟩

/-- The write in a cleared flag is in force. -/
theorem Ready.served (h : b.Ready first) (hup : b.raised = true)
    (hdown : (b.tick first stored).raised = false) :
    b.candidate first ≠ b.rdPara ∧ b.candidate first = b.written := by
  have hne : b.candidate first ≠ b.rdPara := by
    intro he
    have hpass : b.raised = true → b.candidate first = b.rdPara := fun _ => he
    have hkept := (tick_passed_rest stored hpass).1
    rw [hdown, hup] at hkept
    exact absurd hkept (by decide)
  refine ⟨hne, ?_⟩
  have hready := h hup
  cases first with
  | true => rfl
  | false => exact hready.resolve_left hne

theorem userRecord_cases (stored : MBPara) (b : ParaBlock) :
    ((b.userRecord stored).rParFlag = b.rParFlag ∧ (b.userRecord stored).para = b.para ∧
        (b.userRecord stored).wrPara = b.wrPara) ∨
      (b.rParFlag = true ∧ (b.userRecord stored).rParFlag = false) := by
  unfold userRecord
  by_cases hw : b.wParFlag = true
  · rw [if_pos hw]
    exact .inl ⟨rfl, rfl, rfl⟩
  · rw [if_neg hw]
    by_cases hr : b.rParFlag = true
    · rw [if_pos hr]
      exact .inr ⟨hr, rfl⟩
    · rw [if_neg hr]
      exact .inl ⟨rfl, rfl, rfl⟩

/-- A write that the tick does not serve stays pending. -/
theorem Pending.passed (h : b.Pending w) (hc : b.candidate first = b.rdPara) :
    (b.tick first stored).Pending w := by
  have hpass : b.raised = true → b.candidate first = b.rdPara := fun _ => hc
  obtain ⟨hr, hw, hrd⟩ := tick_passed_rest stored hpass
  refine ⟨hr.trans h.raised, hw.trans h.written, ?_⟩
  rw [hrd]
  rcases h.new with hne | ⟨hload, hne⟩
  · exact .inl hne
  · obtain ⟨-, -, -, hp, -, hrp, -⟩ := take_rest first b
    rw [tick_passed stored hpass]
    rcases userRecord_cases stored (b.take first) with ⟨hflag, hpara, -⟩ | ⟨hup, -⟩
    · exact .inr ⟨by rw [hflag, hrp, hload], by rw [hpara, hp]; exact hne⟩
    · rw [hrp, hload] at hup
      exact absurd hup (by decide)

/-- A tick that takes a pending write over serves it. -/
theorem Pending.first_served (h : b.Pending w) (hready : b.Ready true) :
    b.candidate true ≠ b.rdPara := by
  have hnew : b.written ≠ b.rdPara := by
    rcases hready h.raised with hne | hin
    · exact hne
    · rcases h.new with hne | ⟨-, hne⟩
      · rwa [h.written]
      · exact absurd (h.written.symm.trans hin) hne
  exact hnew

theorem tick_loads (h : b.Loads) : (b.tick first stored).Loads := by
  intro hload
  obtain ⟨-, -, hrd, hp, -, hrp, -⟩ := take_rest first b
  by_cases hs : b.raised = true ∧ b.candidate first ≠ b.rdPara
  · have hm := (tick_served stored hs.1 hs.2).1
    unfold tick at hload ⊢
    rw [hm] at hload ⊢
    -- the flag of the record is up, so nothing is loaded
    rfl
  · have hc : b.raised = true → b.candidate first = b.rdPara := fun hup =>
      not_not.mp fun hne => hs ⟨hup, hne⟩
    rw [tick_passed stored hc] at hload ⊢
    rw [userRecord_rdPara, hrd]
    rcases userRecord_cases stored (b.take first) with ⟨hflag, hpara, -⟩ | ⟨-, hflag⟩
    · rw [hpara, hp]
      exact h (by rw [← hrp, ← hflag]; exact hload)
    · rw [hflag] at hload
      exact absurd hload (by decide)

theorem Synced.ready (h : b.Synced) : b.Ready first := by
  intro _
  cases first with
  | true =>
    by_cases he : b.written = b.para
    · exact .inr he
    · exact .inl fun hrd => he (hrd.trans h.rd)
  | false => exact .inl (h.wr.trans h.rd.symm)

/-- Copies that agree agree after every tick. -/
theorem Synced.tick (h : b.Synced) (hfirst : first = true → b.raised = true) :
    (b.tick first stored).Synced := by
  obtain ⟨-, -, hrd, hp, -, hrp, -⟩ := take_rest first b
  by_cases hs : b.raised = true ∧ b.candidate first ≠ b.rdPara
  · have hm := (tick_served stored hs.1 hs.2).1
    unfold ParaBlock.tick userRecord
    rw [hm, if_pos rfl]
    exact ⟨hrp.trans h.loaded, rfl, take_wrPara⟩
  · have hc : b.raised = true → b.candidate first = b.rdPara := fun hup =>
      not_not.mp fun hne => hs ⟨hup, hne⟩
    have hcand : b.candidate first = b.para := by
      cases first with
      | true => exact (hc (hfirst rfl)).trans h.rd
      | false => exact h.wr
    rw [tick_passed stored hc]
    rcases userRecord_cases stored (b.take first) with ⟨hflag, hpara, hwr⟩ | ⟨hup, -⟩
    · refine ⟨by rw [hflag, hrp, h.loaded], ?_, ?_⟩
      · rw [userRecord_rdPara, hrd, hpara, hp, h.rd]
      · rw [hwr, take_wrPara, hpara, hp, hcand]
    · rw [hrp, h.loaded] at hup
      exact absurd hup (by decide)

/-- What was written is what `MB_RdPara` holds, whatever is in force. -/
structure Stuck (w : MBPara) (b : ParaBlock) : Prop where
  loaded : b.rParFlag = false
  written : b.written = w
  rd : b.rdPara = w
  wr : b.wrPara = w

/-- A tick that takes over what `MB_RdPara` holds serves nothing, nor does any after it. -/
theorem stuck_tick (stored : MBPara) (hload : b.rParFlag = false) (hw : b.written = w) (hrd : b.rdPara = w)
    (hc : b.candidate first = w) :
    (b.tick first stored).raised = b.raised ∧ (b.tick first stored).Stuck w := by
  have hpass : b.raised = true → b.candidate first = b.rdPara := fun _ => hc.trans hrd.symm
  obtain ⟨hr, hwritten, hsame⟩ := tick_passed_rest stored hpass
  obtain ⟨-, -, -, -, -, hrp, -⟩ := take_rest first b
  refine ⟨hr, ?_, hwritten.trans hw, hsame.trans hrd, ?_⟩
  all_goals
    rw [tick_passed stored hpass]
    rcases userRecord_cases stored (b.take first) with ⟨hflag, -, hwr⟩ | ⟨hup, -⟩
  · rw [hflag, hrp, hload]
  · rw [hrp, hload] at hup
    exact absurd hup (by decide)
  · rw [hwr, take_wrPara, hc]
  · rw [hrp, hload] at hup
    exact absurd hup (by decide)

theorem Stuck.tick (h : b.Stuck w) :
    (b.tick first stored).raised = b.raised ∧ (b.tick first stored).Stuck w := by
  refine stuck_tick stored h.loaded h.written h.rd ?_
  cases first with
  | true => exact h.written
  | false => exact h.wr

end ParaBlock

/-! ## The flags ahead of the write -/

namespace Logic

/-- How many commands `HmiInputUpdate` serves before the write. -/
def aheadOfPara (s : Logic) : Nat := ahead HmiAddr.all s.hmi.wAddrFlag .wMbPara

theorem before_wMbPara : before HmiAddr.all .wMbPara =
    [.chargeEn, .chargeCmd, .devTest, .sleep, .restart, .restore] := by decide

theorem aheadOfPara_le (s : Logic) : s.aheadOfPara ≤ 6 := by
  have h := ahead_le (l := HmiAddr.all) (f := s.hmi.wAddrFlag) (a := .wMbPara)
  rwa [before_wMbPara] at h

theorem setInputOf_hmi (s : Logic) (c : UInt16) (f : InputStyp → InputStyp) :
    (s.setInputOf c f).hmi = s.hmi := by
  unfold setInputOf
  split <;> rfl

theorem wCbPara_mem_paras (k : ModuleId) : HmiAddr.wCbPara k ∈ HmiAddr.paras := by
  revert k
  decide

/-- `HmiInputUpdate` lowers the flag that it finds, unless it leaves it to `ParManage`. -/
theorem hmiInputUpdate_hmi (s : Logic) :
    (∃ a, s.hmiAddr = some a ∧ a ∉ HmiAddr.paras ∧ s.hmiInputUpdate.hmi = s.hmi.lower a) ∨
      ((∀ a, s.hmiAddr = some a → a ∈ HmiAddr.paras) ∧ s.hmiInputUpdate.hmi = s.hmi) := by
  unfold hmiInputUpdate
  dsimp only
  cases ha : s.hmiAddr with
  | none => exact .inr ⟨fun a h => absurd h (by simp), rfl⟩
  | some a =>
    have hset : ∀ (t : Logic) (c : UInt16) (f : InputStyp → InputStyp) (b : HmiAddr),
        ((t.setInputOf c f).lower b).hmi = t.hmi.lower b := by
      intro t c f b
      show (t.setInputOf c f).hmi.lower b = _
      rw [setInputOf_hmi]
    cases a with
    | chargeEn => exact .inl ⟨_, rfl, by decide, hset _ _ _ _⟩
    | chargeCmd => exact .inl ⟨_, rfl, by decide, hset _ _ _ _⟩
    | devTest => exact .inl ⟨_, rfl, by decide, rfl⟩
    | sleep => exact .inl ⟨_, rfl, by decide, rfl⟩
    | restart => exact .inl ⟨_, rfl, by decide, rfl⟩
    | restore => exact .inl ⟨_, rfl, by decide, rfl⟩
    | wMbRtc => exact .inl ⟨_, rfl, by decide, rfl⟩
    | wMbPara =>
      refine .inr ⟨fun b hb => ?_, rfl⟩
      rw [← Option.some.inj hb]
      decide
    | wCbPara k =>
      refine .inr ⟨fun b hb => ?_, rfl⟩
      rw [← Option.some.inj hb]
      exact wCbPara_mem_paras k

/-- A command that `HmiInputUpdate` serves is done with. -/
theorem hmiInputUpdate_served {s : Logic} {a : HmiAddr} (h : s.hmiAddr = some a)
    (ha : a ∉ HmiAddr.paras) : s.hmiInputUpdate.hmi = s.hmi.lower a := by
  rcases s.hmiInputUpdate_hmi with ⟨b, hb, -, hhmi⟩ | ⟨hparas, -⟩
  · rw [hhmi, Option.some.inj (hb.symm.trans h)]
  · exact absurd (hparas a h) ha

/-- `ParManage` lowers flags of parameters only. -/
theorem parManage_flag {b : HmiAddr} (hb : b ∉ HmiAddr.paras) (s : Logic) :
    s.parManage.hmi.wAddrFlag b = s.hmi.wAddrFlag b := by
  have hlower : ∀ (t : Logic) (a : HmiAddr), a ∈ HmiAddr.paras →
      (t.lower a).hmi.wAddrFlag b = t.hmi.wAddrFlag b := by
    intro t a ha
    rw [lower_flag, if_neg]
    rintro rfl
    exact hb ha
  unfold parManage
  split
  · split_ifs
    · exact hlower _ _ (by decide)
    · rfl
  next k _ =>
    dsimp only
    split_ifs
    · rfl
    · exact hlower _ _ (wCbPara_mem_paras k)
    · rfl
  · rfl

/-- After `HmiInputUpdate` only `ParManage` lowers flags. -/
theorem tick_hmi (s : Logic) (i : TickIn) :
    (s.tick i).hmi = (s.beforeDcDc i).dcDcManage.parManage.hmi := by
  unfold tick userRecord
  split_ifs <;> rfl

theorem dcDcManage_hmi (s : Logic) : s.dcDcManage.hmi = s.hmi := by
  have hcall : ∀ k ∈ List.finRange 5, ∀ t : Logic, (t.cbCtrl k).hmi = t.hmi := fun _ _ _ => rfl
  exact scan_frame Logic.hmi hcall s

/-- A tick that serves another command leaves one fewer ahead of the write. -/
theorem aheadOfPara_tick (s : Logic) (i : TickIn)
    (hup : (s.environment i).hmi.wAddrFlag .wMbPara = true)
    (hfirst : (s.environment i).paraFirst = false) :
    (s.tick i).aheadOfPara + 1 = (s.environment i).aheadOfPara := by
  have hmem : HmiAddr.wMbPara ∈ HmiAddr.all := by decide
  rcases find?_cases hmem hup with ⟨hfind, -⟩ | ⟨b, hfind, hb, -⟩
  · have hyes : (s.environment i).paraFirst = true := decide_eq_true hfind
    rw [hfirst] at hyes
    exact absurd hyes (by decide)
  · have hnot : ∀ c ∈ before HmiAddr.all .wMbPara, c ∉ HmiAddr.paras := by decide
    have hserved :=
      hmiInputUpdate_served (s := (s.environment i).digitalInputUpdate i) hfind (hnot b hb)
    have hflags : ∀ c ∈ before HmiAddr.all .wMbPara, (s.tick i).hmi.wAddrFlag c =
        Function.update (s.environment i).hmi.wAddrFlag b false c := by
      intro c hc
      rw [tick_hmi, parManage_flag (hnot c hc), dcDcManage_hmi]
      exact congrArg (fun h : Hmi => h.wAddrFlag c) hserved
    unfold aheadOfPara
    rw [ahead_congr hflags]
    exact ahead_lower (by decide) hb (List.find?_some hfind)

end Logic

/-! ## Runs -/

section
variable (ins : Nat → TickIn) (n : Nat)

/-- The state in which tick `n` starts to work: the touch screen has written. -/
def envAt : Logic := (logicAt ins n).environment (ins n)

/-- The flag of the monitor parameters is up in tick `n`. -/
def ParaRaised : Prop := (envAt ins n).hmi.wAddrFlag .wMbPara = true

/-- The parameters that the touch screen has written. -/
def paraWritten : MBPara := (envAt ins n).hmi.mbWrPara

/-- `ParManage` clears the flag in tick `n`. -/
def ParaCleared : Prop :=
  ParaRaised ins n ∧ (logicAt ins (n + 1)).hmi.wAddrFlag .wMbPara = false

/-- After `ParManage` the written parameters are in force, and `UserRecord` stores them. -/
def ParaApplied : Prop :=
  let s := (logicAt ins n).afterCanOutput (ins n)
  s.lga.mbPara = paraWritten ins n ∧ s.lga.mbRdPara = paraWritten ins n ∧
    s.lga.wParFlag = true ∧ (logicAt ins (n + 1)).record = some (paraWritten ins n)

/-- The touch screen writes nothing for the next fifteen ticks. -/
def QuietAfter : Prop := ∀ j, n < j → j < n + 16 → (ins j).modbus = id

/-- Every write takes effect: what is in a cleared flag has been applied, and a write
of other parameters than those in force is applied within 16 ticks. -/
def TakesEffect : Prop :=
  (∀ n, ParaCleared ins n → ParaApplied ins n) ∧
    ∀ n, ParaRaised ins n → paraWritten ins n ≠ (logicAt ins n).lga.mbPara → QuietAfter ins n →
      ∃ m, n ≤ m ∧ m < n + 16 ∧ paraWritten ins m = paraWritten ins n ∧ ParaCleared ins m ∧
        ParaApplied ins m

/-- What a raised flag finds in a tick. Where the write is the first command,
`MB_RdPara` differs from it, unless it is in force already; where another command is
served first, the `MB_WrPara` left from before equals `MB_RdPara` or the write. -/
def ParaReady : Prop :=
  ParaRaised ins n →
    if (envAt ins n).hmiAddr = some .wMbPara then
      paraWritten ins n ≠ (logicAt ins n).lga.mbRdPara ∨
        paraWritten ins n = (logicAt ins n).lga.mbPara
    else
      (logicAt ins n).lga.mbWrPara = (logicAt ins n).lga.mbRdPara ∨
        (logicAt ins n).lga.mbWrPara = paraWritten ins n

/-- The block in which tick `n` starts to work. -/
def blockAt : ParaBlock := (envAt ins n).paraBlock

/-- Whether tick `n` serves the write first. -/
def firstAt : Bool := (envAt ins n).paraFirst

theorem paraBlock_succ : (logicAt ins (n + 1)).paraBlock =
    (blockAt ins n).tick (firstAt ins n) (ins n).storedPara :=
  (logicAt ins n).tick_paraBlock (ins n)

theorem paraReady_iff : ParaReady ins n ↔ (blockAt ins n).Ready (firstAt ins n) := by
  unfold ParaReady ParaBlock.Ready firstAt Logic.paraFirst
  by_cases h : (envAt ins n).hmiAddr = some .wMbPara
  · simp only [h, if_true, decide_true]
    rfl
  · simp only [h, if_false, decide_false]
    rfl

theorem paraCleared_iff : ParaCleared ins n ↔ (blockAt ins n).raised = true ∧
    ((blockAt ins n).tick (firstAt ins n) (ins n).storedPara).raised = false := by
  rw [← paraBlock_succ]
  rfl

theorem firstAt_raised (h : firstAt ins n = true) : (blockAt ins n).raised = true :=
  List.find?_some (p := (envAt ins n).hmi.wAddrFlag) (of_decide_eq_true h)

variable {ins n}

/-- A tick that serves a write that was ready for it applies it. -/
theorem applied_of_served
    (hne : (blockAt ins n).candidate (firstAt ins n) ≠ (blockAt ins n).rdPara)
    (hup : (blockAt ins n).raised = true)
    (hw : (blockAt ins n).candidate (firstAt ins n) = (blockAt ins n).written) :
    ParaCleared ins n ∧ ParaApplied ins n := by
  obtain ⟨hm, hdown, hrec⟩ :=
    ParaBlock.tick_served (ins n).storedPara hup hne
  have hafter := (logicAt ins n).afterCanOutput_paraBlock (ins n)
  rw [show ((logicAt ins n).environment (ins n)).paraBlock.take
      ((logicAt ins n).environment (ins n)).paraFirst =
    (blockAt ins n).take (firstAt ins n) from rfl, hm, hw] at hafter
  refine ⟨(paraCleared_iff ins n).mpr ⟨hup, hdown⟩, ?_, ?_, ?_, ?_⟩
  · exact congrArg ParaBlock.para hafter
  · exact congrArg ParaBlock.rdPara hafter
  · exact congrArg ParaBlock.wParFlag hafter
  · rw [← paraBlock_succ, hw] at hrec
    exact hrec

theorem applied_of_cleared (hready : ParaReady ins n) (h : ParaCleared ins n) :
    ParaApplied ins n := by
  obtain ⟨hup, hdown⟩ := (paraCleared_iff ins n).mp h
  obtain ⟨hne, hw⟩ := ((paraReady_iff ins n).mp hready).served hup hdown
  exact (applied_of_served hne hup hw).2

/-- With no write in the meantime the next tick starts where this one ends. -/
theorem blockAt_succ (h : (ins (n + 1)).modbus = id) : blockAt ins (n + 1) =
    (blockAt ins n).tick (firstAt ins n) (ins n).storedPara := by
  rw [← paraBlock_succ]
  unfold blockAt envAt Logic.environment
  rw [h]
  rfl

/-- A ready tick serves a pending write, or another command that is ahead of it. -/
theorem served_or_ahead {w : MBPara} (hready : ParaReady ins n) (h : (blockAt ins n).Pending w) :
    (paraWritten ins n = w ∧ ParaCleared ins n ∧ ParaApplied ins n) ∨
      ((blockAt ins n).candidate (firstAt ins n) = (blockAt ins n).rdPara ∧
        ((logicAt ins (n + 1)).aheadOfPara + 1 = (envAt ins n).aheadOfPara)) := by
  have hr := (paraReady_iff ins n).mp hready
  by_cases hc : (blockAt ins n).candidate (firstAt ins n) = (blockAt ins n).rdPara
  · refine .inr ⟨hc, ?_⟩
    have hfirst : firstAt ins n = false := by
      cases hf : firstAt ins n with
      | false => rfl
      | true =>
        rw [hf] at hr hc
        exact absurd hc (h.first_served hr)
    exact (logicAt ins n).aheadOfPara_tick (ins n) h.raised hfirst
  · have hw : (blockAt ins n).candidate (firstAt ins n) = (blockAt ins n).written := by
      have hcase := hr h.raised
      cases hf : firstAt ins n with
      | true => rfl
      | false =>
        rw [hf] at hcase hc
        exact hcase.resolve_left hc
    exact .inl ⟨h.written, applied_of_served hc h.raised hw⟩

/-- A pending write waits for the commands ahead of it, one each tick. -/
theorem served_within {w : MBPara} (hready : ∀ m, ParaReady ins m) (c n : Nat)
    (hahead : (envAt ins n).aheadOfPara = c) (h : (blockAt ins n).Pending w)
    (hquiet : ∀ j, n < j → j ≤ n + c → (ins j).modbus = id) :
    ∃ m, n ≤ m ∧ m ≤ n + c ∧ paraWritten ins m = w ∧ ParaCleared ins m ∧ ParaApplied ins m := by
  induction c generalizing n with
  | zero =>
    rcases served_or_ahead (hready n) h with hserved | ⟨-, hlt⟩
    · exact ⟨n, Nat.le_refl n, Nat.le_refl n, hserved⟩
    · omega
  | succ c ih =>
    rcases served_or_ahead (hready n) h with hserved | ⟨hc, hlt⟩
    · exact ⟨n, Nat.le_refl n, Nat.le_add_right n _, hserved⟩
    · have hid : (ins (n + 1)).modbus = id := hquiet (n + 1) (by omega) (by omega)
      have henv : (envAt ins (n + 1)).aheadOfPara = (logicAt ins (n + 1)).aheadOfPara := by
        unfold envAt Logic.environment Logic.aheadOfPara
        rw [hid]
        rfl
      have hnext : (blockAt ins (n + 1)).Pending w := by
        rw [blockAt_succ hid]
        exact h.passed hc
      obtain ⟨m, hlo, hhi, hm⟩ := ih (n + 1) (by omega) hnext
        fun j h₁ h₂ => hquiet j (by omega) (by omega)
      exact ⟨m, by omega, by omega, hm⟩

variable (ins)

/-- Until the start-up load `MB_Para` is `MB_RdPara`. -/
theorem paraBlock_loads (n : Nat) : (logicAt ins n).paraBlock.Loads := by
  induction n with
  | zero => exact fun _ => rfl
  | succ n ih =>
    rw [paraBlock_succ]
    exact ParaBlock.tick_loads ih

variable {ins}

/-- A write of other parameters than those in force is pending. -/
theorem pending_of_raised (hup : ParaRaised ins n)
    (hne : paraWritten ins n ≠ (logicAt ins n).lga.mbPara) :
    (blockAt ins n).Pending (paraWritten ins n) := by
  refine ⟨hup, rfl, ?_⟩
  have hl := paraBlock_loads ins n
  cases hload : (logicAt ins n).lga.rParFlag with
  | true =>
    have hsame : (logicAt ins n).lga.mbPara = (logicAt ins n).lga.mbRdPara := hl hload
    exact .inl fun he => hne (he.trans hsame.symm)
  | false => exact .inr ⟨hload, hne⟩

/-- In a run in which every tick is ready for the write it finds, every write of
the monitor parameters takes effect. -/
theorem writes_take_effect (ins : Nat → TickIn) (h : ∀ n, ParaReady ins n) : TakesEffect ins := by
  refine ⟨fun n hc => applied_of_cleared (h n) hc, ?_⟩
  intro n hup hne hquiet
  have hle := (envAt ins n).aheadOfPara_le
  obtain ⟨m, hlo, hhi, hm⟩ := served_within h _ n rfl (pending_of_raised hup hne)
    fun j h₁ h₂ => hquiet j h₁ (by omega)
  exact ⟨m, hlo, by omega, hm⟩

/-! ## Runs that are not ready -/

/-- A write of what `MB_RdPara` holds is not served, though it is not in force. -/
theorem stuck_of_first (hfirst : firstAt ins n = true) (hup : ParaRaised ins n)
    (hrd : paraWritten ins n = (logicAt ins n).lga.mbRdPara)
    (hne : paraWritten ins n ≠ (logicAt ins n).lga.mbPara) (hquiet : QuietAfter ins n) :
    ∀ m, n ≤ m → m < n + 16 → ¬ ParaCleared ins m := by
  have hload : (blockAt ins n).rParFlag = false := by
    rcases (pending_of_raised hup hne).new with h | ⟨h, -⟩
    · exact absurd hrd h
    · exact h
  have hcand : (blockAt ins n).candidate (firstAt ins n) = paraWritten ins n := by
    rw [hfirst]
    rfl
  have hstart := ParaBlock.stuck_tick (ins n).storedPara hload rfl hrd.symm hcand
  have hstuck : ∀ m, n + 1 ≤ m → m < n + 16 →
      (blockAt ins m).raised = true ∧ (blockAt ins m).Stuck (paraWritten ins n) := by
    intro m hm
    induction m, hm using Nat.le_induction with
    | base =>
      intro _
      rw [blockAt_succ (hquiet (n + 1) (by omega) (by omega))]
      exact ⟨hstart.1.trans hup, hstart.2⟩
    | succ m hm ih =>
      intro hlt
      obtain ⟨hr, hs⟩ := ih (by omega)
      rw [blockAt_succ (hquiet (m + 1) (by omega) hlt)]
      exact ⟨hs.tick.1.trans hr, hs.tick.2⟩
  intro m hlo hhi hc
  obtain ⟨hr, hdown⟩ := (paraCleared_iff ins m).mp hc
  have hkept : ((blockAt ins m).tick (firstAt ins m) (ins m).storedPara).raised = true := by
    rcases Nat.eq_or_lt_of_le hlo with rfl | hlt
    · exact hstart.1.trans hr
    · exact (hstuck m hlt hhi).2.tick.1.trans hr
  rw [hdown] at hkept
  exact absurd hkept (by decide)

/-- A tick that is not ready loses the write it finds. -/
theorem lost_of_not_ready (h : ¬ ParaReady ins n) (hquiet : QuietAfter ins n) :
    ¬ TakesEffect ins := by
  rintro ⟨hcleared, hserved⟩
  rw [ParaReady, Classical.not_imp] at h
  obtain ⟨hup, h⟩ := h
  split_ifs at h with hfirst
  · obtain ⟨hrd, hne⟩ := not_or.mp h
    obtain ⟨m, hlo, hhi, -, hc, -⟩ := hserved n hup hne hquiet
    exact stuck_of_first (decide_eq_true hfirst) hup (not_not.mp hrd) hne hquiet m hlo hhi hc
  · obtain ⟨hrd, hne⟩ := not_or.mp h
    have hno : firstAt ins n = false := decide_eq_false hfirst
    have hcand : (blockAt ins n).candidate (firstAt ins n) = (logicAt ins n).lga.mbWrPara := by
      rw [hno]
      rfl
    have hraised : (blockAt ins n).raised = true := hup
    have hnew : (blockAt ins n).candidate (firstAt ins n) ≠ (blockAt ins n).rdPara :=
      fun he => hrd (hcand.symm.trans he)
    obtain ⟨-, hdown, hrec⟩ := ParaBlock.tick_served (ins n).storedPara hraised hnew
    obtain ⟨-, -, -, hstored⟩ := hcleared n ((paraCleared_iff ins n).mpr ⟨hup, hdown⟩)
    rw [← paraBlock_succ, hcand] at hrec
    exact hne (Option.some.inj (hrec.symm.trans hstored))

/-! ## Runs that are ready -/

theorem synced_env (h : (logicAt ins n).paraBlock.Synced) : (blockAt ins n).Synced :=
  ⟨h.loaded, h.rd, h.wr⟩

/-- Once the copies agree they agree for good, and no later write is lost. -/
theorem ready_of_synced (h : (logicAt ins n).paraBlock.Synced) :
    ∀ m, n ≤ m → (logicAt ins m).paraBlock.Synced ∧ ParaReady ins m := by
  intro m hm
  induction m, hm using Nat.le_induction with
  | base => exact ⟨h, (paraReady_iff ins n).mpr (synced_env h).ready⟩
  | succ m _ ih =>
    have hs : (logicAt ins (m + 1)).paraBlock.Synced := by
      rw [paraBlock_succ]
      exact (synced_env ih.1).tick (firstAt_raised ins m)
    exact ⟨hs, (paraReady_iff ins (m + 1)).mpr (synced_env hs).ready⟩

end

/-- The touch screen writes the parameters `w`. -/
def writePara (w : MBPara) (h : Hmi) : Hmi :=
  { h with wAddrFlag := Function.update h.wAddrFlag .wMbPara true, mbWrPara := w }

/-- The parameters are written in tick 3 together with a charge command; nothing is
stored yet. -/
def writeRun (n : Nat) : TickIn :=
  if n = 3 then
    { quietTick with modbus := fun h => writePara (.replicate 28 7) (writeMode 0 1 h) }
  else quietTick

theorem writeRun_takes_effect : TakesEffect writeRun := by
  have hsync : (logicAt writeRun 1).paraBlock.Synced :=
    ⟨by decide +kernel, by decide +kernel, by decide +kernel⟩
  refine writes_take_effect writeRun fun n => ?_
  rcases Nat.eq_zero_or_pos n with rfl | hn
  · intro hup
    have hdown : (envAt writeRun 0).hmi.wAddrFlag .wMbPara = false := by decide +kernel
    exact absurd (hdown.symm.trans hup) (by decide)
  · exact (ready_of_synced hsync n hn).2

/-- The same with other parameters stored: the start-up load has put them into
`MB_WrPara`. -/
def staleRun (n : Nat) : TickIn := { writeRun n with storedPara := .replicate 28 1 }

/-- The stored parameters are applied in the place of the written ones. -/
theorem staleRun_lost : ¬ TakesEffect staleRun := by
  intro h
  have hc : ParaCleared staleRun 3 := ⟨by unfold ParaRaised; decide +kernel, by decide +kernel⟩
  have hp := (h.1 3 hc).1
  exact absurd hp (by decide +kernel)

end SC04Monitor.UserApp
