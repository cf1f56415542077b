import Mathlib.Algebra.Order.BigOperators.Group.List
import Mathlib.Algebra.Order.Ring.Nat
import SC04Monitor.UserApp.ParaCompare

/-! # Whether the parameter requests are all consumed

`HmiInputUpdate` and `ParManage` each serve the first raised flag of their table and may
leave it up. A request whose values are those it is compared with is left up for good, and
nothing behind it in the table is served. -/

namespace SC04Monitor.UserApp.Logic
open SC04Monitor.Lib.FlagScan SC04Monitor.Can

/-- `HmiInputUpdate; ParManage`, with nothing written in between and the same parameters
read back. -/
def requestStep (s : Logic) : Logic := s.hmiInputUpdate.parManage

/-- The flags of the parameters and of the clock are down. -/
def AllConsumed (s : Logic) : Prop :=
  ∀ a ∈ HmiAddr.paras ++ [.wMbRtc], s.hmi.wAddrFlag a = false

/-- How many flags are up. -/
def raisedCount (s : Logic) : Nat := HmiAddr.all.countP s.hmi.wAddrFlag

/-- The request of the monitor parameters brings nothing new: `MB_RdPara` holds what was
written, and what is in `MB_WrPara` where another command is served first. -/
def MbParaSame (s : Logic) : Prop :=
  s.hmi.mbWrPara = s.lga.mbRdPara ∧
    (s.hmiAddr = some .wMbPara ∨ s.lga.mbWrPara = s.lga.mbRdPara)

/-- `MB_LGA.Modue1_WPara` when the requests of the other modules are served. -/
def firstWPara (s : Logic) : CBPara :=
  if s.hmi.wAddrFlag (.wCbPara 0) then s.hmi.wPara 0 else s.lga.cbWPara 0

/-- `MB_LGA` when the request of a module is served. -/
def lgaServing (s : Logic) : Lga :=
  { s.lga with cbWPara := Function.update s.lga.cbWPara 0 s.firstWPara }

/-- The request of module `k` brings nothing new. -/
def CbParaSame (s : Logic) (k : ModuleId) : Prop :=
  wParaBytes s.hmi k = paraBytes s.lgaServing k

/-- Every raised request of parameters brings something new. -/
def AllNew (s : Logic) : Prop :=
  (s.hmi.wAddrFlag .wMbPara = true → ¬ s.MbParaSame) ∧
    ∀ k, s.hmi.wAddrFlag (.wCbPara k) = true → ¬ s.CbParaSame k

variable {s : Logic} {k : ModuleId}

/-! ## The bytes compared do not change -/

/-- Of the written parameters of the modules those of module 1 alone are compared. -/
theorem paraBytes_congr {l m : Lga} (hp : l.cbPara = m.cbPara) (hw : l.cbWPara 0 = m.cbWPara 0)
    (k : ModuleId) : paraBytes l k = paraBytes m k := by
  have hbehind : ∀ n : Lga, paraBehind n k = ((((List.finRange 5).drop (k + 1)).flatMap
      fun j => (n.cbPara j).toList) ++ (n.cbWPara 0).toList).take 4 := by
    intro n
    have hcons : List.finRange 5 = 0 :: (List.finRange 5).tail := rfl
    unfold paraBehind
    conv_lhs => enter [2, 2]; rw [hcons]
    rw [List.flatMap_cons, ← List.append_assoc, List.take_append_of_le_length]
    rw [List.length_append, Vector.length_toList]
    omega
  rw [paraBytes_eq, paraBytes_eq, hbehind l, hbehind m, hp, hw]

/-- Behind the parameters of module 1 lie those of the next one. -/
theorem paraBytes_first {l m : Lga} (hp : l.cbPara = m.cbPara) :
    paraBytes l 0 = paraBytes m 0 := by
  have hbehind : ∀ n : Lga, paraBehind n 0 = (((List.finRange 5).tail).flatMap
      fun j => (n.cbPara j).toList).take 4 := by
    intro n
    refine List.take_append_of_le_length ?_
    simp [List.finRange_succ]
  rw [paraBytes_eq, paraBytes_eq, hbehind l, hbehind m, hp]

/-- When `ParManage` finds the request of a module it compares the bytes of `lgaServing`. -/
theorem paraBytes_serving (hfind : HmiAddr.paras.find? s.hmi.wAddrFlag = some (.wCbPara k)) :
    paraBytes s.lgaServing k = paraBytes s.lga k := by
  by_cases hk : k = 0
  · subst hk
    exact paraBytes_first rfl
  · have hmem : ∀ k : ModuleId, k ≠ 0 →
        HmiAddr.wCbPara 0 ∈ before HmiAddr.paras (.wCbPara k) := by decide
    have hdown : s.hmi.wAddrFlag (.wCbPara 0) = false := down_before hfind (hmem k hk)
    have hsame : s.lgaServing.cbWPara 0 = s.lga.cbWPara 0 := by
      unfold lgaServing firstWPara
      rw [hdown]
      exact Function.update_self (0 : ModuleId) (s.lga.cbWPara 0) s.lga.cbWPara
    have hpara : s.lgaServing.cbPara = s.lga.cbPara := rfl
    exact paraBytes_congr hpara hsame k

theorem served_iff (hfind : HmiAddr.paras.find? s.hmi.wAddrFlag = some (.wCbPara k)) :
    s.Served k ↔ ¬ s.CbParaSame k := by
  unfold Served CbParaSame
  rw [paraBytes_serving hfind]
  exact ⟨fun h => h.2, fun h => ⟨hfind, h⟩⟩

/-! ## A round keeps what is compared -/

theorem setInputOf_lga (s : Logic) (c : UInt16) (f : InputStyp → InputStyp) :
    (s.setInputOf c f).lga.cbPara = s.lga.cbPara ∧
      (s.setInputOf c f).lga.cbWPara = s.lga.cbWPara := by
  unfold setInputOf
  split <;> exact ⟨rfl, rfl⟩

theorem hmiInputUpdate_lga (s : Logic) : s.hmiInputUpdate.lga.cbPara = s.lga.cbPara ∧
    s.hmiInputUpdate.lga.cbWPara = s.lga.cbWPara := by
  unfold hmiInputUpdate
  dsimp only
  split
  · exact setInputOf_lga s _ _
  · exact setInputOf_lga { s with lga := { s.lga with sysModeSet := sysModeCharge } } _ _
  all_goals exact ⟨rfl, rfl⟩

theorem hmiInputUpdate_wParaBytes (s : Logic) (k : ModuleId) :
    wParaBytes s.hmiInputUpdate.hmi k = wParaBytes s.hmi k := by
  rcases s.hmiInputUpdate_hmi with ⟨a, -, -, h⟩ | ⟨-, h⟩
  · rw [h]
    rfl
  · rw [h]

theorem parManage_wParaBytes (s : Logic) (k : ModuleId) :
    wParaBytes s.parManage.hmi k = wParaBytes s.hmi k := by
  unfold parManage
  split
  · split_ifs <;> rfl
  · dsimp only
    split_ifs <;> rfl
  · rfl

theorem parManage_cbPara (s : Logic) : s.parManage.lga.cbPara = s.lga.cbPara := by
  unfold parManage
  split
  · split_ifs <;> rfl
  · dsimp only
    split_ifs <;> rfl
  · rfl

theorem parManage_cbWPara (h : ¬ s.Served k) :
    s.parManage.lga.cbWPara k = s.lga.cbWPara k := by
  unfold parManage
  split
  · split_ifs <;> rfl
  next j hfind =>
    dsimp only
    by_cases hd : wParaBytes s.hmi j ≠ paraBytes s.lga j
    · have hk : k ≠ j := by
        rintro rfl
        exact h ⟨hfind, hd⟩
      rw [if_pos hd]
      split_ifs
      · exact Function.update_of_ne hk _ _
      · exact Function.update_of_ne hk _ _
    · rw [if_neg hd]
  · rfl

/-- A served request puts its parameters into `MB_LGA`. -/
theorem parManage_cbWPara_served (h : s.Served k) :
    s.parManage.lga.cbWPara k = s.hmi.wPara k := by
  by_cases h0 : s.parCnt k = 0
  · rw [parManage_set h h0]
    exact Function.update_self _ _ _
  · rw [parManage_read h h0]
    exact Function.update_self _ _ _

theorem hmiInputUpdate_firstWPara (s : Logic) : s.hmiInputUpdate.firstWPara = s.firstWPara := by
  unfold firstWPara
  rw [hmiInputUpdate_flag, hmiInputUpdate_wPara, s.hmiInputUpdate_lga.2]

theorem parManage_firstWPara (s : Logic) : s.parManage.firstWPara = s.firstWPara := by
  unfold firstWPara
  rw [parManage_wPara]
  by_cases h : s.Served 0
  · have hup : s.hmi.wAddrFlag (.wCbPara 0) = true := List.find?_some h.1
    rw [parManage_cbWPara_served h, hup, if_pos rfl, ite_self]
  · rw [(parManage_idle h).2, parManage_cbWPara h]

theorem cbParaSame_congr {t : Logic} (hw : wParaBytes t.hmi k = wParaBytes s.hmi k)
    (hp : t.lga.cbPara = s.lga.cbPara) (hf : t.firstWPara = s.firstWPara) :
    t.CbParaSame k ↔ s.CbParaSame k := by
  have hp' : t.lgaServing.cbPara = s.lgaServing.cbPara := hp
  have hc : t.lgaServing.cbWPara 0 = s.lgaServing.cbWPara 0 := by
    unfold lgaServing
    rw [hf]
    dsimp only
    rw [Function.update_self, Function.update_self]
  unfold CbParaSame
  rw [hw, paraBytes_congr hp' hc]

theorem hmiInputUpdate_cbParaSame (s : Logic) (k : ModuleId) :
    s.hmiInputUpdate.CbParaSame k ↔ s.CbParaSame k :=
  cbParaSame_congr (s.hmiInputUpdate_wParaBytes k) s.hmiInputUpdate_lga.1
    s.hmiInputUpdate_firstWPara

theorem parManage_cbParaSame (s : Logic) (k : ModuleId) :
    s.parManage.CbParaSame k ↔ s.CbParaSame k :=
  cbParaSame_congr (s.parManage_wParaBytes k) s.parManage_cbPara s.parManage_firstWPara

/-- What a request of a module is compared with stays the same. -/
theorem requestStep_cbParaSame (s : Logic) (k : ModuleId) :
    s.requestStep.CbParaSame k ↔ s.CbParaSame k :=
  (parManage_cbParaSame _ k).trans (s.hmiInputUpdate_cbParaSame k)

/-! ## Which flags a round lowers -/

/-- A request of a module that brings nothing new is never lowered. -/
theorem cbPara_stays (hup : s.hmi.wAddrFlag (.wCbPara k) = true) (h : s.CbParaSame k) :
    s.requestStep.hmi.wAddrFlag (.wCbPara k) = true := by
  have hsame : s.hmiInputUpdate.CbParaSame k := (s.hmiInputUpdate_cbParaSame k).mpr h
  have hidle : ¬ s.hmiInputUpdate.Served k := fun hs => (served_iff hs.1).mp hs hsame
  unfold requestStep
  rw [(parManage_idle hidle).2, hmiInputUpdate_flag, hup]

theorem requestStep_paraBlock (s : Logic) :
    s.requestStep.paraBlock = (s.paraBlock.take s.paraFirst).manage := by
  unfold requestStep
  rw [parManage_paraBlock, hmiInputUpdate_paraBlock]

/-- In these terms the request of the monitor parameters brings nothing new. -/
theorem mbParaSame_iff (s : Logic) : s.MbParaSame ↔
    s.paraBlock.written = s.paraBlock.rdPara ∧ s.paraBlock.candidate s.paraFirst =
      s.paraBlock.rdPara := by
  unfold MbParaSame ParaBlock.candidate paraFirst
  by_cases hf : s.hmiAddr = some .wMbPara
  · simp only [hf, true_or, and_true, decide_true, if_true]
    exact ⟨fun h => ⟨h, h⟩, fun h => h.1⟩
  · simp only [hf, false_or, decide_false, Bool.false_eq_true, if_false]
    rfl

/-- A request of the monitor parameters that brings nothing new is never lowered. -/
theorem mbPara_stays (hup : s.hmi.wAddrFlag .wMbPara = true) (h : s.MbParaSame) :
    s.requestStep.hmi.wAddrFlag .wMbPara = true ∧ s.requestStep.MbParaSame := by
  obtain ⟨hw, hc⟩ := s.mbParaSame_iff.mp h
  obtain ⟨hr, hwr, hrd, -⟩ := ParaBlock.take_rest s.paraFirst s.paraBlock
  have hblock : s.requestStep.paraBlock = s.paraBlock.take s.paraFirst := by
    rw [requestStep_paraBlock, ParaBlock.manage, if_neg]
    rintro ⟨-, hne⟩
    rw [ParaBlock.take_wrPara, hrd] at hne
    exact hne hc
  refine ⟨?_, s.requestStep.mbParaSame_iff.mpr ⟨?_, ?_⟩⟩
  · exact (congrArg ParaBlock.raised hblock).trans (hr.trans hup)
  · rw [hblock, hwr, hrd, hw]
  · unfold ParaBlock.candidate
    split_ifs
    · rw [hblock, hwr, hrd, hw]
    · rw [hblock, ParaBlock.take_wrPara, hrd, hc]

/-- One that brings something new is lowered or does so after the round as well. -/
theorem mbPara_new (hup : s.hmi.wAddrFlag .wMbPara = true) (h : ¬ s.MbParaSame) :
    s.requestStep.hmi.wAddrFlag .wMbPara = false ∨ ¬ s.requestStep.MbParaSame := by
  obtain ⟨hr, hwr, hrd, -⟩ := ParaBlock.take_rest s.paraFirst s.paraBlock
  have hblock := s.requestStep_paraBlock
  by_cases hc : s.paraBlock.candidate s.paraFirst = s.paraBlock.rdPara
  · right
    intro hsame
    have hwritten := (s.requestStep.mbParaSame_iff.mp hsame).1
    rw [hblock, ParaBlock.manage, if_neg (by rw [ParaBlock.take_wrPara, hrd]; exact fun hn => hn.2 hc),
      hwr, hrd] at hwritten
    exact h (s.mbParaSame_iff.mpr ⟨hwritten, hc⟩)
  · left
    rw [ParaBlock.manage, if_pos ⟨hr.trans hup, by rw [ParaBlock.take_wrPara, hrd]; exact hc⟩]
      at hblock
    exact congrArg ParaBlock.raised hblock

/-- `ParManage` lowers flags and raises none. -/
theorem parManage_raised {a : HmiAddr} (h : s.parManage.hmi.wAddrFlag a = true) :
    s.hmi.wAddrFlag a = true := by
  have hlower : ∀ (t : Logic) (b : HmiAddr), (t.lower b).hmi.wAddrFlag a = true →
      t.hmi.wAddrFlag a = true := by
    intro t b hb
    rw [lower_flag] at hb
    split_ifs at hb
    exact hb
  revert h
  unfold parManage
  split
  · split_ifs
    · exact hlower _ _
    · exact id
  · dsimp only
    split_ifs
    · exact id
    · exact hlower _ _
    · exact id
  · exact id

theorem hmiInputUpdate_raised {a : HmiAddr} (h : s.hmiInputUpdate.hmi.wAddrFlag a = true) :
    s.hmi.wAddrFlag a = true := by
  rcases s.hmiInputUpdate_hmi with ⟨b, -, -, hb⟩ | ⟨-, hb⟩
  · rw [hb] at h
    by_contra hdown
    have hstill : (s.hmi.lower b).wAddrFlag a = false := by
      by_cases hab : a = b
      · subst hab
        exact Function.update_self _ _ _
      · exact (Function.update_of_ne hab _ _).trans (by simpa using hdown)
    rw [hstill] at h
    exact absurd h (by decide)
  · rwa [hb] at h

theorem requestStep_raised {a : HmiAddr} (h : s.requestStep.hmi.wAddrFlag a = true) :
    s.hmi.wAddrFlag a = true :=
  hmiInputUpdate_raised (parManage_raised h)

/-- Requests that all bring something new do so after every round. -/
theorem AllNew.step (h : s.AllNew) : s.requestStep.AllNew := by
  refine ⟨fun hup => ?_, fun k hup => ?_⟩
  · rcases mbPara_new (requestStep_raised hup) (h.1 (requestStep_raised hup)) with hdown | hnew
    · rw [hdown] at hup
      exact absurd hup (by decide)
    · exact hnew
  · rw [requestStep_cbParaSame]
    exact h.2 k (requestStep_raised hup)

/-! ## A round takes something off what is left to do -/

/-- How many rounds serve the request at `a`. -/
def need (s : Logic) (a : HmiAddr) : Nat :=
  if s.hmi.wAddrFlag a then
    match a with
    | .wCbPara k => if s.parCnt k = 0 then 2 else 1
    | _ => 1
  else 0

/-- How many rounds all requests need. -/
def needed (s : Logic) : Nat := (HmiAddr.all.map s.need).sum

theorem need_of_down {a : HmiAddr} (h : s.hmi.wAddrFlag a = false) : s.need a = 0 := by
  unfold need
  rw [h]
  rfl

theorem need_pos {a : HmiAddr} (h : s.hmi.wAddrFlag a = true) : 0 < s.need a := by
  unfold need
  rw [if_pos h]
  split
  · split_ifs <;> decide
  · exact Nat.one_pos

theorem need_le_two (s : Logic) (a : HmiAddr) :
    s.need a ≤ if s.hmi.wAddrFlag a then 2 else 0 := by
  unfold need
  split_ifs
  · split
    · split_ifs <;> decide
    · decide
  · exact Nat.le_refl 0

theorem needed_le (s : Logic) : s.needed ≤ 2 * s.raisedCount := by
  unfold needed raisedCount
  induction HmiAddr.all with
  | nil => exact Nat.le_refl 0
  | cons a l ih =>
    have ha := s.need_le_two a
    rw [List.map_cons, List.sum_cons, List.countP_cons]
    split_ifs at ha ⊢ <;> omega

theorem need_mono {t : Logic} {a : HmiAddr}
    (hflag : t.hmi.wAddrFlag a = true → s.hmi.wAddrFlag a = true)
    (hcnt : ∀ k, a = .wCbPara k → t.parCnt k = s.parCnt k) : t.need a ≤ s.need a := by
  cases ht : t.hmi.wAddrFlag a with
  | false =>
    rw [need_of_down ht]
    exact Nat.zero_le _
  | true =>
    unfold need
    rw [ht, hflag ht]
    cases a with
    | wCbPara k =>
      dsimp only
      rw [hcnt k rfl]
    | _ => exact Nat.le_refl 1

/-- A step for a module takes one off its need. -/
theorem parManage_need_served (h : s.Served k) :
    s.parManage.need (.wCbPara k) < s.need (.wCbPara k) := by
  have hup : s.hmi.wAddrFlag (.wCbPara k) = true := List.find?_some h.1
  by_cases h0 : s.parCnt k = 0
  · have hcnt : s.parManage.parCnt k = 1 := by
      rw [parManage_set h h0]
      exact Function.update_self _ _ _
    have hflag : s.parManage.hmi.wAddrFlag (.wCbPara k) = true := by
      rw [parManage_set h h0]
      exact hup
    simp [need, hup, h0, hcnt, hflag]
  · have hdown : s.parManage.hmi.wAddrFlag (.wCbPara k) = false := by
      rw [parManage_read h h0, lower_flag, if_pos rfl]
    rw [need_of_down hdown]
    exact need_pos hup

theorem parManage_need (s : Logic) (a : HmiAddr) : s.parManage.need a ≤ s.need a := by
  by_cases hserved : ∃ k, a = .wCbPara k ∧ s.Served k
  · obtain ⟨k, rfl, hs⟩ := hserved
    exact Nat.le_of_lt (parManage_need_served hs)
  · refine need_mono parManage_raised fun k hk => ?_
    exact (parManage_idle fun hs => hserved ⟨k, hk, hs⟩).1

theorem hmiInputUpdate_need (s : Logic) (a : HmiAddr) : s.hmiInputUpdate.need a ≤ s.need a :=
  need_mono hmiInputUpdate_raised fun k _ => congrFun s.hmiInputUpdate_parCnt k

theorem requestStep_need (s : Logic) (a : HmiAddr) : s.requestStep.need a ≤ s.need a :=
  (parManage_need _ a).trans (s.hmiInputUpdate_need a)

/-- The flag that `HmiInputUpdate` finds is the first of the parameters too. -/
theorem paras_find? {a : HmiAddr} (h : s.hmiAddr = some a) (ha : a ∈ HmiAddr.paras) :
    HmiAddr.paras.find? s.hmi.wAddrFlag = some a := by
  have hnot : ∀ l : List HmiAddr, (∀ b ∈ l, b ∉ HmiAddr.paras) →
      l.find? s.hmi.wAddrFlag ≠ some a := by
    intro l hl hfind
    exact hl a (List.mem_of_find?_eq_some hfind) ha
  unfold hmiAddr HmiAddr.all at h
  rw [List.find?_append, List.find?_append] at h
  rcases Option.or_eq_some_iff.mp h with h | ⟨-, h⟩
  · rcases Option.or_eq_some_iff.mp h with h | ⟨-, h⟩
    · exact absurd h (hnot _ (by decide))
    · exact h
  · exact absurd h (hnot _ (by decide))

/-- The first raised request takes a step. -/
theorem requestStep_first {a : HmiAddr} (hnew : s.AllNew) (h : s.hmiAddr = some a) :
    s.requestStep.need a < s.need a := by
  have hup : s.hmi.wAddrFlag a = true := List.find?_some h
  by_cases ha : a ∈ HmiAddr.paras
  · have hhmi : s.hmiInputUpdate.hmi = s.hmi := by
      rcases s.hmiInputUpdate_hmi with ⟨b, hb, hnot, -⟩ | ⟨-, hsame⟩
      · rw [Option.some.inj (hb.symm.trans h)] at hnot
        exact absurd ha hnot
      · exact hsame
    have hfind := paras_find? h ha
    rw [← hhmi] at hfind
    rcases List.mem_cons.mp ha with rfl | ha
    · have hcand : ¬ s.paraBlock.candidate s.paraFirst = s.paraBlock.rdPara := by
        intro hc
        refine hnew.1 hup (s.mbParaSame_iff.mpr ⟨?_, hc⟩)
        have hfirst : s.paraFirst = true := decide_eq_true h
        rw [hfirst] at hc
        exact hc
      obtain ⟨hr, -, hrd, -⟩ := ParaBlock.take_rest s.paraFirst s.paraBlock
      have hblock := s.requestStep_paraBlock
      rw [ParaBlock.manage,
        if_pos ⟨hr.trans hup, by rw [ParaBlock.take_wrPara, hrd]; exact hcand⟩] at hblock
      rw [need_of_down (congrArg ParaBlock.raised hblock)]
      exact need_pos hup
    · obtain ⟨k, -, rfl⟩ := List.mem_map.mp ha
      have hserved : s.hmiInputUpdate.Served k := by
        rw [served_iff hfind, hmiInputUpdate_cbParaSame]
        exact hnew.2 k hup
      exact (parManage_need_served hserved).trans_le (s.hmiInputUpdate_need _)
  · have hdown : s.requestStep.hmi.wAddrFlag a = false := by
      have hhmi := hmiInputUpdate_served h ha
      rw [requestStep, parManage_flag ha, hhmi]
      exact Function.update_self _ _ _
    rw [need_of_down hdown]
    exact need_pos hup

theorem needed_eq_zero : s.needed = 0 ↔ ∀ a, s.hmi.wAddrFlag a = false := by
  have hall : ∀ a, a ∈ HmiAddr.all := by
    intro a
    cases a with
    | wCbPara k =>
      revert k
      decide
    | _ => decide
  unfold needed
  rw [List.sum_eq_zero_iff, List.forall_mem_map]
  constructor
  · intro h a
    by_contra hup
    have hpos := need_pos (s := s) (a := a) (by simpa using hup)
    rw [h a (hall a)] at hpos
    exact absurd hpos (by decide)
  · intro h a _
    exact need_of_down (h a)

/-- A round takes one off what is needed. -/
theorem needed_step (hnew : s.AllNew) : s.requestStep.needed ≤ s.needed - 1 := by
  cases h : s.hmiAddr with
  | some a =>
    have hlt : s.requestStep.needed < s.needed := by
      refine List.sum_lt_sum _ _ (fun b _ => s.requestStep_need b) ⟨a, ?_, requestStep_first hnew h⟩
      exact List.mem_of_find?_eq_some h
    omega
  | none =>
    have hle : s.requestStep.needed ≤ s.needed :=
      List.sum_le_sum fun b _ => s.requestStep_need b
    have hzero : s.needed = 0 := by
      unfold needed
      rw [List.sum_eq_zero_iff, List.forall_mem_map]
      intro a ha
      have hdown := List.find?_eq_none.mp h a ha
      exact need_of_down (by simpa using hdown)
    omega

/-- All requests are consumed within two rounds for each, and stay so, exactly if each of
them brings something new. -/
theorem requests_consumed_iff (s : Logic) :
    (∀ t, 2 * s.raisedCount ≤ t → AllConsumed (requestStep^[t] s)) ↔ s.AllNew := by
  constructor
  · intro h
    have hlast := h (2 * s.raisedCount) (Nat.le_refl _)
    refine ⟨fun hup hsame => ?_, fun k hup hsame => ?_⟩
    · have hstuck : ∀ u : Logic, u.hmi.wAddrFlag .wMbPara = true ∧ u.MbParaSame →
          u.requestStep.hmi.wAddrFlag .wMbPara = true ∧ u.requestStep.MbParaSame :=
        fun u hu => mbPara_stays hu.1 hu.2
      have hstill := iterate_keeps hstuck ⟨hup, hsame⟩ (2 * s.raisedCount)
      rw [hlast .wMbPara (by decide)] at hstill
      exact absurd hstill.1 (by decide)
    · have hstuck : ∀ u : Logic, u.hmi.wAddrFlag (.wCbPara k) = true ∧ u.CbParaSame k →
          u.requestStep.hmi.wAddrFlag (.wCbPara k) = true ∧ u.requestStep.CbParaSame k :=
        fun u hu => ⟨cbPara_stays hu.1 hu.2, (requestStep_cbParaSame u k).mpr hu.2⟩
      have hstill := iterate_keeps hstuck ⟨hup, hsame⟩ (2 * s.raisedCount)
      rw [hlast (.wCbPara k) (List.mem_append_left _ (wCbPara_mem_paras k))] at hstill
      exact absurd hstill.1 (by decide)
  · intro hnew t ht a _
    have hzero := weight_used_up (P := AllNew) (fun u hu => hu.step)
      (fun u hu => needed_step hu) hnew (s.needed_le.trans ht)
    exact needed_eq_zero.mp hzero a

/-- The first raised request of a module, if it brings nothing new, stops the rounds. -/
theorem requestStep_fixed (h : s.hmiAddr = some (.wCbPara k)) (hsame : s.CbParaSame k) :
    s.requestStep = s := by
  have hinput : s.hmiInputUpdate = s := by
    unfold hmiInputUpdate
    rw [h]
  have hfind := paras_find? h (wCbPara_mem_paras k)
  unfold requestStep
  rw [hinput]
  refine parManage_equal hfind ?_
  rw [← paraBytes_serving hfind]
  exact hsame

/-- The touch screen writes the parameters that module 1 has, new ones for module 3 and
the clock. -/
def sameParaRun (n : Nat) : TickIn :=
  if n = 0 then
    { quietTick with modbus := fun h =>
        { writeWPara 0 (.replicate 24 0) (writeWPara 2 (.replicate 24 7) h) with
          wAddrFlag := fun a => a = .wCbPara 0 || a = .wCbPara 2 || a = .wMbRtc } }
  else quietTick

/-- The request for module 1 is never consumed, and those behind it are never served. -/
theorem sameParaRun_stuck :
    ¬ (∀ t, 2 * (envAt sameParaRun 0).raisedCount ≤ t →
      AllConsumed (requestStep^[t] (envAt sameParaRun 0))) ∧
    ∀ t a, a = .wCbPara 0 ∨ a = .wCbPara 2 ∨ a = .wMbRtc →
      (requestStep^[t] (envAt sameParaRun 0)).hmi.wAddrFlag a = true := by
  have hfixed : (envAt sameParaRun 0).requestStep = envAt sameParaRun 0 :=
    requestStep_fixed (k := 0) (by decide +kernel) (by unfold CbParaSame; decide +kernel)
  have hiter : ∀ t, requestStep^[t] (envAt sameParaRun 0) = envAt sameParaRun 0 :=
    fun t => Function.iterate_fixed hfixed t
  have hup : ∀ a, a = .wCbPara 0 ∨ a = .wCbPara 2 ∨ a = .wMbRtc →
      (envAt sameParaRun 0).hmi.wAddrFlag a = true := by
    rintro a (rfl | rfl | rfl) <;> decide +kernel
  refine ⟨fun h => ?_, fun t a ha => by rw [hiter t]; exact hup a ha⟩
  have hlast := h _ (Nat.le_refl _) (.wCbPara 0) (by decide)
  rw [hiter, hup _ (.inl rfl)] at hlast
  exact absurd hlast (by decide)

end SC04Monitor.UserApp.Logic
