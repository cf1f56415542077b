import SC04Monitor.UserApp.ModulePara

/-! # What a parameter request of a module is compared with

`ParManage` compares the written parameters of a module with the read ones over the
size of the monitor's parameters, four bytes more than a module has. The four are the
first of the next member in memory: of the next module, or behind the last one of the
clock in `HMI` and of the first written block in `MB_LGA`. -/

namespace SC04Monitor.UserApp.Logic
open SC04Monitor.Lib.ByteMem SC04Monitor.Can

/-! ## The bytes compared -/

/-- Blocks of one length laid out one behind the other, read from the start of one. -/
theorem drop_flatMap {α : Type*} {c : Nat} (f : α → List UInt8) (hf : ∀ a, (f a).length = c)
    (n : Nat) (l : List α) : (l.flatMap f).drop (c * n) = (l.drop n).flatMap f := by
  induction n generalizing l with
  | zero => simp
  | succ n ih =>
    cases l with
    | nil => simp
    | cons a l =>
      have hc : c * (n + 1) = (f a).length + c * n := by rw [hf, Nat.mul_succ, Nat.add_comm]
      rw [List.flatMap_cons, hc, List.drop_length_add_append, List.drop_succ_cons]
      exact ih l

/-- The bytes behind the parameters that the touch screen has written for module `k`. -/
def wParaBehind (h : Hmi) (k : ModuleId) : List UInt8 :=
  ((((List.finRange 5).drop (k + 1)).flatMap fun j => (h.wPara j).toList) ++ h.time.toList).take 4

/-- The bytes behind the parameters that module `k` has sent. -/
def paraBehind (l : Lga) (k : ModuleId) : List UInt8 :=
  ((((List.finRange 5).drop (k + 1)).flatMap fun j => (l.cbPara j).toList) ++
    (List.finRange 5).flatMap fun j => (l.cbWPara j).toList).take 4

/-- 28 bytes from block `k` on: the block and four bytes of what is behind it. -/
theorem take_blocks (f : ModuleId → CBPara) (rest : List UInt8) (k : ModuleId) :
    ((((List.finRange 5).flatMap fun j => (f j).toList) ++ rest).drop (24 * k)).take 28 =
      (f k).toList ++
        ((((List.finRange 5).drop (k + 1)).flatMap fun j => (f j).toList) ++ rest).take 4 := by
  have hlen : ∀ j, (f j).toList.length = 24 := fun j => Vector.length_toList
  have hall : ((List.finRange 5).flatMap fun j => (f j).toList).length = 120 := by
    simp [List.length_flatMap, hlen]
  have hk : 24 * (k : Nat) ≤ ((List.finRange 5).flatMap fun j => (f j).toList).length := by
    rw [hall]
    omega
  have hcons : ∀ k : ModuleId,
      (List.finRange 5).drop k = k :: (List.finRange 5).drop (k + 1) := by decide
  rw [List.drop_append_of_le_length hk, drop_flatMap _ hlen, hcons, List.flatMap_cons,
    List.append_assoc]
  have h28 : 28 = (f k).toList.length + 4 := by rw [hlen]
  rw [h28, List.take_length_add_append]

theorem wParaBytes_eq (h : Hmi) (k : ModuleId) :
    wParaBytes h k = (h.wPara k).toList ++ wParaBehind h k :=
  take_blocks h.wPara h.time.toList k

theorem paraBytes_eq (l : Lga) (k : ModuleId) :
    paraBytes l k = (l.cbPara k).toList ++ paraBehind l k :=
  take_blocks l.cbPara _ k

/-- The comparison finds a difference in the parameters or behind them. -/
theorem paraBytes_ne_iff (h : Hmi) (l : Lga) (k : ModuleId) :
    wParaBytes h k ≠ paraBytes l k ↔
      h.wPara k ≠ l.cbPara k ∨ wParaBehind h k ≠ paraBehind l k := by
  rw [wParaBytes_eq, paraBytes_eq, ne_eq, List.append_eq_append_iff_of_size_eq_left (by simp),
    Vector.toList_inj]
  exact not_and_or

/-! ## One call of `ParManage` -/

/-- The same state with no message waiting to be sent. -/
def noneWaiting (s : Logic) : Logic := { s with can := { s.can with update := fun _ => false } }

/-- The `SendCan` calls of `ParManage`: the messages that wait afterwards where none
waited before. -/
def parManageSends (s : Logic) : FrameId → Bool := s.noneWaiting.parManage.can.update

/-- `ParManage` takes the same branch in both states. -/
def SameBranch (s t : Logic) : Prop :=
  s.parManageSends = t.parManageSends ∧
    s.parManage.hmi.wAddrFlag = t.parManage.hmi.wAddrFlag ∧
    s.parManage.parCnt = t.parManage.parCnt

/-- The states agree on the flags, the step counters and the parameters of module `k`. -/
structure AgreeOn (k : ModuleId) (s t : Logic) : Prop where
  flag : s.hmi.wAddrFlag = t.hmi.wAddrFlag
  parCnt : s.parCnt = t.parCnt
  wPara : s.hmi.wPara k = t.hmi.wPara k
  cbPara : s.lga.cbPara k = t.lga.cbPara k

variable {s t : Logic} {k : ModuleId}

/-- What a step for the module sends, lowers and counts. -/
theorem served_branch (h : s.Served k) :
    s.parManageSends = Function.update (fun _ => false)
        (if s.parCnt k = 0 then moduleSetPar k else moduleReadPar k) true ∧
      s.parManage.hmi.wAddrFlag = (if s.parCnt k = 0 then s.hmi.wAddrFlag
        else Function.update s.hmi.wAddrFlag (.wCbPara k) false) ∧
      s.parManage.parCnt = Function.update s.parCnt k (if s.parCnt k = 0 then 1 else 0) := by
  have hidle : s.noneWaiting.Served k := h
  unfold parManageSends
  by_cases h0 : s.parCnt k = 0
  · rw [parManage_set h h0, parManage_set hidle h0, if_pos h0, if_pos h0, if_pos h0]
    refine ⟨?_, rfl, rfl⟩
    exact sendCan_update (by rw [stdMsgTable_moduleSetPar]; rfl)
  · rw [parManage_read h h0, parManage_read hidle h0, if_neg h0, if_neg h0, if_neg h0]
    refine ⟨?_, rfl, rfl⟩
    exact sendCan_update (by rw [stdMsgTable_moduleReadPar]; rfl)

/-- Where the bytes agree `ParManage` does nothing. -/
theorem parManage_equal (hfind : HmiAddr.paras.find? s.hmi.wAddrFlag = some (.wCbPara k))
    (heq : wParaBytes s.hmi k = paraBytes s.lga k) : s.parManage = s := by
  unfold parManage
  rw [hfind]
  dsimp only
  rw [if_neg fun hne => hne heq]

theorem equal_sends (hfind : HmiAddr.paras.find? s.hmi.wAddrFlag = some (.wCbPara k))
    (heq : wParaBytes s.hmi k = paraBytes s.lga k) : s.parManageSends = fun _ => false := by
  have hidle : s.noneWaiting.parManage = s.noneWaiting := parManage_equal hfind heq
  unfold parManageSends
  rw [hidle]
  rfl

/-- The branches are told apart by what was sent. -/
theorem sameBranch_iff_served (h : AgreeOn k s t)
    (hfind : HmiAddr.paras.find? s.hmi.wAddrFlag = some (.wCbPara k)) :
    SameBranch s t ↔ (s.Served k ↔ t.Served k) := by
  have hfind' : HmiAddr.paras.find? t.hmi.wAddrFlag = some (.wCbPara k) := by rwa [← h.flag]
  have hequal : ∀ u : Logic, HmiAddr.paras.find? u.hmi.wAddrFlag = some (.wCbPara k) →
      ¬ u.Served k → wParaBytes u.hmi k = paraBytes u.lga k := by
    intro u hu hns
    exact not_not.mp fun hne => hns ⟨hu, hne⟩
  by_cases hs : s.Served k
  · obtain ⟨hsend, hflag, hcnt⟩ := served_branch hs
    by_cases ht : t.Served k
    · obtain ⟨hsend', hflag', hcnt'⟩ := served_branch ht
      refine iff_of_true ⟨?_, ?_, ?_⟩ (iff_of_true hs ht)
      · rw [hsend, hsend', h.parCnt]
      · rw [hflag, hflag', h.parCnt, h.flag]
      · rw [hcnt, hcnt', h.parCnt]
    · refine iff_of_false ?_ fun hi => ht (hi.mp hs)
      intro hb
      have hone := congrFun hb.1 (if s.parCnt k = 0 then moduleSetPar k else moduleReadPar k)
      rw [hsend, equal_sends hfind' (hequal t hfind' ht), Function.update_self] at hone
      exact Bool.false_ne_true hone.symm
  · have hseq := hequal s hfind hs
    by_cases ht : t.Served k
    · refine iff_of_false ?_ fun hi => hs (hi.mpr ht)
      intro hb
      have hone := congrFun hb.1 (if t.parCnt k = 0 then moduleSetPar k else moduleReadPar k)
      rw [(served_branch ht).1, equal_sends hfind hseq, Function.update_self] at hone
      exact Bool.false_ne_true hone
    · have hteq := hequal t hfind' ht
      refine iff_of_true ⟨?_, ?_, ?_⟩ (iff_of_false hs ht)
      · rw [equal_sends hfind hseq, equal_sends hfind' hteq]
      · rw [parManage_equal hfind hseq, parManage_equal hfind' hteq, h.flag]
      · rw [parManage_equal hfind hseq, parManage_equal hfind' hteq, h.parCnt]

/-- The decision for a module is made by its own parameters exactly if they differ, or if
what lies behind them agrees in both states or in neither. -/
theorem same_branch_iff (s t : Logic) (k : ModuleId) (h : AgreeOn k s t)
    (hfind : HmiAddr.paras.find? s.hmi.wAddrFlag = some (.wCbPara k)) :
    SameBranch s t ↔ s.hmi.wPara k ≠ s.lga.cbPara k ∨
      (wParaBehind s.hmi k = paraBehind s.lga k ↔ wParaBehind t.hmi k = paraBehind t.lga k) := by
  have hfind' : HmiAddr.paras.find? t.hmi.wAddrFlag = some (.wCbPara k) := by rwa [← h.flag]
  rw [sameBranch_iff_served h hfind]
  simp only [Served, hfind, hfind', true_and, paraBytes_ne_iff, ← h.wPara, ← h.cbPara]
  by_cases hown : s.hmi.wPara k ≠ s.lga.cbPara k
  · exact iff_of_true (iff_of_true (.inl hown) (.inl hown)) (.inl hown)
  · simp only [hown, false_or]
    exact not_iff_not

/-- The touch screen asks for the parameters that module 1 has, after it has written `v`
for module 2. -/
def sameParaRequest (v : CBPara) : Logic :=
  { Logic.init with hmi := writeWPara 0 (.replicate 24 0) (writeWPara 1 v Hmi.zero) }

/-- Where what was written for module 2 differs from its fifth byte on only. -/
theorem same_branch_far : SameBranch (sameParaRequest (.replicate 24 0))
    (sameParaRequest (Vector.ofFn fun i => if i.val < 4 then 0 else 7)) :=
  (same_branch_iff _ _ 0 ⟨rfl, rfl, rfl, rfl⟩ (by decide +kernel)).mpr
    (.inr (iff_of_true (by decide +kernel) (by decide +kernel)))

/-- What was written for module 2 decides whether module 1 is served. -/
theorem neighbour_decides :
    AgreeOn 0 (sameParaRequest (.replicate 24 0)) (sameParaRequest (.replicate 24 7)) ∧
      HmiAddr.paras.find? (sameParaRequest (.replicate 24 0)).hmi.wAddrFlag = some (.wCbPara 0) ∧
      ¬ SameBranch (sameParaRequest (.replicate 24 0)) (sameParaRequest (.replicate 24 7)) := by
  have hagree : AgreeOn 0 (sameParaRequest (.replicate 24 0)) (sameParaRequest (.replicate 24 7)) :=
    ⟨rfl, rfl, rfl, rfl⟩
  have hfind : HmiAddr.paras.find? (sameParaRequest (.replicate 24 0)).hmi.wAddrFlag =
      some (.wCbPara 0) := by decide +kernel
  refine ⟨hagree, hfind, ?_⟩
  rw [sameBranch_iff_served hagree hfind]
  intro hi
  have hserved : (sameParaRequest (.replicate 24 7)).Served 0 :=
    ⟨by decide +kernel, by decide +kernel⟩
  exact (hi.mpr hserved).2 (by decide +kernel)

end SC04Monitor.UserApp.Logic
