import SC04Monitor.UserApp.FaultRun

/-! # Communication loss

`FaultAnalyse` then `fault_Run`, call after call, and the warnings
`WN_CAN_MxCx` and `WN_AD_LOST` for the inputs `CanFault` and `AdFault`. -/

namespace SC04Monitor.UserApp
open SC04Monitor.Lib.Run SC04Monitor.Lib.Scan SC04Monitor.Lib.Debounce

/-! ## One call of `FaultAnalyse` -/

theorem Check.run_of_ne {c : Check} {k : FaultId} (h : c.fault ≠ k) (mask : FaultId → UInt16) :
    Check.run mask c k = mask k := by
  unfold Check.run
  split_ifs
  · exact Function.update_of_ne h.symm _ _
  · exact Function.update_of_ne h.symm _ _
  · rfl

theorem Check.run_of (i : FaultId) (b : Bool) (mask : FaultId → UInt16) :
    Check.run mask (.of i b) i = if b then faultMaskSet else 0 := by
  cases b <;> simp [Check.run, Check.of]

/-- The faults that nothing tests: `WN_AD_LOST`, `WN_PARA_FAIL`, `WN_ADJUST_FAIL`,
`res1` and `res2`. -/
def untested : List FaultId := [wnAdLost, 23, 24, 30, 31]

/-- `FaultAnalyse` tests the faults in the order of their indices, `WN_CAN_MxCx`
twice. -/
theorem checks_fault (i : FaultIn) :
    (checks i).map Check.fault =
      wnCanMxCx :: (List.finRange ftMax).filter fun k => k ∉ untested := rfl

/-- The tests after the first two are about other faults. -/
theorem checks_eq (i : FaultIn) :
    ∃ rest, checks i = .of wnCanMxCx i.info.canFault :: .of wnCanMxCx i.info.adFault :: rest ∧
      ∀ c ∈ rest, c.fault ≠ wnCanMxCx ∧ c.fault ≠ wnAdLost := by
  have hids : ∀ k ∈ ((List.finRange ftMax).filter fun k => k ∉ untested).tail,
      k ≠ wnCanMxCx ∧ k ≠ wnAdLost := by decide +kernel
  refine ⟨(checks i).tail.tail, rfl, fun c hc => hids _ ?_⟩
  have hmem : c.fault ∈ ((checks i).map Check.fault).tail.tail := by
    rw [← List.map_tail, ← List.map_tail]
    exact List.mem_map_of_mem hc
  rw [checks_fault] at hmem
  exact hmem

theorem foldl_run_of_ne {k : FaultId} {l : List Check} (h : ∀ c ∈ l, c.fault ≠ k)
    (mask : FaultId → UInt16) : l.foldl Check.run mask k = mask k :=
  scan_frame (fun mask : FaultId → UInt16 => mask k)
    (fun c hc mask => Check.run_of_ne (h c hc) mask) mask

/-- The second test undoes the first. -/
theorem faultAnalyse_canMxCx (i : FaultIn) (f : FaultType) :
    (faultAnalyse i f).faultMask wnCanMxCx = if i.info.adFault then faultMaskSet else 0 := by
  obtain ⟨rest, heq, hrest⟩ := checks_eq i
  unfold faultAnalyse
  dsimp only
  rw [heq, List.foldl_cons, List.foldl_cons, foldl_run_of_ne fun c hc => (hrest c hc).1,
    Check.run_of]

/-- No test writes the mask of the lost AD board. -/
theorem faultAnalyse_adLost (i : FaultIn) (f : FaultType) :
    (faultAnalyse i f).faultMask wnAdLost = f.faultMask wnAdLost := by
  obtain ⟨rest, heq, hrest⟩ := checks_eq i
  have hne : wnCanMxCx ≠ wnAdLost := by decide
  unfold faultAnalyse
  dsimp only
  rw [heq, List.foldl_cons, List.foldl_cons, foldl_run_of_ne fun c hc => (hrest c hc).2,
    Check.run_of_ne hne, Check.run_of_ne hne]

/-- The masks of the two warnings are the two inputs. -/
def CommMasks (i : FaultIn) (f : FaultType) : Prop :=
  (f.faultMask wnCanMxCx = faultMaskSet ↔ i.info.canFault = true) ∧
    (f.faultMask wnAdLost = faultMaskSet ↔ i.info.adFault = true)

/-- The inputs agree, and the mask that is never written has the right value
already. -/
def MasksAgree (i : FaultIn) (f : FaultType) : Prop :=
  i.info.canFault = i.info.adFault ∧
    (f.faultMask wnAdLost = faultMaskSet ↔ i.info.adFault = true)

theorem commMasks_iff (i : FaultIn) (f : FaultType) :
    CommMasks i (faultAnalyse i f) ↔ MasksAgree i f := by
  have hne : (0 : UInt16) ≠ faultMaskSet := by decide
  unfold CommMasks MasksAgree
  rw [faultAnalyse_canMxCx, faultAnalyse_adLost]
  refine and_congr_left fun _ => ?_
  cases i.info.canFault <;> cases i.info.adFault <;> simp [hne]

/-! ## Runs -/

/-- `FaultAnalyse` and then `fault_Run`. -/
def analyseRun (f : FaultType) (i : FaultIn) : FaultType := (faultAnalyse i f).faultRun

section
variable (ins : Nat → FaultIn)

/-- `FAULT` before call `n`, from its initial value. -/
def analysedAt (n : Nat) : FaultType := stateAt analyseRun FaultType.zero ins n

/-- The masks that `fault_Run` finds in call `n`. -/
def masksAt (n : Nat) : FaultId → UInt16 := (faultAnalyse (ins n) (analysedAt ins n)).faultMask

/-- A flag has been set for longer than the confirmation time of fault `k`, up to
and including call `n`. -/
def HeldFor (flag : SysInfo → Bool) (k : FaultId) (n : Nat) : Prop :=
  conTicks k ≤ n ∧ ∀ j, n - conTicks k ≤ j → j ≤ n → flag (ins j).info = true

/-- After call `n` each of the two warnings is set if its input was held. -/
def WarnsAt (n : Nat) : Prop :=
  (HeldFor ins SysInfo.canFault wnCanMxCx n → (analysedAt ins (n + 1)).bit wnCanMxCx = true) ∧
    (HeldFor ins SysInfo.adFault wnAdLost n → (analysedAt ins (n + 1)).bit wnAdLost = true)

end

section
variable {ins : Nat → FaultIn}

theorem analysedAt_eq (n : Nat) : analysedAt ins n = faultAt (masksAt ins) n := by
  induction n with
  | zero => rfl
  | succ n ih =>
    rw [faultAt_succ, ← ih]
    rfl

theorem faultRun_faultMask (f : FaultType) : f.faultRun.faultMask = f.faultMask :=
  scan_frame (fun g : FaultType => g.faultMask) (fun i _ g => g.runStep_faultMask i) f

/-- The mask of the lost AD board keeps its initial value. -/
theorem analysedAt_adLost (n : Nat) : (analysedAt ins n).faultMask wnAdLost = 0 :=
  stateAt_inv (P := fun f : FaultType => f.faultMask wnAdLost = 0) rfl
    (fun f i h => by
      unfold analyseRun
      rw [faultRun_faultMask, faultAnalyse_adLost]
      exact h) n

theorem assertedAt_adLost (n : Nat) : assertedAt (masksAt ins) wnAdLost n = false := by
  unfold assertedAt masksAt
  rw [faultAnalyse_adLost, analysedAt_adLost]
  rfl

theorem assertedAt_canMxCx (n : Nat) :
    assertedAt (masksAt ins) wnCanMxCx n = (ins n).info.adFault := by
  unfold assertedAt masksAt
  rw [faultAnalyse_canMxCx]
  cases (ins n).info.adFault <;> rfl

/-- The AD board is never reported as lost. -/
theorem adLost_never (n : Nat) : (analysedAt ins n).bit wnAdLost = false := by
  rw [analysedAt_eq, faultAt_bit]
  exact Debouncer.out_of_never fun j _ => assertedAt_adLost j

/-- The CAN is reported as lost only while the AD board is. -/
theorem canMxCx_held {n : Nat} (h : (analysedAt ins (n + 1)).bit wnCanMxCx = true) :
    HeldFor ins SysInfo.adFault wnCanMxCx n := by
  have hdis : disTicks wnCanMxCx = 0 := by decide +kernel
  rw [analysedAt_eq, faultAt_bit] at h
  obtain ⟨hle, hall⟩ := Debouncer.held_of_out hdis h
  exact ⟨hle, fun j h₁ h₂ => (assertedAt_canMxCx j).symm.trans (hall j h₁ h₂)⟩

theorem conTicks_adLost : conTicks wnAdLost = conTicks wnCanMxCx := by decide +kernel

end

/-- **Communication loss.** A call of `FaultAnalyse` leaves the masks of the two
warnings at the two inputs exactly if `MasksAgree`; and in every run from power-on
the warnings do their work after call `n` exactly if there was nothing to report:
neither input was held for the confirmation time. -/
theorem comm_loss_iff (i : FaultIn) (f : FaultType) (ins : Nat → FaultIn) (n : Nat) :
    (CommMasks i (faultAnalyse i f) ↔ MasksAgree i f) ∧
      (WarnsAt ins n ↔
        ¬ HeldFor ins SysInfo.canFault wnCanMxCx n ∧
          ¬ HeldFor ins SysInfo.adFault wnAdLost n) := by
  refine ⟨commMasks_iff i f, fun hw => ?_, fun hn => ?_⟩
  · have had : ¬ HeldFor ins SysInfo.adFault wnAdLost n := fun h =>
      Bool.false_ne_true ((adLost_never (n + 1)).symm.trans (hw.2 h))
    refine ⟨fun hcan => had ?_, had⟩
    have hheld := canMxCx_held (hw.1 hcan)
    unfold HeldFor at hheld ⊢
    rwa [conTicks_adLost]
  · exact ⟨fun h => absurd h hn.1, fun h => absurd h hn.2⟩

/-- The two flags, and everything else at rest. The parameters are zero, so the faults 39 to
51, which are tested against them, are asserted too. -/
def lostIn (canFault adFault : Bool) : FaultIn where
  info := ⟨canFault, adFault, false, false, false⟩
  ad := ⟨60, 60, 60, 60, 60, 60⟩
  an := ⟨0, 0, 0, 0, 0, 60, 60, 60, 60, fun _ => 0⟩
  ioIn := ⟨true, true, fun _ => true, false, false, false, fun _ => false⟩
  ioOut := .off
  para := .replicate 28 0
  cbSys := fun _ => .zero

/-- `CanFault` alone is not reported, however long it lasts. -/
theorem can_loss_unreported :
    ¬ CommMasks (lostIn true false) (faultAnalyse (lostIn true false) FaultType.zero) ∧
      ¬ WarnsAt (fun _ => lostIn true false) 300 := by
  have hcon : conTicks wnCanMxCx = 300 := by decide +kernel
  refine ⟨fun h => ?_, fun h => ?_⟩
  · have hset := h.1.mpr rfl
    rw [faultAnalyse_canMxCx] at hset
    exact absurd hset (by decide)
  · have hbit := h.1 ⟨Nat.le_of_eq hcon, fun _ _ _ => rfl⟩
    have hheld := canMxCx_held hbit
    exact Bool.false_ne_true (hheld.2 300 (Nat.sub_le _ _) (Nat.le_refl _))

end SC04Monitor.UserApp
