import Mathlib.Tactic.Common
import SC04Monitor.Lib.Run
import SC04Monitor.Lib.Scan
import SC04Monitor.Lib.WordBits
import SC04Monitor.Lib.Debounce
import SC04Monitor.UserApp.AppFault

/-! # The fault bits

`fault_Run` called again and again while `FaultMask` changes between the calls.
What `FAULT` holds for one fault, its two counters and its bit in `FaultAry`, is
a debouncer of its own (`cell`): the loop of `fault_Run` takes it one step and the
steps for the other faults leave it alone. -/

namespace SC04Monitor.UserApp
open SC04Monitor.Lib.Run SC04Monitor.Lib.Scan SC04Monitor.Lib.WordBits SC04Monitor.Lib.Debounce

/-! ## One fault -/

namespace FaultType

/-- The bit of a fault in `FaultAry`. -/
def bit (f : FaultType) (i : FaultId) : Bool := hasBit (f.faultAry (faultWord i)) (i % 16)

/-- The mask of a fault is asserted. -/
def asserted (f : FaultType) (i : FaultId) : Bool := f.faultMask i == faultMaskSet

/-- The two counters and the bit of a fault. -/
def cell (f : FaultType) (i : FaultId) : Debouncer :=
  ⟨(f.faultConTime i).toNat, (f.faultDisTime i).toNat, f.bit i⟩

@[simp] theorem cell_con (f : FaultType) (i : FaultId) :
    (f.cell i).con = (f.faultConTime i).toNat := rfl

@[simp] theorem cell_dis (f : FaultType) (i : FaultId) :
    (f.cell i).dis = (f.faultDisTime i).toNat := rfl

@[simp] theorem cell_out (f : FaultType) (i : FaultId) : (f.cell i).out = f.bit i := rfl

end FaultType

theorem faultBit_eq (i : FaultId) : faultBit i = bitMask (i % 16) := rfl

theorem faultIndex_lt (i : FaultId) : (i : Nat) % 16 < 16 := Nat.mod_lt _ (by omega)

/-- The delay that the source loads. -/
theorem toU16_dis (i : FaultId) : (toU16 (times100 (disTimeDefault i))).toNat = disTicks i := by
  have h := disTicks_le i
  rw [(times100_dis i).1]
  exact UInt16.toNat_ofNat_of_lt (Nat.lt_of_le_of_lt h (by decide))

/-- The comparison with the delay that the source makes. -/
theorem lt_con_iff (i : FaultId) (c : UInt16) :
    ((c.toNat : ℚ) < times100 (conTimeDefault i)) ↔ c.toNat < conTicks i := by
  rw [(times100_con i).1, ← (times100_con i).2, Nat.cast_lt]

namespace FaultType

/-! ## What the writes do to a fault -/

theorem test_eq_zero_iff (f : FaultType) (i : FaultId) :
    f.faultAry (faultWord i) &&& faultBit i = 0 ↔ f.bit i = false :=
  and_bitMask_eq_zero_iff _ (faultIndex_lt i)

@[simp] theorem bit_setDisTime (f : FaultType) (i k : FaultId) (t : UInt16) :
    (f.setDisTime i t).bit k = f.bit k := rfl

@[simp] theorem bit_setConTime (f : FaultType) (i k : FaultId) (t : UInt16) :
    (f.setConTime i t).bit k = f.bit k := rfl

@[simp] theorem faultConTime_setDisTime (f : FaultType) (i : FaultId) (t : UInt16) :
    (f.setDisTime i t).faultConTime = f.faultConTime := rfl

@[simp] theorem faultDisTime_setConTime (f : FaultType) (i : FaultId) (t : UInt16) :
    (f.setConTime i t).faultDisTime = f.faultDisTime := rfl

@[simp] theorem cell_setDisTime (f : FaultType) (i : FaultId) (t : UInt16) :
    (f.setDisTime i t).cell i = { f.cell i with dis := t.toNat } := by
  simp [cell, bit, setDisTime]

@[simp] theorem cell_setConTime (f : FaultType) (i : FaultId) (t : UInt16) :
    (f.setConTime i t).cell i = { f.cell i with con := t.toNat } := by
  simp [cell, bit, setConTime]

@[simp] theorem cell_setBit (f : FaultType) (i : FaultId) :
    (f.setBit i).cell i = { f.cell i with out := true } := by
  have hk := faultIndex_lt i
  simp [cell, bit, setBit, faultBit_eq, hasBit_set _ hk hk]

@[simp] theorem cell_clearBit (f : FaultType) (i : FaultId) :
    (f.clearBit i).cell i = { f.cell i with out := false } := by
  have hk := faultIndex_lt i
  simp [cell, bit, clearBit, faultBit_eq, hasBit_clear _ hk hk]

@[simp] theorem cell_record (f : FaultType) (i k : FaultId) : (f.record i).cell k = f.cell k := by
  unfold record
  split <;> rfl

/-- The step for fault `i` is one tick of its debouncer. -/
theorem runStep_cell_self (f : FaultType) (i : FaultId) :
    (f.runStep i).cell i = (f.cell i).step (conTicks i) (disTicks i) (f.asserted i) := by
  unfold runStep asserted Debouncer.step
  by_cases hm : f.faultMask i = faultMaskSet
  · simp only [hm, ↓reduceIte, beq_self_eq_true, test_eq_zero_iff, lt_con_iff, bit_setDisTime,
      faultConTime_setDisTime, cell_out, cell_con]
    rcases Bool.eq_false_or_eq_true (f.bit i) with hb | hb
    · simp [hb, toU16_dis]
    · by_cases hc : (f.faultConTime i).toNat < conTicks i
      · -- below the delay the counter is far from its own end
        have hnext : (f.faultConTime i + 1).toNat = (f.faultConTime i).toNat + 1 := by
          have hle := conTicks_le i
          rw [UInt16.toNat_add]
          exact Nat.mod_eq_of_lt (Nat.lt_of_le_of_lt (Nat.succ_le_of_lt hc)
            (Nat.lt_of_le_of_lt hle (by decide)))
        simp [hb, hc, toU16_dis, hnext]
      · simp [hb, hc, toU16_dis]
  · have hmask : (f.faultMask i == faultMaskSet) = false := beq_false_of_ne hm
    simp only [hm, hmask, ↓reduceIte, Bool.false_eq_true, ne_eq, test_eq_zero_iff, bit_setConTime,
      faultDisTime_setConTime, cell_out, cell_dis]
    rcases Bool.eq_false_or_eq_true (f.bit i) with hb | hb
    · by_cases hd : 0 < f.faultDisTime i
      · have hpos : 0 < (f.faultDisTime i).toNat := UInt16.lt_iff_toNat_lt.mp hd
        have hprev : (f.faultDisTime i - 1).toNat = (f.faultDisTime i).toNat - 1 :=
          UInt16.toNat_sub_of_le _ _ (UInt16.le_iff_toNat_le.mpr hpos)
        simp [hb, hd, hpos, hprev]
      · have hz : ¬ 0 < (f.faultDisTime i).toNat := fun h => hd (UInt16.lt_iff_toNat_lt.mpr h)
        simp [hb, hd, hz]
    · simp [hb]

/-! ## What the step for another fault does -/

theorem runStep_faultMask (f : FaultType) (i : FaultId) :
    (f.runStep i).faultMask = f.faultMask := by
  unfold runStep record
  dsimp only
  split_ifs <;> rfl

/-- In its word a fault has the bit of its own index only. -/
theorem ne_index_of_word {i : FaultId} {m : Nat} (h : 16 * (faultWord i : Nat) + m ≠ i) :
    m ≠ i % 16 := by
  rintro rfl
  exact h (Nat.div_add_mod i 16)

theorem setBit_hasBit {w : Fin 5} {m : Nat} (f : FaultType) (i : FaultId) (hm : m < 16)
    (h : 16 * (w : Nat) + m ≠ i) :
    hasBit ((f.setBit i).faultAry w) m = hasBit (f.faultAry w) m := by
  unfold setBit
  rcases eq_or_ne w (faultWord i) with rfl | hw
  · have hne := ne_index_of_word h
    simp [faultBit_eq, hasBit_set _ (faultIndex_lt i) hm, hne]
  · simp [hw]

theorem clearBit_hasBit {w : Fin 5} {m : Nat} (f : FaultType) (i : FaultId) (hm : m < 16)
    (h : 16 * (w : Nat) + m ≠ i) :
    hasBit ((f.clearBit i).faultAry w) m = hasBit (f.faultAry w) m := by
  unfold clearBit
  rcases eq_or_ne w (faultWord i) with rfl | hw
  · have hne := ne_index_of_word h
    simp [faultBit_eq, hasBit_clear _ (faultIndex_lt i) hm, hne]
  · simp [hw]

theorem record_faultAry (f : FaultType) (i : FaultId) : (f.record i).faultAry = f.faultAry := by
  unfold record
  split <;> rfl

/-- The step for a fault changes no bit but its own. -/
theorem runStep_hasBit {w : Fin 5} {m : Nat} (f : FaultType) (i : FaultId) (hm : m < 16)
    (h : 16 * (w : Nat) + m ≠ i) :
    hasBit ((f.runStep i).faultAry w) m = hasBit (f.faultAry w) m := by
  unfold runStep
  dsimp only
  split_ifs
  · rfl
  · rw [record_faultAry]
    exact setBit_hasBit _ i hm h
  · rfl
  · rfl
  · exact clearBit_hasBit _ i hm h
  · rfl

theorem runStep_cell_of_ne {i k : FaultId} (f : FaultType) (h : k ≠ i) :
    (f.runStep i).cell k = f.cell k := by
  have hbit : (f.runStep i).bit k = f.bit k :=
    f.runStep_hasBit i (faultIndex_lt k) fun he => h (Fin.ext (by
      simp only [faultWord] at he
      omega))
  have hcon : (f.runStep i).faultConTime k = f.faultConTime k := by
    unfold runStep record setDisTime setConTime setBit clearBit
    dsimp only
    split_ifs <;> simp [h]
  have hdis : (f.runStep i).faultDisTime k = f.faultDisTime k := by
    unfold runStep record setDisTime setConTime setBit clearBit
    dsimp only
    split_ifs <;> simp [h]
  unfold cell
  rw [hbit, hcon, hdis]

/-- `fault_Run` is one tick of every debouncer. -/
theorem faultRun_cell (f : FaultType) (i : FaultId) :
    f.faultRun.cell i = (f.cell i).step (conTicks i) (disTicks i) (f.asserted i) := by
  let obs (g : FaultType) := (g.cell i, g.asserted i)
  have hother : ∀ k ∈ List.finRange ftMax, k ≠ i → ∀ g, obs (g.runStep k) = obs g := by
    intro k _ hk g
    simp only [obs, asserted, runStep_faultMask, runStep_cell_of_ne g hk.symm]
  obtain ⟨g, hg, hrun⟩ :=
    scan_at obs (List.nodup_finRange ftMax) (List.mem_finRange i) hother f
  simp only [obs, Prod.mk.injEq] at hg hrun
  obtain ⟨hcell, hmask⟩ := hg
  unfold faultRun
  rw [hrun.1, ← hcell, ← hmask]
  exact g.runStep_cell_self i

/-- `fault_Run` leaves the bits that belong to no fault alone. -/
theorem faultRun_hasBit {w : Fin 5} {m : Nat} (f : FaultType) (hm : m < 16)
    (h : ftMax ≤ 16 * (w : Nat) + m) :
    hasBit (f.faultRun.faultAry w) m = hasBit (f.faultAry w) m := by
  unfold faultRun
  refine scan_frame (fun g : FaultType => hasBit (g.faultAry w) m) (fun i _ g => ?_) f
  exact g.runStep_hasBit i hm fun he => absurd i.isLt (by omega)

end FaultType

/-! ## Calls of `fault_Run` -/

/-- One call, with the masks that it finds. -/
def faultCall (f : FaultType) (mask : FaultId → UInt16) : FaultType :=
  { f with faultMask := mask }.faultRun

section
variable (masks : Nat → FaultId → UInt16)

/-- `FAULT` before call `n`, from its initial value. -/
def faultAt (n : Nat) : FaultType := stateAt faultCall FaultType.zero masks n

/-- The mask of fault `i` is asserted in call `n`. -/
def assertedAt (i : FaultId) (n : Nat) : Bool := masks n i == faultMaskSet

end

section
variable {masks : Nat → FaultId → UInt16}

theorem faultAt_succ (n : Nat) : faultAt masks (n + 1) = faultCall (faultAt masks n) (masks n) := rfl

/-- Every fault runs as a debouncer. -/
theorem faultAt_cell (i : FaultId) (n : Nat) :
    (faultAt masks n).cell i =
      Debouncer.before (conTicks i) (disTicks i) (assertedAt masks i) n := by
  induction n with
  | zero =>
    show FaultType.zero.cell i = Debouncer.init
    simp [FaultType.cell, FaultType.bit, FaultType.zero, hasBit_zero, Debouncer.init]
  | succ n ih =>
    rw [faultAt_succ, faultCall, FaultType.faultRun_cell, Debouncer.before_succ, ← ih]
    rfl

theorem faultAt_bit (i : FaultId) (n : Nat) :
    (faultAt masks n).bit i =
      (Debouncer.before (conTicks i) (disTicks i) (assertedAt masks i) n).out := by
  rw [← faultAt_cell]
  rfl

/-- The bits past the last fault are never set. -/
theorem faultAt_unused {w : Fin 5} {m : Nat} (n : Nat) (hm : m < 16)
    (h : ftMax ≤ 16 * (w : Nat) + m) : hasBit ((faultAt masks n).faultAry w) m = false := by
  induction n with
  | zero => exact hasBit_zero m
  | succ n ih =>
    rw [faultAt_succ, faultCall, FaultType.faultRun_hasBit _ hm h]
    exact ih

/-- The bit of fault `i` after call `n` depends on the mask of `i` only. -/
theorem faultAt_bit_congr {masks' : Nat → FaultId → UInt16} {i : FaultId}
    (h : ∀ n, assertedAt masks i n = assertedAt masks' i n) (n : Nat) :
    (faultAt masks n).bit i = (faultAt masks' n).bit i := by
  rw [faultAt_bit, faultAt_bit, funext h]

/-- Every bit of a word that is set belongs to a fault. -/
theorem exists_bit_of_word {w : Fin 5} {n : Nat} (h : (faultAt masks n).faultAry w ≠ 0) :
    ∃ i : FaultId, faultWord i = w ∧ (faultAt masks n).bit i = true := by
  by_contra hall
  refine h ((eq_zero_iff _).mpr fun m hm => ?_)
  rcases Nat.lt_or_ge (16 * w + m) ftMax with hlt | hge
  · have hword : faultWord ⟨16 * w + m, hlt⟩ = w :=
      Fin.ext (show (16 * (w : Nat) + m) / 16 = w by omega)
    have hindex : (16 * (w : Nat) + m) % 16 = m := by omega
    by_contra hset
    refine hall ⟨⟨16 * w + m, hlt⟩, hword, ?_⟩
    unfold FaultType.bit
    rw [hword, hindex]
    exact Bool.eq_true_of_not_eq_false hset
  · exact faultAt_unused n hm hge

/-- The severe faults are those of the last three words. -/
theorem severe_iff (i : FaultId) :
    ftInFuse1 ≤ i ↔ faultWord i = 2 ∨ faultWord i = 3 ∨ faultWord i = 4 := by
  have hlt : (i : Nat) < 66 := i.isLt
  have hle : ftInFuse1 ≤ i ↔ 32 ≤ (i : Nat) := Iff.rfl
  have hword : ∀ w : Fin 5, faultWord i = w ↔ (i : Nat) / 16 = w := fun w => Fin.ext_iff
  rw [hle, hword 2, hword 3, hword 4]
  show 32 ≤ (i : Nat) ↔ (i : Nat) / 16 = 2 ∨ (i : Nat) / 16 = 3 ∨ (i : Nat) / 16 = 4
  omega

/-- The severe fault flag is the union of the bits from `FT_IN_FUSE1` on. -/
theorem sFault_iff (n : Nat) :
    (faultAt masks n).sFault = true ↔ ∃ i, ftInFuse1 ≤ i ∧ (faultAt masks n).bit i = true := by
  have hflag : (faultAt masks n).sFault = true ↔ ¬ ((faultAt masks n).faultAry 2 = 0 ∧
      (faultAt masks n).faultAry 3 = 0 ∧ (faultAt masks n).faultAry 4 = 0) := by
    unfold FaultType.sFault
    split_ifs with h
    · simp [h]
    · simp [h]
  rw [hflag]
  constructor
  · intro hne
    by_contra hall
    have hword : ∀ w : Fin 5, w = 2 ∨ w = 3 ∨ w = 4 → (faultAt masks n).faultAry w = 0 := by
      intro w hw
      by_contra hset
      obtain ⟨i, rfl, hbit⟩ := exists_bit_of_word hset
      exact hall ⟨i, (severe_iff i).mpr hw, hbit⟩
    exact hne ⟨hword 2 (.inl rfl), hword 3 (.inr (.inl rfl)), hword 4 (.inr (.inr rfl))⟩
  · rintro ⟨i, hi, hbit⟩ ⟨h2, h3, h4⟩
    have hzero : (faultAt masks n).faultAry (faultWord i) = 0 := by
      rcases (severe_iff i).mp hi with hw | hw | hw
      · rw [hw, h2]
      · rw [hw, h3]
      · rw [hw, h4]
    unfold FaultType.bit at hbit
    rw [hzero, hasBit_zero] at hbit
    cases hbit

/-- **The debouncer.** For every fault and every history of its mask, with the
delays of the tables in calls: the bit rises in call `n` exactly if the mask was
asserted and the bit clear in the `conTicks + 1` calls that end with it, and falls
likewise; no other fault matters; and the severe fault flag is the union of the
bits from 32 on. -/
theorem fault_run_debounces (masks : Nat → FaultId → UInt16) (i : FaultId) :
    ((conTicks i : ℚ) = 100 * conTimeDefault i ∧ (disTicks i : ℚ) = 100 * disTimeDefault i) ∧
    (∀ n, (faultAt masks n).bit i = false ∧ (faultAt masks (n + 1)).bit i = true ↔
      conTicks i ≤ n ∧ ∀ j, n - conTicks i ≤ j → j ≤ n →
        masks j i = faultMaskSet ∧ (faultAt masks j).bit i = false) ∧
    (∀ n, (faultAt masks n).bit i = true ∧ (faultAt masks (n + 1)).bit i = false ↔
      disTicks i ≤ n ∧ ∀ j, n - disTicks i ≤ j → j ≤ n →
        masks j i ≠ faultMaskSet ∧ (faultAt masks j).bit i = true) ∧
    (∀ masks' : Nat → FaultId → UInt16,
      (∀ n, masks n i = faultMaskSet ↔ masks' n i = faultMaskSet) →
        ∀ n, (faultAt masks n).bit i = (faultAt masks' n).bit i) ∧
    ∀ n, (faultAt masks (n + 1)).sFault = true ↔
      ∃ k : FaultId, 32 ≤ (k : Nat) ∧ (faultAt masks (n + 1)).bit k = true := by
  refine ⟨⟨(times100_con i).2, (times100_dis i).2⟩, fun n => ?_, fun n => ?_, ?_,
    fun n => sFault_iff (n + 1)⟩
  · rw [faultAt_bit, faultAt_bit, Debouncer.rises_iff, le_runLength_iff, Nat.succ_le_succ_iff]
    refine and_congr_right fun _ => ⟨fun h j h₁ h₂ => ?_, fun h j h₁ h₂ => ?_⟩
    · obtain ⟨ha, ho⟩ := h j (by omega) (by omega)
      exact ⟨eq_of_beq ha, (faultAt_bit i j).trans ho⟩
    · obtain ⟨ha, ho⟩ := h j (by omega) (by omega)
      exact ⟨beq_iff_eq.mpr ha, (faultAt_bit i j).symm.trans ho⟩
  · rw [faultAt_bit, faultAt_bit, Debouncer.falls_iff, le_runLength_iff, Nat.succ_le_succ_iff]
    refine and_congr_right fun _ => ⟨fun h j h₁ h₂ => ?_, fun h j h₁ h₂ => ?_⟩
    · obtain ⟨ha, ho⟩ := h j (by omega) (by omega)
      exact ⟨ne_of_beq_false ha, (faultAt_bit i j).trans ho⟩
    · obtain ⟨ha, ho⟩ := h j (by omega) (by omega)
      exact ⟨beq_false_of_ne ha, (faultAt_bit i j).symm.trans ho⟩
  · intro masks' h n
    refine faultAt_bit_congr (fun m => ?_) n
    exact Bool.eq_iff_iff.mpr (beq_iff_eq.trans ((h m).trans beq_iff_eq.symm))

end

end SC04Monitor.UserApp
