import SC04Monitor.Lib.Countdown
import SC04Monitor.UserApp.SysInfo

/-! # The delay of a fault report

`fault_Run` sets a flag in `FaultRcdFlg` when a fault occurs, and `sysInfoRecord` clears it
when the countdown of the fault has run out, so that the snapshots reach past the fault.
The countdown is loaded by the calls that find the flag clear, if their scan gets there. -/

namespace SC04Monitor.UserApp
open SC04Monitor.Lib.Run SC04Monitor.Lib.Scan SC04Monitor.Lib.WordBits SC04Monitor.Lib.Countdown

/-! ## What the scan does to one report -/

/-- The flag of a recorded fault. -/
def FaultType.rcd (f : FaultType) (i : RcdId) : Bool := hasBit (f.faultRcdFlg (rcdWord i)) (i % 16)

/-- What a scan can do to a flag and its countdown: not get there, count, report, load. -/
inductive ReportStep (flag : Bool) (cnt : Nat) : Bool → Nat → Prop
  | skipped : ReportStep flag cnt flag cnt
  | counted (h : flag = true) (hpos : 0 < cnt) : ReportStep flag cnt true (cnt - 1)
  | reported (h : flag = true) (hzero : cnt = 0) : ReportStep flag cnt false 0
  | loaded (h : flag = false) : ReportStep flag cnt false faultDelay.toNat

namespace ReportStep

variable {flag flag' : Bool} {cnt cnt' : Nat}

/-- A flag that is not reported stays as it is, and while it is up at most one is counted. -/
theorem keeps (h : ReportStep flag cnt flag' cnt') (hno : ¬ (flag = true ∧ flag' = false)) :
    flag' = flag ∧ (flag = true → cnt ≤ cnt' + 1) := by
  cases h with
  | skipped => exact ⟨rfl, fun _ => Nat.le_succ cnt⟩
  | counted hup hpos => exact ⟨hup.symm, fun _ => by omega⟩
  | reported hup hzero => exact absurd ⟨hup, rfl⟩ hno
  | loaded hdown => exact ⟨hdown.symm, fun hup => absurd (hdown.symm.trans hup) (by decide)⟩

/-- A flag is reported when its countdown has run out. -/
theorem run_out (h : ReportStep flag cnt flag' cnt') (hup : flag = true) (hdown : flag' = false) :
    cnt = 0 := by
  cases h with
  | skipped => exact absurd (hdown.symm.trans hup) (by decide)
  | counted _ _ => exact absurd hdown (by decide)
  | reported _ hzero => exact hzero
  | loaded hflag => exact absurd (hflag.symm.trans hup) (by decide)

end ReportStep

namespace SysRecord

variable {i j : RcdId}

theorem rcdIndex_lt (i : RcdId) : (i : Nat) % 16 < 16 := Nat.mod_lt _ (by decide)

theorem test_rcd (f : FaultType) (i : RcdId) :
    f.faultRcdFlg (rcdWord i) &&& rcdBit i ≠ 0 ↔ f.rcd i = true := by
  have h := and_bitMask_eq_zero_iff (f.faultRcdFlg (rcdWord i)) (rcdIndex_lt i)
  rw [ne_eq, show rcdBit i = bitMask (i % 16) from rfl, h]
  exact Bool.not_eq_false (f.rcd i) ▸ Iff.rfl

theorem clearRcd_rcd (s : SysRecord) (i j : RcdId) :
    (s.clearRcd i).fault.rcd j = (s.fault.rcd j && j != i) := by
  unfold clearRcd FaultType.rcd
  dsimp only
  by_cases hw : rcdWord j = rcdWord i
  · have hdiv : (j : Nat) / 16 = i / 16 := congrArg Fin.val hw
    have hiff : (j : Nat) % 16 = i % 16 ↔ j = i := by
      rw [Fin.ext_iff]
      omega
    rw [hw, Function.update_self, show rcdBit i = bitMask (i % 16) from rfl,
      hasBit_clear _ (rcdIndex_lt i) (rcdIndex_lt j)]
    congr 1
    rw [Bool.eq_iff_iff]
    simp only [bne_iff_ne, ne_eq, hiff]
  · have hne : j ≠ i := fun he => hw (by rw [he])
    rw [Function.update_of_ne hw]
    simp [hne]

/-- What the scan does at another report. -/
theorem reportScan_skip {l : List RcdId} (h : j ≠ i) (s : SysRecord)
    (hrest : ∀ t : SysRecord, ReportStep (t.fault.rcd i) (t.countDown i).toNat
      ((reportScan l t).fault.rcd i) ((reportScan l t).countDown i).toNat) :
    ReportStep (s.fault.rcd i) (s.countDown i).toNat
      ((reportScan (j :: l) s).fault.rcd i) ((reportScan (j :: l) s).countDown i).toNat := by
  have hset : ∀ t, ReportStep (s.fault.rcd i) (s.countDown i).toNat
      ((reportScan l (s.setCountDown j t)).fault.rcd i)
      ((reportScan l (s.setCountDown j t)).countDown i).toNat := by
    intro t
    have hcnt : (s.setCountDown j t).countDown i = s.countDown i :=
      Function.update_of_ne h.symm _ _
    have hstep := hrest (s.setCountDown j t)
    rwa [hcnt] at hstep
  unfold reportScan
  split_ifs
  · exact hset _
  · have hkept : ({ s with wFaultFlg := true }.clearRcd j).fault.rcd i = s.fault.rcd i := by
      rw [clearRcd_rcd]
      simp [h.symm]
    rw [hkept]
    exact .skipped
  · exact hset _

/-- A scan that does not come to a report leaves it. -/
theorem reportScan_not_mem {l : List RcdId} (hi : i ∉ l) (s : SysRecord) :
    (reportScan l s).fault.rcd i = s.fault.rcd i ∧
      (reportScan l s).countDown i = s.countDown i := by
  have hne : ∀ j ∈ l, i ≠ j := fun j hj he => hi (he ▸ hj)
  refine ⟨reportScan_frame (fun t => t.fault.rcd i) (fun _ _ _ _ => rfl) (fun j hj t => ?_) s,
    reportScan_frame (fun t => t.countDown i) (fun j hj t c => ?_) (fun _ _ _ => rfl) s⟩
  · rw [clearRcd_rcd, bne_iff_ne.mpr (hne j hj), Bool.and_true]
  · exact Function.update_of_ne (hne j hj) _ _

/-- What the scan does at the report itself. -/
theorem reportScan_self {l : List RcdId} (hi : i ∉ l) (s : SysRecord) :
    ReportStep (s.fault.rcd i) (s.countDown i).toNat
      ((reportScan (i :: l) s).fault.rcd i) ((reportScan (i :: l) s).countDown i).toNat := by
  unfold reportScan
  split_ifs with hflag hpos
  · obtain ⟨hrcd, hcnt⟩ := reportScan_not_mem hi (s.setCountDown i (s.countDown i - 1))
    have hprev : (s.countDown i - 1).toNat = (s.countDown i).toNat - 1 :=
      UInt16.toNat_sub_of_le _ _ (UInt16.le_iff_toNat_le.mpr (UInt16.lt_iff_toNat_lt.mp hpos))
    have hself : (s.setCountDown i (s.countDown i - 1)).countDown i = s.countDown i - 1 :=
      Function.update_self _ _ _
    have hup : (s.setCountDown i (s.countDown i - 1)).fault.rcd i = true := (test_rcd _ i).mp hflag
    rw [hrcd, hcnt, hself, hprev, hup]
    exact .counted ((test_rcd _ i).mp hflag) (UInt16.lt_iff_toNat_lt.mp hpos)
  · have hzero : (s.countDown i).toNat = 0 :=
      Nat.eq_zero_of_not_pos fun h => hpos (UInt16.lt_iff_toNat_lt.mpr h)
    have hcnt : ({ s with wFaultFlg := true }.clearRcd i).countDown i = s.countDown i := rfl
    rw [clearRcd_rcd, bne_self_eq_false, Bool.and_false, hcnt, hzero]
    exact .reported ((test_rcd _ i).mp hflag) rfl
  · obtain ⟨hrcd, hcnt⟩ := reportScan_not_mem hi (s.setCountDown i faultDelay)
    have hself : (s.setCountDown i faultDelay).countDown i = faultDelay :=
      Function.update_self _ _ _
    have hdown : s.fault.rcd i = false := by
      rw [test_rcd] at hflag
      exact Bool.eq_false_of_not_eq_true hflag
    have hdown' : (s.setCountDown i faultDelay).fault.rcd i = false := hdown
    rw [hrcd, hcnt, hself, hdown']
    exact .loaded hdown

/-- The scan takes one of these steps for every report. -/
theorem reportScan_step {l : List RcdId} (hnd : l.Nodup) (s : SysRecord) (i : RcdId) :
    ReportStep (s.fault.rcd i) (s.countDown i).toNat
      ((reportScan l s).fault.rcd i) ((reportScan l s).countDown i).toNat := by
  induction l generalizing s with
  | nil => exact .skipped
  | cons j l ih =>
    obtain ⟨hjl, hnd⟩ := List.nodup_cons.mp hnd
    by_cases hj : j = i
    · subst hj
      exact reportScan_self hjl s
    · exact reportScan_skip hj s (ih hnd)

/-- What a tick does to a flag and its countdown. -/
theorem tick_step (s : SysRecord) (r : RecordIn) (i : RcdId) :
    ReportStep ((faultCall s.fault r.mask).rcd i) (s.countDown i).toNat
      ((s.tick r).fault.rcd i) ((s.tick r).countDown i).toNat := by
  have hnd := List.nodup_finRange 34
  unfold tick sysInfoRecord
  generalize faultCall s.fault r.mask = f
  generalize List.finRange 34 = l at hnd ⊢
  exact reportScan_step hnd { s with ring := s.ring.call r.status, fault := f } i

/-- A flag that the scan clears is reported in `wFaultFlg`. -/
theorem reportScan_wFaultFlg (l : List RcdId) (s : SysRecord) (i : RcdId)
    (hup : s.fault.rcd i = true) (hdown : (reportScan l s).fault.rcd i = false) :
    (reportScan l s).wFaultFlg = true := by
  induction l generalizing s with
  | nil =>
    rw [show reportScan [] s = s from rfl, hup] at hdown
    exact absurd hdown (by decide)
  | cons j l ih =>
    unfold reportScan at hdown ⊢
    split_ifs at hdown ⊢
    · exact ih (s.setCountDown j _) hup hdown
    · rfl
    · exact ih (s.setCountDown j _) hup hdown

theorem reportScan_cell (l : List RcdId) (s : SysRecord) (k : FaultId) :
    (reportScan l s).fault.cell k = s.fault.cell k :=
  reportScan_frame (fun t => t.fault.cell k) (fun _ _ _ _ => rfl) (fun _ _ _ => rfl) s

theorem tick_wFaultFlg (s : SysRecord) (r : RecordIn) (i : RcdId)
    (hup : (faultCall s.fault r.mask).rcd i = true) (hdown : (s.tick r).fault.rcd i = false) :
    (s.tick r).wFaultFlg = true := by
  unfold tick sysInfoRecord at hdown ⊢
  generalize faultCall s.fault r.mask = f at hup hdown ⊢
  generalize List.finRange 34 = l at hdown ⊢
  exact reportScan_wFaultFlg l _ i hup hdown

end SysRecord

/-! ## What `fault_Run` does to a flag -/

namespace FaultType
open SysRecord

variable {i : RcdId} {k : FaultId}

/-- A fault from 32 on is recorded at its own place. -/
theorem record_rcd (f : FaultType) (i : RcdId) (k : FaultId) :
    (f.record k).rcd i = (f.rcd i || k == i.fault) := by
  have hi : (i : Nat) < 34 := i.isLt
  have hk : (k : Nat) < 66 := k.isLt
  have hself : k = i.fault ↔ (k : Nat) = i + 32 := Fin.ext_iff
  have hbeq : ∀ b : Bool, (b = true ↔ k = i.fault) →
      (f.rcd i || b) = (f.rcd i || k == i.fault) := by
    intro b hb
    congr 1
    rw [Bool.eq_iff_iff, hb, beq_iff_eq]
  have hother : k ≠ i.fault → f.rcd i = (f.rcd i || k == i.fault) := by
    intro hne
    rw [beq_false_of_ne hne, Bool.or_false]
  unfold record
  split_ifs with hsevere
  · unfold rcd
    dsimp only
    by_cases hw : rcdWord i = ⟨(k : Nat) / 16 - 2, by omega⟩
    · have hdiv : (i : Nat) / 16 = k / 16 - 2 := congrArg Fin.val hw
      rw [hw, Function.update_self, faultBit_eq, hasBit_set _ (faultIndex_lt k) (rcdIndex_lt i),
        ← hw]
      refine hbeq _ ?_
      rw [beq_iff_eq, hself]
      omega
    · have hdiv : (i : Nat) / 16 ≠ k / 16 - 2 := fun he => hw (Fin.ext he)
      rw [Function.update_of_ne hw]
      exact hother fun hk => hdiv (by rw [hself] at hk; omega)
  · exact hother fun hk => hsevere (by rw [hself] at hk; omega)

/-- The step for a fault records it when it sets its bit. -/
theorem runStep_rcd (f : FaultType) (i : RcdId) (k : FaultId) :
    (f.runStep k).rcd i =
      (f.rcd i || (k == i.fault && (!f.bit k && (f.runStep k).bit k))) := by
  have hrises : ∀ g : FaultType, g.rcd i = f.rcd i → (f.bit k = false → g.bit k = false) →
      g.rcd i = (f.rcd i || (k == i.fault && (!f.bit k && g.bit k))) := by
    intro g hrcd hbit
    rw [hrcd]
    cases hb : f.bit k with
    | true => simp
    | false => simp [hbit hb]
  unfold runStep
  dsimp only
  split_ifs with hm hb hc hb hd
  · exact hrises _ rfl fun h => h
  · have hdown : f.bit k = false := (test_eq_zero_iff f k).mp hb
    have hset : ∀ g : FaultType, ((g.setBit k).record k).bit k = true := by
      intro g
      rw [← cell_out, cell_record, cell_setBit]
    rw [record_rcd, hset, hdown, Bool.not_false, Bool.and_true, Bool.and_true]
    rfl
  · exact hrises _ rfl fun h => h
  · exact hrises _ rfl fun h => h
  · exact hrises _ rfl fun h => absurd ((test_eq_zero_iff f k).mpr h) hb
  · exact hrises _ rfl fun h => h

/-- `fault_Run` raises the flag of a fault when it sets its bit. -/
theorem faultRun_rcd (f : FaultType) (i : RcdId) :
    f.faultRun.rcd i = (f.rcd i || (!f.bit i.fault && f.faultRun.bit i.fault)) := by
  let obs (g : FaultType) := (g.cell i.fault, g.asserted i.fault, g.rcd i)
  have hother : ∀ k ∈ List.finRange ftMax, k ≠ i.fault → ∀ g, obs (g.runStep k) = obs g := by
    intro k _ hk g
    have hbeq : (k == i.fault) = false := beq_false_of_ne hk
    simp only [obs, asserted, runStep_faultMask, runStep_cell_of_ne g hk.symm, runStep_rcd, hbeq,
      Bool.false_and, Bool.or_false]
  obtain ⟨g, hg, hrun⟩ :=
    scan_at obs (List.nodup_finRange ftMax) (List.mem_finRange i.fault) hother f
  simp only [obs, Prod.mk.injEq] at hg hrun
  have hbit : g.bit i.fault = f.bit i.fault := congrArg Lib.Debounce.Debouncer.out hg.1
  have hbit' : (g.runStep i.fault).bit i.fault = f.faultRun.bit i.fault := by
    rw [← cell_out, ← cell_out, ← hrun.1, faultRun]
  have hrcd : f.faultRun.rcd i = (g.runStep i.fault).rcd i := by
    unfold faultRun
    exact hrun.2.2
  rw [hrcd, runStep_rcd, hbit, hbit', hg.2.2, beq_self_eq_true, Bool.true_and]

/-- `fault_Run` is to set the bit of a fault: it is clear, the mask asserted, and the delay
of the fault is over. -/
def Due (f : FaultType) (mask : FaultId → UInt16) (k : FaultId) : Prop :=
  f.bit k = false ∧ mask k = faultMaskSet ∧ conTicks k ≤ (f.faultConTime k).toNat

theorem faultCall_cell (f : FaultType) (mask : FaultId → UInt16) (k : FaultId) :
    (faultCall f mask).cell k =
      (f.cell k).step (conTicks k) (disTicks k) (mask k == faultMaskSet) := by
  unfold faultCall
  rw [faultRun_cell]
  rfl

theorem due_iff (f : FaultType) (mask : FaultId → UInt16) (k : FaultId) :
    f.Due mask k ↔ f.bit k = false ∧ (faultCall f mask).bit k = true := by
  unfold Due
  rw [← cell_out (faultCall f mask), faultCall_cell, ← cell_out f, ← cell_con f,
    ← beq_iff_eq (a := mask k)]
  exact Lib.Debounce.Debouncer.step_sets_iff

theorem faultCall_rcd (f : FaultType) (mask : FaultId → UInt16) (i : RcdId) :
    (faultCall f mask).rcd i =
      (f.rcd i || (!f.bit i.fault && (faultCall f mask).bit i.fault)) := by
  unfold faultCall
  rw [faultRun_rcd]
  rfl

end FaultType

/-! ## Runs -/

section
variable (dataFIFO : Nat → SysInf) (ins : Nat → RecordIn) (i : RcdId) (n : Nat)

/-- The state in which tick `n` calls `sysInfoRecord`. -/
def afterRun : SysRecord :=
  { recordAt dataFIFO ins n with fault := faultCall (recordAt dataFIFO ins n).fault (ins n).mask }

/-- `fault_Run` records the fault in tick `n`. -/
def Records : Prop :=
  (recordAt dataFIFO ins n).fault.bit i.fault = false ∧
    (afterRun dataFIFO ins n).fault.bit i.fault = true

/-- `sysInfoRecord` clears the flag of the fault in tick `n`. -/
def Reports : Prop :=
  (afterRun dataFIFO ins n).fault.rcd i = true ∧
    (recordAt dataFIFO ins (n + 1)).fault.rcd i = false

/-- Where tick `n` is to set the bit of the fault, it finds the flag clear and the countdown
loaded. -/
def ReadyFor : Prop :=
  (recordAt dataFIFO ins n).fault.Due (ins n).mask i.fault →
    (recordAt dataFIFO ins n).fault.rcd i = false ∧
      (recordAt dataFIFO ins n).countDown i = faultDelay

variable {dataFIFO ins i n}

theorem afterRun_fault : (afterRun dataFIFO ins n).fault =
    faultCall (recordAt dataFIFO ins n).fault (ins n).mask := by
  unfold afterRun
  dsimp only

theorem afterRun_rcd : (afterRun dataFIFO ins n).fault.rcd i = true ↔
    (recordAt dataFIFO ins n).fault.rcd i = true ∨ Records dataFIFO ins i n := by
  unfold Records
  rw [afterRun_fault, FaultType.faultCall_rcd, Bool.or_eq_true, Bool.and_eq_true, Bool.not_eq_true']

theorem recordAt_step :
    ReportStep ((afterRun dataFIFO ins n).fault.rcd i)
      ((recordAt dataFIFO ins n).countDown i).toNat
      ((recordAt dataFIFO ins (n + 1)).fault.rcd i)
      ((recordAt dataFIFO ins (n + 1)).countDown i).toNat := by
  rw [recordAt_succ, afterRun_fault]
  exact SysRecord.tick_step (recordAt dataFIFO ins n) (ins n) i

theorem records_iff :
    Records dataFIFO ins i n ↔ (recordAt dataFIFO ins n).fault.Due (ins n).mask i.fault := by
  unfold Records
  rw [afterRun_fault, FaultType.due_iff]

/-- A report answers the records as the countdown lets it. -/
theorem answering : Answering (Records dataFIFO ins i) (Reports dataFIFO ins i)
    (fun n => (recordAt dataFIFO ins n).fault.rcd i = true)
    (fun n => ((recordAt dataFIFO ins n).countDown i).toNat) := by
  refine ⟨?_, fun n hno => ?_, fun n hno hup => ?_, fun n hrep => ?_⟩
  · show ¬ hasBit 0 _ = true
    rw [hasBit_zero]
    exact Bool.false_ne_true
  · obtain ⟨hkept, -⟩ := recordAt_step.keeps hno
    rw [← afterRun_rcd, hkept]
  · obtain ⟨-, hcnt⟩ := recordAt_step.keeps hno
    exact hcnt (afterRun_rcd.mpr hup)
  · obtain ⟨hup, hdown⟩ := hrep
    refine ⟨afterRun_rcd.mp hup, recordAt_step.run_out hup hdown, ?_⟩
    rw [hdown]
    exact Bool.false_ne_true

/-- Every fault runs as a debouncer. -/
theorem recordAt_cell {k : FaultId} : (recordAt dataFIFO ins (n + 1)).fault.cell k =
    ((recordAt dataFIFO ins n).fault.cell k).step (conTicks k) (disTicks k)
      ((ins n).mask k == faultMaskSet) := by
  rw [recordAt_succ]
  unfold SysRecord.tick SysRecord.sysInfoRecord
  rw [SysRecord.reportScan_cell]
  dsimp only
  rw [FaultType.faultCall_cell]

/-- While its mask is asserted a bit that is set stays. -/
theorem recordAt_bit_stays {m : Nat} {k : FaultId} (hle : m ≤ n)
    (hup : (recordAt dataFIFO ins m).fault.bit k = true)
    (hmask : ∀ j, m ≤ j → j < n → (ins j).mask k = faultMaskSet) :
    (recordAt dataFIFO ins n).fault.bit k = true := by
  induction n, hle using Nat.le_induction with
  | base => exact hup
  | succ n hle ih =>
    have hbit := ih fun j h₁ h₂ => hmask j h₁ (Nat.lt_succ_of_lt h₂)
    rw [← FaultType.cell_out] at hbit
    rw [← FaultType.cell_out, recordAt_cell, hmask n hle (Nat.lt_succ_self n), beq_self_eq_true]
    generalize (recordAt dataFIFO ins n).fault.cell k = c at hbit ⊢
    unfold Lib.Debounce.Debouncer.step
    rw [if_pos rfl]
    simp [hbit]

/-- With the clearing of the flag `wFaultFlg` is up. -/
theorem Reports.wFaultFlg (h : Reports dataFIFO ins i n) :
    (recordAt dataFIFO ins (n + 1)).wFaultFlg = true := by
  obtain ⟨hup, hdown⟩ := h
  rw [afterRun_fault] at hup
  rw [recordAt_succ] at hdown ⊢
  exact SysRecord.tick_wFaultFlg (recordAt dataFIFO ins n) (ins n) i hup hdown

end

/-- Where every fault that is to be recorded finds its flag clear and its countdown loaded,
each report of it answers one record, at least `faultDelay` calls after it. -/
theorem report_delay (dataFIFO : Nat → SysInf) (ins : Nat → RecordIn) (i : RcdId)
    (h : ∀ m, ReadyFor dataFIFO ins i m) (n : Nat) :
    AnswersOne (Records dataFIFO ins i) (Reports dataFIFO ins i) faultDelay.toNat n := by
  refine answers_one answering (fun m hrec => ?_) n
  obtain ⟨hdown, hcnt⟩ := h m (records_iff.mp hrec)
  rw [hdown, hcnt]
  exact ⟨Bool.false_ne_true, Nat.le_refl _⟩

/-- The capacitor temperature is too high from tick `b` on, and no other fault is there. -/
def capOverFrom (b : Nat) : Nat → RecordIn := fun n =>
  ⟨fun k => if k = ftCap2TOver ∧ b ≤ n then faultMaskSet else 0, .replicate 32 0⟩

/-- The bit is set in the second tick, which finds the countdown loaded. -/
theorem report_delay_later :
    AnswersOne (Records (fun _ => .replicate 32 0) (capOverFrom 1) 19)
      (Reports (fun _ => .replicate 32 0) (capOverFrom 1) 19) faultDelay.toNat 161 := by
  refine report_delay _ _ 19 (fun m hdue => ?_) 161
  rcases Nat.lt_trichotomy m 1 with hlt | rfl | hgt
  · have hmask : (capOverFrom 1 m).mask ftCap2TOver ≠ faultMaskSet := by
      rw [Nat.lt_one_iff.mp hlt]
      decide
    exact absurd hdue.2.1 hmask
  · exact ⟨by decide +kernel, by decide +kernel⟩
  · have hset : (recordAt (fun _ => .replicate 32 0) (capOverFrom 1) 2).fault.bit ftCap2TOver =
        true := by decide +kernel
    have hup := recordAt_bit_stays (show 2 ≤ m from hgt) hset fun j hj _ =>
      if_pos ⟨rfl, Nat.le_of_succ_le hj⟩
    exact absurd (hdue.1.symm.trans hup) (by decide)

/-- A fault in the first tick is reported in that tick. -/
theorem first_report_at_once : ¬ ∀ dataFIFO ins i n,
    AnswersOne (Records dataFIFO ins i) (Reports dataFIFO ins i) faultDelay.toNat n := by
  intro h
  have hrep : Reports (fun _ => .replicate 32 0) (capOverFrom 0) 19 0 :=
    ⟨by decide +kernel, by decide +kernel⟩
  obtain ⟨e, he, -⟩ := h _ _ _ _ hrep
  have hdelay : faultDelay.toNat = 160 := rfl
  omega

end SC04Monitor.UserApp
