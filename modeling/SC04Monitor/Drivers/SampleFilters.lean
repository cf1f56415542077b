import SC04Monitor.Drivers.AdChannels
import SC04Monitor.Lib.TrimmedMean
import Mathlib.Data.Nat.Dist
import Mathlib.Tactic.Ring

/-! # The two filters in their own types

`FltAnalog` adds up samples of 16 bits in 32 bits, and `Filter_JP` corrects them with signed
32-bit differences. No length that a `u16` can hold makes a sum overflow, and no corrected
sample is negative or too large for its place, so that the filters compute what their models
in numbers do. -/

namespace SC04Monitor.Drivers
open SC04Monitor.Lib.TrimmedMean

/-- The first `n` samples as numbers. -/
def samples (psrcdata : Nat → UInt16) (n : Nat) : List Nat :=
  (List.range n).map fun i => (psrcdata i).toNat

section
variable {psrcdata : Nat → UInt16} {n : Nat}

@[simp] theorem length_samples : (samples psrcdata n).length = n := by simp [samples]

theorem samples_succ : samples psrcdata (n + 1) = samples psrcdata n ++ [(psrcdata n).toNat] := by
  simp [samples, List.range_succ]

end

/-- So many numbers of 16 bits cannot add up to more. -/
theorem sum_range_le {f : Nat → Nat} (h : ∀ i, f i < 65536) (n : Nat) :
    ((List.range n).map f).sum ≤ n * 65535 := by
  have hle := List.sum_le_card_nsmul ((List.range n).map f) 65535 fun x hx => by
    obtain ⟨i, -, rfl⟩ := List.mem_map.mp hx
    exact Nat.le_of_lt_succ (h i)
  rw [List.length_map, List.length_range] at hle
  exact hle

/-! ## `FltAnalog` -/

/-- The locals of `FltAnalog` in their types. -/
structure FltLocals where
  adMax : UInt16
  adMin : UInt16
  adSum : UInt32

/-- The body of the loop. -/
def fltStep32 (psrcdata : Nat → UInt16) (a : FltLocals) (sampTimes : Nat) : FltLocals :=
  let adData := psrcdata sampTimes
  let a := { a with adSum := a.adSum + adData.toUInt32 }
  if sampTimes = 0 then { a with adMax := adData, adMin := adData }
  else if a.adMax < adData then { a with adMax := adData }
  else if adData < a.adMin then { a with adMin := adData }
  else a

/-- The locals after `n` passes of the loop. -/
def fltLoop32 (psrcdata : Nat → UInt16) (n : Nat) : FltLocals :=
  (List.range n).foldl (fltStep32 psrcdata) ⟨0, 0, 0⟩

/-- `FltAnalog` with 16 and 32 bits: what it stores and what it returns. -/
def fltAnalog32 (psrcdata : Nat → UInt16) (length : UInt16) : UInt16 × UInt16 :=
  let a := fltLoop32 psrcdata length.toNat
  let avg :=
    if length ≤ 2 then (a.adSum / 2).toUInt16
    else ((a.adSum - a.adMax.toUInt32 - a.adMin.toUInt32) / (length.toUInt32 - 2)).toUInt16
  (avg, if 2048 ≤ avg then a.adMax else a.adMin)

section
variable (psrcdata : Nat → UInt16)

theorem fltLoop32_succ (n : Nat) :
    fltLoop32 psrcdata (n + 1) = fltStep32 psrcdata (fltLoop32 psrcdata n) n := by
  unfold fltLoop32
  rw [List.range_succ, List.foldl_append]
  rfl

/-- A pass adds the sample to the sum, whichever branch it takes. -/
theorem fltStep32_adSum (a : FltLocals) (i : Nat) :
    (fltStep32 psrcdata a i).adSum = a.adSum + (psrcdata i).toUInt32 := by
  unfold fltStep32
  dsimp only
  split_ifs <;> rfl

/-- The first pass takes the sample for both, and a later one compares it. -/
theorem fltStep32_extremes {a : FltLocals} {i : Nat} {l : List Nat}
    (h : i ≠ 0 → Extremes l a.adMax.toNat a.adMin.toNat) (hl : i = 0 → l = []) :
    Extremes (l ++ [(psrcdata i).toNat]) (fltStep32 psrcdata a i).adMax.toNat
      (fltStep32 psrcdata a i).adMin.toNat := by
  by_cases hi : i = 0
  · rw [hl hi]
    unfold fltStep32
    rw [if_pos hi]
    exact Extremes.singleton _
  · have hle := (h hi).le
    have hstep : (fltStep32 psrcdata a i).adMax.toNat = max a.adMax.toNat (psrcdata i).toNat ∧
        (fltStep32 psrcdata a i).adMin.toNat = min a.adMin.toNat (psrcdata i).toNat := by
      unfold fltStep32
      rw [if_neg hi]
      simp only [UInt16.lt_iff_toNat_lt]
      split_ifs <;> constructor <;> dsimp only <;> omega
    rw [hstep.1, hstep.2]
    exact (h hi).snoc _

theorem fltLoop32_extremes {n : Nat} (hn : n ≠ 0) : Extremes (samples psrcdata n)
    (fltLoop32 psrcdata n).adMax.toNat (fltLoop32 psrcdata n).adMin.toNat := by
  induction n with
  | zero => exact absurd rfl hn
  | succ n ih =>
    rw [samples_succ, fltLoop32_succ]
    refine fltStep32_extremes psrcdata ih ?_
    rintro rfl
    rfl

/-- The sum of up to 65535 samples has 32 bits. -/
theorem fltLoop32_adSum {n : Nat} (hn : n ≤ 65535) :
    (fltLoop32 psrcdata n).adSum.toNat = (samples psrcdata n).sum := by
  induction n with
  | zero => rfl
  | succ n ih =>
    have hle : (samples psrcdata (n + 1)).sum ≤ (n + 1) * 65535 :=
      sum_range_le (fun i => (psrcdata i).toNat_lt) _
    rw [samples_succ, List.sum_append, List.sum_singleton] at hle ⊢
    rw [fltLoop32_succ, fltStep32_adSum, UInt32.toNat_add, ih (by omega), UInt16.toNat_toUInt32]
    omega

/-- What the subtractions leave, without going below zero. -/
theorem fltLoop32_trimmed {n : Nat} (h : 2 ≤ n) (hn : n ≤ 65535) :
    ((fltLoop32 psrcdata n).adSum - (fltLoop32 psrcdata n).adMax.toUInt32 -
        (fltLoop32 psrcdata n).adMin.toUInt32).toNat =
      (samples psrcdata n).sum - (fltLoop32 psrcdata n).adMax.toNat -
        (fltLoop32 psrcdata n).adMin.toNat := by
  have hsum := fltLoop32_adSum psrcdata hn
  have hne : n ≠ 0 := by omega
  have hbelow := ((fltLoop32_extremes psrcdata hne).between (h.trans_eq length_samples.symm)).1
  generalize fltLoop32 psrcdata n = a at *
  have hmax := UInt16.toNat_toUInt32 a.adMax
  have hmin := UInt16.toNat_toUInt32 a.adMin
  rw [UInt32.toNat_sub_of_le, UInt32.toNat_sub_of_le, hsum, hmax, hmin]
  · rw [UInt32.le_iff_toNat_le]
    omega
  · rw [UInt32.le_iff_toNat_le, UInt32.toNat_sub_of_le]
    · omega
    · rw [UInt32.le_iff_toNat_le]
      omega

/-- The quotient that `FltAnalog` stores. -/
theorem fltAnalog32_stored {length : UInt16} (h : 3 ≤ length) :
    (fltAnalog32 psrcdata length).1.toNat =
      ((samples psrcdata length.toNat).sum - (fltLoop32 psrcdata length.toNat).adMax.toNat -
        (fltLoop32 psrcdata length.toNat).adMin.toNat) / (length.toNat - 2) := by
  have hthree : 3 ≤ length.toNat := h
  have hlt : length.toNat ≤ 65535 := Nat.le_of_lt_succ length.toNat_lt
  have htrim := fltLoop32_trimmed psrcdata (Nat.le_of_succ_le hthree) hlt
  have hfew : ¬ length ≤ 2 := Nat.not_le.mpr hthree
  have hcount : (length.toUInt32 - 2).toNat = length.toNat - 2 :=
    UInt32.toNat_sub_of_le _ _ (Nat.le_of_succ_le hthree)
  have hne : length.toNat ≠ 0 := by omega
  have hquot := (fltLoop32_extremes psrcdata hne).mean_le (hthree.trans_eq length_samples.symm)
  rw [length_samples] at hquot
  unfold fltAnalog32
  dsimp only
  rw [if_neg hfew, UInt32.toNat_toUInt16, UInt32.toNat_div, htrim, hcount]
  exact Nat.mod_eq_of_lt (hquot.trans_lt (UInt16.toNat_lt _))

/-- The loop in numbers goes through the same values. -/
theorem fltLoop_eq (n : Nat) : (List.range n).foldl (fltStep psrcdata) ⟨0, 0, 0⟩ =
    ⟨(fltLoop32 psrcdata n).adMax, (fltLoop32 psrcdata n).adMin, (samples psrcdata n).sum⟩ := by
  induction n with
  | zero => rfl
  | succ n ih =>
    rw [List.range_succ, List.foldl_append, List.foldl_cons, List.foldl_nil, ih, fltLoop32_succ,
      samples_succ, List.sum_append, List.sum_singleton]
    unfold fltStep fltStep32
    dsimp only
    split_ifs <;> rfl

/-- The model in numbers is exact. -/
theorem fltAnalog32_eq (length : UInt16) :
    fltAnalog32 psrcdata length = fltAnalog psrcdata length.toNat := by
  have hlt : length.toNat ≤ 65535 := Nat.le_of_lt_succ length.toNat_lt
  have havg : (fltAnalog psrcdata length.toNat).1 = (fltAnalog32 psrcdata length).1 := by
    unfold fltAnalog
    rw [fltLoop_eq]
    dsimp only
    by_cases h : length ≤ 2
    · have hfew : length.toNat ≤ 2 := h
      unfold fltAnalog32
      dsimp only
      rw [if_pos hfew, if_pos h, ← fltLoop32_adSum psrcdata hlt]
      rfl
    · have hthree : 3 ≤ length := Nat.lt_of_not_le h
      have hmany : ¬ length.toNat ≤ 2 := h
      rw [if_neg hmany, ← fltAnalog32_stored psrcdata hthree, UInt16.ofNat_toNat]
  refine Prod.ext havg.symm ?_
  show (if 2048 ≤ (fltAnalog32 psrcdata length).1 then _ else _) =
    if 2048 ≤ (fltAnalog psrcdata length.toNat).1 then _ else _
  rw [havg, fltLoop_eq]

end

/-- What `FltAnalog` computes: the mean of the samples without a greatest and a least one,
rounded down, with no sum out of 32 bits and no difference below zero. -/
structure TrimsMean (psrcdata : Nat → UInt16) (length : UInt16) : Prop where
  extremes : Extremes (samples psrcdata length.toNat)
    (fltLoop32 psrcdata length.toNat).adMax.toNat (fltLoop32 psrcdata length.toNat).adMin.toNat
  partialSums : ∀ k ≤ length.toNat,
    (fltLoop32 psrcdata k).adSum.toNat = (samples psrcdata k).sum
  noUnderflow : (fltLoop32 psrcdata length.toNat).adMax.toNat +
      (fltLoop32 psrcdata length.toNat).adMin.toNat ≤ (samples psrcdata length.toNat).sum
  stored : (fltAnalog32 psrcdata length).1.toNat =
    ((samples psrcdata length.toNat).sum - (fltLoop32 psrcdata length.toNat).adMax.toNat -
      (fltLoop32 psrcdata length.toNat).adMin.toNat) / (length.toNat - 2)
  secondSmallest : ((samples psrcdata length.toNat).mergeSort (· ≤ ·)).getD 1 0 ≤
    (fltAnalog32 psrcdata length).1.toNat
  secondLargest : (fltAnalog32 psrcdata length).1.toNat ≤
    ((samples psrcdata length.toNat).mergeSort (· ≤ ·)).getD (length.toNat - 2) 0
  order : ∀ q : Nat → UInt16, (samples q length.toNat).Perm (samples psrcdata length.toNat) →
    (fltAnalog32 q length).1 = (fltAnalog32 psrcdata length).1
  monotone : ∀ q : Nat → UInt16, (∀ i < length.toNat, psrcdata i ≤ q i) →
    (fltAnalog32 psrcdata length).1 ≤ (fltAnalog32 q length).1

/-- At every length from three on. -/
theorem fltAnalog_trimsMean (psrcdata : Nat → UInt16) {length : UInt16} (h : 3 ≤ length) :
    TrimsMean psrcdata length := by
  have hthree : 3 ≤ length.toNat := h
  have hne : length.toNat ≠ 0 := by omega
  have hext : ∀ q, Extremes (samples q length.toNat) (fltLoop32 q length.toNat).adMax.toNat
      (fltLoop32 q length.toNat).adMin.toNat := fun q => fltLoop32_extremes q hne
  have hlen : 3 ≤ (samples psrcdata length.toNat).length := hthree.trans_eq length_samples.symm
  have hbetween := (hext psrcdata).mean_between hlen
  rw [length_samples, ← fltAnalog32_stored psrcdata h] at hbetween
  exact {
    extremes := hext psrcdata
    partialSums := fun k hk =>
      fltLoop32_adSum psrcdata (hk.trans (Nat.le_of_lt_succ length.toNat_lt))
    noUnderflow := ((hext psrcdata).between (Nat.le_of_succ_le hlen)).1
    stored := fltAnalog32_stored psrcdata h
    secondSmallest := hbetween.1
    secondLargest := hbetween.2
    order := fun q hq => by
      obtain ⟨hmax, hmin⟩ := ((hext q).perm hq).unique (hext psrcdata)
      rw [← UInt16.toNat_inj, fltAnalog32_stored q h, fltAnalog32_stored psrcdata h, hmax, hmin,
        hq.sum_eq]
    monotone := fun q hq => by
      rw [UInt16.le_iff_toNat_le, fltAnalog32_stored q h, fltAnalog32_stored psrcdata h]
      exact Nat.div_le_div_right (trimmed_mono (Nat.le_of_succ_le hthree) (hext psrcdata) (hext q)
        fun i hi => hq i hi) }

theorem fltAnalog_trimsMean_ten : TrimsMean (fun i => i.toUInt16) 10 :=
  fltAnalog_trimsMean _ (by decide)

/-! ## `Filter_JP` -/

/-- The bands of `Filter_JP` on an `s32`. -/
def jpBand (dV : Int32) : Int32 :=
  if 20 ≤ dV ∨ dV ≤ -20 then dV / 4
  else if 10 ≤ dV ∨ dV ≤ -10 then dV / 2
  else dV

/-- `adAdj` before it is clamped, from operands promoted to `s32`. -/
def adAdj32 (lv v : UInt16) : Int32 :=
  Int32.ofNat lv.toNat + jpBand (Int32.ofNat v.toNat - Int32.ofNat lv.toNat)

/-- The clamp. -/
def jpClamp (adAdj : Int32) : Int32 := if adAdj < 0 then 0 else adAdj

/-- The array and the sum of `Filter_JP`. -/
structure JpLocals where
  pSrc : Nat → UInt16
  adSum : UInt32

/-- The body of the loop: the store keeps the low 16 bits. -/
def jpStep32 (lv : UInt16) (s : JpLocals) (j : Nat) : JpLocals :=
  let adAdj := jpClamp (adAdj32 lv (s.pSrc j))
  { pSrc := Function.update s.pSrc j adAdj.toUInt32.toUInt16
    adSum := s.adSum + adAdj.toUInt32 }

/-- The locals after `n` passes of the loop. -/
def jpLoop32 (pSrc : Nat → UInt16) (lv : UInt16) (n : Nat) : JpLocals :=
  (List.range n).foldl (jpStep32 lv) ⟨pSrc, 0⟩

/-- `Filter_JP` with 16 and 32 bits: the array that it leaves and what it returns. -/
def filterJP32 (pSrc : Nat → UInt16) (lv mlength : UInt16) : (Nat → UInt16) × UInt16 :=
  let s := jpLoop32 pSrc lv mlength.toNat
  (s.pSrc, (s.adSum / mlength.toUInt32).toUInt16)

/-- What a pass leaves of the distance from the last value. -/
def damp (d : Nat) : Nat := if 20 ≤ d then d / 4 else if 10 ≤ d then d / 2 else d

theorem damp_le (d : Nat) : damp d ≤ d := by
  unfold damp
  split_ifs <;> omega

theorem damp_far {d : Nat} (h : 20 ≤ d) : 4 * damp d ≤ d := by
  unfold damp
  rw [if_pos h]
  omega

theorem damp_near {d : Nat} (h : d ≤ 9) : damp d = d := by
  unfold damp
  rw [if_neg (by omega), if_neg (by omega)]

/-- A pass either divides by four or ends below ten. -/
theorem damp_pass {k d : Nat} (h : d ≤ 9 ∨ 4 ^ k * d ≤ 65535) :
    damp d ≤ 9 ∨ 4 ^ (k + 1) * damp d ≤ 65535 := by
  by_cases hfar : 20 ≤ d
  · obtain hd | hd := h
    · omega
    · refine .inr ?_
      calc 4 ^ (k + 1) * damp d = 4 ^ k * (4 * damp d) := by ring
        _ ≤ 4 ^ k * d := Nat.mul_le_mul_left _ (damp_far hfar)
        _ ≤ 65535 := hd
  · left
    unfold damp
    split_ifs <;> omega

/-- Seven passes bring every distance of 16 bits below ten, and it stays there. -/
theorem damp_settles {d n : Nat} (h : d ≤ 65535) (hn : 7 ≤ n) : damp^[n] d ≤ 9 := by
  have hrun : ∀ n, damp^[n] d ≤ 9 ∨ 4 ^ n * damp^[n] d ≤ 65535 := by
    intro n
    induction n with
    | zero => exact .inr (by simpa using h)
    | succ n ih =>
      rw [Function.iterate_succ_apply']
      exact damp_pass ih
  obtain hdone | hsmall := hrun n
  · exact hdone
  · by_contra hbig
    have hpow : 4 ^ 7 * 10 ≤ 4 ^ n * damp^[n] d :=
      Nat.mul_le_mul (Nat.pow_le_pow_right (by decide) hn) (by omega)
    omega

/-- The bands of `Filter_JP` in numbers. -/
def jpBandInt (dV : Int) : Int :=
  if 20 ≤ dV ∨ dV ≤ -20 then dV.tdiv 4
  else if 10 ≤ dV ∨ dV ≤ -10 then dV.tdiv 2
  else dV

/-- They keep the sign of the difference. -/
theorem jpBandInt_eq (dV : Int) :
    jpBandInt dV = if 0 ≤ dV then (damp dV.toNat : Int) else -(damp (-dV).toNat : Int) := by
  unfold jpBandInt damp
  by_cases h : 0 ≤ dV
  · rw [if_pos h, Int.tdiv_eq_ediv_of_nonneg h, Int.tdiv_eq_ediv_of_nonneg h]
    split_ifs <;> omega
  · -- the quotient is that of the negative, rounded towards zero
    have hneg : ∀ b, dV.tdiv b = -(-dV / b) := fun b => by
      rw [← Int.tdiv_eq_ediv_of_nonneg (by omega), Int.neg_tdiv, Int.neg_neg]
    rw [if_neg h, hneg, hneg]
    split_ifs <;> omega

/-- Both divisors are positive, so that no quotient overflows. -/
theorem jpBand_toInt (dV : Int32) : (jpBand dV).toInt = jpBandInt dV.toInt := by
  have hfour : (dV / 4).toInt = dV.toInt.tdiv 4 := Int32.toInt_div_of_ne_right dV 4 (by decide)
  have htwo : (dV / 2).toInt = dV.toInt.tdiv 2 := Int32.toInt_div_of_ne_right dV 2 (by decide)
  have h20 : (20 : Int32).toInt = 20 := by decide
  have h20' : (-20 : Int32).toInt = -20 := by decide
  have h10 : (10 : Int32).toInt = 10 := by decide
  have h10' : (-10 : Int32).toInt = -10 := by decide
  unfold jpBand jpBandInt
  simp only [Int32.le_iff_toInt_le, h20, h20', h10, h10', ← hfour, ← htwo]
  split_ifs <;> rfl

section
variable (lv v : UInt16)

/-- What `Filter_JP` makes of a sample: it stays on its side of the last value. -/
def corrected : Nat :=
  if lv.toNat ≤ v.toNat then lv.toNat + damp (v.toNat - lv.toNat)
  else lv.toNat - damp (lv.toNat - v.toNat)

/-- A corrected sample lies between the last value and the sample. -/
theorem corrected_between : lv.toNat ≤ corrected lv v ∧ corrected lv v ≤ v.toNat ∨
    v.toNat ≤ corrected lv v ∧ corrected lv v ≤ lv.toNat := by
  have hup := damp_le (v.toNat - lv.toNat)
  have hdown := damp_le (lv.toNat - v.toNat)
  unfold corrected
  split_ifs <;> omega

theorem corrected_lt : corrected lv v < 65536 := by
  have hbetween := corrected_between lv v
  have hlv := lv.toNat_lt
  have hv := v.toNat_lt
  omega

/-- Its distance from the last value. -/
theorem dist_corrected :
    Nat.dist lv.toNat (corrected lv v) = damp (Nat.dist lv.toNat v.toNat) := by
  have hdown := damp_le (lv.toNat - v.toNat)
  unfold corrected
  split_ifs with h
  · rw [Nat.dist_eq_sub_of_le h, Nat.dist_eq_sub_of_le (Nat.le_add_right _ _),
      Nat.add_sub_cancel_left]
  · rw [Nat.dist_eq_sub_of_le_right (Nat.le_of_not_le h),
      Nat.dist_eq_sub_of_le_right (Nat.sub_le _ _)]
    omega

/-- Near the last value a sample is left as it is. -/
theorem corrected_near (h : Nat.dist lv.toNat v.toNat ≤ 9) : corrected lv v = v.toNat := by
  unfold Nat.dist at h
  unfold corrected
  split_ifs
  · rw [damp_near (by omega)]
    omega
  · rw [damp_near (by omega)]
    omega

theorem dist_le : Nat.dist lv.toNat v.toNat ≤ 65535 := by
  have hlv := lv.toNat_lt
  have hv := v.toNat_lt
  unfold Nat.dist
  omega

theorem add_jpBandInt :
    (lv.toNat : Int) + jpBandInt ((v.toNat : Int) - lv.toNat) = corrected lv v := by
  have hdown := damp_le (lv.toNat - v.toNat)
  unfold corrected
  rw [jpBandInt_eq]
  by_cases h : lv.toNat ≤ v.toNat
  · have hdiff : ((v.toNat : Int) - lv.toNat).toNat = v.toNat - lv.toNat := by omega
    rw [if_pos h, if_pos (by omega), hdiff, Nat.cast_add]
  · have hdiff : (-((v.toNat : Int) - lv.toNat)).toNat = lv.toNat - v.toNat := by omega
    rw [if_neg h, if_neg (by omega), hdiff]
    omega

/-- The model in numbers computes it. -/
theorem adAdj_eq : adAdj lv v = corrected lv v := by
  show ((lv.toNat : Int) + jpBandInt ((v.toNat : Int) - lv.toNat)).toNat = _
  rw [add_jpBandInt, Int.toNat_natCast]

/-- So does the 32-bit arithmetic. -/
theorem adAdj32_toInt : (adAdj32 lv v).toInt = corrected lv v := by
  have hlv : (Int32.ofNat lv.toNat).toInt = lv.toNat :=
    Int32.toInt_ofNat_of_lt (lv.toNat_lt.trans (by decide))
  have hv : (Int32.ofNat v.toNat).toInt = v.toNat :=
    Int32.toInt_ofNat_of_lt (v.toNat_lt.trans (by decide))
  have hlv' := lv.toNat_lt
  have hv' := v.toNat_lt
  have hdV : (Int32.ofNat v.toNat - Int32.ofNat lv.toNat).toInt = (v.toNat : Int) - lv.toNat := by
    rw [Int32.toInt_sub, hlv, hv]
    apply Int.bmod_eq_of_le <;> omega
  have hlt := corrected_lt lv v
  unfold adAdj32
  rw [Int32.toInt_add, hlv, jpBand_toInt, hdV, add_jpBandInt]
  apply Int.bmod_eq_of_le <;> omega

/-- The clamp changes nothing. -/
theorem jpClamp_adAdj32 : jpClamp (adAdj32 lv v) = adAdj32 lv v := by
  unfold jpClamp
  rw [if_neg]
  rw [Int32.lt_iff_toInt_lt, adAdj32_toInt]
  exact Int.not_lt.mpr (Int.natCast_nonneg _)

theorem adAdj32_toUInt32 : (adAdj32 lv v).toUInt32.toNat = corrected lv v := by
  have hnonneg : 0 ≤ adAdj32 lv v := by
    rw [Int32.le_iff_toInt_le, adAdj32_toInt]
    exact Int.natCast_nonneg _
  rw [Int32.toNat_toUInt32_of_le hnonneg, ← Int32.toNat_toInt, adAdj32_toInt, Int.toNat_natCast]

/-- The store keeps the whole value. -/
theorem adAdj32_stored : (adAdj32 lv v).toUInt32.toUInt16.toNat = corrected lv v := by
  rw [UInt32.toNat_toUInt16, adAdj32_toUInt32, Nat.mod_eq_of_lt (corrected_lt lv v)]

end

/-! ### The loop -/

section
variable (pSrc : Nat → UInt16) (lv : UInt16)

theorem jpLoop32_succ (n : Nat) :
    jpLoop32 pSrc lv (n + 1) = jpStep32 lv (jpLoop32 pSrc lv n) n := by
  unfold jpLoop32
  rw [List.range_succ, List.foldl_append]
  rfl

/-- The passes correct the places that they have reached and no others. -/
theorem jpLoop32_pSrc (n i : Nat) : ((jpLoop32 pSrc lv n).pSrc i).toNat =
    if i < n then corrected lv (pSrc i) else (pSrc i).toNat := by
  induction n generalizing i with
  | zero => rfl
  | succ n ih =>
    rw [jpLoop32_succ]
    show (Function.update (jpLoop32 pSrc lv n).pSrc n _ i).toNat = _
    by_cases hi : i = n
    · subst hi
      have hsame : (jpLoop32 pSrc lv i).pSrc i = pSrc i := by
        rw [← UInt16.toNat_inj, ih, if_neg (Nat.lt_irrefl i)]
      rw [Function.update_self, jpClamp_adAdj32, adAdj32_stored, if_pos (Nat.lt_succ_self i), hsame]
    · have hlt : i < n + 1 ↔ i < n := by omega
      rw [Function.update_of_ne hi, ih]
      simp only [hlt]

/-- The sum of up to 65535 corrected samples has 32 bits. -/
theorem jpLoop32_adSum {n : Nat} (hn : n ≤ 65535) : (jpLoop32 pSrc lv n).adSum.toNat =
    ((List.range n).map fun i => corrected lv (pSrc i)).sum := by
  induction n with
  | zero => rfl
  | succ n ih =>
    have hle := sum_range_le (fun i => corrected_lt lv (pSrc i)) (n + 1)
    have hsame : (jpLoop32 pSrc lv n).pSrc n = pSrc n := by
      rw [← UInt16.toNat_inj, jpLoop32_pSrc, if_neg (Nat.lt_irrefl n)]
    rw [List.range_succ, List.map_append, List.sum_append, List.map_singleton,
      List.sum_singleton] at hle ⊢
    rw [jpLoop32_succ]
    show ((jpLoop32 pSrc lv n).adSum +
      (jpClamp (adAdj32 lv ((jpLoop32 pSrc lv n).pSrc n))).toUInt32).toNat = _
    rw [UInt32.toNat_add, ih (by omega), hsame, jpClamp_adAdj32, adAdj32_toUInt32]
    omega

variable (mlength : UInt16)

theorem filterJP32_fst (i : Nat) : ((filterJP32 pSrc lv mlength).1 i).toNat =
    if i < mlength.toNat then corrected lv (pSrc i) else (pSrc i).toNat :=
  jpLoop32_pSrc pSrc lv _ i

/-- The corrected samples as numbers. -/
theorem samples_filterJP32 {n : Nat} (hn : n ≤ mlength.toNat) :
    samples (filterJP32 pSrc lv mlength).1 n =
      (List.range n).map fun i => corrected lv (pSrc i) := by
  refine List.map_congr_left fun i hi => ?_
  rw [filterJP32_fst, if_pos ((List.mem_range.mp hi).trans_le hn)]

/-- The sum over the length, rounded down. -/
theorem filterJP32_snd : (filterJP32 pSrc lv mlength).2.toNat =
    (samples (filterJP32 pSrc lv mlength).1 mlength.toNat).sum / mlength.toNat := by
  have hlen : mlength.toNat ≤ 65535 := Nat.le_of_lt_succ mlength.toNat_lt
  have hquot := Nat.div_le_of_le_mul
    (sum_range_le (fun i => corrected_lt lv (pSrc i)) mlength.toNat)
  rw [samples_filterJP32 _ _ _ le_rfl]
  show ((jpLoop32 pSrc lv mlength.toNat).adSum / mlength.toUInt32).toUInt16.toNat = _
  rw [UInt32.toNat_toUInt16, UInt32.toNat_div, jpLoop32_adSum pSrc lv hlen,
    UInt16.toNat_toUInt32]
  exact Nat.mod_eq_of_lt (Nat.lt_succ_of_le hquot)

/-- The model in numbers is exact. -/
theorem filterJP32_eq : filterJP32 pSrc lv mlength = filterJP pSrc lv mlength.toNat := by
  have hsum : (List.range mlength.toNat).foldl (fun adSum j => adSum + adAdj lv (pSrc j)) 0 =
      ((List.range mlength.toNat).map fun i => corrected lv (pSrc i)).sum := by
    rw [List.sum_eq_foldl, List.foldl_map]
    simp only [adAdj_eq]
  refine Prod.ext (funext fun i => ?_) ?_
  · show _ = if i < mlength.toNat then UInt16.ofNat (adAdj lv (pSrc i)) else pSrc i
    rw [← UInt16.toNat_inj, filterJP32_fst]
    split_ifs
    · rw [adAdj_eq, UInt16.toNat_ofNat', Nat.mod_eq_of_lt (corrected_lt lv _)]
    · rfl
  · show _ = UInt16.ofNat (_ / mlength.toNat)
    rw [hsum, ← samples_filterJP32 _ _ _ le_rfl, ← filterJP32_snd, UInt16.ofNat_toNat]

/-- Repeated with the same last value, it damps every distance again and again. -/
theorem dist_filterJP32 {j : Nat} (hj : j < mlength.toNat) (n : Nat) :
    Nat.dist lv.toNat (((fun p => (filterJP32 p lv mlength).1)^[n] pSrc) j).toNat =
      damp^[n] (Nat.dist lv.toNat (pSrc j).toNat) := by
  have hstep : Function.Semiconj (fun p : Nat → UInt16 => Nat.dist lv.toNat (p j).toNat)
      (fun p => (filterJP32 p lv mlength).1) damp := fun p => by
    show Nat.dist lv.toNat ((filterJP32 p lv mlength).1 j).toNat = _
    rw [filterJP32_fst, if_pos hj, dist_corrected]
  exact (hstep.iterate_right n).eq pSrc

end

/-- What `Filter_JP` does to an array and returns for it. -/
structure CorrectsSamples (pSrc : Nat → UInt16) (lv mlength : UInt16) : Prop where
  /-- A corrected sample lies between the last value and the sample. -/
  between : ∀ j < mlength.toNat,
    lv ≤ (filterJP32 pSrc lv mlength).1 j ∧ (filterJP32 pSrc lv mlength).1 j ≤ pSrc j ∨
      pSrc j ≤ (filterJP32 pSrc lv mlength).1 j ∧ (filterJP32 pSrc lv mlength).1 j ≤ lv
  /-- Neither the clamp nor the store changes a value. -/
  exact : ∀ j < mlength.toNat, jpClamp (adAdj32 lv (pSrc j)) = adAdj32 lv (pSrc j) ∧
    (adAdj32 lv (pSrc j)).toInt = ((filterJP32 pSrc lv mlength).1 j).toNat
  quarter : ∀ j < mlength.toNat, 20 < Nat.dist lv.toNat (pSrc j).toNat →
    4 * Nat.dist lv.toNat ((filterJP32 pSrc lv mlength).1 j).toNat ≤
      Nat.dist lv.toNat (pSrc j).toNat
  partialSums : ∀ k ≤ mlength.toNat, (jpLoop32 pSrc lv k).adSum.toNat =
    (samples (filterJP32 pSrc lv mlength).1 k).sum
  mean : ∃ hi lo, Extremes (samples (filterJP32 pSrc lv mlength).1 mlength.toNat) hi lo ∧
    lo ≤ (filterJP32 pSrc lv mlength).2.toNat ∧ (filterJP32 pSrc lv mlength).2.toNat ≤ hi
  /-- Seven applications are enough for every sample. -/
  settles : ∀ n ≥ 7, ∀ j < mlength.toNat,
    Nat.dist lv.toNat (((fun p => (filterJP32 p lv mlength).1)^[n] pSrc) j).toNat ≤ 9
  steady : ∀ j < mlength.toNat, Nat.dist lv.toNat (pSrc j).toNat ≤ 9 →
    (filterJP32 pSrc lv mlength).1 j = pSrc j

/-- At every length and every last value. -/
theorem filterJP_correctsSamples (pSrc : Nat → UInt16) (lv : UInt16) {mlength : UInt16}
    (hm : mlength ≠ 0) : CorrectsSamples pSrc lv mlength := by
  have hout : ∀ j < mlength.toNat, ((filterJP32 pSrc lv mlength).1 j).toNat =
      corrected lv (pSrc j) := fun j hj => by
    rw [filterJP32_fst, if_pos hj]
  exact {
    between := fun j hj => by
      simp only [UInt16.le_iff_toNat_le, hout j hj]
      exact corrected_between lv (pSrc j)
    exact := fun j hj => ⟨jpClamp_adAdj32 lv _, by rw [adAdj32_toInt, hout j hj]⟩
    quarter := fun j hj hfar => by
      rw [hout j hj, dist_corrected]
      exact damp_far hfar.le
    partialSums := fun k hk => by
      rw [samples_filterJP32 _ _ _ hk,
        jpLoop32_adSum _ _ (hk.trans (Nat.le_of_lt_succ mlength.toNat_lt))]
    mean := by
      have hsome : samples (filterJP32 pSrc lv mlength).1 mlength.toNat ≠ [] := fun hnil => by
        have hzero := congrArg List.length hnil
        rw [length_samples] at hzero
        exact hm (UInt16.toNat_inj.mp hzero)
      obtain ⟨hi, lo, h⟩ := Extremes.exists_of_ne_nil hsome
      have hmean := h.mean_all
      rw [length_samples, ← filterJP32_snd] at hmean
      exact ⟨hi, lo, h, hmean⟩
    settles := fun n hn j hj => by
      rw [dist_filterJP32 _ _ _ hj]
      exact damp_settles (dist_le lv (pSrc j)) hn
    steady := fun j hj hnear => by
      rw [← UInt16.toNat_inj, hout j hj, corrected_near lv (pSrc j) hnear] }

theorem filterJP_correctsSamples_four : CorrectsSamples (fun i => (i * 10000).toUInt16) 500 4 :=
  filterJP_correctsSamples _ _ (by decide)

end SC04Monitor.Drivers
