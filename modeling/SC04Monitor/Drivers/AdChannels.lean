import Mathlib.Data.Nat.Sqrt
import Mathlib.Logic.Function.Basic
import SC04Monitor.Lib.Run
import SC04Monitor.Lib.Scan

/-! # The analog inputs

Twelve inputs are numbered four times on their way: by converter and rank, by the row
of `AD_Origine`, by the member `inVal01_AD` to `inVal16_AD` and by `BaseData01` to
`BaseData12`. The last three agree. `AppAd::Calculate` takes them for an order of the
inputs that the converters are not configured for. -/

namespace SC04Monitor.Drivers
open SC04Monitor.Lib.Run SC04Monitor.Lib.Scan

def adcFlt1BufferSize : Nat := 10
def adcFlt2BufferSize : Nat := 16
def adc1Channels : Nat := 6
def adc3Channels : Nat := 6

/-- The buffers of the two converters, written by DMA. -/
structure DmaBuffers where
  adc1ValTemp : Nat → UInt16
  adc3ValTemp : Nat → UInt16

/-- The arrays `AD_Origine*` by channel, and the static variables of `TemFltAnalog`. -/
structure AdState where
  adOrigine : Nat → Nat → UInt16
  adOrigineFL1 : Nat → UInt16
  adOrigineFL2 : Nat → Nat → UInt16
  adOrigineFL : Nat → UInt16
  fltIndex : Nat
  adModeAfterSysRst : Bool
  adModeAfterSysRstCnt : UInt16

def AdState.init : AdState :=
  ⟨fun _ _ => 0, fun _ => 0, fun _ _ => 0, fun _ => 0, 0, true, 0⟩

/-! ## The filters -/

/-- The locals of `FltAnalog`. -/
structure FltAcc where
  adMax : UInt16
  adMin : UInt16
  adSum : Nat

/-- The body of the loop of `FltAnalog`. -/
def fltStep (psrcdata : Nat → UInt16) (a : FltAcc) (sampTimes : Nat) : FltAcc :=
  let adData := psrcdata sampTimes
  let a := { a with adSum := a.adSum + adData.toNat }
  if sampTimes = 0 then { a with adMax := adData, adMin := adData }
  else if a.adMax < adData then { a with adMax := adData }
  else if adData < a.adMin then { a with adMin := adData }
  else a

/-- `FltAnalog`: what it stores and what it returns. -/
def fltAnalog (psrcdata : Nat → UInt16) (length : Nat) : UInt16 × UInt16 :=
  let a := (List.range length).foldl (fltStep psrcdata) ⟨0, 0, 0⟩
  let avg :=
    if length ≤ 2 then UInt16.ofNat (a.adSum / 2)
    else UInt16.ofNat ((a.adSum - a.adMax.toNat - a.adMin.toNat) / (length - 2))
  (avg, if 2048 ≤ avg then a.adMax else a.adMin)

/-- The body of the loop of `ACFltAnalog`; the sum has 32 bits. -/
def acFltStep (vSrc : Nat → UInt16) (zData : UInt16) (sumVal i : Nat) : Nat :=
  let val := if zData ≤ vSrc i then (vSrc i).toNat - zData.toNat else zData.toNat - (vSrc i).toNat
  (sumVal + val * val) % 4294967296

/-- `ACFltAnalog`: the root of the mean square, rounded down. -/
def acFltAnalog (vSrc : Nat → UInt16) (zData : UInt16) (size : Nat) : UInt16 :=
  UInt16.ofNat (Nat.sqrt ((List.range size).foldl (acFltStep vSrc zData) 0 / size))

/-- What the loop of `Filter_JP` makes of one value. -/
def adAdj (lv v : UInt16) : Nat :=
  let dV : Int := (v.toNat : Int) - lv.toNat
  let dV :=
    if 20 ≤ dV ∨ dV ≤ -20 then dV.tdiv 4
    else if 10 ≤ dV ∨ dV ≤ -10 then dV.tdiv 2
    else dV
  ((lv.toNat : Int) + dV).toNat

/-- `Filter_JP`: the array that it leaves and what it returns. -/
def filterJP (pSrc : Nat → UInt16) (lv : UInt16) (mlength : Nat) : (Nat → UInt16) × UInt16 :=
  (fun j => if j < mlength then UInt16.ofNat (adAdj lv (pSrc j)) else pSrc j,
    UInt16.ofNat ((List.range mlength).foldl (fun adSum j => adSum + adAdj lv (pSrc j)) 0 / mlength))

/-- `TemFltAnalog`. All channels share `fltIndex` and the count of calls. -/
def temFltAnalog (psrcdata : Nat → UInt16) (channel : Nat) (s : AdState) : UInt16 × AdState :=
  let fl1 := (fltAnalog psrcdata adcFlt1BufferSize).1
  let row := Function.update (s.adOrigineFL2 channel) s.fltIndex fl1
  let fltIndex := if adcFlt2BufferSize ≤ s.fltIndex + 1 then 0 else s.fltIndex + 1
  let s := { s with
    adOrigineFL1 := Function.update s.adOrigineFL1 channel fl1
    fltIndex }
  if s.adModeAfterSysRst then
    (row fltIndex,
      { s with
        adOrigineFL2 := Function.update s.adOrigineFL2 channel row
        adModeAfterSysRst := !decide (50 ≤ s.adModeAfterSysRstCnt)
        adModeAfterSysRstCnt := s.adModeAfterSysRstCnt + 1 })
  else
    let r := filterJP row (s.adOrigineFL channel) adcFlt2BufferSize
    (r.2, { s with adOrigineFL2 := Function.update s.adOrigineFL2 channel r.1 })

/-! ## `AD_Collection` -/

/-- `Ad_GetOrig`. -/
def adGetOrig (d : DmaBuffers) (s : AdState) : AdState :=
  { s with
    adOrigine := fun r =>
      if r < 6 then fun i => d.adc1ValTemp (i * adc1Channels + r)
      else if r < 12 then fun i => d.adc3ValTemp (i * adc3Channels + (r - 6))
      else s.adOrigine r }

/-- `AD_Origine_FL[channel] = TemFltAnalog(AD_Origine[channel], channel)`. -/
def temCall (s : AdState) (channel : Nat) : AdState :=
  let r := temFltAnalog (s.adOrigine channel) channel s
  { r.2 with adOrigineFL := Function.update r.2.adOrigineFL channel r.1 }

/-- `FltAnalog(AD_Origine[channel], &AD_Origine_FL[channel], ADC_FLT1_BUFFER_SIZE)`. -/
def fltCall (s : AdState) (channel : Nat) : AdState :=
  { s with
    adOrigineFL := Function.update s.adOrigineFL channel
      (fltAnalog (s.adOrigine channel) adcFlt1BufferSize).1 }

/-- `ACFltAnalog(AD_Origine[channel], AD_Origine_FL[channel], ADC_FLT1_BUFFER_SIZE)`: the
result is not stored. -/
def acFltCall (s : AdState) (channel : Nat) : AdState :=
  let _val := acFltAnalog (s.adOrigine channel) (s.adOrigineFL channel) adcFlt1BufferSize
  s

/-- `AD_FL`. -/
def adFL (s : AdState) : AdState :=
  [9, 10].foldl acFltCall ([6, 7, 8, 11].foldl fltCall ((List.range 6).foldl temCall s))

/-- `AD_Interface_DataInteract`: the members `inVal01_AD` to `inVal16_AD`. -/
def inValAD (s : AdState) (n : Nat) : UInt16 := s.adOrigineFL (n - 1)

/-! ## `AppAd` -/

structure AppAd where
  ch1InCurent : UInt16
  ch2InCurent : UInt16
  module1Temp : UInt16
  module2Temp : UInt16
  fanInTemp : UInt16
  fanOutTemp : UInt16
  cap1Temp : UInt16
  cap2Temp : UInt16
  ch1AC : UInt16
  ch2AC : UInt16
  busVolt : UInt16

section
variable (pt100GetTempr : UInt16 → Int) (adcGetV : UInt16 → UInt16)

/-- `(tp + 500) / 10` of a temperature. -/
def temprOf (v : UInt16) : UInt16 := UInt16.ofInt ((pt100GetTempr v + 500).tdiv 10)

/-- `AppAd::Calculate`; `adcGetV` stands for `10*ADC_DC_KA*ADC_GET_V`. -/
def calculate (baseData : Nat → UInt16) : AppAd where
  ch1InCurent := adcGetV (baseData 1)
  ch2InCurent := adcGetV (baseData 2)
  module1Temp := temprOf pt100GetTempr (baseData 4)
  module2Temp := temprOf pt100GetTempr (baseData 5)
  fanInTemp := temprOf pt100GetTempr (baseData 6)
  fanOutTemp := temprOf pt100GetTempr (baseData 7)
  cap1Temp := temprOf pt100GetTempr (baseData 8)
  cap2Temp := temprOf pt100GetTempr (baseData 9)
  ch1AC := adcGetV (baseData 10)
  ch2AC := adcGetV (baseData 11)
  busVolt := adcGetV (baseData 12)

/-- `AD_Collection`. -/
def adCollection (s : AdState) (d : DmaBuffers) : AdState := adFL (adGetOrig d s)

/-- `ADC_ReadInput`: what it leaves and the quantities. `GetVal` copies `inVal01_AD` to
`inVal12_AD` into `BaseData01` to `BaseData12`. -/
def adcReadInput (s : AdState) (d : DmaBuffers) : AdState × AppAd :=
  let s := adCollection s d
  (s, calculate pt100GetTempr adcGetV (inValAD s))

end

/-! ## The inputs -/

/-- The inputs as the converters are configured for them in `System_hw_ADC_Init`: the six
ranks of `ADC1`, then those of `ADC3`. -/
inductive AdcInput
  | tmp0  -- module 1
  | tmp1  -- module 2
  | tmp2  -- air inlet
  | tmp3  -- air outlet
  | tmp4  -- capacitors 1
  | tmp5  -- capacitors 2
  | iAD0  -- rectified current 1
  | iAD1  -- rectified current 2
  | iAD2  -- reserve
  | uAD0  -- AC input voltage 1
  | uAD1  -- AC input voltage 2
  | uAD2  -- bus voltage
  deriving DecidableEq

/-- Its converter is `ADC1`. -/
def AdcInput.onAdc1 : AdcInput → Bool
  | .tmp0 | .tmp1 | .tmp2 | .tmp3 | .tmp4 | .tmp5 => true
  | .iAD0 | .iAD1 | .iAD2 | .uAD0 | .uAD1 | .uAD2 => false

/-- Its rank there. -/
def AdcInput.rank : AdcInput → Nat
  | .tmp0 | .iAD0 => 1
  | .tmp1 | .iAD1 => 2
  | .tmp2 | .iAD2 => 3
  | .tmp3 | .uAD0 => 4
  | .tmp4 | .uAD1 => 5
  | .tmp5 | .uAD2 => 6

/-- The samples of an input: six ranks one behind the other, again and again. -/
def DmaBuffers.samples (d : DmaBuffers) (c : AdcInput) (i : Nat) : UInt16 :=
  if c.onAdc1 then d.adc1ValTemp (i * adc1Channels + (c.rank - 1))
  else d.adc3ValTemp (i * adc3Channels + (c.rank - 1))

/-- The row of `AD_Origine` that takes the samples of an input. -/
def AdcInput.row (c : AdcInput) : Nat :=
  if c.onAdc1 then c.rank - 1 else adc1Channels + (c.rank - 1)

/-- The result of the filter of an input: the value that `TemFltAnalog` returns for a
temperature, the root mean square for an AC voltage, the mean without the extremes for
the rest. -/
def filterResult (s : AdState) (d : DmaBuffers) (c : AdcInput) : UInt16 :=
  match c with
  | .tmp0 | .tmp1 | .tmp2 | .tmp3 | .tmp4 | .tmp5 =>
    (temFltAnalog (d.samples c) c.row ((List.range c.row).foldl temCall (adGetOrig d s))).1
  | .iAD0 | .iAD1 | .iAD2 | .uAD2 => (fltAnalog (d.samples c) adcFlt1BufferSize).1
  | .uAD0 | .uAD1 => acFltAnalog (d.samples c) (s.adOrigineFL c.row) adcFlt1BufferSize

/-- The quantities of `AppAd`. -/
inductive Quantity
  | ch1InCurent | ch2InCurent
  | module1Temp | module2Temp | fanInTemp | fanOutTemp | cap1Temp | cap2Temp
  | ch1AC | ch2AC
  | busVolt
  deriving DecidableEq

namespace Quantity

/-- The input of a quantity. -/
def input : Quantity → AdcInput
  | module1Temp => .tmp0
  | module2Temp => .tmp1
  | fanInTemp => .tmp2
  | fanOutTemp => .tmp3
  | cap1Temp => .tmp4
  | cap2Temp => .tmp5
  | ch1InCurent => .iAD0
  | ch2InCurent => .iAD1
  | ch1AC => .uAD0
  | ch2AC => .uAD1
  | busVolt => .uAD2

/-- Its value in the object `AD`. -/
def get (a : AppAd) : Quantity → UInt16
  | ch1InCurent => a.ch1InCurent
  | ch2InCurent => a.ch2InCurent
  | module1Temp => a.module1Temp
  | module2Temp => a.module2Temp
  | fanInTemp => a.fanInTemp
  | fanOutTemp => a.fanOutTemp
  | cap1Temp => a.cap1Temp
  | cap2Temp => a.cap2Temp
  | ch1AC => a.ch1AC
  | ch2AC => a.ch2AC
  | busVolt => a.busVolt

/-- Its conversion. -/
def convert (pt100GetTempr : UInt16 → Int) (adcGetV : UInt16 → UInt16) : Quantity → UInt16 → UInt16
  | module1Temp | module2Temp | fanInTemp | fanOutTemp | cap1Temp | cap2Temp => temprOf pt100GetTempr
  | ch1InCurent | ch2InCurent | ch1AC | ch2AC | busVolt => adcGetV

end Quantity

/-! ## What the filters leave -/

section
variable (s : AdState) (d d' : DmaBuffers)

/-- The rows of `AD_Origine` are the inputs. -/
theorem adGetOrig_row (c : AdcInput) : (adGetOrig d s).adOrigine c.row = d.samples c := by
  cases c <;> rfl

theorem temCall_adOrigine (r : Nat) : (temCall s r).adOrigine = s.adOrigine := by
  unfold temCall temFltAnalog
  dsimp only
  split_ifs <;> rfl

theorem temCalls_adOrigine (l : List Nat) : (l.foldl temCall s).adOrigine = s.adOrigine :=
  scan_frame AdState.adOrigine (fun r _ s => temCall_adOrigine s r) s

/-- A call for one temperature leaves the rows of the others. -/
theorem temCall_of_ne {j r : Nat} (h : r ≠ j) :
    (temCall s j).adOrigineFL r = s.adOrigineFL r ∧
      (temCall s j).adOrigineFL2 r = s.adOrigineFL2 r := by
  unfold temCall temFltAnalog
  dsimp only
  split_ifs <;> exact ⟨Function.update_of_ne h _ _, Function.update_of_ne h _ _⟩

theorem temCall_self (r : Nat) :
    (temCall s r).adOrigineFL r = (temFltAnalog (s.adOrigine r) r s).1 :=
  Function.update_self _ _ _

/-- After the calls for the temperatures each of them has the result of its own call. -/
theorem temCalls_fl {n r : Nat} (h : r < n) :
    ((List.range n).foldl temCall s).adOrigineFL r =
      (temFltAnalog (s.adOrigine r) r ((List.range r).foldl temCall s)).1 := by
  induction n with
  | zero => omega
  | succ n ih =>
    rw [List.range_succ, List.foldl_append, List.foldl_cons, List.foldl_nil]
    rcases Nat.lt_succ_iff_lt_or_eq.mp h with hlt | rfl
    · rw [(temCall_of_ne _ (Nat.ne_of_lt hlt)).1, ih hlt]
    · rw [temCall_self, temCalls_adOrigine]

/-- The calls for the temperatures leave the other rows. -/
theorem temCalls_other {n r : Nat} (h : n ≤ r) :
    ((List.range n).foldl temCall s).adOrigineFL r = s.adOrigineFL r ∧
      ((List.range n).foldl temCall s).adOrigineFL2 r = s.adOrigineFL2 r :=
  ⟨scan_frame (fun s => s.adOrigineFL r)
      (fun j hj s => (temCall_of_ne s (by have := List.mem_range.mp hj; omega)).1) s,
    scan_frame (fun s => s.adOrigineFL2 r)
      (fun j hj s => (temCall_of_ne s (by have := List.mem_range.mp hj; omega)).2) s⟩

/-- What `AD_FL` stores for each row. -/
theorem adFL_row (r : Nat) : (adFL s).adOrigineFL r =
    if r = 6 ∨ r = 7 ∨ r = 8 ∨ r = 11 then (fltAnalog (s.adOrigine r) adcFlt1BufferSize).1
    else ((List.range 6).foldl temCall s).adOrigineFL r := by
  have hrows := temCalls_adOrigine s (List.range 6)
  unfold adFL
  simp only [List.foldl_cons, List.foldl_nil, acFltCall, fltCall, hrows]
  by_cases h11 : r = 11
  · subst h11
    simp
  by_cases h8 : r = 8
  · subst h8
    simp
  by_cases h7 : r = 7
  · subst h7
    simp
  by_cases h6 : r = 6
  · subst h6
    simp
  simp [h6, h7, h8, h11]

/-- What `AD_FL` stores for an input is the result of its filter, but for the AC voltages,
whose results are lost. -/
theorem adCollection_fl (c : AdcInput) (h : c ≠ .uAD0 ∧ c ≠ .uAD1) :
    (adCollection s d).adOrigineFL c.row = filterResult s d c := by
  have hrow := adGetOrig_row s d c
  unfold adCollection
  rw [adFL_row]
  cases c with
  | uAD0 => exact absurd rfl h.1
  | uAD1 => exact absurd rfl h.2
  | iAD0 | iAD1 | iAD2 | uAD2 =>
    rw [if_pos (by decide), hrow]
    rfl
  | tmp0 | tmp1 | tmp2 | tmp3 | tmp4 | tmp5 =>
    rw [if_neg (by decide), temCalls_fl _ (by decide), hrow]
    rfl

theorem adCollection_ac (c : AdcInput) (h : c = .uAD0 ∨ c = .uAD1) :
    (adCollection s d).adOrigineFL c.row = s.adOrigineFL c.row := by
  unfold adCollection
  rw [adFL_row]
  rcases h with rfl | rfl
  · rw [if_neg (by decide), (temCalls_other _ (by decide)).1]
    rfl
  · rw [if_neg (by decide), (temCalls_other _ (by decide)).1]
    rfl

end

/-! ## What the filters depend on -/

section
variable {f g : Nat → UInt16} {n : Nat}

theorem fltAnalog_congr (h : ∀ i < n, f i = g i) : fltAnalog f n = fltAnalog g n := by
  have hloop : (List.range n).foldl (fltStep f) ⟨0, 0, 0⟩ =
      (List.range n).foldl (fltStep g) ⟨0, 0, 0⟩ :=
    List.foldl_ext _ _ _ fun a i hi => by
      unfold fltStep
      rw [h i (List.mem_range.mp hi)]
  unfold fltAnalog
  rw [hloop]

theorem acFltAnalog_congr (zData : UInt16) (h : ∀ i < n, f i = g i) :
    acFltAnalog f zData n = acFltAnalog g zData n := by
  have hloop : (List.range n).foldl (acFltStep f zData) 0 =
      (List.range n).foldl (acFltStep g zData) 0 :=
    List.foldl_ext _ _ _ fun a i hi => by
      unfold acFltStep
      rw [h i (List.mem_range.mp hi)]
  unfold acFltAnalog
  rw [hloop]

end

/-- What `TemFltAnalog` reads for a channel besides the samples. -/
def AdState.temView (s : AdState) (r : Nat) : (Nat → UInt16) × UInt16 × Nat × Bool × UInt16 :=
  (s.adOrigineFL2 r, s.adOrigineFL r, s.fltIndex, s.adModeAfterSysRst, s.adModeAfterSysRstCnt)

theorem temFltAnalog_congr {f g : Nat → UInt16} {r : Nat} {s t : AdState}
    (hv : s.temView r = t.temView r) (h : ∀ i < adcFlt1BufferSize, f i = g i) :
    (temFltAnalog f r s).1 = (temFltAnalog g r t).1 := by
  simp only [AdState.temView, Prod.mk.injEq] at hv
  obtain ⟨hrow, hfl, hidx, hmode, -⟩ := hv
  unfold temFltAnalog
  simp only [fltAnalog_congr h, hrow, hfl, hidx, hmode]
  split_ifs <;> rfl

/-- The call for another temperature moves what the channels share, whatever the samples. -/
theorem temCall_view {j r : Nat} {s t : AdState} (hne : r ≠ j) (hv : s.temView r = t.temView r) :
    (temCall s j).temView r = (temCall t j).temView r := by
  obtain ⟨hs, hs2⟩ := temCall_of_ne s hne
  obtain ⟨ht, ht2⟩ := temCall_of_ne t hne
  simp only [AdState.temView, Prod.mk.injEq] at hv ⊢
  obtain ⟨hrow, hfl, hidx, hmode, hcnt⟩ := hv
  refine ⟨by rw [hs2, ht2, hrow], by rw [hs, ht, hfl], ?_⟩
  unfold temCall temFltAnalog
  simp only [hidx, hmode, hcnt]
  split_ifs <;> exact ⟨rfl, rfl, rfl⟩

section
variable (s : AdState) {d d' : DmaBuffers}

theorem temCalls_view (d d' : DmaBuffers) {n r : Nat} (h : n ≤ r) :
    ((List.range n).foldl temCall (adGetOrig d s)).temView r =
      ((List.range n).foldl temCall (adGetOrig d' s)).temView r := by
  induction n with
  | zero => rfl
  | succ n ih =>
    rw [List.range_succ, List.foldl_append, List.foldl_append]
    exact temCall_view (by omega) (ih (by omega))

/-- The result of a filter depends on the samples of its own input only. -/
theorem filterResult_congr {c : AdcInput}
    (h : ∀ i < adcFlt1BufferSize, d.samples c i = d'.samples c i) :
    filterResult s d c = filterResult s d' c := by
  have htem := temFltAnalog_congr (temCalls_view s d d' (Nat.le_refl c.row)) h
  have hflt := congrArg Prod.fst (fltAnalog_congr h)
  have hac := acFltAnalog_congr (s.adOrigineFL c.row) h
  cases c with
  | tmp0 | tmp1 | tmp2 | tmp3 | tmp4 | tmp5 => exact htem
  | iAD0 | iAD1 | iAD2 | uAD2 => exact hflt
  | uAD0 | uAD1 => exact hac

end

/-! ## The routing -/

section
variable (pt100GetTempr : UInt16 → Int) (adcGetV : UInt16 → UInt16) (s : AdState) (d : DmaBuffers)

/-- The quantity is the conversion of the filter result of its own input. -/
def Routed (q : Quantity) : Prop :=
  q.get (adcReadInput pt100GetTempr adcGetV s d).2 =
    q.convert pt100GetTempr adcGetV (filterResult s d q.input)

/-- The value that `AppAd::Calculate` converts for a quantity: the filter result of another
input, or what the row of an AC voltage held before. -/
def takenFor : Quantity → UInt16
  | .ch1InCurent => filterResult s d .tmp0
  | .ch2InCurent => filterResult s d .tmp1
  | .module1Temp => filterResult s d .tmp3
  | .module2Temp => filterResult s d .tmp4
  | .fanInTemp => filterResult s d .tmp5
  | .fanOutTemp => filterResult s d .iAD0
  | .cap1Temp => filterResult s d .iAD1
  | .cap2Temp => filterResult s d .iAD2
  | .ch1AC => s.adOrigineFL 9
  | .ch2AC => s.adOrigineFL 10
  | .busVolt => filterResult s d .uAD2

theorem get_eq (q : Quantity) : q.get (adcReadInput pt100GetTempr adcGetV s d).2 =
    q.convert pt100GetTempr adcGetV (takenFor s d q) := by
  have hown := adCollection_fl s d
  cases q with
  | ch1InCurent => exact congrArg adcGetV (hown .tmp0 (by decide))
  | ch2InCurent => exact congrArg adcGetV (hown .tmp1 (by decide))
  | module1Temp => exact congrArg (temprOf pt100GetTempr) (hown .tmp3 (by decide))
  | module2Temp => exact congrArg (temprOf pt100GetTempr) (hown .tmp4 (by decide))
  | fanInTemp => exact congrArg (temprOf pt100GetTempr) (hown .tmp5 (by decide))
  | fanOutTemp => exact congrArg (temprOf pt100GetTempr) (hown .iAD0 (by decide))
  | cap1Temp => exact congrArg (temprOf pt100GetTempr) (hown .iAD1 (by decide))
  | cap2Temp => exact congrArg (temprOf pt100GetTempr) (hown .iAD2 (by decide))
  | ch1AC => exact congrArg adcGetV (adCollection_ac s d .uAD0 (by decide))
  | ch2AC => exact congrArg adcGetV (adCollection_ac s d .uAD1 (by decide))
  | busVolt => exact congrArg adcGetV (hown .uAD2 (by decide))

/-- Where inputs are mixed up they convert alike: the currents and the temperatures each
with the input that is read in its place, the AC voltages with what their rows held. -/
structure Alike : Prop where
  ch1InCurent : adcGetV (filterResult s d .tmp0) = adcGetV (filterResult s d .iAD0)
  ch2InCurent : adcGetV (filterResult s d .tmp1) = adcGetV (filterResult s d .iAD1)
  module1Temp : temprOf pt100GetTempr (filterResult s d .tmp3) =
    temprOf pt100GetTempr (filterResult s d .tmp0)
  module2Temp : temprOf pt100GetTempr (filterResult s d .tmp4) =
    temprOf pt100GetTempr (filterResult s d .tmp1)
  fanInTemp : temprOf pt100GetTempr (filterResult s d .tmp5) =
    temprOf pt100GetTempr (filterResult s d .tmp2)
  fanOutTemp : temprOf pt100GetTempr (filterResult s d .iAD0) =
    temprOf pt100GetTempr (filterResult s d .tmp3)
  cap1Temp : temprOf pt100GetTempr (filterResult s d .iAD1) =
    temprOf pt100GetTempr (filterResult s d .tmp4)
  cap2Temp : temprOf pt100GetTempr (filterResult s d .iAD2) =
    temprOf pt100GetTempr (filterResult s d .tmp5)
  ch1AC : adcGetV (s.adOrigineFL 9) = adcGetV (filterResult s d .uAD0)
  ch2AC : adcGetV (s.adOrigineFL 10) = adcGetV (filterResult s d .uAD1)

theorem routed_iff_alike : (∀ q, Routed pt100GetTempr adcGetV s d q) ↔
    Alike pt100GetTempr adcGetV s d := by
  have hget := get_eq pt100GetTempr adcGetV s d
  constructor
  · intro h
    have heq : ∀ q : Quantity, q.convert pt100GetTempr adcGetV (takenFor s d q) =
        q.convert pt100GetTempr adcGetV (filterResult s d q.input) :=
      fun q => (hget q).symm.trans (h q)
    exact ⟨heq .ch1InCurent, heq .ch2InCurent, heq .module1Temp, heq .module2Temp, heq .fanInTemp,
      heq .fanOutTemp, heq .cap1Temp, heq .cap2Temp, heq .ch1AC, heq .ch2AC⟩
  · intro h q
    unfold Routed
    rw [hget]
    cases q with
    | ch1InCurent => exact h.ch1InCurent
    | ch2InCurent => exact h.ch2InCurent
    | module1Temp => exact h.module1Temp
    | module2Temp => exact h.module2Temp
    | fanInTemp => exact h.fanInTemp
    | fanOutTemp => exact h.fanOutTemp
    | cap1Temp => exact h.cap1Temp
    | cap2Temp => exact h.cap2Temp
    | ch1AC => exact h.ch1AC
    | ch2AC => exact h.ch2AC
    | busVolt => rfl

/-- Changing the samples of input `c` changes no quantity but its own. -/
def Isolated (d' : DmaBuffers) (c : AdcInput) : Prop :=
  (∀ b, b ≠ c → ∀ i < adcFlt1BufferSize, d.samples b i = d'.samples b i) →
    ∀ q : Quantity, q.input ≠ c → q.get (adcReadInput pt100GetTempr adcGetV s d).2 =
      q.get (adcReadInput pt100GetTempr adcGetV s d').2

/-- Every quantity is the conversion of its own input exactly if the inputs that are mixed
up convert alike; between two contents of the buffers for which they do, the samples of an
input matter to its own quantity only. -/
theorem channels_routed_iff (pt100GetTempr : UInt16 → Int) (adcGetV : UInt16 → UInt16)
    (s : AdState) (d : DmaBuffers) :
    ((∀ q, Routed pt100GetTempr adcGetV s d q) ↔ Alike pt100GetTempr adcGetV s d) ∧
      ∀ d' c, Alike pt100GetTempr adcGetV s d → Alike pt100GetTempr adcGetV s d' →
        Isolated pt100GetTempr adcGetV s d d' c := by
  refine ⟨routed_iff_alike pt100GetTempr adcGetV s d, ?_⟩
  intro d' c h h' hsame q hq
  have hr := (routed_iff_alike pt100GetTempr adcGetV s d).mpr h q
  have hr' := (routed_iff_alike pt100GetTempr adcGetV s d').mpr h' q
  unfold Routed at hr hr'
  rw [hr, hr', filterResult_congr s (hsame q.input hq)]

end

/-- `PT100_GetTempr` as it reads 0 and 800: below its table, and 0 degrees. -/
def pt100At (v : UInt16) : Int := if v = 800 then 0 else 19999

/-- The scaling of a 12-bit sample, `10*30000.0/40*3.00/4096` times it, rounded down. -/
def scaleAt (v : UInt16) : UInt16 := UInt16.ofNat (v.toNat * 5625 / 1024)

/-- With nothing at any input all are alike. -/
theorem silent_routed : ∀ q, Routed pt100At scaleAt .init ⟨fun _ => 0, fun _ => 0⟩ q := by
  refine (channels_routed_iff pt100At scaleAt .init ⟨fun _ => 0, fun _ => 0⟩).1.mpr ?_
  exact ⟨by decide +kernel, by decide +kernel, by decide +kernel, by decide +kernel,
    by decide +kernel, by decide +kernel, by decide +kernel, by decide +kernel,
    by decide +kernel, by decide +kernel⟩

/-! ## Runs -/

/-- The state after `n` calls of `AD_Collection` since power-on. -/
def adStateAt (ds : Nat → DmaBuffers) (n : Nat) : AdState := stateAt adCollection .init ds n

/-- The rows of the AC voltages are never written: whatever is sampled, both voltages are
read as the conversion of 0. -/
theorem ac_reads_zero (pt100GetTempr : UInt16 → Int) (adcGetV : UInt16 → UInt16)
    (ds : Nat → DmaBuffers) (n : Nat) :
    (adcReadInput pt100GetTempr adcGetV (adStateAt ds n) (ds n)).2.ch1AC = adcGetV 0 ∧
      (adcReadInput pt100GetTempr adcGetV (adStateAt ds n) (ds n)).2.ch2AC = adcGetV 0 := by
  have hrows : (adStateAt ds n).adOrigineFL 9 = 0 ∧ (adStateAt ds n).adOrigineFL 10 = 0 := by
    refine stateAt_inv (P := fun s : AdState => s.adOrigineFL 9 = 0 ∧ s.adOrigineFL 10 = 0)
      ⟨rfl, rfl⟩ (fun s d h => ?_) n
    exact ⟨(adCollection_ac s d .uAD0 (by decide)).trans h.1,
      (adCollection_ac s d .uAD1 (by decide)).trans h.2⟩
  refine ⟨?_, ?_⟩
  · exact (get_eq pt100GetTempr adcGetV _ (ds n) .ch1AC).trans (congrArg adcGetV hrows.1)
  · exact (get_eq pt100GetTempr adcGetV _ (ds n) .ch2AC).trans (congrArg adcGetV hrows.2)

/-- The first current alone is sampled as 800, all else as 0. -/
def currentOnly : DmaBuffers := ⟨fun _ => 0, fun i => if i % 6 = 0 then 800 else 0⟩

/-- After power-on the current is read as 0, from the first temperature. -/
theorem currentOnly_misrouted :
    filterResult .init currentOnly .iAD0 = 800 ∧ scaleAt 800 = 4394 ∧
      (adcReadInput pt100At scaleAt .init currentOnly).2.ch1InCurent = 0 ∧
      ¬ ∀ q, Routed pt100At scaleAt .init currentOnly q := by
  refine ⟨by decide +kernel, by decide +kernel, by decide +kernel, fun h => ?_⟩
  have hcurrent := h .ch1InCurent
  unfold Routed at hcurrent
  exact absurd hcurrent (by decide +kernel)

end SC04Monitor.Drivers
