import Mathlib.Logic.Function.Basic
import SC04Monitor.Lib.LevelFilter
import SC04Monitor.Lib.Scan

/-! # The digital inputs

32 inputs are read from two words of the FPGA and filtered one by one, each with two
counters of its own. -/

namespace SC04Monitor.Drivers
open SC04Monitor.Lib.Run SC04Monitor.Lib.Scan SC04Monitor.Lib.LevelFilter

def inputChanelMax : Nat := 32
def ioFltLenth : Nat := 20
def ioFltValidcounts : Nat := 15

/-- `DS_INPUTF`. No counter passes `FlLenth`, so none of them wraps. -/
structure DsInputF where
  gpioVal : Bool
  inVal : Bool
  ioHighLevels : Nat
  ioLowLevels : Nat
  flLenth : Nat
  validCounts : Nat

/-- `Bsp_Dio_Init`, with the length and the number of valid counts that it sets. -/
def bspDioInit (flLenth validCounts : Nat) : Nat → DsInputF :=
  fun _ => ⟨false, false, 0, 0, flLenth, validCounts⟩

/-- Bit `scanChl % 16` of a word. -/
def levelOf (inputBuff : UInt16) (scanChl : Nat) : Bool :=
  (inputBuff >>> UInt16.ofNat (scanChl % 16)) &&& 1 != 0

/-- The body of the loop of `readInput`, with `inputBuff` and `sysInputF`. -/
def readStep (fpga : Nat → UInt16) (s : UInt16 × (Nat → DsInputF)) (scanChl : Nat) :
    UInt16 × (Nat → DsInputF) :=
  let inputBuff := if scanChl % 16 = 0 then fpga (scanChl / 16) else s.1
  (inputBuff,
    Function.update s.2 scanChl { s.2 scanChl with gpioVal := levelOf inputBuff scanChl })

/-- `readInput`, with the words at `FGPA_INPUT_ADDR`. -/
def readInput (fpga : Nat → UInt16) (sysInputF : Nat → DsInputF) : Nat → DsInputF :=
  ((List.range inputChanelMax).foldl (readStep fpga) (0, sysInputF)).2

/-- The first half of the loop of `processInputF`: the sample is counted. -/
def countInput (p : DsInputF) : DsInputF :=
  if p.gpioVal then
    let p := if p.ioHighLevels < p.flLenth then { p with ioHighLevels := p.ioHighLevels + 1 } else p
    if 0 < p.ioLowLevels then { p with ioLowLevels := p.ioLowLevels - 1 } else p
  else
    let p := if p.ioLowLevels < p.flLenth then { p with ioLowLevels := p.ioLowLevels + 1 } else p
    if 0 < p.ioHighLevels then { p with ioHighLevels := p.ioHighLevels - 1 } else p

/-- The second half: the input is updated. -/
def updateInput (p : DsInputF) : DsInputF :=
  if p.validCounts ≤ p.ioHighLevels then { p with inVal := true }
  else if p.validCounts ≤ p.ioLowLevels then { p with inVal := false }
  else p

/-- The body of the loop of `processInputF`. -/
def processInput (p : DsInputF) : DsInputF := updateInput (countInput p)

/-- `processInputF`. -/
def processInputF (sysInputF : Nat → DsInputF) : Nat → DsInputF :=
  (List.range inputChanelMax).foldl (fun s i => Function.update s i (processInput (s i))) sysInputF

/-- `IO_ReadInput`. -/
def ioReadInput (sysInputF : Nat → DsInputF) (fpga : Nat → UInt16) : Nat → DsInputF :=
  processInputF (readInput fpga sysInputF)

/-- The inputs before call `n` of `IO_ReadInput`. -/
def inputsAt (flLenth validCounts : Nat) (fpga : Nat → Nat → UInt16) (n : Nat) : Nat → DsInputF :=
  stateAt ioReadInput (bspDioInit flLenth validCounts) fpga n

/-- The sample of channel `i` in call `n`. -/
def sampleAt (fpga : Nat → Nat → UInt16) (i n : Nat) : Bool := levelOf (fpga n (i / 16)) i

/-! ## One call -/

section
variable (fpga : Nat → UInt16) (s : Nat → DsInputF)

/-- The channels that `readInput` has read, and the word that it holds. -/
theorem readSteps (n : Nat) :
    (n % 16 ≠ 0 → ((List.range n).foldl (readStep fpga) (0, s)).1 = fpga (n / 16)) ∧
      ∀ i, ((List.range n).foldl (readStep fpga) (0, s)).2 i =
        if i < n then { s i with gpioVal := levelOf (fpga (i / 16)) i } else s i := by
  induction n with
  | zero => exact ⟨fun h => absurd rfl h, fun i => (if_neg (Nat.not_lt_zero i)).symm⟩
  | succ n ih =>
    obtain ⟨hbuff, hrows⟩ := ih
    rw [List.range_succ, List.foldl_append, List.foldl_cons, List.foldl_nil]
    generalize (List.range n).foldl (readStep fpga) (0, s) = t at hbuff hrows
    have hword : (if n % 16 = 0 then fpga (n / 16) else t.1) = fpga (n / 16) := by
      split_ifs with h0
      · rfl
      · exact hbuff h0
    unfold readStep
    rw [hword]
    refine ⟨fun h => ?_, fun i => ?_⟩
    · rw [show (n + 1) / 16 = n / 16 by omega]
    · dsimp only
      rcases eq_or_ne i n with rfl | hne
      · rw [Function.update_self, hrows, if_neg (Nat.lt_irrefl i), if_pos (Nat.lt_succ_self i)]
      · rw [Function.update_of_ne hne, hrows]
        exact if_congr (by omega) rfl rfl

theorem readInput_apply {i : Nat} (hi : i < inputChanelMax) :
    readInput fpga s i = { s i with gpioVal := levelOf (fpga (i / 16)) i } := by
  unfold readInput
  rw [(readSteps fpga s inputChanelMax).2, if_pos hi]

theorem processInputF_apply {i : Nat} (hi : i < inputChanelMax) :
    processInputF s i = processInput (s i) := by
  obtain ⟨t, ht, he⟩ := scan_at (fun s : Nat → DsInputF => s i) (List.nodup_range)
    (List.mem_range.mpr hi) (fun j _ hne s => Function.update_of_ne (Ne.symm hne) _ _) s
  unfold processInputF
  rw [he, Function.update_self, ht]

end

/-- The counters and the output of a channel. -/
def DsInputF.filter (p : DsInputF) : Filter where
  count b := if b then p.ioHighLevels else p.ioLowLevels
  out := p.inVal

theorem countInput_eq (p : DsInputF) :
    countInput p = { p with
      ioHighLevels := p.filter.counted p.flLenth p.gpioVal true
      ioLowLevels := p.filter.counted p.flLenth p.gpioVal false } := by
  obtain ⟨gpioVal, inVal, high, low, flLenth, validCounts⟩ := p
  unfold countInput Filter.counted DsInputF.filter
  cases gpioVal with
  | true =>
    by_cases hF : high < flLenth <;> by_cases h0 : 0 < low <;> simp [hF, h0] <;> omega
  | false =>
    by_cases hF : low < flLenth <;> by_cases h0 : 0 < high <;> simp [hF, h0] <;> omega

theorem updateInput_eq (p : DsInputF) :
    updateInput p = { p with
      inVal := if p.validCounts ≤ p.ioHighLevels then true
        else if p.validCounts ≤ p.ioLowLevels then false else p.inVal } := by
  unfold updateInput
  split_ifs <;> rfl

/-- The body of the loop of `processInputF` is a step of the filter with two counters. -/
theorem processInput_eq (p : DsInputF) :
    processInput p =
      let s := p.filter.step p.flLenth p.validCounts p.gpioVal
      { p with inVal := s.out, ioHighLevels := s.count true, ioLowLevels := s.count false } := by
  unfold processInput
  rw [countInput_eq, updateInput_eq]
  rfl

theorem processInput_filter (p : DsInputF) :
    (processInput p).filter = p.filter.step p.flLenth p.validCounts p.gpioVal := by
  rw [processInput_eq]
  unfold DsInputF.filter
  dsimp only
  congr 1
  funext b
  cases b <;> rfl

/-! ## Every run -/

section
variable (flLenth validCounts : Nat) (fpga : Nat → Nat → UInt16) (n : Nat) {i : Nat}

theorem inputsAt_succ (hi : i < inputChanelMax) : inputsAt flLenth validCounts fpga (n + 1) i =
    processInput { inputsAt flLenth validCounts fpga n i with gpioVal := sampleAt fpga i n } := by
  show ioReadInput (inputsAt flLenth validCounts fpga n) (fpga n) i = _
  unfold ioReadInput
  rw [processInputF_apply _ hi, readInput_apply _ _ hi]
  rfl

theorem inputsAt_const (hi : i < inputChanelMax) :
    (inputsAt flLenth validCounts fpga n i).flLenth = flLenth ∧
      (inputsAt flLenth validCounts fpga n i).validCounts = validCounts := by
  induction n with
  | zero => exact ⟨rfl, rfl⟩
  | succ n ih =>
    rw [inputsAt_succ _ _ _ _ hi, processInput_eq]
    exact ih

/-- A channel is a filter of its own samples. -/
theorem inputsAt_filter (hi : i < inputChanelMax) :
    (inputsAt flLenth validCounts fpga n i).filter =
      Filter.after flLenth validCounts (sampleAt fpga i) n := by
  induction n with
  | zero =>
    show DsInputF.filter ⟨false, false, 0, 0, flLenth, validCounts⟩ = Filter.init
    unfold DsInputF.filter Filter.init
    congr 1
    funext b
    cases b <;> rfl
  | succ n ih =>
    obtain ⟨hF, hV⟩ := inputsAt_const flLenth validCounts fpga n hi
    rw [inputsAt_succ _ _ _ _ hi, processInput_filter, Filter.after_succ, ← ih]
    dsimp only
    rw [hF, hV]
    rfl

end

/-- What the filter of a channel promises. -/
structure Debounced (flLenth validCounts : Nat) (fpga : Nat → Nat → UInt16) (i : Nat) : Prop where
  sum_le : ∀ n, (inputsAt flLenth validCounts fpga n i).ioHighLevels +
    (inputsAt flLenth validCounts fpga n i).ioLowLevels ≤ flLenth
  exclusive : ∀ n, ¬ (validCounts ≤ (inputsAt flLenth validCounts fpga n i).ioHighLevels ∧
    validCounts ≤ (inputsAt flLenth validCounts fpga n i).ioLowLevels)
  forced : ∀ n b, (∀ k, k < validCounts → sampleAt fpga i (n + k) = b) →
    (inputsAt flLenth validCounts fpga (n + validCounts) i).inVal = b
  to_sample : ∀ n,
    (inputsAt flLenth validCounts fpga (n + 1) i).inVal ≠
      (inputsAt flLenth validCounts fpga n i).inVal →
    (inputsAt flLenth validCounts fpga (n + 1) i).inVal = sampleAt fpga i n
  spaced : ∀ m n, m < n →
    (inputsAt flLenth validCounts fpga (m + 1) i).inVal ≠
      (inputsAt flLenth validCounts fpga m i).inVal →
    (inputsAt flLenth validCounts fpga (n + 1) i).inVal ≠
      (inputsAt flLenth validCounts fpga n i).inVal →
    2 * validCounts - flLenth ≤ n - m
  own : ∀ fpga', (∀ n, sampleAt fpga' i n = sampleAt fpga i n) → ∀ n,
    (inputsAt flLenth validCounts fpga' n i).inVal = (inputsAt flLenth validCounts fpga n i).inVal

/-- Every channel is debounced, for every length and every number of valid counts above
half of it. -/
theorem inputs_debounced (flLenth validCounts : Nat) (hV : flLenth < 2 * validCounts)
    (hF : validCounts ≤ flLenth) (fpga : Nat → Nat → UInt16) (i : Nat) (hi : i < inputChanelMax) :
    Debounced flLenth validCounts fpga i := by
  have hfilter := fun fpga n => inputsAt_filter flLenth validCounts fpga n hi
  have hout : ∀ fpga n, (inputsAt flLenth validCounts fpga n i).inVal =
      (Filter.after flLenth validCounts (sampleAt fpga i) n).out :=
    fun fpga n => congrArg Filter.out (hfilter fpga n)
  have hsum : ∀ n, (inputsAt flLenth validCounts fpga n i).ioHighLevels +
      (inputsAt flLenth validCounts fpga n i).ioLowLevels ≤ flLenth := by
    intro n
    have h := (@Filter.after_inv _ _ (sampleAt fpga i) hV n).sum_le
    rw [← hfilter] at h
    exact h
  refine ⟨hsum, ?_, ?_, ?_, ?_, ?_⟩
  · intro n h
    have hle := hsum n
    omega
  · intro n b h
    rw [hout]
    exact Filter.out_of_equal hV hF h
  · intro n hne
    rw [hout, hout] at hne
    rw [hout]
    exact Filter.Changes.to_sample hV hne
  · intro m n hlt hm hn
    rw [hout, hout] at hm hn
    exact Filter.Changes.spaced hV hm hn hlt
  · intro fpga' h n
    rw [hout, hout, funext h]

theorem inputs_debounced_shipped :
    Debounced ioFltLenth ioFltValidcounts (fun _ _ => 1) 0 :=
  inputs_debounced ioFltLenth ioFltValidcounts (by decide) (by decide) (fun _ _ => 1) 0 (by decide)

end SC04Monitor.Drivers
