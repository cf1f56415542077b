import SC04Monitor.Drivers.AdChannels

/-! # The temperature filter

The six temperatures are filtered in turn and share one index into their second-stage
rings of 16. Six is even, and so is 16: a channel comes only to entries of its own parity.
The entry that the start-up mode returns is the one behind, of the other parity, which the
channel never comes to. -/

namespace SC04Monitor.Drivers
open SC04Monitor.Lib.Run SC04Monitor.Lib.Scan

section
variable (ds : Nat → DmaBuffers) (r c : Nat)

/-- The state in which `AD_FL` of round `r` calls `TemFltAnalog` for channel `c`. -/
def temCallState : AdState :=
  (List.range c).foldl temCall (adGetOrig (ds r) (stateAt adCollection .init ds r))

/-- What that call returns. -/
def temResult : UInt16 :=
  (temFltAnalog ((temCallState ds r c).adOrigine c) c (temCallState ds r c)).1

/-- The first-stage mean of the samples of round `r`. -/
def firstStage : UInt16 :=
  (fltAnalog (fun i => (ds r).adc1ValTemp (i * adc1Channels + c)) adcFlt1BufferSize).1

/-- Round `r` stores the first-stage mean of channel `c` in entry `j` of its ring. -/
def Refreshes (j : Nat) : Prop := (temCallState ds r c).fltIndex = j

/-- What the call for channel `c` in round `r` returns after calls for the channels `l`. -/
def resultAfter (l : List Nat) : UInt16 :=
  let s := l.foldl temCall (adGetOrig (ds r) (stateAt adCollection .init ds r))
  (temFltAnalog (s.adOrigine c) c s).1

end

/-- The filter of channel `c` follows its input: at once in the start-up mode, within a turn
of the ring in every entry, and whatever is filtered in between. -/
structure FollowsInput (ds : Nat → DmaBuffers) (c : Nat) : Prop where
  startUp : ∀ r, (temCallState ds r c).adModeAfterSysRst = true →
    temResult ds r c = firstStage ds r c
  refreshed : ∀ r j, j < adcFlt2BufferSize →
    ∃ k, k < adcFlt2BufferSize ∧ Refreshes ds (r + k) c j
  independent : ∀ r l l', c ∉ l → c ∉ l' → resultAfter ds r c l = resultAfter ds r c l'

/-! ## The calls from reset on -/

/-- The state after `n` calls of `TemFltAnalog`. -/
structure AfterCalls (n : Nat) (s : AdState) : Prop where
  fltIndex : s.fltIndex = n % adcFlt2BufferSize
  mode : s.adModeAfterSysRst = decide (n ≤ 50)
  cnt : n ≤ 51 → s.adModeAfterSysRstCnt = UInt16.ofNat n
  blank : n ≤ 51 → ∀ c j, j % 2 ≠ c % 2 → s.adOrigineFL2 c j = 0

section
variable {n c : Nat} {s : AdState}

theorem AfterCalls.init : AfterCalls 0 AdState.init :=
  ⟨rfl, rfl, fun _ => rfl, fun _ _ _ _ => rfl⟩

/-- The next index of the ring. -/
theorem next_fltIndex (h : s.fltIndex = n % adcFlt2BufferSize) :
    (if adcFlt2BufferSize ≤ s.fltIndex + 1 then 0 else s.fltIndex + 1) =
      (n + 1) % adcFlt2BufferSize := by
  unfold adcFlt2BufferSize at *
  split_ifs <;> omega

theorem temCall_fltIndex : (temCall s c).fltIndex =
    if adcFlt2BufferSize ≤ s.fltIndex + 1 then 0 else s.fltIndex + 1 := by
  unfold temCall temFltAnalog
  dsimp only
  split_ifs <;> rfl

/-- A call in the start-up mode. -/
theorem temCall_startUp (h : s.adModeAfterSysRst = true) :
    (temCall s c).adModeAfterSysRst = !decide (50 ≤ s.adModeAfterSysRstCnt) ∧
      (temCall s c).adModeAfterSysRstCnt = s.adModeAfterSysRstCnt + 1 ∧
      (temCall s c).adOrigineFL2 = Function.update s.adOrigineFL2 c
        (Function.update (s.adOrigineFL2 c) s.fltIndex
          (fltAnalog (s.adOrigine c) adcFlt1BufferSize).1) := by
  unfold temCall temFltAnalog
  dsimp only
  rw [if_pos h]
  exact ⟨rfl, rfl, rfl⟩

theorem temCall_afterwards (h : s.adModeAfterSysRst = false) :
    (temCall s c).adModeAfterSysRst = false := by
  unfold temCall temFltAnalog
  simp only [h, Bool.false_eq_true, if_false]

/-- The count of calls ends the start-up mode. -/
theorem startUp_count (hn : n ≤ 50) : (!decide (50 ≤ UInt16.ofNat n)) = decide (n + 1 ≤ 50) := by
  have hlt : n < UInt16.size := Nat.lt_of_le_of_lt hn (by decide)
  have hle : (50 : UInt16) ≤ UInt16.ofNat n ↔ 50 ≤ n := by
    rw [UInt16.le_iff_toNat_le, UInt16.toNat_ofNat_of_lt' hlt]
    rfl
  rw [← decide_not, decide_eq_decide, hle]
  omega

/-- A call for a channel of the parity of the index writes an entry of that parity. -/
theorem AfterCalls.blank_row (hs : AfterCalls n s) (hpar : c % 2 = n % 2) (hn : n ≤ 51)
    (v : UInt16) (c' j : Nat) (hj : j % 2 ≠ c' % 2) : Function.update s.adOrigineFL2 c
      (Function.update (s.adOrigineFL2 c) s.fltIndex v) c' j = 0 := by
  by_cases hc : c' = c
  · subst hc
    have hne : j ≠ s.fltIndex := by
      intro he
      rw [he, hs.fltIndex] at hj
      unfold adcFlt2BufferSize at hj
      omega
    rw [Function.update_self, Function.update_of_ne hne]
    exact hs.blank hn c' j hj
  · rw [Function.update_of_ne hc]
    exact hs.blank hn c' j hj

theorem AfterCalls.temCall (hs : AfterCalls n s) (hpar : c % 2 = n % 2) :
    AfterCalls (n + 1) (temCall s c) := by
  have hidx : (Drivers.temCall s c).fltIndex = (n + 1) % adcFlt2BufferSize := by
    rw [temCall_fltIndex, next_fltIndex hs.fltIndex]
  by_cases hn : n ≤ 50
  · obtain ⟨hmode, hcnt, hrow⟩ := temCall_startUp (c := c) (hs.mode.trans (decide_eq_true hn))
    have hold := hs.cnt (by omega)
    refine ⟨hidx, ?_, ?_, ?_⟩
    · rw [hmode, hold, startUp_count hn]
    · intro _
      rw [hcnt, hold]
      exact (UInt16.ofNat_add n 1).symm
    · intro _
      rw [hrow]
      exact hs.blank_row hpar (by omega) _
  · have hmode := temCall_afterwards (c := c) (hs.mode.trans (decide_eq_false hn))
    refine ⟨hidx, ?_, fun h => ?_, fun h => ?_⟩
    · rw [hmode, decide_eq_false (by omega)]
    · omega
    · omega

/-- The calls of one round up to a channel. -/
theorem AfterCalls.temCalls (hs : AfterCalls n s) (hn : n % 2 = 0) (m : Nat) :
    AfterCalls (n + m) ((List.range m).foldl Drivers.temCall s) := by
  induction m with
  | zero => exact hs
  | succ m ih =>
    rw [List.range_succ, List.foldl_append, List.foldl_cons, List.foldl_nil]
    exact ih.temCall (by omega)

/-- The inputs that are not temperatures have no part in it. -/
theorem AfterCalls.fltCall (hs : AfterCalls n s) (channel : Nat) :
    AfterCalls n (fltCall s channel) :=
  ⟨hs.fltIndex, hs.mode, hs.cnt, hs.blank⟩

theorem AfterCalls.acFltCall (hs : AfterCalls n s) (channel : Nat) :
    AfterCalls n (acFltCall s channel) := hs

theorem AfterCalls.adFL (hs : AfterCalls n s) (hn : n % 2 = 0) : AfterCalls (n + 6) (adFL s) := by
  have htem := hs.temCalls hn 6
  unfold Drivers.adFL
  simp only [List.foldl_cons, List.foldl_nil]
  exact (((((htem.fltCall 6).fltCall 7).fltCall 8).fltCall 11).acFltCall 9).acFltCall 10

theorem AfterCalls.adGetOrig (hs : AfterCalls n s) (d : DmaBuffers) :
    AfterCalls n (adGetOrig d s) :=
  ⟨hs.fltIndex, hs.mode, hs.cnt, hs.blank⟩

end

/-! ## Every history -/

section
variable (ds : Nat → DmaBuffers) (r c : Nat)

theorem afterCalls_round : AfterCalls (6 * r) (stateAt adCollection .init ds r) := by
  induction r with
  | zero => exact AfterCalls.init
  | succ r ih => exact (ih.adGetOrig (ds r)).adFL (by omega)

theorem afterCalls_temCallState : AfterCalls (6 * r + c) (temCallState ds r c) :=
  ((afterCalls_round ds r).adGetOrig (ds r)).temCalls (by omega) c

/-- The start-up mode lasts for 51 calls. -/
theorem startUp_iff : (temCallState ds r c).adModeAfterSysRst = true ↔ 6 * r + c ≤ 50 := by
  rw [(afterCalls_temCallState ds r c).mode]
  exact decide_eq_true_iff

theorem refreshes_iff (j : Nat) : Refreshes ds r c j ↔ (6 * r + c) % adcFlt2BufferSize = j := by
  unfold Refreshes
  rw [(afterCalls_temCallState ds r c).fltIndex]

end

section
variable {ds : Nat → DmaBuffers} {r c : Nat}

/-- In the start-up mode the returned entry is one that the channel never comes to. -/
theorem temResult_startUp (h : (temCallState ds r c).adModeAfterSysRst = true) :
    temResult ds r c = 0 := by
  have hs := afterCalls_temCallState ds r c
  have hn := (startUp_iff ds r c).mp h
  have hnext := next_fltIndex hs.fltIndex
  unfold temResult temFltAnalog
  dsimp only
  rw [if_pos h, hnext]
  have hne : (6 * r + c + 1) % adcFlt2BufferSize ≠ (temCallState ds r c).fltIndex := by
    rw [hs.fltIndex]
    unfold adcFlt2BufferSize
    omega
  rw [Function.update_of_ne hne]
  refine hs.blank (by omega) c _ ?_
  unfold adcFlt2BufferSize
  omega

theorem temCallState_adOrigine (hc : c < 6) : (temCallState ds r c).adOrigine c =
    fun i => (ds r).adc1ValTemp (i * adc1Channels + c) := by
  unfold temCallState
  rw [temCalls_adOrigine]
  exact if_pos hc

/-- What an entry holds that is refreshed in the start-up mode. -/
theorem Refreshes.stores {j : Nat} (hc : c < 6) (h : Refreshes ds r c j)
    (hm : (temCallState ds r c).adModeAfterSysRst = true) :
    (temCall (temCallState ds r c) c).adOrigineFL2 c j = firstStage ds r c := by
  obtain ⟨-, -, hrow⟩ := temCall_startUp (c := c) hm
  unfold Refreshes at h
  rw [hrow, h, Function.update_self, Function.update_self, temCallState_adOrigine hc]
  rfl

/-- The entries that 16 rounds refresh: those of the parity of the channel. -/
theorem refreshed_iff {j : Nat} (hj : j < adcFlt2BufferSize) :
    (∃ k, k < adcFlt2BufferSize ∧ Refreshes ds (r + k) c j) ↔ j % 2 = c % 2 := by
  simp only [refreshes_iff]
  unfold adcFlt2BufferSize at *
  constructor
  · intro h
    obtain ⟨k, -, hk⟩ := h
    omega
  · intro h
    -- `6 * k` comes to every even residue in eight rounds
    have hturn : ∀ e < 16, e % 2 = 0 → ∃ k < 16, 6 * k % 16 = e := by decide
    obtain ⟨k, hk, he⟩ := hturn ((j + 16 - (6 * r + c) % 16) % 16) (by omega) (by omega)
    exact ⟨k, hk, by omega⟩

end

/-- For no history and no temperature the filter follows its input: the start-up mode
returns 0 throughout, so that it is right for means of 0 only, and half of the entries are
never refreshed. -/
theorem temFilter_not_followsInput (ds : Nat → DmaBuffers) (c : Nat) :
    (∀ r, (temCallState ds r c).adModeAfterSysRst = true →
      (temResult ds r c = firstStage ds r c ↔ firstStage ds r c = 0)) ∧
    (∀ r j, j < adcFlt2BufferSize →
      ((∃ k, k < adcFlt2BufferSize ∧ Refreshes ds (r + k) c j) ↔ j % 2 = c % 2)) ∧
    ¬ FollowsInput ds c := by
  refine ⟨?_, ?_, ?_⟩
  · intro r h
    rw [temResult_startUp h]
    exact eq_comm
  · intro r j hj
    exact refreshed_iff hj
  · intro h
    have hodd := (refreshed_iff (by unfold adcFlt2BufferSize; omega)).mp
      (h.refreshed 0 ((c + 1) % 2) (by unfold adcFlt2BufferSize; omega))
    omega

/-- All samples are 100. -/
def steadyInputs : Nat → DmaBuffers := fun _ => ⟨fun _ => 100, fun _ => 100⟩

/-- The first call after the reset returns 0 for samples of 100. -/
theorem steady_startUp : ¬ ∀ ds c, c < 6 → FollowsInput ds c := by
  intro h
  have hmode : (temCallState steadyInputs 0 0).adModeAfterSysRst = true :=
    (startUp_iff steadyInputs 0 0).mpr (by decide)
  have hmean : firstStage steadyInputs 0 0 = 100 := by decide +kernel
  have hfollow := (h steadyInputs 0 (by decide)).startUp 0 hmode
  rw [temResult_startUp hmode, hmean] at hfollow
  cases hfollow

end SC04Monitor.Drivers
