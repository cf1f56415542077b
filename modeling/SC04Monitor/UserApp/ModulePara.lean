import SC04Monitor.UserApp.MonitorPara
import Mathlib.Data.Nat.Find

/-! # What becomes of a write of module parameters

`ParManage` serves the first raised flag of a parameter write, and a flag of a module
in two steps: the first sends the parameters, the second asks the module for its own
and lowers the flag. Which step comes next is in a counter of the module, and both
wait for the written bytes to differ from the module's. -/

namespace SC04Monitor.UserApp
open SC04Monitor.Lib.ByteMem SC04Monitor.Lib.Run SC04Monitor.Lib.Scan SC04Monitor.Lib.FlagScan
  SC04Monitor.Can

/-! ## What `ParManage` does for one module -/

namespace Logic

/-- `ParManage` takes a step for module `k`: its flag is the first one raised and the
bytes compared differ. -/
def Served (s : Logic) (k : ModuleId) : Prop :=
  HmiAddr.paras.find? s.hmi.wAddrFlag = some (.wCbPara k) ∧ wParaBytes s.hmi k ≠ paraBytes s.lga k

/-- `ParManage` calls `SendCan` with the parameters `v` of module `k`: of an object in
which no message waits it makes one in which the message of the module waits, with `v`
in `AppBuf` and in the message. -/
def SendsSetPar (s : Logic) (k : ModuleId) (v : CBPara) : Prop :=
  let idle : Logic := { s with can := { s.can with update := fun _ => false } }
  idle.parManage.can.update (moduleSetPar k) = true ∧
    readBytes idle.parManage.can.ram (appBuf (.wPara k)) 24 = v.toList ∧
    readBytes idle.parManage.can.ram (canBuf (.wPara k)) 24 = v.toList

theorem moduleSetPar_injective {j k : ModuleId} (h : moduleSetPar j = moduleSetPar k) : j = k := by
  simp only [moduleSetPar, Fin.mk.injEq] at h
  exact Fin.ext (by omega)

theorem moduleReadPar_ne (j k : ModuleId) : moduleReadPar j ≠ moduleSetPar k := by
  simp only [moduleReadPar, moduleSetPar, ne_eq, Fin.mk.injEq]
  omega

variable {s : Logic} {k : ModuleId}

/-- The two steps. -/
theorem parManage_set (h : s.Served k) (h0 : s.parCnt k = 0) :
    s.parManage =
      { s with
        lga := { s.lga with cbWPara := Function.update s.lga.cbWPara k (s.hmi.wPara k) }
        can := sendCan stdMsgTable { s.can with
          ram := writeBytes s.can.ram (appBuf (.wPara k)) (s.hmi.wPara k).toList } (moduleSetPar k)
        parCnt := Function.update s.parCnt k 1 } := by
  unfold parManage
  rw [h.1]
  dsimp only
  rw [if_pos h.2, if_pos h0, h0]

theorem parManage_read (h : s.Served k) (h0 : s.parCnt k ≠ 0) :
    s.parManage =
      Logic.lower
        { s with
          lga := { s.lga with cbWPara := Function.update s.lga.cbWPara k (s.hmi.wPara k) }
          can := sendCan stdMsgTable { s.can with
            ram := writeBytes s.can.ram (appBuf (.wPara k)) (s.hmi.wPara k).toList }
            (moduleReadPar k)
          parCnt := Function.update s.parCnt k 0 } (.wCbPara k) := by
  unfold parManage
  rw [h.1]
  dsimp only
  rw [if_pos h.2, if_neg h0]

/-- A tick that takes no step for the module leaves its counter and its flag. -/
theorem parManage_idle (h : ¬ s.Served k) :
    s.parManage.parCnt k = s.parCnt k ∧
      s.parManage.hmi.wAddrFlag (.wCbPara k) = s.hmi.wAddrFlag (.wCbPara k) := by
  unfold parManage
  split
  · split_ifs
    · exact ⟨rfl, by rw [lower_flag, if_neg (by simp)]⟩
    · exact ⟨rfl, rfl⟩
  next j hfind =>
    dsimp only
    by_cases hd : wParaBytes s.hmi j ≠ paraBytes s.lga j
    · have hk : k ≠ j := by
        rintro rfl
        exact h ⟨hfind, hd⟩
      rw [if_pos hd]
      by_cases h0 : s.parCnt j = 0
      · rw [if_pos h0]
        exact ⟨Function.update_of_ne hk _ _, rfl⟩
      · rw [if_neg h0]
        refine ⟨Function.update_of_ne hk _ _, ?_⟩
        rw [lower_flag, if_neg (by simpa using hk)]
    · rw [if_neg hd]
      exact ⟨rfl, rfl⟩
  · exact ⟨rfl, rfl⟩

/-- What `ParManage` triggers, read off the flags. -/
theorem parManage_update (s : Logic) (k : ModuleId)
    (h : ¬ (s.Served k ∧ s.parCnt k = 0)) :
    s.parManage.can.update (moduleSetPar k) = s.can.update (moduleSetPar k) := by
  unfold parManage
  split
  · split_ifs <;> rfl
  next j hfind =>
    dsimp only
    by_cases hd : wParaBytes s.hmi j ≠ paraBytes s.lga j
    · rw [if_pos hd]
      by_cases h0 : s.parCnt j = 0
      · have hk : moduleSetPar k ≠ moduleSetPar j := by
          intro he
          obtain rfl := moduleSetPar_injective he
          exact h ⟨⟨hfind, hd⟩, h0⟩
        rw [if_pos h0]
        dsimp only
        rw [sendCan_update (by rw [stdMsgTable_moduleSetPar]; rfl), Function.update_of_ne hk]
      · rw [if_neg h0]
        show (sendCan stdMsgTable _ (moduleReadPar j)).update (moduleSetPar k) = _
        rw [sendCan_update (by rw [stdMsgTable_moduleReadPar]; rfl),
          Function.update_of_ne (moduleReadPar_ne j k).symm]
    · rw [if_neg hd]
  · rfl

/-- The parameters go out in the first step for the module, and in no other. -/
theorem sendsSetPar_iff (s : Logic) (k : ModuleId) (v : CBPara) :
    s.SendsSetPar k v ↔ s.Served k ∧ s.parCnt k = 0 ∧ s.hmi.wPara k = v := by
  have ht := stdMsgTable_moduleSetPar k
  have hdir : (stdMsgTable (moduleSetPar k)).direction = .zx := by rw [ht]; rfl
  by_cases hs : s.Served k ∧ s.parCnt k = 0
  · obtain ⟨hserved, h0⟩ := hs
    have hset := parManage_set (s := { s with can := { s.can with update := fun _ => false } })
      (k := k) hserved h0
    have happ := readBytes_writeBytes s.can.ram (appBuf (.wPara k)) (s.hmi.wPara k).toList
    rw [Vector.length_toList] at happ
    have hram : ∀ m : Mem, readBytes (copyBytes m (stdMsgTable (moduleSetPar k)).canBuffData
        (stdMsgTable (moduleSetPar k)).appBuffData (stdMsgTable (moduleSetPar k)).len)
          (appBuf (.wPara k)) 24 = readBytes m (appBuf (.wPara k)) 24 := by
      intro m
      rw [ht]
      exact readBytes_copyBytes_frame (canBuf_appBuf_apart (.wPara k) (.wPara k))
    have hmsg : ∀ m : Mem, readBytes (copyBytes m (stdMsgTable (moduleSetPar k)).canBuffData
        (stdMsgTable (moduleSetPar k)).appBuffData (stdMsgTable (moduleSetPar k)).len)
          (canBuf (.wPara k)) 24 = readBytes m (appBuf (.wPara k)) 24 := by
      intro m
      rw [ht]
      exact readBytes_copyBytes m _ _ 24
    unfold SendsSetPar
    dsimp only
    rw [hset]
    simp only [sendCan_update hdir, sendCan_ram hdir, Function.update_self, hram, hmsg, happ,
      true_and, and_self]
    constructor
    · intro he
      exact ⟨hserved, h0, Vector.toList_inj.mp he⟩
    · rintro ⟨-, -, rfl⟩
      rfl
  · have hno := parManage_update { s with can := { s.can with update := fun _ => false } } k hs
    constructor
    · rintro ⟨hup, -⟩
      rw [hno] at hup
      exact absurd hup (by simp)
    · rintro ⟨hserved, h0, -⟩
      exact absurd ⟨hserved, h0⟩ hs

/-! ## The rest of the tick -/

theorem hmiInputUpdate_wPara (s : Logic) : s.hmiInputUpdate.hmi.wPara = s.hmi.wPara := by
  rcases s.hmiInputUpdate_hmi with ⟨a, -, -, h⟩ | ⟨-, h⟩
  · rw [h]
    rfl
  · rw [h]

/-- `HmiInputUpdate` leaves the flags of the parameters up. -/
theorem hmiInputUpdate_flag (s : Logic) (k : ModuleId) :
    s.hmiInputUpdate.hmi.wAddrFlag (.wCbPara k) = s.hmi.wAddrFlag (.wCbPara k) := by
  rcases s.hmiInputUpdate_hmi with ⟨a, -, ha, h⟩ | ⟨-, h⟩
  · have hne : HmiAddr.wCbPara k ≠ a := fun he => ha (he ▸ wCbPara_mem_paras k)
    rw [h]
    exact Function.update_of_ne hne _ _
  · rw [h]

/-- The state in which a tick calls `ParManage`. -/
def beforePar (i : TickIn) (s : Logic) : Logic := (s.beforeDcDc i).dcDcManage

variable (s) (i : TickIn)

theorem beforePar_hmi :
    (s.beforePar i).hmi = ((s.environment i).digitalInputUpdate i).hmiInputUpdate.hmi :=
  dcDcManage_hmi (s.beforeDcDc i)

theorem hmiInputUpdate_parCnt : s.hmiInputUpdate.parCnt = s.parCnt := by
  have hset : ∀ (t : Logic) (c : UInt16) (f : InputStyp → InputStyp),
      (t.setInputOf c f).parCnt = t.parCnt := by
    intro t c f
    unfold setInputOf
    split <;> rfl
  unfold hmiInputUpdate
  dsimp only
  split
  · exact hset _ _ _
  · exact hset _ _ _
  all_goals rfl

theorem beforePar_parCnt : (s.beforePar i).parCnt = s.parCnt := by
  have hcall : ∀ k ∈ List.finRange 5, ∀ t : Logic, (t.cbCtrl k).parCnt = t.parCnt :=
    fun _ _ _ => rfl
  have hscan : (s.beforePar i).parCnt = (s.beforeDcDc i).parCnt :=
    scan_frame Logic.parCnt hcall _
  exact hscan.trans (hmiInputUpdate_parCnt ((s.environment i).digitalInputUpdate i))

theorem tick_parCnt : (s.tick i).parCnt = (s.beforePar i).parManage.parCnt := by
  unfold tick userRecord
  split_ifs <;> rfl

theorem parManage_wPara : s.parManage.hmi.wPara = s.hmi.wPara := by
  unfold parManage
  split
  · split_ifs <;> rfl
  · dsimp only
    split_ifs <;> rfl
  · rfl

/-- A tick leaves what the touch screen has written. -/
theorem tick_wPara : (s.tick i).hmi.wPara = (s.environment i).hmi.wPara := by
  rw [tick_hmi, parManage_wPara]
  exact (congrArg Hmi.wPara (s.beforePar_hmi i)).trans
    (hmiInputUpdate_wPara ((s.environment i).digitalInputUpdate i))

end Logic

/-! ## Runs -/

section
variable (ins : Nat → TickIn) (n : Nat) (k : ModuleId)

/-- The state in which tick `n` calls `ParManage`. -/
def parAt : Logic := (logicAt ins n).beforePar (ins n)

/-- The flag of module `k` is up in tick `n`. -/
def WParaRaised : Prop := (envAt ins n).hmi.wAddrFlag (.wCbPara k) = true

/-- The parameters that the touch screen has written for module `k`. -/
def wParaWritten : CBPara := (envAt ins n).hmi.wPara k

/-- Tick `n` sends what was written. -/
def SendsAt (v : CBPara) : Prop := (parAt ins n).SendsSetPar k v

/-- No later write takes the place of the one in tick `n` before that one is sent: until
then the touch screen leaves the value, and it lowers no flag. -/
def NotSuperseded : Prop :=
  ∀ j, n < j → (∀ i, n ≤ i → i < j → ¬ SendsAt ins i k (wParaWritten ins n k)) →
    (envAt ins j).hmi.wPara k = (logicAt ins j).hmi.wPara k ∧
      ((logicAt ins j).hmi.wAddrFlag (.wCbPara k) = true → WParaRaised ins j k)

/-- The write of tick `n` is sent before its flag is cleared. -/
def SentFirst : Prop :=
  ∃ m, n ≤ m ∧ SendsAt ins m k (wParaWritten ins n k) ∧
    ∀ j, n ≤ j → j < m → (logicAt ins (j + 1)).hmi.wAddrFlag (.wCbPara k) = true

/-- In tick `n` it is the turn of module `k`: no flag of an earlier parameter is up, and
the bytes that `ParManage` compares differ. -/
def TurnAt : Prop := (parAt ins n).Served k

variable {ins n k}

theorem parAt_wPara : (parAt ins n).hmi.wPara k = wParaWritten ins n k := by
  have h := congrArg Hmi.wPara ((logicAt ins n).beforePar_hmi (ins n))
  exact congrFun (h.trans (Logic.hmiInputUpdate_wPara _)) k

theorem parAt_flag : (parAt ins n).hmi.wAddrFlag (.wCbPara k) =
    (envAt ins n).hmi.wAddrFlag (.wCbPara k) := by
  have h := congrArg Hmi.wAddrFlag ((logicAt ins n).beforePar_hmi (ins n))
  exact (congrFun h _).trans (Logic.hmiInputUpdate_flag _ k)

theorem sendsAt_iff {v : CBPara} : SendsAt ins n k v ↔
    TurnAt ins n k ∧ (logicAt ins n).parCnt k = 0 ∧ wParaWritten ins n k = v := by
  unfold SendsAt
  rw [Logic.sendsSetPar_iff, parAt_wPara]
  unfold parAt
  rw [Logic.beforePar_parCnt]
  rfl

/-- A tick in which it is not the module's turn. -/
theorem idle_succ (h : ¬ TurnAt ins n k) :
    (logicAt ins (n + 1)).parCnt k = (logicAt ins n).parCnt k ∧
      (logicAt ins (n + 1)).hmi.wAddrFlag (.wCbPara k) =
        (envAt ins n).hmi.wAddrFlag (.wCbPara k) := by
  obtain ⟨hcnt, hflag⟩ := Logic.parManage_idle h
  refine ⟨?_, ?_⟩
  · rw [logicAt_succ, Logic.tick_parCnt]
    refine hcnt.trans ?_
    exact congrFun ((logicAt ins n).beforePar_parCnt (ins n)) k
  · rw [logicAt_succ, Logic.tick_hmi]
    exact hflag.trans parAt_flag

/-- A step for the module with the counter up asks for its parameters and clears the flag. -/
theorem read_succ (h : TurnAt ins n k) (h0 : (logicAt ins n).parCnt k ≠ 0) :
    (logicAt ins (n + 1)).hmi.wAddrFlag (.wCbPara k) = false := by
  have hcnt : (parAt ins n).parCnt k ≠ 0 := by
    unfold parAt
    rwa [Logic.beforePar_parCnt]
  rw [logicAt_succ, Logic.tick_hmi]
  show (parAt ins n).parManage.hmi.wAddrFlag (.wCbPara k) = false
  rw [Logic.parManage_read h hcnt, Logic.lower_flag, if_pos rfl]

/-- As long as the flag stays up a raised counter stays up: the write that finds it is
not sent. -/
theorem counter_stays {m : Nat} (h0 : (logicAt ins n).parCnt k ≠ 0) (hm : n ≤ m)
    (hup : ∀ j, n ≤ j → j < m → (logicAt ins (j + 1)).hmi.wAddrFlag (.wCbPara k) = true) :
    (logicAt ins m).parCnt k ≠ 0 := by
  induction m, hm using Nat.le_induction with
  | base => exact h0
  | succ m hm ih =>
    have hcnt := ih fun j h₁ h₂ => hup j h₁ (by omega)
    have hidle : ¬ TurnAt ins m k := by
      intro hturn
      have hdown := read_succ hturn hcnt
      rw [hup m hm (Nat.lt_succ_self m)] at hdown
      exact absurd hdown (by decide)
    rw [(idle_succ hidle).1]
    exact hcnt

/-- Until its turn comes a write that is not superseded waits unchanged. -/
theorem waits {m : Nat} (hup : WParaRaised ins n k) (hkeep : NotSuperseded ins n k)
    (h0 : (logicAt ins n).parCnt k = 0) (hm : n ≤ m)
    (hidle : ∀ j, n ≤ j → j < m → ¬ TurnAt ins j k) :
    WParaRaised ins m k ∧ wParaWritten ins m k = wParaWritten ins n k ∧
      (logicAt ins m).parCnt k = 0 ∧
      ∀ j, n ≤ j → j < m → (logicAt ins (j + 1)).hmi.wAddrFlag (.wCbPara k) = true := by
  induction m, hm using Nat.le_induction with
  | base => exact ⟨hup, rfl, h0, fun j h₁ h₂ => absurd h₁ (by omega)⟩
  | succ m hm ih =>
    obtain ⟨hraised, hval, hcnt, hflags⟩ := ih fun j h₁ h₂ => hidle j h₁ (by omega)
    have hnot : ∀ i, n ≤ i → i < m + 1 → ¬ SendsAt ins i k (wParaWritten ins n k) := by
      intro i h₁ h₂ hs
      exact hidle i h₁ h₂ (sendsAt_iff.mp hs).1
    obtain ⟨hcnt', hflag⟩ := idle_succ (hidle m hm (Nat.lt_succ_self m))
    have hflag' := hflag.trans hraised
    obtain ⟨hsame, hstays⟩ := hkeep (m + 1) (by omega) hnot
    refine ⟨hstays hflag', ?_, hcnt'.trans hcnt, ?_⟩
    · refine hsame.trans ?_
      rw [logicAt_succ, Logic.tick_wPara]
      exact hval
    · intro j h₁ h₂
      rcases Nat.lt_succ_iff_lt_or_eq.mp h₂ with hlt | rfl
      · exact hflags j h₁ hlt
      · exact hflag'

/-- A write of module parameters is sent before its flag is cleared exactly if no step
for the module is half done when it arrives and its turn comes. -/
theorem module_write_delivered_iff (ins : Nat → TickIn) (n : Nat) (k : ModuleId)
    (hup : WParaRaised ins n k) (hkeep : NotSuperseded ins n k) :
    SentFirst ins n k ↔ (logicAt ins n).parCnt k = 0 ∧ ∃ m, n ≤ m ∧ TurnAt ins m k := by
  classical
  constructor
  · rintro ⟨m, hm, hs, hflags⟩
    obtain ⟨hturn, hcnt, -⟩ := sendsAt_iff.mp hs
    refine ⟨?_, m, hm, hturn⟩
    by_contra h0
    exact counter_stays h0 hm hflags hcnt
  · rintro ⟨h0, hex⟩
    -- the first turn is the one that sends
    obtain ⟨hm, hturn⟩ := Nat.find_spec hex
    have hidle : ∀ j, n ≤ j → j < Nat.find hex → ¬ TurnAt ins j k :=
      fun j h₁ h₂ ht => Nat.find_min hex h₂ ⟨h₁, ht⟩
    obtain ⟨-, hval, hcnt, hflags⟩ := waits hup hkeep h0 hm hidle
    exact ⟨Nat.find hex, hm, sendsAt_iff.mpr ⟨hturn, hcnt, hval⟩, hflags⟩

end

/-- The touch screen writes the parameters `v` of module `k`. -/
def writeWPara (k : ModuleId) (v : CBPara) (h : Hmi) : Hmi :=
  { h with
    wAddrFlag := Function.update h.wAddrFlag (.wCbPara k) true
    wPara := Function.update h.wPara k v }

/-- Module 1 gets parameters in tick 0 and others in tick 1. -/
def betweenRun : Nat → TickIn
  | 0 => { quietTick with modbus := writeWPara 0 (.replicate 24 7) }
  | 1 => { quietTick with modbus := writeWPara 0 (.replicate 24 9) }
  | _ => quietTick

theorem betweenRun_turn (n : Nat) (h : n = 0 ∨ n = 1) : TurnAt betweenRun n 0 := by
  rcases h with rfl | rfl
  · exact ⟨by decide +kernel, by decide +kernel⟩
  · exact ⟨by decide +kernel, by decide +kernel⟩

theorem betweenRun_first_delivered : SentFirst betweenRun 0 0 := by
  have hcnt : (logicAt betweenRun 0).parCnt 0 = 0 := rfl
  have hturn := betweenRun_turn 0 (.inl rfl)
  have hsends : SendsAt betweenRun 0 0 (wParaWritten betweenRun 0 0) :=
    sendsAt_iff.mpr ⟨hturn, hcnt, rfl⟩
  refine (module_write_delivered_iff betweenRun 0 0 (by unfold WParaRaised; decide +kernel) ?_).mpr
    ⟨hcnt, 0, Nat.le_refl 0, hturn⟩
  intro j hj hnot
  exact absurd hsends (hnot 0 (Nat.le_refl 0) hj)

/-- The second write comes between the two steps of the first: its turn only asks for the
module's parameters and clears the flag. -/
theorem betweenRun_second_lost :
    WParaRaised betweenRun 1 0 ∧
      wParaWritten betweenRun 1 0 ≠ (logicAt betweenRun 1).lga.cbPara 0 ∧
      wParaWritten betweenRun 1 0 ≠ (parAt betweenRun 1).lga.cbPara 0 ∧
      NotSuperseded betweenRun 1 0 ∧ ¬ SentFirst betweenRun 1 0 := by
  have hcnt : (logicAt betweenRun 1).parCnt 0 ≠ 0 := by decide +kernel
  refine ⟨by unfold WParaRaised; decide +kernel, by decide +kernel, by decide +kernel, ?_, ?_⟩
  · intro j hj _
    obtain ⟨d, rfl⟩ : ∃ d, j = d + 2 := ⟨j - 2, by omega⟩
    exact ⟨rfl, fun hup => hup⟩
  · rintro ⟨m, hm, hs, hflags⟩
    exact counter_stays hcnt hm hflags (sendsAt_iff.mp hs).2.1

end SC04Monitor.UserApp
