import SC04Monitor.Lib.Capture
import SC04Monitor.Lib.Ring
import SC04Monitor.PcMaster.Recorder

/-! # Recordings

The recorder is a capture: its ring is the recorder buffer, the samples are the values of its
variables every `timeDiv + 1` calls, and it stops so many of them behind the trigger that the
samples before are still in the ring. The other threads change the variables in the meantime. -/

namespace SC04Monitor.PcMaster
open SC04Monitor.Lib.ByteMem SC04Monitor.Lib.WordMem SC04Monitor.Lib
open SC04Monitor.Lib.Ring (WrittenRound)

namespace Board

/-! ## Samples -/

theorem length_values_eq (varDef : Nat → VarDef) (mem : Mem) (i n : Nat) :
    (values varDef mem i n).length = sampleLen varDef i n := by
  induction n generalizing i with
  | zero => rfl
  | succ n ih => rw [values_succ, List.length_append, length_readBytes, ih, sampleLen]

theorem values_congr {varDef : Nat → VarDef} {m m' : Mem} {i n : Nat}
    (h : ∀ j, i ≤ j → j < i + n → readBytes m (varDef j).varAddr (varDef j).varSize.toNat =
      readBytes m' (varDef j).varAddr (varDef j).varSize.toNat) :
    values varDef m i n = values varDef m' i n := by
  induction n generalizing i with
  | zero => rfl
  | succ n ih =>
    rw [values_succ, values_succ, h i (Nat.le_refl i) (by omega),
      ih fun j hlow hhigh => h j (by omega) (by omega)]

/-- A sample of variables elsewhere is the values that they have. -/
theorem readRecSample_eq {recBuff : Nat} {varDef : Nat → VarDef} {n i : Nat} {position : UInt16}
    (h : position.toNat + sampleLen varDef i n < 65536)
    (hsize : ∀ j, i ≤ j → j < i + n → (varDef j).varSize ≤ 0x80)
    (hapart : ∀ j, i ≤ j → j < i + n → Apart (recBuff + position.toNat) (sampleLen varDef i n)
      (varDef j).varAddr (varDef j).varSize.toNat) (mem : Mem) :
    (readRecSample recBuff varDef n i position mem).1 =
      writeBytes mem (recBuff + position.toNat) (values varDef mem i n) := by
  induction n generalizing i position mem with
  | zero => exact (writeBytes_of_readBytes rfl).symm
  | succ n ih =>
    rw [sampleLen] at h hapart
    have hnext : (position + (varDef i).varSize.toUInt16).toNat =
        position.toNat + (varDef i).varSize.toNat := by
      rw [UInt16.toNat_add, UInt8.toNat_toUInt16]
      exact Nat.mod_eq_of_lt (by show _ < 65536; omega)
    have hint : int8Size (varDef i).varSize = (varDef i).varSize.toNat :=
      if_pos (hsize i (Nat.le_refl i) (by omega))
    have hself := hapart i (Nat.le_refl i) (by omega)
    have hcopy : memCopy mem (varDef i).varAddr (recBuff + position.toNat) (varDef i).varSize.toNat =
        writeBytes mem (recBuff + position.toNat)
          (readBytes mem (varDef i).varAddr (varDef i).varSize.toNat) :=
      memCopy_eq mem (by unfold Apart at hself ⊢; omega)
    rw [readRecSample, hint, hcopy, ih (by omega) (fun j hlow hhigh => hsize j (by omega) (by omega)) ?_,
      hnext]
    · have hrest : values varDef (writeBytes mem (recBuff + position.toNat)
          (readBytes mem (varDef i).varAddr (varDef i).varSize.toNat)) (i + 1) n =
          values varDef mem (i + 1) n := by
        refine values_congr fun j hlow hhigh => readBytes_writeBytes_frame ?_
        have hj := hapart j (by omega) (by omega)
        rw [length_readBytes]
        unfold Apart at hj ⊢
        omega
      rw [hrest, values_succ, writeBytes_append, length_readBytes, Nat.add_assoc]
    · intro j hlow hhigh
      have hj := hapart j (by omega) (by omega)
      rw [hnext]
      unfold Apart at hj ⊢
      omega

/-! ## The routine in parts -/

/-- Where the recorder stops. -/
def stopped (s : Board) : Board :=
  { s with
    status := { s.status with recRunning := false, recActivated := false, recReadPretrig := false },
    recorder := { s.recorder with recToEnd := 1 } }

section
variable {s : Board} (trgType : Nat) (actual : Mem)

theorem checkEnd_eq : s.checkEnd = if s.recorder.recToEnd = 0 then s.stopped else s := rfl

/-- The trigger is not waited for, or does not fire. -/
theorem check_quiet (hrun : s.status.recRunning = false) (hend : s.recorder.recToEnd ≠ 0)
    (h : s.status.recReadPretrig = true → triggered s.recorder trgType actual = false) :
    (s.checkTrigger trgType actual).checkEnd = s := by
  have hcheck : s.checkTrigger trgType actual = s := by
    unfold checkTrigger
    cases hpre : s.status.recReadPretrig with
    | false => rw [if_neg (by simp), if_neg (by simp)]
    | true => rw [if_pos ⟨hrun, rfl⟩, if_neg (by rw [h hpre]; simp)]
  rw [hcheck, checkEnd_eq, if_neg hend]

/-- The trigger fires. -/
theorem check_fires (hrun : s.status.recRunning = false) (hpre : s.status.recReadPretrig = true)
    (h : triggered s.recorder trgType actual = true) :
    (s.checkTrigger trgType actual).checkEnd =
      let t : Board := { s with
        status := { s.status with recRunning := true },
        recorder := { s.recorder with recToEnd := s.recorder.postTrigger - 1 } }
      if s.recorder.postTrigger - 1 = 0 then t.stopped else t := by
  unfold checkTrigger
  rw [if_pos ⟨hrun, hpre⟩, if_pos h, checkEnd_eq]

/-- The trigger has fired. -/
theorem check_running (hrun : s.status.recRunning = true) (hpre : s.status.recReadPretrig = true) :
    (s.checkTrigger trgType actual).checkEnd =
      let t : Board := { s with recorder := { s.recorder with recToEnd := s.recorder.recToEnd - 1 } }
      if s.recorder.recToEnd - 1 = 0 then t.stopped else t := by
  unfold checkTrigger
  rw [if_neg (by rw [hrun]; simp), if_pos hpre, checkEnd_eq]

end

/-- The check changes neither memory nor position. -/
theorem check_frame (s : Board) (trgType : Nat) (actual : Mem) :
    let t := (s.checkTrigger trgType actual).checkEnd
    t.mem = s.mem ∧ t.recorder.recPos = s.recorder.recPos := by
  have hend : ∀ t : Board, t.checkEnd.mem = t.mem ∧ t.checkEnd.recorder.recPos = t.recorder.recPos := by
    intro t
    unfold checkEnd
    split <;> exact ⟨rfl, rfl⟩
  obtain ⟨hmem, hpos⟩ := hend (s.checkTrigger trgType actual)
  dsimp only
  rw [hmem, hpos]
  unfold checkTrigger
  split
  · split <;> exact ⟨rfl, rfl⟩
  · split <;> exact ⟨rfl, rfl⟩

/-! ## What a recording should be -/

/-- The values are on two sides of the threshold, or the second one on it, in the direction of the
mode. -/
def crosses (trgMode : UInt8) (threshold last actual : Int) : Bool :=
  trgMode = 1 && threshold ≤ actual && last < threshold ||
    trgMode = 2 && actual ≤ threshold && threshold < last

theorem trgVal_congr {trgType size : Nat} (h : (trgType, size) ∈ recTypes) {u u' : Mem}
    (hu : ∀ j < size, u j = u' j) : trgVal trgType u = trgVal trgType u' := by
  simp only [recTypes, List.mem_cons, Prod.mk.injEq, List.not_mem_nil, or_false] at h
  unfold trgVal readWord addrAt
  rcases h with ⟨rfl, rfl⟩ | ⟨rfl, rfl⟩ | ⟨rfl, rfl⟩ | ⟨rfl, rfl⟩ | ⟨rfl, rfl⟩ | ⟨rfl, rfl⟩
  · simp only [hu 0 (by decide)]
  · simp only [hu 0 (by decide)]
  · simp only [hu 0 (by decide), hu (0 + 1) (by decide)]
  · simp only [hu 0 (by decide), hu (0 + 1) (by decide)]
  · simp only [hu 0 (by decide), hu (0 + 1) (by decide), hu (0 + 2) (by decide), hu (0 + 3) (by decide)]
  · simp only [hu 0 (by decide), hu (0 + 1) (by decide), hu (0 + 2) (by decide), hu (0 + 3) (by decide)]

section
variable (s : Board) (env stack : Nat → Mem)

/-- The calls from one sample to the next. -/
def period : Nat := s.recorder.timeDiv.toNat + 1

theorem period_pos : 0 < s.period := Nat.succ_pos _

/-- The samples that are due by then. -/
def due (n : Nat) : Nat := (n + s.recorder.timeDiv.toNat) / s.period

/-- The variables at a sample. -/
def sampleAt (i : Nat) : List UInt8 :=
  values s.recorder.varDef (env (i * s.period)) 0 s.recorder.varCnt.toNat

/-- The trigger variable at a sample. -/
def trgAt (i : Nat) : Int :=
  trgVal s.status.trgType fun j => env (i * s.period) (s.recorder.trgVarAddr + j)

/-- The trigger variable at the sample before. -/
def lastAt : Nat → Int
  | 0 => trgVal s.status.trgType s.recorder.recLastVal
  | i + 1 => s.trgAt env i

def firesAt (i : Nat) : Bool :=
  crosses s.recorder.trgMode (trgVal s.status.trgType s.recorder.trgThreshold) (s.lastAt env i)
    (s.trgAt env i)

/-- The other threads change the memory, but for the recorder buffer. -/
def withEnv (mem : Mem) : Board :=
  { s with mem := fun a => if s.recBuff ≤ a ∧ a < s.recBuff + recBlock then s.mem a else mem a }

/-- After `n` calls of the recorder routine. -/
def ticks : Nat → Option Board
  | 0 => some s
  | n + 1 => (ticks n).bind fun t => (t.withEnv (env n)).pcmasterdrvRecorder (stack n)

end

/-- A recorder that has been set up for `cap` samples, and was idle before. -/
structure Fresh (s : Board) (cap : Nat) : Prop where
  config : Config s.recorder
  totalSmps : s.recorder.totalSmps.toNat = cap * s.recorder.recSetLen.toNat
  cap_pos : 0 < cap
  postTrigger : s.recorder.postTrigger ≠ 0
  trgType : (s.status.trgType, s.recorder.trgVarSize.toNat) ∈ recTypes
  active : s.status.recActivated = true
  recRunning : s.status.recRunning = false
  recReadPretrig : s.status.recReadPretrig = false
  recPretrigCount : s.recPretrigCount = 0
  recPos : s.recorder.recPos = 0
  recToEnd : s.recorder.recToEnd = 1
  recTime : s.recorder.recTime = s.recorder.timeDiv

/-- The variables are neither in the recorder buffer nor among those of the driver, and `memCopy`
copies them. -/
structure Elsewhere (s : Board) : Prop where
  varSize : ∀ j < s.recorder.varCnt.toNat, (s.recorder.varDef j).varSize ≤ 0x80
  varDef : ∀ j < s.recorder.varCnt.toNat, Apart s.recBuff recBlock (s.recorder.varDef j).varAddr
    (s.recorder.varDef j).varSize.toNat
  trgVar : Apart s.recBuff recBlock s.recorder.trgVarAddr s.recorder.trgVarSize.toNat
  varDescribed : ∀ j < s.recorder.varCnt.toNat,
    s.Described (s.recorder.varDef j).varAddr (s.recorder.varDef j).varSize.toNat
  trgDescribed : s.Described s.recorder.trgVarAddr s.recorder.trgVarSize.toNat

/-- A place in the ring. -/
def slot (s₀ s : Board) (j : Nat) : List UInt8 :=
  readBytes s.mem (s₀.recBuff + j * s₀.recorder.recSetLen.toNat) s₀.recorder.recSetLen.toNat

/-- What the recorder does in a phase of the capture, after `count` samples. -/
def InPhase (s₀ : Board) (env : Nat → Mem) (cap count : Nat) (s : Board) : Capture.Phase → Prop
  | .waiting =>
    s.status.recActivated = true ∧ s.status.recRunning = false ∧ s.recorder.recToEnd = 1 ∧
      trgVal s₀.status.trgType s.recorder.recLastVal = s₀.lastAt env count ∧
      (s.status.recReadPretrig = true ↔ 0 < count ∧ cap < count + s₀.recorder.postTrigger.toNat) ∧
      s.recPretrigCount.toNat =
        min count (cap - s₀.recorder.postTrigger.toNat) * s₀.recorder.recSetLen.toNat
  | .running left =>
    s.status.recActivated = true ∧ s.status.recRunning = true ∧ s.status.recReadPretrig = true ∧
      s.recorder.recToEnd.toNat = left ∧ 0 < left
  | .done => s.status.recActivated = false ∧ s.status.recRunning = false

/-- A recorder that is as far as the capture is, after `n` calls since the set-up. -/
structure Captures (s₀ : Board) (env : Nat → Mem) (cap n : Nat) (s : Board) (c : Capture.State) : Prop where
  runs : Runs s₀.recorder s.recorder
  recBuff : s.recBuff = s₀.recBuff
  plain : s.plain = s₀.plain
  trgType : s.status.trgType = s₀.status.trgType
  recPos : s.recorder.recPos.toNat = c.count % cap * s₀.recorder.recSetLen.toNat
  slots : WrittenRound (slot s₀ s) cap (s₀.sampleAt env) c.count
  recTime : c.phase ≠ .done →
    s.recorder.recTime.toNat = (n + s₀.recorder.timeDiv.toNat) % s₀.period ∧ c.count = s₀.due n
  phase : InPhase s₀ env cap c.count s c.phase

/-! ## One call -/

section
variable {s₀ s : Board} {env : Nat → Mem} {cap n : Nat} {c : Capture.State}

theorem InPhase.congr {t : Board} {count : Nat} {phase : Capture.Phase}
    (h : InPhase s₀ env cap count s phase) (hstatus : t.status = s.status)
    (hend : t.recorder.recToEnd = s.recorder.recToEnd)
    (hlast : t.recorder.recLastVal = s.recorder.recLastVal)
    (hcount : t.recPretrigCount = s.recPretrigCount) : InPhase s₀ env cap count t phase := by
  cases phase with
  | waiting =>
    unfold InPhase at h ⊢
    rw [hstatus, hend, hlast, hcount]
    exact h
  | running left =>
    unfold InPhase at h ⊢
    rw [hstatus, hend]
    exact h
  | done =>
    unfold InPhase at h ⊢
    rw [hstatus]
    exact h

theorem Captures.active_iff (h : Captures s₀ env cap n s c) :
    s.status.recActivated = true ↔ c.phase ≠ .done := by
  have hphase := h.phase
  cases hc : c.phase with
  | waiting =>
    rw [hc] at hphase
    exact iff_of_true hphase.1 (by simp)
  | running left =>
    rw [hc] at hphase
    exact iff_of_true hphase.1 (by simp)
  | done =>
    rw [hc] at hphase
    exact iff_of_false (Bool.eq_false_iff.mp hphase.1) (by simp)

theorem due_zero (s₀ : Board) : s₀.due 0 = 0 := by
  unfold due
  rw [Nat.zero_add]
  exact Nat.div_eq_of_lt (Nat.lt_succ_self _)

theorem due_succ (h : (n + s₀.recorder.timeDiv.toNat) % s₀.period = s₀.recorder.timeDiv.toNat) :
    s₀.due (n + 1) = s₀.due n + 1 ∧ (n + 1 + s₀.recorder.timeDiv.toNat) % s₀.period = 0 ∧
      n = s₀.due n * s₀.period := by
  have hsplit := Nat.div_add_mod (n + s₀.recorder.timeDiv.toNat) s₀.period
  have hnext : n + 1 + s₀.recorder.timeDiv.toNat = s₀.period * (s₀.due n + 1) := by
    rw [Nat.mul_succ]
    unfold due
    rw [h] at hsplit
    unfold period at hsplit ⊢
    omega
  have hn : n = s₀.period * s₀.due n := by
    unfold due
    omega
  refine ⟨?_, ?_, hn.trans (Nat.mul_comm _ _)⟩
  · rw [due, hnext, Nat.mul_div_cancel_left _ s₀.period_pos]
  · rw [hnext, Nat.mul_mod_right]

theorem due_same (h : (n + s₀.recorder.timeDiv.toNat) % s₀.period ≠ s₀.recorder.timeDiv.toNat) :
    s₀.due (n + 1) = s₀.due n ∧ (n + 1 + s₀.recorder.timeDiv.toNat) % s₀.period =
      (n + s₀.recorder.timeDiv.toNat) % s₀.period + 1 := by
  have hsplit := Nat.div_add_mod (n + s₀.recorder.timeDiv.toNat) s₀.period
  have hlt := Nat.mod_lt (n + s₀.recorder.timeDiv.toNat) s₀.period_pos
  have hroom : (n + s₀.recorder.timeDiv.toNat) % s₀.period + 1 < s₀.period := by
    unfold period at hlt h ⊢
    omega
  have hnext : n + 1 + s₀.recorder.timeDiv.toNat =
      s₀.period * s₀.due n + ((n + s₀.recorder.timeDiv.toNat) % s₀.period + 1) := by
    unfold due
    omega
  constructor
  · rw [due, hnext, Nat.mul_add_div s₀.period_pos, Nat.div_eq_of_lt hroom, Nat.add_zero]
  · rw [hnext, Nat.mul_add_mod, Nat.mod_eq_of_lt hroom]

theorem Fresh.setLen_pos (h : Fresh s₀ cap) : 0 < s₀.recorder.recSetLen.toNat :=
  Nat.pos_of_ne_zero fun he => h.config.recSetLen_pos (UInt16.toNat_inj.mp he)

theorem Fresh.room (h : Fresh s₀ cap) : cap * s₀.recorder.recSetLen.toNat ≤ 0x2000 := by
  rw [← h.totalSmps]
  exact UInt16.le_iff_toNat_le.mp h.config.totalSmps_le

/-- The places of the ring are apart, and in the block. -/
theorem slot_room (h : Fresh s₀ cap) {j : Nat} (hj : j < cap) :
    j * s₀.recorder.recSetLen.toNat + s₀.recorder.recSetLen.toNat ≤ 0x2000 := by
  rw [← Nat.succ_mul]
  exact Nat.le_trans (Nat.mul_le_mul_right _ hj) h.room

/-- The recorder is set up as it was. -/
theorem Captures.recInv (h : Captures s₀ env cap n s c) (hfresh : Fresh s₀ cap) : s.RecInv := by
  have hpos : s.recorder.recPos < s₀.recorder.totalSmps := by
    rw [UInt16.lt_iff_toNat_lt, h.recPos, hfresh.totalSmps]
    exact Nat.mul_lt_mul_of_pos_right (Nat.mod_lt _ hfresh.cap_pos) hfresh.setLen_pos
  have hconfig := hfresh.config.runs h.runs (.inr (.inr hpos))
  refine ⟨fun _ hzero => ?_, fun _ => hconfig⟩
  have hlen := hconfig.recSetLen
  rw [hzero] at hlen
  exact hconfig.recSetLen_pos (UInt16.toNat_inj.mp hlen)

theorem Captures.withEnv (h : Captures s₀ env cap n s c) (hfresh : Fresh s₀ cap) (mem : Mem) :
    Captures s₀ env cap n (s.withEnv mem) c := by
  obtain ⟨hruns, hbuff, hplain, htype, hpos, hslots, htime, hphase⟩ := h
  refine ⟨hruns, hbuff, hplain, htype, hpos, ?_, htime, hphase.congr rfl rfl rfl rfl⟩
  refine hslots.congr hfresh.cap_pos fun j hj => readBytes_congr fun i hi => ?_
  have hroom := slot_room hfresh hj
  refine if_pos ?_
  rw [hbuff]
  unfold recBlock
  omega

/-- A call after the recorder has stopped. -/
theorem Captures.call_done (h : Captures s₀ env cap n s c) (hdone : c.phase = .done) (stack : Mem) :
    Captures s₀ env cap (n + 1) (s.recorderRoutine stack) c := by
  have hidle : s.status.recActivated ≠ true := fun he => h.active_iff.mp he hdone
  obtain ⟨hruns, hbuff, hplain, htype, hpos, hslots, htime, hphase⟩ := h
  unfold recorderRoutine
  dsimp only
  rw [if_neg hidle]
  refine ⟨hruns, hbuff, hplain, htype, hpos, hslots, fun hne => absurd hdone hne, ?_⟩
  rw [hdone] at hphase ⊢
  exact hphase

/-- A call between two samples. -/
theorem Captures.call_between (h : Captures s₀ env cap n s c) (hactive : c.phase ≠ .done)
    (hdue : s.recorder.recTime ≠ s.recorder.timeDiv) (stack : Mem) :
    Captures s₀ env cap (n + 1) (s.recorderRoutine stack) c ∧ s₀.due (n + 1) = s₀.due n := by
  have hact := h.active_iff.mpr hactive
  obtain ⟨hruns, hbuff, hplain, htype, hpos, hslots, htime, hphase⟩ := h
  obtain ⟨htime, hcount⟩ := htime hactive
  have hdiv : s.recorder.timeDiv = s₀.recorder.timeDiv := by rw [hruns]
  have hne : (n + s₀.recorder.timeDiv.toNat) % s₀.period ≠ s₀.recorder.timeDiv.toNat := by
    intro he
    rw [← htime, ← hdiv] at he
    exact hdue (UInt16.toNat_inj.mp he)
  obtain ⟨hsame, hnext⟩ := due_same hne
  have hroom : s.recorder.recTime.toNat + 1 < 65536 := by
    have hlt := Nat.mod_lt (n + 1 + s₀.recorder.timeDiv.toNat) s₀.period_pos
    have hmax := s₀.recorder.timeDiv.toNat_lt
    rw [hnext, ← htime] at hlt
    unfold period at hlt
    omega
  unfold recorderRoutine
  dsimp only
  rw [if_pos hact, if_neg hdue]
  refine ⟨⟨by rw [hruns, Runs], hbuff, hplain, htype, hpos, hslots, fun _ => ⟨?_, ?_⟩,
    hphase.congr rfl rfl rfl rfl⟩, hsame⟩
  · show (s.recorder.recTime + 1).toNat = _
    rw [UInt16.toNat_add, hnext, htime]
    exact Nat.mod_eq_of_lt (by rw [← htime]; exact hroom)
  · rw [hsame, hcount]

/-! ## A sample that is due -/

theorem countPretrig_frame (s : Board) :
    s.countPretrig = { s with
      status := { s.status with recReadPretrig := s.countPretrig.status.recReadPretrig }
      recPretrigCount := s.countPretrig.recPretrigCount } := by
  unfold countPretrig
  dsimp only
  split
  · split <;> rfl
  · rfl

theorem pretrig_iff {cap k post len : Nat} (hlen : 0 < len) :
    ((cap * len : Nat) : Int) - (len : Int) * (post : Int) ≤ ((k * len : Nat) : Int) ↔ cap ≤ k + post := by
  have hnat : ((cap * len : Nat) : Int) - (len : Int) * (post : Int) ≤ ((k * len : Nat) : Int) ↔
      cap * len ≤ (k + post) * len := by
    rw [Nat.add_mul, Nat.mul_comm post]
    push_cast
    omega
  rw [hnat]
  exact Nat.mul_le_mul_right_iff hlen

/-- The samples before the trigger are counted. -/
theorem Captures.countPretrig (h : Captures s₀ env cap n s c) (hfresh : Fresh s₀ cap)
    (hwait : c.phase = .waiting) :
    (s.countPretrig.status.recReadPretrig = true ↔ cap ≤ c.count + s₀.recorder.postTrigger.toNat) ∧
      s.countPretrig.recPretrigCount.toNat =
        min (c.count + 1) (cap - s₀.recorder.postTrigger.toNat) * s₀.recorder.recSetLen.toNat := by
  have hphase := h.phase
  rw [hwait] at hphase
  obtain ⟨-, -, -, -, hpre, hcount⟩ := hphase
  have htotal : s.recorder.totalSmps = s₀.recorder.totalSmps := by rw [h.runs]
  have hset : s.recorder.recSetLen = s₀.recorder.recSetLen := by rw [h.runs]
  have hpost : s.recorder.postTrigger = s₀.recorder.postTrigger := by rw [h.runs]
  have hlen := hfresh.setLen_pos
  have hroom := hfresh.room
  unfold Board.countPretrig
  dsimp only
  cases hread : s.status.recReadPretrig with
  | true =>
    obtain ⟨hk, hlt⟩ := hpre.mp hread
    rw [if_neg (by simp)]
    refine ⟨iff_of_true hread (Nat.le_of_lt hlt), ?_⟩
    rw [hcount, Nat.min_eq_right (by omega), Nat.min_eq_right (by omega)]
  | false =>
    have hnot : ¬ (0 < c.count ∧ cap < c.count + s₀.recorder.postTrigger.toNat) := by
      intro hin
      exact Bool.false_ne_true (hread.symm.trans (hpre.mpr hin))
    rw [Nat.min_eq_left (by omega)] at hcount
    rw [if_pos rfl, htotal, hset, hpost, hcount, hfresh.totalSmps]
    by_cases henough : cap ≤ c.count + s₀.recorder.postTrigger.toNat
    · rw [if_pos ((pretrig_iff hlen).mpr henough)]
      refine ⟨iff_of_true rfl henough, ?_⟩
      rw [hcount, Nat.min_eq_right (by omega)]
      congr 1
      omega
    · rw [if_neg fun hle => henough ((pretrig_iff hlen).mp hle)]
      refine ⟨iff_of_false (by rw [hread]; simp) henough, ?_⟩
      have hmul : (c.count + 1) * s₀.recorder.recSetLen.toNat ≤ cap * s₀.recorder.recSetLen.toNat :=
        Nat.mul_le_mul_right _ (by omega)
      rw [Nat.min_eq_left (by omega), Nat.succ_mul, UInt16.toNat_add, hcount]
      rw [Nat.succ_mul] at hmul
      exact Nat.mod_eq_of_lt (by show _ < 65536; omega)

/-- The memory, but for the recorder buffer, is that of the other threads. -/
def Env (s : Board) (mem : Mem) : Prop :=
  ∀ a, a < s.recBuff ∨ s.recBuff + recBlock ≤ a → s.mem a = mem a

theorem env_readBytes {mem : Mem} (henv : s.Env mem) {a len : Nat} (h : Apart s.recBuff recBlock a len) :
    readBytes s.mem a len = readBytes mem a len := by
  refine readBytes_congr fun i hi => henv _ ?_
  unfold Apart recBlock at h
  unfold recBlock
  omega

/-- The sample that is due is written to its place. -/
theorem Captures.takeSample (h : Captures s₀ env cap n s c) (hfresh : Fresh s₀ cap)
    (helse : Elsewhere s₀) (hn : n = c.count * s₀.period) (henv : s.Env (env n)) :
    WrittenRound (slot s₀ s.takeSample) cap (s₀.sampleAt env) (c.count + 1) ∧
      s.takeSample.recorder.recPos.toNat = (c.count + 1) % cap * s₀.recorder.recSetLen.toNat := by
  have hlt := Nat.mod_lt c.count hfresh.cap_pos
  have hroom := slot_room hfresh hlt
  have hset := hfresh.config.recSetLen
  have hcnt : s.recorder.varCnt = s₀.recorder.varCnt := h.runs.varCnt
  have hdef : s.recorder.varDef = s₀.recorder.varDef := by rw [h.runs]
  have htotal : s.recorder.totalSmps = s₀.recorder.totalSmps := by rw [h.runs]
  have hpos := h.recPos
  -- the sample is the values in `env n`, and has the length of a place
  have hfit : s.recorder.recPos.toNat + sampleLen s₀.recorder.varDef 0 s₀.recorder.varCnt.toNat <
      65536 := by
    rw [← hset, hpos]
    omega
  obtain ⟨hend, -⟩ := readRecSample_frame s.recBuff s₀.recorder.varDef hfit s.mem
  have hapart : ∀ j, 0 ≤ j → j < 0 + s₀.recorder.varCnt.toNat →
      Apart (s.recBuff + s.recorder.recPos.toNat) (sampleLen s₀.recorder.varDef 0 s₀.recorder.varCnt.toNat)
        (s₀.recorder.varDef j).varAddr (s₀.recorder.varDef j).varSize.toNat := by
    intro j _ hj
    have hout := helse.varDef j (by omega)
    rw [← h.recBuff] at hout
    rw [← hset, hpos]
    unfold Apart recBlock at hout
    unfold Apart
    omega
  have hmem := readRecSample_eq hfit (fun j _ hj => helse.varSize j (by omega)) hapart s.mem
  have hvalues : values s₀.recorder.varDef s.mem 0 s₀.recorder.varCnt.toNat =
      s₀.sampleAt env c.count := by
    unfold sampleAt
    rw [← hn]
    refine values_congr fun j _ hj => env_readBytes henv ?_
    rw [h.recBuff]
    exact helse.varDef j (by omega)
  have hlength : (s₀.sampleAt env c.count).length = s₀.recorder.recSetLen.toNat :=
    (length_values_eq _ _ _ _).trans hset.symm
  unfold Board.takeSample
  dsimp only
  rw [hcnt, hdef, htotal]
  refine ⟨h.slots.write.congr hfresh.cap_pos fun j hj => ?_, ?_⟩
  · -- the places of the ring do not meet
    unfold slot
    dsimp only
    rw [hmem, hvalues, hpos, h.recBuff]
    by_cases hsame : j = c.count % cap
    · rw [hsame, Function.update_self, ← hlength, readBytes_writeBytes]
    · rw [Function.update_of_ne hsame]
      refine readBytes_writeBytes_frame ?_
      rw [hlength]
      unfold Apart
      rcases Nat.lt_or_gt_of_ne hsame with hbelow | habove
      · have hmul := Nat.mul_le_mul_right s₀.recorder.recSetLen.toNat hbelow
        rw [Nat.succ_mul] at hmul
        omega
      · have hmul := Nat.mul_le_mul_right s₀.recorder.recSetLen.toNat habove
        rw [Nat.succ_mul] at hmul
        omega
  · rw [← hset, hpos, ← Nat.succ_mul] at hend
    have hnext : (c.count + 1) % cap = Ring.next cap (c.count % cap) := by
      rw [Ring.next_eq_mod hlt, Nat.mod_add_mod]
    rw [hnext, Ring.next]
    have hle : s₀.recorder.totalSmps ≤
        (readRecSample s.recBuff s₀.recorder.varDef s₀.recorder.varCnt.toNat 0 s.recorder.recPos s.mem).2 ↔
          c.count % cap + 1 = cap := by
      rw [UInt16.le_iff_toNat_le, hend, hfresh.totalSmps, Nat.mul_le_mul_right_iff hfresh.setLen_pos]
      omega
    by_cases hwrap : c.count % cap + 1 = cap
    · rw [if_pos hwrap, if_pos (hle.mpr hwrap), Nat.zero_mul]
      rfl
    · rw [if_neg hwrap, if_neg fun hin => hwrap (hle.mp hin), hend]

/-- The pretrigger count changes nothing that a sample depends on. -/
theorem takeSample_countPretrig (s : Board) :
    s.countPretrig.takeSample = { s.takeSample with
      status := s.countPretrig.status, recPretrigCount := s.countPretrig.recPretrigCount } := by
  unfold countPretrig
  dsimp only
  split
  · split <;> rfl
  · rfl

/-- What a due call leaves in the memory is the sample. -/
theorem recorderCase_frame (s : Board) (trgType size : Nat) (actual : Mem) :
    let t := s.countPretrig.takeSample.recorderCase trgType size actual
    t.mem = s.takeSample.mem ∧ t.recorder.recPos = s.takeSample.recorder.recPos := by
  obtain ⟨hmem, hpos⟩ := check_frame s.countPretrig.takeSample trgType actual
  refine ⟨hmem.trans ?_, hpos.trans ?_⟩
  · rw [takeSample_countPretrig]
  · rw [takeSample_countPretrig]

theorem find_recTypes {trgType size : Nat} (h : (trgType, size) ∈ recTypes) :
    size ≤ 4 ∧ recTypes.find? (fun t => t.1 = trgType) = some (trgType, size) := by
  simp only [recTypes, List.mem_cons, Prod.mk.injEq, List.not_mem_nil, or_false] at h
  rcases h with ⟨rfl, rfl⟩ | ⟨rfl, rfl⟩ | ⟨rfl, rfl⟩ | ⟨rfl, rfl⟩ | ⟨rfl, rfl⟩ | ⟨rfl, rfl⟩ <;>
    exact ⟨by decide, rfl⟩

/-- The trigger variable, as it is read. -/
def readTrigger (s : Board) (stack : Mem) : Mem :=
  writeBytes stack 0 (readBytes s.mem s.recorder.trgVarAddr (int8Size s.recorder.trgVarSize))

/-- A call when a sample is due. -/
theorem recorder_due (hactive : s.status.recActivated = true)
    (hdue : s.recorder.recTime = s.recorder.timeDiv)
    (htype : (s.status.trgType, s.recorder.trgVarSize.toNat) ∈ recTypes) (stack : Mem) :
    s.recorderRoutine stack =
      s.countPretrig.takeSample.recorderCase s.status.trgType s.recorder.trgVarSize.toNat
        (s.readTrigger stack) := by
  have hstatus : s.countPretrig.takeSample.status.trgType = s.status.trgType := by
    rw [takeSample_countPretrig]
    show s.countPretrig.status.trgType = _
    rw [countPretrig_frame]
  have hmem : s.countPretrig.mem = s.mem := by rw [countPretrig_frame]
  unfold recorderRoutine readTrigger
  dsimp only
  rw [if_pos hactive, if_pos hdue, hstatus, (find_recTypes htype).2, hmem]

/-- What is read of the trigger variable is its value at the sample. -/
theorem trgVal_readTrigger (hruns : Runs s₀.recorder s.recorder) (hbuff : s.recBuff = s₀.recBuff)
    (hfresh : Fresh s₀ cap) (helse : Elsewhere s₀) {k : Nat} (henv : s.Env (env (k * s₀.period)))
    (stack u : Mem) :
    trgVal s₀.status.trgType (s.readTrigger stack) = s₀.trgAt env k ∧
      trgVal s₀.status.trgType
        (writeBytes u 0 (readBytes (s.readTrigger stack) 0 s₀.recorder.trgVarSize.toNat)) =
          s₀.trgAt env k := by
  have hsize := (find_recTypes hfresh.trgType).1
  have hvar : s.recorder.trgVarAddr = s₀.recorder.trgVarAddr ∧
      s.recorder.trgVarSize = s₀.recorder.trgVarSize := by
    rw [hruns]
    exact ⟨rfl, rfl⟩
  have hint : int8Size s₀.recorder.trgVarSize = s₀.recorder.trgVarSize.toNat :=
    if_pos (UInt8.le_iff_toNat_le.mpr (Nat.le_trans hsize (by decide)))
  have hread : ∀ j < s₀.recorder.trgVarSize.toNat,
      s.readTrigger stack j = env (k * s₀.period) (s₀.recorder.trgVarAddr + j) := by
    intro j hj
    have hout : s.mem (s₀.recorder.trgVarAddr + j) = env (k * s₀.period) (s₀.recorder.trgVarAddr + j) := by
      refine henv _ ?_
      have hapart := helse.trgVar
      rw [hbuff]
      unfold Apart recBlock at hapart
      unfold recBlock
      omega
    rw [readTrigger, hvar.1, hvar.2, hint, writeBytes_inside (Nat.zero_le j) (by simpa using hj)]
    simp [readBytes, hout]
  refine ⟨trgVal_congr hfresh.trgType hread, trgVal_congr hfresh.trgType fun j hj => ?_⟩
  rw [← hread j hj, writeBytes_inside (Nat.zero_le j) (by simpa using hj)]
  simp [readBytes]

/-- A word counts down. -/
theorem word_pred {x : UInt16} (h : 0 < x.toNat) :
    (x - 1).toNat = x.toNat - 1 ∧ (x - 1 = 0 ↔ x.toNat = 1) := by
  have hone : (x - 1).toNat = x.toNat - 1 := UInt16.toNat_sub_of_le x 1 (UInt16.le_iff_toNat_le.mpr h)
  refine ⟨hone, ?_⟩
  rw [← UInt16.toNat_inj, hone]
  show x.toNat - 1 = 0 ↔ _
  omega

/-- One sample while the recorder waits for the trigger. -/
theorem waiting_due {k : Nat} (h : Captures s₀ env cap n s ⟨k, .waiting⟩) (hfresh : Fresh s₀ cap)
    {actual : Mem} (hactual : trgVal s₀.status.trgType actual = s₀.trgAt env k)
    (hlast : ∀ m, trgVal s₀.status.trgType
      (writeBytes m 0 (readBytes actual 0 s₀.recorder.trgVarSize.toNat)) = s₀.trgAt env k) :
    let c := Capture.next (s₀.firesAt env) cap s₀.recorder.postTrigger.toNat ⟨k, .waiting⟩
    InPhase s₀ env cap c.count (s.countPretrig.takeSample.recorderCase s₀.status.trgType
      s₀.recorder.trgVarSize.toNat actual) c.phase := by
  obtain ⟨hactive, hrun, hend, hbefore, -, -⟩ := h.phase
  obtain ⟨hpre, hcount⟩ := h.countPretrig hfresh rfl
  have hcounted := countPretrig_frame s
  have hrun' : s.countPretrig.takeSample.status.recRunning = false := by
    rw [takeSample_countPretrig, hcounted]
    exact hrun
  have hactive' : s.countPretrig.takeSample.status.recActivated = true := by
    rw [takeSample_countPretrig, hcounted]
    exact hactive
  have hsample : s.countPretrig.takeSample.recorder.recToEnd = 1 ∧
      s.countPretrig.takeSample.recorder.postTrigger = s₀.recorder.postTrigger ∧
      triggered s.countPretrig.takeSample.recorder s₀.status.trgType actual = s₀.firesAt env k := by
    rw [takeSample_countPretrig]
    refine ⟨hend, by show s.recorder.postTrigger = _; rw [h.runs], ?_⟩
    have hmode : s.recorder.trgMode = s₀.recorder.trgMode ∧
        s.recorder.trgThreshold = s₀.recorder.trgThreshold := by
      rw [h.runs]
      exact ⟨rfl, rfl⟩
    show crosses s.recorder.trgMode (trgVal s₀.status.trgType s.recorder.trgThreshold)
      (trgVal s₀.status.trgType s.recorder.recLastVal) (trgVal s₀.status.trgType actual) = _
    rw [hmode.1, hmode.2, hbefore, hactual]
    rfl
  change s.countPretrig.takeSample.status.recReadPretrig = true ↔ _ at hpre
  change s.countPretrig.takeSample.recPretrigCount.toNat = _ at hcount
  obtain ⟨hend, hpost, htrig⟩ := hsample
  have hpos : 0 < s₀.recorder.postTrigger.toNat :=
    Nat.pos_of_ne_zero fun he => hfresh.postTrigger (UInt16.toNat_inj.mp he)
  obtain ⟨hone, hzero⟩ := word_pred hpos
  unfold Capture.next
  dsimp only
  by_cases hfire : cap ≤ k + s₀.recorder.postTrigger.toNat ∧ s₀.firesAt env k = true
  · have hcheck := check_fires s₀.status.trgType actual hrun' (hpre.mpr hfire.1) (htrig.trans hfire.2)
    rw [if_pos hfire, recorderCase, hcheck, hpost]
    by_cases hstop : s₀.recorder.postTrigger.toNat = 1
    · dsimp only
      rw [if_pos hstop, if_pos (hzero.mpr hstop)]
      exact ⟨rfl, rfl⟩
    · dsimp only
      rw [if_neg hstop, if_neg fun he => hstop (hzero.mp he)]
      exact ⟨hactive', rfl, hpre.mpr hfire.1, hone, by omega⟩
  · have hquiet := check_quiet s₀.status.trgType actual hrun'
      (by rw [hend]; decide) fun hread => by
        rw [htrig]
        exact Bool.eq_false_iff.mpr fun hf => hfire ⟨hpre.mp hread, hf⟩
    rw [if_neg hfire, recorderCase, hquiet]
    refine ⟨hactive', hrun', hend, hlast _, hpre.trans ?_, hcount⟩
    show cap ≤ k + _ ↔ 0 < k + 1 ∧ cap < k + 1 + _
    omega

/-- One sample behind the trigger. -/
theorem running_due {k left : Nat} (h : Captures s₀ env cap n s ⟨k, .running left⟩) (actual : Mem) :
    let c := Capture.next (s₀.firesAt env) cap s₀.recorder.postTrigger.toNat ⟨k, .running left⟩
    InPhase s₀ env cap c.count (s.countPretrig.takeSample.recorderCase s₀.status.trgType
      s₀.recorder.trgVarSize.toNat actual) c.phase := by
  obtain ⟨hactive, hrun, hpre, hend, hleft⟩ := h.phase
  have hcounted : s.countPretrig = s := by
    unfold countPretrig
    dsimp only
    rw [if_neg (by rw [hpre]; simp)]
  obtain ⟨hone, hzero⟩ := word_pred (hend.symm ▸ hleft)
  rw [hend] at hone hzero
  have hcheck := check_running (s := s.takeSample) s₀.status.trgType actual hrun hpre
  change _ = let t : Board := { s.takeSample with
    recorder := { s.takeSample.recorder with recToEnd := s.recorder.recToEnd - 1 } }
    if s.recorder.recToEnd - 1 = 0 then t.stopped else t at hcheck
  rw [hcounted, recorderCase, hcheck]
  unfold Capture.next
  dsimp only
  by_cases hstop : left = 1
  · rw [if_pos hstop, if_pos (hzero.mpr hstop)]
    exact ⟨rfl, rfl⟩
  · rw [if_neg hstop, if_neg fun he => hstop (hzero.mp he)]
    exact ⟨hactive, hrun, hpre, hone, by omega⟩

/-- A call when a sample is due is one sample more of the capture. -/
theorem Captures.call_due (h : Captures s₀ env cap n s c) (hfresh : Fresh s₀ cap)
    (helse : Elsewhere s₀) (hactive : c.phase ≠ .done)
    (hdue : s.recorder.recTime = s.recorder.timeDiv) (henv : s.Env (env n)) (stack : Mem) :
    Captures s₀ env cap (n + 1) (s.recorderRoutine stack)
        (Capture.next (s₀.firesAt env) cap s₀.recorder.postTrigger.toNat c) ∧
      s₀.due (n + 1) = s₀.due n + 1 := by
  obtain ⟨htime, hcount⟩ := h.recTime hactive
  have hset : s.recorder.timeDiv = s₀.recorder.timeDiv ∧
      s.recorder.trgVarSize = s₀.recorder.trgVarSize := by
    rw [h.runs]
    exact ⟨rfl, rfl⟩
  rw [hdue, hset.1] at htime
  obtain ⟨hsucc, hzero, hn⟩ := due_succ htime.symm
  rw [← hcount] at hn
  obtain ⟨hslots, hpos⟩ := h.takeSample hfresh helse hn henv
  have henv' : s.Env (env (c.count * s₀.period)) := by rwa [← hn]
  have htrg := trgVal_readTrigger h.runs h.recBuff hfresh helse henv' stack
  have hticked := recorder_ticked (h.recInv hfresh) stack
  have hrec := recorder_due (h.active_iff.mpr hactive) hdue
    (by rw [h.trgType, hset.2]; exact hfresh.trgType) stack
  rw [h.trgType, hset.2] at hrec
  obtain ⟨hmem, hrecPos⟩ :=
    recorderCase_frame s s₀.status.trgType s₀.recorder.trgVarSize.toNat (s.readTrigger stack)
  have hnext : (Capture.next (s₀.firesAt env) cap s₀.recorder.postTrigger.toNat c).count =
      c.count + 1 := Capture.next_count hactive
  refine ⟨⟨?_, ?_, ?_, hticked.trgType.trans h.trgType, ?_, ?_, fun _ => ⟨?_, ?_⟩, ?_⟩, hsucc⟩
  · have hruns := hticked.runs
    rw [h.runs] at hruns
    rw [Runs, hruns]
  · rw [hticked.same]
    exact h.recBuff
  · rw [hticked.same]
    exact h.plain
  · rw [hrec, hnext, ← hpos, hrecPos]
  · rw [hrec, hnext]
    refine hslots.congr hfresh.cap_pos fun j _ => ?_
    unfold slot
    rw [hmem]
  · rw [hrec, hzero]
    rfl
  · rw [hnext, hsucc, hcount]
  · obtain ⟨k, phase⟩ := c
    rw [hrec]
    cases phase with
    | waiting => exact waiting_due h hfresh (htrg s.recorder.recLastVal).1 fun m => (htrg m).2
    | running left => exact running_due h _
    | done => exact absurd rfl hactive

/-- One call, whichever it is. -/
theorem Captures.call (h : Captures s₀ env cap n s c) (hfresh : Fresh s₀ cap) (helse : Elsewhere s₀)
    (henv : s.Env (env n)) (stack : Mem)
    (hc : c = Capture.after (s₀.firesAt env) cap s₀.recorder.postTrigger.toNat (s₀.due n)) :
    Captures s₀ env cap (n + 1) (s.recorderRoutine stack)
      (Capture.after (s₀.firesAt env) cap s₀.recorder.postTrigger.toNat (s₀.due (n + 1))) := by
  by_cases hdone : c.phase = .done
  · have hsame : Capture.after (s₀.firesAt env) cap s₀.recorder.postTrigger.toNat (s₀.due (n + 1)) = c := by
      by_cases hmod : (n + s₀.recorder.timeDiv.toNat) % s₀.period = s₀.recorder.timeDiv.toNat
      · rw [(due_succ hmod).1, Capture.after_succ, ← hc, Capture.next_done hdone]
      · rw [(due_same hmod).1, hc]
    rw [hsame]
    exact h.call_done hdone stack
  · by_cases hdue : s.recorder.recTime = s.recorder.timeDiv
    · obtain ⟨hcall, hsucc⟩ := h.call_due hfresh helse hdone hdue henv stack
      rw [hsucc, Capture.after_succ, ← hc]
      exact hcall
    · obtain ⟨hcall, hsame⟩ := h.call_between hdone hdue stack
      rw [hsame, ← hc]
      exact hcall

theorem Fresh.captures (h : Fresh s₀ cap) : Captures s₀ env cap 0 s₀ ⟨0, .waiting⟩ where
  runs := rfl
  recBuff := rfl
  plain := rfl
  trgType := rfl
  recPos := by
    rw [h.recPos, Nat.zero_mod, Nat.zero_mul]
    rfl
  slots := fun r hr => absurd hr (Nat.not_lt_zero r)
  recTime := fun _ => by
    have hlt : s₀.recorder.timeDiv.toNat < s₀.period := Nat.lt_succ_self _
    rw [h.recTime, Nat.zero_add, Nat.mod_eq_of_lt hlt, due_zero]
    exact ⟨rfl, rfl⟩
  phase := by
    refine ⟨h.active, h.recRunning, h.recToEnd, rfl, ?_, ?_⟩
    · rw [h.recReadPretrig]
      exact iff_of_false Bool.false_ne_true fun hpos => Nat.lt_irrefl 0 hpos.1
    · rw [h.recPretrigCount, Nat.zero_min, Nat.zero_mul]
      rfl

/-- What a call reads is described. -/
theorem Captures.sampled (h : Captures s₀ env cap n s c) (helse : Elsewhere s₀) :
    ∀ r ∈ s.sampled, s.Described r.1 r.2 := by
  have hdesc : ∀ {a size : Nat} {len : UInt8}, s₀.Described a size → int8Size len ≤ size →
      s.Described a (int8Size len) := by
    intro a size len ⟨hend, hall⟩ hle
    refine ⟨by omega, fun i hi => ?_⟩
    have hbyte := hall i (by omega)
    unfold describedAt at hbyte ⊢
    rwa [h.recBuff, h.plain]
  have hrec : s.recorder.trgVarAddr = s₀.recorder.trgVarAddr ∧
      s.recorder.trgVarSize = s₀.recorder.trgVarSize ∧ s.recorder.varDef = s₀.recorder.varDef := by
    rw [h.runs]
    exact ⟨rfl, rfl, rfl⟩
  intro r hr
  unfold Board.sampled at hr
  dsimp only at hr
  split at hr
  · rw [hrec.1, hrec.2.1, hrec.2.2, h.runs.varCnt, List.mem_cons] at hr
    rcases hr with rfl | hmem
    · exact hdesc helse.trgDescribed (int8Size_le _)
    · obtain ⟨j, hj, rfl⟩ := List.mem_map.mp hmem
      exact hdesc (helse.varDescribed j (List.mem_range.mp hj)) (int8Size_le _)
  · exact absurd hr List.not_mem_nil

/-- The recorder is as far as the capture is, however often it was called. -/
theorem captures_ticks (hfresh : Fresh s₀ cap) (helse : Elsewhere s₀) (stack : Nat → Mem) (n : Nat) :
    ∃ t, s₀.ticks env stack n = some t ∧ Captures s₀ env cap n t
      (Capture.after (s₀.firesAt env) cap s₀.recorder.postTrigger.toNat (s₀.due n)) := by
  induction n with
  | zero =>
    rw [due_zero]
    exact ⟨s₀, rfl, hfresh.captures⟩
  | succ n ih =>
    obtain ⟨t, ht, hcaptures⟩ := ih
    have hbefore := hcaptures.withEnv hfresh (env n)
    refine ⟨(t.withEnv (env n)).recorderRoutine (stack n), ?_,
      hbefore.call hfresh helse (fun a ha => if_neg ?_) (stack n) rfl⟩
    · rw [ticks, ht, Option.bind_some]
      exact if_pos (hbefore.sampled helse)
    · change a < t.recBuff ∨ t.recBuff + recBlock ≤ a at ha
      omega

end

/-! ## A recording -/

/-- A set-up that is accepted while the recorder is idle. The length of the recording is not
checked for an overflow, nor the sign of the trigger variable for being one. -/
theorem Accepts.fresh {s : Board} (h : Accepts s.dataBuff) (hpre : s.status.recReadPretrig = false)
    (hcount : s.recPretrigCount = 0) (hcap : readWord s.dataBuff 3 ≠ 0)
    (hpost : readWord s.dataBuff 5 ≠ 0) (hsigned : s.dataBuff 14 ≤ 1)
    (hroom : (readWord s.dataBuff 3).toNat *
      (setLen (setupVarDef s.dataBuff) (s.dataBuff 19).toNat).toNat < 65536) :
    Fresh s.setupRecEx (readWord s.dataBuff 3).toNat := by
  rcases s.setupRecEx_cases with ⟨-, he⟩ | ⟨hrefused, -⟩
  swap
  · exact absurd h hrefused
  have hsign : (s.dataBuff 14).toNat ≤ 1 := UInt8.le_iff_toNat_le.mp hsigned
  rw [he]
  refine ⟨h.config, ?_, Nat.pos_of_ne_zero fun hz => hcap (UInt16.toNat_inj.mp hz), hpost, ?_, rfl, ?_,
    hpre, hcount, rfl, rfl, rfl⟩
  · show (readWord s.dataBuff 3 * setLen (setupVarDef s.dataBuff) (s.dataBuff 19).toNat).toNat = _
    rw [UInt16.toNat_mul]
    exact Nat.mod_eq_of_lt hroom
  · have hflag : (s.dataBuff 14).toNat = 0 ∨ (s.dataBuff 14).toNat = 1 := by omega
    show (((s.dataBuff 13).toNat * 2 + (s.dataBuff 14).toNat) % 16, (s.dataBuff 13).toNat) ∈ recTypes
    rcases h.trgVarSize with hs | hs | hs <;> rcases hflag with hf | hf <;> rw [hs, hf] <;> decide
  · have hsize : (s.dataBuff 13).toNat ≤ 4 := by
      rcases h.trgVarSize with hs | hs | hs <;> rw [hs] <;> decide
    show (false || ((s.dataBuff 13).toNat * 2 + (s.dataBuff 14).toNat).testBit 8) = false
    rw [Bool.false_or]
    exact Nat.testBit_lt_two_pow (show (s.dataBuff 13).toNat * 2 + (s.dataBuff 14).toNat < 256 by omega)

/-- What `PCMDRV_CMD_GETRECBUFFEX` returns behind a recording: where the buffer is, and the place of
the oldest sample. -/
theorem Captures.getRecBuffEx {s₀ s : Board} {env : Nat → Mem} {cap n : Nat} {c : Capture.State}
    (h : Captures s₀ env cap n s c) (hfresh : Fresh s₀ cap) (hcnt : s₀.recorder.varCnt ≠ 0)
    (hdone : c.phase = .done) :
    ∃ u, s.getRecBuffEx = some u ∧
      u.answer = stcOk :: (addrBytes s₀.recBuff ++ wordBytes (UInt16.ofNat (c.count % cap))) := by
  have hphase := h.phase
  rw [hdone] at hphase
  have hset : s.recorder.varCnt = s₀.recorder.varCnt ∧ s.recorder.recSetLen = s₀.recorder.recSetLen := by
    rw [h.runs]
    exact ⟨rfl, rfl⟩
  have hpos : s.recorder.recPos / s₀.recorder.recSetLen = UInt16.ofNat (c.count % cap) := by
    have hlt := s.recorder.recPos.toNat_lt
    refine UInt16.toNat_inj.mp ?_
    have hdiv : s.recorder.recPos.toNat / s₀.recorder.recSetLen.toNat = c.count % cap := by
      rw [h.recPos, Nat.mul_div_cancel _ hfresh.setLen_pos]
    have hle := Nat.div_le_self s.recorder.recPos.toNat s₀.recorder.recSetLen.toNat
    rw [UInt16.toNat_div, hdiv, UInt16.toNat_ofNat']
    exact (Nat.mod_eq_of_lt (by show _ < 65536; omega)).symm
  unfold Board.getRecBuffEx
  rw [if_neg (by decide), if_pos (by rw [hset.1]; exact hcnt), if_pos hphase.2,
    if_neg (by rw [hset.2]; exact hfresh.config.recSetLen_pos)]
  refine ⟨_, rfl, ?_⟩
  rw [hset.2, hpos, h.recBuff]
  exact answer_return _ _ rfl

/-- The places of the ring, from the oldest sample on. -/
theorem Captures.entries {s₀ s : Board} {env : Nat → Mem} {cap n : Nat} {c : Capture.State}
    (h : Captures s₀ env cap n s c) (hcap : cap ≤ c.count) :
    Ring.entries (slot s₀ s) cap c.count cap =
      (List.range cap).map fun j => s₀.sampleAt env (c.count - cap + j) := by
  refine List.map_congr_left fun j hj => ?_
  have hlt := List.mem_range.mp hj
  have hwrap : c.count + j = c.count - cap + j + cap := by omega
  rw [hwrap, Nat.add_mod_right]
  exact h.slots (c.count - cap + j) (by omega) (by omega)

/-- Behind a set-up that is accepted while the recorder is idle, however often the routine is called
and whatever the variables do in the meantime, the recorder runs until it has taken `postTrigger`
samples from the trigger on. Then `PCMDRV_CMD_GETRECBUFFEX` tells where the oldest sample is, and
from there on the buffer has the last samples, those before the trigger among them, in order. -/
theorem recording {s : Board} (haccepts : Accepts s.dataBuff) (hpre : s.status.recReadPretrig = false)
    (hcount : s.recPretrigCount = 0) (hcap : readWord s.dataBuff 3 ≠ 0)
    (hpost : readWord s.dataBuff 5 ≠ 0) (hsigned : s.dataBuff 14 ≤ 1)
    (hroom : (readWord s.dataBuff 3).toNat *
      (setLen (setupVarDef s.dataBuff) (s.dataBuff 19).toNat).toNat < 65536)
    (helse : Elsewhere s.setupRecEx) (env stack : Nat → Mem) (n : Nat) :
    let s₀ := s.setupRecEx
    let cap := (readWord s.dataBuff 3).toNat
    let post := (readWord s.dataBuff 5).toNat
    ∃ t, s₀.ticks env stack n = some t ∧
      ((t.status.recActivated = true ∧
          ∀ i, Capture.Trigger (s₀.firesAt env) cap post i → s₀.due n < i + post) ∨
        t.status.recActivated = false ∧
          ∃ i, Capture.Trigger (s₀.firesAt env) cap post i ∧ i + post ≤ s₀.due n ∧
            (∃ u, t.getRecBuffEx = some u ∧ u.answer =
              stcOk :: (addrBytes s.recBuff ++ wordBytes (UInt16.ofNat ((i + post) % cap)))) ∧
            Ring.entries (slot s₀ t) cap (i + post) cap =
              (List.range cap).map fun j => s₀.sampleAt env (i + post - cap + j)) := by
  intro s₀ cap post
  have hfresh : Fresh s₀ cap := haccepts.fresh hpre hcount hcap hpost hsigned hroom
  have hset : s₀.recBuff = s.recBuff ∧ s₀.recorder.varCnt = s.dataBuff 19 ∧
      s₀.recorder.postTrigger.toNat = post := by
    rcases s.setupRecEx_cases with ⟨-, he⟩ | ⟨hrefused, -⟩
    · show s.setupRecEx.recBuff = _ ∧ s.setupRecEx.recorder.varCnt = _ ∧
        s.setupRecEx.recorder.postTrigger.toNat = _
      rw [he]
      exact ⟨rfl, rfl, rfl⟩
    · exact absurd haccepts hrefused
  obtain ⟨t, ht, hcaptures⟩ := @captures_ticks s₀ env cap hfresh helse stack n
  have hpos : 0 < post := Nat.pos_of_ne_zero fun hz => hpost (UInt16.toNat_inj.mp hz)
  rw [hset.2.2] at hcaptures
  refine ⟨t, ht, ?_⟩
  rcases Capture.after_cases hpos (s₀.due n) with ⟨hdone, i, htrigger, hstop, hle⟩ | ⟨hactive, -, hno⟩
  · refine .inr ⟨?_, i, htrigger, hle, ?_, ?_⟩
    · exact Bool.eq_false_iff.mpr fun he => hcaptures.active_iff.mp he hdone
    · have hbuff := hcaptures.getRecBuffEx hfresh (by rw [hset.2.1]; exact haccepts.varCnt_ne) hdone
      rwa [hstop, hset.1] at hbuff
    · have hring := hcaptures.entries (by rw [hstop]; exact htrigger.enough)
      rwa [hstop] at hring
  · exact .inl ⟨hcaptures.active_iff.mpr hactive, hno⟩

/-- Two samples of the byte at 0 are asked for, the second one when it rises to 5. -/
def setupRising : Board :=
  let s := (Pcm.smallBoard fun _ => 0).board
  let data := [0x0B, 23, 1, 2, 0, 1, 0, 0, 0, 0, 0, 0, 0, 1, 0, 5, 0, 0, 0, 1, 1, 0, 0, 0, 0]
  { s with dataBuff := writeBytes s.dataBuff 0 data }

/-- The byte counts in threes. -/
theorem recording_rising :
    ∃ t, setupRising.setupRecEx.ticks (fun n _ => (3 * n).toUInt8) (fun _ _ => 0) 4 = some t ∧
      t.status.recActivated = false ∧
      (∃ u, t.getRecBuffEx = some u ∧ u.answer = [0, 0, 0x80, 0, 0, 1, 0]) ∧
      Ring.entries (slot setupRising.setupRecEx t) 2 3 2 = [[3], [6]] := by
  have h := recording (s := setupRising)
    ⟨by decide, by decide, by decide, by decide, by decide, by decide⟩ rfl rfl (by decide) (by decide)
    (by decide) (by decide)
    ⟨by decide, by unfold Apart; decide, by unfold Apart; decide, by decide, by decide⟩
    (fun n _ => (3 * n).toUInt8) (fun _ _ => 0) 4
  have htrigger : Capture.Trigger (setupRising.setupRecEx.firesAt fun n _ => (3 * n).toUInt8) 2 1 2 :=
    ⟨by decide, by decide, by decide⟩
  have hcap : (readWord setupRising.dataBuff 3).toNat = 2 := by decide
  have hpost : (readWord setupRising.dataBuff 5).toNat = 1 := by decide
  dsimp only at h
  rw [hcap, hpost] at h
  obtain ⟨t, ht, h⟩ := h
  refine ⟨t, ht, ?_⟩
  rcases h with ⟨-, hno⟩ | ⟨hstop, i, hi, -, ⟨u, hu, hanswer⟩, hring⟩
  · exact absurd (hno 2 htrigger) (by decide)
  · cases hi.unique htrigger
    exact ⟨hstop, ⟨u, hu, hanswer.trans (by decide)⟩, hring.trans (by decide)⟩

end Board

end SC04Monitor.PcMaster
