import SC04Monitor.PcMaster.Commands

/-! # The recorder

What a set-up leaves, and what holds of the recorder from then on: it is active only with a set-up
that was accepted, and its position stays within the samples that were asked for. -/

namespace SC04Monitor.PcMaster
open SC04Monitor.Lib.ByteMem SC04Monitor.Lib.WordMem

namespace Board

/-! ## The length of a sample -/

/-- The bytes of `n` variables from the `i`-th one on. -/
def sampleLen (varDef : Nat → VarDef) : (i n : Nat) → Nat
  | _, 0 => 0
  | i, n + 1 => (varDef i).varSize.toNat + sampleLen varDef (i + 1) n

theorem sampleLen_concat (varDef : Nat → VarDef) (i n : Nat) :
    sampleLen varDef i (n + 1) = sampleLen varDef i n + (varDef (i + n)).varSize.toNat := by
  induction n generalizing i with
  | zero => exact Nat.add_comm _ 0
  | succ n ih =>
    have hlast : i + 1 + n = i + (n + 1) := by omega
    rw [sampleLen, ih, sampleLen, hlast, Nat.add_assoc]

theorem sampleLen_le (varDef : Nat → VarDef) (i n : Nat) : sampleLen varDef i n ≤ 255 * n := by
  induction n generalizing i with
  | zero => exact Nat.le_refl 0
  | succ n ih =>
    have hsize := (varDef i).varSize.toNat_lt
    have hrest := ih (i + 1)
    rw [sampleLen]
    omega

/-- `recSetLen` does not overflow. -/
theorem toNat_setLen (varDef : Nat → VarDef) {n : Nat} (h : n ≤ 8) :
    (setLen varDef n).toNat = sampleLen varDef 0 n := by
  induction n with
  | zero => rfl
  | succ n ih =>
    have hle := sampleLen_le varDef 0 (n + 1)
    rw [sampleLen_concat, Nat.zero_add] at hle ⊢
    rw [setLen, UInt16.toNat_add, ih (by omega), UInt8.toNat_toUInt16]
    exact Nat.mod_eq_of_lt (by show _ < 65536; omega)

/-- A variable of a size that is not refused adds to a sample. -/
theorem sampleLen_pos {varDef : Nat → VarDef} {n : Nat} (hn : n ≠ 0)
    (h : ∀ i < n, badSize (varDef i) = false) : 0 < sampleLen varDef 0 n := by
  obtain ⟨k, rfl⟩ := Nat.exists_eq_succ_of_ne_zero hn
  have hne : (varDef 0).varSize ≠ 0 := by
    intro he
    have hgood := h 0 (Nat.succ_pos k)
    rw [badSize, he] at hgood
    exact absurd hgood (by decide)
  have hpos : (varDef 0).varSize.toNat ≠ 0 := fun he => hne (UInt8.toNat_inj.mp he)
  rw [sampleLen]
  omega

/-! ## What the recorder keeps -/

/-- A recorder that is set up. -/
structure Config (r : Recorder) : Prop where
  varCnt_le : r.varCnt.toNat ≤ 8
  recSetLen : r.recSetLen.toNat = sampleLen r.varDef 0 r.varCnt.toNat
  recSetLen_pos : r.recSetLen ≠ 0
  totalSmps_le : r.totalSmps ≤ recSize
  recPos : r.recPos = 0 ∨ r.recPos < r.totalSmps
  trgVarSize : r.trgVarSize = 1 ∨ r.trgVarSize = 2 ∨ r.trgVarSize = 4

/-- The recorder is active only when it is set up. -/
structure RecInv (s : Board) : Prop where
  active : s.status.recActivated = true → s.recorder.varCnt ≠ 0
  config : s.recorder.varCnt ≠ 0 → Config s.recorder

/-- An accepted set-up sets the recorder up. -/
theorem Accepts.config {s : Board} (h : Accepts s.dataBuff) : Config s.setupRecorder := by
  have hle : (s.dataBuff 19).toNat ≤ 8 := UInt8.le_iff_toNat_le.mp h.varCnt_le
  have hne : (s.dataBuff 19).toNat ≠ 0 := fun he => h.varCnt_ne (UInt8.toNat_inj.mp he)
  have hcongr : setLen s.setupRecorder.varDef (s.dataBuff 19).toNat =
      setLen (setupVarDef s.dataBuff) (s.dataBuff 19).toNat := setLen_congr fun i hi => if_pos hi
  refine ⟨hle, ?_, ?_, h.room, .inl rfl, h.trgVarSize⟩
  · show _ = sampleLen s.setupRecorder.varDef 0 (s.dataBuff 19).toNat
    rw [← toNat_setLen _ hle]
    exact congrArg UInt16.toNat hcongr.symm
  · intro hzero
    have hpos := sampleLen_pos hne h.varSize
    rw [← toNat_setLen _ hle] at hpos
    exact absurd (congrArg UInt16.toNat hzero) (Nat.ne_of_gt hpos)

/-- Of the recorder only what changes while it runs has changed. -/
def Runs (r r' : Recorder) : Prop :=
  r' = { r with
    recPos := r'.recPos, recToEnd := r'.recToEnd, recTime := r'.recTime, recLastVal := r'.recLastVal }

theorem Runs.varCnt {r r' : Recorder} (h : Runs r r') : r'.varCnt = r.varCnt := by
  rw [h]

theorem Config.runs {r r' : Recorder} (h : Config r) (hrun : Runs r r')
    (hpos : r'.recPos = r.recPos ∨ r'.recPos = 0 ∨ r'.recPos < r.totalSmps) : Config r' := by
  obtain ⟨hle, hlen, hlen0, hroom, hpos0, htrg⟩ := h
  rw [hrun]
  refine ⟨hle, hlen, hlen0, hroom, ?_, htrg⟩
  rcases hpos with he | hpos'
  · rw [he]
    exact hpos0
  · exact hpos'

/-- What keeps the set-up keeps the invariant. -/
theorem RecInv.runs {s t : Board} (h : s.RecInv) (hrun : Runs s.recorder t.recorder)
    (hactive : t.status.recActivated = true → s.recorder.varCnt ≠ 0)
    (hpos : s.recorder.varCnt ≠ 0 → t.recorder.recPos = s.recorder.recPos ∨
      t.recorder.recPos = 0 ∨ t.recorder.recPos < s.recorder.totalSmps) : t.RecInv := by
  have hcnt := hrun.varCnt
  refine ⟨fun ht => ?_, fun hne => ?_⟩
  · rw [hcnt]
    exact hactive ht
  · rw [hcnt] at hne
    exact (h.config hne).runs hrun (hpos hne)

/-! ## A sample -/

theorem memCopy_frame (m : Mem) {src dst n a : Nat} (h : a < dst ∨ dst + n ≤ a) :
    memCopy m src dst n a = m a := by
  induction n generalizing m src dst with
  | zero => rfl
  | succ n ih =>
    rw [memCopy, ih _ (by omega), writeBytes_outside (by simp only [List.length_singleton]; omega)]

/-- A copy to other addresses. -/
theorem memCopy_eq (m : Mem) {src dst n : Nat} (h : Apart dst n src n) :
    memCopy m src dst n = writeBytes m dst (readBytes m src n) := by
  induction n generalizing m src dst with
  | zero => exact (writeBytes_of_readBytes rfl).symm
  | succ n ih =>
    unfold Apart at h
    have hrest : readBytes (writeBytes m dst [m src]) (src + 1) n = readBytes m (src + 1) n := by
      refine readBytes_writeBytes_frame ?_
      unfold Apart
      rw [List.length_singleton]
      omega
    rw [memCopy, ih _ (by unfold Apart; omega), hrest, readBytes_succ]
    exact (writeBytes_append m dst [m src] _).symm

/-- A sample takes its place, and nothing else is written. -/
theorem readRecSample_frame (recBuff : Nat) (varDef : Nat → VarDef) {n i : Nat} {position : UInt16}
    (h : position.toNat + sampleLen varDef i n < 65536) (mem : Mem) :
    (readRecSample recBuff varDef n i position mem).2.toNat =
        position.toNat + sampleLen varDef i n ∧
      ∀ a, a < recBuff + position.toNat ∨ recBuff + position.toNat + sampleLen varDef i n ≤ a →
        (readRecSample recBuff varDef n i position mem).1 a = mem a := by
  induction n generalizing i position mem with
  | zero => exact ⟨rfl, fun _ _ => rfl⟩
  | succ n ih =>
    rw [sampleLen] at h ⊢
    have hnext : (position + (varDef i).varSize.toUInt16).toNat =
        position.toNat + (varDef i).varSize.toNat := by
      rw [UInt16.toNat_add, UInt8.toNat_toUInt16]
      exact Nat.mod_eq_of_lt (by show _ < 65536; omega)
    have hle := int8Size_le (varDef i).varSize
    obtain ⟨hpos, hmem⟩ := @ih (i + 1) (position + (varDef i).varSize.toUInt16) (by omega)
      (memCopy mem (varDef i).varAddr (recBuff + position.toNat) (int8Size (varDef i).varSize))
    rw [readRecSample]
    refine ⟨by omega, fun a ha => ?_⟩
    rw [hmem a (by omega), memCopy_frame mem (by omega)]

/-! ## The recorder routine -/

/-- What a call of the recorder routine can change. -/
structure Ticked (s t : Board) : Prop where
  same : t = { s with
    status := t.status, recorder := t.recorder, recPretrigCount := t.recPretrigCount, mem := t.mem }
  runs : Runs s.recorder t.recorder
  active : t.status.recActivated = true → s.status.recActivated = true
  stdCmd : t.status.stdCmd = s.status.stdCmd
  trgType : t.status.trgType = s.status.trgType
  recPos : t.recorder.recPos = s.recorder.recPos ∨ t.recorder.recPos = 0 ∨
    t.recorder.recPos < s.recorder.totalSmps
  mem : ∀ a, a < s.recBuff ∨ s.recBuff + recBlock ≤ a → t.mem a = s.mem a

theorem Ticked.refl (s : Board) : Ticked s s :=
  ⟨rfl, rfl, id, rfl, rfl, .inl rfl, fun _ _ => rfl⟩

section
variable {s₀ s : Board}

/-- A change of the status and of the variables of a running recorder, the position apart. -/
theorem Ticked.update (h : Ticked s₀ s) {status : Status} (recPretrigCount recToEnd recTime : UInt16)
    (recLastVal : Mem) (hactive : status.recActivated = true → s.status.recActivated = true)
    (hstd : status.stdCmd = s.status.stdCmd) (htype : status.trgType = s.status.trgType) :
    Ticked s₀ { s with
      status, recPretrigCount, recorder := { s.recorder with recToEnd, recTime, recLastVal } } := by
  refine ⟨?_, ?_, fun ht => h.active (hactive ht), hstd.trans h.stdCmd, htype.trans h.trgType, h.recPos,
    h.mem⟩
  · rw [h.same]
  · rw [Runs, h.runs]

theorem Ticked.countPretrig (h : Ticked s₀ s) : Ticked s₀ s.countPretrig := by
  unfold Board.countPretrig
  dsimp only
  split
  · split
    · exact h.update _ _ _ _ id rfl rfl
    · exact h.update _ _ _ _ id rfl rfl
  · exact h

theorem Ticked.checkTrigger (h : Ticked s₀ s) (trgType : Nat) (actual : Mem) :
    Ticked s₀ (s.checkTrigger trgType actual) := by
  unfold Board.checkTrigger
  split
  · split
    · exact h.update _ _ _ _ id rfl rfl
    · exact h
  · split
    · exact h.update _ _ _ _ id rfl rfl
    · exact h

theorem Ticked.checkEnd (h : Ticked s₀ s) : Ticked s₀ s.checkEnd := by
  unfold Board.checkEnd
  split
  · exact h.update _ _ _ _ (fun he => absurd he Bool.false_ne_true) rfl rfl
  · exact h

theorem Ticked.recorderCase (h : Ticked s₀ s) (trgType trgSize : Nat) (actual : Mem) :
    Ticked s₀ (s.recorderCase trgType trgSize actual) :=
  (h.checkTrigger trgType actual).checkEnd.update _ _ 0 _ id rfl rfl

/-- A sample is taken into the block, and the position wraps around. -/
theorem Ticked.takeSample (h : Ticked s₀ s) (hconfig : Config s.recorder)
    (htotal : s.recorder.totalSmps = s₀.recorder.totalSmps) (hrec : s.recBuff = s₀.recBuff) :
    Ticked s₀ s.takeSample := by
  obtain ⟨hle, hlen, hlen0, hroom, hpos, htrg⟩ := hconfig
  have hroom' : s.recorder.totalSmps.toNat ≤ 0x2000 := UInt16.le_iff_toNat_le.mp hroom
  have hpos' : s.recorder.recPos.toNat ≤ 0x2000 := by
    rcases hpos with he | hlt
    · rw [he]
      exact Nat.zero_le _
    · have hnat := UInt16.lt_iff_toNat_lt.mp hlt
      omega
  have hsample := sampleLen_le s.recorder.varDef 0 s.recorder.varCnt.toNat
  obtain ⟨hend, hmem⟩ := readRecSample_frame s.recBuff s.recorder.varDef
    (show s.recorder.recPos.toNat + sampleLen s.recorder.varDef 0 s.recorder.varCnt.toNat < 65536 by
      omega) s.mem
  refine ⟨?_, ?_, h.active, h.stdCmd, h.trgType, .inr ?_, fun a ha => ?_⟩
  · rw [h.same]
    rfl
  · unfold Runs Board.takeSample
    dsimp only
    rw [h.runs]
  · unfold Board.takeSample
    dsimp only
    rw [← htotal]
    split
    · exact .inl rfl
    · exact .inr (UInt16.not_le.mp ‹_›)
  · unfold recBlock at ha
    rw [← h.mem a ha]
    exact hmem a (by omega)

end

/-- What the recorder routine can do. -/
theorem recorder_ticked {s : Board} (h : s.RecInv) (actual : Mem) :
    Ticked s (s.recorderRoutine actual) := by
  unfold recorderRoutine
  dsimp only
  split
  · rename_i hactive
    split
    · have hconfig := h.config (h.active hactive)
      have hcount := (Ticked.refl s).countPretrig
      have hrec : s.countPretrig.recorder = s.recorder := by
        unfold countPretrig
        dsimp only
        split
        · split <;> rfl
        · rfl
      have hbuff : s.countPretrig.recBuff = s.recBuff := by
        rw [hcount.same]
      have hsample := hcount.takeSample (by rwa [hrec]) (by rw [hrec]) hbuff
      split
      · exact hsample.recorderCase _ _ _
      · exact hsample
    · exact (Ticked.refl s).update _ _ _ _ id rfl rfl
  · rename_i hidle
    exact (Ticked.refl s).update _ _ _ _ id rfl rfl

/-- The recorder routine keeps the invariant. -/
theorem RecInv.tick {s : Board} (h : s.RecInv) (actual : Mem) :
    (s.recorderRoutine actual).RecInv := by
  have ht := recorder_ticked h actual
  exact h.runs ht.runs (fun he => h.active (ht.active he)) fun _ => ht.recPos

end Board

end SC04Monitor.PcMaster
