import SC04Monitor.PcMaster.Requests

/-! # Commands

What a command can change, once for all commands; and what pairs of commands do: memory that is
written is read back, a scope that is set up shows its variables. -/

namespace SC04Monitor.PcMaster
open SC04Monitor.Lib.ByteMem SC04Monitor.Lib.WordMem SC04Monitor.Lib.ByteStuffing
open Pcm (checkByte)

/-- A scope that is set up. -/
structure Scope.Valid (scope : Scope) : Prop where
  varCnt_le : scope.varCnt ≤ 8
  varSize : ∀ i < scope.varCnt.toNat, (scope.varDef i).varSize ∈ ([1, 2, 4] : List UInt8)

theorem Scope.valid_zero (varDef : Nat → VarDef) : (⟨0, varDef⟩ : Scope).Valid :=
  ⟨UInt8.le_iff_toNat_le.mpr (Nat.zero_le _), fun i hi => absurd hi (Nat.not_lt_zero i)⟩

theorem Status.setType_setType (status : Status) (trgVarSize trgVarSigned : UInt8) :
    (status.setType trgVarSize trgVarSigned).setType trgVarSize trgVarSigned =
      status.setType trgVarSize trgVarSigned := by
  unfold setType
  simp only [Bool.or_assoc, Bool.or_self]

namespace Board

/-! ## The scope loop -/

/-- The values of `n` variables, one behind the other. -/
def values (varDef : Nat → VarDef) (mem : Mem) (i n : Nat) : List UInt8 :=
  (List.range' i n).flatMap fun i => readBytes mem (varDef i).varAddr (varDef i).varSize.toNat

theorem values_succ (varDef : Nat → VarDef) (mem : Mem) (i n : Nat) :
    values varDef mem i (n + 1) =
      readBytes mem (varDef i).varAddr (varDef i).varSize.toNat ++ values varDef mem (i + 1) n := by
  unfold values
  rw [List.range'_succ, List.flatMap_cons]

/-- Values of at most four bytes each. -/
theorem length_values {varDef : Nat → VarDef} {i n : Nat}
    (h : ∀ j, i ≤ j → j < i + n → (varDef j).varSize ∈ ([1, 2, 4] : List UInt8)) (mem : Mem) :
    (values varDef mem i n).length ≤ 4 * n := by
  induction n generalizing i with
  | zero => exact Nat.le_refl 0
  | succ n ih =>
    have hsize : (varDef i).varSize.toNat ≤ 4 := by
      have hmem := h i (Nat.le_refl i) (by omega)
      simp only [List.mem_cons, List.not_mem_nil, or_false] at hmem
      rcases hmem with he | he | he <;> rw [he] <;> decide
    rw [values_succ, List.length_append, length_readBytes]
    have hrest := ih (i := i + 1) fun j hlow hhigh => h j (by omega) (by omega)
    omega

/-- The scope loop puts the values into the buffer. -/
theorem readScopeLoop_eq {scope : Scope} {n i : Nat}
    (h : ∀ j, i ≤ j → j < i + n → (scope.varDef j).varSize ∈ ([1, 2, 4] : List UInt8)) (mem : Mem)
    {index : UInt8} (hindex : index.toNat + 4 * n < 256) (dataBuff : Mem) :
    readScopeLoop scope mem n i index dataBuff =
      (writeBytes dataBuff (1 + index.toNat) (values scope.varDef mem i n),
        index + UInt8.ofNat (values scope.varDef mem i n).length) := by
  induction n generalizing i index dataBuff with
  | zero =>
    have hmem : writeBytes dataBuff (1 + index.toNat) [] = dataBuff := writeBytes_of_readBytes rfl
    show (dataBuff, index) = (writeBytes dataBuff (1 + index.toNat) [], index + 0)
    rw [hmem, UInt8.add_zero]
  | succ n ih =>
    have hmem := h i (Nat.le_refl i) (by omega)
    have hsize : int8Size (scope.varDef i).varSize = (scope.varDef i).varSize.toNat ∧
        (scope.varDef i).varSize.toNat ≤ 4 := by
      simp only [List.mem_cons, List.not_mem_nil, or_false] at hmem
      rcases hmem with he | he | he <;> rw [he] <;> decide
    have hnext : (index + (scope.varDef i).varSize).toNat =
        index.toNat + (scope.varDef i).varSize.toNat := by
      rw [UInt8.toNat_add]
      exact Nat.mod_eq_of_lt (by show _ < 256; omega)
    rw [readScopeLoop, ih (fun j hlow hhigh => h j (by omega) (by omega)) (by omega), values_succ,
      hsize.1, hnext]
    refine Prod.ext ?_ ?_
    · show writeBytes (writeBytes dataBuff (1 + index.toNat) _) _ _ = _
      rw [writeBytes_append, length_readBytes, Nat.add_assoc]
    · show index + (scope.varDef i).varSize + _ = _
      rw [List.length_append, length_readBytes, UInt8.ofNat_add, UInt8.ofNat_toNat, UInt8.add_assoc]

/-! ## The set-up of the recorder -/

/-- The definitions of the variables in a set-up. -/
def setupVarDef (b : Mem) (i : Nat) : VarDef := varDefAt b (20 + 5 * i)

/-- A set-up that is not refused. -/
structure Accepts (b : Mem) : Prop where
  trgMode : b 2 ≤ 2
  trgVarSize : b 13 = 1 ∨ b 13 = 2 ∨ b 13 = 4
  varCnt_ne : b 19 ≠ 0
  varCnt_le : b 19 ≤ 8
  varSize : ∀ i < (b 19).toNat, badSize (setupVarDef b i) = false
  room : readWord b 3 * setLen (setupVarDef b) (b 19).toNat ≤ recSize

/-- The recorder behind a set-up. -/
def setupRecorder (s : Board) : Recorder :=
  let b := s.dataBuff
  { s.recorder with
    cmd := b 0, trgMode := b 2
    totalSmps := readWord b 3 * setLen (setupVarDef b) (b 19).toNat
    postTrigger := readWord b 5, timeDiv := readWord b 7, trgVarAddr := addrAt b 9
    trgVarSize := b 13
    trgThreshold := writeBytes s.recorder.trgThreshold 0 (readBytes b 15 4)
    varCnt := b 19
    varDef := fun i => if i < (b 19).toNat then setupVarDef b i else s.recorder.varDef i
    recPos := 0, recSetLen := setLen (setupVarDef b) (b 19).toNat, recToEnd := 1
    recTime := readWord b 7
    recLastVal := writeBytes s.recorder.recLastVal 0
      (readBytes s.mem (addrAt b 9) (int8Size (b 13))) }

/-- The status behind a set-up. -/
def setupStatus (s : Board) : Status :=
  { ({ s.status with recRunning := false, recActivated := false } : Status).setType
      (s.dataBuff 13) (s.dataBuff 14) with recActivated := true }

/-- A set-up that is refused stops the recorder. It forgets the set-up before, unless it was refused
for the mode. -/
structure Refused (s t : Board) : Prop where
  same : t = { s with status := t.status, recorder := t.recorder, response := t.response }
  recActivated : t.status.recActivated = false
  recReadPretrig : t.status.recReadPretrig = s.status.recReadPretrig
  stdCmd : t.status.stdCmd = s.status.stdCmd ∨
    ∃ size, (size = 1 ∨ size = 2 ∨ size = 4) ∧
      t.status.stdCmd = (s.status.setType size (s.dataBuff 14)).stdCmd
  response : t.response.1 ≠ START ∧ t.response.2 = 1
  recorder : t.recorder.varCnt = 0 ∨
    t.recorder = { s.recorder with cmd := s.dataBuff 0, trgMode := s.dataBuff 2 }

theorem setLen_congr {v v' : Nat → VarDef} {n : Nat} (h : ∀ i < n, v i = v' i) :
    setLen v n = setLen v' n := by
  induction n with
  | zero => rfl
  | succ n ih =>
    rw [setLen, setLen, ih fun i hi => h i (by omega), h n (by omega)]

/-- The set-up, told by its outcome. -/
theorem setupRecEx_cases (s : Board) :
    (Accepts s.dataBuff ∧ s.setupRecEx =
        { s with status := s.setupStatus, recorder := s.setupRecorder }.respPrepare stcOk 1) ∨
      (¬ Accepts s.dataBuff ∧ s.Refused s.setupRecEx) := by
  have hbuff : stcInvBuff ≠ START := by decide
  have hinv : stcInvSize ≠ START := by decide
  unfold setupRecEx
  rw [if_neg (by decide)]
  dsimp only
  by_cases hmode : 2 < s.dataBuff 2
  · rw [if_pos hmode]
    exact .inr ⟨fun h => absurd h.trgMode (UInt8.not_le.mpr hmode), rfl, rfl, rfl, .inl rfl, ⟨hbuff, rfl⟩,
      .inr rfl⟩
  rw [if_neg hmode]
  by_cases hsize : s.dataBuff 13 = 1 ∨ s.dataBuff 13 = 2 ∨ s.dataBuff 13 = 4
  swap
  · rw [if_pos hsize]
    exact .inr ⟨fun h => hsize h.trgVarSize, rfl, rfl, rfl, .inl rfl, ⟨hinv, rfl⟩, .inl rfl⟩
  rw [if_neg (not_not_intro hsize)]
  by_cases hcnt : s.dataBuff 19 = 0 ∨ 8 < s.dataBuff 19
  · rw [if_pos hcnt]
    refine .inr ⟨fun h => ?_, rfl, rfl, rfl, .inl rfl, ⟨hbuff, rfl⟩, .inl rfl⟩
    rcases hcnt with hzero | hmany
    · exact h.varCnt_ne hzero
    · exact absurd h.varCnt_le (UInt8.not_le.mpr hmany)
  rw [if_neg hcnt]
  cases hfind : (List.range (s.dataBuff 19).toNat).find?
      fun i => badSize (varDefAt s.dataBuff (20 + 5 * i)) with
  | some k =>
    have hbad := List.find?_some hfind
    have hk := List.mem_range.mp (List.mem_of_find?_eq_some hfind)
    refine .inr ⟨fun h => ?_, rfl, rfl, rfl, .inr ⟨_, hsize, rfl⟩, ⟨hinv, rfl⟩, .inl rfl⟩
    exact Bool.false_ne_true ((h.varSize k hk).symm.trans hbad)
  | none =>
    have hgood : ∀ i < (s.dataBuff 19).toNat, badSize (setupVarDef s.dataBuff i) = false := by
      intro i hi
      exact Bool.eq_false_iff.mpr (List.find?_eq_none.mp hfind i (List.mem_range.mpr hi))
    have hlen : setLen (fun i =>
        if i < (s.dataBuff 19).toNat then varDefAt s.dataBuff (20 + 5 * i) else s.recorder.varDef i)
          (s.dataBuff 19).toNat = setLen (setupVarDef s.dataBuff) (s.dataBuff 19).toNat :=
      setLen_congr fun i hi => if_pos hi
    dsimp only
    rw [hlen, Status.setType_setType]
    by_cases hroom : readWord s.dataBuff 3 *
        setLen (setupVarDef s.dataBuff) (s.dataBuff 19).toNat ≤ recSize
    · rw [if_pos hroom]
      refine .inl ⟨⟨UInt8.not_lt.mp hmode, hsize, fun h => hcnt (.inl h),
        UInt8.not_lt.mp fun h => hcnt (.inr h), hgood, hroom⟩, rfl⟩
    · rw [if_neg hroom]
      exact .inr ⟨fun h => hroom h.room, rfl, rfl, rfl, .inr ⟨_, hsize, rfl⟩, ⟨hinv, rfl⟩, .inl rfl⟩

/-! ## What a command changes -/

theorem int8Size_le (size : UInt8) : int8Size size ≤ size.toNat := by
  unfold int8Size
  split
  · exact Nat.le_refl _
  · exact Nat.zero_le _

/-- The sizes that the scope does not refuse. -/
theorem size_of_good {size : UInt8} (h : ¬ (size = 0 ∨ size = 3 ∨ 4 < size)) :
    size ∈ ([1, 2, 4] : List UInt8) := by
  have hle : size.toNat ≤ 4 := UInt8.le_iff_toNat_le.mp (UInt8.not_lt.mp fun hlt => h (.inr (.inr hlt)))
  have hzero : size.toNat ≠ 0 := fun he => h (.inl (UInt8.toNat_inj.mp he))
  have hthree : size.toNat ≠ 3 := fun he => h (.inr (.inl (UInt8.toNat_inj.mp he)))
  simp only [List.mem_cons, List.not_mem_nil, or_false, ← UInt8.toNat_inj]
  show size.toNat = 1 ∨ size.toNat = 2 ∨ size.toNat = 4
  omega

/-- The response fits into `OutBuffer`. -/
def Fits (s : Board) : Prop := (Pcm.answerFrame s.answer).length ≤ outBufSize

/-- Not more than 30 bytes are asked for, which fit even if every one of them is sent twice. -/
structure Short (s : Board) : Prop where
  readMem : s.dataBuff 0 = 0x04 → s.dataBuff 2 ≤ 30 ∨ dataBuffSize < s.dataBuff 2
  readScope : s.dataBuff 0 = 0xC5 →
    (values s.scope.varDef s.mem 0 s.scope.varCnt.toNat).length ≤ 30

theorem length_answerFrame (answer : List UInt8) :
    (Pcm.answerFrame answer).length ≤ 3 + answer.length + answer.count START := by
  have hlast : [checkByte answer].count START ≤ 1 := List.count_le_length
  unfold Pcm.answerFrame
  rw [List.length_cons, length_stuff, List.length_append, List.count_append, List.length_singleton]
  omega

theorem answer_cons {s : Board} (h : s.response.2 ≠ 0) :
    s.answer = s.response.1 :: readBytes s.dataBuff 1 (s.response.2.toNat - 1) := by
  have hne : s.response.2.toNat ≠ 0 := fun he => h (UInt8.toNat_inj.mp he)
  obtain ⟨n, hn⟩ := Nat.exists_eq_succ_of_ne_zero hne
  have hframe : readBytes (writeBytes s.dataBuff 0 [s.response.1]) 1 n =
      readBytes s.dataBuff 1 n := readBytes_writeBytes_frame (.inr (.inr (.inl (Nat.le_refl 1))))
  unfold answer
  rw [hn, readBytes_succ, Nat.zero_add, hframe]
  rfl

theorem answer_status (s : Board) (sts : UInt8) : (s.respPrepare sts 1).answer = [sts] :=
  answer_cons (s := s.respPrepare sts 1) (show (1 : UInt8) ≠ 0 by decide)

/-- Data that is returned is in the answer, behind the status. -/
theorem answer_return (s : Board) {data : List UInt8} (sts : UInt8) {len : UInt8}
    (h : len.toNat = data.length + 1) :
    ((s.returnData data).respPrepare sts len).answer = sts :: data := by
  have hne : len ≠ 0 := by
    rintro rfl
    exact Nat.succ_ne_zero _ h.symm
  have hread := readBytes_writeBytes s.dataBuff 1 data
  rw [answer_cons hne]
  show sts :: readBytes (writeBytes s.dataBuff 1 data) 1 (len.toNat - 1) = _
  rw [h, Nat.add_sub_cancel, hread]

/-- A short response fits. -/
theorem fits_of_le {s : Board} (hsts : s.response.1 ≠ START) (hne : s.response.2 ≠ 0)
    (hle : s.response.2 ≤ 31) : Fits s := by
  have hnat : s.response.2.toNat ≤ 31 := UInt8.le_iff_toNat_le.mp hle
  have hpos : s.response.2.toNat ≠ 0 := fun he => hne (UInt8.toNat_inj.mp he)
  have hcount : (readBytes s.dataBuff 1 (s.response.2.toNat - 1)).count START ≤
      (readBytes s.dataBuff 1 (s.response.2.toNat - 1)).length := List.count_le_length
  have hframe := length_answerFrame s.answer
  rw [answer_cons hne, List.length_cons, List.count_cons_of_ne hsts] at hframe
  rw [length_readBytes] at hcount hframe
  unfold Fits outBufSize
  rw [answer_cons hne]
  omega

/-- What commands change, each with the conditions under which it does. Those that only read change
the buffer, and of that nothing behind its end. -/
inductive Effect (s : Board) : Board → Prop where
  | reply (dataBuff : Mem) (response : UInt8 × UInt8)
      (hbuff : s.scope.Valid → ∀ i, dataBuffLen ≤ i → dataBuff i = s.dataBuff i)
      (hfits : s.scope.Valid → s.Short → Fits { s with dataBuff, response }) :
      Effect s { s with dataBuff, response }
  | writeMem (hcmd : s.dataBuff 0 = 0x05) : Effect s s.writeMemEx
  | writeMask (hcmd : s.dataBuff 0 = 0x06) : Effect s s.writeMemMaskEx
  | callApp (data : List UInt8) (hdata : data.length ≤ appCmdSize.toNat) :
      Effect s ({ s with
        appCmdBuff := writeBytes s.appCmdBuff 0 data, appCmdSts := appCmdRunning }.respPrepare stcOk 1)
  | setupScope (scope : Scope) (hcmd : s.dataBuff 0 = 0x0A) (hvalid : scope.Valid) (sts : UInt8)
      (hsts : sts ≠ START) : Effect s ({ s with scope }.respPrepare sts 1)
  | startRec (recLastVal : Mem) (hcnt : s.recorder.varCnt ≠ 0) (hrun : s.status.recRunning = false) :
      Effect s ({ s with
        recorder := { s.recorder with recTime := s.recorder.timeDiv, recLastVal }
        status := { s.status with recActivated := true } }.respPrepare stcOk 1)
  | stopRec (hcnt : s.recorder.varCnt ≠ 0) (hactive : s.status.recActivated = true)
      (hrun : s.status.recRunning = false) :
      Effect s ({ s with
        recorder := { s.recorder with recToEnd := s.recorder.postTrigger }
        status := { s.status with recRunning := true } }.respPrepare stcOk 1)
  | setupRec (hcmd : s.dataBuff 0 = 0x0B) (haccepts : Accepts s.dataBuff) :
      Effect s ({ s with status := s.setupStatus, recorder := s.setupRecorder }.respPrepare stcOk 1)
  | refuseRec {t : Board} (hcmd : s.dataBuff 0 = 0x0B) (hrefused : s.Refused t) : Effect s t

/-- A status is returned, and nothing else changes. -/
theorem effect_status (s : Board) {sts : UInt8} (hsts : sts ≠ START) :
    Effect s (s.respPrepare sts 1) :=
  .reply s.dataBuff (sts, 1) (fun _ _ _ => rfl) fun _ _ =>
    fits_of_le hsts (show (1 : UInt8) ≠ 0 by decide) (show (1 : UInt8) ≤ 31 by decide)

/-- Data is returned that fits. -/
theorem effect_return (s : Board) {data : List UInt8} (h : data.length < dataBuffLen) {len : UInt8}
    (hne : len ≠ 0) (hle : s.scope.Valid → s.Short → len ≤ 31) :
    Effect s ((s.returnData data).respPrepare stcOk len) :=
  .reply _ (stcOk, len) (fun _ i hi => writeBytes_outside (.inr (by omega))) fun hscope hshort =>
    fits_of_le (show stcOk ≠ START by decide) hne (hle hscope hshort)

theorem effect_readScope {s : Board} (hcmd : s.dataBuff 0 = 0xC5) : Effect s s.readScope := by
  unfold readScope
  by_cases hcnt : s.scope.varCnt = 0
  · rw [if_pos hcnt]
    exact effect_status s (by decide)
  rw [if_neg hcnt]
  have hloop : s.scope.Valid →
      (values s.scope.varDef s.mem 0 s.scope.varCnt.toNat).length ≤ 32 ∧
      readScopeLoop s.scope s.mem s.scope.varCnt.toNat 0 0 s.dataBuff =
        (writeBytes s.dataBuff 1 (values s.scope.varDef s.mem 0 s.scope.varCnt.toNat),
          0 + UInt8.ofNat (values s.scope.varDef s.mem 0 s.scope.varCnt.toNat).length) := by
    intro hscope
    have hcount := UInt8.le_iff_toNat_le.mp hscope.varCnt_le
    change s.scope.varCnt.toNat ≤ 8 at hcount
    have hsizes : ∀ j, 0 ≤ j → j < 0 + s.scope.varCnt.toNat →
        (s.scope.varDef j).varSize ∈ ([1, 2, 4] : List UInt8) := fun j _ hj =>
      hscope.varSize j (by omega)
    have hlen := length_values hsizes s.mem
    exact ⟨by omega, readScopeLoop_eq hsizes s.mem (by show 0 + _ < 256; omega) s.dataBuff⟩
  refine .reply _ _ (fun hscope i hi => ?_) fun hscope hshort => ?_
  · obtain ⟨hlen, hloop⟩ := hloop hscope
    rw [hloop]
    unfold dataBuffLen at hi
    exact writeBytes_outside (.inr (by omega))
  · obtain ⟨-, hloop⟩ := hloop hscope
    have hlen := hshort.readScope hcmd
    have hnat : (0 + UInt8.ofNat (values s.scope.varDef s.mem 0 s.scope.varCnt.toNat).length +
        1).toNat = (values s.scope.varDef s.mem 0 s.scope.varCnt.toNat).length + 1 := by
      rw [UInt8.zero_add, UInt8.toNat_add, UInt8.toNat_ofNat']
      show (_ % 256 + 1) % 256 = _
      omega
    refine fits_of_le (show stcOk ≠ START by decide) (fun he => ?_) ?_
    · change (readScopeLoop s.scope s.mem s.scope.varCnt.toNat 0 0 s.dataBuff).2 + 1 = 0 at he
      rw [hloop] at he
      exact Nat.succ_ne_zero _ (hnat.symm.trans (congrArg UInt8.toNat he))
    · show (readScopeLoop s.scope s.mem s.scope.varCnt.toNat 0 0 s.dataBuff).2 + 1 ≤ 31
      rw [hloop, UInt8.le_iff_toNat_le, hnat]
      exact Nat.succ_le_succ hlen

theorem effect_readMemEx {s : Board} (hcmd : s.dataBuff 0 = 0x04) : Effect s s.readMemEx := by
  unfold readMemEx
  dsimp only
  by_cases hle : s.dataBuff 2 ≤ dataBuffSize
  · have hnat := UInt8.le_iff_toNat_le.mp hle
    change (s.dataBuff 2).toNat ≤ 128 at hnat
    have hlen : (s.dataBuff 2 + 1).toNat = (s.dataBuff 2).toNat + 1 := by
      rw [UInt8.toNat_add]
      exact Nat.mod_eq_of_lt (by show _ + 1 < 256; omega)
    rw [if_pos hle]
    refine effect_return s ?_ (fun he => ?_) fun _ hshort => ?_
    · rw [length_readBytes]
      have hsize := int8Size_le (s.dataBuff 2)
      unfold dataBuffLen
      omega
    · exact Nat.succ_ne_zero _ (hlen.symm.trans (congrArg UInt8.toNat he))
    · rcases hshort.readMem hcmd with hle' | hgt
      · rw [UInt8.le_iff_toNat_le, hlen]
        exact Nat.succ_le_succ (UInt8.le_iff_toNat_le.mp hle')
      · exact absurd hle (UInt8.not_le.mpr hgt)
  · rw [if_neg hle]
    exact effect_status s (by decide)

theorem effect_getRecBuffEx {s t : Board} (h : s.getRecBuffEx = some t) : Effect s t := by
  unfold getRecBuffEx at h
  rw [if_neg (by decide)] at h
  split at h
  · split at h
    · split at h
      · cases h
      · cases h
        refine effect_return s ?_ (by decide) fun _ _ => by decide
        show 6 < 130
        decide
    · cases h
      exact effect_status s (by decide)
  · cases h
    exact effect_status s (by decide)

theorem effect_getRecSts (s : Board) : Effect s s.getRecSts := by
  unfold getRecSts
  rw [if_neg (by decide)]
  split
  · split
    · exact effect_status s (by decide)
    · exact effect_status s (by decide)
  · exact effect_status s (by decide)

/-- The information about the board: there is no flag in it. -/
def info : List UInt8 :=
  [0x03, 0x0C, 0x01, globVerMajor, globVerMinor, dataBuffSize - 1, recSize.toUInt8,
    (recSize >>> 8).toUInt8, timeBase.toUInt8, (timeBase >>> 8).toUInt8] ++ idtString

theorem answer_getInfo (s : Board) : s.getInfo.answer = stcOk :: info :=
  answer_return s stcOk (show 36 = info.length + 1 by decide)

theorem effect_getInfo (s : Board) : Effect s s.getInfo := by
  refine .reply _ _ (fun _ i hi => writeBytes_outside (.inr ?_)) fun _ _ => ?_
  · exact Nat.le_trans (show 1 + info.length ≤ 130 by decide) hi
  · have hframe := length_answerFrame (stcOk :: info)
    show (Pcm.answerFrame s.getInfo.answer).length ≤ outBufSize
    rw [answer_getInfo]
    exact Nat.le_trans hframe (by decide)

theorem effect_readVarEx (s : Board) {len : UInt8} (h : len ∈ ([1, 2, 4] : List UInt8)) :
    Effect s (readVarEx len s) := by
  have hlen : len.toNat < dataBuffLen ∧ len + 1 ≠ 0 ∧ len + 1 ≤ 31 := by
    simp only [List.mem_cons, List.not_mem_nil, or_false] at h
    rcases h with he | he | he <;> rw [he] <;> decide
  exact effect_return s (by rw [length_readBytes]; exact hlen.1) hlen.2.1 fun _ _ => hlen.2.2

theorem effect_callAppCmd (s : Board) : Effect s s.callAppCmd := by
  unfold callAppCmd
  rw [if_neg (by decide)]
  dsimp only
  by_cases hlen : appCmdSize < s.dataBuff 1
  · rw [if_pos hlen]
    exact effect_status s (by decide)
  rw [if_neg hlen]
  by_cases hrun : s.appCmdSts = appCmdRunning
  · rw [if_pos hrun]
    exact effect_status s (by decide)
  · rw [if_neg hrun]
    refine .callApp _ ?_
    rw [length_readBytes]
    exact Nat.le_trans (int8Size_le _) (UInt8.le_iff_toNat_le.mp (UInt8.not_lt.mp hlen))

theorem effect_setupScopeEx {s : Board} (hcmd : s.dataBuff 0 = 0x0A) : Effect s s.setupScopeEx := by
  unfold setupScopeEx
  dsimp only
  by_cases hcnt : s.dataBuff 2 = 0 ∨ 8 < s.dataBuff 2
  · rw [if_pos hcnt]
    exact effect_status s (by decide)
  rw [if_neg hcnt]
  split
  · exact .setupScope _ hcmd (Scope.valid_zero _) _ (by decide)
  · rename_i hsizes
    refine .setupScope _ hcmd ⟨UInt8.not_lt.mp fun hlt => hcnt (.inr hlt), fun i hi => ?_⟩ _ (by decide)
    exact size_of_good fun hbad => hsizes ⟨i, hi, hbad⟩

theorem effect_startRec (s : Board) : Effect s s.startRec := by
  unfold startRec
  rw [if_neg (by decide)]
  by_cases hcnt : s.recorder.varCnt ≠ 0
  · rw [if_pos hcnt]
    by_cases hrun : s.status.recRunning = false
    · rw [if_pos hrun]
      exact .startRec _ hcnt hrun
    · rw [if_neg hrun]
      exact effect_status s (by decide)
  · rw [if_neg hcnt]
    exact effect_status s (by decide)

theorem effect_stopRec (s : Board) : Effect s s.stopRec := by
  unfold stopRec
  rw [if_neg (by decide)]
  by_cases hcnt : s.recorder.varCnt ≠ 0
  · rw [if_pos hcnt]
    by_cases hactive : s.status.recActivated = true
    · rw [if_pos hactive]
      by_cases hrun : s.status.recRunning = true
      · rw [if_pos hrun]
        exact effect_status s (by decide)
      · rw [if_neg hrun]
        exact .stopRec hcnt hactive (Bool.eq_false_iff.mpr hrun)
    · rw [if_neg hactive]
      exact effect_status s (by decide)
  · rw [if_neg hcnt]
    exact effect_status s (by decide)

theorem effect_setupRecEx {s : Board} (hcmd : s.dataBuff 0 = 0x0B) : Effect s s.setupRecEx := by
  rcases setupRecEx_cases s with ⟨haccepts, he⟩ | ⟨-, hrefused⟩
  · rw [he]
    exact .setupRec hcmd haccepts
  · exact .refuseRec hcmd hrefused

/-! ## Decoding -/

/-- A command reads its data within the buffer, and what it does to memory is described. -/
structure Covered (s : Board) : Prop where
  bufferUsed : s.bufferUsed ≤ dataBuffLen
  accesses : ∀ r ∈ s.accesses, s.Described r.1 r.2

theorem messageDecode_eq_some {s t : Board} :
    s.messageDecode = some t ↔ s.Covered ∧ s.decode = some t := by
  unfold messageDecode accessing
  constructor
  · intro h
    by_cases hused : s.bufferUsed ≤ dataBuffLen
    · rw [if_pos hused] at h
      by_cases hacc : ∀ r ∈ s.accesses, s.Described r.1 r.2
      · rw [if_pos hacc] at h
        exact ⟨⟨hused, hacc⟩, h⟩
      · rw [if_neg hacc] at h
        cases h
    · rw [if_neg hused] at h
      cases h
  · rintro ⟨⟨hused, hacc⟩, h⟩
    rw [if_pos hused, if_pos hacc, h]

/-- What `messageDecode` can do. -/
theorem messageDecode_effect {s t : Board} (h : s.messageDecode = some t) : Effect s t := by
  replace h := (messageDecode_eq_some.mp h).2
  unfold decode at h
  cases hfind : commands.find? fun c => c.1 = s.dataBuff 0 with
  | none =>
    rw [hfind] at h
    cases h
    exact effect_status s (by decide)
  | some c =>
    rw [hfind] at h
    have hcmd : c.1 = s.dataBuff 0 := by simpa using List.find?_some hfind
    have hmem := List.mem_of_find?_eq_some hfind
    simp only [commands, List.mem_cons, List.not_mem_nil, or_false] at hmem
    rcases hmem with rfl | rfl | rfl | rfl | rfl | rfl | rfl | rfl | rfl | rfl | rfl | rfl | rfl | rfl |
      rfl | rfl
    all_goals first | cases h | skip
    · exact effect_readVarEx s (by decide)
    · exact effect_readVarEx s (by decide)
    · exact effect_readVarEx s (by decide)
    · exact effect_readScope hcmd.symm
    · have hone : [s.appCmdSts].length < dataBuffLen := by
        show 1 < 130
        decide
      exact effect_return s hone (by decide) fun _ _ => by decide
    · exact effect_getInfo s
    · exact effect_startRec s
    · exact effect_stopRec s
    · exact effect_getRecBuffEx h
    · exact effect_getRecSts s
    · exact effect_setupScopeEx hcmd.symm
    · exact effect_setupRecEx hcmd.symm
    · exact effect_readMemEx hcmd.symm
    · exact .writeMem hcmd.symm
    · exact .writeMask hcmd.symm
    · exact effect_callAppCmd s

end Board

end SC04Monitor.PcMaster
