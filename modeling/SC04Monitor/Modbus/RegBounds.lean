import SC04Monitor.Modbus.RegMap

/-! # The bounds of the register image

`eMBRegHoldingCB` checks an access against `S_REG_HOLDING_NREGS`, a number of its
own, and not against the size of `MB_RegData`, the structure that it indexes. What
a call reads and what it writes is taken from its effect: a word is written if some
call changes it, and read if the outcome of some call depends on it. -/

namespace SC04Monitor.Modbus
open SC04Monitor.Lib.ByteMem SC04Monitor.Lib.WordMem SC04Monitor.UserApp

/-- The size of a structure, given by the sizes of its members. -/
def sizeIn {μ : Type} : List (μ × Nat) → Nat
  | [] => 0
  | (_, n) :: rest => n + sizeIn rest

/-- `sizeof(MB_RegData) / 2`, which is 902. -/
def regDataSize : Nat := sizeIn mbRegData

/-- Two images that agree but for word `i`. -/
def AgreeOff (m m' : Mem) (i : Nat) : Prop := ∀ q, q ≠ 2 * i → q ≠ 2 * i + 1 → m q = m' q

/-- What a call leaves behind besides the image. -/
def outcome (r : MbErrorCode × List UInt8 × MbApp) :
    MbErrorCode × List UInt8 × HmiType × UInt16 :=
  (r.1, r.2.1, r.2.2.hmi, r.2.2.hmiRegAddress)

section
variable (usAddress usNRegs : UInt16) (eMode : MbRegisterMode)

/-- Some call changes word `i`. -/
def Writes (i : Nat) : Prop :=
  ∃ (s : MbApp) (buf : Nat → UInt8),
    readWord (eMBRegHoldingCB s buf usAddress usNRegs eMode).2.2.reg (2 * i) ≠
      readWord s.reg (2 * i)

/-- What some call does, to the other words or besides, depends on word `i`. -/
def Reads (i : Nat) : Prop :=
  ∃ (s : MbApp) (reg' : Mem) (buf : Nat → UInt8), AgreeOff s.reg reg' i ∧
    (outcome (eMBRegHoldingCB s buf usAddress usNRegs eMode) ≠
        outcome (eMBRegHoldingCB { s with reg := reg' } buf usAddress usNRegs eMode) ∨
      ¬ AgreeOff (eMBRegHoldingCB s buf usAddress usNRegs eMode).2.2.reg
        (eMBRegHoldingCB { s with reg := reg' } buf usAddress usNRegs eMode).2.2.reg i)

/-- Every word that is read or written lies in the structure. -/
def Inside : Prop :=
  ∀ i, Writes usAddress usNRegs eMode i ∨ Reads usAddress usNRegs eMode i → i < regDataSize

/-- `eMBRegHoldingCB` returns `MB_ENOERR`. -/
def Accepts : Prop :=
  ∀ (s : MbApp) (buf : Nat → UInt8), (eMBRegHoldingCB s buf usAddress usNRegs eMode).1 = .noErr

end

theorem accepts_iff (usAddress usNRegs : UInt16) (eMode : MbRegisterMode) :
    Accepts usAddress usNRegs eMode ↔ inRange usAddress usNRegs = true := by
  unfold Accepts eMBRegHoldingCB
  cases inRange usAddress usNRegs with
  | true => cases eMode <;> simp
  | false =>
    refine ⟨fun h => ?_, fun h => absurd h (by decide)⟩
    exact absurd (h .zero fun _ => 0) (by simp)

/-! ## Off the range of an access -/

theorem agreeOff_readWord {m m' : Mem} {i j : Nat} (h : AgreeOff m m' i) (hj : j ≠ i) :
    readWord m (2 * j) = readWord m' (2 * j) := by
  unfold readWord
  rw [h (2 * j) (by omega) (by omega), h (2 * j + 1) (by omega) (by omega)]

theorem agreeOff_writeBytes {m m' : Mem} {i : Nat} (h : AgreeOff m m' i) (a : Nat)
    (bs : List UInt8) : AgreeOff (writeBytes m a bs) (writeBytes m' a bs) i := by
  intro q h₁ h₂
  unfold writeBytes
  rw [h q h₁ h₂]

theorem agreeOff_writeWords {m m' : Mem} {i : Nat} (h : AgreeOff m m' i) (a : Nat)
    (ws : List UInt16) : AgreeOff (writeWords m a ws) (writeWords m' a ws) i := by
  induction ws generalizing m m' a with
  | nil => exact h
  | cons w ws ih => exact ih (agreeOff_writeBytes h a (wordBytes w)) (a + 2)

theorem agreeOff_readLoop {m m' : Mem} {i : Nat} (h : AgreeOff m m' i) {n iRegIndex : Nat}
    (hi : i < iRegIndex ∨ iRegIndex + n ≤ i) : readLoop m n iRegIndex = readLoop m' n iRegIndex := by
  induction n generalizing iRegIndex with
  | zero => rfl
  | succ n ih =>
    have hhead := agreeOff_readWord h (show iRegIndex ≠ i by omega)
    unfold readLoop
    simp only [hhead]
    rw [ih (by omega)]

/-- The members of the commands lie in the structure. -/
theorem field_inside : ∀ a : HmiAddr, fieldOffset a + fieldSize a ≤ regDataSize
  | .chargeEn | .chargeCmd | .devTest | .sleep | .restart | .restore | .wMbPara | .wMbRtc => by
    decide
  | .wCbPara 0 | .wCbPara 1 | .wCbPara 2 | .wCbPara 3 | .wCbPara 4 => by decide

/-- A command reads its own member only. -/
theorem agreeOff_copy {m m' : Mem} {i : Nat} (h : AgreeOff m m' i) (hmi : HmiType) (a : HmiAddr)
    (hi : i < fieldOffset a ∨ fieldOffset a + fieldSize a ≤ i) : hmi.copy m a = hmi.copy m' a := by
  refine copy_congr ?_
  unfold readWords
  refine List.map_congr_left fun j hj => ?_
  have hlt := List.mem_range.mp hj
  rw [← Nat.mul_add]
  exact agreeOff_readWord h (by omega)

theorem regAddressGet_reg (s : MbApp) (address : UInt16) : (regAddressGet s address).reg = s.reg := by
  unfold regAddressGet
  dsimp only
  split <;> rfl

theorem regAddressGet_hmiRegAddress (s : MbApp) (address : UInt16) :
    (regAddressGet s address).hmiRegAddress = address - 1 := by
  unfold regAddressGet
  dsimp only
  split <;> rfl

/-- Outside the structure the decoder reads nothing. -/
theorem agreeOff_regAddressGet {s t : MbApp} {i : Nat} (h : AgreeOff s.reg t.reg i)
    (hhmi : s.hmi = t.hmi) (hi : regDataSize ≤ i) (address : UInt16) :
    (regAddressGet s address).hmi = (regAddressGet t address).hmi := by
  unfold regAddressGet
  dsimp only
  cases HmiAddr.all.find? fun a => hmiAddr a = address - 1 with
  | none => exact hhmi
  | some a =>
    have hin := field_inside a
    show (s.hmi.raise a).copy s.reg a = (t.hmi.raise a).copy t.reg a
    rw [hhmi]
    exact agreeOff_copy h _ a (by omega)

/-! ## The words of an access -/

/-- The words that the loops of an accepted access run over. -/
def Touches (usAddress usNRegs : UInt16) (i : Nat) : Prop :=
  usAddress.toNat - sRegHoldingStart.toNat ≤ i ∧
    i < usAddress.toNat - sRegHoldingStart.toNat + usNRegs.toNat

section
variable {usAddress usNRegs : UInt16}

theorem read_eq (hr : inRange usAddress usNRegs = true) (s : MbApp) (buf : Nat → UInt8) :
    eMBRegHoldingCB s buf usAddress usNRegs .read =
      (.noErr, readLoop s.reg usNRegs.toNat (usAddress.toNat - sRegHoldingStart.toNat),
        regAddressGet s usAddress) := by
  unfold eMBRegHoldingCB
  simp only [hr, ↓reduceIte]

theorem write_eq (hr : inRange usAddress usNRegs = true) (s : MbApp) (buf : Nat → UInt8) :
    eMBRegHoldingCB s buf usAddress usNRegs .write =
      (.noErr, [], regAddressGet
        { s with reg := writeWords s.reg (2 * (usAddress.toNat - sRegHoldingStart.toNat))
                          (frameWords buf 0 usNRegs.toNat) } usAddress) := by
  unfold eMBRegHoldingCB
  simp only [hr, ↓reduceIte, writeLoop_eq]

/-- A call writes only what it runs over. -/
theorem Writes.touches (hr : inRange usAddress usNRegs = true) {eMode : MbRegisterMode} {i : Nat}
    (h : Writes usAddress usNRegs eMode i) :
    Touches usAddress usNRegs i := by
  obtain ⟨s, buf, hne⟩ := h
  cases eMode with
  | read =>
    rw [read_eq hr, regAddressGet_reg] at hne
    exact absurd rfl hne
  | write =>
    rw [write_eq hr, regAddressGet_reg] at hne
    unfold Touches
    by_contra hout
    refine hne (readWord_writeWords_frame ?_)
    rw [length_frameWords]
    unfold Apart
    omega

/-- And it reads only that and the members of the commands. -/
theorem Reads.inside (hr : inRange usAddress usNRegs = true) {eMode : MbRegisterMode} {i : Nat}
    (h : Reads usAddress usNRegs eMode i) :
    i < regDataSize ∨ Touches usAddress usNRegs i := by
  obtain ⟨s, reg', buf, hoff, hne⟩ := h
  by_contra hout
  rw [not_or, Nat.not_lt] at hout
  obtain ⟨hi, hnt⟩ := hout
  unfold Touches at hnt
  cases eMode with
  | read =>
    simp only [read_eq hr, outcome, regAddressGet_hmiRegAddress, regAddressGet_reg] at hne
    rcases hne with hne | hne
    · have hhmi := agreeOff_regAddressGet (t := { s with reg := reg' }) hoff rfl hi usAddress
      have hloopout : i < usAddress.toNat - sRegHoldingStart.toNat ∨
          usAddress.toNat - sRegHoldingStart.toNat + usNRegs.toNat ≤ i := by omega
      have hloop := agreeOff_readLoop hoff hloopout
      rw [hhmi, hloop] at hne
      exact hne rfl
    · exact hne hoff
  | write =>
    have hafter := agreeOff_writeWords hoff (2 * (usAddress.toNat - sRegHoldingStart.toNat))
      (frameWords buf 0 usNRegs.toNat)
    simp only [write_eq hr, outcome, regAddressGet_hmiRegAddress, regAddressGet_reg] at hne
    rcases hne with hne | hne
    · have hafter' : AgreeOff
          { s with reg := writeWords s.reg (2 * (usAddress.toNat - sRegHoldingStart.toNat))
                            (frameWords buf 0 usNRegs.toNat) }.reg
          { s with reg := writeWords reg' (2 * (usAddress.toNat - sRegHoldingStart.toNat))
                            (frameWords buf 0 usNRegs.toNat) }.reg i := hafter
      refine hne ?_
      rw [agreeOff_regAddressGet hafter' rfl hi usAddress]
    · exact hne hafter

theorem getElem_frameWords (buf : Nat → UInt8) (p : Nat) {n j : Nat}
    (hj : j < (frameWords buf p n).length) :
    (frameWords buf p n)[j] = frameWord (buf (p + 2 * j)) (buf (p + 2 * j + 1)) := by
  simp [frameWords]

theorem readWord_zero (a : Nat) : readWord MbApp.zero.reg a = 0 := by
  simp [readWord, MbApp.zero]

/-- An accepted write changes every word that it runs over. -/
theorem Touches.writes {i : Nat} (hr : inRange usAddress usNRegs = true)
    (h : Touches usAddress usNRegs i) : Writes usAddress usNRegs .write i := by
  unfold Touches at h
  refine ⟨.zero, fun _ => 1, ?_⟩
  rw [write_eq hr, regAddressGet_reg]
  generalize usAddress.toNat - sRegHoldingStart.toNat = p at h
  obtain ⟨j, rfl⟩ := Nat.exists_eq_add_of_le h.1
  have hj : j < (frameWords (fun _ => 1) 0 usNRegs.toNat).length := by
    rw [length_frameWords]
    omega
  rw [Nat.mul_add, readWord_writeWords _ _ hj, getElem_frameWords, readWord_zero]
  decide

/-- The bytes of a read determine the words that it runs over. -/
theorem readLoop_inj {m m' : Mem} {n iRegIndex j : Nat}
    (h : readLoop m n iRegIndex = readLoop m' n iRegIndex) (hj : j < n) :
    readWord m (2 * (iRegIndex + j)) = readWord m' (2 * (iRegIndex + j)) := by
  induction n generalizing iRegIndex j with
  | zero => omega
  | succ n ih =>
    unfold readLoop at h
    simp only [List.cons.injEq] at h
    obtain ⟨hhi, hlo, hrest⟩ := h
    cases j with
    | zero => exact word_of_bytes hlo hhi
    | succ j =>
      rw [show iRegIndex + (j + 1) = iRegIndex + 1 + j by omega]
      exact ih hrest (by omega)

/-- The result of an accepted read depends on every word that it runs over. -/
theorem Touches.reads {i : Nat} (hr : inRange usAddress usNRegs = true)
    (h : Touches usAddress usNRegs i) : Reads usAddress usNRegs .read i := by
  unfold Touches at h
  refine ⟨.zero, writeWord MbApp.zero.reg (2 * i) 1, fun _ => 0, ?_, Or.inl fun he => ?_⟩
  · intro q h₁ h₂
    unfold writeWord
    refine (writeBytes_outside ?_).symm
    unfold wordBytes
    simp only [List.length_cons, List.length_nil]
    omega
  · simp only [read_eq hr, outcome, Prod.mk.injEq] at he
    obtain ⟨j, hj⟩ := Nat.exists_eq_add_of_le h.1
    have hword := readLoop_inj he.2.1 (j := j) (by omega)
    rw [← hj, readWord_writeWord, readWord_zero] at hword
    exact absurd hword (by decide)

end

/-! ## The bound -/

/-- **The register bound.** An accepted access stays inside `MB_RegData` exactly if
it names no register or its last one is a register of the structure. -/
theorem access_inside_iff (usAddress usNRegs : UInt16) (eMode : MbRegisterMode)
    (hacc : Accepts usAddress usNRegs eMode) :
    Inside usAddress usNRegs eMode ↔
      usNRegs = 0 ∨ usAddress.toNat - 1 + usNRegs.toNat ≤ regDataSize := by
  have hr := (accepts_iff usAddress usNRegs eMode).mp hacc
  have hstart : sRegHoldingStart.toNat = 1 := rfl
  constructor
  · intro hin
    rcases Nat.eq_zero_or_pos usNRegs.toNat with h0 | hpos
    · exact Or.inl (UInt16.toNat_inj.mp h0)
    · -- the last word of the access is one that it reads or writes
      have hlast : Touches usAddress usNRegs (usAddress.toNat - 1 + usNRegs.toNat - 1) := by
        unfold Touches
        omega
      have hlt := hin _ (match eMode with
        | .read => Or.inr (hlast.reads hr)
        | .write => Or.inl (hlast.writes hr))
      exact Or.inr (by omega)
  · intro hcond i hacts
    have htouch : i < regDataSize ∨ Touches usAddress usNRegs i := by
      rcases hacts with hw | hrd
      · exact Or.inr (hw.touches hr)
      · exact hrd.inside hr
    rcases htouch with hi | ht
    · exact hi
    · unfold Touches at ht
      rcases hcond with h0 | hle
      · have hzero : usNRegs.toNat = 0 := by rw [h0]; rfl
        omega
      · omega

/-- The last register that fits. -/
theorem last_register_inside : Inside 902 1 .write :=
  (access_inside_iff 902 1 .write ((accepts_iff 902 1 .write).mpr (by decide))).mpr
    (Or.inr (by decide))

/-- The last register that the check lets through is the word with index 999, behind the
structure and behind `theDHMI`. -/
theorem last_register_outside :
    Accepts 1000 1 .write ∧ Writes 1000 1 .write 999 ∧ ¬ 999 < regDataSize := by
  have hr : inRange 1000 1 = true := by decide
  refine ⟨(accepts_iff 1000 1 .write).mpr hr, Touches.writes hr ?_, by decide⟩
  unfold Touches
  decide

end SC04Monitor.Modbus
