import SC04Monitor.Modbus.RegData

/-! # The register map and the command decoder

A command is written at its address `HMI_ADDR_*` and taken out of the image at the
offset of its member. For ten of the thirteen commands the two are the same; the
last three words of `CtrCmd` lie one, two and three registers before the addresses
that announce them. -/

namespace SC04Monitor.Modbus
open SC04Monitor.Lib.ByteMem SC04Monitor.Lib.WordMem SC04Monitor.UserApp

/-! ## The write loop -/

/-- The first `n` words of a buffer. -/
def frameWords (buf : Nat → UInt8) (p n : Nat) : List UInt16 :=
  (List.range n).map fun j => frameWord (buf (p + 2 * j)) (buf (p + 2 * j + 1))

theorem length_frameWords (buf : Nat → UInt8) (p n : Nat) : (frameWords buf p n).length = n := by
  simp [frameWords]

theorem frameWords_succ (buf : Nat → UInt8) (p n : Nat) :
    frameWords buf p (n + 1) =
      frameWord (buf p) (buf (p + 1)) :: frameWords buf (p + 2) n := by
  unfold frameWords
  rw [List.range_succ_eq_map, List.map_cons, List.map_map]
  refine congrArg₂ List.cons rfl (List.map_congr_left fun j _ => ?_)
  show frameWord (buf (p + 2 * (j + 1))) (buf (p + 2 * (j + 1) + 1)) = _
  rw [show p + 2 * (j + 1) = p + 2 + 2 * j by omega]

theorem writeLoop_eq (buf : Nat → UInt8) (n iRegIndex p : Nat) (reg : Mem) :
    writeLoop buf n iRegIndex p reg = writeWords reg (2 * iRegIndex) (frameWords buf p n) := by
  induction n generalizing iRegIndex p reg with
  | zero => rfl
  | succ n ih => rw [writeLoop, ih, frameWords_succ, writeWords, Nat.mul_succ]

/-! ## The decoder -/

/-- Every command is found at its own address. -/
theorem find_hmiAddr : ∀ a : HmiAddr, HmiAddr.all.find? (fun b => hmiAddr b = hmiAddr a) = some a
  | .chargeEn | .chargeCmd | .devTest | .sleep | .restart | .restore | .wMbPara | .wMbRtc => rfl
  | .wCbPara 0 | .wCbPara 1 | .wCbPara 2 | .wCbPara 3 | .wCbPara 4 => rfl

theorem regAddressGet_hmi (s : MbApp) (a : HmiAddr) :
    (regAddressGet s (hmiAddr a + 1)).hmi = (s.hmi.raise a).copy s.reg a := by
  have haddr : hmiAddr a + 1 - 1 = hmiAddr a := UInt16.add_sub_cancel _ _
  unfold regAddressGet
  simp only [haddr, find_hmiAddr]

theorem hmiAddr_injective {a b : HmiAddr} (h : hmiAddr a = hmiAddr b) : a = b := by
  have hb := find_hmiAddr b
  rw [← h, find_hmiAddr a] at hb
  exact Option.some.inj hb

/-- Any other address does nothing. -/
theorem regAddressGet_hmi_none (s : MbApp) {address : UInt16}
    (h : ∀ a, hmiAddr a ≠ address - 1) : (regAddressGet s address).hmi = s.hmi := by
  have hnone : HmiAddr.all.find? (fun a => hmiAddr a = address - 1) = none := by
    rw [List.find?_eq_none]
    exact fun a _ => by simpa using h a
  unfold regAddressGet
  simp only [hnone]

theorem copy_wAddrFlag (h : HmiType) (reg : Mem) (a : HmiAddr) :
    (h.copy reg a).wAddrFlag = h.wAddrFlag := by
  unfold HmiType.copy
  generalize 2 * fieldOffset a = p
  cases a <;> rfl

theorem wordsOf_readVector (m : Mem) (a n : Nat) :
    wordsOf (readVector m a (2 * n)).toList = readWords m a n := by
  rw [← wordsOf_readBytes]
  congr 1
  unfold readVector readBytes
  apply List.ext_getElem
  · simp
  · intro i h₁ h₂
    simp

/-- What a command copies. -/
theorem copy_field (h : HmiType) (reg : Mem) (a : HmiAddr) :
    (h.copy reg a).field a = readWords reg (2 * fieldOffset a) (fieldSize a) := by
  unfold HmiType.copy
  generalize 2 * fieldOffset a = p
  cases a with
  | chargeEn | chargeCmd | devTest | sleep | restart | restore => rfl
  | wMbPara => exact wordsOf_readVector reg p 14
  | wCbPara k =>
    simp only [HmiType.field, Function.update_self]
    exact wordsOf_readVector reg p 12
  | wMbRtc => exact wordsOf_readVector reg p 6

theorem readVector_of_words {n : Nat} {v : Vector UInt8 (2 * n)} {m : Mem} {a : Nat}
    (h : wordsOf v.toList = readWords m a n) : readVector m a (2 * n) = v := by
  rw [← wordsOf_readVector] at h
  have hlist := wordsOf_inj (n := n) (by simp) (by simp) h
  exact (Vector.toList_inj.mp hlist).symm

/-- Words that are there already are copied without effect. -/
theorem copy_of_field {h : HmiType} {reg : Mem} {a : HmiAddr}
    (hfield : h.field a = readWords reg (2 * fieldOffset a) (fieldSize a)) : h.copy reg a = h := by
  unfold HmiType.copy
  generalize 2 * fieldOffset a = p at hfield
  cases a with
  | chargeEn | chargeCmd =>
    have hwords : readWords reg p 2 = [readWord reg p, readWord reg (p + 2)] := rfl
    simp only [HmiType.field, fieldSize, hwords, List.cons.injEq] at hfield
    simp only [← hfield.1, ← hfield.2.1]
  | devTest | sleep | restart | restore =>
    have hwords : readWords reg p 1 = [readWord reg p] := rfl
    simp only [HmiType.field, fieldSize, hwords, List.cons.injEq] at hfield
    simp only [← hfield.1]
  | wMbPara =>
    have hvec : readVector reg p 28 = h.mbWrPara := readVector_of_words (n := 14) hfield
    simp only [hvec]
  | wCbPara k =>
    have hvec : readVector reg p 24 = h.wPara k := readVector_of_words (n := 12) hfield
    simp only [hvec, Function.update_eq_self]
  | wMbRtc =>
    have hvec : readVector reg p 12 = h.time := readVector_of_words (n := 6) hfield
    simp only [hvec]

theorem copy_copy (h : HmiType) (reg reg' : Mem) (a : HmiAddr) :
    (h.copy reg a).copy reg' a = h.copy reg' a := by
  unfold HmiType.copy
  generalize 2 * fieldOffset a = p
  cases a <;> simp

/-- A copy depends on the words of its member only. -/
theorem copy_congr {h : HmiType} {reg reg' : Mem} {a : HmiAddr}
    (hwords : readWords reg (2 * fieldOffset a) (fieldSize a) =
      readWords reg' (2 * fieldOffset a) (fieldSize a)) : h.copy reg a = h.copy reg' a := by
  have hsame : (h.copy reg a).copy reg' a = h.copy reg a := copy_of_field (by rw [copy_field, hwords])
  rw [← hsame, copy_copy]

/-- A command copies no other command. -/
theorem copy_field_of_ne (h : HmiType) (reg : Mem) {a b : HmiAddr} (hne : a ≠ b) :
    (h.copy reg a).field b = h.field b := by
  cases b with
  | chargeEn | chargeCmd | devTest | sleep | restart | restore | wMbPara | wMbRtc =>
    cases a <;> first | exact absurd rfl hne | simp only [HmiType.copy, HmiType.field]
  | wCbPara k =>
    cases a with
    | wCbPara j =>
      have hkj : k ≠ j := fun he => hne (congrArg HmiAddr.wCbPara he.symm)
      simp only [HmiType.copy, HmiType.field, Function.update_of_ne hkj]
    | chargeEn | chargeCmd | devTest | sleep | restart | restore | wMbPara | wMbRtc =>
      simp only [HmiType.copy, HmiType.field]

theorem raise_field (h : HmiType) (a b : HmiAddr) : (h.raise b).field a = h.field a := by
  cases a <;> rfl

/-- The commands lie inside the registers that the callback serves. -/
theorem inRange_command : ∀ a : HmiAddr,
    inRange (hmiAddr a + 1) (UInt16.ofNat (fieldSize a)) = true
  | .chargeEn | .chargeCmd | .devTest | .sleep | .restart | .restore | .wMbPara | .wMbRtc => by
    decide
  | .wCbPara 0 | .wCbPara 1 | .wCbPara 2 | .wCbPara 3 | .wCbPara 4 => by decide

theorem toNat_hmiAddr_succ : ∀ a : HmiAddr, (hmiAddr a + 1).toNat = (hmiAddr a).toNat + 1
  | .chargeEn | .chargeCmd | .devTest | .sleep | .restart | .restore | .wMbPara | .wMbRtc => rfl
  | .wCbPara 0 | .wCbPara 1 | .wCbPara 2 | .wCbPara 3 | .wCbPara 4 => rfl

theorem hmiAddr_index (a : HmiAddr) :
    (hmiAddr a + 1).toNat - sRegHoldingStart.toNat = (hmiAddr a).toNat := by
  rw [toNat_hmiAddr_succ]
  rfl

theorem fieldSize_toNat (a : HmiAddr) : (UInt16.ofNat (fieldSize a)).toNat = fieldSize a := by
  cases a <;> rfl

/-! ## The map -/

/-- The commands that are announced at the register they are taken from. -/
def Aligned (a : HmiAddr) : Prop := fieldOffset a = (hmiAddr a).toNat

instance : DecidablePred Aligned := fun _ => inferInstanceAs (Decidable (_ = _))

theorem aligned_iff : ∀ a : HmiAddr,
    Aligned a ↔ a ≠ .sleep ∧ a ≠ .restart ∧ a ≠ .restore
  | .chargeEn | .chargeCmd | .devTest | .sleep | .restart | .restore | .wMbPara | .wMbRtc => by
    unfold Aligned
    decide
  | .wCbPara 0 | .wCbPara 1 | .wCbPara 2 | .wCbPara 3 | .wCbPara 4 => by
    unfold Aligned
    decide

/-- A misplaced command is taken from below the register that announces it. -/
theorem misaligned_below {a : HmiAddr} (h : ¬ Aligned a) :
    fieldOffset a + fieldSize a ≤ (hmiAddr a).toNat := by
  have hcases : a = .sleep ∨ a = .restart ∨ a = .restore := by
    rw [aligned_iff] at h
    by_contra hnone
    simp only [not_or] at hnone
    exact h hnone
  rcases hcases with rfl | rfl | rfl
  · decide
  · decide
  · decide

/-- The write of a command: a block of its size at its address, which the stack
hands over increased by one. -/
def writeCommand (s : MbApp) (buf : Nat → UInt8) (a : HmiAddr) :
    MbErrorCode × List UInt8 × MbApp :=
  eMBRegHoldingCB s buf (hmiAddr a + 1) (UInt16.ofNat (fieldSize a)) .write

/-- The image after the write. -/
def writtenReg (s : MbApp) (buf : Nat → UInt8) (a : HmiAddr) : Mem :=
  writeWords s.reg (2 * (hmiAddr a).toNat) (frameWords buf 0 (fieldSize a))

theorem writeCommand_eq (s : MbApp) (buf : Nat → UInt8) (a : HmiAddr) :
    writeCommand s buf a =
      (.noErr, [], regAddressGet { s with reg := writtenReg s buf a } (hmiAddr a + 1)) := by
  unfold writeCommand eMBRegHoldingCB writtenReg
  simp only [inRange_command, ↓reduceIte, hmiAddr_index, fieldSize_toNat, writeLoop_eq]

theorem writeCommand_hmi (s : MbApp) (buf : Nat → UInt8) (a : HmiAddr) :
    (writeCommand s buf a).2.2.hmi = (s.hmi.raise a).copy (writtenReg s buf a) a := by
  rw [writeCommand_eq, regAddressGet_hmi]

/-- What the decoder takes out of the image. -/
theorem readWords_writtenReg (s : MbApp) (buf : Nat → UInt8) (a : HmiAddr) :
    readWords (writtenReg s buf a) (2 * fieldOffset a) (fieldSize a) =
      if Aligned a then frameWords buf 0 (fieldSize a)
      else readWords s.reg (2 * fieldOffset a) (fieldSize a) := by
  have hlen := length_frameWords buf 0 (fieldSize a)
  unfold writtenReg
  by_cases ha : Aligned a
  · have hread := readWords_writeWords s.reg (2 * (hmiAddr a).toNat) (frameWords buf 0 (fieldSize a))
    rw [hlen] at hread
    rw [if_pos ha, show fieldOffset a = (hmiAddr a).toNat from ha]
    exact hread
  · rw [if_neg ha, readWords_writeWords_frame]
    have hbelow := misaligned_below ha
    unfold Apart
    rw [hlen]
    omega

/-- The write is accepted, the words are in the member of the command, and its flag
is the one that is raised. -/
structure Delivered (s : MbApp) (buf : Nat → UInt8) (a : HmiAddr) : Prop where
  accepted : (writeCommand s buf a).1 = .noErr
  field : (writeCommand s buf a).2.2.hmi.field a = frameWords buf 0 (fieldSize a)
  flags : (writeCommand s buf a).2.2.hmi.wAddrFlag = Function.update s.hmi.wAddrFlag a true

/-- **The register map.** From every image, the write of a command delivers it
exactly if the command is not one of the three misplaced ones, or the register that
it is taken from holds the word already. -/
theorem command_delivered_iff (s : MbApp) (buf : Nat → UInt8) (a : HmiAddr) :
    Delivered s buf a ↔ (a ≠ .sleep ∧ a ≠ .restart ∧ a ≠ .restore) ∨
      readWords s.reg (2 * fieldOffset a) (fieldSize a) = frameWords buf 0 (fieldSize a) := by
  have hfield : (writeCommand s buf a).2.2.hmi.field a =
      if Aligned a then frameWords buf 0 (fieldSize a)
      else readWords s.reg (2 * fieldOffset a) (fieldSize a) := by
    rw [writeCommand_hmi, copy_field, readWords_writtenReg]
  have hflags : (writeCommand s buf a).2.2.hmi.wAddrFlag =
      Function.update s.hmi.wAddrFlag a true := by
    rw [writeCommand_hmi, copy_wAddrFlag]
    rfl
  rw [← aligned_iff]
  constructor
  · intro hd
    by_cases ha : Aligned a
    · exact Or.inl ha
    · rw [if_neg ha] at hfield
      exact Or.inr (hfield.symm.trans hd.field)
  · intro hor
    refine ⟨by rw [writeCommand_eq], ?_, hflags⟩
    rcases hor with ha | hsame
    · rw [hfield, if_pos ha]
    · rw [hfield, hsame, ite_self]

/-- The state at power-on. -/
def MbApp.zero : MbApp := ⟨fun _ => 0, ⟨.zero, 0, 0⟩, 0⟩

/-- The command to sleep arrives as the word before it. -/
theorem sleep_not_delivered :
    (writeCommand .zero (fun j => if j = 1 then 1 else 0) .sleep).2.2.hmi.ctrCmd.sleepCmd = 0 ∧
      ¬ Delivered .zero (fun j => if j = 1 then 1 else 0) .sleep := by
  have hfield : (writeCommand .zero (fun j => if j = 1 then 1 else 0) .sleep).2.2.hmi.field
      .sleep = [0] := by
    rw [writeCommand_hmi, copy_field, readWords_writtenReg]
    decide
  refine ⟨by simpa [HmiType.field] using hfield, fun hd => ?_⟩
  exact absurd (hfield.symm.trans hd.field) (by decide)

end SC04Monitor.Modbus
