import SC04Monitor.Modbus.RegBounds

/-! # Writes that cover several commands

The decoder looks at the address where a write starts and at nothing else. A write is
the command that starts there, however many registers follow. -/

namespace SC04Monitor.Modbus
open SC04Monitor.Lib.ByteMem SC04Monitor.Lib.WordMem SC04Monitor.UserApp

/-- The whole block of a command lies in the range of a write. -/
def CoversCommand (usAddress usNRegs : UInt16) (a : HmiAddr) : Prop :=
  usAddress.toNat ≤ (hmiAddr a).toNat + 1 ∧
    (hmiAddr a).toNat + 1 + fieldSize a ≤ usAddress.toNat + usNRegs.toNat

instance (usAddress usNRegs : UInt16) : DecidablePred (CoversCommand usAddress usNRegs) :=
  fun _ => inferInstanceAs (Decidable (_ ∧ _))

/-- The words of a write at the block of a command. -/
def wordsFor (buf : Nat → UInt8) (usAddress : UInt16) (a : HmiAddr) : List UInt16 :=
  frameWords buf (2 * ((hmiAddr a).toNat + 1 - usAddress.toNat)) (fieldSize a)

section
variable {s : MbApp} {buf : Nat → UInt8} {usAddress usNRegs : UInt16} {a : HmiAddr}

theorem inRange_of_noErr {eMode : MbRegisterMode}
    (h : (eMBRegHoldingCB s buf usAddress usNRegs eMode).1 = .noErr) :
    inRange usAddress usNRegs = true := by
  by_contra hr
  unfold eMBRegHoldingCB at h
  rw [Bool.not_eq_true] at hr
  rw [hr] at h
  cases h

/-- The decoder works on one command only. -/
theorem regAddressGet_frame (s : MbApp) (h : hmiAddr a ≠ usAddress - 1) :
    (regAddressGet s usAddress).hmi.wAddrFlag a = s.hmi.wAddrFlag a ∧
      (regAddressGet s usAddress).hmi.field a = s.hmi.field a := by
  by_cases hcmd : ∃ b, hmiAddr b = usAddress - 1
  · obtain ⟨b, hb⟩ := hcmd
    have hab : a ≠ b := by
      rintro rfl
      exact h hb
    have haddr : usAddress = hmiAddr b + 1 := by rw [hb, UInt16.sub_add_cancel]
    rw [haddr, regAddressGet_hmi, copy_wAddrFlag, copy_field_of_ne _ _ hab.symm, raise_field]
    exact ⟨Function.update_of_ne hab _ _, rfl⟩
  · push Not at hcmd
    rw [regAddressGet_hmi_none s hcmd]
    exact ⟨rfl, rfl⟩

/-- The first words of a longer string. -/
theorem frameWords_add (buf : Nat → UInt8) (p n k : Nat) :
    frameWords buf p (n + k) = frameWords buf p n ++ frameWords buf (p + 2 * n) k := by
  unfold frameWords
  rw [List.range_add, List.map_append, List.map_map]
  congr 1
  refine List.map_congr_left fun j _ => ?_
  show frameWord (buf (p + 2 * (n + j))) (buf (p + 2 * (n + j) + 1)) = _
  rw [show p + 2 * (n + j) = p + 2 * n + 2 * j by omega]

theorem writeWords_append (m : Mem) (a : Nat) (ws vs : List UInt16) :
    writeWords m a (ws ++ vs) = writeWords (writeWords m a ws) (a + 2 * ws.length) vs := by
  induction ws generalizing m a with
  | nil => rfl
  | cons w ws ih =>
    rw [List.cons_append, writeWords, ih, writeWords, List.length_cons,
      show a + 2 + 2 * ws.length = a + 2 * (ws.length + 1) by omega]

/-- What the block of a command holds after a write that starts there. -/
theorem readWords_write (reg : Mem) (buf : Nat → UInt8) {n k : Nat} (h : k ≤ n) (i : Nat) :
    readWords (writeWords reg i (frameWords buf 0 n)) i k = frameWords buf 0 k := by
  obtain ⟨j, rfl⟩ := Nat.exists_eq_add_of_le h
  have hlen := length_frameWords buf 0 k
  have hback := readWords_writeWords reg i (frameWords buf 0 k)
  rw [hlen] at hback
  rw [frameWords_add, writeWords_append, readWords_writeWords_frame, hback]
  unfold Apart
  rw [hlen]
  omega

end

/-- The write raises the flag of a command and puts the words written to its block into
its member of `HMI`. -/
structure Detected (s : MbApp) (buf : Nat → UInt8) (usAddress usNRegs : UInt16) (a : HmiAddr) :
    Prop where
  flag : (eMBRegHoldingCB s buf usAddress usNRegs .write).2.2.hmi.wAddrFlag a = true
  field : (eMBRegHoldingCB s buf usAddress usNRegs .write).2.2.hmi.field a =
    wordsFor buf usAddress a

section
variable {s : MbApp} {buf : Nat → UInt8} {usAddress usNRegs : UInt16} {a : HmiAddr}

/-- A longer write is for `HMI` the write of the command at its start. -/
theorem write_hmi_start (hr : inRange (hmiAddr a + 1) usNRegs = true)
    (hcov : fieldSize a ≤ usNRegs.toNat) :
    (eMBRegHoldingCB s buf (hmiAddr a + 1) usNRegs .write).2.2.hmi =
      (writeCommand s buf a).2.2.hmi := by
  rw [write_eq hr, regAddressGet_hmi, writeCommand_hmi, hmiAddr_index]
  refine copy_congr ?_
  rw [readWords_writtenReg]
  split_ifs with ha
  · rw [show fieldOffset a = (hmiAddr a).toNat from ha]
    exact readWords_write s.reg buf hcov _
  · -- no write from the address on reaches down to where the command is taken from
    have hbelow := misaligned_below ha
    refine readWords_writeWords_frame ?_
    unfold Apart
    omega

end

/-- **Grouped writes.** An accepted write leaves every command alone that does not start
at its address, whether its block is written or not. If the block of the one that does is
written, its flag is raised and `HMI` is what the write of this block alone makes of it; its
member holds the words written if it is taken from where it is announced. -/
theorem grouped_write (s : MbApp) (buf : Nat → UInt8) (usAddress usNRegs : UInt16)
    (h : (eMBRegHoldingCB s buf usAddress usNRegs .write).1 = .noErr) :
    (∀ a, hmiAddr a ≠ usAddress - 1 →
      (eMBRegHoldingCB s buf usAddress usNRegs .write).2.2.hmi.wAddrFlag a = s.hmi.wAddrFlag a ∧
        (eMBRegHoldingCB s buf usAddress usNRegs .write).2.2.hmi.field a = s.hmi.field a) ∧
      ∀ a, hmiAddr a = usAddress - 1 → CoversCommand usAddress usNRegs a →
        (eMBRegHoldingCB s buf usAddress usNRegs .write).2.2.hmi.wAddrFlag a = true ∧
          (eMBRegHoldingCB s buf usAddress usNRegs .write).2.2.hmi =
            (writeCommand s buf a).2.2.hmi ∧
          (Aligned a → Detected s buf usAddress usNRegs a) := by
  have hr := inRange_of_noErr h
  constructor
  · intro a ha
    rw [write_eq hr]
    exact regAddressGet_frame _ ha
  · intro a hstart hcov
    have haddr : usAddress = hmiAddr a + 1 := by rw [hstart, UInt16.sub_add_cancel]
    subst haddr
    obtain ⟨-, hcov⟩ := hcov
    rw [toNat_hmiAddr_succ] at hcov
    have hhmi : (eMBRegHoldingCB s buf (hmiAddr a + 1) usNRegs .write).2.2.hmi =
        (writeCommand s buf a).2.2.hmi := write_hmi_start hr (by omega)
    have hflag : (eMBRegHoldingCB s buf (hmiAddr a + 1) usNRegs .write).2.2.hmi.wAddrFlag a =
        true := by
      rw [hhmi, writeCommand_hmi, copy_wAddrFlag]
      exact Function.update_self a true s.hmi.wAddrFlag
    refine ⟨hflag, hhmi, fun ha => ⟨hflag, ?_⟩⟩
    unfold wordsFor
    rw [hhmi, writeCommand_hmi, copy_field, readWords_writtenReg, if_pos ha, toNat_hmiAddr_succ,
      Nat.sub_self]

/-- The enable command and the charge command of module 1, one behind the other. -/
def twoCommands : Nat → UInt8 := fun j => [0, 1, 0, 1, 0, 1, 0, 2].getD j 0

theorem grouped_write_two :
    Detected .zero twoCommands 0x0241 4 .chargeEn :=
  ((grouped_write .zero twoCommands 0x0241 4 (by decide)).2 .chargeEn (by decide)
    (by decide)).2.2 (by decide)

/-- The second of them is not detected, although it is if each is written by itself. -/
theorem grouped_write_misses :
    (eMBRegHoldingCB .zero twoCommands 0x0241 4 .write).1 = .noErr ∧
      CoversCommand 0x0241 4 .chargeCmd ∧ ¬ Detected .zero twoCommands 0x0241 4 .chargeCmd ∧
      Detected (writeCommand .zero twoCommands .chargeEn).2.2 (fun j => twoCommands (4 + j))
        0x0243 2 .chargeCmd := by
  refine ⟨by decide, by decide, fun hd => ?_, ⟨?_, ?_⟩⟩
  · exact absurd hd.flag (by decide)
  · decide
  · decide

end SC04Monitor.Modbus
