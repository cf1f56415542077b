import SC04Monitor.Modbus.RegBounds
import Mathlib.Data.List.GetD

/-! # What is written is read

A block of registers is written from the big-endian bytes of a frame and read back as
such bytes. Blocks that lie in `MB_RegData` behave as a memory: a read tells the last
write of its registers, whatever block they were written in. -/

namespace SC04Monitor.Modbus
open SC04Monitor.Lib.ByteMem SC04Monitor.Lib.WordMem

/-! ## The bytes of a read -/

/-- The two bytes that a read puts into the frame. -/
def frameBytes (w : UInt16) : List UInt8 := [(w >>> 8).toUInt8, (w &&& 0xFF).toUInt8]

theorem frameBytes_frameWord (hi lo : UInt8) : frameBytes (frameWord hi lo) = [hi, lo] := by
  unfold frameBytes frameWord
  rw [hi_orBytes, lo_orBytes]

theorem readLoop_eq (reg : Mem) (n iRegIndex : Nat) :
    readLoop reg n iRegIndex = (readWords reg (2 * iRegIndex) n).flatMap frameBytes := by
  induction n generalizing iRegIndex with
  | zero => rfl
  | succ n ih =>
    rw [readWords_succ, List.flatMap_cons, ← Nat.mul_succ, ← ih]
    rfl

theorem length_readLoop (reg : Mem) (n iRegIndex : Nat) :
    (readLoop reg n iRegIndex).length = 2 * n := by
  induction n generalizing iRegIndex with
  | zero => rfl
  | succ n ih =>
    show (readLoop reg n (iRegIndex + 1)).length + 1 + 1 = _
    rw [ih]
    omega

/-- A read is one of the first registers and one of the rest. -/
theorem readLoop_add (reg : Mem) (n k iRegIndex : Nat) :
    readLoop reg (n + k) iRegIndex =
      readLoop reg n iRegIndex ++ readLoop reg k (iRegIndex + n) := by
  induction n generalizing iRegIndex with
  | zero => rw [Nat.zero_add, Nat.add_zero, readLoop, List.nil_append]
  | succ n ih =>
    rw [Nat.add_right_comm, readLoop, readLoop, ih, Nat.add_right_comm iRegIndex, Nat.add_assoc]
    rfl

/-- A read of some of the registers gives the bytes at their place. -/
theorem readLoop_sub (reg : Mem) {n k d : Nat} (h : d + k ≤ n) (iRegIndex : Nat) :
    readLoop reg k (iRegIndex + d) =
      ((readLoop reg n iRegIndex).drop (2 * d)).take (2 * k) := by
  obtain ⟨j, rfl⟩ := Nat.exists_eq_add_of_le h
  have hd := length_readLoop reg d iRegIndex
  have hk := length_readLoop reg k (iRegIndex + d)
  rw [readLoop_add, readLoop_add, List.append_assoc, ← hd, List.drop_left, ← hk, List.take_left]

theorem flatMap_frameWords (buf : Nat → UInt8) (p n : Nat) :
    (frameWords buf p n).flatMap frameBytes = (List.range (2 * n)).map fun j => buf (p + j) := by
  induction n generalizing p with
  | zero => rfl
  | succ n ih =>
    rw [frameWords_succ, List.flatMap_cons, frameBytes_frameWord, ih, Nat.mul_succ,
      List.range_succ_eq_map, List.range_succ_eq_map]
    simp only [List.map_cons, List.map_map, List.cons_append, List.nil_append, Nat.add_zero]
    refine congrArg₂ List.cons rfl (congrArg₂ List.cons rfl (List.map_congr_left fun j _ => ?_))
    show buf (p + 2 + j) = buf (p + (j + 1 + 1))
    rw [show p + 2 + j = p + (j + 1 + 1) by omega]

/-! ## Blocks -/

/-- Consecutive registers of `MB_RegData`; the first one has the address 1. -/
structure Block where
  usAddress : UInt16
  usNRegs : UInt16
  first : 1 ≤ usAddress.toNat
  last : usAddress.toNat - 1 + usNRegs.toNat ≤ regDataSize

/-- The bytes of a frame as the callback is given them. -/
def frameOf (bytes : List UInt8) : Nat → UInt8 := fun j => bytes.getD j 0

theorem range_map_frameOf (bytes : List UInt8) :
    (List.range bytes.length).map (frameOf bytes) = bytes := by
  apply List.ext_getElem
  · rw [List.length_map, List.length_range]
  · intro j h₁ h₂
    rw [List.getElem_map, List.getElem_range]
    exact List.getD_eq_getElem _ _ h₂

/-- What the caller gets of a read. -/
def readRegs (s : MbApp) (buf : Nat → UInt8) (usAddress usNRegs : UInt16) :
    MbErrorCode × List UInt8 :=
  let r := eMBRegHoldingCB s buf usAddress usNRegs .read
  (r.1, r.2.1)

namespace Block
variable (b : Block)

/-- The write of a block. -/
def write (s : MbApp) (bytes : List UInt8) : MbErrorCode × List UInt8 × MbApp :=
  eMBRegHoldingCB s (frameOf bytes) b.usAddress b.usNRegs .write

/-- Both blocks have no register in common, or one of them has none at all. -/
def Disjoint (usAddress usNRegs : UInt16) : Prop :=
  Apart b.usAddress.toNat b.usNRegs.toNat usAddress.toNat usNRegs.toNat

/-- The registers are some of the block's. -/
def Covers (d : Block) : Prop :=
  b.usAddress.toNat ≤ d.usAddress.toNat ∧
    d.usAddress.toNat + d.usNRegs.toNat ≤ b.usAddress.toNat + b.usNRegs.toNat

theorem inRange : inRange b.usAddress b.usNRegs = true := by
  have hfirst := b.first
  have hlast := b.last
  have hsize : regDataSize = 902 := by decide
  unfold Modbus.inRange
  rw [Bool.and_eq_true, decide_eq_true_eq, decide_eq_true_eq, UInt16.le_iff_toNat_le]
  have hstart : sRegHoldingStart.toNat = 1 := rfl
  have hnregs : sRegHoldingNregs.toNat = 1000 := rfl
  omega

theorem readRegs_eq (s : MbApp) (buf : Nat → UInt8) :
    readRegs s buf b.usAddress b.usNRegs =
      (.noErr, readLoop s.reg b.usNRegs.toNat (b.usAddress.toNat - 1)) := by
  unfold readRegs
  rw [read_eq b.inRange]
  rfl

/-- The image after a write. -/
theorem write_reg (s : MbApp) (bytes : List UInt8) :
    (b.write s bytes).2.2.reg = writeWords s.reg (2 * (b.usAddress.toNat - 1))
      (frameWords (frameOf bytes) 0 b.usNRegs.toNat) := by
  unfold write
  rw [write_eq b.inRange, regAddressGet_reg]
  rfl

theorem readLoop_write (s : MbApp) {bytes : List UInt8}
    (h : bytes.length = 2 * b.usNRegs.toNat) :
    readLoop (b.write s bytes).2.2.reg b.usNRegs.toNat (b.usAddress.toNat - 1) = bytes := by
  have hback := readWords_writeWords s.reg (2 * (b.usAddress.toNat - 1))
    (frameWords (frameOf bytes) 0 b.usNRegs.toNat)
  rw [length_frameWords] at hback
  rw [readLoop_eq, write_reg, hback, flatMap_frameWords, ← h]
  simp only [Nat.zero_add]
  exact range_map_frameOf bytes

/-- Other registers are read as before. -/
theorem readRegs_write_frame (s : MbApp) (bytes : List UInt8) (buf : Nat → UInt8)
    {usAddress usNRegs : UInt16} (h : b.Disjoint usAddress usNRegs) :
    readRegs (b.write s bytes).2.2 buf usAddress usNRegs = readRegs s buf usAddress usNRegs := by
  unfold readRegs
  cases hr : Modbus.inRange usAddress usNRegs with
  | false =>
    unfold eMBRegHoldingCB
    rw [hr]
    rfl
  | true =>
    have hpos : 1 ≤ usAddress.toNat := by
      unfold Modbus.inRange at hr
      rw [Bool.and_eq_true, decide_eq_true_eq, UInt16.le_iff_toNat_le] at hr
      exact hr.1
    have hfirst := b.first
    have hstart : sRegHoldingStart.toNat = 1 := rfl
    unfold Disjoint at h
    rw [read_eq hr, read_eq hr]
    dsimp only
    rw [readLoop_eq, readLoop_eq, write_reg, readWords_writeWords_frame]
    unfold Apart at h ⊢
    rw [length_frameWords]
    omega

end Block

/-- **The round trip.** A block inside `MB_RegData` is read back as it was written, in
whole and in part, and every other register is read as before. -/
theorem holding_round_trip (s : MbApp) (b : Block) (bytes : List UInt8)
    (h : bytes.length = 2 * b.usNRegs.toNat) :
    (b.write s bytes).1 = .noErr ∧
      (∀ buf, readRegs (b.write s bytes).2.2 buf b.usAddress b.usNRegs = (.noErr, bytes)) ∧
      (∀ buf usAddress usNRegs, b.Disjoint usAddress usNRegs →
        readRegs (b.write s bytes).2.2 buf usAddress usNRegs =
          readRegs s buf usAddress usNRegs) ∧
      ∀ buf (d : Block), b.Covers d →
        readRegs (b.write s bytes).2.2 buf d.usAddress d.usNRegs =
          (.noErr, (bytes.drop (2 * (d.usAddress.toNat - b.usAddress.toNat))).take
            (2 * d.usNRegs.toNat)) := by
  refine ⟨?_, fun buf => ?_, fun buf _ _ hd => b.readRegs_write_frame s bytes buf hd,
    fun buf d hcov => ?_⟩
  · unfold Block.write
    rw [write_eq b.inRange]
  · rw [b.readRegs_eq, b.readLoop_write s h]
  · unfold Block.Covers at hcov
    have hfirst := b.first
    have hsub := readLoop_sub (b.write s bytes).2.2.reg
      (show d.usAddress.toNat - b.usAddress.toNat + d.usNRegs.toNat ≤ b.usNRegs.toNat by omega)
      (b.usAddress.toNat - 1)
    rw [b.readLoop_write s h, show b.usAddress.toNat - 1 + (d.usAddress.toNat - b.usAddress.toNat) =
      d.usAddress.toNat - 1 by omega] at hsub
    rw [d.readRegs_eq, hsub]

/-- The last two registers of the structure. -/
def lastBlock : Block := ⟨901, 2, by decide, by decide⟩

theorem lastBlock_round_trip :
    readRegs (lastBlock.write .zero [1, 2, 3, 4]).2.2 (fun _ => 0) 901 2 =
      (.noErr, [1, 2, 3, 4]) :=
  (holding_round_trip .zero lastBlock [1, 2, 3, 4] (by decide)).2.1 _

end SC04Monitor.Modbus
