import SC04Monitor.Lib.BitString
import SC04Monitor.Modbus.RoundTrip

/-! # Coils and discrete inputs

Both are strings of bits, `xMBUtilGetBits` and `xMBUtilSetBits` of `mbutils.c` the access to
them. The callbacks `eMBRegCoilsCB` and `eMBRegDiscreteCB` of `user_mb_app.c` move them in
pieces of eight bits and a rest, from and to bytes of the frame whose bits start at the least
significant one. -/

namespace SC04Monitor.Modbus
open SC04Monitor.Lib.ByteMem SC04Monitor.Lib.BitString

/-! ## `mbutils.c` -/

/-- `xMBUtilSetBits` on the bytes at `p`. -/
def xMBUtilSetBits (ucByteBuf : Mem) (p usBitOffset ucNBits : Nat) (ucValue : UInt8) : Mem :=
  let usByteOffset := usBitOffset / 8
  let usNPreBits := usBitOffset - usByteOffset * 8
  let usValue := ucValue.toBitVec.setWidth 16 <<< usNPreBits
  let usMask := BitVec.ofNat 16 (2 ^ ucNBits - 1) <<< usNPreBits
  let usWordBuf := window ucByteBuf (p + usByteOffset)
  setWindow ucByteBuf (p + usByteOffset) (usWordBuf &&& ~~~usMask ||| usValue)

/-- `xMBUtilGetBits` on the bytes at `p`. -/
def xMBUtilGetBits (ucByteBuf : Mem) (p usBitOffset ucNBits : Nat) : UInt8 :=
  let usByteOffset := usBitOffset / 8
  let usNPreBits := usBitOffset - usByteOffset * 8
  let usMask := BitVec.ofNat 16 (2 ^ ucNBits - 1)
  let usWordBuf := window ucByteBuf (p + usByteOffset)
  ⟨(usWordBuf >>> usNPreBits &&& usMask).setWidth 8⟩

/-! ## `user_mb_app.c` -/

def sDiscreteInputStart : Nat := 1
def sDiscreteInputNdiscretes : Nat := 16
def sCoilStart : Nat := 1
def sCoilNcoils : Nat := 64

/-- The loop that fetches `iNReg` bytes. -/
def getBitsLoop (buf : Mem) (iRegBitIndex : Nat) : (iNReg iRegIndex : Nat) → List UInt8
  | 0, _ => []
  | iNReg + 1, iRegIndex =>
    xMBUtilGetBits buf iRegIndex iRegBitIndex 8 :: getBitsLoop buf iRegBitIndex iNReg (iRegIndex + 1)

/-- The bits of the last byte from `n` on are cleared, by a shift up and one down. -/
def clearRest (n : Nat) (bytes : List UInt8) : List UInt8 :=
  bytes.dropLast ++ [⟨(bytes.getLast?.getD 0).toBitVec <<< (8 - n) >>> (8 - n)⟩]

/-- The loop that stores all bytes but the rest. -/
def setBitsLoop (iRegBitIndex : Nat) (pucRegBuffer : Nat → UInt8) :
    (n iRegIndex p : Nat) → Mem → Mem
  | 0, _, _, buf => buf
  | n + 1, iRegIndex, p, buf =>
    setBitsLoop iRegBitIndex pucRegBuffer n (iRegIndex + 1) (p + 1)
      (xMBUtilSetBits buf iRegIndex iRegBitIndex 8 (pucRegBuffer p))

/-- The bits of an access exist. -/
def bitsInRange (start count : Nat) (usAddress usN : UInt16) : Bool :=
  start ≤ usAddress.toNat && usAddress.toNat + usN.toNat ≤ start + count

/-- `eMBRegCoilsCB` of the slave: its result, the bytes put into the buffer, the coils. -/
def eMBRegCoilsCB (coilBuf : Mem) (pucRegBuffer : Nat → UInt8) (usAddress usNCoils : UInt16)
    (eMode : MbRegisterMode) : MbErrorCode × List UInt8 × Mem :=
  let iNReg := usNCoils.toNat / 8 + 1
  if bitsInRange sCoilStart sCoilNcoils usAddress usNCoils then
    let iRegIndex := (usAddress.toNat - sCoilStart) / 8
    let iRegBitIndex := (usAddress.toNat - sCoilStart) % 8
    let rest := usNCoils.toNat % 8
    match eMode with
    | .read => (.noErr, clearRest rest (getBitsLoop coilBuf iRegBitIndex iNReg iRegIndex), coilBuf)
    | .write =>
      let buf := setBitsLoop iRegBitIndex pucRegBuffer (iNReg - 1) iRegIndex 0 coilBuf
      -- `xMBUtilSetBits` is not called for no bits
      (.noErr, [], if rest ≠ 0 then
          xMBUtilSetBits buf (iRegIndex + (iNReg - 1)) iRegBitIndex rest (pucRegBuffer (iNReg - 1))
        else buf)
  else (.noReg, [], coilBuf)

/-- `eMBRegDiscreteCB` of the slave: its result and the bytes put into the buffer. -/
def eMBRegDiscreteCB (discInBuf : Mem) (usAddress usNDiscrete : UInt16) :
    MbErrorCode × List UInt8 :=
  let iNReg := usNDiscrete.toNat / 8 + 1
  if bitsInRange sDiscreteInputStart sDiscreteInputNdiscretes usAddress usNDiscrete then
    let iRegIndex := (usAddress.toNat - sDiscreteInputStart) / 8
    let iRegBitIndex := (usAddress.toNat - sDiscreteInputStart) % 8
    (.noErr, clearRest (usNDiscrete.toNat % 8)
      (getBitsLoop discInBuf iRegBitIndex iNReg iRegIndex))
  else (.noReg, [])

/-! ## The two accesses -/

theorem getLsbD_xMBUtilGetBits (m : Mem) (p : Nat) {o k : Nat} (ho : o < 8) (hk : k < 8) :
    (xMBUtilGetBits m p o 8).toBitVec.getLsbD k = bitAt m (8 * p + o + k) := by
  unfold xMBUtilGetBits
  have hmask := getLsbD_mask (o := 0) (n := 8) (by decide) k
  rw [BitVec.shiftLeft_zero] at hmask
  simp only [show o / 8 = 0 by omega, Nat.zero_mul, Nat.sub_zero, Nat.add_zero,
    BitVec.getLsbD_setWidth, BitVec.getLsbD_and, BitVec.getLsbD_ushiftRight, hmask]
  rw [getLsbD_window m p (by omega)]
  simp [hk, Nat.add_assoc]

/-- The bits of the field are replaced, and set bits of the value beyond it are added to those
that are there. -/
theorem bitAt_xMBUtilSetBits (m : Mem) (p : Nat) {o n : Nat} (ho : o < 8) (hn : n ≤ 8) (v : UInt8)
    (i : Nat) :
    bitAt (xMBUtilSetBits m p o n v) i =
      if 8 * p + o ≤ i ∧ i < 8 * p + o + n then v.toBitVec.getLsbD (i - (8 * p + o))
      else bitAt m i || (decide (8 * p + o ≤ i) && v.toBitVec.getLsbD (i - (8 * p + o))) := by
  unfold xMBUtilSetBits
  simp only [show o / 8 = 0 by omega, Nat.zero_mul, Nat.sub_zero, Nat.add_zero]
  rw [bitAt_setWindow]
  by_cases hin : 8 * p ≤ i ∧ i < 8 * p + 16
  · obtain ⟨k, rfl⟩ := Nat.exists_eq_add_of_le hin.1
    have hk : k < 16 := by omega
    rw [if_pos hin, Nat.add_sub_cancel_left, BitVec.getLsbD_or, BitVec.getLsbD_and,
      BitVec.getLsbD_not, getLsbD_window m p hk, getLsbD_mask (by omega), BitVec.getLsbD_shiftLeft,
      BitVec.getLsbD_setWidth, Nat.add_sub_add_left]
    by_cases hbefore : k < o
    · simp [hbefore, hk, show ¬ (o ≤ k) by omega]
    · by_cases hafter : o + n ≤ k
      · simp [hk, hbefore, show ¬ (k < o + n) by omega, show o ≤ k by omega,
          show ¬ (8 * p + k < 8 * p + o + n) by omega, show k - o < 16 by omega]
      · simp [hk, hbefore, show k < o + n by omega, show o ≤ k by omega,
          show 8 * p + k < 8 * p + o + n by omega, show k - o < 16 by omega]
  · rw [if_neg hin, if_neg (by omega)]
    by_cases hbefore : i < 8 * p + o
    · simp [show ¬ (8 * p + o ≤ i) by omega]
    · rw [BitVec.getLsbD_of_ge v.toBitVec _ (by omega), Bool.and_false, Bool.or_false]

/-! ## The loops -/

theorem bitAt_getBitsLoop (m : Mem) {o : Nat} (ho : o < 8) (n q k : Nat) :
    bitAt (frameOf (getBitsLoop m o n q)) k = (decide (k < 8 * n) && bitAt m (8 * q + o + k)) := by
  induction n generalizing q k with
  | zero => simp [getBitsLoop, frameOf, bitAt]
  | succ n ih =>
    by_cases hk : k < 8
    · have hbit := getLsbD_xMBUtilGetBits m q ho hk
      have hfirst : bitAt (frameOf (getBitsLoop m o (n + 1) q)) k =
          (xMBUtilGetBits m q o 8).toBitVec.getLsbD k := by
        simp [bitAt, frameOf, getBitsLoop, show k / 8 = 0 by omega, show k % 8 = k by omega]
      rw [hfirst, hbit, decide_eq_true (show k < 8 * (n + 1) by omega), Bool.true_and]
    · obtain ⟨j, rfl⟩ := Nat.exists_eq_add_of_le (Nat.le_of_not_lt hk)
      have hrest : bitAt (frameOf (getBitsLoop m o (n + 1) q)) (8 + j) =
          bitAt (frameOf (getBitsLoop m o n (q + 1))) j := by
        simp [bitAt, frameOf, getBitsLoop, show (8 + j) / 8 = j / 8 + 1 by omega]
      rw [hrest, ih, show 8 * (q + 1) + o + j = 8 * q + o + (8 + j) by omega]
      congr 1
      simp only [decide_eq_decide]
      omega

@[simp] theorem length_getBitsLoop (m : Mem) (o n q : Nat) : (getBitsLoop m o n q).length = n := by
  induction n generalizing q with
  | zero => rfl
  | succ n ih => rw [getBitsLoop, List.length_cons, ih]

/-- A shift up and one down clear the bits from `r` on. -/
theorem getLsbD_shifts (b : BitVec 8) {r : Nat} (hr : r < 8) (j : Nat) :
    (b <<< (8 - r) >>> (8 - r)).getLsbD j = (decide (j < r) && b.getLsbD j) := by
  rw [BitVec.getLsbD_ushiftRight, BitVec.getLsbD_shiftLeft, Nat.add_sub_cancel_left]
  by_cases h : j < r
  · simp [h, show 8 - r + j < 8 by omega]
  · simp [h, show ¬ (8 - r + j < 8) by omega]

/-- The bits of the last byte from `r` on are cleared. -/
theorem bitAt_clearRest {bytes : List UInt8} {l r : Nat} (hl : bytes.length = l + 1) (hr : r < 8)
    (k : Nat) :
    bitAt (frameOf (clearRest r bytes)) k = (decide (k < 8 * l + r) && bitAt (frameOf bytes) k) := by
  have hne : bytes ≠ [] := List.ne_nil_of_length_eq_add_one hl
  obtain ⟨init, last, rfl⟩ : ∃ init last, bytes = init ++ [last] :=
    ⟨_, _, (List.dropLast_concat_getLast hne).symm⟩
  have hinit : init.length = l := by simpa using hl
  have hclear : clearRest r (init ++ [last]) =
      init ++ [⟨last.toBitVec <<< (8 - r) >>> (8 - r)⟩] := by
    simp [clearRest]
  rw [hclear]
  unfold bitAt frameOf
  rcases Nat.lt_trichotomy (k / 8) l with hk | hk | hk
  · rw [List.getD_append _ _ _ _ (by omega), List.getD_append _ _ _ _ (by omega),
      decide_eq_true (by omega), Bool.true_and]
  · rw [List.getD_append_right _ _ _ _ (by omega), List.getD_append_right _ _ _ _ (by omega),
      hk, hinit, Nat.sub_self]
    have hlow : decide (k < 8 * l + r) = decide (k % 8 < r) := by
      rw [decide_eq_decide]
      omega
    rw [hlow]
    exact getLsbD_shifts last.toBitVec hr _
  · rw [decide_eq_false (by omega), Bool.false_and, List.getD_eq_default _ _ (by simp; omega)]
    exact BitVec.getLsbD_zero

/-- A field of a whole byte. -/
theorem bitAt_xMBUtilSetBits_byte (m : Mem) (q : Nat) {o : Nat} (ho : o < 8) (v : UInt8) (i : Nat) :
    bitAt (xMBUtilSetBits m q o 8 v) i =
      if 8 * q + o ≤ i ∧ i < 8 * q + o + 8 then v.toBitVec.getLsbD (i - (8 * q + o))
      else bitAt m i := by
  rw [bitAt_xMBUtilSetBits m q ho (Nat.le_refl 8)]
  by_cases hin : 8 * q + o ≤ i ∧ i < 8 * q + o + 8
  · rw [if_pos hin, if_pos hin]
  · rw [if_neg hin, if_neg hin]
    by_cases hbefore : 8 * q + o ≤ i
    · rw [BitVec.getLsbD_of_ge v.toBitVec _ (by omega), Bool.and_false, Bool.or_false]
    · rw [decide_eq_false hbefore, Bool.false_and, Bool.or_false]

theorem bitAt_setBitsLoop {o : Nat} (ho : o < 8) (frame : Mem) (n q p : Nat) (m : Mem) (i : Nat) :
    bitAt (setBitsLoop o frame n q p m) i =
      if 8 * q + o ≤ i ∧ i < 8 * q + o + 8 * n then bitAt frame (8 * p + (i - (8 * q + o)))
      else bitAt m i := by
  induction n generalizing q p m with
  | zero => rw [setBitsLoop, if_neg (by omega)]
  | succ n ih =>
    rw [setBitsLoop, ih, bitAt_xMBUtilSetBits_byte m q ho]
    by_cases hrest : 8 * (q + 1) + o ≤ i ∧ i < 8 * (q + 1) + o + 8 * n
    · rw [if_pos hrest, if_pos (by omega)]
      congr 1
      omega
    · rw [if_neg hrest]
      by_cases hfirst : 8 * q + o ≤ i ∧ i < 8 * q + o + 8
      · rw [if_pos hfirst, if_pos (by omega), bitAt_low frame p (by omega)]
      · rw [if_neg hfirst, if_neg (by omega)]

/-! ## The callbacks as operations on a string of bits -/

section
variable {usAddress usN : UInt16}

/-- A read gives the coils of its block, the first one in the lowest bit, and zeros behind. -/
theorem bitAt_readCoils (hr : bitsInRange sCoilStart sCoilNcoils usAddress usN = true) (m : Mem)
    (buf : Nat → UInt8) (k : Nat) :
    bitAt (frameOf (eMBRegCoilsCB m buf usAddress usN .read).2.1) k =
      (decide (k < usN.toNat) && bitAt m (usAddress.toNat - sCoilStart + k)) := by
  have ho : (usAddress.toNat - sCoilStart) % 8 < 8 := Nat.mod_lt _ (by decide)
  have hread : (eMBRegCoilsCB m buf usAddress usN .read).2.1 = clearRest (usN.toNat % 8)
      (getBitsLoop m ((usAddress.toNat - sCoilStart) % 8) (usN.toNat / 8 + 1)
        ((usAddress.toNat - sCoilStart) / 8)) := by
    unfold eMBRegCoilsCB
    rw [if_pos hr]
  rw [hread, bitAt_clearRest (length_getBitsLoop _ _ _ _) (Nat.mod_lt _ (by decide)),
    bitAt_getBitsLoop m ho, Nat.div_add_mod, Nat.div_add_mod]
  by_cases hk : k < usN.toNat
  · rw [decide_eq_true (show k < 8 * (usN.toNat / 8 + 1) by omega), Bool.true_and]
  · rw [decide_eq_false hk, Bool.false_and, Bool.false_and]

/-- A write replaces the coils of its block. Bits of the frame that are set behind the block, up
to the end of the last byte, set the coils there. -/
theorem bitAt_writeCoils (hr : bitsInRange sCoilStart sCoilNcoils usAddress usN = true) (m : Mem)
    (frame : Mem) (i : Nat) :
    bitAt (eMBRegCoilsCB m frame usAddress usN .write).2.2 i =
      if usAddress.toNat - sCoilStart ≤ i ∧ i < usAddress.toNat - sCoilStart + usN.toNat then
        bitAt frame (i - (usAddress.toNat - sCoilStart))
      else bitAt m i ||
        (decide (usAddress.toNat - sCoilStart ≤ i ∧
          i < usAddress.toNat - sCoilStart + 8 * ((usN.toNat + 7) / 8)) &&
          bitAt frame (i - (usAddress.toNat - sCoilStart))) := by
  obtain ⟨a, ha⟩ : ∃ a, usAddress.toNat - sCoilStart = a := ⟨_, rfl⟩
  obtain ⟨n, hn⟩ : ∃ n, usN.toNat = n := ⟨_, rfl⟩
  have ho : a % 8 < 8 := Nat.mod_lt _ (by decide)
  have hwrite : (eMBRegCoilsCB m frame usAddress usN .write).2.2 =
      let buf := setBitsLoop (a % 8) frame (n / 8) (a / 8) 0 m
      if n % 8 ≠ 0 then xMBUtilSetBits buf (a / 8 + n / 8) (a % 8) (n % 8) (frame (n / 8))
      else buf := by
    unfold eMBRegCoilsCB
    rw [if_pos hr, ha, hn]
    rfl
  rw [hwrite, ha, hn]
  by_cases hrest : n % 8 = 0
  · show bitAt (if n % 8 ≠ 0 then _ else _) i = _
    rw [if_neg (by omega), bitAt_setBitsLoop ho]
    by_cases hin : a ≤ i ∧ i < a + n
    · rw [if_pos hin, if_pos (by omega)]
      congr 1
      omega
    · rw [if_neg hin, if_neg (by omega), decide_eq_false (by omega), Bool.false_and, Bool.or_false]
  · show bitAt (if n % 8 ≠ 0 then _ else _) i = _
    have hlast : 8 * (a / 8 + n / 8) + a % 8 = a + 8 * (n / 8) := by omega
    rw [if_pos hrest, bitAt_xMBUtilSetBits _ _ ho (by omega), bitAt_setBitsLoop ho, hlast,
      Nat.div_add_mod, Nat.mul_zero, Nat.zero_add]
    have hbit : a + 8 * (n / 8) ≤ i → i < a + 8 * (n / 8) + 8 →
        (frame (n / 8)).toBitVec.getLsbD (i - (a + 8 * (n / 8))) = bitAt frame (i - a) := by
      intro hle hlt
      rw [← bitAt_low frame (n / 8) (by omega)]
      congr 1
      omega
    by_cases hbytes : i < a + 8 * (n / 8)
    · rw [if_neg (by omega), decide_eq_false (show ¬ (a + 8 * (n / 8) ≤ i) by omega),
        Bool.false_and, Bool.or_false]
      by_cases hin : a ≤ i
      · rw [if_pos (by omega), if_pos (by omega)]
      · rw [if_neg (by omega), if_neg (by omega), decide_eq_false (by omega), Bool.false_and,
          Bool.or_false]
    · by_cases hin : i < a + n
      · rw [if_pos (by omega), if_pos (by omega), hbit (by omega) (by omega)]
      · rw [if_neg (by omega), if_neg (by omega), if_neg (by omega),
          decide_eq_true (show a + 8 * (n / 8) ≤ i by omega), Bool.true_and]
        by_cases hpad : i < a + 8 * (n / 8) + 8
        · rw [hbit (by omega) hpad, decide_eq_true (by omega), Bool.true_and]
        · rw [BitVec.getLsbD_of_ge _ _ (by omega), decide_eq_false (by omega), Bool.false_and]

/-- Bit `k` of the frame lies behind the last coil of the block, in the same byte as it. -/
def Padding (usN : UInt16) (k : Nat) : Prop := usN.toNat ≤ k ∧ k < 8 * ((usN.toNat + 7) / 8)

instance (usN : UInt16) (k : Nat) : Decidable (Padding usN k) := by
  unfold Padding
  infer_instance

theorem bitsInRange_start {start count : Nat} (h : bitsInRange start count usAddress usN = true) :
    start ≤ usAddress.toNat := by
  unfold bitsInRange at h
  rw [Bool.and_eq_true, decide_eq_true_eq] at h
  exact h.1

/-- A write outside of its block, where the padding does not reach. -/
theorem bitAt_writeCoils_outside (hr : bitsInRange sCoilStart sCoilNcoils usAddress usN = true)
    (m : Mem) {frame : Mem} (hpad : ∀ k, Padding usN k → bitAt frame k = false) {i : Nat}
    (hi : i < usAddress.toNat - sCoilStart ∨ usAddress.toNat - sCoilStart + usN.toNat ≤ i) :
    bitAt (eMBRegCoilsCB m frame usAddress usN .write).2.2 i = bitAt m i := by
  rw [bitAt_writeCoils hr, if_neg (by omega)]
  by_cases hin : usAddress.toNat - sCoilStart ≤ i ∧
      i < usAddress.toNat - sCoilStart + 8 * ((usN.toNat + 7) / 8)
  · rw [hpad (i - (usAddress.toNat - sCoilStart)) ⟨by omega, by omega⟩, Bool.and_false, Bool.or_false]
  · rw [decide_eq_false hin, Bool.false_and, Bool.or_false]

end

/-- The coils behave as a memory of bits as long as the padding of the last byte of every write
is zero, and only then: any block reads what was written last, and the rest of the coils, and of
the memory behind them, stays as it was. Set bits in the padding set the coils behind the
block, or the memory behind all coils. -/
theorem coils_round_trip {usAddress usN : UInt16}
    (hr : bitsInRange sCoilStart sCoilNcoils usAddress usN = true) (frame : Mem) :
    (∀ (m : Mem) (buf : Nat → UInt8) (a n : UInt16), bitsInRange sCoilStart sCoilNcoils a n = true →
      ∀ k < n.toNat,
        bitAt (frameOf (eMBRegCoilsCB (eMBRegCoilsCB m frame usAddress usN .write).2.2 buf a n
            .read).2.1) k =
          if usAddress.toNat ≤ a.toNat + k ∧ a.toNat + k < usAddress.toNat + usN.toNat then
            bitAt frame (a.toNat + k - usAddress.toNat)
          else bitAt (frameOf (eMBRegCoilsCB m buf a n .read).2.1) k ||
            (decide (usAddress.toNat ≤ a.toNat + k ∧ Padding usN (a.toNat + k - usAddress.toNat)) &&
              bitAt frame (a.toNat + k - usAddress.toNat))) ∧
      ((∀ (m : Mem) (i : Nat),
          i < usAddress.toNat - sCoilStart ∨ usAddress.toNat - sCoilStart + usN.toNat ≤ i →
            bitAt (eMBRegCoilsCB m frame usAddress usN .write).2.2 i = bitAt m i) ↔
        ∀ k, Padding usN k → bitAt frame k = false) := by
  have hone : 1 ≤ usAddress.toNat := bitsInRange_start hr
  have hstart : sCoilStart = 1 := rfl
  refine ⟨fun m buf a n hr' k hk => ?_, fun h k hpad => ?_,
    fun hpad m i hi => bitAt_writeCoils_outside hr m hpad hi⟩
  · have hone' : 1 ≤ a.toNat := bitsInRange_start hr'
    have hplace : a.toNat - sCoilStart + k - (usAddress.toNat - sCoilStart) =
        a.toNat + k - usAddress.toNat := by omega
    rw [bitAt_readCoils hr', bitAt_readCoils hr', decide_eq_true hk, Bool.true_and, Bool.true_and,
      bitAt_writeCoils hr, hplace]
    by_cases hin : usAddress.toNat ≤ a.toNat + k ∧ a.toNat + k < usAddress.toNat + usN.toNat
    · rw [if_pos hin, if_pos (by omega)]
    · rw [if_neg hin, if_neg (by omega)]
      congr 2
      rw [decide_eq_decide]
      unfold Padding
      omega
  · -- in a memory of zeros the padding is all that can set a bit there
    have hkeep := h (fun _ => 0) (usAddress.toNat - sCoilStart + k) (.inr (by have := hpad.1; omega))
    have hzero : bitAt (fun _ => 0) (usAddress.toNat - sCoilStart + k) = false := BitVec.getLsbD_zero
    rw [bitAt_writeCoils hr, if_neg (by have := hpad.1; omega), Nat.add_sub_cancel_left, hzero,
      Bool.false_or, decide_eq_true (by have := hpad.2; omega), Bool.true_and] at hkeep
    exact hkeep

/-- Three coils that are written, with a bit in the padding behind them. -/
theorem coils_round_trip_three :
    (frameOf (eMBRegCoilsCB (eMBRegCoilsCB (fun _ => 0) (frameOf [0b1101]) 5 3 .write).2.2
      (fun _ => 0) 8 1 .read).2.1 0).toBitVec.getLsbD 0 = true := by
  have hread := (coils_round_trip (show bitsInRange sCoilStart sCoilNcoils 5 3 = true from rfl)
    (frameOf [0b1101])).1 (fun _ => 0)
    (fun _ => 0) 8 1 rfl 0 (by decide)
  exact hread

end SC04Monitor.Modbus
