import SC04Monitor.Lib.Crc
import SC04Monitor.Record.ParStore

/-! # CRC-16

The byte table of `crc16.c` is the shift register with the polynomial `0xA001`, eight shifts at
once. So `CRC16_Dn_Cal` and the bitwise `getCRC16` agree, and the linearity of the register
tells which damage to a parameter block `Flash_Read_SYS` cannot miss. -/

namespace SC04Monitor.Record
open SC04Monitor.Lib.ByteMem SC04Monitor.Lib.WordMem SC04Monitor.Lib.Crc

/-! ## Bit by bit -/

/-- A pass of the inner loop of `getCRC16`. -/
def getCRC16Bit (crc : UInt16) : UInt16 :=
  if crc &&& 0x1 ≠ 0 then crc >>> 0x1 ^^^ 0xA001 else crc >>> 0x1

/-- The loops of `getCRC16` with `len` bytes left. -/
def getCRC16Loop (ptr : Mem) : Nat → Nat → UInt16 → UInt16
  | _, 0, crc => crc
  | i, len + 1, crc => getCRC16Loop ptr (i + 1) len (getCRC16Bit^[8] (crc ^^^ (ptr i).toUInt16))

/-- `getCRC16`: a length of zero counts as one. -/
def getCRC16 (ptr : Mem) (len : UInt8) : UInt16 :=
  getCRC16Loop ptr 0 (if len = 0 then 1 else len).toNat 0xFFFF

/-- The polynomial that both use. -/
def crcPoly : BitVec 16 := 0xA001#16

theorem crcPoly_msb : crcPoly.msb = true := by decide

/-- The bits of a byte as they are fed in. -/
def byteBits (b : UInt8) : List Bool := (List.range 8).map b.toBitVec.getLsbD

/-- The bits of a message in the order of transmission. -/
def wire (bytes : List UInt8) : List Bool := bytes.flatMap byteBits

@[simp] theorem length_byteBits (b : UInt8) : (byteBits b).length = 8 := by
  unfold byteBits
  rw [List.length_map, List.length_range]

theorem getD_byteBits (b : UInt8) (i : Nat) : (byteBits b).getD i false = b.toBitVec.getLsbD i := by
  by_cases hi : i < 8
  · simp [byteBits, hi]
  · have hout : 8 ≤ i := by omega
    rw [List.getD_eq_default _ _ (by rwa [length_byteBits]), BitVec.getLsbD_of_ge _ _ hout]

theorem word_byteBits (b : UInt8) : word 16 (byteBits b) = b.toUInt16.toBitVec := by
  refine BitVec.eq_of_getLsbD_eq fun i hi => ?_
  rw [getLsbD_word, getD_byteBits, UInt8.toBitVec_toUInt16, BitVec.getLsbD_setWidth]

/-! ## The table -/

/-- Every entry is what eight shifts leave of its index. -/
theorem crc16DnByteTab_eq : ∀ i < 256,
    (crc16DnByteTab.getD i 0).toBitVec = shifts crcPoly 8 (BitVec.ofNat 16 i) := by
  decide +kernel

/-- The table takes a byte in as the register does. -/
theorem crc16DnByte_toBitVec (crc : UInt16) (dat : UInt8) :
    (crc16DnByte crc dat).toBitVec = feed crcPoly crc.toBitVec (byteBits dat) := by
  let c := crc.toBitVec ^^^ dat.toUInt16.toBitVec
  let low := BitVec.ofNat 16 (crc.toUInt8 ^^^ dat).toNat
  have hlow : ∀ i, low.getLsbD i = (decide (i < 8) && c.getLsbD i) := by
    intro i
    have hindex : low = (crc.toUInt8 ^^^ dat).toBitVec.setWidth 16 := BitVec.ofNat_toNat _ _
    rw [hindex]
    simp only [c, BitVec.getLsbD_setWidth, UInt8.toBitVec_xor, BitVec.getLsbD_xor,
      UInt16.toBitVec_toUInt8, UInt8.toBitVec_toUInt16]
    by_cases hi : i < 8
    · simp [hi, show i < 16 by omega]
    · simp [hi, show 8 ≤ i by omega]
  have hhigh : c >>> 8 = crc.toBitVec >>> 8 := BitVec.eq_of_getLsbD_eq fun i _ => by
    simp [c]
  have hsplit : shifts crcPoly 8 c = shifts crcPoly 8 low ^^^ c >>> 8 := by
    refine shifts_split (fun i hi => ?_) fun i hi => ?_
    · rw [hlow, decide_eq_true hi, Bool.true_and]
    · rw [hlow, decide_eq_false (Nat.not_lt.mpr hi), Bool.false_and]
  rw [feed_eq (by rw [length_byteBits]; decide), length_byteBits, word_byteBits]
  show _ = shifts crcPoly 8 c
  rw [hsplit, hhigh, ← crc16DnByteTab_eq _ (UInt8.toNat_lt _), BitVec.xor_comm]
  rfl

/-- The CRC of a message is what the register holds after its bits. -/
theorem crc16DnCal_toBitVec (dat : List UInt8) (crc : UInt16) :
    (crc16DnCal dat crc).toBitVec = feed crcPoly crc.toBitVec (wire dat) := by
  induction dat generalizing crc with
  | nil => rfl
  | cons b dat ih =>
    show (crc16DnCal dat (crc16DnByte crc b)).toBitVec = feed crcPoly _ (byteBits b ++ wire dat)
    rw [ih, feed_append, crc16DnByte_toBitVec]

theorem crc16DnCal_append (l₁ l₂ : List UInt8) (crc : UInt16) :
    crc16DnCal (l₁ ++ l₂) crc = crc16DnCal l₂ (crc16DnCal l₁ crc) := List.foldl_append

/-! ## The bitwise loop -/

theorem getCRC16Bit_toBitVec (crc : UInt16) :
    (getCRC16Bit crc).toBitVec = shift crcPoly crc.toBitVec := by
  have hlow : crc &&& 0x1 ≠ 0 ↔ crc.toBitVec.getLsbD 0 = true := by
    have hand : (crc &&& 0x1).toBitVec = (BitVec.ofBool (crc.toBitVec.getLsbD 0)).setWidth 16 :=
      BitVec.and_one_eq_setWidth_ofBool_getLsbD
    rw [ne_eq, ← UInt16.toBitVec_inj, hand]
    cases crc.toBitVec.getLsbD 0 <;> decide
  unfold getCRC16Bit shift
  by_cases h : crc &&& 0x1 ≠ 0
  · rw [if_pos h, if_pos (hlow.mp h)]
    rfl
  · rw [if_neg h, if_neg (mt hlow.mpr h)]
    rfl

theorem getCRC16Byte (crc : UInt16) (b : UInt8) :
    getCRC16Bit^[8] (crc ^^^ b.toUInt16) = crc16DnByte crc b := by
  have hiter : Function.Semiconj UInt16.toBitVec getCRC16Bit (shift crcPoly) := getCRC16Bit_toBitVec
  apply UInt16.toBitVec_inj.mp
  rw [crc16DnByte_toBitVec, feed_eq (by rw [length_byteBits]; decide), length_byteBits,
    word_byteBits]
  exact (hiter.iterate_right 8).eq _

/-- The bitwise loop is the byte loop over what it reads. -/
theorem getCRC16Loop_eq (ptr : Mem) (i len : Nat) (crc : UInt16) :
    getCRC16Loop ptr i len crc = crc16DnCal (readBytes ptr i len) crc := by
  induction len generalizing i crc with
  | zero => rfl
  | succ len ih =>
    have hread : readBytes ptr i (len + 1) = ptr i :: readBytes ptr (i + 1) len := by
      rw [Nat.add_comm, readBytes_add]
      rfl
    rw [hread]
    show getCRC16Loop ptr (i + 1) len (getCRC16Bit^[8] (crc ^^^ (ptr i).toUInt16)) =
      crc16DnCal (readBytes ptr (i + 1) len) (crc16DnByte crc (ptr i))
    rw [getCRC16Byte, ih]

/-- The two functions agree, and the CRC of a message can be continued over the next one. -/
theorem crc16DnCal_getCRC16 (dat : Mem) (startCrc : UInt16) :
    (∀ len : UInt8, len ≠ 0 →
      crc16DnCal (readBytes dat 0 len.toNat) 0xFFFF = getCRC16 dat len) ∧
      ∀ a m n : Nat, crc16DnCal (readBytes dat a (m + n)) startCrc =
        crc16DnCal (readBytes dat (a + m) n) (crc16DnCal (readBytes dat a m) startCrc) := by
  refine ⟨fun len hlen => ?_, fun a m n => ?_⟩
  · unfold getCRC16
    rw [if_neg hlen, getCRC16Loop_eq]
  · rw [readBytes_add, crc16DnCal_append]

theorem crc16DnCal_getCRC16_two : crc16DnCal (readBytes (fun i => i.toUInt8) 0 2) 0xFFFF =
    getCRC16 (fun i => i.toUInt8) 2 :=
  (crc16DnCal_getCRC16 (fun i => i.toUInt8) 0xFFFF).1 2 (by decide)

/-! ## Parameter blocks -/

/-- A message with its CRC behind it, low byte first. -/
def parBlock (msg : List UInt8) : List UInt8 :=
  msg ++ [(crc16DnCal msg 0xFFFF).toUInt8, (crc16DnCal msg 0xFFFF >>> 8).toUInt8]

/-- `Flash_Write_SYS` stores such a block. -/
theorem DataRam.stored_parBlock (f : DataRam) (h : 2 ≤ f.len) : f.stored = parBlock f.payload :=
  f.stored_eq h

@[simp] theorem length_parBlock (msg : List UInt8) : (parBlock msg).length = msg.length + 2 := by
  simp [parBlock]

theorem word_wire_pair (lo hi : UInt8) :
    word 16 (wire [lo, hi]) = (lo.toUInt16 ||| hi.toUInt16 <<< 8).toBitVec := by
  have hwire : wire [lo, hi] = byteBits lo ++ byteBits hi := by simp [wire]
  refine BitVec.eq_of_getLsbD_eq fun i hi => ?_
  rw [getLsbD_word, hwire, decide_eq_true hi, Bool.true_and]
  by_cases hlow : i < 8
  · rw [List.getD_append _ _ _ _ (by rwa [length_byteBits]), getD_byteBits]
    simp [hlow, hi]
  · have hhigh : 8 ≤ i := Nat.le_of_not_lt hlow
    rw [List.getD_append_right _ _ _ _ (by rwa [length_byteBits]), length_byteBits, getD_byteBits]
    simp [hlow, hi, BitVec.getLsbD_of_ge lo.toBitVec i hhigh]

/-- Two more bytes clear the register if and only if they are its low and its high byte. -/
theorem crc16DnCal_pair (crc : UInt16) (lo hi : UInt8) :
    crc16DnCal [lo, hi] crc = 0 ↔ lo.toUInt16 ||| hi.toUInt16 <<< 8 = crc := by
  have hlen : (wire [lo, hi]).length = 16 := by simp [wire]
  rw [← UInt16.toBitVec_inj, crc16DnCal_toBitVec, feed_eq hlen.le, word_wire_pair]
  constructor
  · intro h
    have hxor := shifts_eq_zero crcPoly_msb h
    rw [BitVec.xor_eq_zero_iff, UInt16.toBitVec_inj] at hxor
    exact hxor.symm
  · rintro rfl
    rw [BitVec.xor_self, shifts_zero]
    rfl

/-- The check of a block is that the CRC over all of it is zero. -/
theorem validSlot_iff {bytes : List UInt8} (h : 2 ≤ bytes.length) :
    ValidSlot bytes ↔ crc16DnCal bytes 0xFFFF = 0 := by
  have hsplit : bytes = bytes.take (bytes.length - 2) ++
      [bytes.getD (bytes.length - 2) 0, bytes.getD (bytes.length - 1) 0] := by
    have hlast : bytes.length - 2 + 1 = bytes.length - 1 := by omega
    have hend : bytes.length - 1 + 1 = bytes.length := by omega
    rw [List.getD_eq_getElem _ _ (by omega), List.getD_eq_getElem _ _ (by omega)]
    conv_lhs => rw [← List.take_append_drop (bytes.length - 2) bytes,
      List.drop_eq_getElem_cons (show bytes.length - 2 < bytes.length by omega), hlast,
      List.drop_eq_getElem_cons (show bytes.length - 1 < bytes.length by omega), hend,
      List.drop_length]
  conv_rhs => rw [hsplit, crc16DnCal_append]
  exact (crc16DnCal_pair _ _ _).symm

/-- The CRC over a block with its CRC. -/
theorem crc16DnCal_parBlock (msg : List UInt8) : crc16DnCal (parBlock msg) 0xFFFF = 0 := by
  unfold parBlock
  rw [crc16DnCal_append, crc16DnCal_pair, UInt16.or_comm]
  exact orBytes_self _

/-! ## Damage -/

theorem wire_xor {l₁ l₂ : List UInt8} (h : l₁.length = l₂.length) :
    wire (List.zipWith (· ^^^ ·) l₁ l₂) = List.zipWith xor (wire l₁) (wire l₂) := by
  have hbyte : ∀ a b : UInt8, byteBits (a ^^^ b) = List.zipWith xor (byteBits a) (byteBits b) := by
    intro a b
    simp [byteBits, List.zipWith_map, List.zipWith_self]
  induction l₁ generalizing l₂ with
  | nil => rfl
  | cons a l₁ ih =>
    cases l₂ with
    | nil => cases h
    | cons b l₂ =>
      show byteBits (a ^^^ b) ++ wire (List.zipWith (· ^^^ ·) l₁ l₂) =
        List.zipWith xor (byteBits a ++ wire l₁) (byteBits b ++ wire l₂)
      rw [List.zipWith_append (by simp), hbyte, ih (Nat.succ.inj h)]

theorem length_wire (bytes : List UInt8) : (wire bytes).length = 8 * bytes.length := by
  induction bytes with
  | nil => rfl
  | cons b bytes ih =>
    show (byteBits b ++ wire bytes).length = _
    rw [List.length_append, length_byteBits, ih, List.length_cons]
    omega

/-- What damage does to the CRC does not depend on the message. -/
theorem crc16DnCal_xor {l e : List UInt8} (h : l.length = e.length) (crc : UInt16) :
    crc16DnCal (List.zipWith (· ^^^ ·) l e) crc = crc16DnCal l crc ^^^ crc16DnCal e 0 := by
  apply UInt16.toBitVec_inj.mp
  have hlen : (wire l).length = (wire e).length := by rw [length_wire, length_wire, h]
  have hfeed := feed_xor (p := crcPoly) hlen crc.toBitVec 0#16
  rw [BitVec.xor_zero] at hfeed
  rw [UInt16.toBitVec_xor, crc16DnCal_toBitVec, crc16DnCal_toBitVec, crc16DnCal_toBitVec,
    wire_xor h, hfeed]
  rfl

/-- The slot that `Flash_Read_SYS` reads. -/
def readIndexW (c : At45) (parIndexW : Nat) : Nat :=
  (scanIndexW (c.icReadPage monitorManaIndexW 0 fPageSize)).getD parIndexW

/-- A slot that fails the check leaves the caller's buffer as it is. -/
theorem flashReadSys_of_not_valid {c : At45} {parIndexW : Nat} {fBuf : DataRam}
    (h : ¬ ValidSlot (c.icReadPage (slotPage (readIndexW c parIndexW)) 0 fBuf.len)) :
    flashReadSys c parIndexW fBuf = (readIndexW c parIndexW, fBuf) := by
  unfold ValidSlot At45.icReadPage at h
  rw [length_readBytes] at h
  exact if_neg h

/-- Flips within 16 successive bits of a stored block, wherever they are, do not pass the check
of `Flash_Read_SYS`. -/
theorem parBlock_burst (msg : List UInt8) :
    (∀ f : DataRam, 2 ≤ f.len → f.payload = msg → f.stored = parBlock msg) ∧
    crc16DnCal (parBlock msg) 0xFFFF = 0 ∧
      ∀ e : List UInt8, e.length = msg.length + 2 → IsBurst 16 (wire e) →
        ¬ ValidSlot (List.zipWith (· ^^^ ·) (parBlock msg) e) ∧
          ∀ (c : At45) (parIndexW : Nat) (fBuf : DataRam),
            c.icReadPage (slotPage (readIndexW c parIndexW)) 0 fBuf.len =
                List.zipWith (· ^^^ ·) (parBlock msg) e →
              (flashReadSys c parIndexW fBuf).2 = fBuf := by
  refine ⟨fun f hf hmsg => hmsg ▸ f.stored_parBlock hf, crc16DnCal_parBlock msg,
    fun e hlen hburst => ?_⟩
  have hsame : (parBlock msg).length = e.length := by rw [length_parBlock, hlen]
  have hdamaged : ¬ ValidSlot (List.zipWith (· ^^^ ·) (parBlock msg) e) := by
    intro hvalid
    rw [validSlot_iff (by simp [hlen]), crc16DnCal_xor hsame, crc16DnCal_parBlock,
      UInt16.zero_xor, ← UInt16.toBitVec_inj, crc16DnCal_toBitVec] at hvalid
    exact feed_burst crcPoly_msb hburst hvalid
  refine ⟨hdamaged, fun c parIndexW fBuf hread => ?_⟩
  rw [flashReadSys_of_not_valid (by rwa [hread])]

theorem parBlock_burst_twoBytes : ¬ ValidSlot
    (List.zipWith (· ^^^ ·) (parBlock [0x01, 0x02, 0x03]) [0x00, 0x80, 0xFF, 0x7F, 0x00]) := by
  have hburst : IsBurst 16 (wire [0x00, 0x80, 0xFF, 0x7F, 0x00]) := by
    refine ⟨⟨15, by decide⟩, 15, fun i hi => ?_⟩
    have hlt : i < 40 := by
      by_contra hge
      rw [List.getD_eq_default _ _ (by rw [length_wire]; exact Nat.le_of_not_lt hge)] at hi
      cases hi
    revert hi
    revert i
    decide
  exact ((parBlock_burst [0x01, 0x02, 0x03]).2.2 _ rfl hburst).1

end SC04Monitor.Record
