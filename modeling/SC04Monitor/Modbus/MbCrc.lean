import SC04Monitor.Record.Crc16

/-! # The CRC of a Modbus frame

`usMBCRC16` of `mbcrc.c` keeps the two halves of the register apart and has a table for each.
It is `CRC16_Dn_Cal` under another name: the two tables are the bytes of `CRC16_Dn_ByteTab`. -/

namespace SC04Monitor.Modbus
open SC04Monitor.Lib.ByteMem SC04Monitor.Lib.WordMem SC04Monitor.Lib.Crc SC04Monitor.Record

/-- `aucCRCHi`. -/
def aucCRCHi : List UInt8 :=
  [0x00, 0xC1, 0x81, 0x40, 0x01, 0xC0, 0x80, 0x41, 0x01, 0xC0, 0x80, 0x41, 0x00, 0xC1, 0x81, 0x40,
   0x01, 0xC0, 0x80, 0x41, 0x00, 0xC1, 0x81, 0x40, 0x00, 0xC1, 0x81, 0x40, 0x01, 0xC0, 0x80, 0x41,
   0x01, 0xC0, 0x80, 0x41, 0x00, 0xC1, 0x81, 0x40, 0x00, 0xC1, 0x81, 0x40, 0x01, 0xC0, 0x80, 0x41,
   0x00, 0xC1, 0x81, 0x40, 0x01, 0xC0, 0x80, 0x41, 0x01, 0xC0, 0x80, 0x41, 0x00, 0xC1, 0x81, 0x40,
   0x01, 0xC0, 0x80, 0x41, 0x00, 0xC1, 0x81, 0x40, 0x00, 0xC1, 0x81, 0x40, 0x01, 0xC0, 0x80, 0x41,
   0x00, 0xC1, 0x81, 0x40, 0x01, 0xC0, 0x80, 0x41, 0x01, 0xC0, 0x80, 0x41, 0x00, 0xC1, 0x81, 0x40,
   0x00, 0xC1, 0x81, 0x40, 0x01, 0xC0, 0x80, 0x41, 0x01, 0xC0, 0x80, 0x41, 0x00, 0xC1, 0x81, 0x40,
   0x01, 0xC0, 0x80, 0x41, 0x00, 0xC1, 0x81, 0x40, 0x00, 0xC1, 0x81, 0x40, 0x01, 0xC0, 0x80, 0x41,
   0x01, 0xC0, 0x80, 0x41, 0x00, 0xC1, 0x81, 0x40, 0x00, 0xC1, 0x81, 0x40, 0x01, 0xC0, 0x80, 0x41,
   0x00, 0xC1, 0x81, 0x40, 0x01, 0xC0, 0x80, 0x41, 0x01, 0xC0, 0x80, 0x41, 0x00, 0xC1, 0x81, 0x40,
   0x00, 0xC1, 0x81, 0x40, 0x01, 0xC0, 0x80, 0x41, 0x01, 0xC0, 0x80, 0x41, 0x00, 0xC1, 0x81, 0x40,
   0x01, 0xC0, 0x80, 0x41, 0x00, 0xC1, 0x81, 0x40, 0x00, 0xC1, 0x81, 0x40, 0x01, 0xC0, 0x80, 0x41,
   0x00, 0xC1, 0x81, 0x40, 0x01, 0xC0, 0x80, 0x41, 0x01, 0xC0, 0x80, 0x41, 0x00, 0xC1, 0x81, 0x40,
   0x01, 0xC0, 0x80, 0x41, 0x00, 0xC1, 0x81, 0x40, 0x00, 0xC1, 0x81, 0x40, 0x01, 0xC0, 0x80, 0x41,
   0x01, 0xC0, 0x80, 0x41, 0x00, 0xC1, 0x81, 0x40, 0x00, 0xC1, 0x81, 0x40, 0x01, 0xC0, 0x80, 0x41,
   0x00, 0xC1, 0x81, 0x40, 0x01, 0xC0, 0x80, 0x41, 0x01, 0xC0, 0x80, 0x41, 0x00, 0xC1, 0x81, 0x40]

/-- `aucCRCLo`. -/
def aucCRCLo : List UInt8 :=
  [0x00, 0xC0, 0xC1, 0x01, 0xC3, 0x03, 0x02, 0xC2, 0xC6, 0x06, 0x07, 0xC7, 0x05, 0xC5, 0xC4, 0x04,
   0xCC, 0x0C, 0x0D, 0xCD, 0x0F, 0xCF, 0xCE, 0x0E, 0x0A, 0xCA, 0xCB, 0x0B, 0xC9, 0x09, 0x08, 0xC8,
   0xD8, 0x18, 0x19, 0xD9, 0x1B, 0xDB, 0xDA, 0x1A, 0x1E, 0xDE, 0xDF, 0x1F, 0xDD, 0x1D, 0x1C, 0xDC,
   0x14, 0xD4, 0xD5, 0x15, 0xD7, 0x17, 0x16, 0xD6, 0xD2, 0x12, 0x13, 0xD3, 0x11, 0xD1, 0xD0, 0x10,
   0xF0, 0x30, 0x31, 0xF1, 0x33, 0xF3, 0xF2, 0x32, 0x36, 0xF6, 0xF7, 0x37, 0xF5, 0x35, 0x34, 0xF4,
   0x3C, 0xFC, 0xFD, 0x3D, 0xFF, 0x3F, 0x3E, 0xFE, 0xFA, 0x3A, 0x3B, 0xFB, 0x39, 0xF9, 0xF8, 0x38,
   0x28, 0xE8, 0xE9, 0x29, 0xEB, 0x2B, 0x2A, 0xEA, 0xEE, 0x2E, 0x2F, 0xEF, 0x2D, 0xED, 0xEC, 0x2C,
   0xE4, 0x24, 0x25, 0xE5, 0x27, 0xE7, 0xE6, 0x26, 0x22, 0xE2, 0xE3, 0x23, 0xE1, 0x21, 0x20, 0xE0,
   0xA0, 0x60, 0x61, 0xA1, 0x63, 0xA3, 0xA2, 0x62, 0x66, 0xA6, 0xA7, 0x67, 0xA5, 0x65, 0x64, 0xA4,
   0x6C, 0xAC, 0xAD, 0x6D, 0xAF, 0x6F, 0x6E, 0xAE, 0xAA, 0x6A, 0x6B, 0xAB, 0x69, 0xA9, 0xA8, 0x68,
   0x78, 0xB8, 0xB9, 0x79, 0xBB, 0x7B, 0x7A, 0xBA, 0xBE, 0x7E, 0x7F, 0xBF, 0x7D, 0xBD, 0xBC, 0x7C,
   0xB4, 0x74, 0x75, 0xB5, 0x77, 0xB7, 0xB6, 0x76, 0x72, 0xB2, 0xB3, 0x73, 0xB1, 0x71, 0x70, 0xB0,
   0x50, 0x90, 0x91, 0x51, 0x93, 0x53, 0x52, 0x92, 0x96, 0x56, 0x57, 0x97, 0x55, 0x95, 0x94, 0x54,
   0x9C, 0x5C, 0x5D, 0x9D, 0x5F, 0x9F, 0x9E, 0x5E, 0x5A, 0x9A, 0x9B, 0x5B, 0x99, 0x59, 0x58, 0x98,
   0x88, 0x48, 0x49, 0x89, 0x4B, 0x8B, 0x8A, 0x4A, 0x4E, 0x8E, 0x8F, 0x4F, 0x8D, 0x4D, 0x4C, 0x8C,
   0x44, 0x84, 0x85, 0x45, 0x87, 0x47, 0x46, 0x86, 0x82, 0x42, 0x43, 0x83, 0x41, 0x81, 0x80, 0x40]

/-- The loop of `usMBCRC16` with `usLen` bytes left at `p`. -/
def usMBCRC16Loop (pucFrame : Mem) : (usLen p : Nat) → (ucCRCHi ucCRCLo : UInt8) → UInt16
  | 0, _, ucCRCHi, ucCRCLo => ucCRCHi.toUInt16 <<< 8 ||| ucCRCLo.toUInt16
  | usLen + 1, p, ucCRCHi, ucCRCLo =>
    let iIndex := (ucCRCLo ^^^ pucFrame p).toNat
    usMBCRC16Loop pucFrame usLen (p + 1) (aucCRCLo.getD iIndex 0)
      (ucCRCHi ^^^ aucCRCHi.getD iIndex 0)

/-- `usMBCRC16` of the `usLen` bytes at `p`. -/
def usMBCRC16 (pucFrame : Mem) (p usLen : Nat) : UInt16 :=
  usMBCRC16Loop pucFrame usLen p 0xFF 0xFF

/-! ## One CRC -/

/-- The two tables are the bytes of the one of `crc16.c`. -/
theorem aucCRC_eq : ∀ i < 256, crc16DnByteTab.getD i 0 =
    (aucCRCLo.getD i 0).toUInt16 <<< 8 ||| (aucCRCHi.getD i 0).toUInt16 := by
  decide +kernel

/-- The low half of the register is put into the high half of the table entry. -/
theorem xor_halves (a h l : UInt8) :
    a.toUInt16 ^^^ (h.toUInt16 <<< 8 ||| l.toUInt16) = h.toUInt16 <<< 8 ||| (a ^^^ l).toUInt16 := by
  refine UInt16.toBitVec_inj.mp (BitVec.eq_of_getLsbD_eq fun i hi => ?_)
  by_cases hlow : i < 8
  · simp [hlow]
  · have hhigh : 8 ≤ i := Nat.le_of_not_lt hlow
    simp [hlow, BitVec.getLsbD_of_ge a.toBitVec i hhigh, BitVec.getLsbD_of_ge l.toBitVec i hhigh]

theorem toUInt8_halves (h l : UInt8) : (h.toUInt16 <<< 8 ||| l.toUInt16).toUInt8 = l := by
  have hlo := l.toNat_lt
  refine UInt8.toNat_inj.mp ?_
  rw [UInt16.toNat_toUInt8, toNat_orBytes]
  omega

theorem high_halves (h l : UInt8) : (h.toUInt16 <<< 8 ||| l.toUInt16) >>> 8 = h.toUInt16 := by
  have hlo := l.toNat_lt
  refine UInt16.toNat_inj.mp ?_
  rw [UInt16.toNat_shiftRight, toNat_orBytes]
  simp [Nat.shiftRight_eq_div_pow]
  omega

theorem crc16DnByte_halves (hi lo b : UInt8) :
    crc16DnByte (hi.toUInt16 <<< 8 ||| lo.toUInt16) b =
      (aucCRCLo.getD (lo ^^^ b).toNat 0).toUInt16 <<< 8 |||
        (hi ^^^ aucCRCHi.getD (lo ^^^ b).toNat 0).toUInt16 := by
  unfold crc16DnByte
  rw [toUInt8_halves, high_halves, aucCRC_eq _ (UInt8.toNat_lt _), xor_halves]

theorem usMBCRC16Loop_eq (pucFrame : Mem) (n p : Nat) (hi lo : UInt8) :
    usMBCRC16Loop pucFrame n p hi lo =
      crc16DnCal (readBytes pucFrame p n) (hi.toUInt16 <<< 8 ||| lo.toUInt16) := by
  induction n generalizing p hi lo with
  | zero => rfl
  | succ n ih =>
    rw [usMBCRC16Loop, ih, readBytes_succ, ← crc16DnByte_halves]
    rfl

theorem usMBCRC16_eq (pucFrame : Mem) (p n : Nat) :
    usMBCRC16 pucFrame p n = crc16DnCal (readBytes pucFrame p n) 0xFFFF :=
  usMBCRC16Loop_eq pucFrame n p 0xFF 0xFF

end SC04Monitor.Modbus
