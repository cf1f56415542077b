import SC04Monitor.Lib.PowerLoss
import SC04Monitor.Lib.ByteMem

/-! # The parameter pages

`Flash_Write_SYS` and `Flash_Read_SYS` of `app_flash.c`, with what they use of
`at45Drv.c` and of `crc16.c`. The payload goes round over the pages 0 to 98; the
management page tells the current one by its number of flags. The writer is a
computation that the supply can cut before every operation of the chip. -/

namespace SC04Monitor.Record
open SC04Monitor.Lib.ByteMem SC04Monitor.Lib.PowerLoss

/-! ## The chip -/

/-- The AT45DB161 with its buffer 1 and its pages; every operation is atomic. -/
structure At45 where
  buf1 : Mem
  page : Nat → Mem

/-- `F_PAGE_SIZE`. -/
def fPageSize : Nat := 528

/-- The twelve bits of a page number that a command carries. -/
def pageAddr (page : Nat) : Nat := page % 0x1000

namespace At45

/-- An erased chip; the buffer holds anything. -/
def erased (buf1 : Mem) : At45 := ⟨buf1, fun _ _ => 0xFF⟩

/-- `ICWriteBuf1`. -/
def icWriteBuf1 (byteAddr : Nat) (data : List UInt8) (c : At45) : At45 :=
  { c with buf1 := writeBytes c.buf1 byteAddr data }

/-- `ICBuf1ToPage`, which erases the page. -/
def icBuf1ToPage (page : Nat) (c : At45) : At45 :=
  { c with page := Function.update c.page (pageAddr page) c.buf1 }

/-- `ICBuf1ToPageN`: without an erase programming only clears bits. -/
def icBuf1ToPageN (page : Nat) (c : At45) : At45 :=
  { c with page := Function.update c.page (pageAddr page) fun i =>
      c.page (pageAddr page) i &&& c.buf1 i }

/-- `ICReadPage`. -/
def icReadPage (page byteAddr size : Nat) (c : At45) : List UInt8 :=
  readBytes (c.page (pageAddr page)) byteAddr size

end At45

/-! ## The CRC -/

/-- `CRC16_Dn_ByteTab`. -/
def crc16DnByteTab : List UInt16 :=
  [0x0000, 0xC0C1, 0xC181, 0x0140, 0xC301, 0x03C0, 0x0280, 0xC241,
   0xC601, 0x06C0, 0x0780, 0xC741, 0x0500, 0xC5C1, 0xC481, 0x0440,
   0xCC01, 0x0CC0, 0x0D80, 0xCD41, 0x0F00, 0xCFC1, 0xCE81, 0x0E40,
   0x0A00, 0xCAC1, 0xCB81, 0x0B40, 0xC901, 0x09C0, 0x0880, 0xC841,
   0xD801, 0x18C0, 0x1980, 0xD941, 0x1B00, 0xDBC1, 0xDA81, 0x1A40,
   0x1E00, 0xDEC1, 0xDF81, 0x1F40, 0xDD01, 0x1DC0, 0x1C80, 0xDC41,
   0x1400, 0xD4C1, 0xD581, 0x1540, 0xD701, 0x17C0, 0x1680, 0xD641,
   0xD201, 0x12C0, 0x1380, 0xD341, 0x1100, 0xD1C1, 0xD081, 0x1040,
   0xF001, 0x30C0, 0x3180, 0xF141, 0x3300, 0xF3C1, 0xF281, 0x3240,
   0x3600, 0xF6C1, 0xF781, 0x3740, 0xF501, 0x35C0, 0x3480, 0xF441,
   0x3C00, 0xFCC1, 0xFD81, 0x3D40, 0xFF01, 0x3FC0, 0x3E80, 0xFE41,
   0xFA01, 0x3AC0, 0x3B80, 0xFB41, 0x3900, 0xF9C1, 0xF881, 0x3840,
   0x2800, 0xE8C1, 0xE981, 0x2940, 0xEB01, 0x2BC0, 0x2A80, 0xEA41,
   0xEE01, 0x2EC0, 0x2F80, 0xEF41, 0x2D00, 0xEDC1, 0xEC81, 0x2C40,
   0xE401, 0x24C0, 0x2580, 0xE541, 0x2700, 0xE7C1, 0xE681, 0x2640,
   0x2200, 0xE2C1, 0xE381, 0x2340, 0xE101, 0x21C0, 0x2080, 0xE041,
   0xA001, 0x60C0, 0x6180, 0xA141, 0x6300, 0xA3C1, 0xA281, 0x6240,
   0x6600, 0xA6C1, 0xA781, 0x6740, 0xA501, 0x65C0, 0x6480, 0xA441,
   0x6C00, 0xACC1, 0xAD81, 0x6D40, 0xAF01, 0x6FC0, 0x6E80, 0xAE41,
   0xAA01, 0x6AC0, 0x6B80, 0xAB41, 0x6900, 0xA9C1, 0xA881, 0x6840,
   0x7800, 0xB8C1, 0xB981, 0x7940, 0xBB01, 0x7BC0, 0x7A80, 0xBA41,
   0xBE01, 0x7EC0, 0x7F80, 0xBF41, 0x7D00, 0xBDC1, 0xBC81, 0x7C40,
   0xB401, 0x74C0, 0x7580, 0xB541, 0x7700, 0xB7C1, 0xB681, 0x7640,
   0x7200, 0xB2C1, 0xB381, 0x7340, 0xB101, 0x71C0, 0x7080, 0xB041,
   0x5000, 0x90C1, 0x9181, 0x5140, 0x9301, 0x53C0, 0x5280, 0x9241,
   0x9601, 0x56C0, 0x5780, 0x9741, 0x5500, 0x95C1, 0x9481, 0x5440,
   0x9C01, 0x5CC0, 0x5D80, 0x9D41, 0x5F00, 0x9FC1, 0x9E81, 0x5E40,
   0x5A00, 0x9AC1, 0x9B81, 0x5B40, 0x9901, 0x59C0, 0x5880, 0x9841,
   0x8801, 0x48C0, 0x4980, 0x8941, 0x4B00, 0x8BC1, 0x8A81, 0x4A40,
   0x4E00, 0x8EC1, 0x8F81, 0x4F40, 0x8D01, 0x4DC0, 0x4C80, 0x8C41,
   0x4400, 0x84C1, 0x8581, 0x4540, 0x8701, 0x47C0, 0x4680, 0x8641,
   0x8201, 0x42C0, 0x4380, 0x8341, 0x4100, 0x81C1, 0x8081, 0x4040]

/-- One byte of the CRC. -/
def crc16DnByte (crc : UInt16) (dat : UInt8) : UInt16 :=
  crc >>> 8 ^^^ crc16DnByteTab.getD (crc.toUInt8 ^^^ dat).toNat 0

/-- `CRC16_Dn_Cal`. -/
def crc16DnCal (dat : List UInt8) (startCrc : UInt16) : UInt16 := dat.foldl crc16DnByte startCrc

/-! ## Writing -/

/-- `FLASH_FLAG`. -/
def flashFlag : UInt8 := 0x68

/-- `Monitor_mana_IndexW`, the management page. -/
def monitorManaIndexW : Nat := 101

/-- `DATA_RAM`, its length and its bytes. -/
structure DataRam where
  len : Nat
  dataRam : Mem

/-- What the caller wants stored: the last two bytes are for the CRC. -/
def DataRam.payload (f : DataRam) : List UInt8 := readBytes f.dataRam 0 (f.len - 2)

/-- The CRC behind the payload. -/
def DataRam.addCrc (f : DataRam) : DataRam :=
  let valW := crc16DnCal f.payload 0xFFFF
  { f with dataRam := writeBytes f.dataRam (f.len - 2) [valW.toUInt8, (valW >>> 8).toUInt8] }

/-- `_ParMan` for an index: so many flags. -/
def parMan (parIndexW : Nat) : List UInt8 :=
  (List.range fPageSize).map fun i => if i < parIndexW then flashFlag else 0xFF

/-- The next `par_IndexW`, a `u8`. -/
def nextIndexW (parIndexW : Nat) : Nat := if parIndexW = 99 then 1 else (parIndexW + 1) % 0x100

/-- The page number `par_IndexW-1`, a `u16`. -/
def slotPage (parIndexW : Nat) : Nat := (parIndexW + 0xFFFF) % 0x10000

/-- The loops that write bytes, program a page and compare, with `k` attempts left. -/
def programVerified (program : Nat → At45 → At45) (page : Nat) (data : List UInt8) :
    Nat → Powered At45 Unit
  | 0 => pure ()
  | k + 1 => do
    act (At45.icWriteBuf1 0 data)
    act (program page)
    let crcData ← look (At45.icReadPage page 0 data.length)
    if data = crcData then pure () else programVerified program page data k

/-- `Flash_Write_SYS`: the new index and the buffer with its CRC. Only the first slot
erases the management page. -/
def flashWriteSys (parIndexW : Nat) (fBuf : DataRam) : Powered At45 (Nat × DataRam) := do
  let parIndexW := nextIndexW parIndexW
  let program := if parIndexW = 1 then At45.icBuf1ToPage else At45.icBuf1ToPageN
  programVerified program monitorManaIndexW (parMan parIndexW) 3
  let fBuf := fBuf.addCrc
  programVerified At45.icBuf1ToPage (slotPage parIndexW) (readBytes fBuf.dataRam 0 fBuf.len) 3
  pure (parIndexW, fBuf)

/-! ## Reading -/

/-- The index that the management page tells: its first byte without a flag. -/
def scanIndexW (mana : List UInt8) : Option Nat :=
  (List.range 100).find? fun i => mana.getD i 0 ≠ flashFlag

/-- `Flash_Read_SYS`: a buffer with a wrong CRC is not delivered, and the caller's stays
as it is. -/
def flashReadSys (c : At45) (parIndexW : Nat) (fBuf : DataRam) : Nat × DataRam :=
  let parIndexW := (scanIndexW (c.icReadPage monitorManaIndexW 0 fPageSize)).getD parIndexW
  let dataRam := c.icReadPage (slotPage parIndexW) 0 fBuf.len
  let valW := crc16DnCal (dataRam.take (fBuf.len - 2)) 0xFFFF
  let crcl := (dataRam.getD (fBuf.len - 2) 0).toUInt16
  let crch := (dataRam.getD (fBuf.len - 1) 0).toUInt16
  if crcl ||| crch <<< 8 = valW then
    (parIndexW, { fBuf with dataRam := writeBytes fBuf.dataRam 0 (dataRam.take (fBuf.len - 2)) })
  else (parIndexW, fBuf)

end SC04Monitor.Record
