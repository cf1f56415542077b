import SC04Monitor.Lib.ByteMem

/-! # The record storage

`flash_storage_at45dbxx.c`: regions of a serial flash that hold one kind of
record each, written round and round, and the scan that finds the newest record
at start-up. The CRC is the one of `hardware_crc32.c`; its CRC unit, a function
of the words written to it since its reset, is a parameter. -/

namespace SC04Monitor.Flash
open SC04Monitor.Lib.ByteMem

/-! ## Words and the CRC -/

/-- `*(uint32_t *)` at a byte offset of a buffer. -/
def wordAt (buffer : List UInt8) (i : Nat) : UInt32 :=
  (buffer.getD i 0).toUInt32 + (buffer.getD (i + 1) 0).toUInt32 * 0x100 +
    (buffer.getD (i + 2) 0).toUInt32 * 0x10000 + (buffer.getD (i + 3) 0).toUInt32 * 0x1000000

def wordBytes (w : UInt32) : List UInt8 :=
  [w.toUInt8, (w >>> 8).toUInt8, (w >>> 16).toUInt8, (w >>> 24).toUInt8]

/-- Bytes stored into a buffer from an offset on. -/
def setBytes (buffer : List UInt8) (i : Nat) (bytes : List UInt8) : List UInt8 :=
  buffer.take i ++ bytes ++ buffer.drop (i + bytes.length)

section
variable (crcUnit : List UInt32 → UInt32)

def getCrc (buffer : List UInt8) (size : Nat) : UInt32 :=
  if size < 4 then 0 else crcUnit ((List.range (size / 4)).map fun index => wordAt buffer (4 * index))

def addCrc (buffer : List UInt8) (size : Nat) : List UInt8 :=
  setBytes buffer (size - 4) (wordBytes (getCrc crcUnit buffer (size - 4)))

def checkCrc (buffer : List UInt8) (size : Nat) : Bool :=
  if size > 4 then wordAt buffer (size - 4) == getCrc crcUnit buffer (size - 4) else false

end

/-- `k` bits through the shift register. -/
def crcBits : Nat → Nat → Nat
  | 0, crc => crc
  | k + 1, crc =>
    if crc < 0x80000000 then crcBits k (crc * 2)
    else crcBits k ((crc * 2 - 0x100000000) ^^^ 0x04C11DB7)

/-- The CRC unit of the STM32F4: CRC-32 of the words, most significant bit
first, from all ones. -/
def stm32CrcUnit (words : List UInt32) : UInt32 :=
  .ofNat (words.foldl (fun crc word => crcBits 32 (crc ^^^ word.toNat)) 0xFFFFFFFF)

/-! ## The storage maps -/

def maxStorageBlock : Nat := 5
def maxRetryTimes : Nat := 3
def illegalId : UInt32 := 0xffffffff
def pageNumMax : Nat := 0x4000

/-- `flash_geometry.bytes_per_sector`, set by `spi_flash_at45dbxx.c`. -/
def bytesPerSector : Nat := 512

/-- `sizeof(record_header)`. -/
def recordHeaderSize : Nat := 12

inductive RecordType
  | catalog | par | log | fault | system
  deriving DecidableEq

def RecordType.code : RecordType → Nat
  | catalog => 0
  | par => 1
  | log => 2
  | fault => 3
  | system => 4

def RecordType.ofCode : Nat → Option RecordType
  | 0 => some catalog
  | 1 => some par
  | 2 => some log
  | 3 => some fault
  | 4 => some system
  | _ => none

/-- `storage_map`. Its pages lie below `pageNumMax`; the id is an `int` that
`write_record` increments for ever. -/
structure StorageMap where
  startPage : Nat
  endPage : Nat
  pagePerRecord : Nat
  type : Nat
  currentPage : Nat
  currentId : Int32
  deriving DecidableEq

/-- The static variables of the file and the bytes of the flash, page by page. -/
structure Storage where
  maps : RecordType → StorageMap
  currentIndex : Nat
  currentPage : Nat
  flash : Mem

/-- Before any call; the flash holds what it holds. -/
def Storage.reset (flash : Mem) : Storage where
  maps _ := ⟨0, 0, 0, 0, 0, 0⟩
  currentIndex := 0
  currentPage := 0
  flash := flash

/-- `none` is a failed `RT_ASSERT`, which stops the system. -/
def storageDistribute (s : Storage) (pages pagePerRecord : Nat) (type : RecordType) :
    Option Storage :=
  if maxStorageBlock ≥ s.currentIndex ∧ type.code = s.currentIndex ∧
      s.currentPage + pages ≤ pageNumMax then
    some { s with
      maps := Function.update s.maps type
        { startPage := s.currentPage
          endPage := s.currentPage + pages - 1
          pagePerRecord := pagePerRecord
          type := type.code
          currentPage := s.currentPage
          currentId := 0 }
      currentIndex := s.currentIndex + 1
      currentPage := s.currentPage + pages }
  else none

/-! ## The flash device -/

/-- What one attempt to write leaves in the pages it is given bytes for. -/
structure Attempt where
  store : List UInt8 → List UInt8
  length_store : ∀ bytes, (store bytes).length = bytes.length

/-- A flash that stores what it is given. -/
def Attempt.exact : Attempt := ⟨id, fun _ => rfl⟩

/-- `rt_device_read` of whole pages. -/
def deviceRead (flash : Mem) (page pages : Nat) : List UInt8 :=
  readBytes flash (page * bytesPerSector) (pages * bytesPerSector)

/-- `rt_device_write` of whole pages. -/
def deviceWrite (attempt : Attempt) (flash : Mem) (page : Nat) (bytes : List UInt8) : Mem :=
  writeBytes flash (page * bytesPerSector) (attempt.store bytes)

/-! ## Writing a record -/

def StorageMap.sizePerRecord (map : StorageMap) : Nat := map.pagePerRecord * bytesPerSector

/-- The map that a write works with: the next page, unless the region was never
used, and the next id. -/
def StorageMap.advance (map : StorageMap) : StorageMap :=
  let currentPage :=
    if map.currentId ≠ 0 then
      if map.currentPage + map.pagePerRecord > map.endPage then map.startPage
      else map.currentPage + map.pagePerRecord
    else map.currentPage
  { map with currentPage := currentPage, currentId := map.currentId + 1 }

section
variable (crcUnit : List UInt32 → UInt32)

/-- The padded record that `write_record` builds in `tmp`. -/
def StorageMap.padded (map : StorageMap) (data : List UInt8) (unixTime : UInt32) : List UInt8 :=
  let tmp := List.replicate map.sizePerRecord 0
  let tmp := setBytes tmp 0 (wordBytes map.currentId.toUInt32)
  let tmp := setBytes tmp 4 (wordBytes unixTime)
  let tmp := setBytes tmp 8 data
  addCrc crcUnit tmp map.sizePerRecord

/-- The retry loop with `k` attempts left. The buffer that is written is also
the one that is read back into. -/
def writeRetry (device : Nat → Attempt) (map : StorageMap) : Nat → Mem → List UInt8 → Bool × Mem
  | 0, flash, _ => (false, flash)
  | k + 1, flash, tmp =>
    let flash := deviceWrite (device (maxRetryTimes - (k + 1))) flash map.currentPage tmp
    let tmp := deviceRead flash map.currentPage map.pagePerRecord
    if checkCrc crcUnit tmp map.sizePerRecord then (true, flash)
    else writeRetry device map k flash tmp

def writeRecord (device : Nat → Attempt) (s : Storage) (data : List UInt8) (unixTime : UInt32)
    (type : RecordType) : Option (Bool × Storage) :=
  let map := s.maps type
  if data.length ≤ map.sizePerRecord - recordHeaderSize then
    let map := map.advance
    let (result, flash) :=
      writeRetry crcUnit device map maxRetryTimes s.flash (map.padded crcUnit data unixTime)
    some (result, { s with maps := Function.update s.maps type map, flash := flash })
  else none

/-! ## Reading a record -/

/-- What `flash_storage_read` does: nothing, a read of pages into the caller's
buffer with the value it returns, or a request to the storage thread that names
the same pages. -/
inductive ReadReply
  | nothing
  | data (page : Int) (bytes : List UInt8) (result : Nat)
  | queued (page : Int) (pages : Nat)

def StorageMap.maxRecord (map : StorageMap) : Nat :=
  (map.endPage - map.startPage) / map.pagePerRecord

def StorageMap.pageOffset (map : StorageMap) (index : Nat) : Int :=
  let offset : Int := map.currentPage - index * map.pagePerRecord
  if offset < map.startPage then offset + (map.endPage - map.startPage) else offset

/-- `type << 16 | index`, the position that names a record. -/
def recordPos (type : RecordType) (index : Nat) : Nat := type.code * 65536 + index

/-- A `size` from `65535` on is the address of a callback. -/
def flashStorageRead (s : Storage) (pos size : Nat) : Option ReadReply :=
  let index := pos % 65536
  match RecordType.ofCode (pos / 65536 % 16) with
  | none => none
  | some type =>
    let map := s.maps type
    if map.currentId > Int32.ofNat index ∧ index < map.maxRecord then
      let offset := map.pageOffset index
      if size < 65535 then
        let buffer := deviceRead s.flash offset.toNat map.pagePerRecord
        if checkCrc crcUnit buffer map.sizePerRecord then
          some (.data offset buffer map.sizePerRecord)
        else some (.data offset buffer 0)
      else if size / 0x1000000 = 0x08 then some (.queued offset map.pagePerRecord)
      else some .nothing
    else some .nothing

/-! ## The scan at start-up -/

/-- The variables of the loop of `scan_flash`. -/
structure Scan where
  map : StorageMap
  searchPage : Nat
  forward : Nat
  result : Bool

def Scan.start (map : StorageMap) : Scan where
  map := map
  searchPage := map.currentPage
  forward := if 8 / map.pagePerRecord < 2 then 2 else 8 / map.pagePerRecord
  result := false

/-- What the body of the loop makes of the pages it has read. -/
def Scan.examine (sc : Scan) (buffer : List UInt8) : Scan :=
  if checkCrc crcUnit buffer sc.map.sizePerRecord then
    let id := (wordAt buffer 0).toInt32
    if id > sc.map.currentId then
      { sc with map := { sc.map with currentId := id, currentPage := sc.searchPage }, result := true }
    else { sc with forward := sc.forward - 1 }
  else if wordAt buffer 0 = illegalId then { sc with forward := sc.forward - 1 }
  else sc

def Scan.body (flash : Mem) (sc : Scan) : Scan :=
  let sc := sc.examine crcUnit (deviceRead flash sc.searchPage sc.map.pagePerRecord)
  let searchPage := sc.searchPage + sc.map.pagePerRecord
  { sc with searchPage := if searchPage > sc.map.endPage then sc.map.startPage else searchPage }

/-- The `do ... while` loop; `none` when the fuel is used up. -/
def Scan.loop (flash : Mem) (startSearchPage : Nat) : Nat → Scan → Option Scan
  | 0, _ => none
  | fuel + 1, sc =>
    let sc := sc.body crcUnit flash
    if sc.searchPage ≠ startSearchPage ∧ sc.forward > 0 then
      Scan.loop flash startSearchPage fuel sc
    else some sc

def scanFlash (fuel : Nat) (flash : Mem) (map : StorageMap) : Option (Bool × StorageMap) :=
  (Scan.loop crcUnit flash map.currentPage fuel (.start map)).map fun sc => (sc.result, sc.map)

end

end SC04Monitor.Flash
