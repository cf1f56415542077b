import SC04Monitor.Flash.Regions
import SC04Monitor.Flash.WriteBuffer
import SC04Monitor.Flash.WriteRetry
import SC04Monitor.UserApp.LogicTask

/-! # Loading the stored parameters

`sys_par_read` has the newest parameter record read into a block from the heap and copies
the parameters out of the block, whatever `flash_storage_read` returns. What it finds there
is the record, pages that fail their CRC, or what the block held before. -/

namespace SC04Monitor.Flash
open SC04Monitor.Lib.ByteMem

/-- The value that `flash_storage_read` returns. -/
def ReadReply.result : ReadReply → Nat
  | .data _ _ result => result
  | .nothing => 0
  | .queued _ _ => 0

/-- What it leaves in the caller's buffer. -/
def ReadReply.fill (buffer : Mem) : ReadReply → Mem
  | .data _ bytes _ => writeBytes buffer 0 bytes
  | .nothing => buffer
  | .queued _ _ => buffer

end SC04Monitor.Flash

namespace SC04Monitor.UserApp
open SC04Monitor.Lib.Run SC04Monitor.Lib.ByteMem SC04Monitor.Flash

/-! ## `sys_par_read` -/

/-- The parameters behind the header of a record. -/
def recordPara (buffer : Mem) : MBPara := readVector buffer 8 28

section
variable (crcUnit : List UInt32 → UInt32)

/-- `sys_par_read`; `readBuf` is what the block from `rt_malloc` holds. -/
def sysParRead (s : Storage) (readBuf : Mem) (lga : Lga) : Option Lga :=
  (flashStorageRead crcUnit s (recordPos .par 0) 512).map fun reply =>
    let readBuf := reply.fill readBuf
    let lga := { lga with mbPara := recordPara readBuf }
    { lga with mbWrPara := lga.mbPara }

end

/-- A round of the logic task that reads the parameters. -/
theorem userRecord_sysParRead {crcUnit : List UInt32 → UInt32} {s : Storage} {readBuf : Mem}
    {i : TickIn} {t : Logic} {lga : Lga} (hw : t.lga.wParFlag = false)
    (hr : t.lga.rParFlag = true)
    (hread : sysParRead crcUnit s readBuf { t.lga with rParFlag := false } = some lga)
    (hi : i.storedPara = lga.mbPara) : (t.userRecord i).lga = lga := by
  unfold sysParRead at hread
  obtain ⟨reply, -, rfl⟩ := Option.map_eq_some_iff.mp hread
  unfold Logic.userRecord
  simp only [hw, hr, hi, Bool.false_eq_true, ↓reduceIte]

/-! ## The newest record -/

/-- The storage has a newest parameter record. -/
def HasRecord (s : Storage) : Prop := 0 < (s.maps .par).currentId ∧ 0 < (s.maps .par).maxRecord

instance (s : Storage) : Decidable (HasRecord s) := inferInstanceAs (Decidable (_ ∧ _))

/-- The pages of the newest parameter record. -/
def newestPages (s : Storage) : List UInt8 :=
  deviceRead s.flash (s.maps .par).currentPage (s.maps .par).pagePerRecord

/-- The parameters in these pages. -/
def pagePara (s : Storage) : MBPara :=
  readVector s.flash ((s.maps .par).currentPage * bytesPerSector + 8) 28

/-- A call of `sys_par_write`: what it was passed, and what the storage thread found in the
block of the call when it wrote the record. -/
structure ParWrite where
  passed : MBPara
  found : MBPara

section
variable (crcUnit : List UInt32 → UInt32) (s : Storage)

/-- The newest record is the one of this call, unless its pages fail the CRC. -/
def Stores (w : ParWrite) : Prop :=
  checkCrc crcUnit (newestPages s) (s.maps .par).sizePerRecord = true →
    ∃ unixTime, newestPages s = (s.maps .par).padded crcUnit w.found.toList unixTime

/-- A read that gives no record leaves the two copies of the parameters as they were; one
that does loads what was passed for it. -/
def LoadSafe (readBuf : Mem) (lga : Lga) (passed : MBPara) : Prop :=
  ∃ reply lga', flashStorageRead crcUnit s (recordPos .par 0) 512 = some reply ∧
    sysParRead crcUnit s readBuf lga = some lga' ∧
    (reply.result = 0 → lga'.mbPara = lga.mbPara ∧ lga'.mbWrPara = lga.mbWrPara) ∧
    (reply.result ≠ 0 → lga'.mbPara = passed ∧ lga'.mbWrPara = passed)

/-- Where there is a record with a valid CRC, the storage thread found what was passed; where
there is none, the bytes that are copied happen to be both copies of the parameters. -/
def LoadsRight (readBuf : Mem) (lga : Lga) (w : ParWrite) : Prop :=
  if HasRecord s then
    if checkCrc crcUnit (newestPages s) (s.maps .par).sizePerRecord then w.found = w.passed
    else pagePara s = lga.mbPara ∧ pagePara s = lga.mbWrPara
  else recordPara readBuf = lga.mbPara ∧ recordPara readBuf = lga.mbWrPara

end

section
variable {crcUnit : List UInt32 → UInt32} {s s' : Storage} {readBuf : Mem} {lga : Lga}
  {w : ParWrite}

/-- What `sys_par_read` does, from what the read gives. -/
theorem loadSafe_iff {reply : ReadReply} {passed : MBPara}
    (h : flashStorageRead crcUnit s (recordPos .par 0) 512 = some reply) :
    LoadSafe crcUnit s readBuf lga passed ↔
      if reply.result = 0 then
        recordPara (reply.fill readBuf) = lga.mbPara ∧
          recordPara (reply.fill readBuf) = lga.mbWrPara
      else recordPara (reply.fill readBuf) = passed := by
  unfold LoadSafe sysParRead
  rw [h]
  simp only [Option.some.injEq, Option.map_some, exists_and_left, exists_eq_left']
  split_ifs with hzero
  · simp [hzero]
  · simp [hzero]

theorem flashStorageRead_none (h : ¬ HasRecord s) :
    flashStorageRead crcUnit s (recordPos .par 0) 512 = some .nothing := by
  rw [flashStorageRead_eq (recordPos_index (by decide)) (recordPos_type (by decide))]
  exact if_neg h

theorem flashStorageRead_newest (hstart : (s.maps .par).startPage ≤ (s.maps .par).currentPage)
    (h : HasRecord s) : flashStorageRead crcUnit s (recordPos .par 0) 512 =
      some (.data (s.maps .par).currentPage (newestPages s)
        (if checkCrc crcUnit (newestPages s) (s.maps .par).sizePerRecord then
          (s.maps .par).sizePerRecord else 0)) := by
  have hpos : (s.maps .par).currentId > Int32.ofNat 0 ∧ 0 < (s.maps .par).maxRecord := h
  rw [flashStorageRead_eq (recordPos_index (by decide)) (recordPos_type (by decide)), if_pos hpos,
    if_pos (by decide)]
  simp only [pageOffset_zero hstart, Int.toNat_natCast]
  unfold newestPages
  split_ifs <;> rfl

/-- A byte of the newest record. -/
theorem newestPages_getD (hppr : 0 < (s.maps .par).pagePerRecord) {j : Nat} (hj : j < 28) :
    (newestPages s).getD (8 + j) 0 =
      s.flash ((s.maps .par).currentPage * bytesPerSector + 8 + j) := by
  have hlen : (newestPages s).length = (s.maps .par).sizePerRecord := length_readBytes _ _ _
  have hsize := sizePerRecord_pos hppr
  rw [List.getD_eq_getElem _ _ (by omega)]
  simp only [newestPages, deviceRead, readBytes, List.getElem_map, List.getElem_range,
    Nat.add_assoc]

/-- The parameters come from the pages that were read. -/
theorem recordPara_fill (hppr : 0 < (s.maps .par).pagePerRecord) (page : Int) (result : Nat) :
    recordPara ((ReadReply.data page (newestPages s) result).fill readBuf) = pagePara s := by
  have hlen : (newestPages s).length = (s.maps .par).sizePerRecord := length_readBytes _ _ _
  have hsize := sizePerRecord_pos hppr
  unfold recordPara pagePara readVector
  refine congrArg Vector.ofFn (funext fun j => ?_)
  have hj : (j : Nat) < 28 := j.isLt
  rw [← newestPages_getD hppr j.isLt]
  unfold ReadReply.fill
  dsimp only
  rw [writeBytes_inside (Nat.zero_le _) (by omega), List.getD_eq_getElem _ _ (by omega)]
  rfl

/-- The parameters in the record of a call are what the storage thread found. -/
theorem pagePara_of_stores (hppr : 0 < (s.maps .par).pagePerRecord)
    (hstored : Stores crcUnit s w)
    (hcheck : checkCrc crcUnit (newestPages s) (s.maps .par).sizePerRecord = true) :
    pagePara s = w.found := by
  obtain ⟨unixTime, hpages⟩ := hstored hcheck
  have hsize := sizePerRecord_pos hppr
  have hlen : w.found.toList.length = 28 := w.found.length_toList
  apply Vector.ext
  intro j hj
  unfold pagePara readVector
  rw [Vector.getElem_ofFn, ← newestPages_getD hppr hj, hpages,
    padded_getD crcUnit hppr (by unfold recordHeaderSize; omega) unixTime (by omega),
    List.getD_eq_getElem _ _ (by omega)]
  exact Vector.getElem_toList _

/-- A write leaves the pages whose CRC it has checked. -/
theorem newestPages_write {device : Nat → Attempt} {data : List UInt8} {unixTime : UInt32}
    {ok : Bool} (hppr : 0 < (s.maps .par).pagePerRecord)
    (h : writeRecord crcUnit device s data unixTime .par = some (ok, s')) :
    s'.maps .par = (s.maps .par).advance ∧
      checkCrc crcUnit (newestPages s') (s'.maps .par).sizePerRecord = ok := by
  obtain ⟨bytes, hlen, hok, rfl⟩ := writeRecord_cases hppr h
  have hmap : Function.update s.maps .par (s.maps .par).advance .par = (s.maps .par).advance :=
    Function.update_self _ _ _
  refine ⟨hmap, ?_⟩
  unfold newestPages deviceRead
  dsimp only
  rw [hmap, hok, advance_pagePerRecord, advance_sizePerRecord, ← StorageMap.sizePerRecord, ← hlen,
    readBytes_writeBytes]

/-- After the write for a call the newest record is the one of this call. -/
theorem stores_of_write {device : Nat → Attempt} {unixTime : UInt32} {ok : Bool}
    (hppr : 0 < (s.maps .par).pagePerRecord)
    (h : writeRecord crcUnit device s w.found.toList unixTime .par = some (ok, s'))
    (hdev : ExactOrFails crcUnit device (s.maps .par).sizePerRecord maxRetryTimes
      ((s.maps .par).advance.padded crcUnit w.found.toList unixTime)) : Stores crcUnit s' w := by
  intro hcheck
  obtain ⟨hmap, hok⟩ := newestPages_write hppr h
  rw [hcheck] at hok
  subst hok
  obtain ⟨-, hpages⟩ := written_of_exact hppr h (exact_of_written hppr h hdev)
  rw [hmap]
  exact ⟨unixTime, hpages⟩

/-- **Loading.** In every state of the storage. -/
theorem para_load_iff (hppr : 0 < (s.maps .par).pagePerRecord)
    (hstart : (s.maps .par).startPage ≤ (s.maps .par).currentPage)
    (hstored : Stores crcUnit s w) :
    LoadSafe crcUnit s readBuf lga w.passed ↔ LoadsRight crcUnit s readBuf lga w := by
  unfold LoadsRight
  by_cases hrec : HasRecord s
  · have hsize := sizePerRecord_pos hppr
    rw [if_pos hrec, loadSafe_iff (flashStorageRead_newest hstart hrec), recordPara_fill hppr]
    cases hcheck : checkCrc crcUnit (newestPages s) (s.maps .par).sizePerRecord with
    | true =>
      rw [pagePara_of_stores hppr hstored hcheck]
      simp only [ReadReply.result, ↓reduceIte]
      rw [if_neg (by omega)]
    | false => simp only [ReadReply.result, Bool.false_eq_true, ↓reduceIte]
  · rw [if_neg hrec, loadSafe_iff (flashStorageRead_none hrec)]
    exact Iff.rfl

end

/-! ## On a new flash -/

/-- The regions at start-up on a new flash. -/
theorem startUp_par : ∃ s, runCalls stm32CrcUnit (.reset fun _ => 0xFF) startUp = some s ∧
    s.maps .par = ⟨32, 63, 1, 1, 32, 0⟩ := ⟨_, rfl, rfl⟩

/-- One record on a new flash, of which the storage thread found what was passed. -/
theorem para_load_written : ∃ s₀ s,
    runCalls stm32CrcUnit (.reset fun _ => 0xFF) startUp = some s₀ ∧
      writeRecord stm32CrcUnit (fun _ => .exact) s₀ (Vector.replicate 28 7).toList 0 .par =
        some (true, s) ∧
      LoadSafe stm32CrcUnit s (fun _ => 0xAA) .init (.replicate 28 7) := by
  obtain ⟨s₀, hs₀, hmap⟩ := startUp_par
  have hppr : 0 < (s₀.maps .par).pagePerRecord := by
    rw [hmap]
    exact Nat.one_pos
  have hdata : (Vector.replicate 28 (7 : UInt8)).toList.length ≤
      (s₀.maps .par).sizePerRecord - recordHeaderSize := by
    rw [hmap]
    decide
  obtain ⟨s, hs⟩ : ∃ s, writeRecord stm32CrcUnit (fun _ => .exact) s₀
      (Vector.replicate 28 7).toList 0 .par = some (true, s) :=
    ⟨_, (writeRecord_exact_iff hppr).mpr ⟨hdata, rfl, rfl⟩⟩
  have hstored : Stores stm32CrcUnit s ⟨.replicate 28 7, .replicate 28 7⟩ :=
    stores_of_write hppr hs ⟨.inl rfl, .inl rfl, .inl rfl, trivial⟩
  obtain ⟨hmap', hcheck⟩ := newestPages_write hppr hs
  rw [hmap] at hmap'
  have hrec : HasRecord s := by
    unfold HasRecord
    rw [hmap']
    decide
  refine ⟨s₀, s, hs₀, hs, (para_load_iff ?_ ?_ hstored).mpr ?_⟩
  · rw [hmap']
    exact Nat.one_pos
  · rw [hmap']
    exact Nat.le_refl 32
  · unfold LoadsRight
    rw [if_pos hrec, if_pos hcheck]

/-- On a new flash the parameters are what the block held. -/
theorem fresh_load_spoils : ∃ s readBuf lga,
    runCalls stm32CrcUnit (.reset fun _ => 0xFF) startUp = some s ∧
      flashStorageRead stm32CrcUnit s (recordPos .par 0) 512 = some .nothing ∧
      ∀ passed, ¬ LoadSafe stm32CrcUnit s readBuf lga passed := by
  obtain ⟨s, hs, hmap⟩ := startUp_par
  have hrec : ¬ HasRecord s := by
    unfold HasRecord
    rw [hmap]
    decide
  refine ⟨s, fun _ => 0xAA, .init, hs, flashStorageRead_none hrec, fun passed hsafe => ?_⟩
  obtain ⟨hpara, -⟩ := (loadSafe_iff (flashStorageRead_none hrec)).mp hsafe
  exact absurd hpara (by decide)

end SC04Monitor.UserApp
