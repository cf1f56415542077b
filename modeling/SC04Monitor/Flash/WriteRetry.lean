import SC04Monitor.Flash.ReadBack

/-! # Attempts that fail

`write_record` reads every attempt back into the buffer that it writes, so that a second
attempt writes what the first one left. And it moves the map on before the first attempt
and never back: a record that could not be written stands for the newest one. -/

namespace SC04Monitor.Flash
open SC04Monitor.Lib.ByteMem

section
variable {crcUnit : List UInt32 → UInt32} {device : Nat → Attempt}

/-- With `k` attempts left, each of them stores exactly what it is given or bytes that
fail the CRC. -/
def ExactOrFails (crcUnit : List UInt32 → UInt32) (device : Nat → Attempt) (size : Nat) :
    Nat → List UInt8 → Prop
  | 0, _ => True
  | k + 1, tmp =>
    let bytes := (device (maxRetryTimes - (k + 1))).store tmp
    (bytes = tmp ∨ checkCrc crcUnit bytes size = false) ∧ ExactOrFails crcUnit device size k bytes

/-- A buffer that fails the CRC is never recovered from. -/
theorem writeRetry_spoiled {map : StorageMap} {k : Nat} {flash : Mem} {tmp : List UInt8}
    (htmp : tmp.length = map.sizePerRecord) (hcheck : checkCrc crcUnit tmp map.sizePerRecord = false)
    (hdev : ExactOrFails crcUnit device map.sizePerRecord k tmp) :
    (writeRetry crcUnit device map k flash tmp).1 = false := by
  induction k generalizing flash tmp with
  | zero => rfl
  | succ k ih =>
    obtain ⟨hfirst, hrest⟩ := hdev
    have hbad : checkCrc crcUnit ((device (maxRetryTimes - (k + 1))).store tmp) map.sizePerRecord =
        false := by
      rcases hfirst with hsame | hfail
      · rw [hsame, hcheck]
      · exact hfail
    have hlen : ((device (maxRetryTimes - (k + 1))).store tmp).length = map.sizePerRecord := by
      rw [(device _).length_store, htmp]
    unfold writeRetry
    simp only [deviceRead_deviceWrite _ _ htmp, hbad, Bool.false_eq_true, ↓reduceIte]
    exact ih hlen hbad hrest

/-- The first attempt decides. -/
theorem writeRetry_result {map : StorageMap} {k : Nat} {flash : Mem} {tmp : List UInt8}
    (htmp : tmp.length = map.sizePerRecord) (hcheck : checkCrc crcUnit tmp map.sizePerRecord = true)
    (hdev : ExactOrFails crcUnit device map.sizePerRecord (k + 1) tmp) :
    (writeRetry crcUnit device map (k + 1) flash tmp).1 = true ↔
      (device (maxRetryTimes - (k + 1))).store tmp = tmp := by
  constructor
  · intro hok
    by_contra hne
    obtain ⟨hfirst, hrest⟩ := hdev
    have hbad := hfirst.resolve_left hne
    have hlen : ((device (maxRetryTimes - (k + 1))).store tmp).length = map.sizePerRecord := by
      rw [(device _).length_store, htmp]
    unfold writeRetry at hok
    simp only [deviceRead_deviceWrite _ _ htmp, hbad, Bool.false_eq_true, ↓reduceIte,
      writeRetry_spoiled hlen hbad hrest] at hok
  · intro hstore
    rw [writeRetry_exact (Nat.succ_pos k) hstore htmp hcheck]

variable {s s' : Storage} {data : List UInt8} {unixTime : UInt32} {type : RecordType} {ok : Bool}

/-- A write whose first attempt is exact leaves the record in its pages. -/
theorem written_of_exact (hppr : 0 < (s.maps type).pagePerRecord)
    (h : writeRecord crcUnit device s data unixTime type = some (ok, s'))
    (hstore : (device 0).store ((s.maps type).advance.padded crcUnit data unixTime) =
      (s.maps type).advance.padded crcUnit data unixTime) :
    ok = true ∧ deviceRead s'.flash (s'.maps type).currentPage (s'.maps type).pagePerRecord =
      (s.maps type).advance.padded crcUnit data unixTime := by
  have hppr' : 0 < (s.maps type).advance.pagePerRecord := hppr
  rw [writeRecord_eq] at h
  split_ifs at h with hdata
  have hlen := length_padded crcUnit hppr' hdata unixTime
  have hcheck := checkCrc_padded crcUnit hppr' hdata unixTime
  simp only [Option.some.injEq, Prod.mk.injEq] at h
  obtain ⟨hok, hs'⟩ := h
  rw [← hok, ← hs', writeRetry_exact (by decide) hstore hlen hcheck]
  refine ⟨rfl, ?_⟩
  dsimp only
  rw [Function.update_self]
  unfold deviceRead
  rw [← StorageMap.sizePerRecord, ← hlen, readBytes_writeBytes]

/-- A write succeeds only through its first attempt. -/
theorem exact_of_written (hppr : 0 < (s.maps type).pagePerRecord)
    (h : writeRecord crcUnit device s data unixTime type = some (true, s'))
    (hdev : ExactOrFails crcUnit device (s.maps type).sizePerRecord maxRetryTimes
      ((s.maps type).advance.padded crcUnit data unixTime)) :
    (device 0).store ((s.maps type).advance.padded crcUnit data unixTime) =
      (s.maps type).advance.padded crcUnit data unixTime := by
  have hppr' : 0 < (s.maps type).advance.pagePerRecord := hppr
  rw [writeRecord_eq] at h
  split_ifs at h with hdata
  simp only [Option.some.injEq, Prod.mk.injEq] at h
  exact (writeRetry_result (length_padded crcUnit hppr' hdata unixTime)
    (checkCrc_padded crcUnit hppr' hdata unixTime) hdev).mp h.1

/-- **The retry loop.** If every attempt stores what it is given or bytes that fail the CRC,
the record is written exactly if the first attempt stores it. -/
theorem write_retry_iff (hppr : 0 < (s.maps type).pagePerRecord)
    (h : writeRecord crcUnit device s data unixTime type = some (ok, s'))
    (hdev : ExactOrFails crcUnit device (s.maps type).sizePerRecord maxRetryTimes
      ((s.maps type).advance.padded crcUnit data unixTime)) :
    (ok = true ∧
        deviceRead s'.flash (s'.maps type).currentPage (s'.maps type).pagePerRecord =
          (s.maps type).advance.padded crcUnit data unixTime) ↔
      (device 0).store ((s.maps type).advance.padded crcUnit data unixTime) =
        (s.maps type).advance.padded crcUnit data unixTime := by
  constructor
  · rintro ⟨rfl, -⟩
    exact exact_of_written hppr h hdev
  · intro hstore
    exact written_of_exact hppr h hstore

theorem advance_startPage_le {map : StorageMap} (h : map.startPage ≤ map.currentPage) :
    map.startPage ≤ map.advance.currentPage := by
  unfold StorageMap.advance
  dsimp only
  split_ifs
  · exact Nat.le_refl _
  · exact Nat.le_add_right_of_le h
  · exact h

theorem pageOffset_zero {map : StorageMap} (h : map.startPage ≤ map.currentPage) :
    map.pageOffset 0 = map.currentPage := by
  have hle : ¬ ((map.currentPage : Int) < map.startPage) := by omega
  unfold StorageMap.pageOffset
  simp [hle]

/-- A page that fails the CRC is read as no record. -/
theorem not_readsBack_zero {w : Written} (hppr : 0 < (s.maps type).pagePerRecord)
    (hstart : (s.maps type).startPage ≤ (s.maps type).currentPage)
    (hcheck : checkCrc crcUnit (deviceRead s.flash (s.maps type).currentPage
      (s.maps type).pagePerRecord) (s.maps type).sizePerRecord = false) :
    ¬ ReadsBack crcUnit s type 0 w := by
  intro hback
  have hread := hback.direct 0 (by decide)
  rw [flashStorageRead_eq (recordPos_index (by decide)) (recordPos_type (by decide))] at hread
  simp only [pageOffset_zero hstart, Int.toNat_natCast, hcheck, Bool.false_eq_true, ↓reduceIte,
    Nat.zero_lt_succ] at hread
  split_ifs at hread
  · simp only [Option.some.injEq, ReadReply.data.injEq] at hread
    obtain ⟨-, hbytes, hlen⟩ := hread
    have hsize := Nat.mul_pos hppr (show 0 < bytesPerSector by decide)
    rw [← hbytes, deviceRead, length_readBytes] at hlen
    omega
  · cases hread

theorem not_readsBack_of_failed (hppr : 0 < (s.maps type).pagePerRecord)
    (h : writeRecord crcUnit device s data unixTime type = some (false, s'))
    (hstart : (s.maps type).startPage ≤ (s.maps type).currentPage) (w : Written) :
    ¬ ReadsBack crcUnit s' type 0 w := by
  obtain ⟨bytes, hlen, hcheck, hs'⟩ := writeRecord_cases hppr h
  have hmap : s'.maps type = (s.maps type).advance := by
    rw [hs']
    exact Function.update_self _ _ _
  refine not_readsBack_zero ?_ ?_ ?_
  · rwa [hmap]
  · rw [hmap]
    exact advance_startPage_le hstart
  · rw [hmap, hs']
    unfold deviceRead
    rw [advance_pagePerRecord, ← StorageMap.sizePerRecord, ← hlen, readBytes_writeBytes,
      advance_sizePerRecord, ← hcheck]

/-- **Failed writes.** A write that fails leaves another id in the map than it found, and
from then on a read of the newest record gives none. -/
theorem failed_write_hides (hppr : 0 < (s.maps type).pagePerRecord)
    (h : writeRecord crcUnit device s data unixTime type = some (false, s')) :
    (s'.maps type).currentId ≠ (s.maps type).currentId ∧
      ((s.maps type).startPage ≤ (s.maps type).currentPage →
        ∀ w, ¬ ReadsBack crcUnit s' type 0 w) := by
  obtain ⟨bytes, -, -, hs'⟩ := writeRecord_cases hppr h
  have hmap : s'.maps type = (s.maps type).advance := by
    rw [hs']
    exact Function.update_self _ _ _
  refine ⟨?_, not_readsBack_of_failed hppr h⟩
  rw [hmap, advance_currentId]
  exact fun he => absurd (Int32.add_eq_left.mp he) (by decide)

/-- A first attempt that fails the CRC fails the write. -/
theorem exists_failed_write (hppr : 0 < (s.maps type).pagePerRecord)
    (hdata : data.length ≤ (s.maps type).sizePerRecord - recordHeaderSize)
    (hfail : checkCrc crcUnit ((device 0).store ((s.maps type).advance.padded crcUnit data unixTime))
      (s.maps type).sizePerRecord = false)
    (hdev : ExactOrFails crcUnit device (s.maps type).sizePerRecord maxRetryTimes
      ((s.maps type).advance.padded crcUnit data unixTime)) :
    ∃ s', writeRecord crcUnit device s data unixTime type = some (false, s') := by
  have hppr' : 0 < (s.maps type).advance.pagePerRecord := hppr
  have hlen := length_padded crcUnit hppr' hdata unixTime
  have hcheck := checkCrc_padded crcUnit hppr' hdata unixTime
  have hfalse : (writeRetry crcUnit device (s.maps type).advance maxRetryTimes s.flash
      ((s.maps type).advance.padded crcUnit data unixTime)).1 = false := by
    rw [← Bool.not_eq_true]
    intro htrue
    have hstore : (device 0).store ((s.maps type).advance.padded crcUnit data unixTime) =
        (s.maps type).advance.padded crcUnit data unixTime :=
      (writeRetry_result hlen hcheck hdev).mp htrue
    rw [hstore] at hfail
    exact absurd (hcheck.symm.trans hfail) (by decide)
  rw [writeRecord_eq, if_pos hdata]
  exact ⟨_, congrArg some (Prod.ext hfalse rfl)⟩

end

/-! ## On a flash that loses attempts -/

/-- An attempt that leaves the pages erased. -/
def Attempt.lost : Attempt := ⟨fun bytes => List.replicate bytes.length 0xFF, by simp⟩

theorem lost_fails {tmp : List UInt8} (h : tmp.length = 512) :
    checkCrc stm32CrcUnit (Attempt.lost.store tmp) 512 = false := by
  show checkCrc stm32CrcUnit (List.replicate tmp.length 0xFF) 512 = false
  rw [h]
  exact checkCrc_erased

/-- Attempts that are lost or exact. -/
theorem exactOrFails_of_lost {device : Nat → Attempt}
    (hdev : ∀ i, device i = .lost ∨ device i = .exact) (k : Nat) {tmp : List UInt8}
    (h : tmp.length = 512) : ExactOrFails stm32CrcUnit device 512 k tmp := by
  induction k generalizing tmp with
  | zero => trivial
  | succ k ih =>
    refine ⟨?_, ih (((device _).length_store tmp).trans h)⟩
    rcases hdev (maxRetryTimes - (k + 1)) with hlost | hexact
    · rw [hlost]
      exact Or.inr (lost_fails h)
    · rw [hexact]
      exact Or.inl rfl

/-- A first attempt that is lost fails the write, whatever the others do. -/
theorem exists_lost_write {device : Nat → Attempt} {s : Storage} {type : RecordType}
    {data : List UInt8} (hppr : (s.maps type).pagePerRecord = 1) (hdata : data.length ≤ 500)
    (hfirst : device 0 = .lost) (hdev : ∀ i, device i = .lost ∨ device i = .exact)
    (unixTime : UInt32) :
    ∃ s', writeRecord stm32CrcUnit device s data unixTime type = some (false, s') := by
  have hsize : (s.maps type).sizePerRecord = 512 := by
    unfold StorageMap.sizePerRecord
    rw [hppr]
    exact Nat.one_mul 512
  have hfit : data.length ≤ (s.maps type).sizePerRecord - recordHeaderSize := by
    rw [hsize]
    exact hdata
  have hpos : 0 < (s.maps type).pagePerRecord := by
    rw [hppr]
    exact Nat.one_pos
  have hpos' : 0 < (s.maps type).advance.pagePerRecord := hpos
  have hlen : ((s.maps type).advance.padded stm32CrcUnit data unixTime).length = 512 := by
    rw [length_padded stm32CrcUnit hpos' hfit]
    exact hsize
  refine exists_failed_write hpos hfit ?_ ?_
  · rw [hfirst, hsize]
    exact lost_fails hlen
  · rw [hsize]
    exact exactOrFails_of_lost hdev _ hlen

/-- Only the first attempt is lost. -/
def firstLost : Nat → Attempt := fun i => if i = 0 then .lost else .exact

theorem write_retry_exact : ∃ s₀ s',
    storageDistribute (.reset fun _ => 0xFF) 32 1 .catalog = some s₀ ∧
      writeRecord stm32CrcUnit (fun _ => .exact) s₀ [7] 0 .catalog = some (true, s') ∧
      deviceRead s'.flash (s'.maps .catalog).currentPage (s'.maps .catalog).pagePerRecord =
        (s₀.maps .catalog).advance.padded stm32CrcUnit [7] 0 := by
  obtain ⟨s₀, hs₀, hlay, -⟩ := catalog_laidOut
  obtain ⟨base, -, hmap⟩ := hlay.map
  have log : Log stm32CrcUnit .catalog base 32 1 s₀ [] s₀ := .start hmap
  obtain ⟨s', hs'⟩ := log.exists_write hlay.2.1
    (show [7].length ≤ 1 * bytesPerSector - recordHeaderSize by decide) 0
  have hppr : 0 < (s₀.maps .catalog).pagePerRecord := by
    rw [hmap]
    exact Nat.one_pos
  exact ⟨s₀, s', hs₀, hs', ((write_retry_iff hppr hs'
    ⟨Or.inl rfl, Or.inl rfl, Or.inl rfl, trivial⟩).mpr rfl).2⟩

/-- The second and the third attempt store what they are given, and the write fails: they
are given what the first one left. -/
theorem write_retry_repeats : ∃ s₀ s',
    storageDistribute (.reset fun _ => 0xFF) 32 1 .catalog = some s₀ ∧
      firstLost 1 = .exact ∧ firstLost 2 = .exact ∧
      (∀ tmp, tmp.length = 512 → checkCrc stm32CrcUnit ((firstLost 0).store tmp) 512 = false) ∧
      writeRecord stm32CrcUnit firstLost s₀ [7] 0 .catalog = some (false, s') := by
  obtain ⟨s₀, hs₀, hlay, -⟩ := catalog_laidOut
  obtain ⟨base, -, hmap⟩ := hlay.map
  have hppr : (s₀.maps .catalog).pagePerRecord = 1 := by
    rw [hmap]
    rfl
  have hdev : ∀ i, firstLost i = .lost ∨ firstLost i = .exact := by
    intro i
    unfold firstLost
    split_ifs
    · exact Or.inl rfl
    · exact Or.inr rfl
  obtain ⟨s', hs'⟩ := exists_lost_write hppr (show [7].length ≤ 500 by decide) rfl hdev 0
  exact ⟨s₀, s', hs₀, rfl, rfl, fun _ => lost_fails, hs'⟩

/-- One record, and a write after it of which every attempt is lost. -/
theorem exists_lost_second : ∃ s₀ hist s s',
    storageDistribute (.reset fun _ => 0xFF) 32 1 .catalog = some s₀ ∧
      Writes stm32CrcUnit .catalog s₀ hist s ∧
      writeRecord stm32CrcUnit (fun _ => .lost) s [7] 0 .catalog = some (false, s') ∧
      (s.maps .catalog).pagePerRecord = 1 ∧
      (s.maps .catalog).startPage ≤ (s.maps .catalog).currentPage ∧
      ∃ h : 0 < hist.length, ReadsBack stm32CrcUnit s .catalog 0 hist[0] := by
  obtain ⟨s₀, hs₀, hlay, -⟩ := catalog_laidOut
  obtain ⟨hist, s, hlen, run⟩ := @exists_writes stm32CrcUnit _ _ _ _ hlay 1
  obtain ⟨base, -, hmap⟩ := hlay.map
  have log := run.log hlay.1 hlay.2.1 hmap
  have hppr : (s.maps .catalog).pagePerRecord = 1 := by
    rw [log.map]
    rfl
  have hstart : (s.maps .catalog).startPage ≤ (s.maps .catalog).currentPage := by
    rw [log.map]
    exact Nat.le_add_right _ _
  have hmax : 0 < (s.maps .catalog).maxRecord := by
    rw [log.map, maxRecord_mapAfter (by decide) (by decide)]
    decide
  have hi : 0 < hist.length := by omega
  have hback := (log.readsBack_iff (by decide) (by decide) hi hmax).mpr (by rw [hlen]; decide)
  obtain ⟨s', hs'⟩ := exists_lost_write  hppr
    (show [7].length ≤ 500 by decide) rfl (fun _ => Or.inl rfl) 0
  exact ⟨s₀, hist, s, s', hs₀, run, hs', hppr, hstart, hi, hback⟩

theorem failed_write_hides_second : ∃ s s',
    writeRecord stm32CrcUnit (fun _ => .lost) s [7] 0 .catalog = some (false, s') ∧
      (s'.maps .catalog).currentId ≠ (s.maps .catalog).currentId ∧
      ∀ w, ¬ ReadsBack stm32CrcUnit s' .catalog 0 w := by
  obtain ⟨s₀, hist, s, s', -, -, hs', hppr, hstart, -⟩ := exists_lost_second
  have hpos : 0 < (s.maps .catalog).pagePerRecord := by omega
  obtain ⟨hid, hback⟩ := failed_write_hides hpos hs'
  exact ⟨s, s', hs', hid, hback hstart⟩

/-- The first record was read back before the second write, and is not after it. -/
theorem failed_write_hides_first : ∃ s₀ hist s s',
    storageDistribute (.reset fun _ => 0xFF) 32 1 .catalog = some s₀ ∧
      Writes stm32CrcUnit .catalog s₀ hist s ∧
      writeRecord stm32CrcUnit (fun _ => .lost) s [7] 0 .catalog = some (false, s') ∧
      ∃ h : 0 < hist.length, ReadsBack stm32CrcUnit s .catalog 0 hist[0] ∧
        ¬ ReadsBack stm32CrcUnit s' .catalog 0 hist[0] := by
  obtain ⟨s₀, hist, s, s', hs₀, run, hs', hppr, hstart, hi, hback⟩ := exists_lost_second
  exact ⟨s₀, hist, s, s', hs₀, run, hs', hi, hback,
    not_readsBack_of_failed (by omega) hs' hstart _⟩

end SC04Monitor.Flash
