import SC04Monitor.Flash.Storage
import Mathlib.Data.List.GetD

/-! # Records and the writing of one

A padded record passes its CRC and carries its id; a write changes the pages of
its record and nothing else. -/

namespace SC04Monitor.Flash
open SC04Monitor.Lib.ByteMem

/-! ## Buffers -/

theorem length_setBytes {buffer bytes : List UInt8} {i : Nat} (h : i + bytes.length ≤ buffer.length) :
    (setBytes buffer i bytes).length = buffer.length := by
  simp only [setBytes, List.length_append, List.length_take, List.length_drop]
  omega

theorem setBytes_getD_inside {buffer bytes : List UInt8} {i j : Nat} (hi : i ≤ buffer.length)
    (h₁ : i ≤ j) (h₂ : j < i + bytes.length) (d : UInt8) :
    (setBytes buffer i bytes).getD j d = bytes.getD (j - i) d := by
  have hlen : (buffer.take i).length = i := by simp [hi]
  unfold setBytes
  rw [List.append_assoc, List.getD_append_right _ _ _ _ (by omega), hlen,
    List.getD_append _ _ _ _ (by omega)]

theorem setBytes_getD_before {buffer bytes : List UInt8} {i j : Nat} (hi : i ≤ buffer.length)
    (h : j < i) (d : UInt8) : (setBytes buffer i bytes).getD j d = buffer.getD j d := by
  have hlen : (buffer.take i).length = i := by simp [hi]
  unfold setBytes
  rw [List.append_assoc, List.getD_append _ _ _ _ (by omega)]
  simp [List.getD_eq_getElem?_getD, h]

/-- A word is made of the four bytes at its offset. -/
theorem wordAt_congr {b b' : List UInt8} {i j : Nat}
    (h : ∀ k < 4, b.getD (i + k) 0 = b'.getD (j + k) 0) : wordAt b i = wordAt b' j := by
  have h0 := h 0 (by omega)
  rw [Nat.add_zero, Nat.add_zero] at h0
  unfold wordAt
  rw [h0, h 1 (by omega), h 2 (by omega), h 3 (by omega)]

theorem wordAt_wordBytes (w : UInt32) : wordAt (wordBytes w) 0 = w := by
  apply UInt32.toNat_inj.mp
  have hw := w.toNat_lt
  simp [wordAt, wordBytes, Nat.shiftRight_eq_div_pow]
  omega

theorem wordAt_setBytes_self {buffer : List UInt8} {i : Nat} (h : i + 4 ≤ buffer.length)
    (w : UInt32) : wordAt (setBytes buffer i (wordBytes w)) i = w := by
  have hbytes : wordAt (setBytes buffer i (wordBytes w)) i = wordAt (wordBytes w) 0 := by
    apply wordAt_congr
    intro k hk
    have hlen : (wordBytes w).length = 4 := rfl
    rw [setBytes_getD_inside (by omega) (by omega) (by omega), Nat.zero_add, Nat.add_sub_cancel_left]
  rw [hbytes, wordAt_wordBytes]

theorem wordAt_setBytes_before {buffer bytes : List UInt8} {i j : Nat} (hi : i ≤ buffer.length)
    (h : j + 4 ≤ i) : wordAt (setBytes buffer i bytes) j = wordAt buffer j := by
  apply wordAt_congr
  intro k hk
  exact setBytes_getD_before hi (by omega) 0

section
variable {crcUnit : List UInt32 → UInt32}

/-- The CRC of the first bytes does not see a change behind them. -/
theorem getCrc_setBytes {buffer bytes : List UInt8} {i : Nat} (hi : i ≤ buffer.length) :
    getCrc crcUnit (setBytes buffer i bytes) i = getCrc crcUnit buffer i := by
  have hwords : ((List.range (i / 4)).map fun index => wordAt (setBytes buffer i bytes) (4 * index)) =
      (List.range (i / 4)).map fun index => wordAt buffer (4 * index) := by
    apply List.map_congr_left
    intro index hindex
    have hlt := List.mem_range.mp hindex
    exact wordAt_setBytes_before hi (by omega)
  unfold getCrc
  rw [hwords]

theorem length_addCrc {buffer : List UInt8} (h : 4 ≤ buffer.length) :
    (addCrc crcUnit buffer buffer.length).length = buffer.length := by
  have hlen : (wordBytes (getCrc crcUnit buffer (buffer.length - 4))).length = 4 := rfl
  exact length_setBytes (by omega)

theorem checkCrc_addCrc {buffer : List UInt8} (h : 4 < buffer.length) :
    checkCrc crcUnit (addCrc crcUnit buffer buffer.length) buffer.length = true := by
  unfold checkCrc addCrc
  rw [if_pos h, wordAt_setBytes_self (by omega), getCrc_setBytes (by omega), beq_self_eq_true]

/-! ## The padded record -/

theorem wordAt_replicate {n i : Nat} (h : i + 4 ≤ n) (b : UInt8) :
    wordAt (List.replicate n b) i = wordAt (List.replicate 4 b) 0 := by
  apply wordAt_congr
  intro k hk
  rw [List.getD_replicate _ (by omega), List.getD_replicate _ (by omega)]

/-- The CRC unit of the STM32F4 tells an erased page from a record. -/
theorem checkCrc_erased : checkCrc stm32CrcUnit (List.replicate (1 * bytesPerSector) 0xFF)
    (1 * bytesPerSector) = false := by
  have hones : wordAt (List.replicate 4 0xFF) 0 = 0xFFFFFFFF := by decide
  have hwords : ((List.range 127).map fun index => wordAt (List.replicate 512 0xFF) (4 * index)) =
      (List.range 127).map fun _ => 0xFFFFFFFF := by
    apply List.map_congr_left
    intro index hindex
    have hlt := List.mem_range.mp hindex
    rw [wordAt_replicate (by omega), hones]
  have hcrc : (0xFFFFFFFF == stm32CrcUnit ((List.range 127).map fun _ => 0xFFFFFFFF)) = false := by
    decide +kernel
  unfold checkCrc getCrc
  rw [if_pos (by decide), if_neg (by decide)]
  change (wordAt (List.replicate 512 0xFF) 508 == stm32CrcUnit ((List.range 127).map fun index =>
    wordAt (List.replicate 512 0xFF) (4 * index))) = false
  rw [hwords, wordAt_replicate (by decide), hones, hcrc]

section
variable (crcUnit) {map : StorageMap} {data : List UInt8}

theorem sizePerRecord_pos (hppr : 0 < map.pagePerRecord) : 512 ≤ map.sizePerRecord :=
  Nat.le_mul_of_pos_left bytesPerSector hppr

/-- The record before its CRC is added, with the id and the data in it. -/
theorem padded_eq (hppr : 0 < map.pagePerRecord)
    (hdata : data.length ≤ map.sizePerRecord - recordHeaderSize) (unixTime : UInt32) :
    ∃ tmp, tmp.length = map.sizePerRecord ∧ wordAt tmp 0 = map.currentId.toUInt32 ∧
      (∀ j < data.length, tmp.getD (8 + j) 0 = data.getD j 0) ∧
      map.padded crcUnit data unixTime = addCrc crcUnit tmp tmp.length := by
  have hsize := sizePerRecord_pos hppr
  unfold recordHeaderSize at hdata
  have hword (w : UInt32) : (wordBytes w).length = 4 := rfl
  have hstep {buffer bytes : List UInt8} {i : Nat} (hb : buffer.length = map.sizePerRecord)
      (hi : i + bytes.length ≤ map.sizePerRecord) :
      (setBytes buffer i bytes).length = map.sizePerRecord := by
    rw [length_setBytes (by omega), hb]
  have hzero : (List.replicate map.sizePerRecord (0 : UInt8)).length = map.sizePerRecord :=
    List.length_replicate
  have hid := @hstep _ (wordBytes map.currentId.toUInt32) 0 hzero (by rw [hword]; omega)
  have htime := @hstep _ (wordBytes unixTime) 4 hid (by rw [hword]; omega)
  have hall := @hstep _ data 8 htime (by omega)
  refine ⟨_, hall, ?_, fun j hj => ?_, ?_⟩
  · rw [wordAt_setBytes_before (by omega) (by omega), wordAt_setBytes_before (by omega) (by omega),
      wordAt_setBytes_self (by omega)]
  · rw [setBytes_getD_inside (by omega) (by omega) (by omega), Nat.add_sub_cancel_left]
  · unfold StorageMap.padded
    rw [hall]

theorem length_padded (hppr : 0 < map.pagePerRecord)
    (hdata : data.length ≤ map.sizePerRecord - recordHeaderSize) (unixTime : UInt32) :
    (map.padded crcUnit data unixTime).length = map.sizePerRecord := by
  obtain ⟨tmp, hlen, -, -, heq⟩ := padded_eq crcUnit hppr hdata unixTime
  have hsize := sizePerRecord_pos hppr
  rw [heq, length_addCrc (by omega), hlen]

theorem checkCrc_padded (hppr : 0 < map.pagePerRecord)
    (hdata : data.length ≤ map.sizePerRecord - recordHeaderSize) (unixTime : UInt32) :
    checkCrc crcUnit (map.padded crcUnit data unixTime) map.sizePerRecord = true := by
  obtain ⟨tmp, hlen, -, -, heq⟩ := padded_eq crcUnit hppr hdata unixTime
  have hsize := sizePerRecord_pos hppr
  rw [heq, ← hlen]
  exact checkCrc_addCrc (by omega)

theorem wordAt_padded (hppr : 0 < map.pagePerRecord)
    (hdata : data.length ≤ map.sizePerRecord - recordHeaderSize) (unixTime : UInt32) :
    wordAt (map.padded crcUnit data unixTime) 0 = map.currentId.toUInt32 := by
  obtain ⟨tmp, hlen, hid, -, heq⟩ := padded_eq crcUnit hppr hdata unixTime
  have hsize := sizePerRecord_pos hppr
  rw [heq, addCrc, wordAt_setBytes_before (by omega) (by omega), hid]

/-- The data of a record lies behind its header. -/
theorem padded_getD (hppr : 0 < map.pagePerRecord)
    (hdata : data.length ≤ map.sizePerRecord - recordHeaderSize) (unixTime : UInt32) {j : Nat}
    (hj : j < data.length) : (map.padded crcUnit data unixTime).getD (8 + j) 0 = data.getD j 0 := by
  obtain ⟨tmp, hlen, -, hbytes, heq⟩ := padded_eq crcUnit hppr hdata unixTime
  have hsize := sizePerRecord_pos hppr
  unfold recordHeaderSize at hdata
  rw [heq, addCrc, setBytes_getD_before (by omega) (by omega), hbytes j hj]

end

/-! ## The write -/

section
variable {device : Nat → Attempt} {map : StorageMap}

/-- An attempt is read back. -/
theorem deviceRead_deviceWrite (attempt : Attempt) (flash : Mem) {tmp : List UInt8}
    (htmp : tmp.length = map.sizePerRecord) :
    deviceRead (deviceWrite attempt flash map.currentPage tmp) map.currentPage map.pagePerRecord =
      attempt.store tmp := by
  have hlen : (attempt.store tmp).length = map.sizePerRecord := by rw [attempt.length_store, htmp]
  unfold deviceRead deviceWrite
  rw [← StorageMap.sizePerRecord, ← hlen, readBytes_writeBytes]

/-- Whatever the attempts store: the pages of the record hold some bytes at the
end, the CRC of these decides the result, and nothing else changes. -/
theorem writeRetry_spec {k : Nat} {flash : Mem} {tmp : List UInt8} (hk : 0 < k)
    (htmp : tmp.length = map.sizePerRecord) : ∃ bytes, bytes.length = map.sizePerRecord ∧
      writeRetry crcUnit device map k flash tmp = (checkCrc crcUnit bytes map.sizePerRecord,
        writeBytes flash (map.currentPage * bytesPerSector) bytes) := by
  induction k generalizing flash tmp with
  | zero => omega
  | succ k ih =>
    have hlen : ((device (maxRetryTimes - (k + 1))).store tmp).length = map.sizePerRecord := by
      rw [(device _).length_store, htmp]
    unfold writeRetry
    simp only [deviceRead_deviceWrite _ _ htmp]
    split_ifs with hcheck
    · exact ⟨_, hlen, by rw [hcheck]; rfl⟩
    · cases k with
      | zero => exact ⟨_, hlen, by rw [Bool.eq_false_iff.mpr hcheck]; rfl⟩
      | succ k =>
        obtain ⟨bytes, hbytes, heq⟩ := @ih (deviceWrite (device (maxRetryTimes - (k + 1 + 1)))
          flash map.currentPage tmp) _ (Nat.succ_pos k) hlen
        refine ⟨bytes, hbytes, ?_⟩
        rw [heq, deviceWrite, writeBytes_writeBytes (by omega)]

/-- An attempt that stores what it is given ends the loop. -/
theorem writeRetry_exact {k : Nat} {flash : Mem} {tmp : List UInt8} (hk : 0 < k)
    (hstore : (device (maxRetryTimes - k)).store tmp = tmp)
    (htmp : tmp.length = map.sizePerRecord) (hcheck : checkCrc crcUnit tmp map.sizePerRecord = true) :
    writeRetry crcUnit device map k flash tmp =
      (true, writeBytes flash (map.currentPage * bytesPerSector) tmp) := by
  obtain ⟨k, rfl⟩ := Nat.exists_eq_add_of_le' hk
  unfold writeRetry
  simp only [deviceRead_deviceWrite _ _ htmp, hstore, hcheck, ↓reduceIte]
  unfold deviceWrite
  rw [hstore]

end

@[simp] theorem advance_startPage (map : StorageMap) : map.advance.startPage = map.startPage := rfl

@[simp] theorem advance_endPage (map : StorageMap) : map.advance.endPage = map.endPage := rfl

@[simp] theorem advance_pagePerRecord (map : StorageMap) :
    map.advance.pagePerRecord = map.pagePerRecord := rfl

@[simp] theorem advance_sizePerRecord (map : StorageMap) :
    map.advance.sizePerRecord = map.sizePerRecord := rfl

@[simp] theorem advance_currentId (map : StorageMap) :
    map.advance.currentId = map.currentId + 1 := rfl

section
variable {s s' : Storage} {data : List UInt8} {unixTime : UInt32} {type : RecordType} {ok : Bool}

theorem writeRecord_eq (device : Nat → Attempt) (s : Storage) (data : List UInt8)
    (unixTime : UInt32) (type : RecordType) :
    writeRecord crcUnit device s data unixTime type =
      if data.length ≤ (s.maps type).sizePerRecord - recordHeaderSize then
        let r := writeRetry crcUnit device (s.maps type).advance maxRetryTimes s.flash
          ((s.maps type).advance.padded crcUnit data unixTime)
        some (r.1, { s with
          maps := Function.update s.maps type (s.maps type).advance
          flash := r.2 })
      else none := rfl

/-- A write advances the map and stores bytes in the pages it then names. -/
theorem writeRecord_cases {device : Nat → Attempt} (hppr : 0 < (s.maps type).pagePerRecord)
    (h : writeRecord crcUnit device s data unixTime type = some (ok, s')) :
    ∃ bytes, bytes.length = (s.maps type).sizePerRecord ∧
      ok = checkCrc crcUnit bytes (s.maps type).sizePerRecord ∧
      s' = { s with
        maps := Function.update s.maps type (s.maps type).advance
        flash := writeBytes s.flash ((s.maps type).advance.currentPage * bytesPerSector) bytes } := by
  have hppr' : 0 < (s.maps type).advance.pagePerRecord := hppr
  rw [writeRecord_eq] at h
  split_ifs at h with hdata
  obtain ⟨bytes, hlen, heq⟩ := @writeRetry_spec crcUnit device _ maxRetryTimes s.flash _
    (by decide) (length_padded crcUnit hppr' hdata unixTime)
  simp only [heq] at h
  cases h
  exact ⟨bytes, hlen, rfl, rfl⟩

theorem writeRecord_exact_iff (hppr : 0 < (s.maps type).pagePerRecord) :
    writeRecord crcUnit (fun _ => .exact) s data unixTime type = some (ok, s') ↔
      data.length ≤ (s.maps type).sizePerRecord - recordHeaderSize ∧ ok = true ∧
      s' = { s with
        maps := Function.update s.maps type (s.maps type).advance
        flash := writeBytes s.flash ((s.maps type).advance.currentPage * bytesPerSector)
          ((s.maps type).advance.padded crcUnit data unixTime) } := by
  have hppr' : 0 < (s.maps type).advance.pagePerRecord := hppr
  rw [writeRecord_eq]
  by_cases hdata : data.length ≤ (s.maps type).sizePerRecord - recordHeaderSize
  · rw [if_pos hdata, writeRetry_exact (by decide) rfl (length_padded crcUnit hppr' hdata unixTime)
      (checkCrc_padded crcUnit hppr' hdata unixTime)]
    simp only [Option.some.injEq, Prod.mk.injEq]
    exact ⟨fun h => ⟨hdata, h.1.symm, h.2.symm⟩, fun h => ⟨h.2.1.symm, h.2.2.symm⟩⟩
  · rw [if_neg hdata]
    simp [hdata]

end

end

end SC04Monitor.Flash
