import SC04Monitor.Flash.RecordLog
import Mathlib.Tactic.Ring

/-! # Reading records back

`flash_storage_read` counts back from the newest record. When it has to go past
the start of the region it adds one page less than the region has, and reads
other pages than those of the record. -/

namespace SC04Monitor.Flash
open SC04Monitor.Lib.ByteMem

/-- A read at the index delivers the record from the pages it was written to,
into the caller's buffer or through the storage thread. -/
structure ReadsBack (crcUnit : List UInt32 → UInt32) (s : Storage) (type : RecordType)
    (index : Nat) (w : Written) : Prop where
  direct : ∀ size < 65535, flashStorageRead crcUnit s (recordPos type index) size =
    some (.data w.page w.bytes w.bytes.length)
  queued : ∀ size, size / 0x1000000 = 0x08 →
    flashStorageRead crcUnit s (recordPos type index) size =
        some (.queued w.page (s.maps type).pagePerRecord) ∧
      deviceRead s.flash w.page (s.maps type).pagePerRecord = w.bytes

section
variable {crcUnit : List UInt32 → UInt32} {type : RecordType} {base records ppr n i : Nat}

theorem maxRecord_mapAfter (hrec : 0 < records) (hppr : 0 < ppr) :
    (mapAfter base records ppr type n).maxRecord = records - 1 := by
  have hmul : records * ppr = (records - 1) * ppr + ppr := by
    rw [← Nat.succ_mul, Nat.succ_eq_add_one, Nat.sub_add_cancel hrec]
  have hpages : base + records * ppr - 1 - base = (ppr - 1) + (records - 1) * ppr := by omega
  unfold StorageMap.maxRecord mapAfter
  rw [hpages, Nat.add_mul_div_right _ _ hppr, Nat.div_eq_of_lt (by omega), Nat.zero_add]

/-- Inside the region the offset is the page of the slot. -/
theorem pageOffset_inside (h : i ≤ newestSlot records n) :
    (mapAfter base records ppr type n).pageOffset i =
      slotPage base ppr (newestSlot records n - i) := by
  obtain ⟨d, hd⟩ := Nat.exists_eq_add_of_le h
  have hoffset : ((slotPage base ppr (newestSlot records n) : Nat) : Int) - i * ppr =
      (slotPage base ppr d : Nat) := by
    unfold slotPage
    rw [hd]
    push_cast
    ring
  have hstart : ¬ ((slotPage base ppr d : Nat) : Int) < base := by
    unfold slotPage
    omega
  unfold StorageMap.pageOffset mapAfter
  simp only [hoffset, if_neg hstart]
  rw [hd, Nat.add_sub_cancel_left]

/-- Past the start the offset is one page short. -/
theorem pageOffset_wrapped (hppr : 0 < ppr) (h : newestSlot records n < i) (hi : i < records) :
    (mapAfter base records ppr type n).pageOffset i =
      (slotPage base ppr (newestSlot records n + (records - i)) : Nat) - 1 := by
  obtain ⟨d, hd⟩ := Nat.exists_eq_add_of_lt h
  obtain ⟨e, he⟩ := Nat.exists_eq_add_of_le hi.le
  have hneg : ((slotPage base ppr (newestSlot records n) : Nat) : Int) - i * ppr < base := by
    have hpos : 0 < (((d + 1) * ppr : Nat) : Int) := by exact_mod_cast Nat.mul_pos (Nat.succ_pos d) hppr
    have hsum : ((slotPage base ppr (newestSlot records n) : Nat) : Int) - i * ppr =
        base - ((d + 1) * ppr : Nat) := by
      unfold slotPage
      rw [hd]
      push_cast
      ring
    omega
  have hend : (((base + records * ppr - 1 : Nat) : Int) - base) = records * ppr - 1 := by
    have hpos := Nat.mul_pos (by omega : 0 < records) hppr
    push_cast [Nat.cast_sub (by omega : 1 ≤ base + records * ppr)]
    ring
  unfold StorageMap.pageOffset mapAfter
  simp only [if_pos hneg, hend]
  unfold slotPage
  rw [he, Nat.add_sub_cancel_left]
  push_cast
  ring

theorem ofCode_code (type : RecordType) : RecordType.ofCode type.code = some type := by
  cases type <;> rfl

/-- What a read does, its position taken apart. -/
theorem flashStorageRead_eq {s : Storage} {pos size : Nat} (hindex : pos % 65536 = i)
    (hcode : RecordType.ofCode (pos / 65536 % 16) = some type) :
    flashStorageRead crcUnit s pos size =
      if (s.maps type).currentId > Int32.ofNat i ∧ i < (s.maps type).maxRecord then
        if size < 65535 then
          let buffer := deviceRead s.flash ((s.maps type).pageOffset i).toNat
            (s.maps type).pagePerRecord
          if checkCrc crcUnit buffer (s.maps type).sizePerRecord then
            some (.data ((s.maps type).pageOffset i) buffer (s.maps type).sizePerRecord)
          else some (.data ((s.maps type).pageOffset i) buffer 0)
        else if size / 0x1000000 = 0x08 then
          some (.queued ((s.maps type).pageOffset i) (s.maps type).pagePerRecord)
        else some .nothing
      else some .nothing := by
  unfold flashStorageRead
  rw [hindex]
  -- `rw [hcode]` would leave the kernel a division to evaluate
  split
  · rename_i hnone
    rw [hnone] at hcode
    cases hcode
  · rename_i t hsome
    rw [hsome] at hcode
    cases hcode
    rfl

theorem recordPos_index (hi : i < 65536) : recordPos type i % 65536 = i := by
  unfold recordPos
  omega

theorem recordPos_type (hi : i < 65536) :
    RecordType.ofCode (recordPos type i / 65536 % 16) = some type := by
  have hcode : recordPos type i / 65536 % 16 = type.code := by
    have hlt : type.code < 16 := by cases type <;> decide
    unfold recordPos
    omega
  rw [hcode, ofCode_code]

/-- A record that is read back passes the test of its id and lies at the offset. -/
theorem ReadsBack.offset {s : Storage} {w : Written} (h : ReadsBack crcUnit s type i w)
    (hi : i < 65536) :
    (s.maps type).currentId > Int32.ofNat i ∧ (s.maps type).pageOffset i = w.page := by
  have hread := (h.queued 0x08000000 (by norm_num)).1
  rw [flashStorageRead_eq (recordPos_index hi) (recordPos_type hi)] at hread
  split_ifs at hread with hid hsize
  · omega
  · simp only [Option.some.injEq, ReadReply.queued.injEq] at hread
    exact ⟨hid.1, hread.1⟩
  · cases hread
  · cases hread

theorem readsBack_of_page {s : Storage} {w : Written} (hi : i < 65536)
    (hid : (s.maps type).currentId > Int32.ofNat i) (hmax : i < (s.maps type).maxRecord)
    (hpage : (s.maps type).pageOffset i = w.page)
    (hread : deviceRead s.flash w.page (s.maps type).pagePerRecord = w.bytes)
    (hcheck : checkCrc crcUnit w.bytes (s.maps type).sizePerRecord = true) :
    ReadsBack crcUnit s type i w := by
  have hlen : w.bytes.length = (s.maps type).sizePerRecord := by
    rw [← hread]
    exact length_readBytes _ _ _
  refine ⟨fun size hsize => ?_, fun size hsize => ⟨?_, hread⟩⟩
  · rw [flashStorageRead_eq (recordPos_index hi) (recordPos_type hi), if_pos ⟨hid, hmax⟩,
      if_pos hsize, hpage, Int.toNat_natCast, hread]
    simp only [if_pos hcheck, hlen]
  · rw [flashStorageRead_eq (recordPos_index hi) (recordPos_type hi), if_pos ⟨hid, hmax⟩,
      if_neg (by omega), if_pos hsize, hpage]

theorem Log.readsBack_iff {s₀ s : Storage} {hist : List Written} (hppr : 0 < ppr)
    (hle : records ≤ pageNumMax) (log : Log crcUnit type base records ppr s₀ hist s)
    (hi : i < hist.length) (hmax : i < (s.maps type).maxRecord) :
    ReadsBack crcUnit s type i hist[i] ↔
      Int32.ofNat i < Int32.ofNat hist.length ∧ i ≤ newestSlot records hist.length := by
  have hmap := log.map
  have hcurrent : (s.maps type).currentId = Int32.ofNat hist.length := by rw [hmap]; rfl
  have hrec : 0 < records := by
    rcases Nat.eq_zero_or_pos records with rfl | hpos
    · rw [hmap] at hmax
      simp [StorageMap.maxRecord, mapAfter] at hmax
    · exact hpos
  have hir : i + 1 < records := by
    rw [hmap, maxRecord_mapAfter hrec hppr] at hmax
    omega
  have hi' : i < 65536 := by
    unfold pageNumMax at hle
    omega
  by_cases hid : Int32.ofNat i < Int32.ofNat hist.length
  · have hint : (i : Int) < (Int32.ofNat hist.length).toInt := by
      rwa [Int32.lt_iff_toInt_lt, Int32.toInt_ofNat_of_lt (by omega)] at hid
    obtain ⟨hpage, hread⟩ := log.stored i hi (by omega) hint
    by_cases hq : i ≤ newestSlot records hist.length
    · -- the slot lies between the start of the region and the newest record
      refine iff_of_true ?_ ⟨hid, hq⟩
      have hoffset : (s.maps type).pageOffset i = hist[i].page := by
        rw [hmap, pageOffset_inside hq, hpage, slotBack_eq (by omega), if_pos hq]
      refine readsBack_of_page hi' (by rwa [hcurrent]) hmax hoffset ?_ ?_
      · rw [hmap]
        exact hread
      · rw [hmap]
        exact log.valid _ (List.getElem_mem hi)
    · -- the offset is one page before the slot
      refine iff_of_false (fun hback => ?_) fun h => hq h.2
      have hoffset := (hback.offset hi').2
      rw [hmap, pageOffset_wrapped hppr (by omega) (by omega), hpage, slotBack_eq (by omega),
        if_neg hq] at hoffset
      omega
  · refine iff_of_false (fun hback => hid ?_) fun h => hid h.1
    rw [← hcurrent]
    exact (hback.offset hi').1

/-- Whatever has been written, however often the region has come round: a record
is read back exactly when the count back from the newest one stays inside the
region, and the id has not run over the sign bit. -/
theorem read_back_iff {s₀ s : Storage} {hist : List Written} (hlay : LaidOut s₀ type records ppr)
    (run : Writes crcUnit type s₀ hist s) (hi : i < hist.length)
    (hmax : i < (s.maps type).maxRecord) :
    ReadsBack crcUnit s type i hist[i] ↔
      Int32.ofNat i < Int32.ofNat hist.length ∧ i ≤ newestSlot records hist.length := by
  obtain ⟨base, -, hmap⟩ := hlay.map
  have log := run.log hlay.1 hlay.2.1 hmap
  exact log.readsBack_iff hlay.2.1 hlay.records_le hi hmax

end

/-- Two records in the first region: the older one is read back. -/
theorem read_back_two : ∃ s₀ hist s, storageDistribute (.reset fun _ => 0xFF) 32 1 .catalog = some s₀ ∧
    Writes stm32CrcUnit .catalog s₀ hist s ∧
    ∃ h : 1 < hist.length, ReadsBack stm32CrcUnit s .catalog 1 hist[1] := by
  obtain ⟨s₀, hs₀, hlay, -⟩ := catalog_laidOut
  obtain ⟨hist, s, hlen, run⟩ := @exists_writes stm32CrcUnit _ _ _ _ hlay 2
  obtain ⟨base, -, hmap⟩ := hlay.map
  have hmax : 1 < (s.maps .catalog).maxRecord := by
    rw [(run.log hlay.1 hlay.2.1 hmap).map, maxRecord_mapAfter (by decide) (by decide)]
    decide
  have hi : 1 < hist.length := by omega
  exact ⟨s₀, hist, s, hs₀, run, hi, (read_back_iff hlay run hi hmax).mpr (by rw [hlen]; decide)⟩

/-- 33 records have come round once: the newest but one is not read back. -/
theorem read_back_wrapped : ∃ s₀ hist s,
    storageDistribute (.reset fun _ => 0xFF) 32 1 .catalog = some s₀ ∧
    Writes stm32CrcUnit .catalog s₀ hist s ∧ hist.length = 33 ∧
    1 < (s.maps .catalog).maxRecord ∧
    ∃ h : 1 < hist.length, ¬ ReadsBack stm32CrcUnit s .catalog 1 hist[1] := by
  obtain ⟨s₀, hs₀, hlay, -⟩ := catalog_laidOut
  obtain ⟨hist, s, hlen, run⟩ := @exists_writes stm32CrcUnit _ _ _ _ hlay 33
  obtain ⟨base, -, hmap⟩ := hlay.map
  have log := run.log hlay.1 hlay.2.1 hmap
  have hmax : 1 < (s.maps .catalog).maxRecord := by
    rw [log.map, maxRecord_mapAfter (by decide) (by decide)]
    decide
  have hi : 1 < hist.length := by omega
  refine ⟨s₀, hist, s, hs₀, run, hlen, hmax, hi, fun hback => ?_⟩
  have hcond := (log.readsBack_iff (by decide) (by decide) hi hmax).mp hback
  rw [hlen] at hcond
  exact absurd hcond.2 (by decide)

end SC04Monitor.Flash
