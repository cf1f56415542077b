import SC04Monitor.Flash.WriteRecord
import Mathlib.Tactic.Common

/-! # The log in a region

A region is a ring of slots of one record each. Writing fills them in turn; what
a run of writes leaves in the flash is stated once here, for every number of
writes, and the results on reading and on recovery start from it. -/

namespace SC04Monitor.Flash
open SC04Monitor.Lib.ByteMem

/-! ## Slots -/

section
variable {base ppr : Nat}

/-- The first page of a slot. -/
def slotPage (base ppr slot : Nat) : Nat := base + slot * ppr

theorem slotPage_lt {q q' : Nat} (h : q < q') :
    slotPage base ppr q + ppr ≤ slotPage base ppr q' := by
  have hmul := Nat.mul_le_mul_right ppr (Nat.succ_le_of_lt h)
  rw [Nat.succ_mul] at hmul
  unfold slotPage
  omega

theorem slotPage_inj (hppr : 0 < ppr) {q q' : Nat} :
    slotPage base ppr q = slotPage base ppr q' ↔ q = q' := by
  refine ⟨fun h => ?_, fun h => h ▸ rfl⟩
  rcases Nat.lt_trichotomy q q' with hlt | heq | hlt
  · have hstep := @slotPage_lt base ppr _ _ hlt
    omega
  · exact heq
  · have hstep := @slotPage_lt base ppr _ _ hlt
    omega

/-- The step to the next page with its wrap, as `write_record` and `scan_flash`
make it, is the step to the next slot. -/
theorem slotPage_next {records q : Nat} (hppr : 0 < ppr) (hq : q < records) :
    (if slotPage base ppr q + ppr > base + records * ppr - 1 then base
      else slotPage base ppr q + ppr) = slotPage base ppr ((q + 1) % records) := by
  have hmul : slotPage base ppr q + ppr = slotPage base ppr (q + 1) := by
    unfold slotPage
    rw [Nat.succ_mul, Nat.add_assoc]
  have hend : slotPage base ppr records = base + records * ppr := rfl
  rw [hmul, ← hend]
  by_cases hlast : q + 1 = records
  · rw [hlast, Nat.mod_self, if_pos (by rw [hend]; have := Nat.mul_pos (by omega : 0 < records) hppr; omega)]
    simp [slotPage]
  · have hstep := @slotPage_lt base ppr (q + 1) records (by omega)
    rw [Nat.mod_eq_of_lt (by omega), if_neg (by omega)]

theorem slot_apart {q q' : Nat} (h : q ≠ q') :
    Apart (slotPage base ppr q * bytesPerSector) (ppr * bytesPerSector)
      (slotPage base ppr q' * bytesPerSector) (ppr * bytesPerSector) := by
  have key {a b : Nat} (hlt : a < b) : slotPage base ppr a * bytesPerSector + ppr * bytesPerSector ≤
      slotPage base ppr b * bytesPerSector := by
    rw [← Nat.add_mul]
    exact Nat.mul_le_mul_right _ (slotPage_lt hlt)
  rcases Nat.lt_or_gt_of_ne h with hlt | hlt
  · exact .inr (.inr (.inl (key hlt)))
  · exact .inr (.inr (.inr (key hlt)))

end

/-- The slot of the newest of `n` records. The first write stays in slot 0, and
so does the one after the id has come round to `0` again. -/
def newestSlot (records n : Nat) : Nat := (n - 1 - (n - 1) / 0x100000000) % records

theorem newestSlot_lt {records n : Nat} (h : 0 < records) : newestSlot records n < records :=
  Nat.mod_lt _ h

/-- Before the id comes round the slot is the one of a plain ring. -/
theorem newestSlot_of_lt {records n : Nat} (h : n ≤ 0x100000000) :
    newestSlot records n = (n - 1) % records := by
  unfold newestSlot
  rw [Nat.div_eq_of_lt (by omega), Nat.sub_zero]

theorem newestSlot_succ {records n : Nat} :
    newestSlot records (n + 1) =
      if n % 0x100000000 = 0 then newestSlot records n else (newestSlot records n + 1) % records := by
  unfold newestSlot
  rw [Nat.mod_add_mod]
  split_ifs with h
  · congr 1
    omega
  · congr 1
    omega

/-- The slot of the `i`-th newest of `n` records. -/
def slotBack (records n i : Nat) : Nat := (newestSlot records n + (records - i)) % records

theorem slotBack_eq {records n i : Nat} (hi : i < records) : slotBack records n i =
    if i ≤ newestSlot records n then newestSlot records n - i
    else newestSlot records n + (records - i) := by
  have hslot := @newestSlot_lt records n (by omega)
  unfold slotBack
  split_ifs with h
  · rw [Nat.mod_eq_sub_mod (by omega), Nat.mod_eq_of_lt (by omega)]
    omega
  · exact Nat.mod_eq_of_lt (by omega)

theorem slotBack_zero {records n : Nat} (h : 0 < records) :
    slotBack records n 0 = newestSlot records n := by
  rw [slotBack_eq h, if_pos (Nat.zero_le _), Nat.sub_zero]

theorem slotBack_inj {records n i j : Nat} (hi : i < records) (hj : j < records)
    (h : slotBack records n i = slotBack records n j) : i = j := by
  have hslot := @newestSlot_lt records n (by omega)
  rw [slotBack_eq hi, slotBack_eq hj] at h
  split_ifs at h <;> omega

/-- With a new record every older one is one further back. -/
theorem slotBack_succ {records n i : Nat} (hn : n % 0x100000000 ≠ 0) (hi : i + 1 < records) :
    slotBack records (n + 1) (i + 1) = slotBack records n i := by
  unfold slotBack
  rw [newestSlot_succ, if_neg hn, Nat.mod_add_mod]
  congr 1
  omega

/-- A new record does not take the slot of one that stays. -/
theorem newestSlot_ne {records n i : Nat} (hn : n % 0x100000000 ≠ 0) (hi : i + 1 < records) :
    newestSlot records (n + 1) ≠ slotBack records n i := by
  intro he
  rw [← slotBack_zero (by omega), ← slotBack_succ hn hi] at he
  exact absurd (slotBack_inj (by omega) hi he) (by omega)

/-! ## A region and the writes to it -/

/-- `storage_distribute` has laid out the region of the type, a ring of `records`
slots, and nothing has been written to it since. -/
def LaidOut (s : Storage) (type : RecordType) (records ppr : Nat) : Prop :=
  0 < records ∧ 0 < ppr ∧ ∃ before after,
    storageDistribute before (records * ppr) ppr type = some after ∧ s.maps type = after.maps type

/-- The map of a region after `n` writes. -/
def mapAfter (base records ppr : Nat) (type : RecordType) (n : Nat) : StorageMap where
  startPage := base
  endPage := base + records * ppr - 1
  pagePerRecord := ppr
  type := type.code
  currentPage := slotPage base ppr (newestSlot records n)
  currentId := Int32.ofNat n

theorem LaidOut.map {s : Storage} {type : RecordType} {records ppr : Nat}
    (h : LaidOut s type records ppr) : ∃ base, base + records * ppr ≤ pageNumMax ∧
      s.maps type = mapAfter base records ppr type 0 := by
  obtain ⟨-, -, before, after, hd, hmap⟩ := h
  unfold storageDistribute at hd
  split_ifs at hd with hfit
  cases hd
  refine ⟨before.currentPage, hfit.2.2, ?_⟩
  rw [hmap]
  simp [mapAfter, slotPage, newestSlot]

/-- A record and the page it was written to. -/
structure Written where
  page : Nat
  bytes : List UInt8

/-- A run of writes of one type, on a flash that stores what it is given; the
records are listed newest first. -/
inductive Writes (crcUnit : List UInt32 → UInt32) (type : RecordType) (s₀ : Storage) :
    List Written → Storage → Prop
  | start : Writes crcUnit type s₀ [] s₀
  | write {hist : List Written} {s s' : Storage} {data : List UInt8} {unixTime : UInt32} {ok : Bool}
      (run : Writes crcUnit type s₀ hist s)
      (step : writeRecord crcUnit (fun _ => .exact) s data unixTime type = some (ok, s')) :
      Writes crcUnit type s₀
        (⟨(s'.maps type).currentPage, (s'.maps type).padded crcUnit data unixTime⟩ :: hist) s'

theorem LaidOut.records_le {s : Storage} {type : RecordType} {records ppr : Nat}
    (h : LaidOut s type records ppr) : records ≤ pageNumMax := by
  obtain ⟨base, hfit, -⟩ := h.map
  have hmul := Nat.le_mul_of_pos_right records h.2.1
  omega

theorem Writes.append {crcUnit : List UInt32 → UInt32} {type : RecordType} {s₀ s₁ s₂ : Storage}
    {older newer : List Written} (run₁ : Writes crcUnit type s₀ older s₁)
    (run₂ : Writes crcUnit type s₁ newer s₂) : Writes crcUnit type s₀ (newer ++ older) s₂ := by
  induction run₂ with
  | start => exact run₁
  | write _ step ih => exact ih.write step

/-! ## The map -/

section
variable {base records ppr : Nat} {type : RecordType}

theorem ofNat_eq_zero_iff (n : Nat) : Int32.ofNat n = 0 ↔ n % 0x100000000 = 0 := by
  rw [← Int32.toBitVec_inj, ← BitVec.toNat_inj]
  exact Iff.rfl

theorem mapAfter_advance (hrec : 0 < records) (hppr : 0 < ppr) (n : Nat) :
    (mapAfter base records ppr type n).advance = mapAfter base records ppr type (n + 1) := by
  have hpage : (if Int32.ofNat n ≠ 0 then
        if slotPage base ppr (newestSlot records n) + ppr > base + records * ppr - 1 then base
        else slotPage base ppr (newestSlot records n) + ppr
      else slotPage base ppr (newestSlot records n)) =
      slotPage base ppr (newestSlot records (n + 1)) := by
    rw [slotPage_next hppr (newestSlot_lt hrec), newestSlot_succ]
    by_cases h : n % 0x100000000 = 0
    · rw [if_pos h, if_neg (not_not_intro ((ofNat_eq_zero_iff n).mpr h))]
    · rw [if_neg h, if_pos fun hz => h ((ofNat_eq_zero_iff n).mp hz)]
  have hid : Int32.ofNat n + 1 = Int32.ofNat (n + 1) := (Int32.ofNat_add n 1).symm
  unfold StorageMap.advance mapAfter
  simp only [hpage, hid]

end

/-! ## What a run leaves in the flash -/

section
variable {crcUnit : List UInt32 → UInt32} {type : RecordType} {base records ppr : Nat}

/-- The `i`-th newest record counts as long as `flash_storage_read` can name it:
it is less than a turn old and below the current id. -/
structure Log (crcUnit : List UInt32 → UInt32) (type : RecordType) (base records ppr : Nat)
    (s₀ : Storage) (hist : List Written) (s : Storage) : Prop where
  map : s.maps type = mapAfter base records ppr type hist.length
  stored : ∀ i (h : i < hist.length), i < records → (i : Int) < (Int32.ofNat hist.length).toInt →
    hist[i].page = slotPage base ppr (slotBack records hist.length i) ∧
      deviceRead s.flash hist[i].page ppr = hist[i].bytes
  valid : ∀ w ∈ hist, checkCrc crcUnit w.bytes (ppr * bytesPerSector) = true
  id : ∀ i (h : i < hist.length), wordAt hist[i].bytes 0 = UInt32.ofNat (hist.length - i)
  blank : ∀ q, hist.length ≤ q → q < records →
    deviceRead s.flash (slotPage base ppr q) ppr = deviceRead s₀.flash (slotPage base ppr q) ppr

theorem deviceRead_written {flash : Mem} {page : Nat} {bytes : List UInt8}
    (h : bytes.length = ppr * bytesPerSector) :
    deviceRead (writeBytes flash (page * bytesPerSector) bytes) page ppr = bytes := by
  unfold deviceRead
  rw [← h, readBytes_writeBytes]

theorem deviceRead_other {flash : Mem} {q q' : Nat} {bytes : List UInt8}
    (h : bytes.length = ppr * bytesPerSector) (hne : q ≠ q') :
    deviceRead (writeBytes flash (slotPage base ppr q * bytesPerSector) bytes)
      (slotPage base ppr q') ppr = deviceRead flash (slotPage base ppr q') ppr :=
  readBytes_writeBytes_frame (by rw [h]; exact slot_apart hne)

/-- A positive id was reached by one increment. -/
theorem ofNat_succ_toInt {n : Nat} (h : 0 < (Int32.ofNat (n + 1)).toInt) :
    (Int32.ofNat (n + 1)).toInt = (Int32.ofNat n).toInt + 1 := by
  rw [Int32.toInt_ofNat'] at h ⊢
  rw [Int32.toInt_ofNat']
  unfold Int.bmod Int32.size at *
  dsimp only at *
  split_ifs at * <;> omega

theorem Log.start {s₀ : Storage} (h : s₀.maps type = mapAfter base records ppr type 0) :
    Log crcUnit type base records ppr s₀ [] s₀ where
  map := h
  stored i hi := absurd hi (Nat.not_lt_zero i)
  valid _ hw := absurd hw List.not_mem_nil
  id i hi := absurd hi (Nat.not_lt_zero i)
  blank _ _ _ := rfl

/-- What a write stores: the record with the next id, in the next slot. -/
theorem Log.write_eq {s₀ s s' : Storage} {hist : List Written} {data : List UInt8}
    {unixTime : UInt32} {ok : Bool} (hrec : 0 < records) (hppr : 0 < ppr)
    (log : Log crcUnit type base records ppr s₀ hist s)
    (h : writeRecord crcUnit (fun _ => .exact) s data unixTime type = some (ok, s')) :
    ∃ bytes, bytes = (s'.maps type).padded crcUnit data unixTime ∧
      bytes.length = ppr * bytesPerSector ∧ checkCrc crcUnit bytes (ppr * bytesPerSector) = true ∧
      wordAt bytes 0 = UInt32.ofNat (hist.length + 1) ∧
      s'.maps type = mapAfter base records ppr type (hist.length + 1) ∧
      s'.flash = writeBytes s.flash
        (slotPage base ppr (newestSlot records (hist.length + 1)) * bytesPerSector) bytes := by
  have hppr' : 0 < (s.maps type).pagePerRecord := by rw [log.map]; exact hppr
  obtain ⟨hdata, -, hs'⟩ := (writeRecord_exact_iff hppr').mp h
  rw [log.map, mapAfter_advance hrec hppr] at hs'
  rw [log.map] at hdata
  have hmap : s'.maps type = mapAfter base records ppr type (hist.length + 1) := by simp [hs']
  have hfits : data.length ≤
    (mapAfter base records ppr type (hist.length + 1)).sizePerRecord - recordHeaderSize := hdata
  rw [hmap]
  exact ⟨_, rfl, length_padded crcUnit hppr hfits unixTime, checkCrc_padded crcUnit hppr hfits unixTime,
    wordAt_padded crcUnit hppr hfits unixTime, rfl, by rw [hs']; rfl⟩

theorem Log.write {s₀ s s' : Storage} {hist : List Written} {data : List UInt8}
    {unixTime : UInt32} {ok : Bool} (hrec : 0 < records) (hppr : 0 < ppr)
    (log : Log crcUnit type base records ppr s₀ hist s)
    (h : writeRecord crcUnit (fun _ => .exact) s data unixTime type = some (ok, s')) :
    Log crcUnit type base records ppr s₀
      (⟨(s'.maps type).currentPage, (s'.maps type).padded crcUnit data unixTime⟩ :: hist) s' := by
  obtain ⟨bytes, heq, hlen, hcheck, hid, hmap, hflash⟩ := log.write_eq hrec hppr h
  rw [← heq, show (s'.maps type).currentPage =
    slotPage base ppr (newestSlot records (hist.length + 1)) by rw [hmap]; rfl]
  refine ⟨hmap, fun i hi hir hlt => ?_, fun w hw => ?_, fun i hi => ?_, fun q hq hqr => ?_⟩
  · rw [List.length_cons] at hlt ⊢
    cases i with
    | zero =>
      simp only [List.getElem_cons_zero]
      rw [slotBack_zero hrec, hflash, deviceRead_written hlen]
      exact ⟨rfl, rfl⟩
    | succ i =>
      -- an older record: its slot was not the one written
      have hsucc := @ofNat_succ_toInt hist.length (by omega)
      have hne : hist.length % 0x100000000 ≠ 0 := by
        intro hz
        rw [(ofNat_eq_zero_iff _).mpr hz] at hsucc
        have hzero : (0 : Int32).toInt = 0 := rfl
        omega
      obtain ⟨hp, hread⟩ := log.stored i (by simpa using hi) (by omega) (by omega)
      simp only [List.getElem_cons_succ]
      rw [slotBack_succ hne hir]
      refine ⟨hp, ?_⟩
      rw [← hread, hp, hflash, deviceRead_other hlen (newestSlot_ne hne hir)]
  · rcases List.mem_cons.mp hw with rfl | hw
    · exact hcheck
    · exact log.valid w hw
  · cases i with
    | zero => exact hid
    | succ i =>
      simp only [List.getElem_cons_succ, List.length_cons, Nat.add_sub_add_right]
      exact log.id i (by simpa using hi)
  · rw [List.length_cons] at hq
    have hle : newestSlot records (hist.length + 1) ≤ hist.length :=
      Nat.le_trans (Nat.mod_le _ _) (by omega)
    rw [hflash, deviceRead_other hlen (by omega)]
    exact log.blank q (by omega) hqr

/-- A record that fits can always be written. -/
theorem Log.exists_write {s₀ s : Storage} {hist : List Written} {data : List UInt8}
    (hppr : 0 < ppr) (log : Log crcUnit type base records ppr s₀ hist s)
    (hdata : data.length ≤ ppr * bytesPerSector - recordHeaderSize) (unixTime : UInt32) :
    ∃ s', writeRecord crcUnit (fun _ => .exact) s data unixTime type = some (true, s') := by
  have hppr' : 0 < (s.maps type).pagePerRecord := by rw [log.map]; exact hppr
  refine ⟨_, (writeRecord_exact_iff hppr').mpr ⟨?_, rfl, rfl⟩⟩
  rw [log.map]
  exact hdata

/-- The run lemma: what every run of writes leaves. -/
theorem Writes.log {s₀ s : Storage} {hist : List Written} (hrec : 0 < records) (hppr : 0 < ppr)
    (hmap : s₀.maps type = mapAfter base records ppr type 0)
    (run : Writes crcUnit type s₀ hist s) : Log crcUnit type base records ppr s₀ hist s := by
  induction run with
  | start => exact .start hmap
  | write _ step ih => exact ih.write hrec hppr step

/-- There are runs of every length. -/
theorem exists_writes {s₀ : Storage} (h : LaidOut s₀ type records ppr) (n : Nat) :
    ∃ hist s, hist.length = n ∧ Writes crcUnit type s₀ hist s := by
  obtain ⟨base, -, hmap⟩ := h.map
  induction n with
  | zero => exact ⟨[], s₀, rfl, .start⟩
  | succ n ih =>
    obtain ⟨hist, s, hlen, run⟩ := ih
    obtain ⟨s', step⟩ := @Log.exists_write _ _ _ _ _ _ _ _ [] h.2.1 (run.log h.1 h.2.1 hmap)
      (Nat.zero_le _) 0
    exact ⟨_, s', by rw [List.length_cons, hlen], run.write step⟩

end

/-- The first region that `thread_x_run.cc` lays out. -/
theorem catalog_laidOut : ∃ s₀, storageDistribute (.reset fun _ => 0xFF) 32 1 .catalog = some s₀ ∧
    LaidOut s₀ .catalog 32 1 ∧ s₀.flash = fun _ => 0xFF :=
  ⟨_, rfl, ⟨by decide, by decide, .reset fun _ => 0xFF, _, rfl, rfl⟩, rfl⟩

end SC04Monitor.Flash
