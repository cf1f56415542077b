import SC04Monitor.Flash.RecordLog
import SC04Monitor.Lib.CreditScan

/-! # Recovery of the log at start-up

`scan_flash` starts from a map that may be any number of records old. From there
the ids rise up to the newest record; only the first slot can cost credit, since
it may hold the very record of the map, or a torn one. So the two credits that
the scan has at least carry it to the newest record. -/

namespace SC04Monitor.Flash
open SC04Monitor.Lib.ByteMem SC04Monitor.Lib.CreditScan

/-- What `scan_flash` sees in the pages of a slot. -/
def reading (crcUnit : List UInt32 → UInt32) (flash : Mem) (page ppr : Nat) : Reading Int32 :=
  let buffer := deviceRead flash page ppr
  if checkCrc crcUnit buffer (ppr * bytesPerSector) then .valid (wordAt buffer 0).toInt32
  else if wordAt buffer 0 = illegalId then .blank
  else .torn

/-- The map with another newest record. -/
def StorageMap.named (map : StorageMap) (best : Nat × Int32) : StorageMap :=
  { map with currentPage := best.1, currentId := best.2 }

/-- The region of a map is the ring of `records` slots from `base` on. -/
structure StorageMap.Ring (map : StorageMap) (base records ppr : Nat) : Prop where
  startPage : map.startPage = base
  endPage : map.endPage = base + records * ppr - 1
  pagePerRecord : map.pagePerRecord = ppr

section
variable {crcUnit : List UInt32 → UInt32} {flash : Mem} {base records ppr : Nat}

theorem reading_of_valid {page : Nat}
    (h : checkCrc crcUnit (deviceRead flash page ppr) (ppr * bytesPerSector) = true) :
    reading crcUnit flash page ppr = .valid (wordAt (deviceRead flash page ppr) 0).toInt32 :=
  if_pos h

theorem reading_of_invalid {page : Nat}
    (h : ¬ checkCrc crcUnit (deviceRead flash page ppr) (ppr * bytesPerSector) = true) :
    reading crcUnit flash page ppr =
      if wordAt (deviceRead flash page ppr) 0 = illegalId then .blank else .torn :=
  if_neg h

theorem reading_valid_iff {page : Nat} {id : Int32} :
    reading crcUnit flash page ppr = .valid id ↔
      checkCrc crcUnit (deviceRead flash page ppr) (ppr * bytesPerSector) = true ∧
        (wordAt (deviceRead flash page ppr) 0).toInt32 = id := by
  by_cases hcheck : checkCrc crcUnit (deviceRead flash page ppr) (ppr * bytesPerSector) = true
  · rw [reading_of_valid hcheck, Reading.valid.injEq]
    exact ⟨fun h => ⟨hcheck, h⟩, fun h => h.2⟩
  · rw [reading_of_invalid hcheck]
    refine iff_of_false (fun h => ?_) fun h => hcheck h.1
    split_ifs at h

/-! ## The loop is a sweep -/

/-- The body of the loop makes one visit. -/
theorem examine_eq {sc : Scan} (hppr : sc.map.pagePerRecord = ppr) :
    let next := visit sc.forward (sc.map.currentPage, sc.map.currentId) sc.searchPage
      (reading crcUnit flash sc.searchPage ppr)
    let sc' := sc.examine crcUnit (deviceRead flash sc.searchPage ppr)
    sc'.forward = next.1 ∧ sc'.map = sc.map.named next.2 ∧ sc'.searchPage = sc.searchPage := by
  unfold Scan.examine
  rw [StorageMap.sizePerRecord, hppr]
  by_cases hcheck : checkCrc crcUnit (deviceRead flash sc.searchPage ppr) (ppr * bytesPerSector) = true
  · rw [reading_of_valid hcheck, if_pos hcheck]
    simp only [visit, gt_iff_lt]
    split_ifs <;> exact ⟨rfl, rfl, rfl⟩
  · rw [reading_of_invalid hcheck, if_neg hcheck]
    split_ifs <;> exact ⟨rfl, rfl, rfl⟩

theorem body_eq {sc : Scan} {q : Nat} (hppr : 0 < ppr) (hring : sc.map.Ring base records ppr)
    (hpage : sc.searchPage = slotPage base ppr q) (hq : q < records) :
    let next := visit sc.forward (sc.map.currentPage, sc.map.currentId) (slotPage base ppr q)
      (reading crcUnit flash (slotPage base ppr q) ppr)
    let sc' := sc.body crcUnit flash
    sc'.forward = next.1 ∧ sc'.map = sc.map.named next.2 ∧
      sc'.searchPage = slotPage base ppr ((q + 1) % records) := by
  obtain ⟨hfwd, hmap, hsearch⟩ := @examine_eq crcUnit flash _ sc hring.pagePerRecord
  unfold Scan.body
  rw [hring.pagePerRecord, ← hpage]
  refine ⟨hfwd, hmap, ?_⟩
  simp only [hsearch, hmap, StorageMap.named, hring.startPage, hring.endPage, hring.pagePerRecord]
  rw [hpage, slotPage_next hppr hq]

/-- The pages of the slots from the `k`-th of the search on, with what is read there. -/
def ahead (crcUnit : List UInt32 → UInt32) (flash : Mem) (base records ppr h k n : Nat) :
    List (Nat × Reading Int32) :=
  (List.range' k n).map fun j => (slotPage base ppr ((h + j) % records),
    reading crcUnit flash (slotPage base ppr ((h + j) % records)) ppr)

theorem ahead_succ (h k n : Nat) : ahead crcUnit flash base records ppr h k (n + 1) =
    (slotPage base ppr ((h + k) % records),
        reading crcUnit flash (slotPage base ppr ((h + k) % records)) ppr) ::
      ahead crcUnit flash base records ppr h (k + 1) n := by
  unfold ahead
  rw [List.range'_succ, List.map_cons]

theorem loop_succ (startSearchPage fuel : Nat) (sc : Scan) :
    Scan.loop crcUnit flash startSearchPage (fuel + 1) sc =
      if (sc.body crcUnit flash).searchPage ≠ startSearchPage ∧ (sc.body crcUnit flash).forward > 0
      then Scan.loop crcUnit flash startSearchPage fuel (sc.body crcUnit flash)
      else some (sc.body crcUnit flash) := rfl

/-- With `n + 1` slots left before the search comes round, the loop sweeps them. -/
theorem loop_eq {h k n fuel : Nat} {sc : Scan} (hppr : 0 < ppr)
    (hring : sc.map.Ring base records ppr)
    (hpage : sc.searchPage = slotPage base ppr ((h + k) % records)) (hh : h < records)
    (hk : k + (n + 1) = records) (hfuel : n < fuel) :
    ∃ sc', Scan.loop crcUnit flash (slotPage base ppr h) fuel sc = some sc' ∧
      sc'.map = sc.map.named (sweep sc.forward (sc.map.currentPage, sc.map.currentId)
        (ahead crcUnit flash base records ppr h k (n + 1))) := by
  induction n generalizing k fuel sc with
  | zero =>
    obtain ⟨fuel, rfl⟩ := Nat.exists_eq_succ_of_ne_zero (Nat.ne_zero_of_lt hfuel)
    obtain ⟨hfwd, hmap, hsearch⟩ := @body_eq crcUnit flash _ _ _ sc _ hppr hring hpage
      (Nat.mod_lt _ (by omega))
    -- this was the last slot: the search is back at its start
    have hback : (sc.body crcUnit flash).searchPage = slotPage base ppr h := by
      rw [hsearch, Nat.mod_add_mod, Nat.add_assoc, hk, Nat.add_mod_right, Nat.mod_eq_of_lt hh]
    rw [loop_succ, if_neg fun hc => hc.1 hback, ahead_succ, sweep_cons]
    refine ⟨_, rfl, ?_⟩
    rw [hmap]
    split_ifs <;> rfl
  | succ n ih =>
    obtain ⟨fuel, rfl⟩ := Nat.exists_eq_succ_of_ne_zero (Nat.ne_zero_of_lt hfuel)
    obtain ⟨hfwd, hmap, hsearch⟩ := @body_eq crcUnit flash _ _ _ sc _ hppr hring hpage
      (Nat.mod_lt _ (by omega))
    have hgo : (sc.body crcUnit flash).searchPage ≠ slotPage base ppr h := by
      rw [hsearch, Ne, slotPage_inj hppr, Nat.mod_add_mod]
      by_cases hwrap : h + k + 1 < records
      · rw [Nat.mod_eq_of_lt hwrap]
        omega
      · rw [Nat.mod_eq_sub_mod (by omega), Nat.mod_eq_of_lt (by omega)]
        omega
    rw [Nat.mod_add_mod, Nat.add_assoc] at hsearch
    rw [loop_succ, ahead_succ, sweep_cons, ← hfwd]
    by_cases hpos : (sc.body crcUnit flash).forward > 0
    · have hring' : (sc.body crcUnit flash).map.Ring base records ppr := by
        rw [hmap]
        exact ⟨hring.startPage, hring.endPage, hring.pagePerRecord⟩
      obtain ⟨sc', hloop, heq⟩ := ih hring' hsearch (by omega) (by omega : n < fuel)
      rw [if_pos ⟨hgo, hpos⟩, if_pos hpos]
      refine ⟨sc', hloop, ?_⟩
      rw [heq, hmap]
      rfl
    · rw [if_neg fun hc => hpos hc.2, if_neg hpos]
      exact ⟨_, rfl, hmap⟩

/-- The scan sweeps the ring once, from the slot of the map it is given. -/
theorem scanFlash_eq {map : StorageMap} {h fuel : Nat} (hppr : 0 < ppr)
    (hring : map.Ring base records ppr) (hpage : map.currentPage = slotPage base ppr h)
    (hh : h < records) (hfuel : records ≤ fuel) :
    ∃ result credit, 2 ≤ credit ∧ scanFlash crcUnit fuel flash map =
      some (result, map.named (sweep credit (map.currentPage, map.currentId)
        (ahead crcUnit flash base records ppr h 0 records))) := by
  obtain ⟨n, rfl⟩ := Nat.exists_eq_succ_of_ne_zero (Nat.ne_zero_of_lt hh)
  have hstart : (Scan.start map).searchPage = slotPage base ppr ((h + 0) % (n + 1)) := by
    rw [Nat.add_zero, Nat.mod_eq_of_lt hh]
    exact hpage
  obtain ⟨sc', hloop, heq⟩ := @loop_eq crcUnit flash base _ ppr h 0 n fuel (.start map) hppr hring
    hstart hh (Nat.zero_add _) (by omega)
  refine ⟨sc'.result, (Scan.start map).forward, ?_, ?_⟩
  · unfold Scan.start
    dsimp only
    split_ifs <;> omega
  · unfold scanFlash
    rw [hpage, hloop, Option.map_some, heq, ← hpage]
    rfl

/-! ## What the scan needs of the flash -/

/-- All but the oldest of the records of a turn are there, and nothing else has
a valid CRC but perhaps the oldest. -/
structure Recoverable (crcUnit : List UInt32 → UInt32) (flash : Mem) (base records ppr n : Nat) :
    Prop where
  recent : ∀ i, i < n → i + 1 < records →
    reading crcUnit flash (slotPage base ppr (slotBack records n i)) ppr =
      .valid (Int32.ofNat (n - i))
  only : ∀ q < records, ∀ id, reading crcUnit flash (slotPage base ppr q) ppr = .valid id →
    ∃ i, i < n ∧ i < records ∧ q = slotBack records n i ∧ id = Int32.ofNat (n - i)

/-- A slot that has been written holds one of the newest records. -/
theorem exists_slotBack {n q : Nat} (hn : n ≤ 0x100000000) (hq : q < records) (hqn : q < n) :
    ∃ i, i < n ∧ i < records ∧ q = slotBack records n i := by
  have hslot := @newestSlot_lt records n (by omega)
  have heq := @newestSlot_of_lt records n hn
  by_cases hle : q ≤ newestSlot records n
  · have hmod := Nat.mod_le (n - 1) records
    refine ⟨newestSlot records n - q, by omega, by omega, ?_⟩
    rw [slotBack_eq (by omega), if_pos (by omega)]
    omega
  · -- the slot is of the turn before
    have hwrap : records ≤ n - 1 := by
      by_contra hlt
      rw [Nat.mod_eq_of_lt (by omega)] at heq
      omega
    refine ⟨newestSlot records n + records - q, by omega, by omega, ?_⟩
    rw [slotBack_eq (by omega), if_neg (by omega)]
    omega

/-- A page that was never written reads as all ones. -/
def Erased (s : Storage) (type : RecordType) : Prop :=
  ∀ a, (s.maps type).startPage * bytesPerSector ≤ a →
    a < ((s.maps type).endPage + 1) * bytesPerSector → s.flash a = 0xFF

theorem Erased.deviceRead {s : Storage} {type : RecordType} {q : Nat} (h : Erased s type)
    (hring : (s.maps type).Ring base records ppr) (hq : q < records) :
    deviceRead s.flash (slotPage base ppr q) ppr = List.replicate (ppr * bytesPerSector) 0xFF := by
  have hlast := @slotPage_lt base ppr q records hq
  have hend : slotPage base ppr records = base + records * ppr := rfl
  have hfirst : base ≤ slotPage base ppr q := Nat.le_add_right _ _
  apply List.ext_getElem (by simp [Flash.deviceRead])
  intro i hi _
  rw [List.getElem_replicate]
  simp only [Flash.deviceRead, readBytes, List.length_map, List.length_range] at hi
  simp only [Flash.deviceRead, readBytes, List.getElem_map, List.getElem_range]
  apply h
  · rw [hring.startPage]
    exact Nat.le_trans (Nat.mul_le_mul_right _ hfirst) (Nat.le_add_right _ _)
  · rw [hring.endPage]
    have hsum := Nat.mul_le_mul_right bytesPerSector hlast
    rw [Nat.add_mul, hend] at hsum
    have hpos : 0 < base + records * ppr := by
      by_contra hzero
      have hppr0 : ppr = 0 := by omega
      rw [hppr0] at hi
      omega
    rw [Nat.sub_add_cancel hpos]
    omega

/-- The newest records as the log has them, without a torn write. -/
theorem Log.recoverable {s₀ s : Storage} {type : RecordType} {hist : List Written}
    (hn : hist.length < 0x7FFFFFFF)
    (hring : (s₀.maps type).Ring base records ppr) (herased : Erased s₀ type)
    (hblank : checkCrc crcUnit (List.replicate (ppr * bytesPerSector) 0xFF)
      (ppr * bytesPerSector) = false)
    (log : Log crcUnit type base records ppr s₀ hist s) :
    Recoverable crcUnit s.flash base records ppr hist.length := by
  have hrecord : ∀ i (h : i < hist.length), i < records →
      reading crcUnit s.flash (slotPage base ppr (slotBack records hist.length i)) ppr =
        .valid (Int32.ofNat (hist.length - i)) := by
    intro i hi hir
    obtain ⟨hpage, hread⟩ := log.stored i hi hir (by
      rw [Int32.toInt_ofNat_of_lt (by omega)]
      omega)
    rw [hpage] at hread
    rw [reading_of_valid (by rw [hread]; exact log.valid _ (List.getElem_mem hi)), hread, log.id i hi]
    rfl
  refine ⟨fun i hi hir => hrecord i hi (by omega), fun q hq id hid => ?_⟩
  by_cases hqn : q < hist.length
  · obtain ⟨i, hi, hir, rfl⟩ := @exists_slotBack records _ q (by omega) hq hqn
    rw [hrecord i hi hir, Reading.valid.injEq] at hid
    exact ⟨i, hi, hir, rfl, hid.symm⟩
  · -- a slot that was never written has no valid CRC
    have hcheck := (reading_valid_iff.mp hid).1
    rw [log.blank q (by omega) hq, herased.deviceRead hring hq, hblank] at hcheck
    cases hcheck

/-- A write with an invalid CRC takes the slot of the oldest record at most. -/
theorem Recoverable.torn {n : Nat} {bytes : List UInt8} (hn : n < 0x7FFFFFFF)
    (hlen : bytes.length = ppr * bytesPerSector)
    (hcheck : checkCrc crcUnit bytes (ppr * bytesPerSector) = false)
    (h : Recoverable crcUnit flash base records ppr n) :
    Recoverable crcUnit
      (writeBytes flash (slotPage base ppr (newestSlot records (n + 1)) * bytesPerSector) bytes)
      base records ppr n := by
  have hother {q : Nat} (hq : newestSlot records (n + 1) ≠ q) : reading crcUnit
      (writeBytes flash (slotPage base ppr (newestSlot records (n + 1)) * bytesPerSector) bytes)
      (slotPage base ppr q) ppr = reading crcUnit flash (slotPage base ppr q) ppr := by
    unfold reading
    rw [deviceRead_other hlen hq]
  refine ⟨fun i hi hir => ?_, fun q hq id hid => ?_⟩
  · rw [hother (newestSlot_ne (by omega) hir), h.recent i hi hir]
  · by_cases hq' : newestSlot records (n + 1) = q
    · have hvalid := (reading_valid_iff.mp hid).1
      rw [← hq', deviceRead_written hlen, hcheck] at hvalid
      cases hvalid
    · rw [hother hq'] at hid
      exact h.only q hq id hid

/-! ## The scan finds the newest record -/

theorem ring_mapAfter {type : RecordType} (n : Nat) :
    (mapAfter base records ppr type n).Ring base records ppr := ⟨rfl, rfl, rfl⟩

theorem ahead_add (h k a b : Nat) : ahead crcUnit flash base records ppr h k (a + b) =
    ahead crcUnit flash base records ppr h k a ++ ahead crcUnit flash base records ppr h (k + a) b := by
  unfold ahead
  rw [← List.map_append, List.range'_append_1]

/-- From the slot of an older map the slots ahead are those of the newest
records, oldest first. -/
theorem slotBack_ahead {n d k : Nat} (hd : d < records) (hk : k ≤ d) {h : Nat}
    (hh : newestSlot records n = (h + d) % records) :
    (h + k) % records = slotBack records n (d - k) := by
  unfold slotBack
  rw [hh, Nat.mod_add_mod, show h + d + (records - (d - k)) = h + k + records by omega,
    Nat.add_mod_right]

/-- No record beats the newest one. -/
theorem Recoverable.stale {n h k m : Nat} (hn : n < 0x7FFFFFFF) (hrec : 0 < records)
    (hr : Recoverable crcUnit flash base records ppr n) :
    Stale (Int32.ofNat n) (ahead crcUnit flash base records ppr h k m) := by
  intro x hx id hid
  obtain ⟨j, -, rfl⟩ := List.mem_map.mp hx
  obtain ⟨i, hi, -, -, rfl⟩ := hr.only _ (Nat.mod_lt _ hrec) id hid
  rw [Int32.ofNat_lt_iff_lt (by omega) (by omega)]
  omega

/-- Where the newest record lies ahead of an older map. -/
theorem exists_ahead {m n : Nat} (hm : m ≤ n) (hpos : 0 < n) (hn : n < 0x7FFFFFFF)
    (hrec : 0 < records) : ∃ d, d < records ∧ d < n ∧ m + d ≤ n ∧
      newestSlot records n = (newestSlot records m + d) % records := by
  have hmod := Nat.mod_le (n - max m 1) records
  refine ⟨(n - max m 1) % records, Nat.mod_lt _ hrec, by omega, by omega, ?_⟩
  rw [newestSlot_of_lt (by omega), newestSlot_of_lt (by omega), ← Nat.add_mod]
  congr 1
  omega

section
variable {credit d m n : Nat}

/-- The map is the one of the newest record, or of one a whole number of turns older. -/
theorem Recoverable.sweep_here (hrec : 2 ≤ records) (hm : m ≤ n) (hpos : 0 < n) (hn : n < 0x7FFFFFFF)
    (hr : Recoverable crcUnit flash base records ppr n)
    (hnew : newestSlot records n = newestSlot records m) :
    sweep credit (slotPage base ppr (newestSlot records m), Int32.ofNat m)
      (ahead crcUnit flash base records ppr (newestSlot records m) 0 records) =
      (slotPage base ppr (newestSlot records n), Int32.ofNat n) := by
  have hslot := @newestSlot_lt records n (by omega)
  have hnow := hr.recent 0 hpos (by omega)
  rw [slotBack_zero (by omega)] at hnow
  have hall : ahead crcUnit flash base records ppr (newestSlot records n) 0 records =
      ahead crcUnit flash base records ppr (newestSlot records n) 0 (records - 1 + 1) := by
    rw [Nat.sub_add_cancel (by omega)]
  rw [← hnew, hall, ahead_succ, Nat.add_zero, Nat.mod_eq_of_lt hslot, hnow]
  apply Lib.CreditScan.sweep_here
  · rcases Nat.lt_or_ge m n with hlt | hge
    · exact .inl ((Int32.ofNat_lt_iff_lt (by omega) (by omega)).mpr hlt)
    · obtain rfl : m = n := by omega
      exact .inr rfl
  · exact hr.stale hn (by omega)

/-- The map is older: after its slot the ids rise to the newest one. -/
theorem Recoverable.sweep_ahead (hc : 2 ≤ credit) (hd : d + 1 < records) (hdn : d + 1 < n)
    (hm : m + (d + 1) ≤ n) (hn : n < 0x7FFFFFFF)
    (hr : Recoverable crcUnit flash base records ppr n)
    (hnew : newestSlot records n = (newestSlot records m + (d + 1)) % records) :
    sweep credit (slotPage base ppr (newestSlot records m), Int32.ofNat m)
      (ahead crcUnit flash base records ppr (newestSlot records m) 0 records) =
      (slotPage base ppr (newestSlot records n), Int32.ofNat n) := by
  have hall : ahead crcUnit flash base records ppr (newestSlot records m) 0 records =
      ahead crcUnit flash base records ppr (newestSlot records m) 0
        (d + 1 + (records - (d + 2)) + 1) := by
    congr 1
    omega
  have hrun : ahead crcUnit flash base records ppr (newestSlot records m) 1 (d + 1) =
      (List.range' 1 (d + 1)).map fun k => (slotPage base ppr ((newestSlot records m + k) % records),
        .valid (Int32.ofNat (n - (d + 1) + k))) := by
    apply List.map_congr_left
    intro k hk
    obtain ⟨h₁, h₂⟩ := List.mem_range'_1.mp hk
    rw [slotBack_ahead hd (by omega : k ≤ d + 1) hnew, hr.recent _ (by omega) (by omega)]
    congr 3
    omega
  have hlt {a b : Nat} (hab : a < b) (hb : b < 0x80000000) : Int32.ofNat a < Int32.ofNat b :=
    (Int32.ofNat_lt_iff_lt (by omega) hb).mpr hab
  have hend : n - (d + 1) + (1 + d) = n := by omega
  have hfirst : ∀ id, reading crcUnit flash (slotPage base ppr ((newestSlot records m + 0) % records))
      ppr = .valid id → id < Int32.ofNat (n - (d + 1) + 1) := by
    -- the first slot holds a record of the run before, if anything
    intro id hid
    obtain ⟨i, hi, hir, hslot, rfl⟩ := hr.only _ (Nat.mod_lt _ (by omega)) id hid
    rw [slotBack_ahead hd (Nat.zero_le _) hnew] at hslot
    have hsame := slotBack_inj (by omega) hir hslot
    exact hlt (by omega) (by omega)
  have hstale := @Recoverable.stale crcUnit flash base records ppr n (newestSlot records m)
    (1 + (d + 1)) (records - (d + 2)) hn (by omega) hr
  rw [← hend] at hstale
  have hsweep := @Lib.CreditScan.sweep_ahead _ _ _ _
    (fun k => slotPage base ppr ((newestSlot records m + k) % records))
    (fun k => Int32.ofNat (n - (d + 1) + k)) credit d
    (slotPage base ppr (newestSlot records m), Int32.ofNat m) _ _ hc (hlt (by omega) (by omega)) hfirst
    (fun k h₁ h₂ => hlt (by omega) (by omega)) hstale
  rw [hall, ahead_succ, ahead_add, hrun, hsweep, hend, hnew, Nat.add_comm d 1]

end

theorem Recoverable.scan {type : RecordType} {m n fuel : Nat} (hrec : 2 ≤ records) (hppr : 0 < ppr)
    (hm : m ≤ n) (hn : n < 0x7FFFFFFF) (hr : Recoverable crcUnit flash base records ppr n)
    (hfuel : records ≤ fuel) :
    ∃ result, scanFlash crcUnit fuel flash (mapAfter base records ppr type m) =
      some (result, mapAfter base records ppr type n) := by
  have hslot := @newestSlot_lt records m (by omega)
  obtain ⟨result, credit, hc, heq⟩ := @scanFlash_eq crcUnit flash _ _ _ _ _ fuel hppr
    (ring_mapAfter m) rfl hslot hfuel
  refine ⟨result, ?_⟩
  suffices hsweep : sweep credit (slotPage base ppr (newestSlot records m), Int32.ofNat m)
      (ahead crcUnit flash base records ppr (newestSlot records m) 0 records) =
      (slotPage base ppr (newestSlot records n), Int32.ofNat n) by
    rw [heq]
    change some (result, (mapAfter base records ppr type m).named (sweep credit
      (slotPage base ppr (newestSlot records m), Int32.ofNat m) _)) = _
    rw [hsweep]
    rfl
  rcases Nat.eq_zero_or_pos n with rfl | hpos
  · -- an empty log: nothing beats the initial map
    obtain rfl : m = 0 := by omega
    exact sweep_stale (hr.stale hn (by omega))
  obtain ⟨d, hdr, hdn, hmd, hnew⟩ := exists_ahead hm hpos hn (by omega : 0 < records)
  cases d with
  | zero =>
    rw [Nat.add_zero, Nat.mod_eq_of_lt hslot] at hnew
    exact hr.sweep_here hrec hm hpos hn hnew
  | succ d => exact hr.sweep_ahead hc hdr hdn hmd hn hnew

end

/-! ## Every run of writes -/

/-- A page where a record of the region begins. -/
def StorageMap.IsSlot (map : StorageMap) (page : Nat) : Prop :=
  ∃ q, page = map.startPage + q * map.pagePerRecord ∧ page ≤ map.endPage

/-- The map names the newest of the records with a valid CRC. -/
structure NewestRecord (crcUnit : List UInt32 → UInt32) (flash : Mem) (map : StorageMap) : Prop where
  slot : map.IsSlot map.currentPage
  valid : checkCrc crcUnit (deviceRead flash map.currentPage map.pagePerRecord)
    map.sizePerRecord = true
  id : (wordAt (deviceRead flash map.currentPage map.pagePerRecord) 0).toInt32 = map.currentId
  newest : ∀ page, map.IsSlot page →
    checkCrc crcUnit (deviceRead flash page map.pagePerRecord) map.sizePerRecord = true →
    (wordAt (deviceRead flash page map.pagePerRecord) 0).toInt32 ≤ map.currentId

/-- A write that leaves pages with an invalid CRC, whatever its attempts did. -/
def TornWrite (crcUnit : List UInt32 → UInt32) (type : RecordType) (s s' : Storage) : Prop :=
  ∃ device data unixTime, writeRecord crcUnit device s data unixTime type = some (false, s')

section
variable {crcUnit : List UInt32 → UInt32} {type : RecordType} {base records ppr n : Nat}

theorem isSlot_iff (hppr : 0 < ppr) (hrec : 0 < records) {page : Nat} :
    (mapAfter base records ppr type n).IsSlot page ↔ ∃ q < records, page = slotPage base ppr q := by
  have hend : slotPage base ppr records = base + records * ppr := rfl
  have hlast := @slotPage_lt base ppr 0 records hrec
  constructor
  · rintro ⟨q, rfl, hle⟩
    refine ⟨q, ?_, rfl⟩
    by_contra hge
    have hmul := Nat.mul_le_mul_right ppr (Nat.le_of_not_lt hge)
    simp only [mapAfter] at hle
    omega
  · rintro ⟨q, hq, rfl⟩
    have hstep := @slotPage_lt base ppr q records hq
    refine ⟨q, rfl, ?_⟩
    simp only [mapAfter]
    omega

theorem Recoverable.newestRecord {flash : Mem} (hrec : 2 ≤ records) (hppr : 0 < ppr) (hpos : 0 < n)
    (hn : n < 0x7FFFFFFF) (hr : Recoverable crcUnit flash base records ppr n) :
    NewestRecord crcUnit flash (mapAfter base records ppr type n) := by
  have hslot := @newestSlot_lt records n (by omega)
  have hnow := hr.recent 0 hpos (by omega)
  rw [slotBack_zero (by omega)] at hnow
  obtain ⟨hvalid, hid⟩ := reading_valid_iff.mp hnow
  refine ⟨(isSlot_iff hppr (by omega)).mpr ⟨_, hslot, rfl⟩, hvalid, hid, fun page hpage hcheck => ?_⟩
  obtain ⟨q, hq, rfl⟩ := (isSlot_iff hppr (by omega)).mp hpage
  obtain ⟨i, hi, -, -, heq⟩ := hr.only q hq _ (reading_of_valid hcheck)
  change (wordAt (deviceRead flash (slotPage base ppr q) ppr) 0).toInt32 ≤ Int32.ofNat n
  rw [heq]
  exact (Int32.ofNat_le_iff_le (by omega) (by omega)).mpr (Nat.sub_le n i)

/-- A scan from the map of any earlier point of a run, or from the initial one,
ends with the map of the newest record, also when the last write was torn. -/
theorem scan_recovers {s₀ s₁ s₂ s₃ : Storage} {older newer : List Written} {fuel : Nat}
    (hlay : LaidOut s₀ type records ppr) (hrec : 2 ≤ records) (herased : Erased s₀ type)
    (hblank : checkCrc crcUnit (List.replicate (ppr * bytesPerSector) 0xFF)
      (ppr * bytesPerSector) = false)
    (run₁ : Writes crcUnit type s₀ older s₁) (run₂ : Writes crcUnit type s₁ newer s₂)
    (hn : older.length + newer.length < 0x7FFFFFFF)
    (htorn : s₃ = s₂ ∨ TornWrite crcUnit type s₂ s₃) (hfuel : records ≤ fuel) :
    ∃ result map, scanFlash crcUnit fuel s₃.flash (s₁.maps type) = some (result, map) ∧
      map = s₂.maps type ∧
      (0 < older.length + newer.length → NewestRecord crcUnit s₃.flash map) := by
  obtain ⟨base, -, hmap⟩ := hlay.map
  have hppr := hlay.2.1
  have log₁ := run₁.log hlay.1 hppr hmap
  have log₂ := (run₁.append run₂).log hlay.1 hppr hmap
  have hlen : (newer ++ older).length = older.length + newer.length := by
    rw [List.length_append, Nat.add_comm]
  have hsound : Recoverable crcUnit s₂.flash base records ppr (older.length + newer.length) := by
    have hring : (s₀.maps type).Ring base records ppr := by
      rw [hmap]
      exact ring_mapAfter 0
    have h := log₂.recoverable (by rwa [hlen]) hring herased hblank
    rwa [hlen] at h
  have hmap₂ : s₂.maps type = mapAfter base records ppr type (older.length + newer.length) := by
    rw [log₂.map, hlen]
  have hr : Recoverable crcUnit s₃.flash base records ppr (older.length + newer.length) := by
    rcases htorn with rfl | ⟨device, data, unixTime, hwrite⟩
    · exact hsound
    · have hppr' : 0 < (s₂.maps type).pagePerRecord := by rw [hmap₂]; exact hppr
      obtain ⟨bytes, hbytes, hcheck, hs₃⟩ := writeRecord_cases hppr' hwrite
      rw [hmap₂] at hbytes hcheck
      have hflash : s₃.flash = writeBytes s₂.flash (slotPage base ppr
          (newestSlot records (older.length + newer.length + 1)) * bytesPerSector) bytes := by
        rw [hs₃, hmap₂, mapAfter_advance hlay.1 hppr]
        rfl
      rw [hflash]
      exact hsound.torn hn hbytes hcheck.symm
  obtain ⟨result, hscan⟩ := hr.scan hrec hppr (Nat.le_add_right _ _) hn hfuel
  refine ⟨result, _, ?_, hmap₂.symm, fun hpos => hr.newestRecord hrec hppr hpos hn⟩
  rw [log₁.map]
  exact hscan

end

/-- Two records in the first region: the map of the first one leads to the second. -/
theorem scan_recovers_two : ∃ s₀ s₁ s₂ older newer,
    storageDistribute (.reset fun _ => 0xFF) 32 1 .catalog = some s₀ ∧
    Writes stm32CrcUnit .catalog s₀ older s₁ ∧ Writes stm32CrcUnit .catalog s₁ newer s₂ ∧
    older.length = 1 ∧ newer.length = 1 ∧
    ∃ result map, scanFlash stm32CrcUnit 32 s₂.flash (s₁.maps .catalog) = some (result, map) ∧
      map = s₂.maps .catalog ∧
      (0 < older.length + newer.length → NewestRecord stm32CrcUnit s₂.flash map) := by
  obtain ⟨s₀, hs₀, hlay, hflash⟩ := catalog_laidOut
  obtain ⟨older, s₁, hlen, run₁⟩ := @exists_writes stm32CrcUnit _ _ _ _ hlay 1
  obtain ⟨base, -, hmap⟩ := hlay.map
  obtain ⟨s₂, step⟩ := @Log.exists_write _ _ _ _ _ _ _ _ [] hlay.2.1
    (run₁.log hlay.1 hlay.2.1 hmap) (Nat.zero_le _) 0
  have run₂ := Writes.write .start step
  refine ⟨s₀, s₁, s₂, older, _, hs₀, run₁, run₂, hlen, rfl, ?_⟩
  refine scan_recovers hlay (by decide) (fun a _ _ => ?_) checkCrc_erased run₁ run₂ ?_ (.inl rfl)
    (Nat.le_refl 32)
  · rw [hflash]
  · rw [hlen, List.length_singleton]
    decide

end SC04Monitor.Flash
