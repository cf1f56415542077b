import SC04Monitor.Flash.RecordLog
import SC04Monitor.Lib.Steps

/-! # The regions of the flash

The regions that `storage_distribute` hands out, under every sequence of calls: they
do not meet, a map points to a slot of its own region, and a write stays in the slot
that its map names. Each region is a ring of its own, so that the facts about one
ring carry over. -/

namespace SC04Monitor.Flash
open SC04Monitor.Lib.ByteMem SC04Monitor.Lib.Steps

/-! ## Calls -/

/-- The calls that change the storage. -/
inductive StorageCall
  | distribute (pages pagePerRecord : Nat) (type : RecordType)
  | write (device : Nat → Attempt) (data : List UInt8) (unixTime : UInt32) (type : RecordType)

/-- Pages are handed out for whole records. -/
def StorageCall.WholeRecords : StorageCall → Prop
  | .distribute pages pagePerRecord _ => 0 < pages ∧ pagePerRecord ∣ pages
  | .write _ _ _ _ => True

section
variable (crcUnit : List UInt32 → UInt32)

/-- `none` stops the system. So does a write to a type without a region: its record
has no bytes, `rt_malloc(0)` is `RT_NULL`, and the header is stored through it. -/
def StorageCall.run (s : Storage) : StorageCall → Option Storage
  | .distribute pages pagePerRecord type => storageDistribute s pages pagePerRecord type
  | .write device data unixTime type =>
    if (s.maps type).pagePerRecord = 0 then none
    else (writeRecord crcUnit device s data unixTime type).map Prod.snd

/-- A sequence of calls that all return. -/
def runCalls (s : Storage) (calls : List StorageCall) : Option Storage :=
  runSteps (StorageCall.run crcUnit) s calls

end

/-! ## The layout -/

/-- `storage_distribute` has laid out a region for the type. -/
def Distributed (s : Storage) (type : RecordType) : Prop := type.code < s.currentIndex

/-- The map of the type is that of a ring of whole slots, below the page that the next
region starts at. -/
def IsRing (s : Storage) (type : RecordType) : Prop :=
  ∃ base records ppr n, 0 < records ∧ 0 < ppr ∧ base + records * ppr ≤ s.currentPage ∧
    s.maps type = mapAfter base records ppr type n

/-- The invariant of the calls: the regions are rings that lie in the order of their
types, and the other maps are untouched. -/
structure Layout (s : Storage) : Prop where
  fits : s.currentPage ≤ pageNumMax
  ring : ∀ type, Distributed s type → IsRing s type
  order : ∀ t t', t.code < t'.code → Distributed s t' →
    (s.maps t).endPage < (s.maps t').startPage
  rest : ∀ type, ¬ Distributed s type → s.maps type = ⟨0, 0, 0, 0, 0, 0⟩

theorem RecordType.code_inj {t t' : RecordType} (h : t.code = t'.code) : t = t' := by
  cases t <;> cases t' <;> first | rfl | cases h

theorem Layout.reset (flash : Mem) : Layout (.reset flash) where
  fits := Nat.zero_le _
  ring _ h := absurd h (Nat.not_lt_zero _)
  order _ _ _ h := absurd h (Nat.not_lt_zero _)
  rest _ _ := rfl

theorem IsRing.bounds {s : Storage} {type : RecordType} (h : IsRing s type) :
    (s.maps type).startPage ≤ (s.maps type).endPage ∧ (s.maps type).endPage < s.currentPage ∧
      0 < (s.maps type).pagePerRecord := by
  obtain ⟨base, records, ppr, n, hrec, hppr, hfit, hmap⟩ := h
  have hpos := Nat.mul_pos hrec hppr
  rw [hmap]
  refine ⟨?_, ?_, hppr⟩
  · show base ≤ base + records * ppr - 1
    omega
  · show base + records * ppr - 1 < s.currentPage
    omega

/-- What a call of `storage_distribute` leaves. -/
theorem distribute_cases {s s' : Storage} {pages ppr : Nat} {type : RecordType}
    (h : storageDistribute s pages ppr type = some s') :
    type.code = s.currentIndex ∧ s.currentPage + pages ≤ pageNumMax ∧
      s'.currentIndex = s.currentIndex + 1 ∧ s'.currentPage = s.currentPage + pages ∧
      s'.maps = Function.update s.maps type
        ⟨s.currentPage, s.currentPage + pages - 1, ppr, type.code, s.currentPage, 0⟩ := by
  unfold storageDistribute at h
  split_ifs at h with hpass
  obtain ⟨-, htype, hfit⟩ := hpass
  cases h
  exact ⟨htype, hfit, rfl, rfl, rfl⟩

/-- A new region starts behind all others. -/
theorem Layout.distribute {s s' : Storage} {pages ppr : Nat} {type : RecordType} (h : Layout s)
    (hpages : 0 < pages) (hppr : ppr ∣ pages) (hrun : storageDistribute s pages ppr type = some s') :
    Layout s' := by
  obtain ⟨htype, hfit, hindex, hpage, hmaps⟩ := distribute_cases hrun
  obtain ⟨records, rfl⟩ := hppr
  have hrec : 0 < records := Nat.pos_of_mul_pos_left hpages
  have hppr : 0 < ppr := Nat.pos_of_mul_pos_right hpages
  have hnew : s'.maps type = mapAfter s.currentPage records ppr type 0 := by
    rw [hmaps, Function.update_self, Nat.mul_comm]
    simp [mapAfter, slotPage, newestSlot]
  have hold : ∀ t, t ≠ type → s'.maps t = s.maps t := by
    intro t ht
    rw [hmaps, Function.update_of_ne ht]
  have hdist : ∀ t, t ≠ type → (Distributed s' t ↔ Distributed s t) := by
    intro t ht
    have hcode : t.code ≠ type.code := fun he => ht (RecordType.code_inj he)
    unfold Distributed
    omega
  refine ⟨by omega, fun t ht => ?_, fun t t' hlt ht' => ?_, fun t ht => ?_⟩
  · by_cases he : t = type
    · subst he
      exact ⟨_, _, _, 0, hrec, hppr, Nat.le_of_eq (by rw [hpage, Nat.mul_comm ppr]), hnew⟩
    · obtain ⟨base, k, q, n, hk, hq, hbelow, hmap⟩ := h.ring t ((hdist t he).mp ht)
      exact ⟨base, k, q, n, hk, hq, by omega, (hold t he).trans hmap⟩
  · by_cases he : t' = type
    · subst he
      have hbefore : Distributed s t := by
        unfold Distributed
        omega
      obtain ⟨-, hend, -⟩ := (h.ring t hbefore).bounds
      rw [hnew, hold t fun he => absurd (congrArg RecordType.code he) (Nat.ne_of_lt hlt)]
      exact hend
    · have hat := (hdist t' he).mp ht'
      have hne : t ≠ type := by
        rintro rfl
        unfold Distributed at hat
        omega
      rw [hold t hne, hold t' he]
      exact h.order t t' hlt hat
  · have hne : t ≠ type := by
      rintro rfl
      refine ht ?_
      unfold Distributed
      omega
    rw [hold t hne]
    exact h.rest t fun hd => ht ((hdist t hne).mpr hd)

/-! ## Writes -/

/-- What a write leaves: an advanced map, and bytes of one record in the slot that the
map then names. -/
theorem write_cases {crcUnit : List UInt32 → UInt32} {device : Nat → Attempt} {s s' : Storage}
    {data : List UInt8} {unixTime : UInt32} {type : RecordType}
    (h : (StorageCall.write device data unixTime type).run crcUnit s = some s') :
    0 < (s.maps type).pagePerRecord ∧
      ∃ bytes : List UInt8, bytes.length = (s.maps type).sizePerRecord ∧
        s' = { s with
          maps := Function.update s.maps type (s.maps type).advance
          flash := writeBytes s.flash ((s.maps type).advance.currentPage * bytesPerSector) bytes } := by
  unfold StorageCall.run at h
  dsimp only at h
  split_ifs at h with hppr
  obtain ⟨⟨ok, t⟩, hwrite, rfl⟩ := Option.map_eq_some_iff.mp h
  obtain ⟨bytes, hlen, -, ht⟩ := writeRecord_cases (Nat.pos_of_ne_zero hppr) hwrite
  exact ⟨Nat.pos_of_ne_zero hppr, bytes, hlen, ht⟩

/-- A write moves one map on within its ring. -/
theorem Layout.write {crcUnit : List UInt32 → UInt32} {device : Nat → Attempt} {s s' : Storage}
    {data : List UInt8} {unixTime : UInt32} {type : RecordType} (h : Layout s)
    (hrun : (StorageCall.write device data unixTime type).run crcUnit s = some s') : Layout s' := by
  obtain ⟨hppr, bytes, -, rfl⟩ := write_cases hrun
  have hstart : ∀ t, (Function.update s.maps type (s.maps type).advance t).startPage =
      (s.maps t).startPage := by
    intro t
    by_cases he : t = type
    · subst he
      rw [Function.update_self, advance_startPage]
    · rw [Function.update_of_ne he]
  have hend : ∀ t, (Function.update s.maps type (s.maps type).advance t).endPage =
      (s.maps t).endPage := by
    intro t
    by_cases he : t = type
    · subst he
      rw [Function.update_self, advance_endPage]
    · rw [Function.update_of_ne he]
  refine ⟨h.fits, fun t ht => ?_, fun t t' hlt ht' => ?_, fun t ht => ?_⟩
  · obtain ⟨base, records, ppr, n, hrec, hpos, hbelow, hmap⟩ := h.ring t ht
    by_cases he : t = type
    · subst he
      refine ⟨base, records, ppr, n + 1, hrec, hpos, hbelow, ?_⟩
      show Function.update s.maps t (s.maps t).advance t = _
      rw [Function.update_self, hmap, mapAfter_advance hrec hpos]
    · refine ⟨base, records, ppr, n, hrec, hpos, hbelow, ?_⟩
      show Function.update s.maps type (s.maps type).advance t = _
      rw [Function.update_of_ne he, hmap]
  · show (Function.update s.maps type (s.maps type).advance t).endPage < _
    rw [hstart, hend]
    exact h.order t t' hlt ht'
  · have hzero := h.rest t ht
    have hne : t ≠ type := by
      rintro rfl
      rw [hzero] at hppr
      exact absurd hppr (Nat.lt_irrefl 0)
    show Function.update s.maps type (s.maps type).advance t = _
    rw [Function.update_of_ne hne, hzero]

theorem Layout.run {crcUnit : List UInt32 → UInt32} {calls : List StorageCall} {s s' : Storage}
    (h : Layout s) (hcalls : ∀ call ∈ calls, call.WholeRecords)
    (hrun : runCalls crcUnit s calls = some s') : Layout s' := by
  refine runSteps_inv (fun call hmem t t' ht hcall => ?_) h hrun
  cases call with
  | distribute pages ppr type =>
    obtain ⟨hpages, hppr⟩ := hcalls _ hmem
    exact ht.distribute hpages hppr hcall
  | write device data unixTime type => exact ht.write hcall

/-! ## Regions and slots -/

/-- A map points to a slot of its region. -/
structure InRegion (map : StorageMap) : Prop where
  start_le : map.startPage ≤ map.currentPage
  le_end : (map.currentPage : Int) + map.pagePerRecord - 1 ≤ map.endPage
  congruent : map.currentPage % map.pagePerRecord = map.startPage % map.pagePerRecord

structure Regions (s : Storage) : Prop where
  apart : ∀ t t', t ≠ t' → Distributed s t → Distributed s t' →
    (s.maps t).endPage < (s.maps t').startPage ∨ (s.maps t').endPage < (s.maps t).startPage
  allocated : ∀ t, Distributed s t →
    (s.maps t).startPage ≤ (s.maps t).endPage ∧ (s.maps t).endPage < s.currentPage
  fits : s.currentPage ≤ pageNumMax
  inRegion : ∀ t, InRegion (s.maps t)

/-- From `s` to `s'` only the slot that the type's map names at the end has changed in
the flash, and no other map. -/
structure OnlySlot (s s' : Storage) (type : RecordType) : Prop where
  pages : ∀ page, page < (s'.maps type).currentPage ∨
      (s'.maps type).currentPage + (s'.maps type).pagePerRecord ≤ page →
    deviceRead s'.flash page 1 = deviceRead s.flash page 1
  maps : ∀ t, t ≠ type → s'.maps t = s.maps t

theorem mapAfter_inRegion {base records ppr n : Nat} {type : RecordType} (hrec : 0 < records) :
    InRegion (mapAfter base records ppr type n) := by
  have hslot : slotPage base ppr (newestSlot records n) + ppr ≤ slotPage base ppr records :=
    slotPage_lt (newestSlot_lt hrec)
  unfold slotPage at hslot
  refine ⟨Nat.le_add_right _ _, ?_, Nat.add_mul_mod_self_right _ _ _⟩
  unfold mapAfter slotPage
  dsimp only
  omega

theorem Layout.regions {s : Storage} (h : Layout s) : Regions s := by
  refine ⟨fun t t' hne ht ht' => ?_, fun t ht => ?_, h.fits, fun t => ?_⟩
  · have hcode : t.code ≠ t'.code := fun he => hne (RecordType.code_inj he)
    rcases Nat.lt_or_gt_of_ne hcode with hlt | hgt
    · exact Or.inl (h.order t t' hlt ht')
    · exact Or.inr (h.order t' t hgt ht)
  · obtain ⟨hle, hbelow, -⟩ := (h.ring t ht).bounds
    exact ⟨hle, hbelow⟩
  · by_cases ht : Distributed s t
    · obtain ⟨base, records, ppr, n, hrec, -, -, hmap⟩ := h.ring t ht
      rw [hmap]
      exact mapAfter_inRegion hrec
    · rw [h.rest t ht]
      exact ⟨Nat.le_refl 0, by decide, rfl⟩

theorem write_onlySlot {crcUnit : List UInt32 → UInt32} {device : Nat → Attempt} {s s' : Storage}
    {data : List UInt8} {unixTime : UInt32} {type : RecordType}
    (h : (StorageCall.write device data unixTime type).run crcUnit s = some s') :
    OnlySlot s s' type := by
  obtain ⟨-, bytes, hlen, rfl⟩ := write_cases h
  refine ⟨fun page hpage => ?_, fun t ht => Function.update_of_ne ht _ _⟩
  simp only [Function.update_self, advance_pagePerRecord] at hpage
  refine readBytes_writeBytes_frame ?_
  rw [hlen]
  unfold Apart StorageMap.sizePerRecord
  rcases hpage with hlt | hge
  · have hmul := Nat.mul_le_mul_right bytesPerSector (Nat.succ_le_of_lt hlt)
    rw [Nat.succ_mul] at hmul
    omega
  · have hmul := Nat.mul_le_mul_right bytesPerSector hge
    rw [Nat.add_mul] at hmul
    omega

/-- **The storage regions.** After every sequence of calls, the regions are apart and
within the pages handed out, every map points to a slot of its region, and one more
write changes nothing but the slot of its own type. -/
theorem regions_kept {crcUnit : List UInt32 → UInt32} {flash : Mem} {calls : List StorageCall}
    {s : Storage} (hcalls : ∀ call ∈ calls, call.WholeRecords)
    (hrun : runCalls crcUnit (.reset flash) calls = some s) :
    Regions s ∧ ∀ device data unixTime type s',
      (StorageCall.write device data unixTime type).run crcUnit s = some s' → OnlySlot s s' type :=
  ⟨((Layout.reset flash).run hcalls hrun).regions, fun _ _ _ _ _ => write_onlySlot⟩

/-- A record that fits can be written to every region. -/
theorem exists_write (crcUnit : List UInt32 → UInt32) (device : Nat → Attempt) {s : Storage}
    {data : List UInt8} {type : RecordType} (hppr : 0 < (s.maps type).pagePerRecord)
    (hdata : data.length ≤ (s.maps type).sizePerRecord - recordHeaderSize) (unixTime : UInt32) :
    ∃ s', (StorageCall.write device data unixTime type).run crcUnit s = some s' := by
  unfold StorageCall.run
  dsimp only
  rw [if_neg (Nat.ne_of_gt hppr), writeRecord_eq, if_pos hdata]
  exact ⟨_, rfl⟩

/-- The regions of `thread_x_run.cc`. -/
def startUp : List StorageCall :=
  [.distribute 32 1 .catalog, .distribute 32 1 .par, .distribute 960 1 .log,
    .distribute 3072 8 .fault]

theorem regions_kept_startUp : ∃ s,
    runCalls stm32CrcUnit (.reset fun _ => 0xFF)
      (startUp ++ [.write (fun _ => .exact) [7] 0 .fault]) = some s ∧ Regions s := by
  have hcalls : ∀ call ∈ startUp ++ [.write (fun _ => .exact) [7] 0 .fault], call.WholeRecords := by
    intro call hc
    simp only [startUp, List.cons_append, List.nil_append, List.mem_cons, List.not_mem_nil,
      or_false] at hc
    rcases hc with rfl | rfl | rfl | rfl | rfl
    · exact ⟨by decide, by decide⟩
    · exact ⟨by decide, by decide⟩
    · exact ⟨by decide, by decide⟩
    · exact ⟨by decide, by decide⟩
    · trivial
  obtain ⟨s₀, hs₀, hmap⟩ : ∃ s₀, runCalls stm32CrcUnit (.reset fun _ => 0xFF) startUp = some s₀ ∧
      (s₀.maps .fault).pagePerRecord = 8 := ⟨_, rfl, rfl⟩
  have hdata : ([7] : List UInt8).length ≤ (s₀.maps .fault).sizePerRecord - recordHeaderSize := by
    unfold StorageMap.sizePerRecord
    rw [hmap]
    decide
  obtain ⟨s, hwrite⟩ := exists_write stm32CrcUnit (fun _ => .exact) (by rw [hmap]; decide) hdata 0
  have hrun : runCalls stm32CrcUnit (.reset fun _ => 0xFF)
      (startUp ++ [.write (fun _ => .exact) [7] 0 .fault]) = some s := by
    rw [runCalls, runSteps_append, ← runCalls, hs₀, Option.bind_some, runSteps, hwrite,
      Option.bind_some, runSteps]
  exact ⟨s, hrun, (regions_kept hcalls hrun).1⟩

end SC04Monitor.Flash
