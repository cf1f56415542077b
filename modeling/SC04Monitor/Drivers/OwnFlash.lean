import Mathlib.Tactic.Common

/-! # Erasing the flash of the chip

`own_flash_erase` erases the sectors from that of the first address to that of the address
behind the range. A range that ends on a sector boundary takes the next sector with it, one
that ends with the flash has its last sector read behind the table of sectors, and three
blank words pass for a blank range. -/

namespace SC04Monitor.Drivers

def flashBase : Nat := 0x08000000
def flashEnd : Nat := 0x08100000

/-- An erased word. -/
def blank : UInt32 := 0xffffffff

/-- `flash_sectors`: the codes `FLASH_Sector_0` to `FLASH_Sector_11`. -/
def flashSectors : List UInt16 :=
  [0x0000, 0x0008, 0x0010, 0x0018, 0x0020, 0x0028, 0x0030, 0x0038, 0x0040, 0x0048, 0x0050, 0x0058]

/-- `flash_sectors[i]`; the words behind the table are those of `behind`. -/
def flashSector (behind : Nat → UInt16) (i : Nat) : UInt16 :=
  if i < 12 then flashSectors.getD i 0 else behind (i - 12)

/-- `get_sector`. -/
def getSector (behind : Nat → UInt16) (address : Nat) : Nat :=
  let addressOffset := address &&& 0xffffff
  let sectorIndex :=
    let tmp := addressOffset / 0x20000
    if 0 < tmp then tmp + 4
    else
      let tmp := addressOffset / 0x10000
      if 0 < tmp then 3 + tmp else addressOffset / 0x4000
  (flashSector behind sectorIndex).toNat

/-- Where sector `k` begins, counted from the base: four of 16K, one of 64K, seven of 128K. -/
def sectorStart (k : Nat) : Nat := if k ≤ 4 then 0x4000 * k else 0x20000 * (k - 4)

/-- Word `w` lies in sector `k`. -/
def InSector (k w : Nat) : Prop := sectorStart k ≤ 4 * w ∧ 4 * w < sectorStart (k + 1)

/-- `*(uint32_t *)address`, also where the address is not aligned. -/
def readFlash (flash : Nat → UInt32) (address : Nat) : UInt32 :=
  let w := (address - flashBase) / 4
  let r := (address - flashBase) % 4
  if r = 0 then flash w
  else flash w >>> UInt32.ofNat (8 * r) ||| flash (w + 1) <<< UInt32.ofNat (32 - 8 * r)

/-- How `FLASH_EraseSector` ends. -/
inductive FlashStatus
  | complete (flash : Nat → UInt32)
  | failed
  | assertFailed

/-- `FLASH_EraseSector`: it checks the code of the sector, and it completes or fails. -/
def flashEraseSector (completes : Nat → Bool) (flash : Nat → UInt32) (code : Nat) : FlashStatus :=
  if code % 8 = 0 ∧ code ≤ 0x58 then
    if completes code then
      .complete fun w =>
        if sectorStart (code / 8) ≤ 4 * w ∧ 4 * w < sectorStart (code / 8 + 1) then blank
        else flash w
    else .failed
  else .assertFailed

/-- How `own_flash_erase` ends; `assert_failed` does not return. -/
inductive EraseResult
  | returned (code : Nat) (flash : Nat → UInt32)
  | assertFailed

/-- The loop of `own_flash_erase`. -/
def eraseLoop (completes : Nat → Bool) (endSector eraseSector : Nat) (flash : Nat → UInt32) :
    EraseResult :=
  if eraseSector ≤ endSector then
    match flashEraseSector completes flash eraseSector with
    | .complete flash => eraseLoop completes endSector (eraseSector + 8) flash
    | .failed => .returned 1 flash
    | .assertFailed => .assertFailed
  else .returned 0 flash
termination_by endSector + 1 - eraseSector

/-- The range passes for erased: its first and last words and the one in the middle are
blank. -/
def seemsErased (flash : Nat → UInt32) (address size : Nat) : Bool :=
  readFlash flash address == blank && readFlash flash (address + size - 4) == blank &&
    readFlash flash (address + size / 2) == blank

/-- `own_flash_erase`. -/
def ownFlashErase (behind : Nat → UInt16) (completes : Nat → Bool) (flash : Nat → UInt32)
    (address size : Nat) : EraseResult :=
  let startSector := getSector behind address
  let endSector := getSector behind (address + size)
  if seemsErased flash address size then .returned 0 flash
  else eraseLoop completes endSector startSector flash

/-- A range of words inside the flash. -/
structure FlashRange (address size : Nat) : Prop where
  aligned : address % 4 = 0
  words : size % 4 = 0
  pos : 4 ≤ size
  base_le : flashBase ≤ address
  le_end : address + size ≤ flashEnd

/-- Word `w` lies in the range. -/
def InRange (address size w : Nat) : Prop :=
  address ≤ flashBase + 4 * w ∧ flashBase + 4 * w < address + size

/-- The range is blank in `flash'`, and the sectors without a word of it are as in `flash`. -/
def Exact (flash flash' : Nat → UInt32) (address size : Nat) : Prop :=
  (∀ w, InRange address size w → flash' w = blank) ∧
    ∀ k < 12, (∀ w, InSector k w → ¬ InRange address size w) →
      ∀ w, InSector k w → flash' w = flash w

/-- If `own_flash_erase` returns 0, it has erased the range exactly. -/
def ErasesExactly (behind : Nat → UInt16) (completes : Nat → Bool) (flash : Nat → UInt32)
    (address size : Nat) : Prop :=
  ∀ flash', ownFlashErase behind completes flash address size = .returned 0 flash' →
    Exact flash flash' address size

/-! ## Sectors -/

theorem sectorStart_mono {j k : Nat} (h : j ≤ k) : sectorStart j ≤ sectorStart k := by
  unfold sectorStart
  split_ifs <;> omega

theorem flashSector_eq (behind : Nat → UInt16) {i : Nat} (hi : i < 12) :
    (flashSector behind i).toNat = 8 * i := by
  unfold flashSector
  rw [if_pos hi]
  revert i
  decide

/-- The sector of an address. -/
theorem getSector_spec (behind : Nat → UInt16) {off : Nat} (h : flashBase + off < flashEnd) :
    ∃ k < 12, getSector behind (flashBase + off) = 8 * k ∧ sectorStart k ≤ off ∧
      off < sectorStart (k + 1) := by
  unfold flashBase flashEnd at *
  have hoff : (0x08000000 + off) &&& 0xffffff = off := by
    rw [show (0xffffff : Nat) = 2 ^ 24 - 1 by rfl, Nat.and_two_pow_sub_one_eq_mod]
    omega
  unfold getSector
  dsimp only
  rw [hoff]
  unfold sectorStart
  split_ifs with h1 h2
  · refine ⟨off / 0x20000 + 4, by omega, flashSector_eq behind (by omega), ?_, ?_⟩ <;>
      split_ifs <;> omega
  · refine ⟨3 + off / 0x10000, by omega, flashSector_eq behind (by omega), ?_, ?_⟩ <;>
      split_ifs <;> omega
  · refine ⟨off / 0x4000, by omega, flashSector_eq behind (by omega), ?_, ?_⟩ <;>
      split_ifs <;> omega

/-- Behind the end of the flash the table has no code. -/
theorem getSector_end (behind : Nat → UInt16) :
    getSector behind flashEnd = (behind 0).toNat := rfl

/-! ## The loop -/

/-- The flash with the bytes from `lo` to `hi` erased. -/
def erased (flash : Nat → UInt32) (lo hi w : Nat) : UInt32 :=
  if lo ≤ 4 * w ∧ 4 * w < hi then blank else flash w

theorem erased_empty (flash : Nat → UInt32) {lo hi : Nat} (h : hi ≤ lo) :
    erased flash lo hi = flash := by
  funext w
  unfold erased
  exact if_neg (by omega)

theorem erased_erased (flash : Nat → UInt32) {a b c : Nat} (h₁ : a ≤ b) (h₂ : b ≤ c) :
    erased (erased flash a b) b c = erased flash a c := by
  funext w
  unfold erased
  split_ifs <;> first | rfl | omega

theorem flashEraseSector_sector (completes : Nat → Bool) (flash : Nat → UInt32) {j : Nat}
    (hj : j < 12) : flashEraseSector completes flash (8 * j) =
      if completes (8 * j) then .complete (erased flash (sectorStart j) (sectorStart (j + 1)))
      else .failed := by
  unfold flashEraseSector
  rw [if_pos (by omega), Nat.mul_div_cancel_left j (by decide)]
  rfl

theorem flashEraseSector_behind (completes : Nat → Bool) (flash : Nat → UInt32) :
    flashEraseSector completes flash 96 = .assertFailed := rfl

/-- Behind the last code the loop returns 0 with the flash as it is. -/
theorem eraseLoop_done (completes : Nat → Bool) {x j : Nat} (flash flash' : Nat → UInt32)
    (hj : j ≤ 12) (hx : ¬ 8 * j ≤ x) :
    eraseLoop completes x (8 * j) flash = .returned 0 flash' ↔
      x < 96 ∧ (∀ k, j ≤ k → 8 * k ≤ x → completes (8 * k) = true) ∧
        flash' = erased flash (sectorStart j) (sectorStart (x / 8 + 1)) := by
  have hempty := erased_empty flash (sectorStart_mono (show x / 8 + 1 ≤ j by omega))
  rw [eraseLoop, if_neg hx, hempty]
  constructor
  · intro h
    cases h
    exact ⟨by omega, fun k hk hkx => by omega, rfl⟩
  · rintro ⟨-, -, rfl⟩
    rfl

/-- The loop returns 0 if the codes are those of sectors and every erase completes. -/
theorem eraseLoop_eq_zero_iff (completes : Nat → Bool) (x : Nat) {flash' : Nat → UInt32} :
    ∀ (m j : Nat) (flash : Nat → UInt32), j + m = 12 →
      (eraseLoop completes x (8 * j) flash = .returned 0 flash' ↔
        x < 96 ∧ (∀ k, j ≤ k → 8 * k ≤ x → completes (8 * k) = true) ∧
          flash' = erased flash (sectorStart j) (sectorStart (x / 8 + 1))) := by
  intro m
  induction m with
  | zero =>
    intro j flash hj
    obtain rfl : j = 12 := hj
    by_cases hx : 8 * 12 ≤ x
    · rw [eraseLoop, if_pos hx, flashEraseSector_behind]
      constructor
      · intro h
        cases h
      · intro h
        omega
    · exact eraseLoop_done completes flash flash' (Nat.le_refl 12) hx
  | succ m ih =>
    intro j flash hj
    by_cases hx : 8 * j ≤ x
    · rw [eraseLoop, if_pos hx, flashEraseSector_sector _ _ (by omega)]
      cases hc : completes (8 * j) with
      | false =>
        constructor
        · intro h
          cases h
        · intro h
          exact absurd (h.2.1 j (Nat.le_refl j) hx) (by rw [hc]; decide)
      | true =>
        have hspan := erased_erased flash (sectorStart_mono (Nat.le_succ j))
          (sectorStart_mono (show j + 1 ≤ x / 8 + 1 by omega))
        have hrest := ih (j + 1) (erased flash (sectorStart j) (sectorStart (j + 1))) (by omega)
        rw [hspan] at hrest
        refine hrest.trans ⟨fun h => ⟨h.1, fun k hk hkx => ?_, h.2.2⟩, fun h =>
          ⟨h.1, fun k hk hkx => h.2.1 k (by omega) hkx, h.2.2⟩⟩
        rcases Nat.lt_or_eq_of_le hk with hlt | rfl
        · exact h.2.1 k hlt hkx
        · exact hc
    · exact eraseLoop_done completes flash flash' (by omega) hx

/-! ## What an erased span does to a range -/

section
variable {off size s : Nat}

theorem lt_of_sectorStart_lt {j k : Nat} (h : sectorStart j < sectorStart k) : j < k := by
  by_contra hle
  exact absurd (sectorStart_mono (Nat.not_lt.mp hle)) (Nat.not_le.mpr h)

theorem sectorStart_lt_succ (k : Nat) : sectorStart k < sectorStart (k + 1) := by
  unfold sectorStart
  split_ifs <;> omega

theorem sectorStart_aligned (k : Nat) : sectorStart k % 4 = 0 := by
  unfold sectorStart
  split_ifs <;> omega

theorem inRange_iff (w : Nat) :
    InRange (flashBase + off) size w ↔ off ≤ 4 * w ∧ 4 * w < off + size := by
  unfold InRange
  omega

/-- A sector without a word of the range lies before or behind it. -/
theorem sector_outside (hoff : off % 4 = 0) (hsize : size % 4 = 0) (hpos : 4 ≤ size) {k : Nat}
    (h : ∀ w, InSector k w → ¬ InRange (flashBase + off) size w) :
    sectorStart (k + 1) ≤ off ∨ off + size ≤ sectorStart k := by
  by_contra hmeet
  have hstart := sectorStart_lt_succ k
  have hal := sectorStart_aligned k
  -- the first word of the two starts lies in both
  refine h (max off (sectorStart k) / 4) ?_ ((inRange_iff _).mpr ?_)
  · unfold InSector
    omega
  · omega

/-- The words of a sector before the range lie before the sector of its first word. -/
theorem before_span {k w : Nat} (hs : off < sectorStart (s + 1)) (hw : InSector k w)
    (hbefore : sectorStart (k + 1) ≤ off) : 4 * w < sectorStart s := by
  have hlt : k + 1 < s + 1 := lt_of_sectorStart_lt (by omega)
  exact Nat.lt_of_lt_of_le hw.2 (sectorStart_mono (Nat.lt_succ_iff.mp hlt))

theorem exists_sector {w : Nat} (h : 4 * w < sectorStart 12) : ∃ k < 12, InSector k w := by
  have hend : sectorStart 12 = 0x100000 := rfl
  have hin : flashBase + 4 * w < flashEnd := by
    unfold flashBase flashEnd
    omega
  obtain ⟨k, hk, -, hlo, hhi⟩ := getSector_spec (fun _ => 0) hin
  exact ⟨k, hk, hlo, hhi⟩

/-- Erasing the sectors from that of the range's begin to that of the address behind it. -/
theorem exact_erased_iff (hoff : off % 4 = 0) (hsize : size % 4 = 0) (hpos : 4 ≤ size)
    (flash : Nat → UInt32) {e : Nat} (hs : sectorStart s ≤ off ∧ off < sectorStart (s + 1))
    (he : sectorStart e ≤ off + size ∧ off + size < sectorStart (e + 1)) :
    Exact flash (erased flash (sectorStart s) (sectorStart (e + 1))) (flashBase + off) size ↔
      ∀ k < 12, sectorStart k = off + size → ∀ w, InSector k w → flash w = blank := by
  constructor
  · intro h k hk hstart w hw
    have hkeep := h.2 k hk (fun v hv hin => ?_) w hw
    · have hse : sectorStart s ≤ sectorStart k := by omega
      have hke : sectorStart (k + 1) ≤ sectorStart (e + 1) := by
        have hlt : k < e + 1 := lt_of_sectorStart_lt (by omega)
        exact sectorStart_mono hlt
      unfold InSector at hw
      unfold erased at hkeep
      rw [if_pos (by omega)] at hkeep
      exact hkeep.symm
    · have hin' := (inRange_iff v).mp hin
      unfold InSector at hv
      omega
  · intro h
    refine ⟨fun w hw => ?_, fun k hk hout w hw => ?_⟩
    · have hw' := (inRange_iff w).mp hw
      unfold erased
      exact if_pos (by omega)
    · unfold erased
      split_ifs with hin
      · refine (h k hk ?_ w hw).symm
        rcases sector_outside hoff hsize hpos hout with hbefore | hbehind
        · exact absurd hin.1 (Nat.not_le.mpr (before_span hs.2 hw hbefore))
        · unfold InSector at hw
          have hlt : k < e + 1 := lt_of_sectorStart_lt (by omega)
          have hle := sectorStart_mono (Nat.lt_succ_iff.mp hlt)
          omega
      · rfl

/-- Erasing the sectors up to some code for a range up to the end of the flash. -/
theorem exact_erased_end_iff (hoff : off % 4 = 0) (hsize : size % 4 = 0) (hpos : 4 ≤ size)
    (flash : Nat → UInt32) {x : Nat} (hs : sectorStart s ≤ off ∧ off < sectorStart (s + 1))
    (hend : off + size = sectorStart 12) :
    Exact flash (erased flash (sectorStart s) (sectorStart (x / 8 + 1))) (flashBase + off) size ↔
      ∀ k < 12, x < 8 * k → ∀ w, InSector k w → InRange (flashBase + off) size w →
        flash w = blank := by
  constructor
  · intro h k hk hx w hw hin
    have hblank := h.1 w hin
    have hle := sectorStart_mono (show x / 8 + 1 ≤ k by omega)
    unfold InSector at hw
    unfold erased at hblank
    rwa [if_neg (by omega)] at hblank
  · intro h
    refine ⟨fun w hw => ?_, fun k hk hout w hw => ?_⟩
    · unfold erased
      split_ifs with hin
      · rfl
      · have hw' := (inRange_iff w).mp hw
        obtain ⟨k, hk, hsec⟩ := exists_sector (show 4 * w < sectorStart 12 by omega)
        refine h k hk ?_ w hsec hw
        by_contra hx
        have hle := sectorStart_mono (show k + 1 ≤ x / 8 + 1 by omega)
        unfold InSector at hsec
        omega
    · unfold erased
      refine if_neg fun hin => ?_
      rcases sector_outside hoff hsize hpos hout with hbefore | hbehind
      · exact absurd hin.1 (Nat.not_le.mpr (before_span hs.2 hw hbefore))
      · unfold InSector at hw
        have hlt : 12 < k + 1 := lt_of_sectorStart_lt (by omega)
        omega

end

/-! ## When the erase is exact -/

/-- What the erase has to meet. If the range seems erased, it has to be. If not, some erase
fails; or the range ends before the flash and a sector that begins right behind it is blank
already; or the range ends with the flash and what lies behind `flash_sectors` leaves no
sector out that has to be erased. -/
def EraseMeets (behind : Nat → UInt16) (completes : Nat → Bool) (flash : Nat → UInt32)
    (address size : Nat) : Prop :=
  if seemsErased flash address size then ∀ w, InRange address size w → flash w = blank
  else
    (∃ k < 12, getSector behind address ≤ 8 * k ∧ 8 * k ≤ getSector behind (address + size) ∧
      completes (8 * k) = false) ∨
    (address + size < flashEnd ∧
      ∀ k < 12, flashBase + sectorStart k = address + size → ∀ w, InSector k w → flash w = blank) ∨
    (address + size = flashEnd ∧
      ∀ k < 12, (behind 0).toNat < 8 * k → ∀ w, InSector k w → InRange address size w →
        flash w = blank)

section
variable (behind : Nat → UInt16) (completes : Nat → Bool) (flash : Nat → UInt32)
variable {address size : Nat}

/-- With the shortcut nothing is erased. -/
theorem erasesExactly_seems_iff (hseems : seemsErased flash address size = true) :
    ErasesExactly behind completes flash address size ↔
      ∀ w, InRange address size w → flash w = blank := by
  unfold ErasesExactly ownFlashErase
  dsimp only
  rw [hseems, if_pos rfl]
  constructor
  · intro h
    exact (h flash rfl).1
  · intro h flash' hret
    cases hret
    exact ⟨h, fun _ _ _ _ _ => rfl⟩

/-- Without the shortcut: either an erase fails or the erased span is exact. -/
theorem erasesExactly_loop_iff (hseems : seemsErased flash address size = false) {s : Nat}
    (hs12 : s < 12) (hs : getSector behind address = 8 * s) :
    ErasesExactly behind completes flash address size ↔
      (getSector behind (address + size) < 96 →
        (∀ k, s ≤ k → 8 * k ≤ getSector behind (address + size) → completes (8 * k) = true) →
        Exact flash (erased flash (sectorStart s)
          (sectorStart (getSector behind (address + size) / 8 + 1))) address size) := by
  unfold ErasesExactly ownFlashErase
  dsimp only
  rw [hseems, hs]
  generalize getSector behind (address + size) = x
  constructor
  · intro h hx hall
    exact h _ ((eraseLoop_eq_zero_iff completes x (12 - s) s flash (by omega)).mpr ⟨hx, hall, rfl⟩)
  · intro h flash' hret
    obtain ⟨hx, hall, rfl⟩ :=
      (eraseLoop_eq_zero_iff completes x (12 - s) s flash (by omega)).mp hret
    exact h hx hall

/-- The erases of a loop fail, or what is left when all complete holds. -/
theorem fails_or_iff {x s : Nat} {P C : Prop} (hP : x < 96 → (P ↔ C)) (hC : 96 ≤ x → C) :
    (x < 96 → (∀ k, s ≤ k → 8 * k ≤ x → completes (8 * k) = true) → P) ↔
      (∃ k < 12, 8 * s ≤ 8 * k ∧ 8 * k ≤ x ∧ completes (8 * k) = false) ∨ C := by
  constructor
  · intro h
    rcases Nat.lt_or_ge x 96 with hx | hx
    · by_cases hall : ∀ k, s ≤ k → 8 * k ≤ x → completes (8 * k) = true
      · exact .inr ((hP hx).mp (h hx hall))
      · obtain ⟨k, hk⟩ := not_forall.mp hall
        obtain ⟨hsk, hk⟩ := Classical.not_imp.mp hk
        obtain ⟨hkx, hfail⟩ := Classical.not_imp.mp hk
        exact .inl ⟨k, by omega, by omega, hkx, Bool.eq_false_iff.mpr hfail⟩
    · exact .inr (hC hx)
  · intro h hx hall
    rcases h with ⟨k, -, hsk, hkx, hfail⟩ | hc
    · rw [hall k (by omega) hkx] at hfail
      cases hfail
    · exact (hP hx).mpr hc

/-- `own_flash_erase` erases exactly if and only if `EraseMeets`. -/
theorem erasesExactly_iff (hr : FlashRange address size) :
    ErasesExactly behind completes flash address size ↔
      EraseMeets behind completes flash address size := by
  obtain ⟨off, rfl⟩ := Nat.exists_eq_add_of_le hr.base_le
  have hle := hr.le_end
  have hpos := hr.pos
  have hoff : off % 4 = 0 := by
    have hal := hr.aligned
    unfold flashBase at hal
    omega
  unfold EraseMeets
  cases hseems : seemsErased flash (flashBase + off) size with
  | true =>
    rw [if_pos rfl]
    exact erasesExactly_seems_iff behind completes flash hseems
  | false =>
    have hbegin : flashBase + off < flashEnd := by omega
    obtain ⟨s, hs12, hs, hspan⟩ := getSector_spec behind hbegin
    rw [if_neg (by decide), erasesExactly_loop_iff behind completes flash hseems hs12 hs, hs]
    rw [Nat.add_assoc] at hle ⊢
    rcases Nat.lt_or_eq_of_le hle with hlt | hend
    · -- the address behind the range has a sector of its own
      obtain ⟨e, he12, he, hnext⟩ := getSector_spec behind hlt
      rw [he, Nat.mul_div_cancel_left e (by decide)]
      refine fails_or_iff completes (fun _ => ?_) (fun hx => by omega)
      refine (exact_erased_iff hoff hr.words hpos flash hspan hnext).trans ?_
      simp only [Nat.add_left_cancel_iff]
      rw [or_iff_left fun h => Nat.ne_of_lt hlt h.1, and_iff_right hlt]
    · -- the code is what lies behind the table
      have h12 : off + size = sectorStart 12 := by
        have hend' : sectorStart 12 = 0x100000 := rfl
        unfold flashBase flashEnd at hend
        omega
      rw [hend, getSector_end]
      have hiff := fun x => @exact_erased_end_iff off size s hoff hr.words hpos flash x hspan h12
      refine fails_or_iff completes (fun _ => (hiff _).trans ?_) fun hx =>
        .inr ⟨rfl, fun k hk hx' => by omega⟩
      rw [or_iff_right fun h => Nat.lt_irrefl _ h.1, and_iff_right rfl]

end

/-- A flash with blank words but for one in the second word of the range. -/
def partlyWritten (w : Nat) : UInt32 := if w = 1 then 0 else blank

/-- A range of 16 words whose first, last and middle words are blank passes for blank, although
its second word is not. -/
theorem partlyWritten_left :
    ¬ ∀ behind completes flash address size, FlashRange address size →
      ErasesExactly behind completes flash address size := by
  intro h
  have hr : FlashRange flashBase 64 := by constructor <;> decide
  have hret : ownFlashErase (fun _ => 0) (fun _ => true) partlyWritten flashBase 64 =
      .returned 0 partlyWritten := rfl
  have hblank := (h _ _ _ _ _ hr _ hret).1 1 (by unfold InRange; decide)
  exact absurd hblank (by decide)

/-- A range of 16 words that begins with a written word and ends within its sector. -/
theorem erasesExactly_written :
    ErasesExactly (fun _ => 0) (fun _ => true) (fun w => if w = 0 then 0 else blank) flashBase 64 :=
  (erasesExactly_iff (fun _ => 0) (fun _ => true) (fun w => if w = 0 then 0 else blank)
    (by constructor <;> decide)).mpr (by
      have hends : ∀ k < 12, flashBase + sectorStart k ≠ flashBase + 64 := by decide
      exact .inr (.inl ⟨by decide, fun k hk he => absurd he (hends k hk)⟩))

end SC04Monitor.Drivers
