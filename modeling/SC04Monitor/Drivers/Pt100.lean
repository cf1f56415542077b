import Mathlib.Algebra.Ring.Nat
import Mathlib.Order.Monotone.Basic
import Mathlib.Tactic.Common

/-! # The PT100 conversion

`PT100_GetTempr` looks for the reading in a table of 161 words, one for each degree from
-40 on, setting the bits of the index one by one, and interpolates behind the entry that it
finds. A reading that is not above the first entry ends in a branch that reads the entry
before the first. -/

namespace SC04Monitor.Drivers

def pt100TabLen : Nat := 161
def pt100InitMask : UInt16 := 0x80
def errT : Int := 19999

/-- `PT100_T`. -/
def pt100T (v : UInt16) : Int := ((v.toNat : Int) + -40) * 10

/-- `PT100_TAB`. -/
def pt100Words : List UInt16 := [
  209, 222, 238, 255, 269, 283, 294, 310, 325, 340,
  355, 370, 386, 401, 415, 430, 448, 460, 477, 491,
  505, 520, 536, 548, 564, 578, 594, 610, 622, 638,
  650, 668, 685, 699, 714, 726, 740, 755, 772, 786,
  800, 816, 832, 845, 860, 875, 887, 902, 917, 932,
  947, 963, 979, 991, 1006, 1027, 1036, 1050, 1065, 1078,
  1095, 1100, 1124, 1138, 1153, 1167, 1176, 1195, 1212, 1225,
  1240, 1255, 1270, 1280, 1298, 1313, 1327, 1345, 1356, 1371,
  1382, 1400, 1414, 1429, 1443, 1458, 1472, 1484, 1458, 1515,
  1529, 1545, 1558, 1573, 1588, 1600, 1615, 1630, 1643, 1660,
  1670, 1685, 1700, 1715, 1729, 1744, 1755, 1770, 1785, 1801,
  1816, 1829, 1843, 1855, 1870, 1885, 1900, 1915, 1927, 1942,
  1958, 1972, 1987, 2000, 2013, 2028, 2041, 2059, 2072, 2085,
  2098, 2116, 2128, 2145, 2156, 2171, 2186, 2196, 2215, 2225,
  2240, 2255, 2270, 2281, 2295, 2310, 2325, 2339, 2350, 2365,
  2379, 2395, 2410, 2420, 2435, 2451, 2465, 2477, 2491, 2505, 2520]

def pt100Tab (i : Nat) : UInt16 := pt100Words.getD i 0

/-- What C does not define. -/
inductive Pt100Error
  | outsideTable
  | divideByZero
  deriving DecidableEq

/-- `wPT100Tab[i]`. -/
def tabAt (tab : Nat → UInt16) (i : Int) : Except Pt100Error Int :=
  if 0 ≤ i ∧ i < pt100TabLen then .ok (tab i.toNat).toNat else .error .outsideTable

def divide (a b : Int) : Except Pt100Error Int :=
  if b = 0 then .error .divideByZero else .ok (a.tdiv b)

/-- How the loop of `PT100_GetTempr` ends. -/
inductive Approach
  | equal (wIndex : UInt16)
  | last (wIndex : UInt16)

/-- The loop of `PT100_GetTempr` with `n` masks to go. -/
def approach (tab : Nat → UInt16) (wAdVal : UInt16) : Nat → UInt16 → Except Pt100Error Approach
  | 0, wIndex => .ok (.last wIndex)
  | n + 1, wIndex =>
    let wMask : UInt16 := 1 <<< UInt16.ofNat n
    if (wIndex ||| wMask).toNat ≤ pt100TabLen - 1 then do
      let wIndex := wIndex ||| wMask
      let t ← tabAt tab wIndex.toNat
      if wAdVal.toNat = t then .ok (.equal wIndex)
      else if t < wAdVal.toNat then approach tab wAdVal n wIndex
      else approach tab wAdVal n (wIndex &&& ~~~wMask)
    else approach tab wAdVal n wIndex

/-- The interpolation at the end; `wTemp` is a word. -/
def interpolate (tab : Nat → UInt16) (wAdVal wIndex : UInt16) : Except Pt100Error Int := do
  let i : Int := wIndex.toNat
  let v : Int := wAdVal.toNat
  let t ← tabAt tab i
  let wTemp ←
    if t < v then do
      let next ← tabAt tab (i + 1)
      divide (10 * (v - t)) (next - t)
    else do
      let prev ← tabAt tab (i - 1)
      divide (10 * t - v) (t - prev)
  return (pt100T wIndex + wTemp % 65536).bmod 65536

/-- `PT100_GetTempr`. -/
def pt100GetTempr (tab : Nat → UInt16) (wAdVal : UInt16) : Except Pt100Error Int := do
  let first ← tabAt tab 0
  let last ← tabAt tab (pt100TabLen - 1)
  if wAdVal.toNat < first ∨ last < wAdVal.toNat then return errT
  else
    -- `PT100_INIT_MASK` is the first of eight masks
    match ← approach tab wAdVal 8 0 with
    | .equal wIndex => return pt100T wIndex
    | .last wIndex => interpolate tab wAdVal wIndex

example : pt100InitMask = (1 : UInt16) <<< 7 := rfl
example : pt100GetTempr pt100Tab 800 = .ok 0 := by decide +kernel

/-! ## The search -/

/-- The table is strictly increasing. -/
def Increasing (tab : Nat → UInt16) : Prop := ∀ i, i + 1 < pt100TabLen → tab i < tab (i + 1)

section
variable {tab : Nat → UInt16}

theorem Increasing.lt (hs : Increasing tab) {i j : Nat} (hij : i < j) (hj : j < pt100TabLen) :
    tab i < tab j := by
  induction j with
  | zero => omega
  | succ j ih =>
    rcases Nat.lt_succ_iff_lt_or_eq.mp hij with hlt | rfl
    · exact UInt16.lt_trans (ih hlt (by omega)) (hs j hj)
    · exact hs i hj

theorem tabAt_ok {i : Nat} (hi : i < pt100TabLen) : tabAt tab i = .ok (tab i).toNat := by
  unfold tabAt
  rw [if_pos ⟨by omega, by omega⟩, Int.toNat_natCast]

/-- A mask whose bit and lower ones are clear: setting it adds it, clearing takes it back. -/
theorem mask_spec : ∀ n < 8, ∀ i < 161, i % 2 ^ (n + 1) = 0 →
    (UInt16.ofNat i ||| 1 <<< UInt16.ofNat n).toNat = i + 2 ^ n ∧
      (UInt16.ofNat i ||| 1 <<< UInt16.ofNat n) &&& ~~~(1 <<< UInt16.ofNat n) = UInt16.ofNat i := by
  decide +kernel

/-- Where the search can be: before `n` more masks the reading is above the entry (or the
index is still 0) and below the one that is `2 ^ n` further. -/
structure At (tab : Nat → UInt16) (v : UInt16) (n i : Nat) : Prop where
  lt_len : i < pt100TabLen
  aligned : i % 2 ^ n = 0
  above : i = 0 ∨ tab i < v
  below : i + 2 ^ n < pt100TabLen → v < tab (i + 2 ^ n)

theorem At.aligned_succ {v : UInt16} {n i : Nat} (h : At tab v (n + 1) i) : i % 2 ^ n = 0 := by
  have hd : 2 ^ (n + 1) ∣ i := Nat.dvd_of_mod_eq_zero h.aligned
  exact Nat.mod_eq_zero_of_dvd (Nat.dvd_trans ⟨2, Nat.pow_succ 2 n⟩ hd)

/-- The bit stays set where the entry is below the reading. -/
theorem At.upper {v : UInt16} {n i : Nat} (h : At tab v (n + 1) i)
    (hlt : i + 2 ^ n < pt100TabLen) (habove : tab (i + 2 ^ n) < v) : At tab v n (i + 2 ^ n) := by
  refine ⟨hlt, ?_, .inr habove, fun h' => ?_⟩
  · rw [Nat.add_mod_right, h.aligned_succ]
  · have hpow : 2 ^ (n + 1) = 2 ^ n + 2 ^ n := by omega
    rw [Nat.add_assoc, ← hpow] at h' ⊢
    exact h.below h'

/-- It is cleared again, or not tried, where there is no such entry. -/
theorem At.lower {v : UInt16} {n i : Nat} (h : At tab v (n + 1) i)
    (hbelow : i + 2 ^ n < pt100TabLen → v < tab (i + 2 ^ n)) : At tab v n i :=
  ⟨h.lt_len, h.aligned_succ, h.above, hbelow⟩

/-- How the search ends. -/
theorem approach_spec (v : UInt16) {n i : Nat} (hn : n ≤ 8)
    (h : At tab v n i) :
    (∃ j, 0 < j ∧ j < pt100TabLen ∧ tab j = v ∧
      approach tab v n (UInt16.ofNat i) = .ok (.equal (UInt16.ofNat j))) ∨
    (∃ j, At tab v 0 j ∧
      approach tab v n (UInt16.ofNat i) = .ok (.last (UInt16.ofNat j))) := by
  induction n generalizing i with
  | zero => exact .inr ⟨i, h, rfl⟩
  | succ n ih =>
    obtain ⟨hset, hclear⟩ := mask_spec n (by omega) i h.lt_len h.aligned
    have hword : UInt16.ofNat i ||| 1 <<< UInt16.ofNat n = UInt16.ofNat (i + 2 ^ n) := by
      rw [← hset, UInt16.ofNat_toNat]
    rw [hword] at hset hclear
    unfold approach
    dsimp only
    rw [hword, hset, hclear]
    by_cases hlen : i + 2 ^ n ≤ pt100TabLen - 1
    · have hlt : i + 2 ^ n < pt100TabLen := Nat.lt_of_le_of_lt hlen (by decide)
      rw [if_pos hlen, tabAt_ok hlt]
      dsimp only [Bind.bind, Except.bind]
      rcases Nat.lt_trichotomy (tab (i + 2 ^ n)).toNat v.toNat with hgt | heq | hle
      · rw [if_neg (by omega), if_pos (by omega)]
        exact ih (by omega) (h.upper hlt hgt)
      · rw [if_pos (by omega)]
        have hpos : 0 < i + 2 ^ n := Nat.add_pos_right i (Nat.two_pow_pos n)
        exact .inl ⟨i + 2 ^ n, hpos, hlt, UInt16.toNat_inj.mp heq, rfl⟩
      · rw [if_neg (by omega), if_neg (by omega)]
        exact ih (by omega) (h.lower fun _ => hle)
    · rw [if_neg hlen]
      have hlen' : ¬ i + 2 ^ n < pt100TabLen := by unfold pt100TabLen at *; omega
      exact ih (by omega) (h.lower fun hlt => absurd hlt hlen')

/-! ## The conversion -/

/-- The reading is covered by the table. -/
def InTable (tab : Nat → UInt16) (v : UInt16) : Prop := tab 0 ≤ v ∧ v ≤ tab (pt100TabLen - 1)

/-- The reading is converted to a temperature within its degree. -/
def Converts (tab : Nat → UInt16) (v : UInt16) : Prop :=
  ∃ t, pt100GetTempr tab v = .ok t ∧
    ∀ i : Nat, i + 1 < pt100TabLen → tab i ≤ v → v ≤ tab (i + 1) →
      10 * ((i : Int) - 40) ≤ t ∧ t ≤ 10 * ((i : Int) - 39)

/-- The temperature of a reading between two entries, in tenths of a degree. -/
def between (tab : Nat → UInt16) (v : UInt16) (j : Nat) : Int :=
  10 * ((j : Int) - 40) +
    10 * ((v.toNat : Int) - (tab j).toNat) / ((tab (j + 1)).toNat - (tab j).toNat)

theorem pt100T_ofNat {j : Nat} (hj : j < pt100TabLen) :
    pt100T (UInt16.ofNat j) = 10 * ((j : Int) - 40) := by
  unfold pt100T pt100TabLen at *
  rw [UInt16.toNat_ofNat_of_lt' (Nat.lt_trans hj (by decide))]
  omega

/-- The quotient of the interpolation. -/
theorem quotient_bounds {a d : Int} (ha : 0 ≤ a) (had : a < d) :
    0 ≤ 10 * a / d ∧ 10 * a / d < 10 := by
  have hd : 0 < d := by omega
  constructor
  · exact Int.ediv_nonneg (by omega) (by omega)
  · rw [Int.ediv_lt_iff_lt_mul hd]
    omega

/-- The interpolation behind an entry that is below the reading. -/
theorem interpolate_above {v : UInt16} {j : Nat} (hlen : j + 1 < pt100TabLen) (hlo : tab j < v)
    (hhi : v < tab (j + 1)) : interpolate tab v (UInt16.ofNat j) = .ok (between tab v j) := by
  have hj : j < pt100TabLen := Nat.lt_of_succ_lt hlen
  have hto : (UInt16.ofNat j).toNat = j :=
    UInt16.toNat_ofNat_of_lt' (Nat.lt_trans hj (by decide))
  have hlo' : (tab j).toNat < v.toNat := hlo
  have hhi' : v.toNat < (tab (j + 1)).toNat := hhi
  obtain ⟨hq0, hq10⟩ := @quotient_bounds ((v.toNat : Int) - (tab j).toNat)
    ((tab (j + 1)).toNat - (tab j).toNat) (by omega) (by omega)
  have hnext : tabAt tab ((j : Int) + 1) = .ok (tab (j + 1)).toNat := tabAt_ok hlen
  unfold interpolate
  dsimp only
  rw [hto, tabAt_ok hj]
  dsimp only [Bind.bind, Except.bind]
  rw [if_pos (by omega), hnext]
  dsimp only
  unfold divide
  rw [if_neg (by omega)]
  dsimp only [Pure.pure, Except.pure]
  rw [Int.tdiv_eq_ediv_of_nonneg (by omega), Int.emod_eq_of_lt hq0 (by omega), pt100T_ofNat hj,
    Int.bmod_eq_of_le (by unfold pt100TabLen at hj; omega) (by unfold pt100TabLen at hj; omega)]
  rfl

/-- The interpolation at index 0 for a reading that is not above the first entry. -/
theorem interpolate_first : interpolate tab (tab 0) 0 = .error .outsideTable := by
  have h0 : tabAt tab ((UInt16.toNat 0 : Nat) : Int) = .ok (tab 0).toNat := tabAt_ok (by decide)
  unfold interpolate
  dsimp only
  rw [h0]
  dsimp only [Bind.bind, Except.bind]
  rw [if_neg (Int.lt_irrefl _)]
  rfl

theorem pt100GetTempr_eq {v : UInt16} (hv : InTable tab v) :
    pt100GetTempr tab v = (approach tab v 8 (UInt16.ofNat 0)).bind fun a =>
      match a with
      | .equal wIndex => .ok (pt100T wIndex)
      | .last wIndex => interpolate tab v wIndex := by
  have h0 : tabAt tab 0 = .ok (tab 0).toNat := tabAt_ok (by decide)
  have h160 : tabAt tab ((pt100TabLen : Int) - 1) = .ok (tab (pt100TabLen - 1)).toNat :=
    tabAt_ok (by decide)
  have hlo : (tab 0).toNat ≤ v.toNat := hv.1
  have hhi : v.toNat ≤ (tab (pt100TabLen - 1)).toNat := hv.2
  unfold pt100GetTempr
  rw [h0, h160]
  dsimp only [Bind.bind, Except.bind]
  rw [if_neg (by omega)]
  rfl

/-- The search of a reading that the table covers. -/
theorem At.start {v : UInt16} : At tab v 8 0 :=
  ⟨by decide, rfl, .inl rfl, fun h => absurd h (by decide)⟩

/-- The reading is at entry `j` or between it and the next one. -/
structure Located (tab : Nat → UInt16) (v : UInt16) (j : Nat) : Prop where
  lt_len : j < pt100TabLen
  le : tab j ≤ v
  lt : j + 1 < pt100TabLen → v < tab (j + 1)

theorem between_entry {v : UInt16} {j : Nat} (h : tab j = v) :
    between tab v j = 10 * ((j : Int) - 40) := by
  unfold between
  rw [h, Int.sub_self, Int.mul_zero, Int.zero_ediv, Int.add_zero]

/-- What `PT100_GetTempr` returns for the readings above the first entry. -/
theorem pt100GetTempr_above (hs : Increasing tab) {v : UInt16} (hv : InTable tab v)
    (hne : v ≠ tab 0) : ∃ j, Located tab v j ∧ pt100GetTempr tab v = .ok (between tab v j) := by
  rw [pt100GetTempr_eq hv]
  rcases approach_spec v (Nat.le_refl 8) At.start with ⟨j, -, hj, he, hrun⟩ | ⟨j, hj, hrun⟩
  · refine ⟨j, ⟨hj, UInt16.le_of_eq he, fun h => ?_⟩, ?_⟩
    · rw [← he]
      exact hs j h
    · rw [hrun, between_entry he, ← pt100T_ofNat hj]
      rfl
  · have hlo : tab j < v := by
      rcases hj.above with rfl | hlo
      · exact UInt16.lt_of_le_of_ne hv.1 (Ne.symm hne)
      · exact hlo
    have hlen : j + 1 < pt100TabLen := by
      by_contra hlast
      have hj160 : j = pt100TabLen - 1 := by
        have hlt := hj.lt_len
        omega
      rw [hj160] at hlo
      exact UInt16.not_le.mpr hlo hv.2
    refine ⟨j, ⟨hj.lt_len, UInt16.le_of_lt hlo, hj.below⟩, ?_⟩
    rw [hrun]
    dsimp only [Except.bind]
    exact interpolate_above hlen hlo (hj.below hlen)

/-- At the first entry the one before it is read. -/
theorem pt100GetTempr_first (hs : Increasing tab) :
    pt100GetTempr tab (tab 0) = .error .outsideTable := by
  have hv : InTable tab (tab 0) :=
    ⟨UInt16.le_refl _, UInt16.le_of_lt (hs.lt (by decide) (by decide))⟩
  rw [pt100GetTempr_eq hv]
  rcases approach_spec (tab 0) (Nat.le_refl 8) At.start with ⟨j, hpos, hj, he, -⟩ | ⟨j, hj, hrun⟩
  · exact absurd he (UInt16.ne_of_lt (hs.lt hpos hj)).symm
  · rcases hj.above with rfl | hlo
    · rw [hrun]
      dsimp only [Except.bind]
      exact interpolate_first
    · rcases Nat.eq_zero_or_pos j with rfl | hpos
      · exact absurd hlo (UInt16.lt_irrefl _)
      · exact absurd (hs.lt hpos hj.lt_len) (UInt16.lt_asymm hlo)

/-! ## Accuracy and order -/

section
variable {v w : UInt16} {j k : Nat}

theorem Located.last (hv : InTable tab v) (h : Located tab v j) (hj : ¬ j + 1 < pt100TabLen) :
    tab j = v := by
  have hlt := h.lt_len
  have hj160 : j = pt100TabLen - 1 := by omega
  refine UInt16.le_antisymm h.le ?_
  rw [hj160]
  exact hv.2

/-- The temperature is within the degree of the entry. -/
theorem between_bounds (hv : InTable tab v) (h : Located tab v j) :
    10 * ((j : Int) - 40) ≤ between tab v j ∧ between tab v j < 10 * ((j : Int) - 39) := by
  by_cases hj : j + 1 < pt100TabLen
  · have hlo : (tab j).toNat ≤ v.toNat := h.le
    have hhi : v.toNat < (tab (j + 1)).toNat := h.lt hj
    obtain ⟨hq0, hq10⟩ := @quotient_bounds ((v.toNat : Int) - (tab j).toNat)
      ((tab (j + 1)).toNat - (tab j).toNat) (by omega) (by omega)
    unfold between
    constructor <;> omega
  · rw [between_entry (h.last hv hj)]
    constructor <;> omega

/-- Between two entries the temperature rises with the reading. -/
theorem between_mono (hd : tab j < tab (j + 1)) (hvw : v ≤ w) :
    between tab v j ≤ between tab w j := by
  have hd' : (tab j).toNat < (tab (j + 1)).toNat := hd
  have hvw' : v.toNat ≤ w.toNat := hvw
  unfold between
  refine Int.add_le_add_left (Int.ediv_le_ediv (by omega) ?_) _
  omega

/-- Larger readings are located further up. -/
theorem Located.mono (hs : Increasing tab) (hv : Located tab v j) (hw : Located tab w k)
    (hvw : v ≤ w) : j ≤ k := by
  by_contra hlt
  have hkj : tab (k + 1) ≤ tab j := by
    rcases Nat.lt_or_eq_of_le (Nat.not_le.mp hlt) with hlt' | heq
    · exact UInt16.le_of_lt (hs.lt hlt' hv.lt_len)
    · rw [← heq]
      exact UInt16.le_refl _
  have hlt' := hw.lt (Nat.lt_of_le_of_lt (Nat.not_le.mp hlt) hv.lt_len)
  exact UInt16.not_le.mpr hlt' (UInt16.le_trans hkj (UInt16.le_trans hv.le hvw))

theorem Located.between_le (hs : Increasing tab) (hv : InTable tab v) (hw : InTable tab w)
    (hj : Located tab v j) (hk : Located tab w k) (hvw : v ≤ w) :
    between tab v j ≤ between tab w k := by
  rcases Nat.lt_or_eq_of_le (hj.mono hs hk hvw) with hlt | rfl
  · have hup := (between_bounds hv hj).2
    have hdown := (between_bounds hw hk).1
    omega
  · by_cases hlen : j + 1 < pt100TabLen
    · exact between_mono (hs j hlen) hvw
    · rw [between_entry (hj.last hv hlen), between_entry (hk.last hw hlen)]

/-- The degrees that a reading lies in: that of its entry, and at the entry itself the one
below. -/
theorem Located.degree (hs : Increasing tab) (h : Located tab v j) {i : Nat}
    (hi : i + 1 < pt100TabLen) (hlo : tab i ≤ v) (hhi : v ≤ tab (i + 1)) :
    i = j ∨ (i + 1 = j ∧ tab j = v) := by
  rcases Nat.lt_trichotomy i j with hlt | heq | hgt
  · have hle : i + 1 = j := by
      by_contra hne
      have hlt' := hs.lt (Nat.lt_of_le_of_ne hlt hne) h.lt_len
      exact UInt16.not_le.mpr hlt' (UInt16.le_trans h.le hhi)
    refine .inr ⟨hle, UInt16.le_antisymm h.le ?_⟩
    rwa [← hle]
  · exact .inl heq
  · have hlt' := h.lt (Nat.lt_of_le_of_lt hgt (Nat.lt_of_succ_lt hi))
    have hle : tab (j + 1) ≤ tab i := by
      rcases Nat.lt_or_eq_of_le hgt with hlt | heq
      · exact UInt16.le_of_lt (hs.lt hlt (Nat.lt_of_succ_lt hi))
      · rw [← heq]
        exact UInt16.le_refl _
    exact absurd (UInt16.le_trans hle hlo) (UInt16.not_le.mpr hlt')

end

/-- A reading is converted within its degree except at the first entry. -/
theorem converts_iff (hs : Increasing tab) {v : UInt16} (hv : InTable tab v) :
    Converts tab v ↔ v ≠ tab 0 := by
  constructor
  · intro h he
    obtain ⟨t, hok, -⟩ := h
    rw [he, pt100GetTempr_first hs] at hok
    cases hok
  · intro hne
    obtain ⟨j, hj, hok⟩ := pt100GetTempr_above hs hv hne
    refine ⟨between tab v j, hok, fun i hi hlo hhi => ?_⟩
    have hb := between_bounds hv hj
    rcases hj.degree hs hi hlo hhi with rfl | ⟨rfl, he⟩
    · omega
    · rw [between_entry he]
      omega

end

/-- Every pair of entries of the shipped table but one is increasing; for a strictly
increasing table every reading but the first entry is converted within its degree, and the
temperature rises with the reading. -/
theorem pt100_conversion_iff (tab : Nat → UInt16) (hs : Increasing tab) (v : UInt16)
    (hv : InTable tab v) :
    (∀ i < 160, (pt100Tab i < pt100Tab (i + 1) ↔ i ≠ 87)) ∧
    (Converts tab v ↔ v ≠ tab 0) ∧
    ∀ w, InTable tab w → v ≠ tab 0 → v ≤ w →
      ∃ t u, pt100GetTempr tab v = .ok t ∧ pt100GetTempr tab w = .ok u ∧ t ≤ u := by
  refine ⟨by decide +kernel, converts_iff hs hv, fun w hw hne hvw => ?_⟩
  obtain ⟨j, hj, hok⟩ := pt100GetTempr_above hs hv hne
  have hwne : w ≠ tab 0 := by
    intro he
    rw [he] at hvw
    exact hne (UInt16.le_antisymm hvw hv.1)
  obtain ⟨k, hk, hok'⟩ := pt100GetTempr_above hs hw hwne
  exact ⟨_, _, hok, hok', hj.between_le hs hv hw hk hvw⟩

/-- A table with an entry for each reading from 0 on. -/
def unitTab (i : Nat) : UInt16 := UInt16.ofNat i

theorem unitTab_increasing : Increasing unitTab := by
  have h : ∀ i < 160, unitTab i < unitTab (i + 1) := by decide +kernel
  intro i hi
  exact h i (Nat.lt_of_succ_lt_succ hi)

/-- The shipped table falls from 1484 to 1458; at the first entry of a table (209 in the
shipped one) the code reads the word before it. -/
theorem pt100_shipped :
    ¬ Increasing pt100Tab ∧
    pt100GetTempr pt100Tab 209 = .error .outsideTable ∧
    ¬ ∀ tab, Increasing tab → ∀ v, InTable tab v → Converts tab v := by
  refine ⟨fun h => absurd (h 87 (by decide)) (by decide), by decide +kernel, fun h => ?_⟩
  obtain ⟨t, ht, -⟩ := h unitTab unitTab_increasing 0 ⟨by decide, by decide⟩
  have herr : pt100GetTempr unitTab 0 = .error .outsideTable := by decide +kernel
  rw [herr] at ht
  cases ht

/-- The reading 5 of that table is converted. -/
theorem pt100_conversion_unit : Converts unitTab 5 :=
  (pt100_conversion_iff unitTab unitTab_increasing 5 ⟨by decide, by decide⟩).2.1.mpr (by decide)

end SC04Monitor.Drivers
