import Mathlib.Algebra.BigOperators.Group.Finset.Basic
import Mathlib.Algebra.Order.BigOperators.Group.Finset
import Mathlib.Algebra.Order.BigOperators.Group.List
import Mathlib.Algebra.Order.Ring.Nat
import Mathlib.Data.List.GetD
import Mathlib.Data.List.Sort
import Mathlib.Order.Bounds.Basic

/-! # Trimmed means

A list of numbers without one greatest and one least entry. What is left does not depend on the
order, lies between the second entries from both ends of the sorted list, and grows with every
entry. -/

namespace SC04Monitor.Lib.TrimmedMean

/-- The greatest and the least entry of a list. -/
structure Extremes {α : Type} [LinearOrder α] (l : List α) (hi lo : α) : Prop where
  greatest : IsGreatest {x | x ∈ l} hi
  least : IsLeast {x | x ∈ l} lo

namespace Extremes

section
variable {α : Type} [LinearOrder α] {l : List α} {hi lo : α}

theorem le (h : Extremes l hi lo) : lo ≤ hi := h.least.2 h.greatest.1

theorem unique (h : Extremes l hi lo) {hi' lo' : α} (h' : Extremes l hi' lo') :
    hi = hi' ∧ lo = lo' :=
  ⟨h.greatest.unique h'.greatest, h.least.unique h'.least⟩

theorem perm (h : Extremes l hi lo) {l' : List α} (hp : l.Perm l') : Extremes l' hi lo := by
  have hmem : {x | x ∈ l'} = {x | x ∈ l} := Set.ext fun _ => hp.symm.mem_iff
  exact ⟨hmem ▸ h.greatest, hmem ▸ h.least⟩

theorem singleton (x : α) : Extremes [x] x x := by
  constructor <;> simp [IsGreatest, IsLeast, upperBounds, lowerBounds]

/-- One more entry. -/
theorem snoc (h : Extremes l hi lo) (x : α) : Extremes (l ++ [x]) (max hi x) (min lo x) := by
  have hmem : {y | y ∈ l ++ [x]} = insert x {y | y ∈ l} := Set.ext fun y => by
    simp [or_comm]
  constructor
  · rw [hmem, max_comm]
    exact h.greatest.insert x
  · rw [hmem, min_comm]
    exact h.least.insert x

theorem exists_of_ne_nil (h : l ≠ []) : ∃ hi lo, Extremes l hi lo := by
  induction l using List.reverseRecOn with
  | nil => exact absurd rfl h
  | append_singleton l x ih =>
    by_cases hl : l = []
    · rw [hl]
      exact ⟨x, x, singleton x⟩
    · obtain ⟨hi, lo, hlast⟩ := ih hl
      exact ⟨_, _, hlast.snoc x⟩

/-- A sorted list. -/
theorem of_sorted {a b : α} {mid : List α} (h : (a :: (mid ++ [b])).Pairwise (· ≤ ·)) :
    Extremes (a :: (mid ++ [b])) b a := by
  obtain ⟨hleast, hrest⟩ := List.pairwise_cons.mp h
  have hab : a ≤ b := hleast b (by simp)
  have hgreatest : ∀ x ∈ mid, x ≤ b := fun x hx =>
    (List.pairwise_append.mp hrest).2.2 x hx b List.mem_cons_self
  refine ⟨⟨by simp, fun x hx => ?_⟩, ⟨List.mem_cons_self, fun x hx => ?_⟩⟩
  · obtain rfl | hx := List.mem_cons.mp hx
    · exact hab
    obtain hx | hx := List.mem_append.mp hx
    · exact hgreatest x hx
    · exact (List.mem_singleton.mp hx).le
  · obtain rfl | hx := List.mem_cons.mp hx
    · exact le_rfl
    · exact hleast x hx

end

end Extremes

/-! ## What is left -/

section
variable {l : List ℕ} {hi lo : ℕ}

/-- The ends of a list and what is between. -/
theorem exists_mid {s : List ℕ} (h : 2 ≤ s.length) : ∃ a mid b, s = a :: (mid ++ [b]) := by
  cases s with
  | nil => cases h
  | cons a t =>
    have ht : t ≠ [] := by
      rintro rfl
      simp at h
    exact ⟨a, t.dropLast, t.getLast ht, by rw [List.dropLast_append_getLast]⟩

theorem getD_mono {s : List ℕ} (h : s.Pairwise (· ≤ ·)) {i j : ℕ} (hij : i ≤ j)
    (hj : j < s.length) : s.getD i 0 ≤ s.getD j 0 := by
  rw [List.getD_eq_getElem _ _ (hij.trans_lt hj), List.getD_eq_getElem _ _ hj]
  obtain rfl | hlt := hij.eq_or_lt
  · exact le_rfl
  · exact List.pairwise_iff_getElem.mp h i j _ hj hlt

/-- What is between the ends of a sorted list lies between the second entries. -/
theorem mid_between {a b : ℕ} {mid : List ℕ} (h : (a :: (mid ++ [b])).Pairwise (· ≤ ·)) {x : ℕ}
    (hx : x ∈ mid) :
    (a :: (mid ++ [b])).getD 1 0 ≤ x ∧ x ≤ (a :: (mid ++ [b])).getD mid.length 0 := by
  obtain ⟨i, hi, rfl⟩ := List.mem_iff_getElem.mp hx
  have hget : (a :: (mid ++ [b])).getD (i + 1) 0 = mid[i] := by
    rw [List.getD_cons_succ, List.getD_append _ _ _ _ hi, List.getD_eq_getElem _ _ hi]
  have hlen : (a :: (mid ++ [b])).length = mid.length + 2 := by simp
  rw [← hget]
  exact ⟨getD_mono h (by omega) (by omega), getD_mono h hi (by omega)⟩

/-- The sum without the extremes lies between multiples of the second entries from both ends. -/
theorem Extremes.between (h : Extremes l hi lo) (hlen : 2 ≤ l.length) :
    hi + lo ≤ l.sum ∧
      (l.length - 2) * (l.mergeSort (· ≤ ·)).getD 1 0 ≤ l.sum - hi - lo ∧
      l.sum - hi - lo ≤ (l.length - 2) * (l.mergeSort (· ≤ ·)).getD (l.length - 2) 0 := by
  have hp : (l.mergeSort (· ≤ ·)).Perm l := List.mergeSort_perm _ _
  have hsorted : (l.mergeSort (· ≤ ·)).Pairwise (· ≤ ·) := l.pairwise_mergeSort' (· ≤ ·)
  obtain ⟨a, mid, b, hs⟩ := exists_mid (hlen.trans hp.length_eq.ge)
  rw [hs] at hp hsorted ⊢
  obtain ⟨rfl, rfl⟩ := (h.perm hp.symm).unique (Extremes.of_sorted hsorted)
  have hsum : l.sum = lo + (mid.sum + hi) := by
    rw [← hp.sum_eq, List.sum_cons, List.sum_append, List.sum_singleton]
  have hmid : l.length - 2 = mid.length := by
    rw [← hp.length_eq]
    simp
  have hleft : l.sum - hi - lo = mid.sum := by omega
  rw [hmid, hleft]
  refine ⟨by omega, ?_, ?_⟩
  · exact List.card_nsmul_le_sum _ _ fun x hx => (mid_between hsorted hx).1
  · exact List.sum_le_card_nsmul _ _ fun x hx => (mid_between hsorted hx).2

/-- The mean of what is left, rounded down, lies between the second entries from both ends. -/
theorem Extremes.mean_between (h : Extremes l hi lo) (hlen : 3 ≤ l.length) :
    (l.mergeSort (· ≤ ·)).getD 1 0 ≤ (l.sum - hi - lo) / (l.length - 2) ∧
      (l.sum - hi - lo) / (l.length - 2) ≤ (l.mergeSort (· ≤ ·)).getD (l.length - 2) 0 := by
  obtain ⟨-, hlow, hhigh⟩ := h.between (Nat.le_of_succ_le hlen)
  constructor
  · rw [Nat.le_div_iff_mul_le (by omega), Nat.mul_comm]
    exact hlow
  · exact Nat.div_le_of_le_mul hhigh

theorem Extremes.mean_le (h : Extremes l hi lo) (hlen : 3 ≤ l.length) :
    (l.sum - hi - lo) / (l.length - 2) ≤ hi := by
  have hin : l.length - 2 < (l.mergeSort (· ≤ ·)).length := by
    rw [List.length_mergeSort]
    omega
  refine (h.mean_between hlen).2.trans (h.greatest.2 ?_)
  rw [List.getD_eq_getElem _ _ hin]
  exact (List.mergeSort_perm l _).mem_iff.mp (List.getElem_mem hin)

/-- The mean of all entries, rounded down, lies between the extremes. -/
theorem Extremes.mean_all (h : Extremes l hi lo) :
    lo ≤ l.sum / l.length ∧ l.sum / l.length ≤ hi := by
  have hpos : 0 < l.length := List.length_pos_of_mem h.greatest.1
  constructor
  · rw [Nat.le_div_iff_mul_le hpos, Nat.mul_comm]
    exact List.card_nsmul_le_sum _ _ fun x hx => h.least.2 hx
  · exact Nat.div_le_of_le_mul (List.sum_le_card_nsmul _ _ fun x hx => h.greatest.2 hx)

end

theorem sum_range_map (f : ℕ → ℕ) (n : ℕ) :
    ((List.range n).map f).sum = ∑ k ∈ Finset.range n, f k := rfl

/-- The sum without the extremes is monotone. -/
theorem trimmed_mono {n : ℕ} {f g : ℕ → ℕ} {hi lo hi' lo' : ℕ} (hn : 2 ≤ n)
    (hf : Extremes ((List.range n).map f) hi lo) (hg : Extremes ((List.range n).map g) hi' lo')
    (hle : ∀ i < n, f i ≤ g i) :
    ((List.range n).map f).sum - hi - lo ≤ ((List.range n).map g).sum - hi' - lo' := by
  have hmem : ∀ (f : ℕ → ℕ) {k : ℕ}, k < n → f k ∈ (List.range n).map f := fun f k hk =>
    List.mem_map.mpr ⟨k, List.mem_range.mpr hk, rfl⟩
  obtain ⟨i, hin, rfl⟩ : ∃ i < n, f i = lo := by simpa using hf.least.1
  obtain ⟨b, hbn, rfl⟩ : ∃ b < n, g b = hi' := by simpa using hg.greatest.1
  -- the places left out on both sides: a least entry of `f` and, if it is another one, a
  -- greatest entry of `g`
  obtain ⟨j, hjn, hji, hb⟩ : ∃ j < n, j ≠ i ∧ (b = i ∨ b = j) := by
    by_cases hbi : b = i
    · obtain ⟨j, hj, hji⟩ : ∃ j < n, j ≠ i := ⟨if i = 0 then 1 else 0, by grind⟩
      exact ⟨j, hj, hji, .inl hbi⟩
    · exact ⟨b, hbn, hbi, .inr rfl⟩
  have hsplit : ∀ f : ℕ → ℕ, ((List.range n).map f).sum =
      f i + (f j + ∑ k ∈ ((Finset.range n).erase i).erase j, f k) := by
    intro f
    rw [sum_range_map, Finset.add_sum_erase _ _ (by simp [hji, hjn]),
      Finset.add_sum_erase _ _ (by simp [hin])]
  have hrest : ∑ k ∈ ((Finset.range n).erase i).erase j, f k ≤
      ∑ k ∈ ((Finset.range n).erase i).erase j, g k := by
    refine Finset.sum_le_sum fun k hk => hle k ?_
    simp only [Finset.mem_erase, Finset.mem_range] at hk
    exact hk.2.2
  have hfj : f j ≤ hi := hf.greatest.2 (hmem f hjn)
  have hgi : lo' ≤ g i := hg.least.2 (hmem g hin)
  have hgj : lo' ≤ g j := hg.least.2 (hmem g hjn)
  rw [hsplit f, hsplit g]
  obtain rfl | rfl := hb <;> omega

end SC04Monitor.Lib.TrimmedMean
