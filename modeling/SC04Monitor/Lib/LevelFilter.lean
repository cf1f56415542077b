import Mathlib.Data.Bool.Basic
import SC04Monitor.Lib.Run

/-! # Level filters with two counters

A filter counts for either level of its input how long it has been seen, up to a length
`F`; a sample counts for its own level and against the other one. The output takes a level
whose counter has come to `V`.

With `F < 2 * V` the counters cannot both be there: their sum stays within `F`. -/

namespace SC04Monitor.Lib.LevelFilter
open SC04Monitor.Lib.Run

/-- The counters of the two levels and the output. -/
structure Filter where
  count : Bool → Nat
  out : Bool

namespace Filter

def init : Filter := ⟨fun _ => 0, false⟩

section
variable (F V : Nat)

/-- The counters after a sample `a`. -/
def counted (s : Filter) (a b : Bool) : Nat :=
  if b = a then (if s.count b < F then s.count b + 1 else s.count b) else s.count b - 1

/-- One sample. -/
def step (s : Filter) (a : Bool) : Filter where
  count := s.counted F a
  out := if V ≤ s.counted F a true then true else if V ≤ s.counted F a false then false else s.out

/-- The filter after the samples before `n`. -/
def after (ins : Nat → Bool) (n : Nat) : Filter := stateAt (step F V) init ins n

/-- Sample `n` changes the output. -/
def Changes (ins : Nat → Bool) (n : Nat) : Prop :=
  (after F V ins (n + 1)).out ≠ (after F V ins n).out

/-- What holds after every sample. -/
structure Inv (s : Filter) : Prop where
  sum_le : s.count true + s.count false ≤ F
  settled : ∀ b, V ≤ s.count b → s.out = b

end

section
variable {F V : Nat} {s : Filter} {a : Bool}

@[simp] theorem step_count (b : Bool) : (step F V s a).count b = s.counted F a b := rfl

theorem counted_self : s.counted F a a = if s.count a < F then s.count a + 1 else s.count a :=
  if_pos rfl

theorem counted_other : s.counted F a (!a) = s.count (!a) - 1 := if_neg (Bool.not_ne_self a)

theorem Inv.sum_le' (h : Inv F V s) (b : Bool) : s.count b + s.count (!b) ≤ F := by
  cases b with
  | true => exact h.sum_le
  | false => exact (Nat.add_comm _ _).trans_le h.sum_le

/-- Counters whose sum is within `F` stay so. -/
theorem counted_sum_le (h : Inv F V s) : s.counted F a a + s.counted F a (!a) ≤ F := by
  have hsum := h.sum_le' a
  rw [counted_self, counted_other]
  split_ifs <;> omega

theorem counted_sum_le' (h : Inv F V s) (b : Bool) : s.counted F a b + s.counted F a (!b) ≤ F := by
  have hsum := counted_sum_le (a := a) h
  rcases Bool.eq_or_eq_not b a with rfl | rfl
  · exact hsum
  · rwa [Bool.not_not, Nat.add_comm]

/-- The output takes the level whose counter is there. -/
theorem step_out_of_le (hV : F < 2 * V) (h : Inv F V s) {b : Bool} (hb : V ≤ s.counted F a b) :
    (step F V s a).out = b := by
  have hsum := counted_sum_le' (a := a) h b
  unfold step
  cases b with
  | true => exact if_pos hb
  | false =>
    rw [Bool.not_false] at hsum
    exact (if_neg (by omega)).trans (if_pos hb)

theorem step_out_of_lt (h : ∀ b, s.counted F a b < V) : (step F V s a).out = s.out := by
  unfold step
  rw [if_neg (Nat.not_le.mpr (h true)), if_neg (Nat.not_le.mpr (h false))]

theorem Inv.init (hV : F < 2 * V) : Inv F V Filter.init := by
  refine ⟨Nat.zero_le F, fun b hb => ?_⟩
  have h0 : V ≤ 0 := hb
  omega

theorem Inv.step (hV : F < 2 * V) (h : Inv F V s) (a : Bool) : Inv F V (step F V s a) :=
  ⟨counted_sum_le' h true, fun _ hb => step_out_of_le hV h hb⟩

/-- The counter of the level that was not sampled has gone down, so it was there before. -/
theorem step_out_of_other (hV : F < 2 * V) (h : Inv F V s) (ha : s.counted F a a < V) :
    (Filter.step F V s a).out = s.out := by
  by_cases hb : V ≤ s.counted F a (!a)
  · rw [step_out_of_le hV h hb]
    rw [counted_other] at hb
    exact (h.settled _ (by omega)).symm
  · refine step_out_of_lt fun b => ?_
    rcases Bool.eq_or_eq_not b a with rfl | rfl
    · exact ha
    · exact Nat.not_le.mp hb

/-- The output changes to the level of the sample only, whose counter has then just come
to `V`. -/
theorem step_changes (hV : F < 2 * V) (h : Inv F V s) (hne : (Filter.step F V s a).out ≠ s.out) :
    (Filter.step F V s a).out = a ∧ V ≤ s.counted F a a := by
  have ha : V ≤ s.counted F a a := by
    by_contra hlt
    exact hne (step_out_of_other hV h (Nat.not_le.mp hlt))
  exact ⟨step_out_of_le hV h ha, ha⟩

end

/-! ## Runs -/

section
variable {F V : Nat} {ins : Nat → Bool}

theorem after_succ (n : Nat) :
    after F V ins (n + 1) = Filter.step F V (after F V ins n) (ins n) := rfl

theorem after_inv (hV : F < 2 * V) (n : Nat) : Inv F V (after F V ins n) :=
  stateAt_inv (Inv.init hV) (fun _ a h => h.step hV a) n

/-- Equal samples count up to the length. -/
theorem le_count_of_equal {b : Bool} {n m : Nat} (h : ∀ k < m, ins (n + k) = b) :
    min m F ≤ (after F V ins (n + m)).count b := by
  induction m with
  | zero => exact Nat.le_trans (Nat.min_le_left _ _) (Nat.zero_le _)
  | succ m ih =>
    have hprev := ih fun k hk => h k (by omega)
    have hlast := h m (by omega)
    rw [← Nat.add_assoc, after_succ, step_count, ← hlast, counted_self, hlast]
    split_ifs <;> omega

/-- `V` equal samples force the output. -/
theorem out_of_equal (hV : F < 2 * V) (hF : V ≤ F) {b : Bool} {n : Nat}
    (h : ∀ k < V, ins (n + k) = b) : (after F V ins (n + V)).out = b := by
  have hcount := le_count_of_equal (F := F) (V := V) h
  exact (after_inv hV _).settled b (by omega)

theorem Changes.to_sample (hV : F < 2 * V) {n : Nat} (h : Changes F V ins n) :
    (after F V ins (n + 1)).out = ins n :=
  (step_changes hV (after_inv hV n) h).1

/-- After a change the other level has to come up from `F - V` at most. -/
theorem Changes.other_le (hV : F < 2 * V) {m : Nat} (h : Changes F V ins m) (k : Nat) :
    (after F V ins (m + 1 + k)).count (!ins m) + V ≤ F + k := by
  induction k with
  | zero =>
    have hthere := (step_changes hV (after_inv hV m) h).2
    have hsum := (@after_inv _ _ ins hV (m + 1)).sum_le' (ins m)
    rw [after_succ, step_count] at hsum
    rw [Nat.add_zero, after_succ]
    omega
  | succ k ih =>
    rw [← Nat.add_assoc, after_succ, step_count]
    rcases Bool.eq_or_eq_not (!ins m) (ins (m + 1 + k)) with heq | hne
    · rw [heq] at ih ⊢
      rw [counted_self]
      split_ifs <;> omega
    · rw [hne] at ih ⊢
      rw [counted_other]
      omega

/-- Until then the output stays. -/
theorem Changes.keeps (hV : F < 2 * V) {m : Nat} (h : Changes F V ins m) {k : Nat}
    (hk : F + k < 2 * V) : (after F V ins (m + 1 + k)).out = ins m := by
  induction k with
  | zero => exact h.to_sample hV
  | succ k ih =>
    have hlt := h.other_le hV (k + 1)
    rw [← Nat.add_assoc, after_succ, step_count] at hlt
    by_contra hne
    have hold := ih (by omega)
    rw [← Nat.add_assoc, after_succ] at hne
    obtain ⟨hout, hthere⟩ := step_changes hV (after_inv hV (m + 1 + k)) (fun he => hne (he.trans hold))
    have hother : ins (m + 1 + k) = !ins m := Bool.eq_not_of_ne fun he => hne (hout.trans he)
    rw [hother] at hthere hlt
    omega

/-- Two changes are at least `2 * V - F` samples apart. -/
theorem Changes.spaced (hV : F < 2 * V) {m n : Nat} (hm : Changes F V ins m)
    (hn : Changes F V ins n) (hlt : m < n) : 2 * V - F ≤ n - m := by
  by_contra hclose
  obtain ⟨k, rfl⟩ := Nat.exists_eq_add_of_lt hlt
  refine hn ?_
  rw [show m + k + 1 = m + 1 + k by omega, hm.keeps hV (by omega), Nat.add_assoc,
    hm.keeps hV (by omega)]

end

end Filter

end SC04Monitor.Lib.LevelFilter
