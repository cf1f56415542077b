import Mathlib.Tactic.Common

/-! # Dividers of a wrapping counter

A counter that wraps at `W` is incremented at every event, and every event at which
it is a multiple of `k` is a tick. Where `k` does not divide `W` the wrap shifts the
ticks. -/

namespace SC04Monitor.Lib.Divider

/-- Event `n` finds the counter at a multiple of `k`. -/
def Tick (W k n : Nat) : Prop := n % W % k = 0

instance (W k : Nat) : DecidablePred (Tick W k) := fun _ => inferInstanceAs (Decidable (_ = _))

/-- Two events of a kind with none of the kind between them. -/
structure Consecutive (P : Nat → Prop) (n m : Nat) : Prop where
  first : P n
  next : P m
  lt : n < m
  between : ∀ j, n < j → j < m → ¬ P j

theorem Consecutive.unique {P : Nat → Prop} {n m m' : Nat} (h : Consecutive P n m)
    (h' : Consecutive P n m') : m = m' := by
  rcases Nat.lt_trichotomy m m' with hlt | heq | hgt
  · exact absurd h.next (h'.between m h.lt hlt)
  · exact heq
  · exact absurd h'.next (h.between m' h'.lt hgt)

section
variable {W k n : Nat}

/-- The next tick comes after `k` events, or with the wrap if that is earlier. -/
theorem next_tick (hW : 0 < W) (hk : 0 < k) (h : Tick W k n) :
    Consecutive (Tick W k) n (n + min k (W - n % W)) := by
  have hlt := Nat.mod_lt n hW
  have hadd : ∀ i < W - n % W, (n + i) % W = n % W + i := by
    intro i hi
    rw [Nat.add_mod, Nat.mod_eq_of_lt (show i < W by omega), Nat.mod_eq_of_lt (by omega)]
  refine ⟨h, ?_, by omega, ?_⟩
  · unfold Tick at h ⊢
    rcases Nat.lt_or_ge k (W - n % W) with hroom | hwrap
    · rw [Nat.min_eq_left (Nat.le_of_lt hroom), hadd k hroom, Nat.add_mod_right, h]
    · have hdiv : n + (W - n % W) = W * (n / W + 1) := by
        have hsplit := Nat.div_add_mod n W
        rw [Nat.mul_succ]
        omega
      rw [Nat.min_eq_right hwrap, hdiv, Nat.mul_mod_right, Nat.zero_mod]
  · intro j hnj hjm
    obtain ⟨i, rfl⟩ := Nat.exists_eq_add_of_lt hnj
    unfold Tick at h ⊢
    rw [Nat.add_assoc, hadd (i + 1) (by omega), Nat.add_mod, h, Nat.zero_add, Nat.mod_mod,
      Nat.mod_eq_of_lt (by omega)]
    exact Nat.succ_ne_zero i

/-- Two consecutive ticks are `k` events apart exactly if the counter does not wrap
in between. -/
theorem gap_iff (hW : 0 < W) (hk : 0 < k) {m : Nat} (h : Consecutive (Tick W k) n m) :
    m = n + k ↔ n % W + k ≤ W := by
  have hm := h.unique (next_tick hW hk h.first)
  have hlt := Nat.mod_lt n hW
  omega

/-- The ticks are at the multiples of `k` exactly where the wraps so far make up a
multiple of `k`, or where neither is. -/
theorem tick_iff_dvd : (Tick W k n ↔ k ∣ n) ↔ k ∣ W * (n / W) ∨ ¬ k ∣ n % W ∧ ¬ k ∣ n := by
  have hsplit := Nat.div_add_mod n W
  have htick : Tick W k n ↔ k ∣ n % W := (Nat.dvd_iff_mod_eq_zero).symm
  rw [htick]
  constructor
  · intro hiff
    by_cases hr : k ∣ n % W
    · refine Or.inl ((Nat.dvd_add_left hr).mp ?_)
      rw [hsplit]
      exact hiff.mp hr
    · exact Or.inr ⟨hr, fun hn => hr (hiff.mpr hn)⟩
  · rintro (hq | ⟨hr, hn⟩)
    · have hadd : k ∣ W * (n / W) + n % W ↔ k ∣ n % W := Nat.dvd_add_right hq
      rw [hsplit] at hadd
      exact hadd.symm
    · exact ⟨fun h => absurd h hr, fun h => absurd h hn⟩

end

end SC04Monitor.Lib.Divider
