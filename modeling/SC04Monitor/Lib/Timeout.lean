import Mathlib.Tactic.Common

/-! # Counting since the last reset

A timeout counts operations since the last one that resets it. `since reset P n`
is that number before operation `n`; a counter in the code, which may stop
counting or jump back to its limit, follows it up to the limit. -/

namespace SC04Monitor.Lib.Timeout

section
variable (reset P : Nat → Prop) [DecidablePred reset] [DecidablePred P]

/-- How many operations before operation `n` satisfy `P`, counted from the last
one that resets. -/
def since : Nat → Nat
  | 0 => 0
  | n + 1 => if reset n then 0 else since n + if P n then 1 else 0

end

section
variable {reset P : Nat → Prop} [DecidablePred reset] [DecidablePred P]

theorem since_reset {n : Nat} (h : reset n) : since reset P (n + 1) = 0 := if_pos h

theorem since_counts {n : Nat} (h : ¬ reset n) (hp : P n) :
    since reset P (n + 1) = since reset P n + 1 := by
  rw [since, if_neg h, if_pos hp]

theorem since_other {n : Nat} (h : ¬ reset n) (hp : ¬ P n) :
    since reset P (n + 1) = since reset P n := by
  rw [since, if_neg h, if_neg hp, Nat.add_zero]

theorem since_mono {Q : Nat → Prop} [DecidablePred Q] (h : ∀ n, P n → Q n) (n : Nat) :
    since reset P n ≤ since reset Q n := by
  induction n with
  | zero => exact Nat.le_refl 0
  | succ n ih =>
    by_cases hr : reset n
    · rw [since_reset hr]
      exact Nat.zero_le _
    · by_cases hp : P n
      · rw [since_counts hr hp, since_counts hr (h n hp)]
        exact Nat.succ_le_succ ih
      · rw [since_other hr hp]
        by_cases hq : Q n
        · rw [since_counts hr hq]
          exact Nat.le_succ_of_le ih
        · rw [since_other hr hq]
          exact ih

theorem since_le (n : Nat) : since reset P n ≤ n := by
  induction n with
  | zero => exact Nat.le_refl 0
  | succ n ih =>
    by_cases hr : reset n
    · rw [since_reset hr]
      exact Nat.zero_le _
    · by_cases hp : P n
      · rw [since_counts hr hp]
        exact Nat.succ_le_succ ih
      · rw [since_other hr hp]
        exact Nat.le_succ_of_le ih

/-- Without a reset every operation counts. -/
theorem since_all {n : Nat} (hr : ∀ m < n, ¬ reset m) (hp : ∀ m < n, P m) :
    since reset P n = n := by
  induction n with
  | zero => rfl
  | succ n ih =>
    rw [since_counts (hr n (Nat.lt_succ_self n)) (hp n (Nat.lt_succ_self n)),
      ih (fun m hm => hr m (Nat.lt_succ_of_lt hm)) fun m hm => hp m (Nat.lt_succ_of_lt hm)]

theorem since_none {n : Nat} (hp : ∀ m < n, ¬ P m) : since reset P n = 0 := by
  induction n with
  | zero => rfl
  | succ n ih =>
    by_cases hr : reset n
    · exact since_reset hr
    · rw [since_other hr (hp n (Nat.lt_succ_self n)), ih fun m hm => hp m (Nat.lt_succ_of_lt hm)]

/-- What operation `n` does to a counter of the code, up to the limit. -/
def Follows (reset P : Nat → Prop) (limit : Nat) (cnt : Nat → Nat) (n : Nat) : Prop :=
  (reset n → cnt (n + 1) = 0) ∧
    (¬ reset n → P n → min (cnt (n + 1)) limit = min (cnt n + 1) limit) ∧
    (¬ reset n → ¬ P n → min (cnt (n + 1)) limit = min (cnt n) limit)

/-- A counter that follows every operation agrees with the number of operations up
to the limit. -/
theorem follows_since {limit n : Nat} {cnt : Nat → Nat} (h0 : cnt 0 = 0)
    (h : ∀ m < n, Follows reset P limit cnt m) :
    min (cnt n) limit = min (since reset P n) limit := by
  induction n with
  | zero => rw [h0, since]
  | succ n ih =>
    have hprev := ih fun m hm => h m (Nat.lt_succ_of_lt hm)
    obtain ⟨hreset, hcount, hother⟩ := h n (Nat.lt_succ_self n)
    by_cases hr : reset n
    · rw [hreset hr, since_reset hr]
    · by_cases hp : P n
      · rw [hcount hr hp, since_counts hr hp]
        omega
      · rw [hother hr hp, since_other hr hp]
        exact hprev

/-- Such a counter has reached the limit exactly if that many operations have been
counted. -/
theorem limit_le_iff {limit n : Nat} {cnt : Nat → Nat} (h0 : cnt 0 = 0)
    (h : ∀ m < n, Follows reset P limit cnt m) : limit ≤ cnt n ↔ limit ≤ since reset P n := by
  have heq := follows_since h0 h
  omega

end

end SC04Monitor.Lib.Timeout
