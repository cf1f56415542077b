import Mathlib.Data.Nat.Count
import Mathlib.Tactic.Common

/-! # Runs of an input-driven machine

A machine is a step function `σ → ι → σ`; its run under an input stream is the
sequence of states before each tick. The rules here lift facts about one step to
every tick of every run: the invariant rule, the most recent tick at which
something happened, and how often something happened in a window of ticks. -/

namespace SC04Monitor.Lib.Run

variable {σ ι : Type*}

/-- The state before tick `n` of the run from `s₀` under the inputs `ins`. -/
def stateAt (step : σ → ι → σ) (s₀ : σ) (ins : Nat → ι) : Nat → σ
  | 0 => s₀
  | n + 1 => step (stateAt step s₀ ins n) (ins n)

section
variable {step : σ → ι → σ} {s₀ : σ} {ins : Nat → ι}

@[simp] theorem stateAt_zero : stateAt step s₀ ins 0 = s₀ := rfl

/-- The invariant rule: what holds at the start and is kept by every step holds
before every tick. -/
theorem stateAt_inv {P : σ → Prop} (h0 : P s₀) (hstep : ∀ s i, P s → P (step s i)) :
    ∀ n, P (stateAt step s₀ ins n)
  | 0 => h0
  | n + 1 => hstep _ _ (stateAt_inv h0 hstep n)

/-- The collecting rule: what every step takes over from its input has come from an input
before tick `n`. -/
theorem stateAt_collected {α : Type*} (collected : σ → List α) (emits : ι → α → Prop)
    (h0 : collected s₀ = [])
    (hstep : ∀ s i, ∀ x ∈ collected (step s i), x ∈ collected s ∨ emits i x) {n : Nat} {x : α}
    (h : x ∈ collected (stateAt step s₀ ins n)) : ∃ j < n, emits (ins j) x := by
  induction n with
  | zero =>
    rw [stateAt_zero, h0] at h
    cases h
  | succ n ih =>
    rcases hstep _ _ x h with hold | hnew
    · obtain ⟨j, hj, he⟩ := ih hold
      exact ⟨j, Nat.lt_succ_of_lt hj, he⟩
    · exact ⟨n, Nat.lt_succ_self n, hnew⟩

/-- The two-run rule: a relation that holds at the start and is kept by every
pair of steps before tick `n` relates the states before tick `n`. -/
theorem stateAt_rel {ins' : Nat → ι} {R : σ → σ → Prop} {n : Nat} (h0 : R s₀ s₀)
    (hstep : ∀ j < n, R (stateAt step s₀ ins j) (stateAt step s₀ ins' j) →
      R (stateAt step s₀ ins (j + 1)) (stateAt step s₀ ins' (j + 1))) :
    R (stateAt step s₀ ins n) (stateAt step s₀ ins' n) := by
  induction n with
  | zero => exact h0
  | succ n ih => exact hstep n (by omega) (ih fun j hj => hstep j (by omega))

end

/-! ## The most recent occurrence -/

/-- Tick `e` is the most recent tick up to and including `n` at which `P` holds. -/
structure LastOcc (P : Nat → Prop) (e n : Nat) : Prop where
  le : e ≤ n
  holds : P e
  after : ∀ j, e < j → j ≤ n → ¬ P j

theorem LastOcc.self {P : Nat → Prop} {n : Nat} (h : P n) : LastOcc P n n :=
  ⟨Nat.le_refl n, h, fun j h₁ h₂ => absurd h₁ (by omega)⟩

theorem LastOcc.succ {P : Nat → Prop} {e n : Nat} (h : LastOcc P e n) (hn : ¬ P (n + 1)) :
    LastOcc P e (n + 1) := by
  refine ⟨Nat.le_succ_of_le h.le, h.holds, fun j h₁ h₂ => ?_⟩
  rcases Nat.lt_or_ge n j with hj | hj
  · rwa [show j = n + 1 by omega]
  · exact h.after j h₁ hj

/-! ## Counting in a window of ticks -/

/-- How many ticks of `[lo, hi)` satisfy `P`. -/
def window (P : Nat → Prop) [DecidablePred P] (lo hi : Nat) : Nat :=
  Nat.count (fun k => P (lo + k)) (hi - lo)

section
variable {P : Nat → Prop} [DecidablePred P]

theorem window_empty {lo hi : Nat} (h : hi ≤ lo) : window P lo hi = 0 := by
  simp [window, Nat.sub_eq_zero_of_le h]

theorem window_succ {lo hi : Nat} (h : lo ≤ hi) :
    window P lo (hi + 1) = window P lo hi + if P hi then 1 else 0 := by
  unfold window
  rw [show hi + 1 - lo = hi - lo + 1 by omega, Nat.count_succ, show lo + (hi - lo) = hi by omega]

theorem window_succ_pos {lo hi : Nat} (h : lo ≤ hi) (hp : P hi) :
    window P lo (hi + 1) = window P lo hi + 1 := by
  rw [window_succ h, if_pos hp]

theorem window_succ_neg {lo hi : Nat} (h : lo ≤ hi) (hp : ¬ P hi) :
    window P lo (hi + 1) = window P lo hi := by
  rw [window_succ h, if_neg hp, Nat.add_zero]

theorem window_le (lo hi : Nat) : window P lo hi ≤ hi - lo := Nat.count_le _

/-- A window all of whose ticks count. -/
theorem window_full {lo hi : Nat} (h : ∀ j, lo ≤ j → j < hi → P j) : window P lo hi = hi - lo := by
  unfold window
  rw [Nat.count_iff_forall]
  intro k hk
  exact h _ (by omega) (by omega)

end

end SC04Monitor.Lib.Run
