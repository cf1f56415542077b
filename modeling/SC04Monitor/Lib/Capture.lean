import Mathlib.Logic.Function.Iterate
import Mathlib.Tactic.Common

/-! # Captures

A capture takes sample after sample. Once there are enough of them it waits for a trigger; then it
takes as many more as come behind the trigger, the one that fired counted, and stops. The ring that
the samples go to has `cap` places, `post` of them for what comes from the trigger on. -/

namespace SC04Monitor.Lib.Capture

inductive Phase where
  | waiting
  | running (left : Nat)
  | done

structure State where
  count : Nat
  phase : Phase

section
variable (fires : Nat → Bool) (cap post : Nat)

/-- One sample more. -/
def next (c : State) : State :=
  match c.phase with
  | .waiting =>
    if cap ≤ c.count + post ∧ fires c.count = true then
      ⟨c.count + 1, if post = 1 then .done else .running (post - 1)⟩
    else ⟨c.count + 1, .waiting⟩
  | .running left => ⟨c.count + 1, if left = 1 then .done else .running (left - 1)⟩
  | .done => c

/-- After `k` samples, if it did not stop before. -/
def after (k : Nat) : State := (next fires cap post)^[k] ⟨0, .waiting⟩

/-- The sample at which the trigger fires: the first one that does, of those with enough samples
before. -/
structure Trigger (i : Nat) : Prop where
  enough : cap ≤ i + post
  fired : fires i = true
  first : ∀ j < i, cap ≤ j + post → fires j = false

end

section
variable {fires : Nat → Bool} {cap post : Nat}

theorem Trigger.unique {i j : Nat} (hi : Trigger fires cap post i) (hj : Trigger fires cap post j) :
    i = j := by
  rcases Nat.lt_trichotomy i j with hlt | he | hgt
  · exact absurd (hi.fired.symm.trans (hj.first i hlt hi.enough)) (by decide)
  · exact he
  · exact absurd (hj.fired.symm.trans (hi.first j hgt hj.enough)) (by decide)

theorem next_count {c : State} (h : c.phase ≠ .done) : (next fires cap post c).count = c.count + 1 := by
  unfold next
  cases hc : c.phase with
  | waiting =>
    dsimp only
    split <;> rfl
  | running left => rfl
  | done => exact absurd hc h

theorem next_done {c : State} (h : c.phase = .done) : next fires cap post c = c := by
  unfold next
  rw [h]

theorem after_succ (k : Nat) : after fires cap post (k + 1) = next fires cap post (after fires cap post k) :=
  Function.iterate_succ_apply' _ _ _

/-- What is known of a capture that was given `k` samples. -/
def Known (fires : Nat → Bool) (cap post k : Nat) (c : State) : Prop :=
  match c.phase with
  | .waiting => c.count = k ∧ ∀ i < k, cap ≤ i + post → fires i = false
  | .running left => c.count = k ∧ ∃ i, Trigger fires cap post i ∧ 0 < left ∧ k + left = i + post
  | .done => ∃ i, Trigger fires cap post i ∧ c.count = i + post ∧ c.count ≤ k

theorem known_next {k : Nat} {c : State} (hpost : 0 < post) (h : Known fires cap post k c) :
    Known fires cap post (k + 1) (next fires cap post c) := by
  obtain ⟨count, phase⟩ := c
  cases phase with
  | waiting =>
    obtain ⟨hcount, hno⟩ := h
    change count = k at hcount
    subst hcount
    unfold next
    by_cases hfire : cap ≤ count + post ∧ fires count = true
    · have htrigger : Trigger fires cap post count := ⟨hfire.1, hfire.2, hno⟩
      dsimp only
      rw [if_pos hfire]
      by_cases hone : post = 1
      · rw [if_pos hone]
        exact ⟨count, htrigger, by show count + 1 = _; omega, Nat.le_refl _⟩
      · rw [if_neg hone]
        exact ⟨rfl, count, htrigger, by omega, by omega⟩
    · dsimp only
      rw [if_neg hfire]
      refine ⟨rfl, fun i hi henough => ?_⟩
      rcases Nat.lt_succ_iff_lt_or_eq.mp hi with hlt | rfl
      · exact hno i hlt henough
      · exact Bool.eq_false_iff.mpr fun hf => hfire ⟨henough, hf⟩
  | running left =>
    obtain ⟨hcount, i, htrigger, hleft, hsum⟩ := h
    change count = k at hcount
    unfold next
    dsimp only
    by_cases hone : left = 1
    · rw [if_pos hone]
      exact ⟨i, htrigger, by show count + 1 = _; omega, by show count + 1 ≤ _; omega⟩
    · rw [if_neg hone]
      exact ⟨congrArg (· + 1) hcount, i, htrigger, by omega, by omega⟩
  | done =>
    obtain ⟨i, htrigger, hcount, hle⟩ := h
    exact ⟨i, htrigger, hcount, Nat.le_succ_of_le hle⟩

theorem known_after (hpost : 0 < post) (k : Nat) : Known fires cap post k (after fires cap post k) := by
  induction k with
  | zero => exact ⟨rfl, fun i hi => absurd hi (Nat.not_lt_zero i)⟩
  | succ k ih =>
    rw [after_succ]
    exact known_next hpost ih

/-- A capture stops `post` samples behind the trigger, that one counted, and only then. -/
theorem after_cases (hpost : 0 < post) (k : Nat) :
    (after fires cap post k).phase = .done ∧
        (∃ i, Trigger fires cap post i ∧ (after fires cap post k).count = i + post ∧ i + post ≤ k) ∨
      (after fires cap post k).phase ≠ .done ∧ (after fires cap post k).count = k ∧
        ∀ i, Trigger fires cap post i → k < i + post := by
  have hknown : Known fires cap post k (after fires cap post k) := known_after hpost k
  unfold Known at hknown
  cases hphase : (after fires cap post k).phase with
  | waiting =>
    rw [hphase] at hknown
    obtain ⟨hcount, hno⟩ := hknown
    refine .inr ⟨by simp, hcount, fun i hi => ?_⟩
    by_contra hle
    exact Bool.false_ne_true ((hno i (by omega) hi.enough).symm.trans hi.fired)
  | running left =>
    rw [hphase] at hknown
    obtain ⟨hcount, i, htrigger, hleft, hsum⟩ := hknown
    refine .inr ⟨by simp, hcount, fun j hj => ?_⟩
    rw [hj.unique htrigger]
    omega
  | done =>
    rw [hphase] at hknown
    obtain ⟨i, htrigger, hcount, hle⟩ := hknown
    exact .inl ⟨rfl, i, htrigger, hcount, by omega⟩

end

end SC04Monitor.Lib.Capture
