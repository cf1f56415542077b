import Mathlib.Data.Nat.Init
import Mathlib.Tactic.Common

/-! # Waits counted down

A counter goes down by one in every tick in which a condition holds, and at zero something
happens. What it has counted is the length of the wait exactly if it stood at the full
length when the wait began; nothing is known of the ticks in which the condition does not
hold. -/

namespace SC04Monitor.Lib.Countdown

variable {P : Nat → Prop} {cnt : Nat → Nat} {T n b : Nat}

/-- A wait begins in tick `n`: the condition holds there and not in the tick before. -/
def Begins (P : Nat → Prop) (n : Nat) : Prop := P n ∧ ∀ m, n = m + 1 → ¬ P m

/-- The condition holds from tick `b` up to and including tick `n`. -/
def HoldsFrom (P : Nat → Prop) (b n : Nat) : Prop := ∀ j, b ≤ j → j ≤ n → P j

/-- The condition held in each of the `T` ticks before tick `n`. -/
def WaitedFor (P : Nat → Prop) (T n : Nat) : Prop := T ≤ n ∧ ∀ j, n - T ≤ j → j < n → P j

/-- Every tick in which the condition holds belongs to a wait. -/
theorem exists_begins (h : P n) : ∃ b ≤ n, Begins P b ∧ HoldsFrom P b n := by
  induction n with
  | zero =>
    refine ⟨0, Nat.le_refl 0, ⟨h, fun m hm => absurd hm (by omega)⟩, fun j _ hj => ?_⟩
    rwa [Nat.le_zero.mp hj]
  | succ n ih =>
    by_cases hp : P n
    · obtain ⟨b, hb, hbeg, hfrom⟩ := ih hp
      refine ⟨b, by omega, hbeg, fun j h₁ h₂ => ?_⟩
      rcases Nat.eq_or_lt_of_le h₂ with rfl | hlt
      · exact h
      · exact hfrom j h₁ (by omega)
    · refine ⟨n + 1, Nat.le_refl _, ⟨h, fun m hm => ?_⟩, fun j h₁ h₂ => ?_⟩
      · rwa [show m = n by omega]
      · rwa [show j = n + 1 by omega]

/-- During a wait the counter goes down with the ticks. -/
theorem cnt_of_holdsFrom (hcount : ∀ n, P n → cnt (n + 1) = cnt n - 1) (hb : b ≤ n)
    (h : HoldsFrom P b n) : cnt n = cnt b - (n - b) := by
  induction n, hb using Nat.le_induction with
  | base => rw [Nat.sub_self, Nat.sub_zero]
  | succ n hb ih =>
    rw [hcount n (h n hb (Nat.le_succ n)), ih fun j h₁ h₂ => h j h₁ (by omega)]
    omega

/-- The counter is at zero in a wait exactly if the wait has lasted as long as the counter
said when it began. -/
theorem expired_iff (hcount : ∀ n, P n → cnt (n + 1) = cnt n - 1) :
    P n ∧ cnt n = 0 ↔ ∃ b, Begins P b ∧ b + cnt b ≤ n ∧ HoldsFrom P b n := by
  constructor
  · rintro ⟨hp, hzero⟩
    obtain ⟨b, hb, hbeg, hfrom⟩ := exists_begins hp
    have hcnt := cnt_of_holdsFrom hcount hb hfrom
    exact ⟨b, hbeg, by omega, hfrom⟩
  · rintro ⟨b, -, hle, hfrom⟩
    refine ⟨hfrom n (by omega) (Nat.le_refl n), ?_⟩
    rw [cnt_of_holdsFrom hcount (by omega) hfrom]
    omega

/-- Nothing happens before the condition has held for `T` ticks exactly if every wait that
outlasts the counter finds it at `T` or more when it begins. -/
theorem held_iff_loaded (hcount : ∀ n, P n → cnt (n + 1) = cnt n - 1) :
    (∀ n, P n → cnt n = 0 → WaitedFor P T n) ↔
      ∀ b, Begins P b → HoldsFrom P b (b + cnt b) → T ≤ cnt b := by
  constructor
  · intro h b hbeg hfrom
    obtain ⟨hp, hzero⟩ := (expired_iff hcount).mpr ⟨b, hbeg, Nat.le_refl _, hfrom⟩
    obtain ⟨hle, hheld⟩ := h _ hp hzero
    by_contra hlt
    obtain ⟨m, rfl⟩ : ∃ m, b = m + 1 := ⟨b - 1, by omega⟩
    exact hbeg.2 m rfl (hheld m (by omega) (by omega))
  · intro h n hp hzero
    obtain ⟨b, hbeg, hle, hfrom⟩ := (expired_iff hcount).mp ⟨hp, hzero⟩
    have hT := h b hbeg fun j h₁ h₂ => hfrom j h₁ (by omega)
    exact ⟨by omega, fun j h₁ h₂ => hfrom j (by omega) (by omega)⟩

/-! ## Requests answered at the end of a countdown -/

/-- A request raises a flag, an answer lowers it. While the flag is up a counter goes down,
at most by one in each tick, and an answer finds it at zero. -/
structure Answering (requests answers flag : Nat → Prop) (cnt : Nat → Nat) : Prop where
  start : ¬ flag 0
  keeps : ∀ n, ¬ answers n → (flag (n + 1) ↔ flag n ∨ requests n)
  counts : ∀ n, ¬ answers n → flag n ∨ requests n → cnt n ≤ cnt (n + 1) + 1
  answer : ∀ n, answers n → (flag n ∨ requests n) ∧ cnt n = 0 ∧ ¬ flag (n + 1)

/-- The request of tick `e` has not been answered before tick `n`. -/
def Open (requests answers : Nat → Prop) (e n : Nat) : Prop :=
  e ≤ n ∧ requests e ∧ ∀ j, e ≤ j → j < n → ¬ answers j

/-- The answer in tick `n`, if there is one, answers one request, made `T` ticks before or
earlier. -/
def AnswersOne (requests answers : Nat → Prop) (T n : Nat) : Prop :=
  answers n → ∃ e, e + T ≤ n ∧ Open requests answers e n ∧
    ∀ e', Open requests answers e' n → e' = e

/-- What holds before tick `n`: no request is open while the flag is down, and while it is
up one is, for which the counter has as much left as is missing. -/
structure OpenRequest (requests answers flag : Nat → Prop) (cnt : Nat → Nat) (T n : Nat) :
    Prop where
  down : ¬ flag n → ∀ e, e < n → ¬ Open requests answers e n
  up : flag n → ∃ e, e < n ∧ T + e ≤ cnt n + n ∧ Open requests answers e n ∧
    ∀ e', e' < n → Open requests answers e' n → e' = e

section
variable {requests answers flag : Nat → Prop}

theorem Open.before {e n : Nat} (h : Open requests answers e (n + 1)) (he : e ≤ n) :
    Open requests answers e n :=
  ⟨he, h.2.1, fun j h₁ h₂ => h.2.2 j h₁ (by omega)⟩

theorem Open.succ {e n : Nat} (h : Open requests answers e n) (hn : ¬ answers n) :
    Open requests answers e (n + 1) := by
  refine ⟨Nat.le_succ_of_le h.1, h.2.1, fun j h₁ h₂ => ?_⟩
  rcases Nat.lt_succ_iff_lt_or_eq.mp h₂ with hlt | rfl
  · exact h.2.2 j h₁ hlt
  · exact hn

/-- The request that is open when tick `n` answers: a new one or the one before. -/
theorem open_now
    (hready : requests n → ¬ flag n ∧ T ≤ cnt n)
    (hopen : OpenRequest requests answers flag cnt T n) (hup : flag n ∨ requests n) :
    ∃ e, T + e ≤ cnt n + n ∧ Open requests answers e n ∧
      ∀ e', Open requests answers e' n → e' = e := by
  by_cases hreq : requests n
  · obtain ⟨hdown, hcnt⟩ := hready hreq
    have hself : Open requests answers n n :=
      ⟨Nat.le_refl n, hreq, fun j h₁ h₂ => absurd h₁ (by omega)⟩
    refine ⟨n, by omega, hself, fun e' he' => ?_⟩
    rcases Nat.eq_or_lt_of_le he'.1 with rfl | hlt
    · rfl
    · exact absurd he' (hopen.down hdown e' hlt)
  · obtain ⟨e, -, hcnt, he, huniq⟩ := hopen.up (hup.resolve_right hreq)
    refine ⟨e, hcnt, he, fun e' he' => ?_⟩
    rcases Nat.eq_or_lt_of_le he'.1 with rfl | hlt
    · exact absurd he'.2.1 hreq
    · exact huniq e' hlt he'

theorem OpenRequest.succ (h : Answering requests answers flag cnt)
    (hready : requests n → ¬ flag n ∧ T ≤ cnt n)
    (hopen : OpenRequest requests answers flag cnt T n) :
    OpenRequest requests answers flag cnt T (n + 1) := by
  by_cases hans : answers n
  · -- the answer closes what was open
    refine ⟨fun _ e he hopn => hopn.2.2 n (by omega) (Nat.lt_succ_self n) hans, fun hup => ?_⟩
    exact absurd hup (h.answer n hans).2.2
  · refine ⟨fun hdown e he hopn => ?_, fun hup => ?_⟩
    · have hno : ¬ (flag n ∨ requests n) := fun hor => hdown ((h.keeps n hans).mpr hor)
      rcases Nat.eq_or_lt_of_le (Nat.lt_succ_iff.mp he) with rfl | hlt
      · exact hno (.inr hopn.2.1)
      · exact hopen.down (fun hf => hno (.inl hf)) e hlt (hopn.before (by omega))
    · have hor := (h.keeps n hans).mp hup
      have hcnt := h.counts n hans hor
      obtain ⟨e, hle, he, huniq⟩ := open_now hready hopen hor
      refine ⟨e, Nat.lt_succ_of_le he.1, by omega, he.succ hans, fun e' he' hopn => ?_⟩
      exact huniq e' (hopn.before (Nat.lt_succ_iff.mp he'))

/-- Where every request finds the flag down and the counter full, every answer answers one
request, after the full countdown. -/
theorem answers_one (h : Answering requests answers flag cnt)
    (hready : ∀ m, requests m → ¬ flag m ∧ T ≤ cnt m) (n : Nat) :
    AnswersOne requests answers T n := by
  have hopen : ∀ n, OpenRequest requests answers flag cnt T n := by
    intro n
    induction n with
    | zero => exact ⟨fun _ e he => absurd he (Nat.not_lt_zero e), fun hup => absurd hup h.start⟩
    | succ n ih => exact ih.succ h (hready n)
  intro hans
  obtain ⟨hup, hzero, -⟩ := h.answer n hans
  obtain ⟨e, hle, he, huniq⟩ := open_now (hready n) (hopen n) hup
  exact ⟨e, by omega, he, huniq⟩

end

end SC04Monitor.Lib.Countdown
