import SC04Monitor.Lib.Run

/-! # On-delay and off-delay

A debouncer follows its input with two delays. It counts the ticks for which the
input asks for a change of the output and starts again at every tick that does
not; a counter for each direction, one counting up and one counting down.

`runLength P n` is how many ticks in a row up to tick `n` satisfy `P`. The two
counters are such lengths (`Tracks`), and from that the exact law of the output:
it rises in the tick that ends `conTicks + 1` ticks in a row with the input
asserted and the output clear, and falls likewise. -/

namespace SC04Monitor.Lib.Debounce
open SC04Monitor.Lib.Run

/-! ## Ticks in a row -/

section
variable (P : Nat → Prop) [DecidablePred P]

/-- How many ticks right before tick `n` satisfy `P`. -/
def runLength : Nat → Nat
  | 0 => 0
  | n + 1 => if P n then runLength n + 1 else 0

end

section
variable {P : Nat → Prop} [DecidablePred P]

theorem runLength_succ_pos {n : Nat} (h : P n) : runLength P (n + 1) = runLength P n + 1 :=
  if_pos h

theorem runLength_succ_neg {n : Nat} (h : ¬ P n) : runLength P (n + 1) = 0 := if_neg h

/-- At least `m` ticks in a row. -/
theorem le_runLength_iff {m n : Nat} :
    m ≤ runLength P n ↔ m ≤ n ∧ ∀ j, n - m ≤ j → j < n → P j := by
  induction n generalizing m with
  | zero =>
    constructor
    · intro h
      exact ⟨h, fun j _ hj => absurd hj (Nat.not_lt_zero j)⟩
    · intro h
      exact h.1
  | succ n ih =>
    cases m with
    | zero => exact ⟨fun _ => ⟨Nat.zero_le _, fun j h₁ h₂ => by omega⟩, fun _ => Nat.zero_le _⟩
    | succ m =>
      by_cases hp : P n
      · rw [runLength_succ_pos hp, Nat.succ_le_succ_iff, ih]
        constructor
        · rintro ⟨hm, hall⟩
          refine ⟨by omega, fun j h₁ h₂ => ?_⟩
          rcases Nat.lt_or_ge j n with hj | hj
          · exact hall j (by omega) hj
          · rwa [show j = n by omega]
        · rintro ⟨hm, hall⟩
          exact ⟨by omega, fun j h₁ h₂ => hall j (by omega) (by omega)⟩
      · rw [runLength_succ_neg hp]
        constructor
        · intro h
          omega
        · rintro ⟨hm, hall⟩
          exact absurd (hall n (by omega) (by omega)) hp

end

/-! ## The debouncer -/

/-- The two counters and the output. -/
structure Debouncer where
  con : Nat
  dis : Nat
  out : Bool

namespace Debouncer

def init : Debouncer := ⟨0, 0, false⟩

section
variable (conTicks disTicks : Nat)

/-- One tick with the input `a`. -/
def step (s : Debouncer) (a : Bool) : Debouncer :=
  if a then
    let s := { s with dis := disTicks }
    if s.out then s
    else if s.con < conTicks then { s with con := s.con + 1 }
    else { s with out := true }
  else
    let s := { s with con := 0 }
    if !s.out then s
    else if 0 < s.dis then { s with dis := s.dis - 1 }
    else { s with out := false }

/-- The debouncer before tick `n`. -/
def before (ins : Nat → Bool) (n : Nat) : Debouncer := stateAt (step conTicks disTicks) init ins n

/-- Tick `j` finds the output clear and the input asserted. -/
def Asks (ins : Nat → Bool) (j : Nat) : Prop :=
  ins j = true ∧ (before conTicks disTicks ins j).out = false

/-- Tick `j` finds the output set and the input not asserted. -/
def Yields (ins : Nat → Bool) (j : Nat) : Prop :=
  ins j = false ∧ (before conTicks disTicks ins j).out = true

instance (ins : Nat → Bool) : DecidablePred (Asks conTicks disTicks ins) :=
  fun _ => inferInstanceAs (Decidable (_ ∧ _))

instance (ins : Nat → Bool) : DecidablePred (Yields conTicks disTicks ins) :=
  fun _ => inferInstanceAs (Decidable (_ ∧ _))

/-- The counter of the direction that the output can take is the length of the
run so far; the other one is not looked at. -/
structure Tracks (ins : Nat → Bool) (n : Nat) : Prop where
  con : (before conTicks disTicks ins n).out = false →
    (before conTicks disTicks ins n).con = runLength (Asks conTicks disTicks ins) n ∧
      (before conTicks disTicks ins n).con ≤ conTicks
  dis : (before conTicks disTicks ins n).out = true →
    (before conTicks disTicks ins n).dis + runLength (Yields conTicks disTicks ins) n = disTicks

end

section
variable {conTicks disTicks : Nat} {ins : Nat → Bool} {n : Nat}

theorem before_succ : before conTicks disTicks ins (n + 1) =
    step conTicks disTicks (before conTicks disTicks ins n) (ins n) := rfl

/-- What one tick can do. -/
theorem step_cases (s : Debouncer) (a : Bool) :
    (a = true ∧ s.out = false ∧ s.con < conTicks ∧
      step conTicks disTicks s a = ⟨s.con + 1, disTicks, false⟩) ∨
    (a = true ∧ s.out = false ∧ conTicks ≤ s.con ∧
      step conTicks disTicks s a = ⟨s.con, disTicks, true⟩) ∨
    (a = true ∧ s.out = true ∧ step conTicks disTicks s a = ⟨s.con, disTicks, true⟩) ∨
    (a = false ∧ s.out = true ∧ 0 < s.dis ∧
      step conTicks disTicks s a = ⟨0, s.dis - 1, true⟩) ∨
    (a = false ∧ s.out = true ∧ s.dis = 0 ∧ step conTicks disTicks s a = ⟨0, s.dis, false⟩) ∨
    (a = false ∧ s.out = false ∧ step conTicks disTicks s a = ⟨0, s.dis, false⟩) := by
  obtain ⟨con, dis, out⟩ := s
  unfold step
  cases a <;> cases out <;> simp <;> omega

/-- When a tick sets the output. -/
theorem step_sets_iff {s : Debouncer} {a : Bool} :
    s.out = false ∧ a = true ∧ conTicks ≤ s.con ↔
      s.out = false ∧ (step conTicks disTicks s a).out = true := by
  rcases @step_cases conTicks disTicks s a with
    ⟨ha, ho, hlt, hs⟩ | ⟨ha, ho, hle, hs⟩ | ⟨ha, ho, hs⟩ | ⟨ha, ho, _, hs⟩ | ⟨ha, ho, _, hs⟩ |
    ⟨ha, ho, hs⟩
  · have hno := Nat.not_le_of_lt hlt
    simp [hs, hno]
  · rw [hs]
    simp [ha, hle]
  · simp [ho]
  · simp [ho]
  · simp [ho]
  · rw [hs]
    simp [ha]

theorem asks_low (ha : ins n = false) : runLength (Asks conTicks disTicks ins) (n + 1) = 0 :=
  runLength_succ_neg fun h => Bool.false_ne_true (ha.symm.trans h.1)

theorem yields_high (ha : ins n = true) : runLength (Yields conTicks disTicks ins) (n + 1) = 0 :=
  runLength_succ_neg fun h => Bool.false_ne_true (h.1.symm.trans ha)

/-- The invariant of every run. -/
theorem tracks (n : Nat) : Tracks conTicks disTicks ins n := by
  induction n with
  | zero => exact ⟨fun _ => ⟨rfl, Nat.zero_le _⟩, fun h => by cases h⟩
  | succ n ih =>
    constructor
    · intro hout
      rw [before_succ] at hout ⊢
      rcases step_cases (before conTicks disTicks ins n) (ins n) with
        ⟨ha, ho, hlt, hs⟩ | ⟨ha, ho, hle, hs⟩ | ⟨ha, ho, hs⟩ | ⟨ha, ho, hpos, hs⟩ |
        ⟨ha, ho, hz, hs⟩ | ⟨ha, ho, hs⟩
      · rw [hs, runLength_succ_pos ⟨ha, ho⟩, ← (ih.con ho).1]
        exact ⟨rfl, hlt⟩
      · rw [hs] at hout; cases hout
      · rw [hs] at hout; cases hout
      · rw [hs] at hout; cases hout
      · rw [hs, asks_low ha]
        exact ⟨rfl, Nat.zero_le _⟩
      · rw [hs, asks_low ha]
        exact ⟨rfl, Nat.zero_le _⟩
    · intro hout
      rw [before_succ] at hout ⊢
      rcases step_cases (before conTicks disTicks ins n) (ins n) with
        ⟨ha, ho, hlt, hs⟩ | ⟨ha, ho, hle, hs⟩ | ⟨ha, ho, hs⟩ | ⟨ha, ho, hpos, hs⟩ |
        ⟨ha, ho, hz, hs⟩ | ⟨ha, ho, hs⟩
      · rw [hs] at hout; cases hout
      · rw [hs, yields_high ha]
        rfl
      · rw [hs, yields_high ha]
        rfl
      · rw [hs, runLength_succ_pos ⟨ha, ho⟩]
        have hd := ih.dis ho
        show (before conTicks disTicks ins n).dis - 1 + _ = _
        omega
      · rw [hs] at hout; cases hout
      · rw [hs] at hout; cases hout

/-- The output rises in the tick that ends `conTicks + 1` ticks in a row that ask
for it. -/
theorem rises_iff :
    (before conTicks disTicks ins n).out = false ∧
        (before conTicks disTicks ins (n + 1)).out = true ↔
      conTicks + 1 ≤ runLength (Asks conTicks disTicks ins) (n + 1) := by
  have ht : Tracks conTicks disTicks ins n := tracks n
  rw [before_succ]
  rcases step_cases (before conTicks disTicks ins n) (ins n) with
    ⟨ha, ho, hlt, hs⟩ | ⟨ha, ho, hle, hs⟩ | ⟨ha, ho, hs⟩ | ⟨ha, ho, _, hs⟩ | ⟨ha, ho, _, hs⟩ |
    ⟨ha, ho, hs⟩
  · have hc := ht.con ho
    rw [hs, runLength_succ_pos ⟨ha, ho⟩]
    simp only [Bool.false_eq_true, and_false, false_iff]
    omega
  · have hc := ht.con ho
    rw [hs, runLength_succ_pos ⟨ha, ho⟩]
    simp only [ho, and_self, true_iff]
    omega
  · rw [runLength_succ_neg fun h => Bool.false_ne_true (h.2.symm.trans ho)]
    simp [ho]
  all_goals
    rw [asks_low ha, hs]
    simp [ho]

/-- The output falls in the tick that ends `disTicks + 1` ticks in a row that
yield. -/
theorem falls_iff :
    (before conTicks disTicks ins n).out = true ∧
        (before conTicks disTicks ins (n + 1)).out = false ↔
      disTicks + 1 ≤ runLength (Yields conTicks disTicks ins) (n + 1) := by
  have ht : Tracks conTicks disTicks ins n := tracks n
  rw [before_succ]
  rcases step_cases (before conTicks disTicks ins n) (ins n) with
    ⟨ha, ho, _, hs⟩ | ⟨ha, ho, _, hs⟩ | ⟨ha, ho, hs⟩ | ⟨ha, ho, hpos, hs⟩ | ⟨ha, ho, hz, hs⟩ |
    ⟨ha, ho, hs⟩
  · rw [yields_high ha, hs]
    simp [ho]
  · rw [yields_high ha, hs]
    simp [ho]
  · rw [yields_high ha, hs]
    simp [ho]
  · have hd := ht.dis ho
    rw [hs, runLength_succ_pos ⟨ha, ho⟩]
    simp only [Bool.true_eq_false, and_false, false_iff]
    omega
  · have hd := ht.dis ho
    rw [hs, runLength_succ_pos ⟨ha, ho⟩]
    simp only [ho, and_self, true_iff]
    omega
  · rw [runLength_succ_neg fun h => Bool.false_ne_true (ho.symm.trans h.2)]
    simp [ho]

/-- An input that is never asserted leaves the output clear. -/
theorem out_of_never (h : ∀ j < n, ins j = false) :
    (before conTicks disTicks ins n).out = false := by
  induction n with
  | zero => rfl
  | succ n ih =>
    have hout := ih fun j hj => h j (Nat.lt_succ_of_lt hj)
    rw [before_succ, h n (Nat.lt_succ_self n)]
    unfold step
    simp [hout]

/-- Without an off-delay the output is set only while the input has been asserted
for `conTicks + 1` ticks. -/
theorem held_of_out (hdis : disTicks = 0) (ho : (before conTicks disTicks ins (n + 1)).out = true) :
    conTicks ≤ n ∧ ∀ j, n - conTicks ≤ j → j ≤ n → ins j = true := by
  induction n with
  | zero =>
    obtain ⟨hle, hall⟩ := le_runLength_iff.mp (rises_iff.mp ⟨rfl, ho⟩)
    exact ⟨by omega, fun j h₁ h₂ => (hall j (by omega) (by omega)).1⟩
  | succ n ih =>
    by_cases hprev : (before conTicks disTicks ins (n + 1)).out = true
    · obtain ⟨hle, hall⟩ := ih hprev
      have hlast : ins (n + 1) = true := by
        by_contra hlow
        have hlow : ins (n + 1) = false := by simpa using hlow
        have hd := (tracks (n + 1)).dis hprev
        rw [before_succ, hlow] at ho
        unfold step at ho
        simp only [Bool.false_eq_true, ↓reduceIte, hprev, Bool.not_true] at ho
        rw [if_neg (by omega)] at ho
        cases ho
      refine ⟨by omega, fun j h₁ h₂ => ?_⟩
      rcases Nat.lt_or_ge n j with hj | hj
      · rwa [show j = n + 1 by omega]
      · exact hall j (by omega) hj
    · obtain ⟨hle, hall⟩ := le_runLength_iff.mp (rises_iff.mp ⟨by simpa using hprev, ho⟩)
      exact ⟨by omega, fun j h₁ h₂ => (hall j (by omega) (by omega)).1⟩

end

end Debouncer

end SC04Monitor.Lib.Debounce
