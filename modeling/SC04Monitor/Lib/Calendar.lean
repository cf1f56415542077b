import Mathlib.Tactic.Common

/-! # The calendar and the seconds since 1970

Periods of different lengths lie one behind the other: years of days, and months in a year.
`before` is where a period begins, `locate` finds the period that something lies in. The two
are inverse to each other, so a civil time and its seconds determine one another. -/

namespace SC04Monitor.Lib.Calendar

/-! ## Periods -/

section
variable (len : Nat → Nat)

/-- Where period `n` begins. -/
def before : Nat → Nat
  | 0 => 0
  | n + 1 => before n + len n

/-- The period that `d` lies in, counted from the begin of period `n`, and where in it; at
most `fuel` periods are passed. -/
def locate : (fuel : Nat) → (n d : Nat) → Nat × Nat
  | 0, n, d => (n, d)
  | fuel + 1, n, d => if d < len n then (n, d) else locate fuel (n + 1) (d - len n)

variable {len}

theorem before_mono {m n : Nat} (h : m ≤ n) : before len m ≤ before len n := by
  induction n with
  | zero =>
    obtain rfl := Nat.le_zero.mp h
    exact Nat.le_refl _
  | succ n ih =>
    rcases Nat.lt_or_eq_of_le h with hlt | rfl
    · exact Nat.le_trans (ih (Nat.lt_succ_iff.mp hlt)) (Nat.le_add_right _ _)
    · exact Nat.le_refl _

theorem locate_before {n d : Nat} (hd : d < len n) :
    ∀ {fuel k : Nat}, k ≤ n → n ≤ fuel + k →
      locate len fuel k (before len n - before len k + d) = (n, d) := by
  intro fuel
  induction fuel with
  | zero =>
    intro k hk hn
    obtain rfl : k = n := by omega
    rw [Nat.sub_self, Nat.zero_add]
    rfl
  | succ fuel ih =>
    intro k hk hn
    unfold locate
    rcases Nat.lt_or_eq_of_le hk with hlt | rfl
    · have hnext : before len k + len k ≤ before len n := before_mono hlt
      rw [if_neg (by omega)]
      have hstep := ih hlt (by omega)
      have hpre : before len (k + 1) = before len k + len k := rfl
      rw [hpre] at hstep
      rw [← hstep]
      congr 1
      omega
    · rw [Nat.sub_self, Nat.zero_add, if_pos hd]

end

/-! ## Years and months -/

def isLeap (year : Nat) : Bool := year % 4 == 0 && (year % 100 != 0 || year % 400 == 0)

/-- The days of the `k`-th year since 1970. -/
def yearDays (k : Nat) : Nat := if isLeap (1970 + k) then 366 else 365

/-- The days of month `m` of a year, the first month being 0. -/
def monthDays (year m : Nat) : Nat :=
  if m = 1 then (if isLeap year then 29 else 28)
  else if m = 3 ∨ m = 5 ∨ m = 8 ∨ m = 10 then 30
  else 31

/-- A date and a time of day. -/
structure Civil where
  year : Nat
  month : Nat
  day : Nat
  hour : Nat
  minute : Nat
  second : Nat
  deriving DecidableEq

namespace Civil

/-- It exists in the calendar, from 1970 on. -/
structure Valid (c : Civil) : Prop where
  year : 1970 ≤ c.year
  month : 1 ≤ c.month ∧ c.month ≤ 12
  day : 1 ≤ c.day ∧ c.day ≤ monthDays c.year (c.month - 1)
  hour : c.hour < 24
  minute : c.minute < 60
  second : c.second < 60

/-- The days since the first of January 1970. -/
def days (c : Civil) : Nat :=
  before yearDays (c.year - 1970) + (before (monthDays c.year) (c.month - 1) + (c.day - 1))

/-- The seconds since then. -/
def seconds (c : Civil) : Nat := ((c.days * 24 + c.hour) * 60 + c.minute) * 60 + c.second

/-- The civil time of a number of seconds. -/
def ofSeconds (n : Nat) : Civil :=
  let days := n / 86400
  let (k, r) := locate yearDays days 0 days
  let (m, d) := locate (monthDays (1970 + k)) 12 0 r
  ⟨1970 + k, m + 1, d + 1, n / 3600 % 24, n / 60 % 60, n % 60⟩

/-- The months fill their year. -/
theorem before_months (k : Nat) : before (monthDays (1970 + k)) 12 = yearDays k := by
  unfold yearDays
  cases h : isLeap (1970 + k) <;> simp [before, monthDays, h]

theorem le_before_years (n : Nat) : n ≤ before yearDays n := by
  induction n with
  | zero => exact Nat.zero_le _
  | succ n ih =>
    have hpos : 1 ≤ yearDays n := by
      unfold yearDays
      split_ifs <;> omega
    exact Nat.add_le_add ih hpos

theorem ofSeconds_seconds {c : Civil} (h : c.Valid) : ofSeconds c.seconds = c := by
  obtain ⟨year, month, day, hour, minute, second⟩ := c
  obtain ⟨hy, ⟨hm1, hm12⟩, ⟨hd1, hd⟩, hh, hmin, hs⟩ := h
  dsimp only at *
  obtain ⟨k, rfl⟩ := Nat.exists_eq_add_of_le hy
  obtain ⟨m, rfl⟩ := Nat.exists_eq_add_of_le' hm1
  obtain ⟨d, rfl⟩ := Nat.exists_eq_add_of_le' hd1
  unfold ofSeconds
  generalize hn : seconds ⟨1970 + k, m + 1, d + 1, hour, minute, second⟩ = n
  have hdays : n / 86400 = before yearDays k + (before (monthDays (1970 + k)) m + d) := by
    rw [← hn]
    unfold seconds days
    simp only [Nat.add_sub_cancel, Nat.add_sub_cancel_left]
    omega
  have hrest : n / 3600 % 24 = hour ∧ n / 60 % 60 = minute ∧ n % 60 = second := by
    rw [← hn]
    unfold seconds
    dsimp only
    omega
  have hin : before (monthDays (1970 + k)) m + d < yearDays k := by
    have hnext : before (monthDays (1970 + k)) (m + 1) ≤ before (monthDays (1970 + k)) 12 :=
      before_mono hm12
    rw [before_months] at hnext
    exact Nat.lt_of_lt_of_le (Nat.add_lt_add_left hd _) hnext
  have hyear : locate yearDays (n / 86400) 0 (n / 86400) =
      (k, before (monthDays (1970 + k)) m + d) := by
    have hfuel : k ≤ n / 86400 + 0 := by
      have hle := le_before_years k
      omega
    have hloc := locate_before hin (Nat.zero_le k) hfuel
    rw [show before yearDays 0 = 0 from rfl, Nat.sub_zero, ← hdays] at hloc
    exact hloc
  have hmonth : locate (monthDays (1970 + k)) 12 0 (before (monthDays (1970 + k)) m + d) = (m, d) :=
    locate_before hd (Nat.zero_le m) (by omega)
  dsimp only
  rw [hyear]
  dsimp only
  rw [hmonth, hrest.1, hrest.2.1, hrest.2.2]

end Civil

end SC04Monitor.Lib.Calendar
