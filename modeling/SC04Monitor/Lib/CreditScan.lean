import Mathlib.Tactic.Common

/-! # A search with a credit

A search runs over places that hold numbered records and keeps the best number
it has seen. Each reading that brings nothing new costs one of a small credit,
and without credit it stops. On a run of rising numbers it pays nothing: two
credits are enough to reach the end of the run from just before it. -/

namespace SC04Monitor.Lib.CreditScan

/-- What is read at a place; something torn brings nothing but costs nothing. -/
inductive Reading (κ : Type*)
  | valid (id : κ)
  | blank
  | torn

section
variable {π κ : Type*} [LT κ] [DecidableLT κ]

/-- The credit and the best record after one reading. -/
def visit (credit : Nat) (best : π × κ) (place : π) : Reading κ → Nat × (π × κ)
  | .valid id => if best.2 < id then (credit, (place, id)) else (credit - 1, best)
  | .blank => (credit - 1, best)
  | .torn => (credit, best)

def sweep : Nat → π × κ → List (π × Reading κ) → π × κ
  | _, best, [] => best
  | credit, best, (place, reading) :: rest =>
    let next := visit credit best place reading
    if 0 < next.1 then sweep next.1 next.2 rest else next.2

theorem sweep_cons (credit : Nat) (best : π × κ) (place : π) (reading : Reading κ)
    (rest : List (π × Reading κ)) : sweep credit best ((place, reading) :: rest) =
      if 0 < (visit credit best place reading).1 then
        sweep (visit credit best place reading).1 (visit credit best place reading).2 rest
      else (visit credit best place reading).2 := rfl

/-- No number beats the best one. -/
def Stale (best : κ) (l : List (π × Reading κ)) : Prop :=
  ∀ x ∈ l, ∀ id, x.2 = .valid id → ¬ best < id

theorem visit_stale {credit : Nat} {best : π × κ} {place : π} {reading : Reading κ}
    (h : ∀ id, reading = .valid id → ¬ best.2 < id) :
    (visit credit best place reading).2 = best := by
  cases reading with
  | valid id => rw [visit, if_neg (h id rfl)]
  | blank => rfl
  | torn => rfl

theorem sweep_stale {credit : Nat} {best : π × κ} {l : List (π × Reading κ)}
    (h : Stale best.2 l) : sweep credit best l = best := by
  induction l generalizing credit with
  | nil => rfl
  | cons x l ih =>
    obtain ⟨place, reading⟩ := x
    have hvisit := @visit_stale _ _ _ _ credit best place reading (h _ List.mem_cons_self)
    rw [sweep_cons, hvisit]
    split_ifs
    · exact ih fun y hy => h y (List.mem_cons_of_mem _ hy)
    · rfl

/-- One reading costs at most one credit, and the best record stays or is the
one that was read. -/
theorem visit_cases (credit : Nat) (best : π × κ) (place : π) (reading : Reading κ) :
    credit ≤ (visit credit best place reading).1 + 1 ∧
      ((visit credit best place reading).2 = best ∨
        ∃ id, reading = .valid id ∧ (visit credit best place reading).2 = (place, id)) := by
  cases reading with
  | valid id =>
    rw [visit]
    split_ifs
    · exact ⟨Nat.le_succ _, .inr ⟨id, rfl, rfl⟩⟩
    · exact ⟨by dsimp only; omega, .inl rfl⟩
  | blank => exact ⟨by dsimp only [visit]; omega, .inl rfl⟩
  | torn => exact ⟨Nat.le_succ _, .inl rfl⟩

/-- A run of rising numbers is followed to its end. -/
theorem sweep_rising {place : Nat → π} {id : Nat → κ} {credit a d : Nat} {best : π × κ}
    {rest : List (π × Reading κ)} (hc : 0 < credit) (hbest : best.2 < id a)
    (hrise : ∀ k, a ≤ k → k < a + d → id k < id (k + 1)) :
    sweep credit best (((List.range' a (d + 1)).map fun k => (place k, .valid (id k))) ++ rest) =
      sweep credit (place (a + d), id (a + d)) rest := by
  induction d generalizing a best with
  | zero => simp [sweep, visit, hbest, hc]
  | succ d ih =>
    rw [List.range'_succ, List.map_cons, List.cons_append, sweep_cons]
    simp only [visit, if_pos hbest, if_pos hc]
    rw [ih (hrise a (Nat.le_refl a) (by omega)) fun k h₁ h₂ => hrise k (by omega) (by omega),
      Nat.add_right_comm, Nat.add_assoc]

/-- The search starts at the newest record. -/
theorem sweep_here {credit : Nat} {best : π × κ} {place : π} {id : κ}
    {rest : List (π × Reading κ)} (h : best.2 < id ∨ best = (place, id)) (hrest : Stale id rest) :
    sweep credit best ((place, .valid id) :: rest) = (place, id) := by
  have hvisit : (visit credit best place (.valid id)).2 = (place, id) := by
    rw [visit]
    split_ifs with hlt
    · rfl
    · exact h.resolve_left hlt
  rw [sweep_cons, hvisit]
  split_ifs
  · exact sweep_stale hrest
  · rfl

/-- The search starts just before a rising run that ends at the newest record. -/
theorem sweep_ahead {place : Nat → π} {id : Nat → κ} {credit d : Nat} {best : π × κ}
    {reading : Reading κ} {rest : List (π × Reading κ)} (hc : 2 ≤ credit) (hbest : best.2 < id 1)
    (hfirst : ∀ i, reading = .valid i → i < id 1) (hrise : ∀ k, 1 ≤ k → k < 1 + d → id k < id (k + 1))
    (hrest : Stale (id (1 + d)) rest) :
    sweep credit best ((place 0, reading) ::
        (((List.range' 1 (d + 1)).map fun k => (place k, .valid (id k))) ++ rest)) =
      (place (1 + d), id (1 + d)) := by
  obtain ⟨hcredit, hcases⟩ := visit_cases credit best (place 0) reading
  have hnext : (visit credit best (place 0) reading).2.2 < id 1 := by
    rcases hcases with heq | ⟨i, hi, heq⟩
    · rwa [heq]
    · rw [heq]
      exact hfirst i hi
  rw [sweep_cons, if_pos (by omega), sweep_rising (by omega) hnext hrise, sweep_stale hrest]

end

end SC04Monitor.Lib.CreditScan
