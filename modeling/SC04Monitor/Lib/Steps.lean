import Mathlib.Tactic.Common

/-! # Steps that may be refused

A step function `σ → α → Option σ` gives the state after an action, or `none` where
the action cannot be taken. A schedule is run action by action; the states reached by
steps that all meet a condition are `Reach`. -/

namespace SC04Monitor.Lib.Steps

variable {σ α : Type*}

section
variable (step : σ → α → Option σ)

/-- The state after a schedule, if every action of it can be taken. -/
def runSteps : σ → List α → Option σ
  | s, [] => some s
  | s, a :: as => (step s a).bind fun s => runSteps s as

/-- The states that steps lead to which all meet `ok` in the state they are taken in. -/
inductive Reach (ok : σ → α → Prop) (s₀ : σ) : σ → Prop
  | start : Reach ok s₀ s₀
  | next {s s' : σ} {a : α} (h : Reach ok s₀ s) (hok : ok s a) (hstep : step s a = some s') :
      Reach ok s₀ s'

/-- Every step is allowed. -/
def Always (_ : σ) (_ : α) : Prop := True

end

section
variable {step : σ → α → Option σ} {ok : σ → α → Prop} {s₀ s s' : σ}

theorem runSteps_append (s : σ) (as bs : List α) :
    runSteps step s (as ++ bs) = (runSteps step s as).bind fun s => runSteps step s bs := by
  induction as generalizing s with
  | nil => rfl
  | cons a as ih =>
    rw [List.cons_append, runSteps, runSteps, Option.bind_assoc]
    exact congrArg _ (funext ih)

/-- The rule for schedules: what every action of the schedule keeps, the run keeps. -/
theorem runSteps_inv {P : σ → Prop} {as : List α}
    (hstep : ∀ a ∈ as, ∀ s s', P s → step s a = some s' → P s') (h : P s)
    (hrun : runSteps step s as = some s') : P s' := by
  induction as generalizing s with
  | nil =>
    cases hrun
    exact h
  | cons a as ih =>
    obtain ⟨t, ha, hrest⟩ := Option.bind_eq_some_iff.mp hrun
    exact ih (fun b hb => hstep b (List.mem_cons_of_mem a hb))
      (hstep a List.mem_cons_self _ _ h ha) hrest

/-- The invariant rule. -/
theorem Reach.inv {P : σ → Prop} (h0 : P s₀)
    (hstep : ∀ s a s', P s → ok s a → step s a = some s' → P s') (h : Reach step ok s₀ s) :
    P s := by
  induction h with
  | start => exact h0
  | next _ hok hs ih => exact hstep _ _ _ ih hok hs

/-- What a schedule leads to is reached. -/
theorem Reach.run {as : List α} (h : Reach step Always s₀ s)
    (hrun : runSteps step s as = some s') : Reach step Always s₀ s' :=
  runSteps_inv (P := Reach step Always s₀) (fun _ _ _ _ h hs => h.next trivial hs) h hrun

end

/-! ## Guarded steps -/

section
variable (step : σ → α → Option σ) (ok : σ → α → Prop) [∀ s a, Decidable (ok s a)]

/-- The step, refused where it does not meet the condition. -/
def guarded (s : σ) (a : α) : Option σ := if ok s a then step s a else none

variable {step ok}

theorem guarded_eq_some {s s' : σ} {a : α} :
    guarded step ok s a = some s' ↔ ok s a ∧ step s a = some s' := by
  unfold guarded
  by_cases hok : ok s a
  · rw [if_pos hok]
    exact ⟨fun h => ⟨hok, h⟩, fun h => h.2⟩
  · rw [if_neg hok]
    exact ⟨fun h => absurd h (by simp), fun h => absurd h.1 hok⟩

/-- A guarded schedule is a schedule whose steps meet the condition. -/
theorem Reach.runGuarded {s₀ s s' : σ} {as : List α} (h : Reach step ok s₀ s)
    (hrun : runSteps (guarded step ok) s as = some s') : Reach step ok s₀ s' := by
  refine runSteps_inv (P := Reach step ok s₀) (fun a _ t t' ht hs => ?_) h hrun
  obtain ⟨hok, hstep⟩ := guarded_eq_some.mp hs
  exact ht.next hok hstep

theorem runSteps_of_guarded {s s' : σ} {as : List α}
    (hrun : runSteps (guarded step ok) s as = some s') : runSteps step s as = some s' := by
  induction as generalizing s with
  | nil => exact hrun
  | cons a as ih =>
    obtain ⟨t, ha, hrest⟩ := Option.bind_eq_some_iff.mp hrun
    rw [runSteps, (guarded_eq_some.mp ha).2, Option.bind_some]
    exact ih hrest

end

end SC04Monitor.Lib.Steps
