import Mathlib.Logic.Relation
import Mathlib.Tactic.Common

/-! # Systems that settle

A state settles in `q` if from it on there is nothing to choose and the steps end in `q`, where
no step is possible. Then every run, however far it goes, is on its way to `q`, and one that can
go no further is there. -/

namespace SC04Monitor.Lib.Settle
open Relation

variable {σ : Type*} {R : σ → σ → Prop}

inductive Settles (R : σ → σ → Prop) : σ → σ → Prop
  | rest {q : σ} (h : ∀ t, ¬ R q t) : Settles R q q
  | step {s t q : σ} (hstep : R s t) (only : ∀ t', R s t' → t' = t) (h : Settles R t q) :
      Settles R s q

variable {s t q : σ}

theorem Settles.leads (h : Settles R s q) : ReflTransGen R s q := by
  induction h with
  | rest => exact .refl
  | step hstep _ _ ih => exact .head hstep ih

theorem Settles.at_rest (h : Settles R s q) : ∀ t, ¬ R q t := by
  induction h with
  | rest h => exact h
  | step _ _ _ ih => exact ih

/-- Whatever is reached settles in the same state. -/
theorem Settles.of_reached (h : Settles R s q) (hrun : ReflTransGen R s t) : Settles R t q := by
  induction hrun with
  | refl => exact h
  | tail _ hstep ih =>
    cases ih with
    | rest h => exact absurd hstep (h _)
    | step _ only h => exact only _ hstep ▸ h

/-- A run that can go no further has come to `q`. -/
theorem Settles.eq_of_stuck (h : Settles R s q) (hrun : ReflTransGen R s t)
    (hstuck : ∀ t', ¬ R t t') : t = q := by
  cases h.of_reached hrun with
  | rest => rfl
  | step hstep => exact absurd hstep (hstuck _)

end SC04Monitor.Lib.Settle
