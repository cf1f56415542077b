import SC04Monitor.Lib.Steps

/-! # Frames with a doubled flag

A flag with another symbol behind it begins a frame with that symbol. A flag that belongs to a
frame is sent twice, so a receiver that holds back a flag until the next symbol takes a stuffed
frame as if it were given the symbols themselves. -/

namespace SC04Monitor.Lib.ByteStuffing
open SC04Monitor.Lib.Steps

variable {α : Type*} [DecidableEq α]

/-- Every flag twice. -/
def stuff (flag : α) (l : List α) : List α :=
  l.flatMap fun a => if a = flag then [flag, flag] else [a]

/-- One flag of two. -/
def unstuff (flag : α) : List α → List α
  | [] => []
  | [a] => [a]
  | a :: b :: l => if a = flag then a :: unstuff flag l else a :: unstuff flag (b :: l)

section
variable {flag : α}

theorem stuff_flag (l : List α) : stuff flag (flag :: l) = flag :: flag :: stuff flag l := by
  simp [stuff]

theorem stuff_other {a : α} (h : a ≠ flag) (l : List α) :
    stuff flag (a :: l) = a :: stuff flag l := by
  simp [stuff, h]

theorem stuff_append (l l' : List α) : stuff flag (l ++ l') = stuff flag l ++ stuff flag l' :=
  List.flatMap_append

/-- What is stuffed is recovered. -/
theorem unstuff_stuff (l : List α) : unstuff flag (stuff flag l) = l := by
  induction l with
  | nil => rfl
  | cons a l ih =>
    by_cases ha : a = flag
    · subst ha
      rw [stuff_flag, unstuff, if_pos rfl, ih]
    · rw [stuff_other ha]
      cases hrest : stuff flag l with
      | nil =>
        rw [hrest] at ih
        rw [← ih]
        rfl
      | cons b l' => rw [unstuff, if_neg ha, ← hrest, ih]

/-- Doubling adds one symbol for every flag. -/
theorem length_stuff (l : List α) : (stuff flag l).length = l.length + l.count flag := by
  induction l with
  | nil => rfl
  | cons a l ih =>
    by_cases h : a = flag
    · subst h
      rw [stuff_flag, List.count_cons_self]
      simp only [List.length_cons, ih]
      omega
    · rw [stuff_other h, List.count_cons_of_ne h]
      simp only [List.length_cons, ih]
      omega

/-- A receiver whose step on two flags is that of one symbol, and on anything else that of the
symbol, takes a stuffed body as it takes the symbols. `P` is what it needs to be in for that. -/
theorem runSteps_stuff {σ : Type*} {step data : σ → α → Option σ} (P : σ → Prop)
    (hother : ∀ s a, P s → a ≠ flag → step s a = data s a)
    (hflag : ∀ s, P s → (step s flag).bind (fun s => step s flag) = data s flag)
    (hdata : ∀ s a t, P s → data s a = some t → P t) {s : σ} (h : P s) (l : List α) :
    runSteps step s (stuff flag l) = runSteps data s l := by
  have hrest : ∀ (a : α) (l : List α) (s : σ),
      (∀ t, P t → runSteps step t (stuff flag l) = runSteps data t l) → P s →
      (data s a).bind (fun t => runSteps step t (stuff flag l)) =
        (data s a).bind fun t => runSteps data t l := by
    intro a l s ih hs
    cases hstep : data s a with
    | none => rfl
    | some t => exact ih t (hdata s a t hs hstep)
  induction l generalizing s with
  | nil => rfl
  | cons a l ih =>
    by_cases ha : a = flag
    · subst ha
      have htwo : runSteps step s [a, a] = data s a := by
        rw [← hflag s h]
        simp [runSteps]
      rw [stuff_flag]
      show runSteps step s ([a, a] ++ stuff a l) = _
      rw [runSteps_append, htwo]
      exact hrest a l s (fun t => ih) h
    · rw [stuff_other ha, runSteps, runSteps, hother s a h ha]
      exact hrest a l s (fun t => ih) h

end

end SC04Monitor.Lib.ByteStuffing
