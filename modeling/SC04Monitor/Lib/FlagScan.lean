import Mathlib.Data.List.Nodup
import Mathlib.Logic.Function.Iterate

/-! # Scans for the first raised flag

A handler that serves the first raised flag of a table serves a flag at once when no
flag before it is up. Every flag it serves in the meantime is one fewer ahead, so a
raised flag waits at most as many rounds as entries stand before it. -/

namespace SC04Monitor.Lib.FlagScan

variable {α : Type*} [DecidableEq α]

/-- The entries of the table that stand before `a`. -/
def before (l : List α) (a : α) : List α := l.takeWhile fun b => decide (b ≠ a)

/-- How many flags are raised before `a`. -/
def ahead (l : List α) (f : α → Bool) (a : α) : Nat := (before l a).countP f

section
variable {l : List α} {f g : α → Bool} {a b : α}

theorem ahead_le : ahead l f a ≤ (before l a).length := List.countP_le_length

theorem ahead_congr (h : ∀ b ∈ before l a, f b = g b) : ahead l f a = ahead l g a :=
  List.countP_congr fun b hb => by rw [h b hb]

theorem before_cons_self : before (a :: l) a = [] := by simp [before]

theorem before_cons_of_ne (h : b ≠ a) : before (b :: l) a = b :: before l a := by
  simp [before, h]

/-- A raised flag of the table is found, or one before it is. -/
theorem find?_cases (ha : a ∈ l) (hf : f a = true) :
    (l.find? f = some a ∧ ahead l f a = 0) ∨
      ∃ b, l.find? f = some b ∧ b ∈ before l a ∧ b ≠ a := by
  induction l with
  | nil => exact absurd ha List.not_mem_nil
  | cons c l ih =>
    by_cases hc : c = a
    · subst hc
      exact .inl ⟨List.find?_cons_of_pos hf, by simp [ahead, before_cons_self]⟩
    · have hal : a ∈ l := (List.mem_cons.mp ha).resolve_left (Ne.symm hc)
      cases hfc : f c with
      | true =>
        refine .inr ⟨c, List.find?_cons_of_pos hfc, ?_, hc⟩
        rw [before_cons_of_ne hc]
        exact List.mem_cons_self
      | false =>
        have hskip : (c :: l).find? f = l.find? f := List.find?_cons_of_neg (by simp [hfc])
        rw [hskip]
        rcases ih hal with ⟨hfind, h0⟩ | ⟨b, hfind, hmem, hne⟩
        · refine .inl ⟨hfind, ?_⟩
          rw [ahead, before_cons_of_ne hc, List.countP_cons_of_neg (by simp [hfc])]
          exact h0
        · refine .inr ⟨b, hfind, ?_, hne⟩
          rw [before_cons_of_ne hc]
          exact List.mem_cons_of_mem c hmem

/-- Before the flag that is found all are down. -/
theorem down_before (h : l.find? f = some a) (hb : b ∈ before l a) : f b = false := by
  induction l with
  | nil => exact absurd hb List.not_mem_nil
  | cons c l ih =>
    by_cases hc : c = a
    · subst hc
      rw [before_cons_self] at hb
      exact absurd hb List.not_mem_nil
    · cases hfc : f c with
      | true =>
        rw [List.find?_cons_of_pos hfc] at h
        exact absurd (Option.some.inj h) hc
      | false =>
        rw [List.find?_cons_of_neg (by simp [hfc])] at h
        rw [before_cons_of_ne hc] at hb
        rcases List.mem_cons.mp hb with rfl | hb
        · exact hfc
        · exact ih h hb

/-- Lowering a raised flag before `a` leaves one fewer ahead of it. -/
theorem ahead_lower (hnd : l.Nodup) (hb : b ∈ before l a) (hf : f b = true) :
    ahead l (Function.update f b false) a + 1 = ahead l f a := by
  induction l with
  | nil => exact absurd hb List.not_mem_nil
  | cons c l ih =>
    obtain ⟨hcl, hnd⟩ := List.nodup_cons.mp hnd
    by_cases hc : c = a
    · subst hc
      rw [before_cons_self] at hb
      exact absurd hb List.not_mem_nil
    · unfold ahead
      rw [before_cons_of_ne hc] at hb ⊢
      by_cases hbc : b = c
      · subst hbc
        have hsame : (before l a).countP (Function.update f b false) = (before l a).countP f := by
          refine ahead_congr fun d hd => Function.update_of_ne ?_ _ _
          rintro rfl
          exact hcl ((List.takeWhile_prefix _).subset hd)
        rw [List.countP_cons_of_neg (by simp), List.countP_cons_of_pos hf, hsame]
      · have hbl : b ∈ before l a := (List.mem_cons.mp hb).resolve_left hbc
        have hrest := ih hnd hbl
        unfold ahead at hrest
        have hup : Function.update f b false c = f c := Function.update_of_ne (Ne.symm hbc) _ _
        rw [List.countP_cons, List.countP_cons, hup]
        omega

end

/-! ## Rounds that use up a weight -/

section
variable {σ : Type*} {round : σ → σ} {P : σ → Prop} {weight : σ → Nat}

/-- A weight that every round lowers is used up after as many rounds. -/
theorem weight_used_up (hkeep : ∀ s, P s → P (round s))
    (hlower : ∀ s, P s → weight (round s) ≤ weight s - 1) {s : σ} (hs : P s) {t : Nat}
    (ht : weight s ≤ t) : weight (round^[t] s) = 0 := by
  induction t generalizing s with
  | zero => exact Nat.le_zero.mp ht
  | succ t ih =>
    have hstep := hlower s hs
    rw [Function.iterate_succ_apply]
    exact ih (hkeep s hs) (by omega)

/-- What every round keeps is there after any number of them. -/
theorem iterate_keeps (hkeep : ∀ s, P s → P (round s)) {s : σ} (hs : P s) (t : Nat) :
    P (round^[t] s) := by
  induction t with
  | zero => exact hs
  | succ t ih =>
    rw [Function.iterate_succ_apply']
    exact hkeep _ ih

end

end SC04Monitor.Lib.FlagScan
