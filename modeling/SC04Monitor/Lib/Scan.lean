import Mathlib.Data.List.Nodup

/-! # Table scans

A scan applies one step for every index of a table, in order. Where only the
step at one index touches what is observed, the scan is that step. -/

namespace SC04Monitor.Lib.Scan

variable {σ α τ : Type*} {step : σ → α → σ}

/-- What every step keeps, the scan keeps. -/
theorem scan_frame (obs : σ → τ) {l : List α} (h : ∀ a ∈ l, ∀ s, obs (step s a) = obs s) (s : σ) :
    obs (l.foldl step s) = obs s := by
  induction l generalizing s with
  | nil => rfl
  | cons a l ih =>
    rw [List.foldl_cons, ih fun b hb => h b (by simp [hb]), h a (by simp)]

/-- What every step but the one at `a` keeps is, after the scan, what that step
makes of it. -/
theorem scan_at (obs : σ → τ) {l : List α} {a : α} (hnd : l.Nodup) (ha : a ∈ l)
    (h : ∀ b ∈ l, b ≠ a → ∀ s, obs (step s b) = obs s) (s : σ) :
    ∃ t, obs t = obs s ∧ obs (l.foldl step s) = obs (step t a) := by
  obtain ⟨l₁, l₂, rfl⟩ := List.append_of_mem ha
  have hnot := List.nodup_append.mp hnd
  have h1 : ∀ b ∈ l₁, b ≠ a := fun b hb => hnot.2.2 b hb a (by simp)
  have h2 : ∀ b ∈ l₂, b ≠ a := fun b hb he =>
    (List.nodup_cons.mp hnot.2.1).1 (he ▸ hb)
  refine ⟨l₁.foldl step s, scan_frame obs (fun b hb => h b (by simp [hb]) (h1 b hb)) s, ?_⟩
  rw [List.foldl_append, List.foldl_cons]
  exact scan_frame obs (fun b hb => h b (by simp [hb]) (h2 b hb)) _

/-- A scan that acts at one index only. -/
theorem scan_single {l : List α} {a : α} (hnd : l.Nodup) (ha : a ∈ l)
    (h : ∀ b ∈ l, b ≠ a → ∀ s, step s b = s) (s : σ) : l.foldl step s = step s a := by
  obtain ⟨t, ht, he⟩ := scan_at (fun s => s) hnd ha h s
  rw [he, ht]

/-- A scan that acts nowhere. -/
theorem scan_none {l : List α} (h : ∀ b ∈ l, ∀ s, step s b = s) (s : σ) : l.foldl step s = s :=
  scan_frame (fun s => s) h s

end SC04Monitor.Lib.Scan
