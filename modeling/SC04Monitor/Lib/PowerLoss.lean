import Mathlib.Tactic.Common

/-! # Computations that the supply can cut

A computation performs operations on a device, each one atomic, and the supply may fail
before any of them. What it does is its trace: the states of the device after each
operation. Cut after `n` operations it leaves the state after the first `n`, so that a
statement about every point of a power loss is one about the prefixes of the trace. -/

namespace SC04Monitor.Lib.PowerLoss

/-- A computation is told how many operations the supply lasts. It leaves the device and,
unless it is cut, its value and the number of operations left. -/
def Powered (σ α : Type) : Type := σ → Nat → σ × Option (α × Nat)

section
variable {σ α β : Type}

instance : Monad (Powered σ) where
  pure a := fun s n => (s, some (a, n))
  bind m f := fun s n =>
    match m s n with
    | (t, none) => (t, none)
    | (t, some (a, k)) => f a t k

/-- One operation of the device. -/
def op (f : σ → σ × α) : Powered σ α := fun s n =>
  match n with
  | 0 => (s, none)
  | n + 1 => ((f s).1, some ((f s).2, n))

/-- An operation that changes the device and answers nothing. -/
def act (f : σ → σ) : Powered σ Unit := op fun s => (f s, ())

/-- An operation that only looks at the device. -/
def look (f : σ → α) : Powered σ α := op fun s => (s, f s)

/-- The state after `n` operations of a trace. -/
def stateAfter (s : σ) (trace : List σ) (n : Nat) : σ := (trace.take n).getLastD s

/-- The computation runs through the trace and returns the value, however long the supply
lasts. -/
def Traces (m : Powered σ α) (s : σ) (trace : List σ) (a : α) : Prop :=
  ∀ n, m s n = (stateAfter s trace n,
    if n < trace.length then none else some (a, n - trace.length))

theorem stateAfter_append (s : σ) (l l' : List σ) (n : Nat) :
    stateAfter s (l ++ l') n = stateAfter (stateAfter s l n) l' (n - l.length) := by
  unfold stateAfter
  rw [List.take_append]
  cases hl : l'.take (n - l.length) with
  | nil => simp
  | cons t rest => simp [List.getLastD_eq_getLast?]

theorem Traces.pure (s : σ) (a : α) : Traces (Pure.pure a : Powered σ α) s [] a := by
  intro n
  have heq : (Pure.pure a : Powered σ α) s n = (s, some (a, n)) := rfl
  simp [heq, stateAfter]

theorem Traces.op (f : σ → σ × α) (s : σ) : Traces (op f) s [(f s).1] (f s).2 := by
  intro n
  cases n with
  | zero => rfl
  | succ n =>
    unfold PowerLoss.op stateAfter
    simp

theorem Traces.act (f : σ → σ) (s : σ) : Traces (act f) s [f s] () := Traces.op _ s

theorem Traces.look (f : σ → α) (s : σ) : Traces (look f) s [s] (f s) := Traces.op _ s

/-- One computation after the other. -/
theorem Traces.bind {m : Powered σ α} {f : α → Powered σ β} {s t : σ} {l l' : List σ} {a : α}
    {b : β} (hm : Traces m s l a) (ht : t = stateAfter s l l.length)
    (hf : Traces (f a) t l' b) : Traces (m >>= f) s (l ++ l') b := by
  intro n
  have heq : (m >>= f) s n =
      match m s n with
      | (t, none) => (t, none)
      | (t, some (a, k)) => f a t k := rfl
  rw [heq, hm n]
  by_cases hn : n < l.length
  · have hzero : n - l.length = 0 := by omega
    rw [if_pos hn, stateAfter_append, hzero, if_pos (by rw [List.length_append]; omega)]
    rfl
  · have hfull : stateAfter s l n = t := by
      rw [ht]
      unfold stateAfter
      rw [List.take_of_length_le (Nat.le_of_not_lt hn), List.take_length]
    rw [if_neg hn, stateAfter_append, hfull]
    dsimp only
    rw [hf, List.length_append]
    have hlt : n - l.length < l'.length ↔ n < l.length + l'.length := by omega
    simp only [hlt, Nat.sub_sub]

/-- A computation is cut exactly if the supply does not last for its trace. -/
theorem Traces.cut_iff {m : Powered σ α} {s t : σ} {l : List σ} {a : α} (h : Traces m s l a)
    (n : Nat) : m s n = (t, none) ↔ n < l.length ∧ t = stateAfter s l n := by
  rw [h n]
  by_cases hn : n < l.length
  · simp [hn, eq_comm]
  · simp [hn]

/-- What a computation that is not cut leaves. -/
theorem Traces.done {m : Powered σ α} {s t : σ} {l : List σ} {a b : α} {n k : Nat}
    (h : Traces m s l a) (hrun : m s n = (t, some (b, k))) :
    t = stateAfter s l l.length ∧ b = a := by
  rw [h n] at hrun
  by_cases hn : n < l.length
  · simp [hn] at hrun
  · rw [if_neg hn] at hrun
    simp only [Prod.mk.injEq, Option.some.injEq] at hrun
    obtain ⟨ht, hb, -⟩ := hrun
    refine ⟨?_, hb.symm⟩
    rw [← ht]
    unfold stateAfter
    rw [List.take_of_length_le (Nat.le_of_not_lt hn), List.take_length]

end

end SC04Monitor.Lib.PowerLoss
