import Mathlib.Logic.Function.Basic
import Mathlib.Tactic.Common

/-! # Ring buffers

A ring of `cap` slots holds `n` entries from the slot `out` on, wrapping around.
`entries` lists them; a write behind the last one appends to the list as long as
the ring is not full, and replaces its head when it is. -/

namespace SC04Monitor.Lib.Ring

variable {α β : Type*}

/-- The `n` entries of a ring from `out` on. -/
def entries (slots : Nat → α) (cap out n : Nat) : List α :=
  (List.range n).map fun i => slots ((out + i) % cap)

/-- The next index of a ring, as a wrapping pointer computes it. -/
def next (cap i : Nat) : Nat := if i + 1 = cap then 0 else i + 1

theorem next_lt {cap i : Nat} (h : i < cap) : next cap i < cap := by
  unfold next
  split_ifs <;> omega

theorem next_eq_mod {cap i : Nat} (h : i < cap) : next cap i = (i + 1) % cap := by
  unfold next
  split_ifs with hi
  · rw [hi, Nat.mod_self]
  · rw [Nat.mod_eq_of_lt (by omega)]

section
variable {slots : Nat → α} {cap out n : Nat}

@[simp] theorem length_entries : (entries slots cap out n).length = n := by simp [entries]

theorem entries_congr {out' : Nat} (h : out % cap = out' % cap) :
    entries slots cap out n = entries slots cap out' n := by
  apply List.map_congr_left
  intro i _
  rw [Nat.add_mod, h, ← Nat.add_mod]

theorem entries_cons :
    entries slots cap out (n + 1) = slots (out % cap) :: entries slots cap (out + 1) n := by
  unfold entries
  rw [List.range_succ_eq_map, List.map_cons, List.map_map]
  congr 1
  apply List.map_congr_left
  intro i _
  simp only [Function.comp_apply]
  congr 2
  omega

theorem entries_concat :
    entries slots cap out (n + 1) = entries slots cap out n ++ [slots ((out + n) % cap)] := by
  simp [entries, List.range_succ]

theorem map_entries (f : α → β) :
    (entries slots cap out n).map f = entries (fun i => f (slots i)) cap out n := by
  simp [entries]

/-- Less than a full turn apart, two positions have different slots. -/
theorem mod_ne {i : Nat} (hi : i < n) (hn : n - i < cap) : (out + i) % cap ≠ (out + n) % cap := by
  intro he
  have hdvd : cap ∣ (out + n) - (out + i) :=
    Nat.dvd_of_mod_eq_zero (Nat.sub_mod_eq_zero_of_mod_eq he.symm)
  have hzero := Nat.eq_zero_of_dvd_of_lt hdvd (by omega)
  omega

/-- A write behind the last entry of a ring that is not full appends. -/
theorem entries_push (a : α) (h : n < cap) :
    entries (Function.update slots ((out + n) % cap) a) cap out (n + 1) =
      entries slots cap out n ++ [a] := by
  rw [entries_concat, Function.update_self]
  congr 1
  apply List.map_congr_left
  intro i hi
  have hin := List.mem_range.mp hi
  rw [Function.update_of_ne (mod_ne hin (by omega))]

/-- A write behind the last entry of a full ring replaces the first one. -/
theorem entries_overrun (a : α) :
    (entries (Function.update slots ((out + cap) % cap) a) cap out (cap + 1)).head? = some a := by
  rw [entries_cons, List.head?_cons, Nat.add_mod_right, Function.update_self]

end

/-! ## Reading a ring out in order -/

/-- `n` entries copied from `src` on of one array to `dst` on of another. -/
def copyEntries (a : Nat → α) (src : Nat) (b : Nat → α) (dst n : Nat) : Nat → α :=
  fun j => if dst ≤ j ∧ j < dst + n then a (src + (j - dst)) else b j

section
variable {slots data : Nat → α} {cap p : Nat}

/-- Two copies around the slot last written put the ring in order, the oldest entry first;
one of them is empty when that slot is the last one. -/
theorem copyEntries_unroll (hp : p < cap) {j : Nat} (hj : j < cap) :
    copyEntries slots 0 (copyEntries slots (p + 1) data 0 (cap - p - 1)) (cap - p - 1) (p + 1) j =
      slots ((p + 1 + j) % cap) := by
  unfold copyEntries
  by_cases hlow : j < cap - p - 1
  · rw [if_neg (by omega), if_pos (by omega), Nat.mod_eq_of_lt (by omega), Nat.sub_zero]
  · have hwrap : p + 1 + j = j - (cap - p - 1) + cap := by omega
    rw [if_pos (by omega), hwrap, Nat.add_mod_right, Nat.mod_eq_of_lt (by omega), Nat.zero_add]

/-- After `n` entries have been written round and round, each to the slot behind the last,
the last `cap` of them are in their slots. -/
def WrittenRound (slots : Nat → α) (cap : Nat) (entry : Nat → α) (n : Nat) : Prop :=
  ∀ r, r < n → n ≤ r + cap → slots (r % cap) = entry r

/-- Only the slots of the ring count. -/
theorem WrittenRound.congr {entry : Nat → α} {n : Nat} {slots' : Nat → α}
    (h : WrittenRound slots cap entry n) (hcap : 0 < cap) (hslots : ∀ j < cap, slots' j = slots j) :
    WrittenRound slots' cap entry n := fun r hr hlast =>
  (hslots _ (Nat.mod_lt r hcap)).trans (h r hr hlast)

theorem WrittenRound.write {entry : Nat → α} {n : Nat} (h : WrittenRound slots cap entry n) :
    WrittenRound (Function.update slots (n % cap) (entry n)) cap entry (n + 1) := by
  intro r hr hlast
  rcases Nat.lt_succ_iff_lt_or_eq.mp hr with hlt | rfl
  · have hne : r % cap ≠ n % cap := by
      have hdist := @mod_ne cap r (n - r) 0 (by omega) (by omega)
      rwa [Nat.add_zero, show r + (n - r) = n by omega] at hdist
    rw [Function.update_of_ne hne]
    exact h r hlt (by omega)
  · exact Function.update_self _ _ _

/-- Position `j` of the ring in order, counted from its end, is the entry as long ago. -/
theorem WrittenRound.unroll {entry : Nat → α} {n : Nat} (h : WrittenRound slots cap entry (n + 1))
    (hcap : 0 < cap) {j : Nat} (hj : j < cap) (hn : cap ≤ n + 1 + j) :
    copyEntries slots 0 (copyEntries slots (n % cap + 1) data 0 (cap - n % cap - 1))
      (cap - n % cap - 1) (n % cap + 1) j = entry (n + 1 + j - cap) := by
  rw [copyEntries_unroll (Nat.mod_lt n hcap) hj, ← h (n + 1 + j - cap) (by omega) (by omega)]
  congr 1
  have hmod : (n % cap + 1 + j) % cap = (n + 1 + j) % cap := by
    rw [Nat.add_assoc, Nat.mod_add_mod, ← Nat.add_assoc]
  rw [hmod]
  conv_lhs => rw [show n + 1 + j = n + 1 + j - cap + cap by omega, Nat.add_mod_right]

end

end SC04Monitor.Lib.Ring
