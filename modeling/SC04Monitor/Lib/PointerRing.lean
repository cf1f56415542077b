import SC04Monitor.Lib.Ring

/-! # A queue of pointers into a ring of slots

A writer fills the slots of a ring one after the other and queues a pointer to each; the
pointers go round in a ring with one place less. As long as a pointer has a free place the
queue is a FIFO of what the slots hold: the pending pointers are those of the last slots
written (`Synced`). A push onto a full pointer ring replaces the oldest pointer. -/

namespace SC04Monitor.Lib.PointerRing
open SC04Monitor.Lib.Ring

variable {α : Type*}

/-- The places `qIn` and `qOut` of the pointer ring, the number of pending pointers, and the
slot to be written next. -/
structure PtrRing (α : Type*) where
  qIn : Nat
  qOut : Nat
  n : Nat
  ptr : Nat
  ram : Nat → Nat
  slots : Nat → α

namespace PtrRing

section
variable (size : Nat) (q : PtrRing α)

/-- A slot is filled and its pointer queued. -/
def push (a : α) : PtrRing α where
  qIn := next (size - 1) q.qIn
  qOut := q.qOut
  n := q.n + 1
  ptr := next size q.ptr
  ram := Function.update q.ram q.qIn q.ptr
  slots := Function.update q.slots q.ptr a

/-- The oldest pointer is taken out. -/
def pop : PtrRing α := { q with qOut := next (size - 1) q.qOut, n := q.n - 1 }

/-- What the oldest pointer points at. -/
def head : α := q.slots (q.ram q.qOut)

/-- The pending pointers, oldest first. -/
def pointers : List Nat := entries q.ram (size - 1) q.qOut q.n

/-- What the pending pointers point at, oldest first. -/
def contents : List α := (entries q.ram (size - 1) q.qOut q.n).map q.slots

/-- The places stand where the count of pending pointers puts them. -/
structure Placed : Prop where
  out : q.qOut < size - 1
  ptr : q.ptr < size
  qin : q.qIn = (q.qOut + q.n) % (size - 1)

/-- The two rings are in step. -/
structure Synced : Prop where
  out : q.qOut < size - 1
  ptr : q.ptr < size
  le : q.n ≤ size - 1
  qin : q.qIn = (q.qOut + q.n) % (size - 1)
  pending : entries q.ram (size - 1) q.qOut q.n = entries id size (q.ptr + size - q.n) q.n

end

/-! ## The places

They follow the count of pending pointers in every state, also after a push onto a full
pointer ring. -/

namespace Placed
variable {size : Nat} {q : PtrRing α}

theorem empty (hs : 2 ≤ size) (ram : Nat → Nat) (slots : Nat → α) :
    Placed size ⟨0, 0, 0, 0, ram, slots⟩ := by
  refine ⟨?_, ?_, (Nat.zero_mod _).symm⟩
  · show 0 < size - 1
    omega
  · show 0 < size
    omega

theorem push (h : Placed size q) (a : α) : Placed size (q.push size a) := by
  refine ⟨h.out, next_lt h.ptr, ?_⟩
  show next (size - 1) q.qIn = (q.qOut + (q.n + 1)) % (size - 1)
  have hin : q.qIn < size - 1 := by
    rw [h.qin]
    exact Nat.mod_lt _ (Nat.zero_lt_of_lt h.out)
  rw [next_eq_mod hin, h.qin, Nat.mod_add_mod, Nat.add_assoc]

theorem pop (h : Placed size q) (hpos : q.n ≠ 0) : Placed size (q.pop size) := by
  refine ⟨next_lt h.out, h.ptr, ?_⟩
  show q.qIn = (next (size - 1) q.qOut + (q.n - 1)) % (size - 1)
  rw [h.qin, next_eq_mod h.out, Nat.mod_add_mod, show q.qOut + 1 + (q.n - 1) = q.qOut + q.n by omega]

theorem pointers_push (h : Placed size q) (hlt : q.n < size - 1) (a : α) :
    (q.push size a).pointers size = q.pointers size ++ [q.ptr] := by
  show entries (Function.update q.ram q.qIn q.ptr) (size - 1) q.qOut (q.n + 1) = _
  rw [h.qin, entries_push _ hlt]
  rfl

end Placed

/-! ## Rings in step -/

namespace Synced
variable {size : Nat} {q : PtrRing α}

theorem placed (h : Synced size q) : Placed size q := ⟨h.out, h.ptr, h.qin⟩

theorem empty (hs : 2 ≤ size) (ram : Nat → Nat) (slots : Nat → α) :
    Synced size ⟨0, 0, 0, 0, ram, slots⟩ :=
  have hplaced := Placed.empty hs ram slots
  ⟨hplaced.out, hplaced.ptr, Nat.zero_le _, hplaced.qin, rfl⟩

/-- The contents are the last slots written. -/
theorem contents_eq (h : Synced size q) :
    q.contents size = entries q.slots size (q.ptr + size - q.n) q.n := by
  unfold contents
  rw [h.pending, map_entries]
  rfl

/-- The write position is the one behind the last pending slot. -/
theorem ptr_eq (h : Synced size q) : (q.ptr + size - q.n + q.n) % size = q.ptr := by
  have hptr := h.ptr
  have hle := h.le
  rw [show q.ptr + size - q.n + q.n = q.ptr + size by omega, Nat.add_mod_right,
    Nat.mod_eq_of_lt hptr]

/-- The slots to be written next are not pointed at as long as their pointers have places. -/
theorem free (h : Synced size q) {k : Nat} (hfit : q.n + k ≤ size - 1) :
    ∀ i < k, (q.ptr + i) % size ∉ q.pointers size := by
  intro i hi hmem
  unfold pointers at hmem
  rw [h.pending] at hmem
  obtain ⟨j, hj, heq⟩ := List.mem_map.mp hmem
  have hlt := List.mem_range.mp hj
  have hptr := h.ptr
  refine @mod_ne size (q.ptr + size - q.n) (q.n + i) j (by omega) (by omega) ?_
  rw [show q.ptr + size - q.n + (q.n + i) = q.ptr + i + size by omega, Nat.add_mod_right]
  exact heq

/-- The new start of the pending slots names the same slot as before. -/
theorem start_congr {ptr n : Nat} (hn : n < size) :
    (next size ptr + size - (n + 1)) % size = (ptr + size - n) % size := by
  unfold next
  split_ifs with hw
  · rw [show ptr + size - n = 0 + size - (n + 1) + size by omega, Nat.add_mod_right]
  · rw [show ptr + 1 + size - (n + 1) = ptr + size - n by omega]

/-- A push onto a free place keeps the rings in step. -/
theorem push (h : Synced size q) (hlt : q.n < size - 1) (a : α) : Synced size (q.push size a) := by
  refine ⟨h.out, next_lt h.ptr, hlt, (h.placed.push a).qin, ?_⟩
  have hpush := h.placed.pointers_push hlt a
  unfold pointers at hpush
  rw [hpush, h.pending]
  show _ = entries id size (next size q.ptr + size - (q.n + 1)) (q.n + 1)
  rw [entries_congr (start_congr (by omega)), entries_concat, id_eq, h.ptr_eq]

/-- It appends what the slot is filled with. -/
theorem contents_push (h : Synced size q) (hlt : q.n < size - 1) (a : α) :
    (q.push size a).contents size = q.contents size ++ [a] := by
  rw [(h.push hlt a).contents_eq, h.contents_eq]
  show entries (Function.update q.slots q.ptr a) size (next size q.ptr + size - (q.n + 1))
    (q.n + 1) = _
  have hpush := @entries_push _ q.slots size (q.ptr + size - q.n) q.n a (by omega)
  rw [h.ptr_eq] at hpush
  rw [entries_congr (start_congr (by omega)), hpush]

/-- A push onto a full pointer ring replaces the oldest entry. -/
theorem overrun (h : Synced size q) (hfull : q.n = size - 1) (a : α) :
    ((q.push size a).contents size).head? = some a := by
  unfold contents
  show ((entries (Function.update q.ram q.qIn q.ptr) (size - 1) q.qOut (q.n + 1)).map
    (Function.update q.slots q.ptr a)).head? = _
  rw [List.head?_map, h.qin, hfull, entries_overrun, Option.map_some, Function.update_self]

/-- Where such a push seems to append, its entry was pending before. -/
theorem mem_of_overrun {β : Type*} (h : Synced size q) (hs : 2 ≤ size) (hfull : q.n = size - 1)
    {a : α} {g : α → β} {l : List β}
    (happ : ((q.push size a).contents size).map g = (q.contents size).map g ++ l) :
    g a ∈ (q.contents size).map g := by
  have hhead := congrArg (Option.map g) (h.overrun hfull a)
  have hne : (q.contents size).map g ≠ [] := by
    intro hnil
    have hlen := congrArg List.length hnil
    unfold contents at hlen
    rw [List.length_map, List.length_map, length_entries, List.length_nil] at hlen
    omega
  obtain ⟨b, rest, hcons⟩ := List.exists_cons_of_ne_nil hne
  rw [← List.head?_map, happ, hcons, List.cons_append, List.head?_cons, Option.map_some,
    Option.some.injEq] at hhead
  rw [hcons, ← hhead]
  exact List.mem_cons_self

/-- A pop keeps the rings in step and takes out the oldest entry. -/
theorem pop (h : Synced size q) (hpos : q.n ≠ 0) :
    Synced size (q.pop size) ∧ q.contents size = q.head :: (q.pop size).contents size := by
  obtain ⟨n, hn⟩ : ∃ n, q.n = n + 1 := ⟨q.n - 1, by omega⟩
  have hle := h.le
  have hcongr : (next (size - 1) q.qOut) % (size - 1) = (q.qOut + 1) % (size - 1) := by
    rw [next_eq_mod h.out, Nat.mod_mod]
  have hsplit := h.pending
  rw [hn, entries_cons, entries_cons, List.cons.injEq] at hsplit
  have hpop : q.pop size = { q with qOut := next (size - 1) q.qOut, n := n } := by
    unfold PtrRing.pop
    rw [hn, Nat.add_sub_cancel]
  rw [hpop]
  constructor
  · refine ⟨next_lt h.out, h.ptr, by show n ≤ size - 1; omega, ?_, ?_⟩
    · show q.qIn = (next (size - 1) q.qOut + n) % (size - 1)
      rw [h.qin, hn, next_eq_mod h.out, Nat.mod_add_mod]
      congr 1
      omega
    · show entries q.ram (size - 1) (next (size - 1) q.qOut) n =
        entries id size (q.ptr + size - n) n
      rw [entries_congr hcongr, hsplit.2]
      congr 1
      omega
  · unfold contents head
    rw [hn, entries_cons, List.map_cons, Nat.mod_eq_of_lt h.out, entries_congr hcongr]

end Synced

/-! ## Several slots filled

What is pushed stands behind the contents exactly if each pointer has a free place and no
slot to be written is still pointed at. -/

section
variable (size : Nat) (q : PtrRing α) (l : List α)

end

section
variable {size : Nat} {q : PtrRing α} {l : List α}

end

namespace Placed
variable {size : Nat} {q : PtrRing α} {l : List α}

end Placed

end PtrRing

end SC04Monitor.Lib.PointerRing
