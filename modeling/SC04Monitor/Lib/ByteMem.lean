import SC04Monitor.Lib.Scan
import Mathlib.Data.List.GetD
import Mathlib.Tactic.Common

/-! # Flat byte memory

Memory is a function from addresses to bytes. A write of a byte string changes
the bytes of its range; reads elsewhere are framed. -/

namespace SC04Monitor.Lib.ByteMem
open SC04Monitor.Lib.Scan

abbrev Mem := Nat → UInt8

def readBytes (m : Mem) (a n : Nat) : List UInt8 := (List.range n).map fun i => m (a + i)

def writeBytes (m : Mem) (a : Nat) (bs : List UInt8) : Mem := fun q =>
  if a ≤ q then bs.getD (q - a) (m q) else m q

/-- `memcpy` inside one memory. -/
def copyBytes (m : Mem) (dst src n : Nat) : Mem := writeBytes m dst (readBytes m src n)

/-- The `n` bytes at `a` as a record of that size. -/
def readVector (m : Mem) (a n : Nat) : Vector UInt8 n := .ofFn fun i => m (a + i)

/-- The little-endian word at `a`. -/
def readWord (m : Mem) (a : Nat) : UInt16 := (m a).toUInt16 + (m (a + 1)).toUInt16 * 256

/-- Two ranges without a common address. -/
def Apart (a n b k : Nat) : Prop := n = 0 ∨ k = 0 ∨ a + n ≤ b ∨ b + k ≤ a

theorem Apart.symm {a n b k : Nat} (h : Apart a n b k) : Apart b k a n := by
  unfold Apart at *
  omega

@[simp] theorem length_readBytes (m : Mem) (a n : Nat) : (readBytes m a n).length = n := by
  simp [readBytes]

theorem readBytes_head {m : Mem} {a n : Nat} {b : UInt8} {bs : List UInt8}
    (h : readBytes m a n = b :: bs) : m a = b := by
  cases n with
  | zero => simp [readBytes] at h
  | succ n =>
    simp only [readBytes, List.range_succ_eq_map, List.map_cons, Nat.add_zero,
      List.cons.injEq] at h
    exact h.1

theorem readBytes_congr {m m' : Mem} {a n : Nat} (h : ∀ i < n, m (a + i) = m' (a + i)) :
    readBytes m a n = readBytes m' a n := by
  apply List.map_congr_left
  intro i hi
  exact h i (List.mem_range.mp hi)

theorem readBytes_add (m : Mem) (a n k : Nat) :
    readBytes m a (n + k) = readBytes m a n ++ readBytes m (a + n) k := by
  unfold readBytes
  rw [List.range_add, List.map_append, List.map_map]
  congr 1
  apply List.map_congr_left
  intro i _
  simp [Nat.add_assoc]

theorem readBytes_succ (m : Mem) (a n : Nat) : readBytes m a (n + 1) = m a :: readBytes m (a + 1) n := by
  rw [Nat.add_comm n 1, readBytes_add]
  rfl

/-- Equal bytes are equal on every shorter range. -/
theorem readBytes_shorter {m m' : Mem} {a n k : Nat} (h : readBytes m a n = readBytes m' a n)
    (hk : k ≤ n) : readBytes m a k = readBytes m' a k := by
  obtain ⟨j, rfl⟩ := Nat.exists_eq_add_of_le hk
  rw [readBytes_add, readBytes_add] at h
  exact (List.append_inj h (by simp)).1

/-- A shorter read gives the first bytes of a longer one. -/
theorem readBytes_take (m : Mem) (a : Nat) {k n : Nat} (h : k ≤ n) :
    readBytes m a k = (readBytes m a n).take k := by
  obtain ⟨j, rfl⟩ := Nat.exists_eq_add_of_le h
  rw [readBytes_add, List.take_append_of_le_length (by simp), List.take_of_length_le (by simp)]

theorem writeBytes_inside {m : Mem} {a q : Nat} {bs : List UInt8} (h₁ : a ≤ q)
    (h₂ : q - a < bs.length) : writeBytes m a bs q = bs[q - a] := by
  simp [writeBytes, h₁, h₂]

theorem writeBytes_outside {m : Mem} {a q : Nat} {bs : List UInt8}
    (h : q < a ∨ a + bs.length ≤ q) : writeBytes m a bs q = m q := by
  unfold writeBytes
  rcases h with h | h
  · rw [if_neg (by omega)]
  · rw [if_pos (by omega), List.getD_eq_getElem?_getD, List.getElem?_eq_none (by omega)]
    rfl

/-- A write is read back. -/
theorem readBytes_writeBytes (m : Mem) (a : Nat) (bs : List UInt8) :
    readBytes (writeBytes m a bs) a bs.length = bs := by
  apply List.ext_getElem (by simp)
  intro i h₁ h₂
  simp only [readBytes, List.getElem_map, List.getElem_range]
  rw [writeBytes_inside (by omega) (by omega)]
  congr 1
  omega

/-- The frame rule: a write leaves every range it does not meet. -/
theorem readBytes_writeBytes_frame {m : Mem} {a p n : Nat} {bs : List UInt8}
    (h : Apart a bs.length p n) : readBytes (writeBytes m a bs) p n = readBytes m p n := by
  apply readBytes_congr
  intro i hi
  apply writeBytes_outside
  unfold Apart at h
  omega

/-- A write of what is there already. -/
theorem writeBytes_of_readBytes {m : Mem} {a : Nat} {bs : List UInt8}
    (h : readBytes m a bs.length = bs) : writeBytes m a bs = m := by
  funext q
  by_cases hq : a ≤ q ∧ q - a < bs.length
  · have hget := congrArg (fun l => l[q - a]?) h
    rw [writeBytes_inside hq.1 hq.2]
    simpa [readBytes, hq.2, Nat.add_sub_cancel' hq.1] using hget.symm
  · exact writeBytes_outside (by omega)

/-- One write after the other, behind it. -/
theorem writeBytes_append (m : Mem) (a : Nat) (bs cs : List UInt8) :
    writeBytes m a (bs ++ cs) = writeBytes (writeBytes m a bs) (a + bs.length) cs := by
  funext q
  by_cases hq : a + bs.length ≤ q
  · have hcs : q - a - bs.length = q - (a + bs.length) := by omega
    rw [writeBytes, if_pos (by omega), List.getD_append_right _ _ _ _ (by omega), hcs]
    rw [writeBytes, if_pos hq, writeBytes_outside (.inr hq)]
  · rw [writeBytes_outside (m := writeBytes m a bs) (.inl (by omega))]
    unfold writeBytes
    by_cases hlow : a ≤ q
    · rw [if_pos hlow, if_pos hlow, List.getD_append _ _ _ _ (by omega)]
    · rw [if_neg hlow, if_neg hlow]

/-- A second write that covers the first replaces it. -/
theorem writeBytes_covered {m : Mem} {a b : Nat} {bs cs : List UInt8} (hlow : b ≤ a)
    (hhigh : a + bs.length ≤ b + cs.length) :
    writeBytes (writeBytes m a bs) b cs = writeBytes m b cs := by
  funext q
  by_cases hq : b ≤ q ∧ q - b < cs.length
  · rw [writeBytes_inside hq.1 hq.2, writeBytes_inside hq.1 hq.2]
  · have hout : q < b ∨ b + cs.length ≤ q := by omega
    rw [writeBytes_outside hout, writeBytes_outside hout, writeBytes_outside (by omega)]

/-- A second write of the same length replaces the first. -/
theorem writeBytes_writeBytes {m : Mem} {a : Nat} {bs bs' : List UInt8}
    (h : bs.length = bs'.length) : writeBytes (writeBytes m a bs) a bs' = writeBytes m a bs' :=
  writeBytes_covered (Nat.le_refl a) (by omega)

theorem readBytes_copyBytes (m : Mem) (dst src n : Nat) :
    readBytes (copyBytes m dst src n) dst n = readBytes m src n := by
  have h := readBytes_writeBytes m dst (readBytes m src n)
  rwa [length_readBytes] at h

theorem readBytes_copyBytes_frame {m : Mem} {dst src n p k : Nat} (h : Apart dst n p k) :
    readBytes (copyBytes m dst src n) p k = readBytes m p k :=
  readBytes_writeBytes_frame (by rwa [length_readBytes])

/-! ## Several writes -/

section
variable {ι : Type*} (addr : ι → Nat) (bytes : ι → List UInt8)

/-- One write for every index of a list. -/
def writeAll (l : List ι) (m : Mem) : Mem := l.foldl (fun m i => writeBytes m (addr i) (bytes i)) m

theorem readBytes_writeAll_frame {l : List ι} {m : Mem} {p n : Nat}
    (h : ∀ i ∈ l, Apart (addr i) (bytes i).length p n) :
    readBytes (writeAll addr bytes l m) p n = readBytes m p n :=
  scan_frame (fun m => readBytes m p n) (fun i hi _ => readBytes_writeBytes_frame (h i hi)) m

/-- Of writes to ranges that do not meet, each one is read back. -/
theorem readBytes_writeAll {l : List ι} {m : Mem} {i : ι} (hnd : l.Nodup) (hi : i ∈ l)
    (h : ∀ j ∈ l, j ≠ i → Apart (addr j) (bytes j).length (addr i) (bytes i).length) :
    readBytes (writeAll addr bytes l m) (addr i) (bytes i).length = bytes i := by
  obtain ⟨t, _, he⟩ := @scan_at _ _ _ (fun m i => writeBytes m (addr i) (bytes i))
    (fun m => readBytes m (addr i) (bytes i).length) _ _ hnd hi
    (fun j hj hne _ => readBytes_writeBytes_frame (h j hj hne)) m
  unfold writeAll
  rw [he, readBytes_writeBytes]

end

end SC04Monitor.Lib.ByteMem
