import SC04Monitor.Lib.ByteMem
import Mathlib.Algebra.Ring.Nat

/-! # Bits of a byte memory

A memory of bytes is a string of bits, the least significant bit of a byte first. A field of up
to eight bits at any place lies in two successive bytes; it is read and replaced by way of the
word that these two make. -/

namespace SC04Monitor.Lib.BitString
open SC04Monitor.Lib.ByteMem

/-- Bit `i` of the memory. -/
def bitAt (m : Mem) (i : Nat) : Bool := (m (i / 8)).toBitVec.getLsbD (i % 8)

/-- The bytes at `p` and behind it as one word. -/
def window (m : Mem) (p : Nat) : BitVec 16 :=
  (m p).toBitVec.setWidth 16 ||| (m (p + 1)).toBitVec.setWidth 16 <<< 8

/-- The word is put back. -/
def setWindow (m : Mem) (p : Nat) (w : BitVec 16) : Mem :=
  writeBytes m p [⟨w.setWidth 8⟩, ⟨(w >>> 8).setWidth 8⟩]

theorem bitAt_low (m : Mem) (p : Nat) {k : Nat} (h : k < 8) :
    bitAt m (8 * p + k) = (m p).toBitVec.getLsbD k := by
  unfold bitAt
  rw [show (8 * p + k) / 8 = p by omega, show (8 * p + k) % 8 = k by omega]

theorem getLsbD_window (m : Mem) (p : Nat) {k : Nat} (h : k < 16) :
    (window m p).getLsbD k = bitAt m (8 * p + k) := by
  unfold window
  by_cases hlow : k < 8
  · rw [bitAt_low m p hlow]
    simp [hlow, h]
  · obtain ⟨j, rfl⟩ := Nat.exists_eq_add_of_le (Nat.le_of_not_lt hlow)
    rw [← Nat.add_assoc, ← Nat.mul_succ, bitAt_low m (p + 1) (by omega)]
    simp [h]

theorem bitAt_setWindow (m : Mem) (p : Nat) (w : BitVec 16) (i : Nat) :
    bitAt (setWindow m p w) i =
      if 8 * p ≤ i ∧ i < 8 * p + 16 then w.getLsbD (i - 8 * p) else bitAt m i := by
  unfold bitAt setWindow
  by_cases hin : 8 * p ≤ i ∧ i < 8 * p + 16
  · rw [if_pos hin, writeBytes_inside (by omega) (by simp; omega)]
    by_cases hlow : i < 8 * p + 8
    · simp [show i / 8 - p = 0 by omega, show i % 8 = i - 8 * p by omega]
      omega
    · simp [show i / 8 - p = 1 by omega, show 8 + i % 8 = i - 8 * p by omega]
      omega
  · rw [if_neg hin, writeBytes_outside (by simp; omega)]

/-- The places of a mask of `n` bits at place `o`. -/
theorem getLsbD_mask {o n : Nat} (h : o + n ≤ 16) (k : Nat) :
    ((BitVec.ofNat 16 (2 ^ n - 1)) <<< o).getLsbD k = decide (o ≤ k ∧ k < o + n) := by
  rw [BitVec.getLsbD_shiftLeft, BitVec.getLsbD_ofNat, Nat.testBit_two_pow_sub_one]
  by_cases ho : k < o
  · simp [ho, Nat.not_le.mpr ho]
  · by_cases hn : k < o + n
    · simp [ho, hn, Nat.le_of_not_lt ho, show k < 16 by omega, show k - o < 16 by omega,
        show k - o < n by omega]
    · simp [hn, show ¬ k - o < n by omega]

end SC04Monitor.Lib.BitString
