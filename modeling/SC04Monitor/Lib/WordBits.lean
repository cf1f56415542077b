import Mathlib.Data.Nat.Bitwise

/-! # Bit sets in 16-bit words

Bits of a word that are set, cleared and tested with a mask `1 <<< k`. -/

namespace SC04Monitor.Lib.WordBits

/-- The mask of bit `k`. -/
def bitMask (k : Nat) : UInt16 := 1 <<< UInt16.ofNat k

/-- Bit `k` is set. -/
def hasBit (w : UInt16) (k : Nat) : Bool := w.toNat.testBit k

theorem hasBit_zero (k : Nat) : hasBit 0 k = false := Nat.zero_testBit k

theorem hasBit_bitMask : ∀ k < 16, ∀ m < 16, hasBit (bitMask k) m = (m == k) := by decide

theorem hasBit_high {w : UInt16} {m : Nat} (hm : 16 ≤ m) : hasBit w m = false :=
  Nat.testBit_lt_two_pow (Nat.lt_of_lt_of_le w.toNat_lt (Nat.pow_le_pow_right (by decide) hm))

theorem hasBit_or (w v : UInt16) (m : Nat) : hasBit (w ||| v) m = (hasBit w m || hasBit v m) := by
  unfold hasBit
  rw [UInt16.toNat_or, Nat.testBit_or]

theorem hasBit_and (w v : UInt16) (m : Nat) : hasBit (w &&& v) m = (hasBit w m && hasBit v m) := by
  unfold hasBit
  rw [UInt16.toNat_and, Nat.testBit_and]

theorem hasBit_not {m : Nat} (w : UInt16) (hm : m < 16) : hasBit (~~~w) m = !hasBit w m := by
  have h := BitVec.getLsbD_not (x := w.toBitVec) (i := m)
  rw [decide_eq_true hm, Bool.true_and] at h
  exact h

/-- A word is zero if none of its bits is set. -/
theorem eq_zero_iff (w : UInt16) : w = 0 ↔ ∀ m < 16, hasBit w m = false := by
  constructor
  · rintro rfl m _
    exact hasBit_zero m
  · intro h
    refine UInt16.toNat_inj.mp (Nat.eq_of_testBit_eq fun m => ?_)
    rcases Nat.lt_or_ge m 16 with hm | hm
    · exact (h m hm).trans (hasBit_zero m).symm
    · exact (hasBit_high hm).trans (hasBit_zero m).symm

/-- The test of a bit. -/
theorem and_bitMask_eq_zero_iff {k : Nat} (w : UInt16) (hk : k < 16) :
    w &&& bitMask k = 0 ↔ hasBit w k = false := by
  rw [eq_zero_iff]
  constructor
  · intro h
    simpa [hasBit_and, hasBit_bitMask k hk k hk] using h k hk
  · intro h m hm
    rw [hasBit_and, hasBit_bitMask k hk m hm]
    rcases eq_or_ne m k with rfl | hne
    · simp [h]
    · simp [hne]

theorem hasBit_set {k m : Nat} (w : UInt16) (hk : k < 16) (hm : m < 16) :
    hasBit (w ||| bitMask k) m = (hasBit w m || m == k) := by
  rw [hasBit_or, hasBit_bitMask k hk m hm]

theorem hasBit_clear {k m : Nat} (w : UInt16) (hk : k < 16) (hm : m < 16) :
    hasBit (w &&& ~~~bitMask k) m = (hasBit w m && m != k) := by
  rw [hasBit_and, hasBit_not _ hm, hasBit_bitMask k hk m hm]
  rfl

end SC04Monitor.Lib.WordBits
