import Mathlib.Logic.Function.Iterate
import Mathlib.Data.List.GetD
import Mathlib.Tactic.Common

/-! # Cyclic redundancy checks

The reflected shift register: the register moves down by one place, and the polynomial is
added when a bit falls out; a message is fed in bit by bit, least significant bit first.

Feeding is linear in exclusive or. As long as no more bits are fed than the register is wide,
feeding is adding them all and then shifting. The shift loses nothing if the polynomial has
its top bit, so a burst no longer than the register always leaves a trace. -/

namespace SC04Monitor.Lib.Crc

variable {w : Nat} (p : BitVec w)

/-- One shift of the register. -/
def shift (c : BitVec w) : BitVec w := if c.getLsbD 0 then c >>> 1 ^^^ p else c >>> 1

/-- `n` shifts. -/
def shifts (n : Nat) : BitVec w → BitVec w := (shift p)^[n]

/-- Bits as a word, the first one least significant. -/
def word (w : Nat) (bits : List Bool) : BitVec w := (BitVec.ofBoolListLE bits).setWidth w

/-- A bit is added to the register, which is then shifted. -/
def feedBit (c : BitVec w) (b : Bool) : BitVec w := shift p (c ^^^ word w [b])

/-- The register after a string of bits. -/
def feed (c : BitVec w) (bits : List Bool) : BitVec w := bits.foldl (feedBit p) c

/-! ## Linearity -/

section
variable {p}

theorem shift_zero : shift p 0#w = 0#w := by
  unfold shift
  rw [BitVec.getLsbD_zero, if_neg Bool.false_ne_true, BitVec.zero_ushiftRight]

theorem shift_xor (x y : BitVec w) : shift p (x ^^^ y) = shift p x ^^^ shift p y := by
  unfold shift
  rw [BitVec.getLsbD_xor, BitVec.ushiftRight_xor_distrib]
  cases x.getLsbD 0 <;> cases y.getLsbD 0
  · rfl
  · exact BitVec.xor_assoc _ _ _
  · show x >>> 1 ^^^ y >>> 1 ^^^ p = x >>> 1 ^^^ p ^^^ y >>> 1
    rw [BitVec.xor_assoc, BitVec.xor_comm (y >>> 1), BitVec.xor_assoc]
  · show x >>> 1 ^^^ y >>> 1 = x >>> 1 ^^^ p ^^^ (y >>> 1 ^^^ p)
    rw [BitVec.xor_comm (y >>> 1), BitVec.xor_assoc, ← BitVec.xor_assoc p, BitVec.xor_self,
      BitVec.zero_xor]

theorem shifts_succ (n : Nat) (c : BitVec w) : shifts p (n + 1) c = shifts p n (shift p c) :=
  Function.iterate_succ_apply _ _ _

theorem shifts_zero (n : Nat) : shifts p n 0#w = 0#w := by
  induction n with
  | zero => rfl
  | succ n ih => rw [shifts_succ, shift_zero, ih]

theorem shifts_xor (n : Nat) (x y : BitVec w) :
    shifts p n (x ^^^ y) = shifts p n x ^^^ shifts p n y := by
  induction n generalizing x y with
  | zero => rfl
  | succ n ih => rw [shifts_succ, shifts_succ, shifts_succ, shift_xor, ih]

theorem shift_of_low {c : BitVec w} (h : c.getLsbD 0 = false) : shift p c = c >>> 1 := by
  unfold shift
  rw [h, if_neg Bool.false_ne_true]

/-- Where the places that are shifted out are clear the register only moves down. -/
theorem shifts_of_low {n : Nat} {c : BitVec w} (h : ∀ i < n, c.getLsbD i = false) :
    shifts p n c = c >>> n := by
  induction n generalizing c with
  | zero => exact (BitVec.ushiftRight_zero c).symm
  | succ n ih =>
    rw [shifts_succ, shift_of_low (h 0 (Nat.zero_lt_succ n)), ih, ← BitVec.shiftRight_add,
      Nat.add_comm]
    intro i hi
    rw [BitVec.getLsbD_ushiftRight]
    exact h (1 + i) (by omega)

/-- `n` shifts of the register are those of its low `n` bits, and the rest moved down. -/
theorem shifts_split {n : Nat} {c low : BitVec w} (h : ∀ i < n, c.getLsbD i = low.getLsbD i)
    (hlow : ∀ i, n ≤ i → low.getLsbD i = false) : shifts p n c = shifts p n low ^^^ c >>> n := by
  have hsplit : c = low ^^^ (c ^^^ low) := by
    rw [BitVec.xor_comm c, ← BitVec.xor_assoc, BitVec.xor_self, BitVec.zero_xor]
  have hrest : shifts p n (c ^^^ low) = (c ^^^ low) >>> n := by
    refine shifts_of_low fun i hi => ?_
    rw [BitVec.getLsbD_xor, h i hi, Bool.xor_self]
  have hgone : low >>> n = 0#w := BitVec.eq_of_getLsbD_eq fun i hi => by
    rw [BitVec.getLsbD_ushiftRight, BitVec.getLsbD_zero]
    exact hlow _ (Nat.le_add_right n i)
  conv_lhs => rw [hsplit]
  rw [shifts_xor, hrest, BitVec.ushiftRight_xor_distrib, hgone, BitVec.xor_zero]

/-! ## Feeding -/

theorem getLsbD_word (bits : List Bool) (i : Nat) :
    (word w bits).getLsbD i = (decide (i < w) && bits.getD i false) := by
  unfold word
  rw [BitVec.getLsbD_setWidth, BitVec.getLsbD_ofBoolListLE]

theorem word_cons (b : Bool) (bits : List Bool) :
    word w (b :: bits) = word w [b] ^^^ word w bits <<< 1 := by
  refine BitVec.eq_of_getLsbD_eq fun i hi => ?_
  rw [BitVec.getLsbD_xor, BitVec.getLsbD_shiftLeft, getLsbD_word, getLsbD_word, getLsbD_word]
  cases i with
  | zero => simp
  | succ i =>
    have hi' : i < w := Nat.lt_of_succ_lt hi
    simp [hi, hi']

/-- Bits that fit behind the first one move down to its place. -/
theorem shift_word {bits : List Bool} (h : bits.length < w) :
    shift p (word w bits <<< 1) = word w bits := by
  have hlow : (word w bits <<< 1).getLsbD 0 = false := by simp
  rw [shift_of_low hlow]
  refine BitVec.eq_of_getLsbD_eq fun i hi => ?_
  rw [BitVec.getLsbD_ushiftRight, BitVec.getLsbD_shiftLeft, getLsbD_word, getLsbD_word]
  by_cases hlast : 1 + i < w
  · simp [hlast, hi]
  · have hout : bits.length ≤ i := by omega
    simp [hlast, List.getElem?_eq_none hout]

theorem feed_cons (c : BitVec w) (b : Bool) (bits : List Bool) :
    feed p c (b :: bits) = feed p (feedBit p c b) bits := rfl

theorem feed_append (c : BitVec w) (l₁ l₂ : List Bool) :
    feed p c (l₁ ++ l₂) = feed p (feed p c l₁) l₂ := List.foldl_append

/-- Feeding no more bits than the register is wide. -/
theorem feed_eq {bits : List Bool} (h : bits.length ≤ w) (c : BitVec w) :
    feed p c bits = shifts p bits.length (c ^^^ word w bits) := by
  induction bits generalizing c with
  | nil =>
    have hzero : word w [] = 0#w := BitVec.eq_of_getLsbD_eq fun i hi => by
      rw [getLsbD_word, BitVec.getLsbD_zero, List.getD_nil, Bool.and_false]
    rw [hzero, BitVec.xor_zero]
    rfl
  | cons b bits ih =>
    rw [List.length_cons] at h
    rw [feed_cons, ih (Nat.le_of_succ_le h), List.length_cons, shifts_succ, word_cons,
      ← BitVec.xor_assoc, shift_xor (c ^^^ word w [b]), shift_word (Nat.lt_of_succ_le h)]
    rfl

/-- Feeding is linear. -/
theorem feed_xor {l₁ l₂ : List Bool} (h : l₁.length = l₂.length) (c₁ c₂ : BitVec w) :
    feed p (c₁ ^^^ c₂) (List.zipWith xor l₁ l₂) = feed p c₁ l₁ ^^^ feed p c₂ l₂ := by
  induction l₁ generalizing l₂ c₁ c₂ with
  | nil =>
    cases l₂ with
    | nil => rfl
    | cons b l₂ => cases h
  | cons a l₁ ih =>
    cases l₂ with
    | nil => cases h
    | cons b l₂ =>
      have hbit : feedBit p (c₁ ^^^ c₂) (xor a b) = feedBit p c₁ a ^^^ feedBit p c₂ b := by
        have hword : word w [xor a b] = word w [a] ^^^ word w [b] := by
          refine BitVec.eq_of_getLsbD_eq fun i hi => ?_
          rw [BitVec.getLsbD_xor, getLsbD_word, getLsbD_word, getLsbD_word]
          cases i <;> simp [hi]
        unfold feedBit
        rw [← shift_xor, hword]
        congr 1
        ac_rfl
      rw [List.zipWith_cons_cons, feed_cons, feed_cons, feed_cons, hbit,
        ih (Nat.succ.inj h)]

/-! ## Bursts -/

/-- A polynomial with its top bit loses nothing in a shift. -/
theorem shift_eq_zero (hp : p.msb = true) {c : BitVec w} (h : shift p c = 0#w) : c = 0#w := by
  have hbits : ∀ i, (shift p c).getLsbD i = false := fun i => by rw [h, BitVec.getLsbD_zero]
  have hw : 0 < w := by
    by_contra hw
    obtain rfl : w = 0 := by omega
    rw [BitVec.eq_nil p] at hp
    cases hp
  cases hc : c.getLsbD 0 with
  | true =>
    -- the top bit comes from the polynomial
    have htop := hbits (w - 1)
    unfold shift at htop
    rw [hc, if_pos rfl, BitVec.getLsbD_xor, BitVec.getLsbD_ushiftRight,
      BitVec.getLsbD_of_ge c _ (by omega), ← BitVec.msb_eq_getLsbD_last, hp] at htop
    cases htop
  | false =>
    refine BitVec.eq_of_getLsbD_eq fun i hi => ?_
    rw [BitVec.getLsbD_zero]
    cases i with
    | zero => exact hc
    | succ i =>
      have hbit := hbits i
      rw [shift_of_low hc, BitVec.getLsbD_ushiftRight, Nat.add_comm] at hbit
      exact hbit

theorem shifts_eq_zero (hp : p.msb = true) {n : Nat} {c : BitVec w} (h : shifts p n c = 0#w) :
    c = 0#w := by
  induction n generalizing c with
  | zero => exact h
  | succ n ih => exact shift_eq_zero hp (ih (by rwa [shifts_succ] at h))

/-- Zeros shift the register. -/
theorem feed_false {bits : List Bool} (h : ∀ b ∈ bits, b = false) (c : BitVec w) :
    feed p c bits = shifts p bits.length c := by
  induction bits generalizing c with
  | nil => rfl
  | cons b bits ih =>
    have hb : b = false := h b List.mem_cons_self
    have hword : word w [b] = 0#w := BitVec.eq_of_getLsbD_eq fun i hi => by
      rw [getLsbD_word, BitVec.getLsbD_zero, hb]
      cases i <;> simp
    rw [feed_cons, ih fun x hx => h x (List.mem_cons_of_mem b hx), List.length_cons, shifts_succ]
    unfold feedBit
    rw [hword, BitVec.xor_zero]

/-- Bits, at least one of them set, all of them set within `n` places. -/
def IsBurst (n : Nat) (bits : List Bool) : Prop :=
  (∃ i, bits.getD i false = true) ∧
    ∃ s, ∀ i, bits.getD i false = true → s ≤ i ∧ i < s + n

/-- A burst within the width of the register leaves a trace in it. -/
theorem feed_burst (hp : p.msb = true) {bits : List Bool} (h : IsBurst w bits) :
    feed p 0#w bits ≠ 0#w := by
  obtain ⟨⟨j, hj⟩, s, hs⟩ := h
  have hsplit : bits = bits.take s ++ ((bits.drop s).take w ++ bits.drop (s + w)) := by
    rw [← List.drop_drop, List.take_append_drop, List.take_append_drop]
  have hclear : ∀ i (hi : i < bits.length), i < s ∨ s + w ≤ i → bits[i] = false := by
    intro i hi hout
    by_contra hset
    have hin := hs i (by rwa [List.getD_eq_getElem _ _ hi, ← Bool.not_eq_false])
    omega
  have hbefore : ∀ b ∈ bits.take s, b = false := by
    intro b hb
    obtain ⟨i, hi, rfl⟩ := List.mem_iff_getElem.mp hb
    rw [List.length_take] at hi
    rw [List.getElem_take]
    exact hclear i (by omega) (.inl (by omega))
  have hafter : ∀ b ∈ bits.drop (s + w), b = false := by
    intro b hb
    obtain ⟨i, hi, rfl⟩ := List.mem_iff_getElem.mp hb
    rw [List.length_drop] at hi
    rw [List.getElem_drop]
    exact hclear _ (by omega) (.inr (by omega))
  intro hzero
  rw [hsplit, feed_append, feed_append, feed_false hbefore, shifts_zero, feed_false hafter] at hzero
  have hmid := shifts_eq_zero hp hzero
  rw [feed_eq (List.length_take_le _ _), BitVec.zero_xor] at hmid
  have hbit := congrArg (fun x => x.getLsbD (j - s)) (shifts_eq_zero hp hmid)
  obtain ⟨hsj, hjw⟩ := hs j hj
  have hoff : j - s < w := by omega
  have hback : s + (j - s) = j := by omega
  simp only [getLsbD_word, BitVec.getLsbD_zero, hoff, decide_true, Bool.true_and,
    List.getD_eq_getElem?_getD, List.getElem?_take_of_lt, List.getElem?_drop, hback] at hbit hj
  rw [hbit] at hj
  cases hj

end

end SC04Monitor.Lib.Crc
