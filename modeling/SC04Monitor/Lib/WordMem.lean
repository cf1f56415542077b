import SC04Monitor.Lib.ByteMem

/-! # Words in byte memory

Little-endian 16-bit words: reading and writing one, and a block of them. -/

namespace SC04Monitor.Lib.WordMem
open SC04Monitor.Lib.ByteMem

/-- The two bytes of a word. -/
def wordBytes (w : UInt16) : List UInt8 := [w.toUInt8, (w >>> 8).toUInt8]

def writeWord (m : Mem) (a : Nat) (w : UInt16) : Mem := writeBytes m a (wordBytes w)

/-- The `n` words from `a` on. -/
def readWords (m : Mem) (a n : Nat) : List UInt16 :=
  (List.range n).map fun j => readWord m (a + 2 * j)

/-- One word behind the other, from `a` on. -/
def writeWords (m : Mem) (a : Nat) : List UInt16 → Mem
  | [] => m
  | w :: ws => writeWords (writeWord m a w) (a + 2) ws

/-- The words that a string of bytes holds. -/
def wordsOf : List UInt8 → List UInt16
  | lo :: hi :: bs => (lo.toUInt16 + hi.toUInt16 * 256) :: wordsOf bs
  | _ => []

theorem readWords_succ (m : Mem) (a n : Nat) :
    readWords m a (n + 1) = readWord m a :: readWords m (a + 2) n := by
  unfold readWords
  rw [List.range_succ_eq_map, List.map_cons, List.map_map]
  refine congrArg₂ List.cons rfl (List.map_congr_left fun j _ => ?_)
  show readWord m (a + 2 * (j + 1)) = readWord m (a + 2 + 2 * j)
  rw [show a + 2 * (j + 1) = a + 2 + 2 * j by omega]

theorem wordsOf_readBytes (m : Mem) (a n : Nat) :
    wordsOf (readBytes m a (2 * n)) = readWords m a n := by
  induction n generalizing a with
  | zero => rfl
  | succ n ih =>
    have hbytes : readBytes m a (2 * (n + 1)) = m a :: m (a + 1) :: readBytes m (a + 2) (2 * n) := by
      rw [show 2 * (n + 1) = 2 + 2 * n by omega, readBytes_add]
      rfl
    rw [hbytes, wordsOf, ih, readWords_succ]
    rfl

theorem readWord_of_bytes {m : Mem} {a : Nat} {w : UInt16} (h : readBytes m a 2 = wordBytes w) :
    readWord m a = w := by
  have hlo : m a = w.toUInt8 := readBytes_head h
  have hhi : m (a + 1) = (w >>> 8).toUInt8 := by
    have hlast := congrArg (fun l => l.getD 1 0) h
    simpa [readBytes, wordBytes] using hlast
  unfold readWord
  rw [hlo, hhi]
  refine UInt16.toNat_inj.mp ?_
  have hw := w.toNat_lt
  simp [Nat.shiftRight_eq_div_pow]
  omega

theorem readWord_writeWord (m : Mem) (a : Nat) (w : UInt16) : readWord (writeWord m a w) a = w :=
  readWord_of_bytes (readBytes_writeBytes m a (wordBytes w))

theorem readWord_congr {m m' : Mem} {a : Nat} (h : readBytes m a 2 = readBytes m' a 2) :
    readWord m a = readWord m' a := by
  have hcons : readBytes m a 2 = m' a :: [m' (a + 1)] := h
  have hlo : m a = m' a := readBytes_head hcons
  have hhi : m (a + 1) = m' (a + 1) := by
    have hlast := congrArg (fun l => l.getD 1 0) h
    simpa [readBytes] using hlast
  unfold readWord
  rw [hlo, hhi]

/-- A block of words leaves every word that it does not meet. -/
theorem readWord_writeWords_frame {ws : List UInt16} {m : Mem} {a p : Nat}
    (h : Apart a (2 * ws.length) p 2) : readWord (writeWords m a ws) p = readWord m p := by
  induction ws generalizing m a with
  | nil => rfl
  | cons w ws ih =>
    unfold Apart at h
    rw [List.length_cons] at h
    rw [writeWords, ih (by unfold Apart; omega)]
    refine readWord_congr (readBytes_writeBytes_frame ?_)
    unfold Apart wordBytes
    simp only [List.length_cons, List.length_nil]
    omega

theorem readWords_writeWords_frame {ws : List UInt16} {m : Mem} {a p n : Nat}
    (h : Apart a (2 * ws.length) p (2 * n)) :
    readWords (writeWords m a ws) p n = readWords m p n := by
  unfold readWords
  refine List.map_congr_left fun j hj => readWord_writeWords_frame ?_
  have hlt := List.mem_range.mp hj
  unfold Apart at h ⊢
  omega

/-- A block of words is read back. -/
theorem readWords_writeWords (m : Mem) (a : Nat) (ws : List UInt16) :
    readWords (writeWords m a ws) a ws.length = ws := by
  induction ws generalizing m a with
  | nil => rfl
  | cons w ws ih =>
    have hhead : readWord (writeWords (writeWord m a w) (a + 2) ws) a = w := by
      rw [readWord_writeWords_frame (by unfold Apart; omega), readWord_writeWord]
    rw [List.length_cons, readWords_succ, writeWords, hhead, ih]

theorem readWord_writeWords (m : Mem) (a : Nat) {ws : List UInt16} {j : Nat} (hj : j < ws.length) :
    readWord (writeWords m a ws) (a + 2 * j) = ws[j] := by
  have hall := congrArg (fun l => l[j]?) (readWords_writeWords m a ws)
  simpa [readWords, hj] using hall

/-- A word is given by its low byte and its high byte. -/
theorem word_of_bytes {w w' : UInt16} (hlo : (w &&& 0xFF).toUInt8 = (w' &&& 0xFF).toUInt8)
    (hhi : (w >>> 8).toUInt8 = (w' >>> 8).toUInt8) : w = w' := by
  have hlo' := congrArg UInt8.toNat hlo
  have hhi' := congrArg UInt8.toNat hhi
  have hw := w.toNat_lt
  have hw' := w'.toNat_lt
  have hmask : ∀ n : Nat, n &&& 255 = n % 256 := fun n => Nat.and_two_pow_sub_one_eq_mod n 8
  simp only [UInt16.toNat_toUInt8, UInt16.toNat_and, UInt16.toNat_shiftRight,
    Nat.shiftRight_eq_div_pow, UInt16.reduceToNat, hmask, Nat.reduceMod, Nat.reducePow] at hlo' hhi'
  refine UInt16.toNat_inj.mp ?_
  omega

/-- Strings of the same even length are told apart by their words. -/
theorem wordsOf_inj {n : Nat} {l l' : List UInt8} (hl : l.length = 2 * n) (hl' : l'.length = 2 * n)
    (h : wordsOf l = wordsOf l') : l = l' := by
  induction n generalizing l l' with
  | zero => rw [List.length_eq_zero_iff.mp hl, List.length_eq_zero_iff.mp hl']
  | succ n ih =>
    match l, l', hl, hl' with
    | lo :: hi :: bs, lo' :: hi' :: bs', hl, hl' =>
      simp only [List.length_cons] at hl hl'
      simp only [wordsOf, List.cons.injEq] at h
      obtain ⟨hword, hrest⟩ := h
      have hnat := congrArg UInt16.toNat hword
      have hb := hi.toNat_lt
      have hb' := hi'.toNat_lt
      have hc := lo.toNat_lt
      have hc' := lo'.toNat_lt
      simp only [UInt16.toNat_add, UInt16.toNat_mul, UInt8.toNat_toUInt16, UInt16.reduceToNat] at hnat
      have hlo : lo = lo' := UInt8.toNat_inj.mp (by omega)
      have hhi : hi = hi' := UInt8.toNat_inj.mp (by omega)
      rw [hlo, hhi, ih (by omega) (by omega) hrest]

/-! ## Words put together from bytes -/

/-- Two bytes put together by a shift. -/
theorem toNat_orBytes (hi lo : UInt8) :
    (hi.toUInt16 <<< 8 ||| lo.toUInt16).toNat = hi.toNat * 256 + lo.toNat := by
  have hhi := hi.toNat_lt
  have hlo := lo.toNat_lt
  have hshift : (hi.toUInt16 <<< 8).toNat = hi.toNat <<< 8 := by
    simp [UInt16.toNat_shiftLeft, Nat.shiftLeft_eq]
    omega
  rw [UInt16.toNat_or, hshift, UInt8.toNat_toUInt16, ← Nat.shiftLeft_add_eq_or_of_lt hlo,
    Nat.shiftLeft_eq]

theorem orBytes_self (w : UInt16) : (w >>> 8).toUInt8.toUInt16 <<< 8 ||| w.toUInt8.toUInt16 = w := by
  have hw := w.toNat_lt
  refine UInt16.toNat_inj.mp ?_
  rw [toNat_orBytes]
  simp [Nat.shiftRight_eq_div_pow]
  omega

theorem hi_orBytes (hi lo : UInt8) : ((hi.toUInt16 <<< 8 ||| lo.toUInt16) >>> 8).toUInt8 = hi := by
  have hhi := hi.toNat_lt
  have hlo := lo.toNat_lt
  refine UInt8.toNat_inj.mp ?_
  rw [UInt16.toNat_toUInt8, UInt16.toNat_shiftRight, toNat_orBytes]
  simp [Nat.shiftRight_eq_div_pow]
  omega

theorem lo_orBytes (hi lo : UInt8) :
    ((hi.toUInt16 <<< 8 ||| lo.toUInt16) &&& 0xFF).toUInt8 = lo := by
  have hlo := lo.toNat_lt
  have hmask : ∀ n : Nat, n &&& 255 = n % 256 := fun n => Nat.and_two_pow_sub_one_eq_mod n 8
  refine UInt8.toNat_inj.mp ?_
  rw [UInt16.toNat_toUInt8, UInt16.toNat_and, toNat_orBytes]
  simp [hmask]

end SC04Monitor.Lib.WordMem
