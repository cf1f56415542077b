import SC04Monitor.Modbus.Functions
import SC04Monitor.Modbus.Rtu

/-! # The handlers stay inside `ucRTUBuf`

The PDU of a request begins at the second byte of `ucRTUBuf`. The byte counts and register
counts in it are the master's word; still no handler reads or writes outside of the array, and
no response is longer than the array can hold with the address before and the CRC behind it.

Inside of the array a handler reads no further than the request says. Where a request says more
than it has, that is what an earlier frame has left there. -/

namespace SC04Monitor.Modbus
open SC04Monitor.Lib.ByteMem SC04Monitor.Lib.WordMem

/-- The two memories do not differ below `n`. -/
def AgreeIn (n : Nat) (m m' : Mem) : Prop := ∀ q < n, m q = m' q

theorem agreeIn_writeBytes {n : Nat} {m m' : Mem} (h : AgreeIn n m m') (a : Nat)
    (bs : List UInt8) : AgreeIn n (writeBytes m a bs) (writeBytes m' a bs) := by
  intro q hq
  unfold writeBytes
  rw [h q hq]

/-- The same to all who look at the memory below `n` and at the response. -/
structure Handled.Same (n : Nat) (r r' : Handled) : Prop where
  exc : r.exc = r'.exc
  usLen : r.usLen = r'.usLen
  data : r.data = r'.data
  buf : AgreeIn n r.buf r'.buf
  response : r.exc = .none → readBytes r.buf 1 r.usLen = readBytes r'.buf 1 r.usLen

/-- The longest PDU that leaves room for the address and the CRC, and for one byte that
`eMBRTUReceive` wants to be free. -/
def pduSizeMax : Nat := 252

/-- A handler that keeps to the array, for a PDU behind the address; `ends` is where the request
says that it ends. -/
structure Contained (ends : Mem → Nat) (h : Mem → Nat → Nat → MbData → Handled) : Prop where
  usLen : ∀ buf usLen d, usLen ≤ pduSizeMax → (h buf 1 usLen d).usLen ≤ pduSizeMax
  writes : ∀ buf usLen d q, q = 0 ∨ mbSerPduSizeMax ≤ q → (h buf 1 usLen d).buf q = buf q
  reads : ∀ n buf buf' usLen d, AgreeIn n buf buf' → 1 < n → usLen < n →
    min mbSerPduSizeMax (ends buf) ≤ n → (h buf 1 usLen d).Same n (h buf' 1 usLen d)

/-! ## What the callbacks transfer -/

theorem holding_read_length (s : MbApp) (buf : Nat → UInt8) (usAddress usNRegs : UInt16) :
    (eMBRegHoldingCB s buf usAddress usNRegs .read).2.1.length =
      if (eMBRegHoldingCB s buf usAddress usNRegs .read).1 = .noErr then 2 * usNRegs.toNat else 0 := by
  cases hr : inRange usAddress usNRegs with
  | true => rw [read_eq hr, if_pos rfl, length_readLoop]
  | false => simp [eMBRegHoldingCB, hr]

theorem input_read_length (regIn : Nat → UInt16) (usAddress usNRegs : UInt16) :
    (eMBRegInputCB regIn usAddress usNRegs).2.length =
      if (eMBRegInputCB regIn usAddress usNRegs).1 = .noErr then 2 * usNRegs.toNat else 0 := by
  unfold eMBRegInputCB
  split
  · rw [if_pos rfl, List.length_flatMap]
    simp [frameBytes, Nat.mul_comm]
  · rfl

theorem length_clearRest {n : Nat} {bytes : List UInt8} (h : bytes ≠ []) :
    (clearRest n bytes).length = bytes.length := by
  have hpos := List.length_pos_of_ne_nil h
  unfold clearRest
  rw [List.length_append, List.length_dropLast, List.length_singleton]
  omega

/-- What is in range of 64 coils. -/
theorem bitsInRange_le {start count : Nat} {usAddress usN : UInt16}
    (h : bitsInRange start count usAddress usN = true) : usN.toNat ≤ count := by
  unfold bitsInRange at h
  rw [Bool.and_eq_true, decide_eq_true_eq, decide_eq_true_eq] at h
  omega

theorem coils_read_length (m : Mem) (buf : Nat → UInt8) (usAddress usN : UInt16) :
    (eMBRegCoilsCB m buf usAddress usN .read).2.1.length ≤ 9 ∧
      ((eMBRegCoilsCB m buf usAddress usN .read).1 = .noErr →
        (eMBRegCoilsCB m buf usAddress usN .read).2.1.length = usN.toNat / 8 + 1) := by
  cases hr : bitsInRange sCoilStart sCoilNcoils usAddress usN with
  | true =>
    have hle : usN.toNat ≤ 64 := bitsInRange_le hr
    have hlen : (eMBRegCoilsCB m buf usAddress usN .read).2.1.length = usN.toNat / 8 + 1 := by
      unfold eMBRegCoilsCB
      rw [if_pos hr]
      show (clearRest _ _).length = _
      rw [length_clearRest (List.ne_nil_of_length_eq_add_one (length_getBitsLoop _ _ _ _)),
        length_getBitsLoop]
    exact ⟨by omega, fun _ => hlen⟩
  | false => simp [eMBRegCoilsCB, hr]

theorem discrete_read_length (m : Mem) (usAddress usN : UInt16) :
    (eMBRegDiscreteCB m usAddress usN).2.length ≤ 3 ∧
      ((eMBRegDiscreteCB m usAddress usN).1 = .noErr →
        (eMBRegDiscreteCB m usAddress usN).2.length = usN.toNat / 8 + 1) := by
  cases hr : bitsInRange sDiscreteInputStart sDiscreteInputNdiscretes usAddress usN with
  | true =>
    have hle : usN.toNat ≤ 16 := bitsInRange_le hr
    have hlen : (eMBRegDiscreteCB m usAddress usN).2.length = usN.toNat / 8 + 1 := by
      unfold eMBRegDiscreteCB
      rw [if_pos hr]
      show (clearRest _ _).length = _
      rw [length_clearRest (List.ne_nil_of_length_eq_add_one (length_getBitsLoop _ _ _ _)),
        length_getBitsLoop]
    exact ⟨by omega, fun _ => hlen⟩
  | false => simp [eMBRegDiscreteCB, hr]

theorem holding_write_congr (s : MbApp) {buf buf' : Nat → UInt8} (usAddress : UInt16) {usNRegs : UInt16}
    (h : ∀ j < 2 * usNRegs.toNat, buf j = buf' j) :
    eMBRegHoldingCB s buf usAddress usNRegs .write =
      eMBRegHoldingCB s buf' usAddress usNRegs .write := by
  cases hr : inRange usAddress usNRegs with
  | true =>
    have hwords : frameWords buf 0 usNRegs.toNat = frameWords buf' 0 usNRegs.toNat := by
      refine List.map_congr_left fun j hj => ?_
      have hlt := List.mem_range.mp hj
      rw [h _ (by omega), h _ (by omega)]
    rw [write_eq hr, write_eq hr, hwords]
  | false => simp [eMBRegHoldingCB, hr]

theorem setBitsLoop_congr {o : Nat} {frame frame' : Nat → UInt8} {n p : Nat}
    (h : ∀ j < n, frame (p + j) = frame' (p + j)) (q : Nat) (m : Mem) :
    setBitsLoop o frame n q p m = setBitsLoop o frame' n q p m := by
  induction n generalizing p q m with
  | zero => rfl
  | succ n ih =>
    have hrest : ∀ j < n, frame (p + 1 + j) = frame' (p + 1 + j) := fun j hj => by
      rw [Nat.add_right_comm]
      exact h (j + 1) (by omega)
    rw [setBitsLoop, setBitsLoop, ih hrest, ← Nat.add_zero p, h 0 (Nat.zero_lt_succ n)]

theorem coils_write_congr (m : Mem) {buf buf' : Nat → UInt8} (usAddress : UInt16) {usN : UInt16}
    (h : ∀ j < (usN.toNat + 7) / 8, buf j = buf' j) :
    eMBRegCoilsCB m buf usAddress usN .write = eMBRegCoilsCB m buf' usAddress usN .write := by
  have hloop : ∀ q, setBitsLoop ((usAddress.toNat - sCoilStart) % 8) buf (usN.toNat / 8) q 0 m =
      setBitsLoop ((usAddress.toNat - sCoilStart) % 8) buf' (usN.toNat / 8) q 0 m := fun q =>
    setBitsLoop_congr (fun j hj => by rw [Nat.zero_add]; exact h j (by omega)) q m
  unfold eMBRegCoilsCB
  simp only [Nat.add_sub_cancel, hloop]
  by_cases hrest : usN.toNat % 8 = 0
  · simp only [hrest, ne_eq, not_true_eq_false, ↓reduceIte]
  · rw [h _ (by omega)]

/-! ## The handlers -/

section
variable {n : Nat} {buf buf' : Mem}

theorem AgreeIn.pduWord (h : AgreeIn n buf buf') {p : Nat} (hp : p + 1 < n) :
    pduWord buf p = pduWord buf' p := by
  unfold Modbus.pduWord
  rw [h p (by omega), h (p + 1) hp]

/-- The bytes of a request from `k` on. -/
theorem AgreeIn.from (h : AgreeIn n buf buf') {k l : Nat} (hk : k + l ≤ n) :
    ∀ j < l, buf (k + j) = buf' (k + j) := fun j hj => h _ (by omega)

theorem AgreeIn.readBytes (h : AgreeIn n buf buf') {k l : Nat} (hk : k + l ≤ n) :
    readBytes buf k l = readBytes buf' k l := readBytes_congr (h.from hk)

/-- What a handler leaves that has not touched the buffer and answers with a part of it. -/
theorem AgreeIn.same (h : AgreeIn n buf buf') (exc : MbException) {usLen : Nat} (hlen : usLen < n)
    (d : MbData) : Handled.Same n ⟨exc, buf, usLen, d⟩ ⟨exc, buf', usLen, d⟩ :=
  ⟨rfl, rfl, rfl, h, fun _ => h.readBytes (show 1 + usLen ≤ n by omega)⟩

/-- The response to a read. -/
theorem readDone_response (buf : Mem) {r : MbErrorCode × List UInt8} {k : Nat} (hr : r.1 = .noErr)
    (hk : k ≤ r.2.length) (f c : UInt8) (d : MbData) :
    readBytes (readDone buf 1 f c r k d).buf 1 (readDone buf 1 f c r k d).usLen =
      f :: c :: r.2.take k := by
  show readBytes (writeBytes (writeBytes buf 1 [f, c]) 3 r.2) 1 (if r.1 = .noErr then 2 + k else 2) = _
  have hhead := readBytes_writeBytes buf 1 [f, c]
  have hrest := readBytes_writeBytes (writeBytes buf 1 [f, c]) 3 r.2
  rw [if_pos hr, readBytes_add, readBytes_writeBytes_frame (.inr (.inr (.inr (Nat.le_refl 3)))),
    readBytes_take _ _ hk, hrest]
  exact congrArg (· ++ r.2.take k) hhead

theorem readDone_same (h : AgreeIn n buf buf') (f c : UInt8) {r : MbErrorCode × List UInt8} {k : Nat}
    (hk : r.1 = .noErr → k ≤ r.2.length) (d : MbData) :
    (readDone buf 1 f c r k d).Same n (readDone buf' 1 f c r k d) := by
  refine ⟨rfl, rfl, rfl, agreeIn_writeBytes (agreeIn_writeBytes h _ _) _ _, fun hexc => ?_⟩
  have hr : r.1 = .noErr := by
    cases hr : r.1 with
    | noErr => rfl
    | noReg => simp [readDone, prveMBError2Exception, hr] at hexc
  have hresponse := readDone_response buf' hr (hk hr) f c d
  rw [readDone_response buf hr (hk hr)]
  exact hresponse.symm

theorem readDone_usLen {n : Nat} (hn : n ≤ 250) (f c : UInt8) (r : MbErrorCode × List UInt8)
    (d : MbData) : (readDone buf 1 f c r n d).usLen ≤ pduSizeMax := by
  have hmax : pduSizeMax = 252 := rfl
  show (if r.1 = .noErr then 2 + n else 2) ≤ _
  split <;> omega

theorem readDone_outside {r : MbErrorCode × List UInt8} (hr : r.2.length ≤ 250) (f c : UInt8)
    (n : Nat) (d : MbData) {q : Nat} (hq : q = 0 ∨ mbSerPduSizeMax ≤ q) :
    (readDone buf 1 f c r n d).buf q = buf q := by
  have hmax : mbSerPduSizeMax = 256 := rfl
  show writeBytes (writeBytes buf 1 [f, c]) 3 r.2 q = _
  rw [writeBytes_outside (by omega), writeBytes_outside (by simp; omega)]

end

theorem toNat_bitBytes {n : UInt16} (h : n < 0x07D0) : (bitBytes n).toNat = (n.toNat + 7) / 8 := by
  have hn : n.toNat < 2000 := UInt16.lt_iff_toNat_lt.mp h
  have hmod : (n &&& 0x0007).toNat = n.toNat % 8 := Nat.and_two_pow_sub_one_eq_mod n.toNat 3
  have hzero : n &&& 0x0007 = 0 ↔ n.toNat % 8 = 0 := by
    rw [← UInt16.toNat_inj, hmod]
    rfl
  unfold bitBytes
  by_cases hrest : n.toNat % 8 = 0
  · rw [if_neg (fun hne => hne (hzero.mpr hrest))]
    simp
    omega
  · rw [if_pos (fun he => hrest (hzero.mp he))]
    simp
    omega

/-- The handlers of the read functions are one: a count is taken from the request and checked,
and what the callback gives goes behind the byte count. -/
theorem contained_read (func : UInt8) (count : Mem → Nat → UInt16) (valid : UInt16 → Prop)
    [DecidablePred valid] (byteCount : UInt16 → UInt8)
    (callback : MbData → UInt16 → UInt16 → MbErrorCode × List UInt8) (usCount : UInt16 → Nat)
    (after : MbData → UInt16 → UInt16 → MbData)
    (hcount : ∀ {n buf buf'}, AgreeIn n buf buf' → 5 < n → count buf 1 = count buf' 1)
    (hus : ∀ c, valid c → usCount c ≤ 250)
    (hcallback : ∀ d a c, valid c → (callback d a c).2.length ≤ 250 ∧
      ((callback d a c).1 = .noErr → usCount c ≤ (callback d a c).2.length)) :
    Contained (fun _ => 0) fun buf pucFrame usLen d =>
      if usLen = 4 + 1 then
        if valid (count buf pucFrame) then
          readDone buf pucFrame func (byteCount (count buf pucFrame))
            (callback d (pduWord buf (pucFrame + 1) + 1) (count buf pucFrame))
            (usCount (count buf pucFrame))
            (after d (pduWord buf (pucFrame + 1) + 1) (count buf pucFrame))
        else refused buf usLen d .illegalDataValue
      else refused buf usLen d .illegalDataValue where
  usLen buf usLen d h := by
    split
    · split
      · rename_i hvalid
        exact readDone_usLen (hus _ hvalid) _ _ _ _
      · exact h
    · exact h
  writes buf usLen d q hq := by
    split
    · split
      · rename_i hvalid
        exact readDone_outside (hcallback d _ _ hvalid).1 _ _ _ _ hq
      · rfl
    · rfl
  reads n buf buf' usLen d h _ hlen _ := by
    split
    · rename_i hfive
      rw [h.pduWord (show 1 + 1 + 1 < n by omega), hcount h (by omega)]
      split
      · rename_i hvalid
        exact readDone_same h _ _ (hcallback d _ _ hvalid).2 _
      · exact h.same _ hlen d
    · exact h.same _ hlen d

theorem contained_readHolding : Contained (fun _ => 0) eMBFuncReadHoldingRegister :=
  contained_read 0x03 (fun buf p => (buf (p + 4)).toUInt16) (fun c => 1 ≤ c ∧ c ≤ 0x007D)
    (fun c => (c * 2).toUInt8)
    (fun d a c => ((eMBRegHoldingCB d.app (fun _ => 0) a c .read).1,
      (eMBRegHoldingCB d.app (fun _ => 0) a c .read).2.1))
    (fun c => c.toNat * 2)
    (fun d a c => { d with app := (eMBRegHoldingCB d.app (fun _ => 0) a c .read).2.2 })
    (fun h hn => by rw [h (1 + 4) (by omega)])
    (fun c hc => by
      have hle : c.toNat ≤ 125 := UInt16.le_iff_toNat_le.mp hc.2
      omega)
    fun d a c hc => by
      have hle : c.toNat ≤ 125 := UInt16.le_iff_toNat_le.mp hc.2
      have hlen := holding_read_length d.app (fun _ => 0) a c
      dsimp only
      rw [hlen]
      refine ⟨?_, fun hok => ?_⟩
      · split <;> omega
      · rw [if_pos hok]
        omega

theorem contained_readInput : Contained (fun _ => 0) eMBFuncReadInputRegister :=
  contained_read 0x04 (fun buf p => pduWord buf (p + 3)) (fun c => 1 ≤ c ∧ c < 0x007D)
    (fun c => (c * 2).toUInt8) (fun d a c => eMBRegInputCB d.regIn a c) (fun c => c.toNat * 2)
    (fun d _ _ => d)
    (fun h hn => h.pduWord (by omega))
    (fun c hc => by
      have hlt : c.toNat < 125 := UInt16.lt_iff_toNat_lt.mp hc.2
      omega)
    fun d a c hc => by
      have hlt : c.toNat < 125 := UInt16.lt_iff_toNat_lt.mp hc.2
      rw [input_read_length d.regIn a c]
      refine ⟨?_, fun hok => ?_⟩
      · split <;> omega
      · rw [if_pos hok]
        omega

/-- The byte count for bits that are asked for. -/
theorem bitBytes_le {c : UInt16} (hc : c < 0x07D0) :
    (bitBytes c).toNat ≤ 250 ∧ (bitBytes c).toNat ≤ c.toNat / 8 + 1 := by
  have hlt : c.toNat < 2000 := UInt16.lt_iff_toNat_lt.mp hc
  rw [toNat_bitBytes hc]
  omega

theorem contained_readCoils : Contained (fun _ => 0) eMBFuncReadCoils :=
  contained_read 0x01 (fun buf p => pduWord buf (p + 3)) (fun c => 1 ≤ c ∧ c < 0x07D0)
    bitBytes
    (fun d a c => ((eMBRegCoilsCB d.coil (fun _ => 0) a c .read).1,
      (eMBRegCoilsCB d.coil (fun _ => 0) a c .read).2.1))
    (fun c => (bitBytes c).toNat)
    (fun d a c => { d with coil := (eMBRegCoilsCB d.coil (fun _ => 0) a c .read).2.2 })
    (fun h hn => h.pduWord (by omega))
    (fun _ hc => (bitBytes_le hc.2).1)
    fun d a c hc => by
      obtain ⟨hle, heq⟩ := coils_read_length d.coil (fun _ => 0) a c
      exact ⟨hle.trans (by decide), fun hok => (bitBytes_le hc.2).2.trans (heq hok).ge⟩

theorem contained_readDiscrete : Contained (fun _ => 0) eMBFuncReadDiscreteInputs :=
  contained_read 0x02 (fun buf p => pduWord buf (p + 3)) (fun c => 1 ≤ c ∧ c < 0x07D0)
    bitBytes (fun d a c => eMBRegDiscreteCB d.discIn a c) (fun c => (bitBytes c).toNat)
    (fun d _ _ => d)
    (fun h hn => h.pduWord (by omega))
    (fun _ hc => (bitBytes_le hc.2).1)
    fun d a c hc => by
      obtain ⟨hle, heq⟩ := discrete_read_length d.discIn a c
      exact ⟨hle.trans (by decide), fun hok => (bitBytes_le hc.2).2.trans (heq hok).ge⟩

theorem contained_write : Contained (fun _ => 0) eMBFuncWriteHoldingRegister where
  usLen buf usLen d h := by
    unfold eMBFuncWriteHoldingRegister
    split <;> exact h
  writes buf usLen d q _ := by
    unfold eMBFuncWriteHoldingRegister
    split <;> rfl
  reads n buf buf' usLen d h _ hlen _ := by
    unfold eMBFuncWriteHoldingRegister
    split
    · rename_i hfive
      have hbytes : ∀ j < 2 * (1 : UInt16).toNat, buf (1 + 3 + j) = buf' (1 + 3 + j) :=
        h.from (show 1 + 3 + 2 ≤ n by omega)
      have hcb := holding_write_congr d.app (pduWord buf' (1 + 1) + 1) hbytes
      rw [h.pduWord (show 1 + 1 + 1 < n by omega)]
      dsimp only
      rw [hcb]
      exact h.same _ hlen _
    · exact h.same _ hlen d

theorem contained_writeMultiple :
    Contained (fun buf => 7 + (buf 6).toNat) eMBFuncWriteMultipleHoldingRegister where
  usLen buf usLen d h := by
    unfold eMBFuncWriteMultipleHoldingRegister
    have hmax : pduSizeMax = 252 := rfl
    split
    · dsimp only
      split
      · dsimp only
        split <;> omega
      · exact h
    · exact h
  writes buf usLen d q _ := by
    unfold eMBFuncWriteMultipleHoldingRegister
    split
    · dsimp only
      split <;> rfl
    · rfl
  reads n buf buf' usLen d h _ hlen hends := by
    have hmax : mbSerPduSizeMax = 256 := rfl
    unfold eMBFuncWriteMultipleHoldingRegister
    split
    · have hcount := h.pduWord (show 1 + 3 + 1 < n by omega)
      rw [h (1 + 5) (by omega)] at hends
      rw [h.pduWord (show 1 + 1 + 1 < n by omega), hcount, h (1 + 5) (by omega)]
      dsimp only
      split
      · rename_i hvalid
        have hle : (pduWord buf' (1 + 3)).toNat ≤ 120 := UInt16.le_iff_toNat_le.mp hvalid.2.1
        have hbytes : (buf' (1 + 5)).toNat = 2 * (pduWord buf' (1 + 3)).toNat := by
          rw [hvalid.2.2, UInt16.toNat_toUInt8, UInt16.toNat_mul]
          show 2 * (pduWord buf' (1 + 3)).toNat % 65536 % 256 = _
          omega
        have hcb := holding_write_congr d.app (pduWord buf' (1 + 1) + 1)
          (h.from (k := 1 + 6) (l := 2 * (pduWord buf' (1 + 3)).toNat) (by omega))
        rw [hcb]
        refine h.same _ ?_ _
        split <;> omega
      · exact h.same _ hlen d
    · exact h.same _ hlen d

theorem contained_readWrite :
    Contained (fun buf => 11 + (buf 10).toNat) eMBFuncReadWriteMultipleHoldingRegister where
  usLen buf usLen d h := by
    unfold eMBFuncReadWriteMultipleHoldingRegister
    split
    · dsimp only
      split
      · rename_i hcount
        have hle : (pduWord buf (1 + 3)).toNat ≤ 125 := UInt16.le_iff_toNat_le.mp hcount.2.1
        split
        · exact readDone_usLen (by omega) _ _ _ _
        · exact h
      · exact h
    · exact h
  writes buf usLen d q hq := by
    unfold eMBFuncReadWriteMultipleHoldingRegister
    split
    · dsimp only
      split
      · rename_i hcount
        have hle : (pduWord buf (1 + 3)).toNat ≤ 125 := UInt16.le_iff_toNat_le.mp hcount.2.1
        split
        · refine readDone_outside ?_ _ _ _ _ hq
          dsimp only
          rw [holding_read_length]
          split <;> omega
        · rfl
      · rfl
    · rfl
  reads n buf buf' usLen d h _ hlen hends := by
    have hmax : mbSerPduSizeMax = 256 := rfl
    unfold eMBFuncReadWriteMultipleHoldingRegister
    split
    · rw [h (1 + 9) (by omega)] at hends
      rw [h.pduWord (show 1 + 1 + 1 < n by omega), h.pduWord (show 1 + 3 + 1 < n by omega),
        h.pduWord (show 1 + 5 + 1 < n by omega), h.pduWord (show 1 + 7 + 1 < n by omega),
        h (1 + 9) (by omega)]
      dsimp only
      split
      · rename_i hvalid
        have hle : (pduWord buf' (1 + 7)).toNat ≤ 121 := UInt16.le_iff_toNat_le.mp hvalid.2.2.2.1
        have hbytes := hvalid.2.2.2.2
        have hcb := holding_write_congr d.app (pduWord buf' (1 + 5) + 1)
          (h.from (k := 1 + 10) (l := 2 * (pduWord buf' (1 + 7)).toNat) (by omega))
        rw [hcb]
        split
        · refine readDone_same h _ _ (fun hok => ?_) _
          dsimp only at hok ⊢
          rw [holding_read_length, if_pos hok]
        · exact h.same _ hlen _
      · exact h.same _ hlen d
    · exact h.same _ hlen d

theorem contained_writeCoil : Contained (fun _ => 0) eMBFuncWriteCoil where
  usLen buf usLen d h := by
    unfold eMBFuncWriteCoil
    split
    · dsimp only
      split <;> exact h
    · exact h
  writes buf usLen d q _ := by
    unfold eMBFuncWriteCoil
    split
    · dsimp only
      split <;> rfl
    · rfl
  reads n buf buf' usLen d h _ hlen _ := by
    unfold eMBFuncWriteCoil
    split
    · rename_i hfive
      rw [h.pduWord (show 1 + 1 + 1 < n by omega), h (1 + 3) (by omega), h (1 + 4) (by omega)]
      dsimp only
      split
      · exact h.same _ hlen _
      · exact h.same _ hlen d
    · exact h.same _ hlen d

theorem contained_writeMultipleCoils :
    Contained (fun buf => 7 + (buf 6).toNat) eMBFuncWriteMultipleCoils where
  usLen buf usLen d h := by
    unfold eMBFuncWriteMultipleCoils
    have hmax : pduSizeMax = 252 := rfl
    split
    · dsimp only
      split
      · dsimp only
        split <;> omega
      · exact h
    · exact h
  writes buf usLen d q _ := by
    unfold eMBFuncWriteMultipleCoils
    split
    · dsimp only
      split <;> rfl
    · rfl
  reads n buf buf' usLen d h _ hlen hends := by
    have hmax : mbSerPduSizeMax = 256 := rfl
    unfold eMBFuncWriteMultipleCoils
    split
    · have hcount := h.pduWord (show 1 + 3 + 1 < n by omega)
      rw [h (1 + 5) (by omega)] at hends
      rw [h.pduWord (show 1 + 1 + 1 < n by omega), hcount, h (1 + 5) (by omega)]
      dsimp only
      split
      · rename_i hvalid
        have hle : (pduWord buf' (1 + 3)).toNat ≤ 0x07B0 := UInt16.le_iff_toNat_le.mp hvalid.2.1
        have hlt : pduWord buf' (1 + 3) < 0x07D0 := UInt16.lt_iff_toNat_lt.mpr (by
          show (pduWord buf' (1 + 3)).toNat < 2000
          omega)
        have hbytes : (buf' (1 + 5)).toNat = ((pduWord buf' (1 + 3)).toNat + 7) / 8 := by
          rw [← hvalid.2.2, toNat_bitBytes hlt]
        have hcb := coils_write_congr d.coil (pduWord buf' (1 + 1) + 1)
          (h.from (k := 1 + 6) (l := ((pduWord buf' (1 + 3)).toNat + 7) / 8) (by omega))
        rw [hcb]
        refine h.same _ ?_ _
        split <;> omega
      · exact h.same _ hlen d
    · exact h.same _ hlen d

theorem contained_reportSlaveID : Contained (fun _ => 0) eMBFuncReportSlaveID where
  usLen buf usLen d _ := by
    have hfits := d.slaveId.fits
    have hbuf : mbFuncOtherRepSlaveidBuf = 32 := rfl
    have hmax : pduSizeMax = 252 := rfl
    show 1 + d.slaveId.bytes.length ≤ _
    omega
  writes buf usLen d q hq := by
    have hfits := d.slaveId.fits
    have hbuf : mbFuncOtherRepSlaveidBuf = 32 := rfl
    have hmax : mbSerPduSizeMax = 256 := rfl
    exact writeBytes_outside (by omega)
  reads n buf buf' usLen d h hone _ _ := by
    refine ⟨rfl, rfl, rfl, agreeIn_writeBytes h _ _, fun _ => ?_⟩
    have hfunc : readBytes (writeBytes buf 2 d.slaveId.bytes) 1 1 =
        readBytes (writeBytes buf' 2 d.slaveId.bytes) 1 1 := by
      have hbefore : Apart 2 d.slaveId.bytes.length 1 1 := .inr (.inr (.inr (Nat.le_refl 2)))
      rw [readBytes_writeBytes_frame hbefore, readBytes_writeBytes_frame hbefore]
      exact h.readBytes (by omega)
    show readBytes (writeBytes buf 2 d.slaveId.bytes) 1 (1 + d.slaveId.bytes.length) =
      readBytes (writeBytes buf' 2 d.slaveId.bytes) 1 (1 + d.slaveId.bytes.length)
    rw [readBytes_add, readBytes_add, hfunc, readBytes_writeBytes, readBytes_writeBytes]

/-- Where a request with this function code says that it ends. -/
def requestEnd (ucFunctionCode : UInt8) (buf : Mem) : Nat :=
  if ucFunctionCode = 15 ∨ ucFunctionCode = 16 then 7 + (buf 6).toNat
  else if ucFunctionCode = 23 then 11 + (buf 10).toNat
  else 0

/-- Every handler keeps to the array. -/
theorem contained_dispatch (ucFunctionCode : UInt8) :
    Contained (requestEnd ucFunctionCode) (dispatch ucFunctionCode) := by
  have hall : ∀ h ∈ xFuncHandlers, Contained (requestEnd h.1) h.2 := by
    simp only [xFuncHandlers, List.forall_mem_cons]
    exact ⟨contained_reportSlaveID, contained_readInput, contained_readHolding,
      contained_writeMultiple, contained_write, contained_readWrite, contained_readCoils,
      contained_writeCoil, contained_writeMultipleCoils, contained_readDiscrete,
      fun _ hnil => absurd hnil List.not_mem_nil⟩
  unfold dispatch
  cases hfind : xFuncHandlers.find? fun h => h.1 = ucFunctionCode with
  | some h =>
    have hcode : h.1 = ucFunctionCode := by simpa using List.find?_some hfind
    rw [← hcode]
    exact hall h (List.mem_of_find?_eq_some hfind)
  | none =>
    exact ⟨fun _ _ _ h => h, fun _ _ _ _ _ => rfl,
      fun _ _ _ _ d h _ hlen _ => h.same .illegalFunction hlen d⟩

end SC04Monitor.Modbus
