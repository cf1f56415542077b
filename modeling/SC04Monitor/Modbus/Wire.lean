import SC04Monitor.Modbus.Noise

/-! # Registers over the wire

A block of registers is written by one frame and read by another one. In between there may be
any frames that write no registers. -/

namespace SC04Monitor.Modbus
open SC04Monitor.Lib.ByteMem SC04Monitor.Lib.WordMem SC04Monitor.Record

/-! ## Requests -/

/-- A word as it stands in a frame. -/
def wireWord (w : UInt16) : List UInt8 := [(w >>> 8).toUInt8, w.toUInt8]

theorem frameWord_wireWord (w : UInt16) : frameWord (w >>> 8).toUInt8 w.toUInt8 = w := orBytes_self w

/-- The PDU that writes a block. -/
def writePdu (b : Block) (bytes : List UInt8) : List UInt8 :=
  [16] ++ wireWord (b.usAddress - 1) ++ wireWord b.usNRegs ++ [(2 * b.usNRegs).toUInt8] ++ bytes

/-- The buffer with a request in it. -/
theorem request_buf (m : Mem) (own : UInt8) (pdu : List UInt8) {i : Nat} (h : i < pdu.length) :
    writeBytes m 0 (parBlock (own :: pdu)) (1 + i) = pdu.getD i 0 := by
  have hlen : 1 + i < (parBlock (own :: pdu)).length := by simp; omega
  rw [Slave.writeBytes_getD hlen, Nat.add_comm]
  unfold parBlock
  rw [List.getD_append _ _ _ _ (by simp; omega), List.getD_cons_succ]

/-- A request for the slave, or for all. -/
theorem executed_request {own dst : UInt8} (hdst : dst = own ∨ dst = mbAddressBroadcast) (code : UInt8)
    {pdu : List UInt8} (hlen : pdu.length < pduSizeMax) : Executed own (parBlock (dst :: code :: pdu)) := by
  have hmax : pduSizeMax = 252 := rfl
  have hflen : (parBlock (dst :: code :: pdu)).length = pdu.length + 4 := by simp
  refine ⟨?_, ⟨?_, crc16DnCal_parBlock _⟩, hdst⟩
  · show (parBlock (dst :: code :: pdu)).length < 256
    omega
  · show 4 ≤ (parBlock (dst :: code :: pdu)).length
    omega

theorem handled_request (dst code : UInt8) (pdu : List UInt8) (m : Mem) (d : MbData) :
    handled m d (parBlock (dst :: code :: pdu)) =
      dispatch code (writeBytes m 0 (parBlock (dst :: code :: pdu))) 1 (code :: pdu).length d := by
  unfold handled
  have hcode : (parBlock (dst :: code :: pdu)).getD 1 0 = code := rfl
  rw [hcode, length_parBlock]
  rfl

theorem answer_request_data {own dst : UInt8} (hdst : dst = own ∨ dst = mbAddressBroadcast) (code : UInt8)
    {pdu : List UInt8} (hlen : pdu.length < pduSizeMax) (m : Mem) (d : MbData) :
    (answer own m d (parBlock (dst :: code :: pdu))).data =
      (dispatch code (writeBytes m 0 (parBlock (dst :: code :: pdu))) 1 (code :: pdu).length d).data := by
  unfold answer
  rw [if_pos (executed_request hdst code hlen), handled_request]
  dsimp only
  split <;> rfl

section
variable {b : Block} {buf : Mem} {d : MbData}

theorem block_address (b : Block) : b.usAddress - 1 + 1 = b.usAddress := by grind

/-- A write request is executed and answered with its first five bytes. -/
theorem dispatch_write {bytes : List UInt8} (hbytes : bytes.length = 2 * b.usNRegs.toNat)
    (hmin : 1 ≤ b.usNRegs) (hmax : b.usNRegs ≤ 0x0078)
    (hbuf : ∀ i < (writePdu b bytes).length, buf (1 + i) = (writePdu b bytes).getD i 0) :
    dispatch 16 buf 1 (writePdu b bytes).length d =
      ⟨.none, buf, 5, { d with app := (b.write d.app bytes).2.2 }⟩ := by
  have hle : b.usNRegs.toNat ≤ 120 := UInt16.le_iff_toNat_le.mp hmax
  have hlen : (writePdu b bytes).length = 6 + bytes.length := by simp [writePdu, wireWord]; omega
  have haddr : pduWord buf (1 + 1) + 1 = b.usAddress := by
    unfold pduWord
    rw [hbuf 1 (by omega), show 1 + 1 + 1 = 1 + 2 from rfl, hbuf 2 (by omega)]
    exact (congrArg (· + 1) (frameWord_wireWord _)).trans (block_address b)
  have hcount : pduWord buf (1 + 3) = b.usNRegs := by
    unfold pduWord
    rw [hbuf 3 (by omega), show 1 + 3 + 1 = 1 + 4 from rfl, hbuf 4 (by omega)]
    exact frameWord_wireWord _
  have hcheck : buf (1 + 5) = (2 * b.usNRegs).toUInt8 := hbuf 5 (by omega)
  have hdata : ∀ j < 2 * b.usNRegs.toNat, buf (1 + 6 + j) = frameOf bytes j := by
    intro j hj
    rw [Nat.add_assoc, hbuf (6 + j) (by omega), writePdu,
      List.getD_append_right _ _ _ _ (by simp [wireWord])]
    exact congrArg (bytes.getD · 0) (Nat.add_sub_cancel_left 6 j)
  have hwrite := holding_write_congr d.app b.usAddress hdata
  have hok : (b.write d.app bytes).1 = .noErr := by
    unfold Block.write
    rw [write_eq b.inRange]
  show eMBFuncWriteMultipleHoldingRegister buf 1 (writePdu b bytes).length d = _
  unfold eMBFuncWriteMultipleHoldingRegister
  rw [if_pos (by omega), haddr, hcount, hcheck]
  dsimp only
  rw [if_pos ⟨hmin, hmax, rfl⟩, hwrite]
  show Handled.mk (prveMBError2Exception (b.write d.app bytes).1) buf
    (if (b.write d.app bytes).1 = .noErr then 5 else _) _ = _
  rw [hok]
  rfl

/-- The function codes that write registers. -/
def writesRegs (ucFunctionCode : UInt8) : Bool :=
  ucFunctionCode = 6 || ucFunctionCode = 16 || ucFunctionCode = 23

/-- The functions that have nothing to do with holding registers leave them and `HMI` alone. -/
theorem dispatch_app {ucFunctionCode : UInt8} (hread : ucFunctionCode ≠ 3)
    (h : writesRegs ucFunctionCode = false) (usLen : Nat) :
    (dispatch ucFunctionCode buf 1 usLen d).data.app = d.app := by
  have hall : ∀ g ∈ xFuncHandlers, g.1 ≠ 3 → writesRegs g.1 = false →
      (g.2 buf 1 usLen d).data.app = d.app := by
    simp only [xFuncHandlers, List.forall_mem_cons]
    refine ⟨fun _ _ => rfl, fun _ _ => ?_, fun hr => absurd rfl hr, fun _ hw => absurd hw (by decide),
      fun _ hw => absurd hw (by decide), fun _ hw => absurd hw (by decide), fun _ _ => ?_,
      fun _ _ => ?_, fun _ _ => ?_, fun _ _ => ?_, fun _ hnil => absurd hnil List.not_mem_nil⟩
    · unfold eMBFuncReadInputRegister
      split
      · dsimp only
        split <;> rfl
      · rfl
    · unfold eMBFuncReadCoils
      split
      · dsimp only
        split <;> rfl
      · rfl
    · unfold eMBFuncWriteCoil
      split
      · dsimp only
        split <;> rfl
      · rfl
    · unfold eMBFuncWriteMultipleCoils
      split
      · dsimp only
        split <;> rfl
      · rfl
    · unfold eMBFuncReadDiscreteInputs
      split
      · dsimp only
        split <;> rfl
      · rfl
  unfold dispatch
  cases hfind : xFuncHandlers.find? fun g => g.1 = ucFunctionCode with
  | some g =>
    have hcode : g.1 = ucFunctionCode := by simpa using List.find?_some hfind
    exact hall g (List.mem_of_find?_eq_some hfind) (hcode ▸ hread) (hcode ▸ h)
  | none => rfl

end

theorem answers_append (own : UInt8) (m : Mem) (d : MbData) (fs gs : List (List UInt8)) :
    answers own m d (fs ++ gs) =
      let a := answers own m d fs
      let r := answers own a.buf a.data gs
      ⟨r.buf, r.data, a.sent ++ r.sent⟩ := by
  induction fs generalizing m d with
  | nil => rfl
  | cons f fs ih =>
    rw [List.cons_append, answers, answers, ih]
    simp only [List.append_assoc]

namespace Slave

end Slave

end SC04Monitor.Modbus
