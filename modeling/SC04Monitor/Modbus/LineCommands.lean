import SC04Monitor.Modbus.GroupedWrite
import SC04Monitor.Modbus.Handover
import SC04Monitor.Modbus.Wire

/-! # Commands over the wire

A command reaches `HMI` when a frame calls `eMBRegHoldingCB` with its address. Which frames do is
read off their bytes; what the frames of a session have done to the commands is the sum of that.
Reads are among them. -/

namespace SC04Monitor.Modbus
open SC04Monitor.Lib.ByteMem SC04Monitor.Lib.WordMem SC04Monitor.Record SC04Monitor.UserApp

/-! ## Calls of the callback -/

/-- Calls of `eMBRegHoldingCB` with these addresses have led from `s` to `t`: the commands that
start there are raised, all others are as they were. -/
structure Called (calls : List UInt16) (s t : MbApp) : Prop where
  flag : ∀ a, t.hmi.wAddrFlag a = true ↔ s.hmi.wAddrFlag a = true ∨ hmiAddr a + 1 ∈ calls
  field : ∀ a, hmiAddr a + 1 ∉ calls → t.hmi.field a = s.hmi.field a

theorem Called.refl (s : MbApp) : Called [] s s := ⟨fun a => by simp, fun _ _ => rfl⟩

theorem Called.trans {calls calls' : List UInt16} {s t u : MbApp} (h : Called calls s t)
    (h' : Called calls' t u) : Called (calls ++ calls') s u := by
  refine ⟨fun a => ?_, fun a ha => ?_⟩
  · rw [h'.flag, h.flag, List.mem_append, or_assoc]
  · rw [List.mem_append, not_or] at ha
    exact (h'.field a ha.2).trans (h.field a ha.1)

theorem regAddressGet_called (s : MbApp) (usAddress : UInt16) :
    Called [usAddress] s (regAddressGet s usAddress) := by
  have hother : ∀ a, hmiAddr a + 1 ∉ [usAddress] → hmiAddr a ≠ usAddress - 1 := by
    intro a ha he
    apply ha
    rw [he, UInt16.sub_add_cancel]
    exact List.mem_singleton_self _
  refine ⟨fun a => ?_, fun a ha => (regAddressGet_frame s (hother a ha)).2⟩
  by_cases ha : hmiAddr a + 1 ∈ [usAddress]
  · obtain rfl := List.mem_singleton.mp ha
    rw [regAddressGet_hmi, copy_wAddrFlag]
    simp [HmiType.raise]
  · rw [(regAddressGet_frame s (hother a ha)).1]
    simp [ha]

/-- Whether it reads or writes and whether it accepts the registers does not matter. -/
theorem holding_called (s : MbApp) (buf : Nat → UInt8) (usAddress usNRegs : UInt16)
    (eMode : MbRegisterMode) :
    Called [usAddress] s (eMBRegHoldingCB s buf usAddress usNRegs eMode).2.2 := by
  have hget : ∀ reg, Called [usAddress] s (regAddressGet { s with reg } usAddress) := fun reg =>
    ⟨(regAddressGet_called { s with reg } usAddress).flag,
      (regAddressGet_called { s with reg } usAddress).field⟩
  unfold eMBRegHoldingCB
  split
  · cases eMode with
    | read => exact hget s.reg
    | write => exact hget _
  · exact hget s.reg

/-! ## Calls of a request -/

/-- The addresses with which the handler of a request calls `eMBRegHoldingCB`, in this order. -/
def holdingCalls (ucFunctionCode : UInt8) (buf : Mem) (usLen : Nat) : List UInt16 :=
  if ucFunctionCode = 3 then
    if usLen = 5 ∧ 1 ≤ (buf 5).toUInt16 ∧ (buf 5).toUInt16 ≤ 0x7D then [pduWord buf 2 + 1] else []
  else if ucFunctionCode = 16 then
    if 6 ≤ usLen ∧ 1 ≤ pduWord buf 4 ∧ pduWord buf 4 ≤ 0x78 ∧
        buf 6 = (2 * pduWord buf 4).toUInt8 then [pduWord buf 2 + 1] else []
  else if ucFunctionCode = 6 then
    if usLen = 5 then [pduWord buf 2 + 1] else []
  else if ucFunctionCode = 23 then
    if 10 ≤ usLen ∧ 1 ≤ pduWord buf 4 ∧ pduWord buf 4 ≤ 0x7D ∧ 1 ≤ pduWord buf 8 ∧
        pduWord buf 8 ≤ 0x79 ∧ 2 * (pduWord buf 8).toNat = (buf 10).toNat then
      -- the registers are read only if the write was accepted
      [pduWord buf 6 + 1] ++
        if inRange (pduWord buf 6 + 1) (pduWord buf 8) then [pduWord buf 2 + 1] else []
    else []
  else []

section
variable (buf : Mem) (usLen : Nat) (d : MbData)

theorem writeHolding_called :
    Called (holdingCalls 6 buf usLen) d.app
      (eMBFuncWriteHoldingRegister buf 1 usLen d).data.app := by
  unfold eMBFuncWriteHoldingRegister
  by_cases hlen : usLen = 5
  · have hcalls : holdingCalls 6 buf usLen = [pduWord buf 2 + 1] := if_pos hlen
    rw [hcalls, if_pos hlen]
    exact holding_called _ _ _ _ _
  · have hcalls : holdingCalls 6 buf usLen = [] := if_neg hlen
    rw [hcalls, if_neg hlen]
    exact .refl _

theorem writeMultiple_called :
    Called (holdingCalls 16 buf usLen) d.app
      (eMBFuncWriteMultipleHoldingRegister buf 1 usLen d).data.app := by
  unfold eMBFuncWriteMultipleHoldingRegister
  by_cases hgood : 6 ≤ usLen ∧ 1 ≤ pduWord buf 4 ∧ pduWord buf 4 ≤ 0x78 ∧
      buf 6 = (2 * pduWord buf 4).toUInt8
  · have hcalls : holdingCalls 16 buf usLen = [pduWord buf 2 + 1] := if_pos hgood
    obtain ⟨hlen, hrest⟩ := hgood
    rw [hcalls, if_pos hlen]
    dsimp only
    rw [if_pos hrest]
    exact holding_called _ _ _ _ _
  · have hcalls : holdingCalls 16 buf usLen = [] := if_neg hgood
    rw [hcalls]
    split
    · rename_i hlen
      dsimp only
      rw [if_neg fun hrest => hgood ⟨hlen, hrest⟩]
      exact .refl _
    · exact .refl _

theorem readHolding_called :
    Called (holdingCalls 3 buf usLen) d.app
      (eMBFuncReadHoldingRegister buf 1 usLen d).data.app := by
  unfold eMBFuncReadHoldingRegister
  by_cases hgood : usLen = 5 ∧ 1 ≤ (buf 5).toUInt16 ∧ (buf 5).toUInt16 ≤ 0x7D
  · have hcalls : holdingCalls 3 buf usLen = [pduWord buf 2 + 1] := if_pos hgood
    obtain ⟨hlen, hrest⟩ := hgood
    rw [hcalls, if_pos hlen]
    dsimp only
    rw [if_pos hrest]
    exact holding_called _ _ _ _ _
  · have hcalls : holdingCalls 3 buf usLen = [] := if_neg hgood
    rw [hcalls]
    split
    · rename_i hlen
      dsimp only
      rw [if_neg fun hrest => hgood ⟨hlen, hrest⟩]
      exact .refl _
    · exact .refl _

theorem holding_accepts (s : MbApp) (frame : Nat → UInt8) (usAddress usNRegs : UInt16)
    (eMode : MbRegisterMode) :
    (eMBRegHoldingCB s frame usAddress usNRegs eMode).1 = .noErr ↔ inRange usAddress usNRegs = true := by
  unfold eMBRegHoldingCB
  cases inRange usAddress usNRegs with
  | true => cases eMode <;> simp
  | false => simp

theorem readWriteMultiple_called :
    Called (holdingCalls 23 buf usLen) d.app
      (eMBFuncReadWriteMultipleHoldingRegister buf 1 usLen d).data.app := by
  unfold eMBFuncReadWriteMultipleHoldingRegister
  by_cases hgood : 10 ≤ usLen ∧ 1 ≤ pduWord buf 4 ∧ pduWord buf 4 ≤ 0x7D ∧ 1 ≤ pduWord buf 8 ∧
      pduWord buf 8 ≤ 0x79 ∧ 2 * (pduWord buf 8).toNat = (buf 10).toNat
  · have hcalls : holdingCalls 23 buf usLen = [pduWord buf 6 + 1] ++
        if inRange (pduWord buf 6 + 1) (pduWord buf 8) then [pduWord buf 2 + 1] else [] := if_pos hgood
    obtain ⟨hlen, hrest⟩ := hgood
    have hwrite := holding_called d.app (fun j => buf (11 + j)) (pduWord buf 6 + 1)
      (pduWord buf 8) .write
    have haccepts := holding_accepts d.app (fun j => buf (11 + j)) (pduWord buf 6 + 1)
      (pduWord buf 8) .write
    rw [hcalls, if_pos hlen]
    dsimp only
    rw [if_pos hrest]
    by_cases hin : inRange (pduWord buf 6 + 1) (pduWord buf 8) = true
    · rw [if_pos hin, if_pos (haccepts.mpr hin)]
      exact hwrite.trans (holding_called _ _ _ _ _)
    · rw [if_neg hin, if_neg fun hok => hin (haccepts.mp hok), List.append_nil]
      exact hwrite
  · have hcalls : holdingCalls 23 buf usLen = [] := if_neg hgood
    rw [hcalls]
    split
    · rename_i hlen
      dsimp only
      rw [if_neg fun hrest => hgood ⟨hlen, hrest⟩]
      exact .refl _
    · exact .refl _

/-- The calls of a request are those of its handler. -/
theorem dispatch_called (ucFunctionCode : UInt8) :
    Called (holdingCalls ucFunctionCode buf usLen) d.app
      (dispatch ucFunctionCode buf 1 usLen d).data.app := by
  by_cases h3 : ucFunctionCode = 3
  · subst h3
    exact readHolding_called buf usLen d
  by_cases h16 : ucFunctionCode = 16
  · subst h16
    exact writeMultiple_called buf usLen d
  by_cases h6 : ucFunctionCode = 6
  · subst h6
    exact writeHolding_called buf usLen d
  by_cases h23 : ucFunctionCode = 23
  · subst h23
    exact readWriteMultiple_called buf usLen d
  have hcalls : holdingCalls ucFunctionCode buf usLen = [] := by simp [holdingCalls, h3, h16, h6, h23]
  rw [hcalls, dispatch_app h3 (by simp [writesRegs, h16, h6, h23])]
  exact .refl _

end

/-! ## Calls of a frame -/

/-- What a request calls is read from its own bytes. -/
theorem holdingCalls_congr {buf buf' : Mem} {n usLen : Nat} (h : AgreeIn n buf buf')
    (hn : usLen + 3 ≤ n) (ucFunctionCode : UInt8) :
    holdingCalls ucFunctionCode buf usLen = holdingCalls ucFunctionCode buf' usLen := by
  have hword : ∀ i, i + 1 < n → pduWord buf i = pduWord buf' i := by
    intro i hi
    unfold pduWord
    rw [h i (by omega), h (i + 1) hi]
  unfold holdingCalls
  by_cases h3 : ucFunctionCode = 3
  · rw [if_pos h3, if_pos h3]
    by_cases hlen : usLen = 5
    · rw [h 5 (by omega), hword 2 (by omega)]
    · rw [if_neg fun hc => hlen hc.1, if_neg fun hc => hlen hc.1]
  rw [if_neg h3, if_neg h3]
  by_cases h16 : ucFunctionCode = 16
  · rw [if_pos h16, if_pos h16]
    by_cases hlen : 6 ≤ usLen
    · rw [h 6 (by omega), hword 2 (by omega), hword 4 (by omega)]
    · rw [if_neg fun hc => hlen hc.1, if_neg fun hc => hlen hc.1]
  rw [if_neg h16, if_neg h16]
  by_cases h6 : ucFunctionCode = 6
  · rw [if_pos h6, if_pos h6]
    by_cases hlen : usLen = 5
    · rw [hword 2 (by omega)]
    · rw [if_neg hlen, if_neg hlen]
  rw [if_neg h6, if_neg h6]
  by_cases h23 : ucFunctionCode = 23
  · rw [if_pos h23, if_pos h23]
    by_cases hlen : 10 ≤ usLen
    · rw [h 10 (by omega), hword 2 (by omega), hword 4 (by omega), hword 6 (by omega),
        hword 8 (by omega)]
    · rw [if_neg fun hc => hlen hc.1, if_neg fun hc => hlen hc.1]
  · rw [if_neg h23, if_neg h23]

/-- The calls of a frame on the line. -/
def frameCalls (own : UInt8) (f : List UInt8) : List UInt16 :=
  if Executed own f then
    holdingCalls (f.getD 1 0) (frameOf f) (f.length - mbSerPduPduOff - mbSerPduSizeCrc)
  else []

/-- A frame that the slave executes as an access to the registers from a command on. -/
def Announces (own : UInt8) (f : List UInt8) (a : HmiAddr) : Prop := hmiAddr a + 1 ∈ frameCalls own f

instance (own : UInt8) (f : List UInt8) (a : HmiAddr) : Decidable (Announces own f a) := by
  unfold Announces
  infer_instance

theorem answer_called (own : UInt8) (m : Mem) (d : MbData) (f : List UInt8) :
    Called (frameCalls own f) d.app (answer own m d f).data.app := by
  unfold answer frameCalls
  by_cases hex : Executed own f
  · have hmin : 4 ≤ f.length := hex.2.1.1
    have hagree : AgreeIn f.length (writeBytes m 0 f) (frameOf f) := fun q hq => Slave.writeBytes_getD hq
    have hlen : f.length - mbSerPduPduOff - mbSerPduSizeCrc + 3 ≤ f.length := by
      show f.length - 1 - 2 + 3 ≤ _
      omega
    have hhandled : Called (holdingCalls (f.getD 1 0) (frameOf f)
        (f.length - mbSerPduPduOff - mbSerPduSizeCrc)) d.app (handled m d f).data.app := by
      rw [← holdingCalls_congr hagree hlen]
      exact dispatch_called _ _ _ _
    rw [if_pos hex, if_pos hex]
    dsimp only
    split <;> exact hhandled
  · rw [if_neg hex, if_neg hex]
    exact .refl _

theorem answers_called (own : UInt8) (m : Mem) (d : MbData) (fs : List (List UInt8)) :
    Called (fs.flatMap (frameCalls own)) d.app (answers own m d fs).data.app := by
  induction fs generalizing m d with
  | nil => exact .refl _
  | cons f fs ih =>
    rw [List.flatMap_cons]
    exact (answer_called own m d f).trans (ih _ _)

theorem mem_frameCalls {own : UInt8} {fs : List (List UInt8)} {a : HmiAddr} :
    hmiAddr a + 1 ∈ fs.flatMap (frameCalls own) ↔ ∃ f ∈ fs, Announces own f a := List.mem_flatMap

/-! ## The write of a command -/

theorem frameWords_cons (hi lo : UInt8) (rest : List UInt8) (n : Nat) :
    frameWords (frameOf (hi :: lo :: rest)) 2 n = frameWords (frameOf rest) 0 n := by
  refine List.map_congr_left fun j _ => ?_
  rw [Nat.zero_add, Nat.add_comm 2]
  rfl

/-- The words of a frame are those that were put into it. -/
theorem frameWords_wire {ws : List UInt16} {n : Nat} (h : n ≤ ws.length) :
    frameWords (frameOf (ws.flatMap wireWord)) 0 n = ws.take n := by
  induction ws generalizing n with
  | nil =>
    obtain rfl := Nat.le_zero.mp h
    rfl
  | cons w ws ih =>
    cases n with
    | zero => rfl
    | succ n =>
      rw [frameWords_succ, List.take_succ_cons, ← ih (Nat.le_of_succ_le_succ h)]
      have hrest := frameWords_cons (w >>> 8).toUInt8 w.toUInt8 (ws.flatMap wireWord) n
      exact congrArg₂ List.cons (frameWord_wireWord w) hrest

section
variable {b : Block} {a : HmiAddr} {ws : List UInt16}

/-- A block with a command at its start. -/
theorem write_command (hstart : b.usAddress = hmiAddr a + 1) (ha : Aligned a)
    (hws : ws.length = b.usNRegs.toNat) (hsize : fieldSize a ≤ ws.length) (s : MbApp) :
    (b.write s (ws.flatMap wireWord)).2.2.hmi.wAddrFlag a = true ∧
      (b.write s (ws.flatMap wireWord)).2.2.hmi.field a = ws.take (fieldSize a) := by
  have hr := b.inRange
  rw [hstart] at hr
  have hhmi : (b.write s (ws.flatMap wireWord)).2.2.hmi =
      (writeCommand s (frameOf (ws.flatMap wireWord)) a).2.2.hmi := by
    unfold Block.write
    rw [hstart]
    exact write_hmi_start hr (hws ▸ hsize)
  rw [hhmi, writeCommand_hmi, copy_wAddrFlag, copy_field, readWords_writtenReg, if_pos ha,
    frameWords_wire hsize]
  have hup : (s.hmi.raise a).wAddrFlag a = true := by simp [HmiType.raise]
  exact ⟨hup, rfl⟩

theorem length_wire (ws : List UInt16) : (ws.flatMap wireWord).length = 2 * ws.length := by
  induction ws with
  | nil => rfl
  | cons w ws ih =>
    rw [List.flatMap_cons, List.length_append, ih, List.length_cons]
    show 2 + 2 * ws.length = 2 * (ws.length + 1)
    omega

/-- The frame that writes a block is executed. -/
theorem answer_write {own dst : UInt8} (hdst : dst = own ∨ dst = mbAddressBroadcast)
    (hws : ws.length = b.usNRegs.toNat) (hmin : 1 ≤ b.usNRegs) (hmax : b.usNRegs ≤ 0x0078) (m : Mem)
    (d : MbData) :
    (answer own m d (parBlock (dst :: writePdu b (ws.flatMap wireWord)))).data.app =
      (b.write d.app (ws.flatMap wireWord)).2.2 := by
  have hle : b.usNRegs.toNat ≤ 120 := UInt16.le_iff_toNat_le.mp hmax
  have hbytes : (ws.flatMap wireWord).length = 2 * b.usNRegs.toNat := by rw [length_wire, hws]
  have hlen : (writePdu b (ws.flatMap wireWord)).tail.length < pduSizeMax := by
    show _ < 252
    simp only [List.length_tail, writePdu, wireWord, List.length_append, List.length_cons,
      List.length_nil, hbytes]
    omega
  have hdata := answer_request_data hdst 16 hlen m d
  have hcons : 16 :: (writePdu b (ws.flatMap wireWord)).tail = writePdu b (ws.flatMap wireWord) := rfl
  rw [hcons] at hdata
  rw [hdata, dispatch_write hbytes hmin hmax fun i hi => request_buf m dst _ hi]

end

namespace Slave

/-- In every session whose frames do not fill the buffer the commands that are raised are those
that were, and those that a frame has announced; a command that none has announced is as it was. A
read announces a command as well. -/
theorem line_commands {s s' : Slave} (h : s.Quiet) {fs : List (List UInt8)} (hne : ∀ f ∈ fs, f ≠ [])
    (hlen : ∀ f ∈ fs, f.length ≠ mbSerPduSizeMax) (hserves : Serves s fs s') (a : HmiAddr) :
    (s'.data.app.hmi.wAddrFlag a = true ↔
      s.data.app.hmi.wAddrFlag a = true ∨ ∃ f ∈ fs, Announces s.mbAddress f a) ∧
    ((∀ f ∈ fs, ¬ Announces s.mbAddress f a) →
      s'.data.app.hmi.field a = s.data.app.hmi.field a) := by
  have hserved := (hserves.served h hne).2 hlen
  have hcalled := answers_called s.mbAddress s.rtu.rtuBuf s.data fs
  rw [hserved.data]
  constructor
  · rw [hcalled.flag, mem_frameCalls]
  · intro hnone
    refine hcalled.field a fun ha => ?_
    obtain ⟨f, hf, hann⟩ := mem_frameCalls.mp ha
    exact hnone f hf hann

/-- Nothing has been written, and the charge command is raised. -/
theorem line_commands_read :
    let s := started (fun _ => 0) zeroData
    ∃ s', Serves s [parBlock [1, 3, 0x02, 0x42, 0, 2]] s' ∧
      s'.data.app.hmi.wAddrFlag .chargeCmd = true ∧ s'.data.app.hmi.wAddrFlag .chargeEn = false := by
  intro s
  have hs : s.Quiet := (started_quiet (fun _ => 0) zeroData).2
  have hne : ∀ f ∈ [parBlock [1, 3, 0x02, 0x42, 0, 2]], f ≠ [] := by decide
  obtain ⟨s', hserves, -⟩ := hs.serves hne (by decide)
  have hcommands := line_commands hs hne (by decide) hserves
  refine ⟨s', hserves, (hcommands .chargeCmd).1.mpr (.inr ⟨_, List.mem_singleton_self _, by decide⟩), ?_⟩
  rw [Bool.eq_false_iff]
  intro hen
  rcases (hcommands .chargeEn).1.mp hen with hbefore | ⟨f, hf, hann⟩
  · exact absurd hbefore (by decide)
  · cases List.mem_singleton.mp hf
    exact absurd hann (by decide)

/-- A command that is written over the wire arrives: in every session whose frames do not fill the
buffer, whatever comes before the frame that writes it, for the slave or for all, and whatever
comes behind it that does not announce the same command, its flag is up and its words are those of
the frame; and when it is its turn, `HmiInputUpdate` acts on these words. -/
theorem command_over_wire {s s' : Slave} (h : s.Quiet) {dst : UInt8}
    (hdst : dst = s.mbAddress ∨ dst = mbAddressBroadcast) {b : Block} {a : HmiAddr}
    (hstart : b.usAddress = hmiAddr a + 1) (ha : Aligned a) {ws : List UInt16}
    (hws : ws.length = b.usNRegs.toNat) (hsize : fieldSize a ≤ ws.length) (hmax : b.usNRegs ≤ 0x0078)
    {fs gs : List (List UInt8)} (hne : ∀ f ∈ fs ++ gs, f ≠ [])
    (hlen : ∀ f ∈ fs ++ gs, f.length ≠ mbSerPduSizeMax)
    (hgs : ∀ f ∈ gs, ¬ Announces s.mbAddress f a)
    (hserves : Serves s (fs ++ parBlock (dst :: writePdu b (ws.flatMap wireWord)) :: gs) s') :
    s'.data.app.hmi.wAddrFlag a = true ∧ s'.data.app.hmi.field a = ws.take (fieldSize a) ∧
      ∀ logic : Logic,
        let view := { logic with hmi := s'.data.app.hmi.toHmi }
        view.hmiAddr = some a → view.hmiInputUpdate =
          let t := actOn view (ws.take (fieldSize a)) a
          if clears a then t.lower a else t := by
  have hpos : 1 ≤ fieldSize a := by cases a <;> simp [fieldSize]
  have hmin : 1 ≤ b.usNRegs := UInt16.le_iff_toNat_le.mpr (show 1 ≤ b.usNRegs.toNat by omega)
  have hall : ∀ f ∈ fs ++ parBlock (dst :: writePdu b (ws.flatMap wireWord)) :: gs, f ≠ [] := by
    intro f hf
    rcases List.mem_append.mp hf with hf | hf
    · exact hne f (List.mem_append_left _ hf)
    rcases List.mem_cons.mp hf with rfl | hf
    · simp [parBlock]
    · exact hne f (List.mem_append_right _ hf)
  have hshort : ∀ f ∈ fs ++ parBlock (dst :: writePdu b (ws.flatMap wireWord)) :: gs,
      f.length ≠ mbSerPduSizeMax := by
    intro f hf
    rcases List.mem_append.mp hf with hf | hf
    · exact hlen f (List.mem_append_left _ hf)
    rcases List.mem_cons.mp hf with rfl | hf
    · have hle : b.usNRegs.toNat ≤ 120 := UInt16.le_iff_toNat_le.mp hmax
      have hfull : mbSerPduSizeMax = 256 := rfl
      rw [length_parBlock]
      simp only [writePdu, wireWord, List.length_append, List.length_cons, List.length_nil,
        length_wire, hws]
      omega
    · exact hlen f (List.mem_append_right _ hf)
  have hserved := (hserves.served h hall).2 hshort
  -- the frames before, the write, and the frames behind
  let r := answers s.mbAddress s.rtu.rtuBuf s.data fs
  let w := answer s.mbAddress r.buf r.data (parBlock (dst :: writePdu b (ws.flatMap wireWord)))
  have happ : w.data.app = (b.write r.data.app (ws.flatMap wireWord)).2.2 :=
    answer_write hdst hws hmin hmax r.buf r.data
  have hdata : s'.data = (answers s.mbAddress w.buf w.data gs).data := by
    rw [hserved.data, answers_append]
    rfl
  have hcalled := answers_called s.mbAddress w.buf w.data gs
  rw [← hdata, happ] at hcalled
  obtain ⟨hflag, hfield⟩ := write_command hstart ha hws hsize r.data.app
  have hnone : hmiAddr a + 1 ∉ gs.flatMap (frameCalls s.mbAddress) := by
    intro hcall
    obtain ⟨f, hf, hann⟩ := mem_frameCalls.mp hcall
    exact hgs f hf hann
  have hwords : s'.data.app.hmi.field a = ws.take (fieldSize a) :=
    (hcalled.field a hnone).trans hfield
  refine ⟨(hcalled.flag a).mpr (.inl hflag), hwords, fun logic => ?_⟩
  intro view hturn
  have hview := Handover.hmiInputUpdate_eq (s := ⟨s'.data.app, logic, .idle, .scan [], fun _ => [],
    fun _ => []⟩) hturn
  rw [hwords] at hview
  exact hview

/-- Module 1 is to charge in the mode 2. -/
def chargeBlock : Block := ⟨0x0243, 2, by decide, by decide⟩

theorem command_over_wire_charge :
    let s := started (fun _ => 0) zeroData
    ∃ s', Serves s ([[7, 7]] ++ parBlock (0 :: writePdu chargeBlock ([1, 2].flatMap wireWord)) ::
        [parBlock [1, 3, 0x02, 0x43, 0, 1]]) s' ∧
      s'.data.app.hmi.ctrCmd.chargeCmd = ⟨1, 2⟩ := by
  intro s
  have hs : s.Quiet := (started_quiet (fun _ => 0) zeroData).2
  have hne : ∀ f ∈ [[7, 7]] ++ parBlock (0 :: writePdu chargeBlock ([1, 2].flatMap wireWord)) ::
      [parBlock [1, 3, 0x02, 0x43, 0, 1]], f ≠ [] := by decide
  obtain ⟨s', hserves, -⟩ := hs.serves hne (by decide)
  obtain ⟨-, hfield, -⟩ := @command_over_wire s s' hs 0 (.inr rfl) chargeBlock .chargeCmd rfl
    (by decide) [1, 2] rfl (by decide) (by decide) [[7, 7]] [parBlock [1, 3, 0x02, 0x43, 0, 1]]
    (by decide) (by decide) (by decide) hserves
  refine ⟨s', hserves, ?_⟩
  have hwords : [s'.data.app.hmi.ctrCmd.chargeCmd.cmd1, s'.data.app.hmi.ctrCmd.chargeCmd.cmd2] = [1, 2] :=
    hfield
  simp only [List.cons.injEq, and_true] at hwords
  exact congrArg₂ HmiCmd.mk hwords.1 hwords.2

end Slave

end SC04Monitor.Modbus
