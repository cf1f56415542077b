import SC04Monitor.Lib.Steps
import SC04Monitor.Modbus.FunctionBounds

/-! # The slave as a whole

`eMBPoll` of `mb.c` in the polling thread, interleaved with the interrupts of the receiver, the
transmitter and the timer. What runs with the interrupts disabled is one step, and so is a
handler; between a handler and the sending of its response the interrupts can come in.

`xMBPortEventGet` takes all pending events at once and knows only single ones: if there are
more, `eEvent` keeps what was on the stack. That value is part of the step. -/

namespace SC04Monitor.Modbus
open SC04Monitor.Lib.ByteMem SC04Monitor.Lib.Steps

/-- The variables of `mb.c` over those of `mbrtu.c`. -/
structure Slave where
  rtu : Rtu
  /-- Set when the program has come to an end. -/
  stopped : Option Stop
  mbAddress : UInt8
  /-- `ucMBFrame` points to the PDU in `ucRTUBuf`; before the first frame it is `NULL`. -/
  mbFrame : Bool
  rcvAddress : UInt8
  functionCode : UInt8
  length : Nat
  exception : MbException
  data : MbData
  /-- The thread stands between the handler and `peMBFrameSendCur`. -/
  replying : Bool

def mbAddressBroadcast : UInt8 := 0
def mbFuncError : UInt8 := 128

/-- `xMBPortEventGet`, with what is left on the stack. -/
def eventGet (events : Finset MbEvent) (junk : Option MbEvent) : Option MbEvent :=
  ([.ready, .frameReceived, .execute, .frameSent].find? fun e => events = {e}).or junk

namespace Slave

/-- What an interrupt leaves. -/
def isr (s : Slave) : Except Stop Rtu → Slave
  | .ok rtu => { s with rtu }
  | .error e => { s with stopped := some e }

/-- `EV_FRAME_RECEIVED` in `eMBPoll`. -/
def frameReceived (s : Slave) : Slave :=
  match s.rtu.eMBRTUReceive with
  | .error e => { s with stopped := some e }
  | .ok none => s
  | .ok (some (ucRcvAddress, usLength)) =>
    let s := { s with rcvAddress := ucRcvAddress, length := usLength, mbFrame := true }
    if ucRcvAddress = s.mbAddress ∨ ucRcvAddress = mbAddressBroadcast then
      { s with rtu := s.rtu.eventPost .execute }
    else s

/-- `EV_EXECUTE` in `eMBPoll`, up to the handler. -/
def execute (s : Slave) : Slave :=
  if s.mbFrame then
    let ucFunctionCode := s.rtu.rtuBuf 1
    let r := dispatch ucFunctionCode s.rtu.rtuBuf 1 s.length s.data
    { s with
      functionCode := ucFunctionCode, rtu := { s.rtu with rtuBuf := r.buf }, length := r.usLen,
      exception := r.exc, data := r.data, replying := true }
  else { s with stopped := some .nullFrame }

/-- `EV_EXECUTE` in `eMBPoll`, from the handler on. -/
def reply (s : Slave) : Slave :=
  let s := { s with replying := false }
  if s.rcvAddress ≠ mbAddressBroadcast then
    let s :=
      if s.exception ≠ .none then
        { s with
          rtu := { s.rtu with
            rtuBuf := writeBytes s.rtu.rtuBuf 1 [s.functionCode ||| mbFuncError, s.exception.code] },
          length := 2 }
      else s
    { s with rtu := (s.rtu.eMBRTUSend s.mbAddress 1 s.length).2 }
  else s

/-- `eMBPoll` with the event that it got. -/
def poll (s : Slave) (eEvent : Option MbEvent) : Slave :=
  let s := { s with rtu := { s.rtu with events := ∅ } }
  match eEvent with
  | some .frameReceived => s.frameReceived
  | some .execute => s.execute
  | some .ready | some .frameSent | none => s

/-- Who runs next. -/
inductive Turn
  | rx (b : UInt8)  -- a byte arrives
  | txEmpty  -- the transmit register is empty
  | t35  -- the timer expires
  | poll (junk : Option MbEvent)
  | reply

/-- A step, if the interrupt is enabled or the thread has something to do. -/
def step (s : Slave) (t : Turn) : Option Slave :=
  if s.stopped.isSome then none
  else match t with
    | .rx b => if s.rtu.rxEnabled then some (s.isr (s.rtu.xMBRTUReceiveFSM b)) else none
    | .txEmpty => if s.rtu.txEnabled then some (s.isr s.rtu.xMBRTUTransmitFSM) else none
    | .t35 => if s.rtu.timer then some (s.isr s.rtu.xMBRTUTimerT35Expired) else none
    | .poll junk =>
      if s.rtu.events ≠ ∅ ∧ s.replying = false then some (s.poll (eventGet s.rtu.events junk))
      else none
    | .reply => if s.replying then some s.reply else none

/-- The slave after `eMBInit` with the address `0x01` and `eMBEnable`. -/
def start (rtuBuf : Mem) (data : MbData) : Slave :=
  { rtu := Rtu.eMBRTUStart
      ⟨.rxInit, .txIdle, rtuBuf, 0, 0, 0, false, false, false, ∅, []⟩
    stopped := none, mbAddress := 0x01, mbFrame := false, rcvAddress := 0, functionCode := 0
    length := 0, exception := .none, data, replying := false }

end Slave

/-! ## The invariant -/

namespace Rtu

/-- The port goes with the two state machines, the line is used in one direction at a time, and
all positions are in the array. -/
structure Inv (s : Rtu) : Prop where
  timer : s.timer = decide (s.rcvState ≠ .rxIdle)
  rxEnabled : s.rxEnabled = decide (s.sndState = .txIdle)
  txEnabled : s.txEnabled = decide (s.sndState = .txXmit)
  half : s.sndState = .txXmit → s.rcvState = .rxIdle
  rcvBufferPos : s.rcvBufferPos ≤ mbSerPduSizeMax
  sndBuffer : s.sndState = .txXmit → s.sndBufferCur + s.sndBufferCount ≤ mbSerPduSizeMax

variable {s : Rtu}

/-- A byte finds the receiver ready for it. -/
theorem Inv.rx (h : s.Inv) (hrx : s.rxEnabled = true) (b : UInt8) :
    ∃ t, s.xMBRTUReceiveFSM b = .ok t ∧ t.Inv ∧ t.events = s.events ∧
      ∀ q, mbSerPduSizeMax ≤ q → t.rtuBuf q = s.rtuBuf q := by
  have hidle : s.sndState = .txIdle := by
    rw [h.rxEnabled] at hrx
    exact of_decide_eq_true hrx
  have hmax : mbSerPduSizeMax = 256 := rfl
  have hpos := h.rcvBufferPos
  have hinv : ∀ (st : RcvState) (m : Mem) (n : Nat), st ≠ .rxIdle → n ≤ mbSerPduSizeMax →
      Rtu.Inv { s with rcvState := st, rtuBuf := m, rcvBufferPos := n, timer := true } :=
    fun st m n hst hn => ⟨(decide_eq_true hst).symm, h.rxEnabled, h.txEnabled,
      fun hx => absurd (hidle.symm.trans hx) (by decide), hn, h.sndBuffer⟩
  unfold xMBRTUReceiveFSM
  rw [if_pos hidle]
  cases hst : s.rcvState with
  | rxInit =>
    exact ⟨_, rfl, hinv s.rcvState s.rtuBuf _ (by rw [hst]; decide) hpos, rfl, fun _ _ => rfl⟩
  | rxError =>
    exact ⟨_, rfl, hinv s.rcvState s.rtuBuf _ (by rw [hst]; decide) hpos, rfl, fun _ _ => rfl⟩
  | rxIdle =>
    refine ⟨_, rfl, hinv .rxRcv _ 1 (by decide) (by decide), rfl, fun q hq => ?_⟩
    show writeBytes s.rtuBuf 0 [b] q = _
    exact writeBytes_outside (by simp; omega)
  | rxRcv =>
    dsimp only
    by_cases hroom : s.rcvBufferPos < mbSerPduSizeMax
    · rw [if_pos hroom]
      refine ⟨_, rfl, hinv .rxRcv _ _ (by decide) hroom, rfl, fun q hq => ?_⟩
      show writeBytes s.rtuBuf s.rcvBufferPos [b] q = _
      exact writeBytes_outside (by simp; omega)
    · rw [if_neg hroom]
      exact ⟨_, rfl, hinv .rxError s.rtuBuf _ (by decide) hpos, rfl, fun _ _ => rfl⟩

/-- The transmitter has something to send or is done. -/
theorem Inv.tx (h : s.Inv) (htx : s.txEnabled = true) :
    ∃ t, s.xMBRTUTransmitFSM = .ok t ∧ t.Inv ∧ t.rtuBuf = s.rtuBuf ∧
      (.execute ∈ t.events → .execute ∈ s.events) ∧
      (s.sndBufferCount ≠ 0 → s.sndBufferCur < mbSerPduSizeMax) := by
  have hxmit : s.sndState = .txXmit := by
    rw [h.txEnabled] at htx
    exact of_decide_eq_true htx
  have hidle := h.half hxmit
  have hsnd := h.sndBuffer hxmit
  unfold xMBRTUTransmitFSM
  rw [if_pos hidle, hxmit]
  dsimp only
  by_cases hcount : s.sndBufferCount ≠ 0
  · rw [if_pos hcount]
    refine ⟨_, rfl, ⟨h.timer, ?_, ?_, fun _ => hidle, h.rcvBufferPos, fun _ => ?_⟩, rfl, id,
      fun _ => by omega⟩
    · exact hxmit ▸ h.rxEnabled
    · exact hxmit ▸ h.txEnabled
    · show s.sndBufferCur + 1 + (s.sndBufferCount - 1) ≤ mbSerPduSizeMax
      omega
  · rw [if_neg hcount]
    refine ⟨_, rfl, ⟨h.timer, rfl, rfl, fun hx => ?_, h.rcvBufferPos, fun hx => ?_⟩, rfl, fun he => ?_,
      fun hc => absurd hc hcount⟩
    · cases hx
    · cases hx
    · simpa [eventPost, serialEnable] using he

/-- The timer does not expire on an idle receiver. -/
theorem Inv.t35 (h : s.Inv) (htimer : s.timer = true) :
    ∃ t, s.xMBRTUTimerT35Expired = .ok t ∧ t.Inv ∧ t.rtuBuf = s.rtuBuf ∧
      (.execute ∈ t.events → .execute ∈ s.events) := by
  have hbusy : s.rcvState ≠ .rxIdle := by
    rw [h.timer] at htimer
    exact of_decide_eq_true htimer
  have hinv : ∀ ev, Rtu.Inv { s with events := ev, timer := false, rcvState := .rxIdle } :=
    fun _ => ⟨rfl, h.rxEnabled, h.txEnabled, fun _ => rfl, h.rcvBufferPos, h.sndBuffer⟩
  unfold xMBRTUTimerT35Expired
  cases hst : s.rcvState with
  | rxInit => exact ⟨_, rfl, hinv _, rfl, fun he => by simpa [eventPost, timersDisable] using he⟩
  | rxRcv => exact ⟨_, rfl, hinv _, rfl, fun he => by simpa [eventPost, timersDisable] using he⟩
  | rxError => exact ⟨_, rfl, hinv _, rfl, id⟩
  | rxIdle => exact absurd hst hbusy

theorem Inv.post (h : s.Inv) (e : MbEvent) : (s.eventPost e).Inv :=
  ⟨h.timer, h.rxEnabled, h.txEnabled, h.half, h.rcvBufferPos, h.sndBuffer⟩

/-- A response that fits is sent from inside the array. -/
theorem Inv.send (h : s.Inv) (ucSlaveAddress : UInt8) {usLength : Nat} (hlen : usLength ≤ pduSizeMax) :
    (s.eMBRTUSend ucSlaveAddress 1 usLength).2.Inv ∧
      (s.eMBRTUSend ucSlaveAddress 1 usLength).2.events = s.events ∧
      ∀ q, mbSerPduSizeMax ≤ q → (s.eMBRTUSend ucSlaveAddress 1 usLength).2.rtuBuf q = s.rtuBuf q := by
  have hmax : mbSerPduSizeMax = 256 := rfl
  have hpdu : pduSizeMax = 252 := rfl
  unfold eMBRTUSend
  by_cases hidle : s.rcvState = .rxIdle
  · rw [if_pos hidle]
    refine ⟨⟨h.timer, rfl, rfl, fun _ => hidle, h.rcvBufferPos, fun _ => ?_⟩, rfl, fun q hq => ?_⟩
    · show 1 - 1 + (1 + usLength + 2) ≤ mbSerPduSizeMax
      omega
    · show writeBytes (writeBytes (writeBytes s.rtuBuf 0 [ucSlaveAddress]) (1 + usLength) [_])
        (1 + usLength + 1) [_] q = _
      rw [writeBytes_outside (by simp; omega), writeBytes_outside (by simp; omega),
        writeBytes_outside (by simp; omega)]
  · rw [if_neg hidle]
    exact ⟨h, rfl, fun _ _ => rfl⟩

end Rtu

namespace Slave

/-- What holds in every state of the slave. -/
structure Inv (s : Slave) : Prop where
  rtu : s.rtu.Inv
  length : s.length ≤ pduSizeMax
  execute : .execute ∈ s.rtu.events → s.mbFrame = true

theorem start_inv (rtuBuf : Mem) (data : MbData) : (start rtuBuf data).Inv where
  rtu := {
    timer := rfl
    rxEnabled := rfl
    txEnabled := rfl
    half h := by cases h
    rcvBufferPos := Nat.zero_le _
    sndBuffer h := by cases h }
  length := Nat.zero_le _
  execute h := by cases h

/-- Why a step ends the program, if it does: the frame to be checked fills the whole array, or
the stack has a stale `EV_EXECUTE` and there was no frame yet. -/
def stopOf (s : Slave) : Turn → Option Stop
  | .poll junk =>
    match eventGet s.rtu.events junk with
    | some .frameReceived =>
      if s.rtu.rcvBufferPos = mbSerPduSizeMax then some .assertFailed else none
    | some .execute => if s.mbFrame then none else some .nullFrame
    | _ => none
  | _ => none

/-- What every step does and does not. -/
structure Keeps (s : Slave) (t : Turn) (s' : Slave) : Prop where
  inv : s'.Inv
  stopped : s'.stopped = stopOf s t
  outside : ∀ q, mbSerPduSizeMax ≤ q → s'.rtu.rtuBuf q = s.rtu.rtuBuf q

variable {s s' : Slave}

theorem Inv.clearEvents (h : s.Inv) : { s with rtu := { s.rtu with events := ∅ } }.Inv where
  rtu := ⟨h.rtu.timer, h.rtu.rxEnabled, h.rtu.txEnabled, h.rtu.half, h.rtu.rcvBufferPos,
    h.rtu.sndBuffer⟩
  length := h.length
  execute he := absurd he (Finset.notMem_empty _)

/-- An interrupt whose function succeeds. -/
theorem Inv.isr (h : s.Inv) {r : Rtu} (hr : r.Inv)
    (he : .execute ∈ r.events → .execute ∈ s.rtu.events) : (s.isr (.ok r)).Inv :=
  ⟨hr, h.length, fun hm => h.execute (he hm)⟩

theorem frameReceived_keeps (h : s.Inv) (hrun : s.stopped = none) :
    s.frameReceived.Inv ∧
      s.frameReceived.stopped =
        (if s.rtu.rcvBufferPos = mbSerPduSizeMax then some .assertFailed else none) ∧
      s.frameReceived.rtu.rtuBuf = s.rtu.rtuBuf := by
  have hpos := h.rtu.rcvBufferPos
  have hmax : mbSerPduSizeMax = 256 := rfl
  have hpdu : pduSizeMax = 252 := rfl
  unfold frameReceived Rtu.eMBRTUReceive
  by_cases hfull : s.rtu.rcvBufferPos < mbSerPduSizeMax
  · have hne : s.rtu.rcvBufferPos ≠ mbSerPduSizeMax := Nat.ne_of_lt hfull
    rw [if_pos hfull, if_neg hne]
    by_cases hok : mbSerPduSizeMin ≤ s.rtu.rcvBufferPos ∧
        usMBCRC16 s.rtu.rtuBuf 0 s.rtu.rcvBufferPos = 0
    · have hlen : s.rtu.rcvBufferPos - mbSerPduPduOff - mbSerPduSizeCrc ≤ pduSizeMax := by
        show s.rtu.rcvBufferPos - 1 - 2 ≤ pduSizeMax
        omega
      rw [if_pos hok]
      dsimp only
      by_cases hours : s.rtu.rtuBuf 0 = s.mbAddress ∨ s.rtu.rtuBuf 0 = mbAddressBroadcast
      · rw [if_pos hours]
        exact ⟨⟨h.rtu.post _, hlen, fun _ => rfl⟩, hrun, rfl⟩
      · rw [if_neg hours]
        exact ⟨⟨h.rtu, hlen, fun _ => rfl⟩, hrun, rfl⟩
    · rw [if_neg hok]
      exact ⟨h, hrun, rfl⟩
  · have heq : s.rtu.rcvBufferPos = mbSerPduSizeMax := by omega
    rw [if_neg hfull, if_pos heq]
    exact ⟨⟨h.rtu, h.length, h.execute⟩, rfl, rfl⟩

theorem execute_keeps (h : s.Inv) (hrun : s.stopped = none) :
    s.execute.Inv ∧
      s.execute.stopped = (if s.mbFrame then none else some .nullFrame) ∧
      ∀ q, mbSerPduSizeMax ≤ q → s.execute.rtu.rtuBuf q = s.rtu.rtuBuf q := by
  have hc := contained_dispatch (s.rtu.rtuBuf 1)
  unfold execute
  by_cases hframe : s.mbFrame = true
  · rw [if_pos hframe, if_pos hframe]
    refine ⟨⟨⟨h.rtu.timer, h.rtu.rxEnabled, h.rtu.txEnabled, h.rtu.half, h.rtu.rcvBufferPos,
      h.rtu.sndBuffer⟩, hc.usLen _ _ _ h.length, fun _ => hframe⟩, hrun, fun q hq => ?_⟩
    exact hc.writes _ _ _ q (.inr hq)
  · rw [if_neg hframe, if_neg hframe]
    exact ⟨⟨h.rtu, h.length, h.execute⟩, rfl, fun _ _ => rfl⟩

theorem reply_keeps (h : s.Inv) (hrun : s.stopped = none) :
    s.reply.Inv ∧ s.reply.stopped = none ∧
      ∀ q, mbSerPduSizeMax ≤ q → s.reply.rtu.rtuBuf q = s.rtu.rtuBuf q := by
  have hmax : mbSerPduSizeMax = 256 := rfl
  unfold reply
  dsimp only
  by_cases haddr : s.rcvAddress ≠ mbAddressBroadcast
  · rw [if_pos haddr]
    by_cases hexc : s.exception ≠ .none
    · rw [if_pos hexc]
      have hrtu : Rtu.Inv { s.rtu with
          rtuBuf := writeBytes s.rtu.rtuBuf 1 [s.functionCode ||| mbFuncError, s.exception.code] } :=
        ⟨h.rtu.timer, h.rtu.rxEnabled, h.rtu.txEnabled, h.rtu.half, h.rtu.rcvBufferPos,
          h.rtu.sndBuffer⟩
      obtain ⟨hinv, hev, hout⟩ := hrtu.send s.mbAddress (show 2 ≤ pduSizeMax by decide)
      have htwo : 2 ≤ pduSizeMax := by decide
      refine ⟨⟨hinv, htwo, fun he => h.execute (by simpa [hev] using he)⟩, hrun, fun q hq => ?_⟩
      refine (hout q hq).trans ?_
      show writeBytes s.rtu.rtuBuf 1 [s.functionCode ||| mbFuncError, s.exception.code] q = _
      exact writeBytes_outside (by simp; omega)
    · rw [if_neg hexc]
      obtain ⟨hinv, hev, hout⟩ := h.rtu.send s.mbAddress h.length
      exact ⟨⟨hinv, h.length, fun he => h.execute (by simpa [hev] using he)⟩, hrun, hout⟩
  · rw [if_neg haddr]
    exact ⟨⟨h.rtu, h.length, h.execute⟩, hrun, fun _ _ => rfl⟩

theorem poll_keeps (h : s.Inv) (hrun : s.stopped = none) (junk : Option MbEvent) :
    Keeps s (.poll junk) (s.poll (eventGet s.rtu.events junk)) := by
  have hclear := h.clearEvents
  cases he : eventGet s.rtu.events junk with
  | none => exact ⟨hclear, by simp [stopOf, he, poll, hrun], fun _ _ => rfl⟩
  | some e =>
    cases e with
    | ready => exact ⟨hclear, by simp [stopOf, he, poll, hrun], fun _ _ => rfl⟩
    | frameSent => exact ⟨hclear, by simp [stopOf, he, poll, hrun], fun _ _ => rfl⟩
    | frameReceived =>
      obtain ⟨hinv, hstop, hbuf⟩ := frameReceived_keeps hclear hrun
      exact ⟨hinv, by simp only [stopOf, he]; exact hstop, fun q _ => congrFun hbuf q⟩
    | execute =>
      obtain ⟨hinv, hstop, hbuf⟩ := execute_keeps hclear hrun
      exact ⟨hinv, by simp only [stopOf, he]; exact hstop, hbuf⟩

/-- The step lemma. -/
theorem step_keeps (h : s.Inv) {t : Turn} (hstep : step s t = some s') : Keeps s t s' := by
  unfold step at hstep
  cases hstop : s.stopped with
  | some e => simp [hstop] at hstep
  | none =>
    rw [hstop] at hstep
    cases t with
    | rx b =>
      obtain ⟨hrx, rfl⟩ : s.rtu.rxEnabled = true ∧ s.isr (s.rtu.xMBRTUReceiveFSM b) = s' := by
        simpa using hstep
      obtain ⟨r, hr, hinv, hev, hout⟩ := h.rtu.rx hrx b
      rw [hr]
      exact ⟨h.isr hinv fun he => hev ▸ he, hstop, hout⟩
    | txEmpty =>
      obtain ⟨htx, rfl⟩ : s.rtu.txEnabled = true ∧ s.isr s.rtu.xMBRTUTransmitFSM = s' := by
        simpa using hstep
      obtain ⟨r, hr, hinv, hbuf, hev, -⟩ := h.rtu.tx htx
      rw [hr]
      exact ⟨h.isr hinv hev, hstop, fun q _ => congrFun hbuf q⟩
    | t35 =>
      obtain ⟨htimer, rfl⟩ : s.rtu.timer = true ∧ s.isr s.rtu.xMBRTUTimerT35Expired = s' := by
        simpa using hstep
      obtain ⟨r, hr, hinv, hbuf, hev⟩ := h.rtu.t35 htimer
      rw [hr]
      exact ⟨h.isr hinv hev, hstop, fun q _ => congrFun hbuf q⟩
    | poll junk =>
      obtain ⟨-, rfl⟩ : (¬ s.rtu.events = ∅ ∧ s.replying = false) ∧
          s.poll (eventGet s.rtu.events junk) = s' := by
        simpa using hstep
      exact poll_keeps h hstop junk
    | reply =>
      obtain ⟨-, rfl⟩ : s.replying = true ∧ s.reply = s' := by simpa using hstep
      obtain ⟨hinv, hstop', hout⟩ := reply_keeps h hstop
      exact ⟨hinv, hstop', hout⟩

end Slave

end SC04Monitor.Modbus
