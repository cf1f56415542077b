import SC04Monitor.Lib.Settle
import SC04Monitor.Modbus.RtuFrames
import SC04Monitor.Modbus.SlaveSafety

/-! # One exchange on the line

A master sends a frame, and nothing more before the slave has come to rest. What the slave does
then is determined by the frame, the data and what was in the buffer before: `answer` says what
the data become and which bytes go out. -/

namespace SC04Monitor.Modbus
open SC04Monitor.Lib.ByteMem SC04Monitor.Lib.Steps SC04Monitor.Lib.Settle SC04Monitor.Record

/-! ## What a frame is owed -/

/-- The PDU that is sent back. -/
def Handled.response (r : Handled) (ucFunctionCode : UInt8) : List UInt8 :=
  if r.exc ≠ .none then [ucFunctionCode ||| mbFuncError, r.exc.code] else readBytes r.buf 1 r.usLen

/-- A frame that passes the check of `eMBRTUReceive`. -/
def Intact (f : List UInt8) : Prop := mbSerPduSizeMin ≤ f.length ∧ crc16DnCal f 0xFFFF = 0

instance (f : List UInt8) : Decidable (Intact f) := by
  unfold Intact
  infer_instance

/-- What a handler makes of a frame that has come in over the memory `m`. -/
def handled (m : Mem) (d : MbData) (f : List UInt8) : Handled :=
  dispatch (f.getD 1 0) (writeBytes m 0 f) 1 (f.length - mbSerPduPduOff - mbSerPduSizeCrc) d

/-- What an exchange leaves in the buffer and in the data, and what it puts on the line. -/
structure Answer where
  buf : Mem
  data : MbData
  sent : List UInt8

/-- A frame that a handler sees of the slave with the address `own`. -/
def Executed (own : UInt8) (f : List UInt8) : Prop :=
  f.length < mbSerPduSizeMax ∧ Intact f ∧ (f.getD 0 0 = own ∨ f.getD 0 0 = mbAddressBroadcast)

instance (own : UInt8) (f : List UInt8) : Decidable (Executed own f) := by
  unfold Executed
  infer_instance

/-- What the slave with the address `own` owes the frame `f`: a response is its address, the PDU
and the CRC, all in the buffer too. -/
def answer (own : UInt8) (m : Mem) (d : MbData) (f : List UInt8) : Answer :=
  if Executed own f then
    let r := handled m d f
    if f.getD 0 0 = mbAddressBroadcast then ⟨r.buf, r.data, []⟩
    else
      let reply := parBlock (own :: r.response (f.getD 1 0))
      ⟨writeBytes r.buf 0 reply, r.data, reply⟩
  else ⟨writeBytes m 0 (f.take mbSerPduSizeMax), d, []⟩

namespace Slave

/-! ## Steps without the master -/

/-- A step that is not a byte from the master. -/
def Internal (s s' : Slave) : Prop := ∃ t, (∀ b, t ≠ .rx b) ∧ step s t = some s'

/-- No interrupt is to be expected but that of a byte. -/
structure Idle (s : Slave) : Prop where
  stopped : s.stopped = none
  rcvState : s.rtu.rcvState = .rxIdle
  sndState : s.rtu.sndState = .txIdle
  timer : s.rtu.timer = false
  rxEnabled : s.rtu.rxEnabled = true
  txEnabled : s.rtu.txEnabled = false

/-- The slave between two frames. -/
structure Quiet (s : Slave) : Prop extends s.Idle where
  events : s.rtu.events = ∅
  replying : s.replying = false

variable {s s' : Slave}

theorem internal_stopped {e : Stop} (h : s.stopped = some e) : ∀ s', ¬ Internal s s' := by
  rintro s' ⟨t, -, hstep⟩
  simp [step, h] at hstep

section
variable (hstop : s.stopped = none) (htimer : s.rtu.timer = false)
include hstop htimer

theorem internal_tx (hev : s.rtu.events = ∅) (hrep : s.replying = false)
    (htx : s.rtu.txEnabled = true) : ∀ s', Internal s s' ↔ s' = s.isr s.rtu.xMBRTUTransmitFSM := by
  intro s'
  constructor
  · rintro ⟨t, hrx, hstep⟩
    cases t with
    | rx b => exact absurd rfl (hrx b)
    | txEmpty => simpa [step, hstop, htx, eq_comm] using hstep
    | t35 => simp [step, hstop, htimer] at hstep
    | poll junk => simp [step, hstop, hev] at hstep
    | reply => simp [step, hstop, hrep] at hstep
  · rintro rfl
    exact ⟨.txEmpty, fun _ => by simp, by simp [step, hstop, htx]⟩

theorem internal_poll {e : MbEvent} (hev : s.rtu.events = {e}) (hrep : s.replying = false)
    (htx : s.rtu.txEnabled = false) : ∀ s', Internal s s' ↔ s' = s.poll (some e) := by
  intro s'
  have hget : ∀ junk, eventGet s.rtu.events junk = some e := fun junk => by
    rw [hev, eventGet_single]
  constructor
  · rintro ⟨t, hrx, hstep⟩
    cases t with
    | rx b => exact absurd rfl (hrx b)
    | txEmpty => simp [step, hstop, htx] at hstep
    | t35 => simp [step, hstop, htimer] at hstep
    | poll junk =>
      rw [step, hget junk] at hstep
      simpa [hstop, hev, hrep, eq_comm] using hstep
    | reply => simp [step, hstop, hrep] at hstep
  · rintro rfl
    refine ⟨.poll none, fun _ => by simp, ?_⟩
    rw [step, hget none]
    simp [hstop, hev, hrep]

theorem internal_reply (hrep : s.replying = true) (htx : s.rtu.txEnabled = false) :
    ∀ s', Internal s s' ↔ s' = s.reply := by
  intro s'
  constructor
  · rintro ⟨t, hrx, hstep⟩
    cases t with
    | rx b => exact absurd rfl (hrx b)
    | txEmpty => simp [step, hstop, htx] at hstep
    | t35 => simp [step, hstop, htimer] at hstep
    | poll junk => simp [step, hstop, hrep] at hstep
    | reply => simpa [step, hstop, hrep, eq_comm] using hstep
  · rintro rfl
    exact ⟨.reply, fun _ => by simp, by simp [step, hstop, hrep]⟩

end

/-- At rest only the master can go on. -/
theorem Quiet.no_internal (h : s.Quiet) : ∀ s', ¬ Internal s s' := by
  rintro s' ⟨t, hrx, hstep⟩
  cases t with
  | rx b => exact absurd rfl (hrx b)
  | txEmpty => simp [step, h.stopped, h.txEnabled] at hstep
  | t35 => simp [step, h.stopped, h.timer] at hstep
  | poll junk => simp [step, h.stopped, h.events] at hstep
  | reply => simp [step, h.stopped, h.replying] at hstep

/-! ## What the slave comes to -/

/-- Left alone, the slave comes to rest with this buffer and these data, having put these bytes
on the line. -/
def Rests (s : Slave) (r : Answer) : Prop :=
  ∃ q, Settles Internal s q ∧ q.Quiet ∧ q.mbAddress = s.mbAddress ∧ q.rtu.rtuBuf = r.buf ∧
    q.data = r.data ∧ q.rtu.line = s.rtu.line ++ r.sent

theorem Rests.quiet (h : s.Quiet) : s.Rests ⟨s.rtu.rtuBuf, s.data, []⟩ :=
  ⟨s, .rest h.no_internal, h, rfl, rfl, rfl, (List.append_nil _).symm⟩

/-- The step of one actor, when nobody else can move. -/
theorem Rests.step {m : Mem} {d : MbData} {out out' : List UInt8}
    (only : ∀ t, Internal s t ↔ t = s') (haddr : s'.mbAddress = s.mbAddress)
    (hline : s'.rtu.line = s.rtu.line ++ out) (h : s'.Rests ⟨m, d, out'⟩) :
    s.Rests ⟨m, d, out ++ out'⟩ := by
  obtain ⟨q, hq, hquiet, hqaddr, hbuf, hdata, hqline⟩ := h
  refine ⟨q, .step ((only s').mpr rfl) (fun t ht => (only t).mp ht) hq, hquiet,
    hqaddr.trans haddr, hbuf, hdata, ?_⟩
  rw [hqline, hline, List.append_assoc]

/-- A step that puts nothing on the line. -/
theorem Rests.silent_step {r : Answer} (only : ∀ t, Internal s t ↔ t = s')
    (haddr : s'.mbAddress = s.mbAddress) (hline : s'.rtu.line = s.rtu.line) (h : s'.Rests r) :
    s.Rests r :=
  Rests.step (m := r.buf) (d := r.data) only haddr (hline.trans (List.append_nil _).symm) h

/-- A response is on its way. -/
structure Sending (s : Slave) : Prop where
  stopped : s.stopped = none
  rcvState : s.rtu.rcvState = .rxIdle
  sndState : s.rtu.sndState = .txXmit
  timer : s.rtu.timer = false
  txEnabled : s.rtu.txEnabled = true
  events : s.rtu.events = ∅
  replying : s.replying = false

/-- The rest of a response goes out byte by byte. -/
theorem Sending.rests (h : s.Sending) {n : Nat} (hn : s.rtu.sndBufferCount = n) :
    s.Rests ⟨s.rtu.rtuBuf, s.data, readBytes s.rtu.rtuBuf s.rtu.sndBufferCur n⟩ := by
  have only := internal_tx h.stopped h.timer h.events h.replying h.txEnabled
  induction n generalizing s with
  | zero =>
    -- all is sent: the receiver is enabled again, and the thread is told
    let r : Rtu := { (s.rtu.eventPost .frameSent).serialEnable true false with sndState := .txIdle }
    have htx : s.rtu.xMBRTUTransmitFSM = .ok r := by
      simp [Rtu.xMBRTUTransmitFSM, h.rcvState, h.sndState, hn, r]
    rw [htx] at only
    have hev : r.events = {.frameSent} := by
      show insert MbEvent.frameSent s.rtu.events = _
      rw [h.events]
      rfl
    have hpoll := internal_poll (s := s.isr (.ok r)) h.stopped h.timer hev h.replying rfl
    refine Rests.silent_step only rfl rfl (Rests.silent_step hpoll rfl rfl ?_)
    exact Rests.quiet (s := (s.isr (.ok r)).poll (some .frameSent))
      ⟨⟨h.stopped, h.rcvState, rfl, h.timer, rfl, rfl⟩, rfl, h.replying⟩
  | succ n ih =>
    let r : Rtu := { s.rtu.serialPutByte (s.rtu.rtuBuf s.rtu.sndBufferCur) with
      sndBufferCur := s.rtu.sndBufferCur + 1, sndBufferCount := s.rtu.sndBufferCount - 1 }
    have htx : s.rtu.xMBRTUTransmitFSM = .ok r := by
      simp [Rtu.xMBRTUTransmitFSM, h.rcvState, h.sndState, hn, r]
    rw [htx] at only
    have hnext : Sending (s.isr (.ok r)) :=
      ⟨h.stopped, h.rcvState, h.sndState, h.timer, h.txEnabled, h.events, h.replying⟩
    have hcount : (s.isr (.ok r)).rtu.sndBufferCount = n := by
      show s.rtu.sndBufferCount - 1 = n
      rw [hn, Nat.add_sub_cancel]
    have hline : (s.isr (.ok r)).rtu.line =
        s.rtu.line ++ [s.rtu.rtuBuf s.rtu.sndBufferCur] := rfl
    rw [readBytes_succ]
    exact Rests.step only rfl hline (ih hnext hcount
      (internal_tx hnext.stopped hnext.timer hnext.events hnext.replying hnext.txEnabled))

/-! ## From the handler to the response -/

/-- `eMBRTUSend` puts the address before the PDU and the CRC behind it. -/
theorem send_buf (r : Rtu) (hidle : r.rcvState = .rxIdle) (own : UInt8) {pdu : List UInt8}
    (hpdu : readBytes r.rtuBuf 1 pdu.length = pdu) :
    (r.eMBRTUSend own 1 pdu.length).2 =
      { r with
        rtuBuf := writeBytes r.rtuBuf 0 (parBlock (own :: pdu)), sndBufferCur := 0,
        sndBufferCount := (parBlock (own :: pdu)).length, sndState := .txXmit,
        rxEnabled := false, txEnabled := true } := by
  let m := writeBytes r.rtuBuf 0 [own]
  have hown : readBytes m 1 pdu.length = pdu := by
    rw [readBytes_writeBytes_frame (.inr (.inr (.inl (Nat.le_refl 1)))), hpdu]
  have hmsg : readBytes m 0 (1 + pdu.length) = own :: pdu := by
    rw [readBytes_add, Nat.zero_add, hown]
    exact congrArg (· ++ pdu) (readBytes_writeBytes r.rtuBuf 0 [own])
  have hcrc := usMBCRC16_eq m 0 (1 + pdu.length)
  rw [hmsg] at hcrc
  have hhead : writeBytes r.rtuBuf 0 (own :: pdu) = m := by
    show writeBytes r.rtuBuf 0 ([own] ++ pdu) = _
    rw [writeBytes_append]
    exact writeBytes_of_readBytes hown
  have hall : ∀ lo hi : UInt8, writeBytes r.rtuBuf 0 ((own :: pdu) ++ [lo, hi]) =
      writeBytes (writeBytes m (1 + pdu.length) [lo]) (1 + pdu.length + 1) [hi] := by
    intro lo hi
    have hlen : 0 + (own :: pdu).length = 1 + pdu.length := by simp [Nat.add_comm]
    rw [writeBytes_append, hhead, hlen]
    exact writeBytes_append m (1 + pdu.length) [lo] [hi]
  have hlen : (parBlock (own :: pdu)).length = 1 + pdu.length + 2 := by simp [Nat.add_comm]
  unfold Rtu.eMBRTUSend
  rw [if_pos hidle, hlen, parBlock, hall, ← hcrc]
  rfl

theorem send_keeps_line (r : Rtu) (own : UInt8) (pucFrame usLength : Nat) :
    (r.eMBRTUSend own pucFrame usLength).2.line = r.line := by
  unfold Rtu.eMBRTUSend
  split <;> rfl

/-- A PDU that stands in the buffer is sent. -/
theorem Quiet.send_rests (h : s.Quiet) (pdu : List UInt8)
    (hpdu : readBytes s.rtu.rtuBuf 1 pdu.length = pdu) :
    Rests { s with rtu := (s.rtu.eMBRTUSend s.mbAddress 1 pdu.length).2 }
      ⟨writeBytes s.rtu.rtuBuf 0 (parBlock (s.mbAddress :: pdu)), s.data,
        parBlock (s.mbAddress :: pdu)⟩ := by
  rw [send_buf s.rtu h.rcvState s.mbAddress hpdu]
  have hrests := Sending.rests (s := { s with rtu := { s.rtu with
      rtuBuf := writeBytes s.rtu.rtuBuf 0 (parBlock (s.mbAddress :: pdu)), sndBufferCur := 0,
      sndBufferCount := (parBlock (s.mbAddress :: pdu)).length, sndState := .txXmit,
      rxEnabled := false, txEnabled := true } })
    ⟨h.stopped, h.rcvState, rfl, h.timer, rfl, h.events, h.replying⟩ rfl
  rwa [readBytes_writeBytes] at hrests

/-- What the handler has left. -/
def outcome (s : Slave) : Handled := ⟨s.exception, s.rtu.rtuBuf, s.length, s.data⟩

/-- What the handler has left is sent, unless the request went to all. -/
theorem Idle.reply_rests (h : s.Idle) (hev : s.rtu.events = ∅) (hrep : s.replying = true) :
    s.Rests (if s.rcvAddress = mbAddressBroadcast then ⟨s.rtu.rtuBuf, s.data, []⟩
      else
        let reply := parBlock (s.mbAddress :: s.outcome.response s.functionCode)
        ⟨writeBytes s.rtu.rtuBuf 0 reply, s.data, reply⟩) := by
  have only := internal_reply h.stopped h.timer hrep h.txEnabled
  unfold reply at only
  dsimp only at only
  by_cases haddr : s.rcvAddress = mbAddressBroadcast
  · rw [if_pos haddr]
    rw [if_neg (fun hne => hne haddr)] at only
    exact Rests.silent_step only rfl rfl (Rests.quiet (s := { s with replying := false })
      ⟨⟨h.stopped, h.rcvState, h.sndState, h.timer, h.rxEnabled, h.txEnabled⟩, hev, rfl⟩)
  rw [if_neg haddr]
  rw [if_pos haddr] at only
  by_cases hexc : s.exception ≠ .none
  · -- the exception is put into the buffer first
    let pdu := [s.functionCode ||| mbFuncError, s.exception.code]
    let m := writeBytes s.rtu.rtuBuf 1 pdu
    have hquiet : Quiet { s with rtu := { s.rtu with rtuBuf := m }, length := 2, replying := false } :=
      ⟨⟨h.stopped, h.rcvState, h.sndState, h.timer, h.rxEnabled, h.txEnabled⟩, hev, rfl⟩
    have hsend := hquiet.send_rests pdu (readBytes_writeBytes _ 1 pdu)
    rw [writeBytes_covered (by omega) (by simp [pdu])] at hsend
    have hpdu : s.outcome.response s.functionCode = pdu := if_pos hexc
    rw [if_pos hexc] at only
    rw [hpdu]
    exact Rests.silent_step only rfl (send_keeps_line _ _ _ _) hsend
  · have hquiet : Quiet { s with replying := false } :=
      ⟨⟨h.stopped, h.rcvState, h.sndState, h.timer, h.rxEnabled, h.txEnabled⟩, hev, rfl⟩
    have hsend := hquiet.send_rests (readBytes s.rtu.rtuBuf 1 s.length) (by
      rw [length_readBytes])
    rw [length_readBytes] at hsend
    have hpdu : s.outcome.response s.functionCode = readBytes s.rtu.rtuBuf 1 s.length := if_neg hexc
    rw [if_neg hexc] at only
    rw [hpdu]
    exact Rests.silent_step only rfl (send_keeps_line _ _ _ _) hsend

/-! ## From the silence to the handler -/

/-- A frame that the slave is to execute. -/
theorem Idle.execute_rests (h : s.Idle) (hev : s.rtu.events = {.execute}) (hrep : s.replying = false)
    (hframe : s.mbFrame = true) :
    let r := dispatch (s.rtu.rtuBuf 1) s.rtu.rtuBuf 1 s.length s.data
    s.Rests (if s.rcvAddress = mbAddressBroadcast then ⟨r.buf, r.data, []⟩
      else
        let reply := parBlock (s.mbAddress :: r.response (s.rtu.rtuBuf 1))
        ⟨writeBytes r.buf 0 reply, r.data, reply⟩) := by
  intro r
  have only := internal_poll h.stopped h.timer hev hrep h.txEnabled
  let s' : Slave := { s with
    rtu := { s.rtu with events := ∅, rtuBuf := r.buf }, functionCode := s.rtu.rtuBuf 1,
    length := r.usLen, exception := r.exc, data := r.data, replying := true }
  have hpoll : s.poll (some .execute) = s' := by
    show execute _ = _
    unfold execute
    rw [if_pos hframe]
  rw [hpoll] at only
  have hidle : Idle s' := ⟨h.stopped, h.rcvState, h.sndState, h.timer, h.rxEnabled, h.txEnabled⟩
  exact Rests.silent_step only rfl rfl (hidle.reply_rests rfl rfl)

theorem writeBytes_getD {m : Mem} {f : List UInt8} {i : Nat} (h : i < f.length) :
    writeBytes m 0 f i = f.getD i 0 := by
  rw [writeBytes_inside (Nat.zero_le i) h, List.getD_eq_getElem f 0 h]
  rfl

/-- A frame that stands in the buffer is answered. -/
theorem Idle.frame_rests (h : s.Idle) (hev : s.rtu.events = {.frameReceived})
    (hrep : s.replying = false) {m : Mem} {f : List UInt8} (hbuf : s.rtu.rtuBuf = writeBytes m 0 f)
    (hpos : s.rtu.rcvBufferPos = f.length) (hfit : f.length < mbSerPduSizeMax) :
    s.Rests (answer s.mbAddress m s.data f) := by
  have only := internal_poll h.stopped h.timer hev hrep h.txEnabled
  let c : Slave := { s with rtu := { s.rtu with events := ∅ } }
  have hidle : Idle c := ⟨h.stopped, h.rcvState, h.sndState, h.timer, h.rxEnabled, h.txEnabled⟩
  have htake : f.take mbSerPduSizeMax = f := List.take_of_length_le (Nat.le_of_lt hfit)
  have hcrc : usMBCRC16 s.rtu.rtuBuf 0 f.length = crc16DnCal f 0xFFFF := by
    rw [usMBCRC16_eq, hbuf, readBytes_writeBytes]
  have hreceive : c.rtu.eMBRTUReceive = .ok (if Intact f then
      some (s.rtu.rtuBuf 0, f.length - mbSerPduPduOff - mbSerPduSizeCrc) else none) := by
    show (if s.rtu.rcvBufferPos < mbSerPduSizeMax then
      if _ ∧ usMBCRC16 s.rtu.rtuBuf 0 s.rtu.rcvBufferPos = 0 then _ else _ else _) = _
    rw [hpos, if_pos hfit, hcrc]
    show (if Intact f then _ else _) = _
    split <;> rfl
  have hpoll : s.poll (some .frameReceived) = c.frameReceived := rfl
  unfold frameReceived at hpoll
  rw [hreceive] at hpoll
  rw [hpoll] at only
  unfold answer
  by_cases hok : Intact f
  · rw [if_pos hok] at only
    dsimp only at only
    have hmin : 4 ≤ f.length := hok.1
    have haddr : s.rtu.rtuBuf 0 = f.getD 0 0 := by rw [hbuf, writeBytes_getD (by omega)]
    have hfunc : s.rtu.rtuBuf 1 = f.getD 1 0 := by rw [hbuf, writeBytes_getD (by omega)]
    by_cases hours : f.getD 0 0 = s.mbAddress ∨ f.getD 0 0 = mbAddressBroadcast
    · rw [if_pos (haddr ▸ hours)] at only
      rw [if_pos ⟨hfit, hok, hours⟩]
      let e : Slave := { c with
        rcvAddress := s.rtu.rtuBuf 0, length := f.length - mbSerPduPduOff - mbSerPduSizeCrc,
        mbFrame := true, rtu := c.rtu.eventPost .execute }
      have hready : Idle e :=
        ⟨h.stopped, h.rcvState, h.sndState, h.timer, h.rxEnabled, h.txEnabled⟩
      have hexec := hready.execute_rests rfl hrep rfl
      have hhandled : dispatch (s.rtu.rtuBuf 1) s.rtu.rtuBuf 1
          (f.length - mbSerPduPduOff - mbSerPduSizeCrc) s.data = handled m s.data f := by
        rw [hfunc, hbuf]
        rfl
      rw [← haddr, ← hfunc, ← hhandled]
      exact Rests.silent_step only rfl rfl hexec
    · rw [if_neg (haddr ▸ hours)] at only
      rw [if_neg fun hc => hours hc.2.2, htake, ← hbuf]
      exact Rests.silent_step only rfl rfl (Rests.quiet
        ⟨⟨h.stopped, h.rcvState, h.sndState, h.timer, h.rxEnabled, h.txEnabled⟩, rfl, hrep⟩)
  · rw [if_neg hok] at only
    rw [if_neg fun hc => hok hc.2.1, htake, ← hbuf]
    exact Rests.silent_step only rfl rfl (Rests.quiet (s := c) ⟨hidle, rfl, hrep⟩)

/-! ## From the line to the buffer -/

/-- The slave when the bytes `cur` have come in since it was at rest. -/
def taking (s : Slave) (cur : List UInt8) : Slave :=
  { s with rtu := { s.rtu with
    rcvState :=
      if cur = [] then .rxIdle else if cur.length ≤ mbSerPduSizeMax then .rxRcv else .rxError
    rtuBuf := writeBytes s.rtu.rtuBuf 0 (cur.take mbSerPduSizeMax)
    rcvBufferPos := if cur = [] then s.rtu.rcvBufferPos else min cur.length mbSerPduSizeMax
    timer := decide (cur ≠ []) } }

theorem Quiet.taking_nil (h : s.Quiet) : s.taking [] = s := by
  have hrcv := h.rcvState
  have htimer := h.timer
  obtain ⟨⟨rcvState, sndState, rtuBuf, cur, count, pos, rx, tx, timer, events, line⟩, _⟩ := s
  subst hrcv htimer
  rfl

/-- A byte comes in. -/
theorem Quiet.taking_byte (h : s.Quiet) (cur : List UInt8) (b : UInt8) :
    step (s.taking cur) (.rx b) = some (s.taking (cur ++ [b])) := by
  have hmax : mbSerPduSizeMax = 256 := rfl
  have hne : cur ++ [b] ≠ [] := by simp
  have hlen : (cur ++ [b]).length = cur.length + 1 := by simp
  have hrun : step (s.taking cur) (.rx b) =
      some ((s.taking cur).isr ((s.taking cur).rtu.xMBRTUReceiveFSM b)) := by
    show (if s.stopped.isSome then none else if s.rtu.rxEnabled then _ else none) = _
    rw [h.stopped, h.rxEnabled]
    rfl
  rw [hrun, Rtu.xMBRTUReceiveFSM, if_pos (show (s.taking cur).rtu.sndState = .txIdle from h.sndState)]
  by_cases hcur : cur = []
  · subst hcur
    rw [h.taking_nil, h.rcvState]
    rfl
  by_cases hfit : cur.length ≤ mbSerPduSizeMax
  · have hrcv : (s.taking cur).rtu.rcvState = .rxRcv := by simp [taking, hcur, hfit]
    have hpos : (s.taking cur).rtu.rcvBufferPos = cur.length := by simp [taking, hcur, hfit]
    rw [hrcv, hpos]
    dsimp only
    by_cases hroom : cur.length < mbSerPduSizeMax
    · have hbuf : writeBytes (writeBytes s.rtu.rtuBuf 0 cur) cur.length [b] =
          writeBytes s.rtu.rtuBuf 0 (cur ++ [b]) := by
        rw [writeBytes_append, Nat.zero_add]
      have htake : cur.take mbSerPduSizeMax = cur := List.take_of_length_le hfit
      have htake' : (cur ++ [b]).take mbSerPduSizeMax = cur ++ [b] :=
        List.take_of_length_le (by omega)
      rw [if_pos hroom]
      simp [taking, isr, Rtu.timersEnable, hcur, hfit, htake, htake', hbuf,
        Nat.succ_le_of_lt hroom]
    · -- the buffer is full
      have hfull : cur.length = mbSerPduSizeMax := by omega
      have htake : (cur ++ [b]).take mbSerPduSizeMax = cur.take mbSerPduSizeMax :=
        List.take_append_of_le_length (Nat.le_of_eq hfull.symm)
      rw [if_neg hroom]
      simp [taking, isr, Rtu.timersEnable, hcur, htake, hfull]
  · have hover : mbSerPduSizeMax < cur.length := by omega
    have hrcv : (s.taking cur).rtu.rcvState = .rxError := by simp [taking, hcur, hfit]
    have htake : (cur ++ [b]).take mbSerPduSizeMax = cur.take mbSerPduSizeMax :=
      List.take_append_of_le_length (Nat.le_of_lt hover)
    have hmin : min (cur.length + 1) mbSerPduSizeMax = min cur.length mbSerPduSizeMax := by omega
    have hstill : ¬ cur.length + 1 ≤ mbSerPduSizeMax := by omega
    rw [hrcv]
    simp [taking, isr, Rtu.timersEnable, hcur, hfit, htake, hmin, hstill]

theorem Quiet.taking_bytes (h : s.Quiet) (cur f : List UInt8) :
    runSteps step (s.taking cur) (f.map .rx) = some (s.taking (cur ++ f)) := by
  induction f generalizing cur with
  | nil => rw [List.append_nil]; rfl
  | cons b f ih =>
    rw [List.map_cons, runSteps, h.taking_byte, Option.bind_some, ih, List.append_assoc]
    rfl

/-- The slave when the line has been silent after `f`. -/
def heard (s : Slave) (f : List UInt8) : Slave :=
  { s with rtu := { s.rtu with
    rtuBuf := writeBytes s.rtu.rtuBuf 0 (f.take mbSerPduSizeMax)
    rcvBufferPos := min f.length mbSerPduSizeMax
    events := if f.length ≤ mbSerPduSizeMax then {.frameReceived} else ∅ } }

/-- A frame and the silence behind it. -/
theorem Quiet.hears (h : s.Quiet) {f : List UInt8} (hne : f ≠ []) :
    runSteps step s (f.map .rx ++ [.t35]) = some (s.heard f) := by
  have hbytes := h.taking_bytes [] f
  rw [h.taking_nil, List.nil_append] at hbytes
  have hrun : step (s.taking f) .t35 =
      some ((s.taking f).isr (s.taking f).rtu.xMBRTUTimerT35Expired) := by
    show (if s.stopped.isSome then none else if decide (f ≠ []) then _ else none) = _
    rw [h.stopped, decide_eq_true hne]
    rfl
  have hrcv := h.rcvState
  have htimer := h.timer
  have hev := h.events
  rw [runSteps_append, hbytes, Option.bind_some, runSteps, hrun, Rtu.xMBRTUTimerT35Expired]
  by_cases hfit : f.length ≤ mbSerPduSizeMax
  · have hbusy : (s.taking f).rtu.rcvState = .rxRcv := by simp [taking, hne, hfit]
    rw [hbusy]
    simp [taking, heard, isr, Rtu.timersDisable, Rtu.eventPost, runSteps, hne, hfit, hrcv, htimer, hev]
  · have hbusy : (s.taking f).rtu.rcvState = .rxError := by simp [taking, hne, hfit]
    rw [hbusy]
    simp [taking, heard, isr, Rtu.timersDisable, runSteps, hne, hfit, hrcv, htimer, hev]

/-- What has been heard is answered, unless it fills the whole array. -/
theorem Quiet.heard_rests (h : s.Quiet) {f : List UInt8} (hlen : f.length ≠ mbSerPduSizeMax) :
    (s.heard f).Rests (answer s.mbAddress s.rtu.rtuBuf s.data f) := by
  have hidle : Idle (s.heard f) :=
    ⟨h.stopped, h.rcvState, h.sndState, h.timer, h.rxEnabled, h.txEnabled⟩
  by_cases hfit : f.length < mbSerPduSizeMax
  · have hle := Nat.le_of_lt hfit
    refine hidle.frame_rests (m := s.rtu.rtuBuf) (f := f) ?_ h.replying ?_ ?_ hfit
    · simp [heard, hle]
    · simp [heard, List.take_of_length_le hle]
    · simp [heard, hle]
  · have hover : ¬ f.length ≤ mbSerPduSizeMax := by omega
    unfold answer
    rw [if_neg fun hc => hfit hc.1]
    refine Rests.quiet ⟨hidle, ?_, h.replying⟩
    simp [heard, hover]

/-- A frame that fills the whole array fails an assertion. -/
theorem Quiet.heard_full (h : s.Quiet) {f : List UInt8} (hlen : f.length = mbSerPduSizeMax) :
    ∃ q, Settles Internal (s.heard f) q ∧ q.stopped = some .assertFailed := by
  have hev : (s.heard f).rtu.events = {.frameReceived} := by simp [heard, hlen]
  have hpos : (s.heard f).rtu.rcvBufferPos = mbSerPduSizeMax := by simp [heard, hlen]
  have only := internal_poll (s := s.heard f) h.stopped h.timer hev h.replying
    h.txEnabled
  have hstop : ((s.heard f).poll (some .frameReceived)).stopped = some .assertFailed := by
    show (frameReceived _).stopped = _
    unfold frameReceived Rtu.eMBRTUReceive
    simp [hpos]
  exact ⟨_, .step ((only _).mpr rfl) (fun t ht => (only t).mp ht)
    (.rest (internal_stopped hstop)), hstop⟩

end Slave

end SC04Monitor.Modbus
