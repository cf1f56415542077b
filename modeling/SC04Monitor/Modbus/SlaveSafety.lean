import SC04Monitor.Modbus.Slave

/-! # No step leaves `ucRTUBuf`

What a step writes is in the array (`Slave.Keeps`). What it reads is so too: a slave whose memory
is cleared outside of the array takes the same steps. -/

namespace SC04Monitor.Modbus
open SC04Monitor.Lib.ByteMem SC04Monitor.Lib.Steps SC04Monitor.Record

/-- Memory with nothing outside of the array. -/
def clip (m : Mem) : Mem := fun q => if q < mbSerPduSizeMax then m q else 0

theorem agreeIn_clip (m : Mem) : AgreeIn mbSerPduSizeMax m (clip m) := fun _ hq => (if_pos hq).symm

theorem clip_eq {m m' : Mem} (h : AgreeIn mbSerPduSizeMax m m') : clip m = clip m' := by
  funext q
  unfold clip
  by_cases hq : q < mbSerPduSizeMax
  · rw [if_pos hq, if_pos hq, h q hq]
  · rw [if_neg hq, if_neg hq]

/-- A memory with nothing outside. -/
theorem clip_self {m : Mem} (h : ∀ q, mbSerPduSizeMax ≤ q → m q = 0) : clip m = m := by
  funext q
  unfold clip
  by_cases hq : q < mbSerPduSizeMax
  · rw [if_pos hq]
  · rw [if_neg hq, h q (Nat.le_of_not_lt hq)]

theorem clip_writeBytes (m : Mem) (a : Nat) (bs : List UInt8) (h : a + bs.length ≤ mbSerPduSizeMax) :
    writeBytes (clip m) a bs = clip (writeBytes m a bs) := by
  rw [clip_eq (agreeIn_writeBytes (agreeIn_clip m) a bs)]
  refine (clip_self fun q hq => ?_).symm
  rw [writeBytes_outside (by omega)]
  exact if_neg (Nat.not_lt.mpr hq)

theorem usMBCRC16_clip (m : Mem) {p n : Nat} (h : p + n ≤ mbSerPduSizeMax) :
    usMBCRC16 (clip m) p n = usMBCRC16 m p n := by
  rw [usMBCRC16_eq, usMBCRC16_eq, readBytes_congr fun i hi => (agreeIn_clip m _ (by omega)).symm]

namespace Rtu

def clip (s : Rtu) : Rtu := { s with rtuBuf := Modbus.clip s.rtuBuf }

theorem clip_rx (s : Rtu) (b : UInt8) :
    s.clip.xMBRTUReceiveFSM b = (s.xMBRTUReceiveFSM b).map clip := by
  obtain ⟨rcvState, sndState, rtuBuf, cur, count, pos, rx, tx, timer, events, line⟩ := s
  have hmax : mbSerPduSizeMax = 256 := rfl
  cases sndState with
  | txXmit => rfl
  | txIdle =>
    cases rcvState with
    | rxInit => rfl
    | rxError => rfl
    | rxIdle =>
      have hput := clip_writeBytes rtuBuf 0 [b] (by simp; omega)
      simp [xMBRTUReceiveFSM, clip, Except.map, timersEnable, hput]
    | rxRcv =>
      by_cases hroom : pos < mbSerPduSizeMax
      · have hput := clip_writeBytes rtuBuf pos [b] (by simp; omega)
        simp [xMBRTUReceiveFSM, clip, Except.map, timersEnable, hput, hroom]
      · simp [xMBRTUReceiveFSM, clip, Except.map, timersEnable, hroom]

theorem clip_tx {s : Rtu} (h : s.sndBufferCount ≠ 0 → s.sndBufferCur < mbSerPduSizeMax) :
    s.clip.xMBRTUTransmitFSM = s.xMBRTUTransmitFSM.map clip := by
  obtain ⟨rcvState, sndState, rtuBuf, cur, count, pos, rx, tx, timer, events, line⟩ := s
  cases rcvState with
  | rxInit => rfl
  | rxError => rfl
  | rxRcv => rfl
  | rxIdle =>
    cases sndState with
    | txIdle => rfl
    | txXmit =>
      by_cases hcount : count ≠ 0
      · have hget : Modbus.clip rtuBuf cur = rtuBuf cur := (agreeIn_clip rtuBuf cur (h hcount)).symm
        simp [xMBRTUTransmitFSM, clip, Except.map, serialPutByte, hcount, hget]
      · simp [xMBRTUTransmitFSM, clip, Except.map, eventPost, serialEnable, hcount]

theorem clip_t35 (s : Rtu) :
    s.clip.xMBRTUTimerT35Expired = s.xMBRTUTimerT35Expired.map clip := by
  obtain ⟨rcvState, sndState, rtuBuf, cur, count, pos, rx, tx, timer, events, line⟩ := s
  cases rcvState <;> rfl

theorem clip_receive {s : Rtu} (h : s.rcvBufferPos ≤ mbSerPduSizeMax) :
    s.clip.eMBRTUReceive = s.eMBRTUReceive := by
  have hcrc := usMBCRC16_clip s.rtuBuf (p := 0) (n := s.rcvBufferPos) (by omega)
  have haddr : Modbus.clip s.rtuBuf 0 = s.rtuBuf 0 := rfl
  unfold eMBRTUReceive
  simp only [clip, hcrc, haddr]

theorem clip_send (s : Rtu) (ucSlaveAddress : UInt8) {usLength : Nat} (h : usLength ≤ pduSizeMax) :
    (s.clip.eMBRTUSend ucSlaveAddress 1 usLength).2 =
      (s.eMBRTUSend ucSlaveAddress 1 usLength).2.clip := by
  have hmax : mbSerPduSizeMax = 256 := rfl
  have hpdu : pduSizeMax = 252 := rfl
  obtain ⟨rcvState, sndState, rtuBuf, cur, count, pos, rx, tx, timer, events, line⟩ := s
  cases rcvState with
  | rxInit => rfl
  | rxError => rfl
  | rxRcv => rfl
  | rxIdle =>
    have hput : ∀ (m : Mem) (a : Nat) (b : UInt8), a < mbSerPduSizeMax →
        writeBytes (Modbus.clip m) a [b] = Modbus.clip (writeBytes m a [b]) :=
      fun m a b ha => clip_writeBytes m a [b] (by simp; omega)
    have hcrc : ∀ m, usMBCRC16 (Modbus.clip m) 0 (1 + usLength) = usMBCRC16 m 0 (1 + usLength) :=
      fun m => usMBCRC16_clip m (by omega)
    simp only [eMBRTUSend, clip, ↓reduceIte, serialEnable, Nat.sub_self]
    rw [hput _ _ _ (by omega), hcrc, hput _ _ _ (by omega), hput _ _ _ (by omega)]

end Rtu

/-- A handler leaves the same in the array. -/
theorem clip_dispatch (ucFunctionCode : UInt8) (m : Mem) {usLen : Nat} (h : usLen ≤ pduSizeMax)
    (d : MbData) :
    dispatch ucFunctionCode (clip m) 1 usLen d =
      { dispatch ucFunctionCode m 1 usLen d with
        buf := clip (dispatch ucFunctionCode m 1 usLen d).buf } := by
  have hc := contained_dispatch ucFunctionCode
  have hlen : usLen < mbSerPduSizeMax := Nat.lt_of_le_of_lt h (by decide)
  have hsame := hc.reads mbSerPduSizeMax m (clip m) usLen d (agreeIn_clip m) (by decide) hlen
    (Nat.min_le_left _ _)
  have hbuf : clip (dispatch ucFunctionCode m 1 usLen d).buf =
      (dispatch ucFunctionCode (clip m) 1 usLen d).buf := by
    rw [clip_eq hsame.buf]
    refine clip_self fun q hq => ?_
    rw [hc.writes _ _ _ q (.inr hq)]
    exact if_neg (Nat.not_lt.mpr hq)
  show _ = Handled.mk _ _ _ _
  rw [hsame.exc, hsame.usLen, hsame.data, hbuf]

namespace Slave

def clip (s : Slave) : Slave := { s with rtu := s.rtu.clip }

variable {s : Slave}

theorem clip_isr (s : Slave) (r : Except Stop Rtu) : s.clip.isr (r.map Rtu.clip) = (s.isr r).clip := by
  cases r <;> rfl

theorem clip_frameReceived (h : s.rtu.rcvBufferPos ≤ mbSerPduSizeMax) :
    s.clip.frameReceived = s.frameReceived.clip := by
  have hrec := Rtu.clip_receive h
  unfold frameReceived
  rw [show s.clip.rtu = s.rtu.clip from rfl, hrec]
  rcases s.rtu.eMBRTUReceive with e | (_ | ⟨addr, len⟩)
  · rfl
  · rfl
  · dsimp only [clip]
    split <;> rfl

theorem clip_execute (h : s.length ≤ pduSizeMax) : s.clip.execute = s.execute.clip := by
  have hd := clip_dispatch (s.rtu.rtuBuf 1) s.rtu.rtuBuf h s.data
  have hfunc : Modbus.clip s.rtu.rtuBuf 1 = s.rtu.rtuBuf 1 := rfl
  unfold execute
  simp only [clip, Rtu.clip, hfunc, hd]
  split <;> rfl

theorem clip_reply (h : s.length ≤ pduSizeMax) : s.clip.reply = s.reply.clip := by
  have hsend := Rtu.clip_send s.rtu s.mbAddress h
  have herror := clip_writeBytes s.rtu.rtuBuf 1
    [s.functionCode ||| mbFuncError, s.exception.code] (by simp [mbSerPduSizeMax])
  have hsendError := Rtu.clip_send { s.rtu with
    rtuBuf := writeBytes s.rtu.rtuBuf 1 [s.functionCode ||| mbFuncError, s.exception.code] }
    s.mbAddress (show 2 ≤ pduSizeMax by decide)
  unfold reply
  by_cases haddr : s.rcvAddress ≠ mbAddressBroadcast
  · by_cases hexc : s.exception ≠ .none
    · simp only [clip, Rtu.clip, haddr, hexc, ne_eq, not_false_eq_true, ↓reduceIte, herror]
      exact congrArg (fun rtu => ({ s with rtu, length := 2, replying := false } : Slave)) hsendError
    · simp only [clip, haddr, hexc, ne_eq, not_false_eq_true, ↓reduceIte]
      exact congrArg (fun rtu => ({ s with rtu, replying := false } : Slave)) hsend
  · simp only [clip, haddr, ↓reduceIte]

/-- A slave with nothing outside of the array takes the same steps. -/
theorem step_clip (h : s.Inv) (t : Turn) : step s.clip t = (step s t).map clip := by
  unfold step
  show (if s.stopped.isSome then _ else _) = _
  by_cases hstop : s.stopped.isSome = true
  · rw [if_pos hstop, if_pos hstop]
    rfl
  · rw [if_neg hstop, if_neg hstop]
    cases t with
    | rx b =>
      show (if s.rtu.rxEnabled = true then some (s.clip.isr (s.rtu.clip.xMBRTUReceiveFSM b)) else none) = _
      rw [Rtu.clip_rx, clip_isr]
      split <;> rfl
    | txEmpty =>
      show (if s.rtu.txEnabled = true then some (s.clip.isr s.rtu.clip.xMBRTUTransmitFSM) else none) = _
      by_cases htx : s.rtu.txEnabled = true
      · obtain ⟨-, -, -, -, -, hcur⟩ := h.rtu.tx htx
        rw [Rtu.clip_tx hcur, clip_isr]
        simp [htx]
      · simp [htx]
    | t35 =>
      show (if s.rtu.timer = true then some (s.clip.isr s.rtu.clip.xMBRTUTimerT35Expired) else none) = _
      rw [Rtu.clip_t35, clip_isr]
      split <;> rfl
    | poll junk =>
      have hpoll : ∀ e, s.clip.poll e = (s.poll e).clip := by
        intro e
        have hclear : { s.clip with rtu := { s.clip.rtu with events := ∅ } } =
            ({ s with rtu := { s.rtu with events := ∅ } } : Slave).clip := rfl
        unfold poll
        rw [hclear]
        rcases e with _ | (_ | _ | _ | _)
        · rfl
        · rfl
        · exact clip_frameReceived h.rtu.rcvBufferPos
        · exact clip_execute (s := { s with rtu := { s.rtu with events := ∅ } }) h.length
        · rfl
      dsimp only
      rw [hpoll]
      show (if s.rtu.events ≠ ∅ ∧ s.replying = false then _ else _) = _
      split <;> rfl
    | reply =>
      dsimp only
      rw [clip_reply h.length]
      show (if s.replying = true then _ else _) = _
      split <;> rfl

theorem reach_inv {rtuBuf : Mem} {data : MbData} (h : Reach step Always (start rtuBuf data) s) :
    s.Inv :=
  h.inv (start_inv rtuBuf data) fun _ _ _ hi _ hstep => (step_keeps hi hstep).inv

/-- A single event is taken for what it is. -/
theorem eventGet_single (e : MbEvent) (junk : Option MbEvent) : eventGet {e} junk = some e := by
  cases e <;> rfl

/-- The poll checks a frame and finds the array full. -/
def FullFrame (s : Slave) (junk : Option MbEvent) : Prop :=
  eventGet s.rtu.events junk = some .frameReceived ∧ s.rtu.rcvBufferPos = mbSerPduSizeMax

/-- The poll is to execute a frame, and there has been none. -/
def StaleExecute (s : Slave) (junk : Option MbEvent) : Prop :=
  eventGet s.rtu.events junk = some .execute ∧ s.mbFrame = false

theorem stopOf_poll (s : Slave) (junk : Option MbEvent) :
    stopOf s (.poll junk) ≠ none ↔ s.FullFrame junk ∨ s.StaleExecute junk := by
  unfold FullFrame StaleExecute
  cases he : eventGet s.rtu.events junk with
  | none => simp [stopOf, he]
  | some e => cases e <;> simp [stopOf, he]

/-- Without a frame `EV_EXECUTE` comes from the stack, which is looked at where several events are
pending. -/
theorem Inv.staleExecute (h : s.Inv) {junk : Option MbEvent} (hev : s.rtu.events ≠ ∅)
    (hstale : s.StaleExecute junk) : junk = some .execute ∧ 2 ≤ s.rtu.events.card := by
  obtain ⟨hget, hframe⟩ := hstale
  have hpos := Finset.card_pos.mpr (Finset.nonempty_iff_ne_empty.mpr hev)
  by_cases hone : s.rtu.events.card = 1
  · obtain ⟨e, he⟩ := Finset.card_eq_one.mp hone
    rw [he, eventGet_single, Option.some.injEq] at hget
    have hmem : MbEvent.execute ∈ s.rtu.events := by rw [he, hget]; exact Finset.mem_singleton_self _
    rw [h.execute hmem] at hframe
    cases hframe
  · refine ⟨?_, by omega⟩
    have hnone : ([.ready, .frameReceived, .execute, .frameSent] : List MbEvent).find?
        (fun e => s.rtu.events = {e}) = none := by
      refine List.find?_eq_none.mpr fun e _ he => hone ?_
      rw [of_decide_eq_true he, Finset.card_singleton]
    unfold eventGet at hget
    rwa [hnone, Option.none_or] at hget

/-- In every interleaving of the interrupts with the polling thread, from the start on and
whatever the line carries, the memory outside of `ucRTUBuf` is neither written nor read, none of
the assertions in the interrupts fails, and the program is ended by a poll in two cases only: it
checks a frame while the receive position is the length of the array, or it is to execute one
before there was any, which takes several pending events and a stack that names `EV_EXECUTE`. -/
theorem slave_safe {rtuBuf : Mem} {data : MbData} {s s' : Slave} {t : Turn}
    (h : Reach step Always (start rtuBuf data) s) (hstep : step s t = some s') :
    (∀ q, mbSerPduSizeMax ≤ q → s'.rtu.rtuBuf q = s.rtu.rtuBuf q) ∧
      step s.clip t = some s'.clip ∧
      (s'.stopped ≠ none ↔ ∃ junk, t = .poll junk ∧ (s.FullFrame junk ∨ s.StaleExecute junk)) ∧
      (∀ junk, t = .poll junk → s.StaleExecute junk →
        junk = some .execute ∧ 2 ≤ s.rtu.events.card) ∧
      ∀ junk e, t = .poll junk → s.rtu.events = {e} →
        (s'.stopped ≠ none ↔ e = .frameReceived ∧ s.rtu.rcvBufferPos = mbSerPduSizeMax) := by
  have hinv := reach_inv h
  have hkeeps := step_keeps hinv hstep
  have hpoll : ∀ junk, t = .poll junk → s.rtu.events ≠ ∅ := by
    rintro junk rfl hev
    unfold step at hstep
    split at hstep
    · cases hstep
    · simp [hev] at hstep
  refine ⟨hkeeps.outside, by rw [step_clip hinv, hstep]; rfl, ?_,
    fun junk hj => hinv.staleExecute (hpoll junk hj), ?_⟩
  · rw [hkeeps.stopped]
    constructor
    · intro hstop
      cases t with
      | poll junk => exact ⟨junk, rfl, (stopOf_poll s junk).mp hstop⟩
      | rx b | txEmpty | t35 | reply => exact absurd rfl hstop
    · rintro ⟨junk, rfl, hcase⟩
      exact (stopOf_poll s junk).mpr hcase
  · rintro junk e rfl he
    rw [hkeeps.stopped, stopOf_poll]
    have hnot : ¬ s.StaleExecute junk := by
      intro hstale
      have hcard := (hinv.staleExecute (hpoll junk rfl) hstale).2
      rw [he, Finset.card_singleton] at hcard
      omega
    unfold FullFrame
    rw [he, eventGet_single, Option.some.injEq]
    exact or_iff_left hnot

/-- All registers and coils zero, no command given. -/
def zeroData : MbData := ⟨.zero, fun _ => 0, fun _ => 0, fun _ => 0, ⟨[], by decide⟩⟩

theorem slave_safe_start :
    ∃ s', step (start (fun _ => 0) zeroData) .t35 = some s' ∧
      (∀ q, mbSerPduSizeMax ≤ q → s'.rtu.rtuBuf q = 0) ∧ s'.stopped = none := by
  have hstep : step (start (fun _ => 0) zeroData) .t35 = some ((start (fun _ => 0) zeroData).isr
      (start (fun _ => 0) zeroData).rtu.xMBRTUTimerT35Expired) := rfl
  obtain ⟨hout, -, hstops, -⟩ := slave_safe .start hstep
  refine ⟨_, hstep, hout, ?_⟩
  by_contra hstop
  obtain ⟨junk, hpoll, -⟩ := hstops.mp hstop
  cases hpoll

end Slave

end SC04Monitor.Modbus
