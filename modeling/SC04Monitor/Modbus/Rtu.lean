import SC04Monitor.Lib.Silence
import SC04Monitor.Modbus.MbCrc
import Mathlib.Data.Finset.Insert

/-! # The RTU framing of the slave

`mbrtu.c` with what it uses of the port. The receiver and the transmitter run in interrupts:
a byte arrives, the transmit register is empty, the line has been silent for 3.5 characters.
They share `ucRTUBuf` with the polling thread.

`USE_FULL_ASSERT` is defined, so `assert_param` is compiled in and `assert_failed` never
returns. A function that asserts is fallible here. -/

namespace SC04Monitor.Modbus
open SC04Monitor.Lib.ByteMem SC04Monitor.Lib.Silence SC04Monitor.Record

/-! ## The state -/

/-- `eMBRcvState`. -/
inductive RcvState
  | rxInit | rxIdle | rxRcv | rxError
  deriving DecidableEq

/-- `eMBSndState`. -/
inductive SndState
  | txIdle | txXmit
  deriving DecidableEq

/-- `eMBEventType`. -/
inductive MbEvent
  | ready | frameReceived | execute | frameSent
  deriving DecidableEq

/-- Where the slave stops for good. -/
inductive Stop
  | assertFailed  -- the endless loop of `assert_failed`
  | nullFrame  -- `ucMBFrame` is used before a frame was received
  deriving DecidableEq

/-- The variables of `mbrtu.c`, the registers of the port, and the bytes put on the line. -/
structure Rtu where
  rcvState : RcvState
  sndState : SndState
  rtuBuf : Mem
  /-- `pucSndBufferCur`, as an index of `ucRTUBuf`. -/
  sndBufferCur : Nat
  sndBufferCount : Nat
  rcvBufferPos : Nat
  rxEnabled : Bool
  txEnabled : Bool
  timer : Bool
  /-- `xSlaveOsEvent`. -/
  events : Finset MbEvent
  line : List UInt8

def mbSerPduSizeMin : Nat := 4
def mbSerPduSizeMax : Nat := 256
def mbSerPduSizeCrc : Nat := 2
def mbSerPduPduOff : Nat := 1

namespace Rtu

/-! ## The port -/

/-- `vMBPortSerialEnable`. -/
def serialEnable (s : Rtu) (rxEnable txEnable : Bool) : Rtu :=
  { s with rxEnabled := rxEnable, txEnabled := txEnable }

/-- `vMBPortTimersEnable`: the timer starts anew. -/
def timersEnable (s : Rtu) : Rtu := { s with timer := true }

/-- `vMBPortTimersDisable`. -/
def timersDisable (s : Rtu) : Rtu := { s with timer := false }

/-- `xMBPortEventPost`. -/
def eventPost (s : Rtu) (e : MbEvent) : Rtu := { s with events := insert e s.events }

/-- `xMBPortSerialPutByte`. -/
def serialPutByte (s : Rtu) (b : UInt8) : Rtu := { s with line := s.line ++ [b] }

/-! ## The functions of `mbrtu.c` -/

/-- `eMBRTUStart`. -/
def eMBRTUStart (s : Rtu) : Rtu :=
  ({ s with rcvState := .rxInit }.serialEnable true false).timersEnable

/-- `eMBRTUReceive`: the address and the length of the PDU, or `MB_EIO`. -/
def eMBRTUReceive (s : Rtu) : Except Stop (Option (UInt8 × Nat)) :=
  if s.rcvBufferPos < mbSerPduSizeMax then
    if mbSerPduSizeMin ≤ s.rcvBufferPos ∧ usMBCRC16 s.rtuBuf 0 s.rcvBufferPos = 0 then
      .ok (some (s.rtuBuf 0, s.rcvBufferPos - mbSerPduPduOff - mbSerPduSizeCrc))
    else .ok none
  else .error .assertFailed

/-- `eMBRTUSend` of `usLength` bytes at `pucFrame`; `false` stands for `MB_EIO`. -/
def eMBRTUSend (s : Rtu) (ucSlaveAddress : UInt8) (pucFrame usLength : Nat) : Bool × Rtu :=
  if s.rcvState = .rxIdle then
    let sndBufferCur := pucFrame - 1
    let buf := writeBytes s.rtuBuf sndBufferCur [ucSlaveAddress]
    let count := 1 + usLength
    let usCRC16 := usMBCRC16 buf sndBufferCur count
    let buf := writeBytes buf count [usCRC16.toUInt8]
    let buf := writeBytes buf (count + 1) [(usCRC16 >>> 8).toUInt8]
    (true, { s with
      rtuBuf := buf, sndBufferCur, sndBufferCount := count + 2,
      sndState := .txXmit }.serialEnable false true)
  else (false, s)

/-- `xMBRTUReceiveFSM` on the byte `ucByte`. -/
def xMBRTUReceiveFSM (s : Rtu) (ucByte : UInt8) : Except Stop Rtu :=
  if s.sndState = .txIdle then
    match s.rcvState with
    | .rxInit | .rxError => .ok s.timersEnable
    | .rxIdle =>
      .ok { s with
        rtuBuf := writeBytes s.rtuBuf 0 [ucByte], rcvBufferPos := 1,
        rcvState := .rxRcv }.timersEnable
    | .rxRcv =>
      if s.rcvBufferPos < mbSerPduSizeMax then
        .ok { s with
          rtuBuf := writeBytes s.rtuBuf s.rcvBufferPos [ucByte],
          rcvBufferPos := s.rcvBufferPos + 1 }.timersEnable
      else .ok { s with rcvState := .rxError }.timersEnable
  else .error .assertFailed

/-- `xMBRTUTransmitFSM`. -/
def xMBRTUTransmitFSM (s : Rtu) : Except Stop Rtu :=
  if s.rcvState = .rxIdle then
    match s.sndState with
    | .txIdle => .ok (s.serialEnable true false)
    | .txXmit =>
      if s.sndBufferCount ≠ 0 then
        .ok { s.serialPutByte (s.rtuBuf s.sndBufferCur) with
          sndBufferCur := s.sndBufferCur + 1, sndBufferCount := s.sndBufferCount - 1 }
      else .ok { (s.eventPost .frameSent).serialEnable true false with sndState := .txIdle }
  else .error .assertFailed

/-- `xMBRTUTimerT35Expired`. -/
def xMBRTUTimerT35Expired (s : Rtu) : Except Stop Rtu :=
  match s.rcvState with
  | .rxInit => .ok { (s.eventPost .ready).timersDisable with rcvState := .rxIdle }
  | .rxRcv => .ok { (s.eventPost .frameReceived).timersDisable with rcvState := .rxIdle }
  | .rxError => .ok { s.timersDisable with rcvState := .rxIdle }
  | .rxIdle => .error .assertFailed

end Rtu

end SC04Monitor.Modbus
