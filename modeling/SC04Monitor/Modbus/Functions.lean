import SC04Monitor.Modbus.Coils

/-! # The function handlers

`mbfuncholding.c`, `mbfuncinput.c`, `mbfunccoils.c`, `mbfuncdisc.c` and `mbfuncother.c`: a
handler is given the PDU of a request in place and leaves the PDU of the response there. What
it returns is the exception; its response counts only if there is none.

A PDU lies in a buffer `buf` from `pucFrame` on. Nothing tells a handler where it ends but
`usLen`, and most look at that only once. -/

namespace SC04Monitor.Modbus
open SC04Monitor.Lib.ByteMem

/-- `eMBException`, as far as the handlers give it. -/
inductive MbException
  | none | illegalFunction | illegalDataAddress | illegalDataValue
  deriving DecidableEq

def MbException.code : MbException → UInt8
  | .none => 0x00
  | .illegalFunction => 0x01
  | .illegalDataAddress => 0x02
  | .illegalDataValue => 0x03

/-- `prveMBError2Exception`. -/
def prveMBError2Exception : MbErrorCode → MbException
  | .noErr => .none
  | .noReg => .illegalDataAddress

/-! ## The data behind the handlers -/

def mbFuncOtherRepSlaveidBuf : Nat := 32

/-- `ucMBSlaveID` up to `usMBSlaveIDLen`. -/
structure SlaveId where
  bytes : List UInt8
  fits : bytes.length < mbFuncOtherRepSlaveidBuf

/-- `eMBSetSlaveID`; it refuses what does not fit. -/
def eMBSetSlaveID (old : SlaveId) (ucSlaveID : UInt8) (xIsRunning : Bool)
    (pucAdditional : List UInt8) : Bool × SlaveId :=
  if h : pucAdditional.length + 2 < mbFuncOtherRepSlaveidBuf then
    (true, ⟨ucSlaveID :: (if xIsRunning then 0xFF else 0x00) :: pucAdditional, h⟩)
  else (false, old)

/-- What the handlers read and write. -/
structure MbData where
  app : MbApp
  /-- `usSRegInBuf`. -/
  regIn : Nat → UInt16
  /-- `ucSCoilBuf`. -/
  coil : Mem
  /-- `ucSDiscInBuf`. -/
  discIn : Mem
  slaveId : SlaveId

def sRegInputStart : Nat := 1
def sRegInputNregs : Nat := 200

/-- `eMBRegInputCB` of the slave: its result and the bytes put into the buffer. -/
def eMBRegInputCB (regIn : Nat → UInt16) (usAddress usNRegs : UInt16) : MbErrorCode × List UInt8 :=
  if sRegInputStart ≤ usAddress.toNat ∧
      usAddress.toNat + usNRegs.toNat ≤ sRegInputStart + sRegInputNregs then
    (.noErr, (List.range usNRegs.toNat).flatMap fun k =>
      frameBytes (regIn (usAddress.toNat - sRegInputStart + k)))
  else (.noReg, [])

/-! ## Handlers -/

/-- What a handler leaves. -/
structure Handled where
  exc : MbException
  buf : Mem
  usLen : Nat
  data : MbData

/-- The word at an offset of a PDU. -/
def pduWord (buf : Mem) (p : Nat) : UInt16 := frameWord (buf p) (buf (p + 1))

/-- Bytes for so many bits. -/
def bitBytes (n : UInt16) : UInt8 :=
  if n &&& 0x0007 ≠ 0 then (n / 8 + 1).toUInt8 else (n / 8).toUInt8

section
variable (buf : Mem) (pucFrame usLen : Nat) (d : MbData)

/-- The handler returns an exception and nothing has changed. -/
def refused (exc : MbException) : Handled := ⟨exc, buf, usLen, d⟩

/-- The end of a read: function code and byte count stand in the buffer before the callback is
called, whose bytes go behind them. -/
def readDone (func ucByteCount : UInt8) (r : MbErrorCode × List UInt8) (usCount : Nat)
    (d : MbData) : Handled :=
  let buf := writeBytes (writeBytes buf pucFrame [func, ucByteCount]) (pucFrame + 2) r.2
  ⟨prveMBError2Exception r.1, buf, if r.1 = .noErr then 2 + usCount else 2, d⟩

/-- `eMBFuncWriteHoldingRegister`. -/
def eMBFuncWriteHoldingRegister : Handled :=
  if usLen = 4 + 1 then
    let usRegAddress := pduWord buf (pucFrame + 1) + 1
    let r := eMBRegHoldingCB d.app (fun j => buf (pucFrame + 3 + j)) usRegAddress 1 .write
    ⟨prveMBError2Exception r.1, buf, usLen, { d with app := r.2.2 }⟩
  else refused buf usLen d .illegalDataValue

/-- `eMBFuncWriteMultipleHoldingRegister`. -/
def eMBFuncWriteMultipleHoldingRegister : Handled :=
  if 5 + 1 ≤ usLen then
    let usRegAddress := pduWord buf (pucFrame + 1) + 1
    let usRegCount := pduWord buf (pucFrame + 3)
    let ucRegByteCount := buf (pucFrame + 5)
    if 1 ≤ usRegCount ∧ usRegCount ≤ 0x0078 ∧ ucRegByteCount = (2 * usRegCount).toUInt8 then
      let r := eMBRegHoldingCB d.app (fun j => buf (pucFrame + 6 + j)) usRegAddress usRegCount .write
      ⟨prveMBError2Exception r.1, buf, if r.1 = .noErr then 5 else usLen, { d with app := r.2.2 }⟩
    else refused buf usLen d .illegalDataValue
  else refused buf usLen d .illegalDataValue

/-- `eMBFuncReadHoldingRegister`: the second byte of the count replaces the first one. -/
def eMBFuncReadHoldingRegister : Handled :=
  if usLen = 4 + 1 then
    let usRegAddress := pduWord buf (pucFrame + 1) + 1
    let usRegCount := (buf (pucFrame + 4)).toUInt16
    if 1 ≤ usRegCount ∧ usRegCount ≤ 0x007D then
      let r := eMBRegHoldingCB d.app (fun _ => 0) usRegAddress usRegCount .read
      readDone buf pucFrame 0x03 (usRegCount * 2).toUInt8 (r.1, r.2.1) (usRegCount.toNat * 2)
        { d with app := r.2.2 }
    else refused buf usLen d .illegalDataValue
  else refused buf usLen d .illegalDataValue

/-- `eMBFuncReadWriteMultipleHoldingRegister`: a request that is too short is answered with
itself. -/
def eMBFuncReadWriteMultipleHoldingRegister : Handled :=
  if 9 + 1 ≤ usLen then
    let usRegReadAddress := pduWord buf (pucFrame + 1) + 1
    let usRegReadCount := pduWord buf (pucFrame + 3)
    let usRegWriteAddress := pduWord buf (pucFrame + 5) + 1
    let usRegWriteCount := pduWord buf (pucFrame + 7)
    let ucRegWriteByteCount := buf (pucFrame + 9)
    if 1 ≤ usRegReadCount ∧ usRegReadCount ≤ 0x7D ∧ 1 ≤ usRegWriteCount ∧ usRegWriteCount ≤ 0x79 ∧
        2 * usRegWriteCount.toNat = ucRegWriteByteCount.toNat then
      let w := eMBRegHoldingCB d.app (fun j => buf (pucFrame + 10 + j)) usRegWriteAddress
        usRegWriteCount .write
      if w.1 = .noErr then
        let r := eMBRegHoldingCB w.2.2 (fun _ => 0) usRegReadAddress usRegReadCount .read
        readDone buf pucFrame 0x17 (usRegReadCount * 2).toUInt8 (r.1, r.2.1)
          (2 * usRegReadCount.toNat) { d with app := r.2.2 }
      else ⟨prveMBError2Exception w.1, buf, usLen, { d with app := w.2.2 }⟩
    else refused buf usLen d .illegalDataValue
  else refused buf usLen d .none

/-- `eMBFuncReadInputRegister`. -/
def eMBFuncReadInputRegister : Handled :=
  if usLen = 4 + 1 then
    let usRegAddress := pduWord buf (pucFrame + 1) + 1
    let usRegCount := pduWord buf (pucFrame + 3)
    if 1 ≤ usRegCount ∧ usRegCount < 0x007D then
      readDone buf pucFrame 0x04 (usRegCount * 2).toUInt8
        (eMBRegInputCB d.regIn usRegAddress usRegCount) (usRegCount.toNat * 2) d
    else refused buf usLen d .illegalDataValue
  else refused buf usLen d .illegalDataValue

/-- `eMBFuncReadCoils`. -/
def eMBFuncReadCoils : Handled :=
  if usLen = 4 + 1 then
    let usRegAddress := pduWord buf (pucFrame + 1) + 1
    let usCoilCount := pduWord buf (pucFrame + 3)
    if 1 ≤ usCoilCount ∧ usCoilCount < 0x07D0 then
      let ucNBytes := bitBytes usCoilCount
      let r := eMBRegCoilsCB d.coil (fun _ => 0) usRegAddress usCoilCount .read
      readDone buf pucFrame 0x01 ucNBytes (r.1, r.2.1) ucNBytes.toNat { d with coil := r.2.2 }
    else refused buf usLen d .illegalDataValue
  else refused buf usLen d .illegalDataValue

/-- `eMBFuncWriteCoil`. -/
def eMBFuncWriteCoil : Handled :=
  if usLen = 4 + 1 then
    let usRegAddress := pduWord buf (pucFrame + 1) + 1
    if buf (pucFrame + 4) = 0x00 ∧ (buf (pucFrame + 3) = 0xFF ∨ buf (pucFrame + 3) = 0x00) then
      let ucBuf := [if buf (pucFrame + 3) = 0xFF then 1 else 0, 0]
      let r := eMBRegCoilsCB d.coil (frameOf ucBuf) usRegAddress 1 .write
      ⟨prveMBError2Exception r.1, buf, usLen, { d with coil := r.2.2 }⟩
    else refused buf usLen d .illegalDataValue
  else refused buf usLen d .illegalDataValue

/-- `eMBFuncWriteMultipleCoils`. -/
def eMBFuncWriteMultipleCoils : Handled :=
  if 4 + 1 < usLen then
    let usRegAddress := pduWord buf (pucFrame + 1) + 1
    let usCoilCnt := pduWord buf (pucFrame + 3)
    let ucByteCount := buf (pucFrame + 5)
    let ucByteCountVerify := bitBytes usCoilCnt
    if 1 ≤ usCoilCnt ∧ usCoilCnt ≤ 0x07B0 ∧ ucByteCountVerify = ucByteCount then
      let r := eMBRegCoilsCB d.coil (fun j => buf (pucFrame + 6 + j)) usRegAddress usCoilCnt .write
      ⟨prveMBError2Exception r.1, buf, if r.1 = .noErr then 5 else usLen, { d with coil := r.2.2 }⟩
    else refused buf usLen d .illegalDataValue
  else refused buf usLen d .illegalDataValue

/-- `eMBFuncReadDiscreteInputs`. -/
def eMBFuncReadDiscreteInputs : Handled :=
  if usLen = 4 + 1 then
    let usRegAddress := pduWord buf (pucFrame + 1) + 1
    let usDiscreteCnt := pduWord buf (pucFrame + 3)
    if 1 ≤ usDiscreteCnt ∧ usDiscreteCnt < 0x07D0 then
      let ucNBytes := bitBytes usDiscreteCnt
      readDone buf pucFrame 0x02 ucNBytes (eMBRegDiscreteCB d.discIn usRegAddress usDiscreteCnt)
        ucNBytes.toNat d
    else refused buf usLen d .illegalDataValue
  else refused buf usLen d .illegalDataValue

end

/-- `eMBFuncReportSlaveID`: the length of the request does not matter. -/
def eMBFuncReportSlaveID (buf : Mem) (pucFrame _usLen : Nat) (d : MbData) : Handled :=
  ⟨.none, writeBytes buf (pucFrame + 1) d.slaveId.bytes, 1 + d.slaveId.bytes.length, d⟩

/-- `xFuncHandlers` up to the first entry without a function code. -/
def xFuncHandlers : List (UInt8 × (Mem → Nat → Nat → MbData → Handled)) :=
  [(17, eMBFuncReportSlaveID), (4, eMBFuncReadInputRegister), (3, eMBFuncReadHoldingRegister),
   (16, eMBFuncWriteMultipleHoldingRegister), (6, eMBFuncWriteHoldingRegister),
   (23, eMBFuncReadWriteMultipleHoldingRegister), (1, eMBFuncReadCoils), (5, eMBFuncWriteCoil),
   (15, eMBFuncWriteMultipleCoils), (2, eMBFuncReadDiscreteInputs)]

/-- The loop over `xFuncHandlers` in `eMBPoll`. -/
def dispatch (ucFunctionCode : UInt8) (buf : Mem) (pucFrame usLen : Nat) (d : MbData) : Handled :=
  match xFuncHandlers.find? fun h => h.1 = ucFunctionCode with
  | some h => h.2 buf pucFrame usLen d
  | none => refused buf usLen d .illegalFunction

end SC04Monitor.Modbus
