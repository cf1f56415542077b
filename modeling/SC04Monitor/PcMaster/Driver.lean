import SC04Monitor.Lib.Steps
import SC04Monitor.Lib.WordMem

/-! # The PC master driver

`pcmaster.c`: a PC reads and writes the memory of the board over the serial line, watches
variables with a scope and has them sampled by a recorder. `PutChar` is given the bytes of the
line, `PC_M1_pcmasterdrvRecorder` is called every 10 ms.

The memory of the board is `mem`; the variables of the driver are beside it, but for the
recorder buffer, which is in it. The PC can name any address, also those of registers and of the
driver's own variables: `plain` tells where the memory is neither, and what becomes of an access
elsewhere is not described. So `none` is a division by zero, a byte behind `OutBuffer` or behind
the message buffer, or such an access. -/

namespace SC04Monitor.PcMaster
open SC04Monitor.Lib.ByteMem SC04Monitor.Lib.WordMem SC04Monitor.Lib.Steps

/-! ## The state -/

/-- The bits of `status` that the commands and the recorder use, and the one of the receiver that
a command can reach. Below them are four bits that name the type of the trigger variable. -/
structure Status where
  stdCmd : Bool
  recRunning : Bool
  recActivated : Bool
  recReadPretrig : Bool
  trgType : Nat

/-- A variable of the board. -/
structure VarDef where
  varSize : UInt8
  varAddr : Nat

/-- `pcmdrv_sScope`. -/
structure Scope where
  varCnt : UInt8
  varDef : Nat → VarDef

/-- `pcmdrv_sRecorder`. Words that are only ever set from a byte are bytes here; the unions are
memories of four bytes. -/
structure Recorder where
  cmd : UInt8
  trgMode : UInt8
  totalSmps : UInt16
  postTrigger : UInt16
  timeDiv : UInt16
  trgVarAddr : Nat
  trgVarSize : UInt8
  trgThreshold : Mem
  varCnt : UInt8
  varDef : Nat → VarDef
  recPos : UInt16
  recSetLen : UInt16
  recToEnd : UInt16
  recTime : UInt16
  recLastVal : Mem

/-- What the commands and the recorder work on: the memory of the board, and variables of the
driver. -/
structure Board where
  dataBuff : Mem
  /-- `p_recBuff`. -/
  recBuff : Nat
  status : Status
  /-- `response.status` and `response.length`. -/
  response : UInt8 × UInt8
  appCmdSts : UInt8
  appCmdBuff : Mem
  scope : Scope
  recorder : Recorder
  recPretrigCount : UInt16
  mem : Mem
  /-- Addresses of ordinary memory that the driver has nothing in, neither variables nor stack. -/
  plain : Nat → Bool

/-- The driver: the rest of its variables, and the messages sent. -/
structure Pcm where
  board : Board
  pos : UInt16
  length : UInt8
  checkSum : UInt16
  /-- The bits `ST_STARTED` and `ST_ST_CHAR_REC` of `status`. -/
  started : Bool
  charRec : Bool
  /-- What `fprint` was given. -/
  sent : List (List UInt8)

def dataBuffSize : UInt8 := 0x80
def dataBuffLen : Nat := 130  -- the bytes of `pcmdrvDataBuff`
def outBufSize : Nat := 0x40  -- `Inhr7_OUT_BUF_SIZE`
def recSize : UInt16 := 0x2000
def recBlock : Nat := 0x4000  -- the bytes that the recorder buffer is given from the heap
def appCmdSize : UInt8 := 0x04
def timeBase : UInt16 := 0x8030
def globVerMajor : UInt8 := 0x05
def globVerMinor : UInt8 := 0x00

/-- `PC_MASTER_IDT_STRING`. -/
def idtString : List UInt8 := "PC Master communication !".toList.map fun c => c.val.toUInt8

def START : UInt8 := 0x2B  -- '+'

def stcOk : UInt8 := 0x00
def stcRecRun : UInt8 := 0x01
def stcRecDone : UInt8 := 0x02
def stcInvCmd : UInt8 := 0x81
def stcCmdSErr : UInt8 := 0x82
def stcCmdBuffOvf : UInt8 := 0x83
def stcRspBuffOvf : UInt8 := 0x84
def stcInvBuff : UInt8 := 0x85
def stcInvSize : UInt8 := 0x86
def stcServBusy : UInt8 := 0x87
def stcNotInit : UInt8 := 0x88
def appCmdNoCmd : UInt8 := 0xFF
def appCmdRunning : UInt8 := 0xFE

/-! ## Copies -/

/-- The bytes that `memCopy` copies for a size that is cast to `Int8`. It counts down before it looks,
so that -128 has wrapped around to 127 by then. -/
def int8Size (size : UInt8) : Nat := if size ≤ 0x80 then size.toNat else 0

/-- `memCopy` inside the memory of the board, byte by byte. -/
def memCopy (m : Mem) : (srcAddr destAddr size : Nat) → Mem
  | _, _, 0 => m
  | srcAddr, destAddr, size + 1 =>
    memCopy (writeBytes m destAddr [m srcAddr]) (srcAddr + 1) (destAddr + 1) size

/-- The pointer that stands at `p`. -/
def addrAt (m : Mem) (p : Nat) : Nat :=
  (m p).toNat + (m (p + 1)).toNat * 0x100 + (m (p + 2)).toNat * 0x10000 +
    (m (p + 3)).toNat * 0x1000000

/-- The bytes of a pointer. -/
def addrBytes (a : Nat) : List UInt8 := (List.range 4).map fun i => (a >>> (8 * i)).toUInt8

/-- `(status & 0xfff0) | (size << 1) + signed`: a `signed` that is no flag reaches other bits,
for a size of up to four bytes not those above `recRunning`. The bits of `started` and `charRec`
are cleared behind every command, so that nobody sees them set. -/
def Status.setType (status : Status) (trgVarSize trgVarSigned : UInt8) : Status :=
  let x := trgVarSize.toNat * 2 + trgVarSigned.toNat
  { status with
    trgType := x % 16, stdCmd := status.stdCmd || x.testBit 6,
    recRunning := status.recRunning || x.testBit 8 }

namespace Board

/-! ## Access to memory -/

/-- The recorder buffer is described as well. -/
def describedAt (s : Board) (a : Nat) : Bool :=
  s.plain a || (decide (s.recBuff ≤ a) && decide (a < s.recBuff + recBlock))

/-- What happens to `n` bytes from `a` on is described. -/
def Described (s : Board) (a n : Nat) : Prop :=
  a + n ≤ 0x100000000 ∧ ∀ i < n, s.describedAt (a + i) = true

instance (s : Board) (a n : Nat) : Decidable (s.Described a n) := inferInstanceAs (Decidable (_ ∧ _))

/-- What comes of accesses to some addresses, each with a number of bytes. -/
def accessing (s : Board) (l : List (Nat × Nat)) (t : Option Board) : Option Board :=
  if ∀ r ∈ l, s.Described r.1 r.2 then t else none

/-! ## Responses -/

/-- `respPrepare`. -/
def respPrepare (s : Board) (sts len : UInt8) : Board := { s with response := (sts, len) }

/-- Data for the PC, behind the place of the status byte. -/
def returnData (s : Board) (data : List UInt8) : Board :=
  { s with dataBuff := writeBytes s.dataBuff 1 data }

/-! ## Reading variables -/

/-- `PCMDRV_CMD_READVAR8EX`, `16EX` and `32EX`. -/
def readVarEx (len : UInt8) (s : Board) : Board :=
  (s.returnData (readBytes s.mem (addrAt s.dataBuff 1) len.toNat)).respPrepare stcOk (len + 1)

/-- `PCMDRV_CMD_READMEMEX`. -/
def readMemEx (s : Board) : Board :=
  let length := s.dataBuff 2
  if length ≤ dataBuffSize then
    (s.returnData (readBytes s.mem (addrAt s.dataBuff 3) (int8Size length))).respPrepare stcOk
      (length + 1)
  else s.respPrepare stcRspBuffOvf 1

/-- The loop of `PCMDRV_CMD_READSCOPE`, and `index` behind it. -/
def readScopeLoop (scope : Scope) (mem : Mem) : (n i : Nat) → (index : UInt8) → Mem → Mem × UInt8
  | 0, _, index, dataBuff => (dataBuff, index)
  | n + 1, i, index, dataBuff =>
    let v := scope.varDef i
    readScopeLoop scope mem n (i + 1) (index + v.varSize)
      (writeBytes dataBuff (1 + index.toNat) (readBytes mem v.varAddr (int8Size v.varSize)))

/-- `PCMDRV_CMD_READSCOPE`. -/
def readScope (s : Board) : Board :=
  if s.scope.varCnt = 0 then s.respPrepare stcNotInit 1
  else
    let r := readScopeLoop s.scope s.mem s.scope.varCnt.toNat 0 0 s.dataBuff
    { s with dataBuff := r.1 }.respPrepare stcOk (r.2 + 1)

/-- `PCMDRV_CMD_GETINFO`. -/
def getInfo (s : Board) : Board :=
  (s.returnData ([0x03, 0x0C, 0x01, globVerMajor, globVerMinor, dataBuffSize - 1, recSize.toUInt8,
    (recSize >>> 8).toUInt8, timeBase.toUInt8, (timeBase >>> 8).toUInt8] ++
    idtString)).respPrepare stcOk (1 + 10 + 25)

/-! ## Writing memory -/

/-- `PCMDRV_CMD_WRITEMEMEX`. -/
def writeMemEx (s : Board) : Board :=
  let data := readBytes s.dataBuff 7 (int8Size (s.dataBuff 2))
  { s with mem := writeBytes s.mem (addrAt s.dataBuff 3) data }.respPrepare stcOk 1

/-- The loop of `PCMDRV_CMD_WRITEMEMMASKEX`. -/
def writeMaskLoop (dataBuff : Mem) (length varaddr : Nat) : (n i : Nat) → Mem → Mem
  | 0, _, mem => mem
  | n + 1, i, mem =>
    let mask := dataBuff (7 + i + length)
    writeMaskLoop dataBuff length varaddr n (i + 1)
      (writeBytes mem varaddr [dataBuff (7 + i) &&& mask ||| mem varaddr &&& ~~~mask])

/-- `PCMDRV_CMD_WRITEMEMMASKEX`; the address stays the same. -/
def writeMemMaskEx (s : Board) : Board :=
  let length := (s.dataBuff 2).toNat
  let mem := writeMaskLoop s.dataBuff length (addrAt s.dataBuff 3) length 0 s.mem
  { s with mem }.respPrepare stcOk 1

/-! ## Application commands -/

/-- `PCMDRV_CMD_GETAPPCMDSTS`. -/
def getAppCmdSts (s : Board) : Board :=
  if appCmdSize = 0 then s.respPrepare stcInvCmd 1
  else (s.returnData [s.appCmdSts]).respPrepare stcOk 2

/-- `PCMDRV_CMD_CALLAPPCMD`. -/
def callAppCmd (s : Board) : Board :=
  if appCmdSize = 0 then s.respPrepare stcInvCmd 1
  else
    let length := s.dataBuff 1
    if appCmdSize < length then s.respPrepare stcInvBuff 1
    else if s.appCmdSts = appCmdRunning then s.respPrepare stcServBusy 1
    else
      { s with
        appCmdBuff := writeBytes s.appCmdBuff 0 (readBytes s.dataBuff 2 (int8Size length)),
        appCmdSts := appCmdRunning }.respPrepare stcOk 1

/-! ## The scope -/

/-- The definition of a variable in a command, size and address. -/
def varDefAt (dataBuff : Mem) (p : Nat) : VarDef := ⟨dataBuff p, addrAt dataBuff (p + 1)⟩

/-- `PCMDRV_CMD_SETUPSCOPEEX`. -/
def setupScopeEx (s : Board) : Board :=
  let cnt := s.dataBuff 2
  if cnt = 0 ∨ 8 < cnt then s.respPrepare stcInvBuff 1
  else
    let varDef := fun i =>
      if i < cnt.toNat then varDefAt s.dataBuff (3 + 5 * i) else s.scope.varDef i
    if ∃ i < cnt.toNat, (varDef i).varSize = 0 ∨ (varDef i).varSize = 3 ∨ 4 < (varDef i).varSize then
      { s with scope := ⟨0, varDef⟩ }.respPrepare stcInvSize 1
    else { s with scope := ⟨cnt, varDef⟩ }.respPrepare stcOk 1

/-! ## The recorder -/

/-- `PCMDRV_CMD_STARTREC`. -/
def startRec (s : Board) : Board :=
  if recSize = 0 then s.respPrepare stcInvCmd 1
  else if s.recorder.varCnt ≠ 0 then
    if s.status.recRunning = false then
      { s with
        recorder := { s.recorder with
          recTime := s.recorder.timeDiv,
          recLastVal := writeBytes s.recorder.recLastVal 0
            (readBytes s.mem s.recorder.trgVarAddr (int8Size s.recorder.trgVarSize)) },
        status := { s.status with recActivated := true } }.respPrepare stcOk 1
    else s.respPrepare stcRecRun 1
  else s.respPrepare stcNotInit 1

/-- `PCMDRV_CMD_STOPREC`. -/
def stopRec (s : Board) : Board :=
  if recSize = 0 then s.respPrepare stcInvCmd 1
  else if s.recorder.varCnt ≠ 0 then
    if s.status.recActivated then
      if s.status.recRunning then s.respPrepare stcRecDone 1
      else
        { s with
          recorder := { s.recorder with recToEnd := s.recorder.postTrigger },
          status := { s.status with recRunning := true } }.respPrepare stcOk 1
    else s.respPrepare stcRecDone 1
  else s.respPrepare stcNotInit 1

/-- `PCMDRV_CMD_GETRECBUFFEX`; `none` is a division by zero. -/
def getRecBuffEx (s : Board) : Option Board :=
  if recSize = 0 then some (s.respPrepare stcInvCmd 1)
  else if s.recorder.varCnt ≠ 0 then
    if s.status.recRunning = false then
      if s.recorder.recSetLen = 0 then none
      else
        let tmp := s.recorder.recPos / s.recorder.recSetLen
        some ((s.returnData (addrBytes s.recBuff ++ wordBytes tmp)).respPrepare stcOk 7)
    else some (s.respPrepare stcServBusy 1)
  else some (s.respPrepare stcNotInit 1)

/-- `PCMDRV_CMD_GETRECSTS`: the recorder is taken for a `pcmdrv_sScope` here, whose `varCnt` is
the low byte of `cmd`. -/
def getRecSts (s : Board) : Board :=
  if recSize = 0 then s.respPrepare stcInvCmd 1
  else if s.recorder.cmd ≠ 0 then
    if s.status.recActivated = false then s.respPrepare stcRecDone 1
    else s.respPrepare stcRecRun 1
  else s.respPrepare stcNotInit 1

/-- `recSetLen`, the bytes of the first `n` variables. -/
def setLen (varDef : Nat → VarDef) : Nat → UInt16
  | 0 => 0
  | n + 1 => setLen varDef n + (varDef n).varSize.toUInt16

/-- A size that `PCMDRV_CMD_SETUPRECEX` refuses. -/
def badSize (v : VarDef) : Bool := v.varSize = 0 || v.varSize = 3

/-- `PCMDRV_CMD_SETUPRECEX`. -/
def setupRecEx (s : Board) : Board :=
  if recSize = 0 then s.respPrepare stcInvCmd 1
  else
    let b := s.dataBuff
    let status : Status := { s.status with recRunning := false, recActivated := false }
    let r : Recorder := { s.recorder with cmd := b 0, trgMode := b 2 }
    if 2 < r.trgMode then { s with status, recorder := r }.respPrepare stcInvBuff 1
    else
      let r : Recorder := { r with
        totalSmps := readWord b 3, postTrigger := readWord b 5, timeDiv := readWord b 7,
        trgVarAddr := addrAt b 9, trgVarSize := b 13 }
      if ¬ (r.trgVarSize = 1 ∨ r.trgVarSize = 2 ∨ r.trgVarSize = 4) then
        { s with status, recorder := { r with varCnt := 0 } }.respPrepare stcInvSize 1
      else
        let r : Recorder := { r with
          trgThreshold := writeBytes r.trgThreshold 0 (readBytes b 15 4), varCnt := b 19 }
        if r.varCnt = 0 ∨ 8 < r.varCnt then
          { s with status, recorder := { r with varCnt := 0 } }.respPrepare stcInvBuff 1
        else
          let status := status.setType r.trgVarSize (b 14)
          -- the loop ends at the first size that is refused, with the addresses before it set
          match (List.range r.varCnt.toNat).find? fun i => badSize (varDefAt b (20 + 5 * i)) with
          | some k =>
            let varDef := fun i =>
              if i < k then varDefAt b (20 + 5 * i)
              else if i = k then { r.varDef i with varSize := b (20 + 5 * i) } else r.varDef i
            { s with status, recorder := { r with varDef, varCnt := 0 } }.respPrepare stcInvSize 1
          | none =>
            let varDef := fun i =>
              if i < r.varCnt.toNat then varDefAt b (20 + 5 * i) else r.varDef i
            let recSetLen := setLen varDef r.varCnt.toNat
            let r : Recorder := { r with
              varDef, recPos := 0, recSetLen, recToEnd := 1, recTime := r.timeDiv,
              totalSmps := r.totalSmps * recSetLen }
            let status := status.setType r.trgVarSize (b 14)
            if r.totalSmps ≤ recSize then
              { s with
                status := { status with recActivated := true },
                recorder := { r with
                  recLastVal := writeBytes r.recLastVal 0
                    (readBytes s.mem r.trgVarAddr (int8Size r.trgVarSize)) } }.respPrepare stcOk 1
            else
              { s with status, recorder := { r with varCnt := 0 } }.respPrepare stcInvSize 1

/-! ## The recorder routine -/

/-- `readRecSample`: `n` variables from the `i`-th one on. -/
def readRecSample (recBuff : Nat) (varDef : Nat → VarDef) :
    (n i : Nat) → (position : UInt16) → Mem → Mem × UInt16
  | 0, _, position, mem => (mem, position)
  | n + 1, i, position, mem =>
    let v := varDef i
    readRecSample recBuff varDef n (i + 1) (position + v.varSize.toUInt16)
      (memCopy mem v.varAddr (recBuff + position.toNat) (int8Size v.varSize))

/-- The types of a trigger variable, with their sizes: `REC_CHAR_UNSIGNED` to `REC_LONG_SIGNED`. -/
def recTypes : List (Nat × Nat) := [(2, 1), (3, 1), (4, 2), (5, 2), (8, 4), (9, 4)]

/-- A member of the unions, by the type. -/
def trgVal (trgType : Nat) (u : Mem) : Int :=
  match trgType with
  | 2 => (u 0).toNat
  | 3 => (u 0).toInt8.toInt
  | 4 => (readWord u 0).toNat
  | 5 => (readWord u 0).toInt16.toInt
  | 8 => addrAt u 0
  | _ => (addrAt u 0).toUInt32.toInt32.toInt

/-- The variable has come over the threshold, or under it. -/
def triggered (r : Recorder) (trgType : Nat) (actual : Mem) : Bool :=
  let threshold := trgVal trgType r.trgThreshold
  r.trgMode = 1 && threshold ≤ trgVal trgType actual && trgVal trgType r.recLastVal < threshold ||
  r.trgMode = 2 && trgVal trgType actual ≤ threshold && threshold < trgVal trgType r.recLastVal

/-- The samples before the trigger, counted until there are enough of them. -/
def countPretrig (s : Board) : Board :=
  let r := s.recorder
  if s.status.recReadPretrig = false then
    if (r.totalSmps.toNat : Int) - r.recSetLen.toNat * r.postTrigger.toNat ≤
        s.recPretrigCount.toNat then
      { s with status := { s.status with recReadPretrig := true } }
    else { s with recPretrigCount := s.recPretrigCount + r.recSetLen }
  else s

/-- New samples, and the wrap around. -/
def takeSample (s : Board) : Board :=
  let r := s.recorder
  let sample := readRecSample s.recBuff r.varDef r.varCnt.toNat 0 r.recPos s.mem
  let recPos := if r.totalSmps ≤ sample.2 then 0 else sample.2
  { s with mem := sample.1, recorder := { r with recPos } }

/-- The trigger, or one sample less to come behind it. -/
def checkTrigger (s : Board) (trgType : Nat) (actual : Mem) : Board :=
  if s.status.recRunning = false ∧ s.status.recReadPretrig = true then
    if triggered s.recorder trgType actual then
      { s with
        status := { s.status with recRunning := true },
        recorder := { s.recorder with recToEnd := s.recorder.postTrigger - 1 } }
    else s
  else if s.status.recReadPretrig then
    { s with recorder := { s.recorder with recToEnd := s.recorder.recToEnd - 1 } }
  else s

/-- The buffer is full. -/
def checkEnd (s : Board) : Board :=
  if s.recorder.recToEnd = 0 then
    { s with
      status := { s.status with recRunning := false, recActivated := false, recReadPretrig := false },
      recorder := { s.recorder with recToEnd := 1 } }
  else s

/-- A case of the switch in `PC_M1_pcmasterdrvRecorder`. -/
def recorderCase (s : Board) (trgType trgSize : Nat) (actual : Mem) : Board :=
  let s := (s.checkTrigger trgType actual).checkEnd
  { s with recorder := { s.recorder with
      recLastVal := writeBytes s.recorder.recLastVal 0 (readBytes actual 0 trgSize), recTime := 0 } }

/-- What `PC_M1_pcmasterdrvRecorder` does; `actual` has on entry what is on the stack. -/
def recorderRoutine (s : Board) (actual : Mem) : Board :=
  let r := s.recorder
  if s.status.recActivated then
    if r.recTime = r.timeDiv then
      let s := s.countPretrig
      let actual := writeBytes actual 0 (readBytes s.mem r.trgVarAddr (int8Size r.trgVarSize))
      let s := s.takeSample
      match recTypes.find? fun t => t.1 = s.status.trgType with
      | some t => s.recorderCase t.1 t.2 actual
      | none => s
    else { s with recorder := { r with recTime := r.recTime + 1 } }
  else { s with recPretrigCount := 0, status := { s.status with recReadPretrig := false } }

/-- The variables that a call of the recorder routine reads. -/
def sampled (s : Board) : List (Nat × Nat) :=
  let r := s.recorder
  if s.status.recActivated = true ∧ r.recTime = r.timeDiv then
    (r.trgVarAddr, int8Size r.trgVarSize) ::
      (List.range r.varCnt.toNat).map fun i => ((r.varDef i).varAddr, int8Size (r.varDef i).varSize)
  else []

/-- `PC_M1_pcmasterdrvRecorder`. -/
def pcmasterdrvRecorder (s : Board) (actual : Mem) : Option Board :=
  s.accessing s.sampled (some (s.recorderRoutine actual))

/-! ## Decoding -/

/-- The cases of `messageDecode`. -/
def commands : List (UInt8 × (Board → Option Board)) :=
  [(0xE0, fun s => some (readVarEx 1 s)), (0xE1, fun s => some (readVarEx 2 s)),
   (0xE2, fun s => some (readVarEx 4 s)), (0xC5, fun s => some s.readScope),
   (0xC6, fun s => some s.getAppCmdSts), (0xC0, fun s => some s.getInfo),
   (0xC1, fun s => some s.startRec), (0xC2, fun s => some s.stopRec), (0xC9, getRecBuffEx),
   (0xC3, fun s => some s.getRecSts), (0x0A, fun s => some s.setupScopeEx),
   (0x0B, fun s => some s.setupRecEx), (0x04, fun s => some s.readMemEx),
   (0x05, fun s => some s.writeMemEx), (0x06, fun s => some s.writeMemMaskEx),
   (0x10, fun s => some s.callAppCmd)]

/-- The memory that a command reads or writes. -/
def accesses (s : Board) : List (Nat × Nat) :=
  let b := s.dataBuff
  let r := s.recorder
  match (b 0).toNat with
  | 0xE0 => [(addrAt b 1, 1)]
  | 0xE1 => [(addrAt b 1, 2)]
  | 0xE2 => [(addrAt b 1, 4)]
  | 0xC5 => (List.range s.scope.varCnt.toNat).map fun i =>
      ((s.scope.varDef i).varAddr, int8Size (s.scope.varDef i).varSize)
  | 0xC1 =>
    if r.varCnt ≠ 0 ∧ s.status.recRunning = false then [(r.trgVarAddr, int8Size r.trgVarSize)] else []
  -- the trigger variable is read at the end of a set-up that is accepted
  | 0x0B => if s.setupRecEx.status.recActivated then [(addrAt b 9, int8Size (b 13))] else []
  | 0x04 => if b 2 ≤ dataBuffSize then [(addrAt b 3, int8Size (b 2))] else []
  | 0x05 => [(addrAt b 3, int8Size (b 2))]
  | 0x06 => if b 2 ≠ 0 then [(addrAt b 3, 1)] else []
  | _ => []

/-- The bytes of the buffer that a command reads by a length that nobody checks. -/
def bufferUsed (s : Board) : Nat :=
  let b := s.dataBuff
  match (b 0).toNat with
  | 0x05 => 7 + int8Size (b 2)
  | 0x06 => 7 + 2 * (b 2).toNat
  | _ => 0

/-- The switch of `messageDecode`. -/
def decode (s : Board) : Option Board :=
  match commands.find? fun c => c.1 = s.dataBuff 0 with
  | some c => c.2 s
  | none => some (s.respPrepare stcInvCmd 1)

/-- `messageDecode`. -/
def messageDecode (s : Board) : Option Board :=
  if s.bufferUsed ≤ dataBuffLen then s.accessing s.accesses s.decode else none

end Board

/-! ## Messages -/

namespace Pcm

/-- The loop of `sendResponse`: the bytes put into `OutBuffer`, and the checksum. -/
def sendLoop (dataBuff : Mem) : (length pos : Nat) → (checkSum : UInt16) → List UInt8 × UInt16
  | 0, _, checkSum => ([], checkSum)
  | length + 1, pos, checkSum =>
    let r := sendLoop dataBuff length (pos + 1) (checkSum + (dataBuff pos).toUInt16)
    ((if dataBuff pos = START then [dataBuff pos, START] else [dataBuff pos]) ++ r.1, r.2)

/-- What `sendResponse` puts into `OutBuffer`, and the checksum that it ends with. -/
def outBuffer (board : Board) : List UInt8 × UInt16 :=
  let r := sendLoop (writeBytes board.dataBuff 0 [board.response.1]) board.response.2.toNat 0 0
  let checkSum := (0 - r.2) &&& 0x00FF
  let last := if checkSum = 0x002B then [checkSum.toUInt8, START] else [checkSum.toUInt8]
  (START :: r.1 ++ last, checkSum)

/-- `sendResponse`, of the response that the board has prepared. -/
def sendResponse (s : Pcm) (board : Board) : Option Pcm :=
  let out := outBuffer board
  if out.1.length ≤ outBufSize then
    some { s with
      board := { board with dataBuff := writeBytes board.dataBuff 0 [board.response.1] },
      pos := board.response.2.toUInt16, length := 0xFF, checkSum := out.2, sent := s.sent ++ [out.1] }
  else none

/-- `messageData`. -/
def messageData (s : Pcm) (inChar : UInt8) (startOfMessage : Bool) : Option Pcm :=
  let b := s.board
  if startOfMessage = false then
    if s.started then
      if s.pos ≠ s.length.toUInt16 then
        if dataBuffLen ≤ s.pos.toNat then none else
        let b := { b with dataBuff := writeBytes b.dataBuff s.pos.toNat [inChar] }
        let s := { s with
          board := b, checkSum := s.checkSum + inChar.toUInt16, pos := s.pos + 1 }
        if b.status.stdCmd then
          let b := { b with status := { b.status with stdCmd := false } }
          let s := { s with board := b, length := inChar + 2 }
          if dataBuffSize < s.length then
            { s with started := false, charRec := false }.sendResponse (b.respPrepare stcCmdBuffOvf 1)
          else some s
        else some s
      else
        let checkSum := s.checkSum + inChar.toUInt16
        let r :=
          if checkSum &&& 0x00FF = 0 then b.messageDecode else some (b.respPrepare stcCmdSErr 1)
        r.bind { s with checkSum, started := false, charRec := false }.sendResponse
    else some s
  else
    let b := { b with dataBuff := writeBytes b.dataBuff 0 [inChar] }
    let s := { s with board := b, started := true, checkSum := inChar.toUInt16, pos := 1, length := 2 }
    if 0xC0 ≤ inChar then some { s with length := ((inChar &&& 0x30) >>> 3) + 1 }
    else some { s with board := { b with status := { b.status with stdCmd := true } } }

/-- `PutChar`. -/
def putChar (s : Pcm) (c : UInt8) : Option Pcm :=
  if s.charRec = false then
    if c = START then some { s with charRec := true } else s.messageData c false
  else (s.messageData c (c ≠ START)).map fun s => { s with charRec := false }

/-- `PutData`. -/
def putData (s : Pcm) (bytes : List UInt8) : Option Pcm := runSteps putChar s bytes

/-- After `PC_M1_PE_Init`, which gets the recorder buffer from the heap. -/
def init (recBuff : Nat) (plain : Nat → Bool) (mem : Mem) : Pcm :=
  let zeros : Mem := fun _ => 0
  { board :=
      { dataBuff := zeros, recBuff, status := ⟨false, false, false, false, 0⟩, response := (0, 0)
        appCmdSts := appCmdNoCmd, appCmdBuff := zeros, scope := ⟨0, fun _ => ⟨0, 0⟩⟩
        recorder := ⟨0, 0, 0, 0, 0, 0, 0, zeros, 0, fun _ => ⟨0, 0⟩, 0, 0, 0, 0, zeros⟩
        recPretrigCount := 0, mem, plain }
    pos := 0, length := 0, checkSum := 0, started := false, charRec := false, sent := [] }

/-- On a small board: the variables of the driver lie between 0x1000 and the recorder buffer. -/
def smallBoard (mem : Mem) : Pcm := init 0x8000 (fun a => a < 0x1000) mem

end Pcm

end SC04Monitor.PcMaster
