import SC04Monitor.Lib.ByteMem
import SC04Monitor.UserApp.DataStruct
import Mathlib.Data.List.FinRange

/-! # The CAN application

`canApp.cc`: the table of standard messages, the reassembly of received frames
and the copies between the CAN side (`CanBuf`) and the application side
(`AppBuf`). The two buffers lie one behind the other in the object `can`, so
they are one byte memory here: a fragment is stored at an address computed from
its packet number, which nothing keeps inside its own field. -/

namespace SC04Monitor.Can
open SC04Monitor.Lib.ByteMem SC04Monitor.UserApp

/-! ## The layout of `CanBuf` and `AppBuf` -/

/-- The fields of `CanBuf_config` and `AppBuf_config`, in declaration order. -/
inductive Field
  | chargeCmd (k : ModuleId)
  | status (k : ModuleId)
  | para (k : ModuleId)
  | wPara (k : ModuleId)
  | adRxChnn
  | reBoot
  | null
  deriving DecidableEq

namespace Field

/-- The offset of a field in its buffer. -/
def offset : Field → Nat
  | chargeCmd k => 8 * k
  | status k => 40 + 24 * k
  | para k => 160 + 24 * k
  | wPara k => 280 + 24 * k
  | adRxChnn => 400
  | reBoot => 416
  | null => 424

def size : Field → Nat
  | chargeCmd _ | reBoot | null => 8
  | status _ | para _ | wPara _ => 24
  | adRxChnn => 16

end Field

/-- `sizeof(CanBuf_config)`; `AppBuf` follows `CanBuf`. -/
def canBufSize : Nat := 432

/-- `&can.CanBuf.f`, counted from the start of `CanBuf`. -/
def canBuf (f : Field) : Nat := f.offset

/-- `&can.AppBuf.f`, counted from the start of `CanBuf`. -/
def appBuf (f : Field) : Nat := canBufSize + f.offset

/-! ## The message table -/

inductive Direction
  | tx  -- `CAN_TX_DIRC`, sent cyclically
  | rx  -- `CAN_RX_DIRC`, received
  | zx  -- `CAN_ZX_DIRC`, sent when triggered
  deriving DecidableEq

/-- The constants of `canApp.h` and `config.h` that the table uses. -/
def Direction.code : Direction → Nat
  | tx => 1
  | rx => 2
  | zx => 3

def port1 : Nat := 1
def port2 : Nat := 2

def canIdM1 : Nat := 0x11
def canIdCx : Nat := 0x1C
def canIdM1CX : Nat := 0x1D
def canIdAD : Nat := 0x1F

/-- `CAN_ID_C1` to `CAN_ID_C5`. -/
def canIdC (k : ModuleId) : Nat := k + 1

def canFuncCharge : Nat := 0x01
def canFuncReboot : Nat := 0x03
def canFuncSetPara : Nat := 0x04
def canFuncSPoll : Nat := 0x0D
def canFuncPPoll : Nat := 0x0E
def canFuncADPoll : Nat := 0x0F

/-- The constant members of `STD_MSG_CON_TB`. The two buffer pointers are
addresses of the memory above and never null; `callback` says whether the
function pointer is `can.MsgRx_Deal` or null. -/
structure StdMsg where
  canPort : Nat
  direction : Direction
  dest : Nat
  src : Nat
  funcId : Nat
  len : Nat
  sendTick : Nat
  canBuffData : Nat
  appBuffData : Nat
  callback : Bool

/-- `CAN_STD_FRAME_NUM`. -/
abbrev canStdFrameNum : Nat := 42

abbrev FrameId := Fin canStdFrameNum

abbrev MsgTable := FrameId → StdMsg

/-- A row of the table whose two buffers are the same field of `CanBuf` and of
`AppBuf`. -/
def row (port : Nat) (dir : Direction) (dest src func len tick : Nat) (f : Field) : StdMsg :=
  ⟨port, dir, dest, src, func, len, tick, canBuf f, appBuf f, dir = .rx⟩

/-- `_std_msg_table`. -/
def stdMsgRows : List StdMsg :=
  [0, 1, 2, 3, 4].map (fun k => row port1 .tx (canIdC k) canIdM1 canFuncCharge 8 10 (.chargeCmd k)) ++
  [0, 1, 2, 3, 4].map (fun k => row port1 .tx (canIdC k) canIdM1 canFuncSPoll 8 12 .null) ++
  [0, 1, 2, 3, 4].map (fun k => row port1 .tx (canIdC k) canIdM1 canFuncPPoll 8 300 .null) ++
  [0, 1, 2, 3, 4].map (fun k => row port1 .zx (canIdC k) canIdM1 canFuncSetPara 24 0 (.wPara k)) ++
  [0, 1, 2, 3, 4].map (fun k => row port1 .zx (canIdC k) canIdM1 canFuncCharge 8 0 (.chargeCmd k)) ++
  [0, 1, 2, 3, 4].map (fun k => row port1 .zx (canIdC k) canIdM1 canFuncPPoll 8 0 .null) ++
  [row port1 .zx canIdCx canIdM1 canFuncReboot 8 0 .reBoot] ++
  [0, 1, 2, 3, 4].map (fun k => row port1 .rx canIdM1CX (canIdC k) canFuncSPoll 24 0 (.status k)) ++
  [0, 1, 2, 3, 4].map (fun k => row port1 .rx canIdM1CX (canIdC k) canFuncPPoll 24 0 (.para k)) ++
  [row port2 .rx canIdM1 canIdAD canFuncADPoll 16 0 .adRxChnn]

theorem length_stdMsgRows : stdMsgRows.length = canStdFrameNum := rfl

def stdMsgTable : MsgTable := fun f => stdMsgRows.get (f.cast length_stdMsgRows.symm)

/-- `Module1_Set_Par` to `Module5_Set_Par` and the other indices of triggered
messages. -/
def moduleSetPar (k : ModuleId) : FrameId := ⟨15 + k, by unfold canStdFrameNum; omega⟩
def moduleCharge (k : ModuleId) : FrameId := ⟨20 + k, by unfold canStdFrameNum; omega⟩
def moduleReadPar (k : ModuleId) : FrameId := ⟨25 + k, by unfold canStdFrameNum; omega⟩
def reboot : FrameId := 30

/-! ## Frames -/

/-- A received frame (`CAN_RX_DATA_RAM`). -/
structure CanRx where
  canPort : Nat
  extId : Nat
  dlc : Nat
  data : Vector UInt8 8
  dlc_le : dlc ≤ 8

/-- A frame with eight data bytes. -/
def CanRx.full (canPort extId : Nat) (data : Vector UInt8 8) : CanRx :=
  ⟨canPort, extId, 8, data, Nat.le_refl 8⟩

/-- The members of `EXTID_UTYP`, bit fields from the least significant bit up:
`classID:4, packetID:5, sourceID:5, res:2, sinkID:5, func:5, prio:3, dummy:3`. -/
def packetID (id : Nat) : Nat := id / 2 ^ 4 % 2 ^ 5
def sourceID (id : Nat) : Nat := id / 2 ^ 9 % 2 ^ 5
def sinkID (id : Nat) : Nat := id / 2 ^ 16 % 2 ^ 5
def funcID (id : Nat) : Nat := id / 2 ^ 21 % 2 ^ 5

/-- The bytes a frame carries. -/
def CanRx.payload (p : CanRx) : List UInt8 := p.data.toList.take p.dlc

@[simp] theorem CanRx.length_payload (p : CanRx) : p.payload.length = p.dlc := by
  simp [CanRx.payload, p.dlc_le]

/-- A frame handed to `can_Tx_Push_Msg`. -/
structure CanTx where
  canPort : Nat
  extId : Nat
  ide : UInt8
  rtr : UInt8
  dlc : Nat
  data : List UInt8
  deriving DecidableEq

/-! ## The object `can` -/

/-- The members of `CanApp` with `clock` and `update` of the table, the static
byte counter of `MsgRx_Deal` and the pending `CanTask_Event_Trigger`. -/
structure CanApp where
  ram : Mem
  clock : FrameId → Nat
  update : FrameId → Bool
  dataLen : Nat
  canCnt : Nat
  canFltCnt : Fin 6 → Nat
  canStateWord : UInt16
  trigger : Bool

def CanApp.init : CanApp :=
  ⟨fun _ => 0, fun _ => 0, fun _ => false, 0, 0, fun _ => 0, 0x000F, false⟩

section
variable (tb : MsgTable)

/-- The packet number of the last fragment of a message. -/
def lastPacket (m : StdMsg) : Nat := (m.len - 1) / 8

/-- `CanApp::MsgRx_Deal`. -/
def msgRxDeal (s : CanApp) (p : CanRx) (frame : FrameId) : CanApp :=
  let pid := packetID p.extId
  let dataLen := if pid = 0 then 0 else s.dataLen
  let ram := writeBytes s.ram ((tb frame).canBuffData + pid * 8) p.payload
  let dataLen := (dataLen + p.dlc) % 2 ^ 16
  if pid = lastPacket (tb frame) then
    { s with
      ram
      update := if dataLen = (tb frame).len then Function.update s.update frame true else s.update
      dataLen := 0 }
  else { s with ram, dataLen }

/-- The table entry a frame belongs to. -/
def accepts (m : StdMsg) (p : CanRx) : Bool :=
  m.direction = .rx && m.canPort = p.canPort && m.src = sourceID p.extId &&
    m.dest = sinkID p.extId && m.funcId = funcID p.extId && m.callback

/-- The node whose `CanFltCnt` a message from `src` resets. -/
def nodeOf (src : Nat) : Option (Fin 6) :=
  if src = canIdC 0 then some 0
  else if src = canIdC 1 then some 1
  else if src = canIdC 2 then some 2
  else if src = canIdC 3 then some 3
  else if src = canIdC 4 then some 4
  else none

def resetNode (cnt : Fin 6 → Nat) : Option (Fin 6) → Fin 6 → Nat
  | none => cnt
  | some n => Function.update cnt n 0

/-- The body of the scan of `CanApp::MsgRx_Manage` for PORT1. -/
def msgRxPort1 (p : CanRx) (s : CanApp) (frame : FrameId) : CanApp :=
  if accepts (tb frame) p then
    let s := msgRxDeal tb s p frame
    { s with canCnt := 0, canFltCnt := resetNode s.canFltCnt (nodeOf (tb frame).src) }
  else s

/-- The body of the scan for PORT2. -/
def msgRxPort2 (p : CanRx) (s : CanApp) (frame : FrameId) : CanApp :=
  if accepts (tb frame) p then
    let s := msgRxDeal tb s p frame
    { s with
      canFltCnt := resetNode s.canFltCnt (if (tb frame).src = canIdAD then some 5 else none) }
  else s

/-- `CanApp::MsgRx_Manage`: PORT1 scans the whole table, PORT2 its last entry. -/
def msgRxManage (s : CanApp) (p : CanRx) : CanApp :=
  if p.canPort = port1 then (List.finRange canStdFrameNum).foldl (msgRxPort1 tb p) s
  else if p.canPort = port2 then [Fin.last 41].foldl (msgRxPort2 tb p) s
  else s

/-- The body of the scan of `CanApp::CycleMsgUpdate_data`. -/
def cycleMsgUpdateStep (s : CanApp) (frame : FrameId) : CanApp :=
  let m := tb frame
  match m.direction with
  | .rx =>
    if s.update frame then
      { s with
        ram := copyBytes s.ram m.appBuffData m.canBuffData m.len
        update := Function.update s.update frame false }
    else s
  | .tx => { s with ram := copyBytes s.ram m.canBuffData m.appBuffData m.len }
  | .zx => s

/-- `CanApp::CycleMsgUpdate_data`. -/
def cycleMsgUpdateData (s : CanApp) : CanApp :=
  (List.finRange canStdFrameNum).foldl (cycleMsgUpdateStep tb) s

/-- `CanApp::TriggerMsgUpdate_data`. -/
def triggerMsgUpdateData (s : CanApp) (frame : FrameId) : CanApp :=
  let m := tb frame
  if m.direction = .zx then
    { s with
      ram := copyBytes s.ram m.canBuffData m.appBuffData m.len
      update := Function.update s.update frame true }
  else s

/-- `CanApp::SendCan`, with the event of `Bsp_can_send_trigger_event` (the CAN
task runs before the logic task does). -/
def sendCan (s : CanApp) (frame : FrameId) : CanApp :=
  { triggerMsgUpdateData tb s frame with trigger := true }

/-! ## Sending -/

/-- `CanApp::MakeCanMsgExtID`. The local `id` is not initialised: `junk` is what
its `res`, `prio` and `dummy` bits hold; the mask clears `dummy`. -/
def makeCanMsgExtID (junk classID func frame dest src : Nat) : Nat :=
  (classID % 2 ^ 4 + frame % 2 ^ 5 * 2 ^ 4 + src % 2 ^ 5 * 2 ^ 9 + junk % 2 ^ 2 * 2 ^ 14 +
    dest % 2 ^ 5 * 2 ^ 16 + func % 2 ^ 5 * 2 ^ 21 + junk / 2 ^ 2 % 2 ^ 6 * 2 ^ 26) % 2 ^ 29

/-- `CanApp::CanApp_MakeTxAckMsg`: eight bytes are read whatever the length. -/
def makeTxAckMsg (port extId len : Nat) (ram : Mem) (data : Nat) : CanTx :=
  ⟨port, extId, 4, 0, if 8 ≤ len then 8 else len, readBytes ram data 8⟩

/-- The sending loop of `TriggerMsgPush` and `CycleMsgPush` from fragment
`frameCnt` on, with `frameLen` bytes left. Every round takes at least one byte,
so `fuel = frameLen` is enough. -/
def pushLoop (m : StdMsg) (ram : Mem) (junk : Nat → Nat) : Nat → Nat → Nat → List CanTx
  | 0, _, _ => []
  | fuel + 1, frameLen, frameCnt =>
    if frameLen = 0 then []
    else
      let sendlen := if 8 < frameLen then 8 else frameLen
      let extId :=
        makeCanMsgExtID (junk frameCnt) m.direction.code m.funcId frameCnt m.dest m.src
      makeTxAckMsg m.canPort extId sendlen ram (m.canBuffData + frameCnt * 8) ::
        pushLoop m ram junk fuel (frameLen - sendlen) (frameCnt + 1)

/-- The fragments of one message. -/
def pushMsg (m : StdMsg) (ram : Mem) (junk : Nat → Nat) : List CanTx :=
  pushLoop m ram junk m.len m.len 0

/-- A triggered message that waits to be sent. -/
def pending (s : CanApp) (frame : FrameId) : Bool :=
  (tb frame).direction = .zx && s.update frame

/-- The frames that `TriggerMsgPush` sends for one entry. -/
def triggerFrames (junk : FrameId → Nat → Nat) (s : CanApp) (frame : FrameId) : List CanTx :=
  if pending tb s frame then pushMsg (tb frame) s.ram (junk frame) else []

/-- `CanApp::TriggerMsgPush`: the frames handed to `can_Tx_Push_Msg`, in order,
and the object with the flags of the sent messages cleared. -/
def triggerMsgPush (junk : FrameId → Nat → Nat) (s : CanApp) : List CanTx × CanApp :=
  ((List.finRange canStdFrameNum).flatMap (triggerFrames tb junk s),
    { s with
      update := fun f => if pending tb s f then false else s.update f
      trigger := false })

/-- The cyclic message is due: its clock reaches `sendTick`. -/
def due (s : CanApp) (frame : FrameId) : Bool :=
  (tb frame).direction = .tx && (tb frame).sendTick ≤ s.clock frame + 1

/-- `CanApp::CycleMsgPush`. -/
def cycleMsgPush (junk : FrameId → Nat → Nat) (s : CanApp) : List CanTx × CanApp :=
  ((List.finRange canStdFrameNum).flatMap fun f =>
      if due tb s f then pushMsg (tb f) s.ram (junk f) else [],
    { s with
      clock := fun f =>
        if (tb f).direction ≠ .tx then s.clock f
        else if due tb s f then 0
        else s.clock f + 1 })

end

/-! ## Layout -/

/-- Different fields have no byte in common. -/
theorem Field.apart {f g : Field} (h : f ≠ g) :
    Apart f.offset f.size g.offset g.size := by
  unfold Apart
  cases f <;> cases g <;> simp only [Field.offset, Field.size] <;> simp [Fin.ext_iff] at h <;> omega

theorem Field.offset_add_size_le (f : Field) : f.offset + f.size ≤ canBufSize := by
  cases f <;> simp only [Field.offset, Field.size, canBufSize] <;> omega

theorem canBuf_apart {f g : Field} (h : f ≠ g) :
    Apart (canBuf f) f.size (canBuf g) g.size := Field.apart h

theorem appBuf_apart {f g : Field} (h : f ≠ g) :
    Apart (appBuf f) f.size (appBuf g) g.size := by
  have hd := Field.apart h
  unfold Apart appBuf at *
  omega

theorem canBuf_appBuf_apart (f g : Field) :
    Apart (canBuf f) f.size (appBuf g) g.size := by
  have hf := f.offset_add_size_le
  unfold Apart canBuf appBuf
  omega

/-! ## Triggered messages -/

theorem stdMsgTable_moduleCharge : ∀ k, stdMsgTable (moduleCharge k) =
    row port1 .zx (canIdC k) canIdM1 canFuncCharge 8 0 (.chargeCmd k)
  | 0 | 1 | 2 | 3 | 4 => rfl

theorem stdMsgTable_moduleSetPar : ∀ k, stdMsgTable (moduleSetPar k) =
    row port1 .zx (canIdC k) canIdM1 canFuncSetPara 24 0 (.wPara k)
  | 0 | 1 | 2 | 3 | 4 => rfl

theorem stdMsgTable_moduleReadPar : ∀ k, stdMsgTable (moduleReadPar k) =
    row port1 .zx (canIdC k) canIdM1 canFuncPPoll 8 0 .null
  | 0 | 1 | 2 | 3 | 4 => rfl

section
variable {tb : MsgTable} {s : CanApp} {f : FrameId}

@[simp] theorem sendCan_ram (h : (tb f).direction = .zx) :
    (sendCan tb s f).ram = copyBytes s.ram (tb f).canBuffData (tb f).appBuffData (tb f).len := by
  simp [sendCan, triggerMsgUpdateData, h]

@[simp] theorem sendCan_update (h : (tb f).direction = .zx) :
    (sendCan tb s f).update = Function.update s.update f true := by
  simp [sendCan, triggerMsgUpdateData, h]

/-- Sending one message leaves the bytes outside its own part of `CanBuf`. -/
theorem sendCan_frame (h : (tb f).direction = .zx) {p n : Nat}
    (hd : Apart (tb f).canBuffData (tb f).len p n) :
    readBytes (sendCan tb s f).ram p n = readBytes s.ram p n := by
  rw [sendCan_ram h, readBytes_copyBytes_frame hd]

/-- A message of at most eight bytes goes out in one frame. -/
theorem pushMsg_single {m : StdMsg} (h0 : 0 < m.len) (h8 : m.len ≤ 8) (ram : Mem)
    (junk : Nat → Nat) :
    pushMsg m ram junk =
      [makeTxAckMsg m.canPort (makeCanMsgExtID (junk 0) m.direction.code m.funcId 0 m.dest m.src)
        m.len ram m.canBuffData] := by
  unfold pushMsg
  obtain ⟨n, hn⟩ : ∃ n, m.len = n + 1 := ⟨m.len - 1, by omega⟩
  have hlt : ¬ 8 < n + 1 := by omega
  rw [hn, pushLoop]
  simp only [Nat.add_eq_zero_iff, one_ne_zero, and_false, if_false, if_neg hlt, Nat.sub_self,
    Nat.zero_mul, Nat.add_zero]
  congr 1
  cases n <;> rfl

end

end SC04Monitor.Can
