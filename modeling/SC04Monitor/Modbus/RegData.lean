import SC04Monitor.Lib.WordMem
import SC04Monitor.UserApp.LogicTask

/-! # The holding registers

`MB_RegData`, the image of the holding registers in `theDHMI`, and the callback
`eMBRegHoldingCB` of `user_mb_app.c` with `RegAddressGet`, which takes a command
out of the image and raises its flag in `HMI`. The structure is packed: every
member is made of words, so its offset is the sum of what stands before it. -/

namespace SC04Monitor.Modbus
open SC04Monitor.Lib.ByteMem SC04Monitor.Lib.WordMem SC04Monitor.UserApp

/-! ## The layout of `MB_RegData` -/

/-- The offset of a member, in a structure given by the sizes of its members. -/
def offsetIn {μ : Type} [DecidableEq μ] : List (μ × Nat) → μ → Nat
  | [], _ => 0
  | (m', n) :: rest, m => if m' = m then 0 else n + offsetIn rest m

/-- The members of `MB_RegData`; `res` is the padding. -/
inductive RegMember
  | mbStatus
  | mbRdPara
  | moduePara (k : Fin 8)
  | version
  | ctrCmd
  | mbWrPara
  | modueWPara (k : Fin 8)
  | time
  | res (n : Nat)
  deriving DecidableEq

/-- `MB_RegData` with the sizes in words, in declaration order. -/
def mbRegData : List (RegMember × Nat) :=
  [(.mbStatus, 110), (.res 1, 146), (.mbRdPara, 14), (.res 2, 18)] ++
  (List.finRange 8).flatMap (fun k => [(.moduePara k, 12), (.res (3 + k), 20)]) ++
  [(.version, 6), (.res 11, 26), (.ctrCmd, 8), (.res 12, 24), (.mbWrPara, 14), (.res 13, 18)] ++
  (List.finRange 8).flatMap (fun k => [(.modueWPara k, 12), (.res (14 + k), 20)]) ++
  [(.time, 6)]

def RegMember.offset (m : RegMember) : Nat := offsetIn mbRegData m

/-- The members of `CtrCmd_STYP`. -/
inductive CtrMember
  | chargeEn | chargeCmd | devTestCmd | sleepCmd | restartCmd | restoreParCmd
  deriving DecidableEq

/-- `CtrCmd_STYP` with the sizes in words. -/
def ctrCmdStyp : List (CtrMember × Nat) :=
  [(.chargeEn, 2), (.chargeCmd, 2), (.devTestCmd, 1), (.sleepCmd, 1), (.restartCmd, 1),
    (.restoreParCmd, 1)]

/-- The offset of `CtrCmd.m` in `MB_RegData`. -/
def CtrMember.offset (m : CtrMember) : Nat := RegMember.ctrCmd.offset + offsetIn ctrCmdStyp m

/-! ## `HMI` -/

/-- The two members of `HMI.CtrCmd` that the logic task does not read come on top of
those that it does. -/
structure HmiType extends Hmi where
  restartCmd : UInt16
  restoreParCmd : UInt16

/-- `HMI_ADDR_*`. -/
def hmiAddr : HmiAddr → UInt16
  | .chargeEn => 0x0240
  | .chargeCmd => 0x0242
  | .devTest => 0x0244
  | .sleep => 0x0246
  | .restart => 0x0248
  | .restore => 0x024A
  | .wMbPara => 0x0260
  | .wCbPara k => 0x0280 + 0x0020 * UInt16.ofNat k
  | .wMbRtc => 0x0380

/-- The members of `MB_RegData` that `RegAddressGet` copies, by their offsets. -/
def fieldOffset : HmiAddr → Nat
  | .chargeEn => CtrMember.chargeEn.offset
  | .chargeCmd => CtrMember.chargeCmd.offset
  | .devTest => CtrMember.devTestCmd.offset
  | .sleep => CtrMember.sleepCmd.offset
  | .restart => CtrMember.restartCmd.offset
  | .restore => CtrMember.restoreParCmd.offset
  | .wMbPara => RegMember.mbWrPara.offset
  | .wCbPara k => (RegMember.modueWPara (Fin.castAdd 3 k)).offset
  | .wMbRtc => RegMember.time.offset

/-- Their sizes in words. -/
def fieldSize : HmiAddr → Nat
  | .chargeEn | .chargeCmd => 2
  | .devTest | .sleep | .restart | .restore => 1
  | .wMbPara => 14
  | .wCbPara _ => 12
  | .wMbRtc => 6

/-- `HMI.HMI_WAddr_flag[a] = true`. -/
def HmiType.raise (h : HmiType) (a : HmiAddr) : HmiType :=
  { h with wAddrFlag := Function.update h.wAddrFlag a true }

/-- `HMI.x = PDHMI(Reg)->x` for the member of a command. -/
def HmiType.copy (h : HmiType) (reg : Mem) (a : HmiAddr) : HmiType :=
  let p := 2 * fieldOffset a
  match a with
  | .chargeEn =>
    { h with ctrCmd := { h.ctrCmd with chargeEn := ⟨readWord reg p, readWord reg (p + 2)⟩ } }
  | .chargeCmd =>
    { h with ctrCmd := { h.ctrCmd with chargeCmd := ⟨readWord reg p, readWord reg (p + 2)⟩ } }
  | .devTest => { h with ctrCmd := { h.ctrCmd with devTestCmd := readWord reg p } }
  | .sleep => { h with ctrCmd := { h.ctrCmd with sleepCmd := readWord reg p } }
  | .restart => { h with restartCmd := readWord reg p }
  | .restore => { h with restoreParCmd := readWord reg p }
  | .wMbPara => { h with mbWrPara := readVector reg p 28 }
  | .wCbPara k => { h with wPara := Function.update h.wPara k (readVector reg p 24) }
  | .wMbRtc => { h with time := readVector reg p 12 }

/-- The words of the member of a command in `HMI`. -/
def HmiType.field (h : HmiType) : HmiAddr → List UInt16
  | .chargeEn => [h.ctrCmd.chargeEn.cmd1, h.ctrCmd.chargeEn.cmd2]
  | .chargeCmd => [h.ctrCmd.chargeCmd.cmd1, h.ctrCmd.chargeCmd.cmd2]
  | .devTest => [h.ctrCmd.devTestCmd]
  | .sleep => [h.ctrCmd.sleepCmd]
  | .restart => [h.restartCmd]
  | .restore => [h.restoreParCmd]
  | .wMbPara => wordsOf h.mbWrPara.toList
  | .wCbPara k => wordsOf (h.wPara k).toList
  | .wMbRtc => wordsOf h.time.toList

/-! ## The callback -/

/-- `theDHMI`, `HMI` and `HmiRegAddress`. -/
structure MbApp where
  reg : Mem
  hmi : HmiType
  hmiRegAddress : UInt16

inductive MbErrorCode
  | noErr  -- `MB_ENOERR`
  | noReg  -- `MB_ENOREG`
  deriving DecidableEq

inductive MbRegisterMode
  | read | write
  deriving DecidableEq

def sRegHoldingStart : UInt16 := 1
def sRegHoldingNregs : UInt16 := 1000

/-- `RegAddressGet`. -/
def regAddressGet (s : MbApp) (address : UInt16) : MbApp :=
  let s := { s with hmiRegAddress := address - 1 }
  match HmiAddr.all.find? fun a => hmiAddr a = s.hmiRegAddress with
  | some a => { s with hmi := (s.hmi.raise a).copy s.reg a }
  | none => s

/-- The word that two bytes of a frame stand for: `hi << 8 | lo`. -/
def frameWord (hi lo : UInt8) : UInt16 := hi.toUInt16 <<< 8 ||| lo.toUInt16

/-- The loop of `MB_REG_WRITE`: `n` registers left, at register `iRegIndex` and byte
`p` of the buffer. -/
def writeLoop (buf : Nat → UInt8) : (n iRegIndex p : Nat) → Mem → Mem
  | 0, _, _, reg => reg
  | n + 1, iRegIndex, p, reg =>
    writeLoop buf n (iRegIndex + 1) (p + 2)
      (writeWord reg (2 * iRegIndex) (frameWord (buf p) (buf (p + 1))))

/-- The loop of `MB_REG_READ`: the bytes that it puts into the buffer. -/
def readLoop (reg : Mem) : (n iRegIndex : Nat) → List UInt8
  | 0, _ => []
  | n + 1, iRegIndex =>
    let w := readWord reg (2 * iRegIndex)
    (w >>> 8).toUInt8 :: (w &&& 0xFF).toUInt8 :: readLoop reg n (iRegIndex + 1)

/-- The registers of an access exist. -/
def inRange (usAddress usNRegs : UInt16) : Bool :=
  sRegHoldingStart ≤ usAddress &&
    usAddress.toNat + usNRegs.toNat ≤ sRegHoldingStart.toNat + sRegHoldingNregs.toNat

/-- `eMBRegHoldingCB` of the slave: its result, the bytes put into the buffer, and
what it leaves. `RegAddressGet` is called in any case. -/
def eMBRegHoldingCB (s : MbApp) (buf : Nat → UInt8) (usAddress usNRegs : UInt16)
    (eMode : MbRegisterMode) : MbErrorCode × List UInt8 × MbApp :=
  let iRegIndex := usAddress.toNat - sRegHoldingStart.toNat
  if inRange usAddress usNRegs then
    match eMode with
    | .read => (.noErr, readLoop s.reg usNRegs.toNat iRegIndex, regAddressGet s usAddress)
    | .write =>
      (.noErr, [],
        regAddressGet { s with reg := writeLoop buf usNRegs.toNat iRegIndex 0 s.reg } usAddress)
  else (.noReg, [], regAddressGet s usAddress)

end SC04Monitor.Modbus
