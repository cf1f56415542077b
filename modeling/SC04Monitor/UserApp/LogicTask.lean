import SC04Monitor.Lib.Run
import SC04Monitor.Can.CanApp
import SC04Monitor.UserApp.AppModule

/-! # The logic task

`Bsp_Logic_task` with the functions of `logicApp.cc` it calls, over the shared
records `MB_LGA`, `HMI` and `can` and the state machines. One tick is one round
of its loop. What the other tasks and the hardware do in the meantime comes in
as the input of the tick. -/

namespace SC04Monitor.UserApp
open SC04Monitor.Lib.ByteMem SC04Monitor.Lib.Run SC04Monitor.Can

/-! ## `HMI` -/

/-- The write addresses `ADDR_*` of the touch screen, in the order of the flags. -/
inductive HmiAddr
  | chargeEn | chargeCmd | devTest | sleep | restart | restore | wMbPara
  | wCbPara (k : ModuleId)
  | wMbRtc
  deriving DecidableEq

namespace HmiAddr

/-- The parameter addresses that `ParManage` scans. -/
def paras : List HmiAddr := .wMbPara :: (List.finRange 5).map .wCbPara

def all : List HmiAddr :=
  [.chargeEn, .chargeCmd, .devTest, .sleep, .restart, .restore] ++ paras ++ [.wMbRtc]

end HmiAddr

/-- `ChargeEn_STYP` and `ChargeCmd_STYP`. -/
structure HmiCmd where
  cmd1 : UInt16
  cmd2 : UInt16
  deriving DecidableEq

/-- `CtrCmd_STYP`. -/
structure CtrCmd where
  chargeEn : HmiCmd
  chargeCmd : HmiCmd
  devTestCmd : UInt16
  sleepCmd : UInt16

/-- The part of `HMI_TYPE` that the touch screen writes. -/
structure Hmi where
  wAddrFlag : HmiAddr → Bool
  ctrCmd : CtrCmd
  mbWrPara : MBPara
  wPara : ModuleId → CBPara
  time : Vector UInt8 12

def Hmi.zero : Hmi :=
  ⟨fun _ => false, ⟨⟨0, 0⟩, ⟨0, 0⟩, 0, 0⟩, .replicate 28 0, fun _ => .replicate 24 0,
    .replicate 12 0⟩

/-- `HMI.HMI_WAddr_flag[a] = false`. -/
def Hmi.lower (h : Hmi) (a : HmiAddr) : Hmi :=
  { h with wAddrFlag := Function.update h.wAddrFlag a false }

/-! ## `MB_LGA` and the state of the task -/

/-- `MB_LGA`; its contactor outputs lie with the system state machine. -/
structure Lga where
  sysModeSet : UInt16
  sFault : Bool
  busVoltOK : Bool
  wParFlag : Bool
  rParFlag : Bool
  devTestCmd : UInt16
  sleepCmd : UInt16
  cabinetEnN : Bool
  cbSys : ModuleId → ModuleSys
  chargeVolt : ModuleId → UInt16
  mbPara : MBPara
  mbRdPara : MBPara
  mbWrPara : MBPara
  chargeCmd : ModuleId → ChargeCmd
  cbStatus : ModuleId → CBStatus
  cbPara : ModuleId → CBPara
  cbWPara : ModuleId → CBPara

/-- `MB_LGA` when the loop starts: zero, with the parameters to be read. -/
def Lga.init : Lga :=
  ⟨0, false, false, false, true, 0, 0, false, fun _ => .zero, fun _ => 0, .replicate 28 0,
    .replicate 28 0, .replicate 28 0, fun _ => .zero, fun _ => .replicate 24 0,
    fun _ => .replicate 24 0, fun _ => .replicate 24 0⟩

/-- Everything the logic task works on. `parCnt` are the static counters of
`ParManage`, `record` is the parameter record last handed to the file system. -/
structure Logic where
  lga : Lga
  hmi : Hmi
  can : CanApp
  sys : SysMachine
  cb : ModuleId → CbMode
  parCnt : ModuleId → Nat
  record : Option MBPara

def Logic.init : Logic :=
  ⟨.init, .zero, .init, .init, fun _ => .init, fun _ => 0, none⟩

/-- What the CAN tasks do between two rounds. -/
inductive CanEvent
  | rx (p : CanRx)
  | cycle
  | trigger

/-- The input of a tick: the events of the CAN tasks, what the serial task has
written to `HMI`, the digital input, the outcome of the fault analysis and the
parameter record in the flash. Nothing in the source writes `busVoltOK`. -/
structure TickIn where
  canEvents : List CanEvent
  modbus : Hmi → Hmi
  cabinetEnN : Bool
  busVoltOK : Bool
  sFault : Bool
  storedPara : MBPara

/-- `CanApp_Rx_Task` on one frame, `CanApp_CycleStream_Server` and
`CanApp_TriggerStream_Server`. -/
def canStep (s : CanApp) : CanEvent → CanApp
  | .rx p => msgRxManage stdMsgTable s p
  | .cycle => (cycleMsgPush stdMsgTable (fun _ _ => 0) (cycleMsgUpdateData stdMsgTable s)).2
  | .trigger => (triggerMsgPush stdMsgTable (fun _ _ => 0) s).2

/-- The module a command word names: `MODULE1` to `MODULE5`. -/
def moduleOf (c : UInt16) : Option ModuleId :=
  (List.finRange 5).find? fun k => c.toNat = k + 1

namespace Logic

/-- The other tasks run. -/
def environment (i : TickIn) (s : Logic) : Logic :=
  { s with
    can := i.canEvents.foldl canStep s.can
    hmi := i.modbus s.hmi
    lga := { s.lga with busVoltOK := i.busVoltOK } }

/-- `DigitalInputUpdate`. -/
def digitalInputUpdate (i : TickIn) (s : Logic) : Logic :=
  { s with lga := { s.lga with cabinetEnN := i.cabinetEnN } }

def setInput (s : Logic) (k : ModuleId) (f : InputStyp → InputStyp) : Logic :=
  { s with lga := { s.lga with
    cbSys := Function.update s.lga.cbSys k { s.lga.cbSys k with input := f (s.lga.cbSys k).input } } }

/-- The `switch` over the module that a command names. -/
def setInputOf (s : Logic) (c : UInt16) (f : InputStyp → InputStyp) : Logic :=
  match moduleOf c with
  | some k => s.setInput k f
  | none => s

/-- `Charge_Enable` by `CMD2`: 1 sets it, 2 clears it. -/
def setChargeEnable (c : UInt16) (i : InputStyp) : InputStyp :=
  if c = 1 then { i with chargeEnable := true }
  else if c = 2 then { i with chargeEnable := false }
  else i

def lower (s : Logic) (a : HmiAddr) : Logic := { s with hmi := s.hmi.lower a }

/-- The address that `HmiInputUpdate` handles: the first raised flag. -/
def hmiAddr (s : Logic) : Option HmiAddr := HmiAddr.all.find? s.hmi.wAddrFlag

/-- `HmiInputUpdate`. -/
def hmiInputUpdate (s : Logic) : Logic :=
  let cmd := s.hmi.ctrCmd
  match s.hmiAddr with
  | some .chargeEn =>
    (s.setInputOf cmd.chargeEn.cmd1 (setChargeEnable cmd.chargeEn.cmd2)).lower .chargeEn
  | some .chargeCmd =>
    ({ s with lga := { s.lga with sysModeSet := sysModeCharge } }.setInputOf cmd.chargeCmd.cmd1
      fun i => { i with chargeModeSet := cmd.chargeCmd.cmd2 }).lower .chargeCmd
  | some .devTest =>
    { s with lga := { s.lga with
      sysModeSet := sysModeDeviceTest, devTestCmd := cmd.devTestCmd } }.lower .devTest
  | some .sleep =>
    { s with lga := { s.lga with
      sysModeSet := sysModeSleep, sleepCmd := cmd.sleepCmd } }.lower .sleep
  | some .restart => { s with can := sendCan stdMsgTable s.can reboot }.lower .restart
  | some .restore => s.lower .restore
  -- the flag stays up for `ParManage`
  | some .wMbPara => { s with lga := { s.lga with mbWrPara := s.hmi.mbWrPara } }
  | some .wMbRtc => s.lower .wMbRtc
  | some (.wCbPara _) | none => s

/-- `CanInputUpdate`. -/
def canInputUpdate (s : Logic) : Logic :=
  let ram := s.can.ram
  { s with lga := { s.lga with
    cbStatus := fun k => readVector ram (appBuf (.status k)) 24
    cbPara := fun k => readVector ram (appBuf (.para k)) 24
    chargeVolt := fun k => readWord ram (appBuf .adRxChnn + 2 * k) } }

/-- The inputs that `MonitorUpdate` derives for a module from its status (the
members `chargeOnN`, `floatChargeN` and `sysFailN` of the flags) and its charge
voltage. -/
def monitorInput (status : CBStatus) (volt : UInt16) (i : InputStyp) : InputStyp :=
  { i with
    charging := (status.get 4).toNat.testBit 0
    floatChargeN := (status.get 4).toNat.testBit 1
    fault := (status.get 3).toNat.testBit 7
    instation := chargeStartV < volt }

/-- `MonitorUpdate`, but for the status block published to the touch screen. -/
def monitorUpdate (s : Logic) : Logic :=
  { s with lga := { s.lga with
    cbSys := fun k => { s.lga.cbSys k with
      input := monitorInput (s.lga.cbStatus k) (s.lga.chargeVolt k) (s.lga.cbSys k).input } } }

/-- `FaultManage`; the outcome of the analysis is an input. -/
def faultManage (i : TickIn) (s : Logic) : Logic :=
  { s with lga := { s.lga with sFault := i.sFault } }

/-- What the system state machine reads. -/
def sysIn (s : Logic) : SysIn :=
  ⟨s.lga.sysModeSet, s.lga.sFault, s.lga.cabinetEnN, s.lga.busVoltOK, s.lga.sleepCmd,
    s.lga.devTestCmd, fun k => (s.lga.cbSys k).input.charging⟩

/-- `SysMode.ChargeModeManage(); SysMode.System_Output();` -/
def sysModeTick (s : Logic) : Logic := { s with sys := s.sys.tick s.sysIn }

/-- What the state machine of module `k` reads. -/
def cbIn (s : Logic) (k : ModuleId) : CbIn :=
  ⟨s.lga.cbSys k, (s.lga.cbSys 0).input.fault, s.sys.mode.systemState⟩

/-- What `CbCtrl` makes of module `k`. -/
def cbRun (s : Logic) (k : ModuleId) : CbRun := (s.cb k).cbCtrl (s.cbIn k) (s.lga.chargeCmd k).cmd

/-- `CbMode::CbCtrl` of module `k`. -/
def cbCtrl (s : Logic) (k : ModuleId) : Logic :=
  let r := s.cbRun k
  { s with
    cb := Function.update s.cb k r.mode
    lga := { s.lga with
      cbSys := Function.update s.lga.cbSys k { s.lga.cbSys k with
        output := { (s.lga.cbSys k).output with chargeModeNow := r.mode.state.code } }
      chargeCmd := Function.update s.lga.chargeCmd k { s.lga.chargeCmd k with cmd := r.cmd } }
    can := if r.sent then sendCan stdMsgTable s.can (moduleCharge k) else s.can }

/-- `DcDcManage`. -/
def dcDcManage (s : Logic) : Logic := (List.finRange 5).foldl cbCtrl s

/-- The 28 bytes from `HMI.Modue<k>_WPara` on, as `memcmp` reads them: a module's
parameters are 24 bytes long, the comparison runs into the next member. -/
def wParaBytes (h : Hmi) (k : ModuleId) : List UInt8 :=
  ((((List.finRange 5).flatMap fun j => (h.wPara j).toList) ++ h.time.toList).drop (24 * k)).take 28

/-- The 28 bytes from `MB_LGA.Modue<k>_Para` on. -/
def paraBytes (l : Lga) (k : ModuleId) : List UInt8 :=
  ((((List.finRange 5).flatMap fun j => (l.cbPara j).toList) ++
    (List.finRange 5).flatMap fun j => (l.cbWPara j).toList).drop (24 * k)).take 28

/-- `ParManage`. -/
def parManage (s : Logic) : Logic :=
  match HmiAddr.paras.find? s.hmi.wAddrFlag with
  | some .wMbPara =>
    if s.lga.mbWrPara ≠ s.lga.mbRdPara then
      { s with lga := { s.lga with
        mbRdPara := s.lga.mbWrPara, mbPara := s.lga.mbWrPara, wParFlag := true } }.lower .wMbPara
    else s
  | some (.wCbPara k) =>
    if wParaBytes s.hmi k ≠ paraBytes s.lga k then
      let can := { s.can with
        ram := writeBytes s.can.ram (appBuf (.wPara k)) (s.hmi.wPara k).toList }
      let s := { s with
        lga := { s.lga with cbWPara := Function.update s.lga.cbWPara k (s.hmi.wPara k) } }
      if s.parCnt k = 0 then
        { s with
          can := sendCan stdMsgTable can (moduleSetPar k)
          parCnt := Function.update s.parCnt k (s.parCnt k + 1) }
      else
        { s with
          can := sendCan stdMsgTable can (moduleReadPar k)
          parCnt := Function.update s.parCnt k 0 }.lower (.wCbPara k)
    else s
  | _ => s

/-- `CanOutputUpdate`. -/
def canOutputUpdate (s : Logic) : Logic :=
  let ram := writeAll (fun k => appBuf (.wPara k)) (fun k => (s.lga.cbWPara k).toList)
    (List.finRange 5) s.can.ram
  let ram := writeAll (fun k => appBuf (.chargeCmd k)) (fun k => (s.lga.chargeCmd k).bytes)
    (List.finRange 5) ram
  { s with can := { s.can with ram } }

/-- `UserRecord`. -/
def userRecord (i : TickIn) (s : Logic) : Logic :=
  if s.lga.wParFlag then
    { s with lga := { s.lga with wParFlag := false }, record := some s.lga.mbPara }
  else if s.lga.rParFlag then
    { s with lga := { s.lga with
      rParFlag := false, mbPara := i.storedPara, mbWrPara := i.storedPara } }
  else s

/-- The first part of a tick: the inputs. -/
def inputs (i : TickIn) (s : Logic) : Logic :=
  (((((s.environment i).digitalInputUpdate i).hmiInputUpdate).canInputUpdate).monitorUpdate).faultManage i

/-- The tick up to the state machines of the modules. -/
def beforeDcDc (i : TickIn) (s : Logic) : Logic := (s.inputs i).sysModeTick

/-- The tick up to `CanOutputUpdate`. -/
def afterCanOutput (i : TickIn) (s : Logic) : Logic :=
  (((s.beforeDcDc i).dcDcManage).parManage).canOutputUpdate

/-- One round of `Bsp_Logic_task`. -/
def tick (s : Logic) (i : TickIn) : Logic := (s.afterCanOutput i).userRecord i

end Logic

/-- The state before tick `n`. -/
def logicAt (ins : Nat → TickIn) (n : Nat) : Logic := stateAt Logic.tick Logic.init ins n

end SC04Monitor.UserApp
