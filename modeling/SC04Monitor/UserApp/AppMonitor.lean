import SC04Monitor.UserApp.DataStruct

/-! # The system state machine

`System_Mode` of `appMonitor.cc`: `ChargeModeManage` moves the system between its
six states, `System_Output` drives the contactors for the selected output mode.
A logic tick runs the two in this order. -/

namespace SC04Monitor.UserApp

/-- `SYS_STATE_*`. The member only ever holds these six values, so the `default`
branch of the source's `switch` has no counterpart. -/
inductive SysState
  | stop | precharge | standby | fault | test | sleep
  deriving DecidableEq, Repr

/-- `SYS_OUT_*`. -/
inductive SysOut
  | stop | precharge | standby | fault | test | sleep
  deriving DecidableEq, Repr

/-- The code of a state, as `MonitorUpdate` publishes it. -/
def SysState.code : SysState → UInt16
  | .stop => 0x0000
  | .precharge => 0x0100
  | .standby => 0x0200
  | .fault => 0x0300
  | .test => 0x0400
  | .sleep => 0x0500

/-- `CHARGE_BASE_T`, in ms. -/
def chargeBaseT : Nat := 10

/-- `PRE_CHARGE_DELAY1`, in ticks. -/
def preChargeDelay1 : Nat := 60000 / chargeBaseT

/-- `PRE_CHARGE_DELAY2`, in ticks. -/
def preChargeDelay2 : Nat := 500 / chargeBaseT

/-- The members of `System_Mode`. Both counters are `uint16_t` and are only
reloaded, or decremented when positive. -/
structure SystemMode where
  preDelayCnt : Nat
  preDelay2Cnt : Nat
  systemState : SysState
  systemOutput : SysOut
  preChargeStep1 : Bool
  preChargeStep2 : Bool
  preFinsh : Bool
  deriving DecidableEq

/-- The object at power-on: static storage is zero and the constructor sets the
state and the output mode only. -/
def SystemMode.init : SystemMode := ⟨0, 0, .stop, .stop, false, false, false⟩

/-- What the two functions read of `MB_LGA`. -/
structure SysIn where
  sysModeSet : UInt16
  sFault : Bool
  cabinetEnN : Bool
  busVoltOK : Bool
  sleepCmd : UInt16
  devTestCmd : UInt16
  /-- `cb1_SYS.input.Charging` to `cb5_SYS.input.Charging`. -/
  charging : ModuleId → Bool

/-- Enter a state together with its output mode. -/
def SystemMode.goto (m : SystemMode) (s : SysState) (o : SysOut) : SystemMode :=
  { m with systemState := s, systemOutput := o }

/-- `System_Mode::ChargeModeManage`. -/
def SystemMode.chargeModeManage (i : SysIn) (m : SystemMode) : SystemMode :=
  match m.systemState with
  | .stop =>
    if i.sysModeSet = sysModeSleep then m.goto .sleep .sleep
    else if i.sysModeSet = sysModeDeviceTest then m.goto .test .test
    else if i.sFault then m.goto .fault .fault
    else if i.cabinetEnN then m.goto .precharge .precharge
    else m.goto .stop .stop
  | .precharge =>
    if i.sysModeSet = sysModeSleep then m.goto .sleep .sleep
    else if i.sysModeSet = sysModeDeviceTest then m.goto .test .test
    else if i.sFault then m.goto .fault .fault
    else if !i.cabinetEnN then
      { m with preChargeStep1 := false, preChargeStep2 := false }.goto .stop .stop
    else if m.preFinsh then m.goto .standby .standby
    else m.goto .precharge .precharge
  | .standby =>
    if i.sysModeSet = sysModeSleep then m.goto .sleep .sleep
    else if i.sysModeSet = sysModeDeviceTest then m.goto .test .test
    else if i.sFault then m.goto .fault .fault
    else if !i.cabinetEnN then
      { m with preChargeStep1 := false, preChargeStep2 := false }.goto .stop .stop
    else m.goto .standby .standby
  | .fault =>
    if i.sysModeSet = sysModeSleep then m.goto .sleep .sleep
    else if i.sysModeSet = sysModeDeviceTest then m.goto .test .test
    else if !i.sFault then m.goto .stop .stop
    else m.goto .fault .fault
  | .test =>
    -- going to sleep from the device test leaves the output mode as it is
    if i.sysModeSet = sysModeSleep then { m with systemState := .sleep }
    else if i.sysModeSet = sysModeCharge then m.goto .stop .stop
    else m.goto .test .test
  | .sleep =>
    if i.sleepCmd = inSleep then m.goto .sleep .sleep
    else m.goto .stop .stop

/-- Both precharge delays at their full length, as every output routine but
`PreChargeCal` leaves them. -/
def SystemMode.reload (m : SystemMode) : SystemMode :=
  { m with preDelayCnt := preChargeDelay1, preDelay2Cnt := preChargeDelay2 }

/-- `System_Mode::StopCal` and `System_Mode::FaultCal`, which are the same code:
the contactors open once no module charges. -/
def SystemMode.stopCal (i : SysIn) (m : SystemMode) (o : OutFlags) : SystemMode × OutFlags :=
  (m.reload, if ∀ k, i.charging k = false then .off else o)

@[inherit_doc SystemMode.stopCal]
def SystemMode.faultCal (i : SysIn) (m : SystemMode) (o : OutFlags) : SystemMode × OutFlags :=
  m.stopCal i o

/-- `System_Mode::PreChargeCal`. -/
def SystemMode.preChargeCal (i : SysIn) (m : SystemMode) (_o : OutFlags) :
    SystemMode × OutFlags :=
  let o := { OutFlags.off with preConN := true }
  let m := { m with preChargeStep1 := true }
  if 0 < m.preDelayCnt then ({ m with preDelayCnt := m.preDelayCnt - 1 }, o)
  else
    let m := { m with preChargeStep2 := true }
    if i.busVoltOK then
      let o := { o with mainCon1N := true }
      if 0 < m.preDelay2Cnt then ({ m with preDelay2Cnt := m.preDelay2Cnt - 1 }, o)
      else ({ m.reload with preFinsh := true }, { o with mainCon2N := true, preConN := false })
    else (m, o)

/-- `System_Mode::StandbyCal`. -/
def SystemMode.standbyCal (m : SystemMode) (o : OutFlags) : SystemMode × OutFlags :=
  (m.reload, { o with mainCon1N := true, mainCon2N := true, preConN := false })

/-- `System_Mode::DevTestCal`: one command bit for each contactor. -/
def SystemMode.devTestCal (i : SysIn) (m : SystemMode) (_o : OutFlags) : SystemMode × OutFlags :=
  let bit (n : Nat) : Bool := i.devTestCmd.toNat.testBit n
  (m.reload,
    { preConN := bit 0, mainCon1N := bit 1, mainCon2N := bit 2, outConN := fun k => bit (3 + k) })

/-- `System_Mode::SleepCal`. -/
def SystemMode.sleepCal (m : SystemMode) (o : OutFlags) : SystemMode × OutFlags :=
  (m.reload, o)

/-- `System_Mode::System_Output`. -/
def SystemMode.systemOutputCal (i : SysIn) (m : SystemMode) (o : OutFlags) :
    SystemMode × OutFlags :=
  match m.systemOutput with
  | .stop => m.stopCal i o
  | .precharge => m.preChargeCal i o
  | .standby => m.standbyCal o
  | .fault => m.faultCal i o
  | .test => m.devTestCal i o
  | .sleep => m.sleepCal o

/-- `SysMode` and the contactors it drives. -/
structure SysMachine where
  mode : SystemMode
  out : OutFlags

def SysMachine.init : SysMachine := ⟨.init, .off⟩

/-- The system part of a logic tick: `ChargeModeManage`, then `System_Output`. -/
def SysMachine.tick (s : SysMachine) (i : SysIn) : SysMachine :=
  let r := (s.mode.chargeModeManage i).systemOutputCal i s.out
  ⟨r.1, r.2⟩

end SC04Monitor.UserApp
