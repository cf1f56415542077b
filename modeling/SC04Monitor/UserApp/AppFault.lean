import Mathlib.Data.Rat.Floor
import Mathlib.Tactic.Common
import SC04Monitor.UserApp.DataStruct

/-! # Fault analysis

`FaultAnalyse` and `fault_Run` of `app_Fault.cc`. The first turns the inputs into
a mask for every fault, the second debounces the masks into the status bits
`FaultAry` with the two delay tables, and derives the severe fault flag. -/

namespace SC04Monitor.UserApp

/-! ## Fault indices -/

/-- `FT_MAX`. -/
abbrev ftMax : Nat := 66

abbrev FaultId := Fin ftMax

-- for the literals of `FaultId`
instance neZero_faults : @NeZero Nat Zero.ofOfNat0 66 := ⟨Nat.succ_ne_zero 65⟩

/-- The indices from `a` on that a family of five faults takes. -/
def faultOf (a : Nat) (h : a ≤ 61) (k : ModuleId) : FaultId := ⟨a + k, by unfold ftMax; omega⟩

def wnCanMxCx : FaultId := 0
def wnAdLost : FaultId := 1
def wnInTOver : FaultId := 2
def wnOutTOver : FaultId := 3
def wnInTFail : FaultId := 4
def wnOutTFail : FaultId := 5
def wnL1TFail : FaultId := 6
def wnL2TFail : FaultId := 7
def wnCap1TFail : FaultId := 8
def wnCap2TFail : FaultId := 9
def wnPreConFb : FaultId := 10
def wnMainCon1Fb : FaultId := 11
def wnMainCon2Fb : FaultId := 12
/-- `WN_OUT1_CON_FB` to `WN_OUT5_CON_FB`. -/
def wnOutConFb : ModuleId → FaultId := faultOf 13 (by omega)
def wnAc1UFail : FaultId := 18
def wnAc2UFail : FaultId := 19
def wnBusUFail : FaultId := 20
def wnAc1UUnder : FaultId := 21
def wnAc2UUnder : FaultId := 22
/-- `WN_OUT1_ON_FAIL` to `WN_OUT5_ON_FAIL`. -/
def wnOutOnFail : ModuleId → FaultId := faultOf 25 (by omega)
def ftInFuse1 : FaultId := 32
def ftInFuse2 : FaultId := 33
/-- `FT_OUT_FUSE1` to `FT_OUT_FUSE5`. -/
def ftOutFuse : ModuleId → FaultId := faultOf 34 (by omega)
def ftAc1UOver : FaultId := 39
def ftAc2UOver : FaultId := 40
def ftBusUOver : FaultId := 41
def ftBusUUnder : FaultId := 42
/-- `FT_OUT1_U_OVER` to `FT_OUT5_U_OVER`. -/
def ftOutUOver : ModuleId → FaultId := faultOf 43 (by omega)
def ftL1TOver : FaultId := 48
def ftL2TOver : FaultId := 49
def ftCap1TOver : FaultId := 50
def ftCap2TOver : FaultId := 51
/-- `FT_OUT1_U_FAIL` to `FT_OUT5_U_FAIL`. -/
def ftOutUFail : ModuleId → FaultId := faultOf 52 (by omega)
def ftL1IFail : FaultId := 57
def ftL2IFail : FaultId := 58
def ftL1IOver : FaultId := 59
def ftL2IOver : FaultId := 60
/-- `FT_OUT1_OFF_FAIL` to `FT_OUT5_OFF_FAIL`. -/
def ftOutOffFail : ModuleId → FaultId := faultOf 61 (by omega)

/-! ## The record `FAULT` -/

/-- `FAULT_MASK`. -/
def faultMaskSet : UInt16 := 0x55

/-- The members of `FAULT_TYPE` that the two functions use. -/
structure FaultType where
  faultDisTime : FaultId → UInt16
  faultConTime : FaultId → UInt16
  faultMask : FaultId → UInt16
  faultAry : Fin 5 → UInt16
  faultRcdFlg : Fin 3 → UInt16
  count : UInt16

/-- `FAULT` is zero-initialised. -/
def FaultType.zero : FaultType :=
  ⟨fun _ => 0, fun _ => 0, fun _ => 0, fun _ => 0, fun _ => 0, 0⟩

/-- The word of `FaultAry` and the bit in it that belong to a fault. -/
def faultWord (i : FaultId) : Fin 5 := ⟨i / 16, by have h : (i : Nat) < 66 := i.isLt; omega⟩
def faultBit (i : FaultId) : UInt16 := 1 <<< UInt16.ofNat (i % 16)

/-! ## `fault_Run` -/

/-- Division rounded to the nearest integer, ties to even. -/
def roundHalfEven (a b : Nat) : Nat :=
  if 2 * (a % b) < b then a / b
  else if b < 2 * (a % b) then a / b + 1
  else if a / b % 2 = 0 then a / b
  else a / b + 1

/-- The `double` nearest to `q`, for `0 ≤ q < 2 ^ 53` outside the subnormal
range: scaled so that its integer part has 53 bits, rounded, scaled back. -/
def toDouble (q : ℚ) : ℚ :=
  let a := q.num.natAbs
  let b := q.den
  if a = 0 then 0
  else
    let s := 53 + Nat.log2 b - Nat.log2 a
    let s := if a * 2 ^ s / b < 2 ^ 53 then s else s - 1
    roundHalfEven (a * 2 ^ s) b / 2 ^ s

/-- `ConTime_default`, in seconds; entries that are not written are zero. -/
def conTimeTable : List ℚ :=
  [3, 3, 3, 0, 5, 5, 2, 2, 2, 2, 2, 2, 5, 5, 5, 5,
   5, 5, 5, 5, 3, 3, 3, 0, 0, 3, 3,
   2, 2, 2, 2, 2, 5, 5, 5, 2, 2, 2, 2, 2 / 10, 2 / 10, 5, 5,
   5, 5, 8 / 10, 8 / 10, 5, 2 / 10, 3, 3]

/-- `DisTime_default`. -/
def disTimeTable : List ℚ :=
  [0, 0, 0, 0, 1, 1, 5 / 10, 5 / 10, 5 / 10, 5 / 10, 5 / 10, 5 / 10, 1, 1, 2 / 10, 2 / 10,
   2 / 10, 2 / 10, 2 / 10, 2 / 10, 2 / 10, 0, 0, 0, 0, 6, 6,
   0, 0, 0, 0, 2 / 10, 180, 180, 2 / 10, 180, 180, 180, 180, 180, 180, 1, 1,
   1, 1, 180, 180, 180, 180, 2 / 10, 2 / 10]

def conTimeDefault (i : FaultId) : ℚ := conTimeTable.getD i 0
def disTimeDefault (i : FaultId) : ℚ := disTimeTable.getD i 0

/-- `t * 100` in double arithmetic, for a constant `t` of the source. -/
def times100 (t : ℚ) : ℚ := toDouble (toDouble t * 100)

/-- The conversion of a `double` to `u16`. -/
def toU16 (q : ℚ) : UInt16 := UInt16.ofNat ⌊q⌋.toNat

namespace FaultType

def setDisTime (f : FaultType) (i : FaultId) (t : UInt16) : FaultType :=
  { f with faultDisTime := Function.update f.faultDisTime i t }

def setConTime (f : FaultType) (i : FaultId) (t : UInt16) : FaultType :=
  { f with faultConTime := Function.update f.faultConTime i t }

def setBit (f : FaultType) (i : FaultId) : FaultType :=
  { f with
    faultAry := Function.update f.faultAry (faultWord i) (f.faultAry (faultWord i) ||| faultBit i) }

def clearBit (f : FaultType) (i : FaultId) : FaultType :=
  { f with
    faultAry :=
      Function.update f.faultAry (faultWord i) (f.faultAry (faultWord i) &&& ~~~faultBit i) }

/-- Record a severe fault: `temp1 >= 2`. -/
def record (f : FaultType) (i : FaultId) : FaultType :=
  if h : 2 ≤ (i : Nat) / 16 then
    let w : Fin 3 := ⟨i / 16 - 2, by have h : (i : Nat) < 66 := i.isLt; omega⟩
    { f with
      faultRcdFlg := Function.update f.faultRcdFlg w (f.faultRcdFlg w ||| faultBit i)
      count := f.count + 1 }
  else f

/-- The body of the loop of `fault_Run`. -/
def runStep (f : FaultType) (i : FaultId) : FaultType :=
  if f.faultMask i = faultMaskSet then
    let f := f.setDisTime i (toU16 (times100 (disTimeDefault i)))
    if f.faultAry (faultWord i) &&& faultBit i = 0 then
      if ((f.faultConTime i).toNat : ℚ) < times100 (conTimeDefault i) then
        f.setConTime i (f.faultConTime i + 1)
      else (f.setBit i).record i
    else f
  else
    let f := f.setConTime i 0
    if f.faultAry (faultWord i) &&& faultBit i ≠ 0 then
      if 0 < f.faultDisTime i then f.setDisTime i (f.faultDisTime i - 1) else f.clearBit i
    else f

/-- `fault_Run` on `FAULT`. -/
def faultRun (f : FaultType) : FaultType := (List.finRange ftMax).foldl runStep f

/-- What `fault_Run` stores in `MB_SYS_INFO.sFault` at its end. -/
def sFault (f : FaultType) : Bool :=
  if f.faultAry 2 = 0 ∧ f.faultAry 3 = 0 ∧ f.faultAry 4 = 0 then false else true

end FaultType

/-! ## `FaultAnalyse` -/

/-- `FanIn_Temp_Over`, `FanOut_Temp_Over`, `Temp_Min` and `Temp_Max`. -/
def fanInTempOver : UInt16 := 85
def fanOutTempOver : UInt16 := 85
def tempMin : UInt16 := 10
def tempMax : UInt16 := 170

/-- `CF_CHARGE_U_ERR`, `CF_CHARGE_U_OK_L` and `CF_CHARGE_U_OK_H`. -/
def cfChargeUErr : UInt16 := 15000
def cfChargeUOkL : UInt16 := 500
def cfChargeUOkH : UInt16 := 12000

/-- The temperatures of the object `AD`. -/
structure AppAd where
  fanInTemp : UInt16
  fanOutTemp : UInt16
  module1Temp : UInt16
  module2Temp : UInt16
  cap1Temp : UInt16
  cap2Temp : UInt16

/-- The members of `MB_AN_VAL` that are looked at. -/
structure AnVal where
  ch1AC : UInt16
  ch2AC : UInt16
  busVolt : UInt16
  ch1InCurent : UInt16
  ch2InCurent : UInt16
  module1Temp : UInt16
  module2Temp : UInt16
  cap1Temp : UInt16
  cap2Temp : UInt16
  chargeVolt : ModuleId → UInt16

/-- The members of `MB_IO_IN` that are looked at. -/
structure InFlags where
  inFuse1N : Bool
  inFuse2N : Bool
  outFuseN : ModuleId → Bool
  preConN : Bool
  mainCon1N : Bool
  mainCon2N : Bool
  outConN : ModuleId → Bool

/-- The members of `MB_SYS_INFO` that are looked at. -/
structure SysInfo where
  canFault : Bool
  adFault : Bool
  busVoltOK : Bool
  busConnect : Bool
  charging : Bool

/-- What `FaultAnalyse` reads. -/
structure FaultIn where
  info : SysInfo
  ad : AppAd
  an : AnVal
  ioIn : InFlags
  ioOut : OutFlags
  para : MBPara
  cbSys : ModuleId → ModuleSys

/-- Word `j` of `MB_Para_STYP`. -/
def paraWord (p : MBPara) (j : Nat) : UInt16 :=
  (p.toList.getD (2 * j) 0).toUInt16 + (p.toList.getD (2 * j + 1) 0).toUInt16 * 256

def acInVoltUnderW (p : MBPara) : UInt16 := paraWord p 0
def acInVoltOverW (p : MBPara) : UInt16 := paraWord p 1
def busVoltUnderW (p : MBPara) : UInt16 := paraWord p 3
def busVoltOverW (p : MBPara) : UInt16 := paraWord p 4
/-- `CH1chargeVoltOverW` to `CH5chargeVoltOverW`. -/
def chChargeVoltOverW (p : MBPara) (k : ModuleId) : UInt16 := paraWord p (5 + k)
def acInCurrOverW (p : MBPara) : UInt16 := paraWord p 11
def lxTemprOver (p : MBPara) : UInt16 := paraWord p 12
def capxTemprOver (p : MBPara) : UInt16 := paraWord p 13

/-- One test of `FaultAnalyse`: `set` asserts the mask of the fault, otherwise
`clear` clears it. -/
structure Check where
  fault : FaultId
  set : Bool
  clear : Bool

/-- A test with an `else` branch. -/
def Check.of (i : FaultId) (b : Bool) : Check := ⟨i, b, !b⟩

def Check.run (mask : FaultId → UInt16) (c : Check) : FaultId → UInt16 :=
  if c.set then Function.update mask c.fault faultMaskSet
  else if c.clear then Function.update mask c.fault 0
  else mask

/-- A temperature outside the range of its sensor. -/
def sensorFails (t : UInt16) : Bool := t ≤ tempMin || tempMax ≤ t

/-- A voltage `u` that cannot be, judged by a second one. -/
def voltFails (busConnect : Bool) (u other : UInt16) : Bool :=
  20000 < u || (busConnect && u < 500 && 1000 < other)

/-- The current sensor of a rectifier, tested only while nothing is connected. -/
def currentFails (info : SysInfo) (i : FaultId) (curr : UInt16) : Check :=
  let idle := !info.charging && !info.busConnect
  ⟨i, idle && 1000 < curr, idle && curr < 200⟩

/-- The current of a rectifier, tested only while the bus voltage is in range. -/
def currentOver (info : SysInfo) (p : MBPara) (i : FaultId) (curr : UInt16) : Check :=
  ⟨i, info.busVoltOK && acInCurrOverW p < curr, info.busVoltOK && curr < acInCurrOverW p⟩

/-- The output voltage sensor of a module. -/
def chargeVoltFails (i : FaultIn) (k : ModuleId) : Check :=
  let u := i.an.chargeVolt k
  ⟨ftOutUFail k, !i.info.adFault && cfChargeUErr < u,
    (i.cbSys k).input.charging && cfChargeUOkL < u && u < cfChargeUOkH⟩

/-- The lost links. The test for the AD board has the index of the CAN. -/
def linkChecks (i : FaultIn) : List Check :=
  [.of wnCanMxCx i.info.canFault,
    .of wnCanMxCx i.info.adFault]

/-- Fans and temperature sensors. -/
def tempChecks (i : FaultIn) : List Check :=
  [.of wnInTOver (fanInTempOver < i.ad.fanInTemp),
    .of wnOutTOver (fanOutTempOver < i.ad.fanOutTemp),
    .of wnInTFail (sensorFails i.ad.fanInTemp),
    .of wnOutTFail (sensorFails i.ad.fanOutTemp),
    .of wnL1TFail (sensorFails i.ad.module1Temp),
    .of wnL2TFail (sensorFails i.ad.module2Temp),
    .of wnCap1TFail (sensorFails i.ad.cap1Temp),
    .of wnCap2TFail (sensorFails i.ad.cap2Temp)]

/-- Contactors that do not follow their outputs. -/
def feedbackChecks (i : FaultIn) : List Check :=
  [.of wnPreConFb (i.ioIn.preConN != i.ioOut.preConN),
    .of wnMainCon1Fb (i.ioIn.mainCon1N != i.ioOut.mainCon1N),
    .of wnMainCon2Fb (i.ioIn.mainCon2N != i.ioOut.mainCon2N)] ++
  (List.finRange 5).map fun k => .of (wnOutConFb k) (i.ioIn.outConN k != i.ioOut.outConN k)

/-- Input and bus voltages, and modules that do not switch on. -/
def voltChecks (i : FaultIn) : List Check :=
  [.of wnAc1UFail (voltFails i.info.busConnect i.an.ch1AC i.an.busVolt),
    .of wnAc2UFail (voltFails i.info.busConnect i.an.ch2AC i.an.busVolt),
    .of wnBusUFail (voltFails i.info.busConnect i.an.busVolt i.an.ch1AC),
    .of wnAc1UUnder (i.an.ch1AC < acInVoltUnderW i.para),
    .of wnAc2UUnder (i.an.ch2AC < acInVoltUnderW i.para)] ++
  (List.finRange 5).map fun k => .of (wnOutOnFail k) (i.cbSys k).output.pwmOnFail

def fuseChecks (i : FaultIn) : List Check :=
  [.of ftInFuse1 (!i.ioIn.inFuse1N),
    .of ftInFuse2 (!i.ioIn.inFuse2N)] ++
  (List.finRange 5).map fun k => .of (ftOutFuse k) (!i.ioIn.outFuseN k)

def voltOverChecks (i : FaultIn) : List Check :=
  [.of ftAc1UOver (acInVoltOverW i.para ≤ i.an.ch1AC),
    .of ftAc2UOver (acInVoltOverW i.para ≤ i.an.ch2AC),
    .of ftBusUOver (busVoltOverW i.para ≤ i.an.busVolt),
    .of ftBusUUnder (i.an.busVolt ≤ busVoltUnderW i.para)] ++
  (List.finRange 5).map fun k =>
    .of (ftOutUOver k) (chChargeVoltOverW i.para k ≤ i.an.chargeVolt k)

def tempOverChecks (i : FaultIn) : List Check :=
  [.of ftL1TOver (lxTemprOver i.para ≤ i.an.module1Temp),
    .of ftL2TOver (lxTemprOver i.para ≤ i.an.module2Temp),
    .of ftCap1TOver (capxTemprOver i.para ≤ i.an.cap1Temp),
    .of ftCap2TOver (capxTemprOver i.para ≤ i.an.cap2Temp)]

/-- Output voltages, rectifier currents, and modules that do not switch off. -/
def moduleChecks (i : FaultIn) : List Check :=
  (List.finRange 5).map (chargeVoltFails i) ++
  [currentFails i.info ftL1IFail i.an.ch1InCurent,
    currentFails i.info ftL2IFail i.an.ch2InCurent,
    currentOver i.info i.para ftL1IOver i.an.ch1InCurent,
    currentOver i.info i.para ftL2IOver i.an.ch2InCurent] ++
  (List.finRange 5).map fun k => .of (ftOutOffFail k) (i.cbSys k).output.pwmOffFail

/-- The tests of `FaultAnalyse`, in order. -/
def checks (i : FaultIn) : List Check :=
  linkChecks i ++ tempChecks i ++ feedbackChecks i ++ voltChecks i ++ fuseChecks i ++
    voltOverChecks i ++ tempOverChecks i ++ moduleChecks i

/-- `FaultAnalyse`. -/
def faultAnalyse (i : FaultIn) (f : FaultType) : FaultType :=
  { f with faultMask := (checks i).foldl Check.run f.faultMask }

/-! ## The delays in calls -/

/-- The delays of a fault in calls of `fault_Run`. -/
def conTicks (i : FaultId) : Nat := ⌊100 * conTimeDefault i⌋.toNat
def disTicks (i : FaultId) : Nat := ⌊100 * disTimeDefault i⌋.toNat

/-- Every product is a whole number, and double arithmetic gets it exactly. -/
theorem times100_con : ∀ i, times100 (conTimeDefault i) = 100 * conTimeDefault i ∧
    (conTicks i : ℚ) = 100 * conTimeDefault i := by
  decide +kernel

theorem times100_dis : ∀ i, times100 (disTimeDefault i) = 100 * disTimeDefault i ∧
    (disTicks i : ℚ) = 100 * disTimeDefault i := by
  decide +kernel

theorem conTicks_le : ∀ i, conTicks i ≤ 500 := by decide +kernel

theorem disTicks_le : ∀ i, disTicks i ≤ 18000 := by decide +kernel

end SC04Monitor.UserApp
