import Mathlib.Data.Fintype.Pi
import Mathlib.Data.Vector.Basic

/-! # The shared data of the monitor board

The records of `MB_DataStruct.h`, `Common.h` and `logicApp.h` that the logic task
reads and writes, with the fields some modelled function uses. One-bit members
are `Bool`; values another party may write freely keep their width. -/

namespace SC04Monitor.UserApp

/-- The five charging modules: `cb1_SYS` to `cb5_SYS` and whatever else the source
numbers from 1 to 5. Module 1 is `0`. -/
abbrev ModuleId := Fin 5

-- for the literals of `ModuleId`
instance neZero_modules : @NeZero Nat Zero.ofOfNat0 5 := ⟨Nat.succ_ne_zero 4⟩

/-! ## Constants of `logicApp.h` -/

/-- `MB_SYS_INFO.SysModeSet`. -/
def sysModeCharge : UInt16 := 0
def sysModeDeviceTest : UInt16 := 1
def sysModeSleep : UInt16 := 2

/-- `CtrCmd.SleepCmd`. -/
def inSleep : UInt16 := 1
def outSleep : UInt16 := 2

/-- `input.Charge_Mode_Set`. -/
def chargeModeAuto : UInt16 := 1
def chargeModeManual : UInt16 := 2
def chargeModeStandby : UInt16 := 3

/-- The in-station threshold `CHARGE_STARTV` on a charge voltage. -/
def chargeStartV : UInt16 := 2000

/-! ## Records -/

/-- `Out_Flags_STYP`: the contactor outputs. -/
structure OutFlags where
  preConN : Bool
  mainCon1N : Bool
  mainCon2N : Bool
  /-- `outCon1N` to `outCon5N`. -/
  outConN : ModuleId → Bool
  deriving DecidableEq

/-- `input_styp`: what the logic task knows about a module. -/
structure InputStyp where
  chargeModeSet : UInt16
  chargeEnable : Bool
  instation : Bool
  charging : Bool
  floatChargeN : Bool
  fault : Bool
  deriving DecidableEq

/-- `output_styp`. -/
structure OutputStyp where
  chargeModeNow : UInt16
  pwmOnFail : Bool
  pwmOffFail : Bool
  chargeComplet : Bool
  deriving DecidableEq

/-- `MODULE_SYS_STYP`. -/
structure ModuleSys where
  input : InputStyp
  output : OutputStyp
  deriving DecidableEq

/-- `Charge_Cmd_STYP`: the eight bytes of a charge command. -/
structure ChargeCmd where
  cmd : UInt8
  rate : UInt8
  res : Vector UInt8 6
  deriving DecidableEq

/-- The bytes of a charge command in memory. -/
def ChargeCmd.bytes (c : ChargeCmd) : List UInt8 := c.cmd :: c.rate :: c.res.toList

@[simp] theorem ChargeCmd.length_bytes (c : ChargeCmd) : c.bytes.length = 8 := by
  simp [ChargeCmd.bytes]

/-- `MB_Para_STYP`: fourteen words, compared and copied as bytes. -/
abbrev MBPara := Vector UInt8 28

/-- `CB_Para_STYP`: 24 bytes. -/
abbrev CBPara := Vector UInt8 24

/-- `CAN_CB_Status_STYP`: 24 bytes. -/
abbrev CBStatus := Vector UInt8 24

/-! ## The values at power-on: `MB_LGA` is zero-initialised -/

def OutFlags.off : OutFlags := ⟨false, false, false, fun _ => false⟩

def InputStyp.zero : InputStyp := ⟨0, false, false, false, false, false⟩

def OutputStyp.zero : OutputStyp := ⟨0, false, false, false⟩

def ModuleSys.zero : ModuleSys := ⟨.zero, .zero⟩

def ChargeCmd.zero : ChargeCmd := ⟨0, 0, .replicate 6 0⟩

end SC04Monitor.UserApp
