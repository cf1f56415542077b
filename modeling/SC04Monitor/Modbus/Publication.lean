import SC04Monitor.Modbus.RegMap
import SC04Monitor.UserApp.StatusBlock

/-! # What the touch screen reads

The status goes through three structures: the logic task keeps `MB_LGA`, hands it over
to `HMI` (`HmiOutputUpdate`), and `Bsp_Modbus_Cycle` copies `HMI` into the image of the
registers. The copies of the first step are commented out, so the second one publishes
what `HMI` held at power-on. -/

namespace SC04Monitor.Modbus
open SC04Monitor.Lib.ByteMem SC04Monitor.Lib.WordMem SC04Monitor.Lib.Scan SC04Monitor.UserApp

/-! ## `HMI_Status_STYP` -/

/-- `In_Flags_STYP` besides `cabinetEnN`. -/
structure InFlags where
  inFuseN : Fin 2 → Bool
  outFuseN : ModuleId → Bool
  preConN : Bool
  mainConN : Fin 2 → Bool
  outConN : ModuleId → Bool

/-- The part of `AN_VAL_TYPE` that comes from the board's own converters. -/
structure AnVal where
  ch1AC : UInt16
  ch2AC : UInt16
  busVolt : UInt16
  ch1InCurent : UInt16
  ch2InCurent : UInt16
  module1Temp : UInt16
  module2Temp : UInt16
  fanInTemp : UInt16
  fanOutTemp : UInt16
  cap1Temp : UInt16
  cap2Temp : UInt16

/-- `TIME_TYPE`. -/
structure TimeType where
  year : UInt8
  month : UInt8
  day : UInt8
  hour : UInt8
  min : UInt8
  sec : UInt8

/-- `HMI_Status_STYP`. -/
structure MbStatus extends HmiStatus where
  inFlags : InFlags
  anVal : AnVal
  time : TimeType
  /-- `Warn1`, `Warn2`, `Fault1` to `Fault3`. -/
  faults : Fin 5 → UInt16
  /-- `Event` to `res1`: nothing writes them. -/
  rest : Vector UInt16 13

/-- The word of a bit field whose members are one bit each. -/
def bitWord (bs : List Bool) : UInt16 := bs.foldr (fun b w => b.toUInt16 + 2 * w) 0

namespace MbStatus

def inFlagsWord (p : MbStatus) : UInt16 :=
  bitWord (p.cabinetEnN :: (List.finRange 2).map p.inFlags.inFuseN ++
    (List.finRange 5).map p.inFlags.outFuseN ++ p.inFlags.preConN ::
    (List.finRange 2).map p.inFlags.mainConN ++ (List.finRange 5).map p.inFlags.outConN)

def runFlagsWord (p : MbStatus) : UInt16 :=
  bitWord (p.runFlags.canLostN :: p.runFlags.adLost :: false ::
    (List.finRange 5).map p.runFlags.railFailN)

/-- The words before `Time`. -/
def headWords (p : MbStatus) : List UInt16 :=
  p.sysMode :: ((List.finRange 5).flatMap fun k => [p.dcdcMode k, p.dcdcStep k]) ++
    [p.inFlagsWord, p.runFlagsWord, p.anVal.ch1AC, p.anVal.ch2AC, p.anVal.busVolt] ++
    (List.finRange 5).map p.dcOutVolt ++
    [p.anVal.ch1InCurent, p.anVal.ch2InCurent, p.anVal.module1Temp, p.anVal.module2Temp,
      p.anVal.fanInTemp, p.anVal.fanOutTemp, p.anVal.cap1Temp, p.anVal.cap2Temp]

def timeBytes (p : MbStatus) : List UInt8 :=
  [p.time.year, p.time.month, p.time.day, p.time.hour, p.time.min, p.time.sec]

/-- The words between `Time` and `cb1Status`. -/
def tailWords (p : MbStatus) : List UInt16 := (List.finRange 5).map p.faults ++ p.rest.toList

/-- The bytes of the structure. -/
def bytes (p : MbStatus) : List UInt8 :=
  p.headWords.flatMap wordBytes ++ p.timeBytes ++ p.tailWords.flatMap wordBytes ++
    (List.finRange 5).flatMap fun k => (p.cbStatus k).toList

theorem length_flatMap_wordBytes (ws : List UInt16) :
    (ws.flatMap wordBytes).length = 2 * ws.length := by
  induction ws with
  | nil => rfl
  | cons w ws ih =>
    rw [List.flatMap_cons, List.length_append, ih, List.length_cons]
    simp only [wordBytes, List.length_cons, List.length_nil]
    omega

@[simp] theorem length_bytes (p : MbStatus) : p.bytes.length = 220 := by
  have hhead : p.headWords.length = 29 := rfl
  have htime : p.timeBytes.length = 6 := rfl
  have htail : p.tailWords.length = 18 := by
    unfold tailWords
    rw [List.length_append, List.length_map, List.length_finRange, Vector.length_toList]
  have hcb : ((List.finRange 5).flatMap fun k => (p.cbStatus k).toList).length = 120 := by
    rw [List.length_flatMap]
    simp only [Vector.length_toList]
    rfl
  unfold bytes
  rw [List.length_append, List.length_append, List.length_append, length_flatMap_wordBytes,
    length_flatMap_wordBytes, hhead, htime, htail, hcb]

/-- `MB_LGA.mbStatus` at power-on. -/
def zero : MbStatus where
  sysMode := 0
  dcdcMode := fun _ => 0
  dcdcStep := fun _ => 0
  cabinetEnN := false
  runFlags := ⟨false, false, fun _ => false⟩
  dcOutVolt := fun _ => 0
  cbStatus := fun _ => .replicate 24 0
  inFlags := ⟨fun _ => false, fun _ => false, false, fun _ => false, fun _ => false⟩
  anVal := ⟨0, 0, 0, 0, 0, 0, 0, 0, 0, 0, 0⟩
  time := ⟨0, 0, 0, 0, 0, 0⟩
  faults := fun _ => 0
  rest := .replicate 13 0

end MbStatus

/-- What `MonitorUpdate` reads besides the state of the logic task: the flags of the CAN
task, the digital and analog inputs, `TIME_RTC` and `FAULT.FaultAry`. -/
structure MonitorIn where
  adFault : Bool
  canFault : Bool
  canStateWord : UInt16
  ioIn : InFlags
  anVal : AnVal
  timeRtc : TimeType
  faultAry : Fin 5 → UInt16

/-- The second half of `MonitorUpdate`; `In_Flags.preConN` is not among what it writes. -/
def monitorUpdateStatus (x : MonitorIn) (s : Logic) (p : MbStatus) : MbStatus :=
  { s.monitorStatus x.adFault x.canFault with
    inFlags := { x.ioIn with preConN := p.inFlags.preConN }
    anVal := x.anVal
    time := x.timeRtc
    faults := x.faultAry
    rest := p.rest }

/-! ## The blocks -/

/-- The blocks that `Bsp_Modbus_Cycle` copies, in its order. -/
inductive OutBlock
  | mbStatus
  | mbRdPara
  | moduePara (k : ModuleId)
  | version
  deriving DecidableEq

namespace OutBlock

def all : List OutBlock := .mbStatus :: .mbRdPara :: (List.finRange 5).map .moduePara ++ [.version]

/-- The size in bytes. -/
def size : OutBlock → Nat
  | .mbStatus => 220
  | .mbRdPara => 28
  | .moduePara _ => 24
  | .version => 12

/-- The member of `MB_RegData`. -/
def member : OutBlock → RegMember
  | .mbStatus => .mbStatus
  | .mbRdPara => .mbRdPara
  | .moduePara k => .moduePara (Fin.castAdd 3 k)
  | .version => .version

/-- Its first byte in the image. -/
def addr (b : OutBlock) : Nat := 2 * b.member.offset

theorem mem_all : ∀ b : OutBlock, b ∈ all
  | .mbStatus | .mbRdPara | .version => by decide
  | .moduePara 0 | .moduePara 1 | .moduePara 2 | .moduePara 3 | .moduePara 4 => by decide

theorem apart : ∀ b ∈ all, ∀ c ∈ all, b ≠ c → Apart b.addr b.size c.addr c.size := by
  unfold Apart
  decide +kernel

end OutBlock

/-- The part of `HMI` that goes to the touch screen. -/
structure HmiOut where
  mbStatus : MbStatus
  mbRdPara : MBPara
  moduePara : ModuleId → CBPara
  version : Vector UInt8 12

namespace HmiOut

def bytes (o : HmiOut) : OutBlock → List UInt8
  | .mbStatus => o.mbStatus.bytes
  | .mbRdPara => o.mbRdPara.toList
  | .moduePara k => (o.moduePara k).toList
  | .version => o.version.toList

@[simp] theorem length_bytes (o : HmiOut) (b : OutBlock) : (o.bytes b).length = b.size := by
  cases b with
  | mbStatus => exact MbStatus.length_bytes _
  | mbRdPara => exact Vector.length_toList
  | moduePara k => exact Vector.length_toList
  | version => exact Vector.length_toList

/-- `HMI = { 0 }`. -/
def zero : HmiOut := ⟨.zero, .replicate 28 0, fun _ => .replicate 24 0, .replicate 12 0⟩

end HmiOut

/-- The members of `MB_RegData` that the touch screen writes, with their sizes in words. -/
def commandRegs : List (RegMember × Nat) :=
  (.ctrCmd, 8) :: (.mbWrPara, 14) :: (List.finRange 8).map (fun k => (.modueWPara k, 12)) ++
    [(.time, 6)]

theorem commandRegs_apart : ∀ m ∈ commandRegs, ∀ b ∈ OutBlock.all,
    Apart b.addr b.size (2 * m.1.offset) (2 * m.2) := by
  unfold Apart
  decide +kernel

/-! ## The two tasks -/

/-- What the logic task and the serial task work on. `app` is the image of the registers
with the part of `HMI` that the touch screen writes, `hmiOut` the other part, `mbStatus`
the member of `MB_LGA`. -/
structure Board where
  logic : Logic
  mbStatus : MbStatus
  hmiOut : HmiOut
  app : MbApp
  timeDelay : Nat
  modbusCnt : Nat
  hmiFault : Bool

/-- A round of `Bsp_Logic_task`, an interrupt with a byte from the touch screen, an access
of it to the registers, or a call of `Bsp_Modbus_Cycle`. -/
inductive BoardTurn
  | tick (i : TickIn) (x : MonitorIn)
  | receive
  | access (buf : Nat → UInt8) (usAddress usNRegs : UInt16) (eMode : MbRegisterMode)
  | cycle

namespace Board

def zero : Board := ⟨.init, .zero, .zero, .zero, 0, 0, false⟩

/-- What the logic task sees when it starts a round. -/
def view (x : MonitorIn) (b : Board) : Logic :=
  { b.logic with
    hmi := b.app.hmi.toHmi
    can := { b.logic.can with canStateWord := x.canStateWord } }

/-- `HmiOutputUpdate`: its statements are commented out. -/
def hmiOutputUpdate (b : Board) : Board := b

/-- A round of the logic task; the touch screen writes between the rounds. -/
def tick (i : TickIn) (x : MonitorIn) (b : Board) : Board :=
  let i := { i with modbus := id }
  let t := (b.view x).tick i
  hmiOutputUpdate { b with
    logic := t
    mbStatus := monitorUpdateStatus x ((b.view x).atMonitor i) b.mbStatus
    app := { b.app with hmi := { b.app.hmi with toHmi := t.hmi } } }

/-- `timeDelay` after the next call of `Bsp_Modbus_Cycle`. -/
def nextDelay (b : Board) : Nat := if 65000 ≤ b.timeDelay + 1 then 0 else b.timeDelay + 1

/-- `Bsp_Modbus_Cycle`; `VersionInit` stays 0. -/
def modbusCycle (b : Board) : Board :=
  let b := { b with timeDelay := b.nextDelay }
  if b.timeDelay % 10 = 0 then
    if 0 < b.modbusCnt then
      { b with
        modbusCnt := 0
        hmiFault := false
        app := { b.app with reg := writeAll OutBlock.addr b.hmiOut.bytes OutBlock.all b.app.reg } }
    else { b with modbusCnt := 0, hmiFault := true }
  else b

def step (b : Board) : BoardTurn → Board
  | .tick i x => b.tick i x
  | .receive => { b with modbusCnt := (b.modbusCnt + 1) % 2 ^ 16 }
  | .access buf usAddress usNRegs eMode =>
    { b with app := (eMBRegHoldingCB b.app buf usAddress usNRegs eMode).2.2 }
  | .cycle => b.modbusCycle

/-- The next call of `Bsp_Modbus_Cycle` publishes. -/
def Publishes (b : Board) : Prop := b.nextDelay % 10 = 0 ∧ 0 < b.modbusCnt

/-- The blocks of the registers are those of `MB_LGA`. -/
structure Published (b : Board) : Prop where
  mbStatus : readBytes b.app.reg OutBlock.mbStatus.addr 220 = b.mbStatus.bytes
  mbRdPara : readBytes b.app.reg OutBlock.mbRdPara.addr 28 = b.logic.lga.mbRdPara.toList
  moduePara : ∀ k, readBytes b.app.reg (OutBlock.moduePara k).addr 24 = (b.logic.lga.cbPara k).toList

/-- Every byte of the blocks of `MB_LGA` is zero. -/
structure Blank (b : Board) : Prop where
  mbStatus : b.mbStatus.bytes = .replicate 220 0
  mbRdPara : b.logic.lga.mbRdPara = .replicate 28 0
  moduePara : ∀ k, b.logic.lga.cbPara k = .replicate 24 0

/-- The registers of the commands and of the written parameters hold what they held. -/
def CommandsKept (b b' : Board) : Prop :=
  ∀ m ∈ commandRegs, readBytes b'.app.reg (2 * m.1.offset) (2 * m.2) =
    readBytes b.app.reg (2 * m.1.offset) (2 * m.2)

/-! ## The cycle -/

/-- `Bsp_Modbus_Cycle` writes the image only where it publishes. -/
theorem modbusCycle_reg (b : Board) :
    b.modbusCycle.app.reg = b.app.reg ∨
      b.modbusCycle.app.reg = writeAll OutBlock.addr b.hmiOut.bytes OutBlock.all b.app.reg := by
  unfold modbusCycle
  dsimp only
  split_ifs
  · exact .inr rfl
  · exact .inl rfl
  · exact .inl rfl

theorem modbusCycle_publishes {b : Board} (h : b.Publishes) :
    b.modbusCycle.app.reg = writeAll OutBlock.addr b.hmiOut.bytes OutBlock.all b.app.reg := by
  unfold modbusCycle
  dsimp only
  rw [if_pos h.1, if_pos h.2]

theorem modbusCycle_lga (b : Board) :
    b.modbusCycle.logic = b.logic ∧ b.modbusCycle.mbStatus = b.mbStatus ∧
      b.modbusCycle.hmiOut = b.hmiOut := by
  unfold modbusCycle
  dsimp only
  split_ifs <;> exact ⟨rfl, rfl, rfl⟩

/-- Whether it publishes or not, the cycle changes no register that the touch screen
writes. -/
theorem modbusCycle_commands (b : Board) : CommandsKept b b.modbusCycle := by
  intro m hm
  rcases b.modbusCycle_reg with h | h
  · rw [h]
  · rw [h]
    refine readBytes_writeAll_frame OutBlock.addr b.hmiOut.bytes fun blk hblk => ?_
    rw [HmiOut.length_bytes]
    exact commandRegs_apart m hm blk hblk

/-- What is published is what `HMI` holds. -/
theorem modbusCycle_block {b : Board} (h : b.Publishes) (blk : OutBlock) :
    readBytes b.modbusCycle.app.reg blk.addr blk.size = b.hmiOut.bytes blk := by
  have hread := readBytes_writeAll OutBlock.addr b.hmiOut.bytes (l := OutBlock.all)
    (m := b.app.reg) (i := blk) (by decide) blk.mem_all fun c hc hne => by
      rw [HmiOut.length_bytes, HmiOut.length_bytes]
      exact OutBlock.apart c hc blk blk.mem_all hne
  rw [HmiOut.length_bytes] at hread
  rw [modbusCycle_publishes h]
  exact hread

/-! ## Runs -/

/-- The state after some turns of the two tasks. -/
def run (turns : List BoardTurn) : Board := turns.foldl step zero

theorem step_hmiOut (b : Board) (t : BoardTurn) : (b.step t).hmiOut = b.hmiOut := by
  cases t with
  | tick i x => rfl
  | receive => rfl
  | access buf usAddress usNRegs eMode => rfl
  | cycle => exact b.modbusCycle_lga.2.2

/-- No task ever writes what `HMI` has for the touch screen. -/
theorem run_hmiOut (turns : List BoardTurn) : (run turns).hmiOut = .zero :=
  scan_frame Board.hmiOut (fun t _ b => b.step_hmiOut t) zero

theorem zero_bytes : MbStatus.zero.bytes = .replicate 220 0 := by decide +kernel

/-- After whatever run a cycle that publishes publishes the blocks of `MB_LGA` exactly if
all their bytes are zero; it never changes a register of a command. -/
theorem status_published_iff (turns : List BoardTurn) (h : (run turns).Publishes) :
    (Published (run turns).modbusCycle ↔ (run turns).Blank) ∧
      CommandsKept (run turns) (run turns).modbusCycle := by
  refine ⟨?_, modbusCycle_commands _⟩
  obtain ⟨hlogic, hstatus, -⟩ := (run turns).modbusCycle_lga
  have hblock : ∀ blk : OutBlock, readBytes (run turns).modbusCycle.app.reg blk.addr blk.size =
      HmiOut.zero.bytes blk := by
    intro blk
    rw [modbusCycle_block h, run_hmiOut]
  constructor
  · rintro ⟨hs, hrd, hpara⟩
    rw [hstatus] at hs
    rw [hlogic] at hrd hpara
    refine ⟨?_, ?_, fun k => ?_⟩
    · exact hs.symm.trans ((hblock .mbStatus).trans zero_bytes)
    · exact Vector.toList_inj.mp (hrd.symm.trans (hblock .mbRdPara))
    · exact Vector.toList_inj.mp ((hpara k).symm.trans (hblock (.moduePara k)))
  · rintro ⟨hs, hrd, hpara⟩
    refine ⟨?_, ?_, fun k => ?_⟩
    · rw [hstatus, hs]
      exact (hblock .mbStatus).trans zero_bytes
    · rw [hlogic, hrd]
      exact hblock .mbRdPara
    · rw [hlogic, hpara k]
      exact hblock (.moduePara k)

/-- A round of the logic task, a byte from the touch screen, and the cycle up to the call
that publishes. -/
def statusRun (x : MonitorIn) : List BoardTurn :=
  .tick quietTick x :: .receive :: .replicate 9 .cycle

theorem modbusCycle_idle {b : Board} (h : b.nextDelay % 10 ≠ 0) :
    b.modbusCycle = { b with timeDelay := b.nextDelay } := by
  unfold modbusCycle
  dsimp only
  rw [if_neg h]

/-- The cycle does nothing in nine calls of ten. -/
theorem cycles_idle {b : Board} (h : b.timeDelay = 0) (n : Nat) (hn : n < 10) :
    ((List.replicate n BoardTurn.cycle).foldl step b).timeDelay = n ∧
      ((List.replicate n BoardTurn.cycle).foldl step b).modbusCnt = b.modbusCnt := by
  induction n with
  | zero => exact ⟨h, rfl⟩
  | succ n ih =>
    obtain ⟨hd, hc⟩ := ih (by omega)
    rw [List.replicate_succ', List.foldl_append, List.foldl_cons, List.foldl_nil]
    generalize (List.replicate n BoardTurn.cycle).foldl step b = c at hd hc
    have hnext : c.nextDelay = n + 1 := by
      unfold nextDelay
      rw [if_neg (by omega), hd]
    show c.modbusCycle.timeDelay = n + 1 ∧ c.modbusCycle.modbusCnt = b.modbusCnt
    rw [modbusCycle_idle (by omega)]
    exact ⟨hnext, hc⟩

theorem statusRun_publishes (x : MonitorIn) : (run (statusRun x)).Publishes := by
  have hstart : ((zero.step (.tick quietTick x)).step .receive).timeDelay = 0 := rfl
  have hcnt : ((zero.step (.tick quietTick x)).step .receive).modbusCnt = 1 := rfl
  obtain ⟨hd, hc⟩ := cycles_idle hstart 9 (by decide)
  unfold run statusRun
  rw [List.foldl_cons, List.foldl_cons]
  unfold Publishes nextDelay
  rw [hd, hc, hcnt]
  decide

/-- The inputs are zero, no rail fails, and the clock has not been read. -/
def blankIn : MonitorIn where
  adFault := false
  canFault := false
  canStateWord := 0x001F
  ioIn := MbStatus.zero.inFlags
  anVal := MbStatus.zero.anVal
  timeRtc := MbStatus.zero.time
  faultAry := fun _ => 0

theorem blankIn_published :
    Published (run (statusRun blankIn)).modbusCycle ∧
      CommandsKept (run (statusRun blankIn)) (run (statusRun blankIn)).modbusCycle := by
  have hblank : (run (statusRun blankIn)).Blank :=
    ⟨by decide +kernel, by decide +kernel, by decide +kernel⟩
  obtain ⟨hiff, hkept⟩ := status_published_iff (statusRun blankIn) (statusRun_publishes blankIn)
  exact ⟨hiff.mpr hblank, hkept⟩

/-- 220.0 V at the first input. -/
def acIn : MonitorIn := { blankIn with anVal := { blankIn.anVal with ch1AC := 2200 } }

/-- The touch screen reads 0 V. -/
theorem acIn_not_published :
    (run (statusRun acIn)).Publishes ∧ ¬ Published (run (statusRun acIn)).modbusCycle := by
  refine ⟨statusRun_publishes acIn, fun h => ?_⟩
  have hzero := modbusCycle_block (statusRun_publishes acIn) .mbStatus
  rw [run_hmiOut] at hzero
  have hbytes := h.mbStatus.symm.trans hzero
  rw [(run (statusRun acIn)).modbusCycle_lga.2.1] at hbytes
  exact absurd hbytes (by decide +kernel)

end Board

end SC04Monitor.Modbus
