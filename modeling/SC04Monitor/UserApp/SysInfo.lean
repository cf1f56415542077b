import SC04Monitor.Lib.Ring
import SC04Monitor.UserApp.FaultRun

/-! # The fault snapshots

`sysInfoRecord` of `sysInfo.cc`, called after `fault_Run` in every tick. Every tenth call
stores the status block in a ring and reads the ring out in order; every call counts down
the reports of the recorded faults and gives out the first one that is due. -/

namespace SC04Monitor.UserApp
open SC04Monitor.Lib.Run SC04Monitor.Lib.Ring SC04Monitor.Lib.WordBits

/-- `SYS_INFO_SIZE`. -/
def sysInfoSize : Nat := 64

/-- `SYS_INF_TYPE`: the first 32 words of the status block. -/
abbrev SysInf := Vector UInt16 32

/-! ## The ring -/

/-- The members of `Sys_Info` with the static counter of `sysInfoRecord`. The two arrays
go on behind their 64 entries with whatever lies there. -/
structure InfoRing where
  count : Nat
  fifoRamPtr : Nat
  dataFIFO : Nat → SysInf
  data : Nat → SysInf

/-- The object at power-on after `sysInfInit`; what the allocated ring holds is unknown. -/
def InfoRing.init (dataFIFO : Nat → SysInf) : InfoRing :=
  ⟨10, 0, dataFIFO, fun _ => .replicate 32 0⟩

/-- A `memcpy` between the arrays: from entry `src` on to entry `dst` on. -/
structure InfoCopy where
  src : Nat
  dst : Nat
  entries : Nat

/-- The copies that read the ring out when slot `p` was written last. -/
def headCopy (p : Nat) : InfoCopy := ⟨p + 1, 0, sysInfoSize - p - 1⟩
def tailCopy (p : Nat) : InfoCopy := ⟨0, sysInfoSize - p - 1, p + 1⟩

/-- The copy stays within both arrays. -/
def InfoCopy.InBounds (c : InfoCopy) : Prop :=
  c.src + c.entries ≤ sysInfoSize ∧ c.dst + c.entries ≤ sysInfoSize

def InfoCopy.run (c : InfoCopy) (dataFIFO data : Nat → SysInf) : Nat → SysInf :=
  copyEntries dataFIFO c.src data c.dst c.entries

namespace InfoRing

/-- The slot that the next record goes to. -/
def slot (r : InfoRing) : Nat := if sysInfoSize ≤ r.fifoRamPtr then 0 else r.fifoRamPtr

/-- What a record does. -/
def record (r : InfoRing) (status : SysInf) : InfoRing :=
  let dataFIFO := Function.update r.dataFIFO r.slot status
  { r with
    dataFIFO
    data := (tailCopy r.slot).run dataFIFO ((headCopy r.slot).run dataFIFO r.data)
    fifoRamPtr := r.slot + 1 }

/-- The first part of `sysInfoRecord`. -/
def call (r : InfoRing) (status : SysInf) : InfoRing :=
  if r.count - 1 = 0 then { r with count := 10 }.record status
  else { r with count := r.count - 1 }

end InfoRing

/-! ## The reports -/

/-- `faultDelay`. -/
def faultDelay : UInt16 := 160

/-- The index of a recorded fault, `FT_MAX - 32` of them. -/
abbrev RcdId := Fin 34

/-- The fault that is recorded at `i`. -/
def RcdId.fault (i : RcdId) : FaultId := ⟨i + 32, by unfold ftMax; omega⟩

/-- What `sysInfoRecord` works on: its ring, `FAULT` with the counters `CountDown`, and
`wFaultFlg`. -/
structure SysRecord where
  ring : InfoRing
  fault : FaultType
  countDown : RcdId → UInt16
  wFaultFlg : Bool

def SysRecord.init (dataFIFO : Nat → SysInf) : SysRecord :=
  ⟨.init dataFIFO, .zero, fun _ => 0, false⟩

/-- The word of `FaultRcdFlg` that holds the flag of a recorded fault. -/
def rcdWord (i : RcdId) : Fin 3 := ⟨i / 16, by omega⟩

def rcdBit (i : RcdId) : UInt16 := 1 <<< UInt16.ofNat (i % 16)

namespace SysRecord

/-- The flag of a recorded fault is cleared. -/
def clearRcd (s : SysRecord) (i : RcdId) : SysRecord :=
  { s with fault := { s.fault with
      faultRcdFlg := Function.update s.fault.faultRcdFlg (rcdWord i)
        (s.fault.faultRcdFlg (rcdWord i) &&& ~~~rcdBit i) } }

def setCountDown (s : SysRecord) (i : RcdId) (t : UInt16) : SysRecord :=
  { s with countDown := Function.update s.countDown i t }

/-- The second part of `sysInfoRecord`: it ends with the first report that is due. -/
def reportScan : List RcdId → SysRecord → SysRecord
  | [], s => s
  | i :: is, s =>
    if s.fault.faultRcdFlg (rcdWord i) &&& rcdBit i ≠ 0 then
      if 0 < s.countDown i then reportScan is (s.setCountDown i (s.countDown i - 1))
      else { s with wFaultFlg := true }.clearRcd i
    else reportScan is (s.setCountDown i faultDelay)

/-- `Sys_Info::sysInfoRecord`. -/
def sysInfoRecord (s : SysRecord) (status : SysInf) : SysRecord :=
  reportScan (List.finRange 34) { s with ring := s.ring.call status }

end SysRecord

/-- What a tick brings: the fault masks and the status block. -/
structure RecordIn where
  mask : FaultId → UInt16
  status : SysInf

/-- `fault_Run; sysInfoRecord`. -/
def SysRecord.tick (s : SysRecord) (i : RecordIn) : SysRecord :=
  { s with fault := faultCall s.fault i.mask }.sysInfoRecord i.status

/-! ## The ring over runs -/

section
variable (dataFIFO : Nat → SysInf) (ins : Nat → RecordIn) (n : Nat)

/-- The state before tick `n`. -/
def recordAt : SysRecord := stateAt SysRecord.tick (.init dataFIFO) ins n

/-- The status block that the record with number `r`, counted from 0, stores. -/
def snapshot (r : Nat) : SysInf := (ins (10 * r + 9)).status

variable {dataFIFO ins n}

theorem recordAt_succ :
    recordAt dataFIFO ins (n + 1) = (recordAt dataFIFO ins n).tick (ins n) := by
  unfold recordAt
  rw [stateAt]

/-- What loading, counting and clearing keep, the scan keeps. -/
theorem reportScan_frame {τ : Type*} (obs : SysRecord → τ) {l : List RcdId}
    (hset : ∀ i ∈ l, ∀ s t, obs (SysRecord.setCountDown s i t) = obs s)
    (hclear : ∀ i ∈ l, ∀ s : SysRecord, obs ({ s with wFaultFlg := true }.clearRcd i) = obs s)
    (s : SysRecord) : obs (SysRecord.reportScan l s) = obs s := by
  induction l generalizing s with
  | nil => rfl
  | cons i l ih =>
    have hmem : i ∈ i :: l := List.mem_cons_self
    have hrest := ih (fun j hj => hset j (List.mem_cons_of_mem i hj))
      fun j hj => hclear j (List.mem_cons_of_mem i hj)
    unfold SysRecord.reportScan
    split_ifs
    · rw [hrest, hset i hmem]
    · exact hclear i hmem s
    · rw [hrest, hset i hmem]

theorem reportScan_ring (l : List RcdId) (s : SysRecord) :
    (SysRecord.reportScan l s).ring = s.ring :=
  reportScan_frame SysRecord.ring (fun _ _ _ _ => rfl) (fun _ _ _ => rfl) s

theorem ring_succ : (recordAt dataFIFO ins (n + 1)).ring =
    (recordAt dataFIFO ins n).ring.call (ins n).status := by
  rw [recordAt_succ]
  exact reportScan_ring _ _

/-- What the ring is when `n` records have been taken. -/
structure Recorded (ins : Nat → RecordIn) (n : Nat) (r : InfoRing) : Prop where
  slot : r.slot = n % sysInfoSize
  ring : WrittenRound r.dataFIFO sysInfoSize (snapshot ins) n
  data : ∀ j, j < sysInfoSize → sysInfoSize ≤ n + j → r.data j = snapshot ins (n + j - sysInfoSize)

theorem Recorded.record {r : InfoRing} (h : Recorded ins n r) :
    Recorded ins (n + 1) (r.record (snapshot ins n)) := by
  have hwrite := h.ring.write
  refine ⟨?_, ?_, fun j hj hle => ?_⟩
  · have hlt := Nat.mod_lt n (show 0 < sysInfoSize by decide)
    show (if sysInfoSize ≤ r.slot + 1 then 0 else r.slot + 1) = _
    rw [h.slot, ← Nat.mod_add_mod]
    split_ifs with hfull
    · rw [show n % sysInfoSize + 1 = sysInfoSize by omega, Nat.mod_self]
    · exact (Nat.mod_eq_of_lt (by omega)).symm
  · show WrittenRound (Function.update r.dataFIFO r.slot (snapshot ins n)) _ _ _
    rw [h.slot]
    exact hwrite
  · show (tailCopy r.slot).run _ ((headCopy r.slot).run _ r.data) j = _
    rw [h.slot]
    exact hwrite.unroll (by decide) hj hle

/-- `n` records have been taken, the last one `c` calls ago. -/
structure Waiting (ins : Nat → RecordIn) (n c : Nat) (r : InfoRing) : Prop where
  count : r.count = 10 - c
  recorded : Recorded ins n r

theorem Waiting.call {r : InfoRing} {c : Nat} (h : Waiting ins n c r) (hc : c < 9)
    (status : SysInf) : Waiting ins n (c + 1) (r.call status) := by
  obtain ⟨hcount, hrec⟩ := h
  have hcall : r.call status = { r with count := r.count - 1 } := if_neg (by omega)
  rw [hcall]
  refine ⟨?_, hrec.slot, hrec.ring, hrec.data⟩
  show r.count - 1 = _
  omega

theorem Waiting.record {r : InfoRing} (h : Waiting ins n 9 r) :
    Waiting ins (n + 1) 0 (r.call (snapshot ins n)) := by
  obtain ⟨hcount, hrec⟩ := h
  have hcall : r.call (snapshot ins n) = { r with count := 10 }.record (snapshot ins n) :=
    if_pos (by omega)
  have hten : Recorded ins n { r with count := 10 } := ⟨hrec.slot, hrec.ring, hrec.data⟩
  rw [hcall]
  exact ⟨rfl, hten.record⟩

/-- Ten calls take one record. -/
theorem ring_waiting (m : Nat) :
    Waiting ins (m / 10) (m % 10) (recordAt dataFIFO ins m).ring := by
  induction m with
  | zero =>
    refine ⟨rfl, rfl, fun r hr => absurd hr (by omega), fun j hj hle => ?_⟩
    exact absurd hle (by omega)
  | succ m ih =>
    rw [ring_succ]
    by_cases hten : m % 10 = 9
    · have hstatus : (ins m).status = snapshot ins (m / 10) := by
        unfold snapshot
        rw [show 10 * (m / 10) + 9 = m by omega]
      rw [hten] at ih
      rw [hstatus, show (m + 1) / 10 = m / 10 + 1 by omega, show (m + 1) % 10 = 0 by omega]
      exact ih.record
    · rw [show (m + 1) / 10 = m / 10 by omega, show (m + 1) % 10 = m % 10 + 1 by omega]
      exact ih.call (by omega) _

theorem slot_lt (m : Nat) : (recordAt dataFIFO ins m).ring.slot < sysInfoSize := by
  have hwait : Waiting ins (m / 10) (m % 10) (recordAt dataFIFO ins m).ring := ring_waiting m
  rw [hwait.recorded.slot]
  exact Nat.mod_lt _ (by decide)

end

/-- After record `n` the last entries of `Data` are the last records taken, the newest at
the end; in every call the copies stay within the arrays, and so does the slot written. -/
theorem snapshots_in_order (dataFIFO : Nat → SysInf) (ins : Nat → RecordIn) (n : Nat) :
    (∀ i, i < min n sysInfoSize →
      (recordAt dataFIFO ins (10 * n)).ring.data (sysInfoSize - min n sysInfoSize + i) =
        snapshot ins (n - min n sysInfoSize + i)) ∧
    ∀ m, (recordAt dataFIFO ins m).ring.slot < sysInfoSize ∧
      (headCopy (recordAt dataFIFO ins m).ring.slot).InBounds ∧
      (tailCopy (recordAt dataFIFO ins m).ring.slot).InBounds := by
  refine ⟨fun i hi => ?_, fun m => ?_⟩
  · obtain ⟨-, hrec⟩ := @ring_waiting dataFIFO ins (10 * n)
    rw [Nat.mul_div_cancel_left n (by decide)] at hrec
    rw [hrec.data _ (by omega) (by omega)]
    congr 1
    omega
  · have hlt := @slot_lt dataFIFO ins m
    refine ⟨hlt, ?_, ?_⟩
    · unfold InfoCopy.InBounds headCopy
      dsimp only
      omega
    · unfold InfoCopy.InBounds tailCopy
      dsimp only
      omega

end SC04Monitor.UserApp
