import SC04Monitor.Lib.Countdown
import SC04Monitor.UserApp.ChargeInterlock

/-! # The delays of the automatic mode

In AUTO a module that stands in the station without current is started when its start
delay has run out, and one with current and the float flag is stopped when its float delay
has. Both delays are counted down only by the branch that waits for them. Leaving the
station and the modes that do not charge load them, an interrupted wait does not. Nor does
anything remember a charge that is complete, so a float stop is followed by a new start. -/

namespace SC04Monitor.UserApp
open SC04Monitor.Lib.Run SC04Monitor.Lib.Countdown SC04Monitor.Can

/-! ## What a call does -/

namespace CbMode
variable {i : CbIn} {m : CbMode} {cmd : UInt8}

/-- `CB_Auto_Cal` without current in the station. -/
theorem autoCal_start_wait (hm : m.outputMode = .auto) (hin : i.sys.input.instation = true)
    (hc : i.sys.input.charging = false) (hcomplet : i.sys.output.chargeComplet = false) :
    (m.outputManage i cmd).mode.startDelay = m.startDelay - 1 := by
  unfold outputManage cbAutoCal
  rw [hm]
  dsimp only
  rw [if_pos hin, hc, hcomplet]
  by_cases hpos : 0 < m.startDelay
  · simp [hpos]
  · simp [Nat.eq_zero_of_not_pos hpos]

/-- `CB_Auto_Cal` with current and the float flag in the station. -/
theorem autoCal_float_wait (hm : m.outputMode = .auto) (hin : i.sys.input.instation = true)
    (hc : i.sys.input.charging = true) (hf : i.sys.input.floatChargeN = true) :
    (m.outputManage i cmd).mode.floatDelay = m.floatDelay - 1 := by
  unfold outputManage cbAutoCal
  rw [hm]
  dsimp only
  rw [if_pos hin, hc, hf]
  by_cases hpos : 0 < m.floatDelay
  · simp [hpos]
  · simp [Nat.eq_zero_of_not_pos hpos]

/-- A stop in AUTO in the station is issued with current only. -/
theorem autoCal_stops_iff (hm : m.outputMode = .auto) (hin : i.sys.input.instation = true)
    (hcomplet : i.sys.output.chargeComplet = false) :
    (m.outputManage i cmd).Stops ↔ i.sys.input.charging = true ∧
      i.sys.input.floatChargeN = true ∧ m.floatDelay = 0 := by
  cases hc : i.sys.input.charging with
  | true =>
    rw [outputManage_stops_of_charging i m cmd hc]
    simp [hm, hin]
  | false =>
    refine iff_of_false ?_ (by simp)
    rintro ⟨hsent, hzero⟩
    rw [outputManage_cmd_of_sent i m cmd hcomplet hsent, hc] at hzero
    exact absurd hzero (by decide)

end CbMode

/-! ## Runs -/

section
variable (ins : Nat → TickIn) (k : ModuleId) (n : Nat)

/-- Module `k` runs `CB_Auto_Cal` in tick `n`. -/
def InAuto : Prop := (callAt ins n k).mode.outputMode = .auto

/-- It stands in the station in AUTO and does not charge. -/
def StartWait : Prop :=
  InAuto ins k n ∧ (cbInAt ins n k).sys.input.instation = true ∧
    (cbInAt ins n k).sys.input.charging = false

/-- It stands in the station in AUTO and charges with the float flag set. -/
def FloatWait : Prop :=
  InAuto ins k n ∧ (cbInAt ins n k).sys.input.instation = true ∧
    (cbInAt ins n k).sys.input.charging = true ∧ (cbInAt ins n k).sys.input.floatChargeN = true

/-- `CB_Auto_Cal` issues a start. -/
def AutoStarts : Prop := InAuto ins k n ∧ (callAt ins n k).Starts

/-- `CB_Auto_Cal` issues a stop in the station. -/
def FloatStops : Prop :=
  InAuto ins k n ∧ (cbInAt ins n k).sys.input.instation = true ∧ (callAt ins n k).Stops

/-- The delays of module `k` before tick `n`. -/
def startDelayAt : Nat := ((logicAt ins n).cb k).startDelay
def floatDelayAt : Nat := ((logicAt ins n).cb k).floatDelay

variable {ins k n}

theorem inAuto_iff : InAuto ins k n ↔
    (((logicAt ins n).cb k).moduleManage (cbInAt ins n k)).outputMode = .auto := by
  unfold InAuto
  rw [callAt_eq, CbMode.cbCtrl_outputMode]

theorem autoStarts_iff : AutoStarts ins k n ↔ StartWait ins k n ∧ startDelayAt ins k n = 0 := by
  unfold AutoStarts StartWait startDelayAt
  rw [inAuto_iff, callAt_eq, CbMode.cbCtrl_starts_iff]
  unfold AutoReady
  rw [cbInAt_chargeComplet]
  constructor
  · rintro ⟨hauto, hc, hman | ⟨-, hin, -, hd⟩⟩
    · rw [hauto] at hman
      exact absurd hman (by decide)
    · exact ⟨⟨hauto, hin, hc⟩, hd⟩
  · rintro ⟨⟨hauto, hin, hc⟩, hd⟩
    exact ⟨hauto, hc, .inr ⟨hauto, hin, rfl, hd⟩⟩

theorem floatStops_iff : FloatStops ins k n ↔ FloatWait ins k n ∧ floatDelayAt ins k n = 0 := by
  unfold FloatStops FloatWait floatDelayAt
  rw [inAuto_iff, callAt_eq, CbMode.cbCtrl]
  constructor
  · rintro ⟨hauto, hin, hstop⟩
    rw [CbMode.autoCal_stops_iff hauto hin (cbInAt_chargeComplet ins n k),
      CbMode.moduleManage_floatDelay] at hstop
    exact ⟨⟨hauto, hin, hstop.1, hstop.2.1⟩, hstop.2.2⟩
  · rintro ⟨⟨hauto, hin, hc, hf⟩, hd⟩
    refine ⟨hauto, hin, ?_⟩
    rw [CbMode.autoCal_stops_iff hauto hin (cbInAt_chargeComplet ins n k),
      CbMode.moduleManage_floatDelay]
    exact ⟨hc, hf, hd⟩

theorem startDelay_succ (h : StartWait ins k n) :
    startDelayAt ins k (n + 1) = startDelayAt ins k n - 1 := by
  obtain ⟨hauto, hin, hc⟩ := h
  have hstep := @CbMode.autoCal_start_wait _ _ ((logicAt ins n).lga.chargeCmd k).cmd
    (inAuto_iff.mp hauto) hin hc (cbInAt_chargeComplet ins n k)
  rw [CbMode.moduleManage_startDelay] at hstep
  unfold startDelayAt
  rw [logicAt_succ, Logic.tick_cb]
  show (callAt ins n k).mode.startDelay = _
  rw [callAt_eq]
  exact hstep

theorem floatDelay_succ (h : FloatWait ins k n) :
    floatDelayAt ins k (n + 1) = floatDelayAt ins k n - 1 := by
  obtain ⟨hauto, hin, hc, hf⟩ := h
  have hstep := @CbMode.autoCal_float_wait _ _ ((logicAt ins n).lga.chargeCmd k).cmd
    (inAuto_iff.mp hauto) hin hc hf
  rw [CbMode.moduleManage_floatDelay] at hstep
  unfold floatDelayAt
  rw [logicAt_succ, Logic.tick_cb]
  show (callAt ins n k).mode.floatDelay = _
  rw [callAt_eq]
  exact hstep

end

/-! ## The delays -/

section
variable (ins : Nat → TickIn) (k : ModuleId)

/-- A start and a stop are issued only after the full delay in which the module waited
for them. -/
def WaitsInFull : Prop :=
  (∀ n, AutoStarts ins k n → WaitedFor (StartWait ins k) chargeStartT n) ∧
    ∀ n, FloatStops ins k n → WaitedFor (FloatWait ins k) chargeFloatT n

/-- A wait that outlasts its delay begins with the full delay. -/
def FullAtBegin : Prop :=
  (∀ b, Begins (StartWait ins k) b →
    HoldsFrom (StartWait ins k) b (b + startDelayAt ins k b) →
      chargeStartT ≤ startDelayAt ins k b) ∧
    ∀ b, Begins (FloatWait ins k) b →
      HoldsFrom (FloatWait ins k) b (b + floatDelayAt ins k b) →
        chargeFloatT ≤ floatDelayAt ins k b

end

/-- In a run every start and float stop of AUTO waits for its full delay exactly if every
wait that outlasts its delay begins with the delay loaded. -/
theorem auto_delays_iff (ins : Nat → TickIn) :
    (∀ k, WaitsInFull ins k) ↔ ∀ k, FullAtBegin ins k := by
  refine forall_congr' fun k => and_congr ?_ ?_
  · rw [← held_iff_loaded (P := StartWait ins k) fun n h => startDelay_succ h]
    refine forall_congr' fun n => ?_
    rw [autoStarts_iff]
    exact ⟨fun h hp hz => h ⟨hp, hz⟩, fun h hw => h hw.1 hw.2⟩
  · rw [← held_iff_loaded (P := FloatWait ins k) fun n h => floatDelay_succ h]
    refine forall_congr' fun n => ?_
    rw [floatStops_iff]
    exact ⟨fun h hp hz => h ⟨hp, hz⟩, fun h hw => h hw.1 hw.2⟩

/-- The operator chooses AUTO for module 1 before tick 0 and the vehicle stands in the
station: nothing has loaded the delay yet. -/
theorem power_on_starts_at_once :
    AutoStarts standbyInAuto 0 0 ∧ ¬ WaitsInFull standbyInAuto 0 := by
  have hstart : AutoStarts standbyInAuto 0 0 := ⟨by unfold InAuto; decide, by decide⟩
  refine ⟨hstart, fun h => ?_⟩
  have hheld := (h.1 0 hstart).1
  exact absurd hheld (by decide)

/-! ## One charge in a docking -/

section
variable (ins : Nat → TickIn) (k : ModuleId)

/-- The vehicle stands in the station in every tick after `n₀` up to `n`. -/
def Docked (n₀ n : Nat) : Prop :=
  ∀ j, n₀ < j → j ≤ n → (cbInAt ins j k).sys.input.instation = true

/-- After a float stop AUTO starts no charge before the vehicle has left the station. -/
def OncePerDocking : Prop :=
  ∀ n₀ n, FloatStops ins k n₀ → n₀ < n → Docked ins k n₀ n → ¬ AutoStarts ins k n

/-- After a float stop no wait for a start begins in the same docking that outlasts the
start delay it finds. -/
def NoWaitAfterStop : Prop :=
  ∀ n₀ b, FloatStops ins k n₀ → n₀ < b → Docked ins k n₀ b → Begins (StartWait ins k) b →
    ¬ HoldsFrom (StartWait ins k) b (b + startDelayAt ins k b)

end

/-- In a run AUTO charges once in every docking exactly if no wait for a start that begins
after a float stop outlasts the start delay. -/
theorem once_per_docking_iff (ins : Nat → TickIn) :
    (∀ k, OncePerDocking ins k) ↔ ∀ k, NoWaitAfterStop ins k := by
  have hcount : ∀ k n, StartWait ins k n →
      startDelayAt ins k (n + 1) = startDelayAt ins k n - 1 := fun _ _ h => startDelay_succ h
  refine forall_congr' fun k => ⟨?_, ?_⟩
  · intro h n₀ b hstop hlt hdock hbeg hfrom
    have hstart : AutoStarts ins k (b + startDelayAt ins k b) :=
      autoStarts_iff.mpr ((expired_iff (hcount k)).mpr ⟨b, hbeg, Nat.le_refl _, hfrom⟩)
    refine h n₀ _ hstop (by omega) (fun j h₁ h₂ => ?_) hstart
    rcases Nat.lt_or_ge b j with hj | hj
    · exact (hfrom j (by omega) h₂).2.1
    · exact hdock j h₁ hj
  · intro h n₀ n hstop hlt hdock hstart
    obtain ⟨b, hbeg, hle, hfrom⟩ := (expired_iff (hcount k)).mp (autoStarts_iff.mp hstart)
    -- the module charges when it is stopped, so the wait begins later
    have hb : n₀ < b := by
      by_contra hcon
      have hwait := hfrom n₀ (by omega) (by omega)
      have hcharge := (floatStops_iff.mp hstop).1.2.2.1
      rw [hwait.2.2] at hcharge
      exact absurd hcharge (by decide)
    exact h n₀ b hstop hb (fun j h₁ h₂ => hdock j h₁ (by omega)) hbeg
      fun j h₁ h₂ => hfrom j h₁ (by omega)

/-- One of the three fragments of a status of module 1, with the charge flags `flags`. -/
def chargeFrame (flags : UInt8) (packet : Nat) : CanRx :=
  .full port1 (packet * 2 ^ 4 + canIdC 0 * 2 ^ 9 + canIdM1CX * 2 ^ 16 + canFuncSPoll * 2 ^ 21)
    (if packet = 0 then #v[0, 0, 0, 0, flags, 0, 0, 0] else .replicate 8 0)

/-- Before tick 0 module 1 reports charging and float, in the station and in AUTO; before
tick 1 it reports that it has stopped. -/
def floatAtPowerOn : Nat → TickIn
  | 0 => { quietTick with
      canEvents := [.rx (voltFrame 0), .rx (voltFrame 1), .rx (chargeFrame 3 0),
        .rx (chargeFrame 3 1), .rx (chargeFrame 3 2), .cycle]
      modbus := writeMode 0 chargeModeAuto
      cabinetEnN := true
      busVoltOK := true }
  | 1 => { quietTick with
      canEvents := [.rx (chargeFrame 0 0), .rx (chargeFrame 0 1), .rx (chargeFrame 0 2), .cycle]
      cabinetEnN := true
      busVoltOK := true }
  | _ => quietTick

/-- The module is stopped in tick 0 and started again in tick 1. -/
theorem float_stop_restarts :
    FloatStops floatAtPowerOn 0 0 ∧ AutoStarts floatAtPowerOn 0 1 ∧
      ¬ OncePerDocking floatAtPowerOn 0 := by
  have hstop : FloatStops floatAtPowerOn 0 0 :=
    ⟨by unfold InAuto; decide, by decide, by decide⟩
  have hstart : AutoStarts floatAtPowerOn 0 1 := ⟨by unfold InAuto; decide, by decide⟩
  have hdock : Docked floatAtPowerOn 0 0 1 := by
    intro j h₁ h₂
    obtain rfl : j = 1 := by omega
    decide +kernel
  exact ⟨hstop, hstart, fun h => h 0 1 hstop Nat.one_pos hdock hstart⟩

end SC04Monitor.UserApp
