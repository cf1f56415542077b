import SC04Monitor.UserApp.LogicTick

/-! # Which charge command reaches the bus

The command of a module lives in three places: `MB_LGA` (where `CbCtrl` writes
it), `AppBuf` (where `CanOutputUpdate` copies it at the end of the tick) and
`CanBuf` (from which the frames are made). `SendCan` copies `AppBuf` to `CanBuf`
in the middle of the tick, so a triggered frame carries what `AppBuf` held
before. The cyclic command is the byte that `CbCtrl` left, and IDLE and FAULT
clear it only for a module that reports charging. -/

namespace SC04Monitor.UserApp
open SC04Monitor.Lib.ByteMem SC04Monitor.Lib.Run SC04Monitor.Lib.Scan SC04Monitor.Can

/-! ## The charge message of one module in the object `can` -/

/-- The bytes and the flag of the triggered charge message. -/
def chargeSlot (k : ModuleId) (s : CanApp) : List UInt8 × Bool :=
  (readBytes s.ram (canBuf (.chargeCmd k)) 8, s.update (moduleCharge k))

theorem moduleCharge_injective {j k : ModuleId} (h : moduleCharge j = moduleCharge k) : j = k := by
  simp only [moduleCharge, Fin.mk.injEq] at h
  exact Fin.ext (by omega)

/-- Triggering another message leaves the charge message of module `k`. -/
theorem sendCan_chargeSlot {k : ModuleId} {f : FrameId} {g : Field} (s : CanApp)
    (hdir : (stdMsgTable f).direction = .zx) (hf : moduleCharge k ≠ f)
    (hbuf : (stdMsgTable f).canBuffData = canBuf g) (hlen : (stdMsgTable f).len = g.size)
    (hg : g ≠ .chargeCmd k) :
    chargeSlot k (sendCan stdMsgTable s f) = chargeSlot k s := by
  unfold chargeSlot
  have hapart : Apart (stdMsgTable f).canBuffData (stdMsgTable f).len
      (canBuf (.chargeCmd k)) 8 := by
    rw [hbuf, hlen]
    exact canBuf_apart hg
  rw [sendCan_frame hdir hapart, sendCan_update hdir, Function.update_of_ne hf]

theorem sendCan_moduleCharge (k : ModuleId) (s : CanApp) :
    chargeSlot k (sendCan stdMsgTable s (moduleCharge k)) =
      (readBytes s.ram (appBuf (.chargeCmd k)) 8, true) := by
  have ht := stdMsgTable_moduleCharge k
  have hdir : (stdMsgTable (moduleCharge k)).direction = .zx := by rw [ht]; rfl
  unfold chargeSlot
  rw [sendCan_ram hdir, sendCan_update hdir, Function.update_self, ht]
  simp only [row, readBytes_copyBytes]

/-- The frame that `TriggerMsgPush` enqueues for the message of module `k`
carries the command `c`. -/
def CarriesCmd (k : ModuleId) (c : UInt8) (s : CanApp) : Prop :=
  ∀ junk, ∃ fr, triggerFrames stdMsgTable junk s (moduleCharge k) = [fr] ∧ fr.data.head? = some c

theorem carriesCmd_iff {k : ModuleId} {c : UInt8} {s : CanApp} {bs : List UInt8}
    (h : chargeSlot k s = (bs, true)) : CarriesCmd k c s ↔ bs.head? = some c := by
  simp only [chargeSlot, Prod.mk.injEq] at h
  obtain ⟨hbs, hup⟩ := h
  have hframe : ∀ junk, ∃ fr, triggerFrames stdMsgTable junk s (moduleCharge k) = [fr] ∧
      fr.data = bs := by
    intro junk
    have ht := stdMsgTable_moduleCharge k
    have hpend : pending stdMsgTable s (moduleCharge k) = true := by
      simp [pending, ht, row, hup]
    unfold triggerFrames
    rw [if_pos hpend, pushMsg_single (by rw [ht]; simp [row]) (by rw [ht]; simp [row])]
    refine ⟨_, rfl, ?_⟩
    rw [ht]
    exact hbs
  constructor
  · intro hc
    obtain ⟨fr, hfr, hhead⟩ := hc fun _ _ => 0
    obtain ⟨fr', hfr', hdata⟩ := hframe fun _ _ => 0
    rw [hfr, List.cons.injEq] at hfr'
    rw [← hdata, ← hfr'.1]
    exact hhead
  · intro hc junk
    obtain ⟨fr, hfr, hdata⟩ := hframe junk
    exact ⟨fr, hfr, by rw [hdata]; exact hc⟩

/-! ## The slot through the tick -/

namespace Logic

theorem cbCtrl_chargeSlot_of_ne {k j : ModuleId} (h : j ≠ k) (s : Logic) :
    chargeSlot k (s.cbCtrl j).can = chargeSlot k s.can := by
  simp only [cbCtrl]
  split_ifs
  · refine sendCan_chargeSlot (g := .chargeCmd j) s.can ?_ ?_ ?_ ?_ ?_
    · rw [stdMsgTable_moduleCharge]; rfl
    · intro he
      exact h (moduleCharge_injective he).symm
    · rw [stdMsgTable_moduleCharge]; rfl
    · rw [stdMsgTable_moduleCharge]; rfl
    · simpa using h
  · rfl

/-- The state machines write no byte of `AppBuf`. -/
theorem cbCtrl_appBuf (s : Logic) (j : ModuleId) (f : Field) :
    readBytes (s.cbCtrl j).can.ram (appBuf f) f.size = readBytes s.can.ram (appBuf f) f.size := by
  simp only [cbCtrl]
  split_ifs
  · have ht := stdMsgTable_moduleCharge j
    refine sendCan_frame (by rw [ht]; rfl) ?_
    rw [ht]
    exact canBuf_appBuf_apart (.chargeCmd j) f
  · rfl

theorem parManage_chargeSlot (s : Logic) (k : ModuleId) :
    chargeSlot k s.parManage.can = chargeSlot k s.can := by
  -- writing the parameters of a module into `AppBuf` does not touch the slot
  have hpar : ∀ j, chargeSlot k { s.can with
      ram := writeBytes s.can.ram (appBuf (.wPara j)) (s.hmi.wPara j).toList } =
        chargeSlot k s.can := by
    intro j
    unfold chargeSlot
    rw [readBytes_writeBytes_frame]
    have ha := (canBuf_appBuf_apart (.chargeCmd k) (.wPara j)).symm
    simpa [Field.size] using ha
  unfold parManage
  split
  · split_ifs <;> rfl
  next j _ =>
    dsimp only
    split_ifs
    · rw [← hpar j]
      refine sendCan_chargeSlot (g := .wPara j) _ ?_ ?_ ?_ ?_ (by simp)
      · rw [stdMsgTable_moduleSetPar]; rfl
      · simp only [moduleCharge, moduleSetPar, ne_eq, Fin.mk.injEq]; omega
      · rw [stdMsgTable_moduleSetPar]; rfl
      · rw [stdMsgTable_moduleSetPar]; rfl
    · rw [← hpar j]
      refine sendCan_chargeSlot (g := .null) _ ?_ ?_ ?_ ?_ (by simp)
      · rw [stdMsgTable_moduleReadPar]; rfl
      · simp only [moduleCharge, moduleReadPar, ne_eq, Fin.mk.injEq]; omega
      · rw [stdMsgTable_moduleReadPar]; rfl
      · rw [stdMsgTable_moduleReadPar]; rfl
    · rfl
  · rfl

theorem canOutputUpdate_chargeSlot (s : Logic) (k : ModuleId) :
    chargeSlot k s.canOutputUpdate.can = chargeSlot k s.can := by
  unfold chargeSlot canOutputUpdate
  dsimp only
  rw [readBytes_writeAll_frame, readBytes_writeAll_frame]
  · intro j _
    have ha := (canBuf_appBuf_apart (.chargeCmd k) (.wPara j)).symm
    simpa [Field.size] using ha
  · intro j _
    have ha := (canBuf_appBuf_apart (.chargeCmd k) (.chargeCmd j)).symm
    simpa [Field.size] using ha

variable (s : Logic) (i : TickIn) (k : ModuleId)

/-- The state right after the call of module `k`. -/
def afterCall : Logic := ((s.beforeDcDc i).atCall k).cbCtrl k

/-- A call that sends leaves the bytes of `AppBuf` in the slot. -/
theorem afterCall_chargeSlot (h : (s.call i k).sent = true) :
    chargeSlot k (s.afterCall i k).can =
      (readBytes (s.beforeDcDc i).can.ram (appBuf (.chargeCmd k)) 8, true) := by
  have hcan : (s.afterCall i k).can =
      sendCan stdMsgTable ((s.beforeDcDc i).atCall k).can (moduleCharge k) := if_pos h
  have happ : readBytes ((s.beforeDcDc i).atCall k).can.ram (appBuf (.chargeCmd k)) 8 =
      readBytes (s.beforeDcDc i).can.ram (appBuf (.chargeCmd k)) 8 :=
    scan_frame (fun t : Logic => readBytes t.can.ram (appBuf (.chargeCmd k)) 8)
      (fun j _ t => cbCtrl_appBuf t j (.chargeCmd k)) _
  rw [hcan, sendCan_moduleCharge, happ]

/-- Nothing else in the tick touches the slot. -/
theorem afterCanOutput_chargeSlot :
    chargeSlot k (s.afterCanOutput i).can = chargeSlot k (s.afterCall i k).can := by
  unfold afterCanOutput
  rw [canOutputUpdate_chargeSlot, parManage_chargeSlot, dcDcManage_split _ k]
  exact scan_frame (fun t : Logic => chargeSlot k t.can)
    (fun j hj t => cbCtrl_chargeSlot_of_ne (drop_ne k j hj) t) _

end Logic

/-! ## Triggered commands -/

section
variable (ins : Nat → TickIn) (n : Nat) (k : ModuleId)

/-- The command in `AppBuf` when the state machines of tick `n` run. -/
def appCmdAt : UInt8 := ((logicAt ins n).beforeDcDc (ins n)).can.ram (appBuf (.chargeCmd k))

/-- The frame that the trigger of tick `n` produces carries `c`, whether it is
made right after `SendCan` or only after `CanOutputUpdate`. -/
def TriggerCarries (c : UInt8) : Prop :=
  CarriesCmd k c ((logicAt ins n).afterCall (ins n) k).can ∧
    CarriesCmd k c ((logicAt ins n).afterCanOutput (ins n)).can

theorem triggerCarries_iff {c : UInt8} (h : (callAt ins n k).sent = true) :
    TriggerCarries ins n k c ↔ appCmdAt ins n k = c := by
  have hcall := (logicAt ins n).afterCall_chargeSlot (ins n) k h
  have hout := ((logicAt ins n).afterCanOutput_chargeSlot (ins n) k).trans hcall
  have hhead : (readBytes ((logicAt ins n).beforeDcDc (ins n)).can.ram
      (appBuf (.chargeCmd k)) 8).head? = some (appCmdAt ins n k) := rfl
  unfold TriggerCarries
  rw [carriesCmd_iff hcall, carriesCmd_iff hout, hhead, Option.some.injEq, and_self]

/-- What is sent is a start for a module that does not charge and a stop for one
that does. -/
theorem callAt_cmd_of_sent (h : (callAt ins n k).sent = true) :
    (callAt ins n k).cmd = if (cbInAt ins n k).sys.input.charging then 0 else 1 := by
  rw [callAt_eq] at h ⊢
  exact CbMode.outputManage_cmd_of_sent _ _ _ (cbInAt_chargeComplet ins n k) h

/-- **Triggered commands.** In every tick of every run, the frame of a trigger
carries the decision that triggered it exactly when `AppBuf` holds that command
already: a stop for a module that charges, a start for one that does not. -/
theorem triggered_command_iff (c : UInt8) (hsent : (callAt ins n k).sent = true)
    (hcmd : (callAt ins n k).cmd = c) :
    TriggerCarries ins n k c ↔
      appCmdAt ins n k = if (cbInAt ins n k).sys.input.charging then 0 else 1 := by
  rw [triggerCarries_iff ins n k hsent, ← hcmd, callAt_cmd_of_sent ins n k hsent]

end

theorem triggered_command_power_on :
    ((callAt manualAtPowerOn 0 0).sent = true ∧ (callAt manualAtPowerOn 0 0).cmd = 1) ∧
      (TriggerCarries manualAtPowerOn 0 0 1 ↔
        appCmdAt manualAtPowerOn 0 0 =
          if (cbInAt manualAtPowerOn 0 0).sys.input.charging then 0 else 1) :=
  ⟨by decide, triggered_command_iff manualAtPowerOn 0 0 1 (by decide) (by decide)⟩

/-- The first start after power-on goes out as a stop. -/
theorem triggered_start_carries_stop :
    ((callAt manualAtPowerOn 0 0).sent = true ∧ (callAt manualAtPowerOn 0 0).cmd = 1) ∧
      ¬ TriggerCarries manualAtPowerOn 0 0 1 := by
  refine ⟨by decide, ?_⟩
  rw [triggerCarries_iff manualAtPowerOn 0 0 (by decide)]
  decide

/-! ## The cyclic command -/

/-- Every module in an output mode that does not charge has a zero command in
its cyclic message. -/
def NoStaleStart (s : Logic) : Prop :=
  ∀ k, (s.cb k).outputMode = .idle ∨ (s.cb k).outputMode = .standy ∨
    (s.cb k).outputMode = .fault → s.can.ram (appBuf (.chargeCmd k)) = 0

/-- The tick takes the module out of MANUAL or AUTO, by the fault of module 1 or
because the system has left STANDBY, with a command on and no current flowing. -/
def LeavesUncharged (ins : Nat → TickIn) (n : Nat) (k : ModuleId) : Prop :=
  (((logicAt ins n).cb k).state = .manual ∨ ((logicAt ins n).cb k).state = .auto) ∧
    ((logicAt ins n).lga.chargeCmd k).cmd ≠ 0 ∧
    (cbInAt ins n k).sys.input.charging = false ∧
    ((cbInAt ins n k).cb1Fault = true ∨ (cbInAt ins n k).systemState ≠ .standby)

/-- What a run without such ticks keeps for every module. -/
structure Quiet (m : CbMode) (cmd : UInt8) : Prop where
  agrees : CbMode.stateOf m.outputMode = m.state
  off : m.outputMode = .idle ∨ m.outputMode = .standy ∨ m.outputMode = .fault → cmd = 0

theorem Quiet.step {i : CbIn} {m : CbMode} {cmd : UInt8} (h : Quiet m cmd)
    (hok : (m.state = .manual ∨ m.state = .auto) → cmd ≠ 0 → i.sys.input.charging = false →
      ¬ (i.cb1Fault = true ∨ i.systemState ≠ .standby)) :
    Quiet (m.cbCtrl i cmd).mode (m.cbCtrl i cmd).cmd := by
  refine ⟨?_, fun hoff => ?_⟩
  · rw [CbMode.cbCtrl_outputMode, CbMode.cbCtrl_state]
    exact m.moduleManage_agrees i
  rw [CbMode.cbCtrl_outputMode] at hoff
  by_cases hst : (m.moduleManage i).outputMode = .standy
  · exact CbMode.outputManage_cmd_of_standy i _ cmd hst
  have hout : (m.moduleManage i).outputMode = .idle ∨ (m.moduleManage i).outputMode = .fault := by
    rcases hoff with h | h | h
    · exact .inl h
    · exact absurd h hst
    · exact .inr h
  rw [CbMode.cbCtrl, CbMode.outputManage_cmd_of_off i _ cmd hout]
  split_ifs with hc
  · rfl
  by_contra hcmd
  -- the command is on, so the module was charging: the tick is one that `hok` excludes
  have hon : m.state = .manual ∨ m.state = .auto := by
    rw [← h.agrees]
    cases ho : m.outputMode with
    | manual => exact .inl rfl
    | auto => exact .inr rfl
    | idle => exact absurd (h.off (.inl ho)) hcmd
    | standy => exact absurd (h.off (.inr (.inl ho))) hcmd
    | fault => exact absurd (h.off (.inr (.inr ho))) hcmd
  exact hok hon hcmd (by simpa using hc) ((m.moduleManage_off_iff i hon).mp hout)

section
variable {ins : Nat → TickIn}

theorem quiet_of_run (h : ∀ n k, ¬ LeavesUncharged ins n k) (n : Nat) (k : ModuleId) :
    Quiet ((logicAt ins n).cb k) ((logicAt ins n).lga.chargeCmd k).cmd := by
  induction n with
  | zero => exact ⟨rfl, fun _ => rfl⟩
  | succ n ih =>
    rw [logicAt_succ, Logic.tick_cb, Logic.tick_cmd, Logic.call_eq]
    exact ih.step fun hon hcmd hc hleave => h n k ⟨hon, hcmd, hc, hleave⟩

/-- A tick that leaves a module uncharged leaves its command on. -/
theorem stale_of_leavesUncharged {n : Nat} {k : ModuleId} (h : LeavesUncharged ins n k) :
    ¬ NoStaleStart (logicAt ins (n + 1)) := by
  obtain ⟨hon, hcmd, hc, hleave⟩ := h
  intro hns
  have hout := (((logicAt ins n).cb k).moduleManage_off_iff (cbInAt ins n k) hon).mpr hleave
  have hzero := hns k
  rw [logicAt_succ, Logic.tick_cb, Logic.tick_appBuf] at hzero
  rw [show (logicAt ins n).call (ins n) k = callAt ins n k from rfl, callAt_eq,
    CbMode.cbCtrl_outputMode] at hzero
  have hkeep := CbMode.outputManage_cmd_of_off (cbInAt ins n k) _
    ((logicAt ins n).lga.chargeCmd k).cmd hout
  rw [hc, if_neg Bool.false_ne_true] at hkeep
  refine hcmd (hkeep.symm.trans (hzero ?_))
  rcases hout with h | h
  · exact .inl h
  · exact .inr (.inr h)

end

/-- **No stale start.** After every tick of a run the modules that are idle, in
standby or in fault have a zero command in their cyclic message, exactly when no
tick of the run takes a module out of MANUAL or AUTO with its command on while
it does not charge. -/
theorem no_stale_start_iff (ins : Nat → TickIn) :
    (∀ n, NoStaleStart (logicAt ins (n + 1))) ↔ ∀ n k, ¬ LeavesUncharged ins n k := by
  constructor
  · intro h n k hl
    exact stale_of_leavesUncharged hl (h n)
  · intro h n k hoff
    have hq := quiet_of_run h (n + 1) k
    rw [logicAt_succ, Logic.tick_appBuf, ← Logic.tick_cmd]
    exact hq.off hoff

/-- MANUAL at power-on: tick 0 commands a start, tick 1 finds the system in STOP
and the module without current, and goes back to IDLE with the command on. -/
theorem stale_start_power_on : ¬ NoStaleStart (logicAt manualAtPowerOn 2) :=
  stale_of_leavesUncharged (n := 1) (k := 0)
    ⟨.inl (by decide), by decide, by decide, .inr (by decide)⟩

end SC04Monitor.UserApp
