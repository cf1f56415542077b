import SC04Monitor.Modbus.RegBounds

/-! # Polling the command registers

`eMBRegHoldingCB` calls `RegAddressGet` behind its branches, whatever they did: a read
and a rejected access take a command out of the image as a write does. -/

namespace SC04Monitor.Modbus
open SC04Monitor.Lib.ByteMem SC04Monitor.Lib.WordMem SC04Monitor.UserApp

/-- The decoder has nothing to do for a command: its flag is up and the member in `HMI`
holds the words of the image. -/
def TakenOver (s : MbApp) (a : HmiAddr) : Prop :=
  s.hmi.wAddrFlag a = true ∧ s.hmi.field a = readWords s.reg (2 * fieldOffset a) (fieldSize a)

theorem raise_of_flag {h : HmiType} {a : HmiAddr} (hflag : h.wAddrFlag a = true) :
    h.raise a = h := by
  unfold HmiType.raise
  rw [← hflag, Function.update_eq_self]

/-- The decoder leaves `HMI` as it is exactly if it has nothing to do. -/
theorem regAddressGet_hmi_eq_iff (s : MbApp) (address : UInt16) :
    (regAddressGet s address).hmi = s.hmi ↔ ∀ a, hmiAddr a = address - 1 → TakenOver s a := by
  by_cases hcmd : ∃ a, hmiAddr a = address - 1
  · obtain ⟨a, ha⟩ := hcmd
    have haddr : address = hmiAddr a + 1 := by rw [ha, UInt16.sub_add_cancel]
    rw [haddr, regAddressGet_hmi]
    constructor
    · intro heq b hb
      rw [UInt16.add_sub_cancel] at hb
      rw [hmiAddr_injective hb]
      have hflag : (s.hmi.raise a).wAddrFlag a = true := by simp [HmiType.raise]
      have hwords := copy_field (s.hmi.raise a) s.reg a
      rw [← copy_wAddrFlag (s.hmi.raise a) s.reg a, heq] at hflag
      rw [heq] at hwords
      exact ⟨hflag, hwords⟩
    · intro htaken
      obtain ⟨hflag, hwords⟩ := htaken a (UInt16.add_sub_cancel _ _).symm
      rw [raise_of_flag hflag, copy_of_field hwords]
  · push Not at hcmd
    exact iff_of_true (regAddressGet_hmi_none s hcmd) fun a ha => absurd ha (hcmd a)

/-- An access that writes nothing only decodes its address. -/
theorem eMBRegHoldingCB_of_not_write {s : MbApp} {buf : Nat → UInt8} {usAddress usNRegs : UInt16}
    {eMode : MbRegisterMode}
    (h : eMode = .read ∨ (eMBRegHoldingCB s buf usAddress usNRegs eMode).1 = .noReg) :
    (eMBRegHoldingCB s buf usAddress usNRegs eMode).2.2 = regAddressGet s usAddress := by
  cases hr : inRange usAddress usNRegs with
  | true =>
    cases eMode with
    | read => rw [read_eq hr]
    | write =>
      rw [write_eq hr] at h
      rcases h with h | h
      · cases h
      · cases h
  | false =>
    unfold eMBRegHoldingCB
    rw [hr]
    rfl

/-- **Polling.** A call that reads or is rejected leaves the image alone, and it leaves
`HMI` alone exactly if its address is that of no command, or that command is taken over
already. -/
theorem polling_harmless_iff (s : MbApp) (buf : Nat → UInt8) (usAddress usNRegs : UInt16)
    (eMode : MbRegisterMode)
    (h : eMode = .read ∨ (eMBRegHoldingCB s buf usAddress usNRegs eMode).1 = .noReg) :
    (eMBRegHoldingCB s buf usAddress usNRegs eMode).2.2.hmi = s.hmi ∧
        (eMBRegHoldingCB s buf usAddress usNRegs eMode).2.2.reg = s.reg ↔
      ∀ a, hmiAddr a = usAddress - 1 → TakenOver s a := by
  rw [eMBRegHoldingCB_of_not_write h, regAddressGet_reg, and_iff_left rfl]
  exact regAddressGet_hmi_eq_iff s usAddress

/-- The charge command of some time ago is still in its registers: module 1, by hand. -/
def servedCommand : MbApp :=
  { MbApp.zero with reg := writeWords (fun _ => 0) (2 * 0x0242) [1, chargeModeManual] }

theorem polling_harmless_status :
    (eMBRegHoldingCB servedCommand (fun _ => 0) 1 110 .read).2.2.hmi = servedCommand.hmi :=
  ((polling_harmless_iff servedCommand (fun _ => 0) 1 110 .read (Or.inl rfl)).mpr
    fun a ha => absurd ha (by cases a <;> decide +revert)).1

/-- The mode that `HmiInputUpdate` then sets for module 1. -/
def modeSetBy (app : MbApp) : UInt16 :=
  ({ Logic.init with hmi := app.hmi.toHmi }.hmiInputUpdate.lga.cbSys 0).input.chargeModeSet

/-- A read of the command register gives the command once more, and so does a read that
is rejected. -/
theorem polling_repeats_command :
    modeSetBy servedCommand = 0 ∧
      modeSetBy (eMBRegHoldingCB servedCommand (fun _ => 0) 0x0243 2 .read).2.2 =
        chargeModeManual ∧
      (eMBRegHoldingCB servedCommand (fun _ => 0) 0x0243 0xFFFF .read).1 = .noReg ∧
      modeSetBy (eMBRegHoldingCB servedCommand (fun _ => 0) 0x0243 0xFFFF .read).2.2 =
        chargeModeManual := by
  decide +kernel

end SC04Monitor.Modbus
