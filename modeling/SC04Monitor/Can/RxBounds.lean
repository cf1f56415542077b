import SC04Monitor.Can.RxEntry

/-! # The bounds of a receive buffer

`MsgRx_Deal` stores a fragment at eight times its `packetID`, a number that comes with the
frame and that nothing compares with the length of the entry. -/

namespace SC04Monitor.Can
open SC04Monitor.Lib.ByteMem

/-- A frame that is dealt with for an entry changes no byte outside the part of `CanBuf`
that belongs to it, and no other entry of the table. -/
structure StaysInside (s : CanApp) (p : CanRx) (r : RxEntry) : Prop where
  ram : ∀ q, q < canBuf r.field ∨ canBuf r.field + r.field.size ≤ q →
    (msgRxDeal stdMsgTable s p r.frame).ram q = s.ram q
  update : ∀ f, f ≠ r.frame → (msgRxDeal stdMsgTable s p r.frame).update f = s.update f
  clock : (msgRxDeal stdMsgTable s p r.frame).clock = s.clock

theorem msgRxDeal_update_of_ne (s : CanApp) (p : CanRx) {f g : FrameId} (h : g ≠ f) :
    (msgRxDeal stdMsgTable s p f).update g = s.update g := by
  unfold msgRxDeal
  dsimp only
  split_ifs <;> first | exact Function.update_of_ne h _ _ | rfl

theorem msgRxDeal_clock (s : CanApp) (p : CanRx) (f : FrameId) :
    (msgRxDeal stdMsgTable s p f).clock = s.clock := by
  unfold msgRxDeal
  dsimp only
  split_ifs <;> rfl

/-- A fragment of the message lies inside, any other one behind. -/
theorem fragment_inside {p : CanRx} {r : RxEntry} (h : packetID p.extId < r.fragments) :
    canBuf r.field ≤ fragmentAddr r p ∧
      fragmentAddr r p + p.dlc ≤ canBuf r.field + r.field.size := by
  have hdlc := p.dlc_le
  rw [r.size_eq]
  unfold fragmentAddr
  omega

theorem fragment_behind {p : CanRx} {r : RxEntry} (h : ¬ packetID p.extId < r.fragments) :
    canBuf r.field + r.field.size ≤ fragmentAddr r p := by
  rw [r.size_eq]
  unfold fragmentAddr
  omega

/-- **The receive bound.** From every state, a frame stays inside the buffer of its entry
exactly if its number is one of the message's fragments, or its bytes are already in the
place behind the buffer that it is stored to. -/
theorem rx_stays_inside_iff (s : CanApp) (p : CanRx) (r : RxEntry) :
    StaysInside s p r ↔
      packetID p.extId < r.fragments ∨
        readBytes s.ram (fragmentAddr r p) p.dlc = p.payload := by
  constructor
  · intro hin
    by_cases hfrag : packetID p.extId < r.fragments
    · exact Or.inl hfrag
    · have hbehind := fragment_behind hfrag
      have hback := readBytes_writeBytes s.ram (fragmentAddr r p) p.payload
      rw [p.length_payload, ← msgRxDeal_ram] at hback
      rw [← hback]
      refine Or.inr (readBytes_congr fun i _ => ?_)
      exact (hin.ram _ (Or.inr (by omega))).symm
  · intro hcond
    refine ⟨fun q hq => ?_, fun f hf => msgRxDeal_update_of_ne s p hf, msgRxDeal_clock s p _⟩
    rw [msgRxDeal_ram]
    rcases hcond with hfrag | hsame
    · have hinside := fragment_inside hfrag
      refine writeBytes_outside ?_
      rw [p.length_payload]
      omega
    · rw [writeBytes_of_readBytes (by rwa [p.length_payload])]

/-- A frame of module 1 with the number 3, which its status of three fragments does not
have. -/
def lateFragment : CanRx :=
  .full port1 (3 * 2 ^ 4 + 1 * 2 ^ 9 + 0x1D * 2 ^ 16 + 0x0D * 2 ^ 21) (.replicate 8 7)

/-- It is accepted and stored as the first bytes of the status of module 2. -/
theorem late_fragment_overruns :
    (RxEntry.status 0).Accepts lateFragment ∧ ¬ StaysInside .init lateFragment (.status 0) ∧
      readBytes (msgRxManage stdMsgTable .init lateFragment).ram (canBuf (.status 1)) 8 =
        List.replicate 8 7 := by
  have hacc : (RxEntry.status 0).Accepts lateFragment := by decide
  have hram : (msgRxManage stdMsgTable .init lateFragment).ram =
      (msgRxDeal stdMsgTable .init lateFragment (RxEntry.status 0).frame).ram :=
    congrArg Prod.fst (msgRxManage_accepted hacc)
  refine ⟨hacc, fun hin => ?_, ?_⟩
  · have hbyte := hin.ram (canBuf (.status 1)) (by decide)
    rw [msgRxDeal_ram] at hbyte
    exact absurd hbyte (by decide)
  · rw [hram, msgRxDeal_ram]
    decide

end SC04Monitor.Can
