import SC04Monitor.Can.Fragmentation
import SC04Monitor.Lib.Batches
import SC04Monitor.Lib.Run

/-! # The period of the cyclic messages

A call of `CycleMsgPush` counts the clock of every cyclic entry up and sends the message
when the clock reaches `sendTick`, which sets it back, so that the 16 bits of the clock
never overflow. Between two calls the other tasks may do with the rest of the object what
they like. -/

namespace SC04Monitor.Can
open SC04Monitor.Lib.ByteMem SC04Monitor.Lib.Batches SC04Monitor.Lib.Run

/-- What a call finds besides the clocks: the rest of the object, and what the identifiers
hold in the bits that nobody writes. -/
structure CycleIn where
  rest : CanApp
  junk : FrameId → Nat → Nat

section
variable (tb : MsgTable) (calls : Nat → CycleIn) (n : Nat)

/-- The object that a call finds. -/
def CycleIn.app (i : CycleIn) (clock : FrameId → Nat) : CanApp := { i.rest with clock }

/-- What a call makes of the clocks. -/
def cycleClock (clock : FrameId → Nat) (i : CycleIn) : FrameId → Nat :=
  (cycleMsgPush tb i.junk (i.app clock)).2.clock

/-- The object before call `n`, from clocks at zero on. -/
def cycleAppAt : CanApp := (calls n).app (stateAt (cycleClock tb) (fun _ => 0) calls n)

/-- What call `n` hands to `can_Tx_Push_Msg`, each frame with its entry. -/
def cycleHanded : List (FrameId × CanTx) :=
  tagged (fun f => if due tb (cycleAppAt tb calls n) f then
      pushMsg (tb f) (cycleAppAt tb calls n).ram ((calls n).junk f) else [])
    (List.finRange canStdFrameNum)

theorem cycleHanded_frames : (cycleHanded tb calls n).map Prod.snd =
    (cycleMsgPush tb (calls n).junk (cycleAppAt tb calls n)).1 :=
  tagged_snd

variable {tb calls n} {f : FrameId}

end

end SC04Monitor.Can
