import SC04Monitor.Modbus.Rtu

/-! # What the receiver takes for a frame

The interrupts of the receiver follow the line: a byte, or a silence of 3.5 characters if the
timer runs. Which frames they announce, and what stands in the buffer then, depends on nothing
but the bytes between the silences. -/

namespace SC04Monitor.Modbus
open SC04Monitor.Lib.ByteMem SC04Monitor.Lib.Silence

namespace Rtu

/-- The interrupt for a byte on the line, or for a silence. -/
def lineStep (s : Rtu) : Option UInt8 → Except Stop Rtu
  | some b => s.xMBRTUReceiveFSM b
  | none => if s.timer then s.xMBRTUTimerT35Expired else .ok s

/-- What is in the buffer. -/
def received (s : Rtu) : List UInt8 := readBytes s.rtuBuf 0 s.rcvBufferPos

/-- The frames that are announced along a history of the line, each event being taken at
once. -/
def announced (s : Rtu) : List (Option UInt8) → Except Stop (List (List UInt8))
  | [] => .ok []
  | i :: l => do
    let s ← { s with events := ∅ }.lineStep i
    let fs ← s.announced l
    .ok (if .frameReceived ∈ s.events then s.received :: fs else fs)

/-! ## The receiver in the course of a frame -/

/-- The receiver after the bytes `cur` since the last silence. -/
structure Receiving (s : Rtu) (cur : List UInt8) : Prop where
  sndState : s.sndState = .txIdle
  timer : s.timer = decide (cur ≠ [])
  rcvState : s.rcvState =
    if cur = [] then .rxIdle else if cur.length ≤ mbSerPduSizeMax then .rxRcv else .rxError
  received : cur ≠ [] → cur.length ≤ mbSerPduSizeMax → s.received = cur

theorem Receiving.rcvBufferPos {s : Rtu} {cur : List UInt8} (h : s.Receiving cur) (hne : cur ≠ [])
    (hlen : cur.length ≤ mbSerPduSizeMax) : s.rcvBufferPos = cur.length := by
  have hrec := congrArg List.length (h.received hne hlen)
  rwa [Rtu.received, length_readBytes] at hrec

/-- A byte is put behind the ones that are there. -/
theorem readBytes_writeBytes_end (m : Mem) (a n : Nat) (b : UInt8) :
    readBytes (writeBytes m (a + n) [b]) a (n + 1) = readBytes m a n ++ [b] := by
  have hlast := readBytes_writeBytes m (a + n) [b]
  rw [List.length_singleton] at hlast
  rw [readBytes_add, hlast, readBytes_writeBytes_frame (.inr (.inr (.inr (Nat.le_refl _))))]

/-- A byte takes the receiver after `cur` to the receiver after `cur` and the byte. -/
theorem Receiving.byte {s : Rtu} {cur : List UInt8} (h : s.Receiving cur) (b : UInt8) :
    ∃ s', s.xMBRTUReceiveFSM b = .ok s' ∧ s'.events = s.events ∧ s'.Receiving (cur ++ [b]) := by
  have hne : cur ++ [b] ≠ [] := by simp
  have hlen : (cur ++ [b]).length = cur.length + 1 := by simp
  unfold xMBRTUReceiveFSM
  rw [if_pos h.sndState, h.rcvState]
  by_cases hcur : cur = []
  · subst hcur
    refine ⟨_, rfl, rfl, h.sndState, by simp [timersEnable], by simp [timersEnable, mbSerPduSizeMax],
      fun _ _ => ?_⟩
    exact readBytes_writeBytes s.rtuBuf 0 [b]
  rw [if_neg hcur]
  by_cases hfit : cur.length ≤ mbSerPduSizeMax
  · rw [if_pos hfit]
    show ∃ s', (if s.rcvBufferPos < mbSerPduSizeMax then _ else _) = _ ∧ _
    rw [h.rcvBufferPos hcur hfit]
    by_cases hroom : cur.length < mbSerPduSizeMax
    · rw [if_pos hroom]
      refine ⟨_, rfl, rfl, h.sndState, by simp [timersEnable], ?_, fun _ _ => ?_⟩
      · rw [if_neg hne, if_pos (by omega)]
        rfl
      · have hend := readBytes_writeBytes_end s.rtuBuf 0 cur.length b
        rw [Nat.zero_add] at hend
        show readBytes (writeBytes s.rtuBuf cur.length [b]) 0 (cur.length + 1) = _
        rw [hend, ← h.rcvBufferPos hcur hfit]
        exact congrArg (· ++ [b]) (h.received hcur hfit)
    · -- the frame is longer than the buffer
      rw [if_neg hroom]
      refine ⟨_, rfl, rfl, h.sndState, by simp [timersEnable], ?_, fun _ hle => ?_⟩
      · rw [if_neg hne, if_neg (by omega)]
        rfl
      · omega
  · rw [if_neg hfit]
    refine ⟨_, rfl, rfl, h.sndState, by simp [timersEnable], ?_, fun _ hle => ?_⟩
    · rw [if_neg hne, if_neg (by omega)]
      show s.rcvState = _
      rw [h.rcvState, if_neg hcur, if_neg hfit]
    · omega

/-- A silence announces what has been received if the buffer has held it. -/
theorem Receiving.silence {s : Rtu} {cur : List UInt8} (h : s.Receiving cur) :
    ∃ s', s.lineStep none = .ok s' ∧ s'.Receiving [] ∧
      (s'.events = if cur ≠ [] ∧ cur.length ≤ mbSerPduSizeMax then insert .frameReceived s.events
        else s.events) ∧ s'.received = s.received := by
  by_cases hcur : cur = []
  · subst hcur
    refine ⟨s, ?_, h, by simp, rfl⟩
    show (if s.timer = true then _ else _) = _
    rw [h.timer]
    rfl
  have hrun : s.lineStep none = s.xMBRTUTimerT35Expired := by
    show (if s.timer = true then _ else _) = _
    rw [h.timer, decide_eq_true hcur, if_pos rfl]
  unfold xMBRTUTimerT35Expired at hrun
  rw [h.rcvState, if_neg hcur] at hrun
  rw [hrun]
  by_cases hfit : cur.length ≤ mbSerPduSizeMax
  · rw [if_pos hfit]
    refine ⟨_, rfl, ⟨h.sndState, rfl, rfl, fun hne => absurd rfl hne⟩, ?_, rfl⟩
    rw [if_pos ⟨hcur, hfit⟩]
    rfl
  · rw [if_neg hfit]
    refine ⟨_, rfl, ⟨h.sndState, rfl, rfl, fun hne => absurd rfl hne⟩, ?_, rfl⟩
    rw [if_neg fun hc => hfit hc.2]
    rfl

/-! ## Along a history -/

theorem Receiving.clear {s : Rtu} {cur : List UInt8} (h : s.Receiving cur) :
    { s with events := ∅ }.Receiving cur := ⟨h.sndState, h.timer, h.rcvState, h.received⟩

/-- What the receiver announces from the middle of a frame. -/
theorem Receiving.announced {s : Rtu} {cur : List UInt8} (h : s.Receiving cur)
    (l : List (Option UInt8)) :
    s.announced l = .ok ((frames cur l).filter fun f => f.length ≤ mbSerPduSizeMax) := by
  induction l generalizing s cur with
  | nil => rfl
  | cons i l ih =>
    cases i with
    | some b =>
      obtain ⟨s', hstep, hev, hs'⟩ := h.clear.byte b
      have hnone : MbEvent.frameReceived ∉ s'.events := by simp [hev]
      rw [Rtu.announced, lineStep, hstep]
      show (s'.announced l >>= _) = _
      rw [ih hs', frames_symbol]
      exact congrArg Except.ok (if_neg hnone)
    | none =>
      obtain ⟨s', hstep, hs', hev, hrec⟩ := h.clear.silence
      rw [Rtu.announced, hstep]
      show (s'.announced l >>= _) = _
      rw [ih hs']
      refine congrArg Except.ok ?_
      by_cases hcur : cur = []
      · subst hcur
        rw [frames_pause_empty, hev]
        simp
      · rw [frames_pause hcur, hev]
        by_cases hfit : cur.length ≤ mbSerPduSizeMax
        · have hwhat : s'.received = cur := hrec.trans (h.received hcur hfit)
          simp [hcur, hfit, hwhat]
        · simp [hfit]

/-- A byte in the initial state is ignored. -/
theorem lineStep_init {s : Rtu} (hsnd : s.sndState = .txIdle) (hrcv : s.rcvState = .rxInit)
    (b : UInt8) : s.lineStep (some b) = .ok s.timersEnable := by
  show s.xMBRTUReceiveFSM b = _
  rw [xMBRTUReceiveFSM, if_pos hsnd, hrcv]

/-- Nothing is announced before the first silence. -/
theorem announced_init {s : Rtu} (hsnd : s.sndState = .txIdle) (hrcv : s.rcvState = .rxInit)
    (htimer : s.timer = true) (f : List UInt8) (l : List (Option UInt8)) :
    s.announced (sent f ++ l) = .ok ((frames [] l).filter fun f => f.length ≤ mbSerPduSizeMax) := by
  induction f generalizing s with
  | nil =>
    have hstep : { s with events := ∅ }.lineStep none =
        .ok { ({ s with events := ∅ }.eventPost .ready).timersDisable with rcvState := .rxIdle } := by
      show (if s.timer = true then _ else _) = _
      rw [if_pos htimer, xMBRTUTimerT35Expired, hrcv]
    have hidle : Receiving
        { ({ s with events := ∅ }.eventPost .ready).timersDisable with rcvState := .rxIdle } [] :=
      ⟨hsnd, rfl, rfl, fun hne => absurd rfl hne⟩
    show announced s (none :: l) = _
    rw [announced, hstep]
    show (announced _ l >>= _) = _
    rw [hidle.announced]
    rfl
  | cons b f ih =>
    have hrest := ih (s := ({ s with events := ∅ } : Rtu).timersEnable) hsnd hrcv rfl
    show announced s (some b :: (sent f ++ l)) = _
    rw [announced, lineStep_init (s := { s with events := ∅ }) hsnd hrcv]
    show (announced _ (sent f ++ l) >>= _) = _
    rw [hrest]
    rfl

/-- Whatever the line carries, and for as long as it likes: until the first silence after the
start nothing is announced, and from then on every run of bytes between two silences that the
buffer holds, in order and with its bytes in the buffer. No assertion fails on the way. -/
theorem receiver_frames (s : Rtu) (h : s.sndState = .txIdle) (f : List UInt8)
    (l : List (Option UInt8)) :
    s.eMBRTUStart.announced (sent f ++ l) =
        .ok ((frames [] l).filter fun f => f.length ≤ mbSerPduSizeMax) ∧
      ∀ fs : List (List UInt8), (∀ g ∈ fs, g ≠ []) → l = fs.flatMap sent →
        s.eMBRTUStart.announced (sent f ++ l) =
          .ok (fs.filter fun f => f.length ≤ mbSerPduSizeMax) := by
  have hall := announced_init (s := s.eMBRTUStart) h rfl rfl f l
  refine ⟨hall, fun fs hne hl => ?_⟩
  rw [hall, hl, frames_flatMap_sent hne]

/-- All variables zero, before `eMBRTUStart`. -/
def reset : Rtu := ⟨.rxInit, .txIdle, fun _ => 0, 0, 0, 0, false, false, false, ∅, []⟩

theorem receiver_frames_two :
    reset.eMBRTUStart.announced (sent [0x55] ++ [[1, 2], [3]].flatMap sent) = .ok [[1, 2], [3]] :=
  (receiver_frames reset rfl [0x55] _).2 [[1, 2], [3]] (by decide) rfl

end Rtu

end SC04Monitor.Modbus
