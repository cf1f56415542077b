import SC04Monitor.PcMaster.Conversation

/-! # The serial services

`multi_serial.c`: the interrupt of the USART puts the bytes of the line into `rx_buffer`; a timer
that every byte starts anew ends the burst, and lets a thread give the buffer to `PutData`, to the
console or to nobody. Interrupts, timer and thread take turns as they like; what gets to the driver
is what was on the line. -/

namespace SC04Monitor.PcMaster
open SC04Monitor.Lib.ByteMem SC04Monitor.Lib.Steps

/-- `function_switch`. -/
inductive ConsoleType where
  | useConsole
  | useFreemaster
  | usePtu

/-- Where the thread is: it takes the semaphore, or it is in `PutData`. -/
inductive ServiceThread where
  | taking
  | putting (pAddress length : Nat)

structure Serial where
  rxBuffer : Mem
  readIndex : Nat
  saveIndex : Nat
  timEnabled : Bool
  /-- The counter of the timer. -/
  timCnt : Nat
  /-- The value of `sem_serial_rx`. -/
  semSerialRx : Nat
  isReconnected : Bool
  functionSwitch : ConsoleType
  thread : ServiceThread
  pcm : Pcm

def uartRxBufferSize : Nat := 64
def timPeriod : Nat := 80

namespace Serial

/-- `rt_hw_multi_serial_isr`. There is no check for room: `none` is a byte behind the buffer. -/
def multiSerialIsr (s : Serial) (dr : UInt8) : Option Serial :=
  let s := if s.timCnt = 0 then { s with saveIndex := 0, timEnabled := true } else s
  if s.saveIndex < uartRxBufferSize then
    some { s with
      timCnt := 0, rxBuffer := writeBytes s.rxBuffer s.saveIndex [dr], saveIndex := s.saveIndex + 1 }
  else none

/-- `TIMx_IRQHandler`. -/
def timIrqHandler (s : Serial) : Serial :=
  { s with semSerialRx := s.semSerialRx + 1, timEnabled := false, timCnt := 0 }

/-- The round of `serial_services_entry` behind a semaphore that was taken, up to `PutData`. -/
def service (s : Serial) : Serial :=
  let s :=
    if s.isReconnected then
      { s with
        isReconnected := false
        functionSwitch :=
          if s.rxBuffer 0 = 0x2B ∨ s.rxBuffer 0 = 0xFC then .useFreemaster
          else if s.rxBuffer 1 = 0xCF then .usePtu else .useConsole }
    else s
  let s := { s with readIndex := 0 }
  match s.functionSwitch with
  | .useFreemaster => { s with thread := .putting 0 s.saveIndex }
  | _ => s

/-- A byte of the line, a count of the timer, a second without the semaphore, a step of the thread,
and an event that is none of the line's. -/
inductive Event where
  | rx (c : UInt8)
  | count
  | timedOut
  | run
  | other (e : Pcm.Event)

def step (s : Serial) : Event → Option Serial
  | .rx c => s.multiSerialIsr c
  | .count =>
    if s.timEnabled then
      some (if s.timCnt = timPeriod then s.timIrqHandler else { s with timCnt := s.timCnt + 1 })
    else some s
  | .timedOut =>
    match s.thread with
    | .taking => if s.semSerialRx = 0 then some { s with isReconnected := true } else none
    | .putting _ _ => none
  | .run =>
    match s.thread with
    | .taking =>
      if s.semSerialRx = 0 then none
      else some ({ s with semSerialRx := s.semSerialRx - 1 } : Serial).service
    | .putting _ 0 => some { s with thread := .taking }
    | .putting pAddress (length + 1) =>
      (s.pcm.putChar (s.rxBuffer pAddress)).map fun pcm =>
        { s with pcm, thread := .putting (pAddress + 1) length }
  | .other e => (s.pcm.step e).map fun pcm => { s with pcm }

/-- After `serial_services_entry` has begun. -/
def init (pcm : Pcm) : Serial :=
  { rxBuffer := fun _ => 0, readIndex := 0, saveIndex := 0, timEnabled := false, timCnt := 0
    semSerialRx := 0, isReconnected := true, functionSwitch := .useConsole, thread := .taking, pcm }

/-! ## What the PC does -/

/-- The bytes that the thread still has to put. -/
def toPut (s : Serial) : Nat :=
  match s.thread with
  | .taking => 0
  | .putting _ length => length

/-- A burst begins with the flag of a message, and when the one before has been put; its bytes are
neither too fast for the timer nor too many for the buffer. -/
def TimedByte (s : Serial) (c : UInt8) : Prop :=
  if s.timEnabled = true then s.timCnt ≠ 0 ∧ s.saveIndex < uartRxBufferSize
  else c = START ∧ s.semSerialRx = 0 ∧ s.toPut = 0

def Timed (s : Serial) : Event → Prop
  | .rx c => s.TimedByte c
  | .other (.byte _) => False
  | _ => True

instance (s : Serial) (c : UInt8) : Decidable (s.TimedByte c) :=
  inferInstanceAs (Decidable (if s.timEnabled = true then s.timCnt ≠ 0 ∧ s.saveIndex < uartRxBufferSize
    else c = START ∧ s.semSerialRx = 0 ∧ s.toPut = 0))

instance (s : Serial) (e : Event) : Decidable (s.Timed e) :=
  match e with
  | .rx c => inferInstanceAs (Decidable (s.TimedByte c))
  | .other (.byte _) => inferInstanceAs (Decidable False)
  | .other (.tick _) | .other (.store _ _) | .count | .timedOut | .run => inferInstanceAs (Decidable True)

/-- What comes over the line. -/
def Event.line : Event → List UInt8
  | .rx c => [c]
  | _ => []

/-- What happens to the driver beside the line. -/
def Event.others : Event → List Pcm.Event
  | .other e => [e]
  | _ => []

/-! ## What has not been put -/

/-- There is a burst that the thread has not taken. -/
def waits (s : Serial) : Bool := s.timEnabled || s.semSerialRx != 0

/-- What was received and has not been put. -/
def pending (s : Serial) : List UInt8 :=
  if s.waits then readBytes s.rxBuffer 0 s.saveIndex
  else
    match s.thread with
    | .taking => []
    | .putting pAddress length => readBytes s.rxBuffer pAddress length

theorem pending_waits {s : Serial} (h : s.waits = true) :
    s.pending = readBytes s.rxBuffer 0 s.saveIndex := if_pos h

theorem pending_put {s : Serial} (h : s.waits = false) (hput : s.toPut = 0) : s.pending = [] := by
  unfold pending
  unfold toPut at hput
  rw [h, if_neg Bool.false_ne_true]
  cases hthread : s.thread with
  | taking => rfl
  | putting p n =>
    rw [hthread] at hput
    cases hput
    rfl

/-- As long as there is nothing to put, only the burst counts. -/
theorem pending_congr {s t : Serial} (hput : s.toPut = 0) (hput' : t.toPut = 0)
    (hwaits : t.waits = s.waits) (hbuff : t.rxBuffer = s.rxBuffer) (hsave : t.saveIndex = s.saveIndex) :
    s.pending = t.pending := by
  cases h : s.waits with
  | true => rw [pending_waits h, pending_waits (hwaits.trans h), hbuff, hsave]
  | false => rw [pending_put h hput, pending_put (hwaits.trans h) hput']

/-- The thread is never behind by more than a burst. -/
structure Inv (s : Serial) : Prop where
  timCnt : s.timEnabled = false → s.timCnt = 0
  taken : s.timEnabled = true → s.semSerialRx = 0
  sem_le : s.semSerialRx ≤ 1
  idle : s.waits = true → s.toPut = 0
  burst : s.waits = true →
    0 < s.saveIndex ∧ s.saveIndex ≤ uartRxBufferSize ∧ s.rxBuffer 0 = START
  switch : s.isReconnected = true ∨ s.functionSwitch = .useFreemaster

theorem init_inv (pcm : Pcm) : (init pcm).Inv :=
  ⟨fun _ => rfl, fun h => absurd h (by simp [init]), Nat.zero_le 1, fun _ => rfl,
    fun h => absurd h (by simp [init, waits]), .inl rfl⟩

end Serial

/-! ## One event -/

namespace Pcm.Event

def line : Pcm.Event → List UInt8
  | .byte c => [c]
  | _ => []

def others : Pcm.Event → List Pcm.Event
  | .byte _ => []
  | e => [e]

end Pcm.Event

namespace Serial

/-- The driver has taken events that are what came over the line, up to what is pending, and what
else happened, both in order. -/
structure Delivers (s t : Serial) (line : List UInt8) (others : List Pcm.Event)
    (es : List Pcm.Event) : Prop where
  pcm : runSteps Pcm.step s.pcm es = some t.pcm
  line : s.pending ++ line = es.flatMap Pcm.Event.line ++ t.pending
  others : es.flatMap Pcm.Event.others = others

section
variable {s t u : Serial}

theorem Delivers.trans {line line' : List UInt8} {others others' es es' : List Pcm.Event}
    (h : Delivers s t line others es) (h' : Delivers t u line' others' es') :
    Delivers s u (line ++ line') (others ++ others') (es ++ es') := by
  refine ⟨?_, ?_, ?_⟩
  · rw [runSteps_append, h.pcm, Option.bind_some, h'.pcm]
  · rw [← List.append_assoc, h.line, List.append_assoc, h'.line, List.flatMap_append, List.append_assoc]
  · rw [List.flatMap_append, h.others, h'.others]

/-- The driver takes no part. -/
theorem delivers_of_pending {line : List UInt8} (hpcm : t.pcm = s.pcm)
    (hline : s.pending ++ line = t.pending) : Delivers s t line [] [] :=
  ⟨by rw [hpcm]; rfl, hline, rfl⟩

/-- A byte is stored behind those of its burst. -/
theorem rx_delivers (hs : s.Inv) {c : UInt8} (hok : s.TimedByte c) :
    ∃ t, s.multiSerialIsr c = some t ∧ t.Inv ∧ Delivers s t [c] [] [] := by
  obtain ⟨hcnt, htaken, hle, hidle, hburst, hswitch⟩ := hs
  unfold TimedByte at hok
  cases hrun : s.timEnabled with
  | true =>
    rw [if_pos hrun] at hok
    obtain ⟨hne, hroom⟩ := hok
    have hwaits : s.waits = true := by simp [waits, hrun]
    have hstore : s.multiSerialIsr c = some { s with
        timCnt := 0, rxBuffer := writeBytes s.rxBuffer s.saveIndex [c],
        saveIndex := s.saveIndex + 1 } := by
      simp [multiSerialIsr, hne, hroom]
    have hold : readBytes (writeBytes s.rxBuffer s.saveIndex [c]) 0 s.saveIndex =
        readBytes s.rxBuffer 0 s.saveIndex := readBytes_writeBytes_frame (by simp [Apart])
    have hnew : readBytes (writeBytes s.rxBuffer s.saveIndex [c]) s.saveIndex 1 = [c] :=
      readBytes_writeBytes _ _ [c]
    refine ⟨_, hstore, ⟨fun h => absurd h (by simp [hrun]), htaken, hle, hidle,
      fun _ => ⟨Nat.succ_pos _, hroom, ?_⟩, hswitch⟩, delivers_of_pending rfl ?_⟩
    · obtain ⟨hpos, -, hstart⟩ := hburst hwaits
      exact (writeBytes_outside (.inl hpos)).trans hstart
    · rw [pending_waits hwaits]
      refine Eq.trans ?_ (Eq.symm (pending_waits hwaits))
      show _ = readBytes (writeBytes s.rxBuffer s.saveIndex [c]) 0 (s.saveIndex + 1)
      rw [readBytes_add, Nat.zero_add, hold, hnew]
  | false =>
    rw [if_neg (by simp [hrun])] at hok
    obtain ⟨rfl, hsem, hput⟩ := hok
    have hnow : s.waits = false := by simp [waits, hrun, hsem]
    have hstore : s.multiSerialIsr START = some { s with
        timCnt := 0, timEnabled := true, rxBuffer := writeBytes s.rxBuffer 0 [START],
        saveIndex := 1 } := by
      simp [multiSerialIsr, hcnt hrun, uartRxBufferSize]
    have hnew : readBytes (writeBytes s.rxBuffer 0 [START]) 0 1 = [START] :=
      readBytes_writeBytes _ _ [START]
    refine ⟨_, hstore, ⟨fun h => absurd h (by simp), fun _ => hsem, hle, fun _ => hput,
      fun _ => ⟨Nat.one_pos, show 1 ≤ 64 by decide, readBytes_head hnew⟩, hswitch⟩,
      delivers_of_pending rfl ?_⟩
    rw [pending_put hnow hput, pending_waits rfl]
    exact hnew.symm

/-- The timer ends a burst. -/
theorem count_delivers (hs : s.Inv) {t : Serial} (ht : s.step .count = some t) :
    t.Inv ∧ Delivers s t [] [] [] := by
  have hs' := hs
  obtain ⟨hcnt, htaken, hle, hidle, hburst, hswitch⟩ := hs'
  unfold step at ht
  dsimp only at ht
  by_cases hrun : s.timEnabled = true
  · have hwaits : s.waits = true := by simp [waits, hrun]
    rw [if_pos hrun] at ht
    by_cases hlast : s.timCnt = timPeriod
    · rw [if_pos hlast] at ht
      cases ht
      refine ⟨⟨fun _ => rfl, fun h => absurd h Bool.false_ne_true, ?_, fun _ => hidle hwaits,
        fun _ => hburst hwaits, hswitch⟩, delivers_of_pending rfl ?_⟩
      · have hone : s.semSerialRx + 1 = 1 := congrArg Nat.succ (htaken hrun)
        exact Nat.le_of_eq hone
      · exact (List.append_nil _).trans ((pending_waits hwaits).trans rfl)
    · rw [if_neg hlast] at ht
      cases ht
      refine ⟨⟨fun h => absurd (hrun.symm.trans h) (by simp), htaken, hle, hidle, hburst, hswitch⟩,
        delivers_of_pending rfl ?_⟩
      rw [pending_waits hwaits, List.append_nil]
      exact Eq.symm (pending_waits hwaits)
  · rw [if_neg hrun] at ht
    cases ht
    exact ⟨hs, delivers_of_pending rfl (List.append_nil _)⟩

/-- The thread takes a burst that has ended, for the driver. -/
theorem service_eq (s : Serial) (hstart : s.rxBuffer 0 = START)
    (hswitch : s.isReconnected = true ∨ s.functionSwitch = .useFreemaster) :
    s.service = { s with
      isReconnected := false, functionSwitch := .useFreemaster, readIndex := 0
      thread := .putting 0 s.saveIndex } := by
  obtain ⟨rxBuffer, readIndex, saveIndex, timEnabled, timCnt, sem, reconnected, functionSwitch, thread,
    pcm⟩ := s
  cases reconnected with
  | true =>
    change rxBuffer 0 = 0x2B at hstart
    simp [service, hstart]
  | false =>
    simp at hswitch
    simp [service, hswitch]

theorem run_delivers (hs : s.Inv) (ht : s.step .run = some t) :
    t.Inv ∧ ∃ es, Delivers s t [] [] es := by
  have hs' := hs
  obtain ⟨hcnt, htaken, hle, hidle, hburst, hswitch⟩ := hs'
  unfold step at ht
  dsimp only at ht
  cases hthread : s.thread with
  | taking =>
    rw [hthread] at ht
    dsimp only at ht
    by_cases hsem : s.semSerialRx = 0
    · rw [if_pos hsem] at ht
      cases ht
    · rw [if_neg hsem] at ht
      cases ht
      have hwaits : s.waits = true := by simp [waits, hsem]
      have hoff : s.timEnabled = false := Bool.eq_false_iff.mpr fun he => hsem (htaken he)
      have hone : s.semSerialRx - 1 = 0 := by omega
      obtain ⟨-, -, hstart⟩ := hburst hwaits
      have hnow : (s.timEnabled || s.semSerialRx - 1 != 0) = false := by simp [hoff, hone]
      rw [service_eq { s with semSerialRx := s.semSerialRx - 1, thread := .taking } hstart hswitch]
      refine ⟨⟨hcnt, fun h => absurd (hoff.symm.trans h) Bool.false_ne_true, ?_,
        fun h => absurd (hnow.symm.trans h) Bool.false_ne_true,
        fun h => absurd (hnow.symm.trans h) Bool.false_ne_true, .inr rfl⟩, [], rfl, ?_, rfl⟩
      · show s.semSerialRx - 1 ≤ 1
        rw [hone]
        exact Nat.zero_le 1
      · rw [pending_waits hwaits, List.append_nil]
        exact (if_neg (by rw [waits, hnow]; simp)).symm
  | putting p n =>
    rw [hthread] at ht
    cases n with
    | zero =>
      cases ht
      have hput : s.toPut = 0 := by simp [toPut, hthread]
      refine ⟨⟨hcnt, htaken, hle, fun _ => rfl, hburst, hswitch⟩, [], delivers_of_pending rfl ?_⟩
      rw [List.append_nil]
      exact pending_congr hput rfl rfl rfl rfl
    | succ n =>
      have hw : s.waits = false := by
        refine Bool.eq_false_iff.mpr fun h => ?_
        have hput := hidle h
        simp [toPut, hthread] at hput
      obtain ⟨pcm, hpcm, rfl⟩ := Option.map_eq_some_iff.mp ht
      have hstop : ∀ {P : Prop}, s.waits = true → P := fun h =>
        absurd (hw.symm.trans h) Bool.false_ne_true
      refine ⟨⟨hcnt, htaken, hle, hstop, hstop, hswitch⟩, [.byte (s.rxBuffer p)], ?_, ?_, rfl⟩
      · show (s.pcm.putChar (s.rxBuffer p)).bind some = some pcm
        rw [hpcm]
        rfl
      · have hold : s.pending = readBytes s.rxBuffer p (n + 1) := by
          unfold pending
          rw [hw, hthread]
          rfl
        have hnew : ({ s with pcm, thread := .putting (p + 1) n } : Serial).pending =
            readBytes s.rxBuffer (p + 1) n := if_neg (Bool.eq_false_iff.mp hw)
        rw [hnew, hold, readBytes_succ]
        exact List.append_nil _

/-- What an event does. -/
theorem step_delivers (hs : s.Inv) {e : Event} (hok : s.Timed e) (ht : s.step e = some t) :
    t.Inv ∧ ∃ es, Delivers s t e.line e.others es := by
  cases e with
  | rx c =>
    obtain ⟨u, hu, hinv, hrx⟩ := rx_delivers hs hok
    cases hu.symm.trans ht
    exact ⟨hinv, [], hrx⟩
  | count =>
    obtain ⟨hinv, hcount⟩ := count_delivers hs ht
    exact ⟨hinv, [], hcount⟩
  | timedOut =>
    unfold step at ht
    dsimp only at ht
    obtain ⟨hcnt, htaken, hle, hidle, hburst, hswitch⟩ := hs
    cases hthread : s.thread with
    | taking =>
      rw [hthread] at ht
      dsimp only at ht
      split at ht
      · cases ht
        refine ⟨⟨hcnt, htaken, hle, fun _ => rfl, hburst, .inl rfl⟩, [], delivers_of_pending rfl ?_⟩
        show s.pending ++ [] = _
        rw [List.append_nil]
        exact pending_congr (by simp [toPut, hthread]) rfl rfl rfl rfl
      · cases ht
    | putting p n =>
      rw [hthread] at ht
      cases ht
  | run => exact run_delivers hs ht
  | other e =>
    obtain ⟨pcm, hpcm, rfl⟩ := Option.map_eq_some_iff.mp ht
    obtain ⟨hcnt, htaken, hle, hidle, hburst, hswitch⟩ := hs
    refine ⟨⟨hcnt, htaken, hle, hidle, hburst, hswitch⟩, [e], ?_, ?_, ?_⟩
    · show (s.pcm.step e).bind some = some pcm
      rw [hpcm]
      rfl
    · cases e with
      | byte c => exact absurd hok id
      | tick actual => exact List.append_nil _
      | store a b => exact List.append_nil _
    · cases e with
      | byte c => exact absurd hok id
      | tick actual => rfl
      | store a b => rfl

/-- In every order of interrupts, timer and thread that suits the PC's bursts, the driver is given
what came over the line, up to what is pending, every byte once and in order. -/
theorem delivered (hs : s.Inv) {evs : List Event} (hrun : runSteps (guarded step Timed) s evs = some t) :
    t.Inv ∧ ∃ es, Delivers s t (evs.flatMap Event.line) (evs.flatMap Event.others) es := by
  induction evs generalizing s with
  | nil =>
    cases hrun
    exact ⟨hs, [], rfl, List.append_nil _, rfl⟩
  | cons e evs ih =>
    obtain ⟨u, hu, hrest⟩ := Option.bind_eq_some_iff.mp hrun
    obtain ⟨hok, hstep⟩ := guarded_eq_some.mp hu
    obtain ⟨hinv, es, hone⟩ := step_delivers hs hok hstep
    obtain ⟨hinv', es', hmore⟩ := ih hinv hrest
    exact ⟨hinv', es ++ es', hone.trans hmore⟩

/-- Events of the line only are bytes for the driver. -/
theorem putData_of_events {s : Pcm} {es : List Pcm.Event} (h : es.flatMap Pcm.Event.others = []) :
    runSteps Pcm.step s es = s.putData (es.flatMap Pcm.Event.line) := by
  induction es generalizing s with
  | nil => rfl
  | cons e es ih =>
    rw [List.flatMap_cons, List.append_eq_nil_iff] at h
    cases e with
    | byte c =>
      have hrest : ∀ t, runSteps Pcm.step t es = t.putData (es.flatMap Pcm.Event.line) := fun t => ih h.2
      show (s.putChar c).bind (fun t => runSteps Pcm.step t es) =
        (s.putChar c).bind fun t => t.putData (es.flatMap Pcm.Event.line)
      rw [funext hrest]
    | tick actual => exact absurd h.1 (by simp [Pcm.Event.others])
    | store a b => exact absurd h.1 (by simp [Pcm.Event.others])

/-- A PC that sends requests in bursts gets the answers of `serveAll`, in every order of interrupts,
timer and thread: whenever the thread has put what there is, the driver has served the requests that
came over the line. -/
theorem uart_conversation (hs : s.Inv) (hempty : s.pending = []) (hchar : s.pcm.charRec = false)
    (hstd : s.pcm.board.status.stdCmd = false) {evs : List Event}
    (hrun : runSteps (guarded step Timed) s evs = some t) (hothers : evs.flatMap Event.others = [])
    {rs : List Request} (hline : evs.flatMap Event.line = rs.flatMap Request.frame)
    (hrs : ∀ r ∈ rs, r.Flagged) (hdone : t.pending = []) :
    ∃ b answers, s.pcm.board.serveAll rs = some (b, answers) ∧ t.pcm.board = b ∧
      t.pcm.sent = s.pcm.sent ++ answers.map Pcm.answerFrame := by
  obtain ⟨-, es, hpcm, hbytes, hrest⟩ := delivered hs hrun
  rw [hempty, hdone, List.nil_append, List.append_nil, hline] at hbytes
  rw [putData_of_events (hrest.trans hothers), ← hbytes] at hpcm
  have hserved := Pcm.putData_frames hchar hstd hrs
  rw [hpcm] at hserved
  obtain ⟨p, hp, he⟩ := Option.map_eq_some_iff.mp hserved.symm
  obtain ⟨hboard, hsent⟩ := Prod.mk.inj he
  exact ⟨p.1, p.2, hp, hboard.symm, hsent.symm⟩

end

/-- The status of the application command is asked for, in one burst. -/
def askStatus : List Event :=
  [.rx START, .count, .rx 0xC6, .count, .rx 0x3A] ++ List.replicate 81 .count ++ List.replicate 5 .run

theorem uart_conversation_askStatus :
    ∃ t, runSteps (guarded step Timed) (init (Pcm.smallBoard fun _ => 0)) askStatus = some t ∧
      t.pcm.sent = [[0x2B, 0, 0xFF, 0x01]] := by
  have hdone : (runSteps (guarded step Timed) (init (Pcm.smallBoard fun _ => 0)) askStatus).map pending =
      some [] := by decide
  obtain ⟨t, ht, hempty⟩ := Option.map_eq_some_iff.mp hdone
  obtain ⟨b, answers, hserve, -, hsent⟩ := @uart_conversation (init (Pcm.smallBoard fun _ => 0)) t
    (init_inv _) rfl rfl rfl askStatus ht (by decide) [.special 0xC6 [] (by decide) (by decide)]
    (by decide) (fun r hr hcmd => by
      cases List.mem_singleton.mp hr
      exact absurd hcmd (by decide)) hempty
  have hanswers := congrArg (Option.map Prod.snd) hserve
  refine ⟨t, ht, hsent.trans ?_⟩
  cases hanswers
  decide

end Serial

end SC04Monitor.PcMaster
