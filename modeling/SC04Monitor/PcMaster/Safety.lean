import SC04Monitor.PcMaster.Recorder

/-! # The driver stays within its buffers

Bytes of the line, calls of the recorder routine and writes of the other threads come in any order.
As long as no length byte wraps, no response is asked for that is too long and nobody is after the
variables of the driver, every event can be handled, nothing is written behind a buffer, and memory
changes only where the PC or the recorder writes. -/

namespace SC04Monitor.PcMaster
open SC04Monitor.Lib.ByteMem SC04Monitor.Lib.WordMem SC04Monitor.Lib.Steps
open SC04Monitor.Lib.ByteStuffing

namespace Board

/-! ## Commands -/

structure Inv (s : Board) : Prop where
  recorder : s.RecInv
  scope : s.scope.Valid

theorem Inv.congr {s t : Board} (h : s.Inv)
    (hactive : t.status.recActivated = s.status.recActivated) (hrec : t.recorder = s.recorder)
    (hscope : t.scope = s.scope) : t.Inv := by
  obtain ⟨⟨ha, hc⟩, hs⟩ := h
  refine ⟨⟨?_, ?_⟩, ?_⟩
  · rw [hactive, hrec]
    exact ha
  · rw [hrec]
    exact hc
  · rw [hscope]
    exact hs

/-- Nothing behind the buffers has changed. -/
structure Within (s t : Board) : Prop where
  dataBuff : ∀ i, dataBuffLen ≤ i → t.dataBuff i = s.dataBuff i
  appCmdBuff : ∀ i, appCmdSize.toNat ≤ i → t.appCmdBuff i = s.appCmdBuff i
  recBuff : t.recBuff = s.recBuff
  plain : t.plain = s.plain

theorem Within.refl (s : Board) : Within s s := ⟨fun _ _ => rfl, fun _ _ => rfl, rfl, rfl⟩

theorem Within.trans {s t u : Board} (h : Within s t) (h' : Within t u) : Within s u :=
  ⟨fun i hi => (h'.dataBuff i hi).trans (h.dataBuff i hi),
    fun i hi => (h'.appCmdBuff i hi).trans (h.appCmdBuff i hi), h'.recBuff.trans h.recBuff,
    h'.plain.trans h.plain⟩

/-- What is described stays the same. -/
theorem Within.described {s t : Board} (h : Within s t) {a n : Nat} :
    t.Described a n ↔ s.Described a n := by
  unfold Described describedAt
  rw [h.recBuff, h.plain]

/-- Where a command writes memory. The mask command writes to one address only. -/
def Writes (s : Board) (a : Nat) : Prop :=
  s.dataBuff 0 = 0x05 ∧ addrAt s.dataBuff 3 ≤ a ∧ a < addrAt s.dataBuff 3 + int8Size (s.dataBuff 2) ∨
    s.dataBuff 0 = 0x06 ∧ a = addrAt s.dataBuff 3

theorem writeMaskLoop_frame (dataBuff : Mem) (length : Nat) {varaddr a : Nat} (h : a ≠ varaddr)
    (n i : Nat) (mem : Mem) : writeMaskLoop dataBuff length varaddr n i mem a = mem a := by
  induction n generalizing i mem with
  | zero => rfl
  | succ n ih =>
    rw [writeMaskLoop, ih, writeBytes_outside (by simp only [List.length_singleton]; omega)]

section
variable {s t : Board}

theorem Effect.inv (h : Effect s t) (hs : s.Inv) : t.Inv := by
  obtain ⟨hrec, hscope⟩ := hs
  cases h with
  | setupScope scope hcmd hvalid sts hsts => exact ⟨⟨hrec.active, hrec.config⟩, hvalid⟩
  | startRec recLastVal hcnt hrun =>
    exact ⟨hrec.runs rfl (fun _ => hcnt) fun _ => .inl rfl, hscope⟩
  | stopRec hcnt hactive hrun => exact ⟨hrec.runs rfl (fun _ => hcnt) fun _ => .inl rfl, hscope⟩
  | setupRec hcmd haccepts =>
    exact ⟨⟨fun _ => haccepts.varCnt_ne, fun _ => haccepts.config⟩, hscope⟩
  | refuseRec hcmd hrefused =>
    obtain ⟨hsame, hactive, -, -, -, hrecorder⟩ := hrefused
    refine ⟨⟨fun he => absurd (hactive.symm.trans he) Bool.false_ne_true, fun hne => ?_⟩, ?_⟩
    · rcases hrecorder with hzero | he
      · exact absurd hzero hne
      · rw [he] at hne ⊢
        obtain ⟨hle, hlen, hpos, hroom, hrecPos, hsize⟩ := hrec.config hne
        exact ⟨hle, hlen, hpos, hroom, hrecPos, hsize⟩
    · rw [hsame]
      exact hscope
  | _ => exact ⟨⟨hrec.active, hrec.config⟩, hscope⟩

theorem Effect.within (h : Effect s t) (hs : s.Inv) : Within s t := by
  cases h with
  | reply dataBuff response hbuff hfits => exact ⟨hbuff hs.scope, fun _ _ => rfl, rfl, rfl⟩
  | callApp data hdata =>
    refine ⟨fun _ _ => rfl, fun i hi => ?_, rfl, rfl⟩
    have hout : writeBytes s.appCmdBuff 0 data i = s.appCmdBuff i :=
      writeBytes_outside (.inr (by omega))
    exact hout
  | refuseRec hcmd hrefused =>
    rw [hrefused.same]
    exact ⟨fun _ _ => rfl, fun _ _ => rfl, rfl, rfl⟩
  | _ => exact ⟨fun _ _ => rfl, fun _ _ => rfl, rfl, rfl⟩

theorem Effect.fits (h : Effect s t) (hs : s.Inv) (hshort : s.Short) : t.Fits := by
  have hone : ∀ {u : Board} {sts : UInt8}, sts ≠ START → u.response = (sts, 1) → u.Fits := by
    intro u sts hsts hu
    refine fits_of_le (by rwa [hu]) ?_ ?_
    · rw [hu]
      exact (show (1 : UInt8) ≠ 0 by decide)
    · rw [hu]
      exact (show (1 : UInt8) ≤ 31 by decide)
  cases h with
  | reply dataBuff response hbuff hfits => exact hfits hs.scope hshort
  | setupScope scope hcmd hvalid sts hsts => exact hone hsts rfl
  | refuseRec hcmd hrefused => exact hone hrefused.response.1 (Prod.ext rfl hrefused.response.2)
  | _ => exact hone (show stcOk ≠ START by decide) rfl

theorem Effect.scope (h : Effect s t) (hcmd : s.dataBuff 0 ≠ 0x0A) : t.scope = s.scope := by
  cases h with
  | setupScope scope hscope hvalid sts hsts => exact absurd hscope hcmd
  | refuseRec hrec hrefused => rw [hrefused.same]
  | _ => rfl

theorem Effect.mem (h : Effect s t) {a : Nat} (ha : ¬ s.Writes a) : t.mem a = s.mem a := by
  cases h with
  | writeMem hcmd =>
    refine writeBytes_outside ?_
    rw [length_readBytes]
    by_contra hin
    exact ha (.inl ⟨hcmd, by omega, by omega⟩)
  | writeMask hcmd => exact writeMaskLoop_frame _ _ (fun he => ha (.inr ⟨hcmd, he⟩)) _ _ _
  | refuseRec hcmd hrefused => rw [hrefused.same]
  | _ => rfl

end

/-- Every command goes to its end: `recSetLen` is not zero. -/
theorem decode_total {s : Board} (hs : s.RecInv) : ∃ t, s.decode = some t := by
  unfold decode
  cases hfind : commands.find? fun c => c.1 = s.dataBuff 0 with
  | none => exact ⟨_, rfl⟩
  | some c =>
    have hmem := List.mem_of_find?_eq_some hfind
    simp only [commands, List.mem_cons, List.not_mem_nil, or_false] at hmem
    rcases hmem with rfl | rfl | rfl | rfl | rfl | rfl | rfl | rfl | rfl | rfl | rfl | rfl | rfl | rfl |
      rfl | rfl
    all_goals first | exact ⟨_, rfl⟩ | skip
    show ∃ t, s.getRecBuffEx = some t
    unfold getRecBuffEx
    rw [if_neg (by decide)]
    by_cases hcnt : s.recorder.varCnt ≠ 0
    · rw [if_pos hcnt]
      split
      · rw [if_neg (hs.config hcnt).recSetLen_pos]
        exact ⟨_, rfl⟩
      · exact ⟨_, rfl⟩
    · rw [if_neg hcnt]
      exact ⟨_, rfl⟩

end Board

/-! ## Events -/

namespace Pcm

/-- A byte of the line, a call of the recorder routine with what is on its stack, a write of another
thread. -/
inductive Event where
  | byte (c : UInt8)
  | tick (actual : Mem)
  | store (a : Nat) (b : UInt8)

def step (s : Pcm) : Event → Option Pcm
  | .byte c => s.putChar c
  | .tick actual => (s.board.pcmasterdrvRecorder actual).map fun board => { s with board }
  | .store a b =>
    if s.board.describedAt a then
      some { s with board := { s.board with mem := writeBytes s.board.mem a [b] } }
    else none

/-- The byte belongs to a message that has begun before. -/
def Data (s : Pcm) (c : UInt8) : Prop := s.started = true ∧ s.charRec = decide (c = START)

/-- The byte completes a message. -/
def Completes (s : Pcm) (c : UInt8) : Prop :=
  s.Data c ∧ s.pos = s.length.toUInt16 ∧ (s.checkSum + c.toUInt16) &&& 0x00FF = 0

/-- A length byte is not so great that two more wrap, no long response is asked for, and what
happens to memory is described. -/
def Ok (s : Pcm) : Event → Prop
  | .byte c =>
    (s.Data c → s.pos ≠ s.length.toUInt16 → s.board.status.stdCmd = true → c ≤ 253) ∧
      (s.Completes c → s.board.Short ∧ s.board.Covered)
  | .tick _ => ∀ r ∈ s.board.sampled, s.board.Described r.1 r.2
  | .store a _ => s.board.describedAt a = true

/-- An event that can write at the address. -/
def Touches (s : Pcm) (a : Nat) : Event → Prop
  | .byte c => s.Completes c ∧ s.board.Writes a
  | .tick _ => s.board.recBuff ≤ a ∧ a < s.board.recBuff + recBlock
  | .store a' _ => a = a'

/-- An event that can set the scope up. -/
def SetsScope (s : Pcm) : Event → Prop
  | .byte c => s.Completes c ∧ s.board.dataBuff 0 = 0x0A
  | _ => False

/-- A message that is being received stays within the buffer; its length is awaited behind the
command only. -/
structure Inv (s : Pcm) : Prop where
  board : s.board.Inv
  pos_le : s.started = true → s.pos.toNat ≤ s.length.toNat
  length_le : s.started = true → s.length ≤ dataBuffSize
  std : s.started = true → s.board.status.stdCmd = true → s.pos = 1

theorem sendResponse_eq (s : Pcm) {b : Board} (h : b.Fits) :
    s.sendResponse b = some { s with
      board := { b with dataBuff := writeBytes b.dataBuff 0 [b.response.1] },
      pos := b.response.2.toUInt16, length := 0xFF, checkSum := (outBuffer b).2,
      sent := s.sent ++ [(outBuffer b).1] } := by
  unfold sendResponse
  exact if_pos (by rw [outBuffer_eq]; exact h)

/-- What an event keeps that writes the addresses `a` and may set the scope up if `p`. -/
structure Safe (s t : Pcm) (a : Nat → Prop) (p : Prop) : Prop where
  inv : t.Inv
  within : Board.Within s.board t.board
  mem : ∀ i, ¬ a i → t.board.mem i = s.board.mem i
  scope : ¬ p → t.board.scope = s.board.scope

/-- A response is sent, and no message is awaited. -/
theorem send_safe {s s' : Pcm} (hidle : s'.started = false) {b : Board} (hb : b.Inv) (hfits : b.Fits)
    (hwithin : Board.Within s.board b) {a : Nat → Prop} (hmem : ∀ i, ¬ a i → b.mem i = s.board.mem i)
    {p : Prop} (hscope : ¬ p → b.scope = s.board.scope) :
    ∃ t, s'.sendResponse b = some t ∧ Safe s t a p := by
  have hstop : ∀ {P : Prop}, s'.started = true → P := fun he =>
    absurd (hidle.symm.trans he) Bool.false_ne_true
  refine ⟨_, sendResponse_eq s' hfits, ⟨hb.congr rfl rfl rfl, hstop, hstop, hstop⟩,
    hwithin.trans ⟨fun i hi => ?_, fun _ _ => rfl, rfl, rfl⟩, hmem, hscope⟩
  have hout : writeBytes b.dataBuff 0 [b.response.1] i = b.dataBuff i :=
    writeBytes_outside (.inr (Nat.le_trans (show 1 ≤ 130 by decide) hi))
  exact hout

/-- A byte that is put into the buffer. -/
theorem store_within {s : Pcm} (hs : s.Inv) (hstarted : s.started = true) (c : UInt8) :
    Board.Within s.board (s.store c).board := by
  have hpos := hs.pos_le hstarted
  have hlen : s.length.toNat ≤ 128 := UInt8.le_iff_toNat_le.mp (hs.length_le hstarted)
  refine ⟨fun i hi => ?_, fun _ _ => rfl, rfl, rfl⟩
  have hout : writeBytes s.board.dataBuff s.pos.toNat [c] i = s.board.dataBuff i := by
    refine writeBytes_outside (.inr ?_)
    unfold dataBuffLen at hi
    rw [List.length_singleton]
    omega
  exact hout

/-- A byte of a message. -/
theorem data_safe {s : Pcm} (hs : s.Inv) (hstarted : s.started = true) {c : UInt8}
    (hlength : s.pos ≠ s.length.toUInt16 → s.board.status.stdCmd = true → c ≤ 253)
    (hshort : s.pos = s.length.toUInt16 → (s.checkSum + c.toUInt16) &&& 0x00FF = 0 →
      s.board.Short ∧ s.board.Covered) :
    let last := s.pos = s.length.toUInt16 ∧ (s.checkSum + c.toUInt16) &&& 0x00FF = 0
    ∃ t, s.messageData c false = some t ∧
      Safe s t (fun i => last ∧ s.board.Writes i) (last ∧ s.board.dataBuff 0 = 0x0A) := by
  intro last
  have hpos := hs.pos_le hstarted
  have hlen : s.length.toNat ≤ 128 := UInt8.le_iff_toNat_le.mp (hs.length_le hstarted)
  by_cases hlast : s.pos = s.length.toUInt16
  · rw [messageData_last c hstarted hlast]
    unfold execute
    by_cases hsum : (s.checkSum + c.toUInt16) &&& 0x00FF = 0
    · rw [if_pos hsum]
      obtain ⟨hanswer, hcovered⟩ := hshort hlast hsum
      obtain ⟨b, hdecode⟩ := Board.decode_total hs.board.recorder
      have hb := Board.messageDecode_eq_some.mpr ⟨hcovered, hdecode⟩
      have heffect := Board.messageDecode_effect hb
      rw [hb]
      exact send_safe rfl (heffect.inv hs.board) (heffect.fits hs.board hanswer)
        (heffect.within hs.board) (fun i hi => heffect.mem fun hw => hi ⟨⟨hlast, hsum⟩, hw⟩)
        fun hi => heffect.scope fun hcmd => hi ⟨⟨hlast, hsum⟩, hcmd⟩
    · rw [if_neg hsum]
      have heffect := Board.effect_status s.board (show stcCmdSErr ≠ START by decide)
      exact send_safe rfl (heffect.inv hs.board) (Board.fits_of_le (show stcCmdSErr ≠ START by decide)
        (show (1 : UInt8) ≠ 0 by decide) (show (1 : UInt8) ≤ 31 by decide))
        (heffect.within hs.board) (fun _ _ => rfl) fun _ => rfl
  have hlt : s.pos.toNat < s.length.toNat := by
    refine Nat.lt_of_le_of_ne hpos fun he => hlast (UInt16.toNat_inj.mp ?_)
    rw [he, UInt8.toNat_toUInt16]
  have hroom : s.pos.toNat < dataBuffLen := by
    unfold dataBuffLen
    omega
  have hnext : (s.pos + 1).toNat = s.pos.toNat + 1 := by
    rw [UInt16.toNat_add]
    exact Nat.mod_eq_of_lt (show s.pos.toNat + 1 < 65536 by omega)
  cases hstd : s.board.status.stdCmd with
  | false =>
    rw [messageData_store c hstarted hlast hroom hstd]
    refine ⟨_, rfl, ⟨hs.board.congr rfl rfl rfl, fun _ => ?_, fun _ => hs.length_le hstarted,
      fun _ he => absurd (hstd.symm.trans he) Bool.false_ne_true⟩, store_within hs hstarted c,
      fun _ _ => rfl, fun _ => rfl⟩
    show (s.pos + 1).toNat ≤ s.length.toNat
    omega
  | true =>
    have hone := hs.std hstarted hstd
    have hboard : ((s.store c).setLength c).board.Inv := hs.board.congr rfl rfl rfl
    have hwithin : Board.Within s.board ((s.store c).setLength c).board := by
      obtain ⟨hdata, happ, hrec, hplain⟩ := store_within hs hstarted c
      exact ⟨hdata, happ, hrec, hplain⟩
    rw [messageData_length c hstarted hlast hroom hstd]
    by_cases hlong : dataBuffSize < c + 2
    · have heffect := Board.effect_status ((s.store c).setLength c).board
        (show stcCmdBuffOvf ≠ START by decide)
      rw [if_pos hlong]
      exact send_safe rfl (heffect.inv hboard)
        (Board.fits_of_le (show stcCmdBuffOvf ≠ START by decide) (show (1 : UInt8) ≠ 0 by decide)
          (show (1 : UInt8) ≤ 31 by decide)) (hwithin.trans (heffect.within hboard)) (fun _ _ => rfl)
        fun _ => rfl
    · have hle : c.toNat ≤ 253 := UInt8.le_iff_toNat_le.mp (hlength hlast hstd)
      have hsum : (c + 2).toNat = c.toNat + 2 := by
        rw [UInt8.toNat_add]
        exact Nat.mod_eq_of_lt (by show _ + 2 < 256; omega)
      rw [if_neg hlong]
      refine ⟨_, rfl, ⟨hboard, fun _ => ?_, fun _ => UInt8.not_lt.mp hlong,
        fun _ he => absurd he Bool.false_ne_true⟩, hwithin, fun _ _ => rfl, fun _ => rfl⟩
      show (s.pos + 1).toNat ≤ (c + 2).toNat
      rw [hsum, hone]
      exact Nat.le_add_left 2 _

/-- The command of a message. -/
theorem start_safe {s : Pcm} (hs : s.Inv) (cmd : UInt8) (a : Nat → Prop) (p : Prop) :
    Safe s (s.start cmd) a p := by
  have hlength : 1 ≤ (s.start cmd).length.toNat ∧ (s.start cmd).length ≤ dataBuffSize := by
    show 1 ≤ (if 0xC0 ≤ cmd then ((cmd &&& 0x30) >>> 3) + 1 else 2 : UInt8).toNat ∧
      (if 0xC0 ≤ cmd then ((cmd &&& 0x30) >>> 3) + 1 else 2 : UInt8) ≤ 0x80
    split
    · have hle := special_le cmd
      rw [UInt8.le_iff_toNat_le, special_length]
      exact ⟨Nat.le_add_left 1 _, by show _ ≤ 128; omega⟩
    · decide
  refine ⟨⟨hs.board.congr rfl rfl rfl, fun _ => hlength.1, fun _ => hlength.2, fun _ _ => rfl⟩,
    ⟨fun i hi => ?_, fun _ _ => rfl, rfl, rfl⟩, fun _ _ => rfl, fun _ => rfl⟩
  have hout : writeBytes s.board.dataBuff 0 [cmd] i = s.board.dataBuff i :=
    writeBytes_outside (.inr (Nat.le_trans (show 1 ≤ 130 by decide) hi))
  exact hout

theorem Safe.withChar {s t : Pcm} {a : Nat → Prop} {p : Prop} (h : Safe s t a p) (charRec : Bool) :
    Safe s (t.withChar charRec) a p := by
  obtain ⟨⟨hboard, hpos, hlen, hstd⟩, hwithin, hmem, hscope⟩ := h
  exact ⟨⟨hboard, hpos, hlen, hstd⟩, hwithin, hmem, hscope⟩

theorem Safe.refl {s : Pcm} (hs : s.Inv) (a : Nat → Prop) (p : Prop) : Safe s s a p :=
  ⟨hs, .refl s.board, fun _ _ => rfl, fun _ => rfl⟩

/-- A byte that is not the beginning of a message. -/
theorem body_safe {s : Pcm} (hs : s.Inv) {c : UInt8} (hc : s.charRec = decide (c = START))
    (hok : s.Ok (.byte c)) :
    ∃ t, s.messageData c false = some t ∧
      Safe s t (fun i => s.Touches i (.byte c)) (s.SetsScope (.byte c)) := by
  cases hstarted : s.started with
  | false =>
    rw [messageData_not_started c hstarted]
    exact ⟨s, rfl, Safe.refl hs _ _⟩
  | true =>
    have hdata : s.Data c := ⟨hstarted, hc⟩
    obtain ⟨t, ht, hsafe⟩ := data_safe hs hstarted (hok.1 hdata)
      fun hlast hsum => hok.2 ⟨hdata, hlast, hsum⟩
    exact ⟨t, ht, hsafe.inv, hsafe.within,
      fun i hi => hsafe.mem i fun hw => hi ⟨⟨hdata, hw.1.1, hw.1.2⟩, hw.2⟩,
      fun hi => hsafe.scope fun hw => hi ⟨⟨hdata, hw.1.1, hw.1.2⟩, hw.2⟩⟩

theorem putChar_safe {s : Pcm} (hs : s.Inv) {c : UInt8} (hok : s.Ok (.byte c)) :
    ∃ t, s.putChar c = some t ∧
      Safe s t (fun i => s.Touches i (.byte c)) (s.SetsScope (.byte c)) := by
  unfold putChar
  cases hchar : s.charRec with
  | false =>
    rw [if_pos rfl]
    by_cases hc : c = START
    · rw [if_pos hc]
      exact ⟨_, rfl, (Safe.refl hs _ _).withChar true⟩
    · rw [if_neg hc]
      exact body_safe hs (hchar.trans (decide_eq_false hc).symm) hok
  | true =>
    rw [if_neg (by simp)]
    by_cases hc : c = START
    · obtain ⟨t, ht, hsafe⟩ := body_safe hs (hchar.trans (decide_eq_true hc).symm) hok
      rw [decide_eq_false (not_not_intro hc), ht]
      exact ⟨_, rfl, hsafe.withChar false⟩
    · rw [decide_eq_true hc, messageData_start]
      exact ⟨_, rfl, (start_safe hs c _ _).withChar false⟩

/-- Every event can be handled that meets the condition, and does no harm. -/
theorem step_safe {s : Pcm} (hs : s.Inv) {e : Event} (hok : s.Ok e) :
    ∃ t, s.step e = some t ∧ Safe s t (fun i => s.Touches i e) (s.SetsScope e) := by
  cases e with
  | byte c => exact putChar_safe hs hok
  | tick actual =>
    have ht := Board.recorder_ticked hs.board.recorder actual
    have hscope : (s.board.recorderRoutine actual).scope.Valid := by
      rw [ht.same]
      exact hs.board.scope
    have hcall : s.board.pcmasterdrvRecorder actual = some (s.board.recorderRoutine actual) :=
      if_pos hok
    refine ⟨{ s with board := s.board.recorderRoutine actual }, congrArg (Option.map _) hcall,
      ⟨⟨hs.board.recorder.tick actual, hscope⟩, hs.pos_le, hs.length_le,
        fun hstarted hstd => hs.std hstarted (ht.stdCmd.symm.trans hstd)⟩,
      ?_, fun i hi => ht.mem i ?_, fun _ => ?_⟩
    · show Board.Within s.board (s.board.recorderRoutine actual)
      rw [ht.same]
      exact ⟨fun _ _ => rfl, fun _ _ => rfl, rfl, rfl⟩
    · by_contra hin
      exact hi ⟨by omega, by omega⟩
    · show (s.board.recorderRoutine actual).scope = _
      rw [ht.same]
  | store a b =>
    refine ⟨_, if_pos hok, ⟨hs.board.congr rfl rfl rfl, hs.pos_le, hs.length_le, hs.std⟩,
      ⟨fun _ _ => rfl, fun _ _ => rfl, rfl, rfl⟩, fun i hi => ?_, fun _ => rfl⟩
    have hout : writeBytes s.board.mem a [b] i = s.board.mem i := by
      refine writeBytes_outside ?_
      rw [List.length_singleton]
      have hne : i ≠ a := hi
      omega
    exact hout

theorem init_inv (recBuff : Nat) (plain : Nat → Bool) (mem : Mem) : (init recBuff plain mem).Inv :=
  ⟨⟨⟨fun h => absurd h Bool.false_ne_true, fun h => absurd rfl h⟩, Scope.valid_zero _⟩,
    fun h => absurd h Bool.false_ne_true, fun h => absurd h Bool.false_ne_true,
    fun h => absurd h Bool.false_ne_true⟩

/-- In every order of the events that meet the condition the driver stays within its buffers and
never stops; every event changes memory only where it may. -/
theorem driver_safe {recBuff : Nat} {plain : Nat → Bool} {mem : Mem} {s : Pcm}
    (h : Reach step Ok (init recBuff plain mem) s) :
    Board.Within (init recBuff plain mem).board s.board ∧
      ∀ e, s.Ok e → ∃ t, s.step e = some t ∧
        ∀ a, ¬ s.Touches a e → t.board.mem a = s.board.mem a := by
  have hinv : s.Inv ∧ Board.Within (init recBuff plain mem).board s.board := by
    refine h.inv (P := fun s => s.Inv ∧ Board.Within (init recBuff plain mem).board s.board)
      ⟨init_inv recBuff plain mem, .refl _⟩ ?_
    rintro s e s' ⟨hs, hwithin⟩ hok hstep
    obtain ⟨t, ht, hsafe⟩ := step_safe hs hok
    rw [hstep] at ht
    cases ht
    exact ⟨hsafe.inv, hwithin.trans hsafe.within⟩
  refine ⟨hinv.2, fun e hok => ?_⟩
  obtain ⟨t, ht, hsafe⟩ := step_safe hinv.1 hok
  exact ⟨t, ht, hsafe.mem⟩

/-- The byte at 0 is asked for, and the recorder routine is called. -/
theorem driver_safe_readVar :
    ∃ s, runSteps step (smallBoard fun _ => 0)
        [.byte START, .byte 0xE0, .byte 0, .byte 0, .tick fun _ => 0, .byte 0, .byte 0, .byte 0x20] =
          some s ∧
      Board.Within (smallBoard fun _ => 0).board s.board ∧
      ∀ e, s.Ok e → ∃ t, s.step e = some t ∧
        ∀ a, ¬ s.Touches a e → t.board.mem a = s.board.mem a := by
  refine ⟨_, rfl, driver_safe ?_⟩
  -- before the last byte no message is complete
  have hbyte : ∀ {s : Pcm} {c : UInt8}, s.board.status.stdCmd = false →
      s.started = false ∨ s.pos ≠ s.length.toUInt16 → s.Ok (.byte c) := by
    intro s c hstd hpos
    refine ⟨fun _ _ he => absurd (hstd.symm.trans he) Bool.false_ne_true, fun h => ?_⟩
    rcases hpos with he | hne
    · exact absurd (he.symm.trans h.1.1) Bool.false_ne_true
    · exact absurd h.2.1 hne
  refine Reach.next (a := .byte 0x20) (.next (a := .byte 0) (.next (a := .byte 0)
    (.next (a := .tick fun _ => 0) (.next (a := .byte 0) (.next (a := .byte 0)
    (.next (a := .byte 0xE0) (.next (a := .byte START) .start (hbyte rfl (.inl rfl)) rfl)
    (hbyte rfl (.inl rfl)) rfl) (hbyte rfl (.inr (by decide))) rfl) (hbyte rfl (.inr (by decide))) rfl)
    ?_ rfl) (hbyte rfl (.inr (by decide))) rfl) (hbyte rfl (.inr (by decide))) rfl) ?_ rfl
  · exact fun r hr => absurd hr List.not_mem_nil
  · exact ⟨fun _ hne => absurd rfl hne, fun _ => ⟨⟨fun h => absurd h (by decide),
      fun h => absurd h (by decide)⟩, by decide, by decide⟩⟩

/-! ## A length byte that wraps -/

/-- With a length byte of 254 or 255 a message does not end: the bytes behind it are put into the
buffer until it is full, and the next one goes behind it. -/
theorem length_overrun {s : Pcm} (h : s.charRec = false) {cmd len : UInt8} (hcmd : cmd < 0xC0)
    (hne : cmd ≠ START) (hlen : 253 < len) (data : List UInt8) :
    (data.length ≤ 128 → ∃ t, s.putData (START :: cmd :: stuff START (len :: data)) = some t ∧
      t.board.dataBuff = writeBytes s.board.dataBuff 0 (cmd :: len :: data) ∧ t.sent = s.sent ∧
      t.started = true ∧ t.pos ≠ t.length.toUInt16 ∧ t.pos.toNat = 2 + data.length) ∧
    (128 < data.length → s.putData (START :: cmd :: stuff START (len :: data)) = none) := by
  have hspecial : ¬ 0xC0 ≤ cmd := UInt8.not_le.mpr hcmd
  have hgt : 253 < len.toNat := UInt8.lt_iff_toNat_lt.mp hlen
  have hlt := len.toNat_lt
  have hwrap : (len + 2).toNat = len.toNat - 254 := by
    rw [UInt8.toNat_add]
    show (len.toNat + 2) % 256 = _
    omega
  have hfit : ¬ dataBuffSize < len + 2 := by
    rw [UInt8.not_lt, UInt8.le_iff_toNat_le, hwrap]
    show _ ≤ 128
    omega
  -- behind the length byte
  let t := ((s.start cmd).store len).setLength len
  have hput : ∀ l, s.putData (START :: cmd :: stuff START (len :: l)) = runSteps takeByte t l := by
    intro l
    rw [putData_start h hne, putData_stuff (s := s.start cmd) h,
      run_length rfl rfl (if_neg hspecial) (if_neg hspecial) hfit]
  have hend : ∀ n, 2 + n ≠ t.length.toNat := fun n => show 2 + n ≠ (len + 2).toNat by omega
  have hpos : ∀ l : List UInt8, l.length ≤ 128 → (t.storeAll l).pos.toNat = 2 + l.length := by
    intro l hl
    show (2 + UInt16.ofNat l.length : UInt16).toNat = _
    rw [UInt16.toNat_add, UInt16.toNat_ofNat']
    show (2 + l.length % 65536) % 65536 = _
    omega
  have hne' : ∀ l : List UInt8, l.length ≤ 128 →
      (t.storeAll l).pos ≠ (t.storeAll l).length.toUInt16 := by
    intro l hl he
    have hnat := congrArg UInt16.toNat he
    rw [hpos l hl, UInt8.toNat_toUInt16] at hnat
    exact hend _ hnat
  have hrun : ∀ l : List UInt8, l.length ≤ 128 → runSteps takeByte t l = some (t.storeAll l) :=
    fun l hl => run_store rfl (fun _ => rfl) (fun k _ => hend k)
      (show 2 + l.length ≤ 130 by omega)
  constructor
  · intro hdata
    refine ⟨t.storeAll data, (hput data).trans (hrun data hdata), ?_, rfl, rfl, hne' data hdata,
      hpos data hdata⟩
    show writeBytes (writeBytes (writeBytes s.board.dataBuff 0 [cmd]) 1 [len]) 2 data = _
    exact (writeBytes_append _ 1 [len] data).symm.trans (writeBytes_append _ 0 [cmd] _).symm
  · intro hdata
    -- the buffer is full behind 128 bytes
    have htake : (data.take 128).length = 128 := List.length_take_of_le (by omega)
    obtain ⟨c, rest, hrest⟩ := List.exists_cons_of_length_pos (l := data.drop 128)
      (by rw [List.length_drop]; omega)
    have hfull : (t.storeAll (data.take 128)).takeByte c = none :=
      messageData_behind c rfl (hne' _ (by omega)) (by rw [hpos _ (by omega), htake]; decide)
    rw [hput, ← List.take_append_drop 128 data, runSteps_append, hrun _ (by omega), hrest,
      Option.bind_some, runSteps, hfull]
    rfl

/-- A message that the buffer can hold no longer. -/
theorem length_overrun_full :
    (∃ t, (smallBoard fun _ => 0).putData
        (START :: 0x05 :: stuff START (255 :: List.replicate 128 7)) = some t ∧
      t.board.dataBuff 129 = 7) ∧
    (smallBoard fun _ => 0).putData
      (START :: 0x05 :: stuff START (255 :: List.replicate 129 7)) = none := by
  have h := fun data => length_overrun (s := smallBoard fun _ => 0) rfl
    (show (0x05 : UInt8) < 0xC0 by decide) (by decide) (show (253 : UInt8) < 255 by decide) data
  constructor
  · obtain ⟨t, ht, hbuff, -⟩ := (h (List.replicate 128 7)).1 (Nat.le_of_eq List.length_replicate)
    refine ⟨t, ht, ?_⟩
    rw [hbuff]
    rfl
  · exact (h (List.replicate 129 7)).2 (by rw [List.length_replicate]; decide)

end Pcm

end SC04Monitor.PcMaster
