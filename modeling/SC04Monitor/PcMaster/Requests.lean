import SC04Monitor.PcMaster.Framing

/-! # Requests and answers

A request of the PC is a command with its data. The driver is described twice: `putData` takes the
bytes of the line, `serve` takes requests. For requests that are sent as they should be the two
agree, whatever was on the line before. -/

namespace SC04Monitor.PcMaster
open SC04Monitor.Lib.ByteMem SC04Monitor.Lib.Steps SC04Monitor.Lib.ByteStuffing
open Pcm (checkByte addBytes)

/-- A message of the PC. The command of a special message tells how much data there is; in a
standard one the length comes before the data. -/
inductive Request where
  | special (cmd : UInt8) (data : List UInt8) (hcmd : 0xC0 ≤ cmd)
      (hdata : data.length = ((cmd &&& 0x30) >>> 3).toNat)
  | standard (cmd : UInt8) (data : List UInt8) (hcmd : cmd < 0xC0) (hflag : cmd ≠ START)
      (hdata : data.length ≤ 126)

namespace Request

def cmd : Request → UInt8
  | special cmd _ _ _ => cmd
  | standard cmd _ _ _ _ => cmd

/-- The bytes between the command and the checksum. -/
def body : Request → List UInt8
  | special _ data _ _ => data
  | standard _ data _ _ _ => UInt8.ofNat data.length :: data

/-- What gets into the buffer. -/
def bytes (r : Request) : List UInt8 := r.cmd :: r.body

/-- The message on the line, with any checksum. -/
def frameWith (r : Request) (cs : UInt8) : List UInt8 :=
  START :: r.cmd :: stuff START (r.body ++ [cs])

/-- The message on the line. -/
def frame (r : Request) : List UInt8 := r.frameWith (checkByte r.bytes)

theorem cmd_ne (r : Request) : r.cmd ≠ START := by
  cases r with
  | special cmd data hcmd hdata =>
    rintro rfl
    exact absurd hcmd (by decide)
  | standard cmd data hcmd hflag hdata => exact hflag

/-- The length byte is awaited only in standard messages, unless a message was broken off there:
`messageData` does not clear the flag when a message begins. -/
def Clear (r : Request) (status : Status) : Prop :=
  0xC0 ≤ r.cmd → r.body ≠ [] → status.stdCmd = false

theorem clear_of_lt (r : Request) (h : r.cmd < 0xC0) (status : Status) : r.Clear status :=
  fun hcmd => absurd hcmd (UInt8.not_le.mpr h)

end Request

/-! ## Requests as the PC sends them -/

/-- `PCMDRV_CMD_WRITEMEMEX`. -/
def writeRequest (a : Nat) (data : List UInt8) (h : data.length ≤ 121) : Request :=
  .standard 0x05 (UInt8.ofNat data.length :: addrBytes a ++ data) (by decide) (by decide)
    (by rw [List.length_append]; exact Nat.add_le_add_left h 5)

/-- `PCMDRV_CMD_READMEMEX`. -/
def readRequest (a n : Nat) : Request :=
  .standard 0x04 (UInt8.ofNat n :: addrBytes a) (by decide) (by decide) (Nat.le_of_ble_eq_true rfl)

/-- The definition of a variable in a message. -/
def varBytes (v : VarDef) : List UInt8 := v.varSize :: addrBytes v.varAddr

theorem length_varBytes (vars : List VarDef) : (vars.flatMap varBytes).length = 5 * vars.length := by
  induction vars with
  | nil => rfl
  | cons v vars ih =>
    rw [List.flatMap_cons, List.length_append, ih, List.length_cons]
    show 5 + 5 * vars.length = 5 * (vars.length + 1)
    omega

/-- `PCMDRV_CMD_SETUPSCOPEEX`. -/
def scopeRequest (vars : List VarDef) (h : vars.length ≤ 8) : Request :=
  .standard 0x0A (UInt8.ofNat vars.length :: vars.flatMap varBytes) (by decide) (by decide)
    (by rw [List.length_cons, length_varBytes]; omega)

/-- `PCMDRV_CMD_READSCOPE`. -/
def readScopeRequest : Request := .special 0xC5 [] (by decide) (by decide)

namespace Board

/-- The buffer with a request in it. -/
def load (s : Board) (r : Request) : Board :=
  s.buffered (writeBytes s.dataBuff 0 r.bytes) (if 0xC0 ≤ r.cmd then s.status.stdCmd else false)

/-- What a request leads to that has been received. -/
def accept (s : Board) (good : Prop) [Decidable good] : Option Board :=
  if good then s.messageDecode else some (s.respPrepare stcCmdSErr 1)

/-- The data of the response, the status first. -/
def answer (s : Board) : List UInt8 :=
  readBytes (writeBytes s.dataBuff 0 [s.response.1]) 0 s.response.2.toNat

end Board

/-! ## Reception -/

namespace Pcm

/-- A message does not depend on how far the driver is with the one before. -/
theorem sendResponse_congr {s t : Pcm} (b : Board) (hstarted : t.started = s.started)
    (hchar : t.charRec = s.charRec) (hsent : t.sent = s.sent) :
    t.sendResponse b = s.sendResponse b := by
  unfold sendResponse
  rw [hstarted, hchar, hsent]

theorem sendResponse_started {s t : Pcm} {b : Board} (h : s.sendResponse b = some t) :
    t.started = s.started := by
  unfold sendResponse at h
  dsimp only at h
  split at h
  · cases h
    rfl
  · cases h

/-- The last byte of a message. -/
theorem takeByte_last {s : Pcm} (h : s.started = true) (hpos : s.pos = s.length.toUInt16)
    (cs : UInt8) :
    s.takeByte cs =
      (s.board.accept ((s.checkSum + cs.toUInt16) &&& 0x00FF = 0)).bind s.idle.sendResponse := by
  unfold takeByte
  rw [messageData_last cs h hpos]
  exact congrArg _ (funext fun b => sendResponse_congr b rfl rfl rfl)

/-- The rest of a message whose length is known. -/
theorem run_rest {s : Pcm} (h : s.started = true) {l : List UInt8}
    (hstd : l ≠ [] → s.board.status.stdCmd = false)
    (hend : s.pos.toNat + l.length = s.length.toNat) (hroom : s.length.toNat ≤ dataBuffLen) (cs : UInt8) :
    runSteps takeByte s (l ++ [cs]) =
      ((s.storeAll l).board.accept (addBytes s.checkSum (l ++ [cs]) &&& 0x00FF = 0)).bind
        s.idle.sendResponse := by
  have hlen := s.length.toNat_lt
  have hfits : s.pos.toNat + l.length ≤ dataBuffLen := Nat.le_trans (Nat.le_of_eq hend) hroom
  have hpos : (s.storeAll l).pos = (s.storeAll l).length.toUInt16 := by
    refine UInt16.toNat_inj.mp ?_
    show (s.pos + UInt16.ofNat l.length).toNat = s.length.toNat
    rw [UInt16.toNat_add, UInt16.toNat_ofNat']
    omega
  rw [runSteps_append, run_store h hstd (fun k hk => by omega) hfits, Option.bind_some,
    runSteps]
  show ((s.storeAll l).takeByte cs).bind some = _
  rw [Option.bind_fun_some, takeByte_last (s := s.storeAll l) h hpos, addBytes_append]
  exact congrArg _ (funext fun b => sendResponse_congr b rfl rfl rfl)

theorem special_le (cmd : UInt8) : ((cmd &&& 0x30) >>> 3).toNat ≤ 6 := by
  rw [UInt8.toNat_shiftRight, UInt8.toNat_and, Nat.shiftRight_eq_div_pow]
  exact Nat.div_le_div_right Nat.and_le_right

/-- The length of a special message does not overflow. -/
theorem special_length (cmd : UInt8) :
    (((cmd &&& 0x30) >>> 3) + 1).toNat = ((cmd &&& 0x30) >>> 3).toNat + 1 := by
  have hle := special_le cmd
  rw [UInt8.toNat_add]
  exact Nat.mod_eq_of_lt (by show _ + 1 < 256; omega)

/-- The length byte of a standard message, which is not checked but for the buffer: where two more
wrap it passes. -/
theorem run_length {s : Pcm} (h : s.started = true) (hpos : s.pos = 1) (hlength : s.length = 2)
    (hstd : s.board.status.stdCmd = true) {len : UInt8} (hfit : ¬ dataBuffSize < len + 2)
    (rest : List UInt8) :
    runSteps takeByte s (len :: rest) =
      runSteps takeByte ((s.store len).setLength len) rest := by
  have hne : s.pos ≠ s.length.toUInt16 := by
    rw [hpos, hlength]
    decide
  have hroom : s.pos.toNat < dataBuffLen := by
    rw [hpos]
    decide
  show (s.messageData len false).bind _ = _
  rw [messageData_length len h hne hroom hstd, if_neg hfit, Option.bind_some]

theorem start_sum (s : Pcm) (cmd : UInt8) (l : List UInt8) :
    addBytes (s.start cmd).checkSum l = addBytes 0 (cmd :: l) := by
  show addBytes cmd.toUInt16 l = addBytes (0 + cmd.toUInt16) l
  rw [UInt16.zero_add]

/-- A message is received as it was sent, whatever was on the line before; what comes of it is the
matter of `messageDecode`. -/
theorem putData_frameWith {s : Pcm} (h : s.charRec = false) (r : Request)
    (hclear : r.Clear s.board.status) (cs : UInt8) :
    s.putData (r.frameWith cs) =
      ((s.board.load r).accept (addBytes 0 (r.bytes ++ [cs]) &&& 0x00FF = 0)).bind
        s.idle.sendResponse := by
  unfold Request.frameWith
  rw [putData_start h r.cmd_ne, putData_stuff (s := s.start r.cmd) h]
  cases r with
  | special cmd data hcmd hdata =>
    have hlen : (s.start cmd).length.toNat = data.length + 1 := by
      show (if 0xC0 ≤ cmd then ((cmd &&& 0x30) >>> 3) + 1 else 2 : UInt8).toNat = _
      rw [if_pos hcmd, special_length, hdata]
    have hroom : ((cmd &&& 0x30) >>> 3).toNat + 1 ≤ 130 :=
      Nat.le_trans (Nat.succ_le_succ (special_le cmd)) (by decide)
    have hstd : data ≠ [] → (s.start cmd).board.status.stdCmd = false := fun hne =>
      (if_pos hcmd).trans (hclear hcmd hne)
    have hrun := run_rest (s := s.start cmd) rfl hstd
      (by rw [hlen]; exact Nat.add_comm 1 _) (by rw [hlen, hdata]; exact hroom) cs
    have hboard : ((s.start cmd).storeAll data).board =
        s.board.load (.special cmd data hcmd hdata) := by
      show s.board.buffered (writeBytes (writeBytes s.board.dataBuff 0 [cmd]) 1 data)
          (if 0xC0 ≤ cmd then s.board.status.stdCmd else true) =
        s.board.buffered (writeBytes s.board.dataBuff 0 (cmd :: data))
          (if 0xC0 ≤ cmd then s.board.status.stdCmd else false)
      rw [if_pos hcmd, if_pos hcmd]
      exact congrArg₂ _ (writeBytes_append _ 0 [cmd] data).symm rfl
    show runSteps takeByte (s.start cmd) (data ++ [cs]) = _
    rw [hrun, hboard, start_sum]
    exact congrArg _ (funext fun b => sendResponse_congr b rfl rfl rfl)
  | standard cmd data hcmd hflag hdata =>
    have hspecial : ¬ 0xC0 ≤ cmd := UInt8.not_le.mpr hcmd
    have hlen : (UInt8.ofNat data.length).toNat = data.length := by
      rw [UInt8.toNat_ofNat']
      omega
    have hlength : (UInt8.ofNat data.length + 2).toNat = data.length + 2 := by
      rw [UInt8.toNat_add, hlen]
      exact Nat.mod_eq_of_lt (by show _ + 2 < 256; omega)
    have hfit : ¬ dataBuffSize < UInt8.ofNat data.length + 2 := by
      rw [UInt8.not_lt, UInt8.le_iff_toNat_le, hlength]
      exact Nat.add_le_add_right hdata 2
    -- behind the length byte
    let t := ((s.start cmd).store (UInt8.ofNat data.length)).setLength (UInt8.ofNat data.length)
    have hrun := run_rest (s := t) rfl (fun _ => rfl)
      (Eq.trans (Nat.add_comm 2 data.length) hlength.symm)
      (Nat.le_trans (Nat.le_of_eq hlength) (show data.length + 2 ≤ 130 by omega)) cs
    have hboard : (t.storeAll data).board = s.board.load (.standard cmd data hcmd hflag hdata) := by
      show s.board.buffered (writeBytes (writeBytes (writeBytes s.board.dataBuff 0 [cmd]) 1
          [UInt8.ofNat data.length]) 2 data) false =
        s.board.buffered (writeBytes s.board.dataBuff 0 (cmd :: UInt8.ofNat data.length :: data))
          (if 0xC0 ≤ cmd then s.board.status.stdCmd else false)
      rw [if_neg hspecial]
      exact congrArg₂ _ ((writeBytes_append _ 1 [UInt8.ofNat data.length] data).symm.trans
        (writeBytes_append _ 0 [cmd] _).symm) rfl
    have hsum : addBytes t.checkSum (data ++ [cs]) =
        addBytes 0 (cmd :: UInt8.ofNat data.length :: data ++ [cs]) :=
      start_sum s cmd (UInt8.ofNat data.length :: data ++ [cs])
    show runSteps takeByte (s.start cmd) (UInt8.ofNat data.length :: (data ++ [cs])) = _
    rw [run_length rfl rfl (if_neg hspecial) (if_neg hspecial) hfit, hrun, hboard, hsum]
    exact congrArg _ (funext fun b => sendResponse_congr b rfl rfl rfl)

/-- A message with another checksum is answered, but has no effect. -/
theorem accept_frameWith (s : Pcm) (r : Request) (cs : UInt8) :
    (s.board.load r).accept (addBytes 0 (r.bytes ++ [cs]) &&& 0x00FF = 0) =
      (s.board.load r).accept (cs = checkByte r.bytes) := by
  unfold Board.accept
  by_cases h : cs = checkByte r.bytes
  · rw [if_pos h, if_pos ((sum_eq_zero_iff _ cs).mpr h)]
  · rw [if_neg h, if_neg fun hsum => h ((sum_eq_zero_iff _ cs).mp hsum)]

/-! ## Responses -/

/-- The message that carries an answer. -/
def answerFrame (answer : List UInt8) : List UInt8 :=
  START :: stuff START (answer ++ [checkByte answer])

/-- The PC takes an answer out of its message. -/
def readAnswer : List UInt8 → Option (List UInt8)
  | [] => none
  | c :: l =>
    let l := unstuff START l
    if c = START ∧ addBytes 0 l &&& 0x00FF = 0 then some l.dropLast else none

theorem readAnswer_answerFrame (answer : List UInt8) :
    readAnswer (answerFrame answer) = some answer := by
  unfold readAnswer answerFrame
  dsimp only
  rw [unstuff_stuff, if_pos ⟨rfl, checkByte_sum answer⟩, List.dropLast_concat]

theorem sendLoop_eq (dataBuff : Mem) (length pos : Nat) (c : UInt16) :
    sendLoop dataBuff length pos c =
      (stuff START (readBytes dataBuff pos length), addBytes c (readBytes dataBuff pos length)) := by
  induction length generalizing pos c with
  | zero => rfl
  | succ length ih =>
    rw [sendLoop, ih, readBytes_succ]
    by_cases h : dataBuff pos = START
    · rw [if_pos h, h, stuff_flag]
      rfl
    · rw [if_neg h, stuff_other h]
      rfl

/-- The checksum that is sent. -/
theorem sent_sum (c : UInt16) :
    ((0 - c) &&& 0x00FF).toUInt8 = 0 - c.toUInt8 ∧ ((0 - c) &&& 0x00FF).toNat < 256 := by
  have hmask : ∀ n : Nat, n &&& 255 = n % 256 := fun n => Nat.and_two_pow_sub_one_eq_mod n 8
  have hc := c.toNat_lt
  constructor
  · refine UInt8.toNat_inj.mp ?_
    simp [hmask]
  · rw [UInt16.toNat_and]
    exact Nat.lt_of_le_of_lt Nat.and_le_right (by decide)

theorem outBuffer_eq (b : Board) : (outBuffer b).1 = answerFrame b.answer := by
  obtain ⟨hsum, hlt⟩ := sent_sum (addBytes 0 b.answer)
  change ((0 - addBytes 0 b.answer) &&& 0x00FF).toUInt8 = checkByte b.answer at hsum
  have hlast : ∀ c : UInt16, c.toNat < 256 →
      (if c = 0x002B then [c.toUInt8, START] else [c.toUInt8]) = stuff START [c.toUInt8] := by
    intro c hc
    by_cases h : c = 0x002B
    · rw [if_pos h, h]
      rfl
    · have hne : c.toUInt8 ≠ START := by
        intro he
        have hnat := congrArg UInt8.toNat he
        rw [UInt16.toNat_toUInt8, Nat.mod_eq_of_lt hc] at hnat
        exact h (UInt16.toNat_inj.mp hnat)
      rw [if_neg h, stuff_other hne]
      rfl
  unfold outBuffer
  dsimp only
  rw [sendLoop_eq]
  show START :: stuff START b.answer ++ _ = answerFrame b.answer
  unfold answerFrame
  rw [stuff_append, ← hsum]
  exact congrArg _ (hlast _ hlt)

end Pcm

end SC04Monitor.PcMaster
