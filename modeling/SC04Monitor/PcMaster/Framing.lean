import SC04Monitor.Lib.ByteStuffing
import SC04Monitor.PcMaster.Driver

/-! # Messages on the line

A message begins with a `'+'` and the command; every other `'+'` in it is sent twice. What comes
before a message does not matter, so long as it does not end within a pair. -/

namespace SC04Monitor.PcMaster
open SC04Monitor.Lib.ByteMem SC04Monitor.Lib.Steps SC04Monitor.Lib.ByteStuffing

/-- The board with another buffer. -/
def Board.buffered (s : Board) (dataBuff : Mem) (stdCmd : Bool) : Board :=
  { s with dataBuff, status := { s.status with stdCmd } }

namespace Pcm

/-! ## The cases of `messageData` -/

section
variable {s : Pcm} (inChar : UInt8)

/-- A byte is put into the buffer. -/
def store (s : Pcm) (inChar : UInt8) : Pcm :=
  { s with
    board := { s.board with dataBuff := writeBytes s.board.dataBuff s.pos.toNat [inChar] }
    checkSum := s.checkSum + inChar.toUInt16, pos := s.pos + 1 }

/-- The message has been received, or given up. -/
def idle (s : Pcm) : Pcm := { s with started := false, charRec := false }

/-- The byte behind the command of a standard message is its length. -/
def setLength (s : Pcm) (inChar : UInt8) : Pcm :=
  { s with
    board := { s.board with status := { s.board.status with stdCmd := false } }
    length := inChar + 2 }

/-- What the last byte of a message leads to on the board. -/
def execute (s : Pcm) (inChar : UInt8) : Option Board :=
  if (s.checkSum + inChar.toUInt16) &&& 0x00FF = 0 then s.board.messageDecode
  else some (s.board.respPrepare stcCmdSErr 1)

theorem messageData_not_started (h : s.started = false) : s.messageData inChar false = some s := by
  unfold messageData
  rw [if_pos rfl, h]
  rfl

/-- A byte that would get behind the buffer. -/
theorem messageData_behind (h : s.started = true) (hpos : s.pos ≠ s.length.toUInt16)
    (hroom : dataBuffLen ≤ s.pos.toNat) : s.messageData inChar false = none := by
  unfold messageData
  rw [if_pos rfl, if_pos h, if_pos hpos, if_pos hroom]

theorem messageData_store (h : s.started = true) (hpos : s.pos ≠ s.length.toUInt16)
    (hroom : s.pos.toNat < dataBuffLen) (hstd : s.board.status.stdCmd = false) :
    s.messageData inChar false = some (s.store inChar) := by
  unfold messageData
  rw [if_pos rfl, if_pos h, if_pos hpos, if_neg (Nat.not_le.mpr hroom)]
  exact if_neg (by simp [hstd])

theorem messageData_length (h : s.started = true) (hpos : s.pos ≠ s.length.toUInt16)
    (hroom : s.pos.toNat < dataBuffLen) (hstd : s.board.status.stdCmd = true) :
    s.messageData inChar false =
      if dataBuffSize < inChar + 2 then
        ((s.store inChar).setLength inChar).idle.sendResponse
          (((s.store inChar).setLength inChar).board.respPrepare stcCmdBuffOvf 1)
      else some ((s.store inChar).setLength inChar) := by
  unfold messageData
  rw [if_pos rfl, if_pos h, if_pos hpos, if_neg (Nat.not_le.mpr hroom)]
  exact if_pos hstd

theorem messageData_last (h : s.started = true) (hpos : s.pos = s.length.toUInt16) :
    s.messageData inChar false =
      (s.execute inChar).bind { s.idle with checkSum := s.checkSum + inChar.toUInt16 }.sendResponse := by
  unfold messageData
  rw [if_pos rfl, if_pos h]
  exact if_neg (not_not_intro hpos)

end

/-! ## The flag for the last `'+'` -/

def withChar (s : Pcm) (charRec : Bool) : Pcm := { s with charRec }

theorem withChar_self {s : Pcm} {c : Bool} (h : s.charRec = c) : s.withChar c = s := by
  subst h
  rfl

theorem sendResponse_charRec {s t : Pcm} {b : Board} (h : s.sendResponse b = some t) :
    t.charRec = s.charRec := by
  unfold sendResponse at h
  dsimp only at h
  split at h
  · cases h
    rfl
  · cases h

/-- A byte of a message does not set the flag. -/
theorem messageData_charRec {s t : Pcm} (h : s.charRec = false) {inChar : UInt8}
    (ht : s.messageData inChar false = some t) : t.charRec = false := by
  cases hstarted : s.started with
  | false =>
    rw [messageData_not_started inChar hstarted] at ht
    cases ht
    exact h
  | true =>
    by_cases hpos : s.pos = s.length.toUInt16
    · rw [messageData_last inChar hstarted hpos] at ht
      obtain ⟨b, -, hb⟩ := Option.bind_eq_some_iff.mp ht
      exact sendResponse_charRec hb
    by_cases hroom : dataBuffLen ≤ s.pos.toNat
    · rw [messageData_behind inChar hstarted hpos hroom] at ht
      cases ht
    rw [Nat.not_le] at hroom
    cases hstd : s.board.status.stdCmd with
    | false =>
      rw [messageData_store inChar hstarted hpos hroom hstd] at ht
      cases ht
      exact h
    | true =>
      rw [messageData_length inChar hstarted hpos hroom hstd] at ht
      split at ht
      · exact sendResponse_charRec ht
      · cases ht
        exact h

/-- The flag is of no account to a byte of a message. -/
theorem messageData_withChar {s : Pcm} (h : s.charRec = false) (inChar : UInt8) :
    ((s.withChar true).messageData inChar false).map (fun s => s.withChar false) =
      s.messageData inChar false := by
  have hsend : ∀ (t : Pcm) (b : Board), t.charRec = false →
      (t.sendResponse b).map (fun s => s.withChar false) = t.sendResponse b := by
    intro t b ht
    cases hr : t.sendResponse b with
    | none => rfl
    | some t' => exact congrArg some (withChar_self ((sendResponse_charRec hr).trans ht))
  cases hstarted : s.started with
  | false =>
    rw [messageData_not_started inChar hstarted,
      messageData_not_started inChar (s := s.withChar true) hstarted]
    exact congrArg some (withChar_self h)
  | true =>
    by_cases hpos : s.pos = s.length.toUInt16
    · rw [messageData_last inChar hstarted hpos,
        messageData_last inChar (s := s.withChar true) hstarted hpos]
      show ((s.execute inChar).bind _).map _ = _
      cases s.execute inChar with
      | none => rfl
      | some b => exact hsend _ b rfl
    by_cases hroom : dataBuffLen ≤ s.pos.toNat
    · rw [messageData_behind inChar hstarted hpos hroom,
        messageData_behind inChar (s := s.withChar true) hstarted hpos hroom]
      rfl
    rw [Nat.not_le] at hroom
    cases hstd : s.board.status.stdCmd with
    | false =>
      rw [messageData_store inChar hstarted hpos hroom hstd,
        messageData_store inChar (s := s.withChar true) hstarted hpos hroom hstd]
      exact congrArg some (withChar_self (s := s.store inChar) h)
    | true =>
      rw [messageData_length inChar hstarted hpos hroom hstd,
        messageData_length inChar (s := s.withChar true) hstarted hpos hroom hstd]
      by_cases hfit : dataBuffSize < inChar + 2
      · rw [if_pos hfit, if_pos hfit]
        exact hsend _ _ rfl
      · rw [if_neg hfit, if_neg hfit]
        exact congrArg some (withChar_self (s := (s.store inChar).setLength inChar) h)

/-! ## A stuffed message -/

/-- A byte of a message. -/
def takeByte (s : Pcm) (inChar : UInt8) : Option Pcm := s.messageData inChar false

/-- `PutChar` takes a stuffed body as the bytes of the body. -/
theorem putData_stuff {s : Pcm} (h : s.charRec = false) (body : List UInt8) :
    s.putData (stuff START body) = runSteps takeByte s body := by
  refine runSteps_stuff (fun s : Pcm => s.charRec = false) (fun s a hs ha => ?_) (fun s hs => ?_)
    (fun s a t hs ht => messageData_charRec hs ht) h body
  · unfold putChar
    exact (if_pos hs).trans (if_neg ha)
  · have hfirst : s.putChar START = some (s.withChar true) := by
      unfold putChar
      rw [if_pos hs, if_pos rfl]
      rfl
    rw [hfirst, Option.bind_some]
    exact messageData_withChar hs START

/-! ## Checksums -/

/-- `checkSum` behind some bytes. -/
def addBytes (checkSum : UInt16) (l : List UInt8) : UInt16 := l.foldl (fun c b => c + b.toUInt16) checkSum

/-- The byte that makes the sum a multiple of 256. -/
def checkByte (l : List UInt8) : UInt8 := 0 - (addBytes 0 l).toUInt8

theorem addBytes_append (c : UInt16) (l l' : List UInt8) :
    addBytes c (l ++ l') = addBytes (addBytes c l) l' := List.foldl_append

theorem toUInt8_add (a b : UInt16) : (a + b).toUInt8 = a.toUInt8 + b.toUInt8 := by
  refine UInt8.toNat_inj.mp ?_
  simp

/-- The low byte of a sum is the sum modulo 256. -/
theorem low_byte (c : UInt16) : c &&& 0x00FF = 0 ↔ c.toUInt8 = 0 := by
  rw [← UInt16.toNat_inj, ← UInt8.toNat_inj, UInt16.toNat_and, UInt16.toNat_toUInt8]
  exact iff_of_eq (congrArg (· = 0) (Nat.and_two_pow_sub_one_eq_mod c.toNat 8))

theorem checkByte_sum (l : List UInt8) : addBytes 0 (l ++ [checkByte l]) &&& 0x00FF = 0 := by
  rw [low_byte, addBytes_append]
  show (addBytes 0 l + (checkByte l).toUInt16).toUInt8 = 0
  rw [toUInt8_add, UInt8.toUInt8_toUInt16]
  unfold checkByte
  rw [UInt8.add_comm]
  exact UInt8.sub_add_cancel 0 _

/-- Only the check byte makes the sum right. -/
theorem sum_eq_zero_iff (l : List UInt8) (cs : UInt8) :
    addBytes 0 (l ++ [cs]) &&& 0x00FF = 0 ↔ cs = checkByte l := by
  constructor
  · intro h
    rw [low_byte, addBytes_append] at h
    have hsum : (addBytes 0 l).toUInt8 + cs = 0 := by
      rw [← h]
      show _ = (addBytes 0 l + cs.toUInt16).toUInt8
      rw [toUInt8_add, UInt8.toUInt8_toUInt16]
    have hsub : cs = (addBytes 0 l).toUInt8 + cs - (addBytes 0 l).toUInt8 := by
      rw [UInt8.add_comm, UInt8.add_sub_cancel]
    rw [hsub, hsum]
    rfl
  · rintro rfl
    exact checkByte_sum l

/-! ## The parts of a message -/

/-- Behind the command of a message. -/
def start (s : Pcm) (cmd : UInt8) : Pcm :=
  { s with
    board := s.board.buffered (writeBytes s.board.dataBuff 0 [cmd])
      (if 0xC0 ≤ cmd then s.board.status.stdCmd else true)
    started := true, checkSum := cmd.toUInt16, pos := 1
    length := if 0xC0 ≤ cmd then ((cmd &&& 0x30) >>> 3) + 1 else 2 }

theorem messageData_start (s : Pcm) (cmd : UInt8) : s.messageData cmd true = some (s.start cmd) := by
  unfold messageData start
  rw [if_neg (by simp)]
  by_cases h : 0xC0 ≤ cmd
  · rw [if_pos h, if_pos h, if_pos h]
    rfl
  · rw [if_neg h, if_neg h, if_neg h]
    rfl

/-- A flag and another byte begin a message, whatever has been received of one before. -/
theorem putData_start {s : Pcm} (h : s.charRec = false) {cmd : UInt8} (hcmd : cmd ≠ START)
    (rest : List UInt8) : s.putData (START :: cmd :: rest) = (s.start cmd).putData rest := by
  have hflag : s.putChar START = some (s.withChar true) := by
    unfold putChar
    rw [if_pos h, if_pos rfl]
    rfl
  have hcmd' : (s.withChar true).putChar cmd = some (s.start cmd) := by
    unfold putChar
    rw [if_neg (by simp [withChar]), decide_eq_true hcmd, messageData_start]
    exact congrArg some (withChar_self (s := s.start cmd) h)
  show (s.putChar START).bind _ = _
  rw [hflag, Option.bind_some]
  show ((s.withChar true).putChar cmd).bind _ = _
  rw [hcmd', Option.bind_some]
  rfl

/-- Some more bytes are put into the buffer. -/
def storeAll (s : Pcm) (l : List UInt8) : Pcm :=
  { s with
    board := { s.board with dataBuff := writeBytes s.board.dataBuff s.pos.toNat l }
    checkSum := addBytes s.checkSum l, pos := s.pos + UInt16.ofNat l.length }

/-- Bytes are put into the buffer until the end of the message is met. -/
theorem run_store {s : Pcm} (h : s.started = true) {l : List UInt8}
    (hstd : l ≠ [] → s.board.status.stdCmd = false)
    (hend : ∀ k < l.length, s.pos.toNat + k ≠ s.length.toNat)
    (hroom : s.pos.toNat + l.length ≤ dataBuffLen) : runSteps takeByte s l = some (s.storeAll l) := by
  induction l generalizing s with
  | nil =>
    have hpos : s.pos + UInt16.ofNat 0 = s.pos := UInt16.add_zero _
    have hmem : writeBytes s.board.dataBuff s.pos.toNat [] = s.board.dataBuff :=
      writeBytes_of_readBytes rfl
    show some s = some (s.storeAll [])
    unfold storeAll
    rw [List.length_nil, hpos, hmem]
    rfl
  | cons a l ih =>
    rw [List.length_cons] at hroom
    have hlen : s.pos.toNat + (l.length + 1) ≤ 130 := hroom
    have hstd' := hstd (List.cons_ne_nil a l)
    have hne : s.pos ≠ s.length.toUInt16 := by
      intro he
      exact hend 0 (Nat.succ_pos _) (by rw [he, UInt8.toNat_toUInt16, Nat.add_zero])
    have hpos : (s.store a).pos.toNat = s.pos.toNat + 1 := by
      show (s.pos + 1).toNat = _
      rw [UInt16.toNat_add]
      exact Nat.mod_eq_of_lt (show s.pos.toNat + 1 < 65536 by omega)
    have hend' : ∀ k < l.length, (s.store a).pos.toNat + k ≠ (s.store a).length.toNat := by
      intro k hk
      rw [hpos, Nat.add_assoc, Nat.add_comm 1 k]
      exact hend (k + 1) (Nat.succ_lt_succ hk)
    rw [runSteps]
    show (s.messageData a false).bind _ = _
    rw [messageData_store a h hne (by omega) hstd', Option.bind_some,
      ih (s := s.store a) h (fun _ => hstd') hend' (by omega)]
    have hmem : writeBytes (writeBytes s.board.dataBuff s.pos.toNat [a]) (s.pos.toNat + 1) l =
        writeBytes s.board.dataBuff s.pos.toNat (a :: l) :=
      (writeBytes_append s.board.dataBuff s.pos.toNat [a] l).symm
    have hlast : s.pos + 1 + UInt16.ofNat l.length = s.pos + UInt16.ofNat (l.length + 1) := by
      rw [UInt16.ofNat_add, UInt16.add_assoc, UInt16.add_comm 1]
      rfl
    unfold storeAll
    rw [hpos, List.length_cons, ← hmem, ← hlast]
    rfl

end Pcm

end SC04Monitor.PcMaster
