import SC04Monitor.PcMaster.Safety

/-! # Conversations

The PC sends request after request. On the line that is a string of bytes, with flags doubled and
checksums added; here it is `serve`, a function of the request. What is written into memory is read
back by a later request, and a scope shows the variables that it was set up with. -/

namespace SC04Monitor.PcMaster
open SC04Monitor.Lib.ByteMem SC04Monitor.Lib.WordMem SC04Monitor.Lib.Steps
open Pcm (answerFrame readAnswer)

/-- The set-up of a recorder tells with a flag whether the trigger variable is signed. Other values
reach bits of `status` that are none of its business. -/
def Request.Flagged (r : Request) : Prop := r.cmd = 0x0B → ∃ b, r.bytes[14]? = some b ∧ b ≤ 1

namespace Board

/-- A request is received, executed and answered. -/
def serve (s : Board) (r : Request) : Option (Board × List UInt8) :=
  (s.load r).messageDecode.bind fun t =>
    if (answerFrame t.answer).length ≤ outBufSize then
      some ({ t with dataBuff := writeBytes t.dataBuff 0 [t.response.1] }, t.answer)
    else none

/-- Requests one after the other, with their answers. -/
def serveAll : Board → List Request → Option (Board × List (List UInt8))
  | s, [] => some (s, [])
  | s, r :: rs => (s.serve r).bind fun p => (serveAll p.1 rs).map fun q => (q.1, p.2 :: q.2)

theorem serve_eq_some {s t : Board} {r : Request} {answer : List UInt8} :
    s.serve r = some (t, answer) ↔
      ∃ u, (s.load r).messageDecode = some u ∧ u.Fits ∧ answer = u.answer ∧
        t = { u with dataBuff := writeBytes u.dataBuff 0 [u.response.1] } := by
  unfold serve
  constructor
  · intro h
    obtain ⟨u, hu, hrest⟩ := Option.bind_eq_some_iff.mp h
    by_cases hfits : (answerFrame u.answer).length ≤ outBufSize
    · rw [if_pos hfits] at hrest
      cases hrest
      exact ⟨u, hu, hfits, rfl, rfl⟩
    · rw [if_neg hfits] at hrest
      cases hrest
  · rintro ⟨u, hu, hfits, rfl, rfl⟩
    rw [hu, Option.bind_some]
    exact if_pos hfits

theorem setType_stdCmd {status : Status} (h : status.stdCmd = false) {size signed : UInt8}
    (hsize : size = 1 ∨ size = 2 ∨ size = 4) (hsigned : signed ≤ 1) :
    (status.setType size signed).stdCmd = false := by
  have hle : signed.toNat ≤ 1 := UInt8.le_iff_toNat_le.mp hsigned
  have hsize' : size.toNat ≤ 4 := by
    rcases hsize with rfl | rfl | rfl <;> decide
  show (status.stdCmd || (size.toNat * 2 + signed.toNat).testBit 6) = false
  rw [h, Bool.false_or]
  exact Nat.testBit_lt_two_pow (show size.toNat * 2 + signed.toNat < 64 by omega)

/-- No command makes the receiver wait for a length byte. -/
theorem Effect.stdCmd {s t : Board} (h : Effect s t) (hstd : s.status.stdCmd = false)
    (hflag : s.dataBuff 0 = 0x0B → s.dataBuff 14 ≤ 1) : t.status.stdCmd = false := by
  cases h with
  | setupRec hcmd haccepts => exact setType_stdCmd hstd haccepts.trgVarSize (hflag hcmd)
  | refuseRec hcmd hrefused =>
    rcases hrefused.stdCmd with he | ⟨size, hsize, he⟩
    · exact he.trans hstd
    · exact he.trans (setType_stdCmd hstd hsize (hflag hcmd))
  | _ => exact hstd

section
variable {s t : Board} {r : Request}

theorem load_stdCmd (h : s.status.stdCmd = false) : (s.load r).status.stdCmd = false := by
  show (if 0xC0 ≤ r.cmd then s.status.stdCmd else false) = false
  rw [h, ite_self]

/-- A byte of a request in the buffer. -/
theorem load_byte {i : Nat} {b : UInt8} (h : r.bytes[i]? = some b) : (s.load r).dataBuff i = b := by
  obtain ⟨hi, hb⟩ := List.getElem?_eq_some_iff.mp h
  show writeBytes s.dataBuff 0 r.bytes i = b
  rw [writeBytes_inside (Nat.zero_le i) (by rwa [Nat.sub_zero])]
  exact hb

theorem serve_inv (hs : s.Inv) {answer : List UInt8} (h : s.serve r = some (t, answer)) : t.Inv := by
  obtain ⟨u, hu, -, -, rfl⟩ := serve_eq_some.mp h
  have hload : (s.load r).Inv := hs.congr rfl rfl rfl
  exact ((messageDecode_effect hu).inv hload).congr rfl rfl rfl

/-- A request does not change what is described. -/
theorem serve_described (hs : s.Inv) {answer : List UInt8} (h : s.serve r = some (t, answer))
    {a n : Nat} : t.Described a n ↔ s.Described a n := by
  obtain ⟨u, hu, -, -, rfl⟩ := serve_eq_some.mp h
  have hload : (s.load r).Inv := hs.congr rfl rfl rfl
  exact ((messageDecode_effect hu).within hload).described

/-- After a request the next one is received as well. -/
theorem serve_stdCmd (hstd : s.status.stdCmd = false) (hflag : r.Flagged) {answer : List UInt8}
    (h : s.serve r = some (t, answer)) : t.status.stdCmd = false := by
  obtain ⟨u, hu, -, -, rfl⟩ := serve_eq_some.mp h
  refine (messageDecode_effect hu).stdCmd (load_stdCmd hstd) fun hcmd => ?_
  obtain ⟨b, hb, hle⟩ := hflag hcmd
  rwa [load_byte hb]

end

end Board

namespace Pcm

/-- The receiver between two messages. -/
structure AtRest (s : Pcm) : Prop where
  started : s.started = false
  charRec : s.charRec = false

theorem AtRest.inv {s : Pcm} (h : s.AtRest) (hboard : s.board.Inv) : s.Inv := by
  have hstop : ∀ {P : Prop}, s.started = true → P := fun he =>
    absurd (h.started.symm.trans he) Bool.false_ne_true
  exact ⟨hboard, hstop, hstop, hstop⟩

/-- One request on the line. -/
theorem putData_frame {s : Pcm} (h : s.charRec = false) (r : Request)
    (hclear : r.Clear s.board.status) :
    (s.putData r.frame).map (fun t => (t.board, t.sent)) =
      (s.board.serve r).map fun p => (p.1, s.sent ++ [answerFrame p.2]) := by
  unfold Request.frame
  rw [putData_frameWith h r hclear, accept_frameWith]
  unfold Board.accept Board.serve
  rw [if_pos rfl]
  cases (s.board.load r).messageDecode with
  | none => rfl
  | some t =>
    rw [Option.bind_some, Option.bind_some]
    unfold sendResponse
    dsimp only
    rw [outBuffer_eq]
    split <;> rfl

/-- After a request the receiver is at rest. -/
theorem frame_atRest {s t : Pcm} (h : s.charRec = false) {r : Request}
    (hclear : r.Clear s.board.status) (ht : s.putData r.frame = some t) : t.AtRest := by
  have hframe := putData_frameWith h r hclear (checkByte r.bytes)
  obtain ⟨b, -, hb⟩ := Option.bind_eq_some_iff.mp (hframe.symm.trans ht)
  exact ⟨sendResponse_started hb, sendResponse_charRec hb⟩

/-- A request that is served is answered on the line. -/
theorem request_served {s : Pcm} (h : s.charRec = false) {r : Request}
    (hclear : r.Clear s.board.status) {b : Board} {answer : List UInt8}
    (hserve : s.board.serve r = some (b, answer)) :
    ∃ t, s.putData r.frame = some t ∧ t.AtRest ∧ t.board = b ∧
      t.sent = s.sent ++ [answerFrame answer] := by
  have hframe := putData_frame h r hclear
  rw [hserve] at hframe
  obtain ⟨t, ht, he⟩ := Option.map_eq_some_iff.mp hframe
  obtain ⟨hboard, hsent⟩ := Prod.mk.inj he
  exact ⟨t, ht, frame_atRest h hclear ht, hboard, hsent⟩

/-- For requests one after the other the driver on the line is `serveAll`. -/
theorem putData_frames {s : Pcm} (h : s.charRec = false) (hstd : s.board.status.stdCmd = false)
    {rs : List Request} (hrs : ∀ r ∈ rs, r.Flagged) :
    (s.putData (rs.flatMap Request.frame)).map (fun t => (t.board, t.sent)) =
      (s.board.serveAll rs).map fun p => (p.1, s.sent ++ p.2.map answerFrame) := by
  induction rs generalizing s with
  | nil =>
    show some (s.board, s.sent) = some (s.board, s.sent ++ [])
    rw [List.append_nil]
  | cons r rs ih =>
    have hone := putData_frame h r fun _ _ => hstd
    rw [List.flatMap_cons]
    unfold putData at hone ⊢
    rw [runSteps_append, Board.serveAll]
    cases hput : runSteps putChar s r.frame with
    | none =>
      rw [hput] at hone
      rw [Option.map_eq_none_iff.mp hone.symm]
      rfl
    | some t =>
      rw [hput] at hone
      obtain ⟨p, hp, he⟩ := Option.map_eq_some_iff.mp hone.symm
      obtain ⟨hboard, hsent⟩ := Prod.mk.inj he
      have hrest := frame_atRest h (fun _ _ => hstd) hput
      have hstd' : t.board.status.stdCmd = false := by
        rw [← hboard]
        exact Board.serve_stdCmd hstd (hrs r List.mem_cons_self) hp
      have hnext := ih hrest.charRec hstd' fun r' hr' => hrs r' (List.mem_cons_of_mem r hr')
      unfold putData at hnext
      rw [hp, Option.bind_some, Option.bind_some, hnext, Option.map_map, ← hboard, ← hsent]
      refine congrArg (fun f => Option.map f _) (funext fun q => ?_)
      show (q.1, s.sent ++ [answerFrame p.2] ++ q.2.map answerFrame) =
        (q.1, s.sent ++ (answerFrame p.2 :: q.2.map answerFrame))
      rw [List.append_assoc]
      rfl

/-- What is sent on the line for requests one after the other is read by the PC as the answers that
`serveAll` gives. -/
theorem conversation {s : Pcm} (h : s.charRec = false) (hstd : s.board.status.stdCmd = false)
    {rs : List Request} (hrs : ∀ r ∈ rs, r.Flagged) :
    (s.board.serveAll rs = none → s.putData (rs.flatMap Request.frame) = none) ∧
      ∀ b answers, s.board.serveAll rs = some (b, answers) →
        ∃ t sent, s.putData (rs.flatMap Request.frame) = some t ∧ t.board = b ∧
          t.sent = s.sent ++ sent ∧ sent.map readAnswer = answers.map some := by
  have hframes := putData_frames h hstd hrs
  constructor
  · intro hnone
    rw [hnone] at hframes
    exact Option.map_eq_none_iff.mp hframes
  · intro b answers hserve
    rw [hserve] at hframes
    obtain ⟨t, ht, he⟩ := Option.map_eq_some_iff.mp hframes
    obtain ⟨hboard, hsent⟩ := Prod.mk.inj he
    refine ⟨t, _, ht, hboard, hsent, ?_⟩
    rw [List.map_map]
    exact List.map_congr_left fun answer _ => readAnswer_answerFrame answer

/-- The status of the application command, and then the byte at 0, which has to be sent twice. -/
def statusAndByte : List Request :=
  [.special 0xC6 [] (by decide) (by decide), readRequest 0 1]

theorem conversation_statusAndByte :
    ∃ t sent, (smallBoard fun _ => START).putData (statusAndByte.flatMap Request.frame) = some t ∧
      t.sent = sent ∧ sent.map readAnswer = [some [0, 0xFF], some [0, 0x2B]] := by
  have hflagged : ∀ r ∈ statusAndByte, r.Flagged := by
    intro r hr hcmd
    simp only [statusAndByte, List.mem_cons, List.not_mem_nil, or_false] at hr
    rcases hr with rfl | rfl
    · exact absurd hcmd (by decide)
    · exact absurd hcmd (by decide)
  have hanswers : ((smallBoard fun _ => START).board.serveAll statusAndByte).map Prod.snd =
      some [[0, 0xFF], [0, 0x2B]] := by decide
  obtain ⟨⟨b, answers⟩, hserve, he⟩ := Option.map_eq_some_iff.mp hanswers
  obtain ⟨t, sent, ht, -, hsent, hread⟩ :=
    (@conversation (smallBoard fun _ => START) rfl rfl statusAndByte hflagged).2 b answers hserve
  cases he
  exact ⟨t, sent, ht, hsent, hread⟩

end Pcm

end SC04Monitor.PcMaster
