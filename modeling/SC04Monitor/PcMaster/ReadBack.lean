import SC04Monitor.PcMaster.Conversation

/-! # Memory and scope on the line

Memory that the PC has written is read back as it was written, whatever happens in between so long
as it does not touch that memory. A scope shows the variables that it was set up with. -/

namespace SC04Monitor.PcMaster
open SC04Monitor.Lib.ByteMem SC04Monitor.Lib.WordMem SC04Monitor.Lib.Steps
open Pcm (answerFrame readAnswer)

/-! ## Pointers -/

/-- A pointer of four bytes is read as it was written. -/
theorem addrAt_of_bytes {m : Mem} {p a : Nat} (ha : a < 0x100000000)
    (h : readBytes m p 4 = addrBytes a) : addrAt m p = a := by
  have hbytes : [m p, m (p + 1), m (p + 2), m (p + 3)] =
      [(a >>> 0).toUInt8, (a >>> 8).toUInt8, (a >>> 16).toUInt8, (a >>> 24).toUInt8] := h
  simp only [List.cons.injEq, and_true] at hbytes
  obtain ⟨h0, h1, h2, h3⟩ := hbytes
  unfold addrAt
  rw [h0, h1, h2, h3]
  simp only [Nat.toUInt8, UInt8.toNat_ofNat', Nat.shiftRight_eq_div_pow, Nat.reducePow]
  omega

/-! ## Memory -/

namespace Board

/-- The part of a request in the buffer. -/
theorem load_bytes (s : Board) {r : Request} (pre part post : List UInt8)
    (h : r.bytes = pre ++ part ++ post) :
    readBytes (s.load r).dataBuff pre.length part.length = part := by
  show readBytes (writeBytes s.dataBuff 0 r.bytes) pre.length part.length = part
  rw [h, List.append_assoc, writeBytes_append, writeBytes_append, Nat.zero_add]
  rw [readBytes_writeBytes_frame (.inr (.inr (.inr (Nat.le_refl _))))]
  exact readBytes_writeBytes _ _ _

/-- A command with one access. -/
theorem covered_one {s : Board} {a n : Nat} (hused : s.bufferUsed ≤ dataBuffLen)
    (hacc : s.accesses = [(a, n)]) (h : s.Described a n) : s.Covered := by
  refine ⟨hused, fun r hr => ?_⟩
  rw [hacc, List.mem_singleton] at hr
  rwa [hr]

/-- The case of a command. -/
theorem messageDecode_case {s : Board} (hcovered : s.Covered) {cmd : UInt8} {f : Board → Option Board}
    (h : s.dataBuff 0 = cmd) (hf : (commands.find? fun c => c.1 = cmd) = some (cmd, f)) :
    s.messageDecode = f s := by
  unfold messageDecode accessing
  rw [if_pos hcovered.bufferUsed, if_pos hcovered.accesses]
  unfold decode
  rw [h, hf]

/-- A length of a message with data is one that `memCopy` takes. -/
theorem int8Size_ofNat {n : Nat} (h : n ≤ 128) : int8Size (UInt8.ofNat n) = n := by
  have hnat : (UInt8.ofNat n).toNat = n := by
    rw [UInt8.toNat_ofNat']
    exact Nat.mod_eq_of_lt (by show n < 256; omega)
  unfold int8Size
  rw [if_pos (UInt8.le_iff_toNat_le.mpr (by rw [hnat]; exact h)), hnat]

section
variable {a : Nat} {data : List UInt8} (hd : data.length ≤ 121)

theorem serve_write (s : Board) (ha : a < 0x100000000) (hdesc : s.Described a data.length) :
    ∃ t, s.serve (writeRequest a data hd) = some (t, [stcOk]) ∧ t.mem = writeBytes s.mem a data := by
  have hlen : (s.load (writeRequest a data hd)).dataBuff 2 = UInt8.ofNat data.length := rfl
  have haddr : addrAt (s.load (writeRequest a data hd)).dataBuff 3 = a :=
    addrAt_of_bytes ha (load_bytes s [0x05, _, _] (addrBytes a) data rfl)
  have hdata : readBytes (s.load (writeRequest a data hd)).dataBuff 7 data.length = data := by
    have hpart := load_bytes s ([0x05, _, _] ++ addrBytes a) data [] (r := writeRequest a data hd)
      (List.append_nil _).symm
    exact hpart
  have hsize : int8Size ((s.load (writeRequest a data hd)).dataBuff 2) = data.length := by
    rw [hlen, int8Size_ofNat (by omega)]
  have hcovered : (s.load (writeRequest a data hd)).Covered := by
    refine covered_one (a := a) (n := data.length) ?_ ?_ hdesc
    · show 7 + int8Size _ ≤ 130
      rw [hsize]
      omega
    · show [(addrAt _ 3, int8Size _)] = _
      rw [haddr, hsize]
  have hwrite : (s.load (writeRequest a data hd)).messageDecode =
      some (s.load (writeRequest a data hd)).writeMemEx :=
    messageDecode_case (f := fun s => some s.writeMemEx) hcovered rfl rfl
  refine ⟨_, serve_eq_some.mpr ⟨_, hwrite, ?_, ?_, rfl⟩, ?_⟩
  · exact fits_of_le (show stcOk ≠ START by decide) (show (1 : UInt8) ≠ 0 by decide)
      (show (1 : UInt8) ≤ 31 by decide)
  · exact (answer_status _ stcOk).symm
  · show writeBytes s.mem (addrAt _ 3) (readBytes _ 7 (int8Size _)) = _
    rw [haddr, hsize, hdata]

end

theorem serve_read (s : Board) {a n : Nat} (ha : a < 0x100000000) (hn : n ≤ 128) (hdesc : s.Described a n)
    (hfits : (answerFrame (stcOk :: readBytes s.mem a n)).length ≤ outBufSize) :
    ∃ t, s.serve (readRequest a n) = some (t, stcOk :: readBytes s.mem a n) := by
  have hnat : (UInt8.ofNat n).toNat = n := by
    rw [UInt8.toNat_ofNat']
    exact Nat.mod_eq_of_lt (by show n < 256; omega)
  have hlen : (s.load (readRequest a n)).dataBuff 2 = UInt8.ofNat n := rfl
  have haddr : addrAt (s.load (readRequest a n)).dataBuff 3 = a :=
    addrAt_of_bytes ha (load_bytes s [0x04, _, _] (addrBytes a) [] rfl)
  have hle : (s.load (readRequest a n)).dataBuff 2 ≤ dataBuffSize := by
    rw [hlen, UInt8.le_iff_toNat_le, hnat]
    exact hn
  have hcovered : (s.load (readRequest a n)).Covered := by
    refine covered_one (a := a) (n := n) (Nat.zero_le _) ?_ hdesc
    show (if _ ≤ dataBuffSize then [(addrAt _ 3, int8Size _)] else []) = _
    rw [if_pos hle, haddr, hlen, int8Size_ofNat hn]
  have hdecode : (s.load (readRequest a n)).messageDecode =
      some (s.load (readRequest a n)).readMemEx :=
    messageDecode_case (f := fun s => some s.readMemEx) hcovered rfl rfl
  have hread : (s.load (readRequest a n)).readMemEx =
      ((s.load (readRequest a n)).returnData (readBytes s.mem a n)).respPrepare stcOk
        (UInt8.ofNat n + 1) := by
    unfold readMemEx
    dsimp only
    rw [if_pos hle, hlen, haddr, int8Size_ofNat hn]
    rfl
  have hanswer : (s.load (readRequest a n)).readMemEx.answer = stcOk :: readBytes s.mem a n := by
    rw [hread]
    refine answer_return _ _ ?_
    rw [UInt8.toNat_add, hnat, length_readBytes]
    exact Nat.mod_eq_of_lt (by show n + 1 < 256; omega)
  exact ⟨_, serve_eq_some.mpr ⟨_, hdecode, by rw [Fits, hanswer]; exact hfits, hanswer.symm, rfl⟩⟩

/-! ## The scope -/

/-- A scope with these variables. -/
structure Shows (scope : Scope) (vars : List VarDef) : Prop where
  varCnt : scope.varCnt.toNat = vars.length
  varDef : ∀ i (hi : i < vars.length), scope.varDef i = vars[i]
  varSize : ∀ v ∈ vars, v.varSize ∈ ([1, 2, 4] : List UInt8)

/-- The definition of a variable in the buffer. -/
theorem load_varDef (s : Board) {vars : List VarDef} (hlen : vars.length ≤ 8) {i : Nat}
    (hi : i < vars.length) (haddr : vars[i].varAddr < 0x100000000) :
    varDefAt (s.load (scopeRequest vars hlen)).dataBuff (3 + 5 * i) = vars[i] := by
  have hsplit : vars.flatMap varBytes =
      (vars.take i).flatMap varBytes ++ varBytes vars[i] ++ (vars.drop (i + 1)).flatMap varBytes := by
    rw [List.append_assoc, ← List.flatMap_cons, ← List.flatMap_append, List.getElem_cons_drop,
      List.take_append_drop]
  let front := [0x0A, UInt8.ofNat (UInt8.ofNat vars.length :: vars.flatMap varBytes).length,
    UInt8.ofNat vars.length]
  have hpre : (front ++ (vars.take i).flatMap varBytes).length = 3 + 5 * i := by
    rw [List.length_append, length_varBytes, List.length_take, Nat.min_eq_left (Nat.le_of_lt hi)]
    rfl
  have hbytes : (scopeRequest vars hlen).bytes = front ++ (vars.take i).flatMap varBytes ++
      varBytes vars[i] ++ (vars.drop (i + 1)).flatMap varBytes := by
    show front ++ vars.flatMap varBytes = _
    rw [hsplit, List.append_assoc, List.append_assoc, List.append_assoc]
  have hpart := load_bytes s _ _ _ hbytes
  rw [hpre] at hpart
  have hcons : _ :: readBytes (s.load (scopeRequest vars hlen)).dataBuff (3 + 5 * i + 1) 4 =
      vars[i].varSize :: addrBytes vars[i].varAddr := (readBytes_succ _ _ 4).symm.trans hpart
  obtain ⟨hsize, haddr'⟩ := List.cons.inj hcons
  unfold varDefAt
  rw [hsize, addrAt_of_bytes haddr haddr']

theorem serve_setupScope (s : Board) {vars : List VarDef} (hne : vars ≠ []) (hlen : vars.length ≤ 8)
    (hvars : ∀ v ∈ vars, v.varSize ∈ ([1, 2, 4] : List UInt8) ∧ v.varAddr < 0x100000000) :
    ∃ t, s.serve (scopeRequest vars hlen) = some (t, [stcOk]) ∧ Shows t.scope vars := by
  have hpos : 0 < vars.length := List.length_pos_iff.mpr hne
  have hcnt : (s.load (scopeRequest vars hlen)).dataBuff 2 = UInt8.ofNat vars.length := rfl
  have hnat : (UInt8.ofNat vars.length).toNat = vars.length := by
    rw [UInt8.toNat_ofNat']
    exact Nat.mod_eq_of_lt (by show _ < 256; omega)
  have hdef : ∀ i (hi : i < vars.length),
      varDefAt (s.load (scopeRequest vars hlen)).dataBuff (3 + 5 * i) = vars[i] := fun i hi =>
    load_varDef s hlen hi (hvars _ (List.getElem_mem hi)).2
  have hscope : ∃ varDef : Nat → VarDef, (∀ i (hi : i < vars.length), varDef i = vars[i]) ∧
      (s.load (scopeRequest vars hlen)).setupScopeEx =
        ({ s.load (scopeRequest vars hlen) with
          scope := ⟨UInt8.ofNat vars.length, varDef⟩ } : Board).respPrepare stcOk 1 := by
    refine ⟨fun i => if i < (UInt8.ofNat vars.length).toNat then
      varDefAt (s.load (scopeRequest vars hlen)).dataBuff (3 + 5 * i) else s.scope.varDef i,
      fun i hi => ?_, ?_⟩
    · dsimp only
      rw [hnat, if_pos hi]
      exact hdef i hi
    · unfold setupScopeEx
      dsimp only
      rw [hcnt, if_neg ?_, if_neg ?_]
      · rfl
      · rintro ⟨i, hi, hbad⟩
        rw [hnat] at hi
        rw [hnat, if_pos hi, hdef i hi] at hbad
        have hgood := (hvars _ (List.getElem_mem hi)).1
        simp only [List.mem_cons, List.not_mem_nil, or_false] at hgood
        rcases hgood with he | he | he <;> rw [he] at hbad <;> exact absurd hbad (by decide)
      · rw [← UInt8.toNat_inj, UInt8.lt_iff_toNat_lt, hnat]
        show ¬ (vars.length = 0 ∨ 8 < vars.length)
        omega
  obtain ⟨varDef, hvarDef, hset⟩ := hscope
  have hcovered : (s.load (scopeRequest vars hlen)).Covered :=
    ⟨Nat.zero_le _, fun r hr => absurd hr List.not_mem_nil⟩
  have hdecode : (s.load (scopeRequest vars hlen)).messageDecode =
      some (s.load (scopeRequest vars hlen)).setupScopeEx :=
    messageDecode_case (f := fun s => some s.setupScopeEx) hcovered rfl rfl
  rw [hset] at hdecode
  refine ⟨_, serve_eq_some.mpr ⟨_, hdecode, ?_, ?_, rfl⟩, hnat, hvarDef, fun v hv => (hvars v hv).1⟩
  · exact fits_of_le (show stcOk ≠ START by decide) (show (1 : UInt8) ≠ 0 by decide)
      (show (1 : UInt8) ≤ 31 by decide)
  · exact (answer_status _ stcOk).symm

/-- The values of the variables, one behind the other. -/
def valuesOf (mem : Mem) (vars : List VarDef) : List UInt8 :=
  vars.flatMap fun v => readBytes mem v.varAddr v.varSize.toNat

theorem values_shown {scope : Scope} {vars : List VarDef} (h : Shows scope vars) (mem : Mem) :
    values scope.varDef mem 0 scope.varCnt.toNat = valuesOf mem vars := by
  have hmap : (List.range' 0 vars.length).map scope.varDef = vars := by
    refine List.ext_getElem (by simp) fun i hi hi' => ?_
    rw [List.getElem_map, List.getElem_range', Nat.zero_add, Nat.one_mul]
    exact h.varDef i hi'
  unfold values valuesOf
  rw [h.varCnt]
  conv_rhs => rw [← hmap]
  rw [List.flatMap_map]

theorem readScope_shown {s : Board} {vars : List VarDef} (h : Shows s.scope vars) (hne : vars ≠ [])
    (hlen : vars.length ≤ 8) :
    s.readScope = (s.returnData (valuesOf s.mem vars)).respPrepare stcOk
        (UInt8.ofNat (valuesOf s.mem vars).length + 1) ∧
      (valuesOf s.mem vars).length ≤ 32 := by
  have hsizes : ∀ j, 0 ≤ j → j < 0 + s.scope.varCnt.toNat →
      (s.scope.varDef j).varSize ∈ ([1, 2, 4] : List UInt8) := by
    intro j _ hj
    rw [h.varCnt, Nat.zero_add] at hj
    rw [h.varDef j hj]
    exact h.varSize _ (List.getElem_mem hj)
  have hbound := length_values hsizes s.mem
  rw [values_shown h s.mem, h.varCnt] at hbound
  have hcnt : s.scope.varCnt ≠ 0 := by
    intro he
    have hnat := h.varCnt
    rw [he] at hnat
    exact hne (List.length_eq_zero_iff.mp hnat.symm)
  have hfit : (0 : UInt8).toNat + 4 * s.scope.varCnt.toNat < 256 := by
    rw [h.varCnt]
    show 0 + _ < 256
    omega
  refine ⟨?_, by omega⟩
  unfold readScope
  rw [if_neg hcnt, readScopeLoop_eq hsizes s.mem hfit, values_shown h s.mem, UInt8.zero_add]
  rfl

theorem serve_readScope (s : Board) {vars : List VarDef} (h : Shows s.scope vars) (hne : vars ≠ [])
    (hlen : vars.length ≤ 8) (hdesc : ∀ v ∈ vars, s.Described v.varAddr v.varSize.toNat)
    (hfits : (answerFrame (stcOk :: valuesOf s.mem vars)).length ≤ outBufSize) :
    ∃ t, s.serve readScopeRequest = some (t, stcOk :: valuesOf s.mem vars) := by
  obtain ⟨hread, hle⟩ := readScope_shown (s := s.load readScopeRequest) h hne hlen
  have hcovered : (s.load readScopeRequest).Covered := by
    refine ⟨Nat.zero_le _, fun r hr => ?_⟩
    obtain ⟨i, hi, rfl⟩ := List.mem_map.mp hr
    have hi' : i < vars.length := h.varCnt ▸ List.mem_range.mp hi
    have hmem := List.getElem_mem hi'
    have hsize : int8Size vars[i].varSize = vars[i].varSize.toNat := by
      have hgood := h.varSize _ hmem
      simp only [List.mem_cons, List.not_mem_nil, or_false] at hgood
      rcases hgood with he | he | he <;> rw [he] <;> decide
    show s.Described (s.scope.varDef i).varAddr (int8Size (s.scope.varDef i).varSize)
    rw [h.varDef i hi', hsize]
    exact hdesc _ hmem
  have hdecode : (s.load readScopeRequest).messageDecode =
      some (s.load readScopeRequest).readScope :=
    messageDecode_case (f := fun s => some s.readScope) hcovered rfl rfl
  have hanswer : (s.load readScopeRequest).readScope.answer = stcOk :: valuesOf s.mem vars := by
    rw [hread]
    refine answer_return _ _ ?_
    rw [UInt8.toNat_add, UInt8.toNat_ofNat']
    change (valuesOf s.mem vars).length ≤ 32 at hle
    show ((valuesOf s.mem vars).length % 256 + 1) % 256 = (valuesOf s.mem vars).length + 1
    omega
  exact ⟨_, serve_eq_some.mpr ⟨_, hdecode, by rw [Fits, hanswer]; exact hfits, hanswer.symm, rfl⟩⟩

end Board

namespace Pcm

/-- An event that meets the condition, and cannot write to `n` addresses from `a` on. -/
def Spares (a n : Nat) (s : Pcm) (e : Event) : Prop :=
  s.Ok e ∧ ∀ i < n, ¬ s.Touches (a + i) e

/-- Memory that no event touches stays as it is. -/
theorem mem_spared {a n : Nat} {s t : Pcm} (hs : s.Inv) (h : Reach step (Spares a n) s t) :
    readBytes t.board.mem a n = readBytes s.board.mem a n ∧ Board.Within s.board t.board := by
  have hall : t.Inv ∧ readBytes t.board.mem a n = readBytes s.board.mem a n ∧
      Board.Within s.board t.board := by
    refine h.inv (P := fun t => t.Inv ∧ readBytes t.board.mem a n = readBytes s.board.mem a n ∧
      Board.Within s.board t.board) ⟨hs, rfl, .refl _⟩ ?_
    rintro u e u' ⟨hu, hmem, hwithin⟩ ⟨hok, hspares⟩ hstep
    obtain ⟨v, hv, hsafe⟩ := step_safe hu hok
    rw [hstep] at hv
    cases hv
    refine ⟨hsafe.inv, Eq.trans (readBytes_congr fun i hi => ?_) hmem, hwithin.trans hsafe.within⟩
    exact hsafe.mem _ (hspares i hi)
  exact hall.2

/-- An event that meets the condition, and cannot set the scope up. -/
def KeepsScope (s : Pcm) (e : Event) : Prop := s.Ok e ∧ ¬ s.SetsScope e

theorem scope_kept {s t : Pcm} (hs : s.Inv) (h : Reach step KeepsScope s t) :
    t.board.scope = s.board.scope ∧ Board.Within s.board t.board := by
  have hall : t.Inv ∧ t.board.scope = s.board.scope ∧ Board.Within s.board t.board := by
    refine h.inv (P := fun t => t.Inv ∧ t.board.scope = s.board.scope ∧ Board.Within s.board t.board)
      ⟨hs, rfl, .refl _⟩ ?_
    rintro u e u' ⟨hu, hscope, hwithin⟩ ⟨hok, hkeeps⟩ hstep
    obtain ⟨v, hv, hsafe⟩ := step_safe hu hok
    rw [hstep] at hv
    cases hv
    exact ⟨hsafe.inv, (hsafe.scope hkeeps).trans hscope, hwithin.trans hsafe.within⟩
  exact hall.2

/-- What the PC writes is read back, in every run in between that does not touch the memory: a
message may be broken off there, the recorder may run. -/
theorem memory_round_trip {s : Pcm} (hs : s.Inv) (h : s.charRec = false) {a : Nat} {data : List UInt8}
    (ha : a < 0x100000000) (hd : data.length ≤ 121) (hdesc : s.board.Described a data.length)
    (hfits : (answerFrame (stcOk :: data)).length ≤ outBufSize) :
    ∃ t, s.putData (writeRequest a data hd).frame = some t ∧ t.AtRest ∧
      t.sent = s.sent ++ [answerFrame [stcOk]] ∧
      ∀ u, Reach step (Spares a data.length) t u → u.charRec = false →
        ∃ v, u.putData (readRequest a data.length).frame = some v ∧
          v.sent = u.sent ++ [answerFrame (stcOk :: data)] ∧
          readAnswer (answerFrame (stcOk :: data)) = some (stcOk :: data) := by
  obtain ⟨b, hb, hmem⟩ := Board.serve_write hd s.board ha hdesc
  obtain ⟨t, ht, hrest, hboard, hsent⟩ := request_served h
    ((writeRequest a data hd).clear_of_lt (show (0x05 : UInt8) < 0xC0 by decide) _) hb
  have hinv : t.Inv := hrest.inv (by rw [hboard]; exact Board.serve_inv hs.board hb)
  refine ⟨t, ht, hrest, hsent, fun u hu hchar => ?_⟩
  obtain ⟨hspared, hplain⟩ := mem_spared hinv hu
  have hdata : readBytes u.board.mem a data.length = data := by
    rw [hspared, hboard, hmem, readBytes_writeBytes]
  rw [hboard] at hplain
  have hdesc' := hplain.described.mpr ((Board.serve_described hs.board hb).mpr hdesc)
  obtain ⟨c, hc⟩ := Board.serve_read u.board ha (show data.length ≤ 128 by omega) hdesc'
    (by rw [hdata]; exact hfits)
  obtain ⟨v, hv, -, -, hsent'⟩ := request_served hchar
    ((readRequest a data.length).clear_of_lt (show (0x04 : UInt8) < 0xC0 by decide) _) hc
  rw [hdata] at hsent'
  exact ⟨v, hv, hsent', readAnswer_answerFrame _⟩

/-- Three bytes, one of which has to be sent twice, are read back at once. -/
theorem memory_round_trip_three :
    ∃ t v, (smallBoard fun _ => 0).putData (writeRequest 0x100 [1, START, 3] (by decide)).frame = some t ∧
      t.putData (readRequest 0x100 3).frame = some v ∧
      v.sent = [[0x2B, 0, 0], [0x2B, 0, 1, 0x2B, 0x2B, 3, 0xD1]] := by
  obtain ⟨t, ht, hrest, hsent, hread⟩ := memory_round_trip
    (s := smallBoard fun _ => 0) (init_inv _ _ _) rfl (show 0x100 < 0x100000000 by decide)
    (show [1, START, 3].length ≤ 121 by decide) (by decide) (by decide)
  obtain ⟨v, hv, hsent', -⟩ := hread t .start hrest.charRec
  refine ⟨t, v, ht, hv, hsent'.trans ?_⟩
  rw [hsent]
  decide

/-- A scope shows the values that its variables have when it is read. -/
theorem scope_round_trip {s : Pcm} (hs : s.Inv) (h : s.charRec = false) {vars : List VarDef}
    (hne : vars ≠ []) (hlen : vars.length ≤ 8)
    (hvars : ∀ v ∈ vars, v.varSize ∈ ([1, 2, 4] : List UInt8) ∧
      s.board.Described v.varAddr v.varSize.toNat) :
    ∃ t, s.putData (scopeRequest vars hlen).frame = some t ∧ t.AtRest ∧
      t.sent = s.sent ++ [answerFrame [stcOk]] ∧
      ∀ u, Reach step KeepsScope t u → u.charRec = false →
        (answerFrame (stcOk :: Board.valuesOf u.board.mem vars)).length ≤ outBufSize →
        ∃ v, u.putData readScopeRequest.frame = some v ∧
          v.sent = u.sent ++ [answerFrame (stcOk :: Board.valuesOf u.board.mem vars)] := by
  have haddr : ∀ v ∈ vars, v.varSize ∈ ([1, 2, 4] : List UInt8) ∧ v.varAddr < 0x100000000 := by
    intro v hv
    obtain ⟨hsize, hend, -⟩ := hvars v hv
    have hpos : 0 < v.varSize.toNat := by
      have hgood := hsize
      simp only [List.mem_cons, List.not_mem_nil, or_false] at hgood
      rcases hgood with he | he | he <;> rw [he] <;> decide
    exact ⟨hsize, by omega⟩
  obtain ⟨b, hb, hshows⟩ := Board.serve_setupScope s.board hne hlen haddr
  obtain ⟨t, ht, hrest, hboard, hsent⟩ := request_served h
    ((scopeRequest vars hlen).clear_of_lt (show (0x0A : UInt8) < 0xC0 by decide) _) hb
  have hinv : t.Inv := hrest.inv (by rw [hboard]; exact Board.serve_inv hs.board hb)
  refine ⟨t, ht, hrest, hsent, fun u hu hchar hfits => ?_⟩
  obtain ⟨hkept, hplain⟩ := scope_kept hinv hu
  have hscope : Board.Shows u.board.scope vars := by
    rw [hkept, hboard]
    exact hshows
  rw [hboard] at hplain
  obtain ⟨c, hc⟩ := Board.serve_readScope u.board hscope hne hlen (fun v hv =>
    hplain.described.mpr ((Board.serve_described hs.board hb).mpr (hvars v hv).2)) hfits
  -- there is no byte in the message that could be taken for its length
  obtain ⟨v, hv, -, -, hsent'⟩ := request_served hchar (fun _ hbody => absurd rfl hbody) hc
  exact ⟨v, hv, hsent'⟩

/-- Two variables of a memory that counts up. -/
theorem scope_round_trip_two :
    ∃ t v, (smallBoard Nat.toUInt8).putData
        (scopeRequest [⟨1, 5⟩, ⟨2, 0x2B⟩] (by decide)).frame = some t ∧
      t.putData readScopeRequest.frame = some v ∧
      v.sent = [[0x2B, 0, 0],
        answerFrame (stcOk :: Board.valuesOf t.board.mem [⟨1, 5⟩, ⟨2, 0x2B⟩])] := by
  obtain ⟨t, ht, hrest, hsent, hread⟩ := scope_round_trip
    (s := smallBoard Nat.toUInt8) (init_inv _ _ _) rfl
    (show [(⟨1, 5⟩ : VarDef), ⟨2, 0x2B⟩] ≠ [] by simp) (by decide) (by
      intro v hv
      simp only [List.mem_cons, List.not_mem_nil, or_false] at hv
      rcases hv with rfl | rfl <;> decide)
  have hfits : ∀ mem, (answerFrame (stcOk :: Board.valuesOf mem [⟨1, 5⟩, ⟨2, 0x2B⟩])).length ≤
      outBufSize := by
    intro mem
    have hlen : (stcOk :: Board.valuesOf mem [⟨1, 5⟩, ⟨2, 0x2B⟩]).length = 4 := rfl
    have hcount := (stcOk :: Board.valuesOf mem [⟨1, 5⟩, ⟨2, 0x2B⟩]).count_le_length (a := START)
    have hframe := Board.length_answerFrame (stcOk :: Board.valuesOf mem [⟨1, 5⟩, ⟨2, 0x2B⟩])
    unfold outBufSize
    omega
  obtain ⟨v, hv, hsent'⟩ := hread t .start hrest.charRec (hfits _)
  refine ⟨t, v, ht, hv, hsent'.trans ?_⟩
  rw [hsent]
  rfl

end Pcm

end SC04Monitor.PcMaster
