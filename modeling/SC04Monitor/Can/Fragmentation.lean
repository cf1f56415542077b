import SC04Monitor.Can.CanApp
import SC04Monitor.Lib.Scan

/-! # Fragmentation and reassembly of one message

The sending loop splits a message with a decreasing byte count and numbers the
pieces; `MsgRx_Deal` puts each piece where its number says and counts bytes up. For
every length the two agree: what comes out of the loop, received in order, is the
message. `Arrived` is what holds between two fragments. -/

namespace SC04Monitor.Can
open SC04Monitor.Lib.ByteMem SC04Monitor.Lib.Scan

/-! ## The fragments -/

/-- The number of fragments of a message. -/
def fragmentCount (len : Nat) : Nat := (len + 7) / 8

/-- Fragment `j` of a message. -/
def fragment (m : StdMsg) (ram : Mem) (junk : Nat → Nat) (j : Nat) : CanTx :=
  makeTxAckMsg m.canPort (makeCanMsgExtID (junk j) m.direction.code m.funcId j m.dest m.src)
    (min 8 (m.len - 8 * j)) ram (m.canBuffData + j * 8)

/-- The loop from fragment `j` on sends the fragments from `j` on. -/
theorem pushLoop_eq {m : StdMsg} {ram : Mem} {junk : Nat → Nat} {fuel frameLen j : Nat}
    (hfuel : frameLen ≤ fuel) (hleft : frameLen = m.len - 8 * j) :
    pushLoop m ram junk fuel frameLen j =
      (List.range' j (fragmentCount frameLen)).map (fragment m ram junk) := by
  induction fuel generalizing frameLen j with
  | zero =>
    obtain rfl : frameLen = 0 := by omega
    rfl
  | succ fuel ih =>
    unfold pushLoop
    by_cases hzero : frameLen = 0
    · rw [if_pos hzero, hzero]
      rfl
    · have hsend : (if 8 < frameLen then 8 else frameLen) = min 8 frameLen := by
        split_ifs <;> omega
      have hcount : fragmentCount frameLen = fragmentCount (frameLen - min 8 frameLen) + 1 := by
        unfold fragmentCount
        omega
      have hrest := @ih (frameLen - min 8 frameLen) (j + 1) (by omega) (by omega)
      rw [if_neg hzero]
      simp only [hsend]
      rw [hrest, hcount, List.range'_succ, List.map_cons]
      unfold fragment
      rw [hleft]

/-- What is sent for a message. -/
theorem pushMsg_eq (m : StdMsg) (ram : Mem) (junk : Nat → Nat) :
    pushMsg m ram junk = (List.range (fragmentCount m.len)).map (fragment m ram junk) := by
  unfold pushMsg
  rw [pushLoop_eq (Nat.le_refl _) (by omega), List.range_eq_range']

/-- The identifier carries the addresses and the packet number. -/
theorem extID_fields {func frame dest src : Nat} (hfunc : func < 32) (hframe : frame < 32)
    (hdest : dest < 32) (hsrc : src < 32) (junk classID : Nat) :
    packetID (makeCanMsgExtID junk classID func frame dest src) = frame ∧
      sourceID (makeCanMsgExtID junk classID func frame dest src) = src ∧
      sinkID (makeCanMsgExtID junk classID func frame dest src) = dest ∧
      funcID (makeCanMsgExtID junk classID func frame dest src) = func := by
  unfold packetID sourceID sinkID funcID makeCanMsgExtID
  simp only [Nat.reducePow]
  omega

/-! ## The receiver -/

/-- The frame that arrives for a frame sent: the bytes behind its length are not
transmitted. -/
structure Carries (t : CanTx) (p : CanRx) : Prop where
  port : p.canPort = t.canPort
  extId : p.extId = t.extId
  dlc : p.dlc = t.dlc
  payload : p.payload = t.data.take t.dlc

/-- The entry receives the messages that `m` sends, and it is the only one: on PORT1
of the whole table, on PORT2 as the last entry, which is the only one looked at. -/
structure Receives (tb : MsgTable) (m : StdMsg) (f : FrameId) : Prop where
  direction : (tb f).direction = .rx
  callback : (tb f).callback = true
  canPort : (tb f).canPort = m.canPort
  src : (tb f).src = m.src
  dest : (tb f).dest = m.dest
  funcId : (tb f).funcId = m.funcId
  len : (tb f).len = m.len
  only : m.canPort = port1 ∧
      (∀ g, g ≠ f → ¬ ((tb g).direction = .rx ∧ (tb g).canPort = m.canPort ∧ (tb g).src = m.src ∧
        (tb g).dest = m.dest ∧ (tb g).funcId = m.funcId)) ∨
    m.canPort = port2 ∧ f = Fin.last 41

/-- The identifiers fit into their bit fields. -/
structure Addressed (m : StdMsg) : Prop where
  funcId : m.funcId < 32
  dest : m.dest < 32
  src : m.src < 32

/-- The frames are handed to `MsgRx_Manage` in order. -/
def receive (tb : MsgTable) (s : CanApp) (ps : List CanRx) : CanApp := ps.foldl (msgRxManage tb) s

theorem receive_concat (tb : MsgTable) (s : CanApp) (ps : List CanRx) (p : CanRx) :
    receive tb s (ps ++ [p]) = msgRxManage tb (receive tb s ps) p := by
  unfold receive
  rw [List.foldl_append]
  rfl

section
variable {tb : MsgTable} {m : StdMsg} {f : FrameId} {ram : Mem} {junk : Nat → Nat}

/-- The packet of a frame that carries a fragment. -/
theorem Carries.fields {p : CanRx} {j : Nat} (hp : Carries (fragment m ram junk j) p)
    (hm : Addressed m) (hj : j < 32) :
    packetID p.extId = j ∧ sourceID p.extId = m.src ∧ sinkID p.extId = m.dest ∧
      funcID p.extId = m.funcId := by
  rw [hp.extId]
  exact extID_fields hm.funcId hj hm.dest hm.src (junk j) m.direction.code

/-- A fragment is dealt with once, for the entry that receives the message. -/
theorem msgRxManage_fragment {p : CanRx} {j : Nat} (hf : Receives tb m f) (hm : Addressed m)
    (hj : j < 32) (hp : Carries (fragment m ram junk j) p) (s : CanApp) :
    (msgRxManage tb s p).ram = (msgRxDeal tb s p f).ram ∧
      (msgRxManage tb s p).update = (msgRxDeal tb s p f).update ∧
      (msgRxManage tb s p).dataLen = (msgRxDeal tb s p f).dataLen := by
  obtain ⟨-, hsrc, hdest, hfunc⟩ := hp.fields hm hj
  have hport : p.canPort = m.canPort := hp.port
  have hacc : accepts (tb f) p = true := by
    unfold accepts
    rw [hf.direction, hf.canPort, hf.src, hf.dest, hf.funcId, hf.callback, hsrc, hdest, hfunc, hport]
    simp
  unfold msgRxManage
  rcases hf.only with ⟨h1, honly⟩ | ⟨h2, hlast⟩
  · have hother : ∀ g, g ≠ f → accepts (tb g) p = false := by
      intro g hg
      by_contra hcon
      rw [Bool.not_eq_false] at hcon
      simp only [accepts, Bool.and_eq_true, decide_eq_true_eq, hsrc, hdest, hfunc, hport] at hcon
      obtain ⟨⟨⟨⟨⟨hdir, hcp⟩, hs⟩, hd⟩, hfn⟩, -⟩ := hcon
      exact honly g hg ⟨hdir, hcp, hs, hd, hfn⟩
    rw [if_pos (hport.trans h1), scan_single (a := f) (List.nodup_finRange _) (List.mem_finRange _)
      fun g _ hg t => by simp [msgRxPort1, hother g hg]]
    unfold msgRxPort1
    rw [if_pos hacc]
    exact ⟨rfl, rfl, rfl⟩
  · have hne : ¬ p.canPort = port1 := by
      rw [hport, h2]
      decide
    rw [if_neg hne, if_pos (hport.trans h2), List.foldl_cons, List.foldl_nil, ← hlast]
    unfold msgRxPort2
    rw [if_pos hacc]
    exact ⟨rfl, rfl, rfl⟩

/-! ## Between two fragments -/

/-- The first `j` fragments have arrived: their bytes are in place and counted, and
the flag is as it was. -/
structure Arrived (tb : MsgTable) (m : StdMsg) (f : FrameId) (ram : Mem) (s₀ s : CanApp)
    (j : Nat) : Prop where
  bytes : readBytes s.ram (tb f).canBuffData (8 * j) = readBytes ram m.canBuffData (8 * j)
  counted : 0 < j → s.dataLen = 8 * j
  update : s.update f = s₀.update f

theorem payload_fragment {p : CanRx} {j : Nat} (hp : Carries (fragment m ram junk j) p) :
    p.dlc = min 8 (m.len - 8 * j) ∧
      p.payload = readBytes ram (m.canBuffData + 8 * j) (min 8 (m.len - 8 * j)) := by
  have hdlc : (fragment m ram junk j).dlc = min 8 (m.len - 8 * j) := by
    unfold fragment makeTxAckMsg
    dsimp only
    split_ifs <;> omega
  refine ⟨hp.dlc.trans hdlc, ?_⟩
  rw [hp.payload, hdlc]
  unfold fragment makeTxAckMsg readBytes
  dsimp only
  rw [← List.map_take, List.take_range, Nat.mul_comm, Nat.min_eq_left (Nat.min_le_left _ _)]

/-- A fragment is stored behind those that have arrived. -/
theorem Arrived.stored {s₀ s : CanApp} {p : CanRx} {j : Nat} (h : Arrived tb m f ram s₀ s j)
    (hm : Addressed m) (hj : j < 32) (hp : Carries (fragment m ram junk j) p) :
    readBytes (msgRxDeal tb s p f).ram (tb f).canBuffData (8 * j + p.dlc) =
      readBytes ram m.canBuffData (8 * j + p.dlc) := by
  obtain ⟨hpid, -⟩ := hp.fields hm hj
  obtain ⟨hdlc, hpay⟩ := payload_fragment hp
  have hram : (msgRxDeal tb s p f).ram =
      writeBytes s.ram ((tb f).canBuffData + 8 * j) p.payload := by
    unfold msgRxDeal
    rw [hpid, Nat.mul_comm]
    dsimp only
    split_ifs <;> rfl
  have hread := readBytes_writeBytes s.ram ((tb f).canBuffData + 8 * j) p.payload
  rw [CanRx.length_payload] at hread
  rw [hram, readBytes_add, readBytes_add, hread, readBytes_writeBytes_frame, h.bytes, hpay, hdlc]
  unfold Apart
  omega

/-- The byte count behind a fragment. -/
theorem Arrived.dataLen_add {s₀ s : CanApp} {p : CanRx} {j : Nat} (h : Arrived tb m f ram s₀ s j)
    (hlen : m.len ≤ 255) (hj : j < fragmentCount m.len) (hp : Carries (fragment m ram junk j) p) :
    ((if j = 0 then 0 else s.dataLen) + p.dlc) % 2 ^ 16 = 8 * j + p.dlc := by
  obtain ⟨hdlc, -⟩ := payload_fragment hp
  unfold fragmentCount at hj
  have hbefore : (if j = 0 then 0 else s.dataLen) = 8 * j := by
    split_ifs with hzero
    · omega
    · exact h.counted (Nat.pos_of_ne_zero hzero)
  rw [hbefore]
  exact Nat.mod_eq_of_lt (by omega)

/-- The step between two fragments. -/
theorem Arrived.next {s₀ s : CanApp} {p : CanRx} {j : Nat} (h : Arrived tb m f ram s₀ s j)
    (hf : Receives tb m f) (hm : Addressed m) (hlen : m.len ≤ 255)
    (hj : j + 1 < fragmentCount m.len) (hp : Carries (fragment m ram junk j) p) :
    Arrived tb m f ram s₀ (msgRxManage tb s p) (j + 1) := by
  have hcount := hj
  unfold fragmentCount at hcount
  obtain ⟨hpid, -⟩ := hp.fields hm (by omega)
  obtain ⟨hdlc, -⟩ := payload_fragment hp
  obtain ⟨hram, hupdate, hdata⟩ := msgRxManage_fragment hf hm (by omega) hp s
  have hfull : p.dlc = 8 := by omega
  have hbytes := h.stored hm (by omega) hp
  have hadd := h.dataLen_add hlen (by omega) hp
  have hnotlast : ¬ packetID p.extId = lastPacket (tb f) := by
    unfold lastPacket
    rw [hpid, hf.len]
    omega
  rw [hfull] at hbytes hadd
  refine ⟨?_, fun _ => ?_, ?_⟩
  · rw [hram]
    exact hbytes
  · rw [hdata]
    unfold msgRxDeal
    dsimp only
    rw [if_neg hnotlast, hpid, hfull]
    exact hadd
  · rw [hupdate]
    unfold msgRxDeal
    dsimp only
    rw [if_neg hnotlast]
    exact h.update

/-- The last fragment completes the message. -/
theorem Arrived.last {s₀ s : CanApp} {p : CanRx} {j : Nat} (h : Arrived tb m f ram s₀ s j)
    (hf : Receives tb m f) (hm : Addressed m) (hlen : m.len ≤ 255)
    (hj : j + 1 = fragmentCount m.len) (hp : Carries (fragment m ram junk j) p) :
    (msgRxManage tb s p).update f = true ∧
      readBytes (msgRxManage tb s p).ram (tb f).canBuffData m.len =
        readBytes ram m.canBuffData m.len := by
  have hcount := hj
  unfold fragmentCount at hcount
  obtain ⟨hpid, -⟩ := hp.fields hm (by omega)
  obtain ⟨hdlc, -⟩ := payload_fragment hp
  obtain ⟨hram, hupdate, -⟩ := msgRxManage_fragment hf hm (by omega) hp s
  have hrest : 8 * j + p.dlc = m.len := by omega
  have hbytes := h.stored hm (by omega) hp
  have hadd := h.dataLen_add hlen (by omega) hp
  have hlast : packetID p.extId = lastPacket (tb f) := by
    unfold lastPacket
    rw [hpid, hf.len]
    omega
  rw [hrest] at hbytes hadd
  refine ⟨?_, ?_⟩
  · rw [hupdate]
    unfold msgRxDeal
    dsimp only
    rw [if_pos hlast, hpid, if_pos (hadd.trans hf.len.symm)]
    exact Function.update_self f true s.update
  · rw [hram]
    exact hbytes

/-! ## The round trip -/

/-- One frame arrives for each fragment. -/
theorem carries_fragment {ps : List CanRx} (hps : List.Forall₂ Carries (pushMsg m ram junk) ps) :
    ps.length = fragmentCount m.len ∧
      ∀ j, (hj : j < ps.length) → Carries (fragment m ram junk j) ps[j] := by
  rw [pushMsg_eq, List.forall₂_iff_get] at hps
  obtain ⟨hlen, hget⟩ := hps
  rw [List.length_map, List.length_range] at hlen
  refine ⟨hlen.symm, fun j hj => ?_⟩
  have hat := hget j (by rw [List.length_map, List.length_range, hlen]; exact hj) hj
  simpa using hat

theorem arrived_take (s₀ : CanApp) {ps : List CanRx} (hf : Receives tb m f) (hm : Addressed m)
    (hlen : m.len ≤ 255) (hps : List.Forall₂ Carries (pushMsg m ram junk) ps) {j : Nat}
    (hj : j < fragmentCount m.len) : Arrived tb m f ram s₀ (receive tb s₀ (ps.take j)) j := by
  obtain ⟨hcount, hcarries⟩ := carries_fragment hps
  induction j with
  | zero => exact ⟨rfl, fun h => absurd h (Nat.lt_irrefl 0), rfl⟩
  | succ j ih =>
    have hlt : j < ps.length := by omega
    rw [List.take_succ_eq_append_getElem hlt, receive_concat]
    exact (ih (by omega)).next hf hm hlen hj (hcarries j hlt)

/-- **The fragmentation round trip.** For every length, every content, all addresses
and whatever the unset bits of the identifiers hold: the frames of a message, received
in order, set the flag of its entry with the last one and not earlier, and leave the
content in its buffer. -/
theorem fragmentation_round_trip {ps : List CanRx} (hpos : 1 ≤ m.len) (hlen : m.len ≤ 255)
    (hm : Addressed m) (hf : Receives tb m f)
    (hps : List.Forall₂ Carries (pushMsg m ram junk) ps) (s : CanApp) :
    (∀ j < ps.length, (receive tb s (ps.take j)).update f = s.update f) ∧
      (receive tb s ps).update f = true ∧
      readBytes (receive tb s ps).ram (tb f).canBuffData m.len =
        readBytes ram m.canBuffData m.len := by
  obtain ⟨hcount, hcarries⟩ := carries_fragment hps
  have hsome : 0 < fragmentCount m.len := by
    unfold fragmentCount
    omega
  obtain ⟨j, hj⟩ := Nat.exists_eq_add_one_of_ne_zero (Nat.ne_of_gt hsome)
  have hlt : j < ps.length := by omega
  refine ⟨fun i hi => (arrived_take s hf hm hlen hps (by omega)).update, ?_⟩
  have hsplit : ps = ps.take j ++ [ps[j]] := by
    rw [← List.take_succ_eq_append_getElem hlt, List.take_of_length_le (by omega)]
  have hlast := (arrived_take s hf hm hlen hps (by omega)).last hf hm hlen hj.symm
    (hcarries j hlt)
  rw [← receive_concat, ← hsplit] at hlast
  exact hlast

end

/-- The answer of the AD board, which the last entry of the table receives. -/
def adAnswer : StdMsg := ⟨port2, .tx, canIdM1, canIdAD, canFuncADPoll, 16, 1, 0, 0, false⟩

/-- Its two frames, of bytes `3` with all unset bits set. -/
def adFrames : List CanRx :=
  [.full port2 (makeCanMsgExtID 0xFF 1 canFuncADPoll 0 canIdM1 canIdAD) (.replicate 8 3),
    .full port2 (makeCanMsgExtID 0xFF 1 canFuncADPoll 1 canIdM1 canIdAD) (.replicate 8 3)]

theorem fragmentation_round_trip_ad :
    (receive stdMsgTable .init adFrames).update (Fin.last 41) = true ∧
      readBytes (receive stdMsgTable .init adFrames).ram (canBuf .adRxChnn) 16 =
        List.replicate 16 3 := by
  have hm : Addressed adAnswer := ⟨by decide, by decide, by decide⟩
  have hf : Receives stdMsgTable adAnswer (Fin.last 41) :=
    ⟨rfl, rfl, rfl, rfl, rfl, rfl, rfl, Or.inr ⟨rfl, rfl⟩⟩
  have hps : List.Forall₂ Carries (pushMsg adAnswer (fun _ => 3) fun _ => 0xFF) adFrames :=
    .cons ⟨rfl, rfl, rfl, by decide⟩ (.cons ⟨rfl, rfl, rfl, by decide⟩ .nil)
  obtain ⟨-, hflag, hbytes⟩ :=
    fragmentation_round_trip (by decide) (by decide) hm hf hps .init
  exact ⟨hflag, hbytes⟩

end SC04Monitor.Can
