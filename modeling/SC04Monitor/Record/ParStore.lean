import SC04Monitor.Record.AppFlash
import SC04Monitor.Lib.WordMem
import Mathlib.Data.List.GetD
import Mathlib.Tactic.IntervalCases

/-! # The parameter store and the loss of power

What a run of `Flash_Write_SYS` leaves in the chip, and what `Flash_Read_SYS` makes of it
after a restart. The management page is programmed first, so that between the two pages
it names a slot that still holds what it held before: nothing, or the payload of the
write one turn ago. -/

namespace SC04Monitor.Record
open SC04Monitor.Lib.ByteMem SC04Monitor.Lib.WordMem SC04Monitor.Lib.PowerLoss

/-! ## The management page -/

/-- The page holds `k` flags. -/
def Flags (m : Mem) (k : Nat) : Prop := ∀ i < fPageSize, m i = if i < k then flashFlag else 0xFF

theorem length_parMan (k : Nat) : (parMan k).length = fPageSize := by simp [parMan]

theorem readBytes_parMan_iff {m : Mem} {k : Nat} :
    readBytes m 0 fPageSize = parMan k ↔ Flags m k := by
  unfold readBytes parMan Flags
  rw [List.map_inj_left]
  simp only [List.mem_range, Nat.zero_add]

theorem scanIndexW_parMan {k : Nat} (h : k < 100) : scanIndexW (parMan k) = some k := by
  have hget : ∀ i < 100, (parMan k).getD i 0 = if i < k then flashFlag else 0xFF := by
    intro i hi
    have hlt : i < (List.range fPageSize).length := by
      rw [List.length_range]
      unfold fPageSize
      omega
    unfold parMan
    rw [List.getD_eq_getElem _ _ (by rwa [List.length_map]), List.getElem_map, List.getElem_range]
  unfold scanIndexW
  rw [List.find?_range_eq_some]
  refine ⟨?_, List.mem_range.mpr h, fun i hi => ?_⟩
  · rw [hget k h, if_neg (Nat.lt_irrefl k)]
    decide
  · rw [hget i (by omega), if_pos hi]
    decide

/-- Programming without an erase leaves the flags that are there and clears the bits of
the next one. -/
theorem Flags.next {old buf : Mem} {k : Nat} (h : Flags old k) (hbuf : Flags buf (k + 1)) :
    Flags (fun i => old i &&& buf i) (k + 1) := by
  intro i hi
  show old i &&& buf i = _
  rw [h i hi, hbuf i hi]
  by_cases hlt : i < k
  · rw [if_pos hlt, if_pos (Nat.lt_succ_of_lt hlt)]
    decide
  · rw [if_neg hlt]
    split_ifs <;> decide

/-! ## A slot -/

theorem pageAddr_slotPage {j : Nat} (hj : j < 99) : pageAddr (slotPage (j + 1)) = j := by
  unfold pageAddr slotPage
  omega

/-- No slot lies on the management page. -/
theorem slot_ne_mana {p : Nat} (hp : p < 99) : p ≠ monitorManaIndexW := by
  unfold monitorManaIndexW
  omega

/-- The bytes that a write stores: the payload and its CRC. -/
def DataRam.stored (f : DataRam) : List UInt8 := readBytes f.addCrc.dataRam 0 f.len

theorem DataRam.length_payload (f : DataRam) : f.payload.length = f.len - 2 := by
  simp [DataRam.payload]

theorem DataRam.stored_eq (f : DataRam) (h : 2 ≤ f.len) :
    f.stored = f.payload ++ [(crc16DnCal f.payload 0xFFFF).toUInt8,
      (crc16DnCal f.payload 0xFFFF >>> 8).toUInt8] := by
  have hlen : f.len = f.len - 2 + 2 := by omega
  unfold DataRam.stored
  conv_lhs => rw [hlen, readBytes_add, Nat.zero_add]
  congr 1
  · exact readBytes_writeBytes_frame (Or.inr (Or.inr (Or.inr (by omega))))
  · exact readBytes_writeBytes _ _ _

/-- The check of `Flash_Read_SYS` on the bytes of a slot. -/
def ValidSlot (bytes : List UInt8) : Prop :=
  (bytes.getD (bytes.length - 2) 0).toUInt16 ||| (bytes.getD (bytes.length - 1) 0).toUInt16 <<< 8 =
    crc16DnCal (bytes.take (bytes.length - 2)) 0xFFFF

instance : DecidablePred ValidSlot := fun _ => inferInstanceAs (Decidable (_ = _))

theorem DataRam.length_stored (f : DataRam) : f.stored.length = f.len := length_readBytes _ _ _

theorem DataRam.take_stored (f : DataRam) (h : 2 < f.len) :
    f.stored.take (f.len - 2) = f.payload := by
  rw [f.stored_eq h.le, ← f.length_payload, List.take_left]

/-- What is stored passes the check. -/
theorem DataRam.stored_valid (f : DataRam) (h : 2 < f.len) : ValidSlot f.stored := by
  have hlen := f.length_payload
  have hword := orBytes_self (crc16DnCal f.payload 0xFFFF)
  unfold ValidSlot
  rw [f.length_stored, f.take_stored h, f.stored_eq h.le, List.getD_append_right _ _ _ _ (by omega),
    List.getD_append_right _ _ _ _ (by omega), hlen, Nat.sub_self,
    show f.len - 1 - (f.len - 2) = 1 by omega, UInt16.or_comm]
  exact hword

/-- No CRC of up to `n` more erased bytes is all ones. -/
def crcMisses : Nat → UInt16 → Bool
  | 0, _ => true
  | n + 1, crc => crc16DnByte crc 0xFF != 0xFFFF && crcMisses n (crc16DnByte crc 0xFF)

theorem crc_of_misses {n k : Nat} {crc : UInt16} (h : crcMisses n crc = true) (hk : k < n) :
    crc16DnCal (List.replicate (k + 1) 0xFF) crc ≠ 0xFFFF := by
  induction n generalizing k crc with
  | zero => omega
  | succ n ih =>
    rw [crcMisses, Bool.and_eq_true, bne_iff_ne] at h
    cases k with
    | zero => exact h.1
    | succ k =>
      show crc16DnCal (List.replicate (k + 1) 0xFF) (crc16DnByte crc 0xFF) ≠ 0xFFFF
      exact ih h.2 (by omega)

/-- An erased slot does not pass the check. -/
theorem not_validSlot_blank {len : Nat} (h : 2 < len) (hle : len ≤ fPageSize) :
    ¬ ValidSlot (List.replicate len 0xFF) := by
  have hmiss : crcMisses 526 0xFFFF = true := by decide +kernel
  unfold fPageSize at hle
  unfold ValidSlot
  rw [List.length_replicate, List.take_replicate, Nat.min_eq_left (Nat.sub_le _ _),
    List.getD_replicate _ (by omega), List.getD_replicate _ (by omega),
    show len - 2 = len - 3 + 1 by omega]
  exact fun he => crc_of_misses hmiss (by omega) he.symm

/-! ## Reading after a restart -/

/-- After a restart, with a `par_IndexW` of zero, a read delivers the payload whatever
the caller's buffer holds. -/
def Delivers (c : At45) (len : Nat) (payload : List UInt8) : Prop :=
  ∀ f : DataRam, f.len = len → (flashReadSys c 0 f).2.payload = payload

section
variable {c : At45} {len j : Nat}

/-- A read when the management page names slot `j`. -/
theorem flashReadSys_eq (hmana : Flags (c.page monitorManaIndexW) (j + 1)) (hj : j < 99)
    (f : DataRam) :
    flashReadSys c 0 f = (j + 1,
      if ValidSlot (readBytes (c.page j) 0 f.len) then
        { f with dataRam :=
            writeBytes f.dataRam 0 ((readBytes (c.page j) 0 f.len).take (f.len - 2)) }
      else f) := by
  have hscan : scanIndexW (c.icReadPage monitorManaIndexW 0 fPageSize) = some (j + 1) := by
    rw [← scanIndexW_parMan (show j + 1 < 100 by omega)]
    exact congrArg scanIndexW (readBytes_parMan_iff.mpr hmana)
  have hslot : c.icReadPage (slotPage (j + 1)) 0 f.len = readBytes (c.page j) 0 f.len := by
    unfold At45.icReadPage
    rw [pageAddr_slotPage hj]
  unfold flashReadSys ValidSlot
  rw [hscan]
  simp only [Option.getD_some, hslot, length_readBytes]
  split_ifs <;> rfl

/-- What is delivered from slot `j`. -/
theorem delivers_iff (hmana : Flags (c.page monitorManaIndexW) (j + 1)) (hj : j < 99)
    (hlen : 2 < len) (payload : List UInt8) :
    Delivers c len payload ↔ ValidSlot (readBytes (c.page j) 0 len) ∧
      (readBytes (c.page j) 0 len).take (len - 2) = payload := by
  have hread : ∀ f : DataRam, f.len = len → ValidSlot (readBytes (c.page j) 0 len) →
      (flashReadSys c 0 f).2.payload = (readBytes (c.page j) 0 len).take (len - 2) := by
    rintro f rfl hvalid
    have htake : ((readBytes (c.page j) 0 f.len).take (f.len - 2)).length = f.len - 2 := by simp
    have hback := readBytes_writeBytes f.dataRam 0 ((readBytes (c.page j) 0 f.len).take (f.len - 2))
    rw [htake] at hback
    rw [flashReadSys_eq hmana hj, if_pos hvalid]
    exact hback
  constructor
  · intro hd
    have hvalid : ValidSlot (readBytes (c.page j) 0 len) := by
      by_contra hnot
      -- the caller's buffer is returned as it was, whatever it was
      have hkept : ∀ m : Mem, readBytes m 0 (len - 2) = payload := by
        intro m
        have hm := hd ⟨len, m⟩ rfl
        rw [flashReadSys_eq hmana hj, if_neg hnot] at hm
        exact hm
      have hzero := (hkept fun _ => 0).trans (hkept fun _ => 1).symm
      have hhead := congrArg (fun l => l.getD 0 0) hzero
      obtain ⟨n, hn⟩ : ∃ n, len - 2 = n + 1 := ⟨len - 3, by omega⟩
      rw [hn] at hhead
      simp [readBytes, List.range_succ_eq_map] at hhead
    exact ⟨hvalid, (hread ⟨len, fun _ => 0⟩ rfl hvalid).symm.trans (hd ⟨len, fun _ => 0⟩ rfl)⟩
  · rintro ⟨hvalid, hpay⟩ f hf
    rw [hread f hf hvalid, hpay]

end

/-! ## The states of a write -/

/-- A page that reads back what was written to the buffer ends the loop. -/
theorem programVerified_traces {program : Nat → At45 → At45} {page k : Nat} {data : List UInt8}
    {c : At45}
    (hread : (program page (c.icWriteBuf1 0 data)).icReadPage page 0 data.length = data) :
    Traces (programVerified program page data (k + 1)) c
      [c.icWriteBuf1 0 data, program page (c.icWriteBuf1 0 data),
        program page (c.icWriteBuf1 0 data)] () := by
  refine (Traces.act _ c).bind rfl ((Traces.act _ _).bind rfl ((Traces.look _ _).bind rfl ?_))
  show Traces (if data = (program page (c.icWriteBuf1 0 data)).icReadPage page 0 data.length then
    pure () else programVerified program page data k) (program page (c.icWriteBuf1 0 data)) [] ()
  rw [if_pos hread.symm]
  exact Traces.pure _ _

section
variable (c : At45) (j : Nat) (f : DataRam)

/-- The buffer holds the flags for slot `j`. -/
def flagsBuffered : At45 := c.icWriteBuf1 0 (parMan (j + 1))

/-- The management page names slot `j`. -/
def slotNamed : At45 :=
  (if j = 0 then At45.icBuf1ToPage else At45.icBuf1ToPageN) monitorManaIndexW (flagsBuffered c j)

/-- The buffer holds the payload. -/
def payloadBuffered : At45 := (slotNamed c j).icWriteBuf1 0 f.stored

/-- The slot holds the payload. -/
def slotWritten : At45 := (payloadBuffered c j f).icBuf1ToPage (slotPage (j + 1))

end

section
variable {c : At45} {j : Nat} {f : DataRam}

theorem flags_writeBytes (m : Mem) (k : Nat) : Flags (writeBytes m 0 (parMan k)) k := by
  have hback := readBytes_writeBytes m 0 (parMan k)
  rw [length_parMan] at hback
  exact readBytes_parMan_iff.mp hback

theorem flagsBuffered_buf1 :
    (flagsBuffered c j).buf1 = writeBytes c.buf1 0 (parMan (j + 1)) := by
  simp only [flagsBuffered, At45.icWriteBuf1]

theorem pageAddr_mana : pageAddr monitorManaIndexW = monitorManaIndexW := rfl

theorem slotNamed_mana (h : j = 0 ∨ Flags (c.page monitorManaIndexW) j) :
    Flags ((slotNamed c j).page monitorManaIndexW) (j + 1) := by
  have hbuf := flags_writeBytes c.buf1 (j + 1)
  rw [← flagsBuffered_buf1] at hbuf
  unfold slotNamed
  split_ifs with hj
  · unfold At45.icBuf1ToPage
    rw [pageAddr_mana]
    dsimp only
    rw [Function.update_self]
    exact hbuf
  · unfold At45.icBuf1ToPageN
    rw [pageAddr_mana]
    dsimp only
    rw [Function.update_self]
    exact (h.resolve_left hj).next hbuf

theorem slotNamed_page {p : Nat} (hp : p ≠ monitorManaIndexW) :
    (slotNamed c j).page p = c.page p := by
  have hne : p ≠ pageAddr monitorManaIndexW := hp
  unfold slotNamed
  split_ifs
  · exact Function.update_of_ne hne _ _
  · exact Function.update_of_ne hne _ _

theorem slotWritten_slot (hj : j < 99) :
    readBytes ((slotWritten c j f).page j) 0 f.len = f.stored := by
  have hback := readBytes_writeBytes (slotNamed c j).buf1 0 f.stored
  rw [f.length_stored] at hback
  unfold slotWritten At45.icBuf1ToPage
  rw [pageAddr_slotPage hj]
  dsimp only
  rw [Function.update_self]
  exact hback

theorem slotWritten_page (hj : j < 99) {p : Nat} (hp : p ≠ j) :
    (slotWritten c j f).page p = (slotNamed c j).page p := by
  unfold slotWritten At45.icBuf1ToPage
  rw [pageAddr_slotPage hj]
  exact Function.update_of_ne hp _ _

/-- The six operations of a write. -/
theorem flashWriteSys_traces {parIndexW : Nat} (hnext : nextIndexW parIndexW = j + 1)
    (hj : j < 99) (h : j = 0 ∨ Flags (c.page monitorManaIndexW) j) :
    Traces (flashWriteSys parIndexW f) c
      [flagsBuffered c j, slotNamed c j, slotNamed c j, payloadBuffered c j f,
        slotWritten c j f, slotWritten c j f] (j + 1, f.addCrc) := by
  have hmana : (slotNamed c j).icReadPage monitorManaIndexW 0 (parMan (j + 1)).length =
      parMan (j + 1) := by
    rw [length_parMan]
    exact readBytes_parMan_iff.mpr (slotNamed_mana h)
  have hslot : (slotWritten c j f).icReadPage (slotPage (j + 1)) 0 f.stored.length = f.stored := by
    unfold At45.icReadPage
    rw [pageAddr_slotPage hj, f.length_stored]
    exact slotWritten_slot hj
  have hprogram : (if j + 1 = 1 then At45.icBuf1ToPage else At45.icBuf1ToPageN) =
      if j = 0 then At45.icBuf1ToPage else At45.icBuf1ToPageN := by
    simp only [Nat.add_eq_right]
  unfold flashWriteSys
  rw [hnext]
  dsimp only
  rw [hprogram]
  exact (programVerified_traces hmana).bind rfl
    ((programVerified_traces hslot).bind rfl (Traces.pure _ _))

end

/-! ## Runs of writes -/

/-- Completed calls of `Flash_Write_SYS` from an erased chip and a `par_IndexW` of zero on,
newest first, with what they leave in the chip and in `par_IndexW`. -/
inductive Session (buf1 : Mem) (len : Nat) : List DataRam → At45 → Nat → Prop
  | start : Session buf1 len [] (.erased buf1) 0
  | write {fs : List DataRam} {c t : At45} {parIndexW next n k : Nat} {f g : DataRam}
      (run : Session buf1 len fs c parIndexW) (hlen : f.len = len)
      (step : flashWriteSys parIndexW f c n = (t, some ((next, g), k))) :
      Session buf1 len (f :: fs) t next

/-- `par_IndexW` after `n` writes. -/
def indexAfter (n : Nat) : Nat := if n = 0 then 0 else (n - 1) % 99 + 1

theorem nextIndexW_indexAfter (n : Nat) : nextIndexW (indexAfter n) = n % 99 + 1 := by
  unfold nextIndexW indexAfter
  split_ifs <;> omega

theorem indexAfter_succ (n : Nat) : indexAfter (n + 1) = n % 99 + 1 := rfl

/-- What `n` writes leave: as many flags as the index says, in the slots the last 99
payloads, and nothing in a slot that was never used. -/
structure ParStore (len : Nat) (fs : List DataRam) (c : At45) : Prop where
  mana : Flags (c.page monitorManaIndexW) (indexAfter fs.length)
  slot : ∀ i (h : i < fs.length), i < 99 →
    readBytes (c.page ((fs.length - 1 - i) % 99)) 0 len = fs[i].stored
  blank : ∀ j, fs.length ≤ j → j < 99 → readBytes (c.page j) 0 len = List.replicate len 0xFF

theorem ParStore.start (buf1 : Mem) (len : Nat) : ParStore len [] (.erased buf1) where
  mana i _ := by
    show (0xFF : UInt8) = if i < 0 then flashFlag else 0xFF
    rw [if_neg (Nat.not_lt_zero i)]
  slot i hi := absurd hi (Nat.not_lt_zero i)
  blank j _ _ := by
    show (List.range len).map (fun _ => (0xFF : UInt8)) = _
    rw [List.map_const', List.length_range]

section
variable {len : Nat} {fs : List DataRam} {c t : At45} {f : DataRam}

/-- The next slot is the first one, or the flags for the slots before it are there. -/
theorem ParStore.ready (h : ParStore len fs c) :
    fs.length % 99 = 0 ∨ Flags (c.page monitorManaIndexW) (fs.length % 99) := by
  by_cases hzero : fs.length % 99 = 0
  · exact Or.inl hzero
  · right
    have hindex : indexAfter fs.length = fs.length % 99 := by
      unfold indexAfter
      rw [if_neg (by omega)]
      omega
    rw [← hindex]
    exact h.mana

theorem ParStore.traces (h : ParStore len fs c) (f : DataRam) :
    Traces (flashWriteSys (indexAfter fs.length) f) c
      [flagsBuffered c (fs.length % 99), slotNamed c (fs.length % 99),
        slotNamed c (fs.length % 99), payloadBuffered c (fs.length % 99) f,
        slotWritten c (fs.length % 99) f, slotWritten c (fs.length % 99) f]
      (fs.length % 99 + 1, f.addCrc) :=
  flashWriteSys_traces (nextIndexW_indexAfter fs.length) (Nat.mod_lt _ (by decide)) h.ready

/-- A completed write is one more in the store. -/
theorem ParStore.write (h : ParStore len fs c) (hlen : f.len = len) :
    ParStore len (f :: fs) (slotWritten c (fs.length % 99) f) := by
  have hj : fs.length % 99 < 99 := Nat.mod_lt _ (by decide)
  have hpage : ∀ p < 99, p ≠ fs.length % 99 →
      (slotWritten c (fs.length % 99) f).page p = c.page p := by
    intro p hp hpj
    rw [slotWritten_page hj hpj, slotNamed_page (slot_ne_mana hp)]
  constructor
  · rw [slotWritten_page hj (slot_ne_mana hj).symm]
    exact slotNamed_mana h.ready
  · intro i hi hi99
    cases i with
    | zero =>
      rw [List.getElem_cons_zero, List.length_cons, ← hlen]
      exact slotWritten_slot hj
    | succ i =>
      rw [List.length_cons] at hi
      have hslot : (fs.length + 1 - 1 - (i + 1)) % 99 = (fs.length - 1 - i) % 99 := by
        congr 1
        omega
      rw [List.getElem_cons_succ, List.length_cons, hslot,
        hpage _ (Nat.mod_lt _ (by decide)) (by omega)]
      exact h.slot i (by omega) (by omega)
  · intro j hlej hj99
    rw [List.length_cons] at hlej
    rw [hpage j hj99 (by omega)]
    exact h.blank j (by omega) hj99

end

/-- The run lemma. -/
theorem Session.parStore {buf1 : Mem} {len : Nat} {fs : List DataRam} {c : At45} {parIndexW : Nat}
    (run : Session buf1 len fs c parIndexW) :
    ParStore len fs c ∧ parIndexW = indexAfter fs.length := by
  induction run with
  | start => exact ⟨.start buf1 len, rfl⟩
  | write _ hlen step ih =>
    obtain ⟨hstore, hindex⟩ := ih
    rw [hindex] at step
    obtain ⟨ht, hvalue⟩ := (hstore.traces _).done step
    rw [List.length_cons, indexAfter_succ, ht]
    exact ⟨hstore.write hlen, congrArg Prod.fst hvalue⟩

/-- Every run goes on with a write. -/
theorem Session.next {buf1 : Mem} {len : Nat} {fs : List DataRam} {c : At45} {parIndexW : Nat}
    {f : DataRam} (run : Session buf1 len fs c parIndexW) (hlen : f.len = len) :
    Session buf1 len (f :: fs) (slotWritten c (fs.length % 99) f) (fs.length % 99 + 1) := by
  obtain ⟨hstore, hindex⟩ := run.parStore
  have step := hstore.traces f 6
  rw [← hindex] at step
  exact run.write hlen step

/-! ## What is delivered -/

theorem delivers_congr {c t : At45} (h : c.page = t.page) (len : Nat) (payload : List UInt8) :
    Delivers c len payload ↔ Delivers t len payload := by
  unfold Delivers flashReadSys At45.icReadPage
  rw [h]

theorem DataRam.payload_of_slot {f : DataRam} {m : Mem} {len : Nat} (h : 2 < len)
    (hslot : readBytes m 0 len = f.stored) :
    ValidSlot (readBytes m 0 len) ∧ (readBytes m 0 len).take (len - 2) = f.payload := by
  have hlen := congrArg List.length hslot
  rw [length_readBytes, f.length_stored] at hlen
  subst hlen
  rw [hslot]
  exact ⟨f.stored_valid h, f.take_stored h⟩

section
variable {len : Nat} {fs : List DataRam} {c : At45} {f : DataRam}

/-- After completed writes the last payload is delivered. -/
theorem ParStore.delivers (h : ParStore len (f :: fs) c) (hlen : 2 < len) :
    Delivers c len f.payload := by
  have hmana := h.mana
  rw [List.length_cons, indexAfter_succ] at hmana
  have hslot := h.slot 0 (Nat.succ_pos _) (by decide)
  rw [List.length_cons, Nat.add_sub_cancel, Nat.sub_zero, List.getElem_cons_zero] at hslot
  exact (delivers_iff hmana (Nat.mod_lt _ (by decide)) hlen _).mpr
    (DataRam.payload_of_slot hlen hslot)

/-- Between its two pages a write delivers what was in its slot: the payload of 99 writes
before, if there was one. -/
theorem ParStore.named_delivers_iff (h : ParStore len fs c) (hlen : 2 < len)
    (hle : len ≤ fPageSize) (payload : List UInt8) :
    Delivers (slotNamed c (fs.length % 99)) len payload ↔
      ∃ r, fs[98]? = some r ∧ r.payload = payload := by
  have hj : fs.length % 99 < 99 := Nat.mod_lt _ (by decide)
  rw [delivers_iff (slotNamed_mana h.ready) hj hlen, slotNamed_page (slot_ne_mana hj)]
  by_cases hturn : 98 < fs.length
  · have hslot := h.slot 98 hturn (by decide)
    rw [show (fs.length - 1 - 98) % 99 = fs.length % 99 by omega] at hslot
    obtain ⟨hvalid, htake⟩ := DataRam.payload_of_slot hlen hslot
    rw [htake, List.getElem?_eq_getElem hturn]
    simp [hvalid]
  · have hblank := h.blank (fs.length % 99) (by omega) hj
    rw [hblank, List.getElem?_eq_none (by omega)]
    simp [not_validSlot_blank hlen hle]

end

/-- **The parameter store.** Without a loss of power the last payload is delivered. After
a write that is cut, that payload or the one being written is delivered exactly if the
cut is not between the two pages, or the slot holds one of the two from 99 writes ago. -/
theorem par_store_iff {buf1 : Mem} {len parIndexW : Nat} {f : DataRam} {fs : List DataRam}
    {c : At45} (hlen : 2 < len) (hle : len ≤ fPageSize)
    (run : Session buf1 len (f :: fs) c parIndexW) :
    Delivers c len f.payload ∧
      ∀ (g : DataRam) (n : Nat) (t : At45), g.len = len →
        flashWriteSys parIndexW g c n = (t, none) →
        (Delivers t len f.payload ∨ Delivers t len g.payload ↔
          (n < 2 ∨ 4 < n) ∨
            ∃ r, (f :: fs)[98]? = some r ∧ (r.payload = f.payload ∨ r.payload = g.payload)) := by
  obtain ⟨hstore, hindex⟩ := run.parStore
  have hlast := hstore.delivers hlen
  refine ⟨hlast, fun g n t hg hcut => ?_⟩
  rw [hindex] at hcut
  obtain ⟨hn, ht⟩ := ((hstore.traces g).cut_iff n).mp hcut
  have hnew := (hstore.write hg).delivers hlen
  have hnamed := hstore.named_delivers_iff hlen hle
  rw [ht]
  have hbetween : (Delivers (slotNamed c ((f :: fs).length % 99)) len f.payload ∨
        Delivers (slotNamed c ((f :: fs).length % 99)) len g.payload) ↔
      ∃ r, (f :: fs)[98]? = some r ∧ (r.payload = f.payload ∨ r.payload = g.payload) := by
    rw [hnamed, hnamed]
    constructor
    · rintro (⟨r, hr, hp⟩ | ⟨r, hr, hp⟩)
      · exact ⟨r, hr, Or.inl hp⟩
      · exact ⟨r, hr, Or.inr hp⟩
    · rintro ⟨r, hr, hp | hp⟩
      · exact Or.inl ⟨r, hr, hp⟩
      · exact Or.inr ⟨r, hr, hp⟩
  have hbuffered : Delivers (flagsBuffered c ((f :: fs).length % 99)) len f.payload := by
    have hpage : (flagsBuffered c ((f :: fs).length % 99)).page = c.page := by
      simp only [flagsBuffered, At45.icWriteBuf1]
    exact (delivers_congr hpage _ _).mpr hlast
  -- one case for each number of operations that were performed
  have hn6 : n < 6 := hn
  interval_cases n
  · exact iff_of_true (Or.inl hlast) (Or.inl (Or.inl (by decide)))
  · exact iff_of_true (Or.inl hbuffered) (Or.inl (Or.inl (by decide)))
  · refine Iff.trans hbetween ⟨Or.inr, fun h => h.resolve_left (by decide)⟩
  · refine Iff.trans hbetween ⟨Or.inr, fun h => h.resolve_left (by decide)⟩
  · refine Iff.trans ?_ (Iff.trans hbetween ⟨Or.inr, fun h => h.resolve_left (by decide)⟩)
    exact or_congr (delivers_congr rfl _ _) (delivers_congr rfl _ _)
  · exact iff_of_true (Or.inr hnew) (Or.inl (Or.inr (by decide)))

/-- A payload of one byte. -/
def oneByte (b : UInt8) : DataRam := ⟨3, fun _ => b⟩

/-- The chip after one write. -/
def onceWritten : At45 := slotWritten (.erased fun _ => 0) 0 (oneByte 7)

theorem onceWritten_session : Session (fun _ => 0) 3 [oneByte 7] onceWritten 1 :=
  Session.start.next rfl

theorem par_store_once :
    Delivers onceWritten 3 (oneByte 7).payload ∧
      ∀ (g : DataRam) (n : Nat) (t : At45), g.len = 3 →
        flashWriteSys 1 g onceWritten n = (t, none) →
        (Delivers t 3 (oneByte 7).payload ∨ Delivers t 3 g.payload ↔
          (n < 2 ∨ 4 < n) ∨ ∃ r, [oneByte 7][98]? = some r ∧
            (r.payload = (oneByte 7).payload ∨ r.payload = g.payload)) :=
  par_store_iff (by decide) (by decide) onceWritten_session

/-- A second write, cut when the management page is programmed, loses both payloads: the
reader goes to a slot that was never written. -/
theorem second_write_loses_first :
    ∃ (c t : At45) (parIndexW n : Nat),
      Session (fun _ => 0) 3 [oneByte 7] c parIndexW ∧
        flashWriteSys parIndexW (oneByte 9) c n = (t, none) ∧
        ¬ Delivers t 3 (oneByte 7).payload ∧ ¬ Delivers t 3 (oneByte 9).payload := by
  have hstore := onceWritten_session.parStore.1
  have hcut := ((hstore.traces (oneByte 9)).cut_iff 2).mpr ⟨show 2 < 6 by decide, rfl⟩
  have hnone : ∀ payload, ¬ Delivers (slotNamed onceWritten 1) 3 payload := by
    intro payload hd
    obtain ⟨r, hr, -⟩ :=
      (hstore.named_delivers_iff (by decide) (by decide) payload).mp hd
    exact absurd hr (by simp)
  exact ⟨_, _, 1, 2, onceWritten_session, hcut, hnone _, hnone _⟩

end SC04Monitor.Record
