import SC04Monitor.Can.CanApp

/-! # The receive entries of the message table

The eleven entries of direction `CAN_RX_DIRC` by name, what a frame does to the
object `can` when one of them accepts it, and what `CycleMsgUpdate_data` does to
their two buffers. -/

namespace SC04Monitor.Can
open SC04Monitor.Lib.ByteMem SC04Monitor.Lib.Scan SC04Monitor.UserApp

/-- The receive entries: status and parameters of a module, and the AD board. -/
inductive RxEntry
  | status (k : ModuleId)
  | para (k : ModuleId)
  | ad
  deriving DecidableEq

namespace RxEntry

def frame : RxEntry → FrameId
  | status k => ⟨31 + k, by unfold canStdFrameNum; omega⟩
  | para k => ⟨36 + k, by unfold canStdFrameNum; omega⟩
  | ad => ⟨41, by decide⟩

def field : RxEntry → Field
  | status k => .status k
  | para k => .para k
  | ad => .adRxChnn

/-- The number of fragments of a message. -/
def fragments : RxEntry → Nat
  | status _ | para _ => 3
  | ad => 2

def port : RxEntry → Nat
  | status _ | para _ => port1
  | ad => port2

def src : RxEntry → Nat
  | status k | para k => canIdC k
  | ad => canIdAD

def dest : RxEntry → Nat
  | status _ | para _ => canIdM1CX
  | ad => canIdM1

def func : RxEntry → Nat
  | status _ => canFuncSPoll
  | para _ => canFuncPPoll
  | ad => canFuncADPoll

-- for the literals of a node
instance neZero_nodes : @NeZero Nat Zero.ofOfNat0 6 := ⟨Nat.succ_ne_zero 5⟩

/-- The number of the node in `CanFltCnt`. -/
def node : RxEntry → Fin 6
  | status k | para k => k.castSucc
  | ad => 5

/-- The rows of the table that receive. -/
theorem table_row : ∀ r : RxEntry, stdMsgTable r.frame =
    row r.port .rx r.dest r.src r.func r.field.size 0 r.field
  | status 0 | status 1 | status 2 | status 3 | status 4 => rfl
  | para 0 | para 1 | para 2 | para 3 | para 4 => rfl
  | ad => rfl

theorem frame_injective {r r' : RxEntry} (h : r.frame = r'.frame) : r = r' := by
  have hv := congrArg Fin.val h
  cases r <;> cases r' <;> simp only [frame] at hv
  case status.status k k' => rw [Fin.ext (show k.val = k'.val by omega)]
  case para.para k k' => rw [Fin.ext (show k.val = k'.val by omega)]
  case ad.ad => rfl
  all_goals omega

theorem field_injective {r r' : RxEntry} (h : r.field = r'.field) : r = r' := by
  cases r <;> cases r' <;> simp_all [field]

theorem exists_of_rx {f : FrameId} (h : (stdMsgTable f).direction = .rx) : ∃ r : RxEntry, r.frame = f := by
  have hge : ∀ f : FrameId, (stdMsgTable f).direction = .rx → 31 ≤ f.val := by decide
  have hlt := f.isLt
  unfold canStdFrameNum at hlt
  have hle := hge f h
  by_cases hs : f.val < 36
  · exact ⟨status ⟨f.val - 31, by omega⟩, Fin.ext (show 31 + (f.val - 31) = f.val by omega)⟩
  by_cases hp : f.val < 41
  · exact ⟨para ⟨f.val - 36, by omega⟩, Fin.ext (show 36 + (f.val - 36) = f.val by omega)⟩
  · exact ⟨ad, Fin.ext (show 41 = f.val by omega)⟩

theorem size_eq (r : RxEntry) : r.field.size = 8 * r.fragments := by
  cases r <;> rfl

theorem fragments_pos (r : RxEntry) : 0 < r.fragments := by
  cases r <;> simp [fragments]

theorem lastPacket_eq (r : RxEntry) : lastPacket (stdMsgTable r.frame) = r.fragments - 1 := by
  rw [table_row]
  cases r <;> simp [lastPacket, row, field, Field.size, fragments]

/-! ## Acceptance -/

/-- The frame belongs to the entry. -/
def Accepts (r : RxEntry) (p : CanRx) : Prop :=
  p.canPort = r.port ∧ sourceID p.extId = r.src ∧ sinkID p.extId = r.dest ∧ funcID p.extId = r.func

instance (r : RxEntry) (p : CanRx) : Decidable (r.Accepts p) :=
  inferInstanceAs (Decidable (_ ∧ _ ∧ _ ∧ _))

theorem accepts_iff (r : RxEntry) (p : CanRx) :
    accepts (stdMsgTable r.frame) p = true ↔ r.Accepts p := by
  rw [table_row]
  simp only [accepts, row, Bool.and_eq_true, decide_eq_true_eq, and_true, true_and, Accepts]
  constructor
  · rintro ⟨⟨⟨hport, hsrc⟩, hdest⟩, hfunc⟩
    exact ⟨hport.symm, hsrc.symm, hdest.symm, hfunc.symm⟩
  · rintro ⟨hport, hsrc, hdest, hfunc⟩
    exact ⟨⟨⟨hport.symm, hsrc.symm⟩, hdest.symm⟩, hfunc.symm⟩

/-- A frame belongs to one entry at most: source and function tell it. -/
theorem accepts_unique {r r' : RxEntry} {p : CanRx} (h : r.Accepts p) (h' : r'.Accepts p) :
    r = r' := by
  obtain ⟨-, hsrc, -, hfunc⟩ := h
  obtain ⟨-, hsrc', -, hfunc'⟩ := h'
  have hs := hsrc.symm.trans hsrc'
  have hf := hfunc.symm.trans hfunc'
  cases r <;> cases r' <;> simp only [src, func, canIdC, canIdAD, canFuncSPoll, canFuncPPoll,
    canFuncADPoll] at hs hf
  case status.status k k' => rw [Fin.ext (show k.val = k'.val by omega)]
  case para.para k k' => rw [Fin.ext (show k.val = k'.val by omega)]
  case ad.ad => rfl
  all_goals omega

theorem accepts_frame {f : FrameId} {p : CanRx} (h : accepts (stdMsgTable f) p = true) :
    ∃ r : RxEntry, r.frame = f ∧ r.Accepts p := by
  have hdir : (stdMsgTable f).direction = .rx := by
    simp only [accepts, Bool.and_eq_true, decide_eq_true_eq] at h
    exact h.1.1.1.1.1
  obtain ⟨r, rfl⟩ := exists_of_rx hdir
  exact ⟨r, rfl, (accepts_iff r p).mp h⟩

/-- The receive entries of the table. -/
def all : List RxEntry :=
  (List.finRange 5).map status ++ (List.finRange 5).map para ++ [ad]

theorem mem_all (r : RxEntry) : r ∈ all := by
  cases r <;> simp [all]

end RxEntry

/-- The frame belongs to an entry with the property `P`. -/
def belongs (P : RxEntry → Bool) (p : CanRx) : Bool :=
  RxEntry.all.any fun r => decide (r.Accepts p) && P r

theorem belongs_iff {P : RxEntry → Bool} {p : CanRx} :
    belongs P p = true ↔ ∃ r : RxEntry, r.Accepts p ∧ P r = true := by
  unfold belongs
  rw [List.any_eq_true]
  constructor
  · rintro ⟨r, _, h⟩
    rw [Bool.and_eq_true, decide_eq_true_eq] at h
    exact ⟨r, h⟩
  · rintro ⟨r, hacc, hr⟩
    exact ⟨r, r.mem_all, by rw [decide_eq_true hacc, hr]; rfl⟩

theorem belongs_of_accepts {P : RxEntry → Bool} {p : CanRx} {r : RxEntry} (h : r.Accepts p) :
    belongs P p = P r := by
  rw [Bool.eq_iff_iff, belongs_iff]
  constructor
  · rintro ⟨r', hacc, hr'⟩
    rwa [RxEntry.accepts_unique h hacc]
  · exact fun hr => ⟨r, h, hr⟩

theorem belongs_of_rejects {P : RxEntry → Bool} {p : CanRx} (h : ∀ r : RxEntry, ¬ r.Accepts p) :
    belongs P p = false := by
  by_contra hcon
  obtain ⟨r, hacc, _⟩ := belongs_iff.mp (by simpa using hcon)
  exact h r hacc

/-- A frame of a node. -/
def fromNode (k : Fin 6) (p : CanRx) : Bool := belongs (fun r => r.node = k) p

/-- A PORT1 frame that matches an entry. -/
def matchesPort1 (p : CanRx) : Bool := belongs (fun r => r.port = port1) p

/-! ## One frame -/

/-- What the scans of `MsgRx_Manage` do besides the callback: the frame's node is
alive, and on PORT1 so is the bus. -/
def markAlive (r : RxEntry) (s : CanApp) : CanApp :=
  { s with
    canCnt := if r.port = port1 then 0 else s.canCnt
    canFltCnt := Function.update s.canFltCnt r.node 0 }

theorem nodeOf_canIdC : ∀ k : ModuleId, nodeOf (canIdC k) = some k.castSucc := by decide

/-- A frame that belongs to an entry is dealt with once, for that entry. -/
theorem msgRxManage_eq {p : CanRx} {r : RxEntry} (h : r.Accepts p) (s : CanApp) :
    msgRxManage stdMsgTable s p = markAlive r (msgRxDeal stdMsgTable s p r.frame) := by
  have hacc := (r.accepts_iff p).mpr h
  have hother : ∀ f, f ≠ r.frame → accepts (stdMsgTable f) p = false := by
    intro f hf
    by_contra hcon
    obtain ⟨r', rfl, hr'⟩ := RxEntry.accepts_frame (by simpa using hcon)
    exact hf (congrArg RxEntry.frame (RxEntry.accepts_unique hr' h))
  have hsrc : (stdMsgTable r.frame).src = r.src := by
    rw [r.table_row]
    rfl
  unfold msgRxManage
  by_cases hport : p.canPort = port1
  · rw [if_pos hport, scan_single (a := r.frame) (List.nodup_finRange _) (List.mem_finRange _)
      fun f _ hf t => by simp [msgRxPort1, hother f hf]]
    have hport' : r.port = port1 := h.1.symm.trans hport
    unfold msgRxPort1
    rw [if_pos hacc, hsrc]
    cases r with
    | status k | para k =>
      simp [markAlive, hport', RxEntry.src, nodeOf_canIdC, resetNode, RxEntry.node]
    | ad => cases hport'
  · cases r with
    | status k | para k => exact absurd h.1 hport
    | ad =>
      have hport2 : p.canPort = port2 := h.1
      rw [if_neg hport, if_pos hport2, List.foldl_cons, List.foldl_nil,
        show (Fin.last 41 : FrameId) = RxEntry.ad.frame from rfl]
      unfold msgRxPort2
      rw [if_pos hacc, hsrc]
      simp [markAlive, RxEntry.src, RxEntry.port, port1, port2, resetNode, RxEntry.node]

/-- A frame that belongs to no entry changes nothing. -/
theorem msgRxManage_none {p : CanRx} (h : ∀ r : RxEntry, ¬ r.Accepts p) (s : CanApp) :
    msgRxManage stdMsgTable s p = s := by
  have hnone : ∀ f, accepts (stdMsgTable f) p = false := by
    intro f
    by_contra hcon
    obtain ⟨r, _, hr⟩ := RxEntry.accepts_frame (by simpa using hcon)
    exact h r hr
  unfold msgRxManage
  split_ifs
  · exact scan_none (fun f _ t => by simp [msgRxPort1, hnone f]) s
  · exact scan_none (fun f _ t => by simp [msgRxPort2, hnone f]) s
  · rfl

/-- The part of the object `can` that reassembly works on. -/
def core (s : CanApp) : Mem × (FrameId → Bool) × Nat := (s.ram, s.update, s.dataLen)

theorem msgRxManage_accepted {s : CanApp} {p : CanRx} {r : RxEntry} (h : r.Accepts p) :
    core (msgRxManage stdMsgTable s p) = core (msgRxDeal stdMsgTable s p r.frame) := by
  rw [msgRxManage_eq h]
  rfl

theorem msgRxManage_rejected {s : CanApp} {p : CanRx} (h : ∀ r : RxEntry, ¬ r.Accepts p) :
    core (msgRxManage stdMsgTable s p) = core s := by
  rw [msgRxManage_none h]

theorem msgRxDeal_counters (s : CanApp) (p : CanRx) (f : FrameId) :
    (msgRxDeal stdMsgTable s p f).canCnt = s.canCnt ∧
      (msgRxDeal stdMsgTable s p f).canFltCnt = s.canFltCnt := by
  unfold msgRxDeal
  dsimp only
  split_ifs <;> exact ⟨rfl, rfl⟩

theorem msgRxManage_canCnt (s : CanApp) (p : CanRx) :
    (msgRxManage stdMsgTable s p).canCnt = if matchesPort1 p then 0 else s.canCnt := by
  unfold matchesPort1
  by_cases hex : ∃ r : RxEntry, r.Accepts p
  · obtain ⟨r, hr⟩ := hex
    rw [msgRxManage_eq hr, belongs_of_accepts hr]
    simp [markAlive, (msgRxDeal_counters s p r.frame).1]
  · have hnone := not_exists.mp hex
    rw [msgRxManage_none hnone, belongs_of_rejects hnone]
    rfl

theorem msgRxManage_canFltCnt (s : CanApp) (p : CanRx) (k : Fin 6) :
    (msgRxManage stdMsgTable s p).canFltCnt k = if fromNode k p then 0 else s.canFltCnt k := by
  unfold fromNode
  by_cases hex : ∃ r : RxEntry, r.Accepts p
  · obtain ⟨r, hr⟩ := hex
    rw [msgRxManage_eq hr, belongs_of_accepts hr]
    simp only [markAlive, (msgRxDeal_counters s p r.frame).2, decide_eq_true_eq]
    rcases eq_or_ne r.node k with rfl | hne
    · rw [Function.update_self, if_pos rfl]
    · rw [Function.update_of_ne hne.symm, if_neg hne]
  · have hnone := not_exists.mp hex
    rw [msgRxManage_none hnone, belongs_of_rejects hnone]
    rfl

/-- Where an entry stores a fragment. -/
def fragmentAddr (r : RxEntry) (p : CanRx) : Nat := canBuf r.field + packetID p.extId * 8

theorem msgRxDeal_ram (s : CanApp) (p : CanRx) (r : RxEntry) :
    (msgRxDeal stdMsgTable s p r.frame).ram = writeBytes s.ram (fragmentAddr r p) p.payload := by
  unfold msgRxDeal fragmentAddr
  rw [RxEntry.table_row]
  dsimp only
  split_ifs <;> rfl

/-- The byte counter when the frame has been counted. -/
def counted (s : CanApp) (p : CanRx) : Nat :=
  ((if packetID p.extId = 0 then 0 else s.dataLen) + p.dlc) % 2 ^ 16

/-- The frame is the last fragment of its message. -/
def LastFragment (r : RxEntry) (p : CanRx) : Prop := packetID p.extId + 1 = r.fragments

instance (r : RxEntry) (p : CanRx) : Decidable (LastFragment r p) :=
  inferInstanceAs (Decidable (_ = _))

theorem RxEntry.lastFragment_iff (r : RxEntry) (p : CanRx) :
    packetID p.extId = lastPacket (stdMsgTable r.frame) ↔ LastFragment r p := by
  have hpos := r.fragments_pos
  rw [r.lastPacket_eq]
  unfold LastFragment
  omega

theorem msgRxManage_dataLen {s : CanApp} {p : CanRx} {r : RxEntry} (h : r.Accepts p) :
    (msgRxManage stdMsgTable s p).dataLen = if LastFragment r p then 0 else counted s p := by
  have hc := congrArg (fun c => c.2.2) (msgRxManage_accepted (s := s) h)
  simp only [core] at hc
  rw [hc]
  unfold msgRxDeal counted
  simp only [r.lastFragment_iff]
  split_ifs <;> rfl

/-- Only the last fragment of a message sets a flag, if the counter agrees. -/
theorem msgRxManage_update {s : CanApp} {p : CanRx} {r : RxEntry} (h : r.Accepts p) :
    (msgRxManage stdMsgTable s p).update =
      if LastFragment r p ∧ counted s p = 8 * r.fragments then
        Function.update s.update r.frame true
      else s.update := by
  have hc := congrArg (fun c => c.2.1) (msgRxManage_accepted (s := s) h)
  have hlen : (stdMsgTable r.frame).len = 8 * r.fragments := by
    rw [r.table_row, ← r.size_eq]
    rfl
  simp only [core] at hc
  rw [hc]
  unfold msgRxDeal counted
  simp only [r.lastFragment_iff, hlen]
  by_cases hl : LastFragment r p
  · simp only [hl, if_true, true_and]
  · simp only [hl, if_false, false_and]

/-! ## The copies of `CycleMsgUpdate_data` -/

/-- The receive fields lie in the middle of the buffers, away from what is sent. -/
theorem RxEntry.field_bounds (r : RxEntry) :
    40 ≤ r.field.offset ∧ r.field.offset + r.field.size ≤ 416 := by
  cases r <;> simp only [RxEntry.field, Field.offset, Field.size] <;> omega

theorem tx_bounds : ∀ f : FrameId, (stdMsgTable f).direction = .tx →
    (stdMsgTable f).canBuffData + (stdMsgTable f).len ≤ 40 ∨
      416 ≤ (stdMsgTable f).canBuffData ∧
        (stdMsgTable f).canBuffData + (stdMsgTable f).len ≤ canBufSize := by decide

section
variable {s : CanApp} {f : FrameId}

theorem cycleStep_rx (h : (stdMsgTable f).direction = .rx) :
    cycleMsgUpdateStep stdMsgTable s f =
      if s.update f then
        { s with
          ram := copyBytes s.ram (stdMsgTable f).appBuffData (stdMsgTable f).canBuffData
            (stdMsgTable f).len
          update := Function.update s.update f false }
      else s := by
  simp only [cycleMsgUpdateStep, h]

theorem cycleStep_tx (h : (stdMsgTable f).direction = .tx) :
    cycleMsgUpdateStep stdMsgTable s f =
      { s with
        ram := copyBytes s.ram (stdMsgTable f).canBuffData (stdMsgTable f).appBuffData
          (stdMsgTable f).len } := by
  simp only [cycleMsgUpdateStep, h]

theorem cycleStep_zx (h : (stdMsgTable f).direction = .zx) :
    cycleMsgUpdateStep stdMsgTable s f = s := by
  simp only [cycleMsgUpdateStep, h]

end

/-- What the scan sees of an entry. -/
def entryView (r : RxEntry) (s : CanApp) : List UInt8 × List UInt8 × Bool :=
  (readBytes s.ram (appBuf r.field) r.field.size, readBytes s.ram (canBuf r.field) r.field.size,
    s.update r.frame)

theorem cycleStep_of_ne {r : RxEntry} {f : FrameId} (h : f ≠ r.frame) (s : CanApp) :
    entryView r (cycleMsgUpdateStep stdMsgTable s f) = entryView r s := by
  cases hdir : (stdMsgTable f).direction with
  | zx => rw [cycleStep_zx hdir]
  | rx =>
    obtain ⟨r', rfl⟩ := RxEntry.exists_of_rx hdir
    have hne : r'.field ≠ r.field := fun he => h (congrArg _ (RxEntry.field_injective he))
    rw [cycleStep_rx hdir, RxEntry.table_row]
    split_ifs
    · simp only [entryView, row]
      rw [readBytes_copyBytes_frame (appBuf_apart hne),
        readBytes_copyBytes_frame (canBuf_appBuf_apart r.field r'.field).symm,
        Function.update_of_ne h.symm]
    · rfl
  | tx =>
    have hb := tx_bounds f hdir
    have hr := r.field_bounds
    rw [cycleStep_tx hdir]
    simp only [entryView]
    rw [readBytes_copyBytes_frame, readBytes_copyBytes_frame]
    · unfold Apart canBuf
      omega
    · unfold Apart appBuf
      unfold canBufSize at *
      omega

/-- The update copies the receive buffer of an entry when its flag is set. -/
theorem cycleMsgUpdateData_view (r : RxEntry) (s : CanApp) :
    entryView r (cycleMsgUpdateData stdMsgTable s) =
      (if s.update r.frame then readBytes s.ram (canBuf r.field) r.field.size
        else readBytes s.ram (appBuf r.field) r.field.size,
        readBytes s.ram (canBuf r.field) r.field.size, false) := by
  obtain ⟨t, ht, he⟩ := @scan_at _ _ _ (cycleMsgUpdateStep stdMsgTable) (entryView r) _ _
    (List.nodup_finRange canStdFrameNum) (List.mem_finRange r.frame)
    (fun f _ hf s => cycleStep_of_ne hf s) s
  have hdir : (stdMsgTable r.frame).direction = .rx := by
    rw [RxEntry.table_row]
    rfl
  unfold cycleMsgUpdateData
  rw [he, cycleStep_rx hdir, RxEntry.table_row]
  simp only [entryView, Prod.mk.injEq] at ht
  obtain ⟨happ, hcan, hup⟩ := ht
  rw [← hup, ← happ, ← hcan]
  by_cases hflag : t.update r.frame = true
  · rw [if_pos hflag, if_pos hflag]
    simp only [entryView, row, readBytes_copyBytes, Function.update_self]
    rw [readBytes_copyBytes_frame (canBuf_appBuf_apart r.field r.field).symm]
  · rw [if_neg hflag, if_neg hflag]
    simp [entryView, hflag]

end SC04Monitor.Can
