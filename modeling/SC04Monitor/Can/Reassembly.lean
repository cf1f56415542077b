import SC04Monitor.Can.RxEntry

/-! # Reassembly of received messages

`MsgRx_Deal` stores a fragment straight into the buffer that
`CycleMsgUpdate_data` copies out, at an address computed from the packet number
alone, and trusts a byte counter that all entries share. So a copy is a whole
message exactly as far as the frames of the entry end with one when it is made,
and no fragment has been stored outside its own entry. `Assembled` is the
invariant: the fragments in order at the end of an entry's frames are what its
buffer begins with. -/

namespace SC04Monitor.Can
open SC04Monitor.Lib.ByteMem SC04Monitor.UserApp

/-- What happens to the receive side of `can`. -/
inductive RxEvent
  | frame (p : CanRx)
  | update

def rxStep (s : CanApp) : RxEvent → CanApp
  | .frame p => msgRxManage stdMsgTable s p
  | .update => cycleMsgUpdateData stdMsgTable s

def rxRun (s₀ : CanApp) (evs : List RxEvent) : CanApp := evs.foldl rxStep s₀

def RxEvent.frame? : RxEvent → Option CanRx
  | .frame p => some p
  | .update => none

/-- The frames handled for an entry, in order. -/
def own (r : RxEntry) (evs : List RxEvent) : List CanRx :=
  (evs.filterMap RxEvent.frame?).filter fun p => decide (r.Accepts p)

/-- Fragments `0`, `1`, ... in order, all of full length. -/
def Fragments (l : List CanRx) : Prop :=
  l.map (fun p => packetID p.extId) = List.range l.length ∧ ∀ p ∈ l, p.dlc = 8

/-- The data fields of some frames, one behind the other. -/
def dataOf (l : List CanRx) : List UInt8 := l.flatMap CanRx.payload

/-- `l` is one whole message of the entry. -/
def IsMessage (r : RxEntry) (l : List CanRx) : Prop := l.length = r.fragments ∧ Fragments l

/-- The area of the entry in `AppBuf` holds its initial value or the data of one
message, whose fragments the entry received one after the other. -/
def Sound (s₀ : CanApp) (evs : List RxEvent) (r : RxEntry) : Prop :=
  readBytes (rxRun s₀ evs).ram (appBuf r.field) r.field.size =
      readBytes s₀.ram (appBuf r.field) r.field.size ∨
    ∃ l, l <:+: own r evs ∧ IsMessage r l ∧
      readBytes (rxRun s₀ evs).ram (appBuf r.field) r.field.size = dataOf l

/-! ## The condition -/

/-- The bytes of the frame go into the receive buffer of its own entry, if they
go into the buffers of any. -/
def Contained (p : CanRx) : Prop :=
  ∀ r' : RxEntry, r'.Accepts p → ∀ r : RxEntry,
    Apart (fragmentAddr r' p) p.dlc (appBuf r.field) r.field.size ∧
      (r ≠ r' → Apart (fragmentAddr r' p) p.dlc (canBuf r.field) r.field.size)

/-- Whenever the update finds the flag of an entry set, the frames handled for it
end with a whole message. -/
def CopiesWhole (s : CanApp) (evs : List RxEvent) : Prop :=
  ∀ r : RxEntry, s.update r.frame = true → ∃ l, l <:+ own r evs ∧ IsMessage r l

def StepOk (s₀ : CanApp) (evs : List RxEvent) : RxEvent → Prop
  | .frame p => Contained p
  | .update => CopiesWhole (rxRun s₀ evs) evs

/-- Every step of the run meets the condition. -/
def RunOk (s₀ : CanApp) (evs : List RxEvent) : Prop :=
  ∀ pre e post, evs = pre ++ e :: post → StepOk s₀ pre e

theorem runOk_nil (s₀ : CanApp) : RunOk s₀ [] := by
  intro pre e post h
  simp at h

theorem runOk_concat {s₀ : CanApp} {evs : List RxEvent} {e : RxEvent} :
    RunOk s₀ (evs ++ [e]) ↔ RunOk s₀ evs ∧ StepOk s₀ evs e := by
  constructor
  · intro h
    exact ⟨fun pre e' post he => h pre e' (post ++ [e]) (by simp [he]), h evs e [] rfl⟩
  · rintro ⟨hrun, hstep⟩ pre e' post he
    rcases List.eq_nil_or_concat post with rfl | ⟨post', x, rfl⟩
    · obtain ⟨rfl, hlast⟩ := List.append_inj' he rfl
      rw [← List.head_eq_of_cons_eq hlast]
      exact hstep
    · rw [List.concat_eq_append, ← List.cons_append, ← List.append_assoc] at he
      exact hrun pre e' post' (List.append_inj' he rfl).1

/-- A fragment with a packet number of its message stays in its own entry. -/
theorem contained_of_packet {r : RxEntry} {p : CanRx} (h : r.Accepts p)
    (hlt : packetID p.extId < r.fragments) : Contained p := by
  intro r' hr' r''
  obtain rfl := RxEntry.accepts_unique h hr'
  have hsize := r.size_eq
  have hdlc := p.dlc_le
  have happ := canBuf_appBuf_apart r.field r''.field
  unfold fragmentAddr
  refine ⟨?_, fun hne => ?_⟩
  · unfold Apart at *
    omega
  · have hcan := canBuf_apart (f := r.field) (g := r''.field)
      fun he => hne (RxEntry.field_injective he).symm
    unfold Apart at *
    omega

/-! ## Histories -/

theorem rxRun_concat (s₀ : CanApp) (evs : List RxEvent) (e : RxEvent) :
    rxRun s₀ (evs ++ [e]) = rxStep (rxRun s₀ evs) e := by
  simp [rxRun]

theorem own_update (r : RxEntry) (evs : List RxEvent) : own r (evs ++ [.update]) = own r evs := by
  simp [own, RxEvent.frame?]

theorem own_frame (r : RxEntry) (evs : List RxEvent) (p : CanRx) :
    own r (evs ++ [.frame p]) = if r.Accepts p then own r evs ++ [p] else own r evs := by
  unfold own
  rw [List.filterMap_append, List.filter_append]
  by_cases h : r.Accepts p <;> simp [RxEvent.frame?, h]

theorem own_stretch (r : RxEntry) (evs : List RxEvent) (e : RxEvent) :
    own r evs <+: own r (evs ++ [e]) := by
  cases e with
  | update => rw [own_update]
  | frame p =>
    rw [own_frame]
    split_ifs
    · exact List.prefix_append _ _
    · exact List.prefix_rfl

theorem fragments_concat {l : List CanRx} {p : CanRx} :
    Fragments (l ++ [p]) ↔ Fragments l ∧ packetID p.extId = l.length ∧ p.dlc = 8 := by
  unfold Fragments
  rw [List.map_append, List.length_append, List.length_singleton, List.range_succ,
    List.map_singleton]
  constructor
  · rintro ⟨hid, hlen⟩
    obtain ⟨hl, hp⟩ := List.append_inj hid (by simp)
    refine ⟨⟨hl, fun q hq => hlen q (by simp [hq])⟩, by simpa using hp, hlen p (by simp)⟩
  · rintro ⟨⟨hl, hlen⟩, hp, hdlc⟩
    refine ⟨by rw [hl, hp], fun q hq => ?_⟩
    rcases List.mem_append.mp hq with hq | hq
    · exact hlen q hq
    · rw [List.mem_singleton.mp hq]
      exact hdlc

theorem dataOf_concat (l : List CanRx) (p : CanRx) : dataOf (l ++ [p]) = dataOf l ++ p.payload := by
  simp [dataOf]

/-! ## What a frame does to the buffers -/

section
variable {s : CanApp} {p : CanRx} {r : RxEntry}

theorem rxFrame_own (h : r.Accepts p) :
    (msgRxManage stdMsgTable s p).ram = writeBytes s.ram (fragmentAddr r p) p.payload := by
  have hc := congrArg Prod.fst (msgRxManage_accepted (s := s) h)
  simp only [core] at hc
  rw [hc, msgRxDeal_ram]

/-- A range that no accepting entry writes to is left alone. -/
theorem rxFrame_frame {a n : Nat}
    (h : ∀ r' : RxEntry, r'.Accepts p → Apart (fragmentAddr r' p) p.dlc a n) :
    readBytes (msgRxManage stdMsgTable s p).ram a n = readBytes s.ram a n := by
  by_cases hacc : ∃ r' : RxEntry, r'.Accepts p
  · obtain ⟨r', hr'⟩ := hacc
    rw [rxFrame_own hr', readBytes_writeBytes_frame]
    rw [CanRx.length_payload]
    exact h r' hr'
  · have hc := congrArg Prod.fst (msgRxManage_rejected (s := s) (not_exists.mp hacc))
    simp only [core] at hc
    rw [hc]

theorem rxFrame_appBuf (h : Contained p) :
    readBytes (msgRxManage stdMsgTable s p).ram (appBuf r.field) r.field.size =
      readBytes s.ram (appBuf r.field) r.field.size :=
  rxFrame_frame fun r' hr' => (h r' hr' r).1

theorem rxFrame_canBuf (h : Contained p) (hr : ¬ r.Accepts p) :
    readBytes (msgRxManage stdMsgTable s p).ram (canBuf r.field) r.field.size =
      readBytes s.ram (canBuf r.field) r.field.size := by
  refine rxFrame_frame fun r' hr' => (h r' hr' r).2 ?_
  rintro rfl
  exact hr hr'

end

/-! ## The invariant -/

/-- The receive buffer of the entry begins with the fragments that its frames
end with. -/
def Assembled (s : CanApp) (r : RxEntry) (frames : List CanRx) : Prop :=
  ∀ l, l <:+ frames → Fragments l → l.length ≤ r.fragments →
    readBytes s.ram (canBuf r.field) (8 * l.length) = dataOf l

theorem Assembled.congr {s s' : CanApp} {r : RxEntry} {frames : List CanRx}
    (h : Assembled s r frames)
    (heq : readBytes s'.ram (canBuf r.field) r.field.size =
      readBytes s.ram (canBuf r.field) r.field.size) : Assembled s' r frames := by
  intro l hl hf hlen
  rw [← h l hl hf hlen]
  refine readBytes_shorter heq ?_
  rw [r.size_eq]
  omega

/-- The entry's own fragment: behind the fragments in order it is stored where
they end. -/
theorem Assembled.frame {s : CanApp} {r : RxEntry} {frames : List CanRx} {p : CanRx}
    (h : Assembled s r frames) (hp : r.Accepts p) :
    Assembled (msgRxManage stdMsgTable s p) r (frames ++ [p]) := by
  intro l hl hf hlen
  rcases List.suffix_concat_iff.mp hl with rfl | ⟨t, rfl, ht⟩
  · rfl
  obtain ⟨hft, hid, hdlc⟩ := fragments_concat.mp hf
  rw [List.length_append, List.length_singleton] at hlen ⊢
  have haddr : fragmentAddr r p = canBuf r.field + 8 * t.length := by
    unfold fragmentAddr
    omega
  have hfirst : readBytes (msgRxManage stdMsgTable s p).ram (canBuf r.field) (8 * t.length) =
      dataOf t := by
    rw [rxFrame_own hp, readBytes_writeBytes_frame, h t ht hft (by omega)]
    unfold Apart
    omega
  have hlast : readBytes (msgRxManage stdMsgTable s p).ram (canBuf r.field + 8 * t.length) 8 =
      p.payload := by
    have hw := readBytes_writeBytes s.ram (fragmentAddr r p) p.payload
    rw [CanRx.length_payload, hdlc, haddr] at hw
    rw [rxFrame_own hp, haddr, hw]
  rw [Nat.mul_add, Nat.mul_one, readBytes_add, hfirst, hlast, dataOf_concat]

theorem assembled_of_run {s₀ : CanApp} {evs : List RxEvent} (h : RunOk s₀ evs) (r : RxEntry) :
    Assembled (rxRun s₀ evs) r (own r evs) := by
  induction evs using List.reverseRecOn with
  | nil =>
    intro l hl _ _
    rw [List.suffix_nil.mp hl]
    rfl
  | append_singleton evs e ih =>
    obtain ⟨hrun, hok⟩ := runOk_concat.mp h
    have hprev := ih hrun
    rw [rxRun_concat]
    cases e with
    | update =>
      have hview := congrArg (fun v => v.2.1) (cycleMsgUpdateData_view r (rxRun s₀ evs))
      rw [own_update]
      exact hprev.congr hview
    | frame p =>
      rw [own_frame]
      by_cases hp : r.Accepts p
      · rw [if_pos hp]
        exact hprev.frame hp
      · rw [if_neg hp]
        exact hprev.congr (rxFrame_canBuf hok hp)

theorem Sound.mono {s₀ : CanApp} {evs : List RxEvent} {e : RxEvent} {r : RxEntry}
    (h : Sound s₀ evs r)
    (heq : readBytes (rxStep (rxRun s₀ evs) e).ram (appBuf r.field) r.field.size =
      readBytes (rxRun s₀ evs).ram (appBuf r.field) r.field.size) :
    Sound s₀ (evs ++ [e]) r := by
  unfold Sound
  rw [rxRun_concat, heq]
  rcases h with h | ⟨l, hl, hm, hdata⟩
  · exact .inl h
  · exact .inr ⟨l, hl.trans (own_stretch r evs e).isInfix, hm, hdata⟩

/-- **Reassembly is sound.** In every run whose frames are stored inside their
own entry, and whose updates copy an entry only when its frames end with a whole
message, every `AppBuf` area holds its initial value or one whole message. -/
theorem reassembly_sound (s₀ : CanApp) (evs : List RxEvent) (h : RunOk s₀ evs) (r : RxEntry) :
    Sound s₀ evs r := by
  induction evs using List.reverseRecOn with
  | nil => exact .inl rfl
  | append_singleton evs e ih =>
    obtain ⟨hrun, hok⟩ := runOk_concat.mp h
    have hprev := ih hrun
    cases e with
    | frame p => exact hprev.mono (rxFrame_appBuf hok)
    | update =>
      have hview := congrArg Prod.fst (cycleMsgUpdateData_view r (rxRun s₀ evs))
      by_cases hflag : (rxRun s₀ evs).update r.frame = true
      · -- the copy takes what the frames of the entry end with
        obtain ⟨l, hl, hlen, hf⟩ := hok r hflag
        have hbytes := assembled_of_run hrun r l hl hf (by omega)
        rw [hlen, ← r.size_eq] at hbytes
        refine .inr ⟨l, ?_, ⟨hlen, hf⟩, ?_⟩
        · rw [own_update]
          exact hl.isInfix
        · rw [rxRun_concat, ← hbytes]
          exact hview.trans (if_pos hflag)
      · exact hprev.mono (hview.trans (if_neg hflag))

/-- A full status fragment of module `k`, all of whose bytes are `b`. -/
def statusFrame (k : ModuleId) (packet : Nat) (b : UInt8) : CanRx :=
  .full port1 (packet * 2 ^ 4 + canIdC k * 2 ^ 9 + canIdM1CX * 2 ^ 16 + canFuncSPoll * 2 ^ 21)
    (.replicate 8 b)

theorem statusFrame_accepts (k : ModuleId) {packet : Nat} (h : packet < 32) (b : UInt8) :
    (RxEntry.status k).Accepts (statusFrame k packet b) ∧
      packetID (statusFrame k packet b).extId = packet := by
  simp only [RxEntry.Accepts, RxEntry.port, RxEntry.src, RxEntry.dest, RxEntry.func, statusFrame,
    CanRx.full, packetID, sourceID, sinkID, funcID, canIdC, canIdM1CX, canFuncSPoll]
  refine ⟨⟨trivial, ?_, ?_, ?_⟩, ?_⟩ <;> omega

/-- One status message of module 1 and an update. -/
def wholeRun : List RxEvent :=
  [.frame (statusFrame 0 0 1), .frame (statusFrame 0 1 2), .frame (statusFrame 0 2 3), .update]

theorem wholeRun_ok : RunOk .init wholeRun := by
  have hframe : ∀ n < 3, ∀ b, Contained (statusFrame 0 n b) := by
    intro n hn b
    obtain ⟨hacc, hid⟩ := statusFrame_accepts 0 (show n < 32 by omega) b
    exact contained_of_packet hacc (by rw [hid]; exact hn)
  have hcopy : CopiesWhole (rxRun .init (wholeRun.take 3)) (wholeRun.take 3) := by
    intro r hr
    match r, hr with
    | .status 0, _ =>
      refine ⟨_, List.suffix_rfl, by decide, by decide, ?_⟩
      decide
    | .status 1, h | .status 2, h | .status 3, h | .status 4, h => exact absurd h (by decide)
    | .para 0, h | .para 1, h | .para 2, h | .para 3, h | .para 4, h => exact absurd h (by decide)
    | .ad, h => exact absurd h (by decide)
  show RunOk .init (((([] ++ [_]) ++ [_]) ++ [_]) ++ [_])
  rw [runOk_concat, runOk_concat, runOk_concat, runOk_concat]
  exact ⟨⟨⟨⟨runOk_nil _, hframe 0 (by omega) 1⟩, hframe 1 (by omega) 2⟩, hframe 2 (by omega) 3⟩,
    hcopy⟩

theorem reassembly_sound_whole :
    RunOk .init wholeRun ∧ ∀ r, Sound .init wholeRun r :=
  ⟨wholeRun_ok, reassembly_sound .init wholeRun wholeRun_ok⟩

/-- A fragment of module 2 stands in for the one of module 1 that got lost: the
shared counter makes up the length of the message. -/
def tornRun : List RxEvent :=
  [.frame (statusFrame 0 0 1), .frame (statusFrame 1 1 2), .frame (statusFrame 0 2 3), .update]

theorem reassembly_torn : ¬ Sound .init tornRun (.status 0) := by
  intro h
  rcases h with h | ⟨l, hl, ⟨hlen, _⟩, _⟩
  · revert h
    decide
  · have hle := hl.length_le
    have hown : (own (.status 0) tornRun).length = 2 := by decide
    rw [hlen, hown] at hle
    revert hle
    decide

end SC04Monitor.Can
