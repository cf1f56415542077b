import SC04Monitor.Can.Reassembly
import SC04Monitor.Lib.SharedCounter

/-! # Interleaved senders

Complete messages of several senders, arbitrated frame by frame. The byte
counter of `MsgRx_Deal` is one for all entries, so the flags of all messages are
set exactly when no two messages are interleaved. The counter is the shared
counter of the library, eight bytes to a fragment. -/

namespace SC04Monitor.Can
open SC04Monitor.Lib.ByteMem SC04Monitor.Lib.SharedCounter SC04Monitor.UserApp

/-- A full fragment on the bus, with the entry that it belongs to. -/
structure Fragment where
  entry : RxEntry
  frame : CanRx
  accepts : entry.Accepts frame
  dlc_eq : frame.dlc = 8

namespace Fragment

def packet (x : Fragment) : Nat := packetID x.frame.extId

def event (x : Fragment) : RxEvent := .frame x.frame

end Fragment

/-- Every sender sends nothing or one complete message, its fragments in order. -/
def Messages (fs : List Fragment) : Prop :=
  Interleaved Fragment.entry Fragment.packet RxEntry.fragments fs

/-- The object `can` when some fragments have been handled. -/
def received (s₀ : CanApp) (fs : List Fragment) : CanApp := rxRun s₀ (fs.map Fragment.event)

/-- The fragments of one message. -/
def messageOf (r : RxEntry) (fs : List Fragment) : List CanRx :=
  (ofSender Fragment.entry r fs).map Fragment.frame

/-- Once the last fragment of a message has been handled, the flag of its entry
is set and the receive buffer of the entry holds the message. -/
def Delivered (s₀ : CanApp) (fs : List Fragment) : Prop :=
  ∀ pre x post, fs = pre ++ x :: post → LastFragment x.entry x.frame →
    (received s₀ (pre ++ [x])).update x.entry.frame = true ∧
      readBytes (received s₀ (pre ++ [x])).ram (canBuf x.entry.field) x.entry.field.size =
        dataOf (messageOf x.entry fs)

/-- No message is interleaved with another one. -/
def NotInterleaved (fs : List Fragment) : Prop := Contiguous Fragment.entry fs

/-! ## Histories -/

theorem own_events (r : RxEntry) (fs : List Fragment) :
    own r (fs.map Fragment.event) = messageOf r fs := by
  induction fs with
  | nil => rfl
  | cons x fs ih =>
    unfold messageOf own ofSender at *
    by_cases hx : x.entry = r
    · have hacc : r.Accepts x.frame := hx ▸ x.accepts
      simp [Fragment.event, RxEvent.frame?, hacc, hx] at ih ⊢
      exact ih
    · have hacc : ¬ r.Accepts x.frame := fun h => hx (RxEntry.accepts_unique x.accepts h)
      simp [Fragment.event, RxEvent.frame?, hacc, hx] at ih ⊢
      exact ih

theorem received_concat (s₀ : CanApp) (fs : List Fragment) (x : Fragment) :
    received s₀ (fs ++ [x]) = msgRxManage stdMsgTable (received s₀ fs) x.frame := by
  unfold received
  rw [List.map_append, List.map_singleton, rxRun_concat]
  rfl

section
variable {s₀ : CanApp} {fs : List Fragment}

/-- The packet numbers of a message stay below its number of fragments. -/
theorem Messages.packet_lt (h : Messages fs) {x : Fragment} (hx : x ∈ fs) :
    x.packet < x.entry.fragments := by
  have hmem : x ∈ ofSender Fragment.entry x.entry fs := mem_ofSender.mpr ⟨hx, rfl⟩
  rcases h x.entry with hnil | hmap
  · rw [hnil] at hmem
    simp at hmem
  · have hidx : x.packet ∈ List.range x.entry.fragments := by
      rw [← hmap]
      exact List.mem_map_of_mem hmem
    exact List.mem_range.mp hidx

theorem Messages.runOk (h : Messages fs) {pre post : List Fragment} (hfs : fs = pre ++ post) :
    RunOk s₀ (pre.map Fragment.event) := by
  induction pre using List.reverseRecOn generalizing post with
  | nil => exact runOk_nil s₀
  | append_singleton pre x ih =>
    rw [List.map_append, List.map_singleton, runOk_concat]
    refine ⟨ih (show fs = pre ++ x :: post by simp [hfs]), ?_⟩
    exact contained_of_packet x.accepts (h.packet_lt (by simp [hfs]))

/-- At its last fragment a message is in the receive buffer, whatever came in
between. -/
theorem Messages.bytes (h : Messages fs) {pre post : List Fragment} {x : Fragment}
    (hfs : fs = pre ++ x :: post) (hx : LastFragment x.entry x.frame) :
    readBytes (received s₀ (pre ++ [x])).ram (canBuf x.entry.field) x.entry.field.size =
      dataOf (messageOf x.entry fs) := by
  obtain ⟨hmap, hidx, hpost⟩ := ofSender_of_last h hfs hx
  have hown : ofSender Fragment.entry x.entry fs =
      ofSender Fragment.entry x.entry (pre ++ [x]) := by
    rw [hfs, ofSender_append, ofSender_append, ofSender_cons_self, hpost, ofSender_cons_self]
    rfl
  have hall : own x.entry ((pre ++ [x]).map Fragment.event) = messageOf x.entry fs := by
    rw [own_events]
    unfold messageOf
    rw [hown]
  have hmsg : IsMessage x.entry (messageOf x.entry fs) := by
    have hids : (ofSender Fragment.entry x.entry fs).map Fragment.packet =
        List.range x.entry.fragments := by
      rcases h x.entry with hnil | hr
      · rw [hown, ofSender_append, ofSender_cons_self] at hnil
        simp at hnil
      · exact hr
    have hlen : (messageOf x.entry fs).length = x.entry.fragments := by
      have hl := congrArg List.length hids
      simpa [messageOf] using hl
    refine ⟨hlen, ?_, ?_⟩
    · rw [hlen, ← hids]
      simp [messageOf, Fragment.packet]
    · intro p hp
      obtain ⟨y, _, rfl⟩ := List.mem_map.mp hp
      exact y.dlc_eq
  have hrun : RunOk s₀ ((pre ++ [x]).map Fragment.event) :=
    h.runOk (show fs = pre ++ [x] ++ post by simp [hfs])
  have hbytes := assembled_of_run hrun x.entry (messageOf x.entry fs)
    (by rw [hall]) hmsg.2 (by rw [hmsg.1])
  rw [hmsg.1, ← x.entry.size_eq] at hbytes
  exact hbytes

/-! ## The counter -/

/-- At most eleven messages of at most three fragments. -/
theorem Messages.length_le (h : Messages fs) : fs.length ≤ 33 := by
  let ks : List RxEntry :=
    (List.finRange 5).map .status ++ (List.finRange 5).map .para ++ [.ad]
  have hks : ∀ r : RxEntry, r ∈ ks := by
    intro r
    cases r <;> simp [ks]
  have hsum := @length_le_sum _ _ Fragment.entry _ fs ks fun x _ => hks x.entry
  have hown : ∀ n ∈ ks.map fun r => (ofSender Fragment.entry r fs).length, n ≤ 3 := by
    intro n hn
    obtain ⟨r, -, rfl⟩ := List.mem_map.mp hn
    rcases h r with hnil | hmap
    · rw [hnil]
      exact Nat.zero_le 3
    · have hl := congrArg List.length hmap
      rw [List.length_map, List.length_range] at hl
      rw [hl]
      cases r <;> simp [RxEntry.fragments]
  have hle := List.sum_le_card_nsmul _ 3 hown
  have hlen : (ks.map fun r => (ofSender Fragment.entry r fs).length).length = 11 := by
    simp [ks]
  rw [hlen] at hle
  change _ ≤ 33 at hle
  omega

/-- The first fragment of all is a first fragment. -/
theorem Messages.head_packet (h : Messages fs) {x : Fragment} {post : List Fragment}
    (hfs : fs = x :: post) : x.packet = 0 := by
  rcases h x.entry with hnil | hmap
  · rw [hfs, ofSender_cons_self] at hnil
    simp at hnil
  · rw [hfs, ofSender_cons_self] at hmap
    exact (@idx_eq_length _ _ [] _ _ _ hmap).2.1

/-- The byte counter and the shared counter go together. -/
theorem counted_eq {s : CanApp} {x : Fragment} {c : Nat} (hc : c < 2 ^ 12)
    (hlen : x.packet = 0 ∨ s.dataLen = 8 * c) :
    counted s x.frame = 8 * seen Fragment.packet c x := by
  unfold counted seen
  rw [x.dlc_eq]
  change ((if x.packet = 0 then 0 else s.dataLen) + 8) % 2 ^ 16 = _
  by_cases h0 : x.packet = 0
  · rw [if_pos h0, if_pos h0]
    rfl
  · rw [if_neg h0, if_neg h0, hlen.resolve_left h0]
    omega

theorem isLast_iff {x : Fragment} :
    IsLast Fragment.entry Fragment.packet RxEntry.fragments x ↔ LastFragment x.entry x.frame :=
  Iff.rfl

/-- The shared counter of the entries. -/
def counter (fs : List Fragment) : Nat :=
  count Fragment.entry Fragment.packet RxEntry.fragments fs

/-- What one more fragment of a run leaves in the byte counter. -/
theorem Messages.counted_next (h : Messages fs) {pre post : List Fragment} {x : Fragment}
    (hfs : fs = pre ++ x :: post)
    (hdata : pre ≠ [] → (received s₀ pre).dataLen = 8 * counter pre) :
    counted (received s₀ pre) x.frame = 8 * seen Fragment.packet (counter pre) x := by
  have hbound := h.length_le
  have hcount : counter pre ≤ pre.length := count_le pre
  have hle : pre.length ≤ 33 := by
    rw [hfs, List.length_append] at hbound
    omega
  apply counted_eq (by omega)
  by_cases hnil : pre = []
  · left
    rw [hnil] at hfs
    exact h.head_packet (show fs = x :: post by simpa using hfs)
  · exact .inr (hdata hnil)

theorem Messages.dataLen (h : Messages fs) {pre post : List Fragment} (hfs : fs = pre ++ post)
    (hne : pre ≠ []) : (received s₀ pre).dataLen = 8 * counter pre := by
  induction pre using List.reverseRecOn generalizing post with
  | nil => exact absurd rfl hne
  | append_singleton pre x ih =>
    have hcons : fs = pre ++ x :: post := by simp [hfs]
    have hnext : counted (received s₀ pre) x.frame = 8 * seen Fragment.packet (counter pre) x :=
      h.counted_next hcons fun hpre => ih hcons hpre
    rw [received_concat, msgRxManage_dataLen x.accepts, hnext]
    unfold counter
    rw [count_concat]
    unfold step
    by_cases hx : LastFragment x.entry x.frame
    · rw [if_pos hx, if_pos (isLast_iff.mpr hx)]
    · rw [if_neg hx, if_neg (isLast_iff.not.mpr hx)]

/-- The last fragment of a message sets the flag exactly when the message passes
the shared counter. -/
theorem Messages.update_iff (h : Messages fs) {pre post : List Fragment} {x : Fragment}
    (hfs : fs = pre ++ x :: post) (hx : LastFragment x.entry x.frame) :
    (received s₀ (pre ++ [x])).update x.entry.frame = true ↔
      (received s₀ pre).update x.entry.frame = true ∨
        Passes Fragment.entry Fragment.packet RxEntry.fragments pre x := by
  have hnext : counted (received s₀ pre) x.frame = 8 * seen Fragment.packet (counter pre) x :=
    h.counted_next hfs fun hpre => h.dataLen hfs hpre
  rw [received_concat, msgRxManage_update x.accepts, hnext]
  have hpass : 8 * seen Fragment.packet (counter pre) x = 8 * x.entry.fragments ↔
      Passes Fragment.entry Fragment.packet RxEntry.fragments pre x := by
    unfold Passes counter
    omega
  by_cases hp : Passes Fragment.entry Fragment.packet RxEntry.fragments pre x
  · rw [if_pos ⟨hx, hpass.mpr hp⟩]
    simp [hp]
  · rw [if_neg fun hand => hp (hpass.mp hand.2)]
    simp [hp]

/-- Before its last fragment a message leaves its flag alone. -/
theorem Messages.update_before (h : Messages fs) {pre post : List Fragment} {x : Fragment}
    (hfs : fs = pre ++ x :: post) (hx : LastFragment x.entry x.frame) :
    (received s₀ pre).update x.entry.frame = s₀.update x.entry.frame := by
  have hno := not_last_before h hfs hx
  clear hfs
  induction pre using List.reverseRecOn with
  | nil => rfl
  | append_singleton pre y ih =>
    rw [received_concat, msgRxManage_update y.accepts]
    rw [← ih fun z hz => hno z (by simp [hz])]
    split_ifs with hy
    · by_cases he : y.entry = x.entry
      · exact absurd hy.1 (hno y (by simp) he)
      · rw [Function.update_of_ne]
        intro hf
        exact he (RxEntry.frame_injective hf).symm
    · rfl

end

/-- **Interleaved reassembly.** Complete messages that are not interleaved are
delivered from any state of the receive side; and from a state without pending
flags, messages that are all delivered were not interleaved. -/
theorem reassembly_complete_iff (s₀ : CanApp) (fs : List Fragment) (h : Messages fs) :
    (NotInterleaved fs → Delivered s₀ fs) ∧
      ((∀ r : RxEntry, s₀.update r.frame = false) → Delivered s₀ fs → NotInterleaved fs) := by
  constructor
  · intro hc pre x post hfs hx
    refine ⟨(h.update_iff hfs hx).mpr (.inr ?_), h.bytes hfs hx⟩
    exact Contiguous.allPass h hc pre x post hfs hx
  · intro hclear hd
    refine AllPass.contiguous h fun pre x post hfs hx => ?_
    rcases (h.update_iff hfs hx).mp (hd pre x post hfs hx).1 with hup | hp
    · rw [h.update_before hfs hx, hclear] at hup
      cases hup
    · exact hp

/-- Fragment `n` of a status message of module `k`. -/
def statusFragment (k : ModuleId) (n : Fin 3) : Fragment :=
  ⟨.status k, statusFrame k n (UInt8.ofNat n), (statusFrame_accepts k (by omega) _).1, rfl⟩

/-- The status messages of the first two modules, one after the other. -/
def twoMessages : List Fragment :=
  [statusFragment 0 0, statusFragment 0 1, statusFragment 0 2,
    statusFragment 1 0, statusFragment 1 1, statusFragment 1 2]

theorem twoMessages_messages : Messages twoMessages
  | .status 0 | .status 1 => .inr (by decide)
  | .status 2 | .status 3 | .status 4 => .inl (by decide)
  | .para 0 | .para 1 | .para 2 | .para 3 | .para 4 => .inl (by decide)
  | .ad => .inl (by decide)

theorem twoMessages_notInterleaved : NotInterleaved twoMessages
  | .status 0 => ⟨[], [statusFragment 1 0, statusFragment 1 1, statusFragment 1 2], rfl⟩
  | .status 1 => ⟨[statusFragment 0 0, statusFragment 0 1, statusFragment 0 2], [], rfl⟩
  | .status 2 | .status 3 | .status 4 => List.nil_infix
  | .para 0 | .para 1 | .para 2 | .para 3 | .para 4 => List.nil_infix
  | .ad => List.nil_infix

theorem reassembly_complete_two : Messages twoMessages ∧ Delivered .init twoMessages :=
  ⟨twoMessages_messages,
    (reassembly_complete_iff .init twoMessages twoMessages_messages).1 twoMessages_notInterleaved⟩

/-- The same messages, fragment by fragment in turn. -/
def inTurn : List Fragment :=
  [statusFragment 0 0, statusFragment 1 0, statusFragment 0 1, statusFragment 1 1,
    statusFragment 0 2, statusFragment 1 2]

theorem inTurn_messages : Messages inTurn
  | .status 0 | .status 1 => .inr (by decide)
  | .status 2 | .status 3 | .status 4 => .inl (by decide)
  | .para 0 | .para 1 | .para 2 | .para 3 | .para 4 => .inl (by decide)
  | .ad => .inl (by decide)

/-- The last fragment of module 1 finds 24 bytes counted already. -/
theorem reassembly_in_turn : Messages inTurn ∧ ¬ Delivered .init inTurn := by
  refine ⟨inTurn_messages, fun hd => ?_⟩
  have hup := (hd (inTurn.take 4) (statusFragment 0 2) [statusFragment 1 2] rfl rfl).1
  revert hup
  decide

end SC04Monitor.Can
