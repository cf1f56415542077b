import Mathlib.Algebra.Order.BigOperators.Group.List
import Mathlib.Algebra.Order.Ring.Nat
import Mathlib.Data.List.Infix
import Mathlib.Tactic.Common

/-! # Interleaved messages and one counter for all of them

Several senders send one message each, as fragments numbered from `0`; the
fragments arrive interleaved. The receiver counts fragments with a single
counter: a first fragment resets it, so does a last one, and a message passes
when the counter equals its length at its last fragment.

All messages pass exactly when none is interleaved with another one. For one
message alone this is false: the first fragment of a second message can make up
for the reset. -/

namespace SC04Monitor.Lib.SharedCounter

variable {α κ : Type*} (key : α → κ) (idx : α → Nat) (len : κ → Nat)

/-- The fragment is the last one of its message. -/
def IsLast (x : α) : Prop := idx x + 1 = len (key x)

instance (x : α) : Decidable (IsLast key idx len x) := inferInstanceAs (Decidable (_ = _))

/-- The counter when a fragment has been counted. -/
def seen (c : Nat) (x : α) : Nat := (if idx x = 0 then 0 else c) + 1

def step (c : Nat) (x : α) : Nat := if IsLast key idx len x then 0 else seen idx c x

/-- The counter after some fragments. -/
def count (fs : List α) : Nat := fs.foldl (step key idx len) 0

/-- After the fragments `fs` the message that ends with `x` passes. -/
def Passes (fs : List α) (x : α) : Prop := seen idx (count key idx len fs) x = len (key x)

def AllPass (fs : List α) : Prop :=
  ∀ pre x post, fs = pre ++ x :: post → IsLast key idx len x → Passes key idx len pre x

section
variable {key idx len}

/-- Where the numbers are `0`, `1`, ..., a number is its position. -/
theorem idx_eq_length {l₁ l₂ : List α} {x : α} {n : Nat}
    (h : (l₁ ++ x :: l₂).map idx = List.range n) :
    l₁.map idx = List.range l₁.length ∧ idx x = l₁.length ∧ n = l₁.length + 1 + l₂.length := by
  have hn := congrArg List.length h
  simp only [List.length_map, List.length_append, List.length_cons, List.length_range] at hn
  rw [← hn, List.map_append, List.map_cons, List.range_add] at h
  obtain ⟨h₁, h₂⟩ := List.append_inj h (by simp)
  rw [List.range_succ_eq_map, List.map_cons, List.cons.injEq] at h₂
  exact ⟨h₁, by simpa using h₂.1, by omega⟩

theorem count_concat (fs : List α) (x : α) :
    count key idx len (fs ++ [x]) = step key idx len (count key idx len fs) x := by
  simp [count]

theorem count_le (fs : List α) : count key idx len fs ≤ fs.length := by
  induction fs using List.reverseRecOn with
  | nil => exact Nat.le_refl 0
  | append_singleton fs x ih =>
    rw [count_concat, List.length_append, List.length_singleton]
    unfold step seen
    split_ifs <;> omega

/-- The counter is the length of a final stretch without last fragments. -/
theorem count_tail (fs : List α) : ∃ t, t <:+ fs ∧ t.length = count key idx len fs ∧
    ∀ y ∈ t, ¬ IsLast key idx len y := by
  induction fs using List.reverseRecOn with
  | nil => exact ⟨[], List.suffix_rfl, rfl, by simp⟩
  | append_singleton fs x ih =>
    rw [count_concat]
    unfold step seen
    by_cases hx : IsLast key idx len x
    · exact ⟨[], List.nil_suffix, by rw [if_pos hx]; rfl, by simp⟩
    rw [if_neg hx]
    by_cases h0 : idx x = 0
    · refine ⟨[x], List.suffix_append fs [x], by rw [if_pos h0]; rfl, fun y hy => ?_⟩
      rwa [List.mem_singleton.mp hy]
    · obtain ⟨t, ⟨s, hs⟩, hlen, hno⟩ := ih
      refine ⟨t ++ [x], ⟨s, by rw [← hs, List.append_assoc]⟩, ?_, fun y hy => ?_⟩
      · rw [if_neg h0, List.length_append, hlen, List.length_singleton]
      · rcases List.mem_append.mp hy with hy | hy
        · exact hno y hy
        · rwa [List.mem_singleton.mp hy]

/-- Counting the first fragments of one message, whatever was counted before. -/
theorem foldl_block (c : Nat) {l : List α} (hne : l ≠ []) (hmap : l.map idx = List.range l.length)
    (hno : ∀ y ∈ l, ¬ IsLast key idx len y) : l.foldl (step key idx len) c = l.length := by
  induction l using List.reverseRecOn with
  | nil => exact absurd rfl hne
  | append_singleton l x ih =>
    obtain ⟨hl, hx, -⟩ := @idx_eq_length _ _ l [] x _ hmap
    rw [List.foldl_append, List.foldl_cons, List.foldl_nil, List.length_append,
      List.length_singleton, step, if_neg (hno x (by simp)), seen]
    by_cases hnil : l = []
    · rw [hnil] at hx ⊢
      rw [if_pos (by simpa using hx)]
      rfl
    · have hpos := List.length_pos_iff.mpr hnil
      rw [if_neg (by omega), ih hnil hl fun y hy => hno y (by simp [hy])]

end

/-! ## Messages -/

section
variable [DecidableEq κ]

/-- The fragments of one sender, in the order of arrival. -/
def ofSender (k : κ) (fs : List α) : List α := fs.filter fun x => decide (key x = k)

/-- Every sender has sent nothing or all fragments of one message in order. -/
def Interleaved (fs : List α) : Prop :=
  ∀ k, ofSender key k fs = [] ∨ (ofSender key k fs).map idx = List.range (len k)

/-- The fragments of every sender arrive one right after the other. -/
def Contiguous (fs : List α) : Prop := ∀ k, ofSender key k fs <:+: fs

end

section
variable [DecidableEq κ] {key idx len} {fs : List α}

theorem ofSender_append (k : κ) (l₁ l₂ : List α) : ofSender key k (l₁ ++ l₂) = ofSender key k l₁ ++ ofSender key k l₂ :=
  List.filter_append _ _

theorem mem_ofSender {k : κ} {x : α} : x ∈ ofSender key k fs ↔ x ∈ fs ∧ key x = k := by
  simp [ofSender]

theorem ofSender_eq_self {k : κ} (h : ∀ x ∈ fs, key x = k) : ofSender key k fs = fs :=
  List.filter_eq_self.mpr fun x hx => by simp [h x hx]

theorem ofSender_eq_nil {k : κ} (h : ∀ x ∈ fs, key x ≠ k) : ofSender key k fs = [] :=
  List.filter_eq_nil_iff.mpr fun x hx => by simp [h x hx]

theorem ofSender_cons_self (x : α) (l : List α) : ofSender key (key x) (x :: l) = x :: ofSender key (key x) l := by
  simp [ofSender]

/-- The last fragment of a sender's message is the last of its own. -/
theorem ofSender_of_last (h : Interleaved key idx len fs) {pre post : List α} {x : α}
    (hfs : fs = pre ++ x :: post) (hx : IsLast key idx len x) :
    (ofSender key (key x) pre).map idx = List.range (ofSender key (key x) pre).length ∧
      idx x = (ofSender key (key x) pre).length ∧ ofSender key (key x) post = [] := by
  have hofs : ofSender key (key x) fs = ofSender key (key x) pre ++ x :: ofSender key (key x) post := by
    rw [hfs, ofSender_append, ofSender_cons_self]
  rcases h (key x) with hnil | hmap
  · rw [hofs] at hnil
    simp at hnil
  · rw [hofs] at hmap
    obtain ⟨hpre, hidx, hlen⟩ := idx_eq_length hmap
    refine ⟨hpre, hidx, List.length_eq_zero_iff.mp ?_⟩
    unfold IsLast at hx
    omega

/-- No earlier fragment of the sender is a last one. -/
theorem not_last_before (h : Interleaved key idx len fs) {pre post : List α} {x : α}
    (hfs : fs = pre ++ x :: post) (hx : IsLast key idx len x) :
    ∀ y ∈ pre, key y = key x → ¬ IsLast key idx len y := by
  intro y hy hkey hlast
  obtain ⟨hmap, hidx, -⟩ := ofSender_of_last h hfs hx
  have hmem : idx y ∈ List.range (ofSender key (key x) pre).length := by
    rw [← hmap]
    exact List.mem_map_of_mem (mem_ofSender.mpr ⟨hy, hkey⟩)
  have hlt := List.mem_range.mp hmem
  unfold IsLast at hx hlast
  rw [hkey] at hlast
  omega

/-- What comes last of a sender is a last fragment. -/
theorem last_of_sender (h : Interleaved key idx len fs) {k : κ} {l : List α} {z : α}
    (hz : ofSender key k fs = l ++ [z]) : idx z = l.length ∧ IsLast key idx len z := by
  have hmem : z ∈ ofSender key k fs := by
    rw [hz]
    simp
  rcases h k with hnil | hmap
  · rw [hnil] at hmem
    cases hmem
  · rw [hz] at hmap
    obtain ⟨-, hidx, hlen⟩ := idx_eq_length hmap
    refine ⟨hidx, ?_⟩
    unfold IsLast
    rw [(mem_ofSender.mp hmem).2]
    simp only [List.length_nil] at hlen
    omega

/-! ## Sufficiency -/

/-- Up to its last fragment, a message that arrives in one block ends what has arrived. -/
theorem Contiguous.block (hc : Contiguous key fs) {pre post : List α} {x : α}
    (hfs : fs = pre ++ x :: post) (hpost : ofSender key (key x) post = []) :
    ∃ a, pre = a ++ ofSender key (key x) pre := by
  have hofs : ofSender key (key x) fs = ofSender key (key x) pre ++ [x] := by
    rw [hfs, ofSender_append, ofSender_cons_self, hpost]
  obtain ⟨a, b, hab⟩ := hc (key x)
  -- outside the block there is no fragment of the sender
  have hlen := congrArg (fun l => (ofSender key (key x) l).length) hab
  simp only [ofSender_append, List.length_append] at hlen
  have hself := @ofSender_eq_self _ _ key _ (ofSender key (key x) fs) (key x)
    fun y hy => (mem_ofSender.mp hy).2
  rw [hself] at hlen
  have hb : ofSender key (key x) b = [] := List.length_eq_zero_iff.mp (by omega)
  refine ⟨a, ?_⟩
  rw [hofs] at hab
  have heq : pre ++ x :: post = (a ++ ofSender key (key x) pre) ++ x :: b := by
    rw [← hfs, ← hab]
    simp
  rcases List.append_eq_append_iff.mp heq with ⟨t, ht, hcons⟩ | ⟨t, ht, hcons⟩
  · cases t with
    | nil => simpa using ht.symm
    | cons y t =>
      -- `x` would come again in `post`
      rw [List.cons_append, List.cons.injEq] at hcons
      rw [hcons.2, ofSender_append, ofSender_cons_self] at hpost
      simp at hpost
  · cases t with
    | nil => simpa using ht
    | cons y t =>
      rw [List.cons_append, List.cons.injEq] at hcons
      rw [hcons.2, ofSender_append, ofSender_cons_self] at hb
      simp at hb

theorem Contiguous.allPass (h : Interleaved key idx len fs) (hc : Contiguous key fs) :
    AllPass key idx len fs := by
  intro pre x post hfs hx
  obtain ⟨hmap, hidx, hpost⟩ := ofSender_of_last h hfs hx
  obtain ⟨a, hpre⟩ := hc.block hfs hpost
  unfold Passes seen
  unfold IsLast at hx
  by_cases h0 : idx x = 0
  · rw [if_pos h0]
    omega
  · have hne : ofSender key (key x) pre ≠ [] := by
      intro hnil
      rw [hnil] at hidx
      exact h0 hidx
    have hcount : count key idx len pre = (ofSender key (key x) pre).length := by
      unfold count
      rw [hpre, List.foldl_append, ← hpre]
      refine foldl_block _ hne hmap fun y hy => ?_
      obtain ⟨hy, hkey⟩ := mem_ofSender.mp hy
      exact not_last_before h hfs hx y hy hkey
    rw [if_neg h0, hcount, ← hidx]
    exact hx

/-! ## Necessity -/

/-- The message that ends with the last fragment of all is the final stretch. -/
theorem last_block {ys : List α} {x : α} (h : Interleaved key idx len (ys ++ [x]))
    (hp : AllPass key idx len (ys ++ [x])) :
    ∃ pre t, ys = pre ++ t ∧ (∀ y ∈ t, key y = key x) ∧ ofSender key (key x) pre = [] := by
  have hofs : ofSender key (key x) (ys ++ [x]) = ofSender key (key x) ys ++ [x] := by
    rw [ofSender_append, ofSender_cons_self]
    rfl
  obtain ⟨hidx, hlast⟩ := last_of_sender h hofs
  have hpass := hp ys x [] rfl hlast
  obtain ⟨t, ⟨pre, hpre⟩, htlen, hno⟩ : ∃ t, t <:+ ys ∧ t.length = (ofSender key (key x) ys).length ∧
      ∀ y ∈ t, ¬ IsLast key idx len y := by
    unfold Passes seen at hpass
    unfold IsLast at hlast
    by_cases h0 : idx x = 0
    · exact ⟨[], List.nil_suffix, by simp only [List.length_nil]; omega, by simp⟩
    · rw [if_neg h0] at hpass
      obtain ⟨t, ht, htlen, hno⟩ := @count_tail _ _ key idx len ys
      exact ⟨t, ht, by omega, hno⟩
  have hkey : ∀ y ∈ t, key y = key x := by
    intro y hy
    by_contra hne
    -- the last fragment of another sender in the stretch would be a last one
    have hmem : y ∈ ofSender key (key y) t := mem_ofSender.mpr ⟨hy, rfl⟩
    rcases List.eq_nil_or_concat (ofSender key (key y) t) with hnil | ⟨l, z, hz⟩
    · rw [hnil] at hmem
      simp at hmem
    have hzt : z ∈ t ∧ key z = key y := mem_ofSender.mp (by rw [hz]; simp)
    have hall : ofSender key (key y) (ys ++ [x]) = (ofSender key (key y) pre ++ l) ++ [z] := by
      rw [← hpre, ofSender_append, ofSender_append, hz, @ofSender_eq_nil _ _ _ _ [x]]
      · simp
      · intro w hw
        rw [List.mem_singleton.mp hw]
        exact Ne.symm hne
    exact hno z hzt.1 (last_of_sender h hall).2
  refine ⟨pre, t, hpre.symm, hkey, List.length_eq_zero_iff.mp ?_⟩
  rw [← hpre, ofSender_append, List.length_append, ofSender_eq_self hkey] at htlen
  omega

theorem AllPass.contiguous (h : Interleaved key idx len fs) (hp : AllPass key idx len fs) :
    Contiguous key fs := by
  induction hn : fs.length using Nat.strong_induction_on generalizing fs with
  | _ n ih =>
    rcases List.eq_nil_or_concat fs with rfl | ⟨ys, x, rfl⟩
    · intro k
      exact List.nil_infix
    rw [List.concat_eq_append] at h hp hn ⊢
    obtain ⟨pre, t, rfl, hkey, hpre⟩ := last_block h hp
    have hblock : ∀ y ∈ t ++ [x], key y = key x := by
      intro y hy
      rcases List.mem_append.mp hy with hy | hy
      · exact hkey y hy
      · rw [List.mem_singleton.mp hy]
    have hother : ∀ k, k ≠ key x → ofSender key k (pre ++ t ++ [x]) = ofSender key k pre := by
      intro k hk
      rw [List.append_assoc, ofSender_append, @ofSender_eq_nil _ _ _ _ (t ++ [x]), List.append_nil]
      intro y hy he
      exact hk (he.symm.trans (hblock y hy))
    -- without its last message the sequence still has both properties
    have hcont : Contiguous key pre := by
      refine ih pre.length ?_ ?_ ?_ rfl
      · rw [← hn]
        simp only [List.length_append, List.length_singleton]
        omega
      · intro k
        by_cases hk : k = key x
        · rw [hk]
          exact .inl hpre
        · rw [← hother k hk]
          exact h k
      · intro a y b hab hy
        exact hp a y (b ++ t ++ [x]) (by simp [hab]) hy
    intro k
    by_cases hk : k = key x
    · rw [hk, List.append_assoc, ofSender_append, hpre, List.nil_append, ofSender_eq_self hblock]
      exact (List.suffix_append pre (t ++ [x])).isInfix
    · rw [hother k hk, List.append_assoc]
      exact (hcont k).trans (List.prefix_append pre (t ++ [x])).isInfix

/-- There are no more fragments than the senders have. -/
theorem length_le_sum (ks : List κ) (h : ∀ x ∈ fs, key x ∈ ks) :
    fs.length ≤ (ks.map fun k => (ofSender key k fs).length).sum := by
  induction fs with
  | nil => exact Nat.zero_le _
  | cons x fs ih =>
    have hrest := ih fun y hy => h y (by simp [hy])
    have hstrict : (ks.map fun k => (ofSender key k fs).length).sum <
        (ks.map fun k => (ofSender key k (x :: fs)).length).sum := by
      refine List.sum_lt_sum _ _ (fun k _ => ?_) ⟨key x, h x (by simp), ?_⟩
      · exact ((List.sublist_cons_self x fs).filter _).length_le
      · rw [ofSender_cons_self, List.length_cons]
        exact Nat.lt_succ_self _
    rw [List.length_cons]
    omega

end

end SC04Monitor.Lib.SharedCounter
