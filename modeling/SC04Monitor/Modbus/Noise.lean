import SC04Monitor.Modbus.Session

/-! # What other frames do to a session

Between the frames for the slave the line carries frames for others and frames that were damaged.
They reach the slave's buffer, but no more: the data and the responses of the session are those
of the session without them, as long as no request says that it has more bytes than were sent.
A request that does takes the missing ones from the buffer. -/

namespace SC04Monitor.Modbus
open SC04Monitor.Lib.ByteMem SC04Monitor.Lib.Crc SC04Monitor.Record

/-! ## Requests that are complete -/

/-- The frame has the bytes that the request in it announces. -/
def Complete (f : List UInt8) : Prop := requestEnd (f.getD 1 0) (frameOf f) ≤ f.length

instance (f : List UInt8) : Decidable (Complete f) := by
  unfold Complete
  infer_instance

theorem agreeIn_frame (m m' : Mem) (f : List UInt8) :
    AgreeIn f.length (writeBytes m 0 f) (writeBytes m' 0 f) := fun q hq => by
  rw [Slave.writeBytes_getD hq, Slave.writeBytes_getD hq]

/-- The byte count is read where the frame has it. -/
theorem Complete.requestEnd_le {f : List UInt8} (h : Complete f) (m : Mem) :
    requestEnd (f.getD 1 0) (writeBytes m 0 f) ≤ f.length := by
  have hget : ∀ i, i < f.length → writeBytes m 0 f i = frameOf f i := fun i hi =>
    Slave.writeBytes_getD hi
  unfold Complete requestEnd at h
  unfold requestEnd
  by_cases hwrite : f.getD 1 0 = 15 ∨ f.getD 1 0 = 16
  · rw [if_pos hwrite] at h ⊢
    rwa [hget 6 (by omega)]
  rw [if_neg hwrite] at h ⊢
  by_cases hboth : f.getD 1 0 = 23
  · rw [if_pos hboth] at h ⊢
    rwa [hget 10 (by omega)]
  · rw [if_neg hboth]
    exact Nat.zero_le _

/-- A handler makes the same of a complete request, whatever was in the buffer before. -/
theorem Complete.handled {f : List UInt8} (h : Complete f) (hok : Intact f) (m m' : Mem) (d : MbData) :
    (handled m d f).Same f.length (handled m' d f) := by
  have hmin : 4 ≤ f.length := hok.1
  have hlen : f.length - mbSerPduPduOff - mbSerPduSizeCrc < f.length := by
    show f.length - 1 - 2 < _
    omega
  exact (contained_dispatch (f.getD 1 0)).reads f.length _ _ _ d (agreeIn_frame m m' f) (by omega) hlen
    ((Nat.min_le_right _ _).trans (h.requestEnd_le m))

theorem Handled.Same.response_eq {n : Nat} {r r' : Handled} (h : r.Same n r') (ucFunctionCode : UInt8) :
    r.response ucFunctionCode = r'.response ucFunctionCode := by
  unfold Handled.response
  rw [← h.exc]
  by_cases hexc : r.exc = .none
  · rw [if_neg (not_not_intro hexc), if_neg (not_not_intro hexc), ← h.usLen]
    exact h.response hexc
  · rw [if_pos hexc, if_pos hexc]

/-- A complete request gets the same answer. -/
theorem answer_complete {own : UInt8} {f : List UInt8} (h : Executed own f → Complete f)
    (m m' : Mem) (d : MbData) :
    (answer own m d f).data = (answer own m' d f).data ∧
      (answer own m d f).sent = (answer own m' d f).sent := by
  unfold answer
  by_cases hex : Executed own f
  · have hsame := (h hex).handled hex.2.1 m m' d
    rw [if_pos hex, if_pos hex]
    by_cases hall : f.getD 0 0 = mbAddressBroadcast
    · rw [if_pos hall, if_pos hall]
      exact ⟨hsame.data, rfl⟩
    · rw [if_neg hall, if_neg hall]
      exact ⟨hsame.data, by rw [hsame.response_eq]⟩
  · rw [if_neg hex, if_neg hex]
    exact ⟨rfl, rfl⟩

/-! ## Frames that change nothing -/

theorem answer_unheard {own : UInt8} {f : List UInt8} (h : ¬ Executed own f) (m : Mem) (d : MbData) :
    (answer own m d f).data = d ∧ (answer own m d f).sent = [] := by
  unfold answer
  rw [if_neg h]
  exact ⟨rfl, rfl⟩

/-- A frame whose bits have been flipped by a burst is not executed. -/
theorem not_executed_damaged (own : UInt8) {msg e : List UInt8} (hlen : e.length = msg.length + 2)
    (hburst : IsBurst 16 (wire e)) :
    ¬ Executed own (List.zipWith (· ^^^ ·) (parBlock msg) e) := by
  rintro ⟨-, ⟨-, hcrc⟩, -⟩
  have hsame : (parBlock msg).length = e.length := by rw [length_parBlock, hlen]
  rw [crc16DnCal_xor hsame, crc16DnCal_parBlock, UInt16.zero_xor, ← UInt16.toBitVec_inj,
    crc16DnCal_toBitVec] at hcrc
  exact feed_burst crcPoly_msb hburst hcrc

/-- The first session has the frames of the second one, and others that the slave does not
execute. -/
inductive Noisy (own : UInt8) : List (List UInt8) → List (List UInt8) → Prop
  | nil : Noisy own [] []
  | same (f : List UInt8) {fs gs : List (List UInt8)} (h : Noisy own fs gs) :
      Noisy own (f :: fs) (f :: gs)
  | unheard {f : List UInt8} {fs gs : List (List UInt8)} (hno : ¬ Executed own f)
      (h : Noisy own fs gs) : Noisy own (f :: fs) gs

/-- A frame for somebody else. -/
theorem Noisy.foreign {own : UInt8} {f : List UInt8} {fs gs : List (List UInt8)}
    (hown : f.getD 0 0 ≠ own) (hall : f.getD 0 0 ≠ mbAddressBroadcast) (h : Noisy own fs gs) :
    Noisy own (f :: fs) gs :=
  .unheard (fun hex => hex.2.2.elim hown hall) h

/-- A frame that was damaged by a burst. -/
theorem Noisy.damaged {own : UInt8} {msg e : List UInt8} {fs gs : List (List UInt8)}
    (hlen : e.length = msg.length + 2) (hburst : IsBurst 16 (wire e)) (h : Noisy own fs gs) :
    Noisy own (List.zipWith (· ^^^ ·) (parBlock msg) e :: fs) gs :=
  .unheard (not_executed_damaged own hlen hburst) h

/-- The frames of the second session are among those of the first. -/
theorem Noisy.subset {own : UInt8} {fs gs : List (List UInt8)} (h : Noisy own fs gs) : gs ⊆ fs := by
  induction h with
  | nil => exact List.Subset.refl []
  | same f h ih => exact List.cons_subset_cons f ih
  | unheard hno h ih => exact List.subset_cons_of_subset _ ih

theorem Noisy.answers {own : UInt8} {fs gs : List (List UInt8)} (h : Noisy own fs gs)
    (hc : ∀ f ∈ gs, Executed own f → Complete f) (m m' : Mem) (d : MbData) :
    (answers own m d fs).data = (answers own m' d gs).data ∧
      (answers own m d fs).sent = (answers own m' d gs).sent := by
  induction h generalizing m m' d with
  | nil => exact ⟨rfl, rfl⟩
  | same f h ih =>
    obtain ⟨hf, hgs⟩ := List.forall_mem_cons.mp hc
    obtain ⟨hdata, hsent⟩ := answer_complete hf m m' d
    simp only [Modbus.answers, hdata, hsent]
    obtain ⟨hd, hs⟩ := ih hgs (answer own m d f).buf (answer own m' d f).buf (answer own m' d f).data
    exact ⟨hd, congrArg _ hs⟩
  | @unheard f fs gs hno h ih =>
    -- a frame that is not executed only changes the buffer
    obtain ⟨hdata, hsent⟩ := answer_unheard hno m d
    simp only [Modbus.answers, hdata, hsent, List.nil_append]
    exact ih hc _ m' d

namespace Slave

/-- Frames that the slave does not execute make no difference as long as none has exactly as many
bytes as the buffer: two sessions that differ in nothing else, from slaves with the same address and
data, both end with the program running, and lead to the same data and to the same bytes on the
line, if the requests that are executed are complete. -/
theorem noise_harmless {s t s' t' : Slave} (hs : s.Quiet) (ht : t.Quiet)
    (haddr : s.mbAddress = t.mbAddress) (hdata : s.data = t.data) {fs gs : List (List UInt8)}
    (hne : ∀ f ∈ fs, f ≠ []) (hlen : ∀ f ∈ fs, f.length ≠ mbSerPduSizeMax)
    (hnoise : Noisy s.mbAddress fs gs) (hc : ∀ f ∈ gs, Executed s.mbAddress f → Complete f)
    (hserves : Serves s fs s') (hserves' : Serves t gs t') :
    s'.stopped = none ∧ t'.stopped = none ∧ s'.data = t'.data ∧
      ∃ sent, s'.rtu.line = s.rtu.line ++ sent ∧ t'.rtu.line = t.rtu.line ++ sent := by
  have hserved := (hserves.served hs hne).2 hlen
  have hserved' := (hserves'.served ht fun f hf => hne f (hnoise.subset hf)).2
    fun f hf => hlen f (hnoise.subset hf)
  obtain ⟨hd, hsent⟩ := hnoise.answers hc s.rtu.rtuBuf t.rtu.rtuBuf s.data
  have hline' := hserved'.line
  rw [← haddr, ← hdata, ← hsent] at hline'
  refine ⟨hserved.quiet.stopped, hserved'.quiet.stopped, ?_, _, hserved.line, hline'⟩
  rw [hserved.data, hserved'.data, ← haddr, ← hdata, hd]

theorem noise_harmless_foreign :
    let s := started (fun _ => 0) zeroData
    let request := parBlock [1, 6, 0, 0, 0, 5]
    ∃ s' t', Serves s [[7, 7], request] s' ∧ Serves s [request] t' ∧ s'.data = t'.data := by
  intro s request
  have hs : s.Quiet := (started_quiet (fun _ => 0) zeroData).2
  have hfs : ∀ f ∈ [[7, 7], request], f ≠ [] := by decide
  have hgs : ∀ f ∈ [request], f ≠ [] := by decide
  obtain ⟨s', hserves, -⟩ := hs.serves hfs (by decide)
  obtain ⟨t', hserves', -⟩ := hs.serves hgs (by decide)
  exact ⟨s', t', hserves, hserves', (noise_harmless hs hs rfl rfl hfs (by decide)
    (.foreign (by decide) (by decide) (.same request .nil)) (by decide) hserves hserves').2.2.1⟩

end Slave

end SC04Monitor.Modbus
