import SC04Monitor.Modbus.Exchange

/-! # A session

The master sends frames one after the other, each when the slave has come to rest from the one
before. Whatever the frames are and however the interrupts and the thread take turns, the data,
the buffer and the line are those of `answers`, which knows neither interrupts nor threads. -/

namespace SC04Monitor.Modbus
open Relation SC04Monitor.Lib.ByteMem SC04Monitor.Lib.Steps SC04Monitor.Lib.Settle
  SC04Monitor.Record

/-- What frames are owed one after the other. -/
def answers (own : UInt8) : Mem → MbData → List (List UInt8) → Answer
  | m, d, [] => ⟨m, d, []⟩
  | m, d, f :: fs =>
    let a := answer own m d f
    let r := answers own a.buf a.data fs
    ⟨r.buf, r.data, a.sent ++ r.sent⟩

namespace Slave

/-- The slave can come from `s` to `s'` while the master sends these frames, each with a silence
behind it and none before the slave is at rest. -/
inductive Serves : Slave → List (List UInt8) → Slave → Prop
  | done (s : Slave) : Serves s [] s
  | frame {s s₁ s₂ s' : Slave} {f : List UInt8} {fs : List (List UInt8)}
      (hears : runSteps step s (f.map .rx ++ [.t35]) = some s₁)
      (works : ReflTransGen Internal s₁ s₂) (rests : ∀ t, ¬ Internal s₂ t)
      (rest : Serves s₂ fs s') : Serves s (f :: fs) s'

variable {s s' : Slave}

/-- Whoever can go no further has come to the rest that there is. -/
theorem Rests.of_stuck {r : Answer} (h : s.Rests r) (hrun : ReflTransGen Internal s s')
    (hstuck : ∀ t, ¬ Internal s' t) :
    s'.Quiet ∧ s'.mbAddress = s.mbAddress ∧ s'.rtu.rtuBuf = r.buf ∧ s'.data = r.data ∧
      s'.rtu.line = s.rtu.line ++ r.sent := by
  obtain ⟨q, hq, hquiet, haddr, hbuf, hdata, hline⟩ := h
  obtain rfl := hq.eq_of_stuck hrun hstuck
  exact ⟨hquiet, haddr, hbuf, hdata, hline⟩

/-- A program that has ended takes no part in the rest of the session. -/
theorem Serves.stopped {fs : List (List UInt8)} {e : Stop} (h : Serves s fs s')
    (hstop : s.stopped = some e) : s'.stopped = some e := by
  cases h with
  | done => exact hstop
  | frame hears works rests rest =>
    have hnone : ∀ t, step s t = none := fun t => by simp [step, hstop]
    rename_i f fs
    cases f <;> simp [runSteps, hnone] at hears

/-- What a session leads to. -/
structure Served (s : Slave) (fs : List (List UInt8)) (s' : Slave) : Prop where
  quiet : s'.Quiet
  buf : s'.rtu.rtuBuf = (answers s.mbAddress s.rtu.rtuBuf s.data fs).buf
  data : s'.data = (answers s.mbAddress s.rtu.rtuBuf s.data fs).data
  line : s'.rtu.line = s.rtu.line ++ (answers s.mbAddress s.rtu.rtuBuf s.data fs).sent

/-- One frame more at the front. -/
theorem Served.cons {t : Slave} {f : List UInt8} {fs : List (List UInt8)}
    (haddr : t.mbAddress = s.mbAddress)
    (hbuf : t.rtu.rtuBuf = (answer s.mbAddress s.rtu.rtuBuf s.data f).buf)
    (hdata : t.data = (answer s.mbAddress s.rtu.rtuBuf s.data f).data)
    (hline : t.rtu.line = s.rtu.line ++ (answer s.mbAddress s.rtu.rtuBuf s.data f).sent)
    (h : t.Served fs s') : s.Served (f :: fs) s' := by
  have hrest : answers t.mbAddress t.rtu.rtuBuf t.data fs =
      answers s.mbAddress (answer s.mbAddress s.rtu.rtuBuf s.data f).buf
        (answer s.mbAddress s.rtu.rtuBuf s.data f).data fs := by
    rw [haddr, hbuf, hdata]
  refine ⟨h.quiet, ?_, ?_, ?_⟩
  · rw [h.buf, hrest]
    rfl
  · rw [h.data, hrest]
    rfl
  · rw [h.line, hline, hrest, List.append_assoc]
    rfl

/-- The frames of a session that do not fill the whole array are all served. -/
theorem Quiet.serves (h : s.Quiet) {fs : List (List UInt8)} (hne : ∀ f ∈ fs, f ≠ [])
    (hlen : ∀ f ∈ fs, f.length ≠ mbSerPduSizeMax) : ∃ s', Serves s fs s' ∧ s.Served fs s' := by
  induction fs generalizing s with
  | nil => exact ⟨s, .done s, h, rfl, rfl, (List.append_nil _).symm⟩
  | cons f fs ih =>
    obtain ⟨hf, hfs⟩ := List.forall_mem_cons.mp hne
    obtain ⟨hflen, hfslen⟩ := List.forall_mem_cons.mp hlen
    obtain ⟨q, hq, hquiet, haddr, hbuf, hdata, hline⟩ := h.heard_rests hflen
    obtain ⟨s', hserves, hserved⟩ := ih hquiet hfs hfslen
    exact ⟨s', .frame (h.hears hf) hq.leads hq.at_rest hserves,
      hserved.cons haddr hbuf hdata hline⟩

/-- A session ends the program exactly if one of its frames fills the array, and else all have
been served. -/
theorem Serves.served {fs : List (List UInt8)} (hserves : Serves s fs s') (h : s.Quiet)
    (hne : ∀ f ∈ fs, f ≠ []) :
    (s'.stopped = none ↔ ∀ f ∈ fs, f.length ≠ mbSerPduSizeMax) ∧
      ((∀ f ∈ fs, f.length ≠ mbSerPduSizeMax) → s.Served fs s') := by
  induction fs generalizing s with
  | nil =>
    cases hserves
    exact ⟨iff_of_true h.stopped fun f hf => absurd hf List.not_mem_nil,
      fun _ => ⟨h, rfl, rfl, (List.append_nil _).symm⟩⟩
  | cons f fs ih =>
    obtain ⟨hf, hfs⟩ := List.forall_mem_cons.mp hne
    cases hserves with
    | frame hears works rests rest =>
      rename_i s₁ s₂
      obtain rfl : s.heard f = s₁ := Option.some.inj ((h.hears hf).symm.trans hears)
      rw [List.forall_mem_cons]
      by_cases hlen : f.length = mbSerPduSizeMax
      · obtain ⟨q, hq, hstop⟩ := h.heard_full hlen
        obtain rfl := hq.eq_of_stuck works rests
        have hdead := rest.stopped hstop
        exact ⟨iff_of_false (by rw [hdead]; exact Option.some_ne_none _) fun hall => hall.1 hlen,
          fun hall => absurd hlen hall.1⟩
      · obtain ⟨hquiet, haddr, hbuf, hdata, hline⟩ := (h.heard_rests hlen).of_stuck works rests
        obtain ⟨hruns, hserved⟩ := ih rest hquiet hfs
        exact ⟨hruns.trans (and_iff_right hlen).symm,
          fun hall => (hserved hall.2).cons haddr hbuf hdata hline⟩

/-- Every session of the slave, with every interleaving of its interrupts and its thread: it ends
with the program running if and only if no frame has exactly as many bytes as the buffer; and if
so, the data, the buffer and all that was put on the line are what `answers` says. Without such a
frame there is one. -/
theorem session (h : s.Quiet) {fs : List (List UInt8)} (hne : ∀ f ∈ fs, f ≠ []) :
    ((∃ s', Serves s fs s' ∧ s'.stopped = none) ↔ ∀ f ∈ fs, f.length ≠ mbSerPduSizeMax) ∧
      ∀ s', Serves s fs s' →
        (s'.stopped = none ↔ ∀ f ∈ fs, f.length ≠ mbSerPduSizeMax) ∧
          ((∀ f ∈ fs, f.length ≠ mbSerPduSizeMax) → s.Served fs s') := by
  refine ⟨⟨fun ⟨s', hserves, hrun⟩ => (hserves.served h hne).1.mp hrun, fun hlen => ?_⟩,
    fun s' hserves => hserves.served h hne⟩
  obtain ⟨s', hserves, hserved⟩ := h.serves hne hlen
  exact ⟨s', hserves, hserved.quiet.stopped⟩

/-- The slave when the line has been silent once after the start. -/
def started (rtuBuf : Mem) (data : MbData) : Slave :=
  { start rtuBuf data with
    rtu := { (start rtuBuf data).rtu with rcvState := .rxIdle, timer := false } }

theorem started_quiet (rtuBuf : Mem) (data : MbData) :
    runSteps step (start rtuBuf data) [.t35, .poll none] = some (started rtuBuf data) ∧
      (started rtuBuf data).Quiet :=
  ⟨rfl, ⟨rfl, rfl, rfl, rfl, rfl, rfl⟩, rfl, rfl⟩

theorem session_readHolding :
    let s := started (fun _ => 0) zeroData
    ∃ s', Serves s [parBlock [1, 3, 0, 0, 0, 1], [7, 7]] s' ∧ s'.stopped = none ∧
      s'.rtu.line = parBlock [1, 3, 2, 0, 0] := by
  intro s
  have hne : ∀ f ∈ [parBlock [1, 3, 0, 0, 0, 1], [7, 7]], f ≠ [] := by decide
  obtain ⟨hiff, hserved⟩ := session (started_quiet (fun _ => 0) zeroData).2 hne
  obtain ⟨s', hserves, hrun⟩ := hiff.mpr (by decide)
  refine ⟨s', hserves, hrun, ?_⟩
  rw [((hserved s' hserves).2 (by decide)).line]
  decide +kernel

end Slave

end SC04Monitor.Modbus
