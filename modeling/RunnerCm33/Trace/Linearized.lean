import RunnerCm33.Lib.Linearization
import RunnerCm33.Lib.SharedLog
import RunnerCm33.Trace.FaultMoments

/-! The trace with its two writers is linearizable: as long as interrupt records are refused
or leave room, the statements of thread mode and the interrupts between them do to the
trace what one sequence of whole records and resets does to a bounded log. -/

namespace RunnerCm33

open RunnerCm33.Runs RunnerCm33.BoundedLog RunnerCm33.Linearization RunnerCm33.SharedLog

inductive Author where
  | threadMode
  | handler
deriving DecidableEq, Repr

def WriterEvent.ofThread : WriterEvent → Bool
  | .enter _ | .rewind | .thread => true
  | .interrupt _ => false

/-- What the interrupt handler offers at an event, and the resets. -/
def WriterEvent.ofHandler : WriterEvent → List (Event UInt8)
  | .enter _ | .thread => []
  | .rewind => [.clear]
  | .interrupt text => (TraceCall.ethosuTraceLog text).records.map .offer

/-- What takes effect at an event: a refused record at its check and any other at its
`trace_idx +=`, the reset at its first statement, an interrupt record at once. -/
def Writers.commit (writers : Writers) : WriterEvent → List (Author × Event UInt8)
  | .enter call =>
    match writers.pc, call.handed with
    | .idle, some handed =>
      if writers.trace.Full handed.len then [(.threadMode, .offer handed.record)] else []
    | _, _ => []
  | .rewind =>
    match writers.pc with
    | .idle => [(.threadMode, .clear)]
    | _ => []
  | .thread =>
    match writers.pc with
    | .copied handed => [(.threadMode, .offer handed.record)]
    | _ => []
  | .interrupt text =>
    (TraceCall.ethosuTraceLog text).records.map fun record => (.handler, .offer record)

/-- The records and resets of a run, in the order in which they take effect. -/
def linearized (trace : Trace) (events : List WriterEvent) : List (Author × Event UInt8) :=
  committed Writers.step Writers.commit (.start trace) events

/-- The statements that thread mode may still have to execute of its operation. -/
def Pc.left : Pc → ℕ
  | .idle => 0
  | .checked _ => 3
  | .copied _ => 2
  | .added _ | .rewound => 1

/-- The record of the operation that has yet to take effect. -/
def Pc.owed (pc : Pc) : List (Event UInt8) := pc.pending.toList.map fun own => .offer own.record

/-- Thread mode executes the rest of its operation and then these. -/
def Scheduled (writers : Writers) (events : List WriterEvent) (ops : List TraceOp) : Prop :=
  ∃ rest, writers.pc.left ≤ rest ∧
    events.filter WriterEvent.ofThread = List.replicate rest .thread ++ ops.flatMap TraceOp.statements

variable {trace : Trace} {log : List (List UInt8)} {writers : Writers} {event : WriterEvent}
  {events : List WriterEvent} {ops : List TraceOp}

/-! ### The log -/

theorem TraceCall.records_eq (call : TraceCall) : call.records = call.handed.toList.map Handed.record := by
  cases found : call.handed with
  | none => exact if_neg (TraceCall.handed_eq_none found)
  | some handed =>
    have passes := TraceCall.handed_passes found
    rw [TraceCall.records, if_pos passes.formats, ← passes.record]
    rfl

private theorem count_eq_commit (inv : (Counting.mk writers log).Inv) (event : WriterEvent) :
    writers.count log event =
      run (step rscTraceBufSize.toNat) log ((writers.commit event).map Prod.snd) := by
  have contains : writers.trace.Contains log := inv.contains
  have refused (handed : Handed) (within : handed.Within) (full : writers.trace.Full handed.len) :
      offer rscTraceBufSize.toNat log handed.record = log := by
    refine offer_of_full ?_
    rw [within.record_length]
    exact (contains.full_iff (Nat.lt_of_le_of_lt within.short (by decide))).mp full
  cases event with
  | enter call =>
    cases pc : writers.pc with
    | idle =>
      cases found : call.handed with
      | none => simp [Writers.count, Writers.commit, pc, found]
      | some handed =>
        by_cases full : writers.trace.Full handed.len
        · have kept := refused handed (TraceCall.handed_passes found).toWithin full
          simp [Writers.count, Writers.commit, pc, found, full, step, kept]
        · simp [Writers.count, Writers.commit, pc, found, full]
    | checked own | copied own | added own | rewound => simp [Writers.count, Writers.commit, pc]
  | rewind => cases pc : writers.pc <;> simp [Writers.count, Writers.commit, pc, step]
  | thread =>
    cases pc : writers.pc with
    | copied own =>
      obtain ⟨within, fits⟩ := inv.pending own (by simp [pc, Pc.pending])
      have kept : offer rscTraceBufSize.toNat log own.record = log ++ [own.record] := by
        refine offer_of_fits ?_
        rw [within.record_length, ← contains.index]
        exact fits
      simp [Writers.count, Writers.commit, pc, step, kept]
    | idle | checked own | added own | rewound => simp [Writers.count, Writers.commit, pc]
  | interrupt text =>
    rw [Writers.count, Writers.commit, TraceCall.records_eq]
    cases found : (TraceCall.ethosuTraceLog text).handed with
    | none => simp
    | some handed =>
      have within := (TraceCall.handed_passes found).toWithin
      by_cases full : writers.trace.Full handed.len
      · simp [full, step, refused handed within full]
      · have fits : log.flatten.length + handed.len.toNat < rscTraceBufSize.toNat := by
          rw [contains.full_iff (Nat.lt_of_le_of_lt within.short (by decide))] at full
          exact Nat.not_le.mp full
        have kept : offer rscTraceBufSize.toNat log handed.record = log ++ [handed.record] :=
          offer_of_fits (by rwa [within.record_length])
        simp [full, step, kept]

/-- An allowed run keeps the trace in agreement with the log of what it commits. -/
theorem linearized_inv (empty : trace.Holds [])
    (steps : EachStep Writers.step Writers.Allows (.start trace) events) :
    (Counting.mk (run Writers.step (.start trace) events)
      (kept rscTraceBufSize.toNat ((linearized trace events).map Prod.snd))).Inv := by
  have linearizes (writers : Writers) (log : List (List UInt8)) (event : WriterEvent)
      (inv : (Counting.mk writers log).Inv) (allowed : writers.Allows event) :
      (Counting.mk (writers.step event)
        (run (fun log entry => step rscTraceBufSize.toNat log entry.2) log (writers.commit event))).Inv := by
    rw [run_tagged, ← count_eq_commit inv event]
    exact inv.step event allowed
  have ends := run_linearized (Counting.start_inv empty) steps linearizes
  rwa [run_tagged] at ends

/-! ### The writers -/

theorem step_interrupt_pc (writers : Writers) (text : List UInt8) :
    (writers.step (.interrupt text)).pc = writers.pc := by
  rw [Writers.step]
  split
  · rfl
  · split <;> rfl

private theorem step_thread_owed (writers : Writers) : writers.pc.owed =
    view .threadMode (writers.commit .thread) ++ (writers.step .thread).pc.owed := by
  cases pc : writers.pc <;> simp [Writers.step, Writers.commit, pc, Pc.owed, Pc.pending, view]

private theorem step_thread_left (writers : Writers) :
    (writers.step .thread).pc.left ≤ writers.pc.left - 1 := by
  cases pc : writers.pc <;> simp [Writers.step, pc, Pc.left]

private theorem step_enter_owed (idle : writers.pc = .idle) (call : TraceCall) : call.records.map .offer =
    view .threadMode (writers.commit (.enter call)) ++ (writers.step (.enter call)).pc.owed := by
  rw [TraceCall.records_eq]
  cases found : call.handed with
  | none => simp [Writers.step, Writers.commit, idle, found, Pc.owed, Pc.pending, view]
  | some handed =>
    by_cases full : writers.trace.Full handed.len <;>
      simp [Writers.step, Writers.commit, idle, found, full, Pc.owed, Pc.pending, view]

private theorem step_enter_left (idle : writers.pc = .idle) (call : TraceCall) :
    (writers.step (.enter call)).pc.left ≤ 3 := by
  cases found : call.handed with
  | none => simp [Writers.step, idle, found, Pc.left]
  | some handed =>
    by_cases full : writers.trace.Full handed.len <;> simp [Writers.step, idle, found, full, Pc.left]

private theorem Pc.idle_of_left {pc : Pc} (done : pc.left ≤ 0) : pc = .idle := by
  cases pc <;> simp [Pc.left] at done ⊢

namespace Scheduled

/-- A first statement is that of the next operation, and thread mode is idle. -/
theorem begins (scheduled : Scheduled writers (event :: events) ops) (own : event.ofThread)
    (first : event ≠ .thread) : writers.pc = .idle ∧ ∃ op later, ops = op :: later ∧
      event :: events.filter WriterEvent.ofThread = op.statements ++ later.flatMap TraceOp.statements := by
  obtain ⟨rest, left, thread⟩ := scheduled
  rw [List.filter_cons_of_pos own] at thread
  cases rest with
  | succ rest => exact absurd (List.cons.inj thread).1 first
  | zero =>
    refine ⟨Pc.idle_of_left left, ?_⟩
    cases ops with
    | nil => simp at thread
    | cons op later => exact ⟨op, later, rfl, thread⟩

theorem enter {call : TraceCall} (scheduled : Scheduled writers (.enter call :: events) ops) :
    writers.pc = .idle ∧ ∃ later, ops = .write call :: later ∧
      Scheduled (writers.step (.enter call)) events later := by
  obtain ⟨idle, op, later, rfl, thread⟩ := scheduled.begins rfl nofun
  cases op with
  | reset => simp [TraceOp.statements] at thread
  | write other =>
    obtain ⟨same, behind⟩ := List.cons.inj thread
    obtain rfl := WriterEvent.enter.inj same
    exact ⟨idle, later, rfl, 3, step_enter_left idle call, behind⟩

theorem rewind (scheduled : Scheduled writers (.rewind :: events) ops) :
    writers.pc = .idle ∧ ∃ later, ops = .reset :: later ∧ Scheduled (writers.step .rewind) events later := by
  obtain ⟨idle, op, later, rfl, thread⟩ := scheduled.begins rfl nofun
  cases op with
  | write call => simp [TraceOp.statements] at thread
  | reset =>
    have behind := (List.cons.inj thread).2
    exact ⟨idle, later, rfl, 1, by simp [Writers.step, idle, Pc.left], behind⟩

theorem thread (scheduled : Scheduled writers (.thread :: events) ops) :
    Scheduled (writers.step .thread) events ops := by
  obtain ⟨rest, left, thread⟩ := scheduled
  rw [List.filter_cons_of_pos rfl] at thread
  cases rest with
  | succ rest =>
    have behind := (List.cons.inj thread).2
    have less := step_thread_left writers
    exact ⟨rest, by omega, behind⟩
  | zero =>
    cases ops with
    | nil => simp at thread
    | cons op later => cases op <;> simp [TraceOp.statements] at thread

theorem interrupt {text : List UInt8} (scheduled : Scheduled writers (.interrupt text :: events) ops) :
    Scheduled (writers.step (.interrupt text)) events ops := by
  obtain ⟨rest, left, thread⟩ := scheduled
  rw [List.filter_cons_of_neg (by simp [WriterEvent.ofThread])] at thread
  exact ⟨rest, by rwa [step_interrupt_pc], thread⟩

/-- Thread mode ends at rest, and each writer has committed what it offered, in order. -/
theorem commits (scheduled : Scheduled writers events ops) :
    (run Writers.step writers events).pc = .idle ∧
      view .threadMode (committed Writers.step Writers.commit writers events) =
        writers.pc.owed ++ ops.flatMap TraceOp.events ∧
      view .handler (committed Writers.step Writers.commit writers events) =
        events.flatMap WriterEvent.ofHandler := by
  induction events generalizing writers ops with
  | nil =>
    obtain ⟨rest, left, thread⟩ := scheduled
    obtain ⟨still, nothing⟩ := List.append_eq_nil_iff.mp thread.symm
    obtain rfl : rest = 0 := by simpa using still
    have idle := Pc.idle_of_left left
    have finished : ops = [] := by
      cases ops with
      | nil => rfl
      | cons op later => cases op <;> simp [TraceOp.statements] at nothing
    simp [finished, idle, Pc.owed, Pc.pending, view]
  | cons event rest ih =>
    rw [committed_cons, view_append, view_append, List.flatMap_cons, run_cons]
    cases event with
    | enter call =>
      obtain ⟨idle, later, rfl, next⟩ := scheduled.enter
      obtain ⟨ends, own, others⟩ := ih next
      have first := step_enter_owed idle call
      have silent : view .handler (writers.commit (.enter call)) = [] := by
        rw [Writers.commit]
        split
        · split <;> rfl
        · rfl
      refine ⟨ends, ?_, by rw [silent, others]; rfl⟩
      rw [own, ← List.append_assoc, ← first, idle, List.flatMap_cons]
      rfl
    | rewind =>
      obtain ⟨idle, later, rfl, next⟩ := scheduled.rewind
      obtain ⟨ends, own, others⟩ := ih next
      have cleared : writers.commit .rewind = [(.threadMode, .clear)] := by simp [Writers.commit, idle]
      have nothing : (writers.step .rewind).pc.owed = [] := by
        simp [Writers.step, idle, Pc.owed, Pc.pending]
      refine ⟨ends, ?_, by rw [cleared, others]; rfl⟩
      rw [own, cleared, nothing, idle, List.flatMap_cons]
      rfl
    | thread =>
      obtain ⟨ends, own, others⟩ := ih scheduled.thread
      have silent : view .handler (writers.commit .thread) = [] := by
        rw [Writers.commit]
        split <;> rfl
      refine ⟨ends, ?_, by rw [silent, others]; rfl⟩
      rw [own, ← List.append_assoc, ← step_thread_owed]
    | interrupt text =>
      obtain ⟨ends, own, others⟩ := ih scheduled.interrupt
      have foreign : view .threadMode (writers.commit (.interrupt text)) = [] := by
        rw [Writers.commit, TraceCall.records_eq]
        cases (TraceCall.ethosuTraceLog text).handed <;> rfl
      have offers : view .handler (writers.commit (.interrupt text)) = WriterEvent.ofHandler (.interrupt text) := by
        rw [Writers.commit, WriterEvent.ofHandler, TraceCall.records_eq]
        cases (TraceCall.ethosuTraceLog text).handed <;> rfl
      exact ⟨ends, by rw [foreign, own, step_interrupt_pc]; rfl, by rw [offers, others]⟩

end Scheduled

theorem scheduled_start (whole : events.filter WriterEvent.ofThread = ops.flatMap TraceOp.statements) :
    Scheduled (.start trace) events ops :=
  ⟨0, Nat.le_refl _, whole⟩

end RunnerCm33
