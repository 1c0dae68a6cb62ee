import RunnerCm33.Trace.Callers

/-! The trace over whole runs without interrupts: every sequence of calls and
resets keeps the buffer, the index and the kept records in agreement. -/

namespace RunnerCm33

open RunnerCm33.Runs RunnerCm33.BoundedLog

/-- One call of `trace_write`, or the reset before inference. -/
inductive TraceOp where
  | write (call : TraceCall)
  | reset

def traceStep (trace : Trace) : TraceOp → Trace
  | .write call =>
    match call.handed with
    | some handed => traceWrite trace handed.buf handed.len
    | none => trace
  | .reset => resetTrace trace

/-- What an operation means for the log of records. -/
def TraceOp.events : TraceOp → List (Event UInt8)
  | .write call => call.records.map .offer
  | .reset => [.clear]

/-- The records in the trace after a sequence of operations. -/
def keptRecords (ops : List TraceOp) : List (List UInt8) :=
  kept rscTraceBufSize.toNat (ops.flatMap TraceOp.events)

/-- The trace as `copyResourceTable` leaves it before any record. -/
def startTrace (memory : ℕ → UInt8) : Trace :=
  { copyResourceTable ⟨0, memory, []⟩ with stored := [] }

/-- A trace in agreement with its log, and what its next record will do to it. -/
structure Trace.Sound (trace : Trace) (log : List (List UInt8)) : Prop extends trace.Holds log where
  confined : trace.Confined
  indexed : trace.traceIdx ≤ 0xBFF
  accepts : ∀ (call : TraceCall) (handed : Handed), call.handed = some handed →
    trace.traceIdx.toNat + handed.len.toNat < rscTraceBufSize.toNat →
    (traceWrite trace handed.buf handed.len).Holds (log ++ [call.text.take 255])
  drops : ∀ (call : TraceCall) (handed : Handed), call.handed = some handed →
    rscTraceBufSize.toNat ≤ trace.traceIdx.toNat + handed.len.toNat →
    traceWrite trace handed.buf handed.len = trace
  reads : (∀ record ∈ log, 0 ∉ record) → trace0 trace = log.flatten

variable {trace : Trace} {log : List (List UInt8)} {memory : ℕ → UInt8}

theorem startTrace_holds : (startTrace memory).Holds [] where
  index := rfl
  bounded := by decide
  content := Memory.read_zero
  ended := by
    have zero := copyResourceTable_zero ⟨0, memory, []⟩ (show 0 < rscTraceBufSize.toNat by decide)
    simpa only [startTrace, List.flatten_nil, List.length_nil] using zero

/-- What a call does to the trace: nothing without a record, and otherwise one
`trace_write` of the record it offers. -/
theorem traceStep_write_cases (trace : Trace) (call : TraceCall) :
    (traceStep trace (.write call) = trace ∧ call.records = []) ∨
      ∃ handed : Handed, handed.Passes call.text ∧ call.records = [handed.record] ∧
        traceStep trace (.write call) = traceWrite trace handed.buf handed.len := by
  cases found : call.handed with
  | none =>
    have absent := TraceCall.handed_eq_none found
    exact .inl ⟨by simp [traceStep, found], by simp [TraceCall.records, absent]⟩
  | some handed =>
    have passes := TraceCall.handed_passes found
    refine .inr ⟨handed, passes, ?_, by simp [traceStep, found]⟩
    simp [TraceCall.records, passes.formats, passes.record]

theorem traceStep_contains (contains : trace.Contains log) (call : TraceCall) :
    (traceStep trace (.write call)).Contains
      (run (step rscTraceBufSize.toNat) log (call.records.map .offer)) := by
  obtain ⟨same, none⟩ | ⟨handed, passes, record, written⟩ := traceStep_write_cases trace call
  · rwa [same, none]
  · rw [written, record]
    exact contains.traceWrite_offer passes.small passes.available

private theorem traceStep_holds (holds : trace.Holds log) (op : TraceOp) :
    (traceStep trace op).Holds (run (step rscTraceBufSize.toNat) log op.events) := by
  cases op with
  | reset => exact Trace.resetTrace_holds
  | write call =>
    rw [TraceOp.events]
    obtain ⟨same, none⟩ | ⟨handed, passes, record, written⟩ := traceStep_write_cases trace call
    · rwa [same, none]
    · rw [written, record]
      exact holds.traceWrite_offer passes.small passes.available

private theorem traceStep_confined (contains : trace.Contains log) (confined : trace.Confined)
    (op : TraceOp) :
    (traceStep trace op).Confined := by
  cases op with
  | reset => exact confined.resetTrace
  | write call =>
    obtain ⟨same, -⟩ | ⟨handed, passes, -, written⟩ := traceStep_write_cases trace call
    · rwa [same]
    · rw [written]
      exact contains.traceWrite_confined passes.small passes.available confined

theorem run_holds (holds : trace.Holds log) (ops : List TraceOp) :
    (run traceStep trace ops).Holds
      (run (step rscTraceBufSize.toNat) log (ops.flatMap TraceOp.events)) := by
  rw [run_flatMap]
  exact run_simulates holds fun _ _ op holds => traceStep_holds holds op

private theorem run_confined (holds : trace.Holds log) (confined : trace.Confined) (ops : List TraceOp) :
    (run traceStep trace ops).Confined := by
  induction ops generalizing trace log with
  | nil => exact confined
  | cons op rest ih =>
    exact ih (traceStep_holds holds op) (traceStep_confined holds.toContains confined op)

theorem Trace.Holds.sound (holds : trace.Holds log) (confined : trace.Confined) :
    trace.Sound log where
  toHolds := holds
  confined := confined
  indexed := holds.index_le
  accepts := by
    intro call handed found fits
    have passes := TraceCall.handed_passes found
    rw [holds.index] at fits
    rw [← passes.record]
    exact holds.traceWrite_of_fits passes.small passes.available fits
  drops := by
    intro call handed found full
    have passes := TraceCall.handed_passes found
    rw [holds.index] at full
    exact holds.traceWrite_of_full passes.small full
  reads := by
    intro clean
    rw [holds.trace0_eq, Memory.takeWhile_flatten_eq_iff.mpr clean]

/-- For every run of calls and resets from the zeroed buffer: no caller hands over
more than its buffer holds, and the trace agrees with the log of kept records. -/
theorem trace_run_invariant (memory : ℕ → UInt8) (ops : List TraceOp) :
    (∀ (call : TraceCall) (handed : Handed), call.handed = some handed →
      handed.len.toNat ≤ handed.size) ∧
      (run traceStep (startTrace memory) ops).Sound (keptRecords ops) := by
  constructor
  · intro call handed found
    have passes := TraceCall.handed_passes found
    exact passes.available.trans passes.sized
  · exact (run_holds startTrace_holds ops).sound (run_confined startTrace_holds (by
      simp [startTrace, Trace.Confined]) ops)

end RunnerCm33
