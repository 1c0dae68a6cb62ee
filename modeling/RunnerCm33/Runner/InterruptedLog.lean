import RunnerCm33.Runner.InferenceLog
import RunnerCm33.Trace.Linearized

/-! The log of the inferences while the NPU interrupts. The records of the program and
those of the interrupts share the trace, and as long as they fit together neither of the
two loses any. -/

namespace RunnerCm33

open RunnerCm33.Runs RunnerCm33.BoundedLog RunnerCm33.SharedLog

/-- The records that interrupts offer after the last reset. -/
def interruptRecords (events : List WriterEvent) : List (List UInt8) :=
  offered (events.flatMap WriterEvent.ofHandler)

def Author.records (own others : List (List UInt8)) : Author → List (List UInt8)
  | .threadMode => own
  | .handler => others

variable {trace : Trace} {events : List WriterEvent} {ops : List TraceOp}

private theorem interruptRecords_clean (noNul : ∀ text, .interrupt text ∈ events → 0 ∉ text) :
    ∀ record ∈ interruptRecords events, 0 ∉ record := by
  intro record member
  obtain ⟨event, present, offers⟩ := List.mem_flatMap.mp (mem_of_mem_offered member)
  cases event with
  | interrupt text =>
    obtain ⟨own, listed, same⟩ := List.mem_map.mp offers
    obtain rfl := Event.offer.inj same
    have clean : 0 ∉ (TraceCall.ethosuTraceLog text).text := noNul text present
    exact records_clean clean own listed
  | enter call | rewind | thread => simp [WriterEvent.ofHandler] at offers

/-- The log of an interleaving is a merge of both contexts' records since the reset. -/
theorem merges_linearized
    (whole : events.filter WriterEvent.ofThread = ops.flatMap TraceOp.statements) :
    Merges (Author.records (recordsOf (sinceReset ops)) (interruptRecords events))
      (offered ((linearized trace events).map Prod.snd)) := by
  have scheduled : Scheduled (.start trace) events ops := scheduled_start whole
  obtain ⟨-, own, others⟩ := scheduled.commits
  obtain ⟨tagged, content, parts⟩ := merges_offered (linearized trace events)
  refine ⟨tagged, content, fun author => (parts author).trans ?_⟩
  cases author with
  | threadMode => exact (congrArg offered own).trans (offered_events ops)
  | handler => exact congrArg offered others

private theorem merges_perm {own others log : List (List UInt8)}
    (merges : Merges (Author.records own others) log) :
    log.Perm (own ++ others) := by
  have apart : Author.threadMode ≠ .handler := nofun
  exact merges.perm apart fun author => by cases author <;> simp

/-- What fits together is all in the trace when thread mode has finished. -/
theorem interrupted_holds (empty : trace.Holds [])
    (whole : events.filter WriterEvent.ofThread = ops.flatMap TraceOp.statements)
    (steps : EachStep Writers.step Writers.Allows (.start trace) events)
    (fits : (recordsOf (sinceReset ops)).flatten.length + (interruptRecords events).flatten.length <
      rscTraceBufSize.toNat) :
    (run Writers.step (.start trace) events).trace.Holds (offered ((linearized trace events).map Prod.snd)) := by
  have scheduled : Scheduled (.start trace) events ops := scheduled_start whole
  have merges : Merges _ (offered ((linearized trace events).map Prod.snd)) := merges_linearized whole
  have total := (merges_perm merges).flatten.length_eq
  rw [List.flatten_append, List.length_append] at total
  have holds := (linearized_inv empty steps).holds scheduled.commits.1
  rwa [kept_of_fits (by omega)] at holds

/-- Between two operations every interrupt record is refused or leaves room. -/
theorem allowed_between {writers : Writers} (idle : writers.pc = .idle) (text : List UInt8) (ops : List TraceOp) :
    EachStep Writers.step Writers.Allows writers (ops.flatMap fun op => .interrupt text :: op.statements) := by
  induction ops generalizing writers with
  | nil => trivial
  | cons op rest ih =>
    have allowed : writers.Allows (.interrupt text) := fun _ _ => .inr (by simp [Writers.Leaves, idle])
    have next : (writers.step (.interrupt text)).pc = .idle := (step_interrupt_pc writers text).trans idle
    have rests := run_statements ⟨rfl, next⟩ op
    have statements : EachStep Writers.step Writers.Allows (writers.step (.interrupt text)) op.statements := by
      cases op <;> simp [TraceOp.statements, EachStep, Writers.Allows]
    rw [List.flatMap_cons, List.cons_append]
    exact ⟨allowed, eachStep_append.mpr ⟨statements, ih rests.2⟩⟩

end RunnerCm33
