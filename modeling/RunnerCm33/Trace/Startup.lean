import RunnerCm33.Trace.RunInvariant

/-! The trace across start-up: records may be written before `main` calls
`copyResourceTable`, which clears the buffer and leaves the index where it is. -/

namespace RunnerCm33

open RunnerCm33.Runs RunnerCm33.BoundedLog

/-- From power-on, with the index zero and any memory: the early records, the copy
of the resource table, and the records up to the reset before inference. -/
def startUp (memory : ℕ → UInt8) (early late : List TraceCall) : Trace :=
  run traceStep (copyResourceTable (run traceStep ⟨0, memory, []⟩ (early.map .write)))
    (late.map .write)

/-- The callers that can run during static construction or `BOARD_InitHardware`. -/
def TraceCall.beforeMain : TraceCall → Bool
  | .operatorNew _ | .operatorNewArray _ | .etPalEmitLogMessage .. => true
  | _ => false

def recordsOf (calls : List TraceCall) : List (List UInt8) := calls.flatMap TraceCall.records

/-- The bytes accepted before `copyResourceTable`, where the index still stands after it. -/
def earlyBytes (early : List TraceCall) : ℕ :=
  (accepted rscTraceBufSize.toNat 0 (recordsOf early)).flatten.length

/-- The records accepted after `copyResourceTable` returned. -/
def acceptedLate (early late : List TraceCall) : List (List UInt8) :=
  accepted rscTraceBufSize.toNat (earlyBytes early) (recordsOf late)

variable {trace : Trace} {log : List (List UInt8)} {record : List UInt8}
  {calls early late : List TraceCall} {memory : ℕ → UInt8}

theorem record_length (member : record ∈ recordsOf calls) :
    0 < record.length ∧ record.length ≤ 255 := by
  obtain ⟨call, -, offered⟩ := List.mem_flatMap.mp member
  unfold TraceCall.records at offered
  split at offered
  · rename_i formats
    obtain rfl := List.mem_singleton.mp offered
    have positive := formats.1
    rw [List.length_take]
    omega
  · simp at offered

/-- The first record always fits, so an index of zero means no early records. -/
theorem earlyBytes_eq_zero_iff : earlyBytes early = 0 ↔ recordsOf early = [] := by
  constructor
  · intro none
    cases found : recordsOf early with
    | nil => rfl
    | cons first rest =>
      obtain ⟨positive, short⟩ := record_length (show first ∈ recordsOf early by simp [found])
      have fits : 0 + first.length < rscTraceBufSize.toNat := by
        have size := rscTraceBufSize_toNat
        omega
      rw [earlyBytes, found, accepted, if_pos fits, List.flatten_cons, List.length_append] at none
      omega
  · intro none
    simp [earlyBytes, none, accepted]

private theorem events_writes : (calls.map TraceOp.write).flatMap TraceOp.events =
    (recordsOf calls).map .offer := by
  rw [recordsOf, List.map_flatMap, List.flatMap_map]
  rfl

private theorem writes_contains (contains : trace.Contains log) (calls : List TraceCall) :
    (run traceStep trace (calls.map .write)).Contains
      (log ++ accepted rscTraceBufSize.toNat log.flatten.length (recordsOf calls)) := by
  rw [← run_offers]
  induction calls generalizing trace log with
  | nil => exact contains
  | cons call rest ih =>
    simpa [recordsOf] using ih (traceStep_contains contains call)

/-- The cleared buffer reads as NUL bytes up to the index that was left standing. -/
theorem copyResourceTable_holds (contains : trace.Contains log) :
    (copyResourceTable trace).Holds [List.replicate log.flatten.length 0] where
  index := by
    rw [List.flatten_singleton, List.length_replicate]
    exact contains.index
  bounded := by
    rw [List.flatten_singleton, List.length_replicate]
    exact contains.bounded
  content := by
    rw [List.flatten_singleton, List.length_replicate]
    exact Memory.read_eq_replicate fun index below =>
      copyResourceTable_zero trace (below.trans contains.bounded)
  ended := by
    rw [List.flatten_singleton, List.length_replicate]
    exact copyResourceTable_zero trace contains.bounded

private theorem startUp_holds (memory : ℕ → UInt8) (early late : List TraceCall) :
    (startUp memory early late).Holds
      (List.replicate (earlyBytes early) 0 :: acceptedLate early late) := by
  have blank : (⟨0, memory, []⟩ : Trace).Contains [] :=
    ⟨rfl, by decide, Memory.read_zero⟩
  have cleared := copyResourceTable_holds (writes_contains blank early)
  have final := run_holds cleared (late.map .write)
  rw [events_writes, run_offers] at final
  simpa [startUp, earlyBytes, acceptedLate] using final

/-- The text Linux reads is the late records' exactly when no record came before
`copyResourceTable` and none of the late ones contains a NUL, or no late record
was accepted at all. -/
theorem startUp_text_iff (memory : ℕ → UInt8) (early late : List TraceCall) :
    trace0 (startUp memory early late) = (acceptedLate early late).flatten ↔
      recordsOf early = [] ∧ (∀ record ∈ acceptedLate early late, 0 ∉ record) ∨
        acceptedLate early late = [] := by
  rw [(startUp_holds memory early late).trace0_eq, List.flatten_cons, ← earlyBytes_eq_zero_iff]
  cases index : earlyBytes early with
  | zero =>
    rw [List.replicate_zero, List.nil_append, Memory.takeWhile_flatten_eq_iff]
    constructor
    · exact fun clean => .inl ⟨rfl, clean⟩
    · rintro (⟨-, clean⟩ | none)
      · exact clean
      · simp [none]
  | succ bytes =>
    rw [List.replicate_succ, List.cons_append, List.takeWhile_cons_of_neg (by simp)]
    constructor
    · intro empty
      refine .inr (List.eq_nil_iff_forall_not_mem.mpr fun record member => ?_)
      have positive := (record_length (mem_of_mem_accepted member)).1
      have absent := List.flatten_eq_nil_iff.mp empty.symm record member
      simp [absent] at positive
    · rintro (⟨none, -⟩ | none)
      · cases none
      · simp [none]

/-- After one failed allocation before `main`, the start-up log reads as empty. -/
theorem startUp_loses_log :
    ¬ ∀ (memory : ℕ → UInt8) (early late : List TraceCall), (∀ call ∈ early, call.beforeMain) →
      trace0 (startUp memory early late) = (acceptedLate early late).flatten := by
  intro claim
  have text := claim (fun _ => 0) [.operatorNew 0x100000] [.main .ethosuInitStarting] (by decide)
  rw [(startUp_holds _ _ _).trace0_eq] at text
  exact absurd text (by decide)

end RunnerCm33
