import RunnerCm33.Trace.RunInvariant

/-! The trace under NPU interrupts: thread mode runs `trace_write` and the reset
before inference statement by statement, and between any two statements the
interrupt handler may log a record of its own from start to end. -/

namespace RunnerCm33

open RunnerCm33.Runs RunnerCm33.Memory

/-- Where thread mode stands in `trace_write` or in the reset. -/
inductive Pc where
  | idle
  | checked (handed : Handed)
  | copied (handed : Handed)
  | added (handed : Handed)
  | rewound
deriving DecidableEq, Repr

/-- The record thread mode has checked and not yet counted in `trace_idx`. -/
def Pc.pending : Pc → Option Handed
  | .checked own | .copied own => some own
  | .idle | .added _ | .rewound => none

/-- A record that passed its check, at the offset it was copied to. -/
structure Placed where
  offset : ℕ
  record : List UInt8
deriving DecidableEq, Repr

def Placed.stop (placed : Placed) : ℕ := placed.offset + placed.record.length

/-- The record stands in the buffer as it was copied. -/
def Placed.Whole (memory : ℕ → UInt8) (placed : Placed) : Prop :=
  read memory (traceBufferAddr + placed.offset) placed.record.length = placed.record

instance (memory : ℕ → UInt8) (placed : Placed) : Decidable (placed.Whole memory) :=
  inferInstanceAs (Decidable (_ = placed.record))

/-- The trace with its two writers, and the records placed since the last reset. -/
structure Writers where
  trace : Trace
  pc : Pc
  placed : List Placed

inductive WriterEvent where
  /-- Thread mode calls `trace_write` and makes the bounds check. -/
  | enter (call : TraceCall)
  /-- `main` sets `trace_idx = 0`, the first statement of the reset. -/
  | rewind
  /-- Thread mode executes the next statement. -/
  | thread
  /-- The interrupt handler runs a whole `ethosu_trace_log`. -/
  | interrupt (text : List UInt8)

namespace Writers

def start (trace : Trace) : Writers := ⟨trace, .idle, []⟩

/-- `memcpy` at the index of this moment. -/
def place (writers : Writers) (handed : Handed) : List Placed :=
  writers.placed ++ [⟨writers.trace.traceIdx.toNat, handed.record⟩]

def step (writers : Writers) : WriterEvent → Writers
  | .enter call =>
    match writers.pc, call.handed with
    | .idle, some handed =>
      if writers.trace.Full handed.len then writers else { writers with pc := .checked handed }
    | _, _ => writers
  | .rewind =>
    match writers.pc with
    | .idle => { trace := { writers.trace with traceIdx := 0 }, pc := .rewound, placed := [] }
    | _ => writers
  | .thread =>
    match writers.pc with
    | .idle => writers
    | .checked handed => {
        trace := writers.trace.copy handed.buf handed.len
        pc := .copied handed
        placed := writers.place handed }
    | .copied handed =>
        { writers with trace := writers.trace.advance handed.len, pc := .added handed }
    | .added _ => { writers with trace := writers.trace.terminate, pc := .idle }
    | .rewound => { writers with trace := writers.trace.store traceBufferAddr [0], pc := .idle }
  | .interrupt text =>
    match (TraceCall.ethosuTraceLog text).handed with
    | none => writers
    | some handed =>
      if writers.trace.Full handed.len then writers
      else { writers with
        trace := traceWrite writers.trace handed.buf handed.len
        placed := writers.place handed }

/-- What is asked of every state: all stores inside the buffer, the index below its
size, and every record that passed its check whole and not overlapped by another. -/
structure Safe (writers : Writers) : Prop where
  confined : writers.trace.Confined
  indexed : writers.trace.traceIdx ≤ 0xBFF
  whole : ∀ placed ∈ writers.placed, placed.Whole writers.trace.memory
  apart : writers.placed.Pairwise fun first second => first.stop ≤ second.offset

/-- Where an interrupt record may be accepted: not between the copy of a thread
record and its `trace_idx +=`, nor between the statements of the reset, and between
check and copy only if both records fit. -/
def Leaves (writers : Writers) (len : UInt32) : Prop :=
  match writers.pc with
  | .idle | .added _ => True
  | .checked own =>
      writers.trace.traceIdx.toNat + len.toNat + own.len.toNat < rscTraceBufSize.toNat
  | .copied _ | .rewound => False

/-- Every interrupt record is refused by its own check or leaves room as above. -/
def Allows (writers : Writers) : WriterEvent → Prop
  | .interrupt text => ∀ handed ∈ (TraceCall.ethosuTraceLog text).handed,
      writers.trace.Full handed.len ∨ writers.Leaves handed.len
  | _ => True

instance (writers : Writers) (len : UInt32) : Decidable (writers.Leaves len) := by
  unfold Leaves
  cases writers.pc <;> infer_instance

instance (writers : Writers) (event : WriterEvent) : Decidable (writers.Allows event) := by
  unfold Allows
  cases event <;> infer_instance

end Writers

/-- Placed records lie one after the other below a frontier, each of them whole. -/
structure Laid (trace : Trace) (placed : List Placed) (frontier : ℕ) : Prop where
  confined : trace.Confined
  whole : ∀ one ∈ placed, one.Whole trace.memory
  apart : placed.Pairwise fun first second => first.stop ≤ second.offset
  below : ∀ one ∈ placed, one.stop ≤ frontier

namespace Laid

variable {trace : Trace} {placed : List Placed} {frontier offset : ℕ} {bytes : List UInt8}
  {len : UInt32}

theorem store (laid : Laid trace placed frontier) (behind : frontier ≤ offset)
    (inside : offset + bytes.length ≤ rscTraceBufSize.toNat) :
    Laid (trace.store (traceBufferAddr + offset) bytes) placed frontier where
  confined := laid.confined.store offset inside
  whole := by
    intro one member
    have below : one.offset + one.record.length ≤ frontier := laid.below one member
    have same : read (write trace.memory (traceBufferAddr + offset) bytes)
        (traceBufferAddr + one.offset) one.record.length =
          read trace.memory (traceBufferAddr + one.offset) one.record.length :=
      read_write_apart (Or.inr (by omega))
    exact same.trans (laid.whole one member)
  apart := laid.apart
  below := laid.below

theorem place (laid : Laid trace placed frontier) (behind : frontier ≤ offset)
    (inside : offset + bytes.length ≤ rscTraceBufSize.toNat) :
    Laid (trace.store (traceBufferAddr + offset) bytes) (placed ++ [⟨offset, bytes⟩])
      (offset + bytes.length) where
  confined := laid.confined.store offset inside
  whole := by
    intro one member
    rcases List.mem_append.mp member with old | new
    · exact (laid.store behind inside).whole one old
    · obtain rfl := List.mem_singleton.mp new
      exact read_write
  apart := by
    rw [List.pairwise_append]
    refine ⟨laid.apart, List.pairwise_singleton .., ?_⟩
    intro one old new member
    obtain rfl := List.mem_singleton.mp member
    exact (laid.below one old).trans behind
  below := by
    intro one member
    rcases List.mem_append.mp member with old | new
    · exact ((laid.below one old).trans behind).trans (Nat.le_add_right ..)
    · obtain rfl := List.mem_singleton.mp new
      exact Nat.le_refl _

theorem advance (laid : Laid trace placed frontier) : Laid (trace.advance len) placed frontier :=
  ⟨laid.confined, laid.whole, laid.apart, laid.below⟩

end Laid

theorem Handed.Within.record_length {handed : Handed} (within : handed.Within) :
    handed.record.length = handed.len.toNat := by
  rw [Handed.record, List.length_take, Nat.min_eq_left within.available]

theorem Handed.Within.toNat_add {trace : Trace} {handed : Handed} (within : handed.Within)
    (indexed : trace.traceIdx.toNat < rscTraceBufSize.toNat) :
    (trace.traceIdx + handed.len).toNat = trace.traceIdx.toNat + handed.len.toNat := by
  have size := rscTraceBufSize_toNat
  have short := within.short
  rw [UInt32.toNat_add, Nat.mod_eq_of_lt (by omega)]

theorem room_of_not_full {trace : Trace} {handed : Handed}
    (indexed : trace.traceIdx.toNat < rscTraceBufSize.toNat) (within : handed.Within)
    (admitted : ¬trace.Full handed.len) :
    (trace.traceIdx + handed.len).toNat = trace.traceIdx.toNat + handed.len.toNat ∧
      trace.traceIdx.toNat + handed.len.toNat < rscTraceBufSize.toNat := by
  have sum := within.toNat_add indexed
  rw [Trace.Full, ge_iff_le, UInt32.le_iff_toNat_le, sum] at admitted
  exact ⟨sum, Nat.not_le.mp admitted⟩

/-- A whole `trace_write` that is admitted places its record at the frontier. -/
theorem Laid.traceWrite {trace : Trace} {placed : List Placed} {handed : Handed}
    (laid : Laid trace placed trace.traceIdx.toNat)
    (indexed : trace.traceIdx.toNat < rscTraceBufSize.toNat) (within : handed.Within)
    (admitted : ¬trace.Full handed.len) :
    Laid (traceWrite trace handed.buf handed.len)
      (placed ++ [⟨trace.traceIdx.toNat, handed.record⟩])
      (trace.traceIdx.toNat + handed.len.toNat) := by
  obtain ⟨sum, room⟩ := room_of_not_full indexed within admitted
  have copied := laid.place (Nat.le_refl _) (by
    rw [within.record_length]
    exact Nat.le_of_lt room)
  rw [within.record_length, ← sum] at copied
  have next : ((trace.copy handed.buf handed.len).advance handed.len).traceIdx.toNat <
      rscTraceBufSize.toNat := sum.trans_lt room
  rw [RunnerCm33.traceWrite, if_neg admitted, ← sum]
  exact copied.advance.store (Nat.le_refl _) next

namespace Writers

/-- The end of what has been copied: behind the index while a copied record waits
for its `trace_idx +=`. -/
def frontier (writers : Writers) : ℕ :=
  match writers.pc with
  | .copied own => writers.trace.traceIdx.toNat + own.len.toNat
  | _ => writers.trace.traceIdx.toNat

/-- What carries safety from step to step: the record thread mode has checked and
not yet counted still has its room. -/
structure Inv (writers : Writers) : Prop where
  laid : Laid writers.trace writers.placed writers.frontier
  indexed : writers.trace.traceIdx.toNat < rscTraceBufSize.toNat
  pending : ∀ own ∈ writers.pc.pending, own.Within ∧
    writers.trace.traceIdx.toNat + own.len.toNat < rscTraceBufSize.toNat
  rewound : writers.pc = .rewound → writers.trace.traceIdx = 0

variable {writers : Writers}

private theorem Inv.safe (inv : writers.Inv) : writers.Safe where
  confined := inv.laid.confined
  indexed := index_le_iff.mpr inv.indexed
  whole := inv.laid.whole
  apart := inv.laid.apart

private theorem frontier_of_uncopied (writers : Writers) (uncopied : ∀ own, writers.pc ≠ .copied own) :
    writers.frontier = writers.trace.traceIdx.toNat := by
  cases pc : writers.pc with
  | copied own => exact absurd pc (uncopied own)
  | idle | checked own | added own | rewound => simp [frontier, pc]

theorem Inv.enter (inv : writers.Inv) (call : TraceCall) : (writers.step (.enter call)).Inv := by
  cases pc : writers.pc with
  | idle =>
    cases found : call.handed with
    | none => simpa [step, pc, found] using inv
    | some handed =>
      by_cases full : writers.trace.Full handed.len
      · simpa [step, pc, found, full] using inv
      · have passes := TraceCall.handed_passes found
        obtain ⟨-, room⟩ := room_of_not_full inv.indexed passes.toWithin full
        have laid := inv.laid
        simp only [frontier, pc] at laid
        simp only [step, pc, found, full, if_false]
        refine ⟨laid, inv.indexed, ?_, by simp⟩
        intro own same
        obtain rfl := Option.some.inj same
        exact ⟨passes.toWithin, room⟩
  | checked own | copied own | added own | rewound => simpa [step, pc] using inv

/-- The first statement of the reset forgets the records; the second is pending. -/
theorem Inv.rewind (inv : writers.Inv) : (writers.step .rewind).Inv := by
  cases pc : writers.pc with
  | idle =>
    have empty : Laid { writers.trace with traceIdx := 0 } [] 0 :=
      ⟨inv.laid.confined, by simp, by simp, by simp⟩
    simp only [step, pc]
    exact ⟨empty, (show 0 < rscTraceBufSize.toNat by decide), by simp [Pc.pending], fun _ => rfl⟩
  | checked own | copied own | added own | rewound => simpa [step, pc] using inv

/-- Each statement of `trace_write` and of the reset keeps the invariant. -/
theorem Inv.thread (inv : writers.Inv) : (writers.step .thread).Inv := by
  have laid := inv.laid
  cases pc : writers.pc with
  | idle => simpa [step, pc] using inv
  | checked own =>
    obtain ⟨within, room⟩ := inv.pending own (by simp [pc, Pc.pending])
    simp only [frontier, pc] at laid
    simp only [step, pc]
    have placed := laid.place (Nat.le_refl _) (by
      rw [within.record_length]
      exact Nat.le_of_lt room)
    rw [within.record_length] at placed
    refine ⟨placed, inv.indexed, ?_, by simp⟩
    intro other same
    obtain rfl := Option.some.inj same
    exact ⟨within, room⟩
  | copied own =>
    obtain ⟨within, room⟩ := inv.pending own (by simp [pc, Pc.pending])
    have sum := within.toNat_add inv.indexed
    simp only [frontier, pc, ← sum] at laid
    simp only [step, pc]
    refine ⟨laid.advance, ?_, by simp [Pc.pending], by simp⟩
    rwa [Trace.advance, sum]
  | added own =>
    simp only [frontier, pc] at laid
    simp only [step, pc]
    exact ⟨laid.store (Nat.le_refl _) inv.indexed, inv.indexed, by simp [Pc.pending], by simp⟩
  | rewound =>
    have zero := inv.rewound pc
    simp only [frontier, pc, zero] at laid
    simp only [step, pc]
    have cleared : Laid (writers.trace.store (traceBufferAddr + 0) [0]) writers.placed 0 :=
      laid.store (Nat.le_refl 0) (by decide)
    refine ⟨?_, inv.indexed, by simp [Pc.pending], by simp⟩
    simpa only [frontier, Trace.store, zero, Nat.add_zero, UInt32.toNat_zero] using cleared

/-- An interrupt record that is refused or leaves room keeps the invariant. -/
theorem Inv.interrupt (inv : writers.Inv) (text : List UInt8)
    (allowed : writers.Allows (.interrupt text)) : (writers.step (.interrupt text)).Inv := by
  cases found : (TraceCall.ethosuTraceLog text).handed with
  | none => simpa [step, found] using inv
  | some handed =>
    by_cases full : writers.trace.Full handed.len
    · simpa [step, found, full] using inv
    · have passes := TraceCall.handed_passes found
      obtain ⟨sum, room⟩ := room_of_not_full inv.indexed passes.toWithin full
      have leaves : writers.Leaves handed.len := (allowed handed found).resolve_left full
      have index : (traceWrite writers.trace handed.buf handed.len).traceIdx.toNat =
          writers.trace.traceIdx.toNat + handed.len.toNat := by
        rw [← sum, traceWrite, if_neg full]
        rfl
      have laid := inv.laid
      have uncopied : ∀ own, writers.pc ≠ .copied own := by
        intro own pc
        simp [Leaves, pc] at leaves
      rw [frontier_of_uncopied writers uncopied] at laid
      have written := laid.traceWrite inv.indexed passes.toWithin full
      rw [← index] at written
      simp only [step, found, full, if_false]
      refine ⟨?_, by rwa [index], ?_, ?_⟩
      · have edge := frontier_of_uncopied
          ⟨traceWrite writers.trace handed.buf handed.len, writers.pc, writers.place handed⟩ uncopied
        rw [edge]
        exact written
      · intro own pending
        refine ⟨(inv.pending own pending).1, ?_⟩
        cases pc : writers.pc with
        | checked other =>
          simp only [pc, Pc.pending, Option.mem_some_iff] at pending
          rw [Leaves, pc] at leaves
          rw [index, ← pending]
          exact leaves
        | copied other => exact absurd pc (uncopied other)
        | idle | added other | rewound => simp [pc, Pc.pending] at pending
      · intro rewound
        have pc : writers.pc = .rewound := rewound
        simp [Leaves, pc] at leaves

theorem Inv.step (inv : writers.Inv) (event : WriterEvent) (allowed : writers.Allows event) :
    (writers.step event).Inv := by
  cases event with
  | enter call => exact inv.enter call
  | rewind => exact inv.rewind
  | thread => exact inv.thread
  | interrupt text => exact inv.interrupt text allowed

end Writers

variable {trace : Trace}

theorem Writers.start_inv (reset : trace.traceIdx = 0) (confined : trace.Confined) :
    (Writers.start trace).Inv := by
  refine ⟨⟨confined, ?_, ?_, ?_⟩, ?_, ?_, ?_⟩
  · simp [start]
  · simp [start]
  · simp [start]
  · simp only [start, reset]
    decide
  · simp [start, Pc.pending]
  · simp [start]

/-- In every run of records and resets whose interrupt records are refused or leave
room, every state passed through is safe. -/
theorem interrupts_safe (trace : Trace) (events : List WriterEvent) (reset : trace.traceIdx = 0)
    (confined : trace.Confined)
    (steps : EachStep Writers.step Writers.Allows (Writers.start trace) events) :
    Always Writers.step Writers.Safe (Writers.start trace) events := by
  have always := steps.always (Writers.start_inv reset confined)
    fun writers event inv allowed => inv.step event allowed
  exact fun past before => (always past before).safe

/-- The statements of one operation, without interrupts. -/
def TraceOp.statements : TraceOp → List WriterEvent
  | .write call => [.enter call, .thread, .thread, .thread]
  | .reset => [.rewind, .thread]

/-- Thread mode is outside `trace_write` and the reset, with this trace. -/
def Writers.Rests (writers : Writers) (trace : Trace) : Prop :=
  writers.trace = trace ∧ writers.pc = .idle

theorem run_statements {writers : Writers} (rests : writers.Rests trace) (op : TraceOp) :
    (run Writers.step writers op.statements).Rests (traceStep trace op) := by
  obtain ⟨rfl, idle⟩ := rests
  cases op with
  | reset =>
    simp [Writers.Rests, TraceOp.statements, Writers.step, idle, traceStep, resetTrace, Trace.store]
  | write call =>
    cases found : call.handed with
    | none => simp [Writers.Rests, TraceOp.statements, Writers.step, idle, traceStep, found]
    | some handed =>
      by_cases full : writers.trace.Full handed.len <;>
        simp [Writers.Rests, TraceOp.statements, Writers.step, idle, traceStep, traceWrite, found, full]

theorem run_uninterrupted (trace : Trace) (ops : List TraceOp) :
    (run Writers.step (Writers.start trace) (ops.flatMap TraceOp.statements)).Rests
      (run traceStep trace ops) := by
  rw [run_flatMap]
  apply run_simulates
  · exact ⟨rfl, rfl⟩
  · exact fun _ _ op rests => run_statements rests op

/-- An interrupt record between check and copy that leaves room, one before the NUL
store, and one after a reset. -/
theorem interrupts_safe_between :
    Always Writers.step Writers.Safe (Writers.start ⟨0, fun _ => 0, []⟩)
      [.enter (.main .ethosuInitDone), .interrupt (ascii "I: done\n"), .thread, .thread,
        .interrupt (ascii "I: again\n"), .thread, .rewind, .thread, .interrupt (ascii "I: done\n")] :=
  interrupts_safe ⟨0, fun _ => 0, []⟩ _ rfl (by simp [Trace.Confined]) (by decide)

/-- Behind the reset, in front of which `main` has enabled the interrupt, an interrupt record
right after the copy overwrites the thread's record. -/
theorem interrupts_overwrite :
    ¬ ∀ (trace : Trace) (events : List WriterEvent), trace.traceIdx = 0 → trace.Confined →
      Always Writers.step Writers.Safe (Writers.start trace) events := by
  intro claim
  have safe := (claim ⟨0, fun _ => 0, []⟩
    [.rewind, .thread, .enter (.etPalEmitLogMessage .info (ascii "arm_executor_runner.cpp") 1337
      (ascii "Starting running 1 inferences...")), .thread, .interrupt (ascii "I: done\n")] rfl
    (by simp [Trace.Confined])).last
  have first := safe.whole
    ⟨0, ascii "I [arm_executor_runner.cpp:1337] Starting running 1 inferences...\n"⟩ (by decide)
  exact absurd first (by decide)

end RunnerCm33
