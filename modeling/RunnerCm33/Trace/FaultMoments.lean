import RunnerCm33.Trace.FaultAppends
import RunnerCm33.Trace.Interrupts

/-! A fault may come between any two statements of thread mode. Its handler starts from
`trace_idx`, so its report follows the records counted there, whatever was being written. -/

namespace RunnerCm33

open RunnerCm33.Runs RunnerCm33.Memory RunnerCm33.BoundedLog RunnerCm33.Numerals RunnerCm33.Fields

/-- The faults with a handler, and what its reads find. -/
inductive Fault where
  | hard
  | usage (word : UInt32 → UInt32) (sp : UInt32)
  | bus (word : UInt32 → UInt32) (frame : UInt32)

/-- The trace when the handler waits for events, which it does forever. -/
def Fault.handle (trace : Trace) : Fault → Trace
  | .hard => hardFaultHandler trace
  | .usage word sp => usageFaultHandler word sp trace
  | .bus word frame => busFaultHandlerC word frame trace

/-- A text is the fault's report, as far as there is room for it. -/
def Fault.Reports (room : ℕ) (text : List UInt8) : Fault → Prop
  | .hard => text = hardFaultReport.take room
  | .usage word sp => text = (UsageFault.recorded word sp).report.take room
  | .bus word frame => (BusFault.recorded word frame).Cut room text

/-- The records that `trace_idx` counts after an event: a thread record from its
`trace_idx +=` on, an interrupt record that is accepted, and none after a reset. -/
def Writers.count (writers : Writers) (counted : List (List UInt8)) : WriterEvent → List (List UInt8)
  | .enter _ => counted
  | .rewind =>
    match writers.pc with
    | .idle => []
    | _ => counted
  | .thread =>
    match writers.pc with
    | .copied handed => counted ++ [handed.record]
    | _ => counted
  | .interrupt text =>
    match (TraceCall.ethosuTraceLog text).handed with
    | none => counted
    | some handed => if writers.trace.Full handed.len then counted else counted ++ [handed.record]

/-- The writers, and the records counted so far. -/
structure Counting where
  writers : Writers
  counted : List (List UInt8)

namespace Counting

def start (trace : Trace) : Counting := ⟨.start trace, []⟩

def step (counting : Counting) (event : WriterEvent) : Counting :=
  ⟨counting.writers.step event, counting.writers.count counting.counted event⟩

def Allows (counting : Counting) (event : WriterEvent) : Prop := counting.writers.Allows event

instance (counting : Counting) (event : WriterEvent) : Decidable (counting.Allows event) :=
  inferInstanceAs (Decidable (counting.writers.Allows event))

/-- The bytes below the index are the counted records, and those of a copied record
stand behind them. -/
structure Inv (counting : Counting) : Prop where
  contains : counting.writers.trace.Contains counting.counted
  pending : ∀ own ∈ counting.writers.pc.pending, own.Within ∧
    counting.writers.trace.traceIdx.toNat + own.len.toNat < rscTraceBufSize.toNat
  copied : ∀ own, counting.writers.pc = .copied own →
    read counting.writers.trace.memory (traceBufferAddr + counting.writers.trace.traceIdx.toNat)
      own.len.toNat = own.record
  rewound : counting.writers.pc = .rewound → counting.counted = []
  ended : counting.writers.pc = .idle → counting.writers.trace.memory
    (traceBufferAddr + counting.writers.trace.traceIdx.toNat) = 0

end Counting

variable {trace : Trace} {log : List (List UInt8)} {counting : Counting} {fault : Fault}
  {text : List UInt8} {room : ℕ} {handed : Handed}

/-- A record that stands behind the log joins it when the index passes it. -/
theorem Trace.Contains.count (contains : trace.Contains log) (within : handed.Within)
    (fits : trace.traceIdx.toNat + handed.len.toNat < rscTraceBufSize.toNat)
    (stands : read trace.memory (traceBufferAddr + trace.traceIdx.toNat) handed.len.toNat =
      handed.record) :
    (trace.advance handed.len).Contains (log ++ [handed.record]) := by
  have index := contains.index
  have indexed : trace.traceIdx.toNat < rscTraceBufSize.toNat :=
    Nat.lt_of_le_of_lt (Nat.le_add_right ..) fits
  have total : (log ++ [handed.record]).flatten.length = log.flatten.length + handed.len.toNat := by
    rw [List.flatten_append, List.flatten_singleton, List.length_append, within.record_length]
  rw [index] at fits stands
  constructor
  · rw [total, ← index]
    exact within.toNat_add indexed
  · rwa [total]
  · have split : read trace.memory traceBufferAddr (log.flatten.length + handed.len.toNat) =
        log.flatten ++ handed.record := by
      rw [read_add, contains.content, stands]
    rw [total, List.flatten_append, List.flatten_singleton]
    exact split

theorem Trace.Contains.copy (contains : trace.Contains log) (buf : List UInt8) (len : UInt32) :
    (trace.copy buf len).Contains log where
  index := contains.index
  bounded := contains.bounded
  content := by
    have same : read (trace.copy buf len).memory traceBufferAddr trace.traceIdx.toNat =
        read trace.memory traceBufferAddr trace.traceIdx.toNat :=
      read_write_apart (Or.inr (Nat.le_refl _))
    rw [contains.index] at same
    exact same.trans contains.content

namespace Counting

theorem Inv.enter (inv : counting.Inv) (call : TraceCall) : (counting.step (.enter call)).Inv := by
  cases pc : counting.writers.pc with
  | idle =>
    cases found : call.handed with
    | none => simpa [step, Writers.step, Writers.count, pc, found] using inv
    | some handed =>
      by_cases full : counting.writers.trace.Full handed.len
      · simpa [step, Writers.step, Writers.count, pc, found, full] using inv
      · have passes := TraceCall.handed_passes found
        have indexed : counting.writers.trace.traceIdx.toNat < rscTraceBufSize.toNat := by
          rw [inv.contains.index]
          exact inv.contains.bounded
        obtain ⟨-, fits⟩ := room_of_not_full indexed passes.toWithin full
        simp only [step, Writers.step, Writers.count, pc, found, full, if_false]
        refine ⟨inv.contains, ?_, by simp, by simp, by simp⟩
        intro own same
        obtain rfl := Option.some.inj same
        exact ⟨passes.toWithin, fits⟩
  | checked own | copied own | added own | rewound =>
    simpa [step, Writers.step, Writers.count, pc] using inv

theorem Inv.rewind (inv : counting.Inv) : (counting.step .rewind).Inv := by
  cases pc : counting.writers.pc with
  | idle =>
    simp only [step, Writers.step, Writers.count, pc]
    have empty : ({ counting.writers.trace with traceIdx := 0 } : Trace).Contains [] :=
      ⟨rfl, (show 0 < rscTraceBufSize.toNat by decide), read_zero⟩
    exact ⟨empty, by simp [Pc.pending], by simp, fun _ => rfl, by simp⟩
  | checked own | copied own | added own | rewound =>
    simpa [step, Writers.step, Writers.count, pc] using inv

/-- The statements of `trace_write` count their record at the second of them. -/
theorem Inv.thread (inv : counting.Inv) : (counting.step .thread).Inv := by
  have contains := inv.contains
  cases pc : counting.writers.pc with
  | idle => simpa [step, Writers.step, Writers.count, pc] using inv
  | checked own =>
    obtain ⟨within, fits⟩ := inv.pending own (by simp [pc, Pc.pending])
    simp only [step, Writers.step, Writers.count, pc]
    refine ⟨contains.copy own.buf own.len, ?_, ?_, by simp, by simp⟩
    · intro other same
      obtain rfl := Option.some.inj same
      exact ⟨within, fits⟩
    · intro other same
      obtain rfl := Pc.copied.inj same
      have behind : read (counting.writers.trace.copy own.buf own.len).memory
          (traceBufferAddr + counting.writers.trace.traceIdx.toNat) own.record.length = own.record :=
        read_write
      rwa [within.record_length] at behind
  | copied own =>
    obtain ⟨within, fits⟩ := inv.pending own (by simp [pc, Pc.pending])
    simp only [step, Writers.step, Writers.count, pc]
    exact ⟨contains.count within fits (inv.copied own pc), by simp [Pc.pending], by simp, by simp, by simp⟩
  | added own =>
    simp only [step, Writers.step, Writers.count, pc]
    exact ⟨contains.terminate.toContains, by simp [Pc.pending], by simp, by simp, fun _ => write_first⟩
  | rewound =>
    have none := inv.rewound pc
    rw [none] at contains
    simp only [step, Writers.step, Writers.count, pc, none]
    have cleared : (counting.writers.trace.store traceBufferAddr [0]).Contains [] :=
      ⟨contains.index, contains.bounded, read_zero⟩
    have zero : counting.writers.trace.traceIdx.toNat = 0 := contains.index
    refine ⟨cleared, by simp [Pc.pending], by simp, by simp, fun _ => ?_⟩
    have nul : write counting.writers.trace.memory traceBufferAddr [0]
        (traceBufferAddr + counting.writers.trace.traceIdx.toNat) = 0 := by
      rw [zero]
      exact write_first
    exact nul

/-- An interrupt record that is refused or leaves room is counted at once. -/
theorem Inv.interrupt (inv : counting.Inv) (text : List UInt8)
    (allowed : counting.Allows (.interrupt text)) : (counting.step (.interrupt text)).Inv := by
  cases found : (TraceCall.ethosuTraceLog text).handed with
  | none => simpa [step, Writers.step, Writers.count, found] using inv
  | some handed =>
    by_cases full : counting.writers.trace.Full handed.len
    · simpa [step, Writers.step, Writers.count, found, full] using inv
    · have contains := inv.contains
      have passes := TraceCall.handed_passes found
      have leaves : counting.writers.Leaves handed.len := (allowed handed found).resolve_left full
      have fits : counting.counted.flatten.length + handed.len.toNat < rscTraceBufSize.toNat := by
        rw [contains.full_iff passes.small] at full
        exact Nat.not_le.mp full
      have holds := contains.traceWrite_of_fits passes.small passes.available fits
      have written := holds.toContains
      have moved : (traceWrite counting.writers.trace handed.buf handed.len).traceIdx.toNat =
          counting.writers.trace.traceIdx.toNat + handed.len.toNat := by
        rw [written.index, contains.index, List.flatten_append, List.length_append,
          List.flatten_singleton]
        exact congrArg _ passes.record_length
      simp only [step, Writers.step, Writers.count, found, full, if_false]
      refine ⟨written, ?_, ?_, ?_, fun _ => written.index ▸ holds.ended⟩
      · intro own pending
        refine ⟨(inv.pending own pending).1, ?_⟩
        cases pc : counting.writers.pc with
        | checked other =>
          simp only [pc, Pc.pending, Option.mem_some_iff] at pending
          rw [Writers.Leaves, pc] at leaves
          rw [moved, ← pending]
          exact leaves
        | copied other => simp [Writers.Leaves, pc] at leaves
        | idle | added other | rewound => simp [pc, Pc.pending] at pending
      · intro own copied
        have pc : counting.writers.pc = .copied own := copied
        simp [Writers.Leaves, pc] at leaves
      · intro rewound
        have pc : counting.writers.pc = .rewound := rewound
        simp [Writers.Leaves, pc] at leaves

theorem Inv.step (inv : counting.Inv) (event : WriterEvent) (allowed : counting.Allows event) :
    (counting.step event).Inv := by
  cases event with
  | enter call => exact inv.enter call
  | rewind => exact inv.rewind
  | thread => exact inv.thread
  | interrupt text => exact inv.interrupt text allowed

theorem start_inv (empty : trace.Holds []) : (start trace).Inv :=
  ⟨empty.toContains, by simp [start, Writers.start, Pc.pending], by simp [start, Writers.start],
    by simp [start, Writers.start], fun _ => empty.index ▸ empty.ended⟩

/-- Outside `trace_write` and the reset, the counted records end in a NUL. -/
theorem Inv.holds (inv : counting.Inv) (idle : counting.writers.pc = .idle) :
    counting.writers.trace.Holds counting.counted :=
  ⟨inv.contains, inv.contains.index ▸ inv.ended idle⟩

theorem inv_of_run (empty : trace.Holds []) {events : List WriterEvent}
    (steps : EachStep step Allows (start trace) events) : (run step (start trace) events).Inv :=
  (steps.always (start_inv empty) fun _ event inv allowed => inv.step event allowed).last

/-- At rest, with the records of a bounded log counted. -/
structure Rests (counting : Counting) (log : List (List UInt8)) : Prop where
  idle : counting.writers.pc = .idle
  contains : counting.writers.trace.Contains log
  counted : counting.counted = log

theorem Rests.statements (rests : counting.Rests log) (op : TraceOp) :
    (run step counting op.statements).Rests
      (run (BoundedLog.step rscTraceBufSize.toNat) log op.events) := by
  obtain ⟨idle, contains, rfl⟩ := rests
  cases op with
  | reset =>
    have cleared : (resetTrace counting.writers.trace).Contains [] := Trace.resetTrace_holds.toContains
    simp only [TraceOp.statements, TraceOp.events, run_cons, run_nil, step, Writers.step, Writers.count,
      idle, BoundedLog.step]
    exact ⟨rfl, cleared, rfl⟩
  | write call =>
    cases found : call.handed with
    | none =>
      have silent : call.records = [] := if_neg (TraceCall.handed_eq_none found)
      simp only [TraceOp.statements, TraceOp.events, run_cons, run_nil, step, Writers.step, Writers.count,
        idle, found, silent, List.map_nil]
      exact ⟨idle, contains, rfl⟩
    | some handed =>
      have passes := TraceCall.handed_passes found
      have record : call.records = [handed.record] := by
        rw [TraceCall.records, if_pos passes.formats, passes.record]
      have length := passes.record_length
      have written := contains.traceWrite_offer passes.small passes.available
      rcases Nat.lt_or_ge (counting.counted.flatten.length + handed.len.toNat) rscTraceBufSize.toNat
        with fits | full
      · have admitted : ¬counting.writers.trace.Full handed.len := by
          rw [contains.full_iff passes.small]
          exact Nat.not_le.mpr fits
        have kept : offer rscTraceBufSize.toNat counting.counted handed.record =
            counting.counted ++ [handed.record] := offer_of_fits (by rwa [length])
        rw [traceWrite, if_neg admitted] at written
        simp only [TraceOp.statements, TraceOp.events, run_cons, run_nil, step, Writers.step,
          Writers.count, idle, found, admitted, if_false, record, List.map_cons, List.map_nil,
          BoundedLog.step, kept]
        exact ⟨rfl, kept ▸ written, rfl⟩
      · have refused : counting.writers.trace.Full handed.len := (contains.full_iff passes.small).mpr full
        have kept : offer rscTraceBufSize.toNat counting.counted handed.record = counting.counted :=
          offer_of_full (by rwa [length])
        simp only [TraceOp.statements, TraceOp.events, run_cons, run_nil, step, Writers.step,
          Writers.count, idle, found, refused, if_true, record, List.map_cons, List.map_nil,
          BoundedLog.step, kept]
        exact ⟨idle, contains, rfl⟩

/-- Between operations, and without interrupts, the counted records are the kept ones. -/
theorem counted_uninterrupted (contains : trace.Contains []) (ops : List TraceOp) :
    (run step (start trace) (ops.flatMap TraceOp.statements)).counted = keptRecords ops := by
  have begins : (start trace).Rests [] := ⟨rfl, contains, rfl⟩
  rw [run_flatMap, keptRecords, kept, run_flatMap]
  exact (run_simulates begins fun _ _ op rests => rests.statements op).counted

end Counting

/-! ### The report behind the log -/

theorem Appends.holds {new : Trace} (appends : Appends trace new text) (contains : trace.Contains log) :
    new.Holds (log ++ [text]) where
  index := by
    rw [appends.index, contains.index, List.flatten_append, List.flatten_singleton, List.length_append]
  bounded := by
    have last : new.traceIdx.toNat ≤ 0xBFF := appends.bounded
    have size := rscTraceBufSize_toNat
    rw [appends.index, contains.index] at last
    rw [List.flatten_append, List.flatten_singleton, List.length_append]
    omega
  content := by
    have before : read new.memory traceBufferAddr log.flatten.length = log.flatten := by
      refine Eq.trans (read_congr fun index bound => appends.kept _ ?_) contains.content
      rw [contains.index]
      omega
    have behind := appends.content
    rw [contains.index] at behind
    rw [List.flatten_append, List.flatten_singleton, List.length_append, read_add, before, behind]
  ended := by
    have nul := appends.ended
    rw [appends.index, contains.index] at nul
    rwa [List.flatten_append, List.flatten_singleton, List.length_append]

theorem Fault.handle_appends (fault : Fault) (index : trace.traceIdx ≤ rscTraceBufSize - 1) :
    ∃ text, fault.Reports trace.room text ∧ Appends trace (fault.handle trace) text := by
  cases fault with
  | hard => exact ⟨_, rfl, start_putAll_finish index hardFaultReport⟩
  | usage word sp =>
    refine ⟨_, rfl, ?_⟩
    rw [handle, usageFaultHandler_eq]
    exact start_putAll_finish index _
  | bus word frame => exact busFaultHandlerC_appends index word frame

theorem zero_notMem_numeral {width value : ℕ} : 0 ∉ hexadecimal.numeral width value := by
  induction width with
  | zero => simp [Alphabet.numeral]
  | succ width ih =>
    have digits : ∀ digit < 16, hexadecimal.symbol digit ≠ 0 := by decide
    have below : value / hexadecimal.base ^ width % hexadecimal.base < 16 := Nat.mod_lt _ (by decide)
    rw [Alphabet.numeral, List.mem_cons, not_or]
    exact ⟨(digits _ below).symm, ih⟩

private theorem zero_notMem_render {fields : List (Field hexadecimal)}
    (clean : ∀ field ∈ fields, 0 ∉ field.label) : 0 ∉ render fields := by
  intro member
  obtain ⟨field, listed, inside⟩ := List.mem_flatMap.mp member
  rcases List.mem_append.mp inside with label | digits
  · exact clean field listed label
  · exact zero_notMem_numeral digits

theorem Fault.Reports.clean (reports : fault.Reports room text) : 0 ∉ text := by
  cases fault with
  | hard =>
    obtain rfl : text = _ := reports
    have whole : 0 ∉ hardFaultReport := by decide
    exact fun member => whole (List.mem_of_mem_take member)
  | usage word sp =>
    obtain rfl : text = _ := reports
    have whole : 0 ∉ (UsageFault.recorded word sp).report := by
      rw [UsageFault.report, List.mem_append, not_or]
      refine ⟨zero_notMem_render ?_, by decide⟩
      simp only [UsageFault.fields, hexField, List.forall_mem_cons]
      decide
    exact fun member => whole (List.mem_of_mem_take member)
  | bus word frame =>
    have heading : 0 ∉ (BusFault.recorded word frame).heading := by
      rw [BusFault.heading, List.mem_append, not_or]
      refine ⟨zero_notMem_render ?_, by decide⟩
      simp only [BusFault.registers, hexField, List.forall_mem_cons]
      decide
    rcases reports with ⟨-, rfl⟩ | ⟨k, -, whole, rfl, -, -, rfl⟩
    · exact fun member => heading (List.mem_of_mem_take member)
    · have words : 0 ∉ render ((BusFault.recorded word frame).stackWords.take k) := by
        refine zero_notMem_render fun field member => ?_
        obtain ⟨⟨v, i⟩, -, rfl⟩ := List.mem_map.mp (List.mem_of_mem_take member)
        simp only [BusFault.stackWord, hexField]
        split <;> decide
      split <;> simp [heading, words, ascii]

/-- The report follows the records that the index counts, all of them read back. -/
theorem Counting.Inv.fault_appends (inv : counting.Inv) (fault : Fault) :
    ∃ text, fault.Reports counting.writers.trace.room text ∧
      (fault.handle counting.writers.trace).Holds (counting.counted ++ [text]) ∧
      ((∀ record ∈ counting.counted, 0 ∉ record) →
        trace0 (fault.handle counting.writers.trace) = counting.counted.flatten ++ text) := by
  obtain ⟨text, reports, appends⟩ := fault.handle_appends inv.contains.index_le
  have holds := appends.holds inv.contains
  refine ⟨text, reports, holds, fun clean => ?_⟩
  have all : ∀ record ∈ counting.counted ++ [text], 0 ∉ record := by
    intro record member
    rcases List.mem_append.mp member with kept | new
    · exact clean record kept
    · rw [List.mem_singleton.mp new]
      exact reports.clean
  rw [holds.trace0_eq, takeWhile_flatten_eq_iff.mpr all, List.flatten_append, List.flatten_singleton]

end RunnerCm33
