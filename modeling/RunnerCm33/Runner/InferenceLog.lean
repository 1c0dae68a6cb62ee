import RunnerCm33.Runner.Outcome
import RunnerCm33.Runner.Results
import RunnerCm33.Trace.ReportSize

/-! The log of the inferences. The trace is reset before them, and for a model with one
output what the program writes from there on fits, whatever happens. -/

namespace RunnerCm33

open RunnerCm33.BoundedLog RunnerCm33.Emitting RunnerCm33.Emitting.Emits RunnerCm33.Runs

/-- The bytes an operation offers to the trace. -/
def TraceOp.bytes : TraceOp → ℕ
  | .write call => (recordsOf [call]).flatten.length
  | .reset => 0

/-- The bytes that the library logs in the inferences from `n` on. -/
def loggedBytes (execute : ℕ → MemoryCall Error) (n : ℕ) : ℕ → ℕ
  | 0 => 0
  | turns + 1 => (recordsOf (execute n).logged).flatten.length + loggedBytes execute (n + 1) turns

/-- The bytes that the library logs from the reset on: in the inferences, and when it is
asked for the outputs. -/
def Library.loggedBytes (library : Library) (numInferences : ℕ) : ℕ :=
  RunnerCm33.loggedBytes library.execute 0 numInferences + (recordsOf library.getOutputs.logged).flatten.length

/-- A bound for a line of `log_mem_status`. -/
def LogLine.bytes (line : LogLine) : ℕ := 40 + line.format.toList.length + 10 * line.arguments.length

variable {Value Next : Type} {routine : Routine Value} {next : Value → Routine Next} {call : TraceCall}
  {calls : List TraceCall} {ops more : List TraceOp} {level : LogLevel} {line : UInt32} {message : List UInt8}
  {filename function text : String} {condition : Bool} {bound : ℕ} {firmware : Firmware} {library : Library}

private theorem bytes_le_text (call : TraceCall) : (TraceOp.write call).bytes ≤ min 255 call.text.length := by
  simp only [TraceOp.bytes, recordsOf, TraceCall.records, List.flatMap_singleton]
  split <;> simp

private theorem sum_bytes (calls : List TraceCall) :
    ((calls.map TraceOp.write).map TraceOp.bytes).sum = (recordsOf calls).flatten.length := by
  induction calls with
  | nil => rfl
  | cons call rest ih =>
    have split : recordsOf ([call] ++ rest) = recordsOf [call] ++ recordsOf rest := recordsOf_append
    rw [List.singleton_append] at split
    rw [split, List.flatten_append, List.length_append, ← ih]
    rfl

/-- What is traced after a reset bounds what is wanted since the last one. -/
theorem wanted_le_sum (ops more : List TraceOp) :
    (recordsOf (sinceReset (ops ++ more))).flatten.length ≤
      (recordsOf (sinceReset ops)).flatten.length + (more.map TraceOp.bytes).sum := by
  induction more using List.reverseRecOn with
  | nil => simp
  | append_singleton more op ih =>
    rw [← List.append_assoc]
    cases op with
    | reset =>
      rw [sinceReset_reset]
      exact Nat.zero_le _
    | write call =>
      rw [sinceReset_write, recordsOf_append, List.flatten_append, List.length_append, List.map_append,
        List.sum_append]
      have last : ([TraceOp.write call].map TraceOp.bytes).sum = (recordsOf [call]).flatten.length := rfl
      omega

private theorem etLogIn_bytes (filename : String) (level : LogLevel) (line : UInt32) (message : List UInt8) :
    ∃ text : ℕ, text ≤ (ascii filename).length + 17 + message.length ∧
      (etLogIn filename level line message).Weighs TraceOp.bytes (min 255 text) := by
  have digits := decimal_word_length line
  have cut : (cString message).length ≤ message.length := (List.takeWhile_prefix _).length_le
  refine ⟨(TraceCall.etPalEmitLogMessage level (ascii filename) line (cString message)).text.length, ?_, ?_⟩
  · simp [TraceCall.text, ascii]
    omega
  · unfold etLogIn
    split
    · exact (Weighs.pure ()).mono (Nat.zero_le _)
    · simpa [Weighs] using bytes_le_text _

/-- A line of `ET_LOG`: its message, and what `et_pal_emit_log_message` puts around it. -/
theorem etLog_weighs : (etLog level line message).Weighs TraceOp.bytes (40 + message.length) := by
  obtain ⟨text, le, weighs⟩ := etLogIn_bytes "arm_executor_runner.cpp" level line message
  have file : (ascii "arm_executor_runner.cpp").length = 23 := by decide
  exact weighs.mono (by omega)

/-- A failed check: one line, cut to its buffer, and the literal of `et_pal_abort`. -/
theorem assertFailed_weighs :
    (assertFailed filename function line message : Routine Value).Weighs TraceOp.bytes 289 := by
  obtain ⟨text, -, weighs⟩ := etLogIn_bytes filename .fatal line
    (ascii "In function " ++ ascii function ++ ascii "(), assert failed" ++ message)
  have abort : (runtimeAbort : Routine Value).Weighs TraceOp.bytes 34 :=
    show ([TraceOp.write .etPalAbort].map TraceOp.bytes).sum ≤ 34 by decide
  exact (weighs.bind fun _ => abort).mono (by omega)

/-- A check that holds traces nothing, so it weighs nothing in front of what weighs as
much as its failure. -/
theorem etCheckMsg_weighs {next : Unit → Routine Next} (least : 289 ≤ bound)
    (then_ : ∀ value, (next value).Weighs TraceOp.bytes bound) :
    (etCheckMsg condition function text line message >>= next).Weighs TraceOp.bytes bound := by
  cases condition with
  | true => exact then_ ()
  | false => exact (assertFailed_weighs.mono least).bind_silent nofun then_

private theorem etCheck_weighs {next : Unit → Routine Next} (least : 289 ≤ bound)
    (then_ : ∀ value, (next value).Weighs TraceOp.bytes bound) :
    (etCheck condition function text line >>= next).Weighs TraceOp.bytes bound := by
  cases condition with
  | true => exact then_ ()
  | false => exact (assertFailed_weighs.mono least).bind_silent nofun then_

private theorem logged_weighs (calls : List TraceCall) :
    (emit (calls.map .write) : Routine Unit).Weighs TraceOp.bytes
    (recordsOf calls).flatten.length :=
  (sum_bytes calls).le

/-- The line with an inference's number is not logged, so the loop only adds what the
library does. -/
theorem runTurns_weighs {execute : ℕ → MemoryCall Error} {status : Option Error} {manager : MemoryManager}
    {n turns : ℕ} : (runTurns execute status manager n turns).Weighs TraceOp.bytes
      (loggedBytes execute n turns) := by
  induction turns generalizing status manager n with
  | zero => exact Weighs.pure _
  | succ turns ih =>
    have unlogged : (etLog .debug 1341 (ascii "Running inference number " ++
        signedDecimal (.ofNat n))).Weighs TraceOp.bytes 0 := Weighs.pure ()
    rw [loggedBytes, ← Nat.zero_add (_ + _)]
    refine unlogged.bind fun _ => (logged_weighs _).bind fun _ => ?_
    split
    · exact (Weighs.pure _).mono (Nat.zero_le _)
    · exact ih

private theorem modelRun_weighs {modelOk : Bool} : (modelRun line modelOk).Weighs TraceOp.bytes 62 := by
  have digits := signedDecimal_length (if modelOk then 1 else 0)
  refine etLog_weighs.mono ?_
  simp [ascii]
  omega

private theorem formatted_length (format : List Char) (arguments : List UInt32) :
    (formatted format arguments).length ≤ format.length + 10 * arguments.length := by
  induction format, arguments using formatted.induct with
  | case1 rest argument arguments ih =>
    have digits : (unsignedLong argument).length ≤ 10 := decimal_word_length argument
    simp only [formatted, List.length_append, List.length_cons]
    omega
  | case2 rest arguments ih =>
    have percent : (ascii "%").length = 1 := rfl
    simp only [formatted, List.length_append, List.length_cons]
    omega
  | case3 char rest arguments noLong noPercent ih =>
    rw [formatted]
    · simp only [List.length_cons]
      omega
    · exact noPercent
    · exact noLong
  | case4 arguments => simp [formatted]

private theorem logLine_weighs (logged : LogLine) : (logLine logged).Weighs TraceOp.bytes logged.bytes := by
  have length := formatted_length logged.format.toList logged.arguments
  exact etLog_weighs.mono (by rw [LogLine.bytes]; omega)

private theorem logLines_weighs (lines : List LogLine) :
    (logLines lines).Weighs TraceOp.bytes (lines.map LogLine.bytes).sum := by
  induction lines with
  | nil => exact Weighs.pure ()
  | cons first rest ih => exact (logLine_weighs first).bind fun _ => ih

private theorem logMemStatus_weighs (ctx : Initialised) (manager : MemoryManager) :
    (logLines (logMemStatus (ctx.context manager))).Weighs TraceOp.bytes 850 := by
  have model : ((modelLines (ctx.context manager)).map LogLine.bytes).sum ≤ 262 := by
    simp [modelLines, Initialised.context, LogLine.bytes]
  have method : ((methodLines (ctx.context manager)).map LogLine.bytes).sum ≤ 490 := by
    unfold methodLines
    split
    · simp [usageLine, methodAllocatorFormat, LogLine.bytes]
    · exact Nat.zero_le _
  have temp : ((tempLines (ctx.context manager)).map LogLine.bytes).sum ≤ 80 := by
    unfold tempLines
    split
    · simp [LogLine.bytes]
    · exact Nat.zero_le _
  have others : inputFileLines (ctx.context manager) = [] ∧ outputDumpLines (ctx.context manager) = [] :=
    ⟨rfl, rfl⟩
  refine (logLines_weighs _).mono ?_
  simp only [logMemStatus, others, List.append_nil, List.map_append, List.sum_append]
  omega

private theorem report_weighs {memory : ℕ → UInt8} {outputs : List EValue} (single : outputs.length ≤ 1) :
    (emit ((printOutputs memory outputs).map fun line => .write (.printOutputs line)) : Routine Unit).Weighs
      TraceOp.bytes 1200 := by
  have report := outputsReport_length memory outputs
  have each (lines : List PrintedLine) :
      ((lines.map fun line => TraceOp.write (.printOutputs line)).map TraceOp.bytes).sum ≤
        linesLength lines := by
    induction lines with
    | nil => exact Nat.zero_le _
    | cons line rest ih =>
      have first := (bytes_le_text (.printOutputs line)).trans (Nat.min_le_right ..)
      rw [linesLength_cons]
      exact Nat.add_le_add first ih
  have whole : (outputsReport memory outputs).length = linesLength (printOutputs memory outputs) := rfl
  exact (each _).trans (by omega)

private theorem printOutputsChecked_weighs (single : library.outputs.length ≤ 1) :
    (printOutputsChecked firmware library).Weighs TraceOp.bytes
      ((recordsOf library.getOutputs.logged).flatten.length + 1200) := by
  have asked : (library.getOutputs.perform).Weighs TraceOp.bytes
      ((recordsOf library.getOutputs.logged).flatten.length + 0) :=
    (logged_weighs library.getOutputs.logged).bind fun _ => Weighs.pure _
  exact asked.bind fun _ => etCheck_weighs (by decide) fun _ => report_weighs single

private theorem runModelRoutine_weighs (ctx : Initialised) (single : library.outputs.length ≤ 1) :
    (runModelRoutine firmware library ctx).Weighs TraceOp.bytes
      (82 + (loggedBytes library.execute 0 firmware.numInferences +
        (71 + ((recordsOf library.getOutputs.logged).flatten.length + 1200 + 62)))) := by
  have digits := signedDecimal_length (.ofNat firmware.numInferences)
  have starting : (etLog .info 1337 (ascii "Starting running " ++
      signedDecimal (.ofNat firmware.numInferences) ++ ascii " inferences...")).Weighs TraceOp.bytes 82 :=
    etLog_weighs.mono (by simp [ascii]; omega)
  have finished : (etLog .info 1361 (signedDecimal (.ofNat firmware.numInferences) ++
      ascii " inferences finished")).Weighs TraceOp.bytes 71 :=
    etLog_weighs.mono (by simp [ascii]; omega)
  have printed : (printOutputsChecked firmware library).Weighs TraceOp.bytes _ :=
    printOutputsChecked_weighs single
  exact starting.bind fun _ => runTurns_weighs.bind fun _ => etCheckMsg_weighs (by omega) fun _ =>
    (finished.bind fun _ => printed.bind fun _ => modelRun_weighs.bind fun _ => Weighs.pure _).mono (by omega)

/-- From the reset on the program offers 2616 bytes besides what the library logs. -/
theorem afterReset_weighs (ctx : Initialised) (single : library.outputs.length ≤ 1) :
    (afterReset firmware library ctx).Weighs TraceOp.bytes
      (library.loggedBytes firmware.numInferences + 2616) := by
  have complete : (etLog .info 1498 (ascii "Program complete, exiting.")).Weighs TraceOp.bytes 66 :=
    etLog_weighs.mono (by decide)
  have marker : (etLog .info 1502 [0x04]).Weighs TraceOp.bytes 41 := etLog_weighs
  have last : (etLog .info 1498 (ascii "Program complete, exiting.") >>= fun _ =>
      etLog .info 1502 [0x04]).Weighs TraceOp.bytes 289 :=
    (complete.bind fun _ => marker).mono (by decide)
  have weighs : (afterReset firmware library ctx).Weighs TraceOp.bytes _ :=
    (runModelRoutine_weighs ctx single).bind fun ran => modelRun_weighs.bind fun _ =>
    (logMemStatus_weighs ctx ran.2).bind fun _ => etCheckMsg_weighs (Nat.le_refl 289) fun _ => last
  exact weighs.mono (by rw [Library.loggedBytes]; omega)

/-- Without a reset in it, a part of the operations adds its calls to those before it. -/
theorem sinceReset_append (clean : ∀ op ∈ more, op.Clean) :
    sinceReset (ops ++ more) = sinceReset ops ++ sinceReset more := by
  induction more using List.reverseRecOn with
  | nil => simp [sinceReset]
  | append_singleton more op ih =>
    have earlier := ih fun op member => clean op (List.mem_append_left _ member)
    have last := clean op (by simp)
    cases op with
    | reset => exact last.elim
    | write call => rw [← List.append_assoc, sinceReset_write, sinceReset_write, earlier, List.append_assoc]

private theorem sinceReset_behind (ops more : List TraceOp) :
    sinceReset (ops ++ [.reset] ++ more) = sinceReset more := by
  simp [sinceReset]

private theorem printOutputs_record (line : PrintedLine) : recordsOf [.printOutputs line] = [line.text] := by
  have length := line.text_length
  have positive := List.length_pos_iff.mpr line.isLine.ne_nil
  have formats : Formats (TraceCall.printOutputs line).text := ⟨positive, by rw [TraceCall.text]; omega⟩
  rw [recordsOf, List.flatMap_singleton, TraceCall.records, if_pos formats, TraceCall.text,
    List.take_of_length_le (by omega)]

private theorem report_records (lines : List PrintedLine) :
    recordsOf (sinceReset (lines.map fun line => .write (.printOutputs line))) = lines.map PrintedLine.text := by
  induction lines using List.reverseRecOn with
  | nil => rfl
  | append_singleton lines line ih =>
    rw [List.map_append, List.map_singleton, sinceReset_write, recordsOf_append, ih, printOutputs_record,
      List.map_append, List.map_singleton]

private theorem afterReset_includes (ctx : Initialised) : (afterReset firmware library ctx).Includes
    ((printOutputs firmware.outputMemory library.outputs).map fun line => .write (.printOutputs line)) :=
  .first <| .later fun _ => .later fun _ => .later fun _ => .later fun _ => .first <| .later fun _ =>
    .later fun _ => .emit _

/-- What the program wants in the trace is what it traces behind the reset. -/
theorem sinceReset_mainRoutine {ctx : Initialised} (reached : (runnerInit firmware library).result = .ok ctx) :
    sinceReset (mainRoutine firmware library).emitted = sinceReset (afterReset firmware library ctx).emitted := by
  obtain ⟨before, same⟩ := mainRoutine_afterReset reached
  rw [same, sinceReset_behind]

theorem wanted_afterReset_le (ctx : Initialised) (single : library.outputs.length ≤ 1) :
    (wanted (afterReset firmware library ctx)).length ≤
      library.loggedBytes firmware.numInferences + 2616 := by
  have weighs : (afterReset firmware library ctx).Weighs TraceOp.bytes _ := afterReset_weighs ctx single
  have bound : (wanted (afterReset firmware library ctx)).length ≤ 0 + _ :=
    wanted_le_sum [] (afterReset firmware library ctx).emitted
  rw [Weighs] at weighs
  omega

theorem report_within {ctx : Initialised} (clean : library.Clean)
    (returned : (afterReset firmware library ctx).result = .ok ()) :
    (printOutputs firmware.outputMemory library.outputs).map PrintedLine.text <:+:
      recordsOf (sinceReset (afterReset firmware library ctx).emitted) := by
  obtain ⟨front, back, emitted⟩ := afterReset_includes ctx () returned
  have sound : Sound (afterReset firmware library ctx) := .afterReset clean ctx
  have writes := sound.clean
  rw [Only, ← emitted] at writes
  have inside := fun op member => writes op (List.mem_append_left _ (List.mem_append_right _ member))
  have behindIt := fun op member => writes op (List.mem_append_right _ member)
  rw [← emitted, sinceReset_append behindIt, sinceReset_append inside, recordsOf_append, recordsOf_append,
    report_records]
  exact ⟨_, _, rfl⟩

theorem smallLibrary_clean : smallLibrary.Clean where
  ethosuInit := nofun
  runtimeInit := nofun
  load := nofun
  program := by
    intro program loaded
    obtain rfl := Except.ok.inj loaded
    refine ⟨nofun, nofun, fun methodMeta described query member => ?_⟩
    obtain rfl := Except.ok.inj described
    obtain rfl := List.mem_singleton.mp member
    nofun
  loadMethod := nofun
  inputQueries := nofun
  execute := fun _ => by simp [smallLibrary, TraceCall.text, ascii]
  getOutputs := nofun

end RunnerCm33
