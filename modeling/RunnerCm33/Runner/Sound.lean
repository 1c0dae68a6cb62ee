import RunnerCm33.Runner.Results
import RunnerCm33.Trace.FaultMoments

/-! What every piece of the program keeps to: its records hold no NUL, and where it does
not return, the last thing it traces tells why. -/

namespace RunnerCm33

open RunnerCm33.Emitting RunnerCm33.Emitting.Emits

/-- A write of a text without a NUL. -/
def TraceOp.Clean : TraceOp → Prop
  | .write call => 0 ∉ call.text
  | .reset => False

/-- The last operation before the program ends. -/
def Ending.Tells : Ending → TraceOp → Prop
  | .aborts, op => op = .write .etPalAbort
  | .waits, op => ∃ error, op =
      .write (.etPalEmitLogMessage .info (ascii "arm_executor_runner.cpp") 803 (programLoadingFailed error))

structure Sound {Value : Type} (routine : Routine Value) : Prop where
  clean : routine.Only TraceOp.Clean
  tells : routine.StopsWith Ending.Tells

/-- Nothing that is logged about a program holds a NUL. -/
structure Program.Clean (program : Program) : Prop where
  methodName : ∀ call ∈ program.methodName.logged, 0 ∉ call.text
  methodMeta : ∀ call ∈ program.methodMeta.logged, 0 ∉ call.text
  memoryPlannedBufferSizes : ∀ methodMeta, program.methodMeta.answer = .ok methodMeta →
    ∀ query ∈ methodMeta.memoryPlannedBufferSizes, ∀ call ∈ query.logged, 0 ∉ call.text

/-- Nothing that the library logs holds a NUL. -/
structure Library.Clean (library : Library) : Prop where
  ethosuInit : ∀ call ∈ library.ethosuInit.logged, 0 ∉ call.text
  runtimeInit : ∀ call ∈ library.runtimeInit, 0 ∉ call.text
  load : ∀ call ∈ library.load.logged, 0 ∉ call.text
  program : ∀ program, library.load.answer = .ok program → program.Clean
  loadMethod : ∀ call ∈ library.loadMethod.logged, 0 ∉ call.text
  inputQueries : ∀ call ∈ library.inputQueries, 0 ∉ call.text
  execute : ∀ n, ∀ call ∈ (library.execute n).logged, 0 ∉ call.text
  getOutputs : ∀ call ∈ library.getOutputs.logged, 0 ∉ call.text

variable {Value Next : Type} {routine : Routine Value} {next : Value → Routine Next}
  {level : LogLevel} {line : UInt32} {message : List UInt8} {filename function text : String}
  {calls : List TraceCall}

/-! ### Texts without a NUL -/

theorem zero_notMem_decimal {value : ℕ} : 0 ∉ decimal value := fun member =>
  absurd (decimal_digits member).1 (by decide)

private theorem zero_notMem_signedDecimal {value : Int32} : 0 ∉ signedDecimal value := by
  unfold signedDecimal
  split <;> simp [zero_notMem_decimal, ascii]

private theorem zero_notMem_hexByte {value : UInt8} : 0 ∉ hexByte value := by
  rw [hexByte_eq]
  exact zero_notMem_numeral

private theorem zero_notMem_cString : 0 ∉ cString message := by
  intro member
  simpa using List.mem_takeWhile_imp member

theorem PrintedLine.clean (line : PrintedLine) : 0 ∉ line.text := by
  cases line <;>
    simp [text, ascii, zero_notMem_decimal, zero_notMem_signedDecimal, zero_notMem_hexByte]

/-- Only the name of the file could bring a NUL into a line of `ET_LOG`. -/
theorem logMessage_clean (named : 0 ∉ ascii filename) :
    0 ∉ (TraceCall.etPalEmitLogMessage level (ascii filename) line (cString message)).text := by
  have levels : 0 ∉ [level.char] := by cases level <;> decide
  have brackets : 0 ∉ ascii " [" ∧ 0 ∉ ascii ":" ∧ 0 ∉ ascii "] " ∧ 0 ∉ ascii "\n" := by decide
  simp only [TraceCall.text, List.mem_append, not_or]
  exact ⟨⟨⟨⟨⟨⟨⟨levels, brackets.1⟩, named⟩, brackets.2.1⟩, zero_notMem_decimal⟩, brackets.2.2.1⟩,
    zero_notMem_cString⟩, brackets.2.2.2⟩

private theorem runnerFile_clean : 0 ∉ ascii "arm_executor_runner.cpp" := by decide

private theorem resultFile_clean : 0 ∉ ascii "result.h" := by decide

private theorem allocatorFile_clean : 0 ∉ ascii "memory_allocator.h" := by decide

/-! ### The pieces -/

namespace Sound

theorem bind_of (first : Sound routine) (then_ : ∀ value, routine.result = .ok value → Sound (next value)) :
    Sound (routine >>= next) where
  clean := first.clean.bind_of fun value returned => (then_ value returned).clean
  tells := first.tells.bind_of fun value returned => (then_ value returned).tells

theorem bind (first : Sound routine) (then_ : ∀ value, Sound (next value)) : Sound (routine >>= next) :=
  first.bind_of fun value _ => then_ value

theorem pure (value : Value) : Sound (Pure.pure value : Routine Value) where
  clean := .pure value
  tells := .of_ok rfl

theorem emit {ops : List TraceOp} (each : ∀ op ∈ ops, op.Clean) : Sound (Emits.emit ops : Routine Unit) where
  clean := each
  tells := .of_ok rfl

theorem write {call : TraceCall} (clean : 0 ∉ call.text) : Sound (Emits.emit [.write call] : Routine Unit) :=
  emit (by simpa [TraceOp.Clean] using clean)

theorem logged (each : ∀ call ∈ calls, 0 ∉ call.text) :
    Sound (Emits.emit (calls.map .write) : Routine Unit) := by
  refine emit fun op member => ?_
  obtain ⟨call, inside, rfl⟩ := List.mem_map.mp member
  exact each call inside

theorem etLogIn (named : 0 ∉ ascii filename) : Sound (etLogIn filename level line message) := by
  unfold RunnerCm33.etLogIn
  split
  · exact pure ()
  · exact write (logMessage_clean named)

theorem etLog : Sound (etLog level line message) := etLogIn runnerFile_clean

theorem runtimeAbort : Sound (runtimeAbort : Routine Value) where
  clean := by
    intro op member
    obtain rfl := List.mem_singleton.mp member
    exact show 0 ∉ ascii "CM33: *** ET_PAL_ABORT CALLED ***\n" by decide
  tells := .tell [] rfl rfl rfl

theorem assertFailed (named : 0 ∉ ascii filename) :
    Sound (assertFailed filename function line message : Routine Value) :=
  (etLogIn named).bind fun _ => runtimeAbort

theorem etCheckMsg {condition : Bool} : Sound (etCheckMsg condition function text line message) := by
  unfold RunnerCm33.etCheckMsg
  split
  · exact pure ()
  · exact assertFailed runnerFile_clean

theorem etCheck {condition : Bool} : Sound (etCheck condition function text line) := by
  unfold RunnerCm33.etCheck
  split
  · exact pure ()
  · exact assertFailed runnerFile_clean

theorem checkedValue (result : Except Error Value) : Sound (checkedValue result) := by
  cases result with
  | ok value => exact pure value
  | error error => exact assertFailed resultFile_clean

theorem logFailed (result : Except Error Value) : Sound (logFailed result line message) := by
  cases result with
  | ok value => exact pure ()
  | error error => exact etLog

theorem traceLiteral (literal : MainLiteral) : Sound (traceLiteral literal) := by
  refine write ?_
  cases literal <;> simp [TraceCall.text, MainLiteral.text, ascii]

theorem logLines (lines : List LogLine) : Sound (logLines lines) := by
  induction lines with
  | nil => exact pure ()
  | cons line rest ih => exact etLog.bind fun _ => ih

theorem perform {call : Call Value} (clean : ∀ record ∈ call.logged, 0 ∉ record.text) : Sound call.perform :=
  (logged clean).bind fun _ => pure _

/-! ### `runner_init` -/

theorem loadProgram {load : Call (Except Error Program)} (clean : ∀ call ∈ load.logged, 0 ∉ call.text) :
    Sound (loadProgram load) := by
  refine (perform clean).bind fun answer => ?_
  cases answer with
  | ok program => exact pure program
  | error error =>
    refine ⟨etLog.clean.bind fun _ => by simp [Only], ?_⟩
    have whole : cString (programLoadingFailed error) = programLoadingFailed error := by
      cases error <;> decide
    refine .tell [] rfl rfl ⟨error, ?_⟩
    rw [whole]

theorem getMethodName {program : Program} (clean : program.Clean) : Sound (getMethodName program) :=
  (perform clean.methodName).bind fun _ => etCheckMsg.bind fun _ => checkedValue _

theorem memoryPlannedBufferSize {query : Call (Except Error Int64)} (clean : ∀ call ∈ query.logged, 0 ∉ call.text) :
    Sound (memoryPlannedBufferSize query) :=
  (perform clean).bind fun _ => checkedValue _

theorem plannedBufferSizes {queries : List (Call (Except Error Int64))}
    (clean : ∀ query ∈ queries, ∀ call ∈ query.logged, 0 ∉ call.text) : Sound (plannedBufferSizes queries) := by
  induction queries with
  | nil => exact pure []
  | cons query rest ih =>
    obtain ⟨first, others⟩ := List.forall_mem_cons.mp clean
    exact (memoryPlannedBufferSize first).bind fun _ => (ih others).bind fun _ => pure _

theorem logRefusal {allocator : MemoryAllocator} {size alignment : UInt32} :
    Sound (logRefusal allocator size alignment) := by
  unfold RunnerCm33.logRefusal
  split
  · exact etLogIn allocatorFile_clean
  · dsimp only
    split
    · exact etLogIn allocatorFile_clean
    · exact pure ()

theorem logPlacing {useDdrPlanned : Bool} {placing : Placing} {bufferSize : UInt32} :
    Sound (logPlacing useDdrPlanned placing bufferSize) := by
  unfold RunnerCm33.logPlacing
  split
  · exact pure ()
  · exact logRefusal

theorem failed (abort : Abort) : Sound (abort.failed : Routine Value) := by
  cases abort <;> exact assertFailed runnerFile_clean

theorem chooseDdrPool {useDdrPlanned : Bool} {total : UInt32} : Sound (chooseDdrPool useDdrPlanned total) := by
  unfold RunnerCm33.chooseDdrPool
  split
  · refine etLog.bind fun _ => ?_
    split
    · exact pure ()
    · exact failed _
  · exact pure ()

theorem setUpBuffers {useDdrPlanned : Bool} {placing : Placing} {id : ℕ}
    {queries : List (Call (Except Error Int64))}
    (clean : ∀ query ∈ queries, ∀ call ∈ query.logged, 0 ∉ call.text) :
    Sound (setUpBuffers useDdrPlanned placing id queries) := by
  induction queries generalizing placing id with
  | nil => exact pure placing
  | cons query rest ih =>
    obtain ⟨first, others⟩ := List.forall_mem_cons.mp clean
    refine (memoryPlannedBufferSize first).bind fun size => etLog.bind fun _ => logPlacing.bind fun _ => ?_
    cases placeBuffer useDdrPlanned placing (toSizeT size) with
    | error abort => exact failed abort
    | ok next => exact ih others

theorem setUpPlanned {pool : MethodPool} {queries : List (Call (Except Error Int64))}
    (clean : ∀ query ∈ queries, ∀ call ∈ query.logged, 0 ∉ call.text) : Sound (setUpPlanned pool queries) :=
  (plannedBufferSizes clean).bind fun _ => chooseDdrPool.bind fun _ => (setUpBuffers clean).bind fun _ => pure _

theorem logPreparing {method : Method} {allocator : ArmMemoryAllocator} (clean : ∀ call ∈ calls, 0 ∉ call.text) :
    Sound (logPreparing calls method allocator) := by
  refine logRefusal.bind fun _ => ?_
  split
  · exact pure ()
  · exact logged clean

theorem prepareInputsChecked {memory : ℕ → UInt8} {method : Method} {manager : MemoryManager}
    (clean : ∀ call ∈ calls, 0 ∉ call.text) : Sound (prepareInputsChecked memory calls method manager) := by
  refine (logPreparing clean).bind fun _ => ?_
  split
  · exact etCheckMsg.bind fun _ => pure _
  · rename_i exit _
    cases exit.message with
    | none => exact assertFailed runnerFile_clean
    | some message => exact etLog.bind fun _ => assertFailed runnerFile_clean

variable {firmware : Firmware} {library : Library}

theorem runnerInit (clean : library.Clean) : Sound (runnerInit firmware library) := by
  refine etLog.bind fun _ => (loadProgram clean.load).bind_of fun program returned => ?_
  have told : program.Clean := clean.program program (loadProgram_result.mp returned)
  refine etLog.bind fun _ => (getMethodName told).bind fun _ => etLog.bind fun _ =>
    (perform told.methodMeta).bind_of fun methodMeta answered => (logFailed _).bind fun _ =>
    etLog.bind fun _ => (checkedValue _).bind_of fun value described => ?_
  have answer : program.methodMeta.answer = .ok value :=
    (Except.ok.inj answered).trans (checkedValue_result.mp described)
  exact (setUpPlanned (told.memoryPlannedBufferSizes value answer)).bind fun _ =>
    (logged clean.loadMethod).bind fun _ => (logFailed _).bind fun _ => etLog.bind fun _ => etLog.bind fun _ =>
    (checkedValue _).bind fun _ => (prepareInputsChecked clean.inputQueries).bind fun _ => etLog.bind fun _ => pure _

/-! ### `run_model` and `main` -/

theorem runTurns {execute : ℕ → MemoryCall Error} (clean : ∀ n, ∀ call ∈ (execute n).logged, 0 ∉ call.text)
    {status : Option Error} {manager : MemoryManager} {n turns : ℕ} :
    Sound (runTurns execute status manager n turns) := by
  induction turns generalizing status manager n with
  | zero => exact pure _
  | succ turns ih =>
    refine etLog.bind fun _ => (logged (clean n)).bind fun _ => ?_
    split
    · exact pure _
    · exact ih

theorem printOutputsChecked (clean : library.Clean) : Sound (printOutputsChecked firmware library) := by
  refine (perform clean.getOutputs).bind fun _ => etCheck.bind fun _ => emit fun op member => ?_
  obtain ⟨line, -, rfl⟩ := List.mem_map.mp member
  exact line.clean

theorem runModelRoutine (clean : library.Clean) (ctx : Initialised) :
    Sound (runModelRoutine firmware library ctx) :=
  etLog.bind fun _ => (runTurns clean.execute).bind fun _ => etCheckMsg.bind fun _ =>
  etLog.bind fun _ => (printOutputsChecked clean).bind fun _ => etLog.bind fun _ => pure _

theorem afterReset (clean : library.Clean) (ctx : Initialised) : Sound (afterReset firmware library ctx) :=
  (runModelRoutine clean ctx).bind fun _ => etLog.bind fun _ => (logLines _).bind fun _ =>
  etCheckMsg.bind fun _ => etLog.bind fun _ => etLog

theorem npuStatus (status : Int32) : Sound (npuStatus status) := by
  unfold RunnerCm33.npuStatus
  split
  · exact traceLiteral _
  · exact pure ()

theorem initialiseNpu {ethosuInit : Call Int32} (clean : ∀ call ∈ ethosuInit.logged, 0 ∉ call.text) :
    Sound (initialiseNpu ethosuInit) :=
  (traceLiteral _).bind fun _ => (logged clean).bind fun _ => (npuStatus _).bind fun _ =>
  (traceLiteral _).bind fun _ => (traceLiteral _).bind fun _ => traceLiteral _

theorem mainRoutine_tells (clean : library.Clean) : (mainRoutine firmware library).StopsWith Ending.Tells :=
  (initialiseNpu clean.ethosuInit).tells.bind fun _ => (logged clean.runtimeInit).tells.bind fun _ =>
  etLog.tells.bind fun _ => (runnerInit clean).tells.bind fun ctx =>
  (StopsWith.of_ok rfl).bind fun _ => (afterReset clean ctx).tells

theorem mainRoutine_clean (clean : library.Clean) :
    (mainRoutine firmware library).Only fun op => op = .reset ∨ op.Clean := by
  have weaker {Value : Type} {routine : Routine Value} (sound : Sound routine) :
      routine.Only fun op => op = .reset ∨ op.Clean := sound.clean.mono fun _ => .inr
  exact (weaker (initialiseNpu clean.ethosuInit)).bind fun _ => (weaker (logged clean.runtimeInit)).bind fun _ =>
    (weaker etLog).bind fun _ => (weaker (runnerInit clean)).bind fun ctx =>
    (Only.emit (by simp)).bind fun _ => weaker (afterReset clean ctx)

end Sound

end RunnerCm33
