import RunnerCm33.Inputs.Defaults
import RunnerCm33.Inputs.Mismatch
import RunnerCm33.Runner.Results

/-! When the program comes to its end, when it waits for ever, and when it aborts. A query
whose failure is only logged decides as well: its value is asked for later, and that is
checked. -/

namespace RunnerCm33

open RunnerCm33.Emitting RunnerCm33.Emitting.Emits

variable {Value : Type} {function text : String} {line : UInt32} {message : List UInt8} {firmware : Firmware}
  {library : Library} {ctx : Initialised} {input : Input} {inputs : List Input}
  {method : Method} {allocator : ArmMemoryAllocator} {memory : ℕ → UInt8}

/-! ### The inputs -/

theorem prepareInput_ok_iff (i : ℕ) (preparing : Preparing) :
    (∃ next, prepareInput [] i input preparing = .ok next) ↔ input.Answers := by
  cases tagged : input.inputTag with
  | error error => simp [Input.Answers, prepareInput, checkOk, tagged, Except.mapError, bind, Except.bind]
  | ok tag =>
    by_cases isTensor : tag = .tensor
    · cases answer : input.inputTensorMeta with
      | error error =>
        simp [Input.Answers, prepareInput, checkOk, tagged, isTensor, answer, Except.mapError, bind, Except.bind]
      | ok tensorMeta =>
        cases value : input.evalue <;>
          simp [Input.Answers, prepareInput, checkOk, tagged, isTensor, answer, value, Except.mapError, bind,
            Except.bind, pure, Except.pure]
    · simp [Input.Answers, prepareInput, checkOk, tagged, isTensor, Except.mapError, bind, Except.bind, pure,
        Except.pure]

private theorem prepareInputs_ok_iff (i : ℕ) (preparing : Preparing) :
    (∃ next, prepareInputs [] i inputs preparing = .ok next) ↔ ∀ input ∈ inputs, input.Answers := by
  induction inputs generalizing i preparing with
  | nil => simp [prepareInputs]
  | cons input rest ih =>
    rw [List.forall_mem_cons, ← prepareInput_ok_iff i preparing]
    cases turn : prepareInput [] i input preparing with
    | error exit => simp [prepareInputs, turn, bind, Except.bind]
    | ok next =>
      rw [← ih (i + 1) next]
      simp [prepareInputs, turn, bind, Except.bind]

/-- A call without buffers succeeds when the array has its block, `get_inputs` succeeds,
and the queries about the inputs do. -/
theorem prepareInputTensors_ok_iff :
    (∃ prepared, prepareInputTensors false method allocator [] memory = .ok prepared ∧ prepared.err = .ok) ↔
      (allocateInputEvalues method allocator).1 ≠ nullptr ∧ method.getInputs = .ok ∧
        ∀ input ∈ method.inputs, input.Answers := by
  rw [← prepareInputs_ok_iff 0 ⟨.ok, memory, []⟩, allocateInputEvalues]
  constructor
  · rintro ⟨prepared, success, -⟩
    have loop := prepareInputTensors_runs success
    refine ⟨fun null => ?_, by_contra fun failed => ?_, _, loop⟩
    · simp [prepareInputTensors, null, bind, Except.bind, throw, throwThe, MonadExceptOf.throw] at success
    · by_cases null : (allocator.allocate (method.numInputs * 4) MemoryAllocator.kDefaultAlignment).1 = nullptr <;>
        simp [prepareInputTensors, null, failed, bind, Except.bind, throw, throwThe, MonadExceptOf.throw]
          at success
  · rintro ⟨nonnull, gotInputs, next, loop⟩
    refine ⟨⟨next, (allocator.allocate (method.numInputs * 4) MemoryAllocator.kDefaultAlignment).2⟩, ?_,
      (prepareInputs_fills loop).2 rfl⟩
    simp only [prepareInputTensors, nonnull, gotInputs, loop, bind, Except.bind, pure, Except.pure]
    rfl

/-! ### The end of the program -/

/-- Every query of the program is answered, everything finds its place, and every
inference succeeds. -/
structure Completable (firmware : Firmware) (library : Library) (program : Program) (methodMeta : MethodMeta)
    (sizes : List Int64) (method : Method) : Prop where
  loaded : library.load.answer = .ok program
  named : ∃ name, program.methodName.answer = .ok name
  described : program.methodMeta.answer = .ok methodMeta
  sized : methodMeta.memoryPlannedBufferSizes.map Call.answer = sizes.map .ok
  accepted : ¬Rejected firmware.pool sizes
  methodLoaded : library.loadMethod.answer = .ok method
  evalues : ∀ planned, runnerInitPlannedBuffers firmware.pool sizes = .ok planned →
    (allocateInputEvalues method (loadedManager library planned).methodAllocator.allocator).1 ≠ nullptr
  gotInputs : method.getInputs = .ok
  inputsAnswer : ∀ input ∈ method.inputs, input.Answers
  executed : ∀ n < firmware.numInferences, (library.execute n).answer = .ok
  gotOutputs : library.getOutputs.answer = .ok

/-- `runner_init` is through when the queries before the inferences are. -/
theorem runnerInit_reaches_iff : (∃ ctx, (runnerInit firmware library).result = .ok ctx) ↔
    ∃ program methodMeta sizes method planned, library.load.answer = .ok program ∧
      (∃ name, program.methodName.answer = .ok name) ∧ program.methodMeta.answer = .ok methodMeta ∧
      methodMeta.memoryPlannedBufferSizes.map Call.answer = sizes.map .ok ∧
      runnerInitPlannedBuffers firmware.pool sizes = .ok planned ∧ library.loadMethod.answer = .ok method ∧
      (allocateInputEvalues method (loadedManager library planned).methodAllocator.allocator).1 ≠ nullptr ∧
      method.getInputs = .ok ∧ ∀ input ∈ method.inputs, input.Answers := by
  constructor
  · rintro ⟨ctx, reached⟩
    obtain ⟨program, methodMeta, sizes, method, init⟩ := runnerInit_result.mp reached
    exact ⟨program, methodMeta, sizes, method, ctx.planned, init.loaded, ⟨_, init.named⟩, init.described,
      init.sized, init.placed, init.methodLoaded, prepareInputTensors_ok_iff.mp init.prepared⟩
  · rintro ⟨program, methodMeta, sizes, method, planned, loaded, ⟨name, named⟩, described, sized, placed,
      methodLoaded, prepared⟩
    obtain ⟨manager, moved⟩ : ∃ manager, (loadedManager library planned).step
        (.method (.allocate (method.numInputs * 4) MemoryAllocator.kDefaultAlignment)) = manager := ⟨_, rfl⟩
    refine ⟨⟨name, planned, (loadedManager library planned).usedSize - (MemoryManager.new planned).usedSize,
      manager.usedSize - (loadedManager library planned).usedSize, manager.usedSize, manager⟩, ?_⟩
    refine runnerInit_result.mpr ⟨program, methodMeta, sizes, method, ?_⟩
    exact ⟨loaded, named, described, sized, placed, methodLoaded, prepareInputTensors_ok_iff.mpr prepared, moved,
      rfl, rfl, rfl⟩

@[simp] theorem logLines_result (lines : List LogLine) : (logLines lines).result = .ok () := by
  induction lines with
  | nil => rfl
  | cons first rest ih => rw [logLines, logLine, bind_of_ok etLog_result, ih]

private theorem afterReset_result : (afterReset firmware library ctx).result = .ok () ↔
    (∀ n < firmware.numInferences, (library.execute n).answer = .ok) ∧ library.getOutputs.answer = .ok := by
  simp only [afterReset, bind_result_iff, modelRun, etLog_result, logLines_result, etCheckMsg_result,
    true_and, exists_const, and_true, Prod.exists, runModelRoutine_result]
  constructor
  · rintro ⟨modelOk, manager, ⟨all, outputs, -⟩, -⟩
    exact ⟨all, outputs⟩
  · rintro ⟨all, outputs⟩
    exact ⟨true, _, ⟨all, outputs, rfl, rfl⟩, rfl⟩

/-! ### The other ends -/

@[simp] theorem etCheckMsg_aborts {condition : Bool} :
    (etCheckMsg condition function text line message).result ≠ .error .waits := by
  cases condition <;> simp [etCheckMsg]

@[simp] theorem etCheck_aborts {condition : Bool} :
    (etCheck condition function text line).result ≠ .error .waits := by
  cases condition <;> simp [etCheck]

@[simp] theorem checkedValue_aborts {result : Except Error Value} :
    (checkedValue result).result ≠ .error .waits := by
  cases result <;> simp [checkedValue]

@[simp] theorem memoryPlannedBufferSize_aborts (query : Call (Except Error Int64)) :
    (memoryPlannedBufferSize query).result ≠ .error .waits := by
  simp [memoryPlannedBufferSize, bind_stops_iff]

@[simp] theorem plannedBufferSizes_aborts (queries : List (Call (Except Error Int64))) :
    (plannedBufferSizes queries).result ≠ .error .waits := by
  induction queries with
  | nil => nofun
  | cons first rest ih => simp [plannedBufferSizes, bind_stops_iff, ih]

@[simp] theorem setUpBuffers_aborts (useDdrPlanned : Bool) (placing : Placing) (id : ℕ)
    (queries : List (Call (Except Error Int64))) :
    (setUpBuffers useDdrPlanned placing id queries).result ≠ .error .waits := by
  induction queries generalizing placing id with
  | nil => nofun
  | cons first rest ih =>
    simp only [setUpBuffers, ne_eq, bind_stops_iff, memoryPlannedBufferSize_aborts, etLog_result, logPlacing_result,
      reduceCtorEq, false_or, true_and, exists_const, not_exists, not_and]
    intro size _
    cases placeBuffer useDdrPlanned placing (toSizeT size) with
    | error abort => simp
    | ok next => exact ih next (id + 1)

@[simp] theorem setUpPlanned_aborts (pool : MethodPool) (queries : List (Call (Except Error Int64))) :
    (setUpPlanned pool queries).result ≠ .error .waits := by
  have choice (useDdrPlanned : Bool) (total : UInt32) :
      (chooseDdrPool useDdrPlanned total).result ≠ .error .waits := by
    unfold chooseDdrPool
    split
    · rw [bind_of_ok etLog_result]
      split <;> simp
    · simp
  simp [setUpPlanned, bind_stops_iff, choice]

@[simp] theorem prepareInputsChecked_aborts (memory : ℕ → UInt8) (queries : List TraceCall) (method : Method)
    (manager : MemoryManager) : (prepareInputsChecked memory queries method manager).result ≠ .error .waits := by
  rw [prepareInputsChecked, bind_of_ok logPreparing_result]
  dsimp only
  split
  · simp [bind_stops_iff]
  · rename_i exit found
    cases exit.message <;> simp [bind_stops_iff]

private theorem runnerInit_waits_iff : (runnerInit firmware library).result = .error .waits ↔
    ∃ error, library.load.answer = .error error := by
  have loading : (loadProgram library.load).result = .error .waits ↔
      ∃ error, library.load.answer = .error error := by
    rw [loadProgram, bind_of_ok (perform_result library.load)]
    cases library.load.answer <;> simp [bind_stops_iff]
  have naming (program : Program) : (getMethodName program).result ≠ .error .waits := by
    simp [getMethodName, bind_stops_iff]
  simp [runnerInit, bind_stops_iff, loading, naming]

private theorem afterReset_aborts : (afterReset firmware library ctx).result ≠ .error .waits := by
  have turns := runTurns_result library.execute ⟨freshTempAllocator, true⟩ none ctx.manager 0
    firmware.numInferences
  simp [afterReset, runModelRoutine, printOutputsChecked, modelRun, bind_stops_iff, turns]

end RunnerCm33
