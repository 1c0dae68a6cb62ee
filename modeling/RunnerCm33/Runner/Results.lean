import RunnerCm33.Runner.Main

/-! What each piece of the program returns, and when: exactly when every query it makes is
answered, and everything finds its place. -/

namespace RunnerCm33

open RunnerCm33.Emitting RunnerCm33.Emitting.Emits RunnerCm33.Runs

variable {Value : Type} {filename function text : String} {level : LogLevel} {line : UInt32}
  {message : List UInt8} {firmware : Firmware} {library : Library}

@[simp] theorem etLogIn_result : (etLogIn filename level line message).result = .ok () := by
  unfold etLogIn
  split <;> rfl

@[simp] theorem etLog_result : (etLog level line message).result = .ok () := etLogIn_result

@[simp] theorem assertFailed_result :
    (assertFailed filename function line message : Routine Value).result = .error .aborts := rfl

@[simp] theorem failed_result {abort : Abort} : (abort.failed : Routine Value).result = .error .aborts := by
  cases abort <;> rfl

@[simp] theorem etCheckMsg_result {condition : Bool} {value : Unit} :
    (etCheckMsg condition function text line message).result = .ok value ↔ condition = true := by
  cases condition <;> simp [etCheckMsg]

@[simp] theorem etCheck_result {condition : Bool} {value : Unit} :
    (etCheck condition function text line).result = .ok value ↔ condition = true := by
  cases condition <;> simp [etCheck]

@[simp] theorem checkedValue_result {result : Except Error Value} {value : Value} :
    (checkedValue result).result = .ok value ↔ result = .ok value := by
  cases result <;> simp [checkedValue]

@[simp] theorem logFailed_result {result : Except Error Value} :
    (logFailed result line message).result = .ok () := by
  cases result <;> simp [logFailed]

@[simp] theorem initialiseNpu_result (ethosuInit : Call Int32) : (initialiseNpu ethosuInit).result = .ok () := by
  have status : (npuStatus ethosuInit.answer).result = .ok () := by
    unfold npuStatus
    split <;> rfl
  simp only [initialiseNpu, traceLiteral, emit_bind, bind_of_ok status]
  rfl

@[simp] theorem perform_result (call : Call Value) : call.perform.result = .ok call.answer := rfl

@[simp] theorem loadProgram_result {load : Call (Except Error Program)} {program : Program} :
    (loadProgram load).result = .ok program ↔ load.answer = .ok program := by
  rw [loadProgram, bind_of_ok (perform_result load)]
  cases load.answer <;> simp [bind_result_iff]

@[simp] theorem getMethodName_result {program : Program} {name : List UInt8} :
    (getMethodName program).result = .ok name ↔ program.methodName.answer = .ok name := by
  rw [getMethodName, bind_of_ok (perform_result program.methodName)]
  cases found : program.methodName.answer <;> simp [bind_result_iff, Except.isOk, Except.toBool]

@[simp] theorem memoryPlannedBufferSize_result {query : Call (Except Error Int64)} {size : Int64} :
    (memoryPlannedBufferSize query).result = .ok size ↔ query.answer = .ok size := by
  simp [memoryPlannedBufferSize, bind_result_iff]

@[simp] theorem plannedBufferSizes_result {queries : List (Call (Except Error Int64))} {sizes : List Int64} :
    (plannedBufferSizes queries).result = .ok sizes ↔ queries.map Call.answer = sizes.map .ok := by
  induction queries generalizing sizes with
  | nil => simp [plannedBufferSizes, eq_comm]
  | cons first rest ih =>
    simp only [plannedBufferSizes, bind_result_iff, memoryPlannedBufferSize_result, ih, pure_result,
      Except.ok.injEq, List.map_cons]
    constructor
    · rintro ⟨size, answered, sizes, others, rfl⟩
      rw [answered, others, List.map_cons]
    · intro same
      cases sizes with
      | nil => cases same
      | cons size sizes =>
        obtain ⟨answered, others⟩ := List.cons.inj same
        exact ⟨size, answered, sizes, others, rfl⟩

@[simp] theorem logRefusal_result {allocator : MemoryAllocator} {size alignment : UInt32} :
    (logRefusal allocator size alignment).result = .ok () := by
  unfold logRefusal
  split
  · exact etLogIn_result
  · dsimp only
    split
    · exact etLogIn_result
    · rfl

@[simp] theorem logPlacing_result {useDdrPlanned : Bool} {placing : Placing} {bufferSize : UInt32} :
    (logPlacing useDdrPlanned placing bufferSize).result = .ok () := by
  cases useDdrPlanned
  · rw [logPlacing, if_neg nofun]
    exact logRefusal_result
  · rfl

@[simp] theorem logPreparing_result {queries : List TraceCall} {method : Method}
    {allocator : ArmMemoryAllocator} : (logPreparing queries method allocator).result = .ok () := by
  rw [logPreparing, bind_of_ok logRefusal_result]
  split <;> rfl

/-- The second loop places the buffers, or aborts where one cannot be placed. -/
theorem setUpBuffers_result {useDdrPlanned : Bool} {placing : Placing} {id : ℕ}
    {queries : List (Call (Except Error Int64))} {sizes : List Int64}
    (answered : queries.map Call.answer = sizes.map .ok) :
    (setUpBuffers useDdrPlanned placing id queries).result =
      (placeBuffers useDdrPlanned placing sizes).mapError fun _ => .aborts := by
  induction queries generalizing placing id sizes with
  | nil =>
    obtain rfl := List.map_eq_nil_iff.mp answered.symm
    rfl
  | cons query rest ih =>
    cases sizes with
    | nil => cases answered
    | cons size sizes =>
      obtain ⟨first, others⟩ := List.cons.inj answered
      rw [setUpBuffers, bind_of_ok (memoryPlannedBufferSize_result.mpr first), bind_of_ok etLog_result,
        bind_of_ok logPlacing_result, placeBuffers]
      cases placeBuffer useDdrPlanned placing (toSizeT size) with
      | error abort => exact failed_result
      | ok next => exact ih others

private theorem chooseDdrPool_result {useDdrPlanned : Bool} {total : UInt32} {value : Unit} :
    (chooseDdrPool useDdrPlanned total).result = .ok value ↔
      (useDdrPlanned = true → total ≤ plannedBufferDdrPoolSize) := by
  unfold chooseDdrPool
  cases useDdrPlanned with
  | false => simp
  | true =>
    rw [if_pos rfl, bind_of_ok etLog_result]
    by_cases fits : total ≤ plannedBufferDdrPoolSize <;> simp [fits]

/-- The setup succeeds as that of the planned memory does, if all sizes are told. -/
@[simp] theorem setUpPlanned_result {pool : MethodPool} {queries : List (Call (Except Error Int64))}
    {planned : PlannedMemory} : (setUpPlanned pool queries).result = .ok planned ↔
      ∃ sizes, queries.map Call.answer = sizes.map .ok ∧ runnerInitPlannedBuffers pool sizes = .ok planned := by
  simp only [setUpPlanned, bind_result_iff, plannedBufferSizes_result, chooseDdrPool_result, pure_result]
  refine exists_congr fun sizes => and_congr_right fun answered => ?_
  simp only [setUpBuffers_result answered, runnerInitPlannedBuffers, bind, Except.bind, pure, Except.pure, throw,
    throwThe, MonadExceptOf.throw]
  generalize decide (totalPlannedSize sizes > pool.methodAllocationPoolSize / 2) = useDdrPlanned
  by_cases exceeds : (useDdrPlanned && !decide (totalPlannedSize sizes ≤ plannedBufferDdrPoolSize)) = true
  · have refused : ¬(useDdrPlanned = true → totalPlannedSize sizes ≤ plannedBufferDdrPoolSize) := by
      simpa using exceeds
    simp only [if_pos exceeds, refused, false_and, exists_false, reduceCtorEq]
  · have admitted : useDdrPlanned = true → totalPlannedSize sizes ≤ plannedBufferDdrPoolSize := by
      simpa using exceeds
    rw [if_neg exceeds]
    cases placeBuffers useDdrPlanned (.init pool.methodAllocator) sizes with
    | error abort => simp [Except.mapError]
    | ok placing =>
      dsimp only
      constructor
      · rintro ⟨_, _, other, same, records⟩
        cases same
        exact congrArg Except.ok (Except.ok.inj records)
      · intro records
        exact ⟨(), admitted, placing, rfl, congrArg Except.ok (Except.ok.inj records)⟩

@[simp] theorem prepareInputsChecked_result {memory : ℕ → UInt8} {queries : List TraceCall} {method : Method}
    {manager after : MemoryManager} : (prepareInputsChecked memory queries method manager).result = .ok after ↔
      (∃ prepared, prepareInputTensors false method manager.methodAllocator.allocator [] memory =
        .ok prepared ∧ prepared.err = .ok) ∧
      manager.step (.method (.allocate (method.numInputs * 4) MemoryAllocator.kDefaultAlignment)) = after := by
  rw [prepareInputsChecked, bind_of_ok logPreparing_result]
  dsimp only
  split
  · rename_i prepared found
    simp [bind_result_iff, found]
  · rename_i exit found
    cases exit.message <;> simp [bind_result_iff, found]

def loadedManager (library : Library) (planned : PlannedMemory) : MemoryManager :=
  run MemoryManager.step (.new planned) library.loadMethod.uses

/-- Every query of `runner_init` is answered, everything finds its place, and the context
records what that took. -/
structure Initialises (firmware : Firmware) (library : Library) (ctx : Initialised) (program : Program)
    (methodMeta : MethodMeta) (sizes : List Int64) (method : Method) : Prop where
  loaded : library.load.answer = .ok program
  named : program.methodName.answer = .ok ctx.methodName
  described : program.methodMeta.answer = .ok methodMeta
  sized : methodMeta.memoryPlannedBufferSizes.map Call.answer = sizes.map .ok
  placed : runnerInitPlannedBuffers firmware.pool sizes = .ok ctx.planned
  methodLoaded : library.loadMethod.answer = .ok method
  prepared : ∃ prepared, prepareInputTensors false method
    (loadedManager library ctx.planned).methodAllocator.allocator [] firmware.memory = .ok prepared ∧
      prepared.err = .ok
  manager : (loadedManager library ctx.planned).step
    (.method (.allocate (method.numInputs * 4) MemoryAllocator.kDefaultAlignment)) = ctx.manager
  methodLoadedMemsize : ctx.methodLoadedMemsize =
    (loadedManager library ctx.planned).usedSize - (MemoryManager.new ctx.planned).usedSize
  inputMemsize : ctx.inputMemsize = ctx.manager.usedSize - (loadedManager library ctx.planned).usedSize
  executorMembase : ctx.executorMembase = ctx.manager.usedSize

theorem runnerInit_result {ctx : Initialised} : (runnerInit firmware library).result = .ok ctx ↔
    ∃ program methodMeta sizes method, Initialises firmware library ctx program methodMeta sizes method := by
  simp only [runnerInit, bind_result_iff, etLog_result, loadProgram_result, getMethodName_result, perform_result,
    logFailed_result, checkedValue_result, setUpPlanned_result, emit_result, prepareInputsChecked_result,
    pure_result, Except.ok.injEq, true_and, exists_const, exists_eq_left']
  constructor
  · rintro ⟨program, loaded, name, named, methodMeta, described, planned, ⟨sizes, sized, placed⟩, method,
      methodLoaded, manager, ⟨prepared, moved⟩, rfl⟩
    exact ⟨program, methodMeta, sizes, method, loaded, named, described, sized, placed, methodLoaded, prepared,
      moved, rfl, rfl, rfl⟩
  · rintro ⟨program, methodMeta, sizes, method, init⟩
    refine ⟨program, init.loaded, _, init.named, methodMeta, init.described, _, ⟨sizes, init.sized, init.placed⟩,
      method, init.methodLoaded, _, ⟨init.prepared, init.manager⟩, ?_⟩
    have loaded := init.methodLoadedMemsize
    have input := init.inputMemsize
    have executor := init.executorMembase
    cases ctx
    simp_all [loadedManager]

theorem mainRoutine_afterReset {ctx : Initialised} (reached : (runnerInit firmware library).result = .ok ctx) :
    ∃ before, mainRoutine firmware library = ⟨before ++ [.reset] ++ (afterReset firmware library ctx).emitted,
      (afterReset firmware library ctx).result⟩ := by
  have logged : (logPte firmware.memory).result = .ok () := rfl
  refine ⟨(initialiseNpu library.ethosuInit).emitted ++ library.runtimeInit.map .write ++
    (logPte firmware.memory).emitted ++ (runnerInit firmware library).emitted, ?_⟩
  rw [mainRoutine, bind_of_ok (initialiseNpu_result _), emit_bind, bind_of_ok logged, bind_of_ok reached,
    emit_bind]
  simp only [List.append_assoc]

/-- The inferences as the loop over them sees them, by their status. -/
def executions (execute : ℕ → MemoryCall Error) (n : ℕ) : Execution := ⟨[], (execute n).answer⟩

/-- What the inferences from `n` on do with the memory, the fresh temporary allocator after
each of them included. -/
def inferenceUses (execute : ℕ → MemoryCall Error) (n : ℕ) : ℕ → List MemoryUse
  | 0 => []
  | turns + 1 =>
    (execute n).uses ++
      if (execute n).answer ≠ .ok then [] else .temp .reconstruct :: inferenceUses execute (n + 1) turns

theorem runTurns_result (execute : ℕ → MemoryCall Error) (tempAllocator : Box ArmMemoryAllocator)
    (status : Option Error) (manager : MemoryManager) (n turns : ℕ) :
    (runTurns execute status manager n turns).result =
      .ok ((runInferences (executions execute) status tempAllocator n turns).status,
        run MemoryManager.step manager (inferenceUses execute n turns)) := by
  induction turns generalizing status tempAllocator manager n with
  | zero => rfl
  | succ turns ih =>
    rw [runTurns, bind_of_ok etLog_result, emit_bind]
    by_cases success : (execute n).answer = .ok
    · have turn : (executions execute n).status = .ok := success
      have rest := ih ⟨freshTempAllocator, true⟩ (some (execute n).answer)
        ((run MemoryManager.step manager (execute n).uses).step (.temp .reconstruct)) (n + 1)
      simp only [runInferences_ok turn, inferenceUses, success, ne_eq, not_true_eq_false, if_false, run_append,
        run_cons]
      simpa [success] using rest
    · simp [success, runInferences, executions, inferenceUses]

/-- `run_model` returns where its loop, its status check and `get_outputs` let it verify the
outputs, and aborts otherwise. -/
theorem runModelRoutine_finish (firmware : Firmware) (library : Library) (ctx : Initialised)
    (tempAllocator : Box ArmMemoryAllocator) : (runModelRoutine firmware library ctx).result =
      if (runModel (executions library.execute) firmware.numInferences library.getOutputs.answer
        tempAllocator).finish = .outputsVerified then
          .ok (verifyResult, run MemoryManager.step ctx.manager
            (inferenceUses library.execute 0 firmware.numInferences))
      else .error .aborts := by
  have turns := runTurns_result library.execute tempAllocator none ctx.manager 0 firmware.numInferences
  rw [runModelRoutine, bind_of_ok etLog_result, bind_of_ok turns, runModel, if_congr outputsVerified_iff rfl rfl]
  by_cases executed : (runInferences (executions library.execute) none tempAllocator 0
      firmware.numInferences).status = some .ok
  · by_cases got : library.getOutputs.answer = .ok <;>
      simp [executed, got, etCheckMsg, etCheck, printOutputsChecked, modelRun, bind, Pure.pure]
  · simp [executed, etCheckMsg, bind]

theorem runModelRoutine_result {ctx : Initialised} {modelOk : Bool} {manager : MemoryManager} :
    (runModelRoutine firmware library ctx).result = .ok (modelOk, manager) ↔
      (∀ n < firmware.numInferences, (library.execute n).answer = .ok) ∧ library.getOutputs.answer = .ok ∧
        modelOk = true ∧
        manager = run MemoryManager.step ctx.manager (inferenceUses library.execute 0 firmware.numInferences) := by
  have positive : firmware.numInferences ≠ 0 := Nat.ne_of_gt firmware.positive
  have finished : (runModel (executions library.execute) firmware.numInferences library.getOutputs.answer
      ⟨freshTempAllocator, true⟩).finish = .outputsVerified ↔
        (∀ n < firmware.numInferences, (library.execute n).answer = .ok) ∧ library.getOutputs.answer = .ok := by
    rw [runModel, outputsVerified_iff, status_ok_iff]
    simp [Succeed, executions, positive]
  rw [runModelRoutine_finish firmware library ctx ⟨freshTempAllocator, true⟩, if_congr finished rfl rfl]
  split
  · rename_i all
    simp only [Except.ok.injEq, Prod.mk.injEq]
    constructor
    · rintro ⟨rfl, rfl⟩
      exact ⟨all.1, all.2, rfl, rfl⟩
    · rintro ⟨-, -, rfl, rfl⟩
      exact ⟨rfl, rfl⟩
  · rename_i failed
    refine iff_of_false (by simp) ?_
    rintro ⟨executed, got, -⟩
    exact failed ⟨executed, got⟩

end RunnerCm33
