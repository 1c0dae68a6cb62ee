import RunnerCm33.Inputs.EvaluesInPool
import RunnerCm33.Runner.Logging

/-! `runner_init` in the CMake build: load the program, find memory for its planned
buffers, load its method, and prepare the inputs. What the library answers, logs and does
with the memory it is given stays open. -/

namespace RunnerCm33

open RunnerCm33.Emitting RunnerCm33.Emitting.Emits RunnerCm33.Runs

/-- A call into the library: what it logs, and what it returns. -/
structure Call (Value : Type) where
  logged : List TraceCall
  answer : Value

def Call.perform (call : Call Value) : Routine Value := do
  emit (call.logged.map .write)
  pure call.answer

/-- A call that works with the memory of the method. -/
structure MemoryCall (Value : Type) extends Call Value where
  uses : List MemoryUse

/-- `MethodMeta`, with the calls of `memory_planned_buffer_size`, one for each buffer. -/
structure MethodMeta where
  memoryPlannedBufferSizes : List (Call (Except Error Int64))

/-- `Program`. -/
structure Program where
  numMethods : UInt32
  methodName : Call (Except Error (List UInt8))
  methodMeta : Call (Except Error MethodMeta)

/-- The library and the driver in one run of the program. `inputQueries` are the records of
`get_inputs`, `input_tag` and `input_tensor_meta`, whose answers the method holds. -/
structure Library where
  ethosuInit : Call Int32
  runtimeInit : List TraceCall
  load : Call (Except Error Program)
  loadMethod : MemoryCall (Except Error Method)
  inputQueries : List TraceCall
  execute : ℕ → MemoryCall Error
  getOutputs : Call Error
  outputs : List EValue

/-- The build, and what the memory holds: the model at first, the outputs in the end. -/
structure Firmware where
  pool : MethodPool
  numInferences : ℕ
  positive : 1 ≤ numInferences
  memory : ℕ → UInt8
  outputMemory : ℕ → UInt8

/-- `ET_MODEL_PTE_ADDR`. -/
def modelPte : UInt32 := 0xC0000000

/-- Where the model is not part of the program, its size is not known. -/
def pteSize : UInt32 := 0x10000000

/-- What `runner_init` leaves behind in its context, and the memory in use. -/
structure Initialised where
  methodName : List UInt8
  planned : PlannedMemory
  methodLoadedMemsize : UInt32
  inputMemsize : UInt32
  executorMembase : UInt32
  manager : MemoryManager

def MemoryManager.usedSize (manager : MemoryManager) : UInt32 := manager.methodAllocator.allocator.usedSize

/-- The line before the program waits forever. -/
def programLoadingFailed (error : Error) : List UInt8 :=
  ascii "Program loading failed @ 0x" ++ pointer modelPte ++ ascii ": 0x" ++ unsignedHex error.code

def loadProgram (load : Call (Except Error Program)) : Routine Program := do
  match ← load.perform with
  | .ok program => pure program
  | .error error => do
    etLog .info 803 (programLoadingFailed error)
    stop .waits

/-- A failed query is logged, and its result used all the same. -/
def logFailed (result : Except Error Value) (line : UInt32) (message : List UInt8) : Routine Unit :=
  match result with
  | .ok _ => pure ()
  | .error error => etLog .info line (message ++ unsignedHex error.code)

def getMethodName (program : Program) : Routine (List UInt8) := do
  let methodNameResult ← program.methodName.perform
  etCheckMsg methodNameResult.isOk "runner_init" "method_name_result.ok()" 815
    (ascii "Program has no methods")
  checkedValue methodNameResult

/-- `method_meta->memory_planned_buffer_size(id).get()`. -/
def memoryPlannedBufferSize (query : Call (Except Error Int64)) : Routine Int64 := do
  let size ← query.perform
  checkedValue size

/-- The sizes as the first loop over the buffers gets them. -/
def plannedBufferSizes : List (Call (Except Error Int64)) → Routine (List Int64)
  | [] => pure []
  | query :: rest => do
    let size ← memoryPlannedBufferSize query
    let sizes ← plannedBufferSizes rest
    pure (size :: sizes)

/-- What `MemoryAllocator::allocate` logs when it refuses a request. -/
def logRefusal (allocator : MemoryAllocator) (size alignment : UInt32) : Routine Unit :=
  if !MemoryAllocator.isPowerOf2 alignment then
    etLogIn "memory_allocator.h" .error 78
      (ascii "Alignment " ++ unsignedLong alignment ++ ascii " is not a power of 2")
  else
    let start := MemoryAllocator.alignPointer allocator.cur_ alignment
    let stop := start + size
    if stop > allocator.end_ || stop < start then
      etLogIn "memory_allocator.h" .error 90 (ascii "Memory allocation failed: " ++
        unsignedLong (stop - allocator.cur_) ++ ascii "B requested (adjusted for alignment), " ++
        unsignedLong (allocator.end_ - allocator.cur_) ++ ascii "B available")
    else pure ()

def Abort.failed : Abort → Routine Value
  | .exceedDdrPool total pool => assertFailed "arm_executor_runner.cpp" "runner_init" 856
      (ascii " (total_planned_size <= planned_buffer_ddr_pool_size): Planned buffers (" ++
        unsignedLong total ++ ascii ") exceed DDR pool (" ++ unsignedLong pool ++ ascii ")")
  | .couldNotAllocate size => assertFailed "arm_executor_runner.cpp" "runner_init" 879
      (ascii " (buffer != nullptr): Could not allocate memory for memory planned buffer size " ++
        unsignedLong size)

/-- The decision for the DDR pool is logged, and checked against its size. -/
def chooseDdrPool (useDdrPlanned : Bool) (total : UInt32) : Routine Unit :=
  if useDdrPlanned then do
    etLog .info 854 (ascii "Planned buffers total " ++ unsignedLong total ++
      -- the dash is one character of three bytes
      ascii " bytes " ++ [0xE2, 0x80, 0x94] ++ ascii " using DDR pool at 0xC0200000")
    if total ≤ plannedBufferDdrPoolSize then pure ()
    else (Abort.exceedDdrPool total plannedBufferDdrPoolSize).failed
  else pure ()

/-- The branch for the DDR pool does not call the allocator. -/
def logPlacing (useDdrPlanned : Bool) (placing : Placing) (bufferSize : UInt32) : Routine Unit :=
  if useDdrPlanned then pure ()
  else logRefusal placing.methodAllocator.toMemoryAllocator bufferSize 16

/-- The second loop, from the buffer with this id. It asks for every size again. -/
def setUpBuffers (useDdrPlanned : Bool) (placing : Placing) (id : ℕ) :
    List (Call (Except Error Int64)) → Routine Placing
  | [] => pure placing
  | query :: rest => do
    let size ← memoryPlannedBufferSize query
    etLog .info 866 (ascii "Setting up planned buffer " ++ decimal id ++ ascii ", size " ++
      unsignedLong (toSizeT size) ++ ascii ".")
    logPlacing useDdrPlanned placing (toSizeT size)
    match placeBuffer useDdrPlanned placing (toSizeT size) with
    | .error abort => abort.failed
    | .ok placing => setUpBuffers useDdrPlanned placing (id + 1) rest

def setUpPlanned (pool : MethodPool) (queries : List (Call (Except Error Int64))) : Routine PlannedMemory := do
  let plannedBufferMembase := pool.methodAllocator.usedSize
  let sizes ← plannedBufferSizes queries
  let total := totalPlannedSize sizes
  let useDdrPlanned : Bool := total > pool.methodAllocationPoolSize / 2
  chooseDdrPool useDdrPlanned total
  let placing ← setUpBuffers useDdrPlanned (.init pool.methodAllocator) 0 queries
  pure {
    totalPlannedSize := total
    useDdrPlanned
    plannedSpans := placing.plannedSpans
    plannedBufferMemsize :=
      if useDdrPlanned then placing.ddrPlannedOffset
      else placing.methodAllocator.usedSize - plannedBufferMembase
    methodAllocator := placing.methodAllocator }

/-- What is logged on the way through `prepare_input_tensors`: by the allocator if it
refuses the array, and otherwise by the queries about the inputs. -/
def logPreparing (queries : List TraceCall) (method : Method) (allocator : ArmMemoryAllocator) : Routine Unit := do
  logRefusal allocator.toMemoryAllocator (method.numInputs * 4) MemoryAllocator.kDefaultAlignment
  if (allocator.allocate (method.numInputs * 4) MemoryAllocator.kDefaultAlignment).1 = nullptr then pure ()
  else emit (queries.map .write)

/-- `prepare_input_tensors` without buffers, and the check of its status. -/
def prepareInputsChecked (memory : ℕ → UInt8) (queries : List TraceCall) (method : Method)
    (manager : MemoryManager) : Routine MemoryManager := do
  logPreparing queries method manager.methodAllocator.allocator
  match prepareInputTensors false method manager.methodAllocator.allocator [] memory with
  | .ok prepared => do
    etCheckMsg (prepared.err = .ok) "runner_init" "status == Error::Ok" 998
      (ascii "Failed to prepare inputs 0x" ++ unsignedHex prepared.err.code)
    pure (manager.step (.method (.allocate (method.numInputs * 4) MemoryAllocator.kDefaultAlignment)))
  | .error exit => do
    match exit.message with
    | some message => etLog .error 634 (ascii message)
    | none => pure ()
    -- an exit without a status is an exception of `at`, which is not called without buffers
    assertFailed "arm_executor_runner.cpp" "runner_init" 998
      (ascii " (status == Error::Ok): Failed to prepare inputs 0x" ++
        (exit.error.elim [] fun error => unsignedHex error.code))

def runnerInit (firmware : Firmware) (library : Library) : Routine Initialised := do
  etLog .info 797 (ascii "PTE Model data loaded. Size: " ++ unsignedLong pteSize ++ ascii " bytes.")
  let program ← loadProgram library.load
  etLog .info 811 (ascii "Model buffer loaded, has " ++ unsignedLong program.numMethods ++ ascii " methods")
  let methodName ← getMethodName program
  etLog .info 818 (ascii "Running method " ++ methodName)
  let methodMeta ← program.methodMeta.perform
  logFailed methodMeta 822 (ascii "Failed to get method_meta for " ++ methodName ++ ascii ": 0x")
  etLog .info 829 (ascii "Setup Method allocator pool. Size: " ++
    unsignedLong firmware.pool.methodAllocationPoolSize ++ ascii " bytes.")
  let methodMeta ← checkedValue methodMeta
  let planned ← setUpPlanned firmware.pool methodMeta.memoryPlannedBufferSizes
  let manager := MemoryManager.new planned
  let methodLoadedMembase := manager.usedSize
  emit (library.loadMethod.logged.map .write)
  let manager := run MemoryManager.step manager library.loadMethod.uses
  logFailed library.loadMethod.answer 969
    (ascii "Loading of method " ++ methodName ++ ascii " failed with status 0x")
  let methodLoadedMemsize := manager.usedSize - methodLoadedMembase
  etLog .info 977 (ascii "Method '" ++ methodName ++ ascii "' loaded.")
  etLog .info 979 (ascii "Preparing inputs...")
  let inputMembase := manager.usedSize
  let method ← checkedValue library.loadMethod.answer
  let manager ← prepareInputsChecked firmware.memory library.inputQueries method manager
  let inputMemsize := manager.usedSize - inputMembase
  etLog .info 1050 (ascii "Input prepared.")
  pure { methodName, planned, methodLoadedMemsize, inputMemsize, executorMembase := manager.usedSize, manager }

end RunnerCm33
