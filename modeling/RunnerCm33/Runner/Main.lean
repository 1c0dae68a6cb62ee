import RunnerCm33.Inference.RunModel
import RunnerCm33.Runner.RunnerInit
import RunnerCm33.Trace.PrintOutputs

/-! `run_model`, `log_mem_status` and `main` of the CMake build, from the copy of the
resource table on. -/

namespace RunnerCm33

open RunnerCm33.Emitting RunnerCm33.Emitting.Emits RunnerCm33.Runs

/-- The loop of `run_model` from inference `n`, with so many turns to go. -/
def runTurns (execute : ℕ → MemoryCall Error) (status : Option Error) (manager : MemoryManager) (n : ℕ) :
    ℕ → Routine (Option Error × MemoryManager)
  | 0 => pure (status, manager)
  | turns + 1 => do
    etLog .debug 1341 (ascii "Running inference number " ++ signedDecimal (.ofNat n))
    emit ((execute n).logged.map .write)
    let manager := run MemoryManager.step manager (execute n).uses
    if (execute n).answer ≠ .ok then pure (some (execute n).answer, manager)
    else runTurns execute (some (execute n).answer) (manager.step (.temp .reconstruct)) (n + 1) turns

/-- `print_outputs`. -/
def printOutputsChecked (firmware : Firmware) (library : Library) : Routine Unit := do
  let status ← library.getOutputs.perform
  etCheck (status = .ok) "print_outputs" "status == Error::Ok" 1126
  emit ((printOutputs firmware.outputMemory library.outputs).map fun line => .write (.printOutputs line))

/-- Without `ET_BUNDLE_IO` nothing is checked. -/
def verifyResult : Bool := true

def modelRun (line : UInt32) (modelOk : Bool) : Routine Unit :=
  etLog .info line (ascii "Model run: " ++ signedDecimal (if modelOk then 1 else 0))

def runModelRoutine (firmware : Firmware) (library : Library) (ctx : Initialised) :
    Routine (Bool × MemoryManager) := do
  etLog .info 1337
    (ascii "Starting running " ++ signedDecimal (.ofNat firmware.numInferences) ++ ascii " inferences...")
  let turns ← runTurns library.execute none ctx.manager 0 firmware.numInferences
  etCheckMsg (turns.1 = some .ok) "run_model" "status == Error::Ok" 1355
    (ascii "Execution of method " ++ ctx.methodName ++ ascii " failed with status 0x" ++
      turns.1.elim [] fun status => unsignedHex status.code)
  etLog .info 1361 (signedDecimal (.ofNat firmware.numInferences) ++ ascii " inferences finished")
  printOutputsChecked firmware library
  modelRun 1364 verifyResult
  pure (verifyResult, turns.2)

/-- The context that `log_mem_status` reads when the inferences are over. -/
def Initialised.context (ctx : Initialised) (manager : MemoryManager) : RunnerContext where
  etModelPteAddr := true
  programDataLen := pteSize
  pteSize := pteSize
  plannedBufferMemsize := ctx.planned.plannedBufferMemsize
  methodLoadedMemsize := ctx.methodLoadedMemsize
  inputMemsize := ctx.inputMemsize
  executorMembase := ctx.executorMembase
  methodAllocator := manager.methodAllocator.allocator
  tempAllocator := manager.tempAllocator.allocator
  inputFileAllocator := none
  outputDump := none

def traceLiteral (literal : MainLiteral) : Routine Unit := emit [.write (.main literal)]

/-- A driver that fails costs one more line. -/
def npuStatus (status : Int32) : Routine Unit :=
  if status ≠ 0 then traceLiteral .ethosuInitFailed else pure ()

def initialiseNpu (ethosuInit : Call Int32) : Routine Unit := do
  traceLiteral .ethosuInitStarting
  emit (ethosuInit.logged.map .write)
  npuStatus ethosuInit.answer
  traceLiteral .ethosuInitDone
  traceLiteral .npuIrqEnabled
  traceLiteral .runnerStarted

def afterReset (firmware : Firmware) (library : Library) (ctx : Initialised) : Routine Unit := do
  let ran ← runModelRoutine firmware library ctx
  modelRun 1491 ran.1
  logLines (logMemStatus (ctx.context ran.2))
  etCheckMsg ran.1 "main" "model_ok == true" 1496 (ascii "Problem running model")
  etLog .info 1498 (ascii "Program complete, exiting.")
  etLog .info 1502 [0x04]

/-- Bytes 4 to 7 of a program are its magic number. -/
def logPte (memory : ℕ → UInt8) : Routine Unit :=
  etLog .info 1477 (ascii "PTE @ " ++ pointer modelPte ++ ascii " [----" ++
    Memory.read memory (modelPte.toNat + 4) 4 ++ ascii "]")

def mainRoutine (firmware : Firmware) (library : Library) : Routine Unit := do
  initialiseNpu library.ethosuInit
  emit (library.runtimeInit.map .write)
  logPte firmware.memory
  let ctx ← runnerInit firmware library
  emit [.reset]
  afterReset firmware library ctx

/-! ### A small model -/

/-- One inference, with nothing where the model should be. -/
def blankFirmware : Firmware where
  pool := cmakeMethodPool
  numInferences := 1
  positive := by decide
  memory := fun _ => 0
  outputMemory := fun _ => 0

/-- One method with one planned buffer, one input and one output. -/
def smallLibrary : Library where
  ethosuInit := ⟨[], 0⟩
  runtimeInit := []
  load := ⟨[], .ok ⟨1, ⟨[], .ok (ascii "forward")⟩, ⟨[], .ok ⟨[⟨[], .ok 64⟩]⟩⟩⟩⟩
  loadMethod := ⟨⟨[], .ok oneCharInput⟩, [.method (.allocateList 3 12 4), .planned 0 0 4]⟩
  inputQueries := []
  execute := fun _ => ⟨⟨[.ethosuTraceLog (ascii "I: done\n")], .ok⟩, [.temp (.allocate 0x1000 16)]⟩
  getOutputs := ⟨[], .ok⟩
  outputs := [.asTensor ⟨.char, 4, 4, 0x20004000⟩]

end RunnerCm33
