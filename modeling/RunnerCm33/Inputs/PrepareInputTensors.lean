import RunnerCm33.Allocator.ArmMemoryAllocator
import RunnerCm33.Runtime.Values
import RunnerCm33.Lib.Memory

/-! `prepare_input_tensors`: copy one buffer into each tensor input, or fill the
tensor inputs with ones when there are no buffers. -/

namespace RunnerCm33

open RunnerCm33.Memory

/-- The messages `prepare_input_tensors` logs or prints on its way. -/
inductive InputMessage where
  | skippingNonTensor (index : ℕ)
  | sizeMismatch (bufferSize nbytes : ℕ)
  | notTensor (index : ℕ)
deriving DecidableEq, Repr

/-- The ways out of the function before its last line: the failed checks, and the
exception of `std::vector::at`. -/
inductive EarlyExit where
  | wrongNumberOfInputs
  | couldNotAllocateEvalues
  | failed (error : Error)
  | outOfRange
deriving DecidableEq, Repr

/-- The error an early exit returns; an exception returns none. -/
def EarlyExit.error : EarlyExit → Option Error
  | .wrongNumberOfInputs => some .invalidArgument
  | .couldNotAllocateEvalues => some .memoryAllocationFailed
  | .failed error => some error
  | .outOfRange => none

def EarlyExit.message : EarlyExit → Option String
  | .wrongNumberOfInputs => some "Wrong number of inputs allocated compared to method"
  | .couldNotAllocateEvalues => some "Could not allocate memory for input evalues."
  | .failed _ | .outOfRange => none

/-- `ET_CHECK_OK_OR_RETURN_ERROR` on a `Result`. -/
def checkOk (result : Except Error α) : Except EarlyExit α := result.mapError .failed

/-- One element of value 1 as the fill writes it, for the element types it has a
case for. -/
def ScalarType.one : ScalarType → Option (List UInt8)
  | .int => some [1, 0, 0, 0]
  | .float => some [0, 0, 0x80, 0x3F]
  | .char => some [1]
  | _ => none

def fillOnes (memory : ℕ → UInt8) (tensor : Tensor) : ℕ → UInt8 :=
  match tensor.scalarType.one with
  | some element =>
      write memory tensor.dataPtr.toNat
        (List.replicate tensor.numel.toNatClampNeg element).flatten
  | none => memory

structure Preparing where
  err : Error
  memory : ℕ → UInt8
  log : List InputMessage

def prepareInput (inputBuffers : List (List UInt8)) (i : ℕ) (input : Input)
    (preparing : Preparing) : Except EarlyExit Preparing := do
  let tag ← checkOk input.inputTag
  if tag ≠ .tensor then
    return { preparing with log := preparing.log ++ [.skippingNonTensor i] }
  let tensorMeta ← checkOk input.inputTensorMeta
  -- the turn starts from a clean status, whatever the earlier inputs left
  let preparing := { preparing with err := .ok }
  if inputBuffers.length > 0 then
    match inputBuffers[i]? with
    | none => throw .outOfRange
    | some buffer =>
      if buffer.length ≠ tensorMeta.nbytes.toNat then
        return { preparing with
          err := .invalidArgument
          log := preparing.log ++ [.sizeMismatch buffer.length tensorMeta.nbytes.toNat] }
      else
        match input.evalue with
        | .asTensor tensor =>
            return { preparing with
              memory := write preparing.memory tensor.dataPtr.toNat buffer }
        | .other _ _ => return preparing
  else
    match input.evalue with
    | .asTensor tensor => return { preparing with memory := fillOnes preparing.memory tensor }
    | .other _ _ => return { preparing with log := preparing.log ++ [.notTensor i] }

def prepareInputs (inputBuffers : List (List UInt8)) (i : ℕ) :
    List Input → Preparing → Except EarlyExit Preparing
  | [], preparing => .ok preparing
  | input :: rest, preparing => do
    let preparing ← prepareInput inputBuffers i input preparing
    prepareInputs inputBuffers (i + 1) rest preparing

/-- What a call that runs to its end leaves behind. -/
structure Prepared extends Preparing where
  allocator : ArmMemoryAllocator

/-- `semihosting` is the build flag that adds the check on the number of buffers. -/
def prepareInputTensors (semihosting : Bool) (method : Method) (allocator : ArmMemoryAllocator)
    (inputBuffers : List (List UInt8)) (memory : ℕ → UInt8) : Except EarlyExit Prepared := do
  if semihosting && !(inputBuffers.length > 0 && method.inputs.length = inputBuffers.length) then
    throw .wrongNumberOfInputs
  let (inputEvalues, allocator) :=
    allocator.allocate (method.numInputs * 4) MemoryAllocator.kDefaultAlignment
  if inputEvalues = nullptr then
    throw .couldNotAllocateEvalues
  if method.getInputs ≠ .ok then
    throw (.failed method.getInputs)
  let preparing ← prepareInputs inputBuffers 0 method.inputs ⟨.ok, memory, []⟩
  return { preparing with allocator }

/-- The error code the caller sees. -/
def returned : Except EarlyExit Prepared → Option Error
  | .ok prepared => some prepared.err
  | .error exit => exit.error

end RunnerCm33
