import RunnerCm33.Allocator.ArmMemoryAllocator
import RunnerCm33.Lib.Memory

/-! The semihosting command line: `read_binary_file`, and the part of `main` that
checks the number of arguments and parses them. The log messages are left out. -/

namespace RunnerCm33

open RunnerCm33.Memory

/-- A file, and how many of its bytes `fread` delivers when asked for all of them. -/
structure File where
  contents : List UInt8
  delivered : ℕ
  counted : contents.length < 2 ^ 31
  within : delivered ≤ contents.length

/-- What `fread` delivers. -/
def File.read (file : File) : List UInt8 := file.contents.take file.delivered

/-- What `fopen` finds under a name, or under the null pointer. -/
abbrev Files := Option String → Option File

/-- What `read_binary_file` returns, with the allocator and the memory it leaves. -/
structure FileRead where
  buffer : UInt32
  size : UInt32
  allocator : ArmMemoryAllocator
  memory : ℕ → UInt8

def readBinaryFile (files : Files) (filename : Option String) (allocator : ArmMemoryAllocator)
    (memory : ℕ → UInt8) : FileRead :=
  match files filename with
  | none => ⟨nullptr, 0, allocator, memory⟩
  | some file =>
    let fileSize := UInt32.ofNat file.contents.length
    let (buffer, allocator) := allocator.allocate fileSize MemoryAllocator.kDefaultAlignment
    if buffer = nullptr then ⟨nullptr, 0, allocator, memory⟩
    else ⟨buffer, .ofNat file.read.length, allocator, write memory buffer.toNat file.read⟩

/-- `input_file_allocation_pool_size`. -/
def inputFileAllocationPoolSize : UInt32 := 60 * 1024 * 1024

/-- Where the linker puts `input_file_allocation_pool`. -/
structure InputFilePool where
  address : UInt32
  aligned : 16 ∣ address.toNat
  nonnull : address ≠ nullptr
  inside : address.toNat + inputFileAllocationPoolSize.toNat < 2 ^ 32

/-- The flags the loop compares its argument with. -/
inductive Flag where
  | input | model | output
deriving DecidableEq, Repr

def flagOf (argument : String) : Option Flag :=
  if argument = "-i" then some .input
  else if argument = "-m" then some .model
  else if argument = "-o" then some .output
  else none

/-- The variables the loop sets, and the positions in `argv` that it has compared with
the flags and that it has taken as operands. -/
structure Parsing where
  inputBuffers : List (UInt32 × UInt32)
  modelPte : UInt32
  pteSize : UInt32
  outputBasename : Option String
  allocator : ArmMemoryAllocator
  memory : ℕ → UInt8
  compared : List ℕ
  operands : List ℕ

def Parsing.start (pool : InputFilePool) (memory : ℕ → UInt8) : Parsing where
  inputBuffers := []
  modelPte := nullptr
  pteSize := 4
  outputBasename := none
  allocator := .new inputFileAllocationPoolSize pool.address
  memory := memory
  compared := []
  operands := []

/-- The state in which `_exit(1)` is called, or the one the loop ends in. -/
abbrev Parsed := Except Parsing Parsing

/-- The body of the branch for a flag, with `argv[++i]` for its operand. -/
def takeOperand (files : Files) (flag : Flag) (position : ℕ) (operand : Option String)
    (parsing : Parsing) : Parsed :=
  let parsing := { parsing with operands := parsing.operands ++ [position] }
  match flag with
  | .input =>
    let file := readBinaryFile files operand parsing.allocator parsing.memory
    let parsing := { parsing with allocator := file.allocator, memory := file.memory }
    if file.buffer = nullptr then .error parsing
    else .ok { parsing with inputBuffers := parsing.inputBuffers ++ [(file.buffer, file.size)] }
  | .model =>
    let file := readBinaryFile files operand parsing.allocator parsing.memory
    let parsing := { parsing with allocator := file.allocator, memory := file.memory }
    if file.buffer = nullptr then .error parsing
    else .ok { parsing with modelPte := file.buffer, pteSize := file.size }
  | .output => .ok { parsing with outputBasename := operand }

/-- `std::strcmp(argv[i], ..)`. -/
def Parsing.compare (parsing : Parsing) (i : ℕ) : Parsing :=
  { parsing with compared := parsing.compared ++ [i] }

/-- The loop from index `i` on, over the arguments that are left. Behind the last one
`argv` holds a null pointer. -/
def parseLoop (files : Files) : ℕ → List String → Parsing → Parsed
  | _, [], parsing => .ok parsing
  | i, [argument], parsing =>
    match flagOf argument with
    | none => .ok (parsing.compare i)
    | some flag => takeOperand files flag (i + 1) none (parsing.compare i)
  | i, argument :: operand :: rest, parsing =>
    match flagOf argument with
    | none => parseLoop files (i + 1) (operand :: rest) (parsing.compare i)
    | some flag =>
      match takeOperand files flag (i + 1) (some operand) (parsing.compare i) with
      | .error parsing => .error parsing
      | .ok parsing => parseLoop files (i + 2) rest parsing

/-- `argc` is the length of `argv`. -/
def parseArguments (files : Files) (pool : InputFilePool) (memory : ℕ → UInt8)
    (argv : List String) : Parsed :=
  if argv.length < 7 then .error (.start pool memory)
  else parseLoop files 0 argv (.start pool memory)

end RunnerCm33
