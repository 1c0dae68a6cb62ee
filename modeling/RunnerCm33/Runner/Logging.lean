import RunnerCm33.Lib.Emitting
import RunnerCm33.Inference.LogMemStatus
import RunnerCm33.Trace.PrintedLines
import RunnerCm33.Trace.RunInvariant

/-! The pieces that the program is put together from: `ET_LOG`, the checks that end in
`et_pal_abort`, and the numbers in their messages. -/

namespace RunnerCm33

open RunnerCm33.Emitting RunnerCm33.Emitting.Emits

/-- How the program ends where `main` does not return. -/
inductive Ending where
  | aborts
  /-- `while(1) { __WFE(); }` in `runner_init`. -/
  | waits
deriving DecidableEq, Repr

/-- A piece of the program, with what it does to the trace. -/
abbrev Routine (Value : Type) := Emits TraceOp Ending Value

/-- `error_code_t`. -/
def Error.code : Error → UInt32
  | .ok => 0x00
  | .internal => 0x01
  | .invalidState => 0x02
  | .endOfMethod => 0x03
  | .notSupported => 0x10
  | .notImplemented => 0x11
  | .invalidArgument => 0x12
  | .invalidType => 0x13
  | .operatorMissing => 0x14
  | .registrationExceedingMaxKernels => 0x15
  | .registrationAlreadyRegistered => 0x16
  | .notFound => 0x20
  | .memoryAllocationFailed => 0x21
  | .accessFailed => 0x22
  | .invalidProgram => 0x23
  | .invalidExternalData => 0x24
  | .outOfResources => 0x25
  | .delegateInvalidCompatibility => 0x30
  | .delegateMemoryAllocationFailed => 0x31
  | .delegateInvalidHandle => 0x32

/-- `%x`. -/
def unsignedHex (value : UInt32) : List UInt8 :=
  (Nat.toDigits 16 value.toNat).map fun digit => digit.toNat.toUInt8

/-- `%p`. -/
def pointer (address : UInt32) : List UInt8 := ascii "0x" ++ unsignedHex address

/-- `%lu`. -/
def unsignedLong (value : UInt32) : List UInt8 := decimal value.toNat

/-- What `%s` reads of an array. -/
def cString (bytes : List UInt8) : List UInt8 := bytes.takeWhile (· ≠ 0)

/-- `ET_LOG`, which drops what is below `ET_MIN_LOG_LEVEL`. The message reaches
`et_pal_emit_log_message` as a C string. -/
def etLogIn (filename : String) (level : LogLevel) (line : UInt32) (message : List UInt8) : Routine Unit :=
  if level = .debug then pure ()
  else emit [.write (.etPalEmitLogMessage level (ascii filename) line (cString message))]

def etLog : LogLevel → UInt32 → List UInt8 → Routine Unit := etLogIn "arm_executor_runner.cpp"

def runtimeAbort : Routine Value := ⟨[.write .etPalAbort], .error .aborts⟩

/-- `ET_ASSERT_MESSAGE_EMIT` and the abort behind it. -/
def assertFailed (filename function : String) (line : UInt32) (message : List UInt8) : Routine Value := do
  etLogIn filename .fatal line
    (ascii "In function " ++ ascii function ++ ascii "(), assert failed" ++ message)
  runtimeAbort

/-- `ET_CHECK_MSG`; `text` is the condition as it is written. -/
def etCheckMsg (condition : Bool) (function text : String) (line : UInt32) (message : List UInt8) :
    Routine Unit :=
  if condition then pure ()
  else assertFailed "arm_executor_runner.cpp" function line
    (ascii " (" ++ ascii text ++ ascii "): " ++ message)

/-- `ET_CHECK`. -/
def etCheck (condition : Bool) (function text : String) (line : UInt32) : Routine Unit :=
  if condition then pure ()
  else assertFailed "arm_executor_runner.cpp" function line (ascii ": " ++ ascii text)

/-- `Result<T>::operator->`, `operator*` and `get`, which check that there is a value. -/
def checkedValue (result : Except Error Value) : Routine Value :=
  match result with
  | .ok value => pure value
  | .error _ => assertFailed "result.h" "CheckOk" 170 (ascii ": hasValue_")

/-- The conversions in the formats of `log_mem_status`. -/
def formatted : List Char → List UInt32 → List UInt8
  | '%' :: 'l' :: 'u' :: rest, argument :: arguments => unsignedLong argument ++ formatted rest arguments
  | '%' :: '%' :: rest, arguments => ascii "%" ++ formatted rest arguments
  | char :: rest, arguments => char.toNat.toUInt8 :: formatted rest arguments
  | [], _ => []

/-- Where the formats of `log_mem_status` stand in the source. -/
def LogLine.number (line : LogLine) : UInt32 :=
  let numbers : List (String × UInt32) := [
    ("model_pte_program_size:     %lu bytes. (pte size unknown when not baked into elf)", 1058),
    ("model_pte_loaded_size:      %lu bytes. (pte size unknown when not baked into elf)", 1062),
    ("model_pte_program_size:     %lu bytes.", 1067),
    ("model_pte_loaded_size:      %lu bytes.", 1068),
    (inputFileAllocatorFormat, 1073),
    (methodAllocatorFormat, 1085),
    ("method_allocator_planned:  %lu bytes", 1092),
    ("method_allocator_loaded:   %lu bytes", 1096),
    ("method_allocator_input:    %lu bytes", 1100),
    ("method_allocator_executor: %lu bytes", 1101),
    ("temp_allocator:            %lu", 1104),
    ("ETDump_outputs_buffer:     %lu / %lu free: %lu ( used: %lu %% ) ", 1110)]
  (numbers.lookup line.format).getD 0

def logLine (line : LogLine) : Routine Unit :=
  etLog .info line.number (formatted line.format.toList line.arguments)

def logLines : List LogLine → Routine Unit
  | [] => pure ()
  | line :: rest => do
    logLine line
    logLines rest

end RunnerCm33
