import RunnerCm33.Lib.Blocks
import Mathlib.Algebra.Group.Nat.Defs

/-! The ExecuTorch types the runner handles: error codes, tags, element types, and
the inputs of a loaded method as its metadata and its values report them. -/

namespace RunnerCm33

open RunnerCm33.Blocks

/-- `enum class Error`. -/
inductive Error where
  | ok | internal | invalidState | endOfMethod
  | notSupported | notImplemented | invalidArgument | invalidType | operatorMissing
  | registrationExceedingMaxKernels | registrationAlreadyRegistered
  | notFound | memoryAllocationFailed | accessFailed | invalidProgram | invalidExternalData
  | outOfResources
  | delegateInvalidCompatibility | delegateMemoryAllocationFailed | delegateInvalidHandle
deriving DecidableEq, Repr

/-- `enum class Tag`, the dynamic type of an `EValue`. -/
inductive Tag where
  | none | tensor | string | double | int | bool
  | listBool | listDouble | listInt | listTensor | listScalar | listOptionalTensor
deriving DecidableEq, Repr

/-- `enum class ScalarType`, in the order of its values. -/
inductive ScalarType where
  | byte | char | short | int | long | half | float | double
  | complexHalf | complexFloat | complexDouble | bool
  | qint8 | quint8 | qint32 | bfloat16 | quint4x2 | quint2x4
  | bits1x8 | bits2x4 | bits4x2 | bits8 | bits16
  | float8E5m2 | float8E4m3fn | float8E5m2fnuz | float8E4m3fnuz
  | uint16 | uint32 | uint64 | undefined
deriving DecidableEq, Repr

def ScalarType.value (scalarType : ScalarType) : ℕ := scalarType.ctorIdx

structure Tensor where
  scalarType : ScalarType
  numel : Int32
  nbytes : UInt32
  dataPtr : UInt32
deriving DecidableEq, Repr

/-- A tensor, or a value of another kind whose payload the runner does not read. -/
inductive EValue where
  | asTensor (tensor : Tensor)
  | other (tag : Tag) (notTensor : tag ≠ .tensor)

def EValue.tag : EValue → Tag
  | .asTensor _ => .tensor
  | .other tag _ => tag

structure TensorInfo where
  nbytes : UInt32
deriving DecidableEq, Repr

/-- One input of a method: what `MethodMeta` answers about it and the value
`get_inputs` copies out, whose tag is the one the metadata reports. -/
structure Input where
  inputTag : Except Error Tag
  inputTensorMeta : Except Error TensorInfo
  evalue : EValue
  consistent : ∀ tag, inputTag = .ok tag → evalue.tag = tag

/-- The bytes a tensor input occupies. -/
def Input.storage (input : Input) : Option (Block ℕ) :=
  match input.evalue, input.inputTensorMeta with
  | .asTensor tensor, .ok tensorMeta =>
      some ⟨tensor.dataPtr.toNat, tensor.dataPtr.toNat + tensorMeta.nbytes.toNat,
        Nat.le_add_right ..⟩
  | _, _ => none

/-- A tensor of bytes at an address, as metadata and value report it. -/
def charInput (dataPtr nbytes : UInt32) : Input where
  inputTag := .ok .tensor
  inputTensorMeta := .ok ⟨nbytes⟩
  evalue := .asTensor ⟨.char, nbytes.toInt32, nbytes, dataPtr⟩
  consistent := by
    rintro tag ⟨⟩
    rfl

structure Method where
  inputs : List Input
  getInputs : Error
  counted : inputs.length < 2 ^ 32

/-- `MethodMeta::num_inputs`. -/
def Method.numInputs (method : Method) : UInt32 := .ofNat method.inputs.length

end RunnerCm33
