import RunnerCm33.Inputs.PrepareInputTensors
import RunnerCm33.Lib.Layout

/-! The array of `EValue`s that `prepare_input_tensors` has `get_inputs` fill. The
request is for one pointer per input, the elements stored are `EValue`s. -/

namespace RunnerCm33

open RunnerCm33.Align RunnerCm33.Blocks RunnerCm33.Layouts

/-! ### The layout of `EValue` on the 32-bit target -/

def pointerLayout : Layout := scalar 4

/-- `ArrayRef<T>`: a pointer and a `size_t`. -/
def arrayRefLayout : Layout := record [pointerLayout, scalar 4]

/-- `BoxedEvalueList<T>`: an `ArrayRef` and a pointer. -/
def boxedEvalueListLayout : Layout := record [arrayRefLayout, pointerLayout]

/-- `int64_t`, `double`, `bool`, three `ArrayRef`s and three `BoxedEvalueList`s. -/
def triviallyCopyablePayloadLayout : Layout :=
  union [scalar 8, scalar 8, scalar 1, arrayRefLayout, arrayRefLayout, arrayRefLayout,
    boxedEvalueListLayout, boxedEvalueListLayout, boxedEvalueListLayout]

/-- The payload, whose other member is a `Tensor` with its one pointer, and the tag. -/
def evalueLayout : Layout :=
  record [union [triviallyCopyablePayloadLayout, record [pointerLayout]], scalar 4]

private theorem evalueLayout_size : evalueLayout.size = 24 := by decide

/-! ### The array and its block -/

/-- The allocation in `prepare_input_tensors`. -/
def allocateInputEvalues (method : Method) (allocator : ArmMemoryAllocator) :
    UInt32 × ArmMemoryAllocator :=
  allocator.allocate (method.numInputs * 4) MemoryAllocator.kDefaultAlignment

/-- The elements `get_inputs` stores. -/
def inputEvalues (method : Method) (allocator : ArmMemoryAllocator) : Block ℕ :=
  evalueLayout.array (allocateInputEvalues method allocator).1.toNat method.inputs.length

def grantedEvalues (method : Method) (allocator : ArmMemoryAllocator) : Block ℕ :=
  ⟨(allocateInputEvalues method allocator).1.toNat,
    (allocateInputEvalues method allocator).1.toNat + (method.numInputs * 4).toNat,
    Nat.le_add_right ..⟩

/-- What is asked of the allocation: the elements are aligned and lie in the granted
block, so none is stored past the cursor or past the end of the pool. -/
structure EvaluesFit (method : Method) (allocator : ArmMemoryAllocator) : Prop where
  aligned : evalueLayout.align ∣ (inputEvalues method allocator).start
  inBlock : (inputEvalues method allocator).Within
    (grantedEvalues method allocator).start (grantedEvalues method allocator).stop
  belowCursor : (inputEvalues method allocator).stop ≤
    (allocateInputEvalues method allocator).2.cur_.toNat
  inPool : (inputEvalues method allocator).stop ≤ allocator.end_.toNat

variable {method : Method} {allocator : ArmMemoryAllocator}

/-- The request is for at most four bytes per input, less where it wraps. -/
theorem request_le : (method.numInputs * 4).toNat ≤ method.inputs.length * 4 := by
  rw [UInt32.toNat_mul, Method.numInputs, UInt32.toNat_ofNat_of_lt' method.counted]
  exact Nat.mod_le ..

private theorem inputEvalues_overrun (inhabited : 1 ≤ method.inputs.length) :
    (grantedEvalues method allocator).stop < (inputEvalues method allocator).stop :=
  Layout.array_overruns inhabited request_le (by decide)

/-- A granted request fits, so its block and the cursor behind it are exact. -/
theorem allocateInputEvalues_exact (allocated : (allocateInputEvalues method allocator).1 ≠ nullptr) :
    (allocateInputEvalues method allocator).1.toNat = roundUp allocator.cur_.toNat 4 ∧
      (allocateInputEvalues method allocator).2.cur_.toNat = (grantedEvalues method allocator).stop := by
  unfold allocateInputEvalues at allocated
  rw [ArmMemoryAllocator.allocate_fst] at allocated
  have fits := MemoryAllocator.fits_of_allocate allocated
  have address : (allocateInputEvalues method allocator).1.toNat = roundUp allocator.cur_.toNat 4 :=
    ArmMemoryAllocator.allocate_toNat fits
  refine ⟨address, ?_⟩
  have cursor : (allocateInputEvalues method allocator).2.cur_.toNat =
      roundUp allocator.cur_.toNat 4 + (method.numInputs * 4).toNat :=
    ArmMemoryAllocator.allocate_cur fits
  rw [cursor, ← address]
  rfl

/-- The elements stay in the pool only where it has room for six times the bytes
asked for. -/
theorem inputEvalues_inPool_iff (allocated : (allocateInputEvalues method allocator).1 ≠ nullptr) :
    (inputEvalues method allocator).stop ≤ allocator.end_.toNat ↔
      roundUp allocator.cur_.toNat 4 + method.inputs.length * 24 ≤ allocator.end_.toNat := by
  rw [inputEvalues, Layout.array_stop, (allocateInputEvalues_exact allocated).1, evalueLayout_size]

/-- For every method with an input, and in every state of the allocator that grants the
request, the elements do not fit: all but the first four bytes per input lie past the
cursor. -/
theorem inputEvalues_never_fit (method : Method) (allocator : ArmMemoryAllocator)
    (inhabited : 1 ≤ method.inputs.length)
    (allocated : (allocateInputEvalues method allocator).1 ≠ nullptr) :
    ¬ EvaluesFit method allocator ∧
      (allocateInputEvalues method allocator).2.cur_.toNat < (inputEvalues method allocator).stop := by
  have overrun : (grantedEvalues method allocator).stop < (inputEvalues method allocator).stop :=
    inputEvalues_overrun inhabited
  constructor
  · intro fit
    exact absurd fit.inBlock.2 (Nat.not_le.mpr overrun)
  · rwa [(allocateInputEvalues_exact allocated).2]

def oneCharInput : Method := ⟨[charInput 0xA8200000 4], .ok, by decide⟩

/-- One input, and a pool with nothing left behind its four bytes. -/
theorem inputEvalues_never_fit_one :
    ¬ EvaluesFit oneCharInput (.new 4 0x20004000) ∧
      (allocateInputEvalues oneCharInput (.new 4 0x20004000)).2.cur_.toNat <
        (inputEvalues oneCharInput (.new 4 0x20004000)).stop :=
  inputEvalues_never_fit oneCharInput (.new 4 0x20004000) (by decide) (by decide)

/-- A method with one tensor input in the firmware's pool already stores past its
block. -/
theorem inputEvalues_overrun_one :
    ¬ ∀ (method : Method) (allocator : ArmMemoryAllocator), 1 ≤ method.inputs.length →
      (allocateInputEvalues method allocator).1 ≠ nullptr → EvaluesFit method allocator := by
  intro claim
  have fit := claim oneCharInput (.new 0x6000 0x20004000) (by decide) (by decide)
  exact absurd fit.inBlock.2 (by decide)

end RunnerCm33
