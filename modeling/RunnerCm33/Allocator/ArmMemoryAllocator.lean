import RunnerCm33.Allocator.MemoryAllocator
import RunnerCm33.Lib.Runs

/-! The runner's allocator: the runtime's bump allocator with a second, offset
based count of the bytes in use. -/

namespace RunnerCm33

open RunnerCm33.Align

/-- What a request shows the client that makes it: the result of an allocation and
the usage reported afterwards. -/
structure Observation where
  ret : Option UInt32
  usedSize : UInt32
deriving DecidableEq, Repr

structure ArmMemoryAllocator extends MemoryAllocator where
  used_ : UInt32
deriving DecidableEq, Repr

namespace ArmMemoryAllocator

def new (size baseAddress : UInt32) : ArmMemoryAllocator :=
  { MemoryAllocator.new size baseAddress with used_ := 0 }

/-- The padding added to `used_` is decided by the low bits of the size, where
the base class decides it by the low bits of the cursor. -/
def allocate (allocator : ArmMemoryAllocator) (size alignment : UInt32) :
    UInt32 × ArmMemoryAllocator :=
  let (ret, base) := allocator.toMemoryAllocator.allocate size alignment
  if ret != nullptr then
    if size &&& (alignment - 1) == 0 then
      (ret, { base with used_ := allocator.used_ + size })
    else
      (ret, { base with used_ := (allocator.used_ ||| (alignment - 1)) + 1 + size })
  else
    (ret, { base with used_ := allocator.used_ })

def usedSize (allocator : ArmMemoryAllocator) : UInt32 := allocator.used_

def freeSize (allocator : ArmMemoryAllocator) : UInt32 := allocator.size_ - allocator.used_

def reset (allocator : ArmMemoryAllocator) : ArmMemoryAllocator :=
  { allocator.toMemoryAllocator.reset with used_ := 0 }

inductive Request where
  | allocate (size alignment : UInt32)
  | reset
deriving DecidableEq, Repr

def step (allocator : ArmMemoryAllocator) : Request → ArmMemoryAllocator
  | .allocate size alignment => (allocator.allocate size alignment).2
  | .reset => allocator.reset

def observe (allocator : ArmMemoryAllocator) : Request → Observation
  | .allocate size alignment =>
      ⟨some (allocator.allocate size alignment).1, (allocator.allocate size alignment).2.usedSize⟩
  | .reset => ⟨none, allocator.reset.usedSize⟩

def observations (allocator : ArmMemoryAllocator) : List Request → List Observation
  | [] => []
  | request :: rest => allocator.observe request :: (allocator.step request).observations rest

variable {allocator : ArmMemoryAllocator} {size alignment baseAddress : UInt32}
  {request : Request}

@[simp] theorem new_begin : (new size baseAddress).begin_ = baseAddress := rfl
@[simp] theorem new_end : (new size baseAddress).end_ = baseAddress + size := rfl
@[simp] theorem new_cur : (new size baseAddress).cur_ = baseAddress := rfl
@[simp] theorem new_size : (new size baseAddress).size_ = size := rfl
@[simp] theorem new_used : (new size baseAddress).used_ = 0 := rfl

theorem allocate_fst :
    (allocator.allocate size alignment).1 =
      (allocator.toMemoryAllocator.allocate size alignment).1 := by
  unfold allocate
  split
  split
  · split <;> simp_all
  · simp_all

theorem allocate_toMemoryAllocator :
    (allocator.allocate size alignment).2.toMemoryAllocator =
      (allocator.toMemoryAllocator.allocate size alignment).2 := by
  unfold allocate
  split
  split
  · split <;> simp_all
  · simp_all

/-- The count after a request: unchanged on a null result, otherwise advanced
by the size, rounded up first when the size is not a multiple of the alignment. -/
theorem allocate_used :
    (allocator.allocate size alignment).2.used_ =
      if (allocator.allocate size alignment).1 = nullptr then allocator.used_
      else if size &&& (alignment - 1) = 0 then allocator.used_ + size
      else (allocator.used_ ||| (alignment - 1)) + 1 + size := by
  rw [allocate_fst]
  unfold allocate
  split
  rename_i ret base result
  by_cases null : ret = nullptr
  · simp [null, result]
  · by_cases multiple : size &&& (alignment - 1) = 0 <;> simp [null, result, multiple]

theorem allocate_of_not_fits (rounds : allocator.RoundsUp alignment)
    (refused : ¬ allocator.Fits size alignment) :
    allocator.allocate size alignment = (nullptr, allocator) := by
  simp [allocate, MemoryAllocator.allocate_of_not_fits rounds refused]

theorem allocate_toNat (fits : allocator.Fits size alignment) :
    (allocator.allocate size alignment).1.toNat =
      roundUp allocator.cur_.toNat alignment.toNat := by
  rw [allocate_fst, MemoryAllocator.allocate_of_fits fits]
  exact fits.start_toNat

theorem allocate_cur (fits : allocator.Fits size alignment) :
    (allocator.allocate size alignment).2.cur_.toNat =
      roundUp allocator.cur_.toNat alignment.toNat + size.toNat := by
  rw [allocate_toMemoryAllocator, MemoryAllocator.allocate_of_fits fits]
  exact fits.stop_toNat

theorem le_roundUp_cur (fits : allocator.Fits size alignment) :
    allocator.cur_.toNat ≤ roundUp allocator.cur_.toNat alignment.toNat :=
  le_roundUp (Nat.pos_of_isPowerOfTwo fits.1)

/-- Away from address zero, the result is non-null exactly when the request fits. -/
theorem allocate_ne_null_iff (nonzero : allocator.cur_ ≠ 0) :
    (allocator.allocate size alignment).1 ≠ nullptr ↔ allocator.Fits size alignment := by
  constructor
  · rw [allocate_fst]
    exact MemoryAllocator.fits_of_allocate
  · intro fits null
    have zero : roundUp allocator.cur_.toNat alignment.toNat = 0 := by
      rw [← allocate_toNat fits, null]
      rfl
    exact nonzero (UInt32.toNat_inj.mp (Nat.le_zero.mp (zero ▸ le_roundUp_cur fits)))

@[simp] theorem allocate_begin : (allocator.allocate size alignment).2.begin_ = allocator.begin_ := by
  rw [allocate_toMemoryAllocator, MemoryAllocator.allocate_snd]

@[simp] theorem allocate_end : (allocator.allocate size alignment).2.end_ = allocator.end_ := by
  rw [allocate_toMemoryAllocator, MemoryAllocator.allocate_snd]

@[simp] theorem allocate_size : (allocator.allocate size alignment).2.size_ = allocator.size_ := by
  rw [allocate_toMemoryAllocator, MemoryAllocator.allocate_snd]

@[simp] theorem step_begin : (allocator.step request).begin_ = allocator.begin_ := by
  cases request <;> simp [step, reset, MemoryAllocator.reset]

@[simp] theorem step_end : (allocator.step request).end_ = allocator.end_ := by
  cases request <;> simp [step, reset, MemoryAllocator.reset]

@[simp] theorem step_size : (allocator.step request).size_ = allocator.size_ := by
  cases request <;> simp [step, reset, MemoryAllocator.reset]

end ArmMemoryAllocator

end RunnerCm33
