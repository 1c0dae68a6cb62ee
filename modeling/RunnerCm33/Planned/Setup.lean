import RunnerCm33.Allocator.ArmMemoryAllocator

/-! The part of `runner_init` that finds memory for the model's planned buffers:
the total is compared with the pools, then every buffer is placed either in the
method allocator (DTCM) or behind a running offset into the DDR pool. -/

namespace RunnerCm33

/-- `method_allocation_pool`: where the linker puts it and how large it is are
build settings, its alignment is declared, and its end is an address. -/
structure MethodPool where
  methodAllocationPoolSize : UInt32
  methodAllocationPool : UInt32
  aligned : 16 ∣ methodAllocationPool.toNat
  nonnull : methodAllocationPool ≠ nullptr
  addressable : methodAllocationPool.toNat + methodAllocationPoolSize.toNat < 2 ^ 32

/-- The method pool of the CMake build, at an address in DTCM. -/
def cmakeMethodPool : MethodPool where
  methodAllocationPoolSize := 0x6000
  methodAllocationPool := 0x20004000
  aligned := by decide
  nonnull := by decide
  addressable := by decide

/-- `ctx.method_allocator.reset(method_allocation_pool_size, method_allocation_pool)`. -/
def MethodPool.methodAllocator (pool : MethodPool) : ArmMemoryAllocator :=
  .new pool.methodAllocationPoolSize pool.methodAllocationPool

def plannedBufferDdrPool : UInt32 := 0xA8200000

def plannedBufferDdrPoolSize : UInt32 := 0x2000000

/-- `static_cast<size_t>` of an `int64_t` on the 32-bit target. -/
def toSizeT (size : Int64) : UInt32 := size.toUInt64.toUInt32

structure Span where
  data : UInt32
  size : UInt32
deriving DecidableEq, Repr

/-- The failed checks that end in `et_pal_abort`. -/
inductive Abort where
  | exceedDdrPool (total pool : UInt32)
  | couldNotAllocate (size : UInt32)
deriving DecidableEq, Repr

/-- The first loop: a 32-bit sum of the truncated sizes. -/
def totalPlannedSize (sizes : List Int64) : UInt32 :=
  sizes.foldl (fun total size => total + toSizeT size) 0

/-- What the second loop carries from one buffer to the next. -/
structure Placing where
  methodAllocator : ArmMemoryAllocator
  ddrPlannedOffset : UInt32
  plannedSpans : List Span
deriving DecidableEq, Repr

def Placing.init (methodAllocator : ArmMemoryAllocator) : Placing :=
  ⟨methodAllocator, 0, []⟩

section
variable {methodAllocator : ArmMemoryAllocator}

@[simp] theorem Placing.init_methodAllocator :
    (Placing.init methodAllocator).methodAllocator = methodAllocator := rfl

@[simp] theorem Placing.init_ddrPlannedOffset :
    (Placing.init methodAllocator).ddrPlannedOffset = 0 := rfl

@[simp] theorem Placing.init_plannedSpans :
    (Placing.init methodAllocator).plannedSpans = [] := rfl

end

def placeBuffer (useDdrPlanned : Bool) (placing : Placing) (bufferSize : UInt32) :
    Except Abort Placing :=
  if useDdrPlanned then
    let offset := (placing.ddrPlannedOffset + 15) &&& ~~~15
    .ok { placing with
      ddrPlannedOffset := offset + bufferSize
      plannedSpans := placing.plannedSpans ++ [⟨plannedBufferDdrPool + offset, bufferSize⟩] }
  else
    let (buffer, methodAllocator) := placing.methodAllocator.allocate bufferSize 16
    if buffer = nullptr then .error (.couldNotAllocate bufferSize)
    else .ok { placing with
      methodAllocator
      plannedSpans := placing.plannedSpans ++ [⟨buffer, bufferSize⟩] }

def placeBuffers (useDdrPlanned : Bool) (placing : Placing) : List Int64 → Except Abort Placing
  | [] => .ok placing
  | size :: rest => do
    let placing ← placeBuffer useDdrPlanned placing (toSizeT size)
    placeBuffers useDdrPlanned placing rest

theorem placeBuffers_cons {useDdrPlanned : Bool} {placing placed : Placing} {size : Int64}
    {rest : List Int64} (success : placeBuffers useDdrPlanned placing (size :: rest) = .ok placed) :
    ∃ next, placeBuffer useDdrPlanned placing (toSizeT size) = .ok next ∧
      placeBuffers useDdrPlanned next rest = .ok placed := by
  cases first : placeBuffer useDdrPlanned placing (toSizeT size) with
  | error abort => simp [placeBuffers, first, bind, Except.bind] at success
  | ok next => exact ⟨next, rfl, by simpa [placeBuffers, first, bind, Except.bind] using success⟩

theorem placeBuffers_keeps {useDdrPlanned : Bool} {K : Placing → Prop} {sizes : List Int64}
    (keeps : ∀ placing bufferSize next, K placing →
      placeBuffer useDdrPlanned placing bufferSize = .ok next → K next)
    {placing placed : Placing} (start : K placing)
    (success : placeBuffers useDdrPlanned placing sizes = .ok placed) : K placed := by
  induction sizes generalizing placing with
  | nil =>
    cases success
    exact start
  | cons size rest ih =>
    obtain ⟨next, first, remaining⟩ := placeBuffers_cons success
    exact ih (keeps _ _ _ start first) remaining

/-- What the setup leaves behind for the rest of `runner_init`. -/
structure PlannedMemory where
  totalPlannedSize : UInt32
  useDdrPlanned : Bool
  plannedSpans : List Span
  plannedBufferMemsize : UInt32
  methodAllocator : ArmMemoryAllocator
deriving DecidableEq, Repr

def runnerInitPlannedBuffers (pool : MethodPool) (sizes : List Int64) : Except Abort PlannedMemory := do
  let methodAllocator := pool.methodAllocator
  let plannedBufferMembase := methodAllocator.usedSize
  let total := totalPlannedSize sizes
  let useDdrPlanned : Bool := total > pool.methodAllocationPoolSize / 2
  if useDdrPlanned && !(total ≤ plannedBufferDdrPoolSize : Bool) then
    throw (.exceedDdrPool total plannedBufferDdrPoolSize)
  let placing ← placeBuffers useDdrPlanned (.init methodAllocator) sizes
  return {
    totalPlannedSize := total
    useDdrPlanned
    plannedSpans := placing.plannedSpans
    plannedBufferMemsize :=
      if useDdrPlanned then placing.ddrPlannedOffset
      else placing.methodAllocator.usedSize - plannedBufferMembase
    methodAllocator := placing.methodAllocator }

end RunnerCm33
