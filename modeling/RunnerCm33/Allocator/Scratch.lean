import RunnerCm33.Allocator.StackedBlocks

/-! The scratch blocks that `temp_allocator` hands out between two resets. The
list of granted blocks is bookkeeping of the model; the allocator keeps only its
cursor. -/

namespace RunnerCm33

open RunnerCm33.Blocks RunnerCm33.Runs

def tempAllocationPool : UInt32 := 0xA8000000

/-- `ET_ARM_BAREMETAL_SCRATCH_TEMP_ALLOCATOR_POOL_SIZE` of the CMake build. -/
def tempAllocationPoolSize : UInt32 := 0x200000

/-- A non-null result together with the request that obtained it. -/
structure Grant where
  start : UInt32
  size : UInt32
  alignment : UInt32
deriving DecidableEq, Repr

def Grant.block (grant : Grant) : Block ℕ :=
  ⟨grant.start.toNat, grant.start.toNat + grant.size.toNat, Nat.le_add_right ..⟩

structure Scratch where
  allocator : ArmMemoryAllocator
  granted : List Grant
deriving DecidableEq, Repr

namespace Scratch

/-- `ctx.temp_allocator.reset(temp_allocation_pool_size, temp_allocation_pool)`. -/
def fresh : Scratch := ⟨.new tempAllocationPoolSize tempAllocationPool, []⟩

/-- Kernels allocate and may reset; `run_model` constructs the allocator anew
after every inference. -/
inductive Event where
  | allocate (size alignment : UInt32)
  | reset
  | reconstruct
deriving DecidableEq, Repr

def step (scratch : Scratch) : Event → Scratch
  | .allocate size alignment =>
    let (ret, allocator) := scratch.allocator.allocate size alignment
    if ret = nullptr then { scratch with allocator }
    else { allocator, granted := scratch.granted ++ [⟨ret, size, alignment⟩] }
  | .reset => { allocator := scratch.allocator.reset, granted := [] }
  | .reconstruct => fresh

/-- No request asks for more than 1 GiB alignment. -/
def Event.Moderate : Event → Prop
  | .allocate _ alignment => alignment.toNat ≤ 2 ^ 30
  | _ => True

instance (event : Event) : Decidable event.Moderate :=
  match event with
  | .allocate _ _ => inferInstanceAs (Decidable (_ ≤ _))
  | .reset => inferInstanceAs (Decidable True)
  | .reconstruct => inferInstanceAs (Decidable True)

structure Valid (scratch : Scratch) : Prop extends
    ArmMemoryAllocator.Stacks tempAllocationPool.toNat
      (tempAllocationPool.toNat + tempAllocationPoolSize.toNat) (scratch.granted.map Grant.block)
      scratch.allocator where
  begins : scratch.allocator.begin_ = tempAllocationPool
  aligned : ∀ grant ∈ scratch.granted, grant.alignment.toNat ∣ grant.start.toNat

variable {scratch : Scratch} {event : Event} {events : List Event} {alignment : UInt32}

theorem fresh_valid : fresh.Valid where
  positive := by decide
  ends := rfl
  stacked := le_refl _
  bounded := by decide
  begins := rfl
  aligned := by simp [fresh]

theorem step_valid (valid : scratch.Valid) (moderate : event.Moderate) :
    (scratch.step event).Valid := by
  have below : tempAllocationPool.toNat + tempAllocationPoolSize.toNat ≤ 3 * 2 ^ 30 := by decide
  cases event with
  | reset =>
    refine ⟨⟨valid.positive, valid.ends, ?_, ?_⟩, valid.begins, by simp [step]⟩
    · simp [step, ArmMemoryAllocator.reset, MemoryAllocator.reset, valid.begins, Stacked]
    · simp [step, ArmMemoryAllocator.reset, MemoryAllocator.reset, valid.begins]
  | reconstruct => exact fresh_valid
  | allocate size alignment =>
    by_cases fits : scratch.allocator.Fits size alignment
    · simp only [step, valid.granted_ne_null fits, ↓reduceIte]
      refine ⟨?_, by simpa using valid.begins, ?_⟩
      · rw [List.map_append]
        exact valid.push fits rfl rfl
      · intro grant member
        rcases List.mem_append.mp member with old | new
        · exact valid.aligned grant old
        · rw [List.mem_singleton.mp new]
          exact ArmMemoryAllocator.Stacks.granted_aligned fits
    · have refused := valid.refused below moderate fits
      simpa only [step, refused, ↓reduceIte] using valid

theorem run_valid (moderate : ∀ event ∈ events, event.Moderate) :
    (run step fresh events).Valid :=
  ((EachStep.of_forall moderate).always fresh_valid fun _ _ => step_valid).last

theorem Valid.granted_within (valid : scratch.Valid) {grant : Grant} (member : grant ∈ scratch.granted) :
    grant.block.Within tempAllocationPool.toNat
      (tempAllocationPool.toNat + tempAllocationPoolSize.toNat) :=
  valid.within (List.mem_map.mpr ⟨grant, member, rfl⟩)

theorem Valid.disjoint (valid : scratch.Valid) :
    scratch.granted.Pairwise fun first second =>
      Disjoint first.block.addresses second.block.addresses :=
  (List.pairwise_map.mp valid.stacked.apart).imp Block.Apart.disjoint

end Scratch

end RunnerCm33
