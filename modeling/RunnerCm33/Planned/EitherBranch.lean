import RunnerCm33.Allocator.TypedAllocations
import RunnerCm33.Planned.HierarchicalAllocator
import RunnerCm33.Planned.PathsAgree
import RunnerCm33.Planned.Separation

/-! What the planned-buffer setup leaves behind, whichever branch it took: the buffers
are apart from one another, and the method allocator goes on behind those that it placed. -/

namespace RunnerCm33

open RunnerCm33.Align RunnerCm33.Blocks RunnerCm33.Placement

def MethodPool.stop (pool : MethodPool) : ℕ :=
  pool.methodAllocationPool.toNat + pool.methodAllocationPoolSize.toNat

/-- The planned buffers that lie in the method pool. -/
def PlannedMemory.inPool (memory : PlannedMemory) : List (Block ℕ) :=
  if memory.useDdrPlanned then [] else memory.plannedSpans.map Span.block

/-- The method allocator as the setup leaves it, with nothing asked of it since. -/
def PlannedMemory.methodTenancy (memory : PlannedMemory) : Tenancy := ⟨memory.methodAllocator, []⟩

/-- `HierarchicalAllocator planned_memory({planned_spans.data(), planned_spans.size()})`. -/
def PlannedMemory.plannedMemory (memory : PlannedMemory) : HierarchicalAllocator := ⟨memory.plannedSpans⟩

structure PlannedMemory.SetUp (pool : MethodPool) (memory : PlannedMemory) : Prop where
  tenancy : memory.methodTenancy.Valid pool.methodAllocationPool.toNat pool.stop memory.inPool
  addressable : memory.plannedMemory.Addressable
  apart : memory.plannedSpans.Pairwise fun first second => first.block.Apart second.block
  place : ∀ span ∈ memory.plannedSpans, plannedBufferDdrPool.toNat ≤ span.block.start ∨
    span.block ∈ memory.inPool

variable {pool : MethodPool} {sizes : List Int64} {memory : PlannedMemory} {placing placed : Placing}

private theorem MethodPool.methodAllocator_end (pool : MethodPool) :
    pool.methodAllocator.end_.toNat = pool.stop := by
  rw [methodAllocator, ArmMemoryAllocator.new_end, UInt32.toNat_add, Nat.mod_eq_of_lt pool.addressable, stop]

private theorem MethodPool.base_pos (pool : MethodPool) : 0 < pool.methodAllocationPool.toNat := by
  rw [Nat.pos_iff_ne_zero]
  intro zero
  exact pool.nonnull (UInt32.toNat_inj.mp zero)

theorem placeBuffers_ddr_methodAllocator (success : placeBuffers true placing sizes = .ok placed) :
    placed.methodAllocator = placing.methodAllocator := by
  refine placeBuffers_keeps (K := fun other => other.methodAllocator = placing.methodAllocator)
    ?_ rfl success
  intro before bufferSize next same placed
  cases placed
  exact same

/-- In the DTCM branch every buffer is one grant of the method allocator. -/
theorem placeBuffers_dtcm_stacks {low high : ℕ}
    (stack : placing.methodAllocator.Stacks low high (placing.plannedSpans.map Span.block))
    (success : placeBuffers false placing sizes = .ok placed) :
    placed.methodAllocator.Stacks low high (placed.plannedSpans.map Span.block) := by
  refine placeBuffers_keeps (K := fun other =>
    other.methodAllocator.Stacks low high (other.plannedSpans.map Span.block)) ?_ stack success
  intro before bufferSize next stack placed
  obtain ⟨fits, rfl⟩ := fits_of_placeBuffer placed
  simp only [List.map_append, List.map_cons, List.map_nil]
  exact stack.push fits rfl rfl

theorem setUp_of_success (nonneg : ∀ size ∈ sizes, 0 ≤ size)
    (small : exactTotal sizes ≤ plannedBufferDdrPoolSize.toNat)
    (success : runnerInitPlannedBuffers pool sizes = .ok memory) : memory.SetUp pool := by
  have fresh : pool.methodAllocator.Stacks pool.methodAllocationPool.toNat pool.stop [] :=
    ⟨pool.base_pos, pool.methodAllocator_end, le_refl _, Nat.le_add_right ..⟩
  cases branch : memory.useDdrPlanned with
  | true =>
    have layout := ddrLayout_of_success nonneg small success branch
    have stacked : Stacked plannedBufferDdrPool.toNat (memory.plannedSpans.map Span.block)
        (finish 16 plannedBufferDdrPool.toNat (sizes.map bytes)) :=
      layout.blocks ▸ place_stacked (by decide)
    have limit := finish_lt small
    obtain ⟨placing, placed, rfl⟩ := runnerInitPlannedBuffers_placed success
    simp only at branch
    rw [branch] at placed
    refine ⟨?_, ?_, ?_, ?_⟩
    · refine ⟨?_, by simp [PlannedMemory.methodTenancy]⟩
      simpa [PlannedMemory.methodTenancy, PlannedMemory.inPool, branch,
        placeBuffers_ddr_methodAllocator placed] using fresh
    · intro span member
      have within := stacked.within (List.mem_map.mpr ⟨span, member, rfl⟩)
      exact Nat.lt_of_le_of_lt within.2 limit
    · exact List.pairwise_map.mp stacked.apart
    · intro span member
      exact .inl (stacked.within (List.mem_map.mpr ⟨span, member, rfl⟩)).1
  | false =>
    obtain ⟨placing, placed, rfl⟩ := runnerInitPlannedBuffers_placed success
    simp only at branch
    rw [branch] at placed
    have stack := placeBuffers_dtcm_stacks fresh placed
    refine ⟨?_, ?_, ?_, ?_⟩
    · refine ⟨?_, by simp [PlannedMemory.methodTenancy]⟩
      simpa [PlannedMemory.methodTenancy, PlannedMemory.inPool, branch] using stack
    · intro span member
      have within := stack.within (List.mem_map.mpr ⟨span, member, rfl⟩)
      exact Nat.lt_of_le_of_lt within.2 pool.addressable
    · exact List.pairwise_map.mp stack.stacked.apart
    · intro span member
      refine .inr ?_
      simp only [PlannedMemory.inPool, branch, Bool.false_eq_true, if_false]
      exact List.mem_map.mpr ⟨span, member, rfl⟩

end RunnerCm33
