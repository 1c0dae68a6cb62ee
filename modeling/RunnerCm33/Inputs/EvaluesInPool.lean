import RunnerCm33.Inputs.EvalueArray
import RunnerCm33.Planned.MemoryManager

/-! What the `EValue`s that `get_inputs` stores past their block run into: never anything
handed out before, and nothing at all as long as the method pool has room for them. -/

namespace RunnerCm33

open RunnerCm33.Align RunnerCm33.Blocks RunnerCm33.Runs

/-- The stored elements lie in the method pool and on nothing handed out so far. -/
structure EvaluesHarmless (pool : MethodPool) (memory : PlannedMemory) (method : Method)
    (manager : MemoryManager) : Prop where
  inPool : (inputEvalues method manager.methodAllocator.allocator).Within
    pool.methodAllocationPool.toNat pool.stop
  held : ∀ held ∈ manager.methodAllocator.held,
    Disjoint (inputEvalues method manager.methodAllocator.allocator).addresses held.block.addresses
  planned : ∀ span ∈ memory.plannedSpans,
    Disjoint (inputEvalues method manager.methodAllocator.allocator).addresses span.block.addresses
  scratch : ∀ grant ∈ manager.tempAllocator.granted,
    Disjoint (inputEvalues method manager.methodAllocator.allocator).addresses grant.block.addresses

variable {pool : MethodPool} {memory : PlannedMemory} {method : Method} {manager : MemoryManager}
  {tenancy : Tenancy} {low high : ℕ} {before : List (Block ℕ)}

private theorem cursor_le_inputEvalues {allocator : ArmMemoryAllocator}
    (allocated : (allocateInputEvalues method allocator).1 ≠ nullptr) :
    allocator.cur_.toNat ≤ (inputEvalues method allocator).start := by
  have start : (inputEvalues method allocator).start = roundUp allocator.cur_.toNat 4 :=
    (allocateInputEvalues_exact allocated).1
  rw [start]
  exact le_roundUp (by decide)

private theorem apart_of_stacked (valid : tenancy.Valid low high before)
    (allocated : (allocateInputEvalues method tenancy.allocator).1 ≠ nullptr) {block : Block ℕ}
    (there : block ∈ before ++ tenancy.held.map Held.block) :
    (inputEvalues method tenancy.allocator).Apart block :=
  .inr ((valid.stacked.within there).2.trans (cursor_le_inputEvalues allocated))

private theorem evaluesHarmless_iff (setUp : memory.SetUp pool) (below : pool.stop ≤ tempAllocationPool.toNat)
    (valid : manager.Valid pool memory)
    (allocated : (allocateInputEvalues method manager.methodAllocator.allocator).1 ≠ nullptr) :
    EvaluesHarmless pool memory method manager ↔
      roundUp manager.methodAllocator.allocator.cur_.toNat 4 + method.inputs.length * 24 ≤ pool.stop := by
  have scratchBase : tempAllocationPool.toNat = 0xA8000000 := rfl
  have ddrBase : plannedBufferDdrPool.toNat = 0xA8200000 := rfl
  have room := inputEvalues_inPool_iff allocated
  rw [valid.methods.ends] at room
  rw [← room]
  constructor
  · exact fun harmless => harmless.inPool.2
  · intro inside
    have start := cursor_le_inputEvalues allocated
    refine ⟨⟨valid.methods.stacked.le.trans start, inside⟩, ?_, ?_, ?_⟩
    · intro held member
      have there : held.block ∈ memory.inPool ++ manager.methodAllocator.held.map Held.block :=
        List.mem_append_right _ (List.mem_map.mpr ⟨held, member, rfl⟩)
      exact (apart_of_stacked valid.methods allocated there).disjoint
    · intro span member
      rcases setUp.place span member with inDdr | inPool
      · exact Block.Apart.disjoint (.inl (by omega))
      · exact (apart_of_stacked valid.methods allocated (List.mem_append_left _ inPool)).disjoint
    · intro grant member
      have within := (valid.scratch.granted_within member).1
      exact Block.Apart.disjoint (.inl (by omega))

/-- For every model whose planned buffers fit the DDR pool, and in every state that uses
of its memory lead to: where the request for the input array is granted, the elements that
outgrow it stay in the method pool and on no byte handed out so far exactly when the pool
has 24 bytes for each input behind the cursor. -/
theorem inputEvalues_harmless_iff (pool : MethodPool) (sizes : List Int64) (memory : PlannedMemory)
    (below : pool.stop ≤ tempAllocationPool.toNat) (nonneg : ∀ size ∈ sizes, 0 ≤ size)
    (small : exactTotal sizes ≤ plannedBufferDdrPoolSize.toNat)
    (success : runnerInitPlannedBuffers pool sizes = .ok memory) (uses : List MemoryUse)
    (moderate : ∀ use ∈ uses, use.Moderate) (method : Method)
    (allocated : (allocateInputEvalues method
      (run MemoryManager.step (.new memory) uses).methodAllocator.allocator).1 ≠ nullptr) :
    EvaluesHarmless pool memory method (run MemoryManager.step (.new memory) uses) ↔
      roundUp (run MemoryManager.step (.new memory) uses).methodAllocator.allocator.cur_.toNat 4 +
        method.inputs.length * 24 ≤ pool.stop := by
  have setUp := setUp_of_success nonneg small success
  exact evaluesHarmless_iff setUp below (MemoryManager.run_valid setUp below moderate) allocated

/-- One input, behind a planned buffer in DTCM and one structure of the method. -/
theorem inputEvalues_harmless_one :
    EvaluesHarmless cmakeMethodPool {
        totalPlannedSize := 64
        useDdrPlanned := false
        plannedSpans := [⟨0x20004000, 64⟩]
        plannedBufferMemsize := 64
        methodAllocator := ⟨⟨0x20004000, 0x2000A000, 0x20004040, 0x6000⟩, 64⟩ } oneCharInput
      (run MemoryManager.step (.new {
        totalPlannedSize := 64
        useDdrPlanned := false
        plannedSpans := [⟨0x20004000, 64⟩]
        plannedBufferMemsize := 64
        methodAllocator := ⟨⟨0x20004000, 0x2000A000, 0x20004040, 0x6000⟩, 64⟩ })
        [.method (.allocateList 3 12 4), .planned 0 0 4]) :=
  (inputEvalues_harmless_iff cmakeMethodPool [64] _ (by decide) (by simp) (by decide) (by decide) _
    (by decide) oneCharInput (by decide)).mpr (by decide)

end RunnerCm33
