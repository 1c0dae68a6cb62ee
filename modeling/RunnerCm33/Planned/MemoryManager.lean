import RunnerCm33.Planned.EitherBranch

/-! The memory behind the `MemoryManager` of a method: the method allocator for its
structures, the planned memory for its tensors, the temporary allocator for scratch. The
library uses them in any order; what they hand out never overlaps. -/

namespace RunnerCm33

open RunnerCm33.Blocks RunnerCm33.Runs RunnerCm33.Windows

/-- An answer of `get_offset_address`, with the request. -/
structure PlannedTensor where
  memoryId : UInt32
  sizeBytes : UInt32
  address : UInt32
deriving DecidableEq, Repr

def PlannedTensor.block (tensor : PlannedTensor) : Block ℕ := window tensor.address.toNat 0 tensor.sizeBytes.toNat

/-- The three memories, each with what it has handed out; for scratch, since its last
reset. -/
structure MemoryManager where
  methodAllocator : Tenancy
  plannedMemory : HierarchicalAllocator
  tensors : List PlannedTensor
  tempAllocator : Scratch

/-- What the library and the kernels do with them. -/
inductive MemoryUse where
  | method (allocation : Allocation)
  | planned (memoryId offsetBytes sizeBytes : UInt32)
  | temp (event : Scratch.Event)
deriving DecidableEq, Repr

namespace MemoryManager

/-- As `runner_init` constructs it. -/
def new (memory : PlannedMemory) : MemoryManager where
  methodAllocator := memory.methodTenancy
  plannedMemory := memory.plannedMemory
  tensors := []
  tempAllocator := .fresh

def step (manager : MemoryManager) : MemoryUse → MemoryManager
  | .method allocation => { manager with methodAllocator := manager.methodAllocator.step allocation }
  | .planned memoryId offsetBytes sizeBytes =>
    match manager.plannedMemory.getOffsetAddress memoryId offsetBytes sizeBytes with
    | .ok address => { manager with tensors := manager.tensors ++ [⟨memoryId, sizeBytes, address⟩] }
    | .error _ => manager
  | .temp event => { manager with tempAllocator := manager.tempAllocator.step event }

end MemoryManager

/-- Alignments of at most 1 GiB, and sums of offset and size that are `size_t`. -/
def MemoryUse.Moderate : MemoryUse → Prop
  | .method allocation => allocation.alignment.toNat ≤ 2 ^ 30
  | .planned _ offsetBytes sizeBytes => offsetBytes.toNat + sizeBytes.toNat < 2 ^ 32
  | .temp event => event.Moderate

instance (use : MemoryUse) : Decidable use.Moderate :=
  match use with
  | .method _ => inferInstanceAs (Decidable (_ ≤ _))
  | .planned .. => inferInstanceAs (Decidable (_ < _))
  | .temp event => inferInstanceAs (Decidable event.Moderate)

/-- Everything handed out lies where it belongs, and no two of them share a byte, except
tensors planned into the same buffer. -/
structure MemoryManager.Separate (pool : MethodPool) (memory : PlannedMemory) (manager : MemoryManager) :
    Prop where
  methods : ∀ held ∈ manager.methodAllocator.held, held.allocation.alignment.toNat ∣ held.start.toNat ∧
    held.block.Within pool.methodAllocationPool.toNat pool.stop
  methodsApart : manager.methodAllocator.held.Pairwise fun first second =>
    Disjoint first.block.addresses second.block.addresses
  tensors : ∀ tensor ∈ manager.tensors, ∃ span ∈ memory.plannedSpans[tensor.memoryId.toNat]?,
    tensor.block.Within span.block.start span.block.stop
  tensorsApart : ∀ first ∈ manager.tensors, ∀ second ∈ manager.tensors,
    first.memoryId ≠ second.memoryId → Disjoint first.block.addresses second.block.addresses
  scratch : ∀ grant ∈ manager.tempAllocator.granted, grant.alignment.toNat ∣ grant.start.toNat ∧
    grant.block.Within 0xA8000000 0xA8200000
  scratchApart : manager.tempAllocator.granted.Pairwise fun first second =>
    Disjoint first.block.addresses second.block.addresses
  methodsTensors : ∀ held ∈ manager.methodAllocator.held, ∀ tensor ∈ manager.tensors,
    Disjoint held.block.addresses tensor.block.addresses
  methodsScratch : ∀ held ∈ manager.methodAllocator.held, ∀ grant ∈ manager.tempAllocator.granted,
    Disjoint held.block.addresses grant.block.addresses
  tensorsScratch : ∀ tensor ∈ manager.tensors, ∀ grant ∈ manager.tempAllocator.granted,
    Disjoint tensor.block.addresses grant.block.addresses

structure MemoryManager.Valid (pool : MethodPool) (memory : PlannedMemory) (manager : MemoryManager) :
    Prop where
  methods : manager.methodAllocator.Valid pool.methodAllocationPool.toNat pool.stop memory.inPool
  planned : manager.plannedMemory = memory.plannedMemory
  tensors : ∀ tensor ∈ manager.tensors, ∃ span ∈ memory.plannedSpans[tensor.memoryId.toNat]?,
    tensor.block.Within span.block.start span.block.stop
  scratch : manager.tempAllocator.Valid

namespace MemoryManager

variable {pool : MethodPool} {memory : PlannedMemory} {manager : MemoryManager} {use : MemoryUse}
  {uses : List MemoryUse}

private theorem new_valid (setUp : memory.SetUp pool) : (new memory).Valid pool memory where
  methods := setUp.tenancy
  planned := rfl
  tensors := by simp [new]
  scratch := Scratch.fresh_valid

private theorem within_of_answer (setUp : memory.SetUp pool) {memoryId offsetBytes sizeBytes address : UInt32}
    (exact' : offsetBytes.toNat + sizeBytes.toNat < 2 ^ 32)
    (answered : memory.plannedMemory.getOffsetAddress memoryId offsetBytes sizeBytes = .ok address) :
    ∃ span ∈ memory.plannedSpans[memoryId.toNat]?,
      (window address.toNat 0 sizeBytes.toNat).Within span.block.start span.block.stop := by
  obtain ⟨span, found, admitted, rfl⟩ := HierarchicalAllocator.getOffsetAddress_ok_iff.mp answered
  rw [Admitted, Nat.mod_eq_of_lt exact'] at admitted
  refine ⟨span, found, ?_⟩
  rw [(HierarchicalAllocator.address_of_has setUp.addressable found admitted).2]
  exact window_within_iff.mpr admitted

theorem step_valid (setUp : memory.SetUp pool) (below : pool.stop ≤ tempAllocationPool.toNat)
    (valid : manager.Valid pool memory) (moderate : use.Moderate) : (manager.step use).Valid pool memory := by
  cases use with
  | method allocation =>
    have scratch : tempAllocationPool.toNat = 0xA8000000 := rfl
    exact { valid with methods := Tenancy.step_valid valid.methods (by omega) moderate }
  | temp event => exact { valid with scratch := Scratch.step_valid valid.scratch moderate }
  | planned memoryId offsetBytes sizeBytes =>
    simp only [step, valid.planned]
    cases answered : memory.plannedMemory.getOffsetAddress memoryId offsetBytes sizeBytes with
    | error failed => exact valid
    | ok address =>
      refine ⟨valid.methods, rfl, ?_, valid.scratch⟩
      intro tensor member
      rcases List.mem_append.mp member with old | new
      · exact valid.tensors tensor old
      · rw [List.mem_singleton.mp new]
        exact within_of_answer setUp moderate answered

private theorem spans_apart (setUp : memory.SetUp pool) {first second : ℕ} {span other : Span}
    (found : span ∈ memory.plannedSpans[first]?) (foundOther : other ∈ memory.plannedSpans[second]?)
    (different : first ≠ second) : span.block.Apart other.block := by
  obtain ⟨bound, rfl⟩ := List.getElem?_eq_some_iff.mp found
  obtain ⟨otherBound, rfl⟩ := List.getElem?_eq_some_iff.mp foundOther
  have pairs := List.pairwise_iff_getElem.mp setUp.apart
  rcases Nat.lt_or_gt_of_ne different with before | after
  · exact pairs first second bound otherBound before
  · exact (pairs second first otherBound bound after).symm

theorem Valid.separate (valid : manager.Valid pool memory) (setUp : memory.SetUp pool)
    (below : pool.stop ≤ tempAllocationPool.toNat) : manager.Separate pool memory := by
  have scratchBase : tempAllocationPool.toNat = 0xA8000000 := rfl
  have ddrBase : plannedBufferDdrPool.toNat = 0xA8200000 := rfl
  have within (grant : Grant) (member : grant ∈ manager.tempAllocator.granted) :
      grant.block.Within 0xA8000000 0xA8200000 := valid.scratch.granted_within member
  have inMethodPool (span : Span) (inPool : span.block ∈ memory.inPool) :
      span.block.Within pool.methodAllocationPool.toNat pool.stop :=
    valid.methods.within (List.mem_append_left _ inPool)
  refine {
    methods := fun held member => ⟨valid.methods.aligned held member, valid.methods.held_within member⟩
    methodsApart := valid.methods.apart.imp Block.Apart.disjoint
    tensors := valid.tensors
    tensorsApart := ?_
    scratch := fun grant member => ⟨valid.scratch.aligned grant member, within grant member⟩
    scratchApart := valid.scratch.disjoint
    methodsTensors := ?_
    methodsScratch := ?_
    tensorsScratch := ?_ }
  · intro first firstMember second secondMember different
    obtain ⟨span, found, inside⟩ := valid.tensors first firstMember
    obtain ⟨other, foundOther, otherInside⟩ := valid.tensors second secondMember
    have apart := spans_apart setUp found foundOther (mt UInt32.toNat_inj.mp different)
    exact (apart.within inside otherInside).disjoint
  · intro held heldMember tensor tensorMember
    obtain ⟨span, found, inside⟩ := valid.tensors tensor tensorMember
    have heldWithin := valid.methods.held_within heldMember
    have apart : held.block.Apart span.block := by
      rcases setUp.place span (List.mem_of_getElem? found) with inDdr | inPool
      · exact .inl (by have := heldWithin.2; omega)
      · exact valid.methods.apart_before inPool heldMember
    exact (apart.within ⟨le_refl _, le_refl _⟩ inside).disjoint
  · intro held heldMember grant grantMember
    have heldWithin := valid.methods.held_within heldMember
    have grantWithin := within grant grantMember
    exact Block.Apart.disjoint (.inl (by have := heldWithin.2; have := grantWithin.1; omega))
  · intro tensor tensorMember grant grantMember
    obtain ⟨span, found, inside⟩ := valid.tensors tensor tensorMember
    have grantWithin := within grant grantMember
    have apart : span.block.Apart grant.block := by
      rcases setUp.place span (List.mem_of_getElem? found) with inDdr | inPool
      · exact .inr (by have := grantWithin.2; omega)
      · exact .inl (by have := (inMethodPool span inPool).2; have := grantWithin.1; omega)
    exact (apart.within inside ⟨le_refl _, le_refl _⟩).disjoint

theorem run_valid (setUp : memory.SetUp pool) (below : pool.stop ≤ tempAllocationPool.toNat)
    (moderate : ∀ use ∈ uses, use.Moderate) : (run step (new memory) uses).Valid pool memory :=
  ((EachStep.of_forall moderate).always (new_valid setUp) fun _ _ => step_valid setUp below).last

end MemoryManager

end RunnerCm33
