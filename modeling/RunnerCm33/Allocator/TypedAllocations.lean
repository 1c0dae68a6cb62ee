import RunnerCm33.Allocator.StackedBlocks

/-! Instances and lists from an allocator, as the library allocates them while it loads a
method. A list is refused where the product of its length and its elements' size is no
`size_t`, so that what is granted has room for all of its elements. -/

namespace RunnerCm33

open RunnerCm33.Blocks

/-- `c10::mul_overflows`: whether the product is cut, and what is left of it. -/
def mulOverflows (a b : UInt32) : Bool × UInt32 := (2 ^ 32 ≤ a.toNat * b.toNat, a * b)

namespace ArmMemoryAllocator

def allocateInstance (allocator : ArmMemoryAllocator) (sizeOf alignment : UInt32) :
    UInt32 × ArmMemoryAllocator :=
  allocator.allocate sizeOf alignment

def allocateList (allocator : ArmMemoryAllocator) (size sizeOf alignment : UInt32) :
    UInt32 × ArmMemoryAllocator :=
  let (overflow, bytesSize) := mulOverflows size sizeOf
  if overflow then (nullptr, allocator) else allocator.allocate bytesSize alignment

end ArmMemoryAllocator

inductive Allocation where
  | allocate (size alignment : UInt32)
  | allocateInstance (sizeOf alignment : UInt32)
  | allocateList (size sizeOf alignment : UInt32)
deriving DecidableEq, Repr

namespace Allocation

def alignment : Allocation → UInt32
  | .allocate _ alignment | .allocateInstance _ alignment | .allocateList _ _ alignment => alignment

def bytes : Allocation → ℕ
  | .allocate size _ => size.toNat
  | .allocateInstance sizeOf _ => sizeOf.toNat
  | .allocateList size sizeOf _ => size.toNat * sizeOf.toNat

def serve (allocator : ArmMemoryAllocator) : Allocation → UInt32 × ArmMemoryAllocator
  | .allocate size alignment => allocator.allocate size alignment
  | .allocateInstance sizeOf alignment => allocator.allocateInstance sizeOf alignment
  | .allocateList size sizeOf alignment => allocator.allocateList size sizeOf alignment

/-- The request of the allocator that is made, if any. -/
def request : Allocation → Option (UInt32 × UInt32)
  | .allocate size alignment => some (size, alignment)
  | .allocateInstance sizeOf alignment => some (sizeOf, alignment)
  | .allocateList size sizeOf alignment =>
      if 2 ^ 32 ≤ size.toNat * sizeOf.toNat then none else some (size * sizeOf, alignment)

variable {allocator : ArmMemoryAllocator} {allocation : Allocation} {size alignment : UInt32}

private theorem serve_of_none (absent : allocation.request = none) :
    allocation.serve allocator = (nullptr, allocator) := by
  cases allocation with
  | allocate | allocateInstance => simp [request] at absent
  | allocateList size sizeOf alignment =>
    have cut : 2 ^ 32 ≤ size.toNat * sizeOf.toNat := by
      by_contra whole
      rw [request, if_neg whole] at absent
      cases absent
    simp only [serve, ArmMemoryAllocator.allocateList, mulOverflows, decide_eq_true cut, if_true]

private theorem serve_of_request (allocator : ArmMemoryAllocator)
    (made : allocation.request = some (size, alignment)) :
    allocation.serve allocator = allocator.allocate size alignment ∧
      size.toNat = allocation.bytes ∧ alignment = allocation.alignment := by
  cases allocation with
  | allocate | allocateInstance =>
    obtain ⟨rfl, rfl⟩ := Prod.mk.inj (Option.some.inj made)
    exact ⟨rfl, rfl, rfl⟩
  | allocateList count sizeOf wanted =>
    by_cases cut : 2 ^ 32 ≤ count.toNat * sizeOf.toNat
    · rw [request, if_pos cut] at made
      cases made
    · rw [request, if_neg cut] at made
      obtain ⟨rfl, rfl⟩ := Prod.mk.inj (Option.some.inj made)
      refine ⟨?_, ?_, rfl⟩
      · simp only [serve, ArmMemoryAllocator.allocateList, mulOverflows, decide_eq_false cut,
          Bool.false_eq_true, if_false]
      · rw [UInt32.toNat_mul, Nat.mod_eq_of_lt (Nat.lt_of_not_le cut)]
        rfl

end Allocation

/-- What has been granted to whoever asked for it. -/
structure Held where
  start : UInt32
  allocation : Allocation
deriving DecidableEq, Repr

def Held.block (held : Held) : Block ℕ :=
  ⟨held.start.toNat, held.start.toNat + held.allocation.bytes, Nat.le_add_right ..⟩

structure Tenancy where
  allocator : ArmMemoryAllocator
  held : List Held
deriving DecidableEq, Repr

namespace Tenancy

def step (tenancy : Tenancy) (allocation : Allocation) : Tenancy :=
  let (ret, allocator) := allocation.serve tenancy.allocator
  if ret = nullptr then { tenancy with allocator }
  else { allocator, held := tenancy.held ++ [⟨ret, allocation⟩] }

/-- What is granted is stacked in the pool, behind the blocks that were there before. -/
structure Valid (low high : ℕ) (before : List (Block ℕ)) (tenancy : Tenancy) : Prop extends
    ArmMemoryAllocator.Stacks low high (before ++ tenancy.held.map Held.block) tenancy.allocator where
  aligned : ∀ held ∈ tenancy.held, held.allocation.alignment.toNat ∣ held.start.toNat

variable {low high : ℕ} {before : List (Block ℕ)} {tenancy : Tenancy} {allocation : Allocation}

/-- A granted request goes on top of the stack, any other leaves it as it is. -/
theorem step_valid (valid : tenancy.Valid low high before) (below : high ≤ 3 * 2 ^ 30)
    (moderate : allocation.alignment.toNat ≤ 2 ^ 30) : (tenancy.step allocation).Valid low high before := by
  cases made : allocation.request with
  | none => simpa only [step, Allocation.serve_of_none made, if_true] using valid
  | some request =>
    obtain ⟨size, alignment⟩ := request
    obtain ⟨serve, bytes, same⟩ := Allocation.serve_of_request tenancy.allocator made
    by_cases fits : tenancy.allocator.Fits size alignment
    · simp only [step, serve, valid.granted_ne_null fits, if_false]
      refine ⟨?_, ?_⟩
      · rw [List.map_append, ← List.append_assoc]
        exact valid.push fits rfl (by rw [bytes]; rfl)
      · intro held member
        rcases List.mem_append.mp member with old | new
        · exact valid.aligned held old
        · rw [List.mem_singleton.mp new, ← same]
          exact ArmMemoryAllocator.Stacks.granted_aligned fits
    · have refused := valid.refused below (same ▸ moderate) fits
      simpa only [step, serve, refused, if_true] using valid

theorem Valid.held_within (valid : tenancy.Valid low high before) {held : Held} (member : held ∈ tenancy.held) :
    held.block.Within low high :=
  valid.within (List.mem_append_right _ (List.mem_map.mpr ⟨held, member, rfl⟩))

theorem Valid.apart (valid : tenancy.Valid low high before) :
    tenancy.held.Pairwise fun first second => first.block.Apart second.block := by
  have stacked := valid.stacked.apart
  rw [List.pairwise_append] at stacked
  exact List.pairwise_map.mp stacked.2.1

theorem Valid.apart_before (valid : tenancy.Valid low high before) {block : Block ℕ} (there : block ∈ before)
    {held : Held} (member : held ∈ tenancy.held) : held.block.Apart block := by
  have stacked := valid.stacked.apart
  rw [List.pairwise_append] at stacked
  exact (stacked.2.2 block there held.block (List.mem_map.mpr ⟨held, member, rfl⟩)).symm

end Tenancy

end RunnerCm33
