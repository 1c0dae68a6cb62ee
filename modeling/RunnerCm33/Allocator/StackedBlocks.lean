import RunnerCm33.Allocator.ArmMemoryAllocator
import RunnerCm33.Lib.Blocks

/-! An allocator as a stack of the blocks that it has granted, whoever keeps the list of
them. -/

namespace RunnerCm33.ArmMemoryAllocator

open RunnerCm33.Align RunnerCm33.Blocks

/-- The blocks lie one behind the other from the base of the pool to the cursor, which is
not above the end of the pool. -/
structure Stacks (low high : ℕ) (blocks : List (Block ℕ)) (allocator : ArmMemoryAllocator) : Prop where
  positive : 0 < low
  ends : allocator.end_.toNat = high
  stacked : Stacked low blocks allocator.cur_.toNat
  bounded : allocator.cur_.toNat ≤ high

namespace Stacks

variable {low high : ℕ} {blocks : List (Block ℕ)} {block : Block ℕ} {allocator : ArmMemoryAllocator}
  {size alignment : UInt32}

private theorem roundsUp (stack : allocator.Stacks low high blocks) (below : high ≤ 3 * 2 ^ 30)
    (moderate : alignment.toNat ≤ 2 ^ 30) : allocator.RoundsUp alignment := by
  intro power
  have positive : 0 < alignment.toNat := Nat.pos_of_isPowerOfTwo power
  have multiple : alignment.toNat ∣ 3 * 2 ^ 30 := by
    obtain ⟨k, shape⟩ := power
    rw [shape] at moderate ⊢
    exact (Nat.pow_dvd_pow 2 ((Nat.pow_le_pow_iff_right one_lt_two).mp moderate)).mul_left 3
  have top : roundUp allocator.cur_.toNat alignment.toNat ≤ 3 * 2 ^ 30 :=
    roundUp_le positive (stack.bounded.trans below) multiple
  omega

theorem refused (stack : allocator.Stacks low high blocks) (below : high ≤ 3 * 2 ^ 30)
    (moderate : alignment.toNat ≤ 2 ^ 30) (large : ¬allocator.Fits size alignment) :
    allocator.allocate size alignment = (nullptr, allocator) :=
  allocate_of_not_fits (stack.roundsUp below moderate) large

theorem granted_ne_null (stack : allocator.Stacks low high blocks) (fits : allocator.Fits size alignment) :
    (allocator.allocate size alignment).1 ≠ nullptr := by
  have base := stack.stacked.le
  have positive := stack.positive
  refine (allocate_ne_null_iff ?_).mpr fits
  intro zero
  rw [zero, UInt32.toNat_zero] at base
  omega

theorem granted_aligned (fits : allocator.Fits size alignment) :
    alignment.toNat ∣ (allocator.allocate size alignment).1.toNat := by
  rw [allocate_toNat fits]
  exact dvd_roundUp

theorem push (stack : allocator.Stacks low high blocks) (fits : allocator.Fits size alignment)
    (start : block.start = (allocator.allocate size alignment).1.toNat)
    (stop : block.stop = block.start + size.toNat) :
    (allocator.allocate size alignment).2.Stacks low high (blocks ++ [block]) := by
  have address := allocate_toNat fits
  have cursor := allocate_cur fits
  have inside := fits.2
  have ends := stack.ends
  refine ⟨stack.positive, by simpa using ends, ?_, ?_⟩
  · refine stack.stacked.push ?_ ?_
    · rw [start, address]
      exact le_roundUp_cur fits
    · rw [stop, start, address, cursor]
  · rw [cursor]
    omega

theorem within (stack : allocator.Stacks low high blocks) (member : block ∈ blocks) :
    block.Within low high :=
  (stack.stacked.raise stack.bounded).within member

end Stacks

end RunnerCm33.ArmMemoryAllocator
