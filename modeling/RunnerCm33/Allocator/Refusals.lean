import RunnerCm33.Allocator.ArmMemoryAllocator

/-! What a null result leaves behind. A refused request changes nothing; a request
whose start wraps to address zero is granted by the base class and reads as refused. -/

namespace RunnerCm33

open RunnerCm33.Align RunnerCm33.Runs

namespace MemoryAllocator

variable {allocator : MemoryAllocator} {size alignment : UInt32}

/-- A block at address zero is refused only when it ends behind the pool. -/
theorem allocate_of_start_zero (power : alignment.toNat.isPowerOfTwo)
    (zero : alignPointer allocator.cur_ alignment = 0) :
    allocator.allocate size alignment =
      if size > allocator.end_ then (nullptr, allocator)
      else (nullptr, { allocator with cur_ := size }) := by
  have forward : ¬ size < 0 := by simp
  simp [allocate, (isPowerOf2_iff alignment).mpr power, zero, forward]

theorem allocate_snd_of_null (null : (allocator.allocate size alignment).1 = nullptr)
    (nonzero : alignment.toNat.isPowerOfTwo → alignPointer allocator.cur_ alignment ≠ 0) :
    (allocator.allocate size alignment).2 = allocator := by
  by_cases power : alignment.toNat.isPowerOfTwo
  · have start := nonzero power
    simp only [allocate, (isPowerOf2_iff alignment).mpr power, Bool.not_true, Bool.false_eq_true,
      ↓reduceIte] at null ⊢
    split at null
    · rename_i refused
      rw [if_pos refused]
    · exact absurd null start
  · have invalid : isPowerOf2 alignment = false :=
      Bool.eq_false_iff.mpr fun valid => power ((isPowerOf2_iff alignment).mp valid)
    simp [allocate, invalid]

/-- The rounded-up cursor is address zero: it was zero, or the round-up wraps. -/
theorem alignPointer_eq_zero_iff (power : alignment.toNat.isPowerOfTwo) :
    alignPointer allocator.cur_ alignment = 0 ↔
      roundUp allocator.cur_.toNat alignment.toNat % 2 ^ 32 = 0 := by
  rw [← UInt32.toNat_inj, alignPointer_toNat power, UInt32.toNat_zero]

end MemoryAllocator

namespace ArmMemoryAllocator

/-- A null result leaves cursor and count alone, and no later request can tell that
the call was made. -/
def RefusesCleanly (allocator : ArmMemoryAllocator) (size alignment : UInt32) : Prop :=
  (allocator.allocate size alignment).1 = nullptr →
    (allocator.allocate size alignment).2.cur_ = allocator.cur_ ∧
    (allocator.allocate size alignment).2.usedSize = allocator.usedSize ∧
    ∀ later, (allocator.allocate size alignment).2.observations later = allocator.observations later

/-- The block would start at address zero and end within the pool's end, which moves
the cursor to the size. -/
def LandsAtZero (allocator : ArmMemoryAllocator) (size alignment : UInt32) : Prop :=
  alignment.toNat.isPowerOfTwo ∧
    roundUp allocator.cur_.toNat alignment.toNat % 2 ^ 32 = 0 ∧
    size ≤ allocator.end_ ∧ size ≠ allocator.cur_

instance (allocator : ArmMemoryAllocator) (size alignment : UInt32) :
    Decidable (allocator.LandsAtZero size alignment) :=
  inferInstanceAs (Decidable (_ ∧ _ ∧ _ ∧ _))

variable {allocator : ArmMemoryAllocator} {size alignment : UInt32}

private theorem allocate_used_of_null (null : (allocator.allocate size alignment).1 = nullptr) :
    (allocator.allocate size alignment).2.used_ = allocator.used_ := by
  rw [allocate_used, if_pos null]

theorem allocate_snd_of_null (null : (allocator.allocate size alignment).1 = nullptr)
    (kept : (allocator.allocate size alignment).2.cur_ = allocator.cur_) :
    (allocator.allocate size alignment).2 = allocator := by
  have used := allocate_used_of_null null
  have base : (allocator.allocate size alignment).2.toMemoryAllocator = allocator.toMemoryAllocator := by
    rw [allocate_toMemoryAllocator] at kept ⊢
    rw [MemoryAllocator.allocate_snd, kept]
  cases after : (allocator.allocate size alignment).2
  simp_all

/-- The cursor after a null result: at the size, if the block lands at zero. -/
theorem cursor_kept_iff (null : (allocator.allocate size alignment).1 = nullptr) :
    (allocator.allocate size alignment).2.cur_ = allocator.cur_ ↔
      ¬ allocator.LandsAtZero size alignment := by
  rw [allocate_toMemoryAllocator]
  rw [allocate_fst] at null
  by_cases power : alignment.toNat.isPowerOfTwo
  · by_cases zero : MemoryAllocator.alignPointer allocator.cur_ alignment = 0
    · have wraps := (MemoryAllocator.alignPointer_eq_zero_iff power).mp zero
      rw [MemoryAllocator.allocate_of_start_zero power zero]
      by_cases behind : size > allocator.end_
      · have outside : ¬ size ≤ allocator.end_ := UInt32.not_le.mpr behind
        simp [behind, LandsAtZero, outside]
      · have inside : size ≤ allocator.end_ := UInt32.not_lt.mp behind
        have moved : allocator.LandsAtZero size alignment ↔ size ≠ allocator.cur_ :=
          ⟨fun lands => lands.2.2.2, fun moved => ⟨power, wraps, inside, moved⟩⟩
        rw [if_neg behind, moved, not_ne_iff]
    · have elsewhere : ¬ allocator.LandsAtZero size alignment := fun lands =>
        zero ((MemoryAllocator.alignPointer_eq_zero_iff power).mpr lands.2.1)
      rw [MemoryAllocator.allocate_snd_of_null null fun _ => zero]
      exact iff_of_true rfl elsewhere
  · rw [MemoryAllocator.allocate_snd_of_null null fun valid => absurd valid power]
    exact iff_of_true rfl fun lands => power lands.1

private theorem allocate_of_landsAtZero (lands : allocator.LandsAtZero size alignment) :
    (allocator.allocate size alignment).1 = nullptr := by
  have zero := (MemoryAllocator.alignPointer_eq_zero_iff lands.1).mpr lands.2.1
  rw [allocate_fst, MemoryAllocator.allocate_of_start_zero lands.1 zero]
  split <;> rfl

/-- In every state, a request fails without a trace exactly when its block does not
land at address zero. -/
theorem refusesCleanly_iff (allocator : ArmMemoryAllocator) (size alignment : UInt32) :
    allocator.RefusesCleanly size alignment ↔ ¬ allocator.LandsAtZero size alignment := by
  constructor
  · intro clean lands
    have null := allocate_of_landsAtZero lands
    exact (cursor_kept_iff null).mp (clean null).1 lands
  · intro elsewhere null
    have kept := (cursor_kept_iff null).mpr elsewhere
    refine ⟨kept, allocate_used_of_null null, fun later => ?_⟩
    rw [allocate_snd_of_null null kept]

/-- A 2 GiB alignment rounds the base of the scratch pool up to address zero: the call
returns null and the cursor leaves the pool. -/
theorem refusal_moves_cursor :
    ¬ ∀ (poolSize baseAddress : UInt32) (requests : List Request) (size alignment : UInt32),
      baseAddress.toNat + poolSize.toNat ≤ 2 ^ 32 →
      (run step (new poolSize baseAddress) requests).RefusesCleanly size alignment := by
  intro claim
  have clean := claim 0x200000 0xA8000000 [] 16 0x80000000 (by decide)
  exact absurd (clean (by decide)).1 (by decide)

end ArmMemoryAllocator

end RunnerCm33
