import RunnerCm33.Lib.Align

/-! The runtime's bump allocator over 32-bit addresses. `size_t`, `intptr_t` and
pointers are all `UInt32` on the Cortex-M33, so every addition wraps as the
compiled code does; 0 is the null pointer. The profiler id, which only tooling
reads, is left out. -/

namespace RunnerCm33

open RunnerCm33.Align

abbrev nullptr : UInt32 := 0

structure MemoryAllocator where
  begin_ : UInt32
  end_ : UInt32
  cur_ : UInt32
  size_ : UInt32
deriving DecidableEq, Repr

namespace MemoryAllocator

/-- `alignof(void*)` on the target. -/
def kDefaultAlignment : UInt32 := 4

def new (size baseAddress : UInt32) : MemoryAllocator where
  begin_ := baseAddress
  end_ := baseAddress + size
  cur_ := baseAddress
  size_ := size

def isPowerOf2 (value : UInt32) : Bool :=
  value > 0 && value &&& ~~~(value - 1) == value

/-- The next multiple of `alignment`, tested and computed on the address bits. -/
def alignPointer (ptr alignment : UInt32) : UInt32 :=
  if ptr &&& (alignment - 1) == 0 then ptr
  else (ptr ||| (alignment - 1)) + 1

/-- Returns the start of the block, or null, and the allocator afterwards. -/
def allocate (allocator : MemoryAllocator) (size alignment : UInt32) : UInt32 × MemoryAllocator :=
  if !isPowerOf2 alignment then (nullptr, allocator)
  else
    let start := alignPointer allocator.cur_ alignment
    let stop := start + size
    if stop > allocator.end_ || stop < start then (nullptr, allocator)
    else (start, { allocator with cur_ := stop })

def reset (allocator : MemoryAllocator) : MemoryAllocator :=
  { allocator with cur_ := allocator.begin_ }

theorem isPowerOf2_iff (value : UInt32) : isPowerOf2 value = true ↔ value.toNat.isPowerOfTwo := by
  rw [← Nat.ne_zero_and_sub_one_eq_zero_iff_isPowerOfTwo, isPowerOf2, Bool.and_eq_true,
    decide_eq_true_iff]
  have positive : value > 0 ↔ value.toNat ≠ 0 := by
    rw [gt_iff_lt, UInt32.lt_iff_toNat_lt]
    exact Nat.pos_iff_ne_zero
  rw [positive]
  apply and_congr_right
  intro nonzero
  rw [beq_iff_eq, word_and_not_eq_self, ← UInt32.toNat_inj, UInt32.toNat_and,
    toNat_mask (Nat.pos_of_ne_zero nonzero)]
  rfl

variable {allocator : MemoryAllocator} {size alignment ptr : UInt32}

theorem alignPointer_toNat (power : alignment.toNat.isPowerOfTwo) :
    (alignPointer ptr alignment).toNat = roundUp ptr.toNat alignment.toNat % 2 ^ 32 := by
  rw [alignPointer]
  split
  · rename_i aligned
    have multiple := (word_and_mask power).mp (beq_iff_eq.mp aligned)
    rw [roundUp_eq (Nat.pos_of_isPowerOfTwo power) multiple, Nat.mod_eq_of_lt ptr.toNat_lt]
  · rename_i unaligned
    exact toNat_or_mask_succ power fun multiple =>
      unaligned (beq_iff_eq.mpr ((word_and_mask power).mpr multiple))

theorem allocate_snd :
    (allocator.allocate size alignment).2 =
      { allocator with cur_ := (allocator.allocate size alignment).2.cur_ } := by
  unfold allocate
  split
  · rfl
  · dsimp only
    split <;> rfl

/-- Rounding the cursor up for this alignment stays inside the address space. -/
def RoundsUp (allocator : MemoryAllocator) (alignment : UInt32) : Prop :=
  alignment.toNat.isPowerOfTwo → roundUp allocator.cur_.toNat alignment.toNat < 2 ^ 32

/-- The alignment is valid and the block, rounded up in exact arithmetic, ends
by the end of the pool. -/
def Fits (allocator : MemoryAllocator) (size alignment : UInt32) : Prop :=
  alignment.toNat.isPowerOfTwo ∧
    roundUp allocator.cur_.toNat alignment.toNat + size.toNat ≤ allocator.end_.toNat

instance : Decidable (allocator.Fits size alignment) := inferInstanceAs (Decidable (_ ∧ _))

theorem Fits.start_toNat (fits : allocator.Fits size alignment) :
    (alignPointer allocator.cur_ alignment).toNat =
      roundUp allocator.cur_.toNat alignment.toNat := by
  have bound := allocator.end_.toNat_lt
  rw [alignPointer_toNat fits.1, Nat.mod_eq_of_lt]
  exact Nat.lt_of_le_of_lt ((Nat.le_add_right ..).trans fits.2) bound

theorem Fits.stop_toNat (fits : allocator.Fits size alignment) :
    (alignPointer allocator.cur_ alignment + size).toNat =
      roundUp allocator.cur_.toNat alignment.toNat + size.toNat := by
  rw [UInt32.toNat_add, fits.start_toNat, Nat.mod_eq_of_lt]
  exact Nat.lt_of_le_of_lt fits.2 allocator.end_.toNat_lt

theorem allocate_of_fits (fits : allocator.Fits size alignment) :
    allocator.allocate size alignment =
      (alignPointer allocator.cur_ alignment,
        { allocator with cur_ := alignPointer allocator.cur_ alignment + size }) := by
  have inside : ¬ (alignPointer allocator.cur_ alignment + size > allocator.end_) := by
    rw [gt_iff_lt, UInt32.lt_iff_toNat_lt, fits.stop_toNat]
    exact Nat.not_lt.mpr fits.2
  have forward : ¬ (alignPointer allocator.cur_ alignment + size <
      alignPointer allocator.cur_ alignment) := by
    rw [UInt32.lt_iff_toNat_lt, fits.stop_toNat, fits.start_toNat]
    omega
  simp only [allocate, (isPowerOf2_iff alignment).mpr fits.1, Bool.not_true, Bool.false_eq_true,
    ↓reduceIte, decide_eq_false inside, decide_eq_false forward, Bool.or_self]

/-- Without a wrapping round-up, a request that does not fit changes nothing. -/
theorem allocate_of_not_fits (rounds : allocator.RoundsUp alignment)
    (refused : ¬ allocator.Fits size alignment) :
    allocator.allocate size alignment = (nullptr, allocator) := by
  by_cases power : alignment.toNat.isPowerOfTwo
  · have start : (alignPointer allocator.cur_ alignment).toNat =
        roundUp allocator.cur_.toNat alignment.toNat := by
      rw [alignPointer_toNat power, Nat.mod_eq_of_lt (rounds power)]
    have beyond : allocator.end_.toNat <
        roundUp allocator.cur_.toNat alignment.toNat + size.toNat :=
      Nat.lt_of_not_le fun inside => refused ⟨power, inside⟩
    have outside : alignPointer allocator.cur_ alignment + size > allocator.end_ ∨
        alignPointer allocator.cur_ alignment + size < alignPointer allocator.cur_ alignment := by
      simp only [gt_iff_lt, UInt32.lt_iff_toNat_lt, UInt32.toNat_add, start]
      have := rounds power
      have := size.toNat_lt
      omega
    simp only [allocate, (isPowerOf2_iff alignment).mpr power, Bool.not_true, Bool.false_eq_true,
      ↓reduceIte]
    rw [if_pos (by simpa using outside)]
  · have invalid : isPowerOf2 alignment = false :=
      Bool.eq_false_iff.mpr fun valid => power ((isPowerOf2_iff alignment).mp valid)
    simp [allocate, invalid]

/-- A round-up that wraps starts the block at address zero, which callers read
as failure whatever the allocator did. -/
theorem allocate_of_wraps (power : alignment.toNat.isPowerOfTwo)
    (wraps : roundUp allocator.cur_.toNat alignment.toNat = 2 ^ 32) :
    (allocator.allocate size alignment).1 = nullptr := by
  have start : alignPointer allocator.cur_ alignment = 0 := by
    rw [← UInt32.toNat_inj, alignPointer_toNat power, wraps]
    rfl
  simp only [allocate, start]
  split
  · rfl
  · split <;> rfl

theorem fits_of_allocate (granted : (allocator.allocate size alignment).1 ≠ nullptr) :
    allocator.Fits size alignment := by
  by_contra refused
  by_cases rounds : allocator.RoundsUp alignment
  · exact granted (by rw [allocate_of_not_fits rounds refused])
  · obtain ⟨power, wraps⟩ := Classical.not_imp.mp rounds
    have le : roundUp allocator.cur_.toNat alignment.toNat ≤ 2 ^ 32 := roundUp_word_le power
    exact granted (allocate_of_wraps power (by omega))

end MemoryAllocator

end RunnerCm33
