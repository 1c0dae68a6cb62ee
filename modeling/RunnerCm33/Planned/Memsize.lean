import RunnerCm33.Allocator.Accounting
import RunnerCm33.Lib.SizeCounts
import RunnerCm33.Planned.Decision
import RunnerCm33.Planned.PathsAgree

/-! The size that the setup reports for its planned buffers. In the DTCM branch it is
taken from the allocator's count, which rounds by sizes, and not from its cursor. -/

namespace RunnerCm33

open RunnerCm33.Align RunnerCm33.Placement RunnerCm33.SizeCounts

variable {pool : MethodPool} {size alignment : UInt32} {sizes : List Int64}
  {allocator : ArmMemoryAllocator} {placing placed : Placing} {cursor counted : ℕ}

/-- A granted request takes the count one size further, unless it wraps. -/
theorem ArmMemoryAllocator.allocate_used_next (fits : allocator.Fits size alignment)
    (nonzero : allocator.cur_ ≠ 0)
    (room : SizeCounts.next alignment.toNat allocator.used_.toNat size.toNat < 2 ^ 32) :
    (allocator.allocate size alignment).2.used_.toNat =
      SizeCounts.next alignment.toNat allocator.used_.toNat size.toNat := by
  have power := fits.1
  have positive := Nat.pos_of_isPowerOfTwo power
  rw [SizeCounts.next] at room ⊢
  rw [allocate_used, if_neg ((allocate_ne_null_iff nonzero).mpr fits)]
  by_cases multiple : alignment.toNat ∣ size.toNat
  · rw [if_pos multiple] at room
    rw [if_pos ((word_and_mask power).mpr multiple), if_pos multiple, UInt32.toNat_add,
      Nat.mod_eq_of_lt room]
  · rw [if_neg multiple] at room
    have row : ((allocator.used_ ||| (alignment - 1)) + 1).toNat =
        alignment.toNat * (allocator.used_.toNat / alignment.toNat) + alignment.toNat := by
      have one : (1 : UInt32).toNat = 1 := rfl
      rw [UInt32.toNat_add, UInt32.toNat_or, toNat_mask positive, or_mask power, one,
        Nat.mod_eq_of_lt (by omega)]
      omega
    rw [if_neg (fun masked => multiple ((word_and_mask power).mp masked)), if_neg multiple,
      UInt32.toNat_add, row, Nat.mod_eq_of_lt room]

/-- An allocator over an aligned base, its cursor and its count as offsets from there. -/
structure ArmMemoryAllocator.CountedFrom (base : ℕ) (allocator : ArmMemoryAllocator)
    (cursor counted : ℕ) : Prop where
  above : 16 ≤ base
  aligned : 16 ∣ base
  cur : allocator.cur_.toNat = base + cursor
  used : allocator.used_.toNat = counted

private theorem placeBuffer_dtcm_counted {base : ℕ}
    (from_ : placing.methodAllocator.CountedFrom base cursor counted)
    (counts : Counts 16 cursor counted) (success : placeBuffer false placing size = .ok placed) :
    placed.methodAllocator.CountedFrom base (Placement.next 16 cursor size.toNat).stop
      (SizeCounts.next 16 counted size.toNat) := by
  obtain ⟨fits, rfl⟩ := fits_of_placeBuffer success
  have sixteen : (16 : UInt32).toNat = 16 := rfl
  have moved := ArmMemoryAllocator.allocate_cur fits
  rw [sixteen, from_.cur, roundUp_add (by decide) from_.aligned] at moved
  have near := (counts.next (by decide) size.toNat).near.2
  have bound := (placing.methodAllocator.allocate size 16).2.cur_.toNat_lt
  have above := from_.above
  have nonzero : placing.methodAllocator.cur_ ≠ 0 := by
    intro zero
    have cur := from_.cur
    rw [zero, UInt32.toNat_zero] at cur
    omega
  rw [next_stop] at near
  refine ⟨above, from_.aligned, by rw [moved, next_stop, Nat.add_assoc], ?_⟩
  have room : SizeCounts.next 16 counted size.toNat < 2 ^ 32 := by omega
  have next := ArmMemoryAllocator.allocate_used_next fits nonzero
  rw [sixteen, from_.used] at next
  exact next room

private theorem placeBuffers_dtcm_counted {base : ℕ}
    (from_ : placing.methodAllocator.CountedFrom base cursor counted)
    (counts : Counts 16 cursor counted) (success : placeBuffers false placing sizes = .ok placed) :
    placed.methodAllocator.CountedFrom base (finish 16 cursor (truncated sizes))
      (count 16 counted (truncated sizes)) := by
  induction sizes generalizing placing cursor counted with
  | nil =>
    cases success
    exact from_
  | cons size rest ih =>
    obtain ⟨next, first, remaining⟩ := placeBuffers_cons success
    exact ih (placeBuffer_dtcm_counted from_ counts first) (counts.next (by decide) _) remaining

private theorem placeBuffers_begin {useDdrPlanned : Bool}
    (success : placeBuffers useDdrPlanned placing sizes = .ok placed) :
    placed.methodAllocator.begin_ = placing.methodAllocator.begin_ := by
  refine placeBuffers_keeps (K := fun other =>
    other.methodAllocator.begin_ = placing.methodAllocator.begin_) ?_ rfl success
  intro before bufferSize next same placed
  rw [← same]
  cases useDdrPlanned with
  | true =>
    cases placed
    rfl
  | false =>
    obtain ⟨-, rfl⟩ := fits_of_placeBuffer placed
    exact ArmMemoryAllocator.allocate_begin

/-- The pool's base, aligned and not null, leaves room for the count to run ahead. -/
theorem MethodPool.countedFrom (pool : MethodPool) :
    pool.methodAllocator.CountedFrom pool.methodAllocationPool.toNat 0 0 := by
  have nonnull : pool.methodAllocationPool.toNat ≠ 0 := fun zero =>
    pool.nonnull (UInt32.toNat_inj.mp zero)
  exact ⟨Nat.le_of_dvd (Nat.pos_of_ne_zero nonnull) pool.aligned, pool.aligned, rfl, rfl⟩

/-- Truncation to 32 bits does not change whether a size is a multiple of 16. -/
theorem sixteen_dvd_toSizeT {size : Int64} : 16 ∣ (toSizeT size).toNat ↔ (16 : ℤ) ∣ size.toInt := by
  have low : (toSizeT size).toNat = size.toBitVec.toNat % 2 ^ 32 := by
    rw [toSizeT, UInt64.toNat_toUInt32]
    rfl
  have signed : size.toInt = (size.toBitVec.toNat : ℤ) ∨
      size.toInt = (size.toBitVec.toNat : ℤ) - (2 ^ 64 : ℕ) := by
    rw [Int64.toInt, BitVec.toInt_eq_toNat_cond]
    split
    · exact .inl rfl
    · exact .inr rfl
  omega

/-- A reported size of planned buffers in DTCM is that of the cursor exactly when every
buffer's size is a multiple of 16. Otherwise it is too large, by 16 bytes at most. -/
theorem plannedBufferMemsize_exact_iff (pool : MethodPool) (sizes : List Int64) (memory : PlannedMemory)
    (success : runnerInitPlannedBuffers pool sizes = .ok memory) (dtcm : memory.useDdrPlanned = false) :
    memory.methodAllocator.consumed ≤ memory.plannedBufferMemsize.toNat ∧
      memory.plannedBufferMemsize.toNat ≤ memory.methodAllocator.consumed + 16 ∧
      (memory.plannedBufferMemsize.toNat = memory.methodAllocator.consumed ↔
        ∀ size ∈ sizes, (16 : ℤ) ∣ size.toInt) := by
  obtain ⟨placing, placed, rfl⟩ := runnerInitPlannedBuffers_placed success
  simp only at dtcm
  rw [dtcm] at placed
  have start : Counts 16 0 0 := .inl ⟨dvd_zero 16, rfl⟩
  have fresh : (Placing.init pool.methodAllocator).methodAllocator.CountedFrom
      pool.methodAllocationPool.toNat 0 0 := pool.countedFrom
  have counted := placeBuffers_dtcm_counted fresh start placed
  have begins : placing.methodAllocator.begin_ = pool.methodAllocationPool := placeBuffers_begin placed
  have reported : (placing.methodAllocator.usedSize - pool.methodAllocator.usedSize).toNat =
      count 16 0 (truncated sizes) := by
    have zero : pool.methodAllocator.usedSize = 0 := rfl
    rw [zero, UInt32.sub_zero]
    exact counted.used
  have consumed : placing.methodAllocator.consumed = finish 16 0 (truncated sizes) := by
    rw [ArmMemoryAllocator.consumed, counted.cur, begins, Nat.add_sub_cancel_left]
  simp only [dtcm, Bool.false_eq_true, if_false]
  rw [reported, consumed, count_eq_finish_iff (by decide) (dvd_zero 16)]
  have near := (start.count (by decide) (truncated sizes)).near
  refine ⟨near.1, near.2, ?_⟩
  rw [truncated, List.forall_mem_map]
  simp only [sixteen_dvd_toSizeT]

/-- Three buffers, of 32, 16 and 48 bytes. -/
theorem plannedBufferMemsize_exact_three : (96 : UInt32).toNat =
    ArmMemoryAllocator.consumed ⟨⟨0x20004000, 0x2000A000, 0x20004060, 0x6000⟩, 96⟩ := by
  have multiples : ∀ size ∈ ([32, 16, 48] : List Int64), (16 : ℤ) ∣ size.toInt := by
    simp only [List.forall_mem_cons]
    exact ⟨⟨2, rfl⟩, ⟨1, rfl⟩, ⟨3, rfl⟩, by simp⟩
  exact (plannedBufferMemsize_exact_iff cmakeMethodPool [32, 16, 48]
    ⟨96, false, [⟨0x20004000, 32⟩, ⟨0x20004020, 16⟩, ⟨0x20004030, 48⟩], 96,
      ⟨⟨0x20004000, 0x2000A000, 0x20004060, 0x6000⟩, 96⟩⟩ (by decide) rfl).2.2.mpr multiples

end RunnerCm33
