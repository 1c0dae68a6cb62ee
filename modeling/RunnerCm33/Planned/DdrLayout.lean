import RunnerCm33.Planned.Setup
import RunnerCm33.Lib.Placement

/-! The DDR branch of the planned-buffer setup computes the aligned placement of
the reported sizes behind the pool's base. -/

namespace RunnerCm33

open RunnerCm33.Align RunnerCm33.Blocks RunnerCm33.Placement

/-- The size a model reports, as a number of bytes. -/
def bytes (size : Int64) : ℕ := size.toNatClampNeg

/-- The exact sum of the reported sizes. -/
def exactTotal (sizes : List Int64) : ℕ := (sizes.map bytes).sum

/-- The sizes the setup works with, truncated to `size_t`. -/
def truncated (sizes : List Int64) : List ℕ := sizes.map fun size => (toSizeT size).toNat

def Span.block (span : Span) : Block ℕ :=
  ⟨span.data.toNat, span.data.toNat + span.size.toNat, Nat.le_add_right ..⟩

variable {pool : MethodPool} {size : Int64} {sizes : List Int64} {placing : Placing}

@[simp] theorem truncated_nil : truncated [] = [] := rfl

@[simp] theorem truncated_cons :
    truncated (size :: sizes) = (toSizeT size).toNat :: truncated sizes := rfl

theorem toSizeT_toNat (nonneg : 0 ≤ size) : (toSizeT size).toNat = bytes size % 2 ^ 32 := by
  rw [toSizeT, UInt64.toNat_toUInt32, Int64.toNat_toUInt64_of_le nonneg, bytes]

theorem bytes_le_exactTotal (member : size ∈ sizes) : bytes size ≤ exactTotal sizes :=
  List.single_le_sum (fun _ _ => Nat.zero_le _) _ (List.mem_map.mpr ⟨size, member, rfl⟩)

theorem truncated_eq (nonneg : ∀ size ∈ sizes, 0 ≤ size) (small : exactTotal sizes < 2 ^ 32) :
    truncated sizes = sizes.map bytes := by
  apply List.map_congr_left
  intro size member
  rw [toSizeT_toNat (nonneg size member), Nat.mod_eq_of_lt]
  exact Nat.lt_of_le_of_lt (bytes_le_exactTotal member) small

theorem totalPlannedSize_toNat :
    (totalPlannedSize sizes).toNat = (truncated sizes).sum % 2 ^ 32 := by
  have general (total : UInt32) :
      (sizes.foldl (fun total size => total + toSizeT size) total).toNat =
        (total.toNat + (truncated sizes).sum) % 2 ^ 32 := by
    induction sizes generalizing total with
    | nil => simp [Nat.mod_eq_of_lt total.toNat_lt]
    | cons size rest ih =>
      rw [List.foldl_cons, ih, UInt32.toNat_add, Nat.mod_add_mod]
      simp [Nat.add_assoc]
  simpa [totalPlannedSize] using general 0

theorem totalPlannedSize_eq (nonneg : ∀ size ∈ sizes, 0 ≤ size)
    (small : exactTotal sizes < 2 ^ 32) : (totalPlannedSize sizes).toNat = exactTotal sizes := by
  rw [totalPlannedSize_toNat, truncated_eq nonneg small]
  exact Nat.mod_eq_of_lt small

/-- One iteration in the DDR branch places the next block of the layout. -/
theorem placeBuffer_ddr {bufferSize : UInt32}
    (room : (next 16 (plannedBufferDdrPool.toNat + placing.ddrPlannedOffset.toNat)
      bufferSize.toNat).stop < 2 ^ 32) :
    ∃ offset span, placeBuffer true placing bufferSize = .ok { placing with
        ddrPlannedOffset := offset
        plannedSpans := placing.plannedSpans ++ [span] } ∧
      span.size = bufferSize ∧
      span.block = next 16 (plannedBufferDdrPool.toNat + placing.ddrPlannedOffset.toNat)
        bufferSize.toNat ∧
      plannedBufferDdrPool.toNat + offset.toNat = span.block.stop := by
  have based : 16 ∣ plannedBufferDdrPool.toNat := by decide
  have low : plannedBufferDdrPool.toNat = 0xA8200000 := rfl
  rw [next_stop, roundUp_add (by decide) based] at room
  have forward : placing.ddrPlannedOffset.toNat ≤ roundUp placing.ddrPlannedOffset.toNat 16 :=
    le_roundUp (by decide)
  have aligned : ((placing.ddrPlannedOffset + 15) &&& ~~~15).toNat =
      roundUp placing.ddrPlannedOffset.toNat 16 :=
    toNat_add_mask_and_not (y := 16) ⟨4, rfl⟩ (by simp; omega)
  have data : (plannedBufferDdrPool + ((placing.ddrPlannedOffset + 15) &&& ~~~15)).toNat =
      plannedBufferDdrPool.toNat + roundUp placing.ddrPlannedOffset.toNat 16 := by
    rw [UInt32.toNat_add, aligned, Nat.mod_eq_of_lt (by omega)]
  refine ⟨((placing.ddrPlannedOffset + 15) &&& ~~~15) + bufferSize,
    ⟨plannedBufferDdrPool + ((placing.ddrPlannedOffset + 15) &&& ~~~15), bufferSize⟩, rfl, rfl, ?_, ?_⟩
  · simp only [Span.block, next, data, roundUp_add (by decide : 0 < 16) based]
  · rw [UInt32.toNat_add, aligned, Nat.mod_eq_of_lt (by omega)]
    simp only [Span.block, data]
    omega

/-- The DDR loop appends the whole layout, as long as its end is an address. -/
theorem placeBuffers_ddr (placing : Placing) (sizes : List Int64)
    (room : finish 16 (plannedBufferDdrPool.toNat + placing.ddrPlannedOffset.toNat)
      (truncated sizes) < 2 ^ 32) :
    ∃ offset spans, placeBuffers true placing sizes = .ok { placing with
        ddrPlannedOffset := offset
        plannedSpans := placing.plannedSpans ++ spans } ∧
      spans.map Span.size = sizes.map toSizeT ∧
      spans.map Span.block = place 16
        (plannedBufferDdrPool.toNat + placing.ddrPlannedOffset.toNat) (truncated sizes) ∧
      plannedBufferDdrPool.toNat + offset.toNat = finish 16
        (plannedBufferDdrPool.toNat + placing.ddrPlannedOffset.toNat) (truncated sizes) := by
  induction sizes generalizing placing with
  | nil => exact ⟨placing.ddrPlannedOffset, [], by simp [placeBuffers], rfl, rfl, rfl⟩
  | cons size rest ih =>
    have first : (next 16 (plannedBufferDdrPool.toNat + placing.ddrPlannedOffset.toNat)
        (toSizeT size).toNat).stop < 2 ^ 32 :=
      Nat.lt_of_le_of_lt (place_stacked (by decide)).le room
    obtain ⟨offset, span, placed, length, block, stop⟩ := placeBuffer_ddr first
    rw [block] at stop
    obtain ⟨last, spans, success, lengths, blocks, stopped⟩ := ih { placing with
        ddrPlannedOffset := offset
        plannedSpans := placing.plannedSpans ++ [span] } (by rw [stop]; exact room)
    refine ⟨last, span :: spans, ?_, ?_, ?_, ?_⟩
    · simp [placeBuffers, placed, success, bind, Except.bind]
    · simp [length, lengths]
    · simp [blocks, block, stop]
    · rw [stopped, stop]
      rfl

/-- What the DDR branch leaves for sizes whose total is exact. -/
structure DdrLayout (sizes : List Int64) (memory : PlannedMemory) : Prop where
  total : memory.totalPlannedSize.toNat = exactTotal sizes
  branch : memory.useDdrPlanned = true
  lengths : memory.plannedSpans.map Span.size = sizes.map toSizeT
  blocks : memory.plannedSpans.map Span.block =
    place 16 plannedBufferDdrPool.toNat (sizes.map bytes)
  memsize : memory.plannedBufferMemsize.toNat = extent 16 (sizes.map bytes)

/-- A total within the pool bounds the padded layout far below the end of the
address space, whatever the number of buffers. -/
theorem finish_lt (small : exactTotal sizes ≤ plannedBufferDdrPoolSize.toNat) :
    finish 16 plannedBufferDdrPool.toNat (sizes.map bytes) < 2 ^ 32 := by
  have padded : extent 16 (sizes.map bytes) ≤ 16 * exactTotal sizes := extent_le_mul (by decide)
  have limit : plannedBufferDdrPoolSize.toNat = 0x2000000 := rfl
  have low : plannedBufferDdrPool.toNat = 0xA8200000 := rfl
  rw [finish_eq (by decide) (by decide)]
  omega

theorem useDdrPlanned_iff (pool : MethodPool) (nonneg : ∀ size ∈ sizes, 0 ≤ size)
    (small : exactTotal sizes < 2 ^ 32) :
    totalPlannedSize sizes > pool.methodAllocationPoolSize / 2 ↔
      pool.methodAllocationPoolSize.toNat / 2 < exactTotal sizes := by
  rw [gt_iff_lt, UInt32.lt_iff_toNat_lt, totalPlannedSize_eq nonneg small, UInt32.toNat_div]
  rfl

theorem runnerInitPlannedBuffers_ddr (nonneg : ∀ size ∈ sizes, 0 ≤ size)
    (large : pool.methodAllocationPoolSize.toNat / 2 < exactTotal sizes)
    (small : exactTotal sizes ≤ plannedBufferDdrPoolSize.toNat) :
    ∃ memory, runnerInitPlannedBuffers pool sizes = .ok memory ∧ DdrLayout sizes memory := by
  have limit : plannedBufferDdrPoolSize.toNat = 0x2000000 := rfl
  have word : exactTotal sizes < 2 ^ 32 := by omega
  have exact' := truncated_eq nonneg word
  have branch := (useDdrPlanned_iff pool nonneg word).mpr large
  have within : totalPlannedSize sizes ≤ plannedBufferDdrPoolSize := by
    rw [UInt32.le_iff_toNat_le, totalPlannedSize_eq nonneg word]
    exact small
  obtain ⟨offset, spans, placed, lengths, blocks, stop⟩ := placeBuffers_ddr
    (.init pool.methodAllocator) sizes (by rw [exact']; exact finish_lt small)
  refine ⟨{
    totalPlannedSize := totalPlannedSize sizes
    useDdrPlanned := true
    plannedSpans := spans
    plannedBufferMemsize := offset
    methodAllocator := pool.methodAllocator }, ?_, ?_⟩
  · simp [runnerInitPlannedBuffers, branch, within, placed, bind, Except.bind, pure, Except.pure]
  · refine ⟨totalPlannedSize_eq nonneg word, rfl, lengths, by simpa [exact'] using blocks, ?_⟩
    have based : 16 ∣ plannedBufferDdrPool.toNat := by decide
    simp only [exact', Placing.init_ddrPlannedOffset, UInt32.toNat_zero, Nat.add_zero,
      finish_eq (a := 16) (by decide) based] at stop
    exact Nat.add_left_cancel stop

end RunnerCm33
