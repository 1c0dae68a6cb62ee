import RunnerCm33.Planned.DdrLayout

/-! The DTCM branch of the planned-buffer setup: the same aligned placement,
computed by the method allocator and cut off where its pool ends. -/

namespace RunnerCm33

open RunnerCm33.Align RunnerCm33.Blocks RunnerCm33.Placement

variable {pool : MethodPool} {sizes : List Int64} {placing : Placing} {bufferSize : UInt32}

private theorem fits_iff {allocator : ArmMemoryAllocator} :
    allocator.Fits bufferSize 16 ↔
      (next 16 allocator.cur_.toNat bufferSize.toNat).stop ≤ allocator.end_.toNat :=
  and_iff_right ⟨4, rfl⟩

private theorem placeBuffer_dtcm (nonzero : placing.methodAllocator.cur_ ≠ 0)
    (inside : (next 16 placing.methodAllocator.cur_.toNat bufferSize.toNat).stop ≤
      placing.methodAllocator.end_.toNat) :
    ∃ allocator span, placeBuffer false placing bufferSize = .ok { placing with
        methodAllocator := allocator
        plannedSpans := placing.plannedSpans ++ [span] } ∧
      span.size = bufferSize ∧
      span.block = next 16 placing.methodAllocator.cur_.toNat bufferSize.toNat ∧
      allocator.cur_.toNat = span.block.stop ∧
      allocator.end_ = placing.methodAllocator.end_ := by
  have fits := fits_iff.mpr inside
  have nonnull := (ArmMemoryAllocator.allocate_ne_null_iff nonzero).mpr fits
  have address := ArmMemoryAllocator.allocate_toNat fits
  refine ⟨(placing.methodAllocator.allocate bufferSize 16).2,
    ⟨(placing.methodAllocator.allocate bufferSize 16).1, bufferSize⟩, ?_, rfl, ?_, ?_, ?_⟩
  · simp [placeBuffer, nonnull]
  · simp only [Span.block, next, address]
    rfl
  · rw [ArmMemoryAllocator.allocate_cur fits]
    simp only [Span.block, address]
  · exact ArmMemoryAllocator.allocate_end

private theorem placeBuffer_dtcm_error (nonzero : placing.methodAllocator.cur_ ≠ 0)
    (outside : ¬ (next 16 placing.methodAllocator.cur_.toNat bufferSize.toNat).stop ≤
      placing.methodAllocator.end_.toNat) :
    placeBuffer false placing bufferSize = .error (.couldNotAllocate bufferSize) := by
  have null : (placing.methodAllocator.allocate bufferSize 16).1 = nullptr := by
    by_contra nonnull
    exact outside (fits_iff.mp ((ArmMemoryAllocator.allocate_ne_null_iff nonzero).mp nonnull))
  simp [placeBuffer, null]

private theorem cursor_ne_zero {allocator : ArmMemoryAllocator} {span : Span} {cursor : UInt32}
    (nonzero : cursor ≠ 0)
    (block : span.block = next 16 cursor.toNat bufferSize.toNat)
    (stop : allocator.cur_.toNat = span.block.stop) : allocator.cur_ ≠ 0 := by
  intro zero
  have forward : cursor.toNat ≤ roundUp cursor.toNat 16 := le_roundUp (by decide)
  rw [zero, block, next_stop, UInt32.toNat_zero] at stop
  exact nonzero (UInt32.toNat_inj.mp (Nat.le_zero.mp (by omega)))

/-- The DTCM loop appends the whole layout when it ends within the pool. -/
theorem placeBuffers_dtcm (placing : Placing) (sizes : List Int64)
    (nonzero : placing.methodAllocator.cur_ ≠ 0)
    (inside : ∀ block ∈ place 16 placing.methodAllocator.cur_.toNat (truncated sizes),
      block.stop ≤ placing.methodAllocator.end_.toNat) :
    ∃ allocator spans, placeBuffers false placing sizes = .ok { placing with
        methodAllocator := allocator
        plannedSpans := placing.plannedSpans ++ spans } ∧
      spans.map Span.size = sizes.map toSizeT ∧
      spans.map Span.block = place 16 placing.methodAllocator.cur_.toNat (truncated sizes) ∧
      allocator.cur_.toNat = finish 16 placing.methodAllocator.cur_.toNat (truncated sizes) := by
  induction sizes generalizing placing with
  | nil => exact ⟨placing.methodAllocator, [], by simp [placeBuffers], rfl, rfl, rfl⟩
  | cons size rest ih =>
    rw [truncated_cons, place_cons, List.forall_mem_cons] at inside
    obtain ⟨allocator, span, placed, length, block, stop, limit⟩ := placeBuffer_dtcm nonzero inside.1
    have moved := cursor_ne_zero nonzero block stop
    rw [block] at stop
    obtain ⟨last, spans, success, lengths, blocks, stopped⟩ := ih { placing with
        methodAllocator := allocator
        plannedSpans := placing.plannedSpans ++ [span] } moved
      (by simpa only [stop, limit] using inside.2)
    refine ⟨last, span :: spans, ?_, ?_, ?_, ?_⟩
    · simp [placeBuffers, placed, success, bind, Except.bind]
    · simp [length, lengths]
    · simp only [stop] at blocks
      simp [blocks, block]
    · rw [stopped, stop]
      rfl

theorem placeBuffers_dtcm_error (placing : Placing) (sizes : List Int64)
    (nonzero : placing.methodAllocator.cur_ ≠ 0)
    (outside : ¬ ∀ block ∈ place 16 placing.methodAllocator.cur_.toNat (truncated sizes),
      block.stop ≤ placing.methodAllocator.end_.toNat) :
    ∃ abort, placeBuffers false placing sizes = .error abort := by
  induction sizes generalizing placing with
  | nil => exact absurd (by simp) outside
  | cons size rest ih =>
    rw [truncated_cons, place_cons, List.forall_mem_cons] at outside
    by_cases first : (next 16 placing.methodAllocator.cur_.toNat (toSizeT size).toNat).stop ≤
        placing.methodAllocator.end_.toNat
    · obtain ⟨allocator, span, placed, _, block, stop, limit⟩ := placeBuffer_dtcm nonzero first
      have moved := cursor_ne_zero nonzero block stop
      rw [block] at stop
      obtain ⟨abort, failed⟩ := ih { placing with
          methodAllocator := allocator
          plannedSpans := placing.plannedSpans ++ [span] } moved
        (fun inside => outside ⟨first, by simpa only [stop, limit] using inside⟩)
      exact ⟨abort, by simp [placeBuffers, placed, failed, bind, Except.bind]⟩
    · refine ⟨.couldNotAllocate (toSizeT size), ?_⟩
      simp [placeBuffers, placeBuffer_dtcm_error nonzero first, bind, Except.bind]

end RunnerCm33
