import RunnerCm33.Planned.DtcmLayout

/-! The two placement loops side by side: the allocator rounds absolute addresses,
the DDR loop rounds offsets, and from an aligned base they stay in step. -/

namespace RunnerCm33

open RunnerCm33.Align

/-- The offsets of the placed spans from the base of their pool. -/
def Placing.offsets (placing : Placing) (base : UInt32) : List UInt32 :=
  placing.plannedSpans.map fun span => span.data - base

/-- The allocator's cursor stands as far behind its base as the DDR offset says, and
all spans placed so far have the same offsets and sizes. -/
structure InStep (base : UInt32) (dtcm ddr : Placing) : Prop where
  cursor : dtcm.methodAllocator.cur_.toNat = base.toNat + ddr.ddrPlannedOffset.toNat
  offsets : dtcm.offsets base = ddr.offsets plannedBufferDdrPool
  sizes : dtcm.plannedSpans.map Span.size = ddr.plannedSpans.map Span.size

variable {base bufferSize : UInt32} {dtcm ddr placed : Placing} {sizes : List Int64}

theorem fits_of_placeBuffer (success : placeBuffer false dtcm bufferSize = .ok placed) :
    dtcm.methodAllocator.Fits bufferSize 16 ∧
      placed = { dtcm with
        methodAllocator := (dtcm.methodAllocator.allocate bufferSize 16).2
        plannedSpans := dtcm.plannedSpans ++
          [⟨(dtcm.methodAllocator.allocate bufferSize 16).1, bufferSize⟩] } := by
  simp only [placeBuffer, Bool.false_eq_true, ↓reduceIte] at success
  split at success
  · cases success
  · rename_i nonnull
    rw [ArmMemoryAllocator.allocate_fst] at nonnull
    exact ⟨MemoryAllocator.fits_of_allocate nonnull, (Except.ok.inj success).symm⟩

/-- One buffer: an aligned base moves out of the allocator's rounding, and what is left
is the rounding of the offset. -/
theorem InStep.placeBuffer (inStep : InStep base dtcm ddr) (aligned : 16 ∣ base.toNat)
    (success : placeBuffer false dtcm bufferSize = .ok placed) :
    ∃ other, RunnerCm33.placeBuffer true ddr bufferSize = .ok other ∧ InStep base placed other := by
  obtain ⟨fits, rfl⟩ := fits_of_placeBuffer success
  have address := ArmMemoryAllocator.allocate_toNat fits
  have cursor := ArmMemoryAllocator.allocate_cur fits
  have bound := Nat.lt_of_le_of_lt fits.2 dtcm.methodAllocator.end_.toNat_lt
  have sixteen : (16 : UInt32).toNat = 16 := rfl
  rw [sixteen, inStep.cursor, roundUp_add (by decide) aligned] at address cursor bound
  have small : ddr.ddrPlannedOffset.toNat + 15 < 2 ^ 32 := by
    -- the rounded offset is a multiple of 16 below 2 ^ 32
    have above : ddr.ddrPlannedOffset.toNat ≤ roundUp ddr.ddrPlannedOffset.toNat 16 :=
      le_roundUp (by decide)
    have multiple : 16 ∣ roundUp ddr.ddrPlannedOffset.toNat 16 := dvd_roundUp
    omega
  have offset : ((ddr.ddrPlannedOffset + 15) &&& ~~~15).toNat =
      roundUp ddr.ddrPlannedOffset.toNat 16 :=
    toNat_add_mask_and_not (y := 16) ⟨4, rfl⟩ small
  have same : (dtcm.methodAllocator.allocate bufferSize 16).1 - base =
      (ddr.ddrPlannedOffset + 15) &&& ~~~15 := by
    have above : base ≤ (dtcm.methodAllocator.allocate bufferSize 16).1 := by
      rw [UInt32.le_iff_toNat_le, address]
      exact Nat.le_add_right ..
    rw [← UInt32.toNat_inj, UInt32.toNat_sub_of_le _ _ above, address, offset]
    omega
  have behind : plannedBufferDdrPool + ((ddr.ddrPlannedOffset + 15) &&& ~~~15) -
      plannedBufferDdrPool = (ddr.ddrPlannedOffset + 15) &&& ~~~15 := by
    rw [UInt32.add_comm, UInt32.add_sub_cancel]
  refine ⟨_, rfl, ?_, ?_, ?_⟩
  · rw [cursor, UInt32.toNat_add, offset, Nat.mod_eq_of_lt (by omega)]
    omega
  · have before := inStep.offsets
    simp only [Placing.offsets, List.map_append, List.map_cons, List.map_nil] at before ⊢
    rw [before, same, behind]
  · simp only [List.map_append, inStep.sizes, List.map_cons, List.map_nil]

/-- The loops stay in step as long as the allocator grants every request. -/
theorem InStep.placeBuffers (inStep : InStep base dtcm ddr) (aligned : 16 ∣ base.toNat)
    (success : placeBuffers false dtcm sizes = .ok placed) :
    ∃ other, RunnerCm33.placeBuffers true ddr sizes = .ok other ∧ InStep base placed other := by
  induction sizes generalizing dtcm ddr with
  | nil =>
    cases success
    exact ⟨ddr, rfl, inStep⟩
  | cons size rest ih =>
    cases first : RunnerCm33.placeBuffer false dtcm (toSizeT size) with
    | error abort => simp [RunnerCm33.placeBuffers, first, bind, Except.bind] at success
    | ok next =>
      have remaining : RunnerCm33.placeBuffers false next rest = .ok placed := by
        simpa [RunnerCm33.placeBuffers, first, bind, Except.bind] using success
      obtain ⟨other, placedOther, stillInStep⟩ := inStep.placeBuffer aligned first
      obtain ⟨last, success', final⟩ := ih stillInStep remaining
      exact ⟨last, by simpa [RunnerCm33.placeBuffers, placedOther, bind, Except.bind] using success',
        final⟩

/-- Whenever the DTCM branch places all buffers from an aligned base, the DDR loop
places them at the same offsets and ends at the same cursor. -/
theorem placement_paths_agree (poolSize base : UInt32) (methodAllocator : ArmMemoryAllocator)
    (sizes : List Int64) (dtcm : Placing) (aligned : 16 ∣ base.toNat)
    (success : placeBuffers false (.init (.new poolSize base)) sizes = .ok dtcm) :
    ∃ ddr, placeBuffers true (.init methodAllocator) sizes = .ok ddr ∧
      dtcm.offsets base = ddr.offsets plannedBufferDdrPool ∧
      dtcm.plannedSpans.map Span.size = ddr.plannedSpans.map Span.size ∧
      dtcm.methodAllocator.cur_ - base = ddr.ddrPlannedOffset := by
  have start : InStep base (.init (.new poolSize base)) (.init methodAllocator) :=
    ⟨by simp, by simp [Placing.offsets], rfl⟩
  obtain ⟨ddr, success', inStep⟩ := start.placeBuffers aligned success
  refine ⟨ddr, success', inStep.offsets, inStep.sizes, ?_⟩
  have above : base ≤ dtcm.methodAllocator.cur_ := by
    rw [UInt32.le_iff_toNat_le, inStep.cursor]
    exact Nat.le_add_right ..
  rw [← UInt32.toNat_inj, UInt32.toNat_sub_of_le _ _ above, inStep.cursor, Nat.add_sub_cancel_left]

/-- Three buffers, one of them empty, at the offsets 0, 16 and 16. -/
theorem placement_paths_agree_three :
    ∃ ddr, placeBuffers true (.init (.new 0 0)) [5, 0, 7] = .ok ddr ∧
      Placing.offsets ⟨⟨⟨0x20004000, 0x2000A000, 0x20004017, 0x6000⟩, 39⟩, 0,
        [⟨0x20004000, 5⟩, ⟨0x20004010, 0⟩, ⟨0x20004010, 7⟩]⟩ 0x20004000 =
          ddr.offsets plannedBufferDdrPool ∧
      [⟨0x20004000, 5⟩, ⟨0x20004010, 0⟩, ⟨0x20004010, 7⟩].map Span.size =
        ddr.plannedSpans.map Span.size ∧
      0x20004017 - 0x20004000 = ddr.ddrPlannedOffset :=
  placement_paths_agree 0x6000 0x20004000 (.new 0 0) [5, 0, 7] _ (by decide) (by decide)

end RunnerCm33
