import RunnerCm33.Planned.Decision

/-! The DDR loop as a layout: one aligned span per reported size, in order and apart,
computed without a wrap, with a bounded amount of padding. -/

namespace RunnerCm33

open RunnerCm33.Align RunnerCm33.Blocks RunnerCm33.Placement

/-- The next iteration computes its offset and its addresses exactly. -/
structure Placing.Exact (placing : Placing) (bufferSize : UInt32) : Prop where
  rounding : placing.ddrPlannedOffset.toNat + 15 < 2 ^ 32
  address : plannedBufferDdrPool.toNat +
    ((placing.ddrPlannedOffset + 15) &&& ~~~15).toNat < 2 ^ 32
  offset : ((placing.ddrPlannedOffset + 15) &&& ~~~15).toNat + bufferSize.toNat < 2 ^ 32

/-- The end of the last span, or the base of the pool before the first one. -/
def Placing.ddrEnd (placing : Placing) : ℕ :=
  (placing.plannedSpans.getLast?.map fun span => span.block.stop).getD plannedBufferDdrPool.toNat

/-- What is asked of the loop for a list of sizes. -/
structure Placing.LaysOut (sizes : List Int64) (placed : Placing) : Prop where
  requested : placed.plannedSpans.map (fun span => span.size.toNat) = sizes.map bytes
  aligned : ∀ span ∈ placed.plannedSpans, 16 ∣ span.data.toNat
  ordered : placed.plannedSpans.Pairwise fun first second => first.block.stop ≤ second.block.start
  disjoint : placed.plannedSpans.Pairwise fun first second =>
    Disjoint first.block.addresses second.block.addresses
  memsize : plannedBufferDdrPool.toNat + placed.ddrPlannedOffset.toNat = placed.ddrEnd
  padding : placed.ddrPlannedOffset.toNat ≤ exactTotal sizes + 15 * (sizes.length - 1)

variable {pool : MethodPool} {sizes before after : List Int64} {size : Int64}
  {methodAllocator : ArmMemoryAllocator} {placed : Placing} {memory : PlannedMemory}

private theorem placeBuffers_ddr_fresh (methodAllocator : ArmMemoryAllocator)
    (nonneg : ∀ size ∈ sizes, 0 ≤ size)
    (small : exactTotal sizes ≤ plannedBufferDdrPoolSize.toNat) :
    ∃ placed, placeBuffers true (.init methodAllocator) sizes = .ok placed ∧
      placed.plannedSpans.map (fun span => span.size.toNat) = sizes.map bytes ∧
      placed.plannedSpans.map Span.block = place 16 plannedBufferDdrPool.toNat (sizes.map bytes) ∧
      plannedBufferDdrPool.toNat + placed.ddrPlannedOffset.toNat =
        finish 16 plannedBufferDdrPool.toNat (sizes.map bytes) := by
  have limit : plannedBufferDdrPoolSize.toNat = 0x2000000 := rfl
  have exact' := truncated_eq nonneg (show exactTotal sizes < 2 ^ 32 by omega)
  obtain ⟨offset, spans, success, lengths, blocks, stop⟩ := placeBuffers_ddr
    (.init methodAllocator) sizes (by rw [exact']; exact finish_lt small)
  rw [exact'] at blocks stop
  refine ⟨_, success, ?_, by simpa using blocks, stop⟩
  have same := congrArg (List.map UInt32.toNat) lengths
  rw [List.map_map, List.map_map] at same
  rw [← exact']
  exact same

private theorem laysOut_of_blocks
    (requested : placed.plannedSpans.map (fun span => span.size.toNat) = sizes.map bytes)
    (blocks : placed.plannedSpans.map Span.block =
      place 16 plannedBufferDdrPool.toNat (sizes.map bytes))
    (stop : plannedBufferDdrPool.toNat + placed.ddrPlannedOffset.toNat =
      finish 16 plannedBufferDdrPool.toNat (sizes.map bytes)) : placed.LaysOut sizes := by
  have stacked : Stacked _ (place 16 plannedBufferDdrPool.toNat (sizes.map bytes)) _ :=
    place_stacked (by decide)
  rw [← blocks] at stacked
  have ordered := List.pairwise_map.mp stacked.sorted
  refine ⟨requested, ?_, ordered, ordered.imp fun behind => Block.Apart.disjoint (.inl behind), ?_, ?_⟩
  · intro span member
    have block : span.block ∈ place 16 plannedBufferDdrPool.toNat (sizes.map bytes) := by
      rw [← blocks]
      exact List.mem_map.mpr ⟨span, member, rfl⟩
    exact place_aligned block
  · rw [stop, finish_eq_getLast, ← blocks, List.getLast?_map, Option.map_map]
    rfl
  · have based : 16 ∣ plannedBufferDdrPool.toNat := by decide
    have padded : extent 16 (sizes.map bytes) ≤ exactTotal sizes + 15 * ((sizes.map bytes).length - 1) :=
      extent_le_sum (by decide)
    rw [finish_eq (by decide) based] at stop
    rw [List.length_map] at padded
    rw [Nat.add_left_cancel stop]
    exact padded

/-- In the middle of sizes whose total fits the pool the loop has not wrapped, and the next
iteration does not. -/
theorem exact_of_prefix (methodAllocator : ArmMemoryAllocator)
    (nonneg : ∀ other ∈ before ++ size :: after, 0 ≤ other)
    (small : exactTotal (before ++ size :: after) ≤ plannedBufferDdrPoolSize.toNat) :
    ∃ placing, placeBuffers true (.init methodAllocator) before = .ok placing ∧
      placing.Exact (toSizeT size) := by
  have limit : plannedBufferDdrPoolSize.toNat = 0x2000000 := rfl
  have low : plannedBufferDdrPool.toNat = 0xA8200000 := rfl
  have based : 16 ∣ plannedBufferDdrPool.toNat := by decide
  have fits : exactTotal before ≤ plannedBufferDdrPoolSize.toNat ∧
      exactTotal (before ++ [size]) ≤ plannedBufferDdrPoolSize.toNat := by
    simp only [exactTotal, List.map_append, List.map_cons, List.map_nil, List.sum_append,
      List.sum_cons, List.sum_nil] at small ⊢
    omega
  obtain ⟨placing, success, -, -, stop⟩ := placeBuffers_ddr_fresh methodAllocator
    (fun other member => nonneg other (by simp [member])) fits.1
  refine ⟨placing, success, ?_⟩
  have length : (toSizeT size).toNat = bytes size := by
    have own : bytes size ≤ exactTotal (before ++ [size]) := bytes_le_exactTotal (by simp)
    rw [toSizeT_toNat (nonneg size (by simp)), Nat.mod_eq_of_lt (by omega)]
  have room := finish_lt fits.2
  rw [List.map_append, finish_append, ← stop] at room
  have next : plannedBufferDdrPool.toNat + roundUp placing.ddrPlannedOffset.toNat 16 +
      bytes size < 2 ^ 32 := by
    rw [← roundUp_add (by decide) based]
    exact room
  have forward : placing.ddrPlannedOffset.toNat ≤ roundUp placing.ddrPlannedOffset.toNat 16 :=
    le_roundUp (by decide)
  have aligned : ((placing.ddrPlannedOffset + 15) &&& ~~~15).toNat =
      roundUp placing.ddrPlannedOffset.toNat 16 :=
    toNat_add_mask_and_not (y := 16) ⟨4, rfl⟩ (by simp; omega)
  constructor
  · omega
  · omega
  · omega

/-- The setup succeeds in this branch and records what its loop has placed. -/
structure PlannedMemory.Records (memory : PlannedMemory) (placed : Placing) : Prop where
  branch : memory.useDdrPlanned = true
  plannedSpans : memory.plannedSpans = placed.plannedSpans
  plannedBufferMemsize : memory.plannedBufferMemsize = placed.ddrPlannedOffset

private theorem records_of_ddr (nonneg : ∀ size ∈ sizes, 0 ≤ size)
    (large : pool.methodAllocationPoolSize.toNat / 2 < exactTotal sizes)
    (small : exactTotal sizes ≤ plannedBufferDdrPoolSize.toNat)
    (success : placeBuffers true (.init pool.methodAllocator) sizes = .ok placed) :
    ∃ memory, runnerInitPlannedBuffers pool sizes = .ok memory ∧ memory.Records placed := by
  obtain ⟨memory, recorded, layout⟩ := runnerInitPlannedBuffers_ddr nonneg large small
  have branch := layout.branch
  obtain ⟨other, otherSuccess, rfl⟩ := runnerInitPlannedBuffers_placed recorded
  simp only at branch
  rw [branch, success] at otherSuccess
  obtain rfl := Except.ok.inj otherSuccess
  exact ⟨_, recorded, branch, rfl, if_pos branch⟩

/-- For sizes whose exact sum is at most the pool's size, the DDR loop lays them out, and
no iteration wraps. Where their sum is above half the method pool, the setup succeeds in
this branch and records the layout. -/
theorem ddr_placement_faithful (pool : MethodPool) (sizes : List Int64)
    (nonneg : ∀ size ∈ sizes, 0 ≤ size)
    (small : exactTotal sizes ≤ plannedBufferDdrPoolSize.toNat) :
    (∃ placed, placeBuffers true (.init pool.methodAllocator) sizes = .ok placed ∧
      placed.LaysOut sizes ∧
      (pool.methodAllocationPoolSize.toNat / 2 < exactTotal sizes →
        ∃ memory, runnerInitPlannedBuffers pool sizes = .ok memory ∧ memory.Records placed)) ∧
      ∀ before size after, sizes = before ++ size :: after →
        ∃ placing, placeBuffers true (.init pool.methodAllocator) before = .ok placing ∧
          placing.Exact (toSizeT size) := by
  obtain ⟨placed, success, requested, blocks, stop⟩ :=
    placeBuffers_ddr_fresh pool.methodAllocator nonneg small
  refine ⟨⟨placed, success, laysOut_of_blocks requested blocks stop, ?_⟩, ?_⟩
  · exact fun large => records_of_ddr nonneg large small success
  · rintro before size after rfl
    exact exact_of_prefix pool.methodAllocator nonneg small

/-- Four buffers of a medium model, one of them empty: the setup puts them behind each other
in the DDR pool. -/
theorem ddr_placement_faithful_medium :
    ∃ placed memory, placed.LaysOut [770001, 0, 5, 64] ∧
      runnerInitPlannedBuffers cmakeMethodPool [770001, 0, 5, 64] = .ok memory ∧ memory.Records placed :=
  let ⟨⟨placed, _, laysOut, records⟩, _⟩ :=
    ddr_placement_faithful cmakeMethodPool [770001, 0, 5, 64] (by simp) (by decide)
  let ⟨memory, success, recorded⟩ := records (by decide)
  ⟨placed, memory, laysOut, success, recorded⟩

end RunnerCm33
