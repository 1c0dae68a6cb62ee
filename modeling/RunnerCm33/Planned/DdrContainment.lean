import RunnerCm33.Planned.DdrLayout

/-! Which size lists stay inside the DDR pool. The capacity check bounds the sum
of the sizes, the placement loop spends the padded extent. -/

namespace RunnerCm33

open RunnerCm33.Blocks RunnerCm33.Placement

/-- Every placed span lies in the DDR pool. -/
def PlannedMemory.Contained (memory : PlannedMemory) : Prop :=
  ∀ span ∈ memory.plannedSpans, span.block.Within plannedBufferDdrPool.toNat
    (plannedBufferDdrPool.toNat + plannedBufferDdrPoolSize.toNat)

variable {sizes : List Int64} {memory : PlannedMemory}

theorem DdrLayout.forall_blocks (layout : DdrLayout sizes memory) {P : Block ℕ → Prop} :
    (∀ span ∈ memory.plannedSpans, P span.block) ↔
      ∀ block ∈ place 16 plannedBufferDdrPool.toNat (sizes.map bytes), P block := by
  rw [← layout.blocks]
  simp

private theorem DdrLayout.contained_iff (layout : DdrLayout sizes memory) :
    memory.Contained ↔ extent 16 (sizes.map bytes) ≤ plannedBufferDdrPoolSize.toNat := by
  rw [PlannedMemory.Contained, layout.forall_blocks]
  rw [← Nat.add_le_add_iff_left (n := plannedBufferDdrPool.toNat),
    ← place_within_iff (by decide) (by decide) (Nat.le_add_right ..)]
  constructor
  · exact fun inside block member => (inside block member).2
  · exact fun inside block member =>
      ⟨((place_stacked (by decide)).within member).1, inside block member⟩

/-- For sizes that take the DDR branch and pass its check, every buffer lies in
the pool exactly when the padded extent of the sizes fits. -/
theorem ddr_contained_iff (pool : MethodPool) (sizes : List Int64)
    (nonneg : ∀ size ∈ sizes, 0 ≤ size)
    (large : pool.methodAllocationPoolSize.toNat / 2 < exactTotal sizes)
    (small : exactTotal sizes ≤ plannedBufferDdrPoolSize.toNat) :
    (∃ memory, runnerInitPlannedBuffers pool sizes = .ok memory ∧ memory.Contained) ↔
      extent 16 (sizes.map bytes) ≤ plannedBufferDdrPoolSize.toNat := by
  obtain ⟨memory, success, layout⟩ := runnerInitPlannedBuffers_ddr nonneg large small
  rw [← layout.contained_iff]
  constructor
  · rintro ⟨other, otherSuccess, contained⟩
    rw [success] at otherSuccess
    cases otherSuccess
    exact contained
  · exact fun contained => ⟨memory, success, contained⟩

/-- Two odd-sized buffers of a medium model stay inside. -/
theorem ddr_contained_medium :
    ∃ memory, runnerInitPlannedBuffers cmakeMethodPool [770001, 5] = .ok memory ∧
      memory.Contained :=
  (ddr_contained_iff cmakeMethodPool [770001, 5] (by simp) (by decide) (by decide)).mpr (by decide)

/-- One byte in front pushes the last buffer 15 bytes past the end of the pool. -/
theorem ddr_overruns :
    ¬ ∀ (pool : MethodPool) (sizes : List Int64), (∀ size ∈ sizes, 0 ≤ size) →
      pool.methodAllocationPoolSize.toNat / 2 < exactTotal sizes →
      exactTotal sizes ≤ plannedBufferDdrPoolSize.toNat →
      ∃ memory, runnerInitPlannedBuffers pool sizes = .ok memory ∧ memory.Contained := by
  intro claim
  obtain ⟨memory, success, contained⟩ :=
    claim cmakeMethodPool [1, 0x1FFFFFF] (by simp) (by decide) (by decide)
  have spans : (runnerInitPlannedBuffers cmakeMethodPool [1, 0x1FFFFFF]).map
      PlannedMemory.plannedSpans = .ok [⟨0xA8200000, 1⟩, ⟨0xA8200010, 0x1FFFFFF⟩] := by decide
  rw [success] at spans
  have second := contained ⟨0xA8200010, 0x1FFFFFF⟩ (by rw [Except.ok.inj spans]; simp)
  exact absurd second.2 (by decide)

end RunnerCm33
