import RunnerCm33.Allocator.Scratch
import RunnerCm33.Planned.Decision
import RunnerCm33.Planned.DdrContainment

/-! Scratch blocks and DDR planned buffers share no byte: scratch stays below
the planned pool's base, and the padded layout above it never wraps. -/

namespace RunnerCm33

open RunnerCm33.Blocks RunnerCm33.Placement RunnerCm33.Runs

variable {pool : MethodPool} {sizes : List Int64} {memory : PlannedMemory}

/-- A successful DDR setup has the layout of its sizes, whatever made the
32-bit total select that branch. -/
theorem ddrLayout_of_success (nonneg : ∀ size ∈ sizes, 0 ≤ size)
    (small : exactTotal sizes ≤ plannedBufferDdrPoolSize.toNat)
    (success : runnerInitPlannedBuffers pool sizes = .ok memory)
    (branch : memory.useDdrPlanned = true) : DdrLayout sizes memory := by
  have limit : plannedBufferDdrPoolSize.toNat = 0x2000000 := rfl
  have word : exactTotal sizes < 2 ^ 32 := by omega
  by_cases large : pool.methodAllocationPoolSize.toNat / 2 < exactTotal sizes
  · obtain ⟨other, otherSuccess, layout⟩ := runnerInitPlannedBuffers_ddr nonneg large small
    rw [success] at otherSuccess
    cases otherSuccess
    exact layout
  · have dtcm := mt (useDdrPlanned_iff pool nonneg word).mp large
    have other := (runnerInitPlannedBuffers_records success).2.1
    rw [branch] at other
    exact absurd (of_decide_eq_true other.symm) dtcm

theorem DdrLayout.above (layout : DdrLayout sizes memory) {span : Span}
    (member : span ∈ memory.plannedSpans) : plannedBufferDdrPool.toNat ≤ span.block.start :=
  layout.forall_blocks.mpr
    (fun _ placed => ((place_stacked (by decide)).within placed).1) span member

/-- In every run of scratch requests, resets and reconstructions, each block
handed out since the last reset is aligned as asked, lies in the scratch pool,
and shares no byte with the others or with any planned DDR buffer. -/
theorem scratch_separate (pool : MethodPool) (sizes : List Int64) (memory : PlannedMemory)
    (nonneg : ∀ size ∈ sizes, 0 ≤ size)
    (small : exactTotal sizes ≤ plannedBufferDdrPoolSize.toNat)
    (success : runnerInitPlannedBuffers pool sizes = .ok memory)
    (branch : memory.useDdrPlanned = true) (events : List Scratch.Event)
    (moderate : ∀ event ∈ events, event.Moderate) :
    let scratch := run Scratch.step Scratch.fresh events
    (∀ grant ∈ scratch.granted, grant.alignment.toNat ∣ grant.start.toNat ∧
      grant.block.Within 0xA8000000 0xA8200000 ∧
      ∀ span ∈ memory.plannedSpans, Disjoint grant.block.addresses span.block.addresses) ∧
    scratch.granted.Pairwise fun first second =>
      Disjoint first.block.addresses second.block.addresses := by
  intro scratch
  have valid : scratch.Valid := Scratch.run_valid moderate
  have layout := ddrLayout_of_success nonneg small success branch
  refine ⟨?_, valid.disjoint⟩
  intro grant member
  have within := valid.granted_within member
  refine ⟨valid.aligned grant member, within, ?_⟩
  intro span placed
  have above := layout.above placed
  exact Block.Apart.disjoint (.inl (within.2.trans above))

/-- Two kernels' scratch, a second inference, and an oversized planned layout
that passes the capacity check. -/
theorem scratch_separate_medium :
    let scratch := run Scratch.step Scratch.fresh
      [.allocate 100 16, .allocate 0x200000 4, .reconstruct, .allocate 7 64, .allocate 3 3]
    (∀ grant ∈ scratch.granted, grant.alignment.toNat ∣ grant.start.toNat ∧
      grant.block.Within 0xA8000000 0xA8200000 ∧
      ∀ span ∈ [⟨0xA8200000, 1⟩, ⟨0xA8200010, 0x1FFFFFF⟩],
        Disjoint grant.block.addresses (Span.block span).addresses) ∧
    scratch.granted.Pairwise fun first second =>
      Disjoint first.block.addresses second.block.addresses :=
  scratch_separate cmakeMethodPool [1, 0x1FFFFFF] {
    totalPlannedSize := 0x2000000
    useDdrPlanned := true
    plannedSpans := [⟨0xA8200000, 1⟩, ⟨0xA8200010, 0x1FFFFFF⟩]
    plannedBufferMemsize := 0x200000F
    methodAllocator := ArmMemoryAllocator.new 0x6000 0x20004000 }
    (by simp) (by decide) (by decide) rfl _ (by decide)

end RunnerCm33
