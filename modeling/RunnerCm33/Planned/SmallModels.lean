import RunnerCm33.Planned.Decision

/-! Small models in the DTCM pool: the branch is chosen on half the pool's size, the
allocator spends the padded extent. -/

namespace RunnerCm33

open RunnerCm33.Align RunnerCm33.Placement

variable {pool : MethodPool} {sizes : List Int64} {memory : PlannedMemory}

/-- The setup takes the DTCM branch, and every request of its loop is granted. -/
def PlacedInDtcm (pool : MethodPool) (sizes : List Int64) : Prop :=
  ∃ memory, runnerInitPlannedBuffers pool sizes = .ok memory ∧ memory.useDdrPlanned = false

/-- A total within half the pool is a 32-bit number and selects the DTCM branch. -/
theorem small_selects_dtcm (nonneg : ∀ size ∈ sizes, 0 ≤ size)
    (small : exactTotal sizes ≤ pool.methodAllocationPoolSize.toNat / 2) :
    exactTotal sizes < 2 ^ 32 ∧ ¬ totalPlannedSize sizes > pool.methodAllocationPoolSize / 2 := by
  have word : exactTotal sizes < 2 ^ 32 := by
    have bound := pool.methodAllocationPoolSize.toNat_lt
    omega
  refine ⟨word, ?_⟩
  rw [useDdrPlanned_iff pool nonneg word]
  exact Nat.not_lt.mpr small

private theorem small_accepted_iff (nonneg : ∀ size ∈ sizes, 0 ≤ size)
    (small : exactTotal sizes ≤ pool.methodAllocationPoolSize.toNat / 2) :
    (∃ memory, runnerInitPlannedBuffers pool sizes = .ok memory) ↔
      extent 16 (sizes.map bytes) ≤ pool.methodAllocationPoolSize.toNat := by
  obtain ⟨word, branch⟩ := small_selects_dtcm nonneg small
  rw [runnerInitPlannedBuffers_ok_iff, Rejected, if_neg (mt branch_iff.mpr branch),
    truncated_eq nonneg word, Nat.not_lt]

/-- A model with at most half the pool's bytes is placed in it exactly when its padded
extent fits. -/
theorem small_models_fit_iff (pool : MethodPool) (sizes : List Int64)
    (nonneg : ∀ size ∈ sizes, 0 ≤ size)
    (small : exactTotal sizes ≤ pool.methodAllocationPoolSize.toNat / 2) :
    PlacedInDtcm pool sizes ↔
      extent 16 (sizes.map bytes) ≤ pool.methodAllocationPoolSize.toNat := by
  rw [← small_accepted_iff nonneg small]
  constructor
  · exact fun ⟨memory, success, _⟩ => ⟨memory, success⟩
  · intro ⟨memory, success⟩
    obtain ⟨_, branch⟩ := small_selects_dtcm nonneg small
    obtain ⟨_, selected, _⟩ := runnerInitPlannedBuffers_records success
    exact ⟨memory, success, by rw [selected, decide_eq_false branch]⟩

/-- Two odd-sized buffers just below half the pool. -/
theorem small_models_fit_two : PlacedInDtcm cmakeMethodPool [5001, 7000] :=
  (small_models_fit_iff cmakeMethodPool [5001, 7000] (by simp) (by decide)).mpr (by decide)

/-- 1537 one-byte buffers take sixteen bytes each but for the last. -/
theorem small_models_abort :
    ¬ ∀ (pool : MethodPool) (sizes : List Int64), (∀ size ∈ sizes, 0 ≤ size) →
      exactTotal sizes ≤ pool.methodAllocationPoolSize.toNat / 2 → PlacedInDtcm pool sizes := by
  intro claim
  have mapped : (List.replicate (1536 + 1) 1).map bytes = List.replicate (1536 + 1) 1 := by
    rw [List.map_replicate]
    rfl
  have nonneg : ∀ size ∈ List.replicate (1536 + 1) (1 : Int64), 0 ≤ size := by
    intro size member
    rw [List.eq_of_mem_replicate member]
    decide
  have small : exactTotal (List.replicate (1536 + 1) 1) ≤
      cmakeMethodPool.methodAllocationPoolSize.toNat / 2 := by
    rw [exactTotal, mapped, List.sum_replicate]
    decide
  obtain ⟨memory, success, _⟩ := claim cmakeMethodPool _ nonneg small
  have fits := (small_accepted_iff nonneg small).mp ⟨memory, success⟩
  rw [mapped, extent_replicate] at fits
  exact absurd fits (by decide)

end RunnerCm33
