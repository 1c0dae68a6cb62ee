import RunnerCm33.Planned.DtcmLayout

/-! Whether the setup decides on the sizes the model reported. The cast to
`size_t` and the 32-bit sum agree with the reported sizes exactly while their
total is a 32-bit number; beyond that only the later capacity checks, made on
truncated values, can still stop the setup. -/

namespace RunnerCm33

open RunnerCm33.Align RunnerCm33.Blocks RunnerCm33.Placement

/-- The capacity check of the selected pool fails, stated on the truncated
sizes: their wrapped sum selects the branch, then the sum itself or the padded
extent is compared with the pool. -/
def Rejected (pool : MethodPool) (sizes : List Int64) : Prop :=
  if pool.methodAllocationPoolSize.toNat / 2 < (truncated sizes).sum % 2 ^ 32 then
    plannedBufferDdrPoolSize.toNat < (truncated sizes).sum % 2 ^ 32
  else pool.methodAllocationPoolSize.toNat < extent 16 (truncated sizes)

instance (pool : MethodPool) (sizes : List Int64) : Decidable (Rejected pool sizes) :=
  inferInstanceAs (Decidable (ite _ _ _))

/-- The decision was taken on the reported total, and every span is as long as
the size reported for its id. -/
structure PlannedMemory.Honest (sizes : List Int64) (memory : PlannedMemory) : Prop where
  total : memory.totalPlannedSize.toNat = exactTotal sizes
  spans : List.Forall₂ (fun size span => bytes size ≤ span.size.toNat) sizes memory.plannedSpans

/-- Whatever setup gets past the checks was decided on the reported sizes. -/
def DecidesOnSizes (pool : MethodPool) (sizes : List Int64) : Prop :=
  ∀ memory, runnerInitPlannedBuffers pool sizes = .ok memory → memory.Honest sizes

variable {pool : MethodPool} {sizes : List Int64} {placing : Placing} {bufferSize : UInt32}
  {memory : PlannedMemory} {useDdrPlanned : Bool}

private theorem placeBuffer_lengths {placed : Placing}
    (success : placeBuffer useDdrPlanned placing bufferSize = .ok placed) :
    placed.plannedSpans.map Span.size = placing.plannedSpans.map Span.size ++ [bufferSize] := by
  unfold placeBuffer at success
  split at success
  · cases success
    simp
  · dsimp only at success
    split at success
    · cases success
    · cases success
      simp

/-- In either branch there is one span per id, in order, of the truncated size. -/
theorem placeBuffers_lengths {placed : Placing}
    (success : placeBuffers useDdrPlanned placing sizes = .ok placed) :
    placed.plannedSpans.map Span.size =
      placing.plannedSpans.map Span.size ++ sizes.map toSizeT := by
  induction sizes generalizing placing with
  | nil =>
    cases success
    simp
  | cons size rest ih =>
    cases first : placeBuffer useDdrPlanned placing (toSizeT size) with
    | error abort => simp [placeBuffers, first, bind, Except.bind] at success
    | ok next =>
      have remaining : placeBuffers useDdrPlanned next rest = .ok placed := by
        simpa [placeBuffers, first, bind, Except.bind] using success
      rw [ih remaining, placeBuffer_lengths first]
      simp

private theorem placeBuffers_ddr_ok (placing : Placing) (sizes : List Int64) :
    ∃ placed, placeBuffers true placing sizes = .ok placed := by
  induction sizes generalizing placing with
  | nil => exact ⟨placing, rfl⟩
  | cons size rest ih => exact ih _

theorem branch_iff :
    totalPlannedSize sizes > pool.methodAllocationPoolSize / 2 ↔
      pool.methodAllocationPoolSize.toNat / 2 < (truncated sizes).sum % 2 ^ 32 := by
  rw [gt_iff_lt, UInt32.lt_iff_toNat_lt, totalPlannedSize_toNat, UInt32.toNat_div]
  rfl

private theorem total_le_iff :
    totalPlannedSize sizes ≤ plannedBufferDdrPoolSize ↔
      ¬ plannedBufferDdrPoolSize.toNat < (truncated sizes).sum % 2 ^ 32 := by
  rw [UInt32.le_iff_toNat_le, totalPlannedSize_toNat, Nat.not_lt]

/-- The DTCM loop over a fresh method allocator succeeds exactly when the padded
extent fits the pool. -/
theorem placeBuffers_fresh_iff :
    (∃ placed, placeBuffers false (.init pool.methodAllocator) sizes = .ok placed) ↔
      extent 16 (truncated sizes) ≤ pool.methodAllocationPoolSize.toNat := by
  have limit : (pool.methodAllocationPool + pool.methodAllocationPoolSize).toNat =
      pool.methodAllocationPool.toNat + pool.methodAllocationPoolSize.toNat := by
    rw [UInt32.toNat_add, Nat.mod_eq_of_lt pool.addressable]
  rw [← Nat.add_le_add_iff_left (n := pool.methodAllocationPool.toNat), ← limit,
    ← place_within_iff (by decide) pool.aligned (by omega)]
  constructor
  · intro ⟨placed, success⟩
    by_contra outside
    obtain ⟨abort, failed⟩ := placeBuffers_dtcm_error
      (.init pool.methodAllocator) sizes pool.nonnull outside
    rw [success] at failed
    cases failed
  · intro inside
    obtain ⟨allocator, spans, success, _⟩ := placeBuffers_dtcm
      (.init pool.methodAllocator) sizes pool.nonnull inside
    exact ⟨_, success⟩

/-- The setup gets past all of its checks exactly when it is not rejected. -/
theorem runnerInitPlannedBuffers_ok_iff :
    (∃ memory, runnerInitPlannedBuffers pool sizes = .ok memory) ↔ ¬ Rejected pool sizes := by
  rw [Rejected]
  by_cases branch : totalPlannedSize sizes > pool.methodAllocationPoolSize / 2
  · rw [if_pos (branch_iff.mp branch), ← total_le_iff]
    by_cases within : totalPlannedSize sizes ≤ plannedBufferDdrPoolSize
    · obtain ⟨placed, success⟩ := placeBuffers_ddr_ok (.init pool.methodAllocator) sizes
      simp [runnerInitPlannedBuffers, branch, within, success, bind, Except.bind, pure, Except.pure]
    · simp [runnerInitPlannedBuffers, branch, within, bind, Except.bind, throw, throwThe,
        MonadExceptOf.throw]
  · rw [if_neg (mt branch_iff.mpr branch), Nat.not_lt, ← placeBuffers_fresh_iff]
    cases result : placeBuffers false (.init pool.methodAllocator) sizes <;>
      simp [runnerInitPlannedBuffers, branch, result, bind, Except.bind, pure, Except.pure]

/-- A successful setup ran its loop to the end, in the branch its total selects. -/
theorem runnerInitPlannedBuffers_placed
    (success : runnerInitPlannedBuffers pool sizes = .ok memory) :
    ∃ placing, placeBuffers (decide (totalPlannedSize sizes > pool.methodAllocationPoolSize / 2))
        (.init pool.methodAllocator) sizes = .ok placing ∧
      memory = {
        totalPlannedSize := totalPlannedSize sizes
        useDdrPlanned := decide (totalPlannedSize sizes > pool.methodAllocationPoolSize / 2)
        plannedSpans := placing.plannedSpans
        plannedBufferMemsize :=
          if decide (totalPlannedSize sizes > pool.methodAllocationPoolSize / 2) then
            placing.ddrPlannedOffset
          else placing.methodAllocator.usedSize - pool.methodAllocator.usedSize
        methodAllocator := placing.methodAllocator } := by
  simp only [runnerInitPlannedBuffers, bind, Except.bind, pure, Except.pure, throw, throwThe,
    MonadExceptOf.throw] at success
  split at success
  · cases success
  · cases placed : placeBuffers (decide (totalPlannedSize sizes >
        pool.methodAllocationPoolSize / 2)) (.init pool.methodAllocator) sizes with
    | error abort => simp [placed] at success
    | ok placing =>
      simp only [placed] at success
      cases success
      exact ⟨placing, rfl, rfl⟩

theorem runnerInitPlannedBuffers_records
    (success : runnerInitPlannedBuffers pool sizes = .ok memory) :
    memory.totalPlannedSize = totalPlannedSize sizes ∧
      memory.useDdrPlanned =
        decide (totalPlannedSize sizes > pool.methodAllocationPoolSize / 2) ∧
      memory.plannedSpans.map Span.size = sizes.map toSizeT := by
  obtain ⟨placing, placed, rfl⟩ := runnerInitPlannedBuffers_placed success
  exact ⟨rfl, rfl, by simpa using placeBuffers_lengths placed⟩

private theorem honest_of_small (nonneg : ∀ size ∈ sizes, 0 ≤ size) (small : exactTotal sizes < 2 ^ 32)
    (success : runnerInitPlannedBuffers pool sizes = .ok memory) : memory.Honest sizes := by
  obtain ⟨total, _, lengths⟩ := runnerInitPlannedBuffers_records success
  refine ⟨by rw [total, totalPlannedSize_eq nonneg small], ?_⟩
  have aligned : List.Forall₂ (fun size length => bytes size ≤ length.toNat) sizes
      (memory.plannedSpans.map Span.size) := by
    rw [lengths, List.forall₂_map_right_iff, List.forall₂_same]
    intro size member
    rw [toSizeT_toNat (nonneg size member), Nat.mod_eq_of_lt]
    exact Nat.lt_of_le_of_lt (bytes_le_exactTotal member) small
  rwa [List.forall₂_map_right_iff] at aligned

/-- For non-negative reported sizes the setup decides on them exactly when their
sum is a 32-bit number or the checks reject the truncated ones. -/
theorem planned_decision_iff (pool : MethodPool) (sizes : List Int64)
    (nonneg : ∀ size ∈ sizes, 0 ≤ size) :
    DecidesOnSizes pool sizes ↔ exactTotal sizes < 2 ^ 32 ∨ Rejected pool sizes := by
  constructor
  · intro honest
    by_contra neither
    obtain ⟨large, accepted⟩ := not_or.mp neither
    obtain ⟨memory, success⟩ := runnerInitPlannedBuffers_ok_iff.mpr accepted
    have total := (honest memory success).total
    have word := memory.totalPlannedSize.toNat_lt
    omega
  · intro condition memory success
    rcases condition with small | rejected
    · exact honest_of_small nonneg small success
    · exact absurd rejected (runnerInitPlannedBuffers_ok_iff.mp ⟨memory, success⟩)

/-- Two 2 GiB buffers wrap to a total of 16 bytes; only the DTCM allocator, which
refuses the first of them, keeps the setup from going on. -/
theorem planned_decision_rejected :
    DecidesOnSizes cmakeMethodPool [0x80000000, 0x80000010] :=
  (planned_decision_iff cmakeMethodPool [0x80000000, 0x80000010] (by simp)).mpr (by decide)

/-- A single 4 GiB buffer truncates to an empty one, which the DTCM branch
places. -/
theorem planned_decision_wraps :
    ¬ ∀ (pool : MethodPool) (sizes : List Int64), (∀ size ∈ sizes, 0 ≤ size) →
      DecidesOnSizes pool sizes := by
  intro claim
  have spans : runnerInitPlannedBuffers cmakeMethodPool [0x100000000] = .ok {
      totalPlannedSize := 0
      useDdrPlanned := false
      plannedSpans := [⟨0x20004000, 0⟩]
      plannedBufferMemsize := 0
      methodAllocator := ArmMemoryAllocator.new 0x6000 0x20004000 } := by decide
  have honest := claim cmakeMethodPool [0x100000000] (by simp) _ spans
  exact absurd honest.total (by decide)

end RunnerCm33
