import RunnerCm33.Allocator.Scratch
import RunnerCm33.Runtime.Values

/-! The inference loop of `run_model`: execute, stop at the first failure, and
construct the scratch allocator anew after every success. -/

namespace RunnerCm33

open RunnerCm33.Runs

/-- `Box<T>`: storage in which one value is constructed in place. -/
structure Box (T : Type) where
  mem : T
  hasValue : Bool
deriving DecidableEq, Repr

namespace Box

/-- Destroys the contained value, if any, and constructs the new one. Pointers to
the storage, such as the memory manager's, see the new value. -/
def reset (_ : Box T) (value : T) : Box T := ⟨value, true⟩

def value (box : Box T) : T := box.mem

end Box

/-- One call of `execute()`: the scratch requests made in it and what it returns. -/
structure Execution where
  requests : List ArmMemoryAllocator.Request
  status : Error
deriving DecidableEq, Repr

/-- A call that was made: its inference number and what its requests saw. -/
structure Executed where
  inference : ℕ
  seen : List Observation
deriving DecidableEq, Repr

/-- The variables of `run_model` after its loop; `status` starts uninitialised. -/
structure Inferences where
  executed : List Executed
  n : ℕ
  status : Option Error
  tempAllocator : Box ArmMemoryAllocator
deriving DecidableEq, Repr

/-- `ctx.temp_allocator.reset(temp_allocation_pool_size, temp_allocation_pool)`. -/
def freshTempAllocator : ArmMemoryAllocator := .new tempAllocationPoolSize tempAllocationPool

/-- The loop from inference `n` with so many turns to go. -/
def runInferences (execute : ℕ → Execution) (status : Option Error)
    (tempAllocator : Box ArmMemoryAllocator) (n : ℕ) : ℕ → Inferences
  | 0 => ⟨[], n, status, tempAllocator⟩
  | turns + 1 =>
    let execution := execute n
    let executed : Executed := ⟨n, tempAllocator.value.observations execution.requests⟩
    let tempAllocator := { tempAllocator with
      mem := run ArmMemoryAllocator.step tempAllocator.value execution.requests }
    if execution.status ≠ .ok then
      -- the break leaves the allocator as the failed inference left it
      ⟨[executed], n, some execution.status, tempAllocator⟩
    else
      let rest := runInferences execute (some execution.status)
        (tempAllocator.reset freshTempAllocator) (n + 1) turns
      { rest with executed := executed :: rest.executed }

/-- How `run_model` goes on: the status check aborts, `print_outputs` aborts where
`get_outputs` fails, or the outputs are printed and verified. Without any inference the
check reads an uninitialised status. -/
inductive RunModelEnd where
  | uninitialised
  | executionFailed (status : Error)
  | getOutputsFailed (status : Error)
  | outputsVerified
deriving DecidableEq, Repr

/-- `ET_CHECK_MSG(status == Error::Ok, ..)` and what comes after it; `getOutputs` is what
`get_outputs` returns to `print_outputs`. -/
def RunModelEnd.ofStatus (getOutputs : Error) : Option Error → RunModelEnd
  | none => .uninitialised
  | some .ok => if getOutputs = .ok then .outputsVerified else .getOutputsFailed getOutputs
  | some status => .executionFailed status

/-- The status check is passed and `print_outputs` entered. -/
def RunModelEnd.PrintsOutputs : RunModelEnd → Prop
  | .getOutputsFailed _ | .outputsVerified => True
  | .uninitialised | .executionFailed _ => False

structure RunModel extends Inferences where
  finish : RunModelEnd
deriving DecidableEq, Repr

def runModel (execute : ℕ → Execution) (numInferences : ℕ) (getOutputs : Error)
    (tempAllocator : Box ArmMemoryAllocator) : RunModel :=
  let inferences := runInferences execute none tempAllocator 0 numInferences
  { inferences with finish := .ofStatus getOutputs inferences.status }

/-- All calls from inference `n` up to `stop` return `Ok`. -/
def Succeed (execute : ℕ → Execution) (n stop : ℕ) : Prop :=
  ∀ i, n ≤ i → i < stop → (execute i).status = .ok

/-- What is asked of `run_model`: later inferences see a fresh allocator, inference
`i` is executed once and in order exactly when all before it returned `Ok`, and
`print_outputs` is entered exactly when all returned `Ok`. From there the outputs are
printed and verified exactly when `get_outputs` returns `Ok` as well. -/
structure RunModel.Isolated (execute : ℕ → Execution) (numInferences : ℕ) (getOutputs : Error)
    (result : RunModel) : Prop where
  fresh : ∀ executed ∈ result.executed, 0 < executed.inference →
    executed.seen = freshTempAllocator.observations (execute executed.inference).requests
  ordered : (result.executed.map Executed.inference).Pairwise (· < ·)
  called : ∀ i, i ∈ result.executed.map Executed.inference ↔
    i < numInferences ∧ Succeed execute 0 i
  entered : result.finish.PrintsOutputs ↔ Succeed execute 0 numInferences
  finished : result.finish = .outputsVerified ↔ Succeed execute 0 numInferences ∧ getOutputs = .ok

variable {execute : ℕ → Execution} {status : Option Error} {tempAllocator : Box ArmMemoryAllocator}
  {n turns i : ℕ}

@[simp] theorem runInferences_zero :
    runInferences execute status tempAllocator n 0 = ⟨[], n, status, tempAllocator⟩ := rfl

private theorem runInferences_failed (failed : (execute n).status ≠ .ok) :
    runInferences execute status tempAllocator n (turns + 1) =
      ⟨[⟨n, tempAllocator.value.observations (execute n).requests⟩], n, some (execute n).status,
        { tempAllocator with
          mem := run ArmMemoryAllocator.step tempAllocator.value (execute n).requests }⟩ := by
  simp [runInferences, failed]

/-- A successful call goes on with a fresh allocator, whatever it allocated. -/
theorem runInferences_ok (success : (execute n).status = .ok) :
    runInferences execute status tempAllocator n (turns + 1) =
      let rest := runInferences execute (some .ok) ⟨freshTempAllocator, true⟩ (n + 1) turns
      { rest with
        executed := ⟨n, tempAllocator.value.observations (execute n).requests⟩ :: rest.executed } := by
  simp [runInferences, success, Box.reset]

private theorem succeed_iff {stop : ℕ} (below : n < stop) :
    Succeed execute n stop ↔ (execute n).status = .ok ∧ Succeed execute (n + 1) stop := by
  constructor
  · exact fun all => ⟨all n (Nat.le_refl _) below, fun i low high => all i (by omega) high⟩
  · intro ⟨first, later⟩ i low high
    rcases Nat.eq_or_lt_of_le low with rfl | after
    · exact first
    · exact later i after high

private theorem succeed_self : Succeed execute n n := fun _ low high => absurd high (Nat.not_lt.mpr low)

/-- An inference is executed exactly when the loop reaches it and all before it succeed. -/
theorem mem_executed_iff :
    i ∈ (runInferences execute status tempAllocator n turns).executed.map Executed.inference ↔
      n ≤ i ∧ i < n + turns ∧ Succeed execute n i := by
  induction turns generalizing n status tempAllocator with
  | zero =>
    simp
    omega
  | succ turns ih =>
    by_cases success : (execute n).status = .ok
    · simp only [runInferences_ok success, List.map_cons, List.mem_cons, ih]
      constructor
      · rintro (rfl | ⟨later, within, before⟩)
        · exact ⟨Nat.le_refl _, by omega, succeed_self⟩
        · exact ⟨by omega, by omega, (succeed_iff later).mpr ⟨success, before⟩⟩
      · intro ⟨low, within, before⟩
        rcases Nat.eq_or_lt_of_le low with same | later
        · exact .inl same.symm
        · exact .inr ⟨later, by omega, ((succeed_iff later).mp before).2⟩
    · simp only [runInferences_failed success, List.map_cons, List.map_nil, List.mem_singleton]
      constructor
      · rintro rfl
        exact ⟨Nat.le_refl _, by omega, succeed_self⟩
      · intro ⟨low, _, before⟩
        rcases Nat.eq_or_lt_of_le low with same | later
        · exact same.symm
        · exact absurd ((succeed_iff later).mp before).1 success

private theorem executed_ordered :
    ((runInferences execute status tempAllocator n turns).executed.map
      Executed.inference).Pairwise (· < ·) := by
  induction turns generalizing n status tempAllocator with
  | zero => exact .nil
  | succ turns ih =>
    by_cases success : (execute n).status = .ok
    · rw [runInferences_ok success, List.map_cons]
      refine .cons ?_ ih
      intro later member
      exact (mem_executed_iff.mp member).1
    · rw [runInferences_failed success]
      exact List.pairwise_singleton ..

private theorem executed_fresh {executed : Executed}
    (member : executed ∈ (runInferences execute status ⟨freshTempAllocator, true⟩ n turns).executed) :
    executed.seen = freshTempAllocator.observations (execute executed.inference).requests := by
  induction turns generalizing n status with
  | zero => simp at member
  | succ turns ih =>
    by_cases success : (execute n).status = .ok
    · rw [runInferences_ok success] at member
      rcases List.mem_cons.mp member with rfl | later
      · rfl
      · exact ih later
    · rw [runInferences_failed success] at member
      obtain rfl := List.mem_singleton.mp member
      rfl

/-- The status read after the loop is `Ok` exactly when every call returned it;
without a call it is still the initial one. -/
theorem status_ok_iff :
    (runInferences execute status tempAllocator n turns).status = some .ok ↔
      (turns = 0 → status = some .ok) ∧ Succeed execute n (n + turns) := by
  induction turns generalizing n status tempAllocator with
  | zero => simp [succeed_self]
  | succ turns ih =>
    have shift : n + (turns + 1) = n + 1 + turns := by omega
    rw [succeed_iff (Nat.lt_add_of_pos_right (Nat.succ_pos turns)), shift]
    by_cases success : (execute n).status = .ok
    · simp [runInferences_ok success, success, ih]
    · simp [runInferences_failed success, success]

private theorem printsOutputs_iff {getOutputs : Error} :
    (RunModelEnd.ofStatus getOutputs status).PrintsOutputs ↔ status = some .ok := by
  unfold RunModelEnd.ofStatus
  split
  · simp [RunModelEnd.PrintsOutputs]
  · split <;> simp [RunModelEnd.PrintsOutputs]
  · simp_all [RunModelEnd.PrintsOutputs]

theorem outputsVerified_iff {getOutputs : Error} :
    RunModelEnd.ofStatus getOutputs status = .outputsVerified ↔ status = some .ok ∧ getOutputs = .ok := by
  unfold RunModelEnd.ofStatus
  split
  · simp
  · split <;> simp_all
  · simp_all

/-- The isolation of inferences in `run_model`, for every sequence of requests and
outcomes, every answer of `get_outputs`, and whatever the allocator held before the first
inference. -/
theorem runModel_isolated (execute : ℕ → Execution) (numInferences : ℕ) (getOutputs : Error)
    (tempAllocator : Box ArmMemoryAllocator) (positive : 1 ≤ numInferences) :
    (runModel execute numInferences getOutputs tempAllocator).Isolated execute numInferences getOutputs := by
  obtain ⟨turns, rfl⟩ := Nat.exists_eq_add_of_le' positive
  have status := @status_ok_iff execute none tempAllocator 0 (turns + 1)
  refine ⟨?_, executed_ordered, fun i => ?_, ?_, ?_⟩
  · intro executed member later
    by_cases success : (execute 0).status = .ok
    · simp only [runModel, runInferences_ok success] at member
      rcases List.mem_cons.mp member with rfl | rest
      · exact absurd later (Nat.lt_irrefl 0)
      · exact executed_fresh rest
    · simp only [runModel, runInferences_failed success] at member
      obtain rfl := List.mem_singleton.mp member
      exact absurd later (Nat.lt_irrefl 0)
  · rw [runModel, mem_executed_iff]
    simp
  · rw [runModel, printsOutputs_iff, status]
    simp
  · rw [runModel, outputsVerified_iff, status]
    simp

/-- Two inferences, each with a request that no longer fits behind its first one. -/
theorem runModel_isolated_two :
    (runModel (fun _ => ⟨[.allocate 0x1FFFF0 16, .allocate 64 16], .ok⟩) 2 .ok
      ⟨.new 0x200000 0xA8000000, true⟩).Isolated
        (fun _ => ⟨[.allocate 0x1FFFF0 16, .allocate 64 16], .ok⟩) 2 .ok :=
  runModel_isolated _ 2 .ok _ (by decide)

end RunnerCm33
