import RunnerCm33.Runner.Results
import Mathlib.Data.UInt

/-! The memory over a whole run of the program: what lies where from the planned buffers to
the last inference, and the figures that `log_mem_status` gives for it in the end. -/

namespace RunnerCm33

open RunnerCm33.Runs

/-- What the program and the library in it ask of the memory, in order. -/
def memoryUses (firmware : Firmware) (library : Library) (method : Method) : List MemoryUse :=
  library.loadMethod.uses ++
    [.method (.allocate (method.numInputs * 4) MemoryAllocator.kDefaultAlignment)] ++
    inferenceUses library.execute 0 firmware.numInferences

/-- The sizes of the planned buffers, as the model tells them. -/
def Library.Reports (library : Library) (sizes : List Int64) : Prop :=
  ∃ program methodMeta, library.load.answer = .ok program ∧ program.methodMeta.answer = .ok methodMeta ∧
    methodMeta.memoryPlannedBufferSizes.map Call.answer = sizes.map .ok

structure Library.Moderate (library : Library) : Prop where
  loadMethod : ∀ use ∈ library.loadMethod.uses, use.Moderate
  execute : ∀ n, ∀ use ∈ (library.execute n).uses, use.Moderate

variable {firmware : Firmware} {library : Library} {ctx : Initialised} {method : Method} {manager : MemoryManager}
  {sizes : List Int64} {modelOk : Bool}

private theorem inferenceUses_moderate {execute : ℕ → MemoryCall Error} {n turns : ℕ}
    (moderate : ∀ n, ∀ use ∈ (execute n).uses, use.Moderate) :
    ∀ use ∈ inferenceUses execute n turns, use.Moderate := by
  induction turns generalizing n with
  | zero => nofun
  | succ turns ih =>
    intro use member
    rw [inferenceUses, List.mem_append] at member
    rcases member with inside | behind
    · exact moderate n use inside
    · split at behind
      · cases behind
      · rcases List.mem_cons.mp behind with rfl | later
        · trivial
        · exact ih use later

private theorem memoryUses_moderate (moderate : library.Moderate) :
    ∀ use ∈ memoryUses firmware library method, use.Moderate := by
  intro use member
  rcases List.mem_append.mp member with early | late
  · rcases List.mem_append.mp early with loading | array
    · exact moderate.loadMethod use loading
    · obtain rfl := List.mem_singleton.mp array
      exact show (4 : ℕ) ≤ 2 ^ 30 by decide
  · exact inferenceUses_moderate moderate.execute use late

/-- The sizes that the model tells are those the buffers were set up for. -/
theorem placed_of_reached (reports : library.Reports sizes)
    (reached : (runnerInit firmware library).result = .ok ctx) :
    runnerInitPlannedBuffers firmware.pool sizes = .ok ctx.planned := by
  obtain ⟨program, methodMeta, others, method, init⟩ := runnerInit_result.mp reached
  obtain ⟨told, described, loaded, meta_, sized⟩ := reports
  obtain rfl := Except.ok.inj (init.loaded.symm.trans loaded)
  obtain rfl := Except.ok.inj (init.described.symm.trans meta_)
  have same : others = sizes :=
    List.map_injective_iff.mpr (fun _ _ => Except.ok.inj) (init.sized.symm.trans sized)
  rw [← same]
  exact init.placed

private theorem manager_of_ran (loaded : library.loadMethod.answer = .ok method)
    (reached : (runnerInit firmware library).result = .ok ctx)
    (ran : (runModelRoutine firmware library ctx).result = .ok (modelOk, manager)) :
    manager = run MemoryManager.step (.new ctx.planned) (memoryUses firmware library method) := by
  obtain ⟨program, methodMeta, others, other, init⟩ := runnerInit_result.mp reached
  obtain rfl := Except.ok.inj (init.methodLoaded.symm.trans loaded)
  obtain ⟨-, -, -, same⟩ := runModelRoutine_result.mp ran
  rw [same, memoryUses, run_append, run_append, ← init.manager]
  rfl

/-- The small model, with a planned buffer that goes to the DDR pool. -/
def largeLibrary : Library :=
  { smallLibrary with load := ⟨[], .ok ⟨1, ⟨[], .ok (ascii "forward")⟩, ⟨[], .ok ⟨[⟨[], .ok 770001⟩]⟩⟩⟩⟩ }

def largePlanned : PlannedMemory where
  totalPlannedSize := 770001
  useDdrPlanned := true
  plannedSpans := [⟨0xA8200000, 770001⟩]
  plannedBufferMemsize := 770001
  methodAllocator := cmakeMethodPool.methodAllocator

def largeInitialised : Initialised where
  methodName := ascii "forward"
  planned := largePlanned
  methodLoadedMemsize := 36
  inputMemsize := 4
  executorMembase := 40
  manager := run MemoryManager.step (.new largePlanned)
    [.method (.allocateList 3 12 4), .planned 0 0 4, .method (.allocate 4 4)]

/-- Before the method is loaded, the method pool holds the planned buffers and nothing
else; with the DDR pool in use it is empty. -/
theorem usedSize_planned {pool : MethodPool} {planned : PlannedMemory}
    (placed : runnerInitPlannedBuffers pool sizes = .ok planned) :
    (MemoryManager.new planned).usedSize =
      if planned.useDdrPlanned then 0 else planned.plannedBufferMemsize := by
  obtain ⟨placing, success, rfl⟩ := runnerInitPlannedBuffers_placed placed
  have fresh : pool.methodAllocator.usedSize = 0 := rfl
  by_cases useDdr : totalPlannedSize sizes > pool.methodAllocationPoolSize / 2
  · simp only [useDdr, decide_true, if_true] at success ⊢
    have kept := placeBuffers_ddr_methodAllocator success
    exact congrArg ArmMemoryAllocator.usedSize kept
  · simp only [useDdr, decide_false, Bool.false_eq_true, if_false, fresh, UInt32.sub_zero]
    rfl

/-- Whatever the inferences do with the memory after `runner_init`: in the report about it
the four parts of the method pool add up to the bytes in use in front of them, where the
planned buffers are in the pool. Where they are in the DDR pool, the first part is not one
of the method pool, and the parts exceed the bytes in use by it. -/
theorem figures_add_up (firmware : Firmware) (library : Library) (ctx : Initialised)
    (manager : MemoryManager) (usage : LogLine) (parts : List LogLine)
    (reached : (runnerInit firmware library).result = .ok ctx)
    (lines : methodLines (ctx.context manager) = usage :: parts) :
    ∃ used, usage.arguments.head? = some used ∧ (parts.flatMap LogLine.arguments).sum =
      used + if ctx.planned.useDdrPlanned then ctx.planned.plannedBufferMemsize else 0 := by
  obtain ⟨program, methodMeta, sizes, method, init⟩ := runnerInit_result.mp reached
  have planned := usedSize_planned init.placed
  have loading := init.methodLoadedMemsize
  have input := init.inputMemsize
  have executor := init.executorMembase
  unfold methodLines at lines
  split at lines
  · obtain ⟨rfl, rfl⟩ := List.cons.inj lines
    refine ⟨manager.methodAllocator.allocator.usedSize, rfl, ?_⟩
    simp only [Initialised.context, List.flatMap_cons, List.flatMap_nil, List.cons_append, List.nil_append,
      List.sum_cons, List.sum_nil, loading, input, executor, planned,
      UInt32.add_zero]
    generalize manager.methodAllocator.allocator.usedSize = last, ctx.manager.usedSize = prepared,
      (loadedManager library ctx.planned).usedSize = loaded, ctx.planned.plannedBufferMemsize = first
    split
    · grind
    · grind
  · cases lines

/-- Its 770001 bytes are not among the 40 in use. -/
theorem figures_add_up_large : ∃ used, ([40, 0x6000, 24536, 0] : List UInt32).head? = some used ∧
    ([770001, 36, 4, 0] : List UInt32).sum = used + 770001 :=
  figures_add_up blankFirmware largeLibrary largeInitialised largeInitialised.manager
    (usageLine methodAllocatorFormat largeInitialised.manager.methodAllocator.allocator)
    [⟨"method_allocator_planned:  %lu bytes", [770001]⟩, ⟨"method_allocator_loaded:   %lu bytes", [36]⟩,
      ⟨"method_allocator_input:    %lu bytes", [4]⟩, ⟨"method_allocator_executor: %lu bytes", [0]⟩] rfl rfl

end RunnerCm33
