import RunnerCm33.Allocator.ArmMemoryAllocator

/-! `log_mem_status`, with the numbers it hands to `ET_LOG`. The percentage of a pool in
use is computed in 32 bits, and exact as long as the product does not wrap. -/

namespace RunnerCm33

/-- `ET_LOG(Info, ..)`: the format and the numbers for its conversions. -/
structure LogLine where
  format : String
  arguments : List UInt32
deriving DecidableEq, Repr

/-- `ctx.debug_buffer`, the bytes the sink has taken, and `ET_DEBUG_BUFFER_SIZE`. -/
structure OutputDump where
  debugBuffer : UInt32
  usedBytes : UInt32
  etDebugBufferSize : UInt32
deriving DecidableEq, Repr

/-- What `log_mem_status` reads. The input file allocator is there in builds with
`SEMIHOSTING`, the dump in builds that collect outputs. -/
structure RunnerContext where
  etModelPteAddr : Bool
  programDataLen : UInt32
  pteSize : UInt32
  plannedBufferMemsize : UInt32
  methodLoadedMemsize : UInt32
  inputMemsize : UInt32
  executorMembase : UInt32
  methodAllocator : ArmMemoryAllocator
  tempAllocator : ArmMemoryAllocator
  inputFileAllocator : Option ArmMemoryAllocator
  outputDump : Option OutputDump
deriving DecidableEq, Repr

/-- `100 * used / size`, in `size_t`. -/
def usedPercentage (used size : UInt32) : UInt32 := 100 * used / size

def usageLine (format : String) (allocator : ArmMemoryAllocator) : LogLine :=
  ⟨format, [allocator.usedSize, allocator.size_, allocator.freeSize,
    usedPercentage allocator.usedSize allocator.size_]⟩

def inputFileAllocatorFormat : String :=
  "input_file_allocator_used: %lu / %lu free: %lu ( used: %lu %% ) "

def methodAllocatorFormat : String :=
  "method_allocator_used:     %lu / %lu  free: %lu ( used: %lu %% ) "

def modelLines (ctx : RunnerContext) : List LogLine :=
  if ctx.etModelPteAddr then
    [⟨"model_pte_program_size:     %lu bytes. (pte size unknown when not baked into elf)",
      [ctx.programDataLen]⟩,
     ⟨"model_pte_loaded_size:      %lu bytes. (pte size unknown when not baked into elf)",
      [ctx.pteSize]⟩]
  else
    [⟨"model_pte_program_size:     %lu bytes.", [ctx.programDataLen]⟩,
     ⟨"model_pte_loaded_size:      %lu bytes.", [ctx.pteSize]⟩]

def inputFileLines (ctx : RunnerContext) : List LogLine :=
  match ctx.inputFileAllocator with
  | none => []
  | some allocator =>
    if allocator.size_ > 0 then [usageLine inputFileAllocatorFormat allocator] else []

def methodLines (ctx : RunnerContext) : List LogLine :=
  if ctx.methodAllocator.size_ ≠ 0 then
    [usageLine methodAllocatorFormat ctx.methodAllocator,
     ⟨"method_allocator_planned:  %lu bytes", [ctx.plannedBufferMemsize]⟩,
     ⟨"method_allocator_loaded:   %lu bytes", [ctx.methodLoadedMemsize]⟩,
     ⟨"method_allocator_input:    %lu bytes", [ctx.inputMemsize]⟩,
     ⟨"method_allocator_executor: %lu bytes",
      [ctx.methodAllocator.usedSize - ctx.executorMembase]⟩]
  else []

def tempLines (ctx : RunnerContext) : List LogLine :=
  if ctx.tempAllocator.size_ > 0 then
    [⟨"temp_allocator:            %lu", [ctx.tempAllocator.size_]⟩]
  else []

def outputDumpLines (ctx : RunnerContext) : List LogLine :=
  match ctx.outputDump with
  | none => []
  | some dump =>
    if dump.debugBuffer ≠ nullptr then
      [⟨"ETDump_outputs_buffer:     %lu / %lu free: %lu ( used: %lu %% ) ",
        [dump.usedBytes, dump.etDebugBufferSize, dump.etDebugBufferSize - dump.usedBytes,
          usedPercentage dump.usedBytes dump.etDebugBufferSize]⟩]
    else []

def logMemStatus (ctx : RunnerContext) : List LogLine :=
  modelLines ctx ++ inputFileLines ctx ++ methodLines ctx ++ tempLines ctx ++ outputDumpLines ctx

/-- The pools whose use is reported, each with the format of its line. -/
def RunnerContext.reported (ctx : RunnerContext) : List (String × ArmMemoryAllocator) :=
  ctx.inputFileAllocator.toList.map (inputFileAllocatorFormat, ·) ++
    [(methodAllocatorFormat, ctx.methodAllocator)]

/-- What is asked of the line about a pool: used and free bytes are exact, and the
percentage is the whole part of the exact one, so that it stays within 100 and is
nowhere below that of a smaller count. -/
structure LogLine.ShowsUsage (line : LogLine) (used size : UInt32) : Prop where
  arguments : line.arguments = [used, size, .ofNat (size.toNat - used.toNat), usedPercentage used size]
  percentage : (usedPercentage used size).toNat = 100 * used.toNat / size.toNat
  bounded : usedPercentage used size ≤ 100
  monotone : ∀ fewer ≤ used, usedPercentage fewer size ≤ usedPercentage used size

variable {ctx : RunnerContext} {format : String} {allocator : ArmMemoryAllocator}
  {used size : UInt32}

/-- A quotient of a remainder is the whole quotient only when nothing was cut off. -/
theorem mod_div_eq_iff {n m d : ℕ} (positive : 0 < d) (within : d ≤ m) : n % m / d = n / d ↔ n < m := by
  constructor
  · intro same
    by_contra cut
    have whole : n % m + m ≤ n := by
      rw [← Nat.sub_add_cancel (Nat.le_of_not_lt cut), Nat.add_mod_right]
      exact Nat.add_le_add_right (Nat.mod_le ..) m
    have more : n % m / d + 1 ≤ n / d := by
      rw [← Nat.add_div_right _ positive]
      exact Nat.div_le_div_right (by omega)
    omega
  · intro below
    rw [Nat.mod_eq_of_lt below]

private theorem usedPercentage_toNat :
    (usedPercentage used size).toNat = 100 * used.toNat % 2 ^ 32 / size.toNat := by
  rw [usedPercentage, UInt32.toNat_div, UInt32.toNat_mul]
  rfl

private theorem usedPercentage_exact_iff (positive : 0 < size.toNat) :
    (usedPercentage used size).toNat = 100 * used.toNat / size.toNat ↔ 100 * used.toNat < 2 ^ 32 := by
  rw [usedPercentage_toNat]
  exact mod_div_eq_iff positive size.toNat_lt.le

private theorem usageLine_shows_iff (positive : 0 < allocator.size_)
    (within : allocator.used_ ≤ allocator.size_) :
    (usageLine format allocator).ShowsUsage allocator.used_ allocator.size_ ↔
      100 * allocator.used_.toNat < 2 ^ 32 := by
  have nonempty : 0 < allocator.size_.toNat := UInt32.lt_iff_toNat_lt.mp positive
  have counted : allocator.used_.toNat ≤ allocator.size_.toNat := within
  constructor
  · intro shows
    exact (usedPercentage_exact_iff nonempty).mp shows.percentage
  · intro below
    have percentage := (usedPercentage_exact_iff nonempty).mpr below
    refine ⟨?_, percentage, ?_, ?_⟩
    · have free : allocator.freeSize = .ofNat (allocator.size_.toNat - allocator.used_.toNat) := by
        rw [← UInt32.toNat_inj, ArmMemoryAllocator.freeSize, UInt32.toNat_sub_of_le _ _ within,
          UInt32.toNat_ofNat_of_lt' ((Nat.sub_le ..).trans_lt allocator.size_.toNat_lt)]
      rw [usageLine, free]
      rfl
    · rw [UInt32.le_iff_toNat_le, percentage]
      exact Nat.div_le_of_le_mul (by rw [Nat.mul_comm]; exact Nat.mul_le_mul_right 100 counted)
    · intro fewer le
      have less : fewer.toNat ≤ allocator.used_.toNat := le
      have fewerBelow : 100 * fewer.toNat < 2 ^ 32 := by omega
      rw [UInt32.le_iff_toNat_le, percentage, (usedPercentage_exact_iff nonempty).mpr fewerBelow]
      exact Nat.div_le_div_right (Nat.mul_le_mul_left 100 less)

def linesWith (format : String) (lines : List LogLine) : List LogLine :=
  lines.filter fun line => line.format = format

private theorem linesWith_append {lines more : List LogLine} :
    linesWith format (lines ++ more) = linesWith format lines ++ linesWith format more :=
  List.filter_append ..

private theorem linesWith_elsewhere (ctx : RunnerContext)
    (usage : format = inputFileAllocatorFormat ∨ format = methodAllocatorFormat) :
    linesWith format (modelLines ctx) = [] ∧ linesWith format (tempLines ctx) = [] ∧
      linesWith format (outputDumpLines ctx) = [] := by
  refine ⟨?_, ?_, ?_⟩
  · unfold modelLines
    rcases usage with rfl | rfl <;> split <;>
      simp [linesWith, inputFileAllocatorFormat, methodAllocatorFormat]
  · unfold tempLines
    rcases usage with rfl | rfl <;> split <;>
      simp [linesWith, inputFileAllocatorFormat, methodAllocatorFormat]
  · unfold outputDumpLines
    split
    · rfl
    · rcases usage with rfl | rfl <;> split <;>
        simp [linesWith, inputFileAllocatorFormat, methodAllocatorFormat]

private theorem linesWith_reported (reported : (format, allocator) ∈ ctx.reported)
    (positive : 0 < allocator.size_) :
    linesWith format (logMemStatus ctx) = [usageLine format allocator] := by
  rw [RunnerContext.reported, List.mem_append, List.mem_singleton] at reported
  have nonzero : allocator.size_ ≠ 0 := (UInt32.ne_of_lt positive).symm
  rcases reported with input | method
  · obtain ⟨allocator, present, same⟩ := List.mem_map.mp input
    obtain ⟨rfl, rfl⟩ := Prod.mk.inj same
    obtain ⟨model, temp, dump⟩ := linesWith_elsewhere ctx (.inl rfl)
    have inputLines : inputFileLines ctx = [usageLine inputFileAllocatorFormat allocator] := by
      rw [inputFileLines, Option.mem_toList.mp present]
      exact if_pos positive
    have noMethod : linesWith inputFileAllocatorFormat (methodLines ctx) = [] := by
      unfold methodLines
      split <;> simp [linesWith, usageLine, inputFileAllocatorFormat, methodAllocatorFormat]
    simp only [logMemStatus, linesWith_append, model, temp, dump, inputLines, noMethod]
    rfl
  · obtain ⟨rfl, rfl⟩ := Prod.mk.inj method
    obtain ⟨model, temp, dump⟩ := linesWith_elsewhere ctx (.inr rfl)
    have noInput : linesWith methodAllocatorFormat (inputFileLines ctx) = [] := by
      unfold inputFileLines
      split
      · rfl
      · split <;> simp [linesWith, usageLine, inputFileAllocatorFormat, methodAllocatorFormat]
    have methodLine : linesWith methodAllocatorFormat (methodLines ctx) =
        [usageLine methodAllocatorFormat ctx.methodAllocator] := by
      rw [methodLines, if_pos nonzero]
      simp [linesWith, usageLine, methodAllocatorFormat]
    simp only [logMemStatus, linesWith_append, model, temp, dump, noInput, methodLine]
    rfl

/-- For every pool, of every size and count in use: its one line shows the exact
statistics exactly when a hundred times the count does not wrap. -/
theorem logMemStatus_shows_iff (ctx : RunnerContext) (format : String) (allocator : ArmMemoryAllocator)
    (reported : (format, allocator) ∈ ctx.reported) (positive : 0 < allocator.size_)
    (within : allocator.usedSize ≤ allocator.size_) :
    (∃ line, linesWith format (logMemStatus ctx) = [line] ∧
        line.ShowsUsage allocator.usedSize allocator.size_) ↔
      100 * allocator.usedSize.toNat < 2 ^ 32 := by
  rw [linesWith_reported reported positive]
  constructor
  · rintro ⟨line, same, shows⟩
    obtain rfl := List.head_eq_of_cons_eq same
    exact (usageLine_shows_iff positive within).mp shows
  · intro below
    exact ⟨_, rfl, (usageLine_shows_iff positive within).mpr below⟩

/-- A build without semihosting, with a method pool of the given size and one block
taken from it. -/
def pooledContext (size block : UInt32) : RunnerContext where
  etModelPteAddr := true
  programDataLen := 0x10000000
  pteSize := 0x10000000
  plannedBufferMemsize := block
  methodLoadedMemsize := 0
  inputMemsize := 0
  executorMembase := block
  methodAllocator := ((ArmMemoryAllocator.new size 0x20004000).allocate block 16).2
  tempAllocator := .new 0x200000 0xA8000000
  inputFileAllocator := none
  outputDump := none

/-- The pool of the CMake build, two thirds in use. -/
theorem logMemStatus_shows_cmake :
    ∃ line, linesWith methodAllocatorFormat (logMemStatus (pooledContext 0x6000 0x4000)) = [line] ∧
      line.ShowsUsage 0x4000 0x6000 :=
  (logMemStatus_shows_iff (pooledContext 0x6000 0x4000) methodAllocatorFormat
    (pooledContext 0x6000 0x4000).methodAllocator (by decide) (by decide) (by decide)).mpr (by decide)

/-- In a pool of the default size, 60 MiB, with two thirds in use, the line shows none. -/
theorem logMemStatus_misshows_default :
    ¬ ∀ (ctx : RunnerContext) (format : String) (allocator : ArmMemoryAllocator),
      (format, allocator) ∈ ctx.reported → 0 < allocator.size_ →
      allocator.usedSize ≤ allocator.size_ →
      ∃ line, linesWith format (logMemStatus ctx) = [line] ∧
        line.ShowsUsage allocator.usedSize allocator.size_ := by
  intro claim
  obtain ⟨_, _, shows⟩ := claim (pooledContext 0x3C00000 0x2900000) methodAllocatorFormat
    (pooledContext 0x3C00000 0x2900000).methodAllocator (by decide) (by decide) (by decide)
  exact absurd shows.percentage (by decide)

end RunnerCm33
