import RunnerCm33.CommandLine.ParseArguments
import RunnerCm33.Lib.Placement

/-! What the loop makes of a command line: flags with the operand behind each of them,
and files that are placed in the pool in the order of their names. The loop does what
the command line says unless a file cannot be loaded, a flag stands last, or there is
no model. -/

namespace RunnerCm33

open RunnerCm33.Memory RunnerCm33.Align RunnerCm33.Placement

structure Command where
  flag : Flag
  operand : Option String
deriving DecidableEq, Repr

/-- The command line as pairs of flags and operands; other arguments are skipped. -/
def commands : List String → List Command
  | [] => []
  | [argument] =>
    match flagOf argument with
    | none => []
    | some flag => [⟨flag, none⟩]
  | argument :: operand :: rest =>
    match flagOf argument with
    | none => commands (operand :: rest)
    | some flag => ⟨flag, some operand⟩ :: commands rest

/-- No flag stands last. -/
def EveryFlagHasOperand (argv : List String) : Prop :=
  ∀ command ∈ commands argv, command.operand.isSome

def NamesModel (argv : List String) : Prop := ∃ command ∈ commands argv, command.flag = .model

/-- The files behind `-i`, in order. -/
def inputFiles (files : Files) (all : List Command) : List File :=
  all.filterMap fun command => if command.flag = .input then files command.operand else none

def InputsReadWhole (files : Files) (argv : List String) : Prop :=
  ∀ file ∈ inputFiles files (commands argv), file.delivered = file.contents.length

/-- The files named behind `-i` and `-m`, as far as they exist. -/
def namedFiles (files : Files) (all : List Command) : List (Option File) :=
  (all.filter fun command => command.flag ≠ .output && command.operand.isSome).map
    fun command => files command.operand

/-- All named files exist and fit the pool together, each padded to a word. -/
def FilesLoad (files : Files) (argv : List String) : Prop :=
  ∃ loaded : List File, namedFiles files (commands argv) = loaded.map some ∧
    extent 4 (loaded.map fun file => file.contents.length) ≤ inputFileAllocationPoolSize.toNat

/-- The state that the loop ends in or exits from. -/
def Parsed.final : Parsed → Parsing
  | .ok parsing | .error parsing => parsing

def Parsing.buffers (parsing : Parsing) : List (List UInt8) :=
  parsing.inputBuffers.map fun (buffer, size) => read parsing.memory buffer.toNat size.toNat

/-- What is asked of the loop: operands are taken from `argv[1]` to `argv[argc - 1]`,
each once and not compared with the flags, and if it does not exit, the input buffers
hold the contents of the `-i` operands and a model is loaded. -/
structure ReadsCommandLine (files : Files) (argv : List String) (parsed : Parsed) : Prop where
  inside : ∀ position ∈ parsed.final.operands, 1 ≤ position ∧ position < argv.length
  once : parsed.final.operands.Nodup
  apart : ∀ position ∈ parsed.final.operands, position ∉ parsed.final.compared
  inputs : ∀ parsing, parsed = .ok parsing →
    parsing.buffers = (inputFiles files (commands argv)).map File.contents
  model : ∀ parsing, parsed = .ok parsing → parsing.modelPte ≠ nullptr

/-- The operands and comparisons so far, all before an index. -/
structure Positions (i : ℕ) (parsing : Parsing) : Prop where
  operands : ∀ position ∈ parsing.operands, 1 ≤ position ∧ position < i
  compared : ∀ position ∈ parsing.compared, position < i
  once : parsing.operands.Nodup
  apart : ∀ position ∈ parsing.operands, position ∉ parsing.compared

def InputFilePool.stop (pool : InputFilePool) : ℕ :=
  pool.address.toNat + inputFileAllocationPoolSize.toNat

/-- The input buffers hold the given bytes below the cursor of the pool's allocator. -/
structure Reading (pool : InputFilePool) (held : List (List UInt8)) (parsing : Parsing) : Prop where
  nonzero : parsing.allocator.cur_ ≠ 0
  stop : parsing.allocator.end_.toNat = pool.stop
  buffers : parsing.buffers = held
  below : ∀ buffer ∈ parsing.inputBuffers,
    buffer.1.toNat + buffer.2.toNat ≤ parsing.allocator.cur_.toNat

/-- The cursor after a command, if it loads its file. -/
def afterCommand (files : Files) (stop cursor : ℕ) (command : Command) : Option ℕ :=
  if command.flag = .output then some cursor
  else
    match files command.operand with
    | none => none
    | some file =>
      if (next 4 cursor file.contents.length).stop ≤ stop then
        some (next 4 cursor file.contents.length).stop
      else none

/-- The complete commands load their files one after the other. -/
def Loads (files : Files) (stop : ℕ) : ℕ → List Command → Prop
  | _, [] => True
  | cursor, ⟨_, none⟩ :: rest => Loads files stop cursor rest
  | cursor, ⟨flag, some operand⟩ :: rest =>
      ∃ moved, afterCommand files stop cursor ⟨flag, some operand⟩ = some moved ∧
        Loads files stop moved rest

variable {files : Files} {pool : InputFilePool} {parsing : Parsing} {held : List (List UInt8)}
  {i j : ℕ} {argv : List String} {flag : Flag} {operand : Option String} {file : File}

theorem Positions.mono (positions : Positions i parsing) (le : i ≤ j) : Positions j parsing where
  operands position member := ⟨(positions.operands position member).1,
    (positions.operands position member).2.trans_le le⟩
  compared position member := (positions.compared position member).trans_le le
  once := positions.once
  apart := positions.apart

theorem Positions.compare (positions : Positions i parsing) : Positions (i + 1) (parsing.compare i) where
  operands := (positions.mono (Nat.le_succ i)).operands
  compared := by
    intro position member
    rcases List.mem_append.mp member with old | new
    · exact Nat.lt_succ_of_lt (positions.compared position old)
    · rw [List.mem_singleton.mp new]
      exact Nat.lt_succ_self i
  once := positions.once
  apart := by
    intro position member compared
    rcases List.mem_append.mp compared with old | new
    · exact positions.apart position member old
    · have before := (positions.operands position member).2
      rw [List.mem_singleton.mp new] at before
      exact Nat.lt_irrefl i before

private theorem takeOperand_positions (files : Files) (flag : Flag) (position : ℕ) (operand : Option String)
    (parsing : Parsing) :
    (takeOperand files flag position operand parsing).final.operands = parsing.operands ++ [position] ∧
      (takeOperand files flag position operand parsing).final.compared = parsing.compared := by
  unfold takeOperand
  cases flag with
  | output => exact ⟨rfl, rfl⟩
  | input =>
    dsimp only
    split <;> exact ⟨rfl, rfl⟩
  | model =>
    dsimp only
    split <;> exact ⟨rfl, rfl⟩

theorem Positions.take (positions : Positions (i + 1) parsing) (files : Files) (flag : Flag)
    (operand : Option String) :
    Positions (i + 2) (takeOperand files flag (i + 1) operand parsing).final := by
  obtain ⟨taken, same⟩ := takeOperand_positions files flag (i + 1) operand parsing
  constructor
  · intro position member
    rw [taken] at member
    rcases List.mem_append.mp member with old | new
    · have bound := positions.operands position old
      omega
    · rw [List.mem_singleton.mp new]
      omega
  · intro position member
    rw [same] at member
    exact Nat.lt_succ_of_lt (positions.compared position member)
  · rw [taken, List.nodup_append]
    refine ⟨positions.once, List.nodup_singleton _, ?_⟩
    rintro position old _ new rfl
    rw [List.mem_singleton.mp new] at old
    exact Nat.lt_irrefl _ (positions.operands _ old).2
  · intro position member compared
    rw [taken] at member
    rw [same] at compared
    rcases List.mem_append.mp member with old | new
    · exact positions.apart position old compared
    · rw [List.mem_singleton.mp new] at compared
      exact Nat.lt_irrefl _ (positions.compared _ compared)

private theorem File.size_toNat (file : File) :
    (UInt32.ofNat file.contents.length).toNat = file.contents.length :=
  UInt32.toNat_ofNat_of_lt' (file.counted.trans (by decide))

theorem File.read_length (file : File) : file.read.length = file.delivered := by
  rw [File.read, List.length_take, Nat.min_eq_left file.within]

private theorem fits_word_iff {allocator : ArmMemoryAllocator} :
    allocator.Fits (.ofNat file.contents.length) MemoryAllocator.kDefaultAlignment ↔
      (next 4 allocator.cur_.toNat file.contents.length).stop ≤ allocator.end_.toNat := by
  unfold MemoryAllocator.Fits
  rw [file.size_toNat]
  exact and_iff_right ⟨2, rfl⟩

private theorem readBinaryFile_null (nonzero : parsing.allocator.cur_ ≠ 0)
    (fails : ∀ file, files operand = some file →
      ¬(next 4 parsing.allocator.cur_.toNat file.contents.length).stop ≤ parsing.allocator.end_.toNat) :
    (readBinaryFile files operand parsing.allocator parsing.memory).buffer = nullptr := by
  unfold readBinaryFile
  cases found : files operand with
  | none => rfl
  | some file =>
    have null : (parsing.allocator.allocate (.ofNat file.contents.length)
        MemoryAllocator.kDefaultAlignment).1 = nullptr := by
      by_contra granted
      exact fails file found
        (fits_word_iff.mp ((ArmMemoryAllocator.allocate_ne_null_iff nonzero).mp granted))
    simp [null]

private theorem readBinaryFile_placed (nonzero : parsing.allocator.cur_ ≠ 0)
    (found : files operand = some file)
    (fits : (next 4 parsing.allocator.cur_.toNat file.contents.length).stop ≤
      parsing.allocator.end_.toNat) :
    ∃ buffer allocator, readBinaryFile files operand parsing.allocator parsing.memory =
        ⟨buffer, .ofNat file.read.length, allocator, write parsing.memory buffer.toNat file.read⟩ ∧
      buffer ≠ nullptr ∧ buffer.toNat = roundUp parsing.allocator.cur_.toNat 4 ∧
      allocator.cur_.toNat = (next 4 parsing.allocator.cur_.toNat file.contents.length).stop ∧
      allocator.end_ = parsing.allocator.end_ := by
  have granted := fits_word_iff.mpr fits
  have nonnull := (ArmMemoryAllocator.allocate_ne_null_iff nonzero).mpr granted
  refine ⟨(parsing.allocator.allocate (.ofNat file.contents.length)
      MemoryAllocator.kDefaultAlignment).1, (parsing.allocator.allocate
      (.ofNat file.contents.length) MemoryAllocator.kDefaultAlignment).2, ?_, nonnull,
    ArmMemoryAllocator.allocate_toNat granted, ?_, ArmMemoryAllocator.allocate_end⟩
  · simp [readBinaryFile, found, nonnull]
  · rw [ArmMemoryAllocator.allocate_cur granted, file.size_toNat]
    rfl

/-- The state with a file read to a place in the pool. -/
def Parsing.placed (parsing : Parsing) (file : File) (buffer : UInt32)
    (allocator : ArmMemoryAllocator) (position : ℕ) : Parsing :=
  { parsing with
    allocator
    memory := write parsing.memory buffer.toNat file.read
    operands := parsing.operands ++ [position] }

section Placed
variable {buffer : UInt32} {allocator : ArmMemoryAllocator}
  (reading : Reading pool held parsing) (nonnull : buffer ≠ nullptr)
  (start : buffer.toNat = roundUp parsing.allocator.cur_.toNat 4)
  (cursor : allocator.cur_.toNat = (next 4 parsing.allocator.cur_.toNat file.contents.length).stop)
  (stop : allocator.end_ = parsing.allocator.end_) (position : ℕ)

include reading nonnull start cursor stop

theorem Reading.place : Reading pool held (parsing.placed file buffer allocator position) := by
  have above : parsing.allocator.cur_.toNat ≤ buffer.toNat := by
    rw [start]
    exact le_roundUp (by decide)
  rw [next_stop, ← start] at cursor
  constructor
  · intro zero
    simp only [Parsing.placed] at zero
    rw [zero, UInt32.toNat_zero] at cursor
    exact nonnull (UInt32.toNat_inj.mp (by rw [UInt32.toNat_zero]; omega))
  · simp only [Parsing.placed]
    rw [stop, reading.stop]
  · rw [← reading.buffers, Parsing.buffers, Parsing.buffers]
    apply List.map_congr_left
    rintro ⟨earlier, size⟩ member
    have below : earlier.toNat + size.toNat ≤ parsing.allocator.cur_.toNat := reading.below _ member
    exact read_write_apart (.inr (by omega))
  · intro earlier member
    have below := reading.below earlier member
    simp only [Parsing.placed, cursor]
    omega

theorem Reading.push : Reading pool (held ++ [file.read]) { parsing.placed file buffer allocator position with
    inputBuffers := parsing.inputBuffers ++ [(buffer, .ofNat file.read.length)] } := by
  have placed := reading.place nonnull start cursor stop position
  have within := file.within
  have size : (UInt32.ofNat file.read.length).toNat = file.read.length := by
    have counted := file.counted
    apply UInt32.toNat_ofNat_of_lt'
    rw [file.read_length, UInt32.size]
    omega
  refine ⟨placed.nonzero, placed.stop, ?_, ?_⟩
  · rw [← placed.buffers]
    simp only [Parsing.buffers, Parsing.placed, List.map_append, List.map_cons, List.map_nil, size,
      read_write]
  · intro earlier member
    rcases List.mem_append.mp member with old | new
    · exact placed.below earlier old
    · rw [List.mem_singleton.mp new]
      rw [next_stop, ← start] at cursor
      simp only [Parsing.placed, cursor, size]
      rw [file.read_length]
      omega

end Placed

/-- What a command leaves when its file loads: the allocator at the new cursor, the
input buffers with the file's bytes behind them, and a model if it was one. -/
theorem takeOperand_ok (reading : Reading pool held parsing) {command : Command} {moved : ℕ}
    (after : afterCommand files pool.stop parsing.allocator.cur_.toNat command = some moved)
    (position : ℕ) :
    ∃ next, takeOperand files command.flag position command.operand parsing = .ok next ∧
      next.allocator.cur_.toNat = moved ∧
      Reading pool (held ++ (inputFiles files [command]).map File.read) next ∧
      (next.modelPte ≠ nullptr ↔ parsing.modelPte ≠ nullptr ∨ command.flag = .model) := by
  unfold afterCommand at after
  split at after
  · rename_i isOutput
    obtain rfl := Option.some.inj after
    refine ⟨{ parsing with operands := parsing.operands ++ [position], outputBasename := command.operand },
      by rw [isOutput]; rfl, rfl, ?_, by simp [isOutput]⟩
    have none : inputFiles files [command] = [] := by simp [inputFiles, isOutput]
    rw [none, List.map_nil, List.append_nil]
    exact ⟨reading.nonzero, reading.stop, reading.buffers, reading.below⟩
  · rename_i named
    split at after
    · cases after
    · rename_i file found
      split at after
      · rename_i fits
        obtain rfl := Option.some.inj after
        rw [← reading.stop] at fits
        obtain ⟨buffer, allocator, result, nonnull, start, cursor, stop⟩ :=
          readBinaryFile_placed reading.nonzero found fits
        cases isFlag : command.flag with
        | output => exact absurd isFlag named
        | input =>
          have input : inputFiles files [command] = [file] := by simp [inputFiles, isFlag, found]
          refine ⟨{ parsing.placed file buffer allocator position with
            inputBuffers := parsing.inputBuffers ++ [(buffer, .ofNat file.read.length)] }, ?_, cursor, ?_,
            by simp [Parsing.placed]⟩
          · simp only [takeOperand, result, nonnull, if_false, Parsing.placed]
          · rw [input]
            exact reading.push nonnull start cursor stop position
        | model =>
          have input : inputFiles files [command] = [] := by simp [inputFiles, isFlag]
          have placed := reading.place nonnull start cursor stop position
          refine ⟨{ parsing.placed file buffer allocator position with
            modelPte := buffer, pteSize := .ofNat file.read.length }, ?_, cursor, ?_, by simp [nonnull]⟩
          · simp only [takeOperand, result, nonnull, if_false, Parsing.placed]
          · rw [input, List.map_nil, List.append_nil]
            exact ⟨placed.nonzero, placed.stop, placed.buffers, placed.below⟩
      · cases after

private theorem takeOperand_error (reading : Reading pool held parsing) {command : Command}
    (after : afterCommand files pool.stop parsing.allocator.cur_.toNat command = none)
    (position : ℕ) :
    takeOperand files command.flag position command.operand parsing =
      .error (takeOperand files command.flag position command.operand parsing).final := by
  unfold afterCommand at after
  split at after
  · cases after
  · rename_i named
    have null : (readBinaryFile files command.operand parsing.allocator parsing.memory).buffer = nullptr := by
      apply readBinaryFile_null reading.nonzero
      intro file found
      rw [reading.stop]
      intro fits
      simp only [found] at after
      rw [if_pos fits] at after
      cases after
    cases isFlag : command.flag with
    | output => exact absurd isFlag named
    | input =>
      simp only [takeOperand, null, if_true]
      rfl
    | model =>
      simp only [takeOperand, null, if_true]
      rfl

theorem Reading.compare (reading : Reading pool held parsing) : Reading pool held (parsing.compare i) :=
  ⟨reading.nonzero, reading.stop, reading.buffers, reading.below⟩

private theorem inputFiles_cons (files : Files) (command : Command) (all : List Command) :
    inputFiles files (command :: all) = inputFiles files [command] ++ inputFiles files all :=
  List.filterMap_append (l := [command])

/-- One turn of a loop whose files all load: it goes on, and the other files load. -/
theorem takeOperand_loads {rest : List Command} {name : String} (reading : Reading pool held parsing)
    (loads : Loads files pool.stop parsing.allocator.cur_.toNat (⟨flag, some name⟩ :: rest)) :
    ∃ next, takeOperand files flag (i + 1) (some name) (parsing.compare i) = .ok next ∧
      Reading pool (held ++ (inputFiles files [⟨flag, some name⟩]).map File.read) next ∧
      Loads files pool.stop next.allocator.cur_.toNat rest ∧
      (next.modelPte ≠ nullptr ↔ parsing.modelPte ≠ nullptr ∨ flag = .model) := by
  obtain ⟨moved, after, others⟩ := loads
  have compared : Reading pool held (parsing.compare i) := reading.compare
  obtain ⟨next, continues, cursor, placed, model⟩ := takeOperand_ok compared after (i + 1)
  rw [← cursor] at others
  exact ⟨next, continues, placed, others, model⟩

section Arguments
variable {argument name : String}

private theorem commands_skip (skipped : flagOf argument = none) :
    commands (argument :: argv) = commands argv := by
  cases argv with
  | nil => simp [commands, skipped]
  | cons name rest => rw [commands, skipped]

private theorem commands_last (found : flagOf argument = some flag) :
    commands [argument] = [⟨flag, none⟩] := by
  rw [commands, found]

private theorem commands_take (found : flagOf argument = some flag) :
    commands (argument :: name :: argv) = ⟨flag, some name⟩ :: commands argv := by
  rw [commands, found]

private theorem everyFlagHasOperand_skip (skipped : flagOf argument = none) :
    EveryFlagHasOperand (argument :: argv) ↔ EveryFlagHasOperand argv := by
  rw [EveryFlagHasOperand, EveryFlagHasOperand, commands_skip skipped]

private theorem not_everyFlagHasOperand_last (found : flagOf argument = some flag) :
    ¬EveryFlagHasOperand [argument] := by
  simp [EveryFlagHasOperand, commands_last found]

private theorem everyFlagHasOperand_take (found : flagOf argument = some flag) :
    EveryFlagHasOperand (argument :: name :: argv) ↔ EveryFlagHasOperand argv := by
  simp [EveryFlagHasOperand, commands_take found]

/-- The end of the arguments, from the index behind one argument or two. -/
theorem index_skip (argument : String) (argv : List String) (i : ℕ) :
    i + 1 + argv.length = i + (argument :: argv).length := by
  rw [List.length_cons]
  omega

private theorem index_take (argument name : String) (argv : List String) (i : ℕ) :
    i + 2 + argv.length = i + (argument :: name :: argv).length := by
  rw [List.length_cons, List.length_cons]
  omega

end Arguments

/-- A loop whose files do not all load exits, with all operands taken from `argv`. -/
theorem parseLoop_exits (reading : Reading pool held parsing) (positions : Positions i parsing)
    (fails : ¬Loads files pool.stop parsing.allocator.cur_.toNat (commands argv)) :
    ∃ final, parseLoop files i argv parsing = .error final ∧ Positions (i + argv.length) final := by
  fun_induction parseLoop files i argv parsing generalizing held with
  | case1 i parsing => exact absurd trivial fails
  | case2 i argument parsing skipped =>
    rw [commands_skip skipped] at fails
    exact absurd trivial fails
  | case3 i argument parsing flag found =>
    rw [commands_last found] at fails
    exact absurd trivial fails
  | case4 i argument operand rest parsing skipped ih =>
    rw [commands_skip skipped] at fails
    rw [← index_skip]
    exact ih reading.compare positions.compare fails
  | case5 i argument operand rest parsing flag found final exits =>
    refine ⟨final, rfl, ?_⟩
    have taken := positions.compare.take files flag (some operand)
    rw [exits] at taken
    rw [← index_take]
    exact taken.mono (Nat.le_add_right ..)
  | case6 i argument operand rest parsing flag found next continues ih =>
    have taken := positions.compare.take files flag (some operand)
    rw [continues] at taken
    rw [commands_take found] at fails
    rw [← index_take]
    cases after : afterCommand files pool.stop parsing.allocator.cur_.toNat ⟨flag, some operand⟩ with
    | none =>
      have exits := takeOperand_error (reading.compare (i := i)) after (i + 1)
      rw [continues] at exits
      cases exits
    | some moved =>
      obtain ⟨_, same, cursor, placed, _⟩ := takeOperand_ok (reading.compare (i := i)) after (i + 1)
      rw [continues] at same
      obtain rfl := Except.ok.inj same
      have others : ¬Loads files pool.stop next.allocator.cur_.toNat (commands rest) := by
        rw [cursor]
        exact fun loads => fails ⟨moved, after, loads⟩
      exact ih placed taken others

/-- A loop whose files all load and whose flags all have operands runs to its end. -/
theorem parseLoop_completes (reading : Reading pool held parsing) (positions : Positions i parsing)
    (loads : Loads files pool.stop parsing.allocator.cur_.toNat (commands argv))
    (complete : EveryFlagHasOperand argv) :
    ∃ final, parseLoop files i argv parsing = .ok final ∧ Positions (i + argv.length) final ∧
      Reading pool (held ++ (inputFiles files (commands argv)).map File.read) final ∧
      (final.modelPte ≠ nullptr ↔ parsing.modelPte ≠ nullptr ∨ NamesModel argv) := by
  fun_induction parseLoop files i argv parsing generalizing held with
  | case1 i parsing =>
    exact ⟨parsing, rfl, positions, by simpa [inputFiles, commands] using reading,
      by simp [NamesModel, commands]⟩
  | case2 i argument parsing skipped =>
    have none : commands [argument] = [] := commands_skip skipped
    exact ⟨_, rfl, positions.compare, by simpa [inputFiles, none] using reading.compare,
      by simp [NamesModel, none, Parsing.compare]⟩
  | case3 i argument parsing flag found => exact absurd complete (not_everyFlagHasOperand_last found)
  | case4 i argument operand rest parsing skipped ih =>
    rw [everyFlagHasOperand_skip skipped] at complete
    rw [commands_skip skipped] at loads
    rw [← index_skip, NamesModel, commands_skip skipped]
    exact ih reading.compare positions.compare loads complete
  | case5 i argument operand rest parsing flag found final exits =>
    rw [commands_take found] at loads
    obtain ⟨next, continues, -⟩ := takeOperand_loads reading loads
    rw [exits] at continues
    cases continues
  | case6 i argument operand rest parsing flag found next continues ih =>
    have taken := positions.compare.take files flag (some operand)
    rw [continues] at taken
    rw [commands_take found] at loads
    rw [everyFlagHasOperand_take found] at complete
    obtain ⟨_, same, placed, others, first⟩ := takeOperand_loads reading loads
    rw [continues] at same
    obtain rfl := Except.ok.inj same
    obtain ⟨final, ends, inside, holds, model⟩ := ih placed taken others complete
    rw [← index_take]
    refine ⟨final, ends, inside, ?_, ?_⟩
    · rwa [commands_take found, inputFiles_cons, List.map_append, ← List.append_assoc]
    · rw [model, first]
      simp [NamesModel, commands_take found, or_assoc]

/-- A loop whose files all load, with a flag standing last, takes the null pointer
behind the arguments for its operand. -/
theorem parseLoop_overruns (reading : Reading pool held parsing)
    (loads : Loads files pool.stop parsing.allocator.cur_.toNat (commands argv))
    (incomplete : ¬EveryFlagHasOperand argv) :
    i + argv.length ∈ (parseLoop files i argv parsing).final.operands := by
  fun_induction parseLoop files i argv parsing generalizing held with
  | case1 i parsing => exact absurd (by simp [EveryFlagHasOperand, commands]) incomplete
  | case2 i argument parsing skipped =>
    rw [everyFlagHasOperand_skip skipped] at incomplete
    exact absurd (by simp [EveryFlagHasOperand, commands]) incomplete
  | case3 i argument parsing flag found =>
    rw [(takeOperand_positions files flag (i + 1) none (parsing.compare i)).1]
    simp
  | case4 i argument operand rest parsing skipped ih =>
    rw [everyFlagHasOperand_skip skipped] at incomplete
    rw [commands_skip skipped] at loads
    rw [← index_skip]
    exact ih reading.compare loads incomplete
  | case5 i argument operand rest parsing flag found final exits =>
    rw [commands_take found] at loads
    obtain ⟨next, continues, -⟩ := takeOperand_loads reading loads
    rw [exits] at continues
    cases continues
  | case6 i argument operand rest parsing flag found next continues ih =>
    rw [commands_take found] at loads
    rw [everyFlagHasOperand_take found] at incomplete
    obtain ⟨_, same, placed, others, -⟩ := takeOperand_loads reading loads
    rw [continues] at same
    obtain rfl := Except.ok.inj same
    rw [← index_take]
    exact ih placed others incomplete

private theorem afterCommand_file {command : Command} {stop cursor moved : ℕ}
    (named : command.flag ≠ .output) :
    afterCommand files stop cursor command = some moved ↔
      ∃ file, files command.operand = some file ∧
        (next 4 cursor file.contents.length).stop ≤ stop ∧
        (next 4 cursor file.contents.length).stop = moved := by
  rw [afterCommand, if_neg named]
  cases found : files command.operand with
  | none => simp
  | some file =>
    by_cases fits : (next 4 cursor file.contents.length).stop ≤ stop
    · simp only [if_pos fits, Option.some_inj]
      exact ⟨fun same => ⟨file, rfl, fits, same⟩, by rintro ⟨_, rfl, _, same⟩; exact same⟩
    · simp only [if_neg fits, reduceCtorEq, false_iff]
      rintro ⟨_, same, inside, -⟩
      exact fits (Option.some.inj same ▸ inside)

private theorem loads_iff {all : List Command} {stop cursor : ℕ} :
    Loads files stop cursor all ↔ ∃ loaded : List File, namedFiles files all = loaded.map some ∧
      ∀ block ∈ place 4 cursor (loaded.map fun file => file.contents.length), block.stop ≤ stop := by
  induction all generalizing cursor with
  | nil => exact ⟨fun _ => ⟨[], rfl, by simp⟩, fun _ => trivial⟩
  | cons command rest ih =>
    obtain ⟨flag, operand⟩ := command
    cases operand with
    | none =>
      have same : namedFiles files (⟨flag, none⟩ :: rest) = namedFiles files rest := by simp [namedFiles]
      rw [Loads, ih, same]
    | some name =>
      by_cases isOutput : flag = .output
      · have same : namedFiles files (⟨flag, some name⟩ :: rest) = namedFiles files rest := by
          simp [namedFiles, isOutput]
        have after : afterCommand files stop cursor ⟨flag, some name⟩ = some cursor := if_pos isOutput
        rw [Loads, after, same, ← ih]
        simp
      · have split : namedFiles files (⟨flag, some name⟩ :: rest) =
            files (some name) :: namedFiles files rest := by
          simp [namedFiles, isOutput]
        rw [Loads]
        constructor
        · rintro ⟨moved, after, others⟩
          obtain ⟨file, found, fits, rfl⟩ := (afterCommand_file isOutput).mp after
          obtain ⟨loaded, names, inside⟩ := ih.mp others
          refine ⟨file :: loaded, ?_, List.forall_mem_cons.mpr ⟨fits, inside⟩⟩
          rw [split, names]
          exact congrArg (· :: _) found
        · rintro ⟨loaded, names, inside⟩
          rw [split] at names
          cases loaded with
          | nil => cases names
          | cons file loaded =>
            obtain ⟨found, others⟩ := List.cons_eq_cons.mp names
            obtain ⟨fits, later⟩ := List.forall_mem_cons.mp inside
            exact ⟨_, (afterCommand_file isOutput).mpr ⟨file, found, fits, rfl⟩,
              ih.mpr ⟨loaded, others, later⟩⟩

private theorem InputFilePool.aligned_word (pool : InputFilePool) : 4 ∣ pool.address.toNat :=
  Nat.dvd_trans (by decide) pool.aligned

private theorem filesLoad_iff (pool : InputFilePool) :
    Loads files pool.stop pool.address.toNat (commands argv) ↔ FilesLoad files argv := by
  rw [loads_iff, FilesLoad]
  apply exists_congr
  intro loaded
  have below : pool.address.toNat ≤ pool.stop := Nat.le_add_right ..
  rw [place_within_iff (by decide) pool.aligned_word below, InputFilePool.stop, Nat.add_le_add_iff_left]

theorem Reading.start (pool : InputFilePool) (memory : ℕ → UInt8) :
    Reading pool [] (.start pool memory) where
  nonzero := pool.nonnull
  stop := by
    have inside := pool.inside
    simp only [Parsing.start, ArmMemoryAllocator.new_end, InputFilePool.stop]
    rw [UInt32.toNat_add, Nat.mod_eq_of_lt inside]
  buffers := rfl
  below := by simp [Parsing.start]

theorem Positions.start (pool : InputFilePool) (memory : ℕ → UInt8) :
    Positions 0 (.start pool memory) := by
  constructor <;> simp [Parsing.start]

/-- Whole files are what the input buffers hold exactly when each is read whole. -/
theorem read_eq_contents_iff {all : List File} :
    all.map File.read = all.map File.contents ↔
      ∀ file ∈ all, file.delivered = file.contents.length := by
  rw [List.map_inj_left]
  apply forall₂_congr
  intro file _
  rw [← file.read_length]
  constructor
  · intro same
    rw [same]
  · intro same
    exact (List.take_prefix ..).eq_of_length same

/-- For every command line of enough arguments, every set of files and every place of
the pool: the loop reads the command line as asked exactly when some named file cannot
be loaded, or no flag stands last, a model is named, and the input files are read
whole. -/
theorem commandLine_iff (files : Files) (pool : InputFilePool) (memory : ℕ → UInt8)
    (argv : List String) (enough : 7 ≤ argv.length) :
    ReadsCommandLine files argv (parseArguments files pool memory argv) ↔
      (FilesLoad files argv →
        EveryFlagHasOperand argv ∧ NamesModel argv ∧ InputsReadWhole files argv) := by
  rw [parseArguments, if_neg (Nat.not_lt.mpr enough), ← filesLoad_iff pool]
  have reading := Reading.start pool memory
  have positions := Positions.start pool memory
  by_cases loads : Loads files pool.stop pool.address.toNat (commands argv)
  · by_cases complete : EveryFlagHasOperand argv
    · obtain ⟨final, ends, inside, holds, model⟩ := parseLoop_completes reading positions loads complete
      rw [ends]
      have null : (Parsing.start pool memory).modelPte = nullptr := rfl
      rw [Nat.zero_add] at inside
      simp only [null, ne_eq, not_true_eq_false, false_or] at model
      have whole : final.buffers = (inputFiles files (commands argv)).map File.contents ↔
          InputsReadWhole files argv := by
        rw [holds.buffers, List.nil_append, read_eq_contents_iff, InputsReadWhole]
      constructor
      · intro reads _
        exact ⟨complete, model.mp (reads.model final rfl), whole.mp (reads.inputs final rfl)⟩
      · intro condition
        obtain ⟨-, named, readWhole⟩ := condition loads
        refine ⟨inside.operands, inside.once, inside.apart, ?_, ?_⟩
        · rintro _ ⟨⟩
          exact whole.mpr readWhole
        · rintro _ ⟨⟩
          exact model.mpr named
    · have overrun := parseLoop_overruns (i := 0) reading loads complete
      rw [Nat.zero_add] at overrun
      constructor
      · intro reads
        exact absurd (reads.inside _ overrun).2 (Nat.lt_irrefl _)
      · intro condition
        exact absurd (condition loads).1 complete
  · obtain ⟨final, exits, inside⟩ := parseLoop_exits reading positions loads
    rw [exits]
    rw [Nat.zero_add] at inside
    constructor
    · exact fun _ loaded => absurd loaded loads
    · intro _
      refine ⟨inside.operands, inside.once, inside.apart, ?_, ?_⟩
      · rintro _ ⟨⟩
      · rintro _ ⟨⟩

/-- The pool at the start of the DDR. -/
def ddrInputFilePool : InputFilePool where
  address := 0xA8000000
  aligned := by decide
  nonnull := by decide
  inside := by decide

/-- A file of eight bytes under every name, and none under the null pointer. -/
def eightByteFiles : Files := fun name =>
  name.map fun _ => ⟨List.replicate 8 7, 8, by decide, by decide⟩

/-- The usage that the program prints. -/
theorem commandLine_usage : ReadsCommandLine eightByteFiles
    ["app", "-m", "model.pte", "-i", "input.bin", "-o", "output_basename"]
    (parseArguments eightByteFiles ddrInputFilePool (fun _ => 0)
      ["app", "-m", "model.pte", "-i", "input.bin", "-o", "output_basename"]) :=
  (commandLine_iff eightByteFiles ddrInputFilePool (fun _ => 0)
    ["app", "-m", "model.pte", "-i", "input.bin", "-o", "output_basename"] (by decide)).mpr fun _ => by
      simp [EveryFlagHasOperand, NamesModel, InputsReadWhole, inputFiles, commands, flagOf,
        eightByteFiles]

/-- Two inputs and no model: the loop ends with a null model. -/
theorem commandLine_without_model :
    ¬ ∀ (files : Files) (pool : InputFilePool) (memory : ℕ → UInt8) (argv : List String),
      7 ≤ argv.length → ReadsCommandLine files argv (parseArguments files pool memory argv) := by
  intro claim
  have reads := claim eightByteFiles ddrInputFilePool (fun _ => 0)
    ["app", "-i", "first.bin", "-i", "second.bin", "-o", "output_basename"] (by decide)
  exact reads.model _ rfl rfl

end RunnerCm33
