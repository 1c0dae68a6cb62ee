import RunnerCm33.CommandLine.Operands
import RunnerCm33.Inputs.Mismatch
import RunnerCm33.Lib.Copies

/-! From the command line to the tensors, in builds with semihosting: what the files behind
`-i` hold arrives in the inputs of the method, by way of the buffers in the pool. -/

namespace RunnerCm33

open RunnerCm33.Blocks RunnerCm33.Copies RunnerCm33.Memory

def bufferBlock (buffer : UInt32 × UInt32) : Block ℕ :=
  ⟨buffer.1.toNat, buffer.1.toNat + buffer.2.toNat, Nat.le_add_right ..⟩

/-- What the buffers hold in a later memory. -/
def Parsing.heldIn (parsing : Parsing) (memory : ℕ → UInt8) : List (List UInt8) :=
  parsing.inputBuffers.map fun buffer => read memory buffer.1.toNat buffer.2.toNat

/-- No two inputs share storage. -/
def StorageApart (inputs : List Input) : Prop :=
  inputs.Pairwise fun first second =>
    ∀ one ∈ first.storage, ∀ other ∈ second.storage, one.Apart other

/-- The copy of a buffer into a tensor input of its size. -/
def Supplied.copy (supplied : Supplied) : Option (Copy UInt8) :=
  if supplied.IsTensor ∧ supplied.Matches then
    supplied.1.storage.map fun storage => ⟨storage.start, supplied.2⟩
  else none

variable {input : Input} {supplied : Supplied} {all : List Supplied} {memory : ℕ → UInt8} {nbytes : ℕ}
  {inputs : List Input} {buffers : List (List UInt8)}

private theorem Input.storage_of_tensor (tensor : input.tensorNbytes = some nbytes) :
    ∃ storage, input.storage = some storage ∧ storage.stop = storage.start + nbytes := by
  unfold tensorNbytes at tensor
  split at tensor
  · rename_i tensorMeta tagged answer
    obtain ⟨value, isTensor⟩ := Input.asTensor tagged
    obtain rfl := Option.some.inj tensor
    refine ⟨⟨value.dataPtr.toNat, value.dataPtr.toNat + tensorMeta.nbytes.toNat, Nat.le_add_right ..⟩, ?_, rfl⟩
    simp only [storage, isTensor, answer]
  · cases tensor

private theorem Supplied.block_of_copy {copy : Copy UInt8} (found : supplied.copy = some copy) :
    supplied.1.storage = some copy.block ∧ copy.cells = supplied.2 := by
  unfold Supplied.copy at found
  split at found
  · rename_i copies
    obtain ⟨nbytes, size⟩ := Option.isSome_iff_exists.mp copies.1
    obtain ⟨storage, stored, stop⟩ := Input.storage_of_tensor size
    have length := copies.2 nbytes size
    rw [stored] at found
    obtain rfl := Option.some.inj found
    cases storage
    exact ⟨by simp_all [Copy.block], rfl⟩
  · cases found

private theorem foldl_copied_eq (all : List Supplied) (memory : ℕ → UInt8) :
    all.foldl copied memory = makeAll memory (all.filterMap Supplied.copy) := by
  induction all generalizing memory with
  | nil => rfl
  | cons supplied rest ih =>
    rw [List.foldl_cons, ih]
    by_cases copies : supplied.IsTensor ∧ supplied.Matches
    · cases stored : supplied.1.storage with
      | none => simp [copied, Supplied.copy, copies, stored]
      | some storage => simp [copied, Supplied.copy, copies, stored, Copy.make]
    · simp [copied, Supplied.copy, copies]

private theorem copies_apart (apart : StorageApart (all.map Prod.fst)) :
    (all.filterMap Supplied.copy).Pairwise fun first second => first.block.Apart second.block := by
  rw [StorageApart, List.pairwise_map] at apart
  rw [List.pairwise_filterMap]
  refine apart.imp fun {first second} away one found other following => ?_
  exact away _ (Supplied.block_of_copy found).1 _ (Supplied.block_of_copy following).1

private theorem foldl_copied_holds_of_apart (apart : StorageApart (all.map Prod.fst))
    (member : supplied ∈ all)
    (same : supplied.Matches) : supplied.Holds (all.foldl copied memory) := by
  intro tensor
  obtain ⟨nbytes, size⟩ := Option.isSome_iff_exists.mp tensor
  obtain ⟨storage, stored, -⟩ := Input.storage_of_tensor size
  have copies : supplied.copy = some ⟨storage.start, supplied.2⟩ := by
    rw [Supplied.copy, if_pos ⟨tensor, same⟩, stored]
    rfl
  have block : storage = ⟨storage.start, storage.start + supplied.2.length, Nat.le_add_right ..⟩ :=
    Option.some.inj (stored.symm.trans (Supplied.block_of_copy copies).1)
  have held := read_of_makeAll memory (copies_apart apart) (List.mem_filterMap.mpr ⟨supplied, member, copies⟩)
  refine ⟨storage, stored, ?_⟩
  have length : storage.stop - storage.start = supplied.2.length := by
    rw [block]
    exact Nat.add_sub_cancel_left ..
  rw [length, foldl_copied_eq]
  exact held

private theorem Supplied.Holds.isMatch (holds : supplied.Holds memory) : supplied.Matches := by
  intro nbytes size
  obtain ⟨storage, stored, held⟩ := holds (Option.isSome_iff_exists.mpr ⟨nbytes, size⟩)
  obtain ⟨other, same, stop⟩ := Input.storage_of_tensor size
  obtain rfl := Option.some.inj (same.symm.trans stored)
  rw [← held, read_length]
  omega

private theorem buffers_of_parsed {files : Files} {pool : InputFilePool} {argv : List String}
    {parsing : Parsing}
    (parsed : parseArguments files pool memory argv = .ok parsing) (complete : EveryFlagHasOperand argv) :
    parsing.buffers = (inputFiles files (commands argv)).map File.read := by
  have reading := Reading.start pool memory
  have positions := Positions.start pool memory
  unfold parseArguments at parsed
  split at parsed
  · cases parsed
  · by_cases loads : Loads files pool.stop pool.address.toNat (commands argv)
    · obtain ⟨final, ends, -, holds, -⟩ := parseLoop_completes reading positions loads complete
      rw [ends] at parsed
      obtain rfl := Except.ok.inj parsed
      exact holds.buffers
    · obtain ⟨final, exits, -⟩ := parseLoop_exits reading positions loads
      rw [exits] at parsed
      cases parsed

private theorem Parsing.heldIn_of_kept {parsing : Parsing} {later : ℕ → UInt8}
    (kept : ∀ buffer ∈ parsing.inputBuffers, ∀ address ∈ (bufferBlock buffer).addresses,
      later address = parsing.memory address) : parsing.heldIn later = parsing.buffers := by
  apply List.map_congr_left
  intro buffer member
  apply read_congr
  intro index bound
  exact kept buffer member _ ⟨Nat.le_add_right .., Nat.add_lt_add_left bound _⟩

/-- A model and three inputs, of which the third is too short for its tensor. -/
def threeFiles : Files := fun name => name.bind fun name =>
  if name = "model.pte" then some ⟨[2, 3, 5, 7, 11, 13, 17, 19], 8, by decide, by decide⟩
  else if name = "first.bin" then some ⟨List.replicate 8 1, 8, by decide, by decide⟩
  else if name = "second.bin" then some ⟨[2, 3, 5, 7], 4, by decide, by decide⟩
  else if name = "third.bin" then some ⟨[2, 3, 5, 7, 11, 13], 6, by decide, by decide⟩
  else none

def threeFilesArguments : List String :=
  ["app", "-i", "first.bin", "-m", "model.pte", "-i", "second.bin", "-i", "third.bin"]

def threeCharInputs : Method where
  inputs := [charInput 0x20008000 8, charInput 0x20008010 4, charInput 0x20008020 8]
  getInputs := .ok
  counted := by decide

def parsedThreeFiles : Parsing where
  inputBuffers := [(0xA8000000, 8), (0xA8000010, 4), (0xA8000014, 6)]
  modelPte := 0xA8000008
  pteSize := 8
  outputBasename := none
  allocator := ⟨⟨0xA8000000, 0xABC00000, 0xA800001A, inputFileAllocationPoolSize⟩, 30⟩
  memory := write (write (write (write (fun _ => 0) 0xA8000000 (List.replicate 8 1))
    0xA8000008 [2, 3, 5, 7, 11, 13, 17, 19]) 0xA8000010 [2, 3, 5, 7]) 0xA8000014 [2, 3, 5, 7, 11, 13]
  compared := [0, 1, 3, 5, 7]
  operands := [2, 4, 6, 8]

end RunnerCm33
