import RunnerCm33.Inputs.PrepareInputTensors

/-! Which mismatches `prepare_input_tensors` reports. With one buffer per input the
loop is a fold over the pairs of inputs and buffers: the copies accumulate, the
error code is that of the last tensor input alone. -/

namespace RunnerCm33

open RunnerCm33.Memory RunnerCm33.Blocks

/-- The metadata queries about an input succeed. -/
def Input.Answers (input : Input) : Prop :=
  ∃ tag, input.inputTag = .ok tag ∧
    (tag = .tensor → ∃ tensorMeta, input.inputTensorMeta = .ok tensorMeta)

/-- The number of bytes a tensor input takes; none for inputs of other kinds. -/
def Input.tensorNbytes (input : Input) : Option ℕ :=
  match input.inputTag, input.inputTensorMeta with
  | .ok .tensor, .ok tensorMeta => some tensorMeta.nbytes.toNat
  | _, _ => none

/-- An input together with the buffer given for it. -/
abbrev Supplied := Input × List UInt8

def Supplied.IsTensor (supplied : Supplied) : Prop := supplied.1.tensorNbytes.isSome

def Supplied.Matches (supplied : Supplied) : Prop :=
  ∀ nbytes ∈ supplied.1.tensorNbytes, supplied.2.length = nbytes

/-- The tensor input's storage holds exactly the buffer. -/
def Supplied.Holds (memory : ℕ → UInt8) (supplied : Supplied) : Prop :=
  supplied.IsTensor → ∃ storage ∈ supplied.1.storage,
    read memory storage.start (storage.stop - storage.start) = supplied.2

/-- The buffers agree wherever tensor inputs share storage: one memory can hold all
of them in their places. -/
def Compatible (all : List Supplied) : Prop :=
  ∃ memory, ∀ supplied ∈ all, supplied.Holds memory

instance (supplied : Supplied) : Decidable supplied.IsTensor :=
  inferInstanceAs (Decidable (_ = true))

instance (supplied : Supplied) : Decidable supplied.Matches :=
  inferInstanceAs (Decidable (∀ nbytes ∈ supplied.1.tensorNbytes, _))

def Method.supplied (method : Method) (inputBuffers : List (List UInt8)) : List Supplied :=
  method.inputs.zip inputBuffers

/-- The tensor input that comes last does not match its buffer. -/
def LastMismatches (all : List Supplied) : Prop :=
  ∃ before last after, all = before ++ last :: after ∧ last.IsTensor ∧ ¬last.Matches ∧
    ∀ supplied ∈ after, ¬supplied.IsTensor

def reported (err : Error) (supplied : Supplied) : Error :=
  if supplied.IsTensor then if supplied.Matches then .ok else .invalidArgument else err

def copied (memory : ℕ → UInt8) (supplied : Supplied) : ℕ → UInt8 :=
  if supplied.IsTensor ∧ supplied.Matches then
    match supplied.1.storage with
    | some storage => write memory storage.start supplied.2
    | none => memory
  else memory

variable {input : Input} {inputs : List Input} {buffer : List UInt8}
  {inputBuffers : List (List UInt8)} {i : ℕ} {preparing : Preparing} {memory : ℕ → UInt8}
  {supplied : Supplied} {all : List Supplied} {target : ℕ → UInt8}

theorem Input.asTensor (tagged : input.inputTag = .ok .tensor) :
    ∃ tensor, input.evalue = .asTensor tensor := by
  have kind := input.consistent _ tagged
  cases value : input.evalue with
  | asTensor tensor => exact ⟨tensor, rfl⟩
  | other tag notTensor =>
    rw [value] at kind
    exact absurd kind notTensor

private theorem prepareInput_eq (preparing : Preparing) (present : inputBuffers[i]? = some buffer)
    (answers : input.Answers) :
    ∃ log, prepareInput inputBuffers i input preparing =
      .ok ⟨reported preparing.err (input, buffer), copied preparing.memory (input, buffer), log⟩ := by
  have nonempty : inputBuffers.length > 0 := by
    have ⟨bound, _⟩ := List.getElem?_eq_some_iff.mp present
    omega
  obtain ⟨tag, tagged, query⟩ := answers
  by_cases isTensor : tag = .tensor
  · subst isTensor
    obtain ⟨tensor, value⟩ := Input.asTensor tagged
    obtain ⟨tensorMeta, answer⟩ := query rfl
    by_cases same : buffer.length = tensorMeta.nbytes.toNat
    · refine ⟨preparing.log, ?_⟩
      simp [prepareInput, checkOk, tagged, answer, value, nonempty, present, same, reported, copied,
        Supplied.IsTensor, Supplied.Matches, Input.tensorNbytes, Input.storage, Except.mapError,
        bind, Except.bind, pure, Except.pure]
    · refine ⟨preparing.log ++ [.sizeMismatch buffer.length tensorMeta.nbytes.toNat], ?_⟩
      simp [prepareInput, checkOk, tagged, answer, nonempty, present, same, reported, copied,
        Supplied.IsTensor, Supplied.Matches, Input.tensorNbytes, Except.mapError,
        bind, Except.bind, pure, Except.pure]
  · refine ⟨preparing.log ++ [.skippingNonTensor i], ?_⟩
    have noTensor : input.tensorNbytes = none := by
      simp only [Input.tensorNbytes, tagged]
      split <;> simp_all
    simp [prepareInput, checkOk, tagged, isTensor, reported, copied, Supplied.IsTensor, noTensor,
      Except.mapError, bind, Except.bind, pure, Except.pure]

/-- The loop folds the turns over the remaining inputs and their buffers. -/
theorem prepareInputs_eq (inputBuffers : List (List UInt8)) (i : ℕ) (preparing : Preparing)
    (paired : (inputBuffers.drop i).length = inputs.length)
    (answers : ∀ input ∈ inputs, input.Answers) :
    ∃ log, prepareInputs inputBuffers i inputs preparing =
      .ok ⟨(inputs.zip (inputBuffers.drop i)).foldl reported preparing.err,
        (inputs.zip (inputBuffers.drop i)).foldl copied preparing.memory, log⟩ := by
  induction inputs generalizing i preparing with
  | nil => exact ⟨preparing.log, by simp [prepareInputs]⟩
  | cons input rest ih =>
    have bound : i < inputBuffers.length := by
      rw [List.length_drop, List.length_cons] at paired
      omega
    have split : inputBuffers.drop i = inputBuffers[i] :: inputBuffers.drop (i + 1) :=
      List.drop_eq_getElem_cons bound
    rw [split] at paired ⊢
    obtain ⟨log, first⟩ := prepareInput_eq preparing
      (List.getElem?_eq_getElem bound) (answers input (by simp))
    obtain ⟨finalLog, others⟩ := ih (i + 1) ⟨_, _, log⟩ (Nat.succ.inj paired)
      (fun next member => answers next (by simp [member]))
    refine ⟨finalLog, ?_⟩
    simpa only [prepareInputs, first, bind, Except.bind, List.zip_cons_cons,
      List.foldl_cons] using others

private theorem lastMismatches_append :
    LastMismatches (all ++ [supplied]) ↔
      supplied.IsTensor ∧ ¬supplied.Matches ∨ ¬supplied.IsTensor ∧ LastMismatches all := by
  constructor
  · rintro ⟨before, last, after, split, tensor, mismatch, skipped⟩
    rcases List.eq_nil_or_concat' after with rfl | ⟨middle, final, rfl⟩
    · obtain ⟨-, same⟩ := List.append_inj' split rfl
      obtain rfl : supplied = last := List.head_eq_of_cons_eq same
      exact .inl ⟨tensor, mismatch⟩
    · rw [← List.cons_append, ← List.append_assoc] at split
      obtain ⟨rfl, same⟩ := List.append_inj' split rfl
      obtain rfl : supplied = final := List.head_eq_of_cons_eq same
      exact .inr ⟨skipped supplied (by simp), before, last, middle, rfl, tensor, mismatch,
        fun other member => skipped other (by simp [member])⟩
  · rintro (⟨tensor, mismatch⟩ | ⟨skip, before, last, after, rfl, tensor, mismatch, skipped⟩)
    · exact ⟨all, supplied, [], rfl, tensor, mismatch, by simp⟩
    · refine ⟨before, last, after ++ [supplied], by simp, tensor, mismatch, ?_⟩
      intro other member
      rcases List.mem_append.mp member with earlier | final
      · exact skipped other earlier
      · rwa [List.mem_singleton.mp final]

private theorem foldl_reported_ok_iff : all.foldl reported .ok = .ok ↔ ¬LastMismatches all := by
  induction all using List.reverseRecOn with
  | nil => simp [LastMismatches]
  | append_singleton before last ih =>
    rw [List.foldl_append, List.foldl_cons, List.foldl_nil, lastMismatches_append, reported]
    by_cases tensor : last.IsTensor
    · by_cases same : last.Matches <;> simp [tensor, same]
    · simp [tensor, ih]

/-- Where a memory holds the buffer, a turn that copies it agrees with that memory. -/
theorem copied_of_held {storage : Block ℕ} (same : supplied.Matches) (tensor : supplied.IsTensor)
    (stored : supplied.1.storage = some storage)
    (held : read target storage.start (storage.stop - storage.start) = supplied.2) {index : ℕ}
    (bound : index < storage.stop - storage.start) :
    copied memory supplied (storage.start + index) = target (storage.start + index) := by
  have length : supplied.2.length = storage.stop - storage.start := by rw [← held, read_length]
  rw [← length] at held bound
  simp only [copied, tensor, same, and_self, if_true, stored]
  exact write_of_held held bound

/-- A turn moves the memory nowhere but towards one that holds its buffer. -/
theorem copied_keeps (held : supplied.Holds target) {address : ℕ}
    (same : memory address = target address) : copied memory supplied address = target address := by
  unfold copied
  split
  · rename_i copies
    obtain ⟨storage, stored, holds⟩ := held copies.1
    have length : supplied.2.length = storage.stop - storage.start := by rw [← holds, read_length]
    rw [← length] at holds
    simp only [Option.mem_def.mp stored]
    exact write_keeps holds same
  · exact same

private theorem foldl_copied_keeps (held : ∀ supplied ∈ all, supplied.Holds target) {address : ℕ}
    (same : memory address = target address) : all.foldl copied memory address = target address := by
  refine List.foldlRecOn (motive := fun reached => reached address = target address) all copied same ?_
  intro reached agrees supplied member
  exact copied_keeps (held supplied member) agrees

/-- When all buffers match and are compatible, the copies accumulate: what one turn
copies is not changed by the later ones. -/
theorem foldl_copied_holds (memory : ℕ → UInt8) (same : ∀ supplied ∈ all, supplied.Matches)
    (held : ∀ supplied ∈ all, supplied.Holds target) :
    ∀ supplied ∈ all, supplied.Holds (all.foldl copied memory) := by
  intro supplied member tensor
  obtain ⟨storage, stored, holds⟩ := held supplied member tensor
  obtain ⟨before, after, rfl⟩ := List.append_of_mem member
  refine ⟨storage, stored, ?_⟩
  have settled : read ((before ++ supplied :: after).foldl copied memory) storage.start
      (storage.stop - storage.start) = read target storage.start (storage.stop - storage.start) := by
    apply read_congr
    intro index bound
    rw [List.foldl_append, List.foldl_cons]
    apply foldl_copied_keeps fun other later => held other (by simp [later])
    exact copied_of_held (same supplied member) tensor stored holds bound
  rw [settled, holds]

private theorem LastMismatches.not_matches (last : LastMismatches all) :
    ¬∀ supplied ∈ all, supplied.Matches := by
  obtain ⟨before, supplied, after, rfl, -, mismatch, -⟩ := last
  exact fun same => mismatch (same supplied (by simp))

/-- A call with one buffer per input whose allocation and queries succeed runs the
loop to its end. -/
theorem prepareInputTensors_eq (semihosting : Bool) (memory : ℕ → UInt8) {method : Method}
    {allocator : ArmMemoryAllocator} (nonempty : inputBuffers ≠ [])
    (paired : inputBuffers.length = method.inputs.length)
    (allocated : (allocator.allocate (method.numInputs * 4)
      MemoryAllocator.kDefaultAlignment).1 ≠ nullptr)
    (got : method.getInputs = .ok) (answers : ∀ input ∈ method.inputs, input.Answers) :
    ∃ prepared, prepareInputTensors semihosting method allocator inputBuffers memory = .ok prepared ∧
      prepared.err = (method.supplied inputBuffers).foldl reported .ok ∧
      prepared.memory = (method.supplied inputBuffers).foldl copied memory := by
  obtain ⟨log, success⟩ := prepareInputs_eq inputBuffers 0 ⟨.ok, memory, []⟩
    paired answers
  refine ⟨⟨⟨(method.supplied inputBuffers).foldl reported .ok,
    (method.supplied inputBuffers).foldl copied memory, log⟩,
    (allocator.allocate (method.numInputs * 4) MemoryAllocator.kDefaultAlignment).2⟩, ?_, rfl, rfl⟩
  have inhabited : method.inputs ≠ [] := by
    rw [← List.length_pos_iff, ← paired]
    exact List.length_pos_iff.mpr nonempty
  simp [prepareInputTensors, Method.supplied, inhabited, paired, allocated, got, success, bind,
    Except.bind, pure, Except.pure]

/-- What is asked of a call: it returns `Error::Ok` exactly when every tensor
input's buffer has the input's size, and then each tensor input holds its buffer. -/
def ReportsEveryMismatch (outcome : Except EarlyExit Prepared) (all : List Supplied) : Prop :=
  (returned outcome = some .ok ↔ ∀ supplied ∈ all, supplied.Matches) ∧
    (returned outcome = some .ok → ∃ prepared, outcome = .ok prepared ∧
      ∀ supplied ∈ all, supplied.Holds prepared.memory)

/-- With one buffer per input, and the allocation and queries succeeding, the call
reports as asked exactly when all buffers match and are compatible, or the last
tensor input is a mismatch. -/
theorem prepareInputTensors_reports_iff (semihosting : Bool) (method : Method)
    (allocator : ArmMemoryAllocator) (inputBuffers : List (List UInt8)) (memory : ℕ → UInt8)
    (nonempty : inputBuffers ≠ []) (paired : inputBuffers.length = method.inputs.length)
    (allocated : (allocator.allocate (method.numInputs * 4)
      MemoryAllocator.kDefaultAlignment).1 ≠ nullptr)
    (got : method.getInputs = .ok) (answers : ∀ input ∈ method.inputs, input.Answers) :
    ReportsEveryMismatch (prepareInputTensors semihosting method allocator inputBuffers memory)
        (method.supplied inputBuffers) ↔
      ((∀ supplied ∈ method.supplied inputBuffers, supplied.Matches) ∧
          Compatible (method.supplied inputBuffers)) ∨
        LastMismatches (method.supplied inputBuffers) := by
  obtain ⟨prepared, success, err, copies⟩ := prepareInputTensors_eq semihosting memory nonempty paired allocated got answers
  have ok : returned (prepareInputTensors semihosting method allocator inputBuffers memory) =
      some .ok ↔ ¬LastMismatches (method.supplied inputBuffers) := by
    rw [success, returned, err, Option.some_inj, foldl_reported_ok_iff]
  rw [ReportsEveryMismatch, ok]
  constructor
  · intro ⟨exact', copied⟩
    by_cases last : LastMismatches (method.supplied inputBuffers)
    · exact .inr last
    · obtain ⟨result, _, holds⟩ := copied last
      exact .inl ⟨exact'.mp last, result.memory, holds⟩
  · rintro (⟨same, target, held⟩ | last)
    · refine ⟨⟨fun _ => same, fun _ last => last.not_matches same⟩, fun _ => ⟨prepared, success, ?_⟩⟩
      rw [copies]
      exact foldl_copied_holds memory same held
    · exact ⟨⟨fun absent => absurd last absent, fun same => absurd same last.not_matches⟩,
        fun absent => absurd last absent⟩

/-- Two inputs of four bytes each in the DDR pool. -/
def twoCharInputs : Method where
  inputs := [charInput 0xA8200000 4, charInput 0xA8200010 4]
  getInputs := .ok
  counted := by decide

private theorem twoCharInputs_answers : ∀ input ∈ twoCharInputs.inputs, input.Answers := by
  simp [twoCharInputs, charInput, Input.Answers]

private theorem twoCharInputs_compatible :
    Compatible (twoCharInputs.supplied [[1, 2, 3, 4], [5, 6, 7, 8]]) := by
  refine ⟨write (write (fun _ => 0) 0xA8200000 [1, 2, 3, 4]) 0xA8200010 [5, 6, 7, 8], ?_⟩
  intro supplied member _
  rcases List.mem_cons.mp member with rfl | second
  · exact ⟨_, rfl, by decide⟩
  · rw [List.mem_singleton.mp second]
    exact ⟨_, rfl, by decide⟩

/-- Two buffers of the right size are copied and reported as such. -/
theorem prepareInputTensors_reports_matching :
    ReportsEveryMismatch (prepareInputTensors true twoCharInputs (.new 0x6000 0x20004000)
      [[1, 2, 3, 4], [5, 6, 7, 8]] fun _ => 0) (twoCharInputs.supplied [[1, 2, 3, 4], [5, 6, 7, 8]]) :=
  (prepareInputTensors_reports_iff true twoCharInputs (.new 0x6000 0x20004000)
    [[1, 2, 3, 4], [5, 6, 7, 8]] (fun _ => 0) (by decide) rfl (by decide) rfl
    twoCharInputs_answers).mpr (.inl ⟨by decide, twoCharInputs_compatible⟩)

/-- A short first buffer goes unreported when the second one matches. -/
theorem prepareInputTensors_forgets_mismatch :
    ¬ ∀ (semihosting : Bool) (method : Method) (allocator : ArmMemoryAllocator)
      (inputBuffers : List (List UInt8)) (memory : ℕ → UInt8), inputBuffers ≠ [] →
      inputBuffers.length = method.inputs.length →
      (allocator.allocate (method.numInputs * 4) MemoryAllocator.kDefaultAlignment).1 ≠ nullptr →
      method.getInputs = .ok → (∀ input ∈ method.inputs, input.Answers) →
      ReportsEveryMismatch (prepareInputTensors semihosting method allocator inputBuffers memory)
        (method.supplied inputBuffers) := by
  intro claim
  have reports := claim true twoCharInputs (.new 0x6000 0x20004000) [[1, 2], [5, 6, 7, 8]]
    (fun _ => 0) (by decide) rfl (by decide) rfl twoCharInputs_answers
  have accepted : returned (prepareInputTensors true twoCharInputs (.new 0x6000 0x20004000)
      [[1, 2], [5, 6, 7, 8]] fun _ => 0) = some .ok := by decide
  exact absurd (reports.1.mp accepted) (by decide)

end RunnerCm33
