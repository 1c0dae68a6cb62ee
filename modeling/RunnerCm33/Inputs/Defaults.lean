import RunnerCm33.Inputs.PrepareInputTensors
import RunnerCm33.Runtime.Elements

/-! The default inputs: without input buffers `prepare_input_tensors` fills the tensor
inputs with ones, for the element types its switch names. -/

namespace RunnerCm33

open RunnerCm33.Memory RunnerCm33.Blocks

def inputTensors (inputs : List Input) : List Tensor :=
  inputs.filterMap fun input =>
    match input.evalue with
    | .asTensor tensor => some tensor
    | .other _ _ => none

/-- The switch of the fill has a case for the tensor's element type. -/
def Tensor.InSwitch (tensor : Tensor) : Prop := tensor.scalarType ∈ [.int, .float, .char]

/-- Every element is the number one. -/
def Tensor.HoldsOnes (memory : ℕ → UInt8) (tensor : Tensor) : Prop :=
  ∀ j < tensor.count, tensor.element memory j = tensor.scalarType.encodedOne

/-- What is asked of the fill: ones in every tensor, and nothing changed elsewhere. -/
structure FilledWithOnes (tensors : List Tensor) (before after : ℕ → UInt8) : Prop where
  ones : ∀ tensor ∈ tensors, tensor.HoldsOnes after
  elsewhere : ∀ address, (∀ tensor ∈ tensors, address ∉ tensor.storage.addresses) →
    after address = before address

/-- The bytes of a tensor whose elements are all one. -/
abbrev Tensor.ones (tensor : Tensor) : List UInt8 :=
  (List.replicate tensor.count tensor.scalarType.encodedOne).flatten

/-- The one of these bytes that belongs at an address of the tensor's storage. -/
def Tensor.oneAt (tensor : Tensor) (address : ℕ) : UInt8 :=
  tensor.ones.getD (address - tensor.dataPtr.toNat) 0

/-- Tensors that share storage call for the same bytes there, and bytes that lie in no
tensor of the switch are right before the call. -/
structure FillableBySwitch (tensors : List Tensor) (before : ℕ → UInt8) : Prop where
  agree : ∀ tensor ∈ tensors, ∀ other ∈ tensors, ∀ address ∈ tensor.storage.addresses,
    address ∈ other.storage.addresses → tensor.oneAt address = other.oneAt address
  held : ∀ tensor ∈ tensors, ∀ address ∈ tensor.storage.addresses,
    (∀ named ∈ tensors, named.InSwitch → address ∉ named.storage.addresses) →
      before address = tensor.oneAt address

variable {tensor : Tensor} {tensors : List Tensor} {inputs : List Input} {input : Input} {i : ℕ}
  {memory target : ℕ → UInt8} {preparing next : Preparing} {address : ℕ}

private theorem ScalarType.one_eq {scalarType : ScalarType} {element : List UInt8}
    (found : scalarType.one = some element) : element = scalarType.encodedOne := by
  cases scalarType <;> cases found <;> rfl

private theorem ScalarType.one_isSome_iff {scalarType : ScalarType} :
    scalarType.one.isSome ↔ scalarType ∈ [.int, .float, .char] := by
  cases scalarType <;> decide

private theorem Tensor.holdsOnes_iff : tensor.HoldsOnes memory ↔
    read memory tensor.dataPtr.toNat (tensor.count * tensor.scalarType.encodedOne.length) =
      (List.replicate tensor.count tensor.scalarType.encodedOne).flatten := by
  rw [read_replicate_iff, HoldsOnes, ScalarType.encodedOne_length]
  rfl

private theorem Tensor.ones_length : tensor.ones.length = tensor.count * tensor.scalarType.elementSize := by
  simp [ScalarType.encodedOne_length]

private theorem Tensor.holdsOnes_iff_oneAt : tensor.HoldsOnes memory ↔
    ∀ address ∈ tensor.storage.addresses, memory address = tensor.oneAt address := by
  have stretch : tensor.count * tensor.scalarType.encodedOne.length = tensor.ones.length := by simp
  rw [holdsOnes_iff, stretch]
  constructor
  · intro same address inside
    simp only [storage, Block.addresses, Set.mem_Ico, ← ones_length] at inside
    obtain ⟨index, rfl⟩ := Nat.exists_eq_add_of_le inside.1
    have bound : index < tensor.ones.length := Nat.add_lt_add_iff_left.mp inside.2
    have cell := List.getElem_of_eq same (by simpa using bound)
    rw [read_getElem] at cell
    rw [cell, oneAt, Nat.add_sub_cancel_left]
    exact List.getElem_eq_getD 0
  · intro each
    apply List.ext_getElem
    · simp
    · intro index _ bound
      have inside : tensor.dataPtr.toNat + index ∈ tensor.storage.addresses := by
        simp only [storage, Block.addresses, Set.mem_Ico, ← ones_length]
        exact ⟨Nat.le_add_right .., Nat.add_lt_add_left bound _⟩
      rw [read_getElem, each _ inside, oneAt, Nat.add_sub_cancel_left]
      exact (List.getElem_eq_getD 0).symm

private theorem fillOnes_inSwitch (named : tensor.InSwitch) (memory : ℕ → UInt8) :
    fillOnes memory tensor = write memory tensor.dataPtr.toNat tensor.ones := by
  obtain ⟨element, found⟩ := Option.isSome_iff_exists.mp (ScalarType.one_isSome_iff.mpr named)
  rw [fillOnes, found, Tensor.ones, ← ScalarType.one_eq found]
  rfl

private theorem fillOnes_not_inSwitch (unnamed : ¬tensor.InSwitch) (memory : ℕ → UInt8) :
    fillOnes memory tensor = memory := by
  have missing : tensor.scalarType.one = none := by
    rw [← Option.not_isSome_iff_eq_none, ScalarType.one_isSome_iff]
    exact unnamed
  rw [fillOnes, missing]

/-- The fill of one tensor changes the storage of a tensor in the switch only. -/
theorem fillOnes_outside (outside : tensor.InSwitch → address ∉ tensor.storage.addresses) :
    fillOnes memory tensor address = memory address := by
  by_cases named : tensor.InSwitch
  · rw [fillOnes_inSwitch named]
    apply write_outside
    rw [Tensor.ones_length]
    have absent := outside named
    simp only [Tensor.storage, Block.addresses, Set.mem_Ico] at absent
    omega
  · rw [fillOnes_not_inSwitch named]

private theorem fillOnes_keeps (holds : tensor.HoldsOnes target) (same : memory address = target address) :
    fillOnes memory tensor address = target address := by
  by_cases named : tensor.InSwitch
  · rw [fillOnes_inSwitch named]
    exact write_keeps (by simpa using Tensor.holdsOnes_iff.mp holds) same
  · rw [fillOnes_not_inSwitch named, same]

private theorem fillOnes_inside (named : tensor.InSwitch) (holds : tensor.HoldsOnes target)
    (inside : address ∈ tensor.storage.addresses) : fillOnes memory tensor address = target address := by
  rw [fillOnes_inSwitch named]
  simp only [Tensor.storage, Block.addresses, Set.mem_Ico] at inside
  obtain ⟨index, rfl⟩ := Nat.exists_eq_add_of_le inside.1
  apply write_of_held
  · simpa using Tensor.holdsOnes_iff.mp holds
  · rw [Tensor.ones_length]
    omega

private theorem foldl_fillOnes_outside
    (outside : ∀ tensor ∈ tensors, tensor.InSwitch → address ∉ tensor.storage.addresses) :
    tensors.foldl fillOnes memory address = memory address := by
  refine List.foldlRecOn (motive := fun filled => filled address = memory address) tensors fillOnes rfl ?_
  intro filled unchanged tensor member
  rw [fillOnes_outside (outside tensor member), unchanged]

private theorem foldl_fillOnes_keeps (holds : ∀ tensor ∈ tensors, tensor.HoldsOnes target)
    (same : memory address = target address) : tensors.foldl fillOnes memory address = target address := by
  refine List.foldlRecOn (motive := fun filled => filled address = target address) tensors fillOnes same ?_
  intro filled agrees tensor member
  exact fillOnes_keeps (holds tensor member) agrees

private theorem foldl_fillOnes_inside (holds : ∀ tensor ∈ tensors, tensor.HoldsOnes target)
    (member : tensor ∈ tensors) (named : tensor.InSwitch)
    (inside : address ∈ tensor.storage.addresses) :
    tensors.foldl fillOnes memory address = target address := by
  obtain ⟨before, after, rfl⟩ := List.append_of_mem member
  rw [List.foldl_append, List.foldl_cons]
  apply foldl_fillOnes_keeps fun other later => holds other (by simp [later])
  exact fillOnes_inside named (holds tensor member) inside

/-- There is a memory in which all tensors hold ones, and which changing bytes of the
tensors in the switch can lead to. -/
theorem FillableBySwitch.reachable (able : FillableBySwitch tensors memory) :
    ∃ target, (∀ tensor ∈ tensors, tensor.HoldsOnes target) ∧
      ∀ address, (∀ tensor ∈ tensors, tensor.InSwitch → address ∉ tensor.storage.addresses) →
        target address = memory address := by
  classical
  refine ⟨fun address => if found : ∃ tensor ∈ tensors, address ∈ tensor.storage.addresses then
    found.choose.oneAt address else memory address, ?_, ?_⟩
  · intro tensor member
    rw [Tensor.holdsOnes_iff_oneAt]
    intro address inside
    have found : ∃ tensor ∈ tensors, address ∈ tensor.storage.addresses := ⟨tensor, member, inside⟩
    obtain ⟨chosen, shared⟩ := found.choose_spec
    rw [dif_pos found]
    exact able.agree _ chosen tensor member address shared inside
  · intro address untouched
    by_cases found : ∃ tensor ∈ tensors, address ∈ tensor.storage.addresses
    · obtain ⟨chosen, inside⟩ := found.choose_spec
      exact (dif_pos found).trans (able.held _ chosen address inside untouched).symm
    · exact dif_neg found

/-- The fill of all tensors leaves ones in them exactly when the switch can. -/
theorem filledWithOnes_iff (tensors : List Tensor) (memory : ℕ → UInt8) :
    FilledWithOnes tensors memory (tensors.foldl fillOnes memory) ↔
      FillableBySwitch tensors memory := by
  constructor
  · intro filled
    have ones : ∀ tensor ∈ tensors, ∀ address ∈ tensor.storage.addresses,
        tensors.foldl fillOnes memory address = tensor.oneAt address :=
      fun tensor member => Tensor.holdsOnes_iff_oneAt.mp (filled.ones tensor member)
    constructor
    · intro tensor member other present address inside shared
      rw [← ones tensor member address inside, ones other present address shared]
    · intro tensor member address inside untouched
      rw [← ones tensor member address inside, foldl_fillOnes_outside untouched]
  · intro able
    obtain ⟨target, holds, elsewhere⟩ := able.reachable
    have reached : tensors.foldl fillOnes memory = target := by
      funext address
      by_cases untouched : ∀ tensor ∈ tensors, tensor.InSwitch → address ∉ tensor.storage.addresses
      · rw [foldl_fillOnes_outside untouched, elsewhere address untouched]
      · push Not at untouched
        obtain ⟨tensor, member, named, inside⟩ := untouched
        exact foldl_fillOnes_inside holds member named inside
    rw [reached]
    exact ⟨holds, fun address outside => elsewhere address fun tensor member _ => outside tensor member⟩

private theorem prepareInput_fills (success : prepareInput [] i input preparing = .ok next) :
    next.memory = (inputTensors [input]).foldl fillOnes preparing.memory ∧
      (preparing.err = .ok → next.err = .ok) := by
  cases tagged : input.inputTag with
  | error error =>
    simp [prepareInput, checkOk, tagged, Except.mapError, bind, Except.bind] at success
  | ok tag =>
    have kind := input.consistent tag tagged
    by_cases isTensor : tag = .tensor
    · subst isTensor
      cases answer : input.inputTensorMeta with
      | error error =>
        simp [prepareInput, checkOk, tagged, answer, Except.mapError, bind, Except.bind] at success
      | ok tensorMeta =>
        cases value : input.evalue with
        | asTensor tensor =>
          simp [prepareInput, checkOk, tagged, answer, value, Except.mapError, bind, Except.bind,
            pure, Except.pure] at success
          subst success
          simp [inputTensors, value]
        | other tag notTensor =>
          rw [value] at kind
          exact absurd kind notTensor
    · simp [prepareInput, checkOk, tagged, isTensor, Except.mapError, bind, Except.bind, pure,
        Except.pure] at success
      subst success
      cases value : input.evalue with
      | asTensor tensor =>
        rw [value] at kind
        exact absurd kind.symm isTensor
      | other tag notTensor => simp [inputTensors, value]

theorem prepareInputs_fills (success : prepareInputs [] i inputs preparing = .ok next) :
    next.memory = (inputTensors inputs).foldl fillOnes preparing.memory ∧
      (preparing.err = .ok → next.err = .ok) := by
  induction inputs generalizing i preparing with
  | nil =>
    cases success
    exact ⟨rfl, id⟩
  | cons input rest ih =>
    cases step : prepareInput [] i input preparing with
    | error error => simp [prepareInputs, step, bind, Except.bind] at success
    | ok middle =>
      have remaining : prepareInputs [] (i + 1) rest middle = .ok next := by
        simpa [prepareInputs, step, bind, Except.bind] using success
      obtain ⟨filled, ok⟩ := prepareInput_fills step
      obtain ⟨others, stays⟩ := ih remaining
      have split : inputTensors (input :: rest) = inputTensors [input] ++ inputTensors rest :=
        List.filterMap_append (l := [input])
      rw [split, List.foldl_append, ← filled]
      exact ⟨others, stays ∘ ok⟩

/-- A call without buffers that runs to its end has run the loop to its end. -/
theorem prepareInputTensors_runs {semihosting : Bool} {method : Method}
    {allocator : ArmMemoryAllocator} {prepared : Prepared}
    (success : prepareInputTensors semihosting method allocator [] memory = .ok prepared) :
    prepareInputs [] 0 method.inputs ⟨.ok, memory, []⟩ = .ok prepared.toPreparing := by
  cases semihosting with
  | true => simp [prepareInputTensors, bind, Except.bind, throw, throwThe, MonadExceptOf.throw] at success
  | false =>
    simp only [prepareInputTensors, bind, Except.bind, throw, throwThe, MonadExceptOf.throw,
      pure, Except.pure, Bool.false_and, Bool.false_eq_true, if_false] at success
    split at success
    · cases success
    · split at success
      · cases success
      · cases loop : prepareInputs [] 0 method.inputs ⟨.ok, memory, []⟩ with
        | error exit => simp [loop] at success
        | ok preparing =>
          rw [loop] at success
          cases success
          rfl

/-- A call without buffers that runs to its end returns `Error::Ok`; it has filled the
tensor inputs with ones, and touched nothing else, exactly when the switch can. -/
theorem defaults_filled_iff (semihosting : Bool) (method : Method) (allocator : ArmMemoryAllocator)
    (memory : ℕ → UInt8) (prepared : Prepared)
    (success : prepareInputTensors semihosting method allocator [] memory = .ok prepared) :
    returned (.ok prepared) = some .ok ∧
      (FilledWithOnes (inputTensors method.inputs) memory prepared.memory ↔
        FillableBySwitch (inputTensors method.inputs) memory) := by
  obtain ⟨filled, ok⟩ := prepareInputs_fills (prepareInputTensors_runs success)
  rw [filled, returned, ok rfl]
  exact ⟨rfl, filledWithOnes_iff (inputTensors method.inputs) memory⟩

def zeroedCharInput : Method where
  inputs := [charInput 0xA8200000 1]
  getInputs := .ok
  counted := by decide

def zeroedCharPrepared : Prepared where
  err := .ok
  memory := write (fun _ => 0) 0xA8200000 [1]
  log := []
  allocator := ((ArmMemoryAllocator.new 0x6000 0x20004000).allocate 4
    MemoryAllocator.kDefaultAlignment).2

theorem defaults_filled_char :
    returned (.ok zeroedCharPrepared) = some .ok ∧
      (FilledWithOnes (inputTensors zeroedCharInput.inputs) (fun _ => 0) zeroedCharPrepared.memory ↔
        FillableBySwitch (inputTensors zeroedCharInput.inputs) fun _ => 0) :=
  defaults_filled_iff false zeroedCharInput (.new 0x6000 0x20004000) (fun _ => 0) zeroedCharPrepared rfl

/-- One 64-bit integer in the DDR pool, an element type the switch has no case for. -/
def zeroedLongInput : Method where
  inputs := [{
    inputTag := .ok .tensor
    inputTensorMeta := .ok ⟨8⟩
    evalue := .asTensor ⟨.long, 1, 8, 0xA8200000⟩
    consistent := by
      rintro tag ⟨⟩
      rfl }]
  getInputs := .ok
  counted := by decide

/-- A 64-bit element keeps its old bytes, and the call reports success. -/
theorem defaults_skip_long :
    ¬ ∀ (semihosting : Bool) (method : Method) (allocator : ArmMemoryAllocator)
      (memory : ℕ → UInt8) (prepared : Prepared),
      prepareInputTensors semihosting method allocator [] memory = .ok prepared →
      returned (.ok prepared) = some .ok →
      FilledWithOnes (inputTensors method.inputs) memory prepared.memory := by
  intro claim
  have filled := claim false zeroedLongInput (.new 0x6000 0x20004000) (fun _ => 0) ⟨⟨.ok, fun _ => 0, []⟩,
    ((ArmMemoryAllocator.new 0x6000 0x20004000).allocate 4 MemoryAllocator.kDefaultAlignment).2⟩ rfl rfl
  exact absurd (filled.ones _ (List.mem_singleton.mpr rfl) 0 (by decide)) (by decide)

end RunnerCm33
