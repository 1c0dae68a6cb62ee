import RunnerCm33.Allocator.MemoryAllocator
import RunnerCm33.Runtime.Values
import RunnerCm33.Lib.Copies
import RunnerCm33.Lib.Runs
import RunnerCm33.Lib.Windows

/-! The loader that `runner_init` hands to the library: the bytes of the program in
memory, given out by their offset, in place or copied. What a segment is for makes no
difference to it. -/

namespace RunnerCm33

open RunnerCm33.Blocks RunnerCm33.Copies RunnerCm33.Memory RunnerCm33.Runs RunnerCm33.Windows

/-- A buffer without a function that frees it. -/
structure FreeableBuffer where
  data : UInt32
  size : UInt32
deriving DecidableEq, Repr

structure BufferDataLoader where
  data : UInt32
  size : UInt32
deriving DecidableEq, Repr

/-- The failed checks of `load` and `load_into`. -/
inductive LoadError where
  | nullDestination
  | beyondData (offset size limit : UInt32)
deriving DecidableEq, Repr

def LoadError.error : LoadError → Error
  | .nullDestination | .beyondData .. => .invalidArgument

/-- The arguments of `load_into`. -/
structure LoadRequest where
  offset : UInt32
  size : UInt32
  buffer : UInt32
deriving DecidableEq, Repr

namespace BufferDataLoader

def load (loader : BufferDataLoader) (offset size : UInt32) : Except LoadError FreeableBuffer :=
  if offset + size ≤ loader.size then .ok ⟨loader.data + offset, size⟩
  else .error (.beyondData offset size loader.size)

def loadInto (loader : BufferDataLoader) (request : LoadRequest) (memory : ℕ → UInt8) :
    Except LoadError (ℕ → UInt8) := do
  if request.buffer = nullptr then throw .nullDestination
  let result ← loader.load request.offset request.size
  return write memory request.buffer.toNat (read memory result.data.toNat request.size.toNat)

/-- A failed call leaves the memory as it was. -/
def step (loader : BufferDataLoader) (memory : ℕ → UInt8) (request : LoadRequest) : ℕ → UInt8 :=
  match loader.loadInto request memory with
  | .ok after => after
  | .error _ => memory

def block (loader : BufferDataLoader) : Block ℕ :=
  ⟨loader.data.toNat, loader.data.toNat + loader.size.toNat, Nat.le_add_right ..⟩

/-- The program has the bytes, and there is a place for them. -/
def Serves (loader : BufferDataLoader) (request : LoadRequest) : Prop :=
  request.buffer ≠ nullptr ∧ request.offset.toNat + request.size.toNat ≤ loader.size.toNat

instance (loader : BufferDataLoader) (request : LoadRequest) : Decidable (loader.Serves request) :=
  inferInstanceAs (Decidable (_ ∧ _))

/-- The bytes of a segment, as the memory holds them. -/
def segment (loader : BufferDataLoader) (memory : ℕ → UInt8) (request : LoadRequest) : List UInt8 :=
  read memory (loader.data.toNat + request.offset.toNat) request.size.toNat

end BufferDataLoader

def LoadRequest.block (request : LoadRequest) : Block ℕ :=
  ⟨request.buffer.toNat, request.buffer.toNat + request.size.toNat, Nat.le_add_right ..⟩

/-- What a loader has done: the program is as it was, and every request it serves has
its segment. -/
structure BufferDataLoader.Loaded (loader : BufferDataLoader) (requests : List LoadRequest)
    (memory after : ℕ → UInt8) : Prop where
  program : read after loader.data.toNat loader.size.toNat = read memory loader.data.toNat loader.size.toNat
  served : ∀ request ∈ requests, loader.Serves request →
    read after request.buffer.toNat request.size.toNat = loader.segment memory request
  others : ∀ address, (∀ request ∈ requests, loader.Serves request → address ∉ request.block.addresses) →
    after address = memory address

namespace BufferDataLoader

variable {loader : BufferDataLoader} {request : LoadRequest} {requests : List LoadRequest}
  {memory after : ℕ → UInt8}

def copyOf (loader : BufferDataLoader) (memory : ℕ → UInt8) (request : LoadRequest) : Copy UInt8 :=
  ⟨request.buffer.toNat, loader.segment memory request⟩

private theorem copyOf_block : (loader.copyOf memory request).block = request.block := by
  simp [copyOf, Copy.block, segment, LoadRequest.block]

private theorem step_of_serves (addressable : loader.block.stop < 2 ^ 32) (serves : loader.Serves request) :
    loader.step memory request = (loader.copyOf memory request).make memory := by
  obtain ⟨nonnull, inside⟩ := serves
  have stop : loader.data.toNat + loader.size.toNat < 2 ^ 32 := addressable
  have admitted : request.offset + request.size ≤ loader.size := by
    rw [UInt32.le_iff_toNat_le, UInt32.toNat_add, Nat.mod_eq_of_lt (by omega)]
    exact inside
  have start : (loader.data + request.offset).toNat = loader.data.toNat + request.offset.toNat := by
    rw [UInt32.toNat_add, Nat.mod_eq_of_lt (by omega)]
  simp only [step, loadInto, load, if_neg nonnull, if_pos admitted, bind, Except.bind, pure, Except.pure, start]
  rfl

private theorem step_of_refused (refused : ¬loader.Serves request)
    (noticed : ¬Overlooked (2 ^ 32) request.offset.toNat request.size.toNat loader.size.toNat) :
    loader.step memory request = memory := by
  by_cases null : request.buffer = nullptr
  · simp [step, loadInto, null, bind, Except.bind, throw, throwThe, MonadExceptOf.throw]
  · have outside : ¬request.offset.toNat + request.size.toNat ≤ loader.size.toNat :=
      fun inside => refused ⟨null, inside⟩
    have beyond : ¬request.offset + request.size ≤ loader.size := by
      intro sum
      rw [UInt32.le_iff_toNat_le, UInt32.toNat_add] at sum
      exact outside ((Admitted.inside_iff sum loader.size.toNat_lt).mpr noticed)
    simp only [step, loadInto, load, if_neg null, if_neg beyond, bind, Except.bind]

/-- A call that fails does so with the status for a wrong argument, and copies nothing. -/
theorem loadInto_error {error : LoadError} (failed : loader.loadInto request memory = .error error) :
    error.error = .invalidArgument ∧ loader.step memory request = memory := by
  constructor
  · cases error <;> rfl
  · simp only [step, failed]

private theorem segment_congr (inside : request.offset.toNat + request.size.toNat ≤ loader.size.toNat)
    (same : read after loader.data.toNat loader.size.toNat = read memory loader.data.toNat loader.size.toNat) :
    loader.segment after request = loader.segment memory request := by
  apply read_congr
  intro index bound
  have cell := List.getElem_of_eq same (i := request.offset.toNat + index) (by simp; omega)
  simpa [Nat.add_assoc] using cell

/-- A run of requests makes the copies of those it serves, all of the program at the start. -/
theorem run_eq_makeAll (addressable : loader.block.stop < 2 ^ 32)
    (noticed : ∀ request ∈ requests,
      ¬Overlooked (2 ^ 32) request.offset.toNat request.size.toNat loader.size.toNat)
    (away : ∀ request ∈ requests, request.block.Apart loader.block) :
    run loader.step memory requests =
      makeAll memory ((requests.filter fun request => loader.Serves request).map (loader.copyOf memory)) := by
  induction requests generalizing memory with
  | nil => rfl
  | cons request rest ih =>
    have later := @ih (loader.step memory request)
      (fun other member => noticed other (by simp [member])) fun other member => away other (by simp [member])
    rw [run_cons, later]
    by_cases serves : loader.Serves request
    · have program : read (loader.step memory request) loader.data.toNat loader.size.toNat =
          read memory loader.data.toNat loader.size.toNat := by
        have apart : (loader.copyOf memory request).block.Apart loader.block :=
          copyOf_block ▸ away request (by simp)
        rw [step_of_serves addressable serves]
        simpa [block] using read_make loader.block apart
      have copies : ∀ other ∈ rest.filter fun request => loader.Serves request,
          loader.copyOf (loader.step memory request) other = loader.copyOf memory other := by
        intro other member
        have served : loader.Serves other := by simpa using (List.mem_filter.mp member).2
        rw [copyOf, segment_congr served.2 program, copyOf]
      rw [List.filter_cons_of_pos (by simpa using serves), List.map_cons, makeAll_cons,
        List.map_congr_left copies, step_of_serves addressable serves]
    · rw [List.filter_cons_of_neg (by simpa using serves),
        step_of_refused serves (noticed request (by simp))]

/-- For every sequence of `load_into` calls to places apart from the program and from one
another, of which none slips through the check with a sum that wraps: the program stays
as it was, every request it has the bytes for ends up with them, and no other byte
changes. -/
theorem loads_hold (loader : BufferDataLoader) (memory : ℕ → UInt8) (requests : List LoadRequest)
    (addressable : loader.block.stop < 2 ^ 32)
    (noticed : ∀ request ∈ requests,
      ¬Overlooked (2 ^ 32) request.offset.toNat request.size.toNat loader.size.toNat)
    (away : ∀ request ∈ requests, request.block.Apart loader.block)
    (apart : requests.Pairwise fun first second => first.block.Apart second.block) :
    loader.Loaded requests memory (run loader.step memory requests) := by
  rw [run_eq_makeAll addressable noticed away]
  have targets : ∀ copy ∈ (requests.filter fun request => loader.Serves request).map (loader.copyOf memory),
      ∃ request ∈ requests, loader.Serves request ∧ copy.block = request.block := by
    intro copy member
    obtain ⟨request, kept, rfl⟩ := List.mem_map.mp member
    obtain ⟨present, serves⟩ := List.mem_filter.mp kept
    exact ⟨request, present, by simpa using serves, copyOf_block⟩
  refine ⟨?_, ?_, ?_⟩
  · have program := read_makeAll memory loader.block fun copy member => by
      obtain ⟨request, present, -, same⟩ := targets copy member
      exact same ▸ away request present
    simpa [block] using program
  · intro request present serves
    have kept : request ∈ requests.filter fun request => loader.Serves request :=
      List.mem_filter.mpr ⟨present, by simpa using serves⟩
    have targetsApart : ((requests.filter fun request => loader.Serves request).map
        (loader.copyOf memory)).Pairwise fun first second => first.block.Apart second.block := by
      rw [List.pairwise_map]
      simp only [copyOf_block]
      exact apart.filter _
    have held := read_of_makeAll memory targetsApart (List.mem_map_of_mem kept)
    simpa [copyOf, segment] using held
  · intro address outside
    have cell := read_makeAll memory ⟨address, address + 1, Nat.le_succ _⟩ fun copy member => by
      obtain ⟨request, present, serves, same⟩ := targets copy member
      have away := outside request present serves
      rw [same]
      simp only [Block.addresses, LoadRequest.block, Set.mem_Ico, Block.Apart] at away ⊢
      omega
    simpa using List.getElem_of_eq cell (i := 0) (by simp)

/-- Two segments of a program of 4 KiB, and between them a request for bytes behind it. -/
theorem loads_hold_two :
    (BufferDataLoader.mk 0xC0000000 0x1000).Loaded
      [⟨0, 0x40, 0x20004000⟩, ⟨0xFF0, 0x20, 0x20005000⟩, ⟨0x40, 16, 0x20004040⟩] UInt8.ofNat
      (run (step (.mk 0xC0000000 0x1000)) UInt8.ofNat
        [⟨0, 0x40, 0x20004000⟩, ⟨0xFF0, 0x20, 0x20005000⟩, ⟨0x40, 16, 0x20004040⟩]) := by
  apply loads_hold
  · decide
  · decide
  · simp [LoadRequest.block, block, Block.Apart]
  · simp [LoadRequest.block, Block.Apart]

end BufferDataLoader

end RunnerCm33
