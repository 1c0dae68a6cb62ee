import RunnerCm33.Planned.DdrLayout
import RunnerCm33.Runtime.Values
import RunnerCm33.Lib.Windows

/-! The planned memory of a loaded method: a group of buffers with their index for an
id, and addresses at offsets into them. The check of an offset adds in `size_t`. -/

namespace RunnerCm33

open RunnerCm33.Blocks RunnerCm33.Windows

/-- `planned_memory`, constructed from the spans that the setup has placed. -/
structure HierarchicalAllocator where
  buffers : List Span
deriving DecidableEq, Repr

/-- The failed checks of `get_offset_address`. -/
inductive OffsetError where
  | idOutOfRange (memoryId : UInt32) (count : ℕ)
  | beyondBuffer (offsetBytes sizeBytes bufferSize memoryId : UInt32)
deriving DecidableEq, Repr

def OffsetError.error : OffsetError → Error
  | .idOutOfRange .. => .invalidArgument
  | .beyondBuffer .. => .memoryAllocationFailed

namespace HierarchicalAllocator

def getOffsetAddress (planned : HierarchicalAllocator) (memoryId offsetBytes sizeBytes : UInt32) :
    Except OffsetError UInt32 :=
  match planned.buffers[memoryId.toNat]? with
  | none => .error (.idOutOfRange memoryId planned.buffers.length)
  | some buffer =>
    if offsetBytes + sizeBytes ≤ buffer.size then .ok (buffer.data + offsetBytes)
    else .error (.beyondBuffer offsetBytes sizeBytes buffer.size memoryId)

/-- The buffer with this id has so many bytes at the offset. -/
def Has (planned : HierarchicalAllocator) (memoryId offsetBytes sizeBytes : UInt32) : Prop :=
  ∃ buffer ∈ planned.buffers[memoryId.toNat]?, offsetBytes.toNat + sizeBytes.toNat ≤ buffer.size.toNat

/-- The request is past the end of its buffer, and its sum wraps to within the size. -/
def Overlooks (planned : HierarchicalAllocator) (memoryId offsetBytes sizeBytes : UInt32) : Prop :=
  ∃ buffer ∈ planned.buffers[memoryId.toNat]?,
    Overlooked (2 ^ 32) offsetBytes.toNat sizeBytes.toNat buffer.size.toNat

/-- An address is answered for bytes that lie in the buffer, an error where it has none. -/
def AnswersRightly (planned : HierarchicalAllocator) (memoryId offsetBytes sizeBytes : UInt32) : Prop :=
  match planned.getOffsetAddress memoryId offsetBytes sizeBytes with
  | .ok address => ∃ buffer ∈ planned.buffers[memoryId.toNat]?,
      (window address.toNat 0 sizeBytes.toNat).Within buffer.block.start buffer.block.stop
  | .error _ => ¬planned.Has memoryId offsetBytes sizeBytes

/-- The buffers lie below the end of the address space. -/
def Addressable (planned : HierarchicalAllocator) : Prop :=
  ∀ buffer ∈ planned.buffers, buffer.block.stop < 2 ^ 32

instance (planned : HierarchicalAllocator) : Decidable planned.Addressable :=
  inferInstanceAs (Decidable (∀ buffer ∈ _, _ < _))

instance (planned : HierarchicalAllocator) (memoryId offsetBytes sizeBytes : UInt32) :
    Decidable (planned.Overlooks memoryId offsetBytes sizeBytes) :=
  inferInstanceAs (Decidable (∃ buffer ∈ _, Overlooked ..))

variable {planned : HierarchicalAllocator} {memoryId offsetBytes sizeBytes address : UInt32}
  {buffer : Span}

private theorem admitted_iff {limit : UInt32} : offsetBytes + sizeBytes ≤ limit ↔
    Admitted (2 ^ 32) offsetBytes.toNat sizeBytes.toNat limit.toNat := by
  rw [UInt32.le_iff_toNat_le, UInt32.toNat_add, Admitted]

theorem getOffsetAddress_ok_iff : planned.getOffsetAddress memoryId offsetBytes sizeBytes = .ok address ↔
    ∃ buffer ∈ planned.buffers[memoryId.toNat]?,
      Admitted (2 ^ 32) offsetBytes.toNat sizeBytes.toNat buffer.size.toNat ∧
        address = buffer.data + offsetBytes := by
  unfold getOffsetAddress
  cases found : planned.buffers[memoryId.toNat]? with
  | none => simp
  | some buffer =>
    simp only [admitted_iff, Option.mem_some_iff, exists_eq_left']
    split
    · rename_i admitted
      rw [Except.ok.injEq, and_iff_right admitted]
      exact eq_comm
    · rename_i refused
      exact iff_of_false (by simp) fun both => refused both.1

theorem getOffsetAddress_error {error : OffsetError}
    (refused : planned.getOffsetAddress memoryId offsetBytes sizeBytes = .error error) :
    error.error = if planned.buffers.length ≤ memoryId.toNat then .invalidArgument
      else .memoryAllocationFailed := by
  unfold getOffsetAddress at refused
  cases found : planned.buffers[memoryId.toNat]? with
  | none =>
    rw [found] at refused
    cases refused
    exact (if_pos (List.getElem?_eq_none_iff.mp found)).symm
  | some buffer =>
    have known : ¬planned.buffers.length ≤ memoryId.toNat := by
      obtain ⟨bound, -⟩ := List.getElem?_eq_some_iff.mp found
      omega
    simp only [found] at refused
    split at refused
    · cases refused
    · cases refused
      exact (if_neg known).symm

private theorem Addressable.stop_lt (addressable : planned.Addressable)
    (found : buffer ∈ planned.buffers[memoryId.toNat]?) : buffer.data.toNat + buffer.size.toNat < 2 ^ 32 :=
  addressable buffer (List.mem_of_getElem? found)

/-- Where the buffer has the bytes, they lie in it at the address answered. -/
theorem address_of_has (addressable : planned.Addressable)
    (found : buffer ∈ planned.buffers[memoryId.toNat]?)
    (inside : offsetBytes.toNat + sizeBytes.toNat ≤ buffer.size.toNat) :
    planned.getOffsetAddress memoryId offsetBytes sizeBytes = .ok (buffer.data + offsetBytes) ∧
      window (buffer.data + offsetBytes).toNat 0 sizeBytes.toNat =
        window buffer.data.toNat offsetBytes.toNat sizeBytes.toNat := by
  have stop := addressable.stop_lt found
  constructor
  · exact getOffsetAddress_ok_iff.mpr
      ⟨buffer, found, admitted_of_inside buffer.size.toNat_lt inside, rfl⟩
  · have start : (buffer.data + offsetBytes).toNat = buffer.data.toNat + offsetBytes.toNat := by
      rw [UInt32.toNat_add, Nat.mod_eq_of_lt (by omega)]
    simp only [window, start, Nat.add_zero]

/-- For all addressable buffers and every request: the answer is right unless the sum of
offset and size wraps to within the size of the buffer. -/
theorem getOffsetAddress_right_iff (planned : HierarchicalAllocator) (addressable : planned.Addressable)
    (memoryId offsetBytes sizeBytes : UInt32) :
    planned.AnswersRightly memoryId offsetBytes sizeBytes ↔
      ¬planned.Overlooks memoryId offsetBytes sizeBytes := by
  cases found : planned.buffers[memoryId.toNat]? with
  | none => simp [AnswersRightly, getOffsetAddress, Overlooks, Has, found]
  | some buffer =>
    have member : buffer ∈ planned.buffers[memoryId.toNat]? := found
    have stop := addressable.stop_lt member
    by_cases admitted : Admitted (2 ^ 32) offsetBytes.toNat sizeBytes.toNat buffer.size.toNat
    · have answer := getOffsetAddress_ok_iff.mpr ⟨buffer, member, admitted, rfl⟩
      have inside := admitted.inside_iff buffer.size.toNat_lt
      simp only [AnswersRightly, answer, Overlooks, found, Option.mem_some_iff, exists_eq_left', ← inside]
      constructor
      · intro within
        by_contra outside
        have overlooked := not_not.mp (mt inside.mpr outside)
        rw [UInt32.toNat_add] at within
        exact overlooked.outside stop offsetBytes.toNat_lt within
      · intro fits
        rw [(address_of_has addressable member fits).2]
        exact window_within_iff.mpr fits
    · have refused : planned.getOffsetAddress memoryId offsetBytes sizeBytes =
          .error (.beyondBuffer offsetBytes sizeBytes buffer.size memoryId) := by
        simp only [getOffsetAddress, found, admitted_iff, if_neg admitted]
      simp only [AnswersRightly, refused, Overlooks, Has, found, Option.mem_some_iff, exists_eq_left']
      refine iff_of_true ?_ fun overlooked => admitted overlooked.2
      exact fun inside => admitted (admitted_of_inside buffer.size.toNat_lt inside)

/-- Two planned buffers in DDR: the last bytes of the second. -/
theorem getOffsetAddress_right_last :
    (HierarchicalAllocator.mk [⟨0xA8200000, 64⟩, ⟨0xA8200040, 0x1000⟩]).AnswersRightly 1 0xFF0 16 :=
  (getOffsetAddress_right_iff _ (by decide) 1 0xFF0 16).mpr (by decide)

end HierarchicalAllocator

end RunnerCm33
