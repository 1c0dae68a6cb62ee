import RunnerCm33.Runtime.Values
import RunnerCm33.Lib.Memory
import Mathlib.Data.Nat.Digits.Defs

/-! The elements of a tensor: how large they are, where they lie, and the bytes of the
number one in each element type. -/

namespace RunnerCm33

open RunnerCm33.Blocks RunnerCm33.Memory

/-- `sizeof` of the C type behind the element type. -/
def ScalarType.elementSize : ScalarType → ℕ
  | .byte | .char | .bool | .qint8 | .quint8 | .quint4x2 | .quint2x4
  | .bits1x8 | .bits2x4 | .bits4x2 | .bits8
  | .float8E5m2 | .float8E4m3fn | .float8E5m2fnuz | .float8E4m3fnuz => 1
  | .short | .half | .bfloat16 | .bits16 | .uint16 => 2
  | .int | .float | .complexHalf | .qint32 | .uint32 => 4
  | .long | .double | .complexFloat | .uint64 => 8
  | .complexDouble => 16
  | .undefined => 0

/-- The number one, least significant byte first: integers and raw bits as such, the
floating point types with an exponent of zero and no fraction, complex numbers with no
imaginary part. -/
def ScalarType.encodedOne : ScalarType → List UInt8
  | .byte | .char | .bool | .qint8 | .quint8 | .quint4x2 | .quint2x4
  | .bits1x8 | .bits2x4 | .bits4x2 | .bits8 => [1]
  | .short | .bits16 | .uint16 => [1, 0]
  | .int | .qint32 | .uint32 => [1, 0, 0, 0]
  | .long | .uint64 => [1, 0, 0, 0, 0, 0, 0, 0]
  | .half => [0, 0x3C]
  | .bfloat16 => [0x80, 0x3F]
  | .float => [0, 0, 0x80, 0x3F]
  | .double => [0, 0, 0, 0, 0, 0, 0xF0, 0x3F]
  | .complexHalf => [0, 0x3C, 0, 0]
  | .complexFloat => [0, 0, 0x80, 0x3F, 0, 0, 0, 0]
  | .complexDouble => [0, 0, 0, 0, 0, 0, 0xF0, 0x3F, 0, 0, 0, 0, 0, 0, 0, 0]
  | .float8E5m2 => [0x3C]
  | .float8E4m3fn => [0x38]
  | .float8E5m2fnuz | .float8E4m3fnuz => [0x40]
  | .undefined => []

theorem ScalarType.encodedOne_length (scalarType : ScalarType) :
    scalarType.encodedOne.length = scalarType.elementSize := by
  cases scalarType <;> rfl

/-- The number bytes stand for, least significant byte first. -/
def leValue (bytes : List UInt8) : ℕ := Nat.ofDigits 256 (bytes.map UInt8.toNat)

/-- The value of an element of an integer type: two's complement for the signed ones. -/
def ScalarType.integerValue (scalarType : ScalarType) (element : List UInt8) : Option ℤ :=
  match scalarType with
  | .char | .short | .int | .long =>
      some (Int.bmod (leValue element) (2 ^ (8 * scalarType.elementSize)))
  | .byte | .uint16 | .uint32 | .uint64 => some (leValue element)
  | _ => none

private theorem digits_small {bytes : List UInt8} : ∀ digit ∈ bytes.map UInt8.toNat, digit < 256 := by
  intro digit member
  obtain ⟨byte, -, rfl⟩ := List.mem_map.mp member
  exact byte.toNat_lt

theorem leValue_lt (bytes : List UInt8) : leValue bytes < 256 ^ bytes.length := by
  simpa [leValue] using Nat.ofDigits_lt_base_pow_length (by decide) digits_small (l := bytes.map UInt8.toNat)

theorem leValue_inj {bytes others : List UInt8} (length : bytes.length = others.length)
    (same : leValue bytes = leValue others) : bytes = others := by
  have digits := Nat.ofDigits_inj_of_len_eq (by decide) (by simpa using length) digits_small digits_small same
  exact (List.map_inj_right fun _ _ => UInt8.toNat_inj.mp).mp digits

namespace Tensor

def count (tensor : Tensor) : ℕ := tensor.numel.toNatClampNeg

def storage (tensor : Tensor) : Block ℕ :=
  ⟨tensor.dataPtr.toNat, tensor.dataPtr.toNat + tensor.count * tensor.scalarType.elementSize,
    Nat.le_add_right ..⟩

def element (memory : ℕ → UInt8) (tensor : Tensor) (j : ℕ) : List UInt8 :=
  read memory (tensor.dataPtr.toNat + tensor.scalarType.elementSize * j) tensor.scalarType.elementSize

end Tensor

end RunnerCm33
