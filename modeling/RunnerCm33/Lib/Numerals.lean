import Mathlib.Algebra.Group.Nat.Defs

/-! Numbers written in a fixed number of digits: the digits in any base over any
alphabet, most significant first, and the value read back from them. -/

namespace RunnerCm33.Numerals

universe u

/-- Symbols for the digits of a base, each read back as its digit. -/
structure Alphabet (Cell : Type u) where
  base : ℕ
  positive : 0 < base
  symbol : ℕ → Cell
  digit : Cell → Option ℕ
  digit_symbol : ∀ value < base, digit (symbol value) = some value

namespace Alphabet

variable {Cell : Type u} (alphabet : Alphabet Cell)

/-- The lowest `width` digits of a number. -/
def numeral : ℕ → ℕ → List Cell
  | 0, _ => []
  | width + 1, value =>
      alphabet.symbol (value / alphabet.base ^ width % alphabet.base) :: numeral width value

/-- The value of digits that follow others of value `high`. -/
def valueFrom : ℕ → List Cell → Option ℕ
  | high, [] => some high
  | high, cell :: rest =>
      match alphabet.digit cell with
      | some digit => valueFrom (high * alphabet.base + digit) rest
      | none => none

def value (cells : List Cell) : Option ℕ := alphabet.valueFrom 0 cells

variable {alphabet} {width value high : ℕ}

@[simp] theorem numeral_length : (alphabet.numeral width value).length = width := by
  induction width with
  | zero => rfl
  | succ width ih => rw [numeral, List.length_cons, ih]

theorem valueFrom_numeral : alphabet.valueFrom high (alphabet.numeral width value) =
    some (high * alphabet.base ^ width + value % alphabet.base ^ width) := by
  induction width generalizing high with
  | zero => simp [numeral, valueFrom, Nat.mod_one]
  | succ width ih =>
    have small := Nat.mod_lt (value / alphabet.base ^ width) alphabet.positive
    rw [numeral, valueFrom, alphabet.digit_symbol _ small]
    simp only [ih]
    rw [Nat.mod_pow_succ, Nat.pow_succ, Nat.add_mul]
    congr 1
    rw [Nat.mul_assoc high, Nat.mul_comm (alphabet.base ^ width) alphabet.base, Nat.add_assoc,
      Nat.mul_comm (_ % alphabet.base), Nat.add_comm (_ * _) (_ % _)]

theorem value_numeral (fits : value < alphabet.base ^ width) :
    alphabet.value (alphabet.numeral width value) = some value := by
  rw [Alphabet.value, valueFrom_numeral, Nat.zero_mul, Nat.zero_add, Nat.mod_eq_of_lt fits]

end Alphabet

end RunnerCm33.Numerals
