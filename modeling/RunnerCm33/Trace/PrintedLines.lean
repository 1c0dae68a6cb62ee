import RunnerCm33.Trace.FaultHandlers
import RunnerCm33.Trace.Formatting
import RunnerCm33.Runtime.Elements
import RunnerCm33.Lib.Lines

/-! What the lines of `print_outputs` determine: a line is one line of text, and its
text determines the number in it. -/

namespace RunnerCm33

open RunnerCm33.Memory RunnerCm33.Numerals RunnerCm33.Lines

/-- The number an element's line shows. -/
def PrintedLine.number : PrintedLine → Option ℤ
  | .floatRaw _ value | .integer _ value => some value.toInt
  | .byte _ value => some value.toNat
  | .outputs _ | .output .. | .moreElements _ | .notTensor _ => none

variable {value other : ℕ} {memory otherMemory : ℕ → UInt8} {address otherAddress : ℕ}

private theorem digit_code {digit : Char} (inside : digit ∈ Nat.toDigits 10 value) :
    digit.toNat.toUInt8.toNat = digit.toNat ∧ 48 ≤ digit.toNat ∧ digit.toNat ≤ 57 := by
  have isDigit := Char.isDigit_iff_toNat.mp (Nat.isDigit_of_mem_toDigits (by decide) (by decide) inside)
  have zero : '0'.toNat = 48 := rfl
  have nine : '9'.toNat = 57 := rfl
  have fits : digit.toNat < UInt8.size := by
    rw [UInt8.size]
    omega
  exact ⟨UInt8.toNat_ofNat_of_lt' fits, isDigit⟩

theorem decimal_digits {char : UInt8} (member : char ∈ decimal value) :
    48 ≤ char.toNat ∧ char.toNat ≤ 57 := by
  obtain ⟨digit, inside, rfl⟩ := List.mem_map.mp member
  rw [(digit_code inside).1]
  exact (digit_code inside).2

/-- The value of decimal digits. -/
def ofDecimal (text : List UInt8) : ℕ :=
  text.foldl (fun high char => 10 * high + (char.toNat - 48)) 0

private theorem ofDecimal_decimal (value : ℕ) : ofDecimal (decimal value) = value := by
  conv_rhs => rw [← Nat.ofDigitChars_toDigits (b := 10) (n := value) (by decide) (by decide)]
  rw [ofDecimal, decimal, List.foldl_map, Nat.ofDigitChars_eq_foldl]
  apply List.foldl_ext
  intro high digit inside
  rw [(digit_code inside).1]
  rfl

private theorem decimal_injective (same : decimal value = decimal other) : value = other := by
  rw [← ofDecimal_decimal value, same, ofDecimal_decimal]

private theorem signedDecimal_injective : Function.Injective signedDecimal := by
  intro value other same
  have minus : ascii "-" = [45] := rfl
  have unsigned (magnitude : ℕ) : 45 ∉ decimal magnitude := fun member =>
    absurd (decimal_digits member).1 (by decide)
  rw [signedDecimal, signedDecimal, minus] at same
  simp only [Int32.lt_iff_toInt_lt, Int32.toInt_zero] at same
  rw [← Int32.toInt_inj]
  split at same <;> split at same
  · have magnitude := decimal_injective (List.append_cancel_left same)
    omega
  · exact absurd (by simp [← same]) (unsigned other.toInt.natAbs)
  · exact absurd (by simp [same]) (unsigned value.toInt.natAbs)
  · have magnitude := decimal_injective same
    omega

private theorem hexDigit_eq : ∀ nibble < 16, hexDigit (.ofNat nibble) = hexadecimal.symbol nibble := by
  decide

theorem hexByte_eq (value : UInt8) : hexByte value = hexadecimal.numeral 2 value.toNat := by
  have high : value >>> 4 = .ofNat (value.toNat / 16 % 16) := by
    rw [← UInt8.toNat_inj, UInt8.toNat_shiftRight, UInt8.toNat_ofNat']
    have shift : (4 : UInt8).toNat % 8 = 4 := rfl
    rw [shift, Nat.shiftRight_eq_div_pow]
    have small := value.toNat_lt
    omega
  have low : value &&& 0xF = .ofNat (value.toNat % 16) := by
    rw [← UInt8.toNat_inj, UInt8.toNat_and, UInt8.toNat_ofNat']
    have mask := Nat.and_two_pow_sub_one_eq_mod value.toNat 4
    have ones : (0xF : UInt8).toNat = 2 ^ 4 - 1 := rfl
    rw [ones, mask]
    omega
  rw [hexByte, high, low, hexDigit_eq _ (Nat.mod_lt _ (by decide)),
    hexDigit_eq _ (Nat.mod_lt _ (by decide))]
  simp [Alphabet.numeral, hexadecimal]

private theorem hexByte_injective : Function.Injective hexByte := by
  intro value other same
  have fits (byte : UInt8) : byte.toNat < hexadecimal.base ^ 2 := byte.toNat_lt
  have values := congrArg hexadecimal.value same
  rw [hexByte_eq, hexByte_eq, Alphabet.value_numeral (fits _), Alphabet.value_numeral (fits _)] at values
  exact UInt8.toNat_inj.mp (Option.some.inj values)

private theorem newline_notMem_hexByte (value : UInt8) : 0x0A ∉ hexByte value := by
  have symbols : ∀ digit < 16, hexadecimal.symbol digit ≠ 0x0A := by decide
  rw [hexByte_eq]
  intro member
  obtain high | low : 0x0A = hexadecimal.symbol (value.toNat / 16 % 16) ∨
      0x0A = hexadecimal.symbol (value.toNat % 16) := by
    simpa [Alphabet.numeral, hexadecimal] using member
  · exact symbols _ (Nat.mod_lt _ (by decide)) high.symm
  · exact symbols _ (Nat.mod_lt _ (by decide)) low.symm

theorem PrintedLine.isLine (line : PrintedLine) : IsLine 0x0A line.text := by
  have digits (value : ℕ) : 0x0A ∉ decimal value := fun member =>
    absurd (decimal_digits member).1 (by decide)
  have signed (value : Int32) : 0x0A ∉ signedDecimal value := by
    unfold signedDecimal
    split <;> simp [digits, ascii]
  cases line with
  | outputs count =>
    exact ⟨ascii "CM33: " ++ signedDecimal count ++ ascii " output(s):", by simp [signed, ascii],
      by simp [text, ascii]⟩
  | output i dtype numel nbytes =>
    exact ⟨ascii "  Output[" ++ signedDecimal i ++ ascii "]: dtype=" ++ signedDecimal dtype ++
      ascii ", numel=" ++ signedDecimal numel ++ ascii ", nbytes=" ++ decimal nbytes.toNat,
      by simp [signed, digits, ascii], by simp [text, ascii]⟩
  | floatRaw j value =>
    exact ⟨ascii "    [" ++ signedDecimal j ++ ascii "]=" ++ signedDecimal value ++
      ascii " (float raw)", by simp [signed, ascii], by simp [text, ascii]⟩
  | integer j value =>
    exact ⟨ascii "    [" ++ signedDecimal j ++ ascii "]=" ++ signedDecimal value,
      by simp [signed, ascii], by simp [text, ascii]⟩
  | byte j value =>
    exact ⟨ascii "    [" ++ signedDecimal j ++ ascii "]=0x" ++ hexByte value,
      by simp [signed, newline_notMem_hexByte, ascii], by simp [text, ascii]⟩
  | moreElements count =>
    exact ⟨ascii "    ... (" ++ signedDecimal count ++ ascii " more elements)",
      by simp [signed, ascii], by simp [text, ascii]⟩
  | notTensor i =>
    exact ⟨ascii "  Output[" ++ signedDecimal i ++ ascii "]: not a tensor",
      by simp [signed, ascii], by simp [text, ascii]⟩

private theorem word_toNat (b₀ b₁ b₂ b₃ : UInt8) :
    (b₀.toUInt32 ||| b₁.toUInt32 <<< 8 ||| b₂.toUInt32 <<< 16 ||| b₃.toUInt32 <<< 24).toNat =
      leValue [b₀, b₁, b₂, b₃] := by
  have h₀ := b₀.toNat_lt
  have h₁ := b₁.toNat_lt
  have h₂ := b₂.toNat_lt
  have h₃ := b₃.toNat_lt
  have shifts : (8 : UInt32).toNat % 32 = 8 ∧ (16 : UInt32).toNat % 32 = 16 ∧
      (24 : UInt32).toNat % 32 = 24 := by decide
  -- each byte goes above the bits of the ones before it
  have above (low : ℕ) (byte : UInt8) (place : ℕ) (small : low < 2 ^ place) (fits : place ≤ 24) :
      low ||| byte.toNat <<< place % 2 ^ 32 = low + 2 ^ place * byte.toNat := by
    have power : 2 ^ place * byte.toNat < 2 ^ 32 :=
      calc 2 ^ place * byte.toNat ≤ 2 ^ 24 * byte.toNat :=
            Nat.mul_le_mul_right _ (Nat.pow_le_pow_right (by decide) fits)
        _ < 2 ^ 24 * 2 ^ 8 := Nat.mul_lt_mul_of_pos_left byte.toNat_lt (by decide)
        _ = 2 ^ 32 := by decide
    rw [Nat.or_comm, Nat.shiftLeft_eq, Nat.mul_comm, Nat.mod_eq_of_lt power, Nat.mul_comm,
      ← Nat.shiftLeft_eq, ← Nat.shiftLeft_add_eq_or_of_lt small, Nat.shiftLeft_eq]
    omega
  simp only [UInt32.toNat_or, UInt32.toNat_shiftLeft, UInt8.toNat_toUInt32, shifts]
  rw [above _ b₁ 8 h₀ (by decide), above _ b₂ 16 (by omega) (by decide),
    above _ b₃ 24 (by omega) (by decide)]
  simp only [leValue, List.map_cons, List.map_nil, Nat.ofDigits_cons, Nat.ofDigits_nil]
  omega

private theorem bmod_inj {modulus : ℕ} (small : value < modulus) (otherSmall : other < modulus)
    (same : Int.bmod value modulus = Int.bmod other modulus) : value = other := by
  have wrapped := congrArg (· % (modulus : ℤ)) same
  simp only [Int.bmod_emod] at wrapped
  rw [Int.emod_eq_of_lt (by omega) (by omega), Int.emod_eq_of_lt (by omega) (by omega)] at wrapped
  exact Int.ofNat_inj.mp wrapped

theorem int32At_toInt : (int32At memory address).toInt = Int.bmod (leValue (read memory address 4)) (2 ^ 32) := by
  have bytes : read memory address 4 =
      [memory address, memory (address + 1), memory (address + 2), memory (address + 3)] := rfl
  rw [bytes, ← word_toNat]
  exact BitVec.toInt_eq_toNat_bmod _

theorem int32At_inj : int32At memory address = int32At otherMemory otherAddress ↔
    read memory address 4 = read otherMemory otherAddress 4 := by
  rw [← Int32.toInt_inj, int32At_toInt, int32At_toInt]
  constructor
  · intro same
    have small := leValue_lt (read memory address 4)
    have otherSmall := leValue_lt (read otherMemory otherAddress 4)
    rw [read_length] at small otherSmall
    exact leValue_inj (by simp) (bmod_inj small otherSmall same)
  · intro same
    rw [same]

private theorem between_inj {Value : Type} {convert : Value → List UInt8}
    (injective : Function.Injective convert)
    {before after : List UInt8} {value other : Value} :
    before ++ convert value ++ after = before ++ convert other ++ after ↔ value = other := by
  rw [List.append_cancel_right_eq, List.append_cancel_left_eq, injective.eq_iff]

theorem floatRaw_text_inj {j value other : Int32} :
    (PrintedLine.floatRaw j value).text = (PrintedLine.floatRaw j other).text ↔ value = other :=
  between_inj signedDecimal_injective

theorem integer_text_inj {j value other : Int32} :
    (PrintedLine.integer j value).text = (PrintedLine.integer j other).text ↔ value = other :=
  between_inj signedDecimal_injective

theorem byte_text_inj {j : Int32} {value other : UInt8} :
    (PrintedLine.byte j value).text = (PrintedLine.byte j other).text ↔ value = other :=
  between_inj hexByte_injective

theorem signedDecimal_index {j : ℕ} (small : j < 32) : signedDecimal (.ofNat j) = decimal j := by
  have index : (Int32.ofNat j).toInt = j := Int32.toInt_ofNat_of_lt (by omega)
  rw [signedDecimal, if_neg, index, Int.natAbs_natCast]
  rw [Int32.lt_iff_toInt_lt, index, Int32.toInt_zero]
  omega

theorem toInt8_toInt32_toInt (byte : UInt8) : byte.toInt8.toInt32.toInt = Int.bmod byte.toNat (2 ^ 8) := by
  rw [Int8.toInt_toInt32]
  exact BitVec.toInt_eq_toNat_bmod _

theorem toInt8_toInt32_inj {byte other : UInt8} :
    byte.toInt8.toInt32 = other.toInt8.toInt32 ↔ byte = other := by
  rw [← Int32.toInt_inj, toInt8_toInt32_toInt, toInt8_toInt32_toInt, ← UInt8.toNat_inj]
  constructor
  · exact bmod_inj byte.toNat_lt other.toNat_lt
  · intro same
    rw [same]

end RunnerCm33
