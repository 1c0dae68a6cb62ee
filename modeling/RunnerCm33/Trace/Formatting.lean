import RunnerCm33.Trace.Buffer
import RunnerCm33.Runtime.Values

/-! The texts the firmware formats for the trace: conversions of numbers, what
`snprintf` leaves in its buffer and returns, and the lines of `print_outputs`. -/

namespace RunnerCm33

/-- `%lu`. -/
def decimal (value : ℕ) : List UInt8 := (Nat.toDigits 10 value).map fun digit => digit.toNat.toUInt8

/-- `%d`. -/
def signedDecimal (value : Int32) : List UInt8 :=
  if value < 0 then ascii "-" ++ decimal value.toInt.natAbs else decimal value.toInt.natAbs

def hexDigit (nibble : UInt8) : UInt8 := if nibble < 10 then 0x30 + nibble else 0x57 + nibble

/-- `%02x` of a byte. -/
def hexByte (value : UInt8) : List UInt8 := [hexDigit (value >>> 4), hexDigit (value &&& 0xF)]

theorem decimal_length {value digits : ℕ} (positive : 0 < digits) (small : value < 10 ^ digits) :
    (decimal value).length ≤ digits := by
  rw [decimal, List.length_map]
  exact (Nat.length_toDigits_le_iff (by decide) positive).mpr small

theorem decimal_word_length (value : UInt32) : (decimal value.toNat).length ≤ 10 :=
  decimal_length (by decide) (value.toNat_lt.trans (by decide))

theorem signedDecimal_length (value : Int32) : (signedDecimal value).length ≤ 11 := by
  have magnitude : value.toInt.natAbs < 10 ^ 10 := by
    have low := value.le_toInt
    have high := value.toInt_lt
    omega
  have digits := decimal_length (by decide) magnitude
  have sign : (ascii "-").length = 1 := by decide
  unfold signedDecimal
  split
  · rw [List.length_append, sign]
    omega
  · exact digits.trans (by decide)

/-- What `snprintf` returns and leaves in its buffer: the length of the whole text,
negative when it is not an `int`, and the part that fits with a NUL behind it. -/
structure Formatted where
  n : ℤ
  buf : List UInt8
deriving DecidableEq, Repr

def snprintf (size : ℕ) (text : List UInt8) : Formatted where
  n := if text.length < 2 ^ 31 then text.length else -1
  buf := text.take (size - 1) ++ [0]

/-- The lines `print_outputs` formats into its `buf[128]`. -/
inductive PrintedLine where
  | outputs (count : Int32)
  | output (i dtype numel : Int32) (nbytes : UInt32)
  | floatRaw (j value : Int32)
  | integer (j value : Int32)
  | byte (j : Int32) (value : UInt8)
  | moreElements (count : Int32)
  | notTensor (i : Int32)
deriving DecidableEq, Repr

def PrintedLine.text : PrintedLine → List UInt8
  | .outputs count => ascii "CM33: " ++ signedDecimal count ++ ascii " output(s):\n"
  | .output i dtype numel nbytes =>
      ascii "  Output[" ++ signedDecimal i ++ ascii "]: dtype=" ++ signedDecimal dtype ++
        ascii ", numel=" ++ signedDecimal numel ++ ascii ", nbytes=" ++ decimal nbytes.toNat ++
        ascii "\n"
  | .floatRaw j value =>
      ascii "    [" ++ signedDecimal j ++ ascii "]=" ++ signedDecimal value ++ ascii " (float raw)\n"
  | .integer j value => ascii "    [" ++ signedDecimal j ++ ascii "]=" ++ signedDecimal value ++ ascii "\n"
  | .byte j value => ascii "    [" ++ signedDecimal j ++ ascii "]=0x" ++ hexByte value ++ ascii "\n"
  | .moreElements count => ascii "    ... (" ++ signedDecimal count ++ ascii " more elements)\n"
  | .notTensor i => ascii "  Output[" ++ signedDecimal i ++ ascii "]: not a tensor\n"

theorem PrintedLine.text_length (line : PrintedLine) : line.text.length < 128 := by
  cases line with
  | outputs count =>
    have := signedDecimal_length count
    simp [text, ascii]
    omega
  | output i dtype numel nbytes =>
    have := signedDecimal_length i
    have := signedDecimal_length dtype
    have := signedDecimal_length numel
    have := decimal_word_length nbytes
    simp [text, ascii]
    omega
  | floatRaw j value =>
    have := signedDecimal_length j
    have := signedDecimal_length value
    simp [text, ascii]
    omega
  | integer j value =>
    have := signedDecimal_length j
    have := signedDecimal_length value
    simp [text, ascii]
    omega
  | byte j value =>
    have := signedDecimal_length j
    simp [text, ascii, hexByte]
    omega
  | moreElements count =>
    have := signedDecimal_length count
    simp [text, ascii]
    omega
  | notTensor i =>
    have := signedDecimal_length i
    simp [text, ascii]
    omega

/-- A 32-bit element, least significant byte first. -/
def int32At (memory : ℕ → UInt8) (address : ℕ) : Int32 :=
  ((memory address).toUInt32 ||| (memory (address + 1)).toUInt32 <<< 8 |||
    (memory (address + 2)).toUInt32 <<< 16 ||| (memory (address + 3)).toUInt32 <<< 24).toInt32

def printElement (memory : ℕ → UInt8) (tensor : Tensor) (j : ℕ) : PrintedLine :=
  match tensor.scalarType with
  | .float => .floatRaw (.ofNat j) (int32At memory (tensor.dataPtr.toNat + 4 * j))
  | .int => .integer (.ofNat j) (int32At memory (tensor.dataPtr.toNat + 4 * j))
  | .char | .byte => .integer (.ofNat j) (memory (tensor.dataPtr.toNat + j)).toInt8.toInt32
  | _ => .byte (.ofNat j) (memory (tensor.dataPtr.toNat + j))

def printOutput (memory : ℕ → UInt8) (i : Int32) : EValue → List PrintedLine
  | .asTensor tensor =>
    let limit := if tensor.numel < 32 then tensor.numel else 32
    .output i (.ofNat tensor.scalarType.value) tensor.numel tensor.nbytes ::
      ((List.range limit.toNatClampNeg).map (printElement memory tensor) ++
        if tensor.numel > limit then [.moreElements (tensor.numel - limit)] else [])
  | .other _ _ => [.notTensor i]

/-- The lines `print_outputs` writes, one `trace_write` each. -/
def printOutputs (memory : ℕ → UInt8) (outputs : List EValue) : List PrintedLine :=
  .outputs (.ofNat outputs.length) ::
    outputs.zipIdx.flatMap fun (output, i) => printOutput memory (.ofNat i) output

end RunnerCm33
