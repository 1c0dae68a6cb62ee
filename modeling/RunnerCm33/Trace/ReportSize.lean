import RunnerCm33.Trace.PrintOutputs

/-! How large the report of `print_outputs` gets: it shows at most 32 elements of an
output, whatever their type, and each on a short line. -/

namespace RunnerCm33

open RunnerCm33.BoundedLog

variable {memory : ℕ → UInt8} {tensor : Tensor} {j : ℕ} {i : Int32} {outputs : List EValue}

/-- An element's line is longest for a `float`, which is shown as a signed word. -/
theorem printElement_length (small : j < 32) : (printElement memory tensor j).text.length ≤ 33 := by
  have index : (decimal j).length ≤ 2 := decimal_length (by decide) (by omega)
  have word (address : ℕ) := signedDecimal_length (int32At memory address)
  have byte (address : ℕ) := signedDecimal_length (memory address).toInt8.toInt32
  unfold printElement
  split
  · have := word (tensor.dataPtr.toNat + 4 * j)
    simp [PrintedLine.text, signedDecimal_index small, ascii]
    omega
  · have := word (tensor.dataPtr.toNat + 4 * j)
    simp [PrintedLine.text, signedDecimal_index small, ascii]
    omega
  · have := byte (tensor.dataPtr.toNat + j)
    simp [PrintedLine.text, signedDecimal_index small, ascii]
    omega
  · have := byte (tensor.dataPtr.toNat + j)
    simp [PrintedLine.text, signedDecimal_index small, ascii]
    omega
  · simp [PrintedLine.text, signedDecimal_index small, ascii, hexByte]
    omega

def linesLength (lines : List PrintedLine) : ℕ := (lines.map PrintedLine.text).flatten.length

@[simp] theorem linesLength_cons {line : PrintedLine} {lines : List PrintedLine} :
    linesLength (line :: lines) = line.text.length + linesLength lines := by
  simp [linesLength]

@[simp] theorem linesLength_append {lines more : List PrintedLine} :
    linesLength (lines ++ more) = linesLength lines + linesLength more := by
  simp [linesLength]

private theorem linesLength_le {lines : List PrintedLine} {bound : ℕ}
    (each : ∀ line ∈ lines, line.text.length ≤ bound) : linesLength lines ≤ lines.length * bound := by
  induction lines with
  | nil => simp [linesLength]
  | cons line rest ih =>
    have first := each line (by simp)
    have later := ih fun other member => each other (by simp [member])
    rw [linesLength_cons, List.length_cons, Nat.succ_mul]
    omega

/-- The lines of one output: a head, at most 32 elements, and how many were left out. -/
theorem printOutput_bytes (output : EValue) : linesLength (printOutput memory i output) ≤ 1171 := by
  cases output with
  | other tag notTensor =>
    have index := signedDecimal_length i
    simp [printOutput, linesLength, PrintedLine.text, ascii]
    omega
  | asTensor tensor =>
    have elements : linesLength ((List.range tensor.shown).map (printElement memory tensor)) ≤ 32 * 33 := by
      have shown : tensor.shown ≤ 32 := Nat.min_le_right ..
      have short : ∀ line ∈ (List.range tensor.shown).map (printElement memory tensor),
          line.text.length ≤ 33 := by
        intro line member
        obtain ⟨j, inside, rfl⟩ := List.mem_map.mp member
        exact printElement_length (Nat.lt_of_lt_of_le (List.mem_range.mp inside) shown)
      refine (linesLength_le short).trans ?_
      rw [List.length_map, List.length_range]
      omega
    have head : (PrintedLine.output i (.ofNat tensor.scalarType.value) tensor.numel
        tensor.nbytes).text.length ≤ 79 := by
      have index := signedDecimal_length i
      have dtype := signedDecimal_length (.ofNat tensor.scalarType.value)
      have numel := signedDecimal_length tensor.numel
      have nbytes := decimal_word_length tensor.nbytes
      simp [PrintedLine.text, ascii]
      omega
    have rest (limit : Int32) : linesLength (if tensor.numel > limit
        then [PrintedLine.moreElements (tensor.numel - limit)] else []) ≤ 36 := by
      have digits := signedDecimal_length (tensor.numel - limit)
      split <;> simp [linesLength, PrintedLine.text, ascii]
      omega
    rw [printOutput, linesLength_cons, linesLength_append, limit_eq]
    have := rest (if tensor.numel < 32 then tensor.numel else 32)
    omega

theorem outputsReport_length (memory : ℕ → UInt8) (outputs : List EValue) :
    (outputsReport memory outputs).length ≤ 29 + outputs.length * 1171 := by
  have each (indexed : List (EValue × ℕ)) :
      linesLength (indexed.flatMap fun entry => printOutput memory (.ofNat entry.2) entry.1) ≤
        indexed.length * 1171 := by
    induction indexed with
    | nil => simp [linesLength]
    | cons first rest ih =>
      obtain ⟨output, i⟩ := first
      have head : linesLength (printOutput memory (.ofNat i) output) ≤ 1171 := printOutput_bytes output
      rw [List.flatMap_cons, linesLength_append, List.length_cons, Nat.succ_mul, Nat.add_comm]
      exact Nat.add_le_add ih head
  have head : (PrintedLine.outputs (.ofNat outputs.length)).text.length ≤ 29 := by
    have digits := signedDecimal_length (.ofNat outputs.length)
    simp [PrintedLine.text, ascii]
    omega
  have lines := each outputs.zipIdx
  rw [List.length_zipIdx] at lines
  have whole : (outputsReport memory outputs).length = linesLength (printOutputs memory outputs) := rfl
  rw [whole, printOutputs, linesLength_cons]
  exact Nat.add_le_add head lines

end RunnerCm33
