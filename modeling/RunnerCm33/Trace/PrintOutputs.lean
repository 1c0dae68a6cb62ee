import RunnerCm33.Trace.PrintedLines
import RunnerCm33.Trace.RunInvariant

/-! What the report of `print_outputs` shows of the output tensors. Its loop reads the
storage at a width that depends on the element type; the lines determine the elements
where that width is the elements' own. -/

namespace RunnerCm33

open RunnerCm33.Runs RunnerCm33.BoundedLog RunnerCm33.Memory RunnerCm33.Lines

/-- `print_outputs`, one `trace_write` a line. -/
def printOutputsTrace (memory : ℕ → UInt8) (outputs : List EValue) (trace : Trace) : Trace :=
  run traceStep trace ((printOutputs memory outputs).map fun line => .write (.printOutputs line))

def outputsReport (memory : ℕ → UInt8) (outputs : List EValue) : List UInt8 :=
  ((printOutputs memory outputs).map PrintedLine.text).flatten

/-- The report and a NUL behind it fit the buffer. -/
def ReportFits (trace : Trace) (memory : ℕ → UInt8) (outputs : List EValue) : Prop :=
  trace.traceIdx.toNat + (outputsReport memory outputs).length < rscTraceBufSize.toNat

instance (trace : Trace) (memory : ℕ → UInt8) (outputs : List EValue) :
    Decidable (ReportFits trace memory outputs) := inferInstanceAs (Decidable (_ < _))

/-- The elements of a tensor that have a line. -/
def Tensor.shown (tensor : Tensor) : ℕ := min tensor.count 32

/-- Outputs of one element type and shape, possibly in different places. -/
inductive EValue.SameShape : EValue → EValue → Prop
  | tensor (tensor : Tensor) (dataPtr : UInt32) :
      SameShape (.asTensor tensor) (.asTensor { tensor with dataPtr })
  | other (tag otherTag : Tag) (notTensor : tag ≠ .tensor) (otherNotTensor : otherTag ≠ .tensor) :
      SameShape (.other tag notTensor) (.other otherTag otherNotTensor)

/-- Two outputs agree in the elements that have a line. -/
def EValue.SameShown (memory otherMemory : ℕ → UInt8) : EValue → EValue → Prop
  | .asTensor tensor, .asTensor placed =>
      ∀ j < tensor.shown, tensor.element memory j = placed.element otherMemory j
  | _, _ => True

/-- The line labelled `[j]` determines element `j` and is determined by it, and the
number in it is the element's value where the element type is an integer type. -/
structure ShowsElement (memory : ℕ → UInt8) (tensor : Tensor) (j : ℕ) : Prop where
  labelled : ascii "    [" ++ decimal j ++ ascii "]=" <+: (printElement memory tensor j).text
  determines : ∀ otherMemory dataPtr,
    (printElement otherMemory { tensor with dataPtr } j).text = (printElement memory tensor j).text ↔
      { tensor with dataPtr }.element otherMemory j = tensor.element memory j
  number : ∀ value ∈ tensor.scalarType.integerValue (tensor.element memory j),
    (printElement memory tensor j).number = some value

/-- What is asked of a report: it consists of the lines, the lines show the elements,
and another run with outputs of the same shapes writes the same report only if the
shown elements are the same. -/
structure ShowsOutputs (trace : Trace) (memory : ℕ → UInt8) (outputs : List EValue) : Prop where
  report : reportOf trace (printOutputsTrace memory outputs trace) = outputsReport memory outputs
  elements : ∀ tensor, .asTensor tensor ∈ outputs → ∀ j < tensor.shown, ShowsElement memory tensor j
  runs : ∀ (otherTrace : Trace) (otherLog : List (List UInt8)) (otherMemory : ℕ → UInt8)
    (others : List EValue), otherTrace.Holds otherLog →
    List.Forall₂ EValue.SameShape outputs others → ReportFits otherTrace otherMemory others →
    reportOf trace (printOutputsTrace memory outputs trace) =
      reportOf otherTrace (printOutputsTrace otherMemory others otherTrace) →
    List.Forall₂ (EValue.SameShown memory otherMemory) outputs others

/-- The loop reads elements of the type at their own width, and as the numbers they
are: it has a case for the type, or takes it for bytes and it is one byte large. The
case for bytes is right below 128. -/
def Tensor.Showable (memory : ℕ → UInt8) (tensor : Tensor) : Prop :=
  tensor.shown = 0 ∨ tensor.scalarType ∈ [.float, .int, .char] ∨
    (tensor.scalarType.elementSize = 1 ∧
      (tensor.scalarType = .byte → ∀ j < tensor.shown, ∀ byte ∈ tensor.element memory j, byte < 128))

variable {trace : Trace} {log : List (List UInt8)} {memory otherMemory : ℕ → UInt8}
  {outputs others : List EValue} {tensor : Tensor} {dataPtr : UInt32} {j : ℕ}

private theorem printOutputsTrace_report (holds : trace.Holds log) (fits : ReportFits trace memory outputs) :
    reportOf trace (printOutputsTrace memory outputs trace) = outputsReport memory outputs := by
  have record (line : PrintedLine) : (TraceCall.printOutputs line).records = [line.text] := by
    have length := line.text_length
    have positive := List.length_pos_iff.mpr line.isLine.ne_nil
    rw [TraceCall.records, TraceCall.text, if_pos ⟨positive, by omega⟩,
      List.take_of_length_le (by omega)]
  have events : ((printOutputs memory outputs).map fun line =>
      TraceOp.write (.printOutputs line)).flatMap TraceOp.events =
      ((printOutputs memory outputs).map PrintedLine.text).map .offer := by
    rw [List.flatMap_map, List.map_map, List.map_eq_flatMap]
    simp [TraceOp.events, record]
  have kept := run_holds holds
    ((printOutputs memory outputs).map fun line => TraceOp.write (.printOutputs line))
  rw [ReportFits, holds.index] at fits
  rw [events, run_offers, accepted_of_fits fits] at kept
  have count : (printOutputsTrace memory outputs trace).traceIdx.toNat - trace.traceIdx.toNat =
      (outputsReport memory outputs).length := by
    have index := kept.index
    rw [List.flatten_append, List.length_append, ← holds.index] at index
    exact Nat.sub_eq_of_eq_add' index
  have content := kept.content
  rw [List.flatten_append, List.length_append, read_add] at content
  rw [reportOf, count, holds.index]
  exact (List.append_inj content (by simp)).2

theorem limit_eq (tensor : Tensor) :
    (if tensor.numel < 32 then tensor.numel else 32).toNatClampNeg = tensor.shown := by
  have thirtyTwo : (32 : Int32).toInt = 32 := rfl
  simp only [Tensor.shown, Tensor.count, Int32.toNatClampNeg, Int32.lt_iff_toInt_lt, thirtyTwo]
  split <;> omega

private theorem printElement_catchAll (absent : tensor.scalarType ∉ [.float, .int, .char, .byte]) :
    printElement memory tensor j = .byte (.ofNat j) (memory (tensor.dataPtr.toNat + j)) := by
  unfold printElement
  split <;> simp_all

private theorem printElement_labelled (memory : ℕ → UInt8) (tensor : Tensor) (small : j < 32) :
    ascii "    [" ++ decimal j ++ ascii "]=" <+: (printElement memory tensor j).text := by
  have byteLabel : ascii "]=0x" = ascii "]=" ++ ascii "0x" := rfl
  unfold printElement
  split <;> simp only [PrintedLine.text, signedDecimal_index small, byteLabel, List.append_assoc] <;>
    simp [List.prefix_append_right_inj]

private theorem element_of_byte (single : tensor.scalarType.elementSize = 1) :
    tensor.element memory j = [memory (tensor.dataPtr.toNat + j)] := by
  rw [Tensor.element, single, Nat.one_mul]
  rfl

private theorem integerValue_of_byte {scalarType : ScalarType} (single : scalarType.elementSize = 1)
    (absent : scalarType ∉ [.float, .int, .char, .byte]) (element : List UInt8) :
    scalarType.integerValue element = none := by
  cases scalarType <;> simp [ScalarType.elementSize] at single absent <;> rfl

private theorem leValue_singleton (byte : UInt8) : leValue [byte] = byte.toNat := by
  simp [leValue]

/-- A type printed as a 32-bit number: the text shows all four bytes of the element. -/
theorem showsElement_float (isFloat : tensor.scalarType = .float) (small : j < 32) :
    ShowsElement memory tensor j where
  labelled := printElement_labelled memory tensor small
  determines otherMemory dataPtr := by
    simp only [printElement, isFloat, Tensor.element, ScalarType.elementSize]
    rw [floatRaw_text_inj, int32At_inj]
  number := by simp [isFloat, ScalarType.integerValue]

private theorem showsElement_int (isInt : tensor.scalarType = .int) (small : j < 32) :
    ShowsElement memory tensor j where
  labelled := printElement_labelled memory tensor small
  determines otherMemory dataPtr := by
    simp only [printElement, isInt, Tensor.element, ScalarType.elementSize]
    rw [integer_text_inj, int32At_inj]
  number value member := by
    simp only [isInt, ScalarType.integerValue, Tensor.element, ScalarType.elementSize] at member
    obtain rfl := Option.some.inj member
    simp only [printElement, isInt, PrintedLine.number, int32At_toInt]

private theorem determines_of_signedByte (signed : tensor.scalarType = .char ∨ tensor.scalarType = .byte)
    (otherMemory : ℕ → UInt8) (dataPtr : UInt32) :
    (printElement otherMemory { tensor with dataPtr } j).text = (printElement memory tensor j).text ↔
      { tensor with dataPtr }.element otherMemory j = tensor.element memory j := by
  have single : tensor.scalarType.elementSize = 1 := by
    rcases signed with same | same <;> rw [same] <;> rfl
  have placed : { tensor with dataPtr }.element otherMemory j = [otherMemory (dataPtr.toNat + j)] :=
    element_of_byte single
  rw [element_of_byte single, placed, List.singleton_inj]
  rcases signed with same | same <;>
  · simp only [printElement, same]
    rw [integer_text_inj, toInt8_toInt32_inj]

private theorem showsElement_char (isChar : tensor.scalarType = .char) (small : j < 32) :
    ShowsElement memory tensor j where
  labelled := printElement_labelled memory tensor small
  determines := determines_of_signedByte (.inl isChar)
  number value member := by
    rw [element_of_byte (by rw [isChar]; rfl)] at member
    simp only [isChar, ScalarType.integerValue, ScalarType.elementSize, leValue_singleton] at member
    obtain rfl := Option.some.inj member
    simp only [printElement, isChar, PrintedLine.number, toInt8_toInt32_toInt]

/-- An unsigned byte is printed as a signed one: the number is its value below 128. -/
theorem showsElement_byte_iff (isByte : tensor.scalarType = .byte) (small : j < 32) :
    ShowsElement memory tensor j ↔ ∀ byte ∈ tensor.element memory j, byte < 128 := by
  have single : tensor.scalarType.elementSize = 1 := by
    rw [isByte]
    rfl
  have shown : (printElement memory tensor j).number =
      some (Int.bmod (memory (tensor.dataPtr.toNat + j)).toNat (2 ^ 8)) := by
    simp only [printElement, isByte, PrintedLine.number, toInt8_toInt32_toInt]
  have value : tensor.scalarType.integerValue (tensor.element memory j) =
      some ((memory (tensor.dataPtr.toNat + j)).toNat : ℤ) := by
    rw [element_of_byte single, isByte, ScalarType.integerValue, leValue_singleton]
  have range := (memory (tensor.dataPtr.toNat + j)).toNat_lt
  have half : (128 : UInt8).toNat = 128 := rfl
  simp only [element_of_byte single, List.mem_singleton, forall_eq, UInt8.lt_iff_toNat_lt, half]
  constructor
  · intro shows
    have same := Option.some.inj (shown.symm.trans (shows.number _ value))
    rw [Int.bmod_def] at same
    omega
  · intro low
    refine ⟨printElement_labelled memory tensor small, determines_of_signedByte (.inr isByte), ?_⟩
    intro number member
    obtain rfl := Option.some.inj (value.symm.trans member)
    rw [shown]
    exact congrArg some (by rw [Int.bmod_def]; omega)

/-- A type the loop takes for bytes is shown exactly when it is one byte large. -/
theorem showsElement_catchAll (absent : tensor.scalarType ∉ [.float, .int, .char, .byte])
    (single : tensor.scalarType.elementSize = 1) (small : j < 32) : ShowsElement memory tensor j where
  labelled := printElement_labelled memory tensor small
  determines otherMemory dataPtr := by
    have placed : { tensor with dataPtr }.element otherMemory j = [otherMemory (dataPtr.toNat + j)] :=
      element_of_byte single
    have line : printElement otherMemory { tensor with dataPtr } j =
        .byte (.ofNat j) (otherMemory (dataPtr.toNat + j)) := printElement_catchAll absent
    rw [element_of_byte single, placed, List.singleton_inj, line, printElement_catchAll absent,
      byte_text_inj]
  number value member := by
    rw [integerValue_of_byte single absent] at member
    cases member

/-- The first element of a larger type has bytes that its line does not show, and an
element without bytes has a line all the same. -/
theorem elementSize_of_shows (absent : tensor.scalarType ∉ [.float, .int, .char, .byte])
    (shows : ShowsElement memory tensor 0) : tensor.scalarType.elementSize = 1 := by
  by_contra other
  rcases Nat.lt_or_gt_of_ne other with none | several
  · have empty : tensor.scalarType.elementSize = 0 := by omega
    have text := (shows.determines (fun address => memory address + 1) tensor.dataPtr).mpr
      (by simp [Tensor.element, empty])
    rw [printElement_catchAll absent, printElement_catchAll absent, byte_text_inj] at text
    simp at text
  · have text : (printElement (write memory (tensor.dataPtr.toNat + 1)
        [memory (tensor.dataPtr.toNat + 1) + 1]) tensor 0).text = (printElement memory tensor 0).text := by
      rw [printElement_catchAll absent, printElement_catchAll absent, byte_text_inj]
      exact write_outside (.inl (by omega))
    have element := (shows.determines _ tensor.dataPtr).mp text
    have second := List.getElem_of_eq element (i := 1) (by simpa [Tensor.element] using several)
    simp [Tensor.element] at second

/-- A tensor's elements are shown exactly when the loop reads them as what they are. -/
theorem showsElements_iff :
    (∀ j < tensor.shown, ShowsElement memory tensor j) ↔ tensor.Showable memory := by
  have bound (j : ℕ) (shown : j < tensor.shown) : j < 32 := shown.trans_le (Nat.min_le_right ..)
  by_cases isByte : tensor.scalarType = .byte
  · have reads : (∀ j < tensor.shown, ShowsElement memory tensor j) ↔
        ∀ j < tensor.shown, ∀ byte ∈ tensor.element memory j, byte < 128 :=
      forall₂_congr fun j shown => showsElement_byte_iff isByte (bound j shown)
    rw [reads, Tensor.Showable, isByte]
    constructor
    · exact fun low => .inr (.inr ⟨rfl, fun _ => low⟩)
    · rintro (none | named | ⟨-, low⟩)
      · intro j shown
        omega
      · simp at named
      · exact low rfl
  · constructor
    · intro shows
      by_cases named : tensor.scalarType ∈ [.float, .int, .char]
      · exact .inr (.inl named)
      · rcases Nat.eq_zero_or_pos tensor.shown with none | some
        · exact .inl none
        · have absent : tensor.scalarType ∉ [.float, .int, .char, .byte] := by
            simp_all
          exact .inr (.inr ⟨elementSize_of_shows absent (shows 0 some), fun same => absurd same isByte⟩)
    · intro showable j shown
      rcases showable with none | named | ⟨single, -⟩
      · omega
      · simp only [List.mem_cons, List.not_mem_nil, or_false] at named
        rcases named with isFloat | isInt | isChar
        · exact showsElement_float isFloat (bound j shown)
        · exact showsElement_int isInt (bound j shown)
        · exact showsElement_char isChar (bound j shown)
      · by_cases isChar : tensor.scalarType = .char
        · exact showsElement_char isChar (bound j shown)
        · have absent : tensor.scalarType ∉ [.float, .int, .char, .byte] := by
            intro member
            simp only [List.mem_cons, List.not_mem_nil, or_false, isChar, isByte] at member
            rcases member with same | same <;> rw [same] at single <;> cases single
          exact showsElement_catchAll absent single (bound j shown)

private theorem sameShown_of_texts {output placed : EValue} {i : Int32} (shape : output.SameShape placed)
    (showable : ∀ tensor, output = .asTensor tensor → tensor.Showable memory)
    (same : (printOutput memory i output).map PrintedLine.text =
      (printOutput otherMemory i placed).map PrintedLine.text) :
    output.SameShown memory otherMemory placed := by
  cases shape with
  | other tag otherTag notTensor otherNotTensor => trivial
  | tensor tensor dataPtr =>
    intro j shown
    have shows := showsElements_iff.mpr (showable tensor rfl) j shown
    simp only [printOutput, limit_eq, List.map_cons, List.map_append, List.map_map] at same
    have lines := (List.append_inj (List.cons_eq_cons.mp same).2 (by simp)).1
    have line := List.map_inj_left.mp lines j (List.mem_range.mpr shown)
    exact ((shows.determines otherMemory dataPtr).mp line.symm).symm

private theorem printOutput_length {output placed : EValue} {i : Int32} (shape : output.SameShape placed) :
    (printOutput memory i output).length = (printOutput otherMemory i placed).length := by
  cases shape with
  | other tag otherTag notTensor otherNotTensor => rfl
  | tensor tensor dataPtr => simp [printOutput]

/-- Reports with the same lines come from outputs with the same shown elements. -/
theorem forall₂_sameShown {k : ℕ} (shapes : List.Forall₂ EValue.SameShape outputs others)
    (showable : ∀ tensor, .asTensor tensor ∈ outputs → tensor.Showable memory)
    (same : ((outputs.zipIdx k).flatMap fun (output, i) =>
        printOutput memory (.ofNat i) output).map PrintedLine.text =
      ((others.zipIdx k).flatMap fun (output, i) =>
        printOutput otherMemory (.ofNat i) output).map PrintedLine.text) :
    List.Forall₂ (EValue.SameShown memory otherMemory) outputs others := by
  induction shapes generalizing k with
  | nil => exact .nil
  | @cons output placed outputs others shape shapes ih =>
    simp only [List.zipIdx_cons, List.flatMap_cons, List.map_append] at same
    obtain ⟨first, remaining⟩ := List.append_inj same (by simpa using printOutput_length shape)
    refine .cons (sameShown_of_texts shape ?_ first) (ih ?_ remaining)
    · rintro tensor rfl
      exact showable tensor (by simp)
    · intro tensor member
      exact showable tensor (by simp [member])

/-- For outputs whose report fits behind the text of the trace, the report shows them
exactly when the loop reads every output tensor's elements as what they are. -/
theorem printOutputs_shows_iff (trace : Trace) (log : List (List UInt8)) (memory : ℕ → UInt8)
    (outputs : List EValue) (holds : trace.Holds log) (fits : ReportFits trace memory outputs) :
    ShowsOutputs trace memory outputs ↔
      ∀ tensor, .asTensor tensor ∈ outputs → tensor.Showable memory := by
  constructor
  · intro shows tensor member
    exact showsElements_iff.mp (shows.elements tensor member)
  · intro showable
    have report := printOutputsTrace_report holds fits
    refine ⟨report, fun tensor member => showsElements_iff.mpr (showable tensor member), ?_⟩
    intro otherTrace otherLog otherMemory others otherHolds shapes otherFits same
    rw [report, printOutputsTrace_report otherHolds otherFits] at same
    have allLines (memory : ℕ → UInt8) (outputs : List EValue) :
        ∀ line ∈ (printOutputs memory outputs).map PrintedLine.text, IsLine 0x0A line := by
      intro text member
      obtain ⟨line, -, rfl⟩ := List.mem_map.mp member
      exact line.isLine
    have lines := flatten_inj (allLines memory outputs) (allLines otherMemory others) same
    simp only [printOutputs, List.map_cons] at lines
    exact forall₂_sameShown shapes showable (List.cons_eq_cons.mp lines).2

def oneByteOutput : List EValue := [.asTensor ⟨.byte, 1, 1, 0xA8200000⟩]

/-- Two tensors next to each other, and an output that is none. -/
def threeOutputs : List EValue :=
  [.asTensor ⟨.byte, 3, 3, 0xA8200000⟩, .other .int (by decide), .asTensor ⟨.int, 2, 8, 0xA8200008⟩]

theorem printOutputs_shows_three :
    ShowsOutputs (startTrace fun _ => 0) (fun address => .ofNat (address % 100)) threeOutputs ↔
      ∀ tensor, .asTensor tensor ∈ threeOutputs → tensor.Showable fun address => .ofNat (address % 100) :=
  printOutputs_shows_iff (startTrace fun _ => 0) [] (fun address => .ofNat (address % 100)) threeOutputs
    startTrace_holds (by decide +kernel)

/-- The byte 200 is printed as -56. -/
theorem printOutputs_misshows_high :
    ¬ ∀ (trace : Trace) (log : List (List UInt8)) (memory : ℕ → UInt8) (outputs : List EValue),
      trace.Holds log → ReportFits trace memory outputs → ShowsOutputs trace memory outputs := by
  intro claim
  have shows := claim (startTrace fun _ => 0) [] (fun _ => 200) oneByteOutput startTrace_holds
    (by decide)
  have number := (shows.elements _ (List.mem_singleton.mpr rfl) 0 (by decide)).number 200 (by decide)
  exact absurd number (by decide)

end RunnerCm33
