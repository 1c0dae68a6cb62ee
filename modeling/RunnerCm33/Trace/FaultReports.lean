import RunnerCm33.Trace.FaultAppends

/-! The fault reports can be read back. The decoders know the labels and the widths of
the fields; on a report that was written whole they return what the handler recorded. -/

namespace RunnerCm33

open RunnerCm33.Memory RunnerCm33.Numerals RunnerCm33.Fields

def decodeUsageFault (text : List UInt8) : Option UsageFault :=
  match parse hexadecimal [⟨ascii "CM33: USAGE FAULT PC=0x", 8⟩, ⟨ascii " LR=0x", 8⟩,
    ⟨ascii " UFSR=0x", 4⟩] text with
  | some ([pc, lr, ufsr], _) => some ⟨.ofNat pc, .ofNat lr, .ofNat ufsr⟩
  | _ => none

namespace BusFault

def registerShapes : List (Shape UInt8) :=
  ["BF PC=", " LR=", " BFAR=", " BFSR=", "\nR0=", " R1=", " R2=", " R3=", "\nR12=", " xPSR=",
    " SP="].map fun label => ⟨ascii label, 8⟩

def stackShapes : List (Shape UInt8) :=
  (List.range 32).map fun i => ⟨ascii (if i % 4 = 0 then "\n" else " "), 8⟩

/-- The state with the given values of the register fields. -/
def ofValues (registers stack : List ℕ) : Option BusFault :=
  match registers with
  | [pc, lr, bfar, bfsr, r0, r1, r2, r3, r12, xpsr, sp] => some {
      pc := .ofNat pc, lr := .ofNat lr, bfar := .ofNat bfar, bfsr := .ofNat bfsr
      r0 := .ofNat r0, r1 := .ofNat r1, r2 := .ofNat r2, r3 := .ofNat r3
      r12 := .ofNat r12, xpsr := .ofNat xpsr, sp := .ofNat sp
      stack := stack.map .ofNat }
  | _ => none

end BusFault

def decodeBusFault (text : List UInt8) : Option BusFault := do
  let (registers, text) ← parse hexadecimal BusFault.registerShapes text
  let text ← (ascii "\nSTK:").isPrefixOf? text
  let (stack, _) ← parse hexadecimal BusFault.stackShapes text
  BusFault.ofValues registers stack

variable {old new : Trace} {text : List UInt8} {word : UInt32 → UInt32} {sp frame : UInt32}

private theorem Appends.reportOf_eq (appends : Appends old new text) : reportOf old new = text := by
  have count : new.traceIdx.toNat - old.traceIdx.toNat = text.length := by
    rw [appends.index, Nat.add_sub_cancel_left]
  rw [reportOf, count]
  exact appends.content

private theorem decodeUsageFault_report (fault : UsageFault) :
    decodeUsageFault fault.report = some fault := by
  have parsed := parse_render fault.fields (ascii "\n")
  rw [decodeUsageFault, UsageFault.report]
  simp only [UsageFault.fields, List.map_cons, List.map_nil, hexField] at parsed
  simp only [UsageFault.fields, hexField, parsed, UInt32.ofNat_toNat, UInt16.ofNat_toNat]

private theorem UsageFault.report_length (fault : UsageFault) : fault.report.length = 58 := by
  simp [report, render, fields, Field.text_length, hexField, ascii]

namespace BusFault

variable {fault : BusFault}

private theorem heading_length (fault : BusFault) : fault.heading.length = 146 := by
  simp [heading, render, registers, Field.text_length, hexField, ascii]

private theorem stackWords_length : fault.stackWords.length = fault.stack.length := by
  simp [stackWords]

private theorem stackShapes_eq (counted : fault.stack.length = 32) :
    fault.stackWords.map Field.toShape = stackShapes := by
  apply List.ext_getElem
  · simp [stackWords, stackShapes, counted]
  · intro i _ _
    simp [stackWords, stackShapes, stackWord, hexField]

private theorem stackValues : (fault.stackWords.map Field.value).map UInt32.ofNat = fault.stack := by
  apply List.ext_getElem
  · simp [stackWords]
  · intro i _ _
    simp [stackWords, stackWord, hexField]

/-- A bus fault report with all words is read back, whatever follows it. -/
theorem decode_report (counted : fault.stack.length = 32) (rest : List UInt8) :
    decodeBusFault (fault.heading ++ render fault.stackWords ++ rest) = some fault := by
  have registers := parse_render fault.registers (ascii "\nSTK:" ++ (render fault.stackWords ++ rest))
  have words := parse_render fault.stackWords rest
  have shapes : fault.registers.map Field.toShape = registerShapes := rfl
  have whole : fault.heading ++ render fault.stackWords ++ rest =
      render fault.registers ++ (ascii "\nSTK:" ++ (render fault.stackWords ++ rest)) := by
    simp [heading]
  rw [shapes] at registers
  rw [stackShapes_eq counted] at words
  simp only [decodeBusFault, whole, registers, isPrefixOf?_append, words, Option.bind_eq_bind,
    Option.bind_some]
  simp only [BusFault.registers, hexField, List.map_cons, List.map_nil, ofValues, stackValues,
    UInt32.ofNat_toNat, UInt8.toNat_toUInt32, UInt8.ofNat_toNat]

private theorem recorded_counted : (recorded word frame).stack.length = 32 := by
  simp [recorded]

private theorem stackWord_length (i : ℕ) (v : UInt32) : (stackWord i v).text.length = 9 := by
  unfold stackWord
  rw [Field.text_length]
  split <;> rfl

private theorem words_length (k : ℕ) :
    (render (fault.stackWords.take k)).length = min k fault.stack.length * 9 := by
  have uniform : ∀ field ∈ fault.stackWords.take k, field.text.length = 9 := by
    intro field member
    obtain ⟨⟨v, i⟩, -, rfl⟩ := List.mem_map.mp (List.mem_of_mem_take member)
    exact stackWord_length i v
  rw [render_length uniform, List.length_take, stackWords_length]

theorem Cut.whole {room : ℕ} (cut : fault.Cut room text) (counted : fault.stack.length = 32)
    (enough : 449 ≤ room) : text = fault.heading ++ render fault.stackWords ++ ascii "\n" := by
  have heading := fault.heading_length
  rcases cut with ⟨short, -⟩ | ⟨k, bound, whole, split, stop, -, same⟩
  · omega
  · have length : whole.length = 146 + min k 32 * 9 := by
      rw [split, List.length_append, heading, words_length, counted]
    have all : k = 32 := stop.resolve_right (by omega)
    rw [same, if_pos (by omega), split, List.take_of_length_le]
    rw [stackWords_length, counted, all]

end BusFault

private theorem room_of_free (free : old.traceIdx.toNat + 450 ≤ rscTraceBufSize.toNat) :
    old.traceIdx ≤ rscTraceBufSize - 1 ∧ 449 ≤ old.room := by
  have size := rscTraceBufSize_toNat
  rw [UInt32.le_iff_toNat_le, lastIndex_toNat, Trace.room_eq]
  omega

private theorem decodeBusFault_reportOf (room : old.traceIdx.toNat + 450 ≤ rscTraceBufSize.toNat) :
    decodeBusFault (reportOf old (busFaultHandlerC word frame old)) =
      some (BusFault.recorded word frame) := by
  obtain ⟨index, enough⟩ := room_of_free room
  obtain ⟨text, cut, appends⟩ := busFaultHandlerC_appends index word frame
  rw [appends.reportOf_eq, cut.whole BusFault.recorded_counted enough]
  exact BusFault.decode_report BusFault.recorded_counted _

private theorem decodeUsageFault_reportOf (room : old.traceIdx.toNat + 450 ≤ rscTraceBufSize.toNat) :
    decodeUsageFault (reportOf old (usageFaultHandler word sp old)) =
      some (UsageFault.recorded word sp) := by
  obtain ⟨index, enough⟩ := room_of_free room
  have length := (UsageFault.recorded word sp).report_length
  have appends := start_putAll_finish index (UsageFault.recorded word sp).report
  rw [← usageFaultHandler_eq, List.take_of_length_le (by omega)] at appends
  rw [appends.reportOf_eq, decodeUsageFault_report]

/-- With 450 bytes free, the decoders return what the fault handlers recorded. So two
faults with the same report have the same recorded state. -/
theorem faultReports_readBack (trace : Trace)
    (room : trace.traceIdx.toNat + 450 ≤ rscTraceBufSize.toNat)
    (word : UInt32 → UInt32) (sp frame : UInt32) :
    decodeBusFault (reportOf trace (busFaultHandlerC word frame trace)) =
        some (BusFault.recorded word frame) ∧
      decodeUsageFault (reportOf trace (usageFaultHandler word sp trace)) =
        some (UsageFault.recorded word sp) ∧
      ∀ other : Trace, other.traceIdx.toNat + 450 ≤ rscTraceBufSize.toNat →
        ∀ (otherWord : UInt32 → UInt32) (otherSp otherFrame : UInt32),
          (reportOf trace (busFaultHandlerC word frame trace) =
              reportOf other (busFaultHandlerC otherWord otherFrame other) →
            BusFault.recorded word frame = BusFault.recorded otherWord otherFrame) ∧
          (reportOf trace (usageFaultHandler word sp trace) =
              reportOf other (usageFaultHandler otherWord otherSp other) →
            UsageFault.recorded word sp = UsageFault.recorded otherWord otherSp) := by
  refine ⟨decodeBusFault_reportOf room, decodeUsageFault_reportOf room, ?_⟩
  intro other otherRoom otherWord otherSp otherFrame
  constructor
  · intro same
    apply Option.some.inj
    rw [← decodeBusFault_reportOf room, same, decodeBusFault_reportOf otherRoom]
  · intro same
    apply Option.some.inj
    rw [← decodeUsageFault_reportOf room, same, decodeUsageFault_reportOf otherRoom]

/-- The reports behind a hundred characters, and all reports that differ from them. -/
theorem faultReports_readBack_distinct :
    decodeBusFault (reportOf (filledTo 100) (busFaultHandlerC distinctWords 0x2001D100 (filledTo 100))) =
        some (BusFault.recorded distinctWords 0x2001D100) ∧
      decodeUsageFault (reportOf (filledTo 100) (usageFaultHandler distinctWords 0x2001D000 (filledTo 100))) =
        some (UsageFault.recorded distinctWords 0x2001D000) ∧
      ∀ other : Trace, other.traceIdx.toNat + 450 ≤ rscTraceBufSize.toNat →
        ∀ (otherWord : UInt32 → UInt32) (otherSp otherFrame : UInt32),
          (reportOf (filledTo 100) (busFaultHandlerC distinctWords 0x2001D100 (filledTo 100)) =
              reportOf other (busFaultHandlerC otherWord otherFrame other) →
            BusFault.recorded distinctWords 0x2001D100 = BusFault.recorded otherWord otherFrame) ∧
          (reportOf (filledTo 100) (usageFaultHandler distinctWords 0x2001D000 (filledTo 100)) =
              reportOf other (usageFaultHandler otherWord otherSp other) →
            UsageFault.recorded distinctWords 0x2001D000 = UsageFault.recorded otherWord otherSp) :=
  faultReports_readBack (filledTo 100) (by decide) distinctWords 0x2001D000 0x2001D100

end RunnerCm33
