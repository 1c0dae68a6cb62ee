import RunnerCm33.Trace.FaultHandlers

/-! The fault handlers only append. One invariant says what a handler has written so
far; the loops over characters extend it until the buffer is full, the loop over stack
words by whole words. -/

namespace RunnerCm33

open RunnerCm33.Memory RunnerCm33.Numerals RunnerCm33.Fields

/-- The characters that fit behind the index, with a NUL after them. -/
def Trace.room (trace : Trace) : ℕ := (rscTraceBufSize - 1).toNat - trace.traceIdx.toNat

/-- The handler has put a text behind the old index, and nothing else anywhere. -/
structure Appended (old : Trace) (text : List UInt8) (appending : Appending) : Prop where
  index : appending.idx.toNat = old.traceIdx.toNat + text.length
  bounded : old.traceIdx.toNat + text.length < rscTraceBufSize.toNat
  memory : appending.trace.memory =
    write old.memory (traceBufferAddr + old.traceIdx.toNat) text
  stored : appending.trace.stored =
    old.stored ++ List.range' (traceBufferAddr + old.traceIdx.toNat) text.length

/-- The handler left the old trace with a text behind it: all stores fall behind the
old index inside the buffer, and a NUL follows the text. -/
structure Appends (old new : Trace) (text : List UInt8) : Prop where
  index : new.traceIdx.toNat = old.traceIdx.toNat + text.length
  bounded : new.traceIdx ≤ rscTraceBufSize - 1
  stored : ∃ stores, new.stored = old.stored ++ stores ∧ ∀ address ∈ stores,
    traceBufferAddr + old.traceIdx.toNat ≤ address ∧
      address ≤ traceBufferAddr + (rscTraceBufSize - 1).toNat
  kept : ∀ address < traceBufferAddr + old.traceIdx.toNat, new.memory address = old.memory address
  content : read new.memory (traceBufferAddr + old.traceIdx.toNat) text.length = text
  ended : new.memory (traceBufferAddr + new.traceIdx.toNat) = 0

variable {old : Trace} {text more : List UInt8} {appending : Appending} {v : UInt32}
  {word : UInt32 → UInt32} {stk : ℕ → UInt32} {sp frame : UInt32}

theorem lastIndex_toNat : (rscTraceBufSize - 1).toNat = 0xBFF := rfl

theorem Trace.room_eq (trace : Trace) : trace.room = 0xBFF - trace.traceIdx.toNat := rfl

private theorem hexAt_eq {place : ℕ} (bound : place < 8) :
    hexAt v (.ofNat (4 * place)) = hexadecimal.symbol (v.toNat / 16 ^ place % 16) := by
  have shift : (UInt32.ofNat (4 * place)).toNat % 32 = 4 * place := by
    have small : 4 * place < 2 ^ 32 := by omega
    rw [UInt32.toNat_ofNat_of_lt' small]
    omega
  have nibble : (v >>> .ofNat (4 * place) &&& 0xF).toNat = v.toNat / 16 ^ place % 16 := by
    rw [UInt32.toNat_and, UInt32.toNat_shiftRight, shift, Nat.shiftRight_eq_div_pow, Nat.pow_mul]
    exact Nat.and_two_pow_sub_one_eq_mod _ 4
  rw [hexAt, nibble]
  rfl

private theorem hexDigits_eq (v : UInt32) (places : ℕ) (bound : places ≤ 8) :
    (List.range places).reverse.map (fun place => hexAt v (.ofNat (4 * place))) =
      hexadecimal.numeral places v.toNat := by
  induction places with
  | zero => rfl
  | succ places ih =>
    rw [List.range_succ, List.reverse_append, List.reverse_singleton, List.singleton_append,
      List.map_cons, ih (by omega), hexAt_eq (by omega)]
    rfl

namespace Appending

private theorem putAll_of_full (full : ¬appending.idx < rscTraceBufSize - 1) :
    appending.putAll more = appending := by
  cases more with
  | nil => rfl
  | cons char rest => rw [putAll, if_neg full]

private theorem putAll_append : appending.putAll (text ++ more) = (appending.putAll text).putAll more := by
  induction text generalizing appending with
  | nil => rfl
  | cons char rest ih =>
    by_cases room : appending.idx < rscTraceBufSize - 1
    · simp only [List.cons_append, putAll, if_pos room]
      exact ih
    · rw [putAll_of_full room, putAll_of_full room, putAll_of_full room]

private theorem newline_eq : appending.newline = appending.putAll (ascii "\n") := rfl

private theorem writeHex32_eq :
    appending.writeHex32 v = appending.putAll (hexadecimal.numeral 8 v.toNat) := by
  rw [writeHex32, ← hexDigits_eq v 8 (by decide)]
  rfl

private theorem writeHex16_eq {v : UInt16} :
    appending.writeHex16 v = appending.putAll (hexadecimal.numeral 4 v.toNat) := by
  rw [writeHex16, ← UInt16.toNat_toUInt32, ← hexDigits_eq v.toUInt32 4 (by decide)]
  rfl

end Appending

open Appending (start)

theorem usageFaultHandler_eq : usageFaultHandler word sp old =
    ((start old).putAll (UsageFault.recorded word sp).report).finish := by
  simp only [usageFaultHandler, Appending.writeStr, Appending.writeHex32_eq,
    Appending.writeHex16_eq, Appending.newline_eq, ← Appending.putAll_append]
  simp [UsageFault.report, UsageFault.fields, UsageFault.recorded, render, Field.text, hexField, wordAt]

private theorem toUInt8_and (v : UInt32) : (v &&& 0xFF).toUInt8 = v.toUInt8 := by
  rw [← UInt8.toNat_inj, UInt32.toNat_toUInt8, UInt32.toNat_toUInt8, UInt32.toNat_and]
  exact (congrArg (· % 2 ^ 8) (Nat.and_two_pow_sub_one_eq_mod v.toNat 8)).trans (Nat.mod_mod ..)

private theorem busFaultHandlerC_eq : busFaultHandlerC word frame old =
    (((start old).putAll (BusFault.recorded word frame).heading).dump
      (wordAt word (frame + 32)) (List.range 32)).newline.finish := by
  have lines : ascii "\nR0=" = ascii "\n" ++ ascii "R0=" ∧ ascii "\nR12=" = ascii "\n" ++ ascii "R12=" ∧
      ascii "\nSTK:" = ascii "\n" ++ ascii "STK:" := by decide
  simp only [busFaultHandlerC, Appending.writeStr, Appending.writeHex32_eq,
    Appending.newline_eq, ← Appending.putAll_append, toUInt8_and]
  simp [BusFault.heading, BusFault.registers, BusFault.recorded, render, Field.text, hexField,
    lines, wordAt]

namespace Appended

private theorem lt_last_iff (appended : Appended old text appending) :
    appending.idx < rscTraceBufSize - 1 ↔ text.length < old.room := by
  rw [UInt32.lt_iff_toNat_lt, appended.index, lastIndex_toNat, Trace.room_eq]
  omega

private theorem lt_guard_iff (appended : Appended old text appending) :
    appending.idx < rscTraceBufSize - 12 ↔ text.length + 11 < old.room := by
  have limit : (rscTraceBufSize - 12).toNat = 0xBF4 := rfl
  rw [UInt32.lt_iff_toNat_lt, appended.index, limit, Trace.room_eq]
  omega

theorem start (index : old.traceIdx ≤ rscTraceBufSize - 1) : Appended old [] (start old) where
  index := rfl
  bounded := index_le_iff.mp index
  memory := write_nil.symm
  stored := (List.append_nil _).symm

theorem put (appended : Appended old text appending) (fits : text.length < old.room) (char : UInt8) :
    Appended old (text ++ [char]) (appending.put char) := by
  have size := rscTraceBufSize_toNat
  have index := appended.index
  rw [Trace.room_eq] at fits
  constructor
  · rw [Appending.put, UInt32.toNat_add, index, List.length_append, List.length_singleton]
    have one : UInt32.toNat 1 = 1 := rfl
    rw [one, Nat.mod_eq_of_lt (by omega), Nat.add_assoc]
  · rw [List.length_append, List.length_singleton]
    omega
  · rw [Appending.put, Trace.store, appended.memory, index, ← Nat.add_assoc, write_append]
  · rw [Appending.put, Trace.store, appended.stored, index, List.append_assoc, List.length_append,
      ← Nat.add_assoc, List.length_singleton, List.range'_append_1]

theorem putAll (appended : Appended old text appending) (more : List UInt8) :
    Appended old (text ++ more.take (old.room - text.length)) (appending.putAll more) := by
  induction more generalizing text appending with
  | nil => simpa [Appending.putAll] using appended
  | cons char rest ih =>
    by_cases fits : text.length < old.room
    · obtain ⟨left, count⟩ := Nat.exists_eq_add_of_lt fits
      have next := ih (appended.put fits char)
      have taken : old.room - text.length = left + 1 := by omega
      have remaining : old.room - (text ++ [char]).length = left := by
        rw [List.length_append, List.length_singleton]
        omega
      rw [remaining, List.append_assoc] at next
      rw [Appending.putAll, if_pos (appended.lt_last_iff.mpr fits), taken]
      exact next
    · rw [Appending.putAll_of_full (mt appended.lt_last_iff.mp fits),
        Nat.sub_eq_zero_of_le (Nat.le_of_not_lt fits), List.take_zero, List.append_nil]
      exact appended

private theorem putAll_whole (appended : Appended old text appending) (more : List UInt8)
    (fits : text.length + more.length ≤ old.room) :
    Appended old (text ++ more) (appending.putAll more) := by
  have all := appended.putAll more
  rwa [List.take_of_length_le (by omega)] at all

private theorem dump_of_full (appended : Appended old text appending) (full : old.room ≤ text.length + 11)
    (indices : List ℕ) : appending.dump stk indices = appending := by
  cases indices with
  | nil => rfl
  | cons i rest =>
    have guard : ¬appending.idx < rscTraceBufSize - 12 :=
      mt appended.lt_guard_iff.mp (Nat.not_lt.mpr full)
    rw [Appending.dump, if_neg guard]

/-- One turn of the dump: its guard leaves room for the separator and all digits. -/
theorem dump_cons (appended : Appended old text appending) (fits : text.length + 11 < old.room)
    (i : ℕ) (rest : List ℕ) : ∃ next, appending.dump stk (i :: rest) = next.dump stk rest ∧
      Appended old (text ++ (BusFault.stackWord i (stk i)).text) next := by
  have guard : appending.idx < rscTraceBufSize - 12 := appended.lt_guard_iff.mpr fits
  have early : appending.idx < rscTraceBufSize - 1 := appended.lt_last_iff.mpr (by omega)
  refine ⟨_, by rw [Appending.dump, if_pos guard], ?_⟩
  have separated := appended.put (by omega) (if i % 4 = 0 then 0x0A else 0x20)
  have word := separated.putAll_whole (hexadecimal.numeral 8 (stk i).toNat) (by
    rw [Alphabet.numeral_length, List.length_append, List.length_singleton]
    omega)
  simp only [early, and_true, Appending.writeHex32_eq]
  rw [List.append_assoc] at word
  convert word using 2
  unfold BusFault.stackWord
  split <;> rfl

/-- The dump writes whole words, all of them or until few places are left. -/
theorem dump (appended : Appended old text appending) (stk : ℕ → UInt32) (indices : List ℕ) :
    ∃ k ≤ indices.length, ∃ words,
      words = render ((indices.take k).map fun i => BusFault.stackWord i (stk i)) ∧
      Appended old (text ++ words) (appending.dump stk indices) ∧
      (k = indices.length ∨ old.room ≤ (text ++ words).length + 11) := by
  induction indices generalizing text appending with
  | nil => exact ⟨0, Nat.le_refl _, _, rfl, by simpa [render, Appending.dump] using appended, .inl rfl⟩
  | cons i rest ih =>
    rcases Nat.lt_or_ge (text.length + 11) old.room with fits | full
    · obtain ⟨next, turn, written⟩ := appended.dump_cons fits i rest
      obtain ⟨k, bound, words, same, reached, stop⟩ := ih written
      refine ⟨k + 1, Nat.succ_le_succ bound, (BusFault.stackWord i (stk i)).text ++ words, ?_, ?_, ?_⟩
      · rw [same]
        rfl
      · rw [turn, ← List.append_assoc]
        exact reached
      · rw [← List.append_assoc]
        exact stop.imp_left (congrArg (· + 1))
    · refine ⟨0, Nat.zero_le _, [], rfl, ?_, .inr (by simpa using full)⟩
      rw [appended.dump_of_full full, List.append_nil]
      exact appended

theorem finish (appended : Appended old text appending) : Appends old appending.finish text := by
  have index := appended.index
  have bounded := appended.bounded
  have size := rscTraceBufSize_toNat
  have last := lastIndex_toNat
  constructor
  · exact index
  · rw [UInt32.le_iff_toNat_le, last]
    simp only [Appending.finish]
    omega
  · refine ⟨List.range' (traceBufferAddr + old.traceIdx.toNat) (text.length + 1), ?_, ?_⟩
    · simp only [Appending.finish, Trace.store]
      rw [appended.stored, index, List.append_assoc, ← Nat.add_assoc, List.length_singleton,
        List.range'_append_1]
    · intro address member
      have range := List.mem_range'_1.mp member
      omega
  · intro address below
    simp only [Appending.finish, Trace.store]
    rw [write_outside (.inl (by omega)), appended.memory, write_outside (.inl below)]
  · simp only [Appending.finish, Trace.store]
    rw [read_write_apart (.inr (by omega)), appended.memory, read_write]
  · exact write_first

theorem length_le (appended : Appended old text appending) : text.length ≤ old.room := by
  have bounded := appended.bounded
  have size := rscTraceBufSize_toNat
  rw [Trace.room_eq]
  omega

theorem newline (appended : Appended old text appending) :
    Appended old (if text.length < old.room then text ++ ascii "\n" else text) appending.newline := by
  have written := appended.putAll (ascii "\n")
  rw [← Appending.newline_eq] at written
  split
  · rename_i fits
    rwa [List.take_of_length_le] at written
    exact Nat.sub_pos_of_lt fits
  · rename_i full
    rwa [Nat.sub_eq_zero_of_le (Nat.le_of_not_lt full), List.take_zero, List.append_nil] at written

end Appended

private theorem BusFault.recorded_stackWords : (BusFault.recorded word frame).stackWords =
    (List.range 32).map fun i => BusFault.stackWord i (wordAt word (frame + 32) i) := by
  rw [BusFault.stackWords, BusFault.recorded, List.zipIdx_map, List.map_map]
  rfl

theorem start_putAll_finish (index : old.traceIdx ≤ rscTraceBufSize - 1) (report : List UInt8) :
    Appends old ((start old).putAll report).finish (report.take old.room) := by
  simpa using ((Appended.start index).putAll report).finish

theorem busFaultHandlerC_appends (index : old.traceIdx ≤ rscTraceBufSize - 1)
    (word : UInt32 → UInt32) (frame : UInt32) :
    ∃ text, (BusFault.recorded word frame).Cut old.room text ∧
      Appends old (busFaultHandlerC word frame old) text := by
  have heading := (Appended.start index).putAll (BusFault.recorded word frame).heading
  rw [List.nil_append, List.length_nil, Nat.sub_zero] at heading
  rw [busFaultHandlerC_eq]
  rcases Nat.lt_or_ge old.room (BusFault.recorded word frame).heading.length with cut | fits
  · have length : ((BusFault.recorded word frame).heading.take old.room).length = old.room :=
      List.length_take_of_le (Nat.le_of_lt cut)
    refine ⟨_, .inl ⟨cut, rfl⟩, ?_⟩
    rw [heading.dump_of_full (by omega)]
    have ended := heading.newline
    rw [if_neg (by omega)] at ended
    exact ended.finish
  · rw [List.take_of_length_le fits] at heading
    obtain ⟨k, bound, words, same, dumped, stop⟩ :=
      heading.dump (wordAt word (frame + 32)) (List.range 32)
    rw [List.length_range] at bound stop
    refine ⟨_, .inr ⟨k, bound, _, ?_, stop, dumped.length_le, rfl⟩, dumped.newline.finish⟩
    rw [same, BusFault.recorded_stackWords, List.map_take]

/-- From every trace whose index is inside the buffer, and for every content of the
registers, the frame and the stack, the handlers only append: the hard fault and usage
fault reports as far as they fit, the bus fault report without a broken word. -/
theorem faultHandlers_append (trace : Trace) (index : trace.traceIdx ≤ rscTraceBufSize - 1)
    (word : UInt32 → UInt32) (sp frame : UInt32) :
    Appends trace (hardFaultHandler trace) (hardFaultReport.take trace.room) ∧
      Appends trace (usageFaultHandler word sp trace)
        ((UsageFault.recorded word sp).report.take trace.room) ∧
      ∃ text, (BusFault.recorded word frame).Cut trace.room text ∧
        Appends trace (busFaultHandlerC word frame trace) text := by
  refine ⟨start_putAll_finish index hardFaultReport, ?_, busFaultHandlerC_appends index word frame⟩
  rw [usageFaultHandler_eq]
  exact start_putAll_finish index _

def filledTo (index : UInt32) : Trace := ⟨index, fun _ => 0x41, []⟩

def distinctWords (address : UInt32) : UInt32 := 3 * address + 1

theorem faultHandlers_append_late :
    Appends (filledTo 0xBE0) (hardFaultHandler (filledTo 0xBE0)) (hardFaultReport.take (filledTo 0xBE0).room) ∧
      Appends (filledTo 0xBE0) (usageFaultHandler distinctWords 0x2001D000 (filledTo 0xBE0))
        ((UsageFault.recorded distinctWords 0x2001D000).report.take (filledTo 0xBE0).room) ∧
      ∃ text, (BusFault.recorded distinctWords 0x2001D100).Cut (filledTo 0xBE0).room text ∧
        Appends (filledTo 0xBE0) (busFaultHandlerC distinctWords 0x2001D100 (filledTo 0xBE0)) text :=
  faultHandlers_append (filledTo 0xBE0) (by decide) distinctWords 0x2001D000 0x2001D100

end RunnerCm33
