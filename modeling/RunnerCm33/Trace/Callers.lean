import RunnerCm33.Trace.Formatting

/-! The callers of `trace_write` and what each of them hands over. Some pass the
value `snprintf` returned, the loggers cut it to their buffer first. -/

namespace RunnerCm33

/-- The literals `main` traces. -/
inductive MainLiteral where
  | ethosuInitStarting | ethosuInitFailed | ethosuInitDone | npuIrqEnabled | runnerStarted
deriving DecidableEq, Repr

def MainLiteral.text : MainLiteral → String
  | .ethosuInitStarting => "CM33: ethosu_init starting...\n"
  | .ethosuInitFailed => "CM33: ethosu_init FAILED\n"
  | .ethosuInitDone => "CM33: ethosu_init done\n"
  | .npuIrqEnabled => "CM33: NPU IRQ enabled\n"
  | .runnerStarted => "CM33: ExecuTorch runner started\n"

/-- The length `main` writes next to the literal. -/
def MainLiteral.len : MainLiteral → UInt32
  | .ethosuInitStarting => 30
  | .ethosuInitFailed => 25
  | .ethosuInitDone => 23
  | .npuIrqEnabled => 22
  | .runnerStarted => 32

/-- `et_pal_log_level_t`. -/
inductive LogLevel where
  | debug | info | error | fatal | unknown
deriving DecidableEq, Repr

def LogLevel.char : LogLevel → UInt8
  | .debug => 0x44
  | .info => 0x49
  | .error => 0x45
  | .fatal => 0x46
  | .unknown => 0x3F

/-- One call site of `trace_write` with its arguments. -/
inductive TraceCall where
  | main (literal : MainLiteral)
  | etPalAbort
  | operatorNew (size : UInt32)
  | operatorNewArray (size : UInt32)
  /-- `text` is the format with its arguments put in. -/
  | ethosuTraceLog (text : List UInt8)
  | etPalEmitLogMessage (level : LogLevel) (filename : List UInt8) (line : UInt32)
      (message : List UInt8)
  | printOutputs (line : PrintedLine)

/-- The arguments of `trace_write`, with the size of the array `buf` points to. -/
structure Handed where
  buf : List UInt8
  size : ℕ
  len : UInt32
deriving DecidableEq, Repr

/-- A literal with a length written by hand. -/
def passLiteral (literal : String) (len : UInt32) : Handed where
  buf := ascii literal ++ [0]
  size := (ascii literal).length + 1
  len := len

/-- `if (n > 0) trace_write(buf, n)`. -/
def passReturned (size : ℕ) (text : List UInt8) : Option Handed :=
  if (snprintf size text).n > 0 then
    some ⟨(snprintf size text).buf, size, .ofNat (snprintf size text).n.toNat⟩
  else none

/-- `if (n > 0) trace_write(buf, (size_t)n < sizeof(buf) ? (size_t)n : sizeof(buf) - 1)`. -/
def passClamped (size : ℕ) (text : List UInt8) : Option Handed :=
  if (snprintf size text).n > 0 then
    some ⟨(snprintf size text).buf, size,
      .ofNat (if (snprintf size text).n.toNat < size then (snprintf size text).n.toNat else size - 1)⟩
  else none

/-- The whole text a call would have in the trace. -/
def TraceCall.text : TraceCall → List UInt8
  | .main literal => ascii literal.text
  | .etPalAbort => ascii "CM33: *** ET_PAL_ABORT CALLED ***\n"
  | .operatorNew size => ascii "CM33: new(" ++ decimal size.toNat ++ ascii ") FAILED!\n"
  | .operatorNewArray size => ascii "CM33: new[](" ++ decimal size.toNat ++ ascii ") FAILED!\n"
  | .ethosuTraceLog text => text
  | .etPalEmitLogMessage level filename line message =>
      [level.char] ++ ascii " [" ++ filename ++ ascii ":" ++ decimal line.toNat ++ ascii "] " ++
        message ++ ascii "\n"
  | .printOutputs line => line.text

/-- What the call hands to `trace_write`, if it calls it. -/
def TraceCall.handed (call : TraceCall) : Option Handed :=
  match call with
  | .main literal => some (passLiteral literal.text literal.len)
  | .etPalAbort => some (passLiteral "CM33: *** ET_PAL_ABORT CALLED ***\n" 34)
  | .operatorNew _ | .operatorNewArray _ => passReturned 64 call.text
  | .ethosuTraceLog _ | .etPalEmitLogMessage .. => passClamped 256 call.text
  | .printOutputs _ => passReturned 128 call.text

/-- The bytes `trace_write` is given. -/
def Handed.record (handed : Handed) : List UInt8 := handed.buf.take handed.len.toNat

/-- The length stays within what was formatted, and that within the array. -/
structure Handed.Within (handed : Handed) : Prop where
  available : handed.len.toNat ≤ handed.buf.length
  sized : handed.buf.length ≤ handed.size
  short : handed.len.toNat ≤ 255

/-- The texts the formatted calls may produce: not empty, and an `int` long. -/
def Formats (text : List UInt8) : Prop := 0 < text.length ∧ text.length < 2 ^ 31

instance (text : List UInt8) : Decidable (Formats text) := inferInstanceAs (Decidable (_ ∧ _))

/-- The record a call offers to the trace, if it formats one. -/
def TraceCall.records (call : TraceCall) : List (List UInt8) :=
  if Formats call.text then [call.text.take 255] else []

/-- What is expected of a call with a given text: its first 255 bytes are handed
over, within the bounds of the buffer. -/
structure Handed.Passes (handed : Handed) (text : List UInt8) : Prop extends handed.Within where
  formats : Formats text
  record : handed.record = text.take 255

variable {size : ℕ} {text : List UInt8} {len : UInt32} {handed : Handed} {call : TraceCall}

private theorem snprintf_pos_iff : (snprintf size text).n > 0 ↔ Formats text := by
  unfold snprintf Formats
  split <;> simp <;> omega

private theorem snprintf_n (formats : Formats text) : (snprintf size text).n.toNat = text.length := by
  rw [snprintf, if_pos formats.2]
  exact Int.toNat_natCast _

theorem Handed.Passes.small (passes : handed.Passes text) : handed.len.toNat < 2 ^ 31 :=
  Nat.lt_of_le_of_lt passes.short (by decide)

theorem Handed.Passes.length (passes : handed.Passes text) :
    (text.take 255).length = handed.len.toNat := by
  rw [← passes.record, Handed.record, List.length_take, Nat.min_eq_left passes.available]

/-- A length that is the text's, cut at 255, and leaves room for the NUL. -/
theorem passes_of_len (formats : Formats text) (cut : len.toNat = (text.take 255).length)
    (room : len.toNat < size) :
    Handed.Passes ⟨text.take (size - 1) ++ [0], size, len⟩ text := by
  rw [List.length_take] at cut
  have available : len.toNat ≤ (text.take (size - 1)).length := by
    rw [List.length_take]
    omega
  have shorter : (text.take (size - 1)).length ≤ size - 1 := List.length_take_le ..
  refine ⟨⟨?_, ?_, ?_⟩, formats, ?_⟩
  · rw [List.length_append]
    exact available.trans (Nat.le_add_right ..)
  · simp only [List.length_append, List.length_singleton]
    omega
  · exact cut.trans_le (Nat.min_le_left ..)
  · rw [Handed.record, List.take_append_of_le_length available, List.take_take,
      Nat.min_eq_left (by omega), cut]
    exact List.take_eq_take_min.symm

private theorem passLiteral_passes {literal : String} (formats : Formats (ascii literal))
    (counted : len.toNat = (ascii literal).length) (short : (ascii literal).length ≤ 255) :
    (passLiteral literal len).Passes (ascii literal) := by
  have room : len.toNat < (ascii literal).length + 1 := by omega
  have passes := passes_of_len formats (by rw [counted, List.take_of_length_le short]) room
  simpa only [passLiteral, Nat.add_sub_cancel, List.take_length] using passes

private theorem passReturned_passes (fits : text.length < size) (small : size ≤ 256)
    (found : passReturned size text = some handed) : handed.Passes text := by
  unfold passReturned at found
  split at found
  · rename_i positive
    have formats := snprintf_pos_iff.mp positive
    obtain rfl := Option.some.inj found
    have len : (UInt32.ofNat (snprintf size text).n.toNat).toNat = text.length := by
      rw [snprintf_n formats]
      exact UInt32.toNat_ofNat_of_lt' (fits.trans_le (small.trans (by decide)))
    apply passes_of_len formats
    · rw [len, List.length_take, Nat.min_eq_right (by omega)]
    · rwa [len]
  · cases found

private theorem passClamped_passes (found : passClamped 256 text = some handed) : handed.Passes text := by
  unfold passClamped at found
  split at found
  · rename_i positive
    have formats := snprintf_pos_iff.mp positive
    obtain rfl := Option.some.inj found
    rw [snprintf_n formats]
    have cut : (if text.length < 256 then text.length else 256 - 1) = (text.take 255).length := by
      rw [List.length_take]
      split <;> omega
    have shorter : (text.take 255).length < 256 := Nat.lt_succ_of_le (List.length_take_le ..)
    have len : (UInt32.ofNat (text.take 255).length).toNat = (text.take 255).length :=
      UInt32.toNat_ofNat_of_lt' (shorter.trans (by decide))
    rw [cut]
    exact passes_of_len formats len (by rwa [len])
  · cases found

/-- Every caller hands over its text cut at 255 bytes, and no more bytes than its
formatting buffer holds. -/
theorem TraceCall.handed_passes (found : call.handed = some handed) : handed.Passes call.text := by
  cases call with
  | main literal =>
    obtain rfl := Option.some.inj found
    cases literal <;> exact passLiteral_passes (by decide) (by decide) (by decide)
  | etPalAbort =>
    obtain rfl := Option.some.inj found
    exact passLiteral_passes (by decide) (by decide) (by decide)
  | operatorNew size =>
    have digits := decimal_word_length size
    exact passReturned_passes (by simp [text, ascii]; omega) (by decide) found
  | operatorNewArray size =>
    have digits := decimal_word_length size
    exact passReturned_passes (by simp [text, ascii]; omega) (by decide) found
  | ethosuTraceLog text => exact passClamped_passes found
  | etPalEmitLogMessage level filename line message => exact passClamped_passes found
  | printOutputs line => exact passReturned_passes line.text_length (by decide) found

theorem TraceCall.handed_eq_none (absent : call.handed = none) : ¬Formats call.text := by
  intro formats
  have positive (size : ℕ) : (snprintf size call.text).n > 0 := snprintf_pos_iff.mpr formats
  cases call <;>
    simp [handed, passReturned, passClamped, ↓ positive] at absent

end RunnerCm33
