import RunnerCm33.Trace.Buffer
import RunnerCm33.Lib.Fields

/-! The fault handlers. Each appends a report to the trace character by character,
with an index of its own that it stores back at the end, and never returns. The words
of the stack and of the fault registers are those that its reads find. -/

namespace RunnerCm33

open RunnerCm33.Memory RunnerCm33.Numerals RunnerCm33.Fields

/-- The trace while a handler writes, and the handler's `idx`. -/
structure Appending where
  trace : Trace
  idx : UInt32

/-- `hex[]`. -/
def hex : List UInt8 := ascii "0123456789abcdef"

/-- `hex[(v >> i) & 0xf]`. -/
def hexAt (v i : UInt32) : UInt8 := hex.getD (v >>> i &&& 0xF).toNat 0

/-- `pointer[index]` for a pointer to words. -/
def wordAt (word : UInt32 → UInt32) (pointer : UInt32) (index : ℕ) : UInt32 :=
  word (pointer + .ofNat (4 * index))

namespace Appending

/-- `uint32_t idx = trace_idx`. -/
def start (trace : Trace) : Appending := ⟨trace, trace.traceIdx⟩

/-- `rsc_trace_buf[idx++] = char`. -/
def put (appending : Appending) (char : UInt8) : Appending where
  trace := appending.trace.store (traceBufferAddr + appending.idx.toNat) [char]
  idx := appending.idx + 1

/-- A loop over characters, which ends early at the last index of the buffer. -/
def putAll (appending : Appending) : List UInt8 → Appending
  | [] => appending
  | char :: rest =>
    if appending.idx < rscTraceBufSize - 1 then (appending.put char).putAll rest else appending

/-- `WRITE_STR`. -/
def writeStr (appending : Appending) (s : String) : Appending := appending.putAll (ascii s)

/-- `WRITE_HEX32`: the shift goes from 28 down to 0. -/
def writeHex32 (appending : Appending) (v : UInt32) : Appending :=
  appending.putAll ([28, 24, 20, 16, 12, 8, 4, 0].map (hexAt v))

/-- The shift goes from 12 down to 0, over a 16-bit value promoted to `int`. -/
def writeHex16 (appending : Appending) (v : UInt16) : Appending :=
  appending.putAll ([12, 8, 4, 0].map (hexAt v.toUInt32))

def newline (appending : Appending) : Appending :=
  if appending.idx < rscTraceBufSize - 1 then appending.put 0x0A else appending

/-- The dump of stack words, for the given values of `i`. Its guard keeps room for a
whole word, so that the separator needs no check of its own. -/
def dump (stk : ℕ → UInt32) (appending : Appending) : List ℕ → Appending
  | [] => appending
  | i :: rest =>
    if appending.idx < rscTraceBufSize - 12 then
      let separator := if i % 4 = 0 ∧ appending.idx < rscTraceBufSize - 1 then 0x0A else 0x20
      dump stk ((appending.put separator).writeHex32 (stk i)) rest
    else appending

/-- `rsc_trace_buf[idx] = '\0'; trace_idx = idx`. -/
def finish (appending : Appending) : Trace :=
  { appending.trace.store (traceBufferAddr + appending.idx.toNat) [0] with
    traceIdx := appending.idx }

end Appending

open Appending (start)

/-- `hf_msg`. -/
def hardFaultReport : List UInt8 := ascii "CM33: *** HARD FAULT ***\n"

def hardFaultHandler (trace : Trace) : Trace :=
  ((start trace).putAll hardFaultReport).finish

def usageFaultHandler (word : UInt32 → UInt32) (sp : UInt32) (trace : Trace) : Trace :=
  let pc := wordAt word sp 6
  let lr := wordAt word sp 5
  let cfsr := word 0xE000ED28
  let ufsr := (cfsr >>> 16).toUInt16
  (start trace)
    |>.writeStr "CM33: USAGE FAULT PC=0x" |>.writeHex32 pc
    |>.writeStr " LR=0x" |>.writeHex32 lr
    |>.writeStr " UFSR=0x" |>.writeHex16 ufsr
    |>.newline
    |>.finish

def busFaultHandlerC (word : UInt32 → UInt32) (frame : UInt32) (trace : Trace) : Trace :=
  let r0 := wordAt word frame 0
  let r1 := wordAt word frame 1
  let r2 := wordAt word frame 2
  let r3 := wordAt word frame 3
  let r12 := wordAt word frame 4
  let lr := wordAt word frame 5
  let pc := wordAt word frame 6
  let psr := wordAt word frame 7
  let cfsr := word 0xE000ED28
  let bfar := word 0xE000ED38
  let bfsrVal := (cfsr >>> 8 &&& 0xFF).toUInt8
  let stk := wordAt word (frame + 32)
  (start trace)
    |>.writeStr "BF PC=" |>.writeHex32 pc
    |>.writeStr " LR=" |>.writeHex32 lr
    |>.writeStr " BFAR=" |>.writeHex32 bfar
    |>.writeStr " BFSR=" |>.writeHex32 bfsrVal.toUInt32
    |>.newline
    |>.writeStr "R0=" |>.writeHex32 r0
    |>.writeStr " R1=" |>.writeHex32 r1
    |>.writeStr " R2=" |>.writeHex32 r2
    |>.writeStr " R3=" |>.writeHex32 r3
    |>.newline
    |>.writeStr "R12=" |>.writeHex32 r12
    |>.writeStr " xPSR=" |>.writeHex32 psr
    |>.writeStr " SP=" |>.writeHex32 (frame + 32)
    |>.newline
    |>.writeStr "STK:"
    |>.dump stk (List.range 32)
    |>.newline
    |>.finish

def hexadecimal : Alphabet UInt8 where
  base := 16
  positive := by decide
  symbol value := hex.getD value 0
  digit char := hex.findIdx? (· = char)
  digit_symbol := by decide

/-- A 32-bit value behind its label. -/
def hexField (label : String) (v : UInt32) : Field hexadecimal where
  label := ascii label
  width := 8
  value := v.toNat
  fits := v.toNat_lt

/-- The state a usage fault report records: two words of the stack and the upper half
of CFSR. -/
structure UsageFault where
  pc : UInt32
  lr : UInt32
  ufsr : UInt16
deriving DecidableEq, Repr

/-- The state a bus fault report records: fault registers, the exception frame, the
stack pointer before it, and the words above. -/
structure BusFault where
  pc : UInt32
  lr : UInt32
  bfar : UInt32
  bfsr : UInt8
  r0 : UInt32
  r1 : UInt32
  r2 : UInt32
  r3 : UInt32
  r12 : UInt32
  xpsr : UInt32
  sp : UInt32
  stack : List UInt32
deriving DecidableEq, Repr

namespace UsageFault

def recorded (word : UInt32 → UInt32) (sp : UInt32) : UsageFault where
  pc := word (sp + 24)
  lr := word (sp + 20)
  ufsr := (word 0xE000ED28 >>> 16).toUInt16

def fields (fault : UsageFault) : List (Field hexadecimal) := [
  hexField "CM33: USAGE FAULT PC=0x" fault.pc,
  hexField " LR=0x" fault.lr,
  ⟨⟨ascii " UFSR=0x", 4⟩, fault.ufsr.toNat, fault.ufsr.toNat_lt⟩]

def report (fault : UsageFault) : List UInt8 := render fault.fields ++ ascii "\n"

end UsageFault

namespace BusFault

def recorded (word : UInt32 → UInt32) (frame : UInt32) : BusFault where
  pc := word (frame + 24)
  lr := word (frame + 20)
  bfar := word 0xE000ED38
  bfsr := (word 0xE000ED28 >>> 8).toUInt8
  r0 := word frame
  r1 := word (frame + 4)
  r2 := word (frame + 8)
  r3 := word (frame + 12)
  r12 := word (frame + 16)
  xpsr := word (frame + 28)
  sp := frame + 32
  stack := (List.range 32).map fun i => word (frame + 32 + .ofNat (4 * i))

def registers (fault : BusFault) : List (Field hexadecimal) := [
  hexField "BF PC=" fault.pc, hexField " LR=" fault.lr, hexField " BFAR=" fault.bfar,
  hexField " BFSR=" fault.bfsr.toUInt32,
  hexField "\nR0=" fault.r0, hexField " R1=" fault.r1, hexField " R2=" fault.r2,
  hexField " R3=" fault.r3,
  hexField "\nR12=" fault.r12, hexField " xPSR=" fault.xpsr, hexField " SP=" fault.sp]

/-- The register part of the report and the heading of the stack words. -/
def heading (fault : BusFault) : List UInt8 := render fault.registers ++ ascii "\nSTK:"

/-- A stack word behind its separator: every fourth one starts a line. -/
def stackWord (i : ℕ) (v : UInt32) : Field hexadecimal :=
  hexField (if i % 4 = 0 then "\n" else " ") v

def stackWords (fault : BusFault) : List (Field hexadecimal) :=
  fault.stack.zipIdx.map fun (v, i) => stackWord i v

/-- What becomes of the report where only some characters fit: the heading cut off, or
the whole heading, whole words, and a newline that may be missing. Words are left out
only when fewer than twelve places are left. -/
def Cut (fault : BusFault) (room : ℕ) (text : List UInt8) : Prop :=
  (room < fault.heading.length ∧ text = fault.heading.take room) ∨
    ∃ k ≤ 32, ∃ whole, whole = fault.heading ++ render (fault.stackWords.take k) ∧
      (k = 32 ∨ room ≤ whole.length + 11) ∧ whole.length ≤ room ∧
      text = if whole.length < room then whole ++ ascii "\n" else whole

end BusFault

end RunnerCm33
