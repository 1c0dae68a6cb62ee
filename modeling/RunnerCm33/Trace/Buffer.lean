import RunnerCm33.Lib.BoundedLog
import RunnerCm33.Lib.Memory

/-! The trace buffer that Linux reads through remoteproc, and the writes into it:
`trace_write`, the reset before inference, and `copyResourceTable`. -/

namespace RunnerCm33

open RunnerCm33.Memory RunnerCm33.BoundedLog

def resourceTableStart : ℕ := 0x2001E000

/-- `rsc_trace_buf`, in the `m_rsc_tbl` region behind the resource table. -/
def traceBufferAddr : ℕ := resourceTableStart + 0x200

def rscTraceBufSize : UInt32 := 0xC00

theorem rscTraceBufSize_toNat : rscTraceBufSize.toNat = 0xC00 := rfl

theorem index_le_iff {index : UInt32} : index ≤ 0xBFF ↔ index.toNat < rscTraceBufSize.toNat := by
  rw [UInt32.le_iff_toNat_le, rscTraceBufSize_toNat]
  exact Nat.lt_succ_iff.symm

/-- The bytes of a `uint32_t` in memory order. -/
def le32 (word : UInt32) : List UInt8 :=
  [word.toUInt8, (word >>> 8).toUInt8, (word >>> 16).toUInt8, (word >>> 24).toUInt8]

/-- The C characters of a string literal, without its NUL. -/
def ascii (literal : String) : List UInt8 := literal.toList.map fun char => char.toNat.toUInt8

/-- `resources`: version, number of entries, two reserved words, the offset of the
trace entry, and the entry with its padded name. -/
def resources : List UInt8 :=
  [1, 1, 0, 0, 20, 2, UInt32.ofNat traceBufferAddr, rscTraceBufSize, 0].flatMap le32 ++
    (ascii "cm33_log" ++ List.replicate 24 0)

/-- The trace index and the memory it indexes into, with the addresses stored to
so far. -/
structure Trace where
  traceIdx : UInt32
  memory : ℕ → UInt8
  stored : List ℕ

namespace Trace

def store (trace : Trace) (address : ℕ) (bytes : List UInt8) : Trace :=
  { trace with
    memory := write trace.memory address bytes
    stored := trace.stored ++ List.range' address bytes.length }

/-- `trace_idx + len >= RSC_TRACE_BUF_SIZE`. -/
def Full (trace : Trace) (len : UInt32) : Prop := trace.traceIdx + len ≥ rscTraceBufSize

instance (trace : Trace) (len : UInt32) : Decidable (trace.Full len) :=
  inferInstanceAs (Decidable (_ ≥ rscTraceBufSize))

/-- `memcpy(&rsc_trace_buf[trace_idx], buf, len)`. -/
def copy (trace : Trace) (buf : List UInt8) (len : UInt32) : Trace :=
  trace.store (traceBufferAddr + trace.traceIdx.toNat) (buf.take len.toNat)

/-- `trace_idx += len`. -/
def advance (trace : Trace) (len : UInt32) : Trace :=
  { trace with traceIdx := trace.traceIdx + len }

/-- `rsc_trace_buf[trace_idx] = '\0'`. -/
def terminate (trace : Trace) : Trace :=
  trace.store (traceBufferAddr + trace.traceIdx.toNat) [0]

end Trace

def traceWrite (trace : Trace) (buf : List UInt8) (len : UInt32) : Trace :=
  if trace.Full len then trace else ((trace.copy buf len).advance len).terminate

/-- The reset in `main` before inference. -/
def resetTrace (trace : Trace) : Trace :=
  { trace with traceIdx := 0 }.store traceBufferAddr [0]

def copyResourceTable (trace : Trace) : Trace :=
  let trace := trace.store resourceTableStart (List.replicate resources.length 0)
  let trace := trace.store resourceTableStart resources
  trace.store traceBufferAddr (List.replicate rscTraceBufSize.toNat 0)

/-- The text Linux reads from `trace0`: the buffer up to its first NUL. -/
def trace0 (trace : Trace) : List UInt8 :=
  text 0 trace.memory traceBufferAddr rscTraceBufSize.toNat

/-- The text between an old index and the new one. -/
def reportOf (old new : Trace) : List UInt8 :=
  read new.memory (traceBufferAddr + old.traceIdx.toNat)
    (new.traceIdx.toNat - old.traceIdx.toNat)

/-- Nothing was stored outside the buffer. -/
def Trace.Confined (trace : Trace) : Prop :=
  ∀ address ∈ trace.stored,
    traceBufferAddr ≤ address ∧ address < traceBufferAddr + rscTraceBufSize.toNat

/-- The bytes up to the index are the records of a log in order. -/
structure Trace.Contains (trace : Trace) (log : List (List UInt8)) : Prop where
  index : trace.traceIdx.toNat = log.flatten.length
  bounded : log.flatten.length < rscTraceBufSize.toNat
  content : read trace.memory traceBufferAddr log.flatten.length = log.flatten

/-- The log is contained and a NUL follows it. -/
structure Trace.Holds (trace : Trace) (log : List (List UInt8)) : Prop extends trace.Contains log where
  ended : trace.memory (traceBufferAddr + log.flatten.length) = 0

variable {trace : Trace} {log : List (List UInt8)} {buf : List UInt8} {len : UInt32}

private theorem take_length (available : len.toNat ≤ buf.length) :
    (buf.take len.toNat).length = len.toNat := by
  rw [List.length_take, Nat.min_eq_left available]

theorem copyResourceTable_zero (trace : Trace) {offset : ℕ} (inside : offset < rscTraceBufSize.toNat) :
    (copyResourceTable trace).memory (traceBufferAddr + offset) = 0 := by
  have bound : offset < (List.replicate rscTraceBufSize.toNat (0 : UInt8)).length := by
    rwa [List.length_replicate]
  simp only [copyResourceTable, Trace.store]
  rw [write_at bound, List.getElem_replicate]

namespace Trace

theorem Confined.store (confined : trace.Confined) (offset : ℕ)
    (inside : offset + buf.length ≤ rscTraceBufSize.toNat) :
    (trace.store (traceBufferAddr + offset) buf).Confined := by
  intro address member
  rcases List.mem_append.mp member with old | new
  · exact confined address old
  · have range := List.mem_range'_1.mp new
    omega

namespace Contains

theorem index_le (contains : trace.Contains log) : trace.traceIdx ≤ 0xBFF := by
  rw [index_le_iff, contains.index]
  exact contains.bounded

/-- Up to the length of the longest record the sum of the check does not wrap. -/
theorem toNat_add (contains : trace.Contains log) (small : len.toNat < 2 ^ 31) :
    (trace.traceIdx + len).toNat = log.flatten.length + len.toNat := by
  have bounded := contains.bounded
  have size := rscTraceBufSize_toNat
  rw [UInt32.toNat_add, contains.index, Nat.mod_eq_of_lt (by omega)]

theorem full_iff (contains : trace.Contains log) (small : len.toNat < 2 ^ 31) :
    trace.Full len ↔ rscTraceBufSize.toNat ≤ log.flatten.length + len.toNat := by
  rw [Trace.Full, ge_iff_le, UInt32.le_iff_toNat_le, contains.toNat_add small]

/-- `memcpy` puts the record behind the log, which still starts at the base. -/
theorem read_copy (contains : trace.Contains log) (available : len.toNat ≤ buf.length) :
    read (trace.copy buf len).memory traceBufferAddr (log.flatten.length + len.toNat) =
      log.flatten ++ buf.take len.toNat := by
  have length := take_length available
  have behind := read_write_behind contains.content (buf.take len.toNat)
  rw [length, ← contains.index] at behind
  rw [← contains.index]
  exact behind

theorem advance (contains : trace.Contains log) (small : len.toNat < 2 ^ 31)
    (available : len.toNat ≤ buf.length)
    (fits : log.flatten.length + len.toNat < rscTraceBufSize.toNat) :
    ((trace.copy buf len).advance len).Contains (log ++ [buf.take len.toNat]) := by
  have total : (log ++ [buf.take len.toNat]).flatten.length = log.flatten.length + len.toNat := by
    simp [Nat.min_eq_left available]
  constructor
  · rw [total]
    exact contains.toNat_add small
  · rwa [total]
  · rw [total, List.flatten_append, List.flatten_singleton]
    exact contains.read_copy available

theorem terminate (contains : trace.Contains log) : trace.terminate.Holds log where
  index := contains.index
  bounded := contains.bounded
  content := by
    have same : read trace.terminate.memory traceBufferAddr trace.traceIdx.toNat =
        read trace.memory traceBufferAddr trace.traceIdx.toNat :=
      read_write_apart (Or.inr (Nat.le_refl _))
    rw [contains.index] at same
    exact same.trans contains.content
  ended := by
    rw [← contains.index]
    exact write_first

theorem traceWrite_of_full (contains : trace.Contains log) (small : len.toNat < 2 ^ 31)
    (full : rscTraceBufSize.toNat ≤ log.flatten.length + len.toNat) :
    traceWrite trace buf len = trace :=
  if_pos ((contains.full_iff small).mpr full)

theorem traceWrite_of_fits (contains : trace.Contains log) (small : len.toNat < 2 ^ 31)
    (available : len.toNat ≤ buf.length)
    (fits : log.flatten.length + len.toNat < rscTraceBufSize.toNat) :
    (traceWrite trace buf len).Holds (log ++ [buf.take len.toNat]) := by
  have admitted : ¬trace.Full len := by
    rw [contains.full_iff small]
    exact Nat.not_le.mpr fits
  rw [traceWrite, if_neg admitted]
  exact (contains.advance small available fits).terminate

theorem traceWrite_confined (contains : trace.Contains log) (small : len.toNat < 2 ^ 31)
    (available : len.toNat ≤ buf.length) (confined : trace.Confined) :
    (traceWrite trace buf len).Confined := by
  have length := take_length available
  rcases Nat.lt_or_ge (log.flatten.length + len.toNat) rscTraceBufSize.toNat with fits | full
  · have admitted : ¬trace.Full len := by
      rw [contains.full_iff small]
      exact Nat.not_le.mpr fits
    rw [traceWrite, if_neg admitted]
    have copied : (trace.copy buf len).Confined :=
      confined.store _ (by rw [length, contains.index]; exact Nat.le_of_lt fits)
    exact copied.store (trace.traceIdx + len).toNat (by
      rw [contains.toNat_add small]
      exact fits)
  · rwa [contains.traceWrite_of_full small full]

theorem traceWrite_offer (contains : trace.Contains log) (small : len.toNat < 2 ^ 31)
    (available : len.toNat ≤ buf.length) :
    (traceWrite trace buf len).Contains (offer rscTraceBufSize.toNat log (buf.take len.toNat)) := by
  have length := take_length available
  rcases Nat.lt_or_ge (log.flatten.length + len.toNat) rscTraceBufSize.toNat with fits | full
  · rw [offer_of_fits (by rwa [length])]
    exact (contains.traceWrite_of_fits small available fits).toContains
  · rwa [offer_of_full (by rwa [length]), contains.traceWrite_of_full small full]

end Contains

namespace Holds

theorem traceWrite_offer (holds : trace.Holds log) (small : len.toNat < 2 ^ 31)
    (available : len.toNat ≤ buf.length) :
    (traceWrite trace buf len).Holds (offer rscTraceBufSize.toNat log (buf.take len.toNat)) := by
  have length := take_length available
  rcases Nat.lt_or_ge (log.flatten.length + len.toNat) rscTraceBufSize.toNat with fits | full
  · rw [offer_of_fits (by rwa [length])]
    exact holds.traceWrite_of_fits small available fits
  · rwa [offer_of_full (by rwa [length]), holds.traceWrite_of_full small full]

/-- What Linux reads: the kept records in order, up to a NUL inside them. -/
theorem trace0_eq (holds : trace.Holds log) : trace0 trace = log.flatten.takeWhile (· ≠ 0) :=
  text_of_read holds.content holds.bounded holds.ended

end Holds

/-- The reset empties the log; the bytes behind the NUL keep their old text. -/
theorem resetTrace_holds : (resetTrace trace).Holds [] where
  index := rfl
  bounded := by decide
  content := read_zero
  ended := by simp [resetTrace, Trace.store]

theorem Confined.resetTrace (confined : trace.Confined) : (resetTrace trace).Confined := by
  have indexed : ({ trace with traceIdx := 0 } : Trace).Confined := confined
  exact indexed.store 0 (by decide)

end Trace

end RunnerCm33
