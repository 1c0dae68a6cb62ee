import Mathlib.Algebra.Group.Nat.Defs
import Mathlib.Data.List.OfFn
import Mathlib.Data.List.TakeWhile

/-! Memory as a map from addresses to cells: copies into it, reads of a range,
and the text up to a terminating cell. -/

namespace RunnerCm33.Memory

variable {Cell : Type} {memory other : ℕ → Cell} {start place count : ℕ} {cells : List Cell}

/-- Copy a list of cells to consecutive addresses. -/
def write (memory : ℕ → Cell) (start : ℕ) (cells : List Cell) : ℕ → Cell := fun address =>
  if inside : start ≤ address ∧ address - start < cells.length then cells[address - start]
  else memory address

def read (memory : ℕ → Cell) (start count : ℕ) : List Cell :=
  List.ofFn fun index : Fin count => memory (start + index)

@[simp] theorem read_length : (read memory start count).length = count := by
  simp [read]

@[simp] theorem read_zero : read memory start 0 = [] := by
  simp [read]

@[simp] theorem read_getElem {index : ℕ} (bound : index < (read memory start count).length) :
    (read memory start count)[index] = memory (start + index) := by
  simp [read]

theorem write_at {index : ℕ} (bound : index < cells.length) :
    write memory start cells (start + index) = cells[index] := by
  simp [write, bound]

@[simp] theorem write_first {cell : Cell} : write memory start (cell :: cells) start = cell := by
  simp [write]

@[simp] theorem write_nil : write memory start [] = memory := by
  funext address
  simp [write]

theorem write_outside {address : ℕ} (outside : address < start ∨ start + cells.length ≤ address) :
    write memory start cells address = memory address := by
  have absent : ¬(start ≤ address ∧ address - start < cells.length) := by omega
  simp [write, absent]

theorem read_eq_replicate {cell : Cell} (same : ∀ index < count, memory (start + index) = cell) :
    read memory start count = List.replicate count cell := by
  apply List.ext_getElem
  · simp
  · intro index bound _
    simpa using same index (by simpa using bound)

theorem read_congr (same : ∀ index < count, memory (start + index) = other (start + index)) :
    read memory start count = read other start count := by
  apply List.ext_getElem
  · simp
  · intro index bound _
    simpa using same index (by simpa using bound)

/-- A copy of what another memory holds in the same place agrees with it there. -/
theorem write_of_held (held : read other start cells.length = cells) {index : ℕ}
    (bound : index < cells.length) : write memory start cells (start + index) = other (start + index) := by
  have cell := List.getElem_of_eq held (by simpa using bound)
  rw [read_getElem] at cell
  rw [write_at bound, cell]

theorem write_keeps (held : read other start cells.length = cells) {address : ℕ}
    (same : memory address = other address) : write memory start cells address = other address := by
  by_cases outside : address < start ∨ start + cells.length ≤ address
  · rw [write_outside outside, same]
  · obtain ⟨index, rfl⟩ := Nat.exists_eq_add_of_le (Nat.le_of_not_lt fun low => outside (.inl low))
    exact write_of_held held (by omega)

@[simp] theorem read_write : read (write memory start cells) start cells.length = cells := by
  apply List.ext_getElem
  · simp
  · intro index _ bound
    simpa using write_at bound

theorem write_append (more : List Cell) :
    write (write memory start cells) (start + cells.length) more = write memory start (cells ++ more) := by
  funext address
  rcases Nat.lt_or_ge address start with below | above
  · rw [write_outside (.inl (by omega)), write_outside (.inl below), write_outside (.inl below)]
  obtain ⟨offset, rfl⟩ := Nat.exists_eq_add_of_le above
  by_cases first : offset < cells.length
  · rw [write_outside (.inl (by omega)), write_at first, write_at (by rw [List.length_append]; omega),
      List.getElem_append_left first]
  by_cases second : offset < cells.length + more.length
  · obtain ⟨index, rfl⟩ := Nat.exists_eq_add_of_le (Nat.le_of_not_lt first)
    rw [← Nat.add_assoc, write_at (by omega), Nat.add_assoc,
      write_at (by rw [List.length_append]; omega), List.getElem_append_right (by omega)]
    simp
  · rw [write_outside (.inr (by omega)), write_outside (.inr (by omega)),
      write_outside (.inr (by rw [List.length_append]; omega))]

theorem read_write_apart (apart : start + cells.length ≤ place ∨ place + count ≤ start) :
    read (write memory start cells) place count = read memory place count := by
  apply read_congr
  intro index bound
  apply write_outside
  omega

theorem read_add (count more : ℕ) :
    read memory start (count + more) = read memory start count ++ read memory (start + count) more := by
  apply List.ext_getElem
  · simp
  · intro index _ _
    rcases Nat.lt_or_ge index count with early | late
    · simp [early]
    · have back : start + count + (index - count) = start + index := by omega
      simp [List.getElem_append, Nat.not_lt.mpr late, back]

/-- Reading the same cells over and over is reading them at every multiple of their
number. -/
theorem read_replicate_iff :
    read memory start (count * cells.length) = (List.replicate count cells).flatten ↔
      ∀ j < count, read memory (start + cells.length * j) cells.length = cells := by
  induction count with
  | zero => simp
  | succ count ih =>
    have split : read memory start ((count + 1) * cells.length) =
        read memory start (count * cells.length) ++
          read memory (start + cells.length * count) cells.length := by
      rw [Nat.succ_mul, read_add, Nat.mul_comm cells.length]
    rw [split, List.replicate_succ', List.flatten_append, List.flatten_singleton,
      Nat.forall_lt_succ_right, ← ih]
    constructor
    · intro same
      exact List.append_inj same (by simp)
    · rintro ⟨earlier, last⟩
      rw [earlier, last]

theorem read_write_behind (held : read memory start cells.length = cells) (more : List Cell) :
    read (write memory (start + cells.length) more) start (cells.length + more.length) =
      cells ++ more := by
  rw [read_add, read_write_apart (Or.inr (Nat.le_refl _)), held, read_write]

section Text
variable [DecidableEq Cell] {nul : Cell} {limit : ℕ}

/-- What a reader of at most `limit` cells sees before the first terminator. -/
def text (nul : Cell) (memory : ℕ → Cell) (start limit : ℕ) : List Cell :=
  (read memory start limit).takeWhile (· ≠ nul)

/-- The text is the part before a terminator, cut at any terminator inside it. -/
theorem text_of_read (held : read memory start count = cells) (within : count < limit)
    (ended : memory (start + count) = nul) : text nul memory start limit = cells.takeWhile (· ≠ nul) := by
  obtain ⟨more, rfl⟩ := Nat.exists_eq_add_of_lt within
  have split : read memory start (count + more + 1) =
      cells ++ nul :: read memory (start + count + 1) more := by
    rw [Nat.add_assoc, read_add, held, Nat.add_comm more 1, read_add]
    simp [read, ended]
  rw [text, split, List.takeWhile_append]
  by_cases whole : (cells.takeWhile (· ≠ nul)).length = cells.length
  · have same := (List.takeWhile_prefix _).eq_of_length whole
    simp only [same, if_true]
    simp
  · simp only [whole, if_false]

/-- Records are read whole exactly when none contains the terminator. -/
theorem takeWhile_flatten_eq_iff {records : List (List Cell)} :
    records.flatten.takeWhile (· ≠ nul) = records.flatten ↔ ∀ record ∈ records, nul ∉ record := by
  rw [List.takeWhile_eq_self_iff]
  constructor
  · intro clean record member inside
    simpa using clean nul (List.mem_flatten.mpr ⟨record, member, inside⟩)
  · intro clean cell member
    obtain ⟨record, kept, inside⟩ := List.mem_flatten.mp member
    simpa using fun same : cell = nul => clean record kept (same ▸ inside)

end Text

end RunnerCm33.Memory
