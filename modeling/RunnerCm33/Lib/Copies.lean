import RunnerCm33.Lib.Blocks
import RunnerCm33.Lib.Memory

/-! Copies into memory, one after the other. Copies whose targets are apart all stand at
the end, and what lies apart from every target is as it was. -/

namespace RunnerCm33.Copies

open RunnerCm33.Blocks RunnerCm33.Memory

variable {Cell : Type}

/-- Cells and the address they are copied to. -/
structure Copy (Cell : Type) where
  target : ℕ
  cells : List Cell

def Copy.block (copy : Copy Cell) : Block ℕ :=
  ⟨copy.target, copy.target + copy.cells.length, Nat.le_add_right ..⟩

def Copy.make (memory : ℕ → Cell) (copy : Copy Cell) : ℕ → Cell := write memory copy.target copy.cells

def makeAll (memory : ℕ → Cell) (copies : List (Copy Cell)) : ℕ → Cell := copies.foldl Copy.make memory

variable {memory : ℕ → Cell} {copies : List (Copy Cell)} {copy : Copy Cell} {start count : ℕ}

@[simp] theorem makeAll_nil : makeAll memory [] = memory := rfl

@[simp] theorem makeAll_cons : makeAll memory (copy :: copies) = makeAll (copy.make memory) copies := rfl

theorem read_make (block : Block ℕ) (apart : copy.block.Apart block) :
    read (copy.make memory) block.start (block.stop - block.start) =
      read memory block.start (block.stop - block.start) := by
  apply read_write_apart
  rw [Nat.add_sub_of_le block.ordered]
  exact apart

theorem read_makeAll (memory : ℕ → Cell) (block : Block ℕ)
    (apart : ∀ copy ∈ copies, copy.block.Apart block) :
    read (makeAll memory copies) block.start (block.stop - block.start) =
      read memory block.start (block.stop - block.start) := by
  induction copies generalizing memory with
  | nil => rfl
  | cons first rest ih =>
    rw [makeAll_cons, ih _ fun copy member => apart copy (by simp [member])]
    exact read_make block (apart first (by simp))

theorem read_of_makeAll (memory : ℕ → Cell)
    (apart : copies.Pairwise fun first second => first.block.Apart second.block)
    (member : copy ∈ copies) :
    read (makeAll memory copies) copy.target copy.cells.length = copy.cells := by
  induction copies generalizing memory with
  | nil => simp at member
  | cons first rest ih =>
    obtain ⟨fromFirst, others⟩ := List.pairwise_cons.mp apart
    rcases List.mem_cons.mp member with rfl | later
    · have kept := read_makeAll (copy.make memory) copy.block
        fun other present => (fromFirst other present).symm
      simp only [Copy.block, Nat.add_sub_cancel_left] at kept
      rw [makeAll_cons, kept]
      exact read_write
    · exact ih _ others later

end RunnerCm33.Copies
