import RunnerCm33.Lib.Align
import RunnerCm33.Lib.Blocks

/-! Sizes and alignments of types as a C compiler lays them out: scalars, structures
and unions, and arrays of them in memory. -/

namespace RunnerCm33.Layouts

open RunnerCm33.Align RunnerCm33.Blocks

/-- Size and alignment of a type; the size is padded to the alignment. -/
structure Layout where
  size : ℕ
  align : ℕ
  positive : 0 < align
  padded : align ∣ size

/-- The alignment of an aggregate of members. -/
def commonAlign (members : List Layout) : ℕ := (members.map Layout.align).foldr Nat.lcm 1

theorem commonAlign_pos (members : List Layout) : 0 < commonAlign members := by
  induction members with
  | nil => exact Nat.one_pos
  | cons member rest ih => exact Nat.lcm_pos member.positive ih

/-- A scalar as large as its alignment. -/
def scalar (bytes : ℕ) [NeZero bytes] : Layout :=
  ⟨bytes, bytes, NeZero.pos bytes, dvd_rfl⟩

/-- Each member at the next multiple of its alignment, then padding at the end. -/
def record (members : List Layout) : Layout where
  size := roundUp (members.foldl (fun offset member => roundUp offset member.align + member.size) 0)
    (commonAlign members)
  align := commonAlign members
  positive := commonAlign_pos members
  padded := dvd_roundUp

/-- All members at offset zero. -/
def union (members : List Layout) : Layout where
  size := roundUp ((members.map Layout.size).foldr max 0) (commonAlign members)
  align := commonAlign members
  positive := commonAlign_pos members
  padded := dvd_roundUp

/-- The memory an array of so many elements takes from an address on. -/
def Layout.array (layout : Layout) (start count : ℕ) : Block ℕ :=
  ⟨start, start + count * layout.size, Nat.le_add_right ..⟩

variable {layout : Layout} {start count bytes : ℕ}

@[simp] theorem Layout.array_stop :
    (layout.array start count).stop = start + count * layout.size := rfl

/-- An array with elements larger than a block allows for leaves the block. -/
theorem Layout.array_overruns {each : ℕ} (inhabited : 1 ≤ count) (allowed : bytes ≤ count * each)
    (larger : each < layout.size) : start + bytes < (layout.array start count).stop := by
  have more : count * each < count * layout.size := Nat.mul_lt_mul_of_pos_left larger inhabited
  rw [array_stop]
  omega

end RunnerCm33.Layouts
