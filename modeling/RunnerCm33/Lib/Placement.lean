import RunnerCm33.Lib.Align
import RunnerCm33.Lib.Blocks
import Mathlib.Algebra.BigOperators.Group.List.Basic
import Mathlib.Algebra.Order.BigOperators.Group.List
import Mathlib.Tactic.NormNum
import Mathlib.Tactic.Ring

/-! Placing blocks of given sizes one after another, each at the next multiple
of a fixed alignment: the layout every bump allocator computes for a list of
equally aligned requests. -/

namespace RunnerCm33.Placement

open RunnerCm33.Align RunnerCm33.Blocks

/-- The next block of `size` bytes at or after `cursor`. -/
def next (a cursor size : ℕ) : Block ℕ :=
  ⟨roundUp cursor a, roundUp cursor a + size, Nat.le_add_right ..⟩

/-- The blocks of all sizes, in order. -/
def place (a : ℕ) : ℕ → List ℕ → List (Block ℕ)
  | _, [] => []
  | cursor, size :: rest => next a cursor size :: place a (next a cursor size).stop rest

/-- The end of the last placed block, or the initial cursor if there is none. -/
def finish (a : ℕ) : ℕ → List ℕ → ℕ
  | cursor, [] => cursor
  | cursor, size :: rest => finish a (next a cursor size).stop rest

/-- Bytes a list of sizes occupies from an aligned start: every size but the
last is padded to the alignment. -/
def extent (a : ℕ) : List ℕ → ℕ
  | [] => 0
  | [size] => size
  | size :: rest => roundUp size a + extent a rest

variable {a cursor size high : ℕ} {sizes : List ℕ}

@[simp] theorem next_start : (next a cursor size).start = roundUp cursor a := rfl

@[simp] theorem next_stop : (next a cursor size).stop = roundUp cursor a + size := rfl

@[simp] theorem place_nil : place a cursor [] = [] := rfl

@[simp] theorem place_cons :
    place a cursor (size :: sizes) = next a cursor size :: place a (next a cursor size).stop sizes := rfl

theorem extent_cons_cons {second : ℕ} :
    extent a (size :: second :: sizes) = roundUp size a + extent a (second :: sizes) := rfl

theorem place_stacked (positive : 0 < a) :
    Stacked cursor (place a cursor sizes) (finish a cursor sizes) := by
  induction sizes generalizing cursor with
  | nil => exact le_refl cursor
  | cons size rest ih => exact ⟨le_roundUp positive, ih⟩

theorem finish_append {more : List ℕ} :
    finish a cursor (sizes ++ more) = finish a (finish a cursor sizes) more := by
  induction sizes generalizing cursor with
  | nil => rfl
  | cons size rest ih => exact ih

theorem finish_eq_getLast :
    finish a cursor sizes = ((place a cursor sizes).getLast?.map Block.stop).getD cursor := by
  induction sizes generalizing cursor with
  | nil => rfl
  | cons size rest ih =>
    rw [finish, ih, place_cons, List.getLast?_cons]
    cases (place a (next a cursor size).stop rest).getLast? <;> rfl

theorem place_aligned {block : Block ℕ} (member : block ∈ place a cursor sizes) : a ∣ block.start := by
  induction sizes generalizing cursor with
  | nil => simp [place] at member
  | cons size rest ih =>
    rcases List.mem_cons.mp member with rfl | later
    · exact dvd_roundUp
    · exact ih later

/-- The fold over the cursor agrees with the padded extent of the sizes. -/
theorem finish_eq (positive : 0 < a) (aligned : a ∣ cursor) :
    finish a cursor sizes = cursor + extent a sizes := by
  induction sizes generalizing cursor with
  | nil => rfl
  | cons size rest ih =>
    cases rest with
    | nil => simp [finish, extent, roundUp_eq positive aligned]
    | cons second rest =>
      -- the second block starts at the rounded end of the first, an aligned cursor
      have moved : finish a (cursor + size) (second :: rest) =
          finish a (cursor + roundUp size a) (second :: rest) := by
        have start : roundUp (cursor + size) a = roundUp (cursor + roundUp size a) a := by
          rw [roundUp_add positive aligned, roundUp_add positive aligned,
            roundUp_eq positive dvd_roundUp]
        simp only [finish, next_stop, start]
      have later : finish a (cursor + roundUp size a) (second :: rest) =
          cursor + roundUp size a + extent a (second :: rest) :=
        ih (Nat.dvd_add aligned dvd_roundUp)
      rw [finish, next_stop, roundUp_eq positive aligned, moved, later, extent_cons_cons, Nat.add_assoc]

theorem extent_replicate (count : ℕ) :
    extent a (List.replicate (count + 1) size) = count * roundUp size a + size := by
  induction count with
  | zero => simp [extent]
  | succ count ih =>
    rw [List.replicate_succ, List.replicate_succ, extent_cons_cons, ← List.replicate_succ, ih]
    ring

/-- All blocks stay below `high` exactly when the padded extent does. -/
theorem place_within_iff (positive : 0 < a) (aligned : a ∣ cursor) (below : cursor ≤ high) :
    (∀ block ∈ place a cursor sizes, block.stop ≤ high) ↔ cursor + extent a sizes ≤ high := by
  rw [← finish_eq positive aligned]
  constructor
  · intro inside
    clear aligned
    induction sizes generalizing cursor with
    | nil => exact below
    | cons size rest ih =>
      exact ih (inside _ (by simp [place])) fun block member => inside block (List.mem_cons_of_mem _ member)
  · intro bound block member
    exact ((place_stacked positive).within member).2.trans bound

/-- Padding costs less than one alignment for each block after the first. -/
theorem extent_le_sum (positive : 0 < a) :
    extent a sizes ≤ sizes.sum + (a - 1) * (sizes.length - 1) := by
  fun_induction extent a sizes with
  | case1 => simp
  | case2 size => simp
  | case3 size rest nonempty ih =>
    have padded : roundUp size a < size + a := roundUp_lt positive
    obtain ⟨second, rest, rfl⟩ := List.exists_cons_of_ne_nil nonempty
    simp only [List.sum_cons, List.length_cons, Nat.add_sub_cancel] at ih ⊢
    have spread : (a - 1) * (rest.length + 1) = (a - 1) * rest.length + (a - 1) := by ring
    omega

/-- Whatever the number of blocks, padding at most multiplies the total: an
empty block adds no padding of its own. -/
theorem extent_le_mul (positive : 0 < a) : extent a sizes ≤ a * sizes.sum := by
  fun_induction extent a sizes with
  | case1 => simp
  | case2 size => simpa using Nat.le_mul_of_pos_left size positive
  | case3 size rest _ ih =>
    have padded : roundUp size a ≤ a * size :=
      roundUp_le positive (Nat.le_mul_of_pos_left size positive) (Nat.dvd_mul_right a size)
    rw [List.sum_cons, Nat.mul_add]
    omega

end RunnerCm33.Placement
