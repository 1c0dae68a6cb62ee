import Mathlib.Data.Set.Lattice
import Mathlib.Order.CompletePartialOrder
import Mathlib.Order.Interval.Set.Basic

/-! Half-open blocks of an ordered address space, and stacks of them: lists in
which every block starts at or after the end of the one before it. -/

namespace RunnerCm33.Blocks

universe u
variable {Address : Type u} [Preorder Address]

/-- The half-open interval `[start, stop)`; it may be empty but not reversed. -/
structure Block (Address : Type u) [Preorder Address] where
  start : Address
  stop : Address
  ordered : start ≤ stop

namespace Block

def addresses (block : Block Address) : Set Address := Set.Ico block.start block.stop

/-- One block ends before the other starts. -/
def Apart (first second : Block Address) : Prop :=
  first.stop ≤ second.start ∨ second.stop ≤ first.start

theorem Apart.symm {first second : Block Address} (apart : first.Apart second) :
    second.Apart first := Or.symm apart

theorem Apart.disjoint {first second : Block Address} (apart : first.Apart second) :
    Disjoint first.addresses second.addresses := by
  rw [Set.disjoint_left]
  intro address ⟨fromFirst, toFirst⟩ ⟨fromSecond, toSecond⟩
  rcases apart with before | after
  · exact lt_irrefl address (toFirst.trans_le (before.trans fromSecond))
  · exact lt_irrefl address (toSecond.trans_le (after.trans fromFirst))

/-- Containment in the half-open region `[low, high)`. -/
def Within (low high : Address) (block : Block Address) : Prop :=
  low ≤ block.start ∧ block.stop ≤ high

theorem Apart.within {first second inFirst inSecond : Block Address} (apart : first.Apart second)
    (within : inFirst.Within first.start first.stop) (other : inSecond.Within second.start second.stop) :
    inFirst.Apart inSecond := by
  rcases apart with before | after
  · exact .inl ((within.2.trans before).trans other.1)
  · exact .inr ((other.2.trans after).trans within.1)

end Block

/-- `Stacked low blocks high`: the blocks follow one another inside `[low, high]`. -/
def Stacked (low : Address) : List (Block Address) → Address → Prop
  | [], high => low ≤ high
  | block :: rest, high => low ≤ block.start ∧ Stacked block.stop rest high

variable {low middle high : Address} {block : Block Address} {blocks : List (Block Address)}

theorem Stacked.le (stacked : Stacked low blocks high) : low ≤ high := by
  induction blocks generalizing low with
  | nil => exact stacked
  | cons block rest ih => exact (stacked.1.trans block.ordered).trans (ih stacked.2)

theorem Stacked.within (stacked : Stacked low blocks high) (member : block ∈ blocks) :
    block.Within low high := by
  induction blocks generalizing low with
  | nil => simp at member
  | cons first rest ih =>
    rcases List.mem_cons.mp member with rfl | later
    · exact ⟨stacked.1, stacked.2.le⟩
    · have inside := ih stacked.2 later
      exact ⟨(stacked.1.trans first.ordered).trans inside.1, inside.2⟩

theorem Stacked.sorted (stacked : Stacked low blocks high) :
    blocks.Pairwise fun earlier later => earlier.stop ≤ later.start := by
  induction blocks generalizing low with
  | nil => exact .nil
  | cons first rest ih =>
    exact .cons (fun later member => (stacked.2.within member).1) (ih stacked.2)

theorem Stacked.apart (stacked : Stacked low blocks high) : blocks.Pairwise Block.Apart :=
  stacked.sorted.imp .inl

theorem Stacked.push (stacked : Stacked low blocks middle) (above : middle ≤ block.start)
    (below : block.stop ≤ high) : Stacked low (blocks ++ [block]) high := by
  induction blocks generalizing low with
  | nil => exact ⟨le_trans stacked above, below⟩
  | cons first rest ih => exact ⟨stacked.1, ih stacked.2⟩

theorem Stacked.raise (stacked : Stacked low blocks middle) (le : middle ≤ high) :
    Stacked low blocks high := by
  induction blocks generalizing low with
  | nil => exact le_trans stacked le
  | cons first rest ih => exact ⟨stacked.1, ih stacked.2⟩

end RunnerCm33.Blocks
