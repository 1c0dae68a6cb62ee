import RunnerCm33.Lib.Placement

/-! Counting the bytes of a placement without its cursor: from a count and a size alone,
by rounding the count up behind every size that is not a multiple of the alignment. The
count is right as long as all sizes are multiples, and from then on ahead. -/

namespace RunnerCm33.SizeCounts

open RunnerCm33.Align RunnerCm33.Placement

/-- The count after one more block. A count that is aligned already is rounded up too. -/
def next (a counted size : ℕ) : ℕ :=
  if a ∣ size then counted + size else a * (counted / a) + a + size

def count (a counted : ℕ) (sizes : List ℕ) : ℕ := sizes.foldl (next a) counted

/-- The count is past the cursor, in the row behind the one that the cursor is in or ends. -/
structure Ahead (a cursor counted : ℕ) : Prop where
  past : cursor < counted
  near : counted ≤ cursor + a
  unaligned : ¬a ∣ counted
  row : roundUp counted a = roundUp cursor a + a

variable {a cursor counted size : ℕ} {sizes : List ℕ}

theorem count_cons : count a counted (size :: sizes) = count a (next a counted size) sizes := rfl

theorem next_of_multiple (positive : 0 < a) (aligned : a ∣ cursor) (multiple : a ∣ size) :
    next a cursor size = (Placement.next a cursor size).stop ∧ a ∣ next a cursor size := by
  rw [next, if_pos multiple, next_stop, roundUp_eq positive aligned]
  exact ⟨rfl, Nat.dvd_add aligned multiple⟩

theorem ahead_of_odd (positive : 0 < a) (odd : ¬a ∣ size) (row : a ∣ cursor) :
    Ahead a (cursor + size) (cursor + a + size) := by
  have shifted : cursor + a + size = a + (cursor + size) := by omega
  refine ⟨by omega, by omega, ?_, ?_⟩
  · intro multiple
    exact odd ((Nat.dvd_add_right (Nat.dvd_add row (Nat.dvd_refl a))).mp multiple)
  · rw [shifted, roundUp_add positive (Nat.dvd_refl a), Nat.add_comm]

theorem next_of_odd (positive : 0 < a) (aligned : a ∣ cursor) (odd : ¬a ∣ size) :
    Ahead a (Placement.next a cursor size).stop (next a cursor size) := by
  rw [next, if_neg odd, next_stop, roundUp_eq positive aligned, Nat.mul_div_cancel' aligned]
  exact ahead_of_odd positive odd aligned

theorem Ahead.next (ahead : Ahead a cursor counted) (positive : 0 < a) :
    Ahead a (Placement.next a cursor size).stop (next a counted size) := by
  have rounded := roundUp_of_not_dvd positive ahead.unaligned
  have row := ahead.row
  rw [next_stop]
  by_cases multiple : a ∣ size
  · have above : counted ≤ roundUp counted a := le_roundUp positive
    have below : roundUp counted a < counted + a := roundUp_lt positive
    have same : roundUp (counted + size) a = roundUp counted a + size := by
      rw [Nat.add_comm counted, roundUp_add positive multiple, Nat.add_comm]
    rw [SizeCounts.next, if_pos multiple]
    refine ⟨by omega, by omega, ?_, ?_⟩
    · intro whole
      exact ahead.unaligned ((Nat.dvd_add_left multiple).mp whole)
    · rw [same, row, roundUp_eq positive (Nat.dvd_add dvd_roundUp multiple)]
      omega
  · have moved : a * (counted / a) + a = roundUp cursor a + a := by omega
    rw [SizeCounts.next, if_neg multiple, moved]
    exact ahead_of_odd positive multiple dvd_roundUp

theorem Ahead.count (ahead : Ahead a cursor counted) (positive : 0 < a) (sizes : List ℕ) :
    Ahead a (finish a cursor sizes) (count a counted sizes) := by
  induction sizes generalizing cursor counted with
  | nil => exact ahead
  | cons size rest ih => exact ih (ahead.next positive)

/-- The count is right over an aligned cursor, or ahead. -/
def Counts (a cursor counted : ℕ) : Prop := a ∣ cursor ∧ counted = cursor ∨ Ahead a cursor counted

theorem Counts.near (counts : Counts a cursor counted) : cursor ≤ counted ∧ counted ≤ cursor + a := by
  rcases counts with ⟨-, same⟩ | ahead
  · omega
  · exact ⟨Nat.le_of_lt ahead.past, ahead.near⟩

theorem Counts.next (counts : Counts a cursor counted) (positive : 0 < a) (size : ℕ) :
    Counts a (Placement.next a cursor size).stop (next a counted size) := by
  rcases counts with ⟨aligned, rfl⟩ | ahead
  · by_cases multiple : a ∣ size
    · obtain ⟨same, whole⟩ := next_of_multiple positive aligned multiple
      exact .inl ⟨same ▸ whole, same⟩
    · exact .inr (next_of_odd positive aligned multiple)
  · exact .inr (ahead.next positive)

/-- The count never falls behind, and is never further ahead than one alignment. -/
theorem Counts.count (counts : Counts a cursor counted) (positive : 0 < a) (sizes : List ℕ) :
    Counts a (finish a cursor sizes) (count a counted sizes) := by
  induction sizes generalizing cursor counted with
  | nil => exact counts
  | cons size rest ih => exact ih (counts.next positive size)

/-- From an aligned cursor the count ends at the finish exactly when all sizes are
multiples of the alignment. -/
theorem count_eq_finish_iff (positive : 0 < a) (aligned : a ∣ cursor) :
    count a cursor sizes = finish a cursor sizes ↔ ∀ size ∈ sizes, a ∣ size := by
  induction sizes generalizing cursor with
  | nil => exact iff_of_true rfl (by simp)
  | cons size rest ih =>
    rw [count_cons, finish, List.forall_mem_cons]
    by_cases multiple : a ∣ size
    · obtain ⟨same, whole⟩ := next_of_multiple positive aligned multiple
      rw [same] at whole ⊢
      rw [ih whole]
      exact (and_iff_right multiple).symm
    · have ahead := (next_of_odd positive aligned multiple).count positive rest
      exact iff_of_false (Nat.ne_of_gt ahead.past) fun all => multiple all.1

end RunnerCm33.SizeCounts
