import RunnerCm33.Lib.Blocks
import Mathlib.Algebra.Group.Nat.Defs

/-! Windows into a buffer, checked with the sum of offset and size in machine words.
The check admits every window inside the buffer, and besides them those whose sum wraps
back to within its size. -/

namespace RunnerCm33.Windows

open RunnerCm33.Blocks

/-- `offset + size <= limit` for words below the modulus. -/
def Admitted (modulus offset size limit : ℕ) : Prop := (offset + size) % modulus ≤ limit

/-- The sum has wrapped and is small again. -/
def Overlooked (modulus offset size limit : ℕ) : Prop :=
  modulus ≤ offset + size ∧ Admitted modulus offset size limit

instance (modulus offset size limit : ℕ) : Decidable (Admitted modulus offset size limit) :=
  inferInstanceAs (Decidable (_ ≤ _))

instance (modulus offset size limit : ℕ) : Decidable (Overlooked modulus offset size limit) :=
  inferInstanceAs (Decidable (_ ∧ _))

/-- The cells of a window into the buffer at `base`. -/
def window (base offset size : ℕ) : Block ℕ :=
  ⟨base + offset, base + offset + size, Nat.le_add_right ..⟩

variable {modulus base offset size limit : ℕ}

@[simp] theorem window_start : (window base offset size).start = base + offset := rfl

@[simp] theorem window_stop : (window base offset size).stop = base + offset + size := rfl

theorem window_within_iff :
    (window base offset size).Within base (base + limit) ↔ offset + size ≤ limit := by
  simp only [Block.Within, window_start, window_stop]
  omega

theorem admitted_of_inside (word : limit < modulus) (inside : offset + size ≤ limit) :
    Admitted modulus offset size limit := by
  rw [Admitted, Nat.mod_eq_of_lt (Nat.lt_of_le_of_lt inside word)]
  exact inside

theorem Admitted.inside_iff (admitted : Admitted modulus offset size limit) (word : limit < modulus) :
    offset + size ≤ limit ↔ ¬Overlooked modulus offset size limit := by
  constructor
  · intro inside overlooked
    exact absurd (Nat.lt_of_le_of_lt inside word) (Nat.not_lt.mpr overlooked.1)
  · intro noticed
    have exact' : offset + size < modulus := Nat.lt_of_not_le fun wraps => noticed ⟨wraps, admitted⟩
    rwa [Admitted, Nat.mod_eq_of_lt exact'] at admitted

theorem Overlooked.outside (overlooked : Overlooked modulus offset size limit)
    (small : base + limit < modulus) (word : offset < modulus) :
    ¬(window ((base + offset) % modulus) 0 size).Within base (base + limit) := by
  intro ⟨above, below⟩
  have wraps := overlooked.1
  simp only [window_start, window_stop, Nat.add_zero] at above below
  rcases Nat.lt_or_ge (base + offset) modulus with low | high
  · rw [Nat.mod_eq_of_lt low] at below
    omega
  · have start : (base + offset) % modulus = base + offset - modulus := by
      rw [Nat.mod_eq_sub_mod high, Nat.mod_eq_of_lt (by omega)]
    omega

end RunnerCm33.Windows
