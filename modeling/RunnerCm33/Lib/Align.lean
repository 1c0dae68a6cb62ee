import Mathlib.Algebra.Order.Floor.Div
import Mathlib.Data.Nat.ModEq

/-! Rounding up to an alignment, and the bit-mask arithmetic by which machine
words compute it. Alignments are arbitrary positive numbers where no mask is
involved, and powers of two where one is. -/

namespace RunnerCm33.Align

/-- The least multiple of `a` that is not below `n`. -/
def roundUp (n a : ℕ) : ℕ := a * (n ⌈/⌉ a)

variable {n m k a : ℕ}

theorem dvd_roundUp : a ∣ roundUp n a := Dvd.intro _ rfl

theorem le_roundUp (positive : 0 < a) : n ≤ roundUp n a :=
  le_smul_ceilDiv positive

theorem roundUp_le (positive : 0 < a) (above : n ≤ m) (multiple : a ∣ m) : roundUp n a ≤ m := by
  obtain ⟨quotient, rfl⟩ := multiple
  exact Nat.mul_le_mul_left a ((ceilDiv_le_iff_le_mul positive).mpr above)

theorem roundUp_eq (positive : 0 < a) (multiple : a ∣ n) : roundUp n a = n :=
  Nat.le_antisymm (roundUp_le positive le_rfl multiple) (le_roundUp positive)

@[simp] theorem roundUp_zero : roundUp 0 a = 0 := by simp [roundUp]

theorem roundUp_add (positive : 0 < a) (multiple : a ∣ n) : roundUp (n + m) a = n + roundUp m a := by
  apply Nat.le_antisymm
  · exact roundUp_le positive (Nat.add_le_add_left (le_roundUp positive) n)
      (Nat.dvd_add multiple dvd_roundUp)
  · have past : n ≤ roundUp (n + m) a := (Nat.le_add_right n m).trans (le_roundUp positive)
    have rest : roundUp m a ≤ roundUp (n + m) a - n := by
      apply roundUp_le positive
      · have := le_roundUp (n := n + m) positive
        omega
      · exact Nat.dvd_sub dvd_roundUp multiple
    omega

theorem roundUp_of_not_dvd (positive : 0 < a) (unaligned : ¬ a ∣ n) :
    roundUp n a = a * (n / a) + a := by
  have split : a * (n / a) + n % a = n := Nat.div_add_mod n a
  have below : n % a < a := Nat.mod_lt n positive
  have remainder : n % a ≠ 0 := fun zero => unaligned (Nat.dvd_of_mod_eq_zero zero)
  have next : n ⌈/⌉ a = n / a + 1 := by
    apply Nat.le_antisymm
    · rw [ceilDiv_le_iff_le_mul positive, Nat.mul_add]
      omega
    · rw [Nat.succ_le_iff, ← not_le, ceilDiv_le_iff_le_mul positive]
      omega
  rw [roundUp, next, Nat.mul_add, Nat.mul_one]

theorem roundUp_lt (positive : 0 < a) : roundUp n a < n + a := by
  by_cases multiple : a ∣ n
  · rw [roundUp_eq positive multiple]
    omega
  · rw [roundUp_of_not_dvd positive multiple]
    have split : a * (n / a) + n % a = n := Nat.div_add_mod n a
    have remainder : n % a ≠ 0 := fun zero => multiple (Nat.dvd_of_mod_eq_zero zero)
    omega

/-! ### Power-of-two masks on natural numbers -/

/-- Setting the low bits of `n` reaches the last number of its aligned row. -/
theorem or_mask (power : a.isPowerOfTwo) : n ||| (a - 1) = a * (n / a) + (a - 1) := by
  obtain ⟨k, rfl⟩ := power
  have low : 2 ^ k - 1 < 2 ^ k := Nat.sub_lt (Nat.two_pow_pos k) one_pos
  rw [Nat.mul_comm, ← Nat.shiftLeft_eq, Nat.shiftLeft_add_eq_or_of_lt low]
  apply Nat.eq_of_testBit_eq
  intro i
  simp only [Nat.testBit_or, Nat.testBit_shiftLeft, Nat.testBit_two_pow_sub_one, Nat.testBit_div_two_pow]
  by_cases low : i < k
  · simp [low]
  · have high : k ≤ i := Nat.le_of_not_lt low
    simp [low, high]

theorem or_mask_succ (power : a.isPowerOfTwo) (unaligned : ¬ a ∣ n) :
    (n ||| (a - 1)) + 1 = roundUp n a := by
  have positive : 0 < a := Nat.pos_of_isPowerOfTwo power
  rw [or_mask power, roundUp_of_not_dvd positive unaligned]
  omega

theorem and_mask_eq_zero (power : a.isPowerOfTwo) : n &&& (a - 1) = 0 ↔ a ∣ n := by
  obtain ⟨k, rfl⟩ := power
  rw [Nat.and_two_pow_sub_one_eq_mod, Nat.dvd_iff_mod_eq_zero]

/-! ### The same masks on 32-bit words -/

section Words

variable {x y : UInt32}

theorem word_dvd_modulus (power : y.toNat.isPowerOfTwo) : y.toNat ∣ 2 ^ 32 := by
  obtain ⟨k, shape⟩ := power
  have small : (2 : ℕ) ^ k < 2 ^ 32 := shape ▸ y.toNat_lt
  rw [shape]
  exact Nat.pow_dvd_pow 2 (Nat.le_of_lt ((Nat.pow_lt_pow_iff_right one_lt_two).mp small))

theorem toNat_mask (positive : 0 < y.toNat) : (y - 1).toNat = y.toNat - 1 := by
  have le : (1 : UInt32) ≤ y := UInt32.le_iff_toNat_le.mpr positive
  rw [UInt32.toNat_sub_of_le _ _ le]
  rfl

theorem word_and_mask (power : y.toNat.isPowerOfTwo) : x &&& (y - 1) = 0 ↔ y.toNat ∣ x.toNat := by
  rw [← UInt32.toNat_inj, UInt32.toNat_and, toNat_mask (Nat.pos_of_isPowerOfTwo power)]
  exact and_mask_eq_zero power

theorem word_and_not_eq_self : x &&& ~~~y = x ↔ x &&& y = 0 := by
  have split : (x &&& y) ||| (x &&& ~~~y) = x := by
    rw [← UInt32.toBitVec_inj]
    simp only [UInt32.toBitVec_or, UInt32.toBitVec_and, UInt32.toBitVec_not]
    rw [← BitVec.and_or_distrib_left, BitVec.or_not_self, BitVec.and_allOnes]
  constructor
  · intro fixed
    rw [← fixed, UInt32.and_assoc, UInt32.not_and_self, UInt32.and_zero]
  · intro disjoint
    simpa [disjoint] using split

/-- The wrapping round-up idiom `(x | (y - 1)) + 1` of an unaligned word. -/
theorem toNat_or_mask_succ (power : y.toNat.isPowerOfTwo) (unaligned : ¬ y.toNat ∣ x.toNat) :
    ((x ||| (y - 1)) + 1).toNat = roundUp x.toNat y.toNat % 2 ^ 32 := by
  rw [UInt32.toNat_add, UInt32.toNat_or, toNat_mask (Nat.pos_of_isPowerOfTwo power),
    ← or_mask_succ power unaligned]
  rfl

theorem toNat_and_not_mask (power : y.toNat.isPowerOfTwo) :
    (x &&& ~~~(y - 1)).toNat = y.toNat * (x.toNat / y.toNat) := by
  have low : (x &&& (y - 1)).toNat = x.toNat % y.toNat := by
    rw [UInt32.toNat_and, toNat_mask (Nat.pos_of_isPowerOfTwo power)]
    obtain ⟨k, shape⟩ := power
    rw [shape, Nat.and_two_pow_sub_one_eq_mod]
  have apart : (x &&& ~~~(y - 1)).toBitVec &&& (x &&& (y - 1)).toBitVec = 0#32 := by
    rw [← UInt32.toBitVec_and, UInt32.and_comm x, UInt32.and_assoc, UInt32.and_comm x (y - 1),
      ← UInt32.and_assoc x, UInt32.and_comm x, UInt32.and_assoc, ← UInt32.and_assoc,
      UInt32.not_and_self, UInt32.zero_and]
    rfl
  have whole : (x &&& ~~~(y - 1)).toNat + (x &&& (y - 1)).toNat = x.toNat := by
    rw [← UInt32.toNat_toBitVec, ← UInt32.toNat_toBitVec, ← BitVec.toNat_add_of_and_eq_zero apart,
      BitVec.add_eq_or_of_and_eq_zero _ _ apart]
    simp only [UInt32.toBitVec_and, UInt32.toBitVec_not]
    rw [← BitVec.and_or_distrib_left, BitVec.or_comm, BitVec.or_not_self, BitVec.and_allOnes]
    rfl
  have split := Nat.div_add_mod x.toNat y.toNat
  omega

theorem toNat_add_mask_and_not (power : y.toNat.isPowerOfTwo)
    (small : x.toNat + (y.toNat - 1) < 2 ^ 32) :
    ((x + (y - 1)) &&& ~~~(y - 1)).toNat = roundUp x.toNat y.toNat := by
  have positive : 0 < y.toNat := Nat.pos_of_isPowerOfTwo power
  have sum : (x + (y - 1)).toNat = x.toNat + y.toNat - 1 := by
    rw [UInt32.toNat_add, toNat_mask positive, Nat.mod_eq_of_lt small]
    omega
  rw [toNat_and_not_mask power, sum]
  rfl

/-- A word rounds up to at most the modulus, which is the only way to wrap. -/
theorem roundUp_word_le (power : y.toNat.isPowerOfTwo) : roundUp x.toNat y.toNat ≤ 2 ^ 32 :=
  roundUp_le (Nat.pos_of_isPowerOfTwo power) x.toNat_lt.le (word_dvd_modulus power)

end Words

end RunnerCm33.Align
