import RunnerCm33.Allocator.ArmMemoryAllocator

/-! When `usedSize` counts what the base allocator has really consumed. -/

namespace RunnerCm33.ArmMemoryAllocator

open RunnerCm33.Align RunnerCm33.Runs

/-- Bytes between the pool's base and the cursor, padding included. -/
def consumed (allocator : ArmMemoryAllocator) : ℕ :=
  allocator.cur_.toNat - allocator.begin_.toNat

/-- The reported statistics are those of the cursor. -/
structure Accounted (allocator : ArmMemoryAllocator) : Prop where
  used : allocator.usedSize.toNat = allocator.consumed
  bounded : allocator.usedSize ≤ allocator.size_
  free : allocator.freeSize.toNat + allocator.consumed = allocator.size_.toNat

/-- The cursor lies in the pool. -/
structure WellFormed (allocator : ArmMemoryAllocator) : Prop where
  begins : allocator.begin_.toNat ≤ allocator.cur_.toNat
  ends : allocator.cur_.toNat ≤ allocator.begin_.toNat + allocator.size_.toNat
  limit : allocator.end_ = allocator.begin_ + allocator.size_

/-- No round-up of the request wraps the address space. -/
def Request.RoundsUp (allocator : ArmMemoryAllocator) : Request → Prop
  | .allocate _ alignment => allocator.RoundsUp alignment
  | .reset => True

/-- The padding the count assumes is the padding the cursor takes: a size that
is a multiple of the alignment meets an aligned cursor, any other size meets an
unaligned cursor over an aligned base. At address zero, where a block reads as
a failure, only the empty request is harmless. -/
def Request.KeepsCount (allocator : ArmMemoryAllocator) : Request → Prop
  | .allocate size alignment =>
      allocator.Fits size alignment →
        if allocator.cur_ = 0 then size = 0
        else if alignment.toNat ∣ size.toNat then alignment.toNat ∣ allocator.cur_.toNat
        else alignment.toNat ∣ allocator.begin_.toNat ∧ ¬ alignment.toNat ∣ allocator.cur_.toNat
  | .reset => True

instance (allocator : ArmMemoryAllocator) (request : Request) :
    Decidable (request.RoundsUp allocator) :=
  match request with
  | .allocate _ _ => inferInstanceAs (Decidable (_ → _))
  | .reset => inferInstanceAs (Decidable True)

instance (allocator : ArmMemoryAllocator) (request : Request) :
    Decidable (request.KeepsCount allocator) :=
  match request with
  | .allocate _ _ => inferInstanceAs (Decidable (_ → ite _ _ _))
  | .reset => inferInstanceAs (Decidable True)

variable {allocator : ArmMemoryAllocator} {size alignment baseAddress : UInt32}
  {request : Request} {requests : List Request}

private theorem new_wellFormed : (new size baseAddress).WellFormed :=
  ⟨le_refl _, Nat.le_add_right .., rfl⟩

private theorem new_accounted : (new size baseAddress).Accounted where
  used := by simp [usedSize, consumed]
  bounded := by simp [usedSize, UInt32.le_iff_toNat_le]
  free := by simp [freeSize, consumed]

private theorem accounted_iff (wellFormed : allocator.WellFormed) :
    allocator.Accounted ↔ allocator.used_.toNat = allocator.consumed := by
  constructor
  · exact Accounted.used
  · intro same
    have begins := wellFormed.begins
    have ends := wellFormed.ends
    have bounded : allocator.used_ ≤ allocator.size_ := by
      rw [UInt32.le_iff_toNat_le, same, consumed]
      omega
    refine ⟨same, bounded, ?_⟩
    rw [freeSize, UInt32.toNat_sub_of_le _ _ bounded, same]
    rw [UInt32.le_iff_toNat_le, same] at bounded
    omega

private theorem step_wellFormed (wellFormed : allocator.WellFormed) (rounds : request.RoundsUp allocator) :
    (allocator.step request).WellFormed := by
  cases request with
  | reset => exact ⟨le_refl _, Nat.le_add_right .., wellFormed.limit⟩
  | allocate size alignment =>
    by_cases fits : allocator.Fits size alignment
    · have forward := le_roundUp_cur fits
      have begins := wellFormed.begins
      have inside := fits.2
      have wrapped : allocator.end_.toNat ≤ allocator.begin_.toNat + allocator.size_.toNat := by
        rw [wellFormed.limit, UInt32.toNat_add]
        exact Nat.mod_le ..
      constructor
      · simp only [step, allocate_begin, allocate_cur fits]
        omega
      · simp only [step, allocate_begin, allocate_size, allocate_cur fits]
        omega
      · simpa [step] using wellFormed.limit
    · rw [step, allocate_of_not_fits rounds fits]
      exact wellFormed

/-- Rounding the offset up agrees with rounding the address up, modulo the word
size, exactly when the base is aligned and the address is not. -/
private theorem rounded_offset_iff {a base cursor length : ℕ} (power : a.isPowerOfTwo)
    (word : a ∣ 2 ^ 32) (small : a < 2 ^ 32) (le : base ≤ cursor)
    (inside : roundUp cursor a + length < 2 ^ 32) :
    ((cursor - base ||| (a - 1)) + 1 + length) % 2 ^ 32 = roundUp cursor a + length - base ↔
      a ∣ base ∧ ¬ a ∣ cursor := by
  have positive : 0 < a := Nat.pos_of_isPowerOfTwo power
  have forward : cursor ≤ roundUp cursor a := le_roundUp positive
  have split : a * ((cursor - base) / a) + (cursor - base) % a = cursor - base := Nat.div_add_mod ..
  have remainder : (cursor - base) % a < a := Nat.mod_lt _ positive
  rw [or_mask power]
  constructor
  · intro same
    have unaligned : ¬ a ∣ cursor := by
      intro aligned
      -- the offset moves by between 1 and `a` bytes while the cursor stays
      rw [roundUp_eq positive aligned] at same inside
      omega
    refine ⟨?_, unaligned⟩
    obtain ⟨wraps, exact'⟩ : ∃ wraps, base + (a * ((cursor - base) / a) + a) =
        2 ^ 32 * wraps + roundUp cursor a := by
      refine ⟨(a * ((cursor - base) / a) + (a - 1) + 1 + length) / 2 ^ 32, ?_⟩
      have whole := Nat.div_add_mod (a * ((cursor - base) / a) + (a - 1) + 1 + length) (2 ^ 32)
      omega
    have multiple : a ∣ base + (a * ((cursor - base) / a) + a) := by
      rw [exact']
      exact Nat.dvd_add (word.mul_right _) dvd_roundUp
    exact (Nat.dvd_add_left (Nat.dvd_add (Nat.dvd_mul_right ..) (Nat.dvd_refl a))).mp multiple
  · intro ⟨aligned, unaligned⟩
    have offset : ¬ a ∣ cursor - base := by
      intro multiple
      have whole := Nat.dvd_add aligned multiple
      rw [Nat.add_sub_cancel' le] at whole
      exact unaligned whole
    have shifted : roundUp cursor a = base + roundUp (cursor - base) a := by
      rw [← roundUp_add positive aligned, Nat.add_sub_cancel' le]
    rw [roundUp_of_not_dvd positive offset] at shifted
    rw [Nat.mod_eq_of_lt (by omega)]
    omega

/-- The count after a granted request agrees with the cursor exactly when the
request keeps it so. -/
theorem allocate_counted_iff (wellFormed : allocator.WellFormed)
    (counted : allocator.used_.toNat = allocator.consumed)
    (fits : allocator.Fits size alignment) :
    (allocator.allocate size alignment).2.used_.toNat =
        (allocator.allocate size alignment).2.consumed ↔
      if allocator.cur_ = 0 then size = 0
      else if alignment.toNat ∣ size.toNat then alignment.toNat ∣ allocator.cur_.toNat
      else alignment.toNat ∣ allocator.begin_.toNat ∧ ¬ alignment.toNat ∣ allocator.cur_.toNat := by
  have power := fits.1
  have positive : 0 < alignment.toNat := Nat.pos_of_isPowerOfTwo power
  have forward := le_roundUp_cur fits
  have begins := wellFormed.begins
  have limit : roundUp allocator.cur_.toNat alignment.toNat + size.toNat < 2 ^ 32 :=
    Nat.lt_of_le_of_lt fits.2 allocator.end_.toNat_lt
  have consumed' : (allocator.allocate size alignment).2.consumed =
      roundUp allocator.cur_.toNat alignment.toNat + size.toNat - allocator.begin_.toNat := by
    rw [consumed, allocate_cur fits, allocate_begin]
  rw [consumed] at counted
  rw [allocate_used, consumed']
  by_cases zero : allocator.cur_ = 0
  · have null : (allocator.allocate size alignment).1 = nullptr := by
      rw [← UInt32.toNat_inj, allocate_toNat fits, zero]
      simp
    simp only [zero, UInt32.toNat_zero, roundUp_zero] at counted begins ⊢
    rw [if_pos null, if_pos trivial, ← UInt32.toNat_inj, UInt32.toNat_zero]
    omega
  · rw [if_neg ((allocate_ne_null_iff zero).mpr fits), if_neg zero]
    by_cases multiple : alignment.toNat ∣ size.toNat
    · rw [if_pos ((word_and_mask power).mpr multiple), if_pos multiple, UInt32.toNat_add, counted]
      constructor
      · intro same
        have stays : roundUp allocator.cur_.toNat alignment.toNat = allocator.cur_.toNat := by omega
        exact stays ▸ dvd_roundUp
      · intro aligned
        rw [roundUp_eq positive aligned] at limit ⊢
        omega
    · rw [if_neg (fun masked => multiple ((word_and_mask power).mp masked)), if_neg multiple]
      have count : ((allocator.used_ ||| (alignment - 1)) + 1 + size).toNat =
          ((allocator.cur_.toNat - allocator.begin_.toNat ||| (alignment.toNat - 1)) + 1 +
            size.toNat) % 2 ^ 32 := by
        simp only [UInt32.toNat_add, UInt32.toNat_or, toNat_mask positive, counted,
          UInt32.toNat_one, Nat.mod_add_mod]
      rw [count]
      exact rounded_offset_iff power (word_dvd_modulus power) alignment.toNat_lt begins limit

private theorem step_accounted_iff (wellFormed : allocator.WellFormed) (accounted : allocator.Accounted)
    (rounds : request.RoundsUp allocator) :
    (allocator.step request).Accounted ↔ request.KeepsCount allocator := by
  cases request with
  | reset =>
    have fresh : (allocator.step .reset).Accounted := by
      rw [accounted_iff (step_wellFormed wellFormed rounds)]
      simp [step, reset, MemoryAllocator.reset, consumed]
    exact iff_of_true fresh trivial
  | allocate size alignment =>
    rw [accounted_iff (step_wellFormed wellFormed rounds)]
    have counted := (accounted_iff wellFormed).mp accounted
    by_cases fits : allocator.Fits size alignment
    · rw [step, allocate_counted_iff wellFormed counted fits]
      exact (imp_iff_right fits).symm
    · rw [step, allocate_of_not_fits rounds fits]
      exact iff_of_true counted fun impossible => absurd impossible fits

/-- Over any pool, and any run whose round-ups do not wrap, the statistics stay
those of the cursor exactly when every request keeps the count. -/
theorem accounting_iff (size baseAddress : UInt32) (requests : List Request)
    (rounds : EachStep step (fun allocator request => request.RoundsUp allocator)
      (new size baseAddress) requests) :
    Always step Accounted (new size baseAddress) requests ↔
      EachStep step (fun allocator request => request.KeepsCount allocator)
        (new size baseAddress) requests := by
  have valid : Always step WellFormed (new size baseAddress) requests :=
    rounds.always new_wellFormed fun _ _ => step_wellFormed
  rw [← always_and_iff valid]
  refine always_iff_eachStep ⟨new_wellFormed, new_accounted⟩ rounds ?_
  intro allocator request ⟨wellFormed, accounted⟩ rounds
  rw [← step_accounted_iff wellFormed accounted rounds]
  exact and_iff_right (step_wellFormed wellFormed rounds)

/-- Word-sized requests with matching alignment keep the count. -/
theorem accounting_iff_words :
    Always step Accounted (new 64 0x20003000) [.allocate 8 4, .allocate 65 4, .reset, .allocate 4 4] :=
  (accounting_iff 64 0x20003000 _ (by decide)).mpr (by decide)

/-- A 4-byte block followed by a 16-byte aligned one: the cursor has moved 32
bytes, the count says 20. -/
theorem usedSize_falls_behind :
    ¬ ∀ (size baseAddress : UInt32) (requests : List Request),
      EachStep step (fun allocator request => request.RoundsUp allocator)
        (new size baseAddress) requests →
      Always step Accounted (new size baseAddress) requests := by
  intro claim
  have always := claim 64 0x20003000 [.allocate 4 4, .allocate 16 16] (by decide)
  exact absurd always.last.used (by decide)

end RunnerCm33.ArmMemoryAllocator
