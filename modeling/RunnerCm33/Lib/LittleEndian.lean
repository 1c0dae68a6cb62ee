import Mathlib.Algebra.Group.Nat.Defs

/-! Numbers as bytes in memory order, lowest first, and records that begin with numbers
of one width. -/

namespace RunnerCm33.LittleEndian

/-- The lowest `width` bytes of a number. -/
def encode : ℕ → ℕ → List UInt8
  | 0, _ => []
  | width + 1, value => .ofNat (value % 256) :: encode width (value / 256)

def decode : List UInt8 → ℕ
  | [] => 0
  | byte :: rest => byte.toNat + 256 * decode rest

/-- So many numbers at the start of a record, and the bytes behind them. -/
def numbers (width : ℕ) : ℕ → List UInt8 → Option (List ℕ × List UInt8)
  | 0, bytes => some ([], bytes)
  | count + 1, bytes =>
    if bytes.length < width then none
    else (numbers width count (bytes.drop width)).map
      fun (values, rest) => (decode (bytes.take width) :: values, rest)

variable {width value count : ℕ} {values : List ℕ} {bytes rest : List UInt8}

@[simp] theorem encode_length : (encode width value).length = width := by
  induction width generalizing value with
  | zero => rfl
  | succ width ih => rw [encode, List.length_cons, ih]

theorem decode_encode : decode (encode width value) = value % 256 ^ width := by
  induction width generalizing value with
  | zero => simp [encode, decode, Nat.mod_one]
  | succ width ih =>
    have low : (UInt8.ofNat (value % 256)).toNat = value % 256 :=
      UInt8.toNat_ofNat_of_lt' (Nat.mod_lt _ (by decide))
    rw [encode, decode, ih, low, Nat.pow_succ', Nat.mod_mul]

theorem decode_lt (bytes : List UInt8) : decode bytes < 256 ^ bytes.length := by
  induction bytes with
  | nil => exact Nat.one_pos
  | cons byte rest ih =>
    have small : byte.toNat < 256 := byte.toNat_lt
    rw [decode, List.length_cons, Nat.pow_succ']
    omega

theorem encode_decode (bytes : List UInt8) : encode bytes.length (decode bytes) = bytes := by
  induction bytes with
  | nil => rfl
  | cons byte rest ih =>
    have small : byte.toNat < 256 := byte.toNat_lt
    have low : (byte.toNat + 256 * decode rest) % 256 = byte.toNat := by omega
    have high : (byte.toNat + 256 * decode rest) / 256 = decode rest := by omega
    rw [List.length_cons, decode, encode, low, high, ih, UInt8.ofNat_toNat]

/-- Numbers that fit their width are read back from the start of a record. -/
theorem numbers_encode (rest : List UInt8) (fits : ∀ value ∈ values, value < 256 ^ width) :
    numbers width values.length (values.flatMap (encode width) ++ rest) = some (values, rest) := by
  induction values with
  | nil => rfl
  | cons value values ih =>
    have later := ih fun other member => fits other (by simp [member])
    have room : ¬(encode width value ++ (values.flatMap (encode width) ++ rest)).length < width := by
      rw [List.length_append, encode_length]
      omega
    rw [List.length_cons, List.flatMap_cons, List.append_assoc, numbers, if_neg room,
      List.drop_left' encode_length, List.take_left' encode_length, later, decode_encode,
      Nat.mod_eq_of_lt (fits value (by simp))]
    rfl

theorem of_numbers (read : numbers width count bytes = some (values, rest)) :
    values.length = count ∧ bytes = values.flatMap (encode width) ++ rest ∧
      ∀ value ∈ values, value < 256 ^ width := by
  induction count generalizing bytes values with
  | zero =>
    obtain ⟨rfl, rfl⟩ := Prod.mk.inj (Option.some.inj read)
    simp
  | succ count ih =>
    rw [numbers] at read
    split at read
    · cases read
    · rename_i room
      obtain ⟨⟨others, behind⟩, later, same⟩ := Option.map_eq_some_iff.mp read
      obtain ⟨rfl, rfl⟩ := Prod.mk.inj same
      obtain ⟨length, tail, fits⟩ := ih later
      have first : (bytes.take width).length = width := List.length_take_of_le (Nat.le_of_not_lt room)
      have head : encode width (decode (bytes.take width)) = bytes.take width := by
        have back := encode_decode (bytes.take width)
        rwa [first] at back
      refine ⟨by rw [List.length_cons, length], ?_, ?_⟩
      · rw [List.flatMap_cons, head, List.append_assoc, ← tail, List.take_append_drop]
      · rw [List.forall_mem_cons]
        have bound := decode_lt (bytes.take width)
        rw [first] at bound
        exact ⟨bound, fits⟩

theorem rest_length (read : numbers width count bytes = some (values, rest)) :
    rest.length = bytes.length - count * width := by
  obtain ⟨rfl, rfl, -⟩ := of_numbers read
  have encoded : (values.flatMap (encode width)).length = values.length * width := by
    clear read
    induction values with
    | nil => simp
    | cons value values ih => simp [ih, Nat.succ_mul, Nat.add_comm]
  rw [List.length_append, encoded, Nat.add_sub_cancel_left]

theorem exists_numbers (enough : count * width ≤ bytes.length) :
    ∃ values rest, numbers width count bytes = some (values, rest) := by
  induction count generalizing bytes with
  | zero => exact ⟨[], bytes, rfl⟩
  | succ count ih =>
    rw [Nat.succ_mul] at enough
    have remaining : count * width ≤ (bytes.drop width).length := by
      rw [List.length_drop]
      omega
    obtain ⟨values, rest, later⟩ := ih remaining
    have room : ¬bytes.length < width := by omega
    exact ⟨decode (bytes.take width) :: values, rest, by simp [numbers, room, later]⟩

end RunnerCm33.LittleEndian
