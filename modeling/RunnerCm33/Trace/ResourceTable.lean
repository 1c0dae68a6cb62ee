import RunnerCm33.Lib.LittleEndian
import RunnerCm33.Trace.FaultMoments

/-! The resource table that remoteproc finds the trace buffer through: its layout, the
copy of it in front of the buffer, and the log that is read by way of it. -/

namespace RunnerCm33

open RunnerCm33.Runs RunnerCm33.Memory RunnerCm33.LittleEndian

def rscTrace : UInt32 := 2

def noResourceEntries : ℕ := 1

/-- `struct fw_rsc_trace`. -/
structure FwRscTrace where
  type : UInt32
  da : UInt32
  len : UInt32
  reserved : UInt32
  name : Vector UInt8 32
deriving DecidableEq, Repr

/-- `struct remote_resource_table`. -/
structure RemoteResourceTable where
  version : UInt32
  num : UInt32
  reserved : Vector UInt32 2
  offset : Vector UInt32 noResourceEntries
  trace : FwRscTrace
deriving DecidableEq, Repr

/-- A `char` array initialised from a literal. -/
def nameField (literal : String) : Vector UInt8 32 :=
  .ofFn fun index => (ascii literal).getD index 0

/-- `offsetof(struct remote_resource_table, trace)`. -/
def RemoteResourceTable.offsetofTrace : UInt32 := 20

/-- The initialiser of `resources`. -/
def resourceTable : RemoteResourceTable where
  version := 1
  num := .ofNat noResourceEntries
  reserved := #v[0, 0]
  offset := #v[RemoteResourceTable.offsetofTrace]
  trace := {
    type := rscTrace
    da := .ofNat traceBufferAddr
    len := rscTraceBufSize
    reserved := 0
    name := nameField "cm33_log" }

/-- Words at the start of some bytes, and the bytes behind them. -/
def words (count : ℕ) (bytes : List UInt8) : Option (List UInt32 × List UInt8) :=
  (numbers 4 count bytes).map fun (values, rest) => (values.map .ofNat, rest)

/-- The rest of an entry is its name. -/
def nameOf (bytes : List UInt8) : Option (Vector UInt8 32) :=
  if length : bytes.length = 32 then some ⟨bytes.toArray, length⟩ else none

namespace FwRscTrace

def toWords (entry : FwRscTrace) : List UInt32 := [entry.type, entry.da, entry.len, entry.reserved]

def toBytes (entry : FwRscTrace) : List UInt8 := entry.toWords.flatMap le32 ++ entry.name.toList

def ofBytes (bytes : List UInt8) : Option FwRscTrace := do
  let (values, rest) ← words 4 bytes
  let name ← nameOf rest
  match values with
  | [type, da, len, reserved] => some ⟨type, da, len, reserved, name⟩
  | _ => none

end FwRscTrace

namespace RemoteResourceTable

def toWords (table : RemoteResourceTable) : List UInt32 :=
  [table.version, table.num] ++ table.reserved.toList ++ table.offset.toList

def toBytes (table : RemoteResourceTable) : List UInt8 :=
  table.toWords.flatMap le32 ++ table.trace.toBytes

/-- `sizeof(struct remote_resource_table)`. -/
def size : ℕ := 68

def ofBytes (bytes : List UInt8) : Option RemoteResourceTable := do
  let (values, rest) ← words 5 bytes
  let trace ← FwRscTrace.ofBytes rest
  match values with
  | [version, num, first, second, offset] => some ⟨version, num, #v[first, second], #v[offset], trace⟩
  | _ => none

end RemoteResourceTable

/-- What a host shows as `trace0` for a table at an address: it follows the offset to
an entry of type `RSC_TRACE` and reads the text at its address, within its length. -/
def hostTrace (memory : ℕ → UInt8) (address : ℕ) : Option (List UInt8) := do
  let table ← RemoteResourceTable.ofBytes (read memory address RemoteResourceTable.size)
  let entry ← FwRscTrace.ofBytes (read memory (address + table.offset[0].toNat) 48)
  if table.num ≠ 0 ∧ entry.type = rscTrace then some (text 0 memory entry.da.toNat entry.len.toNat)
  else none

variable {bytes rest : List UInt8} {values : List UInt32} {count : ℕ} {trace : Trace}

private theorem le32_eq (word : UInt32) : le32 word = encode 4 word.toNat := by
  have byte (shift : UInt32) (small : shift.toNat < 32) :
      (word >>> shift).toUInt8 = .ofNat (word.toNat / 2 ^ shift.toNat % 256) := by
    rw [← UInt8.toNat_inj, UInt32.toNat_toUInt8, UInt32.toNat_shiftRight, Nat.mod_eq_of_lt small,
      Nat.shiftRight_eq_div_pow, UInt8.toNat_ofNat_of_lt' (Nat.mod_lt _ (by decide))]
  have first : word.toUInt8 = .ofNat (word.toNat % 256) := by
    rw [← UInt8.toNat_inj, UInt32.toNat_toUInt8, UInt8.toNat_ofNat_of_lt' (Nat.mod_lt _ (by decide))]
  have second := byte 8 (by decide)
  have third := byte 16 (by decide)
  have fourth := byte 24 (by decide)
  rw [le32, first, second, third, fourth]
  simp only [encode, Nat.div_div_eq_div_mul]
  rfl

private theorem flatMap_le32 (values : List UInt32) :
    values.flatMap le32 = (values.map UInt32.toNat).flatMap (encode 4) := by
  rw [List.flatMap_map]
  exact List.flatMap_congr fun value _ => le32_eq value

private theorem words_eq_some_iff : words count bytes = some (values, rest) ↔
    values.length = count ∧ bytes = values.flatMap le32 ++ rest := by
  rw [words, Option.map_eq_some_iff, flatMap_le32]
  constructor
  · rintro ⟨⟨read, behind⟩, found, same⟩
    obtain ⟨rfl, rfl⟩ := Prod.mk.inj same
    obtain ⟨length, shape, fits⟩ := of_numbers found
    have back : (read.map UInt32.ofNat).map UInt32.toNat = read := by
      rw [List.map_map]
      refine (List.map_congr_left fun value member => ?_).trans (List.map_id read)
      exact UInt32.toNat_ofNat_of_lt' (fits value member)
    rw [back, List.length_map]
    exact ⟨length, shape⟩
  · rintro ⟨rfl, rfl⟩
    have fits : ∀ value ∈ values.map UInt32.toNat, value < 256 ^ 4 := by
      intro value member
      obtain ⟨word, -, rfl⟩ := List.mem_map.mp member
      exact word.toNat_lt
    refine ⟨(values.map UInt32.toNat, rest), ?_, ?_⟩
    · have read := numbers_encode rest fits
      rwa [List.length_map] at read
    · have back : (values.map UInt32.toNat).map UInt32.ofNat = values := by
        rw [List.map_map]
        exact (List.map_congr_left fun word _ => UInt32.ofNat_toNat).trans (List.map_id values)
      exact Prod.ext back rfl

private theorem nameOf_eq_some_iff {name : Vector UInt8 32} :
    nameOf bytes = some name ↔ bytes = name.toList := by
  constructor
  · intro found
    unfold nameOf at found
    split at found
    · obtain rfl := Option.some.inj found
      simp
    · cases found
  · rintro rfl
    rw [nameOf, dif_pos name.length_toList]
    rfl

theorem FwRscTrace.ofBytes_eq_some_iff {entry : FwRscTrace} :
    ofBytes bytes = some entry ↔ bytes = entry.toBytes := by
  constructor
  · intro found
    simp only [ofBytes, Option.bind_eq_bind, Option.bind_eq_some_iff] at found
    obtain ⟨⟨values, rest⟩, split, name, named, same⟩ := found
    obtain ⟨-, rfl⟩ := words_eq_some_iff.mp split
    obtain rfl := nameOf_eq_some_iff.mp named
    split at same
    · rename_i shape
      obtain rfl : values = _ := shape
      obtain rfl := Option.some.inj same
      rfl
    · cases same
  · rintro rfl
    have split : words 4 entry.toBytes = some (entry.toWords, entry.name.toList) :=
      words_eq_some_iff.mpr ⟨rfl, rfl⟩
    simp [ofBytes, split, nameOf_eq_some_iff.mpr rfl, toWords]

theorem RemoteResourceTable.ofBytes_eq_some_iff (bytes : List UInt8) (table : RemoteResourceTable) :
    ofBytes bytes = some table ↔ bytes = table.toBytes := by
  constructor
  · intro found
    simp only [ofBytes, Option.bind_eq_bind, Option.bind_eq_some_iff] at found
    obtain ⟨⟨values, rest⟩, split, trace, entry, same⟩ := found
    obtain ⟨-, rfl⟩ := words_eq_some_iff.mp split
    obtain rfl := FwRscTrace.ofBytes_eq_some_iff.mp entry
    split at same
    · rename_i shape
      obtain rfl : values = _ := shape
      obtain rfl := Option.some.inj same
      rfl
    · cases same
  · rintro rfl
    obtain ⟨first, second, reserved⟩ : ∃ first second, table.reserved = #v[first, second] := by
      refine ⟨table.reserved[0], table.reserved[1], Vector.ext fun index bound => ?_⟩
      match index with
      | 0 | 1 => rfl
    obtain ⟨offset, only⟩ : ∃ offset, table.offset = #v[offset] := by
      refine ⟨table.offset[0], Vector.ext fun index bound => ?_⟩
      obtain rfl : index = 0 := Nat.lt_one_iff.mp bound
      rfl
    have values : table.toWords = [table.version, table.num, first, second, offset] := by
      rw [toWords, reserved, only]
      rfl
    have split : words 5 table.toBytes = some (table.toWords, table.trace.toBytes) :=
      words_eq_some_iff.mpr ⟨by rw [values]; rfl, rfl⟩
    have entry := FwRscTrace.ofBytes_eq_some_iff.mpr (Eq.refl table.trace.toBytes)
    simp only [ofBytes, Option.bind_eq_bind, split, Option.bind_some, entry, values, ← reserved, ← only]

private theorem exists_words (enough : count * 4 ≤ bytes.length) : ∃ values rest, words count bytes =
    some (values, rest) ∧ values.length = count ∧ rest.length = bytes.length - count * 4 := by
  obtain ⟨read, rest, found⟩ := exists_numbers enough
  have split : words count bytes = some (read.map .ofNat, rest) := by rw [words, found]; rfl
  obtain ⟨length, -⟩ := words_eq_some_iff.mp split
  exact ⟨_, rest, split, length, rest_length found⟩

theorem FwRscTrace.exists_ofBytes (length : bytes.length = 48) : ∃ entry, ofBytes bytes = some entry := by
  obtain ⟨values, rest, split, four, behind⟩ := exists_words (show 4 * 4 ≤ bytes.length by omega)
  have named : nameOf rest = some ⟨rest.toArray, by simp; omega⟩ := dif_pos (by omega)
  match values, four, split with
  | [type, da, len, reserved], _, split =>
    refine ⟨⟨type, da, len, reserved, ⟨rest.toArray, by simp; omega⟩⟩, ?_⟩
    simp only [ofBytes, Option.bind_eq_bind, split, Option.bind_some, named]

theorem RemoteResourceTable.exists_ofBytes (length : bytes.length = size) :
    ∃ table, ofBytes bytes = some table := by
  have sixtyEight : size = 68 := rfl
  obtain ⟨values, rest, split, five, behind⟩ := exists_words (show 5 * 4 ≤ bytes.length by omega)
  obtain ⟨entry, found⟩ := FwRscTrace.exists_ofBytes (show rest.length = 48 by omega)
  match values, five, split with
  | [version, num, first, second, offset], _, split =>
    refine ⟨⟨version, num, #v[first, second], #v[offset], entry⟩, ?_⟩
    simp only [ofBytes, Option.bind_eq_bind, split, Option.bind_some, found]

private theorem RemoteResourceTable.toBytes_length (table : RemoteResourceTable) :
    table.toBytes.length = size := by
  have word (value : UInt32) : (le32 value).length = 4 := rfl
  have entries : table.offset.toList.length = 1 := table.offset.length_toList
  simp [toBytes, FwRscTrace.toBytes, FwRscTrace.toWords, toWords, List.length_flatMap, word, size,
    entries]

/-- Every table is read back from its image, and every string of the right length is the
image of the table that is read from it; no other string is a table. -/
theorem RemoteResourceTable.round_trip :
    (∀ table : RemoteResourceTable, ofBytes table.toBytes = some table) ∧
      ∀ bytes : List UInt8, if bytes.length = size
        then ∃ table, ofBytes bytes = some table ∧ table.toBytes = bytes
        else ofBytes bytes = none := by
  constructor
  · intro table
    exact (ofBytes_eq_some_iff _ _).mpr rfl
  · intro bytes
    split
    · rename_i length
      obtain ⟨table, found⟩ := exists_ofBytes length
      exact ⟨table, found, ((ofBytes_eq_some_iff _ _).mp found).symm⟩
    · rename_i length
      rw [Option.eq_none_iff_forall_ne_some]
      intro table found
      rw [(ofBytes_eq_some_iff _ _).mp found] at length
      exact length table.toBytes_length

private theorem resources_eq : resources = resourceTable.toBytes := by
  decide

/-! ### The table in memory -/

theorem Writers.step_below (writers : Writers) (event : WriterEvent) {address : ℕ}
    (below : address < traceBufferAddr) :
    (writers.step event).trace.memory address = writers.trace.memory address := by
  have outside (memory : ℕ → UInt8) (offset : ℕ) (cells : List UInt8) :
      write memory (traceBufferAddr + offset) cells address = memory address :=
    write_outside (.inl (by omega))
  have base (memory : ℕ → UInt8) (cells : List UInt8) :
      write memory traceBufferAddr cells address = memory address := outside memory 0 cells
  cases event with
  | enter call =>
    rw [step]
    split
    · split <;> rfl
    · rfl
  | rewind =>
    rw [step]
    split <;> rfl
  | thread =>
    rw [step]
    split
    · rfl
    · exact outside ..
    · rfl
    · exact outside ..
    · exact base ..
  | interrupt text =>
    rw [step]
    split
    · rfl
    · split
      · rfl
      · rename_i handed _ admitted
        simp only [traceWrite, if_neg admitted, Trace.terminate, Trace.advance, Trace.copy, Trace.store,
          outside]

/-- A memory that holds the firmware's table in its place. -/
def HoldsTable (memory : ℕ → UInt8) : Prop :=
  read memory resourceTableStart RemoteResourceTable.size = resourceTable.toBytes

theorem HoldsTable.congr {memory other : ℕ → UInt8} (held : HoldsTable memory)
    (same : ∀ address < traceBufferAddr, other address = memory address) : HoldsTable other := by
  have inside : resourceTableStart + RemoteResourceTable.size ≤ traceBufferAddr := by decide
  refine Eq.trans (read_congr fun index bound => same _ ?_) held
  omega

private theorem startTrace_holdsTable (memory : ℕ → UInt8) : HoldsTable (startTrace memory).memory := by
  have length : resources.length = RemoteResourceTable.size := by decide
  have apart : resourceTableStart + RemoteResourceTable.size ≤ traceBufferAddr := by decide
  have copied (before : ℕ → UInt8) :
      read (write before resourceTableStart resources) resourceTableStart RemoteResourceTable.size =
        resources := by
    rw [← length]
    exact read_write
  rw [HoldsTable, ← resources_eq]
  simp only [startTrace, copyResourceTable, Trace.store]
  rw [read_write_apart (.inr apart), copied]

theorem HoldsTable.hostTrace {memory : ℕ → UInt8} (held : HoldsTable memory) :
    hostTrace memory resourceTableStart = some (text 0 memory traceBufferAddr rscTraceBufSize.toNat) := by
  have table := (RemoteResourceTable.ofBytes_eq_some_iff _ _).mpr held
  have split : read memory resourceTableStart RemoteResourceTable.size =
      read memory resourceTableStart 20 ++ read memory (resourceTableStart + 20) 48 := read_add 20 48
  have behind : read memory (resourceTableStart + 20) 48 = resourceTable.trace.toBytes :=
    (List.append_inj (split.symm.trans held) (by rw [read_length]; rfl)).2
  have entry := FwRscTrace.ofBytes_eq_some_iff.mpr behind
  have offset : resourceTable.offset[0].toNat = 20 := rfl
  simp only [RunnerCm33.hostTrace, Option.bind_eq_bind, table, Option.bind_some, offset, entry]
  rfl

private theorem Counting.run_holdsTable {events : List WriterEvent} {counting : Counting}
    (held : HoldsTable counting.writers.trace.memory) :
    HoldsTable (run step counting events).writers.trace.memory := by
  induction events generalizing counting with
  | nil => exact held
  | cons event rest ih =>
    exact ih (held.congr fun address below => counting.writers.step_below event below)

private theorem Fault.handle_holdsTable (fault : Fault) (index : trace.traceIdx ≤ rscTraceBufSize - 1)
    (held : HoldsTable trace.memory) : HoldsTable (fault.handle trace).memory := by
  obtain ⟨text, -, appends⟩ := fault.handle_appends index
  exact held.congr fun address below => appends.kept address (Nat.lt_add_right _ below)

end RunnerCm33
