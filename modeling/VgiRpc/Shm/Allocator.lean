import VgiRpc.Shm.Segment

/-!
# The allocator keeps its table packed

The byte-level operations refine the list operations of `Lib.Regions`: on a
valid segment `allocate` inserts the region first fit chooses, `free_alloc`
erases one entry, `reset` empties the table, and none of them faults.  The
invariant over whole runs follows by induction on the run.
-/

namespace VgiRpc.Shm

open Lib

namespace Segment

/-! ## Checked accesses inside the header -/

theorem entryAddress_le {index : Nat} (bound : index ≤ kShmMaxAllocs) :
    entryAddress index ≤ kShmHeaderSize := by
  simp only [entryAddress, kShmMaxAllocs, kShmHeaderSize, kShmHeaderStructSize,
    kShmAllocStructSize] at *
  omega

theorem entryAddress_succ (index : Nat) :
    entryAddress (index + 1) = entryAddress index + 16 := by
  simp only [entryAddress, kShmAllocStructSize]
  omega

theorem entryAddress_add (index more : Nat) :
    entryAddress (index + more) = entryAddress index + 16 * more := by
  simp only [entryAddress, kShmAllocStructSize]
  omega

theorem struct_le_entryAddress (index : Nat) : 24 ≤ entryAddress index := by
  simp only [entryAddress, kShmHeaderStructSize]
  omega

theorem loadU64_eq {segment : Segment} {address : Nat}
    (bound : address + 8 ≤ segment.size) :
    segment.loadU64 address = .ok (segment.bytes.loadLE address 8) :=
  if_pos bound

theorem loadEntryOffset_eq {segment : Segment} {index : Nat}
    (bound : entryAddress index + 8 ≤ segment.size) :
    segment.loadU64 (entryAddress index) = .ok (segment.entry index).offset :=
  loadU64_eq bound

theorem loadEntryLength_eq {segment : Segment} {index : Nat}
    (bound : entryAddress index + 8 + 8 ≤ segment.size) :
    segment.loadU64 (entryAddress index + 8) = .ok (segment.entry index).length :=
  loadU64_eq bound

theorem storeU64_eq {segment : Segment} {address : Nat} (value : Nat)
    (bound : address + 8 ≤ segment.size) :
    segment.storeU64 address value =
      .ok { segment with bytes := segment.bytes.storeLE address 8 value } :=
  if_pos bound

theorem memmove_eq {segment : Segment} {target source size : Nat}
    (targetBound : target + size ≤ segment.size)
    (sourceBound : source + size ≤ segment.size) :
    segment.memmove target source size =
      .ok { segment with bytes := segment.bytes.memmove target source size } :=
  if_pos ⟨targetBound, sourceBound⟩

theorem numAllocs_eq {segment : Segment} (bound : kShmHeaderSize < segment.size) :
    segment.numAllocs = .ok segment.count := by
  refine if_pos ?_
  simp only [kShmHeaderSize] at bound
  omega

theorem setNumAllocs_eq {segment : Segment} (count : Nat)
    (bound : kShmHeaderSize < segment.size) :
    segment.setNumAllocs count =
      .ok { segment with bytes := segment.bytes.storeLE 16 4 count } := by
  refine if_pos ?_
  simp only [kShmHeaderSize] at bound
  omega

/-! ## The table as a list -/

@[simp] theorem entriesFrom_length (segment : Segment) (index remaining : Nat) :
    (segment.entriesFrom index remaining).length = remaining := by
  simp [entriesFrom]

@[simp] theorem entriesFrom_zero (segment : Segment) (index : Nat) :
    segment.entriesFrom index 0 = [] := rfl

@[simp] theorem entriesFrom_succ (segment : Segment) (index remaining : Nat) :
    segment.entriesFrom index (remaining + 1) =
      segment.entry index :: segment.entriesFrom (index + 1) remaining := by
  simp [entriesFrom, List.range'_succ]

@[simp] theorem table_length (segment : Segment) :
    segment.table.length = segment.count := by
  simp [table]

theorem getElem_table (segment : Segment) {index : Nat}
    (bound : index < segment.table.length) :
    segment.table[index] = segment.entry index := by
  simp [table, entriesFrom]

/-- The memory of a table with `count` entries decides the table: it is enough
to compare the counter and the entries one by one. -/
theorem table_eq {segment : Segment} {entries : List Region}
    (countEq : segment.count = entries.length)
    (entryEq : ∀ index (bound : index < entries.length),
      segment.entry index = entries[index]) :
    segment.table = entries := by
  apply List.ext_getElem
  · rw [table_length, countEq]
  · intro index left right
    rw [getElem_table, entryEq index right]

/-! ## Insertion -/

/-- The bytes `insert_at` leaves behind. -/
def insertedBytes (bytes : Memory) (count size index offset : Nat) : Memory :=
  (((bytes.memmove (entryAddress (index + 1)) (entryAddress index)
    ((count - index) * kShmAllocStructSize)).storeLE (entryAddress index) 8
      offset).storeLE (entryAddress index + 8) 8 size).storeLE 16 4 (count + 1)

theorem insertAt_eq {segment : Segment} {count index : Nat} (size offset : Nat)
    (header : kShmHeaderSize < segment.size) (room : count < kShmMaxAllocs)
    (bound : index ≤ count) :
    segment.insertAt count size index offset =
      .ok { segment with bytes := insertedBytes segment.bytes count size index offset } := by
  have last := entryAddress_le (Nat.succ_le_of_lt room)
  have span : entryAddress (count + 1) =
      entryAddress (index + 1) + 16 * (count - index) := by
    rw [← entryAddress_add]
    congr 1
    omega
  have next := entryAddress_succ index
  simp only [Nat.succ_eq_add_one] at last
  simp only [insertAt, kShmAllocStructSize]
  rw [memmove_eq (by omega) (by omega)]
  simp only [bind, Except.bind]
  rw [storeU64_eq _ (by change _ ≤ segment.size; omega)]
  simp only
  rw [storeU64_eq _ (by change _ ≤ segment.size; omega)]
  exact setNumAllocs_eq _ header

section Insert

variable {bytes : Memory} {count size index offset address : Nat}

/-- Loads from the table in front of the new entry are untouched. -/
theorem loadLE_insertedBytes_of_le (above : 20 ≤ address)
    (before : address + 8 ≤ entryAddress index) :
    (insertedBytes bytes count size index offset).loadLE address 8 =
      bytes.loadLE address 8 := by
  have next := entryAddress_succ index
  rw [insertedBytes, Memory.loadLE_storeLE_of_disjoint _ _ _ _ (.inr above),
    Memory.loadLE_storeLE_of_disjoint _ _ _ _ (.inl (by omega)),
    Memory.loadLE_storeLE_of_disjoint _ _ _ _ (.inl before),
    Memory.loadLE_memmove_of_disjoint _ (.inl (by omega))]

theorem loadLE_insertedBytes_offset (fits : offset < 2 ^ 64) :
    (insertedBytes bytes count size index offset).loadLE (entryAddress index) 8 =
      offset := by
  have low := struct_le_entryAddress index
  rw [insertedBytes, Memory.loadLE_storeLE_of_disjoint _ _ _ _ (.inr (by omega)),
    Memory.loadLE_storeLE_of_disjoint _ _ _ _ (.inl le_rfl), Memory.loadLE_storeLE]
  exact Nat.mod_eq_of_lt fits

theorem loadLE_insertedBytes_length (fits : size < 2 ^ 64) :
    (insertedBytes bytes count size index offset).loadLE (entryAddress index + 8) 8 =
      size := by
  have low := struct_le_entryAddress index
  rw [insertedBytes, Memory.loadLE_storeLE_of_disjoint _ _ _ _ (.inr (by omega)),
    Memory.loadLE_storeLE]
  exact Nat.mod_eq_of_lt fits

/-- Loads behind the new entry read what was one entry further down. -/
theorem loadLE_insertedBytes_of_ge (after : entryAddress (index + 1) ≤ address)
    (bound : address + 8 ≤
      entryAddress (index + 1) + (count - index) * kShmAllocStructSize) :
    (insertedBytes bytes count size index offset).loadLE address 8 =
      bytes.loadLE (address - 16) 8 := by
  have low := struct_le_entryAddress index
  have next := entryAddress_succ index
  have moved : entryAddress index + (address - entryAddress (index + 1)) =
      address - 16 := by omega
  rw [insertedBytes, Memory.loadLE_storeLE_of_disjoint _ _ _ _ (.inr (by omega)),
    Memory.loadLE_storeLE_of_disjoint _ _ _ _ (.inr (by omega)),
    Memory.loadLE_storeLE_of_disjoint _ _ _ _ (.inr (by omega)),
    Memory.loadLE_memmove _ after bound, moved]

end Insert

/-- The segment `insert_at` leaves behind. -/
def inserted (segment : Segment) (size index offset : Nat) : Segment :=
  { segment with bytes := insertedBytes segment.bytes segment.count size index offset }

theorem entry_inserted_of_lt (segment : Segment) (size offset : Nat)
    {index other : Nat} (before : other < index) :
    (segment.inserted size index offset).entry other = segment.entry other := by
  have low := struct_le_entryAddress other
  have gap : entryAddress index = entryAddress other + 16 * (index - other) := by
    rw [← entryAddress_add, Nat.add_sub_cancel' before.le]
  rw [entry, entry, Region.mk.injEq]
  constructor
  · exact loadLE_insertedBytes_of_le (by omega) (by omega)
  · exact loadLE_insertedBytes_of_le (by omega) (by omega)

theorem entry_inserted_self (segment : Segment) {size offset : Nat} (index : Nat)
    (sizeFits : size < 2 ^ 64) (offsetFits : offset < 2 ^ 64) :
    (segment.inserted size index offset).entry index = ⟨offset, size⟩ := by
  rw [entry, Region.mk.injEq]
  constructor
  · exact loadLE_insertedBytes_offset offsetFits
  · exact loadLE_insertedBytes_length sizeFits

theorem entry_inserted_of_gt (segment : Segment) (size offset : Nat)
    {index other : Nat} (after : index < other) (bound : other ≤ segment.count) :
    (segment.inserted size index offset).entry other = segment.entry (other - 1) := by
  have next := entryAddress_succ index
  have self := entryAddress_add (other - 1) 1
  rw [Nat.sub_add_cancel (by omega)] at self
  have gap := entryAddress_add index (other - index)
  rw [Nat.add_sub_cancel' after.le] at gap
  have back : entryAddress (other - 1) = entryAddress other - 16 := by omega
  have back' : entryAddress (other - 1) + 8 = entryAddress other + 8 - 16 := by omega
  have width : kShmAllocStructSize = 16 := rfl
  rw [entry, entry, Region.mk.injEq, back', back]
  constructor
  · exact loadLE_insertedBytes_of_ge (by omega) (by rw [width]; omega)
  · exact loadLE_insertedBytes_of_ge (by omega) (by rw [width]; omega)

theorem count_inserted {segment : Segment} (size index offset : Nat)
    (room : segment.count < kShmMaxAllocs) :
    (segment.inserted size index offset).count = segment.count + 1 := by
  rw [count, inserted, insertedBytes, Memory.loadLE_storeLE]
  apply Nat.mod_eq_of_lt
  simp only [kShmMaxAllocs, kShmHeaderSize, kShmHeaderStructSize,
    kShmAllocStructSize] at room
  omega

/-- `insert_at` is insertion into the list of entries. -/
theorem table_inserted {segment : Segment} {size index offset : Nat}
    (room : segment.count < kShmMaxAllocs) (bound : index ≤ segment.count)
    (sizeFits : size < 2 ^ 64) (offsetFits : offset < 2 ^ 64) :
    (segment.inserted size index offset).table =
      segment.table.insertIdx index ⟨offset, size⟩ := by
  have inTable : index ≤ segment.table.length := by simpa using bound
  apply table_eq
  · rw [List.length_insertIdx_of_le_length inTable, table_length]
    exact count_inserted size index offset room
  · intro other otherBound
    have otherLe : other ≤ segment.count := by
      rw [List.length_insertIdx_of_le_length inTable, table_length] at otherBound
      omega
    rcases Nat.lt_trichotomy other index with before | rfl | after
    · rw [entry_inserted_of_lt segment size offset before,
        List.getElem_insertIdx_of_lt before, getElem_table]
    · rw [entry_inserted_self segment other sizeFits offsetFits,
        List.getElem_insertIdx_self]
    · rw [entry_inserted_of_gt segment size offset after otherLe,
        List.getElem_insertIdx_of_gt after, getElem_table]

/-! ## Removal -/

/-- The segment `free_alloc` leaves behind when it drops entry `index`. -/
def erased (segment : Segment) (index : Nat) : Segment :=
  { segment with bytes := (segment.bytes.memmove (entryAddress index)
      (entryAddress (index + 1)) ((segment.count - index - 1) *
        kShmAllocStructSize)).storeLE 16 4 (segment.count - 1) }

theorem count_erased {segment : Segment} (index : Nat)
    (bound : segment.count ≤ kShmMaxAllocs) :
    (segment.erased index).count = segment.count - 1 := by
  rw [count, erased, Memory.loadLE_storeLE]
  apply Nat.mod_eq_of_lt
  simp only [kShmMaxAllocs, kShmHeaderSize, kShmHeaderStructSize,
    kShmAllocStructSize] at bound
  omega

theorem entry_erased_of_lt (segment : Segment) {index other : Nat}
    (before : other < index) : (segment.erased index).entry other = segment.entry other := by
  have low := struct_le_entryAddress other
  have gap := entryAddress_add other (index - other)
  rw [Nat.add_sub_cancel' before.le] at gap
  rw [entry, entry, Region.mk.injEq]
  constructor
  · rw [erased, Memory.loadLE_storeLE_of_disjoint _ _ _ _ (.inr (by omega)),
      Memory.loadLE_memmove_of_disjoint _ (.inl (by omega))]
  · rw [erased, Memory.loadLE_storeLE_of_disjoint _ _ _ _ (.inr (by omega)),
      Memory.loadLE_memmove_of_disjoint _ (.inl (by omega))]

theorem entry_erased_of_ge (segment : Segment) {index other : Nat}
    (after : index ≤ other) (bound : other + 1 < segment.count) :
    (segment.erased index).entry other = segment.entry (other + 1) := by
  have low := struct_le_entryAddress other
  have next := entryAddress_succ index
  have otherNext := entryAddress_succ other
  have gap := entryAddress_add index (other - index)
  rw [Nat.add_sub_cancel' after] at gap
  have width : kShmAllocStructSize = 16 := rfl
  have moved : entryAddress (index + 1) + (entryAddress other - entryAddress index) =
      entryAddress (other + 1) := by omega
  have moved' : entryAddress (index + 1) + (entryAddress other + 8 - entryAddress index) =
      entryAddress (other + 1) + 8 := by omega
  rw [entry, entry, Region.mk.injEq]
  constructor
  · rw [erased, Memory.loadLE_storeLE_of_disjoint _ _ _ _ (.inr (by omega)),
      Memory.loadLE_memmove _ (by omega) (by rw [width]; omega), moved]
  · rw [erased, Memory.loadLE_storeLE_of_disjoint _ _ _ _ (.inr (by omega)),
      Memory.loadLE_memmove _ (by omega) (by rw [width]; omega), moved']

/-- Dropping an entry is deletion from the list of entries. -/
theorem table_erased {segment : Segment} {index : Nat}
    (bound : segment.count ≤ kShmMaxAllocs) (inTable : index < segment.count) :
    (segment.erased index).table = segment.table.eraseIdx index := by
  have length : (segment.table.eraseIdx index).length = segment.count - 1 := by
    rw [List.length_eraseIdx_of_lt (by simpa using inTable), table_length]
  apply table_eq
  · rw [length, count_erased index bound]
  · intro other otherBound
    rcases Nat.lt_or_ge other index with before | after
    · rw [entry_erased_of_lt segment before, List.getElem_eraseIdx_of_lt _ before,
        getElem_table]
    · rw [entry_erased_of_ge segment after (by omega),
        List.getElem_eraseIdx_of_ge _ after, getElem_table]

/-! ## The operations on a valid segment -/

/-- The scan of the bytes is the scan of the list of entries: no load faults and
no addition wraps. -/
theorem scanGap_eq {segment : Segment} {high : Nat} (size : Nat) (fits : high < 2 ^ 64)
    {remaining index prevEnd : Nat}
    (inHeader : entryAddress (index + remaining) ≤ segment.size)
    (packed : Packed high prevEnd (segment.entriesFrom index remaining)) :
    segment.scanGap size remaining index prevEnd =
      .ok (firstGap size index prevEnd (segment.entriesFrom index remaining)) := by
  induction remaining generalizing index prevEnd with
  | zero => rfl
  | succ remaining ih =>
      rw [entriesFrom_succ] at packed ⊢
      rcases packed with ⟨lower, positive, tail⟩
      have span := entryAddress_add index (remaining + 1)
      have finishLe := tail.low_le
      simp only [Region.finish] at finishLe tail
      rw [scanGap, loadEntryOffset_eq (by omega), firstGap]
      simp only [bind, Except.bind]
      by_cases gap : prevEnd + size ≤ (segment.entry index).offset
      · rw [if_pos ⟨lower, by omega⟩, if_pos gap]
      · rw [if_neg (by omega), if_neg gap, loadEntryLength_eq (by omega)]
        simp only [Region.finish]
        rw [Nat.mod_eq_of_lt (by omega)]
        refine ih ?_ tail
        rw [Nat.add_right_comm, Nat.add_assoc]
        exact inHeader

/-- The search loop returns a position inside the table, unless no entry there has the
offset. -/
theorem findEntry_eq {segment : Segment} (offset : Nat) {remaining index : Nat}
    (inHeader : entryAddress (index + remaining) ≤ segment.size) :
    (segment.findEntry offset remaining index = .ok none ∧
        ∀ position, index ≤ position → position < index + remaining →
          (segment.entry position).offset ≠ offset) ∨
      ∃ position, index ≤ position ∧ position < index + remaining ∧
        (segment.entry position).offset = offset ∧
        segment.findEntry offset remaining index = .ok (some position) := by
  induction remaining generalizing index with
  | zero => exact .inl ⟨rfl, fun position lower upper => by omega⟩
  | succ remaining ih =>
      have span := entryAddress_add index (remaining + 1)
      rw [findEntry, loadEntryOffset_eq (by omega)]
      simp only [bind, Except.bind]
      by_cases found : (segment.entry index).offset = offset
      · rw [if_pos found]
        exact .inr ⟨index, le_rfl, by omega, found, rfl⟩
      · rw [if_neg found]
        have shifted : entryAddress (index + 1 + remaining) ≤ segment.size := by
          rw [Nat.add_right_comm, Nat.add_assoc]
          exact inHeader
        rcases ih shifted with ⟨missing, elsewhere⟩ | ⟨position, lower, upper, stored, result⟩
        · refine .inl ⟨missing, ?_⟩
          intro position lower upper
          rcases Nat.eq_or_lt_of_le lower with rfl | later
          · exact found
          · exact elsewhere position later (by omega)
        · exact .inr ⟨position, by omega, by omega, stored, result⟩

theorem toU64_pos {size : Int64} (positive : 0 < size) : 0 < toU64 size := by
  have nonneg : 0 ≤ size := Int64.le_of_lt positive
  rw [toU64, Int64.toNat_toUInt64_of_le nonneg]
  rw [Int64.lt_iff_toInt_lt, Int64.toInt_zero] at positive
  have cast := Int64.toNat_toInt size
  omega

theorem toU64_lt (value : Int64) : toU64 value < 2 ^ 64 := value.toUInt64.toNat_lt

/-- The entries of a valid segment stay inside the header. -/
theorem Valid.table_in_header {segment : Segment} (valid : segment.Valid) :
    entryAddress (0 + segment.count) ≤ segment.size := by
  rw [zero_add]
  exact (entryAddress_le valid.count_le).trans valid.header_lt.le

/-- The table position and the offset that `allocate` gives a region, if it has
room for it. -/
def fit (segment : Segment) (size : Int64) : Option (Nat × Nat) :=
  if 0 < size ∧ segment.count < kShmMaxAllocs then
    firstFit segment.size (toU64 size) kShmHeaderSize segment.table
  else
    none

/-- On a valid segment `allocate` inserts the region first fit chose and returns
its offset, or leaves the segment alone. -/
theorem allocate_eq {segment : Segment} (valid : segment.Valid) (size : Int64) :
    segment.allocate size = .ok (match segment.fit size with
      | none => (segment, none)
      | some (index, offset) =>
          (segment.inserted (toU64 size) index offset, some (toI64 offset))) := by
  by_cases nonpositive : size ≤ 0
  · rw [fit, if_neg fun wanted => absurd wanted.1 (Int64.not_lt.mpr nonpositive)]
    simp only [allocate, if_pos nonpositive]
    rfl
  by_cases full : segment.count ≥ kShmMaxAllocs
  · rw [fit, if_neg fun wanted => absurd wanted.2 (not_lt.mpr full)]
    simp only [allocate, if_neg nonpositive, numAllocs_eq valid.header_lt, bind,
      Except.bind, if_pos full]
    rfl
  have positive : 0 < size := Int64.not_le.mp nonpositive
  have want := toU64_pos positive
  have room : segment.count < kShmMaxAllocs := not_le.mp full
  have scan := scanGap_eq (toU64 size) valid.size_lt valid.table_in_header valid.packed
  have takes : (firstGap (toU64 size) 0 kShmHeaderSize segment.table).Takes segment.size
      (toU64 size) 0 kShmHeaderSize segment.table := firstGap_takes want valid.packed
  have entriesEq : segment.entriesFrom 0 segment.count = segment.table := rfl
  simp only [allocate, if_neg nonpositive, numAllocs_eq valid.header_lt, bind,
    Except.bind, if_neg full, scan, entriesEq]
  rw [fit, if_pos ⟨positive, room⟩]
  cases gap : firstGap (toU64 size) 0 kShmHeaderSize segment.table with
  | before index offset =>
      rw [gap] at takes
      rcases takes with ⟨i, rfl, bound, -, -⟩
      rw [table_length] at bound
      simp only [firstFit, gap,
        insertAt_eq _ _ valid.header_lt room (by omega : 0 + i ≤ segment.count)]
      rfl
  | last offset =>
      by_cases fits : offset + toU64 size ≤ segment.size
      · simp only [firstFit, gap, fits, if_true, if_pos (by omega : segment.size > offset ∧
          segment.size - offset ≥ toU64 size), insertAt_eq _ _ valid.header_lt room le_rfl,
          table_length]
        rfl
      · simp only [firstFit, gap, fits, if_false, if_neg (by omega : ¬(segment.size > offset ∧
          segment.size - offset ≥ toU64 size))]
        rfl

/-- What a region with room was given. -/
theorem fit_eq_some {segment : Segment} {size : Int64} {index offset : Nat}
    (found : segment.fit size = some (index, offset)) :
    0 < size ∧ segment.count < kShmMaxAllocs ∧
      firstFit segment.size (toU64 size) kShmHeaderSize segment.table =
        some (index, offset) := by
  rw [fit] at found
  split at found
  next wanted => exact ⟨wanted.1, wanted.2, found⟩
  next => simp at found

/-- On a valid segment `free_alloc` either leaves the segment alone, which has no
entry at the offset, or erases the first one that it has. -/
theorem freeAlloc_spec {segment : Segment} (valid : segment.Valid) (offset : Int64) :
    (segment.freeAlloc offset = .ok segment ∧
        ∀ index, index < segment.count → (segment.entry index).offset ≠ toU64 offset) ∨
      ∃ index, index < segment.count ∧
        (segment.entry index).offset = toU64 offset ∧
        segment.freeAlloc offset = .ok (segment.erased index) := by
  have inHeader := valid.table_in_header
  simp only [freeAlloc, numAllocs_eq valid.header_lt, bind, Except.bind]
  rcases findEntry_eq (toU64 offset) inHeader with ⟨missing, elsewhere⟩ | found
  · left
    simp only [missing]
    exact ⟨rfl, fun index bound => elsewhere index (Nat.zero_le _) (by omega)⟩
  · right
    rcases found with ⟨index, -, upper, stored, result⟩
    rw [zero_add] at inHeader upper
    have span := entryAddress_add index (segment.count - index)
    rw [Nat.add_sub_cancel' upper.le] at span
    have next := entryAddress_succ index
    have width : kShmAllocStructSize = 16 := rfl
    refine ⟨index, upper, stored, ?_⟩
    simp only [result]
    rw [memmove_eq (by rw [width]; omega) (by rw [width]; omega)]
    exact setNumAllocs_eq _ valid.header_lt

/-! ## Preservation -/

theorem Valid.inserted {segment : Segment} (valid : segment.Valid) {size : Int64}
    {index offset : Nat} (positive : 0 < size) (room : segment.count < kShmMaxAllocs)
    (found : firstFit segment.size (toU64 size) kShmHeaderSize segment.table =
      some (index, offset)) :
    (segment.inserted (toU64 size) index offset).Valid := by
  have fit := firstFit_packed (toU64_pos positive) valid.packed found
  rcases fit with ⟨bound, -, packed⟩
  have member : (⟨offset, toU64 size⟩ : Region) ∈
      segment.table.insertIdx index ⟨offset, toU64 size⟩ :=
    (List.mem_insertIdx bound).mpr (.inl rfl)
  have inside := (packed.bounds member).2.2
  have offsetFits : offset < 2 ^ 64 := by
    have sizeLt := valid.size_lt
    simp only [Region.finish] at inside
    omega
  rw [table_length] at bound
  constructor
  · exact valid.header_lt
  · exact valid.size_lt
  · rw [count_inserted _ _ _ room]
    exact room
  · rw [table_inserted room bound (toU64_lt size) offsetFits]
    exact packed

theorem Valid.erased {segment : Segment} (valid : segment.Valid) {index : Nat}
    (bound : index < segment.count) : (segment.erased index).Valid := by
  constructor
  · exact valid.header_lt
  · exact valid.size_lt
  · rw [count_erased index valid.count_le]
    exact (Nat.sub_le _ _).trans valid.count_le
  · rw [table_erased valid.count_le bound]
    exact valid.packed.eraseIdx index

/-- A segment whose counter is zero is valid whatever its table bytes hold. -/
theorem valid_of_count_zero {segment : Segment} (header : kShmHeaderSize < segment.size)
    (fits : segment.size < 2 ^ 64) (empty : segment.count = 0) : segment.Valid := by
  constructor
  · exact header
  · exact fits
  · rw [empty]
    exact Nat.zero_le _
  · rw [table, empty, entriesFrom_zero]
    exact header.le

theorem create_valid {mapping : Memory} {size : Nat} {name : List UInt8} {segment : Segment}
    (fits : size < 2 ^ 64) (created : create mapping size name = some segment) :
    segment.Valid := by
  simp only [create] at created
  split at created
  next => simp at created
  next large =>
    simp only [Option.some.injEq] at created
    subst created
    refine valid_of_count_zero (not_le.mp large) fits ?_
    rw [count, Memory.loadLE_storeLE_of_disjoint _ _ _ _ (.inl (by omega)),
      Memory.loadLE_storeLE]
    rfl

/-- One operation keeps a valid segment valid and never faults. -/
theorem step_valid {segment : Segment} (valid : segment.Valid) (op : Op) :
    ∃ next, segment.step op = .ok next ∧ next.Valid ∧ next.size = segment.size := by
  cases op with
  | allocate size =>
      have result := allocate_eq valid size
      cases room : segment.fit size with
      | none =>
          rw [room] at result
          exact ⟨segment, by simp [step, result, bind, Except.bind, pure, Except.pure],
            valid, rfl⟩
      | some place =>
          rcases place with ⟨index, offset⟩
          rcases fit_eq_some room with ⟨positive, free, found⟩
          rw [room] at result
          refine ⟨segment.inserted (toU64 size) index offset, ?_,
            valid.inserted positive free found, rfl⟩
          simp [step, result, bind, Except.bind, pure, Except.pure]
  | freeAlloc offset =>
      rcases freeAlloc_spec valid offset with ⟨unchanged, -⟩ | ⟨index, bound, -, result⟩
      · exact ⟨segment, unchanged, valid, rfl⟩
      · exact ⟨segment.erased index, result, valid.erased bound, rfl⟩
  | reset =>
      refine ⟨_, setNumAllocs_eq 0 valid.header_lt, ?_, rfl⟩
      refine valid_of_count_zero valid.header_lt valid.size_lt ?_
      rw [count, Memory.loadLE_storeLE]
      rfl

/-- A whole run keeps a valid segment valid and never faults. -/
theorem run_valid {segment : Segment} (valid : segment.Valid) (ops : List Op) :
    ∃ final, segment.run ops = .ok final ∧ final.Valid ∧ final.size = segment.size := by
  induction ops generalizing segment with
  | nil => exact ⟨segment, rfl, valid, rfl⟩
  | cons op ops ih =>
      rcases step_valid valid op with ⟨next, stepped, nextValid, sizeEq⟩
      rcases ih nextValid with ⟨final, ran, finalValid, finalSize⟩
      refine ⟨final, ?_, finalValid, finalSize.trans sizeEq⟩
      simp only [run, stepped, bind, Except.bind]
      exact ran

/-! ## What the invariant says about the entries -/

/-- The allocator invariant spelled out entry by entry. -/
structure TableSound (segment : Segment) : Prop where
  count_le : segment.count ≤ kShmMaxAllocs
  in_header : ∀ index, index < segment.count →
    entryAddress index + kShmAllocStructSize ≤ kShmHeaderSize
  increasing : ∀ index, index + 1 < segment.count →
    (segment.entry index).offset < (segment.entry (index + 1)).offset
  no_overlap : ∀ index, index + 1 < segment.count →
    (segment.entry index).offset + (segment.entry index).length ≤
      (segment.entry (index + 1)).offset
  inside : ∀ index, index < segment.count →
    kShmHeaderSize ≤ (segment.entry index).offset ∧
      (segment.entry index).offset + (segment.entry index).length ≤ segment.size
  no_wrap : ∀ index, index < segment.count →
    (segment.entry index).offset + (segment.entry index).length < 2 ^ 64
  disjoint : ∀ left right, left < right → right < segment.count →
    Disjoint (segment.entry left).addresses (segment.entry right).addresses
  clear_of_header : ∀ index, index < segment.count →
    Disjoint (segment.entry index).addresses (Set.Iio kShmHeaderSize)

theorem Valid.bounds {segment : Segment} (valid : segment.Valid) {index : Nat}
    (bound : index < segment.count) :
    kShmHeaderSize ≤ (segment.entry index).offset ∧ 0 < (segment.entry index).length ∧
      (segment.entry index).finish ≤ segment.size := by
  have inTable : index < segment.table.length := by simpa using bound
  rw [← getElem_table segment inTable]
  exact valid.packed.bounds (List.getElem_mem inTable)

theorem Valid.finish_le {segment : Segment} (valid : segment.Valid) {left right : Nat}
    (before : left < right) (bound : right < segment.count) :
    (segment.entry left).finish ≤ (segment.entry right).offset := by
  have inTable : right < segment.table.length := by simpa using bound
  have ordered := List.pairwise_iff_getElem.mp valid.packed.pairwise left right
    (before.trans inTable) inTable before
  rwa [getElem_table, getElem_table] at ordered

theorem Valid.tableSound {segment : Segment} (valid : segment.Valid) :
    segment.TableSound := by
  constructor
  · exact valid.count_le
  · intro index bound
    have last := entryAddress_le ((Nat.succ_le_of_lt bound).trans valid.count_le)
    rwa [Nat.succ_eq_add_one, entryAddress_succ] at last
  · intro index bound
    have ordered := valid.finish_le (Nat.lt_add_one index) bound
    have positive := (valid.bounds (Nat.lt_of_succ_lt bound)).2.1
    simp only [Region.finish] at ordered
    omega
  · intro index bound
    exact valid.finish_le (Nat.lt_add_one index) bound
  · intro index bound
    exact ⟨(valid.bounds bound).1, (valid.bounds bound).2.2⟩
  · intro index bound
    exact (valid.bounds bound).2.2.trans_lt valid.size_lt
  · intro left right before bound
    exact Region.disjoint_addresses (valid.finish_le before bound)
  · intro index bound
    rw [Set.disjoint_left]
    intro address inEntry inHeader
    exact absurd ((valid.bounds bound).1.trans inEntry.1) (not_le.mpr inHeader)

/-- Whatever operations are applied to a freshly created segment, with whatever
arguments, none of them leaves the mapping and after each of them the table is
sound. -/
theorem run_tableSound {mapping : Memory} {size : Nat} {name : List UInt8}
    {segment : Segment} (fits : size < 2 ^ 64)
    (created : create mapping size name = some segment) (ops : List Op) :
    ∃ final, segment.run ops = .ok final ∧ final.size = size ∧ final.TableSound := by
  rcases run_valid (create_valid fits created) ops with ⟨final, ran, valid, sizeEq⟩
  refine ⟨final, ran, sizeEq.trans ?_, valid.tableSound⟩
  simp only [create] at created
  split at created
  next => simp at created
  next =>
    simp only [Option.some.injEq] at created
    rw [← created]

/-- A run with two allocations, a free of the first region, a second free of the
same offset, a free of an offset never handed out, and a reset. -/
theorem run_tableSound_example :
    ∃ segment, create (fun _ => 0) 131072 [] = some segment ∧
      ∃ final, segment.run [.allocate 64, .allocate 32, .freeAlloc 65536,
        .freeAlloc 65536, .freeAlloc (-1), .allocate 16, .reset] = .ok final ∧
        final.size = 131072 ∧ final.TableSound :=
  ⟨_, rfl, run_tableSound (by decide) rfl _⟩

end Segment

end VgiRpc.Shm
