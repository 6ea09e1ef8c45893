import VgiRpc.Shm.Transparent

/-!
# Live regions

What `allocate_and_write` and `free_alloc` do to the list of live regions.  A region that
is written comes on top of the live ones, at an offset that none of them has; a free takes
away the region at its offset and no other.
-/

namespace VgiRpc.Shm.Segment

open VgiRpc.Cpp VgiRpc.Lib

/-- The offsets of the live regions. -/
def starts (segment : Segment) : List Nat := segment.table.map Region.offset

/-- No two live regions have the same offset. -/
theorem Valid.nodup_starts {segment : Segment} (valid : segment.Valid) : segment.starts.Nodup := by
  rw [starts, List.nodup_iff_pairwise_ne, List.pairwise_map, List.pairwise_iff_getElem]
  intro left right leftBound rightBound before
  rw [getElem_table, getElem_table]
  rw [table_length] at leftBound rightBound
  have ordered := valid.finish_le before rightBound
  have positive := (valid.bounds leftBound).2.1
  simp only [Region.finish] at ordered
  omega

/-- `free_alloc` does not fault, and takes one offset away. -/
theorem freeAlloc_starts {segment : Segment} (valid : segment.Valid) (offset : Int64) :
    ∃ after, segment.freeAlloc offset = .ok after ∧ after.Valid ∧
      after.starts = segment.starts.erase (toU64 offset) := by
  rcases freeAlloc_spec valid offset with ⟨unchanged, elsewhere⟩ | ⟨index, bound, stored, result⟩
  · refine ⟨segment, unchanged, valid, (List.erase_of_not_mem ?_).symm⟩
    intro listed
    rcases List.mem_map.mp listed with ⟨region, member, same⟩
    rcases List.getElem_of_mem member with ⟨index, inTable, rfl⟩
    rw [getElem_table] at same
    exact elsewhere index (by simpa using inTable) same
  · refine ⟨segment.erased index, result, valid.erased bound, ?_⟩
    have inStarts : index < segment.starts.length := by simpa [starts] using bound
    have here : segment.starts[index] = toU64 offset := by
      simp only [starts, List.getElem_map, getElem_table]
      exact stored
    rw [← here, valid.nodup_starts.erase_getElem, starts, starts, table_erased valid.count_le bound,
      List.eraseIdx_map]

/-- A reserved region comes on top of the live ones. -/
theorem Valid.starts_inserted {segment : Segment} (valid : segment.Valid) {size : Int64}
    {index offset : Nat} (found : segment.fit size = some (index, offset)) :
    (segment.inserted (toU64 size) index offset).starts.Perm (offset :: segment.starts) := by
  rcases fit_eq_some found with ⟨positive, room, place⟩
  rcases firstFit_packed (toU64_pos positive) valid.packed place with ⟨bound, -, -⟩
  rcases valid.reserved found with ⟨-, -, inside⟩
  have inTable : index ≤ segment.count := by simpa using bound
  have sizeLt := valid.size_lt
  rw [starts, starts, table_inserted room inTable (toU64_lt size) (by omega)]
  exact (List.perm_insertIdx _ _ bound).map Region.offset

section Write

variable {Batch Schema : Type} {arrow : Arrow Batch Schema} {segment after : Segment}
  {batch : Batch} {offset length : Int64}

/-- Both ways of writing a batch reserve a region, and then write behind the header. -/
theorem allocateAndWrite_reserves (valid : segment.Valid)
    (result : segment.allocateAndWrite arrow batch = .ok (after, some (offset, length))) :
    ∃ size index place content, segment.fit size = some (index, place) ∧ offset = toI64 place ∧
      after = (segment.inserted (toU64 size) index place).written place content := by
  unfold allocateAndWrite at result
  split at result
  next =>
      simp only [allocate_eq valid] at result
      cases found : segment.fit (toI64 (arrow.serializeDictionaryBatch batch).length) with
      | none => simp [found, bind, Except.bind, pure, Except.pure] at result
      | some place =>
          rcases place with ⟨index, place⟩
          rcases valid.reserved found with ⟨-, -, inside⟩
          have sizeLt := valid.size_lt
          simp only [found, bind, Except.bind, toU64_toI64 (by omega : place < 2 ^ 64)] at result
          split at result
          next => cases result
          next copied =>
              unfold copyIn at copied
              split at copied
              next =>
                  cases copied
                  cases result
                  exact ⟨_, index, place, _, found, rfl, rfl⟩
              next => cases copied
  next =>
      split at result
      next => simp [pure, Except.pure] at result
      next estimate _ =>
          rw [allocate_eq valid] at result
          cases found : segment.fit estimate with
          | none => simp [found, bind, Except.bind, pure, Except.pure] at result
          | some place =>
              rcases place with ⟨index, place⟩
              rcases valid.reserved found with ⟨reservedValid, -, inside⟩
              have sizeLt := valid.size_lt
              have sink := @sinkWrites_eq (segment.inserted (toU64 estimate) index place) place
                (toU64 estimate) 0 (arrow.writes batch) inside (Nat.zero_le _)
              simp only [found, bind, Except.bind, toU64_toI64 (by omega : place < 2 ^ 64)] at result
              split at sink
              next =>
                  rw [sink] at result
                  cases result
                  exact ⟨_, index, place, _, found, rfl, rfl⟩
              next =>
                  rcases sink with ⟨accepted, refused⟩
                  rw [refused] at result
                  simp only at result
                  split at result
                  next => cases result
                  next => simp [pure, Except.pure] at result

/-- A batch that was written lies in a new live region. -/
theorem allocateAndWrite_starts (valid : segment.Valid)
    (result : segment.allocateAndWrite arrow batch = .ok (after, some (offset, length))) :
    after.Valid ∧ after.starts.Perm (toU64 offset :: segment.starts) := by
  rcases allocateAndWrite_reserves valid result with ⟨size, index, place, content, found, rfl, rfl⟩
  rcases valid.reserved found with ⟨reservedValid, behind, inside⟩
  have sizeLt := valid.size_lt
  refine ⟨reservedValid.written behind content, ?_⟩
  rw [starts, reservedValid.table_written behind, toU64_toI64 (by omega)]
  exact valid.starts_inserted found

end Write

end VgiRpc.Shm.Segment
