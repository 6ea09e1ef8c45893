import VgiRpc.Shm.Allocator
import VgiRpc.Shm.Pointer

/-!
# When the shared-memory route is transparent

A batch that was written into the segment is read back as it was, because the
writer stays inside the region that the allocator reserved.  What can still go
wrong is the metadata: the pointer batch has no rows, so the receiver decides
from the sender's own keys what it is.
-/

namespace VgiRpc.Shm

open VgiRpc.Cpp VgiRpc.Wire Lib

/-! ## Integers in the metadata -/

namespace Segment

theorem toU64_toI64 {value : Nat} (fits : value < 2 ^ 64) : toU64 (toI64 value) = value := by
  have round : toU64 (toI64 value) = value % 2 ^ 64 := by simp [toU64, toI64]
  rw [round, Nat.mod_eq_of_lt fits]

theorem toInt_toI64 {value : Nat} (fits : value < 2 ^ 63) : (toI64 value).toInt = value := by
  have cast : toI64 value = Int64.ofNat value := rfl
  rw [cast, Int64.toInt_ofNat_of_lt fits]

theorem toI64_nonneg {value : Nat} (fits : value < 2 ^ 63) : 0 ≤ toI64 value := by
  rw [Int64.le_iff_toInt_le, toInt_toI64 fits]
  simp

end Segment

/-- A 64-bit value survives its decimal text. -/
theorem readInt64_toString (value : Int64) : readInt64 (Cpp.toString value.toInt) = some value := by
  rw [readInt64, stoll_toString value.le_toInt value.toInt_lt, Option.map_some, Int64.ofInt_toInt]

/-! ## Writing into the data region -/

namespace Segment

/-- A segment after bytes were written to an address. -/
def written (segment : Segment) (address : Nat) (bytes : Bytes) : Segment :=
  { segment with bytes := segment.bytes.writeBytes address bytes }

theorem copyIn_eq {segment : Segment} {address : Nat} {bytes : Bytes}
    (bound : address + bytes.length ≤ segment.size) :
    segment.copyIn address bytes = .ok (segment.written address bytes) := if_pos bound

theorem written_nil (segment : Segment) (address : Nat) : segment.written address [] = segment := by
  rw [written, Memory.writeBytes_nil]

theorem written_written (segment : Segment) (address : Nat) (first second : Bytes) :
    (segment.written address first).written (address + first.length) second =
      segment.written address (first ++ second) := by
  simp only [written, Memory.writeBytes_append]

section Written

variable {segment : Segment} {address : Nat} (behind : kShmHeaderSize ≤ address) (bytes : Bytes)

include behind

theorem loadLE_written {query size : Nat} (below : query + size ≤ kShmHeaderSize) :
    (segment.written address bytes).bytes.loadLE query size = segment.bytes.loadLE query size := by
  apply Memory.loadLE_congr
  exact Memory.agree_writeBytes_of_disjoint _ _ _ (.inl (by omega))

theorem count_written : (segment.written address bytes).count = segment.count :=
  loadLE_written behind bytes (by decide)

/-- Writing behind the header leaves the allocator's table alone. -/
theorem Valid.table_written (valid : segment.Valid) :
    (segment.written address bytes).table = segment.table := by
  apply table_eq
  · rw [count_written behind, table_length]
  · intro index bound
    rw [table_length] at bound
    have inHeader := entryAddress_le (valid.count_le.trans' bound)
    rw [Nat.succ_eq_add_one, entryAddress_succ] at inHeader
    rw [getElem_table, entry, entry, loadLE_written behind bytes (by omega),
      loadLE_written behind bytes (by omega)]

theorem Valid.written (valid : segment.Valid) : (segment.written address bytes).Valid := by
  constructor
  · exact valid.header_lt
  · exact valid.size_lt
  · rw [count_written behind]
    exact valid.count_le
  · rw [valid.table_written behind]
    exact valid.packed

end Written

/-- Reading back what was written. -/
theorem read_written {segment : Segment} {offset : Nat} {bytes : Bytes}
    (behind : kShmHeaderSize ≤ offset) (inside : offset + bytes.length ≤ segment.size)
    (small : segment.size < 2 ^ 63) :
    (segment.written offset bytes).read (toI64 offset) (toI64 bytes.length) = .ok bytes := by
  have offsetFits : offset < 2 ^ 63 := by omega
  have lengthFits : bytes.length < 2 ^ 63 := by omega
  have header : ¬toI64 offset < toI64 kShmHeaderSize := by
    rw [Int64.not_lt, Int64.le_iff_toInt_le, toInt_toI64 offsetFits, toInt_toI64 (by decide)]
    exact_mod_cast behind
  have nonneg : ¬toI64 bytes.length < 0 := Int64.not_lt.mpr (toI64_nonneg lengthFits)
  rw [read, toU64_toI64 (by omega), toU64_toI64 (by omega), Nat.mod_eq_of_lt (by omega), if_neg]
  · rw [Segment.written, Memory.readBytes_writeBytes]
  · simp only [not_or]
    exact ⟨header, nonneg, not_lt.mpr inside⟩

/-- The sink accepts a stream that fits its reservation, and writes it in one
piece; otherwise it stops inside the reservation. -/
theorem sinkWrites_eq {segment : Segment} {base capacity position : Nat} (pieces : List Bytes)
    (inside : base + capacity ≤ segment.size) (start : position ≤ capacity) :
    if position + pieces.flatten.length ≤ capacity then
      sinkWrites base capacity segment position pieces =
        .ok (segment.written (base + position) pieces.flatten,
          some (position + pieces.flatten.length))
    else
      ∃ accepted, sinkWrites base capacity segment position pieces =
        .ok (segment.written (base + position) accepted, none) := by
  induction pieces generalizing segment position with
  | nil => simp [sinkWrites, written_nil, start]
  | cons piece pieces ih =>
      rw [List.flatten_cons, List.length_append]
      by_cases refused : position + piece.length > capacity
      · rw [if_neg (by omega)]
        refine ⟨[], ?_⟩
        rw [sinkWrites, if_pos refused, written_nil]
      · have room : (base + position) + piece.length ≤ segment.size := by omega
        have rest := @ih (segment.written (base + position) piece) (position + piece.length)
          inside (by omega)
        rw [sinkWrites, if_neg refused, copyIn_eq room]
        simp only [bind, Except.bind, ← Nat.add_assoc]
        rw [← Nat.add_assoc] at rest
        split at rest
        next fits =>
          rw [if_pos (by omega), rest, written_written]
        next beyond =>
          rcases rest with ⟨accepted, result⟩
          rw [if_neg (by omega)]
          exact ⟨piece ++ accepted, by rw [result, written_written]⟩

/-- A region with room lies behind the header and inside the mapping, and its
reservation keeps the segment valid. -/
theorem Valid.reserved {segment : Segment} (valid : segment.Valid) {size : Int64}
    {index offset : Nat} (found : segment.fit size = some (index, offset)) :
    (segment.inserted (toU64 size) index offset).Valid ∧ kShmHeaderSize ≤ offset ∧
      offset + toU64 size ≤ segment.size := by
  rcases fit_eq_some found with ⟨positive, free, place⟩
  rcases firstFit_packed (toU64_pos positive) valid.packed place with ⟨bound, -, packed⟩
  have member : (⟨offset, toU64 size⟩ : Region) ∈
      segment.table.insertIdx index ⟨offset, toU64 size⟩ :=
    (List.mem_insertIdx bound).mpr (.inl rfl)
  rcases packed.bounds member with ⟨behind, -, inside⟩
  exact ⟨valid.inserted positive free place, behind, inside⟩

theorem freeAlloc_valid {segment : Segment} (valid : segment.Valid) (offset : Int64) :
    ∃ after, segment.freeAlloc offset = .ok after ∧ after.Valid := by
  rcases freeAlloc_spec valid offset with ⟨unchanged, -⟩ | ⟨index, bound, -, result⟩
  · exact ⟨segment, unchanged, valid⟩
  · exact ⟨segment.erased index, result, valid.erased bound⟩

end Segment

section Route

variable {Batch Schema : Type} {arrow : Arrow Batch Schema}

/-- The segment has room for the batch, and the reservation holds its stream. -/
def Placed (arrow : Arrow Batch Schema) (segment : Segment) (batch : Batch) : Prop :=
  if arrow.hasDictionaryColumns (arrow.schema batch) then
    (segment.fit (Segment.toI64 (arrow.serializeDictionaryBatch batch).length)).isSome = true
  else
    ∃ estimate, arrow.estimateStreamSize batch = some estimate ∧
      (segment.fit estimate).isSome = true ∧
      (arrow.stream batch).length ≤ Segment.toU64 estimate

/-- A place in the segment that holds a batch. -/
structure Holds (arrow : Arrow Batch Schema) (segment : Segment) (offset length : Int64)
    (batch : Batch) : Prop where
  valid : segment.Valid
  resolves : ∃ stored, segment.read offset length = .ok stored ∧
    arrow.deserializeFromShm stored (arrow.schema batch) = .ok batch

theorem Arrow.Lawful.deserialize_stream (lawful : arrow.Lawful) {batch : Batch}
    (plain : arrow.hasDictionaryColumns (arrow.schema batch) = false) :
    arrow.deserializeFromShm (arrow.stream batch) (arrow.schema batch) = .ok batch := by
  simp only [Arrow.deserializeFromShm, plain, Bool.false_eq_true, if_false,
    lawful.readStream_stream, bind, Except.bind]
  rfl

theorem Arrow.Lawful.deserialize_dictionary (lawful : arrow.Lawful) {batch : Batch}
    (dictionary : arrow.hasDictionaryColumns (arrow.schema batch) = true) :
    arrow.deserializeFromShm (arrow.serializeDictionaryBatch batch) (arrow.schema batch) =
      .ok batch := by
  have whole : arrow.schemaMessage (arrow.schema batch) ++ arrow.serializeDictionaryBatch batch ++
      kIpcEos = arrow.stream batch := rfl
  simp only [Arrow.deserializeFromShm, dictionary, if_true, whole, lawful.readStream_stream, bind,
    Except.bind]
  rfl

/-- Writing a dictionary batch. -/
theorem allocateAndWrite_dictionary (lawful : arrow.Lawful) {segment : Segment}
    (valid : segment.Valid) (small : segment.size < 2 ^ 63) {batch : Batch}
    (sized : (arrow.stream batch).length < 2 ^ 64)
    (dictionary : arrow.hasDictionaryColumns (arrow.schema batch) = true) :
    (¬Placed arrow segment batch ∧
        segment.allocateAndWrite arrow batch = .ok (segment, none)) ∨
      (Placed arrow segment batch ∧ ∃ after offset length,
        segment.allocateAndWrite arrow batch = .ok (after, some (offset, length)) ∧
        after.name = segment.name ∧ Holds arrow after offset length batch) := by
  have allocated := Segment.allocate_eq valid
    (Segment.toI64 (arrow.serializeDictionaryBatch batch).length)
  have lengthFits : (arrow.serializeDictionaryBatch batch).length < 2 ^ 64 := by
    simp only [Arrow.stream, List.length_append] at sized
    simp only [Arrow.serializeDictionaryBatch]
    omega
  cases room : segment.fit (Segment.toI64 (arrow.serializeDictionaryBatch batch).length) with
  | none =>
      left
      rw [room] at allocated
      refine ⟨by simp [Placed, dictionary, room], ?_⟩
      simp only [Segment.allocateAndWrite, dictionary, if_true, allocated, bind, Except.bind]
      rfl
  | some place =>
      right
      rcases place with ⟨index, offset⟩
      rcases valid.reserved room with ⟨reservedValid, behind, inside⟩
      rw [Segment.toU64_toI64 lengthFits] at reservedValid inside
      rw [room, Segment.toU64_toI64 lengthFits] at allocated
      have offsetBack : Segment.toU64 (Segment.toI64 offset) = offset :=
        Segment.toU64_toI64 (by omega)
      have copied : (segment.inserted (arrow.serializeDictionaryBatch batch).length index
          offset).copyIn offset (arrow.serializeDictionaryBatch batch) = .ok _ :=
        Segment.copyIn_eq inside
      refine ⟨by simp [Placed, dictionary, room], _, Segment.toI64 offset,
        Segment.toI64 (arrow.serializeDictionaryBatch batch).length, ?_, ?_,
        ⟨reservedValid.written behind (arrow.serializeDictionaryBatch batch),
          arrow.serializeDictionaryBatch batch, ?_, lawful.deserialize_dictionary dictionary⟩⟩
      · simp only [Segment.allocateAndWrite, dictionary, if_true, allocated, bind, Except.bind,
          offsetBack, copied]
        rfl
      · rfl
      · exact Segment.read_written behind inside small

/-- Writing a batch without dictionaries. -/
theorem allocateAndWrite_plain (lawful : arrow.Lawful) {segment : Segment}
    (valid : segment.Valid) (small : segment.size < 2 ^ 63) {batch : Batch}
    (plain : arrow.hasDictionaryColumns (arrow.schema batch) = false) :
    (¬Placed arrow segment batch ∧ ∃ after, after.Valid ∧
        segment.allocateAndWrite arrow batch = .ok (after, none)) ∨
      (Placed arrow segment batch ∧ ∃ after offset length,
        segment.allocateAndWrite arrow batch = .ok (after, some (offset, length)) ∧
        after.name = segment.name ∧ Holds arrow after offset length batch) := by
  cases estimated : arrow.estimateStreamSize batch with
  | none =>
      left
      refine ⟨by simp [Placed, plain, estimated], segment, valid, ?_⟩
      simp only [Segment.allocateAndWrite, plain, Bool.false_eq_true, if_false, estimated]
      rfl
  | some estimate =>
      have allocated := Segment.allocate_eq valid estimate
      cases room : segment.fit estimate with
      | none =>
          left
          rw [room] at allocated
          refine ⟨by simp [Placed, plain, estimated, room], segment, valid, ?_⟩
          simp only [Segment.allocateAndWrite, plain, Bool.false_eq_true, if_false, estimated,
            allocated, bind, Except.bind]
          rfl
      | some place =>
          rcases place with ⟨index, offset⟩
          rcases valid.reserved room with ⟨reservedValid, behind, inside⟩
          rw [room] at allocated
          have offsetBack : Segment.toU64 (Segment.toI64 offset) = offset :=
            Segment.toU64_toI64 (by omega)
          have sink := @Segment.sinkWrites_eq
            (segment.inserted (Segment.toU64 estimate) index offset) offset
            (Segment.toU64 estimate) 0 (arrow.writes batch) inside (Nat.zero_le _)
          rw [lawful.writes_flatten, Nat.zero_add, Nat.add_zero] at sink
          split at sink
          next fits =>
            right
            refine ⟨by simp [Placed, plain, estimated, room, fits], _, Segment.toI64 offset,
              Segment.toI64 (arrow.stream batch).length, ?_, ?_,
              ⟨reservedValid.written behind (arrow.stream batch), arrow.stream batch, ?_,
                lawful.deserialize_stream plain⟩⟩
            · simp only [Segment.allocateAndWrite, plain, Bool.false_eq_true, if_false, estimated,
                allocated, bind, Except.bind, offsetBack, sink]
              rfl
            · rfl
            · exact Segment.read_written behind (by simp only [Segment.inserted]; omega) small
          next beyond =>
            left
            rcases sink with ⟨accepted, result⟩
            have partlyValid := reservedValid.written behind accepted
            rcases Segment.freeAlloc_valid partlyValid (Segment.toI64 offset) with
              ⟨after, freed, afterValid⟩
            refine ⟨by simp [Placed, plain, estimated, room, beyond], after, afterValid, ?_⟩
            simp only [Segment.allocateAndWrite, plain, Bool.false_eq_true, if_false, estimated,
              allocated, bind, Except.bind, offsetBack, result, freed]
            rfl

/-- Writing a batch either puts it in the segment, if it has a place there, or
leaves a valid segment. -/
theorem allocateAndWrite_spec (lawful : arrow.Lawful) {segment : Segment}
    (valid : segment.Valid) (small : segment.size < 2 ^ 63) {batch : Batch}
    (sized : (arrow.stream batch).length < 2 ^ 64) :
    (¬Placed arrow segment batch ∧ ∃ after, after.Valid ∧
        segment.allocateAndWrite arrow batch = .ok (after, none)) ∨
      (Placed arrow segment batch ∧ ∃ after offset length,
        segment.allocateAndWrite arrow batch = .ok (after, some (offset, length)) ∧
        after.name = segment.name ∧ Holds arrow after offset length batch) := by
  cases kind : arrow.hasDictionaryColumns (arrow.schema batch) with
  | false => exact allocateAndWrite_plain lawful valid small kind
  | true =>
      rcases allocateAndWrite_dictionary lawful valid small sized kind with full | placed
      · exact .inl ⟨full.1, segment, valid, full.2⟩
      · exact .inr placed

/-! ## The two receivers -/

/-- The pointer that the sender appends to the metadata. -/
def pointerEntries (offset length : Int64) : Metadata :=
  [(Keys.shmOffset, Cpp.toString offset.toInt), (Keys.shmLength, Cpp.toString length.toInt)]

/-- A batch takes the shared-memory route. -/
def Routed (arrow : Arrow Batch Schema) (shmMinBatchBytes : Int) (segment : Segment)
    (batch : Batch) : Prop :=
  arrow.numRows batch ≠ 0 ∧ shmMinBatchBytes ≤ arrow.bufferBytes batch ∧
    Placed arrow segment batch

/-- The sender's end of the route. -/
theorem maybeWriteToShm_spec (lawful : arrow.Lawful) {segment : Segment} (valid : segment.Valid)
    (small : segment.size < 2 ^ 63) (shmMinBatchBytes : Int) {input : AnnotatedBatch Batch}
    (sized : (arrow.stream input.batch).length < 2 ^ 64) :
    (¬Routed arrow shmMinBatchBytes segment input.batch ∧ ∃ after,
        (arrow.numRows input.batch = 0 → after = segment) ∧ after.Valid ∧
        maybeWriteToShm arrow shmMinBatchBytes segment input = .ok (after, input)) ∨
      (Routed arrow shmMinBatchBytes segment input.batch ∧ ∃ after offset length,
        after.name = segment.name ∧ Holds arrow after offset length input.batch ∧
        maybeWriteToShm arrow shmMinBatchBytes segment input =
          .ok (after, ⟨arrow.makeEmptyBatch (arrow.schema input.batch),
            some (input.entries ++ pointerEntries offset length)⟩)) := by
  by_cases empty : arrow.numRows input.batch = 0
  · left
    refine ⟨fun routed => routed.1 empty, segment, fun _ => rfl, valid, ?_⟩
    simp only [maybeWriteToShm, empty, if_true]
    rfl
  · by_cases tiny : arrow.bufferBytes input.batch < shmMinBatchBytes
    · left
      refine ⟨fun routed => absurd routed.2.1 (not_le.mpr tiny), segment, fun _ => rfl, valid, ?_⟩
      simp only [maybeWriteToShm, empty, if_false, tiny, if_true]
      rfl
    · rcases allocateAndWrite_spec lawful valid small sized with
        ⟨full, after, afterValid, result⟩ | ⟨placed, after, offset, length, result, name, holds⟩
      · left
        refine ⟨fun routed => full routed.2.2, after, fun zero => absurd zero empty, afterValid, ?_⟩
        simp only [maybeWriteToShm, empty, if_false, tiny, result, bind, Except.bind]
        rfl
      · right
        refine ⟨⟨empty, not_lt.mp tiny, placed⟩, after, offset, length, name, holds, ?_⟩
        simp only [maybeWriteToShm, empty, if_false, tiny, result, bind, Except.bind]
        rfl

/-- The pointer batch that stands for a batch on the wire. -/
def pointerBatch (arrow : Arrow Batch Schema) (batch : Batch) (entries : Metadata)
    (offset length : Int64) : AnnotatedBatch Batch :=
  ⟨arrow.makeEmptyBatch (arrow.schema batch), some (entries ++ pointerEntries offset length)⟩

theorem has_dropPointer (metadata : Metadata) (key : Bytes) :
    (dropPointer metadata).has key =
      (decide (key ≠ Keys.shmOffset ∧ key ≠ Keys.shmLength) && metadata.has key) := by
  rw [Bool.eq_iff_iff]
  simp only [Metadata.has, dropPointer, List.any_eq_true, List.mem_filter, decide_eq_true_eq,
    Bool.and_eq_true]
  constructor
  · rintro ⟨entry, ⟨member, other⟩, rfl⟩
    exact ⟨other, entry, member, rfl⟩
  · rintro ⟨other, entry, member, rfl⟩
    exact ⟨entry, ⟨member, other⟩, rfl⟩

theorem dropPointer_append_pointerEntries {entries : Metadata}
    (noOffset : entries.has Keys.shmOffset = false) (noLength : entries.has Keys.shmLength = false)
    (offset length : Int64) :
    dropPointer (entries ++ pointerEntries offset length) = entries := by
  rw [Metadata.has, List.any_eq_false] at noOffset noLength
  have kept : dropPointer entries = entries := by
    apply List.filter_eq_self.mpr
    intro entry member
    have otherOffset := noOffset entry member
    have otherLength := noLength entry member
    simp only [decide_eq_true_eq] at otherOffset otherLength ⊢
    exact ⟨otherOffset, otherLength⟩
  have dropped : dropPointer (pointerEntries offset length) = [] := by
    simp [dropPointer, pointerEntries]
  rw [dropPointer, List.filter_append]
  exact (congrArg₂ (· ++ ·) kept dropped).trans (List.append_nil entries)

theorem isShmPointerBatch_pointerBatch (lawful : arrow.Lawful) (batch : Batch)
    (entries : Metadata) (offset length : Int64) :
    isShmPointerBatch arrow (pointerBatch arrow batch entries offset length) =
      !entries.has Keys.logLevel := by
  have levelOfPointer : (pointerEntries offset length).has Keys.logLevel = false := by
    simp [pointerEntries, show Keys.shmOffset ≠ Keys.logLevel by decide,
      show Keys.shmLength ≠ Keys.logLevel by decide]
  have offsetOfPointer : (pointerEntries offset length).has Keys.shmOffset = true := by
    simp [pointerEntries]
  simp [isShmPointerBatch, pointerBatch, lawful.numRows_makeEmptyBatch, levelOfPointer,
    offsetOfPointer]

/-- A pointer among other keys is resolved to the batch that was written. -/
theorem resolveShmBatch_pointerBatch (lawful : arrow.Lawful) {segment : Segment} {batch : Batch}
    {entries : Metadata} {offset length : Int64} (holds : Holds arrow segment offset length batch)
    (noLevel : entries.has Keys.logLevel = false)
    (noOffset : entries.has Keys.shmOffset = false)
    (noLength : entries.has Keys.shmLength = false) :
    resolveShmBatch arrow segment (pointerBatch arrow batch entries offset length) =
      .ok (⟨batch, some (entries ++ [(Keys.shmSource, segment.name)])⟩, some offset) := by
  rcases holds.resolves with ⟨stored, readBack, parsed⟩
  have pointer := isShmPointerBatch_pointerBatch lawful batch entries offset length
  have offsetText : (entries ++ pointerEntries offset length).value Keys.shmOffset =
      Cpp.toString offset.toInt := by
    rw [Metadata.value_append_of_not_has noOffset]
    simp [pointerEntries, Metadata.value]
  have lengthText : (entries ++ pointerEntries offset length).value Keys.shmLength =
      Cpp.toString length.toInt := by
    rw [Metadata.value_append_of_not_has noLength]
    simp [pointerEntries, Metadata.value, show Keys.shmOffset ≠ Keys.shmLength by decide]
  have kept := dropPointer_append_pointerEntries noOffset noLength offset length
  rw [noLevel, Bool.not_false] at pointer
  rw [resolveShmBatch]
  simp only [pointerBatch] at pointer ⊢
  simp only [pointer, if_true, offsetText, lengthText, readInt64_toString, readBack, bind,
    Except.bind, lawful.schema_makeEmptyBatch, parsed, kept]
  rfl

/-- A resolved pointer was read, and its offset is the region to release. -/
theorem resolveShmBatch_pointer {segment : Segment} {input resolved : AnnotatedBatch Batch}
    {freeOffset : Option Int64} (pointer : isShmPointerBatch arrow input = true)
    (result : resolveShmBatch arrow segment input = .ok (resolved, freeOffset)) :
    ∃ offset length stored, readInt64 (input.entries.value Keys.shmOffset) = some offset ∧
      segment.read offset length = .ok stored ∧ freeOffset = some offset ∧
      resolved.entries = dropPointer input.entries ++ [(Keys.shmSource, segment.name)] := by
  cases input with
  | mk batch customMetadata =>
      cases customMetadata with
      | none => simp [isShmPointerBatch] at pointer
      | some metadata =>
          simp only [resolveShmBatch, pointer, if_true] at result
          split at result
          next offset length offsetText _ =>
            cases readBack : segment.read offset length with
            | error _ => simp [readBack, bind, Except.bind] at result
            | ok stored =>
                cases parsed : arrow.deserializeFromShm stored (arrow.schema batch) with
                | error _ => simp [readBack, parsed, bind, Except.bind] at result
                | ok value =>
                    simp only [readBack, parsed, bind, Except.bind, pure, Except.pure,
                      Except.ok.injEq, Prod.mk.injEq] at result
                    rw [← result.1]
                    exact ⟨offset, length, stored, offsetText, readBack, result.2.symm, rfl⟩
          next => simp at result

/-- Whatever a pointer resolves to, its metadata has no pointer left. -/
theorem resolveShmBatch_dropped {segment : Segment} {input resolved : AnnotatedBatch Batch}
    {freeOffset : Option Int64} (pointer : isShmPointerBatch arrow input = true)
    (result : resolveShmBatch arrow segment input = .ok (resolved, freeOffset)) :
    resolved.entries.has Keys.shmOffset = false ∧ resolved.entries.has Keys.shmLength = false := by
  rcases resolveShmBatch_pointer pointer result with ⟨_, _, _, -, -, -, entries⟩
  rw [entries]
  constructor
  · simp [has_dropPointer, show Keys.shmSource ≠ Keys.shmOffset by decide]
  · simp [has_dropPointer, show Keys.shmSource ≠ Keys.shmLength by decide]

theorem releaseRegion_ok {segment : Segment} (valid : segment.Valid) (freeOffset : Option Int64) :
    ∃ after, releaseRegion segment freeOffset = .ok after := by
  cases freeOffset with
  | none => exact ⟨segment, rfl⟩
  | some offset =>
      rw [releaseRegion]
      split
      next =>
        rcases Segment.freeAlloc_valid valid offset with ⟨after, freed, -⟩
        exact ⟨after, freed⟩
      next => exact ⟨segment, rfl⟩

/-! ## Transparency -/

/-- What a receiver made of a batch, if nothing faulted. -/
def outcome (result : Except Fault (Segment × Delivery Batch)) : Option (Delivery Batch) :=
  result.toOption.map Prod.snd

/-- Delivery through the segment has the outcome of delivery inline, but for one
appended entry that names the segment. -/
def Transparent (arrow : Arrow Batch Schema) (direction : Direction) (shmMinBatchBytes : Int)
    (segment : Segment) (input : AnnotatedBatch Batch) : Prop :=
  ∃ inline, outcome (deliverInline arrow direction segment input) = some inline ∧
    (outcome (deliver arrow direction shmMinBatchBytes segment input) = some inline ∨
      ∃ batch metadata, inline = .data batch metadata ∧
        outcome (deliver arrow direction shmMinBatchBytes segment input) =
          some (.data batch (metadata ++ [(Keys.shmSource, segment.name)])))

/-- The keys that must not occur in the metadata of a batch that takes the
route. -/
def reservedKeys : Direction → List Bytes
  | .toClient => [Keys.logLevel, Keys.location, Keys.shmOffset, Keys.shmLength]
  | .toServer => [Keys.logLevel]

/-- A batch with rows is data for either receiver. -/
theorem receive_rows {segment : Segment} {input : AnnotatedBatch Batch} (direction : Direction)
    (rows : arrow.numRows input.batch ≠ 0)
    (live : direction = .toServer → input.entries.has Keys.cancel = false) :
    receive arrow direction segment input = .ok (segment, input.delivered) := by
  cases direction with
  | toClient =>
      have data : classifyBatch (arrow.numRows input.batch) input.customMetadata = .data := by
        cases input.customMetadata with
        | none => rfl
        | some _ => rw [classifyBatch, if_pos (Nat.pos_of_ne_zero rows)]
      simp only [receive, clientReceive, data]
  | toServer =>
      have inline : isShmPointerBatch arrow input = false := by
        rw [isShmPointerBatch]
        cases input.customMetadata with
        | none => rfl
        | some _ => simp [rows]
      simp only [receive, serverReceive, live rfl, inline, Bool.false_eq_true, if_false]

theorem makeEmptyBatch_ne (lawful : arrow.Lawful) {batch : Batch}
    (rows : arrow.numRows batch ≠ 0) (schema : Schema) : arrow.makeEmptyBatch schema ≠ batch := by
  rintro rfl
  exact rows (lawful.numRows_makeEmptyBatch schema)

/-- What makes a delivery of a routed batch faithful: the batch arrives with its
metadata, or with the name of the segment appended. -/
def Arrives (segment : Segment) (batch : Batch) (entries : Metadata)
    (delivery : Option (Delivery Batch)) : Prop :=
  delivery = some (.data batch entries) ∨
    delivery = some (.data batch (entries ++ [(Keys.shmSource, segment.name)]))

theorem Arrives.of_resolved {segment after : Segment} {batch : Batch} {entries : Metadata} :
    Arrives segment batch entries (outcome (.ok (after,
      (⟨batch, some (entries ++ [(Keys.shmSource, segment.name)])⟩ :
        AnnotatedBatch Batch).delivered))) := .inr rfl

/-- A zero-row batch in place of the batch is not an arrival. -/
theorem not_arrives_empty (lawful : arrow.Lawful) {segment after : Segment} {batch : Batch}
    (rows : arrow.numRows batch ≠ 0) (entries : Metadata) (offset length : Int64) :
    ¬Arrives segment batch entries (outcome (.ok (after,
      (pointerBatch arrow batch entries offset length).delivered))) := by
  have different := makeEmptyBatch_ne lawful rows (arrow.schema batch)
  rintro (same | same)
  · simp only [outcome, Except.toOption, Option.map_some, Option.some.injEq,
      AnnotatedBatch.delivered, pointerBatch, Delivery.data.injEq] at same
    exact different same.1
  · simp only [outcome, Except.toOption, Option.map_some, Option.some.injEq,
      AnnotatedBatch.delivered, pointerBatch, Delivery.data.injEq] at same
    exact different same.1

/-- A resolved batch is not an arrival if the sender's metadata named a pointer of
its own. -/
theorem not_arrives_dropped {segment after : Segment} {batch : Batch} {entries : Metadata}
    {resolved : AnnotatedBatch Batch}
    (dropped : resolved.entries.has Keys.shmOffset = false ∧
      resolved.entries.has Keys.shmLength = false)
    (named : entries.has Keys.shmOffset = true ∨ entries.has Keys.shmLength = true) :
    ¬Arrives segment batch entries (outcome (.ok (after, resolved.delivered))) := by
  rintro (same | same)
  · simp only [outcome, Except.toOption, Option.map_some, Option.some.injEq,
      AnnotatedBatch.delivered, Delivery.data.injEq] at same
    rw [same.2] at dropped
    rcases named with offset | length
    · simp [offset] at dropped
    · simp [length] at dropped
  · simp only [outcome, Except.toOption, Option.map_some, Option.some.injEq,
      AnnotatedBatch.delivered, Delivery.data.injEq] at same
    rw [same.2] at dropped
    rcases named with offset | length
    · simp [offset] at dropped
    · simp [length] at dropped

/-- The pointer's own keys do not hide what the sender's keys say. -/
theorem has_append_pointerEntries {key : Bytes} (notOffset : Keys.shmOffset ≠ key)
    (notLength : Keys.shmLength ≠ key) (entries : Metadata) (offset length : Int64) :
    (entries ++ pointerEntries offset length).has key = entries.has key := by
  simp [pointerEntries, notOffset, notLength]

theorem classifyBatch_pointerBatch (lawful : arrow.Lawful) (batch : Batch) (entries : Metadata)
    (offset length : Int64) :
    classifyBatch (arrow.numRows (pointerBatch arrow batch entries offset length).batch)
        (pointerBatch arrow batch entries offset length).customMetadata =
      if entries.has Keys.logLevel && entries.has Keys.logMessage then
        if (entries ++ pointerEntries offset length).value Keys.logLevel = ascii "EXCEPTION" then
          .exception
        else
          .log
      else if entries.has Keys.location then
        .externalPointer
      else
        .shmPointer := by
  have level := has_append_pointerEntries (show Keys.shmOffset ≠ Keys.logLevel by decide)
    (by decide) entries offset length
  have message := has_append_pointerEntries (show Keys.shmOffset ≠ Keys.logMessage by decide)
    (by decide) entries offset length
  have location := has_append_pointerEntries (show Keys.shmOffset ≠ Keys.location by decide)
    (by decide) entries offset length
  have own : (entries ++ pointerEntries offset length).has Keys.shmOffset = true := by
    simp [pointerEntries]
  simp only [pointerBatch, classifyBatch, lawful.numRows_makeEmptyBatch, gt_iff_lt,
    lt_self_iff_false, if_false, level, message, location, own, if_true]

/-- The client's end of the route. -/
theorem clientReceive_arrives_iff (lawful : arrow.Lawful) {segment : Segment} {batch : Batch}
    {entries : Metadata} {offset length : Int64} (rows : arrow.numRows batch ≠ 0)
    (holds : Holds arrow segment offset length batch) :
    Arrives segment batch entries (outcome (clientReceive arrow segment
      (pointerBatch arrow batch entries offset length))) ↔
      ∀ key ∈ reservedKeys .toClient, entries.has key = false := by
  have pointer := isShmPointerBatch_pointerBatch lawful batch entries offset length
  have classified := classifyBatch_pointerBatch lawful batch entries offset length
  simp only [reservedKeys, List.forall_mem_cons, List.not_mem_nil, false_imp_iff,
    implies_true, and_true]
  rw [clientReceive, classified]
  cases level : entries.has Keys.logLevel with
  | true =>
      simp only [Bool.true_eq_false, false_and, iff_false, Bool.true_and]
      cases message : entries.has Keys.logMessage with
      | true =>
          by_cases raised :
              (entries ++ pointerEntries offset length).value Keys.logLevel = ascii "EXCEPTION"
          · simp [raised, Arrives, outcome, Except.toOption]
          · simp [raised, Arrives, outcome, Except.toOption]
      | false =>
          cases location : entries.has Keys.location with
          | true => simp [Arrives, outcome, Except.toOption]
          | false =>
              rw [level, Bool.not_true] at pointer
              have kept : resolveShmBatch arrow segment
                  (pointerBatch arrow batch entries offset length) =
                  .ok (pointerBatch arrow batch entries offset length, none) := by
                rw [pointerBatch] at pointer ⊢
                simp only [resolveShmBatch, pointer, Bool.false_eq_true, if_false]
              simp only [Bool.false_eq_true, if_false, kept, releaseRegion]
              exact not_arrives_empty lawful rows entries offset length
  | false =>
      cases location : entries.has Keys.location with
      | true => simp [Arrives, outcome, Except.toOption]
      | false =>
          simp only [Bool.false_and, Bool.false_eq_true, if_false, true_and]
          by_cases named : entries.has Keys.shmOffset = true ∨ entries.has Keys.shmLength = true
          · have excluded : ¬(entries.has Keys.shmOffset = false ∧
                entries.has Keys.shmLength = false) := by
              rcases named with present | present
              · simp [present]
              · simp [present]
            simp only [excluded, iff_false]
            cases result : resolveShmBatch arrow segment
                (pointerBatch arrow batch entries offset length) with
            | error message => simp [Arrives, outcome, Except.toOption]
            | ok resolved =>
                rcases resolved with ⟨resolved, freeOffset⟩
                rw [level, Bool.not_false] at pointer
                have dropped := resolveShmBatch_dropped pointer result
                rcases releaseRegion_ok holds.valid freeOffset with ⟨after, released⟩
                simp only [released, bind, Except.bind]
                exact not_arrives_dropped dropped named
          · simp only [not_or, Bool.not_eq_true] at named
            simp only [named, and_self, iff_true]
            rw [resolveShmBatch_pointerBatch lawful holds level named.1 named.2]
            rcases releaseRegion_ok holds.valid (some offset) with ⟨after, released⟩
            simp only [released, bind, Except.bind]
            exact Arrives.of_resolved

/-- The server's end of the route. -/
theorem serverReceive_arrives_iff (lawful : arrow.Lawful) {segment : Segment} {batch : Batch}
    {entries : Metadata} {offset length : Int64} (rows : arrow.numRows batch ≠ 0)
    (holds : Holds arrow segment offset length batch)
    (live : entries.has Keys.cancel = false) (noOffset : entries.has Keys.shmOffset = false)
    (noLength : entries.has Keys.shmLength = false) :
    Arrives segment batch entries (outcome (serverReceive arrow segment
      (pointerBatch arrow batch entries offset length))) ↔ entries.has Keys.logLevel = false := by
  have pointer := isShmPointerBatch_pointerBatch lawful batch entries offset length
  have cancel : (pointerBatch arrow batch entries offset length).entries.has Keys.cancel =
      false := by
    rw [← live]
    exact has_append_pointerEntries (by decide) (by decide) entries offset length
  simp only [serverReceive, cancel, Bool.false_eq_true, if_false, pointer]
  cases level : entries.has Keys.logLevel with
  | true =>
      simp only [Bool.not_true, Bool.false_eq_true, if_false, Bool.true_eq_false, iff_false]
      exact not_arrives_empty lawful rows entries offset length
  | false =>
      simp only [Bool.not_false, if_true, iff_true]
      rw [resolveShmBatch_pointerBatch lawful holds level noOffset noLength]
      rcases releaseRegion_ok holds.valid (some offset) with ⟨after, released⟩
      simp only [released, bind, Except.bind]
      exact Arrives.of_resolved

/-! ## The whole route -/

theorem clientReceive_ok {segment : Segment} (valid : segment.Valid)
    (input : AnnotatedBatch Batch) :
    ∃ delivery, outcome (clientReceive arrow segment input) = some delivery := by
  rw [clientReceive]
  split
  next => exact ⟨_, rfl⟩
  next => exact ⟨_, rfl⟩
  next => exact ⟨_, rfl⟩
  next => exact ⟨_, rfl⟩
  next => exact ⟨_, rfl⟩
  next =>
    cases resolveShmBatch arrow segment input with
    | error message => exact ⟨_, rfl⟩
    | ok resolved =>
        rcases releaseRegion_ok valid resolved.2 with ⟨after, released⟩
        simp only [released, bind, Except.bind]
        exact ⟨_, rfl⟩

/-- Metadata that names neither a pointer nor a cancellation reaches the handler
as it is. -/
theorem serverReceive_plain {segment : Segment} {input : AnnotatedBatch Batch}
    (live : input.entries.has Keys.cancel = false)
    (noOffset : input.entries.has Keys.shmOffset = false) :
    serverReceive arrow segment input = .ok (segment, input.delivered) := by
  have inline : isShmPointerBatch arrow input = false := by
    rcases input with ⟨batch, customMetadata⟩
    cases customMetadata with
    | none => rfl
    | some metadata =>
        simp only [AnnotatedBatch.entries, Option.getD_some] at noOffset
        simp [isShmPointerBatch, noOffset]
  simp only [serverReceive, live, inline, Bool.false_eq_true, if_false]

theorem entries_outgoingInline_toServer (input : AnnotatedBatch Batch) :
    (outgoingInline .toServer input).entries = stripTransportControls input.entries := by
  rcases input with ⟨batch, customMetadata⟩
  cases customMetadata with
  | none => exact stripTransportControls_nil.symm
  | some metadata => rfl

/-- Inline, a batch with rows arrives as it was sent. -/
theorem deliverInline_rows {segment : Segment} {input : AnnotatedBatch Batch}
    (direction : Direction) (rows : arrow.numRows input.batch ≠ 0) :
    outcome (deliverInline arrow direction segment input) =
      some (.data input.batch (outgoing direction input).entries) := by
  cases direction with
  | toClient =>
      have received := @receive_rows Batch Schema arrow segment input .toClient rows nofun
      rw [deliverInline, outgoingInline, received]
      rfl
  | toServer =>
      have live : (outgoingInline .toServer input).entries.has Keys.cancel = false := by
        rw [entries_outgoingInline_toServer]
        exact (stripped_keys input.entries).1
      have noOffset : (outgoingInline .toServer input).entries.has Keys.shmOffset = false := by
        rw [entries_outgoingInline_toServer]
        exact (stripped_keys input.entries).2.1
      rw [deliverInline, receive, serverReceive_plain live noOffset]
      simp only [AnnotatedBatch.delivered, entries_outgoingInline_toServer]
      rfl

/-- A batch that does not take the route is delivered inline. -/
theorem transparent_of_not_routed (lawful : arrow.Lawful) {segment : Segment}
    (valid : segment.Valid) (small : segment.size < 2 ^ 63) {direction : Direction}
    {shmMinBatchBytes : Int} {input : AnnotatedBatch Batch}
    (sized : (arrow.stream input.batch).length < 2 ^ 64)
    (inline : ¬Routed arrow shmMinBatchBytes segment input.batch) :
    Transparent arrow direction shmMinBatchBytes segment input := by
  have sameBatch : (outgoing direction input).batch = input.batch := by
    cases direction <;> rfl
  rw [← sameBatch] at sized
  rcases maybeWriteToShm_spec lawful valid small shmMinBatchBytes sized with
    ⟨-, after, unchanged, -, sent⟩ | ⟨routed, -⟩
  · rw [sameBatch] at unchanged
    have delivered : deliver arrow direction shmMinBatchBytes segment input =
        receive arrow direction after (outgoing direction input) := by
      simp only [deliver, sent, bind, Except.bind]
    cases direction with
    | toServer =>
        have keys := stripped_keys input.entries
        have viaServer : serverReceive arrow after (outgoing .toServer input) = .ok _ :=
          serverReceive_plain keys.1 keys.2.1
        have inlineServer : serverReceive arrow segment (outgoingInline .toServer input) = .ok _ :=
          serverReceive_plain (by rw [entries_outgoingInline_toServer]; exact keys.1)
            (by rw [entries_outgoingInline_toServer]; exact keys.2.1)
        refine ⟨(outgoingInline .toServer input).delivered, ?_, .inl ?_⟩
        · exact congrArg outcome inlineServer
        · rw [delivered, receive, viaServer]
          simp only [AnnotatedBatch.delivered, entries_outgoingInline_toServer]
          rfl
    | toClient =>
        by_cases empty : arrow.numRows input.batch = 0
        · rcases clientReceive_ok valid input with ⟨delivery, received⟩
          rw [unchanged empty] at delivered
          exact ⟨delivery, received, .inl (by rw [delivered]; exact received)⟩
        · refine ⟨_, deliverInline_rows .toClient empty, .inl ?_⟩
          rw [delivered, receive_rows .toClient (by rw [sameBatch]; exact empty) nofun]
          rfl
  · rw [sameBatch] at routed
    exact absurd routed inline

/-- For a batch that takes the route, transparency is arrival. -/
theorem transparent_iff_arrives {segment : Segment} {direction : Direction}
    {shmMinBatchBytes : Int} {input : AnnotatedBatch Batch}
    (rows : arrow.numRows input.batch ≠ 0) :
    Transparent arrow direction shmMinBatchBytes segment input ↔
      Arrives segment input.batch (outgoing direction input).entries
        (outcome (deliver arrow direction shmMinBatchBytes segment input)) := by
  rw [Transparent, deliverInline_rows direction rows]
  constructor
  · rintro ⟨inline, same, delivered | ⟨batch, metadata, data, delivered⟩⟩
    · rw [← same] at delivered
      exact .inl delivered
    · rw [data, Option.some.injEq, Delivery.data.injEq] at same
      rw [← same.1, ← same.2] at delivered
      exact .inr delivered
  · rintro (delivered | delivered)
    · exact ⟨_, rfl, .inl delivered⟩
    · exact ⟨_, rfl, .inr ⟨_, _, rfl, delivered⟩⟩

/-- The shared-memory route is transparent for a batch if and only if the batch
does not take it or its metadata names none of the keys that the receiver reads
on a zero-row batch. -/
theorem transparent_iff_unreserved (lawful : arrow.Lawful) {segment : Segment}
    (valid : segment.Valid) (small : segment.size < 2 ^ 63) (direction : Direction)
    (shmMinBatchBytes : Int) (input : AnnotatedBatch Batch)
    (sized : (arrow.stream input.batch).length < 2 ^ 64) :
    Transparent arrow direction shmMinBatchBytes segment input ↔
      (Routed arrow shmMinBatchBytes segment input.batch →
        ∀ key ∈ reservedKeys direction, input.entries.has key = false) := by
  by_cases routed : Routed arrow shmMinBatchBytes segment input.batch
  · have sameBatch : (outgoing direction input).batch = input.batch := by
      cases direction <;> rfl
    rw [transparent_iff_arrives routed.1]
    rw [← sameBatch] at sized
    rcases maybeWriteToShm_spec lawful valid small shmMinBatchBytes sized with
      ⟨inline, -⟩ | ⟨-, after, offset, length, name, holds, sent⟩
    · rw [sameBatch] at inline
      exact absurd routed inline
    · rw [sameBatch] at holds sent
      have delivered : deliver arrow direction shmMinBatchBytes segment input =
          receive arrow direction after (pointerBatch arrow input.batch
            (outgoing direction input).entries offset length) := by
        simp only [deliver, sent, bind, Except.bind]
        rfl
      have sameName : ∀ entries delivery, Arrives segment input.batch entries delivery ↔
          Arrives after input.batch entries delivery := by
        intro entries delivery
        rw [Arrives, Arrives, name]
      rw [delivered, sameName]
      cases direction with
      | toClient =>
          simp only [routed, true_imp_iff]
          exact clientReceive_arrives_iff lawful routed.1 holds
      | toServer =>
          have keys := stripped_keys input.entries
          simp only [routed, true_imp_iff, reservedKeys, List.forall_mem_singleton, ← keys.2.2.2]
          exact serverReceive_arrives_iff lawful routed.1 holds keys.1 keys.2.1 keys.2.2.1
  · simp only [routed, false_imp_iff, iff_true]
    exact transparent_of_not_routed lawful valid small sized routed

end Route

/-! ## A log level on a data batch -/

/-- Batches of one column of bytes, with a one-byte schema message and one message
for the column. -/
def sampleArrow : Arrow Bytes Unit where
  schema := fun _ => ()
  numRows := List.length
  bufferBytes := fun batch => batch.length
  makeEmptyBatch := fun _ => []
  hasDictionaryColumns := fun _ => false
  estimateStreamSize := fun batch => some (Int64.ofNat (batch.length + 73))
  schemaMessage := fun _ => [0x53]
  messages := fun batch => [batch]
  writes := fun batch => [[0x53], batch, kIpcEos]
  readStream := fun stream => .ok (some ((stream.drop 1).take (stream.length - 9)))

theorem sampleArrow_lawful : sampleArrow.Lawful where
  readStream_stream := by
    intro batch
    simp [sampleArrow, Arrow.stream, kIpcEos]
  writes_flatten := by
    intro batch
    simp [sampleArrow, Arrow.stream]
  numRows_makeEmptyBatch := fun _ => rfl
  schema_makeEmptyBatch := fun _ => rfl

/-- A fresh segment with one page of data. -/
def sampleSegment : Segment :=
  { bytes := fun _ => 0
    size := 69632
    name := ascii "seg" }

theorem sampleSegment_valid : sampleSegment.Valid :=
  Segment.valid_of_count_zero (by decide) (by decide) (by decide)

/-- A batch with an application key takes the route and arrives unchanged. -/
theorem sample_transparent :
    Routed sampleArrow 1 sampleSegment [7, 8, 9] ∧
      Transparent sampleArrow .toClient 1 sampleSegment
        ⟨[7, 8, 9], some [(ascii "k", ascii "v")]⟩ := by
  have routed : Routed sampleArrow 1 sampleSegment [7, 8, 9] := by
    have plain : sampleArrow.hasDictionaryColumns (sampleArrow.schema [7, 8, 9]) = false := rfl
    refine ⟨by decide, by decide, ?_⟩
    rw [Placed, plain, if_neg Bool.false_ne_true]
    exact ⟨76, rfl, by decide, by decide⟩
  exact ⟨routed, (transparent_iff_unreserved sampleArrow_lawful sampleSegment_valid (by decide)
    .toClient 1 ⟨[7, 8, 9], some [(ascii "k", ascii "v")]⟩ (by decide)).mpr
      fun _ => by decide⟩

/-- A batch of three rows whose handler attached a log level. -/
def sampleLeveled : AnnotatedBatch Bytes :=
  ⟨[7, 8, 9], some [(Keys.logLevel, ascii "INFO")]⟩

/-- Inline the client gets the three rows, through the segment it gets a batch
without rows. -/
theorem sampleLeveled_delivered_empty :
    outcome (deliverInline sampleArrow .toClient sampleSegment sampleLeveled) =
        some (.data [7, 8, 9] [(Keys.logLevel, ascii "INFO")]) ∧
      outcome (deliver sampleArrow .toClient 1 sampleSegment sampleLeveled) =
        some (.data [] [(Keys.logLevel, ascii "INFO"), (Keys.shmOffset, ascii "65536"),
          (Keys.shmLength, ascii "12")]) ∧
      ¬Transparent sampleArrow .toClient 1 sampleSegment sampleLeveled := by
  have inline : outcome (deliverInline sampleArrow .toClient sampleSegment sampleLeveled) =
      some (.data [7, 8, 9] [(Keys.logLevel, ascii "INFO")]) := by
    decide
  have routed : outcome (deliver sampleArrow .toClient 1 sampleSegment sampleLeveled) =
      some (.data [] [(Keys.logLevel, ascii "INFO"), (Keys.shmOffset, ascii "65536"),
        (Keys.shmLength, ascii "12")]) := by
    decide
  refine ⟨inline, routed, ?_⟩
  rw [Transparent, inline, routed]
  rintro ⟨_, same, empty | ⟨batch, metadata, data, empty⟩⟩
  · rw [← same] at empty
    exact absurd empty (by decide)
  · rw [data, Option.some.injEq, Delivery.data.injEq] at same
    rw [← same.1, Option.some.injEq, Delivery.data.injEq] at empty
    exact absurd empty.1 (by decide)

end VgiRpc.Shm
