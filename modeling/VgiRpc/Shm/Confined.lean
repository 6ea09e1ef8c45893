import VgiRpc.Lib.Results
import VgiRpc.Shm.Transparent

/-!
# Checked calls of a segment

`ShmSegment::attach` checks the magic, the version and the data size of what it
mapped; the number of allocations and the table are whatever the peer wrote.  Here
every access of the table is checked against the 64 KiB header, and every read of the
data against the mapping, so that an access out of range is a `Fault`.  A call that
does not fault is the call of the allocator.
-/

namespace VgiRpc.Shm

open VgiRpc.Cpp VgiRpc.Lib

/-- What `mmap` returned; it maps no more than half of the address space. -/
structure Mapping where
  bytes : Memory
  size : Nat
  mappable : size < 2 ^ 63

namespace Segment

/-- `ShmSegment::attach`, once the segment is mapped. -/
def attach (mapping : Mapping) (name : Bytes) : Option Segment :=
  if mapping.size ≤ kShmHeaderSize then
    none
  else if mapping.bytes.readBytes 0 4 ≠ kMagic ∨ mapping.bytes.loadLE 4 4 ≠ kShmVersion ∨
      mapping.bytes.loadLE 8 8 ≠ mapping.size - kShmHeaderSize then
    none
  else
    some ⟨mapping.bytes, mapping.size, name⟩

/-! ## Checked calls -/

/-- The segment as far as its header goes; an access behind it is a fault. -/
def header (segment : Segment) : Segment := { segment with size := min segment.size kShmHeaderSize }

/-- The segment after its header was changed. -/
def withHeader (segment header : Segment) : Segment := { segment with bytes := header.bytes }

/-- `allocate`. -/
def allocateConfined (segment : Segment) (size : Int64) :
    Except Fault (Segment × Option Int64) := do
  if size ≤ 0 then
    return (segment, none)
  let count ← segment.header.numAllocs
  if count ≥ kShmMaxAllocs then
    return (segment, none)
  match ← segment.header.scanGap (toU64 size) count 0 kShmHeaderSize with
  | .before index prevEnd =>
      let changed ← segment.header.insertAt count (toU64 size) index prevEnd
      return (segment.withHeader changed, some (toI64 prevEnd))
  | .last prevEnd =>
      if segment.size > prevEnd ∧ segment.size - prevEnd ≥ toU64 size then
        let changed ← segment.header.insertAt count (toU64 size) count prevEnd
        return (segment.withHeader changed, some (toI64 prevEnd))
      else
        return (segment, none)

/-- The move of `free_alloc`; moving nothing touches nothing. -/
def closeHole (header : Segment) (target source size : Nat) : Except Fault Segment :=
  if size = 0 then .ok header else header.memmove target source size

/-- `free_alloc`. -/
def freeConfined (segment : Segment) (offset : Int64) : Except Fault Segment := do
  let count ← segment.header.numAllocs
  match ← segment.header.findEntry (toU64 offset) count 0 with
  | none => return segment
  | some index =>
      let closed ← segment.header.closeHole (entryAddress index) (entryAddress (index + 1))
        ((count - index - 1) * kShmAllocStructSize)
      let changed ← closed.setNumAllocs (count - 1)
      return segment.withHeader changed

/-- The bytes of a range of the mapping. -/
def copyOut (segment : Segment) (address size : Nat) : Except Fault Bytes :=
  if address + size ≤ segment.size then
    .ok (segment.bytes.readBytes address size)
  else
    .error ⟨address, size⟩

/-- `read`. -/
def readConfined (segment : Segment) (offset length : Int64) :
    Except Fault (Except String Bytes) :=
  if offset < toI64 kShmHeaderSize ∨ length < 0 ∨
      (toU64 offset + toU64 length) % 2 ^ 64 > segment.size then
    .ok (.error "shared-memory pointer is outside the segment")
  else do
    let stored ← segment.copyOut (toU64 offset) (toU64 length)
    return .ok stored

end Segment

/-- A call, with any arguments. -/
inductive Call where
  | allocate (size : Int64)
  | freeAlloc (offset : Int64)
  | read (offset length : Int64)

namespace Segment

/-- A call: the segment after it, and the offset and the length of the region that it hands
out. -/
def perform (segment : Segment) : Call → Except Fault (Segment × Option (Int64 × Int64))
  | .allocate size => do
      let (next, found) ← segment.allocateConfined size
      return (next, found.map fun offset => (offset, size))
  | .freeAlloc offset => do
      let next ← segment.freeConfined offset
      return (next, none)
  | .read offset length => do
      match ← segment.readConfined offset length with
      | .error _ => return (segment, none)
      | .ok _ => return (segment, some (offset, length))

/-- A region of the data. -/
def Inside (segment : Segment) (region : Int64 × Int64) : Prop :=
  (kShmHeaderSize : Int) ≤ region.1.toInt ∧ 0 ≤ region.2.toInt ∧
    region.1.toInt + region.2.toInt ≤ segment.size

/-- No access leaves the header or the segment, and what is handed out is data. -/
def Confined (segment : Segment) (call : Call) : Prop :=
  ∃ next region, segment.perform call = .ok (next, region) ∧ ∀ given ∈ region, segment.Inside given

section Sizes

variable {segment : Segment}

theorem allocateConfined_size {size : Int64} {next : Segment} {found : Option Int64}
    (allocates : segment.allocateConfined size = .ok (next, found)) : next.size = segment.size := by
  rw [allocateConfined] at allocates
  split at allocates
  · obtain ⟨rfl, -⟩ := Prod.mk.inj (Except.ok.inj allocates)
    rfl
  · obtain ⟨count, -, allocates⟩ := bind_eq_ok_iff.mp allocates
    split at allocates
    · obtain ⟨rfl, -⟩ := Prod.mk.inj (Except.ok.inj allocates)
      rfl
    · obtain ⟨gap, -, allocates⟩ := bind_eq_ok_iff.mp allocates
      cases gap with
      | before index prevEnd =>
          obtain ⟨changed, -, allocates⟩ := bind_eq_ok_iff.mp allocates
          obtain ⟨rfl, -⟩ := Prod.mk.inj (Except.ok.inj allocates)
          rfl
      | last prevEnd =>
          dsimp only at allocates
          split at allocates
          · obtain ⟨changed, -, allocates⟩ := bind_eq_ok_iff.mp allocates
            obtain ⟨rfl, -⟩ := Prod.mk.inj (Except.ok.inj allocates)
            rfl
          · obtain ⟨rfl, -⟩ := Prod.mk.inj (Except.ok.inj allocates)
            rfl

theorem freeConfined_size {offset : Int64} {next : Segment}
    (frees : segment.freeConfined offset = .ok next) : next.size = segment.size := by
  rw [freeConfined] at frees
  obtain ⟨count, -, frees⟩ := bind_eq_ok_iff.mp frees
  obtain ⟨found, -, frees⟩ := bind_eq_ok_iff.mp frees
  cases found with
  | none =>
      obtain rfl := Except.ok.inj frees
      rfl
  | some index =>
      obtain ⟨closed, -, frees⟩ := bind_eq_ok_iff.mp frees
      obtain ⟨changed, -, frees⟩ := bind_eq_ok_iff.mp frees
      obtain rfl := Except.ok.inj frees
      rfl

/-- No call changes the mapping. -/
theorem perform_size {call : Call} {next : Segment} {region : Option (Int64 × Int64)}
    (performed : segment.perform call = .ok (next, region)) : next.size = segment.size := by
  cases call with
  | allocate size =>
      obtain ⟨⟨allocated, found⟩, allocates, performed⟩ := bind_eq_ok_iff.mp performed
      obtain ⟨rfl, -⟩ := Prod.mk.inj (Except.ok.inj performed)
      exact allocateConfined_size allocates
  | freeAlloc offset =>
      obtain ⟨freed, frees, performed⟩ := bind_eq_ok_iff.mp performed
      obtain ⟨rfl, -⟩ := Prod.mk.inj (Except.ok.inj performed)
      exact freeConfined_size frees
  | read offset length =>
      obtain ⟨outcome, -, performed⟩ := bind_eq_ok_iff.mp performed
      cases outcome with
      | error message =>
          obtain ⟨rfl, -⟩ := Prod.mk.inj (Except.ok.inj performed)
          rfl
      | ok stored =>
          obtain ⟨rfl, -⟩ := Prod.mk.inj (Except.ok.inj performed)
          rfl

end Sizes

section Header

variable {segment : Segment}

theorem header_size (mapped : kShmHeaderSize < segment.size) : segment.header.size = kShmHeaderSize :=
  Nat.min_eq_right mapped.le

theorem header_numAllocs (mapped : kShmHeaderSize < segment.size) :
    segment.header.numAllocs = .ok segment.count := by
  apply if_pos
  rw [header_size mapped]
  decide

end Header

/-! ## The allocator does what the checked calls do -/

section Widening

variable {small large : Segment}

theorem loadU64_widens (le : small.size ≤ large.size) {address value : Nat}
    (loads : small.loadU64 address = .ok value) :
    (large.withHeader small).loadU64 address = .ok value := by
  rw [loadU64] at loads
  split at loads
  · next inside => exact (if_pos (inside.trans le)).trans loads
  · cases loads

theorem numAllocs_widens (le : small.size ≤ large.size) {count : Nat}
    (loads : small.numAllocs = .ok count) : (large.withHeader small).numAllocs = .ok count := by
  rw [numAllocs, loadU32] at loads
  split at loads
  · next inside => exact (if_pos (inside.trans le)).trans loads
  · cases loads

/-- A change of a smaller mapping is the same change of the larger one. -/
def Widens (change : Segment → Except Fault Segment) : Prop :=
  ∀ {small large changed : Segment}, small.size ≤ large.size → change small = .ok changed →
    changed.size = small.size ∧ change (large.withHeader small) = .ok (large.withHeader changed)

theorem storeU64_widens (address value : Nat) : Widens fun segment => segment.storeU64 address value := by
  intro small large changed le stores
  dsimp only at stores
  rw [storeU64] at stores
  split at stores
  · next inside =>
      obtain rfl := Except.ok.inj stores
      exact ⟨rfl, if_pos (inside.trans le)⟩
  · cases stores

theorem setNumAllocs_widens (count : Nat) : Widens fun segment => segment.setNumAllocs count := by
  intro small large changed le stores
  dsimp only at stores
  rw [setNumAllocs, storeU32] at stores
  split at stores
  · next inside =>
      obtain rfl := Except.ok.inj stores
      exact ⟨rfl, if_pos (inside.trans le)⟩
  · cases stores

theorem memmove_widens (target source size : Nat) :
    Widens fun segment => segment.memmove target source size := by
  intro small large changed le moves
  dsimp only at moves
  rw [memmove] at moves
  split at moves
  · next inside =>
      obtain rfl := Except.ok.inj moves
      exact ⟨rfl, if_pos ⟨inside.1.trans le, inside.2.trans le⟩⟩
  · cases moves

theorem Widens.bind {first second : Segment → Except Fault Segment} (one : Widens first)
    (two : Widens second) : Widens fun segment => first segment >>= second := by
  intro small large changed le runs
  obtain ⟨between, ran, rest⟩ := bind_eq_ok_iff.mp runs
  obtain ⟨sameOne, largeOne⟩ := one le ran
  obtain ⟨sameTwo, largeTwo⟩ := two (sameOne.trans_le le) rest
  exact ⟨sameTwo.trans sameOne, bind_eq_ok_iff.mpr ⟨_, largeOne, largeTwo⟩⟩

theorem insertAt_widens (count size index offset : Nat) :
    Widens fun segment => segment.insertAt count size index offset :=
  Widens.bind (memmove_widens _ _ _) (Widens.bind (storeU64_widens _ _)
    (Widens.bind (storeU64_widens _ _) (setNumAllocs_widens _)))

theorem scanGap_widens (le : small.size ≤ large.size) {size remaining index prevEnd : Nat} {gap : Gap}
    (scans : small.scanGap size remaining index prevEnd = .ok gap) :
    (large.withHeader small).scanGap size remaining index prevEnd = .ok gap := by
  induction remaining generalizing index prevEnd with
  | zero => exact scans
  | succ remaining inductionHypothesis =>
      rw [scanGap] at scans ⊢
      obtain ⟨offset, loads, scans⟩ := bind_eq_ok_iff.mp scans
      refine bind_eq_ok_iff.mpr ⟨offset, loadU64_widens le loads, ?_⟩
      split at scans
      · next wide =>
          rw [if_pos wide]
          exact scans
      · next narrow =>
          rw [if_neg narrow]
          obtain ⟨length, loadsLength, scans⟩ := bind_eq_ok_iff.mp scans
          exact bind_eq_ok_iff.mpr ⟨length, loadU64_widens le loadsLength, inductionHypothesis scans⟩

theorem header_le (segment : Segment) : segment.header.size ≤ segment.size :=
  Nat.min_le_left _ _

/-- Where no check fails, `allocate` is the allocator's. -/
theorem allocate_of_confined {segment : Segment} {size : Int64} {result : Segment × Option Int64}
    (allocates : segment.allocateConfined size = .ok result) : segment.allocate size = .ok result := by
  have le := segment.header_le
  rw [allocateConfined] at allocates
  rw [allocate]
  split at allocates
  · next nonpositive => exact (if_pos nonpositive).trans allocates
  · next positive =>
      rw [if_neg positive]
      obtain ⟨count, counts, allocates⟩ := bind_eq_ok_iff.mp allocates
      refine bind_eq_ok_iff.mpr ⟨count, numAllocs_widens le counts, ?_⟩
      split at allocates
      · next full => exact (if_pos full).trans allocates
      · next room =>
          rw [if_neg room]
          obtain ⟨gap, scans, allocates⟩ := bind_eq_ok_iff.mp allocates
          refine bind_eq_ok_iff.mpr ⟨gap, scanGap_widens le scans, ?_⟩
          cases gap with
          | before index prevEnd =>
              obtain ⟨changed, inserts, allocates⟩ := bind_eq_ok_iff.mp allocates
              exact bind_eq_ok_iff.mpr ⟨_, (insertAt_widens _ _ _ _ le inserts).2, allocates⟩
          | last prevEnd =>
              dsimp only at allocates ⊢
              split at allocates
              · next fits =>
                  rw [if_pos fits]
                  obtain ⟨changed, inserts, allocates⟩ := bind_eq_ok_iff.mp allocates
                  exact bind_eq_ok_iff.mpr ⟨_, (insertAt_widens _ _ _ _ le inserts).2, allocates⟩
              · next narrow => exact (if_neg narrow).trans allocates

theorem findEntry_widens (le : small.size ≤ large.size) {offset remaining index : Nat}
    {found : Option Nat} (finds : small.findEntry offset remaining index = .ok found) :
    (large.withHeader small).findEntry offset remaining index = .ok found := by
  induction remaining generalizing index with
  | zero => exact finds
  | succ remaining inductionHypothesis =>
      rw [findEntry] at finds ⊢
      obtain ⟨stored, loads, finds⟩ := bind_eq_ok_iff.mp finds
      refine bind_eq_ok_iff.mpr ⟨stored, loadU64_widens le loads, ?_⟩
      split at finds
      · next same => exact (if_pos same).trans finds
      · next other =>
          rw [if_neg other]
          exact inductionHypothesis finds

theorem findEntry_lt {offset remaining index position : Nat}
    (finds : small.findEntry offset remaining index = .ok (some position)) :
    position < index + remaining := by
  induction remaining generalizing index with
  | zero => cases finds
  | succ remaining inductionHypothesis =>
      rw [findEntry] at finds
      obtain ⟨stored, -, finds⟩ := bind_eq_ok_iff.mp finds
      split at finds
      · obtain rfl := Option.some.inj (Except.ok.inj finds)
        omega
      · have bound := inductionHypothesis finds
        omega

theorem memmove_nothing (memory : Memory) (target source : Nat) :
    memory.memmove target source 0 = memory := by
  funext address
  rw [Memory.memmove, if_neg]
  omega

/-- On a table that fits the header, `free_alloc` is the allocator's as well. -/
theorem freeAlloc_of_confined {segment next : Segment} {offset : Int64}
    (mapped : kShmHeaderSize < segment.size) (few : segment.count ≤ kShmMaxAllocs)
    (frees : segment.freeConfined offset = .ok next) : segment.freeAlloc offset = .ok next := by
  have le := segment.header_le
  rw [freeConfined] at frees
  rw [freeAlloc]
  obtain ⟨count, counts, frees⟩ := bind_eq_ok_iff.mp frees
  obtain rfl := Except.ok.inj ((header_numAllocs mapped).symm.trans counts)
  refine bind_eq_ok_iff.mpr ⟨_, numAllocs_widens le counts, ?_⟩
  obtain ⟨found, finds, frees⟩ := bind_eq_ok_iff.mp frees
  refine bind_eq_ok_iff.mpr ⟨found, findEntry_widens le finds, ?_⟩
  cases found with
  | none => exact frees
  | some index =>
      obtain ⟨closed, closes, lowers⟩ := bind_eq_ok_iff.mp frees
      obtain ⟨changed, counted, returns⟩ := bind_eq_ok_iff.mp lowers
      rw [closeHole] at closes
      split at closes
      · next nothing =>
          obtain rfl := Except.ok.inj closes
          have inTable := findEntry_lt finds
          have last := entryAddress_le (show index + 1 ≤ kShmMaxAllocs by omega)
          have next := entryAddress_succ index
          have stays : segment.memmove (entryAddress index) (entryAddress (index + 1)) 0 =
              .ok segment := by
            rw [memmove_eq (by omega) (by omega), memmove_nothing]
          dsimp only
          rw [nothing]
          refine bind_eq_ok_iff.mpr ⟨segment, stays, ?_⟩
          exact (setNumAllocs_widens _ le counted).2.trans returns
      · obtain ⟨same, moves⟩ := memmove_widens _ _ _ le closes
        refine bind_eq_ok_iff.mpr ⟨_, moves, ?_⟩
        exact (setNumAllocs_widens _ (same.trans_le le) counted).2.trans returns

/-- Where no check fails, `read` is the one of the pointer route. -/
theorem read_of_confined {segment : Segment} {offset length : Int64} {result : Except String Bytes}
    (reads : segment.readConfined offset length = .ok result) : segment.read offset length = result := by
  rw [readConfined] at reads
  rw [read]
  split at reads
  · next refused =>
      rw [if_pos refused]
      exact Except.ok.inj reads
  · next accepted =>
      rw [if_neg accepted]
      obtain ⟨stored, copies, reads⟩ := bind_eq_ok_iff.mp reads
      rw [copyOut] at copies
      split at copies
      · obtain rfl := Except.ok.inj copies
        exact Except.ok.inj reads
      · cases copies

end Widening

end Segment

end VgiRpc.Shm
