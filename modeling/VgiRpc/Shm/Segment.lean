import VgiRpc.Lib.Memory
import VgiRpc.Lib.Regions

/-!
# The shared-memory segment

`ShmSegment` maps a segment whose first 64 KiB hold an allocator header: magic,
version, data size, the number of live allocations, and a table of
`(offset, length)` entries.  The operations below work on the mapped bytes
exactly where the source does, and every access is checked against the mapping:
a load, store or move that would leave it is a `Fault`, so a proof that an
operation returns is also a proof that it stayed inside.

`memcpy` of an integer is modelled little-endian.
-/

namespace VgiRpc.Shm

open Lib

/-- The fixed header in front of the data region. -/
def kShmHeaderSize : Nat := 65536

/-- `magic|version|data_size|num_allocs|pad`. -/
def kShmHeaderStructSize : Nat := 24

/-- `offset|length`. -/
def kShmAllocStructSize : Nat := 16

def kShmVersion : Nat := 1

def kShmMaxAllocs : Nat := (kShmHeaderSize - kShmHeaderStructSize) / kShmAllocStructSize

def kMagic : List UInt8 := [0x56, 0x47, 0x49, 0x53]

/-- An access outside the mapping. -/
structure Fault where
  address : Nat
  size : Nat
  deriving DecidableEq, Repr

/-- A mapped segment.  `size` is `size_`, the mapped size in bytes. -/
structure Segment where
  bytes : Memory
  size : Nat
  name : List UInt8

namespace Segment

/-- `static_cast<uint64_t>` of a signed value. -/
def toU64 (value : Int64) : Nat := value.toUInt64.toNat

/-- `static_cast<int64_t>` of an unsigned value. -/
def toI64 (value : Nat) : Int64 := (UInt64.ofNat value).toInt64

def loadU32 (segment : Segment) (address : Nat) : Except Fault Nat :=
  if address + 4 ≤ segment.size then
    .ok (segment.bytes.loadLE address 4)
  else
    .error ⟨address, 4⟩

def loadU64 (segment : Segment) (address : Nat) : Except Fault Nat :=
  if address + 8 ≤ segment.size then
    .ok (segment.bytes.loadLE address 8)
  else
    .error ⟨address, 8⟩

def storeU32 (segment : Segment) (address value : Nat) : Except Fault Segment :=
  if address + 4 ≤ segment.size then
    .ok { segment with bytes := segment.bytes.storeLE address 4 value }
  else
    .error ⟨address, 4⟩

def storeU64 (segment : Segment) (address value : Nat) : Except Fault Segment :=
  if address + 8 ≤ segment.size then
    .ok { segment with bytes := segment.bytes.storeLE address 8 value }
  else
    .error ⟨address, 8⟩

def memmove (segment : Segment) (target source size : Nat) : Except Fault Segment :=
  if target + size ≤ segment.size ∧ source + size ≤ segment.size then
    .ok { segment with bytes := segment.bytes.memmove target source size }
  else
    .error ⟨max target source, size⟩

/-- Address of a table entry. -/
def entryAddress (index : Nat) : Nat := kShmHeaderStructSize + index * kShmAllocStructSize

def numAllocs (segment : Segment) : Except Fault Nat := segment.loadU32 16

def setNumAllocs (segment : Segment) (count : Nat) : Except Fault Segment :=
  segment.storeU32 16 count

/-- The allocator header a freshly created segment starts with.  The mapping's
other bytes are whatever the kernel handed over. -/
def create (mapping : Memory) (size : Nat) (name : List UInt8) : Option Segment :=
  if size ≤ kShmHeaderSize then
    none
  else
    let header := mapping.writeBytes 0 kMagic
    let header := header.storeLE 4 4 kShmVersion
    let header := header.storeLE 8 8 (size - kShmHeaderSize)
    let header := header.storeLE 16 4 0
    let header := header.storeLE 20 4 0
    some ⟨header, size, name⟩

def reset (segment : Segment) : Except Fault Segment := segment.setNumAllocs 0

/-- The `insert_at` closure of `allocate`: shift the tail of the table up by one
entry and write the new entry into the hole. -/
def insertAt (segment : Segment) (count size index offset : Nat) :
    Except Fault Segment := do
  let segment ← segment.memmove (entryAddress (index + 1)) (entryAddress index)
    ((count - index) * kShmAllocStructSize)
  let segment ← segment.storeU64 (entryAddress index) offset
  let segment ← segment.storeU64 (entryAddress index + 8) size
  segment.setNumAllocs (count + 1)

/-- The scan loop of `allocate`, from entry `index` over the `remaining`
entries.  The end of an entry is a 64-bit addition. -/
def scanGap (segment : Segment) (size : Nat) :
    (remaining index prevEnd : Nat) → Except Fault Gap
  | 0, _, prevEnd => .ok (.last prevEnd)
  | remaining + 1, index, prevEnd => do
      let offset ← segment.loadU64 (entryAddress index)
      if offset ≥ prevEnd ∧ offset - prevEnd ≥ size then
        .ok (.before index prevEnd)
      else
        let length ← segment.loadU64 (entryAddress index + 8)
        segment.scanGap size remaining (index + 1) ((offset + length) % 2 ^ 64)

/-- Reserve the first gap that holds `size` bytes. -/
def allocate (segment : Segment) (size : Int64) :
    Except Fault (Segment × Option Int64) := do
  if size ≤ 0 then
    return (segment, none)
  let count ← segment.numAllocs
  if count ≥ kShmMaxAllocs then
    return (segment, none)
  match ← segment.scanGap (toU64 size) count 0 kShmHeaderSize with
  | .before index prevEnd =>
      let segment ← segment.insertAt count (toU64 size) index prevEnd
      return (segment, some (toI64 prevEnd))
  | .last prevEnd =>
      if segment.size > prevEnd ∧ segment.size - prevEnd ≥ toU64 size then
        let segment ← segment.insertAt count (toU64 size) count prevEnd
        return (segment, some (toI64 prevEnd))
      else
        return (segment, none)

/-- The search loop of `free_alloc`. -/
def findEntry (segment : Segment) (offset : Nat) :
    (remaining index : Nat) → Except Fault (Option Nat)
  | 0, _ => .ok none
  | remaining + 1, index => do
      let stored ← segment.loadU64 (entryAddress index)
      if stored = offset then
        .ok (some index)
      else
        segment.findEntry offset remaining (index + 1)

/-- Drop the first entry at `offset`; an unknown offset is ignored. -/
def freeAlloc (segment : Segment) (offset : Int64) : Except Fault Segment := do
  let count ← segment.numAllocs
  match ← segment.findEntry (toU64 offset) count 0 with
  | none => return segment
  | some index =>
      let segment ← segment.memmove (entryAddress index) (entryAddress (index + 1))
        ((count - index - 1) * kShmAllocStructSize)
      segment.setNumAllocs (count - 1)

end Segment

/-- An operation on a segment, with any arguments a caller can pass. -/
inductive Op where
  | allocate (size : Int64)
  | freeAlloc (offset : Int64)
  | reset
  deriving DecidableEq, Repr

namespace Segment

def step (segment : Segment) : Op → Except Fault Segment
  | .allocate size => do
      let result ← segment.allocate size
      return result.1
  | .freeAlloc offset => segment.freeAlloc offset
  | .reset => segment.reset

/-- Apply a sequence of operations, stopping at the first fault. -/
def run (segment : Segment) : List Op → Except Fault Segment
  | [] => .ok segment
  | op :: ops => do
      let segment ← segment.step op
      segment.run ops

/-- Number of live allocations, as stored in the header. -/
def count (segment : Segment) : Nat := segment.bytes.loadLE 16 4

/-- A table entry, as stored in the header. -/
def entry (segment : Segment) (index : Nat) : Region :=
  ⟨segment.bytes.loadLE (entryAddress index) 8,
    segment.bytes.loadLE (entryAddress index + 8) 8⟩

/-- The entries from `index` on. -/
def entriesFrom (segment : Segment) (index remaining : Nat) : List Region :=
  (List.range' index remaining).map segment.entry

/-- The occupied regions a segment records, in table order. -/
def table (segment : Segment) : List Region := segment.entriesFrom 0 segment.count

/-- The allocator invariant. -/
structure Valid (segment : Segment) : Prop where
  header_lt : kShmHeaderSize < segment.size
  size_lt : segment.size < 2 ^ 64
  count_le : segment.count ≤ kShmMaxAllocs
  packed : Packed segment.size kShmHeaderSize segment.table

end Segment

end VgiRpc.Shm
