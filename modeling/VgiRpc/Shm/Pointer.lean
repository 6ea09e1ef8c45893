import VgiRpc.Cpp.Text
import VgiRpc.Shm.Segment
import VgiRpc.Wire.Metadata

/-!
# Pointer batches

A batch that is large enough is written into the segment, and a zero-row batch
whose metadata names its place travels instead.  This module models both ends of
that route: `maybe_write_to_shm` with the writer under it, and on the receiving
side `resolve_data` of the client and the input path of the server's stream loop.

Arrow itself is a parameter: the messages of an IPC stream and a reader for it.
-/

namespace VgiRpc.Shm

open VgiRpc.Cpp VgiRpc.Wire Lib

/-- The end-of-stream marker of an IPC stream. -/
def kIpcEos : Bytes := [0xff, 0xff, 0xff, 0xff, 0, 0, 0, 0]

/-- What the code uses of Arrow. -/
structure Arrow (Batch Schema : Type) where
  schema : Batch → Schema
  numRows : Batch → Nat
  /-- The sum of the sizes of all buffers. -/
  bufferBytes : Batch → Int
  makeEmptyBatch : Schema → Batch
  hasDictionaryColumns : Schema → Bool
  /-- `estimate_stream_size`, if it succeeds. -/
  estimateStreamSize : Batch → Option Int64
  schemaMessage : Schema → Bytes
  /-- The dictionary messages and the record batch message. -/
  messages : Batch → List Bytes
  /-- The successive writes of the stream writer. -/
  writes : Batch → List Bytes
  /-- The first batch of a stream, if it has one. -/
  readStream : Bytes → Except String (Option Batch)

namespace Arrow

variable {Batch Schema : Type} (arrow : Arrow Batch Schema)

/-- The IPC stream of one batch. -/
def stream (batch : Batch) : Bytes :=
  arrow.schemaMessage (arrow.schema batch) ++ (arrow.messages batch).flatten ++ kIpcEos

/-- `serialize_dictionary_batch`: the stream without its schema and its end. -/
def serializeDictionaryBatch (batch : Batch) : Bytes := (arrow.messages batch).flatten

/-- `deserialize_from_shm`. -/
def deserializeFromShm (stored : Bytes) (schema : Schema) : Except String Batch := do
  let stream :=
    if arrow.hasDictionaryColumns schema then
      arrow.schemaMessage schema ++ stored ++ kIpcEos
    else
      stored
  match ← arrow.readStream stream with
  | none => throw "shared-memory region held no record batch"
  | some batch => return batch

/-- What is relied on: writing a batch and reading it returns it, and an empty
batch has the schema it was made for and no rows. -/
structure Lawful : Prop where
  readStream_stream : ∀ batch, arrow.readStream (arrow.stream batch) = .ok (some batch)
  writes_flatten : ∀ batch, (arrow.writes batch).flatten = arrow.stream batch
  numRows_makeEmptyBatch : ∀ schema, arrow.numRows (arrow.makeEmptyBatch schema) = 0
  schema_makeEmptyBatch : ∀ schema, arrow.schema (arrow.makeEmptyBatch schema) = schema

end Arrow

namespace Segment

/-- `memcpy` into the mapping. -/
def copyIn (segment : Segment) (address : Nat) (bytes : Bytes) : Except Fault Segment :=
  if address + bytes.length ≤ segment.size then
    .ok { segment with bytes := segment.bytes.writeBytes address bytes }
  else
    .error ⟨address, bytes.length⟩

/-- `ShmSegment::read`. -/
def read (segment : Segment) (offset length : Int64) : Except String Bytes :=
  if offset < toI64 kShmHeaderSize ∨ length < 0 ∨
      (toU64 offset + toU64 length) % 2 ^ 64 > segment.size then
    .error "shared-memory pointer is outside the segment"
  else
    .ok (segment.bytes.readBytes (toU64 offset) (toU64 length))

/-- The writes of a stream writer through a `ShmSink`: each is refused if it
would leave the reservation.  The result is the number of bytes written, if all
writes were accepted. -/
def sinkWrites (base capacity : Nat) :
    Segment → (position : Nat) → List Bytes → Except Fault (Segment × Option Nat)
  | segment, position, [] => .ok (segment, some position)
  | segment, position, bytes :: rest =>
      if position + bytes.length > capacity then
        .ok (segment, none)
      else do
        let segment ← segment.copyIn (base + position) bytes
        sinkWrites base capacity segment (position + bytes.length) rest

variable {Batch Schema : Type} (arrow : Arrow Batch Schema)

/-- `ShmSegment::allocate_and_write`: the offset and the length of the written
batch, if there was room. -/
def allocateAndWrite (segment : Segment) (batch : Batch) :
    Except Fault (Segment × Option (Int64 × Int64)) := do
  if arrow.hasDictionaryColumns (arrow.schema batch) then
    let payload := arrow.serializeDictionaryBatch batch
    match ← segment.allocate (toI64 payload.length) with
    | (segment, none) => return (segment, none)
    | (segment, some offset) =>
        let segment ← segment.copyIn (toU64 offset) payload
        return (segment, some (offset, toI64 payload.length))
  else
    match arrow.estimateStreamSize batch with
    | none => return (segment, none)
    | some estimate =>
        match ← segment.allocate estimate with
        | (segment, none) => return (segment, none)
        | (segment, some offset) =>
            match ← sinkWrites (toU64 offset) (toU64 estimate) segment 0
              (arrow.writes batch) with
            | (segment, none) =>
                let segment ← segment.freeAlloc offset
                return (segment, none)
            | (segment, some written) => return (segment, some (offset, toI64 written))

end Segment

section Route

variable {Batch Schema : Type} (arrow : Arrow Batch Schema)

/-- A batch with its metadata, as it is put on or taken off the wire. -/
structure AnnotatedBatch (Batch : Type) where
  batch : Batch
  customMetadata : Option Metadata

/-- The entries of the metadata; a null pointer has none. -/
def AnnotatedBatch.entries (input : AnnotatedBatch Batch) : Metadata :=
  input.customMetadata.getD []

/-- `maybe_write_to_shm` with a segment. -/
def maybeWriteToShm (shmMinBatchBytes : Int) (segment : Segment)
    (input : AnnotatedBatch Batch) : Except Fault (Segment × AnnotatedBatch Batch) := do
  if arrow.numRows input.batch = 0 then
    return (segment, input)
  if arrow.bufferBytes input.batch < shmMinBatchBytes then
    return (segment, input)
  match ← segment.allocateAndWrite arrow input.batch with
  | (segment, none) => return (segment, input)
  | (segment, some (offset, length)) =>
      let metadata := input.entries ++
        [(Keys.shmOffset, Cpp.toString offset.toInt), (Keys.shmLength, Cpp.toString length.toInt)]
      return (segment, ⟨arrow.makeEmptyBatch (arrow.schema input.batch), some metadata⟩)

/-- `is_shm_pointer_batch`. -/
def isShmPointerBatch (input : AnnotatedBatch Batch) : Bool :=
  match input.customMetadata with
  | none => false
  | some metadata =>
      arrow.numRows input.batch == 0 && metadata.has Keys.shmOffset &&
        !metadata.has Keys.logLevel

/-- `std::stoll` into an `int64_t`. -/
def readInt64 (text : Bytes) : Option Int64 := (stoll text).map Int64.ofInt

/-- The loop of `resolve_shm_batch` that strips the pointer keys. -/
def dropPointer (metadata : Metadata) : Metadata :=
  metadata.filter fun entry => entry.1 ≠ Keys.shmOffset ∧ entry.1 ≠ Keys.shmLength

/-- `resolve_shm_batch` with a segment: the resolved batch and the region to
release, if a pointer was resolved. -/
def resolveShmBatch (segment : Segment) (input : AnnotatedBatch Batch) :
    Except String (AnnotatedBatch Batch × Option Int64) :=
  match input.customMetadata with
  | none => .ok (input, none)
  | some metadata =>
      if isShmPointerBatch arrow input then
        match readInt64 (metadata.value Keys.shmOffset),
          readInt64 (metadata.value Keys.shmLength) with
        | some offset, some length => do
            let stored ← segment.read offset length
            let resolved ← arrow.deserializeFromShm stored (arrow.schema input.batch)
            let entries := dropPointer metadata ++ [(Keys.shmSource, segment.name)]
            return (⟨resolved, some entries⟩, some offset)
        | _, _ => .error "shared-memory pointer batch has an unreadable offset/length"
      else
        .ok (input, none)

/-- What becomes of a batch at the receiver.  A null metadata pointer reads as no
entries. -/
inductive Delivery (Batch : Type) where
  /-- Handed to the caller or to the handler. -/
  | data (batch : Batch) (metadata : Metadata)
  /-- Given to the log callback. -/
  | log (metadata : Metadata)
  /-- Raised as the server's exception. -/
  | exception (metadata : Metadata)
  /-- Fetched from an external location. -/
  | external (metadata : Metadata)
  /-- Taken as the end of the stream. -/
  | cancelled
  /-- Failed with a message. -/
  | failed (message : String)
  deriving DecidableEq

/-- The batch as it is handed over. -/
def AnnotatedBatch.delivered (input : AnnotatedBatch Batch) : Delivery Batch :=
  .data input.batch input.entries

/-- Release the region of a resolved pointer, `-1` being none. -/
def releaseRegion (segment : Segment) : Option Int64 → Except Fault Segment
  | none => .ok segment
  | some offset => if 0 ≤ offset then segment.freeAlloc offset else .ok segment

/-- The client's reader: `classify_batch`, then `resolve_data`. -/
def clientReceive (segment : Segment) (input : AnnotatedBatch Batch) :
    Except Fault (Segment × Delivery Batch) :=
  match classifyBatch (arrow.numRows input.batch) input.customMetadata with
  | .data => .ok (segment, input.delivered)
  | .log => .ok (segment, .log input.entries)
  | .exception => .ok (segment, .exception input.entries)
  | .externalPointer => .ok (segment, .external input.entries)
  | .stateToken =>
      .ok (segment, .failed "state-token batch is invalid on a live raw stream transport")
  | .shmPointer =>
      match resolveShmBatch arrow segment input with
      | .error message => .ok (segment, .failed message)
      | .ok (resolved, freeOffset) => do
          let segment ← releaseRegion segment freeOffset
          return (segment, resolved.delivered)

/-- The server's reader in `serve_stream`: the region is released once the
handler has read the input. -/
def serverReceive (segment : Segment) (input : AnnotatedBatch Batch) :
    Except Fault (Segment × Delivery Batch) :=
  if input.entries.has Keys.cancel then
    .ok (segment, .cancelled)
  else if isShmPointerBatch arrow input then
    match resolveShmBatch arrow segment input with
    | .error message => .ok (segment, .failed message)
    | .ok (resolved, freeOffset) => do
        let segment ← releaseRegion segment freeOffset
        return (segment, resolved.delivered)
  else
    .ok (segment, input.delivered)

/-- The two directions of a stream. -/
inductive Direction where
  | toClient
  | toServer
  deriving DecidableEq, Repr

/-- What the sender does to the metadata before it offers a batch to the segment:
`exchange` of the client copies it and strips the transport's own keys, the
server's output loop does nothing. -/
def outgoing : Direction → AnnotatedBatch Batch → AnnotatedBatch Batch
  | .toClient, input => input
  | .toServer, input => ⟨input.batch, some (stripTransportControls input.entries)⟩

/-- The same without a segment, where a null pointer stays one. -/
def outgoingInline : Direction → AnnotatedBatch Batch → AnnotatedBatch Batch
  | .toClient, input => input
  | .toServer, input => ⟨input.batch, input.customMetadata.map stripTransportControls⟩

def receive : Direction → Segment → AnnotatedBatch Batch →
    Except Fault (Segment × Delivery Batch)
  | .toClient => clientReceive arrow
  | .toServer => serverReceive arrow

/-- Delivery of a batch through the segment where it is worth it. -/
def deliver (direction : Direction) (shmMinBatchBytes : Int) (segment : Segment)
    (input : AnnotatedBatch Batch) : Except Fault (Segment × Delivery Batch) := do
  let (segment, sent) ← maybeWriteToShm arrow shmMinBatchBytes segment (outgoing direction input)
  receive arrow direction segment sent

/-- Delivery of the same batch without a segment on the sender's side. -/
def deliverInline (direction : Direction) (segment : Segment) (input : AnnotatedBatch Batch) :
    Except Fault (Segment × Delivery Batch) :=
  receive arrow direction segment (outgoingInline direction input)

end Route

end VgiRpc.Shm
