import VgiRpc.Cpp.Text

/-!
# Batch metadata and batch classification

`arrow::KeyValueMetadata` is a list of key and value pairs in which keys may
repeat.  `classify_batch` of `wire.cpp` decides from the row count and the
metadata what a batch on the wire is.
-/

namespace VgiRpc.Wire

open VgiRpc.Cpp

/-- Key and value pairs; keys may repeat. -/
abbrev Metadata := List (Bytes × Bytes)

namespace Keys

def method : Bytes := ascii "vgi_rpc.method"
def protocol : Bytes := ascii "vgi_rpc.protocol"
def requestVersion : Bytes := ascii "vgi_rpc.request_version"
def requestId : Bytes := ascii "vgi_rpc.request_id"
def protocolVersion : Bytes := ascii "vgi_rpc.protocol_version"
def logLevel : Bytes := ascii "vgi_rpc.log_level"
def logMessage : Bytes := ascii "vgi_rpc.log_message"
def streamState : Bytes := ascii "vgi_rpc.stream_state"
def location : Bytes := ascii "vgi_rpc.location"
def locationSha256 : Bytes := ascii "vgi_rpc.location.sha256"
def locationSource : Bytes := ascii "vgi_rpc.location.source"
def locationFetchMs : Bytes := ascii "vgi_rpc.location.fetch_ms"
def shmOffset : Bytes := ascii "vgi_rpc.shm_offset"
def shmLength : Bytes := ascii "vgi_rpc.shm_length"
def shmSource : Bytes := ascii "vgi_rpc.shm_source"
def shmSegmentName : Bytes := ascii "vgi_rpc.shm_segment_name"
def shmSegmentSize : Bytes := ascii "vgi_rpc.shm_segment_size"
def cancel : Bytes := ascii "vgi_rpc.cancel"
def stateB64 : Bytes := ascii "vgi_rpc.stream_state#b64"
def callStateB64 : Bytes := ascii "vgi_rpc.call_state#b64"
def transportShm : Bytes := ascii "vgi_rpc.transport.shm"

end Keys

namespace Metadata

/-- `FindKey(key) >= 0`. -/
def has (metadata : Metadata) (key : Bytes) : Bool := metadata.any fun entry => entry.1 = key

/-- `get_metadata_value`: the first value of a key, or nothing. -/
def value (metadata : Metadata) (key : Bytes) : Bytes :=
  match metadata.find? fun entry => entry.1 = key with
  | none => []
  | some entry => entry.2

/-- `remove_metadata`: drop every entry of a key. -/
def remove (metadata : Metadata) (key : Bytes) : Metadata :=
  metadata.filter fun entry => entry.1 ≠ key

/-- `replace_metadata`: the key once, at the end. -/
def replace (metadata : Metadata) (key value : Bytes) : Metadata :=
  metadata.remove key ++ [(key, value)]

@[simp] theorem has_append (first second : Metadata) (key : Bytes) :
    (first ++ second).has key = (first.has key || second.has key) := by
  simp [has]

@[simp] theorem has_cons (entry : Bytes × Bytes) (metadata : Metadata) (key : Bytes) :
    Metadata.has (entry :: metadata) key = (decide (entry.1 = key) || metadata.has key) := by
  simp [has]

@[simp] theorem has_nil (key : Bytes) : Metadata.has [] key = false := rfl

theorem value_append_of_not_has {first : Metadata} {key : Bytes} (absent : first.has key = false)
    (second : Metadata) : (first ++ second).value key = second.value key := by
  have missing : first.find? (fun entry => decide (entry.1 = key)) = none := by
    rw [List.find?_eq_none]
    intro entry member same
    rw [has, List.any_eq_false] at absent
    exact absent entry member same
  rw [value, List.find?_append, missing, Option.none_or]
  rfl

theorem has_remove (metadata : Metadata) (removed key : Bytes) :
    (metadata.remove removed).has key = (decide (key ≠ removed) && metadata.has key) := by
  rw [Bool.eq_iff_iff]
  simp only [has, remove, List.any_eq_true, List.mem_filter, decide_eq_true_eq, Bool.and_eq_true]
  constructor
  · rintro ⟨entry, ⟨member, other⟩, rfl⟩
    exact ⟨other, entry, member, rfl⟩
  · rintro ⟨other, entry, member, rfl⟩
    exact ⟨entry, ⟨member, other⟩, rfl⟩

end Metadata

/-- The keys that only the transport may set. -/
def transportControls : List Bytes :=
  [Keys.shmOffset, Keys.shmLength, Keys.shmSource, Keys.shmSegmentName, Keys.shmSegmentSize,
    Keys.location, Keys.locationSha256, Keys.locationSource, Keys.locationFetchMs, Keys.cancel,
    Keys.stateB64, Keys.callStateB64, Keys.streamState]

/-- `strip_transport_controls`. -/
def stripTransportControls (metadata : Metadata) : Metadata :=
  transportControls.foldl Metadata.remove metadata

theorem Metadata.has_foldl_remove (removed : List Bytes) (metadata : Metadata) (key : Bytes) :
    Metadata.has (removed.foldl Metadata.remove metadata) key =
      (decide (key ∉ removed) && metadata.has key) := by
  induction removed generalizing metadata with
  | nil => simp
  | cons first removed ih =>
      rw [List.foldl_cons, ih, Metadata.has_remove, ← Bool.and_assoc]
      congr 1
      rw [Bool.eq_iff_iff]
      simp [and_comm]

theorem stripTransportControls_nil : stripTransportControls [] = [] := rfl

/-- Stripping leaves no key of the transport, and keeps the log level. -/
theorem stripped_keys (metadata : Metadata) :
    (stripTransportControls metadata).has Keys.cancel = false ∧
      (stripTransportControls metadata).has Keys.shmOffset = false ∧
      (stripTransportControls metadata).has Keys.shmLength = false ∧
      (stripTransportControls metadata).has Keys.logLevel = metadata.has Keys.logLevel := by
  refine ⟨?_, ?_, ?_, ?_⟩
  · rw [stripTransportControls, Metadata.has_foldl_remove, decide_eq_false (by decide), Bool.false_and]
  · rw [stripTransportControls, Metadata.has_foldl_remove, decide_eq_false (by decide), Bool.false_and]
  · rw [stripTransportControls, Metadata.has_foldl_remove, decide_eq_false (by decide), Bool.false_and]
  · rw [stripTransportControls, Metadata.has_foldl_remove, decide_eq_true (by decide), Bool.true_and]

attribute [irreducible] stripTransportControls

/-- What a batch on the wire is. -/
inductive BatchType where
  | data
  | log
  | exception
  | externalPointer
  | shmPointer
  | stateToken
  deriving DecidableEq, Repr

/-- `classify_batch`, from the row count and the metadata. -/
def classifyBatch (numRows : Nat) : Option Metadata → BatchType
  | none => .data
  | some metadata =>
      if numRows > 0 then
        .data
      else if metadata.has Keys.logLevel && metadata.has Keys.logMessage then
        if metadata.value Keys.logLevel = ascii "EXCEPTION" then .exception else .log
      else if metadata.has Keys.location then
        .externalPointer
      else if metadata.has Keys.shmOffset then
        .shmPointer
      else if metadata.has Keys.streamState then
        .stateToken
      else
        .data

/-- `LogLevel`. -/
inductive LogLevel where
  | trace
  | debug
  | info
  | warn
  | error
  | exception
  deriving DecidableEq, Repr

/-- `log_level_to_string`. -/
def LogLevel.toText : LogLevel → Bytes
  | .trace => ascii "TRACE"
  | .debug => ascii "DEBUG"
  | .info => ascii "INFO"
  | .warn => ascii "WARN"
  | .error => ascii "ERROR"
  | .exception => ascii "EXCEPTION"

/-- A message for the client; `entries` are its extra and the ids of server and request. -/
structure LogMessage where
  level : LogLevel
  text : Bytes
  entries : Metadata
  deriving DecidableEq

/-- The metadata of the empty batch that `client_log` and `LogSink::emit` make. -/
def LogMessage.metadata (message : LogMessage) : Metadata :=
  (Keys.logLevel, message.level.toText) :: (Keys.logMessage, message.text) :: message.entries

/-- What its batch is on the wire. -/
def LogMessage.batchType (message : LogMessage) : BatchType :=
  classifyBatch 0 (some message.metadata)

/-- A message at level `EXCEPTION` is an error to the reader. -/
theorem LogMessage.batchType_eq (message : LogMessage) :
    message.batchType = if message.level = .exception then .exception else .log := by
  rcases message with ⟨level, text, entries⟩
  simp only [batchType, metadata, classifyBatch, Metadata.has, Metadata.value, List.any_cons]
  cases level <;> simp [LogLevel.toText] <;> decide

end VgiRpc.Wire
