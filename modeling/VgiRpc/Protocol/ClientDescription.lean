import VgiRpc.Protocol.Reflection

/-!
# Descriptions at the client

`decode_service_description`: the columns of a reply by name, each of its own type.
-/

namespace VgiRpc.Protocol

open VgiRpc.Cpp

structure MethodDescription where
  name : Bytes
  methodType : Bytes
  hasReturn : Bool
  paramsSchema : List Field
  resultSchema : List Field
  hasHeader : Bool
  headerSchema : Option (List Field)
  isExchange : Option Bool

/-- `ServiceDescription`, without what it takes from the listing. -/
structure ServiceDescription where
  protocolName : Bytes
  protocolVersion : Bytes
  protocolHash : Bytes
  methods : List MethodDescription

/-- What is thrown. -/
inductive DescriptionError where
  | noPayload
  | invalidIpc
  | emptyPayload
  | invalidSchema
  | missingRequired (name : Bytes)
  | wrongType (name : Bytes)
  | invalidHash
  | emptyMethodName
  | invalidMethodType (method : Bytes)
  | duplicateMethods
  deriving DecidableEq, Repr

/-- The text that is thrown; that of Arrow follows on an IPC error. -/
def DescriptionError.what : DescriptionError → Bytes
  | .noPayload => ascii "describe reply has no 'result' payload"
  | .invalidIpc => ascii "invalid IPC in describe reply"
  | .emptyPayload => ascii "describe reply payload is empty"
  | .invalidSchema => ascii "invalid schema in a describe reply"
  | .missingRequired name =>
      ascii "describe reply is missing required field '" ++ name ++ ascii "'"
  | .wrongType name => ascii "describe reply field '" ++ name ++ ascii "' has the wrong Arrow type"
  | .invalidHash => ascii "describe reply contains an invalid protocol hash"
  | .emptyMethodName => ascii "describe reply contains an empty method name"
  | .invalidMethodType method =>
      ascii "describe reply contains an invalid method type for '" ++ method ++ ascii "'"
  | .duplicateMethods => ascii "describe reply contains duplicate method names"

abbrev Decoded := Except DescriptionError

/-! ## Cells -/

/-- `take_string`. -/
def takeString (columns : List (Bytes × Column)) (row : Nat) (name : Bytes) : Decoded Bytes :=
  match columnByName columns name with
  | none => .error (.missingRequired name)
  | some (.utf8 values) => .ok ((values[row]?.join).getD [])
  | some _ => .error (.wrongType name)

/-- `take_bool`. -/
def takeBool (columns : List (Bytes × Column)) (row : Nat) (name : Bytes) : Decoded Bool :=
  match columnByName columns name with
  | none => .error (.missingRequired name)
  | some (.boolean values) => .ok ((values[row]?.join).getD false)
  | some _ => .error (.wrongType name)

/-- `take_binary`. -/
def takeBinary (columns : List (Bytes × Column)) (row : Nat) (name : Bytes) : Decoded Bytes :=
  match columnByName columns name with
  | none => .error (.missingRequired name)
  | some (.binary values) => .ok ((values[row]?.join).getD [])
  | some _ => .error (.wrongType name)

/-- `take_struct_list`. -/
def takeStructList (columns : List (Bytes × Column)) (row : Nat) (name : Bytes) :
    Decoded (Option (Nat × List (Bytes × Column))) :=
  match columnByName columns name with
  | none => .error (.missingRequired name)
  | some (.list rows) =>
      match rows[row]?.join with
      | none => .ok none
      | some (.struct length children) => .ok (some (length, children))
      | some _ => .error (.wrongType name)
  | some _ => .error (.wrongType name)

/-- `schema_from_ipc`. -/
def schemaFromIpc (ipc : Ipc) (bytes : Bytes) : Decoded (List Field) :=
  if bytes = [] then
    .ok []
  else
    match ipc.readSchema bytes with
    | some schema => .ok schema
    | none => .error .invalidSchema

/-- `reflection_payload`. -/
def reflectionPayload (ipc : Ipc) (response : Batch) : Decoded Batch :=
  match columnByName response.columns (ascii "result") with
  | some (.binary (some payload :: _)) =>
      match ipc.readBatch payload with
      | none => .error .invalidIpc
      | some batch => if batch.numRows < 1 then .error .emptyPayload else .ok batch
  | _ => .error .noPayload

/-! ## Decoding -/

/-- `std::isxdigit`. -/
def isHexDigit (byte : UInt8) : Bool :=
  isDigit byte || (0x41 ≤ byte && byte ≤ 0x46) || (0x61 ≤ byte && byte ≤ 0x66)

/-- `is_sha256_hex`. -/
def isSha256Hex (value : Bytes) : Bool := decide (value.length = 64) && value.all isHexDigit

/-- `if (condition) throw`. -/
def require (condition : Prop) [Decidable condition] (error : DescriptionError) : Decoded Unit :=
  if condition then .ok () else .error error

/-- The header schema is read only if there is one. -/
def headerFromIpc (ipc : Ipc) (hasHeader : Bool) (bytes : Bytes) : Decoded (Option (List Field)) :=
  if hasHeader then (schemaFromIpc ipc bytes).map some else .ok none

/-- What a stream kind tells. -/
def isExchangeOf (streamKind : Bytes) : Option Bool :=
  if streamKind = ascii "exchange" then some true
  else if streamKind = ascii "producer" then some false
  else none

/-- One row of the methods. -/
def decodeMethod (ipc : Ipc) (methods : List (Bytes × Column)) (row : Nat) :
    Decoded MethodDescription := do
  let name ← takeString methods row (ascii "name")
  require (name ≠ []) .emptyMethodName
  let methodType ← takeString methods row (ascii "method_type")
  require (methodType = ascii "unary" ∨ methodType = ascii "stream") (.invalidMethodType name)
  let hasReturn ← takeBool methods row (ascii "has_return")
  let hasHeader ← takeBool methods row (ascii "has_header")
  let paramsIpc ← takeBinary methods row (ascii "params_schema_ipc")
  let paramsSchema ← schemaFromIpc ipc paramsIpc
  let resultIpc ← takeBinary methods row (ascii "result_schema_ipc")
  let resultSchema ← schemaFromIpc ipc resultIpc
  let headerIpc ← takeBinary methods row (ascii "header_schema_ipc")
  let headerSchema ← headerFromIpc ipc hasHeader headerIpc
  let streamKind ← takeString methods row (ascii "stream_kind")
  return ⟨name, methodType, hasReturn, paramsSchema, resultSchema, hasHeader, headerSchema,
    isExchangeOf streamKind⟩

/-- The body of the loop: `emplace` of one more method. -/
def addMethod (ipc : Ipc) (columns : List (Bytes × Column)) (methods : List MethodDescription)
    (row : Nat) : Decoded (List MethodDescription) := do
  let method ← decodeMethod ipc columns row
  require (method.name ∉ methods.map MethodDescription.name) .duplicateMethods
  return methods ++ [method]

/-- The loop over the methods. -/
def decodeMethods (ipc : Ipc) : Option (Nat × List (Bytes × Column)) →
    Decoded (List MethodDescription)
  | none => .ok []
  | some (length, columns) => (List.range length).foldlM (addMethod ipc columns) []

/-- `decode_service_description`. -/
def decodeServiceDescription (ipc : Ipc) (response : Batch) : Decoded ServiceDescription := do
  let batch ← reflectionPayload ipc response
  let protocolName ← takeString batch.columns 0 (ascii "protocol")
  let protocolVersion ← takeString batch.columns 0 (ascii "protocol_version")
  let protocolHash ← takeString batch.columns 0 (ascii "protocol_hash")
  require (isSha256Hex protocolHash = true) .invalidHash
  let methods ← decodeMethods ipc (← takeStructList batch.columns 0 (ascii "methods"))
  return ⟨protocolName, protocolVersion, protocolHash, methods⟩

/-! ## Verifying -/

/-- What a client hashes of a method. -/
def MethodDescription.hashMethod (method : MethodDescription) : HashMethod where
  name := method.name
  methodType := method.methodType
  hasReturn := method.hasReturn
  hasHeader := method.hasHeader
  paramsSchema := method.paramsSchema
  resultSchema := method.resultSchema
  headerSchema := method.headerSchema.getD []

/-- The protocol hash of a description. -/
def ServiceDescription.recomputedHash (sha256 : Bytes → Bytes) (description : ServiceDescription) :
    Bytes :=
  computeProtocolHash sha256 description.protocolName
    (description.methods.map MethodDescription.hashMethod)

end VgiRpc.Protocol
