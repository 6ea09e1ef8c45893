import VgiRpc.Protocol.Description

/-!
# Service descriptions

What `vgi_rpc.Reflection.v1` tells about a protocol: `BuildServiceDescription` puts its
methods into the columns of a one-row batch, and `BindingHash` fingerprints them.
-/

namespace VgiRpc.Protocol

open VgiRpc.Cpp

/-! ## Methods -/

inductive MethodType where
  | unary
  | stream
  deriving DecidableEq, Repr

/-- `MethodInfo`, with what its description tells; a schema is its fields. -/
structure MethodInfo where
  name : Bytes
  methodType : MethodType
  paramsSchema : Option (List Field)
  resultSchema : Option (List Field)
  headerSchema : Option (List Field)
  hasReturn : Bool
  isExchange : Bool

/-- What was called on the builder. -/
inductive Registration where
  | addUnary (name : Bytes) (paramsSchema resultSchema : List Field)
  | addVoid (name : Bytes) (paramsSchema : List Field)
  | addProducer (name : Bytes) (paramsSchema : List Field) (headerSchema : Option (List Field))
  | addExchange (name : Bytes) (paramsSchema : List Field) (headerSchema : Option (List Field))

/-- The method that the builder keeps. -/
def Registration.info : Registration → MethodInfo
  | .addUnary name paramsSchema resultSchema =>
      ⟨name, .unary, some paramsSchema, some resultSchema, none, true, false⟩
  | .addVoid name paramsSchema =>
      ⟨name, .unary, some paramsSchema, some [], none, false, false⟩
  | .addProducer name paramsSchema headerSchema =>
      ⟨name, .stream, some paramsSchema, some [], headerSchema, false, false⟩
  | .addExchange name paramsSchema headerSchema =>
      ⟨name, .stream, some paramsSchema, some [], headerSchema, false, true⟩

/-- `IsApplicationMethod`. -/
def isApplicationMethod (name : Bytes) : Bool := !(ascii "__").isPrefixOf name

namespace MethodInfo

/-- `UnaryHasReturn`. -/
def unaryHasReturn (info : MethodInfo) : Bool :=
  info.methodType == .unary && info.hasReturn && !(info.resultSchema.getD []).isEmpty

/-- `StreamKindFor`. -/
def streamKindFor (info : MethodInfo) : Bytes :=
  match info.methodType with
  | .unary => []
  | .stream => if info.isExchange then ascii "exchange" else ascii "producer"

def typeText (info : MethodInfo) : Bytes :=
  if info.methodType = .unary then ascii "unary" else ascii "stream"

/-- The schemas that it has. -/
def schemas (info : MethodInfo) : List (List Field) :=
  info.paramsSchema.toList ++ info.resultSchema.toList ++ info.headerSchema.toList

/-- The entry of `BindingHash`. -/
def hashMethod (info : MethodInfo) : HashMethod where
  name := info.name
  methodType := info.typeText
  hasReturn := info.unaryHasReturn
  hasHeader := info.headerSchema.isSome
  paramsSchema := info.paramsSchema.getD []
  resultSchema := info.resultSchema.getD []
  headerSchema := info.headerSchema.getD []

end MethodInfo

/-- The methods of a protocol that are not the framework's. -/
def applicationMethods (methods : List MethodInfo) : List MethodInfo :=
  methods.filter fun info => isApplicationMethod info.name

/-! ## The protocol hash -/

def hexText (digest : Bytes) : Bytes :=
  digest.flatMap fun (byte : UInt8) => [lowerHex (byte >>> 4), lowerHex (byte &&& 0x0f)]

/-- `ComputeProtocolHash`. -/
def computeProtocolHash (sha256 : Bytes → Bytes) (protocolName : Bytes)
    (methods : List HashMethod) : Bytes :=
  hexText (sha256 (ascii "vgi_rpc.protocol_hash.v1|" ++ canonicalDescription protocolName methods))

/-- `BindingHash`. -/
def bindingHash (sha256 : Bytes → Bytes) (name : Bytes) (methods : List MethodInfo) : Bytes :=
  computeProtocolHash sha256 name ((applicationMethods methods).map MethodInfo.hashMethod)

/-! ## Columns -/

/-- An array of one of the types that descriptions use; `none` is a null. -/
inductive Column where
  | utf8 (values : List (Option Bytes))
  | boolean (values : List (Option Bool))
  | binary (values : List (Option Bytes))
  /-- A list array, by its rows. -/
  | list (rows : List (Option Column))
  | struct (length : Nat) (children : List (Bytes × Column))

/-- A record batch. -/
structure Batch where
  numRows : Nat
  columns : List (Bytes × Column)

/-- `GetColumnByName` and `GetFieldByName`: nothing for a name that comes twice. -/
def columnByName (columns : List (Bytes × Column)) (name : Bytes) : Option Column :=
  match columns.filter fun column => column.1 = name with
  | [column] => some column.2
  | _ => none

/-- The parts of Arrow's IPC format that descriptions use. -/
structure Ipc where
  writeSchema : List Field → Bytes
  readSchema : Bytes → Option (List Field)
  writeBatch : Batch → Bytes
  readBatch : Bytes → Option Batch

/-- Reading undoes writing, and a schema is never empty text. -/
structure Ipc.RoundTrips (ipc : Ipc) (schemas : List (List Field)) (batch : Batch) : Prop where
  schema : ∀ schema ∈ schemas, ipc.readSchema (ipc.writeSchema schema) = some schema
  nonempty : ∀ schema ∈ schemas, ipc.writeSchema schema ≠ []
  batch : ipc.readBatch (ipc.writeBatch batch) = some batch

/-! ## Building -/

/-- `SchemaIpc`. -/
def schemaIpc (ipc : Ipc) : Option (List Field) → Bytes
  | none => []
  | some schema => ipc.writeSchema schema

/-- The methods that are described, by name. -/
def ordered (methods : List MethodInfo) : List MethodInfo :=
  (applicationMethods methods).mergeSort fun first second => decide (first.name ≤ second.name)

def utf8Column (values : List Bytes) : Column := .utf8 (values.map some)
def booleanColumn (values : List Bool) : Column := .boolean (values.map some)
def binaryColumn (values : List Bytes) : Column := .binary (values.map some)

/-- The columns of the methods. -/
def methodColumns (ipc : Ipc) (methods : List MethodInfo) : List (Bytes × Column) :=
  [(ascii "name", utf8Column (methods.map MethodInfo.name)),
    (ascii "method_type", utf8Column (methods.map MethodInfo.typeText)),
    (ascii "has_return", booleanColumn (methods.map MethodInfo.unaryHasReturn)),
    (ascii "has_header", booleanColumn (methods.map fun info => info.headerSchema.isSome)),
    (ascii "stream_kind", utf8Column (methods.map MethodInfo.streamKindFor)),
    (ascii "params_schema_ipc",
      binaryColumn (methods.map fun info => schemaIpc ipc info.paramsSchema)),
    (ascii "result_schema_ipc", binaryColumn (methods.map fun info =>
      if info.unaryHasReturn then schemaIpc ipc info.resultSchema else [])),
    (ascii "header_schema_ipc",
      binaryColumn (methods.map fun info => schemaIpc ipc info.headerSchema)),
    (ascii "idempotency", utf8Column (methods.map fun _ => ascii "unknown")),
    (ascii "deprecated", booleanColumn (methods.map fun _ => false)),
    (ascii "deprecation_message", utf8Column (methods.map fun _ => []))]

/-- The batch of `BuildServiceDescription`. -/
def descriptionBatch (ipc : Ipc) (protocol version hash : Bytes) (methods : List MethodInfo) :
    Batch where
  numRows := 1
  columns :=
    [(ascii "protocol", utf8Column [protocol]),
      (ascii "protocol_version", utf8Column [version]),
      (ascii "protocol_hash", utf8Column [hash]),
      (ascii "deprecated", booleanColumn [false]),
      (ascii "deprecation_message", utf8Column [[]]),
      (ascii "features", .list [some (utf8Column [])]),
      (ascii "methods", .list [some (.struct (ordered methods).length
        (methodColumns ipc (ordered methods)))])]

/-- `BuildServiceDescription`. -/
def buildServiceDescription (ipc : Ipc) (protocol version hash : Bytes)
    (methods : List MethodInfo) : Bytes :=
  ipc.writeBatch (descriptionBatch ipc protocol version hash methods)

/-- The reply of `serve_reflection` to `describe`. -/
def describeReply (ipc : Ipc) (protocol version hash : Bytes) (methods : List MethodInfo) : Batch where
  numRows := 1
  columns :=
    [(ascii "result",
      binaryColumn [buildServiceDescription ipc protocol version hash methods])]

end VgiRpc.Protocol
