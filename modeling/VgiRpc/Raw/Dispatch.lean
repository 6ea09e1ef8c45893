import VgiRpc.Wire.Metadata

/-!
# Requests on the raw transport

What `RpcClient` puts into the metadata of a request, and the ladder of checks in
`Server::serve_one_with_state` that decides from a request batch whether the
server refuses it, answers it, or opens a stream for it.
-/

namespace VgiRpc.Raw

open VgiRpc.Cpp VgiRpc.Wire

/-- A batch with its custom metadata; `columns` stands for its content. -/
structure Batch (Columns : Type) where
  metadata : Metadata
  numRows : Nat
  columns : Columns
  deriving DecidableEq

/-! ## The client's request -/

/-- What `RpcClient` puts into every request; `segment` is the name and the size
text of its shared segment. -/
structure ClientOptions where
  protocol : Bytes
  protocolVersion : Bytes
  segment : Option (Bytes × Bytes)

/-- `is_reserved_method`. -/
def isReservedMethod (method : Bytes) : Bool :=
  decide (4 < method.length) && (ascii "__").isPrefixOf method && (ascii "__").isSuffixOf method

/-- `request_metadata`; nothing is sent for a call that names no method, or no
protocol where one is needed. -/
def requestMetadata (options : ClientOptions) (method requestId : Bytes) (extras : Metadata) :
    Option Metadata :=
  if method = [] then
    none
  else if options.protocol = [] ∧ isReservedMethod method = false then
    none
  else
    let named := (stripTransportControls extras).replace Keys.method method
    let routed :=
      if isReservedMethod method then named else named.replace Keys.protocol options.protocol
    let identified :=
      (routed.replace Keys.requestVersion (ascii "1")).replace Keys.requestId requestId
    let versioned :=
      if options.protocolVersion = [] then identified
      else identified.replace Keys.protocolVersion options.protocolVersion
    match options.segment with
    | none => some versioned
    | some (name, size) =>
        some ((versioned.replace Keys.shmSegmentName (name.dropWhile (· = 0x2f))).replace
          Keys.shmSegmentSize size)

/-! ## The server's ladder -/

inductive MethodType where
  | unary
  | stream
  deriving DecidableEq, Repr

/-- A registered method; `acceptsParams` is `parameter_contract_error` of its schema. -/
structure MethodInfo (Columns : Type) where
  methodType : MethodType
  acceptsParams : Columns → Bool

structure ServedProtocol (Columns : Type) where
  name : Bytes
  version : Bytes
  methods : List (Bytes × MethodInfo Columns)

/-- The protocols of a server; the first one always exists. -/
structure Server (Columns : Type) where
  primary : ServedProtocol Columns
  others : List (ServedProtocol Columns)

/-- Why a request is answered with an error before any handler runs. -/
inductive Refusal where
  | missingMethod
  | missingVersion
  | unsupportedVersion
  | protocolNotSpecified
  | protocolNotSupported
  | versionMismatch
  | retiredDescribe
  | unknownMethod
  | shmPointer
  | parameterContract
  deriving DecidableEq, Repr

/-- What the server does with a request. -/
inductive Dispatch where
  | refused (reason : Refusal)
  /-- One of the two protocols that the framework hosts itself. -/
  | framework
  | unary
  | stream
  deriving DecidableEq, Repr

/-- One number of a version: no leading zero, at most nine digits. -/
def takeNumber (text : Bytes) : Option (Nat × Bytes) :=
  let digits := text.takeWhile fun byte => 0x30 ≤ byte ∧ byte ≤ 0x39
  if digits = [] ∨ (1 < digits.length ∧ digits.head? = some 0x30) ∨ 9 < digits.length then
    none
  else
    some (digits.foldl (fun value byte => 10 * value + (byte.toNat - 0x30)) 0,
      text.drop digits.length)

/-- `parse_semver`. -/
def parseSemver (version : Bytes) : Option (Nat × Nat × Nat) := do
  let (major, rest) ← takeNumber version
  let rest ← if rest.head? = some 0x2e then some rest.tail else none
  let (minor, rest) ← takeNumber rest
  let rest ← if rest.head? = some 0x2e then some rest.tail else none
  let (patch, rest) ← takeNumber rest
  if rest = [] then some (major, minor, patch) else none

/-- `protocol_version_error` is not empty. -/
def protocolVersionError {Columns : Type} (protocol : ServedProtocol Columns)
    (metadata : Metadata) : Bool :=
  if protocol.version = [] then
    false
  else if metadata.has Keys.protocolVersion = false then
    true
  else
    match parseSemver (metadata.value Keys.protocolVersion), parseSemver protocol.version with
    | some (major, minor, _), some (expectedMajor, expectedMinor, _) =>
        decide ((major, minor) ≠ (expectedMajor, expectedMinor))
    | _, _ => true

namespace Server

variable {Columns : Type} (server : Server Columns)

/-- `find_protocol`. -/
def findProtocol (name : Bytes) : Option (ServedProtocol Columns) :=
  (server.primary :: server.others).find? fun protocol => protocol.name ≠ [] ∧ protocol.name = name

/-- The binding that a request for an application method resolves to. -/
def target (method : Bytes) (metadata : Metadata) : Except Refusal (ServedProtocol Columns) :=
  if (ascii "__").isPrefixOf method = false ∧ server.primary.name ≠ [] then
    if metadata.value Keys.protocol = [] then
      .error .protocolNotSpecified
    else
      match server.findProtocol (metadata.value Keys.protocol) with
      | none => .error .protocolNotSupported
      | some protocol => .ok protocol
  else
    .ok server.primary

/-- `is_shm_pointer_batch`. -/
def isShmPointer (batch : Batch Columns) : Bool :=
  decide (batch.numRows = 0) && batch.metadata.has Keys.shmOffset &&
    !batch.metadata.has Keys.logLevel

/-- The ladder of `serve_one_with_state`; `resolved` is what the attached segment
holds for a pointer batch, if anything. -/
def dispatch (resolved : Option Columns) (batch : Batch Columns) : Dispatch :=
  let method := batch.metadata.value Keys.method
  let version := batch.metadata.value Keys.requestVersion
  let protocol := batch.metadata.value Keys.protocol
  if method = [] then .refused .missingMethod
  else if version = [] then .refused .missingVersion
  else if version ≠ ascii "1" then .refused .unsupportedVersion
  else if protocol = ascii "vgi_rpc.Reflection.v1" ∨ protocol = ascii "vgi_rpc.Identity.v2" then
    .framework
  else
    match server.target method batch.metadata with
    | .error reason => .refused reason
    | .ok target =>
        if (ascii "__").isPrefixOf method = false ∧ protocolVersionError target batch.metadata then
          .refused .versionMismatch
        else
          match target.methods.lookup method with
          | none =>
              .refused (if method = ascii "__describe__" then .retiredDescribe else .unknownMethod)
          | some info =>
              match if isShmPointer batch then resolved else some batch.columns with
              | none => .refused .shmPointer
              | some columns =>
                  if info.acceptsParams columns = false then .refused .parameterContract
                  else
                    match info.methodType with
                    | .unary => .unary
                    | .stream => .stream

end Server

end VgiRpc.Raw
