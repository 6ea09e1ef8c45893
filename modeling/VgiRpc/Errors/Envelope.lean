import VgiRpc.Errors.Details
import VgiRpc.Identity.Xfcc
import VgiRpc.Wire.Metadata

/-!
# Error envelopes

The metadata of an EXCEPTION batch: the keys that `make_error_metadata` writes and the copy
of them in `log_extra`, and how both clients read them.
-/

namespace VgiRpc.Errors

open VgiRpc.Cpp VgiRpc.Lib VgiRpc.Identity VgiRpc.Wire

namespace Keys

def logExtra : Bytes := ascii "vgi_rpc.log_extra"
def serverId : Bytes := ascii "vgi_rpc.server_id"
def errorKind : Bytes := ascii "vgi_rpc.error_kind"
def errorCode : Bytes := ascii "vgi_rpc.error_code"
def errorDetails : Bytes := ascii "vgi_rpc.error_details"

end Keys

/-! ## Arrays of details -/

/-- `kMaxErrorDetailsBytes`. -/
def kMaxErrorDetailsBytes : Nat := 4096

/-- The `@type` of one element, if the element may stand in an array of details. -/
def detailType (item : Json) : Option Bytes := do
  let type ← (← item.find (ascii "@type")).text?
  if type = [] then
    none
  else if reservedProtocolPrefix.isPrefixOf type && !inCatalog type then
    none
  else if !type.contains 0x2e then
    none
  else
    return type

/-- `error_details_valid`: every element names a type, and no type comes twice. -/
def errorDetailsValid : Json → Bool
  | .array items =>
      match items.mapM detailType with
      | none => false
      | some types => decide types.Nodup
  | _ => false

/-- `encode_error_details`. -/
def encodeErrorDetails (json : JsonText) (details : Json) : Option Bytes := do
  match details with
  | .array (item :: items) =>
      if errorDetailsValid (.array (item :: items)) then
        let text ← json.dump (.array (item :: items))
        if kMaxErrorDetailsBytes < text.length then none else return text
      else
        none
  | _ => none

/-- The elements of an array that are objects. -/
def objectItems : Json → List Json
  | .array items => items.filter Json.isObject
  | _ => []

/-- `decode_error_details`. -/
def decodeErrorDetails (json : JsonText) (raw : Bytes) : List Json :=
  match json.parse raw with
  | some decoded => objectItems decoded
  | none => []

/-! ## Exceptions -/

/-- `details_json`. -/
def detailsJson (details : List ErrorDetail) : Json := .array (details.map detailToJson)

/-- What a handler throws, with the text that `what` points to. -/
inductive HandlerException where
  | kinded (kind exceptionType what : Bytes) (code : Code) (details : Json)
  | invalidArgument (what : Bytes)
  | outOfRange (what : Bytes)
  | logicError (what : Bytes)
  | other (what : Bytes)

namespace HandlerException

def what : HandlerException → Bytes
  | .kinded _ _ what _ _ => what
  | .invalidArgument what => what
  | .outOfRange what => what
  | .logicError what => what
  | .other what => what

/-- `exception_type_of`. -/
def exceptionType : HandlerException → Bytes
  | .kinded _ exceptionType _ _ _ => exceptionType
  | .invalidArgument _ => ascii "ValueError"
  | .outOfRange _ => ascii "IndexError"
  | .logicError _ => ascii "TypeError"
  | .other _ => ascii "RuntimeError"

/-- `error_kind_of`. -/
def kind : HandlerException → Bytes
  | .kinded kind _ _ _ _ => kind
  | _ => []

/-- `error_code_of`. -/
def code : HandlerException → Code
  | .kinded _ _ _ code _ => code
  | _ => .unknown

/-- `error_details_of`. -/
def details : HandlerException → Json
  | .kinded _ _ _ _ details => details
  | _ => .array []

end HandlerException

/-- The constructor of `StatusError` with typed details. -/
def statusError (message : Bytes) (code : Code) (kind : Bytes) (details : List ErrorDetail) :
    Except String HandlerException :=
  if errorDetailsValid (detailsJson details) then
    .ok (.kinded kind (ascii "StatusError") message code (detailsJson details))
  else
    .error ("error details break a catalog rule: every detail must name a qualified '@type', " ++
      "each type may appear once, and the reserved 'vgi_rpc.' prefix holds only the catalog " ++
      "(a protocol-defined type lives under its own protocol's name)")

/-! ## Writing -/

/-- `wire_safe_text`. -/
def wireSafeText (json : JsonText) (text : Bytes) : Option Bytes := do
  (← json.parse (json.dumpReplacing (.string text))).text?

structure ErrorExtras where
  code : Bytes
  details : Json
  traceback : Bytes

/-- `TracebackScope`. -/
structure TracebackScope where
  /-- `include`. -/
  included : Bool
  /-- `where`. -/
  location : Bytes

/-- `cpp_traceback`. -/
def cppTraceback (exceptionType message location : Bytes) : Bytes :=
  ascii "Traceback (C++ exception; no stack captured):" ++ [0x0a] ++
    (if location ≠ [] then ascii "  in " ++ location ++ [0x0a] else []) ++
      exceptionType ++ ascii ": " ++ message

/-- The code that an envelope carries. -/
def envelopeCode (exceptionType kind code : Bytes) : Bytes :=
  if code = [] then codeName (defaultErrorCode exceptionType kind) else codeName (parseCode code)

/-- The traceback of an envelope, before it is made safe for the wire. -/
def envelopeTraceback (scope : Option TracebackScope) (exceptionType message traceback : Bytes) :
    Bytes :=
  if traceback = [] then
    match scope with
    | some scope =>
        if scope.included then cppTraceback exceptionType message scope.location else []
    | none => []
  else
    traceback

/-- An empty traceback is not written. -/
def wireSafeTraceback (json : JsonText) (traceback : Bytes) : Option Bytes :=
  if traceback ≠ [] then wireSafeText json traceback else some []

/-- The object of `log_extra`. -/
def errorExtra (json : JsonText) (safeType safeMessage safeKind code safeTraceback : Bytes)
    (details : Json) : Json :=
  Json.make
    ([(ascii "exception_type", .string safeType), (ascii "exception_message", .string safeMessage),
        (ascii "error_code", .string code)] ++
      (if safeKind ≠ [] then [(ascii "error_kind", .string safeKind)] else []) ++
      (if (encodeErrorDetails json details).isSome then [(ascii "error_details", details)]
        else []) ++
      (if safeTraceback ≠ [] then [(ascii "traceback", .string safeTraceback)] else []))

/-- `make_error_metadata`; it fails where the library throws. -/
def makeErrorMetadata (json : JsonText) (scope : Option TracebackScope)
    (exceptionType message serverId requestId kind : Bytes) (extras : ErrorExtras) :
    Option Metadata := do
  let safeType ← wireSafeText json exceptionType
  let safeMessage ← wireSafeText json message
  let safeKind ← wireSafeText json kind
  let code := envelopeCode exceptionType kind extras.code
  let traceback := envelopeTraceback scope exceptionType message extras.traceback
  let safeTraceback ← wireSafeTraceback json traceback
  let extra ← json.dump
    (errorExtra json safeType safeMessage safeKind code safeTraceback extras.details)
  return [(Wire.Keys.logLevel, ascii "EXCEPTION"), (Wire.Keys.logMessage, safeMessage),
      (Keys.logExtra, extra)] ++
    (if serverId ≠ [] then [(Keys.serverId, serverId)] else []) ++
    (if requestId ≠ [] then [(Wire.Keys.requestId, requestId)] else []) ++
    [(Keys.errorCode, code)] ++
    (if safeKind ≠ [] then [(Keys.errorKind, safeKind)] else []) ++
    ((encodeErrorDetails json extras.details).toList.map fun text => (Keys.errorDetails, text))

/-- `make_exception_metadata`. -/
def makeExceptionMetadata (json : JsonText) (scope : Option TracebackScope)
    (thrown : HandlerException) (serverId requestId traceback : Bytes) : Option Metadata :=
  makeErrorMetadata json scope thrown.exceptionType thrown.what serverId requestId thrown.kind
    ⟨codeName thrown.code, thrown.details, traceback⟩

/-! ## Reading -/

/-- `RemoteStatus`; its details are an array. -/
structure RemoteStatus where
  errorCode : Bytes
  errorKind : Bytes
  errorDetails : List Json
  remoteTraceback : Bytes

/-- `RemoteStatus::code`. -/
def RemoteStatus.code (status : RemoteStatus) : Code := parseCode status.errorCode

/-- `RemoteStatus::details`. -/
def RemoteStatus.details (status : RemoteStatus) : List ErrorDetail :=
  status.errorDetails.filterMap parseErrorDetail

/-- `top` of `decode_remote_status`. -/
def top (metadata : Metadata) (key : Bytes) : Option Bytes :=
  (metadata.find? fun entry => entry.1 = key).map Prod.snd

/-- `mirrored` of `decode_remote_status`. -/
def mirrored (extra : Json) (key : Bytes) : Bytes := ((extra.find key).bind Json.text?).getD []

/-- `decode_remote_status`; no metadata are empty metadata. -/
def decodeRemoteStatus (json : JsonText) (metadata : Metadata) (extra : Json) : RemoteStatus where
  errorCode := (top metadata Keys.errorCode).getD (mirrored extra (ascii "error_code"))
  errorKind := (top metadata Keys.errorKind).getD (mirrored extra (ascii "error_kind"))
  errorDetails :=
    match top metadata Keys.errorDetails with
    | some raw => decodeErrorDetails json raw
    | none => ((extra.find (ascii "error_details")).map objectItems).getD []
  remoteTraceback := mirrored extra (ascii "traceback")

/-- An exception of a client. -/
structure RemoteError where
  exceptionType : Bytes
  message : Bytes
  status : RemoteStatus
  serverId : Bytes
  requestId : Bytes

/-- `log_extra`, if it is an object. -/
def extraObject (json : JsonText) (metadata : Metadata) : Option Json :=
  let extra := metadata.value Keys.logExtra
  if extra = [] then none
  else
    match json.parse extra with
    | some object => if object.isObject then some object else none
    | none => none

/-- `remote_exception` of the raw client. -/
def remoteException (json : JsonText) (metadata : Metadata) : RemoteError where
  exceptionType :=
    match (extraObject json metadata).bind fun object => object.find (ascii "exception_type") with
    | some (.string exceptionType) => exceptionType
    | _ => ascii "RemoteError"
  message := (top metadata Wire.Keys.logMessage).getD (ascii "remote RPC exception")
  status := decodeRemoteStatus json metadata ((extraObject json metadata).getD (Json.make []))
  serverId := metadata.value Keys.serverId
  requestId := metadata.value Wire.Keys.requestId

/-- `throw_remote_error` of the HTTP client.  `value` throws on a type that is not a string,
and that is caught. -/
def throwRemoteError (json : JsonText) (metadata : Metadata) : RemoteError where
  exceptionType :=
    match (extraObject json metadata).bind fun object => object.find (ascii "exception_type") with
    | some (.string exceptionType) => exceptionType
    | _ => ascii "RpcError"
  message := (top metadata Wire.Keys.logMessage).getD (ascii "remote RPC error")
  status := decodeRemoteStatus json metadata ((extraObject json metadata).getD (Json.make []))
  serverId := metadata.value Keys.serverId
  requestId := metadata.value Wire.Keys.requestId

inductive ClientKind where
  | raw
  | http
  deriving DecidableEq, Repr

/-- What a client throws for an envelope. -/
def ClientKind.remoteError : ClientKind → JsonText → Metadata → RemoteError
  | .raw => remoteException
  | .http => throwRemoteError

end VgiRpc.Errors
