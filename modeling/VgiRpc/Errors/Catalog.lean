import VgiRpc.Cpp.JsonText

/-!
# Codes and the detail catalog

The canonical codes of `errors.cpp`, the typed details an error may carry, and their JSON
form in both directions.
-/

namespace VgiRpc.Errors

open VgiRpc.Cpp VgiRpc.Lib

/-! ## Codes -/

inductive Code where
  | cancelled
  | unknown
  | invalidArgument
  | deadlineExceeded
  | notFound
  | alreadyExists
  | permissionDenied
  | resourceExhausted
  | failedPrecondition
  | aborted
  | outOfRange
  | unimplemented
  | internal
  | unavailable
  | dataLoss
  | unauthenticated
  deriving DecidableEq, Repr

/-- `kCodes`. -/
def codes : List (Code × Bytes) :=
  [(.cancelled, ascii "CANCELLED"), (.unknown, ascii "UNKNOWN"),
    (.invalidArgument, ascii "INVALID_ARGUMENT"), (.deadlineExceeded, ascii "DEADLINE_EXCEEDED"),
    (.notFound, ascii "NOT_FOUND"), (.alreadyExists, ascii "ALREADY_EXISTS"),
    (.permissionDenied, ascii "PERMISSION_DENIED"),
    (.resourceExhausted, ascii "RESOURCE_EXHAUSTED"),
    (.failedPrecondition, ascii "FAILED_PRECONDITION"), (.aborted, ascii "ABORTED"),
    (.outOfRange, ascii "OUT_OF_RANGE"), (.unimplemented, ascii "UNIMPLEMENTED"),
    (.internal, ascii "INTERNAL"), (.unavailable, ascii "UNAVAILABLE"),
    (.dataLoss, ascii "DATA_LOSS"), (.unauthenticated, ascii "UNAUTHENTICATED")]

/-- `code_name`. -/
def codeName (code : Code) : Bytes :=
  match codes.find? fun entry => entry.1 = code with
  | some entry => entry.2
  | none => ascii "UNKNOWN"

/-- `code_from_name`. -/
def codeFromName (name : Bytes) : Option Code :=
  (codes.find? fun entry => name = entry.2).map Prod.fst

/-- `parse_code`. -/
def parseCode (name : Bytes) : Code := (codeFromName name).getD .unknown

/-- `kKinds`. -/
def kindCodes : List (Bytes × Code) :=
  [(ascii "method_not_implemented", .unimplemented),
    (ascii "protocol_not_supported", .unimplemented),
    (ascii "protocol_not_specified", .invalidArgument),
    (ascii "protocol_version_mismatch", .failedPrecondition),
    (ascii "session_lost", .aborted),
    (ascii "server_draining", .unavailable),
    (ascii "identity_unavailable", .unavailable),
    (ascii "stale_auth", .unauthenticated),
    (ascii "introspection_refused", .permissionDenied),
    (ascii "grant_refused", .permissionDenied),
    (ascii "token_unresolved", .notFound)]

/-- `default_error_code`. -/
def defaultErrorCode (exceptionType kind : Bytes) : Code :=
  if kind ≠ [] then
    match kindCodes.find? fun entry => kind = entry.1 with
    | some entry => entry.2
    | none => .unknown
  else if exceptionType = ascii "ResponseTooLargeError" then
    .resourceExhausted
  else if exceptionType = ascii "AuthUnavailableError" then
    .unavailable
  else
    .unknown

/-- Every code is read back from its name. -/
theorem parseCode_codeName (code : Code) : parseCode (codeName code) = code := by
  cases code <;> decide

theorem codeName_ne_nil (code : Code) : codeName code ≠ [] := by
  cases code <;> decide

/-! ## The catalog -/

structure FieldViolation where
  field : Bytes
  description : Bytes
  deriving DecidableEq

structure PreconditionViolation where
  type : Bytes
  subject : Bytes
  description : Bytes
  deriving DecidableEq

structure QuotaViolation where
  subject : Bytes
  description : Bytes
  deriving DecidableEq

structure HelpLink where
  description : Bytes
  url : Bytes
  deriving DecidableEq

/-- `ErrorDetail`.  The delay of a `RetryInfo` is a double by its bits. -/
inductive ErrorDetail where
  | errorInfo (metadata : OrderedMap Bytes Bytes)
  | retryInfo (retryDelaySeconds : UInt64)
  | badRequest (fieldViolations : List FieldViolation)
  | preconditionFailure (violations : List PreconditionViolation)
  | quotaFailure (violations : List QuotaViolation)
  | resourceInfo (resourceType resourceName owner description : Bytes)
  | help (links : List HelpLink)
  | localizedMessage (locale message : Bytes)

/-- `kReservedProtocolPrefix`. -/
def reservedProtocolPrefix : Bytes := ascii "vgi_rpc."

namespace DetailType

def errorInfo : Bytes := ascii "vgi_rpc.ErrorInfo"
def retryInfo : Bytes := ascii "vgi_rpc.RetryInfo"
def badRequest : Bytes := ascii "vgi_rpc.BadRequest"
def preconditionFailure : Bytes := ascii "vgi_rpc.PreconditionFailure"
def quotaFailure : Bytes := ascii "vgi_rpc.QuotaFailure"
def resourceInfo : Bytes := ascii "vgi_rpc.ResourceInfo"
def help : Bytes := ascii "vgi_rpc.Help"
def localizedMessage : Bytes := ascii "vgi_rpc.LocalizedMessage"

end DetailType

/-- The `@type` of a detail. -/
def ErrorDetail.type : ErrorDetail → Bytes
  | .errorInfo .. => DetailType.errorInfo
  | .retryInfo .. => DetailType.retryInfo
  | .badRequest .. => DetailType.badRequest
  | .preconditionFailure .. => DetailType.preconditionFailure
  | .quotaFailure .. => DetailType.quotaFailure
  | .resourceInfo .. => DetailType.resourceInfo
  | .help .. => DetailType.help
  | .localizedMessage .. => DetailType.localizedMessage

/-- `in_catalog`. -/
def inCatalog (type : Bytes) : Bool :=
  [DetailType.errorInfo, DetailType.retryInfo, DetailType.badRequest,
    DetailType.preconditionFailure, DetailType.quotaFailure, DetailType.resourceInfo,
    DetailType.help, DetailType.localizedMessage].contains type

/-! ## To JSON -/

/-- `delay_value`. -/
def delayValue (seconds : UInt64) : Json :=
  if Json.isFinite seconds && Double.isWhole seconds &&
      decide (|Double.value seconds| < 9000000000000000) then
    .integer ⌊Double.value seconds⌋
  else
    .float seconds

/-- An object of strings. -/
def stringFields (fields : List (Bytes × Bytes)) : Json :=
  Json.make (fields.map fun field => (field.1, .string field.2))

def FieldViolation.toJson (violation : FieldViolation) : Json :=
  stringFields [(ascii "field", violation.field), (ascii "description", violation.description)]

def PreconditionViolation.toJson (violation : PreconditionViolation) : Json :=
  stringFields
    [(ascii "type", violation.type), (ascii "subject", violation.subject),
      (ascii "description", violation.description)]

def QuotaViolation.toJson (violation : QuotaViolation) : Json :=
  stringFields
    [(ascii "subject", violation.subject), (ascii "description", violation.description)]

def HelpLink.toJson (link : HelpLink) : Json :=
  stringFields [(ascii "description", link.description), (ascii "url", link.url)]

/-- `to_json` of a detail with an array of objects. -/
def listDetail (type key : Bytes) (items : List Json) : Json :=
  Json.make [(ascii "@type", .string type), (key, .array items)]

/-- `detail_to_json`. -/
def detailToJson : ErrorDetail → Json
  | .errorInfo metadata =>
      Json.make
        [(ascii "@type", .string DetailType.errorInfo),
          (ascii "metadata", stringFields metadata.entries)]
  | .retryInfo seconds =>
      Json.make
        [(ascii "@type", .string DetailType.retryInfo),
          (ascii "retry_delay_seconds", delayValue seconds)]
  | .badRequest violations =>
      listDetail DetailType.badRequest (ascii "field_violations")
        (violations.map FieldViolation.toJson)
  | .preconditionFailure violations =>
      listDetail DetailType.preconditionFailure (ascii "violations")
        (violations.map PreconditionViolation.toJson)
  | .quotaFailure violations =>
      listDetail DetailType.quotaFailure (ascii "violations") (violations.map QuotaViolation.toJson)
  | .resourceInfo resourceType resourceName owner description =>
      stringFields
        [(ascii "@type", DetailType.resourceInfo), (ascii "resource_type", resourceType),
          (ascii "resource_name", resourceName), (ascii "owner", owner),
          (ascii "description", description)]
  | .help links => listDetail DetailType.help (ascii "links") (links.map HelpLink.toJson)
  | .localizedMessage locale message =>
      stringFields
        [(ascii "@type", DetailType.localizedMessage), (ascii "locale", locale),
          (ascii "message", message)]

/-! ## From JSON -/

/-- `read_str`: an absent field reads as empty. -/
def readStr (object : Json) (key : Bytes) : Option Bytes :=
  match object.find key with
  | none => some []
  | some value => value.text?

/-- `read_objects`: an absent array reads as empty. -/
def readObjects (object : Json) (key : Bytes) : Option (List Json) :=
  match object.find key with
  | none => some []
  | some (.array items) => if items.all Json.isObject then some items else none
  | some _ => none

/-- `ErrorInfo::from_json`. -/
def readErrorInfo (object : Json) : Option ErrorDetail :=
  match object.find (ascii "metadata") with
  | none => some (.errorInfo (OrderedMap.ofEntries []))
  | some (.object members) => do
      let entries ← members.mapM fun member => member.2.text?.map fun text => (member.1, text)
      return .errorInfo (OrderedMap.ofEntries entries)
  | some _ => none

/-- `RetryInfo::from_json`. -/
def readRetryInfo (object : Json) : Option ErrorDetail := do
  let seconds ← (← object.find (ascii "retry_delay_seconds")).number?
  if !Json.isFinite seconds || decide (Double.value seconds < 0) then
    none
  else
    return .retryInfo seconds

def readFieldViolation (item : Json) : Option FieldViolation := do
  return ⟨← readStr item (ascii "field"), ← readStr item (ascii "description")⟩

def readPreconditionViolation (item : Json) : Option PreconditionViolation := do
  return ⟨← readStr item (ascii "type"), ← readStr item (ascii "subject"),
    ← readStr item (ascii "description")⟩

def readQuotaViolation (item : Json) : Option QuotaViolation := do
  return ⟨← readStr item (ascii "subject"), ← readStr item (ascii "description")⟩

def readHelpLink (item : Json) : Option HelpLink := do
  return ⟨← readStr item (ascii "description"), ← readStr item (ascii "url")⟩

/-- `from_json` of a detail with an array of objects. -/
def readList {α : Type} (object : Json) (key : Bytes) (read : Json → Option α) :
    Option (List α) := do
  (← readObjects object key).mapM read

def readResourceInfo (object : Json) : Option ErrorDetail := do
  return .resourceInfo (← readStr object (ascii "resource_type"))
    (← readStr object (ascii "resource_name")) (← readStr object (ascii "owner"))
    (← readStr object (ascii "description"))

def readLocalizedMessage (object : Json) : Option ErrorDetail := do
  return .localizedMessage (← readStr object (ascii "locale")) (← readStr object (ascii "message"))

/-- `parse_error_detail`. -/
def parseErrorDetail (object : Json) : Option ErrorDetail := do
  let type ← (← object.find (ascii "@type")).text?
  if type = DetailType.errorInfo then
    readErrorInfo object
  else if type = DetailType.retryInfo then
    readRetryInfo object
  else if type = DetailType.badRequest then
    return .badRequest (← readList object (ascii "field_violations") readFieldViolation)
  else if type = DetailType.preconditionFailure then
    return .preconditionFailure (← readList object (ascii "violations") readPreconditionViolation)
  else if type = DetailType.quotaFailure then
    return .quotaFailure (← readList object (ascii "violations") readQuotaViolation)
  else if type = DetailType.resourceInfo then
    readResourceInfo object
  else if type = DetailType.help then
    return .help (← readList object (ascii "links") readHelpLink)
  else if type = DetailType.localizedMessage then
    readLocalizedMessage object
  else
    none

end VgiRpc.Errors
