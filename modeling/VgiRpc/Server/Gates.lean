import VgiRpc.Server.Builder

/-!
# Gates of the two transports

What `serve_one_with_state` and `handle_rpc` do with a request up to its method: the binding that
it names, the version gate, and the lookup.
-/

namespace VgiRpc.Server

open VgiRpc.Cpp VgiRpc.Wire

variable {Columns : Type}

/-- What a request resolves to. -/
inductive Resolved (Columns : Type) where
  /-- A protocol that the framework hosts itself. -/
  | framework (protocol : Bytes)
  /-- The endpoint that vends upload URLs. -/
  | uploadUrl
  | method (protocol : Raw.ServedProtocol Columns) (info : Raw.MethodInfo Columns)

/-- The type and the kind that an error carries. -/
structure ErrorFace where
  type : Bytes
  kind : Bytes
  deriving DecidableEq, Repr

namespace ErrorFace

def protocolError : ErrorFace := ⟨ascii "ProtocolError", []⟩
def versionError : ErrorFace := ⟨ascii "VersionError", []⟩
def noRoute : ErrorFace := ⟨ascii "AttributeError", []⟩
def protocolNotSpecified : ErrorFace :=
  ⟨ascii "ProtocolNotSpecifiedError", ascii "protocol_not_specified"⟩
def protocolNotSupported : ErrorFace :=
  ⟨ascii "ProtocolNotSupportedError", ascii "protocol_not_supported"⟩
def versionMismatch : ErrorFace := ⟨ascii "ProtocolVersionError", ascii "protocol_version_mismatch"⟩
def methodNotImplemented : ErrorFace :=
  ⟨ascii "MethodNotImplementedError", ascii "method_not_implemented"⟩

end ErrorFace

/-! ## The raw transport -/

/-- The error of a refusal. -/
def refusalFace : Raw.Refusal → ErrorFace
  | .missingMethod => .protocolError
  | .missingVersion => .versionError
  | .unsupportedVersion => .versionError
  | .protocolNotSpecified => .protocolNotSpecified
  | .protocolNotSupported => .protocolNotSupported
  | .versionMismatch => .versionMismatch
  | .retiredDescribe => .methodNotImplemented
  | .unknownMethod => .methodNotImplemented
  | .shmPointer => .protocolError
  | .parameterContract => .protocolError

/-- The lookup of a method in its binding. -/
def lookupMethod (protocol : Raw.ServedProtocol Columns) (method : Bytes) :
    Except ErrorFace (Resolved Columns) :=
  match protocol.methods.lookup method with
  | none => .error .methodNotImplemented
  | some info => .ok (.method protocol info)

/-- The ladder of `serve_one_with_state`, up to the method. -/
def resolveRaw (server : Raw.Server Columns) (metadata : Metadata) :
    Except ErrorFace (Resolved Columns) :=
  let method := metadata.value Keys.method
  let version := metadata.value Keys.requestVersion
  let protocol := metadata.value Keys.protocol
  if method = [] then .error .protocolError
  else if version ≠ ascii "1" then .error .versionError
  else if protocol = Http.kReflectionProtocolName ∨ protocol = Http.kIdentityProtocolName then
    .ok (.framework protocol)
  else
    match server.target method metadata with
    | .error reason => .error (refusalFace reason)
    | .ok target =>
        if (ascii "__").isPrefixOf method = false ∧ Raw.protocolVersionError target metadata then
          .error .versionMismatch
        else lookupMethod target method

/-- What a dispatched request comes to, behind its method. -/
def afterLookup (isPointer : Bool) (resolved : Option Columns) (columns : Columns)
    (info : Raw.MethodInfo Columns) : Raw.Dispatch :=
  match if isPointer then resolved else some columns with
  | none => .refused .shmPointer
  | some columns =>
      if info.acceptsParams columns = false then .refused .parameterContract
      else
        match info.methodType with
        | .unary => .unary
        | .stream => .stream

/-! ## HTTP -/

/-- What `route_path` asks of a server. -/
def hosting (server : BuiltServer Columns) : Http.Hosting where
  hosts name := (server.served.findProtocol name).isSome
  hostsIdentity := server.identity.isSome

/-- The binding of a route. -/
def routedProtocol (server : BuiltServer Columns) (routed : Http.RoutedRequest) :
    Raw.ServedProtocol Columns :=
  match routed.target with
  | .application => (server.served.findProtocol routed.protocol).getD server.served.primary
  | _ => server.served.primary

/-- The methods that a framework protocol offers. -/
def offeredMethods (server : BuiltServer Columns) (target : Http.RouteTarget) : List Bytes :=
  match target with
  | .reflection => [ascii "describe", ascii "list_protocols"]
  | _ => server.identity.getD []

/-- The checks of an initial request; a continuation carries tokens instead. -/
def checkInitial (server : BuiltServer Columns) (routed : Http.RoutedRequest) (metadata : Metadata) :
    Except ErrorFace Unit :=
  if routed.isExchange then .ok ()
  else if metadata.value Keys.method ≠ routed.method then .error .protocolError
  else if metadata.value Keys.requestVersion ≠ ascii "1" then .error .versionError
  else if routed.target = .application ∧
      Raw.protocolVersionError (routedProtocol server routed) metadata then
    .error .versionMismatch
  else .ok ()

/-- Whether the two carriers of the routing key disagree. -/
def keysDisagree (routed : Http.RoutedRequest) (metadata : Metadata) : Bool :=
  routed.target ≠ .reserved && metadata.value Keys.protocol ≠ [] &&
    metadata.value Keys.protocol ≠ routed.protocol

/-- The lookup of `handle_rpc`: a reserved name on the flat route, an application method under its
protocol. -/
def resolveRouted (server : BuiltServer Columns) (routed : Http.RoutedRequest) :
    Except ErrorFace (Resolved Columns) :=
  if routed.target = .reflection ∨ routed.target = .identity then
    if routed.method ∉ offeredMethods server routed.target ∨ routed.isInit ∨ routed.isExchange then
      .error .methodNotImplemented
    else .ok (.framework routed.protocol)
  else if routed.method = ascii "__upload_url__" ∧ routed.isInit then .ok .uploadUrl
  else if Protocol.isApplicationMethod routed.method = decide (routed.target = .application) then
    lookupMethod (routedProtocol server routed) routed.method
  else .error .methodNotImplemented

/-- `raw_target_path`: the target of a request without its query. -/
def rawTargetPath (target : Bytes) : Bytes := target.takeWhile (· != 0x3f)

/-- `handle_rpc` of a target behind the prefix and the metadata of its request, up to the
method. -/
def resolveHttp (server : BuiltServer Columns) (target : Bytes) (metadata : Metadata) :
    Except ErrorFace (Resolved Columns) :=
  let routed := Http.routePath (hosting server) (rawTargetPath target)
  match routed.error with
  | .notFound => .error .noRoute
  | .protocolNotSupported => .error .protocolNotSupported
  | .none =>
      if keysDisagree routed metadata then .error .protocolNotSupported
      else do
        checkInitial server routed metadata
        resolveRouted server routed

end VgiRpc.Server
