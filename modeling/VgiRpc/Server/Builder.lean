import VgiRpc.Http.Route
import VgiRpc.Protocol.Reflection
import VgiRpc.Raw.Dispatch

/-!
# Building a server

`ProtocolBuilder` and `ServerBuilder`: the protocols and methods that a server is built with.
-/

namespace VgiRpc.Server

open VgiRpc.Cpp

/-- What is thrown on registration and by `build`. -/
inductive BuildError where
  | duplicateMethod (name : Bytes)
  | reservedProtocol (name : Bytes)
  | invalidProtocol (name : Bytes)
  | duplicateProtocol (name : Bytes)
  | unnamedPrimary
  | invalidVersion (version name : Bytes)
  deriving DecidableEq, Repr

/-- The text that is thrown; `site` is the registration that it names. -/
def BuildError.what (site : Bytes) : BuildError → Bytes
  | .duplicateMethod name => ascii "Duplicate method name: '" ++ name ++ ascii "'"
  | .reservedProtocol name => site ++ ascii ": protocol name '" ++ name ++
      ascii "' uses the reserved 'vgi_rpc.' prefix, which belongs to framework protocols"
  | .invalidProtocol name => site ++ ascii ": protocol name '" ++ name ++
      ascii "' is not a valid routing key ([A-Za-z_][A-Za-z0-9_.]*)"
  | .duplicateProtocol name => site ++ ascii ": protocol '" ++ name ++
      ascii "' is registered more than once"
  | .unnamedPrimary => ascii ("ServerBuilder::add_protocol: hosting more than one application " ++
      "protocol requires the primary to declare its name with ServerBuilder::protocol(); without " ++
      "one there is no routing key to tell the protocols apart")
  | .invalidVersion version name => ascii "Invalid protocol version '" ++ version ++
      ascii "' for protocol '" ++ name ++ ascii ("': expected canonical semver MAJOR.MINOR.PATCH " ++
      "with non-negative integers and no leading zeros (no prereleases or build metadata).")

/-! ## Protocols -/

/-- A registered method, with the check of its parameters. -/
structure Registered (Columns : Type) where
  info : Protocol.MethodInfo
  acceptsParams : Columns → Bool

variable {Columns : Type}

namespace Registered

def name (method : Registered Columns) : Bytes := method.info.name

def servedType : Protocol.MethodType → Raw.MethodType
  | .unary => .unary
  | .stream => .stream

/-- Its entry in the table that requests are looked up in. -/
def entry (method : Registered Columns) : Bytes × Raw.MethodInfo Columns :=
  (method.name, ⟨servedType method.info.methodType, method.acceptsParams⟩)

end Registered

/-- A protocol and its methods, each name once. -/
structure ProtocolBuilder (Columns : Type) where
  name : Bytes
  version : Bytes
  methods : List (Registered Columns)
  distinct : (methods.map Registered.name).Nodup

namespace ProtocolBuilder

def empty (name version : Bytes) : ProtocolBuilder Columns := ⟨name, version, [], List.nodup_nil⟩

/-- `add_unary`, `add_void`, `add_producer` and `add_exchange`, behind `check_duplicate`. -/
def add (builder : ProtocolBuilder Columns) (method : Registered Columns) :
    Except BuildError (ProtocolBuilder Columns) :=
  if fresh : method.name ∈ builder.methods.map Registered.name then
    .error (.duplicateMethod method.name)
  else
    .ok { builder with
      methods := builder.methods ++ [method]
      distinct := by
        rw [List.map_append, List.nodup_append]
        refine ⟨builder.distinct, List.nodup_singleton _, ?_⟩
        rintro name listed other member rfl
        rw [List.mem_singleton.mp member] at listed
        exact fresh listed }

/-- An entry of the table, set to a method. -/
def set (builder : ProtocolBuilder Columns) (method : Registered Columns) :
    ProtocolBuilder Columns where
  name := builder.name
  version := builder.version
  methods := builder.methods.filter (fun other => other.name ≠ method.name) ++ [method]
  distinct := by
    rw [List.map_append, List.nodup_append]
    refine ⟨builder.distinct.sublist (List.filter_sublist.map _), List.nodup_singleton _, ?_⟩
    rintro name listed other member rfl
    rcases List.mem_map.mp listed with ⟨kept, inFilter, same⟩
    rw [List.mem_singleton.mp member] at same
    exact of_decide_eq_true (List.mem_filter.mp inFilter).2 same

/-- The `ServedProtocol` that it becomes. -/
def served (builder : ProtocolBuilder Columns) : Raw.ServedProtocol Columns :=
  ⟨builder.name, builder.version, builder.methods.map Registered.entry⟩

/-- The names in its description. -/
def describedMethods (builder : ProtocolBuilder Columns) : List Bytes :=
  (Protocol.ordered (builder.methods.map Registered.info)).map Protocol.MethodInfo.name

end ProtocolBuilder

/-! ## Servers -/

structure ServerBuilder (Columns : Type) where
  primary : ProtocolBuilder Columns
  extraProtocols : List (ProtocolBuilder Columns)
  /-- The check of the parameters of `__transport_options__`, if that is enabled. -/
  transportOptions : Option (Columns → Bool)
  /-- The methods that the identity implementation offers, if there is one. -/
  identity : Option (List Bytes)

/-- A server as it was built. -/
structure BuiltServer (Columns : Type) where
  primary : ProtocolBuilder Columns
  others : List (ProtocolBuilder Columns)
  identity : Option (List Bytes)

def kReservedProtocolPrefix : Bytes := ascii "vgi_rpc."

/-- The method of `register_transport_options`. -/
def transportOptionsMethod (acceptsParams : Columns → Bool) : Registered Columns where
  info := ⟨ascii "__transport_options__", .unary, some [], some [], none, true, false⟩
  acceptsParams := acceptsParams

/-- `check_name`; it returns the names that are taken. -/
def checkName (names : List Bytes) (name : Bytes) : Except BuildError (List Bytes) :=
  if kReservedProtocolPrefix.isPrefixOf name then .error (.reservedProtocol name)
  else if Http.isProtocolName name = false then .error (.invalidProtocol name)
  else if name ∈ names then .error (.duplicateProtocol name)
  else .ok (name :: names)

/-- The names of `build`, checked. -/
def checkNames (builder : ServerBuilder Columns) : Except BuildError (List Bytes) := do
  let names ← if builder.primary.name = [] then .ok [] else checkName [] builder.primary.name
  if builder.extraProtocols ≠ [] ∧ builder.primary.name = [] then .error .unnamedPrimary
  else builder.extraProtocols.foldlM (fun names extra => checkName names extra.name) names

/-- The constructor's check of a version. -/
def checkVersion (protocol : ProtocolBuilder Columns) : Except BuildError Unit :=
  if protocol.version ≠ [] ∧ (Raw.parseSemver protocol.version).isNone then
    .error (.invalidVersion protocol.version protocol.name)
  else .ok ()

namespace BuiltServer

/-- `protocols_`. -/
def protocols (server : BuiltServer Columns) : List (ProtocolBuilder Columns) :=
  server.primary :: server.others

/-- What requests are dispatched on. -/
def served (server : BuiltServer Columns) : Raw.Server Columns :=
  ⟨server.primary.served, server.others.map ProtocolBuilder.served⟩

end BuiltServer

/-- `ServerBuilder::build`. -/
def build (builder : ServerBuilder Columns) : Except BuildError (BuiltServer Columns) := do
  let _ ← checkNames builder
  let primary := match builder.transportOptions with
    | none => builder.primary
    | some acceptsParams => builder.primary.set (transportOptionsMethod acceptsParams)
  let server : BuiltServer Columns := ⟨primary, builder.extraProtocols, builder.identity⟩
  server.protocols.forM checkVersion
  return server

end VgiRpc.Server
