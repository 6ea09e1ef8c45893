import VgiRpc.Cpp.Text

/-!
# Routing of request paths

`route_path`: the path behind the prefix names a reserved method, or a protocol and
one of its methods, with an optional `/init` or `/exchange` behind it.
-/

namespace VgiRpc.Http

open VgiRpc.Cpp

inductive RouteTarget where
  | reserved
  | reflection
  | identity
  | application
  deriving DecidableEq, Repr

inductive RouteError where
  | none
  | notFound
  | protocolNotSupported
  deriving DecidableEq, Repr

/-- A routing decision.  The protocol is empty for a reserved path. -/
structure RoutedRequest where
  error : RouteError
  target : RouteTarget
  protocol : Bytes
  method : Bytes
  isInit : Bool
  isExchange : Bool
  deriving DecidableEq, Repr

/-- The part of `Server` that routing asks: which protocols are hosted. -/
structure Hosting where
  hosts : Bytes → Bool
  hostsIdentity : Bool

def kReflectionProtocolName : Bytes := ascii "vgi_rpc.Reflection.v1"

def kIdentityProtocolName : Bytes := ascii "vgi_rpc.Identity.v2"

/-- A server-level name, between two underscores on either side. -/
def isReservedMethod (name : Bytes) : Bool :=
  decide (name.length > 4) && name.take 2 == ascii "__" &&
    name.drop (name.length - 2) == ascii "__"

/-- `[A-Za-z_][A-Za-z0-9_.]*`, at most 255 bytes. -/
def isProtocolName : Bytes → Bool
  | [] => false
  | lead :: rest =>
      decide (rest.length + 1 ≤ 255) && (isAlpha lead || lead == 0x5f) &&
        rest.all fun byte => isAlnum byte || byte == 0x5f || byte == 0x2e

/-- The segments between slashes. -/
def splitPath (path : Bytes) : List Bytes := path.splitOn 0x2f

def RoutedRequest.notFound : RoutedRequest := ⟨.notFound, .reserved, [], [], false, false⟩

/-- The suffix of a path: nothing, `init` or `exchange`, and nothing behind it. -/
def takeSuffix : List Bytes → Option (Bool × Bool)
  | [] => some (false, false)
  | [segment] =>
      if segment = ascii "init" then some (true, false)
      else if segment = ascii "exchange" then some (false, true)
      else none
  | _ => none

/-- Route a path. -/
def routePath (server : Hosting) (path : Bytes) : RoutedRequest :=
  match splitPath path with
  | [] => .notFound
  | first :: rest =>
      if first = [] then .notFound
      else if isReservedMethod first then
        match takeSuffix rest with
        | none => { RoutedRequest.notFound with method := first }
        | some (isInit, isExchange) => ⟨.none, .reserved, [], first, isInit, isExchange⟩
      else
        match rest with
        | [] => .notFound
        | method :: suffix =>
            if method = [] then .notFound
            else if 0x25 ∈ first then .notFound
            else if isProtocolName first = false then .notFound
            else
              match takeSuffix suffix with
              | none => { RoutedRequest.notFound with protocol := first, method := method }
              | some (isInit, isExchange) =>
                  if first = kReflectionProtocolName then
                    ⟨.none, .reflection, first, method, isInit, isExchange⟩
                  else if first = kIdentityProtocolName ∧ server.hostsIdentity = true then
                    ⟨.none, .identity, first, method, isInit, isExchange⟩
                  else if server.hosts first then
                    ⟨.none, .application, first, method, isInit, isExchange⟩
                  else ⟨.protocolNotSupported, .reserved, first, method, isInit, isExchange⟩

/-- The characters of a protocol name. -/
def isProtocolByte (byte : UInt8) : Bool := isAlnum byte || byte == 0x5f || byte == 0x2e

theorem isProtocolByte_of_mem {name : Bytes} (valid : isProtocolName name = true) {byte : UInt8}
    (mem : byte ∈ name) : isProtocolByte byte = true := by
  cases name with
  | nil => simp at mem
  | cons lead rest =>
      rw [isProtocolName, Bool.and_eq_true, Bool.and_eq_true, List.all_eq_true] at valid
      rcases List.mem_cons.mp mem with rfl | mem
      · have first := valid.1.2
        rw [Bool.or_eq_true] at first
        rw [isProtocolByte, isAlnum]
        rcases first with alpha | underscore
        · simp [alpha]
        · simp [underscore]
      · exact valid.2 byte mem

/-- A routing decision names a protocol of the grammar, or none. -/
theorem routePath_protocol (server : Hosting) (path : Bytes) :
    (routePath server path).protocol = [] ∨
      isProtocolName (routePath server path).protocol = true := by
  unfold routePath
  split
  next => exact .inl rfl
  next first rest shape =>
    split
    next => exact .inl rfl
    next =>
      split
      next =>
        split
        next => exact .inl rfl
        next => exact .inl rfl
      next =>
        split
        next => exact .inl rfl
        next =>
          split
          next => exact .inl rfl
          next =>
            split
            next => exact .inl rfl
            next =>
              split
              next => exact .inl rfl
              next valid =>
                rw [Bool.not_eq_false] at valid
                right
                split
                next => exact valid
                next =>
                  split
                  next => exact valid
                  next =>
                    split
                    next => exact valid
                    next =>
                      split
                      next => exact valid
                      next => exact valid

end VgiRpc.Http
