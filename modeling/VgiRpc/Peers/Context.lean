import VgiRpc.Cpp.JsonText
import VgiRpc.Evidence.Policies
import VgiRpc.Socket.PeerAddress

/-!
# What a peer identity provider sees

`PeerResolutionContext`, the context that the HTTP server makes of a request, and the resolution of
a request's identity from the answers of all configured providers.
-/

namespace VgiRpc.Peers

open VgiRpc.Cpp VgiRpc.Lib VgiRpc.Evidence VgiRpc.Socket
open VgiRpc.Identity hiding PeerIdentityStatus

/-! ## The context -/

def kMaxHeaderFields : Nat := 256
def kMaxHeaderBytes : Nat := 65536

/-- `PeerResolutionContext`.  The deadline is in nanoseconds; zero is the one of a context for which
none was set. -/
structure PeerResolutionContext where
  transport : Bytes
  immediatePeer : Option Bytes := none
  sourceEndpoint : Option Bytes := none
  assertedPeer : Option Bytes := none
  destinationAddress : Option Bytes := none
  authority : Option Bytes := none
  serviceName : Option Bytes := none
  headers : OrderedMap Bytes (List Bytes) := ⟨[], List.Pairwise.nil⟩
  metadata : Json := .object []
  deadline : Int := 0

/-- `require_header_text`. -/
def requireHeaderText (value : Bytes) (field : String) : Except Thrown Unit := do
  requireText value field
  throwIf (∃ byte ∈ value, byte = 0x0d ∨ byte = 0x0a ∨ byte = 0)
    (.rejected (field ++ " contains a control character"))

/-- The loop of `validate` over the headers: the names so far in lower case, and the bytes so far. -/
def validateHeaders (normalized : List Bytes) (headerBytes : Nat) :
    List (Bytes × List Bytes) → Except Thrown Unit
  | [] => .ok ()
  | (name, values) :: rest => do
      throwIf (lowerAscii name ∈ normalized) (.rejected "case-varied duplicate header")
      throwIf (1 < values.length) (.rejected "duplicate peer identity header")
      requireHeaderText name "header name"
      values.forM fun value => requireHeaderText value "header value"
      let headerBytes := headerBytes + name.length + (values.map List.length).sum
      throwIf (kMaxHeaderBytes < headerBytes)
        (.rejected "peer identity headers exceed byte limit")
      validateHeaders (lowerAscii name :: normalized) headerBytes rest

/-- `if (*value) require_text(**value, ...)`. -/
def requireOptionalText : Option Bytes → Except Thrown Unit
  | none => .ok ()
  | some value => requireText value "peer resolution field"

namespace PeerResolutionContext

/-- `PeerResolutionContext::validate`. -/
def validate (dump : Json → Bytes) (context : PeerResolutionContext) : Except Thrown Unit := do
  throwIf (context.transport = []) (.invalidArgument "transport is required")
  requireText context.transport "transport"
  requireOptionalText context.immediatePeer
  requireOptionalText context.sourceEndpoint
  requireOptionalText context.assertedPeer
  requireOptionalText context.destinationAddress
  requireOptionalText context.authority
  requireOptionalText context.serviceName
  validateJsonObject dump context.metadata
  throwIf (kMaxHeaderFields < context.headers.entries.length)
    (.rejected "too many peer identity headers")
  validateHeaders [] 0 context.headers.entries

/-- `PeerResolutionContext::header`. -/
def header (context : PeerResolutionContext) (name : Bytes) : Except Thrown (Option Bytes) :=
  match context.headers.entries.find? fun field => lowerAscii field.1 = lowerAscii name with
  | none => .ok none
  | some (_, []) => .ok none
  | some (_, [value]) => .ok (some value)
  | some (_, _ :: _ :: _) => .error (.rejected "duplicate peer identity header")

end PeerResolutionContext

/-! ## Providers -/

/-- `PeerIdentityProvider`. -/
abbrev PeerIdentityProvider := PeerResolutionContext → Except Thrown PeerIdentityResult

/-- `identity_internal::result`; without identities the result is valid unless it is available. -/
def result (provider : Bytes) (status : PeerIdentityStatus) : PeerIdentityResult := ⟨provider, status, []⟩

/-- `PeerIdentityResult::available`. -/
def available (identity : PeerIdentity) : PeerIdentityResult := ⟨identity.provider, .available, [identity]⟩

/-- `Boundary::trusts`. -/
def trusts (trusted : List IpAddress) (peer : Option Bytes) : Bool :=
  match peer.bind parseExactIp with
  | none => false
  | some address => trusted.contains address

/-- What the providers of identities in headers have in common: only a trusted proxy is listened to,
and every exception behind that is answered as invalid. -/
def behindProxy (dump : Json → Bytes) (provider : Bytes) (trusted : List IpAddress)
    (body : PeerResolutionContext → Except Thrown (PeerIdentityStatus ⊕ PeerIdentity)) :
    PeerIdentityProvider := fun context =>
  if trusts trusted context.immediatePeer = false then .ok (result provider .untrustedProxy)
  else
    match (do context.validate dump; body context : Except Thrown (PeerIdentityStatus ⊕ PeerIdentity)) with
    | .error _ => .ok (result provider .invalid)
    | .ok (.inl status) => .ok (result provider status)
    | .ok (.inr identity) => .ok (available identity)

/-- The loop over the configured addresses, which all have to be exact. -/
def proxyAddresses (what : String) : List Bytes → Except Thrown (List IpAddress)
  | [] => .ok []
  | value :: rest =>
      match parseExactIp value with
      | none => .error (.invalidArgument what)
      | some address => do return address :: (← proxyAddresses what rest)

/-! ## A request over HTTP -/

/-- The parts of `httplib::Request` that identities come from. -/
structure HttpRequest where
  remoteAddr : Bytes
  remotePort : Nat
  localAddr : Bytes
  localPort : Nat
  headers : List (Bytes × Bytes)
  path : Bytes

namespace HttpRequest

/-- The values of a header, whose name is compared without regard to case. -/
def headerValues (request : HttpRequest) (name : Bytes) : List Bytes :=
  (request.headers.filter fun field => lowerAscii field.1 = lowerAscii name).map Prod.snd

/-- `has_header`. -/
def hasHeader (request : HttpRequest) (name : Bytes) : Bool := request.headerValues name ≠ []

/-- `get_header_value`. -/
def getHeaderValue (request : HttpRequest) (name : Bytes) : Bytes := (request.headerValues name).headD []

end HttpRequest

/-- `socket_endpoint` of the HTTP server. -/
def httpEndpoint (address : Bytes) (port : Nat) : Bytes :=
  if 0x3a ∈ address ∧ ¬(address.head? = some 0x5b ∧ address.getLast? = some 0x5d) then
    ascii "[" ++ address ++ ascii "]:" ++ decimal port
  else address ++ ascii ":" ++ decimal port

/-- `headers[name].push_back(value)`. -/
def pushHeader (headers : OrderedMap Bytes (List Bytes)) (field : Bytes × Bytes) :
    OrderedMap Bytes (List Bytes) :=
  ⟨assign headers.entries field.1 ((headers.entries.lookup field.1).getD [] ++ [field.2]),
    headers.increasing.assign _ _⟩

def grouped (fields : List (Bytes × Bytes)) : OrderedMap Bytes (List Bytes) :=
  fields.foldl pushHeader ⟨[], List.Pairwise.nil⟩

/-- The part of `HttpConfig` that identities are resolved by. -/
structure DeploymentConfig where
  stickyHeaderAuth : Bool
  peerServiceName : Option Bytes
  peerIdentityProviders : List (Option PeerIdentityProvider)
  peerIdentityResolutionTimeout : Int
  peerAuthenticationPolicy : Option Policy

/-- The fixture header that `identify` takes a principal from. -/
def principalHeader : Bytes := ascii "X-Conformance-Principal"

def authTimeHeader : Bytes := ascii "X-Conformance-Auth-Time"

/-- `identify`, with the context that `resolve_deployment_identity` makes of its answer. -/
def identify (config : DeploymentConfig) (request : HttpRequest) : AuthContext :=
  if config.stickyHeaderAuth = true ∧ request.hasHeader principalHeader = true ∧
      request.getHeaderValue principalHeader ≠ [] then
    { domain := ascii "conformance"
      authenticated := true
      principal := some (request.getHeaderValue principalHeader)
      claims :=
        if request.hasHeader authTimeHeader = true then
          [(ascii "auth_time", .text (request.getHeaderValue authTimeHeader))]
        else [] }
  else .anonymous

/-- The context of a request. -/
def httpContext (config : DeploymentConfig) (now : Int) (request : HttpRequest) : PeerResolutionContext :=
  let source :=
    if request.remoteAddr = [] then none
    else some (httpEndpoint request.remoteAddr request.remotePort)
  let authority := request.getHeaderValue (ascii "Host")
  { transport := ascii "http"
    immediatePeer := if request.remoteAddr = [] then none else some request.remoteAddr
    sourceEndpoint := source
    destinationAddress :=
      if request.localAddr = [] then none else some (httpEndpoint request.localAddr request.localPort)
    authority := if authority = [] then none else some authority
    serviceName := config.peerServiceName
    headers := grouped request.headers
    metadata := Json.make
      (((source.map fun endpoint => (ascii "remote_addr", .string endpoint)).toList) ++
        [(ascii "request_uri", .string request.path)])
    deadline := now + config.peerIdentityResolutionTimeout }

/-- The address that a request came from. -/
def HttpRequest.sender (request : HttpRequest) : Option Bytes :=
  if request.remoteAddr = [] then none else some request.remoteAddr

/-- One provider of the loop. -/
def askProvider (context : PeerResolutionContext) (provider : Option PeerIdentityProvider) :
    Except Thrown PeerIdentityResult :=
  match provider with
  | none => .error (.rejected "peer identity provider is empty")
  | some provider => do
      let result ← provider context
      result.validate
      return result

/-- `resolve_deployment_identity`. -/
def resolveDeploymentIdentity (dump : Json → Bytes) (config : DeploymentConfig) (now : Int)
    (request : HttpRequest) : Except Thrown (AuthContext × PeerEvidenceSet) := do
  let auth := identify config request
  if config.peerIdentityProviders.isEmpty then return (auth, .empty)
  throwIf (config.peerIdentityResolutionTimeout ≤ 0)
    (.invalidArgument "peer identity resolution timeout must be positive")
  let context := httpContext config now request
  context.validate dump
  let results ← config.peerIdentityProviders.mapM (askProvider context)
  let evidence ← PeerEvidenceSet.new results
  match config.peerAuthenticationPolicy with
  | none => return (auth, evidence)
  | some policy => return (← policy evidence auth, evidence)

/-! ## The headers of a request -/

/-- The values that came under exactly this name. -/
def valuesUnder (fields : List (Bytes × Bytes)) (name : Bytes) : List Bytes :=
  (fields.filter fun field => field.1 = name).map Prod.snd

theorem valuesUnder_snoc (fields : List (Bytes × Bytes)) (field : Bytes × Bytes) (name : Bytes) :
    valuesUnder (fields ++ [field]) name =
      valuesUnder fields name ++ if field.1 = name then [field.2] else [] := by
  rw [valuesUnder, List.filter_append, List.map_append, ← valuesUnder]
  by_cases same : field.1 = name
  · simp [same]
  · simp [same]

theorem mem_valuesUnder {fields : List (Bytes × Bytes)} {field : Bytes × Bytes}
    (listed : field ∈ fields) : field.2 ∈ valuesUnder fields field.1 := by
  apply List.mem_map_of_mem
  exact List.mem_filter.mpr ⟨listed, decide_eq_true rfl⟩

/-- The values of a name are gathered in the order of the fields. -/
theorem lookup_grouped (fields : List (Bytes × Bytes)) (name : Bytes) :
    (grouped fields).entries.lookup name =
      if valuesUnder fields name = [] then none else some (valuesUnder fields name) := by
  induction fields using List.reverseRecOn generalizing name with
  | nil => rfl
  | append_singleton fields field ih =>
      have last : grouped (fields ++ [field]) = pushHeader (grouped fields) field := by
        rw [grouped, List.foldl_append]
        rfl
      have before : ((grouped fields).entries.lookup field.1).getD [] = valuesUnder fields field.1 := by
        rw [ih]
        split
        next none => exact none.symm
        next => rfl
      rw [last, pushHeader, lookup_assign, before, valuesUnder_snoc]
      by_cases same : name = field.1
      · rw [if_pos same, if_pos same.symm, same, if_neg (List.append_ne_nil_of_right_ne_nil _ (List.cons_ne_nil _ _))]
      · rw [if_neg same, if_neg (Ne.symm same), List.append_nil, ih]

theorem mem_grouped {fields : List (Bytes × Bytes)} {name : Bytes} {values : List Bytes}
    (listed : (name, values) ∈ (grouped fields).entries) :
    values = valuesUnder fields name ∧ values ≠ [] := by
  have found := (grouped fields).increasing.lookup_of_mem listed
  rw [lookup_grouped] at found
  split at found
  next => cases found
  next nonempty =>
    cases Option.some.inj found
    exact ⟨rfl, nonempty⟩

/-- The name of every field is in the map. -/
theorem exists_grouped {fields : List (Bytes × Bytes)} {field : Bytes × Bytes}
    (listed : field ∈ fields) : (field.1, valuesUnder fields field.1) ∈ (grouped fields).entries := by
  apply mem_of_lookup
  rw [lookup_grouped, if_neg (List.ne_nil_of_mem (mem_valuesUnder listed))]

/-- Headers that `validate` lets through: no two names differ in case only, and none came twice. -/
theorem validateHeaders_ok {normalized : List Bytes} {headerBytes : Nat}
    {entries : List (Bytes × List Bytes)}
    (passed : validateHeaders normalized headerBytes entries = .ok ()) :
    (∀ entry ∈ entries, lowerAscii entry.1 ∉ normalized ∧ entry.2.length ≤ 1) ∧
      entries.Pairwise fun first second => lowerAscii first.1 ≠ lowerAscii second.1 := by
  induction entries generalizing normalized headerBytes with
  | nil => exact ⟨by simp, List.Pairwise.nil⟩
  | cons entry rest ih =>
      simp only [validateHeaders, bind_eq_ok_iff, throwIf_ok_iff, exists_const] at passed
      rcases passed with ⟨fresh, single, _, -, _, -, -, later⟩
      rcases ih later with ⟨others, distinct⟩
      refine ⟨List.forall_mem_cons.mpr ⟨⟨fresh, not_lt.mp single⟩, ?_⟩, List.pairwise_cons.mpr ⟨?_, distinct⟩⟩
      · intro other listed
        have apart := others other listed
        exact ⟨fun known => apart.1 (List.mem_cons_of_mem _ known), apart.2⟩
      · intro other listed same
        apply (others other listed).1
        rw [← same]
        exact List.mem_cons_self

theorem PeerResolutionContext.validate_ok {dump : Json → Bytes} {context : PeerResolutionContext}
    (passed : context.validate dump = .ok ()) :
    (∀ entry ∈ context.headers.entries, entry.2.length ≤ 1) ∧
      context.headers.entries.Pairwise fun first second =>
        lowerAscii first.1 ≠ lowerAscii second.1 := by
  simp only [PeerResolutionContext.validate, bind_eq_ok_iff, throwIf_ok_iff, exists_const] at passed
  rcases passed with ⟨-, _, -, _, -, _, -, _, -, _, -, _, -, _, -, _, -, -, checked⟩
  rcases validateHeaders_ok checked with ⟨single, distinct⟩
  exact ⟨fun entry listed => (single entry listed).2, distinct⟩

/-- In a request whose context is valid, a header is what was sent under its name, in whatever case. -/
theorem header_httpContext {dump : Json → Bytes} {config : DeploymentConfig} {now : Int}
    {request : HttpRequest} (valid : (httpContext config now request).validate dump = .ok ())
    (name : Bytes) (value : Option Bytes) :
    (httpContext config now request).header name = .ok value ↔
      request.headerValues name = value.toList := by
  rcases PeerResolutionContext.validate_ok valid with ⟨single, distinct⟩
  have headers : (httpContext config now request).headers = grouped request.headers := rfl
  rw [headers] at single distinct
  rw [PeerResolutionContext.header, headers]
  cases found : (grouped request.headers).entries.find? fun field =>
      lowerAscii field.1 = lowerAscii name with
  | none =>
      have absent : request.headerValues name = [] := by
        rw [HttpRequest.headerValues, List.map_eq_nil_iff, List.filter_eq_nil_iff]
        intro field listed same
        exact List.find?_eq_none.mp found _ (exists_grouped listed) same
      rw [absent]
      cases value with
      | none => simp
      | some value => simp
  | some entry =>
      have listed := List.mem_of_find?_eq_some found
      have named : lowerAscii entry.1 = lowerAscii name := by simpa using List.find?_some found
      rcases entry with ⟨known, values⟩
      rcases mem_grouped listed with ⟨gathered, nonempty⟩
      have one : ∃ only, values = [only] :=
        List.length_eq_one_iff.mp (le_antisymm (single _ listed) (List.length_pos_iff.mpr nonempty))
      have symmetric : Std.Symm fun first second : Bytes × List Bytes =>
          lowerAscii first.1 ≠ lowerAscii second.1 := ⟨fun _ _ apart => Ne.symm apart⟩
      -- Another spelling of the name would be a second entry of the map.
      have sent : request.headerValues name = values := by
        rw [gathered, HttpRequest.headerValues, valuesUnder]
        congr 1
        apply List.filter_congr
        intro field among
        rw [decide_eq_decide]
        constructor
        · intro same
          by_contra differs
          have apart := distinct.forall (exists_grouped among) listed
            (fun equal => differs (Prod.mk.inj equal).1)
          exact apart (same.trans named.symm)
        · intro same
          rw [same]
          exact named
      rcases one with ⟨only, rfl⟩
      rw [sent]
      cases value with
      | none => simp
      | some value => simp

/-- In a valid context every header came once at most. -/
theorem exists_header {dump : Json → Bytes} {config : DeploymentConfig} {now : Int}
    {request : HttpRequest} (valid : (httpContext config now request).validate dump = .ok ())
    (name : Bytes) : ∃ value : Option Bytes, request.headerValues name = value.toList := by
  cases read : (httpContext config now request).header name with
  | ok value => exact ⟨value, (header_httpContext valid name value).mp read⟩
  | error thrown =>
      rw [PeerResolutionContext.header] at read
      split at read
      next => cases read
      next => cases read
      next => cases read
      next found =>
        have single := (PeerResolutionContext.validate_ok valid).1 _ (List.mem_of_find?_eq_some found)
        simp at single

end VgiRpc.Peers
