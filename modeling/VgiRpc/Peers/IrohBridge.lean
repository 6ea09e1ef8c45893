import VgiRpc.Peers.Resolution

/-!
# Endpoints that an Iroh bridge forwards

`iroh_forwarded_header_provider`, and a server that takes its principals from it.  Whom the server
admits came from the exact address of a bridge, as the endpoint in the one header of the bridge.
-/

namespace VgiRpc.Peers

open VgiRpc.Cpp VgiRpc.Lib VgiRpc.Evidence VgiRpc.Socket
open VgiRpc.Identity hiding PeerIdentityStatus

/-! ## The provider -/

/-- `kProvider`. -/
def irohProvider : Bytes := ascii "iroh"

/-- `IROH_FORWARDED_ENDPOINT_HEADER`. -/
def irohForwardedEndpointHeader : Bytes := ascii "VGI-Forwarded-Iroh-Endpoint"

/-- `validate_issuer`. -/
def validateIssuer (issuer : Bytes) : Except Thrown Unit :=
  throwIf (issuer = [] ∨ validUtf8 issuer = false ∨ hasControl issuer = true)
    (.invalidArgument "Iroh issuer must be a non-empty Unicode string without controls")

/-- `canonical_endpoint`. -/
def canonicalEndpoint (endpoint : Bytes) : Bool :=
  endpoint.length == 64 && endpoint.all fun value =>
    (0x30 ≤ value && value ≤ 0x39) || (0x61 ≤ value && value ≤ 0x66)

/-- The identity that `forwarded_identity` makes. -/
def forwarded (endpoint issuer transport evidenceSource proxyAddress : Bytes) : PeerIdentity where
  provider := irohProvider
  evidenceSource := evidenceSource
  assurance := .configuredProxy
  issuer := issuer
  transport := transport
  subjectKind := .endpoint
  subjectKey := some endpoint
  subjectStability := .stable
  subjectVerified := true
  attributes := .object [(ascii "original_assurance", .string (ascii "cryptographic_peer"))]
  capabilities := .object []
  capabilitiesVerified := false
  sourceAddress := some endpoint
  proxyAddress := some proxyAddress

/-- `forwarded_identity`. -/
def forwardedIdentity (dump : Json → Bytes)
    (endpoint issuer transport evidenceSource proxyAddress : Bytes) : Except Thrown PeerIdentity := do
  validateIssuer issuer
  throwIf (canonicalEndpoint endpoint = false)
    (.invalidArgument "Iroh EndpointId must be canonical lowercase hexadecimal")
  let identity := forwarded endpoint issuer transport evidenceSource proxyAddress
  identity.check dump
  return identity

/-- `IrohForwardedHeaderOptions`. -/
structure IrohForwardedHeaderOptions where
  issuer : Bytes
  trustedProxyAddresses : List Bytes

/-- The loop over the addresses of the bridges. -/
def bridgeAddresses (trusted : List IpAddress) : List Bytes → Except Thrown (List IpAddress)
  | [] => .ok trusted
  | value :: rest =>
      match parseExactIp value with
      | none =>
          .error (.invalidArgument "Iroh bridge address is not an exact IPv4 or IPv6 address")
      | some address => do
          throwIf (address ∈ trusted) (.invalidArgument "duplicate Iroh bridge address")
          bridgeAddresses (trusted ++ [address]) rest

/-- What the provider does with a valid context behind a bridge. -/
def forwardedEndpoint (dump : Json → Bytes) (issuer : Bytes) (context : PeerResolutionContext) :
    Except Thrown (PeerIdentityStatus ⊕ PeerIdentity) := do
  match ← context.header irohForwardedEndpointHeader with
  | none => return .inl .noMatch
  | some endpoint =>
      if canonicalEndpoint endpoint = false then return .inl .invalid
      else
        return .inr (← forwardedIdentity dump endpoint issuer (ascii "http") (ascii "http_proxy")
          (context.immediatePeer.getD []))

/-- `iroh_forwarded_header_provider`. -/
def irohForwardedHeaderProvider (dump : Json → Bytes) (options : IrohForwardedHeaderOptions) :
    Except Thrown PeerIdentityProvider := do
  validateIssuer options.issuer
  throwIf (options.trustedProxyAddresses = [])
    (.invalidArgument "at least one exact Iroh bridge address is required")
  let trusted ← bridgeAddresses [] options.trustedProxyAddresses
  return behindProxy dump irohProvider trusted (forwardedEndpoint dump options.issuer)

/-! ## Options that are taken -/

/-- Addresses that are exact and all different. -/
structure ExactAddresses (addresses : List Bytes) : Prop where
  exact : ∀ value ∈ addresses, (parseExactIp value).isSome = true
  distinct : (addresses.map parseExactIp).Nodup

theorem bridgeAddresses_ok_iff {trusted all : List IpAddress} {addresses : List Bytes} :
    bridgeAddresses trusted addresses = .ok all ↔
      ∃ parsed, addresses.map parseExactIp = parsed.map some ∧ parsed.Nodup ∧
        (∀ address ∈ parsed, address ∉ trusted) ∧ all = trusted ++ parsed := by
  induction addresses generalizing trusted with
  | nil =>
      constructor
      · intro made
        exact ⟨[], rfl, List.nodup_nil, by simp, by rw [List.append_nil, Except.ok.inj made]⟩
      · rintro ⟨parsed, shape, -, -, rfl⟩
        rw [List.map_nil, eq_comm, List.map_eq_nil_iff] at shape
        rw [shape, List.append_nil]
        rfl
  | cons value rest ih =>
      rw [bridgeAddresses]
      cases reads : parseExactIp value with
      | none =>
          constructor
          · intro made
            cases made
          · rintro ⟨parsed, shape, -⟩
            rw [List.map_cons, reads] at shape
            cases parsed with
            | nil => cases shape
            | cons address parsed => cases shape
      | some address =>
          simp only [bind_eq_ok_iff, throwIf_ok_iff, exists_const, ih, List.map_cons, reads]
          constructor
          · rintro ⟨fresh, parsed, shape, distinct, apart, rfl⟩
            refine ⟨address :: parsed, by rw [List.map_cons, shape], ?_, ?_, by simp⟩
            · refine List.nodup_cons.mpr ⟨?_, distinct⟩
              intro again
              exact apart address again (List.mem_append_right _ List.mem_cons_self)
            · refine List.forall_mem_cons.mpr ⟨fresh, ?_⟩
              intro other listed known
              exact apart other listed (List.mem_append_left _ known)
          · rintro ⟨parsed, shape, distinct, apart, rfl⟩
            cases parsed with
            | nil => cases shape
            | cons first parsed =>
                rw [List.map_cons, List.cons.injEq] at shape
                rcases shape with ⟨same, shape⟩
                cases Option.some.inj same
                rw [List.nodup_cons] at distinct
                rw [List.forall_mem_cons] at apart
                refine ⟨apart.1, parsed, shape, distinct.2, ?_, by simp⟩
                intro other listed known
                rcases List.mem_append.mp known with old | new
                · exact apart.2 other listed old
                · rw [List.mem_singleton.mp new] at listed
                  exact distinct.1 listed

theorem exactAddresses_iff {addresses : List Bytes} :
    ExactAddresses addresses ↔
      ∃ parsed : List IpAddress, addresses.map parseExactIp = parsed.map some ∧ parsed.Nodup := by
  constructor
  · rintro ⟨every, distinct⟩
    rcases exists_parsed every with ⟨parsed, shape⟩
    rw [shape] at distinct
    exact ⟨parsed, shape, distinct.of_map _⟩
  · rintro ⟨parsed, shape, distinct⟩
    constructor
    · exact exact_of_parsed shape
    · rw [shape]
      exact distinct.map (Option.some_injective _)

/-- The options that make a provider. -/
structure IrohForwardedHeaderOptions.Valid (options : IrohForwardedHeaderOptions) : Prop where
  issuer : validateIssuer options.issuer = .ok ()
  nonempty : options.trustedProxyAddresses ≠ []
  addresses : ExactAddresses options.trustedProxyAddresses

/-- The provider listens to the configured bridges. -/
theorem irohForwardedHeaderProvider_ok_iff {dump : Json → Bytes} {options : IrohForwardedHeaderOptions}
    {provider : PeerIdentityProvider} :
    irohForwardedHeaderProvider dump options = .ok provider ↔
      options.Valid ∧ ∃ trusted : List IpAddress,
        options.trustedProxyAddresses.map parseExactIp = trusted.map some ∧
          provider = behindProxy dump irohProvider trusted (forwardedEndpoint dump options.issuer) := by
  simp only [irohForwardedHeaderProvider, bind_eq_ok_iff, throwIf_ok_iff, exists_const,
    bridgeAddresses_ok_iff, pure, Except.pure, Except.ok.injEq]
  constructor
  · rintro ⟨_, issuer, nonempty, trusted, ⟨parsed, shape, distinct, -, same⟩, rfl⟩
    rw [List.nil_append] at same
    rw [← same] at shape distinct
    exact ⟨⟨issuer, nonempty, exactAddresses_iff.mpr ⟨trusted, shape, distinct⟩⟩, trusted, shape, rfl⟩
  · rintro ⟨valid, trusted, shape, rfl⟩
    rcases exactAddresses_iff.mp valid.addresses with ⟨parsed, same, distinct⟩
    have equal : parsed = trusted :=
      List.map_injective_iff.mpr (Option.some_injective _) (same.symm.trans shape)
    rw [equal] at distinct
    exact ⟨(), valid.issuer, valid.nonempty, trusted, ⟨trusted, shape, distinct, by simp, rfl⟩, rfl⟩

/-! ## Forwarded identities -/

section Identities

variable {dump : Json → Bytes} {endpoint issuer proxyAddress : Bytes}

theorem canonicalEndpoint_byte (canonical : canonicalEndpoint endpoint = true) :
    ∀ byte ∈ endpoint, byte < 0x80 ∧ isAlnum byte = true := by
  rw [canonicalEndpoint, Bool.and_eq_true, List.all_eq_true] at canonical
  have plain := forall_byte (fun byte =>
    !((0x30 ≤ byte && byte ≤ 0x39) || (0x61 ≤ byte && byte ≤ 0x66)) ||
      (byte < 0x80 && isAlnum byte)) (by decide)
  intro byte listed
  have digit := canonical.2 byte listed
  have small := plain byte
  rw [digit] at small
  simpa using small

theorem canonicalEndpoint_ne_nil (canonical : canonicalEndpoint endpoint = true) : endpoint ≠ [] := by
  rintro rfl
  cases canonical

/-- An endpoint stands for itself in a principal. -/
theorem percentText_endpoint (canonical : canonicalEndpoint endpoint = true) :
    percentText endpoint = endpoint := by
  have plain := canonicalEndpoint_byte canonical
  clear canonical
  induction endpoint with
  | nil => rfl
  | cons byte endpoint ih =>
      rw [List.forall_mem_cons] at plain
      have rest := ih plain.2
      rw [percentText] at rest ⊢
      rw [List.flatMap_cons, rest, plain.1.2]
      rfl

theorem validateIssuer_ok_iff : validateIssuer issuer = .ok () ↔
    issuer ≠ [] ∧ validUtf8 issuer = true ∧ hasControl issuer = false := by
  rw [validateIssuer, throwIf_ok_iff, not_or, not_or, Bool.not_eq_false, Bool.not_eq_true]

/-- All that can be wrong with a forwarded identity is the size of its JSON. -/
theorem forwarded_check_iff (named : validateIssuer issuer = .ok ())
    (canonical : canonicalEndpoint endpoint = true) :
    (forwarded endpoint issuer (ascii "http") (ascii "http_proxy") proxyAddress).check dump = .ok () ↔
      (forwarded endpoint issuer (ascii "http") (ascii "http_proxy") proxyAddress).ValidJson dump := by
  rcases validateIssuer_ok_iff.mp named with ⟨nonempty, valid, -⟩
  have plain : Proper endpoint := .of_ascii (canonicalEndpoint_ne_nil canonical)
    fun byte listed => (canonicalEndpoint_byte canonical byte listed).1
  have provider : Proper irohProvider := .of_ascii (by decide) (by decide)
  have source : Proper (ascii "http_proxy") := .of_ascii (by decide) (by decide)
  have transport : Proper (ascii "http") := .of_ascii (by decide) (by decide)
  exact check_ok_iff rfl plain provider source ⟨nonempty, valid⟩ transport

theorem forwardedIdentity_ok_iff {identity : PeerIdentity} :
    forwardedIdentity dump endpoint issuer (ascii "http") (ascii "http_proxy") proxyAddress =
        .ok identity ↔
      validateIssuer issuer = .ok () ∧ canonicalEndpoint endpoint = true ∧
        (forwarded endpoint issuer (ascii "http") (ascii "http_proxy") proxyAddress).ValidJson dump ∧
          identity = forwarded endpoint issuer (ascii "http") (ascii "http_proxy") proxyAddress := by
  simp only [forwardedIdentity, bind_eq_ok_iff, throwIf_ok_iff, exists_const, Bool.not_eq_false, pure,
    Except.pure, Except.ok.injEq]
  constructor
  · rintro ⟨_, named, canonical, _, passed, rfl⟩
    exact ⟨named, canonical, (forwarded_check_iff named canonical).mp passed, rfl⟩
  · rintro ⟨named, canonical, sound, rfl⟩
    exact ⟨(), named, canonical, (), (forwarded_check_iff named canonical).mpr sound, rfl⟩

end Identities

/-! ## A server behind a bridge -/

section Server

variable (dump : Json → Bytes) (sha256 : Bytes → Bytes) (options : IrohForwardedHeaderOptions)
  (config : DeploymentConfig) (now : Int) (request : HttpRequest)

/-- A server whose principals are the endpoints that its bridges forward. -/
def resolveBehindBridge : Except Thrown (AuthContext × PeerEvidenceSet) :=
  resolveOnly dump config now request (irohForwardedHeaderProvider dump options)
    (peerIdentityPrimary dump sha256 irohProvider)

/-- The identity of an endpoint that the sender of the request forwards. -/
def sentIdentity (endpoint : Bytes) : PeerIdentity :=
  forwarded endpoint options.issuer (ascii "http") (ascii "http_proxy") request.remoteAddr

/-- Whom the server admits. -/
def admittedEndpoint (identity : PeerIdentity) (endpoint : Bytes) : AuthContext :=
  setClaim
    (addPrimaryIdentityClaims
      ⟨irohProvider, true,
        some (ascii "peer/iroh/" ++ percentText options.issuer ++ ascii "/" ++ endpoint), []⟩
      identity)
    "peer_evidence_binding"
    (bindingDigest dump sha256 (evidenceOf identity) [irohProvider] none)

/-- A bridge sent the request, with one header that names the endpoint. -/
structure SentByBridge (endpoint : Bytes) : Prop where
  bridge : AmongAddresses options.trustedProxyAddresses request.sender
  header : request.headerValues irohForwardedEndpointHeader = [endpoint]
  canonical : canonicalEndpoint endpoint = true

variable {dump sha256 options config now request}

theorem sentIdentity_named (endpoint : Bytes) :
    (sentIdentity options request endpoint).provider ≠ [] := by
  have named : irohProvider ≠ [] := by decide
  exact named

/-- What the provider answers with an identity. -/
theorem forwardedEndpoint_ok_iff
    (valid : (httpContext config now request).validate dump = .ok ()) {issuer : Bytes}
    (named : validateIssuer issuer = .ok ()) {identity : PeerIdentity} :
    forwardedEndpoint dump issuer (httpContext config now request) = .ok (.inr identity) ↔
      ∃ endpoint, request.headerValues irohForwardedEndpointHeader = [endpoint] ∧
        canonicalEndpoint endpoint = true ∧
          (forwarded endpoint issuer (ascii "http") (ascii "http_proxy") request.remoteAddr).ValidJson
              dump ∧
            identity = forwarded endpoint issuer (ascii "http") (ascii "http_proxy")
              request.remoteAddr := by
  have peer : (httpContext config now request).immediatePeer.getD [] = request.remoteAddr := by
    rw [httpContext]
    split
    next empty => exact empty.symm
    next => rfl
  rw [forwardedEndpoint, bind_eq_ok_iff]
  simp only [header_httpContext valid]
  constructor
  · rintro ⟨value, sent, made⟩
    cases value with
    | none => cases made
    | some endpoint =>
        refine ⟨endpoint, sent, ?_⟩
        simp only [peer] at made
        split at made
        next => cases made
        next canonical =>
          rcases bind_eq_ok_iff.mp made with ⟨found, passed, same⟩
          cases Except.ok.inj same
          rcases forwardedIdentity_ok_iff.mp passed with ⟨-, plain, sound, shape⟩
          exact ⟨plain, sound, shape⟩
  · rintro ⟨endpoint, sent, canonical, sound, rfl⟩
    refine ⟨some endpoint, sent, ?_⟩
    simp only [peer, canonical, Bool.true_eq_false, if_false]
    rw [forwardedIdentity_ok_iff.mpr ⟨named, canonical, sound, rfl⟩]
    rfl

theorem subjects_sent (endpoint : Bytes) :
    (evidenceOf (sentIdentity options request endpoint)).subjects irohProvider =
      [sentIdentity options request endpoint] := by
  simp [PeerEvidenceSet.subjects, evidenceOf, PeerEvidenceSet.ofResults, available,
    PeerIdentity.verifiedStable, sentIdentity, forwarded]

theorem primary_sent_iff {endpoint : Bytes} (named : validateIssuer options.issuer = .ok ())
    (canonical : canonicalEndpoint endpoint = true)
    (sound : (sentIdentity options request endpoint).ValidJson dump) {auth admitted : AuthContext} :
    peerIdentityPrimary dump sha256 irohProvider (evidenceOf (sentIdentity options request endpoint))
        auth = .ok admitted ↔
      admitted =
        admittedEndpoint dump sha256 options (sentIdentity options request endpoint) endpoint := by
  have principal : (sentIdentity options request endpoint).canonicalPrincipal =
      .ok (ascii "peer/iroh/" ++ percentText options.issuer ++ ascii "/" ++ endpoint) := by
    rw [PeerIdentity.canonicalPrincipal, sentIdentity, forwarded]
    simp only [percentText_endpoint canonical]
    rfl
  have built := evidenceOf_built (sentIdentity_named endpoint)
    ((forwarded_check_iff named canonical).mpr sound)
  rw [primary_ok_iff built, subjects_sent]
  simp only [List.cons.injEq, and_true, exists_eq_left', principal, Except.ok.injEq]
  rfl

/-- The server admits exactly the endpoints that a configured bridge names. -/
theorem resolveBehindBridge_ok_iff {auth : AuthContext} {evidence : PeerEvidenceSet} :
    resolveBehindBridge dump sha256 options config now request = .ok (auth, evidence) ↔
      options.Valid ∧ 0 < config.peerIdentityResolutionTimeout ∧
        (httpContext config now request).validate dump = .ok () ∧
          ∃ endpoint, SentByBridge options request endpoint ∧
            (sentIdentity options request endpoint).ValidJson dump ∧
              evidence = evidenceOf (sentIdentity options request endpoint) ∧
                auth = admittedEndpoint dump sha256 options (sentIdentity options request endpoint)
                  endpoint := by
  rw [resolveBehindBridge, resolveOnly_ok_iff (fun _ => irohForwardedHeaderProvider_ok_iff)
    (fun taken => taken.addresses.exact) (needsIdentity_primary _ _ _)]
  constructor
  · rintro ⟨taken, inTime, valid, bridge, identity, found, -, rfl, admitted⟩
    rcases (forwardedEndpoint_ok_iff valid taken.issuer).mp found with
      ⟨endpoint, sent, canonical, json, rfl⟩
    exact ⟨taken, inTime, valid, endpoint, ⟨bridge, sent, canonical⟩, json, rfl,
      (primary_sent_iff taken.issuer canonical json).mp admitted⟩
  · rintro ⟨taken, inTime, valid, endpoint, sent, json, rfl, rfl⟩
    have found := (forwardedEndpoint_ok_iff valid taken.issuer).mpr
      ⟨endpoint, sent.header, sent.canonical, json, rfl⟩
    exact ⟨taken, inTime, valid, sent.bridge, _, found, available_valid (sentIdentity_named endpoint),
      rfl, (primary_sent_iff taken.issuer sent.canonical json).mpr rfl⟩

end Server

end VgiRpc.Peers
