import VgiRpc.Identity.SpiffeId
import VgiRpc.Peers.Resolution
import VgiRpc.Tailscale.WhoIs

/-!
# Workloads that a load balancer names

`gcp_load_balancer_spiffe_provider`, and a server that takes its principals from it.  Whom the server
admits is a SPIFFE identity of an allowed trust domain, whose certificate a configured balancer
verified.
-/

namespace VgiRpc.Peers

open VgiRpc.Cpp VgiRpc.Lib VgiRpc.Evidence VgiRpc.Socket
open VgiRpc.Identity hiding PeerIdentityStatus
open VgiRpc.Tailscale (validHeaderName)

/-! ## The provider -/

/-- `kProvider`. -/
def spiffeProvider : Bytes := ascii "spiffe"

/-- `Boundary`, without the limit on the size of certificates. -/
structure Boundary where
  trustDomains : List Bytes
  trustedProxies : List IpAddress

/-- `make_boundary`. -/
def makeBoundary (trustDomains trustedProxyAddresses : List Bytes) : Except Thrown Boundary := do
  throwIf (trustDomains = [] ∨ trustedProxyAddresses = [])
    (.invalidArgument "SPIFFE trust domains and exact proxies are required")
  trustDomains.forM fun domain =>
    throwIf (validTrustDomain domain = false) (.invalidArgument "invalid SPIFFE trust domain")
  let trusted ← proxyAddresses "trusted SPIFFE proxy is not an exact IP address"
    trustedProxyAddresses
  return ⟨trustDomains, trusted⟩

/-- `spiffe_header_identity`. -/
def spiffeHeaderIdentity (id trustDomain source : Bytes) (attributes : Json)
    (assertedPeer immediatePeer : Option Bytes) : PeerIdentity where
  provider := spiffeProvider
  evidenceSource := source
  assurance := .configuredProxy
  issuer := spiffeScheme ++ trustDomain
  transport := ascii "http"
  subjectKind := .workload
  subjectKey := some id
  subjectStability := .stable
  subjectVerified := true
  attributes := attributes
  capabilities := .object []
  capabilitiesVerified := false
  sourceAddress := assertedPeer
  proxyAddress := immediatePeer

/-- `GcpSpiffeOptions`. -/
structure GcpSpiffeOptions where
  trustDomains : List Bytes
  trustedProxyAddresses : List Bytes
  spiffeIdHeader : Bytes := ascii "X-Client-Cert-Spiffe-Id"
  presentHeader : Bytes := ascii "X-Client-Cert-Present"
  chainVerifiedHeader : Bytes := ascii "X-Client-Cert-Chain-Verified"
  errorHeader : Bytes := ascii "X-Client-Cert-Error"

namespace GcpSpiffeOptions

/-- The name of a header, or the usual one. -/
def named (header usual : Bytes) : Bytes := if header = [] then usual else header

def idName (options : GcpSpiffeOptions) : Bytes :=
  named options.spiffeIdHeader (ascii "X-Client-Cert-Spiffe-Id")

def presentName (options : GcpSpiffeOptions) : Bytes :=
  named options.presentHeader (ascii "X-Client-Cert-Present")

def verifiedName (options : GcpSpiffeOptions) : Bytes :=
  named options.chainVerifiedHeader (ascii "X-Client-Cert-Chain-Verified")

def errorName (options : GcpSpiffeOptions) : Bytes :=
  named options.errorHeader (ascii "X-Client-Cert-Error")

/-- The headers in the order of their checks. -/
def names (options : GcpSpiffeOptions) : List Bytes :=
  [options.idName, options.presentName, options.verifiedName, options.errorName]

end GcpSpiffeOptions

/-- The loop over the names of the headers. -/
def checkHeaderNames (seen : List Bytes) : List Bytes → Except Thrown Unit
  | [] => .ok ()
  | header :: rest => do
      throwIf (validHeaderName header = false ∨ lowerAscii header ∈ seen)
        (.invalidArgument "invalid or duplicate GCP mTLS header")
      checkHeaderNames (lowerAscii header :: seen) rest

def gcpAttributes : Json :=
  Json.make [(ascii "client_certificate_present", .bool true),
    (ascii "client_certificate_chain_verified", .bool true)]

/-- What the provider does with a valid context behind a balancer. -/
def balancedIdentity (dump : Json → Bytes) (options : GcpSpiffeOptions) (trustDomains : List Bytes)
    (context : PeerResolutionContext) : Except Thrown (PeerIdentityStatus ⊕ PeerIdentity) := do
  let id ← context.header options.idName
  let present ← context.header options.presentName
  let verified ← context.header options.verifiedName
  let failure ← context.header options.errorName
  if present = some (ascii "false") ∧ (verified = none ∨ verified = some (ascii "false")) ∧
      id = none then
    return .inl .noMatch
  else if present ≠ some (ascii "true") ∨ verified ≠ some (ascii "true") ∨ failure.getD [] ≠ [] ∨
      id.getD [] = [] then
    return .inl .invalid
  else
    let domain ← (validateId (id.getD []) trustDomains).mapError .invalidArgument
    let identity := spiffeHeaderIdentity (id.getD []) domain (ascii "gcp_load_balancer_mtls")
      gcpAttributes context.assertedPeer context.immediatePeer
    identity.check dump
    return .inr identity

/-- `gcp_load_balancer_spiffe_provider`. -/
def gcpLoadBalancerSpiffeProvider (dump : Json → Bytes) (options : GcpSpiffeOptions) :
    Except Thrown PeerIdentityProvider := do
  let boundary ← makeBoundary options.trustDomains options.trustedProxyAddresses
  checkHeaderNames [] options.names
  return behindProxy dump spiffeProvider boundary.trustedProxies
    (balancedIdentity dump options boundary.trustDomains)

/-! ## Options that are taken -/

theorem forM_throwIf_ok_iff {α : Type} {items : List α} {condition : α → Prop}
    [DecidablePred condition] {thrown : Thrown} :
    (items.forM fun item => throwIf (condition item) thrown) = .ok () ↔
      ∀ item ∈ items, ¬condition item := by
  induction items with
  | nil => simp [pure, Except.pure]
  | cons item items ih =>
      rw [List.forM, bind_eq_ok_iff, List.forall_mem_cons, ← ih]
      simp only [throwIf_ok_iff, exists_const]

theorem checkHeaderNames_ok_iff {seen headers : List Bytes} :
    checkHeaderNames seen headers = .ok () ↔
      (∀ header ∈ headers, validHeaderName header = true ∧ lowerAscii header ∉ seen) ∧
        (headers.map lowerAscii).Nodup := by
  induction headers generalizing seen with
  | nil => simp [checkHeaderNames]
  | cons header rest ih =>
      rw [List.forall_mem_cons]
      simp only [checkHeaderNames, bind_eq_ok_iff, throwIf_ok_iff, exists_const, ih, not_or,
        Bool.not_eq_false, List.map_cons, List.nodup_cons, List.mem_cons, List.mem_map, not_exists,
        not_and]
      constructor
      · rintro ⟨first, others, distinct⟩
        refine ⟨⟨first, fun other listed => ⟨(others other listed).1, (others other listed).2.2⟩⟩,
          ?_, distinct⟩
        intro other listed same
        exact (others other listed).2.1 same
      · rintro ⟨⟨first, others⟩, apart, distinct⟩
        refine ⟨first, ?_, distinct⟩
        intro other listed
        exact ⟨(others other listed).1, apart other listed, (others other listed).2⟩

/-- The options that make a provider. -/
structure GcpSpiffeOptions.Valid (options : GcpSpiffeOptions) : Prop where
  someDomain : options.trustDomains ≠ []
  someProxy : options.trustedProxyAddresses ≠ []
  domains : ∀ domain ∈ options.trustDomains, IsTrustDomain domain
  addresses : ∀ value ∈ options.trustedProxyAddresses, (parseExactIp value).isSome = true
  tokens : ∀ name ∈ options.names, validHeaderName name = true
  distinct : (options.names.map lowerAscii).Nodup

theorem gcpLoadBalancerSpiffeProvider_ok_iff {dump : Json → Bytes} {options : GcpSpiffeOptions}
    {provider : PeerIdentityProvider} :
    gcpLoadBalancerSpiffeProvider dump options = .ok provider ↔
      options.Valid ∧ ∃ trusted : List IpAddress,
        options.trustedProxyAddresses.map parseExactIp = trusted.map some ∧
          provider = behindProxy dump spiffeProvider trusted
            (balancedIdentity dump options options.trustDomains) := by
  simp only [gcpLoadBalancerSpiffeProvider, makeBoundary, bind_eq_ok_iff, throwIf_ok_iff,
    proxyAddresses_ok_iff, pure, Except.pure, Except.ok.injEq, exists_const, not_or]
  constructor
  · rintro ⟨_, ⟨⟨someDomain, someProxy⟩, _, domains, trusted, shape, rfl⟩, _, names, rfl⟩
    rw [forM_throwIf_ok_iff] at domains
    rcases checkHeaderNames_ok_iff.mp names with ⟨tokens, distinct⟩
    refine ⟨⟨someDomain, someProxy, ?_, exact_of_parsed shape, ?_, distinct⟩, trusted, shape, rfl⟩
    · intro domain listed
      rw [← validTrustDomain_iff, ← Bool.not_eq_false]
      exact domains domain listed
    · intro name listed
      exact (tokens name listed).1
  · rintro ⟨valid, trusted, shape, rfl⟩
    have domains : (options.trustDomains.forM fun domain =>
        throwIf (validTrustDomain domain = false) (.invalidArgument "invalid SPIFFE trust domain")) =
        .ok () := by
      rw [forM_throwIf_ok_iff]
      intro domain listed
      rw [Bool.not_eq_false, validTrustDomain_iff]
      exact valid.domains domain listed
    have names : checkHeaderNames [] options.names = .ok () :=
      checkHeaderNames_ok_iff.mpr
        ⟨fun name listed => ⟨valid.tokens name listed, List.not_mem_nil⟩, valid.distinct⟩
    exact ⟨_, ⟨⟨valid.someDomain, valid.someProxy⟩, (), domains, trusted, shape, rfl⟩, (), names, rfl⟩

/-! ## A server behind a balancer -/

section Server

variable (dump : Json → Bytes) (sha256 : Bytes → Bytes) (options : GcpSpiffeOptions)
  (config : DeploymentConfig) (now : Int) (request : HttpRequest)

/-- A server whose principals are the workloads that its balancers name. -/
def resolveBehindBalancer : Except Thrown (AuthContext × PeerEvidenceSet) :=
  resolveOnly dump config now request (gcpLoadBalancerSpiffeProvider dump options)
    (peerIdentityPrimary dump sha256 spiffeProvider)

/-- The identity of a workload that the sender of the request names. -/
def workload (id : SpiffeId) : PeerIdentity :=
  spiffeHeaderIdentity id.text id.domain (ascii "gcp_load_balancer_mtls") gcpAttributes none
    request.sender

/-- Whom the server admits. -/
def admittedWorkload (id : SpiffeId) : AuthContext :=
  setClaim
    (addPrimaryIdentityClaims
      ⟨spiffeProvider, true,
        some (ascii "peer/spiffe/" ++ percentText (spiffeScheme ++ id.domain) ++ ascii "/" ++
          percentText id.text), []⟩
      (workload request id))
    "peer_evidence_binding"
    (bindingDigest dump sha256 (evidenceOf (workload request id)) [spiffeProvider] none)

/-- The headers say that the certificate of a workload of an allowed domain was verified. -/
structure Vouched (id : SpiffeId) : Prop where
  present : request.headerValues options.presentName = [ascii "true"]
  verified : request.headerValues options.verifiedName = [ascii "true"]
  clean : ∀ failure ∈ request.headerValues options.errorName, failure = []
  sent : request.headerValues options.idName = [id.text]
  allowed : id.domain ∈ options.trustDomains
  size : id.text.length ≤ 2048

variable {dump sha256 options config now request}

theorem spiffeProvider_ne_nil : spiffeProvider ≠ [] := by decide

theorem workload_check_iff (id : SpiffeId) :
    (workload request id).check dump = .ok () ↔ (workload request id).ValidJson dump := by
  have small : ∀ byte ∈ id.text, byte < 0x80 := by
    intro byte listed
    exact UInt8.lt_of_le_of_lt (id.text_printable listed).2 (by decide)
  have scheme : spiffeScheme ≠ [] := by decide
  have key : Proper id.text :=
    .of_ascii (List.append_ne_nil_of_left_ne_nil scheme _) small
  have issuer : Proper (spiffeScheme ++ id.domain) := by
    apply Proper.of_ascii (List.append_ne_nil_of_left_ne_nil scheme _)
    intro byte listed
    apply small byte
    rw [SpiffeId.text, ← List.append_assoc]
    exact List.mem_append_left _ listed
  have provider : Proper spiffeProvider := .of_ascii (by decide) (by decide)
  have source : Proper (ascii "gcp_load_balancer_mtls") := .of_ascii (by decide) (by decide)
  have transport : Proper (ascii "http") := .of_ascii (by decide) (by decide)
  exact check_ok_iff rfl key provider source issuer transport

/-- What the provider answers with an identity. -/
theorem balancedIdentity_ok_iff (valid : (httpContext config now request).validate dump = .ok ())
    {identity : PeerIdentity} :
    balancedIdentity dump options options.trustDomains (httpContext config now request) =
        .ok (.inr identity) ↔
      ∃ id, Vouched options request id ∧ (workload request id).ValidJson dump ∧
        identity = workload request id := by
  have asserted : (httpContext config now request).assertedPeer = none := rfl
  have peer : (httpContext config now request).immediatePeer = request.sender := rfl
  simp only [balancedIdentity, bind_eq_ok_iff, header_httpContext valid, asserted, peer]
  constructor
  · rintro ⟨sent, sentId, present, sentPresent, verified, sentVerified, failure, sentFailure, made⟩
    split at made
    next => cases made
    next =>
      split at made
      next => cases made
      next vouched =>
        simp only [not_or, ne_eq, not_not] at vouched
        rcases vouched with ⟨rfl, rfl, clean, nonempty⟩
        simp only [bind_eq_ok_iff, mapError_ok_iff] at made
        rcases made with ⟨domain, accepted, _, checked, same⟩
        cases Except.ok.inj same
        rcases exists_spiffeId_of_validateId accepted with ⟨size, allowed, id, rfl, text⟩
        rw [← text] at size checked ⊢
        cases sent with
        | none => exact absurd rfl nonempty
        | some value =>
            rw [Option.getD_some] at text
            refine ⟨id, ⟨sentPresent, sentVerified, ?_, ?_, allowed, size⟩,
              (workload_check_iff id).mp checked, rfl⟩
            · intro value listed
              rw [sentFailure, Option.mem_toList] at listed
              rw [← clean, listed]
              rfl
            · rw [sentId, text]
              rfl
  · rintro ⟨id, vouched, sound, rfl⟩
    rcases exists_header valid options.errorName with ⟨failure, sentFailure⟩
    have clean : failure.getD [] = [] := by
      cases failure with
      | none => rfl
      | some value =>
          apply vouched.clean value
          rw [sentFailure]
          exact List.mem_singleton_self value
    refine ⟨some id.text, vouched.sent, some (ascii "true"), vouched.present, some (ascii "true"),
      vouched.verified, failure, sentFailure, ?_⟩
    have unlike : ¬(some (ascii "true") = some (ascii "false")) := by decide
    have scheme : spiffeScheme ≠ [] := by decide
    have nonempty : id.text ≠ [] := List.append_ne_nil_of_left_ne_nil scheme _
    rw [if_neg fun both => unlike both.1, if_neg]
    · simp only [bind_eq_ok_iff, mapError_ok_iff]
      exact ⟨id.domain, validateId_text vouched.size vouched.allowed, (),
        (workload_check_iff id).mpr sound, rfl⟩
    · simp [clean, nonempty]

theorem primary_workload_iff {id : SpiffeId} (sound : (workload request id).ValidJson dump)
    {auth admitted : AuthContext} :
    peerIdentityPrimary dump sha256 spiffeProvider (evidenceOf (workload request id)) auth =
        .ok admitted ↔
      admitted = admittedWorkload dump sha256 request id := by
  have subjects : (evidenceOf (workload request id)).subjects spiffeProvider =
      [workload request id] := by
    simp [PeerEvidenceSet.subjects, evidenceOf, PeerEvidenceSet.ofResults, available,
      PeerIdentity.verifiedStable, workload, spiffeHeaderIdentity]
  have principal : (workload request id).canonicalPrincipal =
      .ok (ascii "peer/spiffe/" ++ percentText (spiffeScheme ++ id.domain) ++ ascii "/" ++
        percentText id.text) := rfl
  have built : PeerEvidenceSet.Built dump (evidenceOf (workload request id)) :=
    evidenceOf_built spiffeProvider_ne_nil ((workload_check_iff id).mpr sound)
  rw [primary_ok_iff built, subjects]
  simp only [List.cons.injEq, and_true, exists_eq_left', principal, Except.ok.injEq]
  rfl

/-- The server admits exactly the workloads that a configured balancer vouches for. -/
theorem resolveBehindBalancer_ok_iff {auth : AuthContext} {evidence : PeerEvidenceSet} :
    resolveBehindBalancer dump sha256 options config now request = .ok (auth, evidence) ↔
      options.Valid ∧ 0 < config.peerIdentityResolutionTimeout ∧
        (httpContext config now request).validate dump = .ok () ∧
          AmongAddresses options.trustedProxyAddresses request.sender ∧
            ∃ id, Vouched options request id ∧ (workload request id).ValidJson dump ∧
              evidence = evidenceOf (workload request id) ∧
                auth = admittedWorkload dump sha256 request id := by
  rw [resolveBehindBalancer, resolveOnly_ok_iff (fun _ => gcpLoadBalancerSpiffeProvider_ok_iff)
    (fun taken => taken.addresses) (needsIdentity_primary _ _ _)]
  constructor
  · rintro ⟨taken, inTime, valid, balancer, identity, found, -, rfl, admitted⟩
    rcases (balancedIdentity_ok_iff valid).mp found with ⟨id, vouched, sound, rfl⟩
    exact ⟨taken, inTime, valid, balancer, id, vouched, sound, rfl,
      (primary_workload_iff sound).mp admitted⟩
  · rintro ⟨taken, inTime, valid, balancer, id, vouched, sound, rfl, rfl⟩
    have found := (balancedIdentity_ok_iff valid).mpr ⟨id, vouched, sound, rfl⟩
    exact ⟨taken, inTime, valid, balancer, _, found, available_valid spiffeProvider_ne_nil, rfl,
      (primary_workload_iff sound).mpr rfl⟩

end Server

end VgiRpc.Peers
