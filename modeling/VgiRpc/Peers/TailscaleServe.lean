import VgiRpc.Identity.BoundedJson
import VgiRpc.Peers.Resolution
import VgiRpc.Tailscale.ServeHeader

/-!
# Users that Tailscale Serve names

`tailscale_serve_identity_provider`, and a server that requires its evidence.  The evidence is what
the headers of a trusted proxy say; a login is not stable, so nobody is admitted as one.
-/

namespace VgiRpc.Peers

open VgiRpc.Cpp VgiRpc.Lib VgiRpc.Evidence VgiRpc.Socket VgiRpc.Tailscale
open VgiRpc.Identity hiding PeerIdentityStatus

/-! ## The provider -/

/-- `kProvider`. -/
def tailscaleProvider : Bytes := ascii "tailscale"

def funnelHeader : Bytes := ascii "Tailscale-Funnel-Request"
def userLoginHeader : Bytes := ascii "Tailscale-User-Login"
def userNameHeader : Bytes := ascii "Tailscale-User-Name"
def userProfilePicHeader : Bytes := ascii "Tailscale-User-Profile-Pic"
def appCapabilitiesHeader : Bytes := ascii "Tailscale-App-Capabilities"

/-- `valid_issuer`. -/
def validIssuer (value : Bytes) : Bool := !value.isEmpty && validUtf8 value && !hasControl value

/-- `items` of an object. -/
def capabilityEntries : Json → List (Bytes × Json)
  | .object members => members
  | _ => []

/-- One capability in the loop of `decode_capabilities`. -/
def checkCapability (capability : Bytes × Json) : Except Thrown Unit :=
  match capability.2 with
  | .array entries => do
      throwIf (capability.1 = [] ∨ 512 < capability.1.length ∨ 0x2f ∉ capability.1 ∨
          hasControl capability.1 = true)
        (.invalidArgument "invalid Tailscale capability")
      entries.forM fun entry => throwIf (entry.isObject = false)
        (.invalidArgument "capability entries must be objects")
  | _ => .error (.invalidArgument "invalid Tailscale capability")

/-- `decode_capabilities`. -/
def decodeCapabilities (document : Bytes → Option Json) (raw : Bytes) (maxBytes : Nat) :
    Except Thrown Json := do
  let decoded ← decodeServeHeader raw maxBytes
  let capabilities ← (parseBoundedJson document decoded maxBytes).mapError .invalidArgument
  throwIf (capabilities.isObject = false) (.invalidArgument "capabilities must be an object")
  (capabilityEntries capabilities).forM checkCapability
  return capabilities

/-- A header that need not be there. -/
def decodeOptional (limit : Nat) : Option Bytes → Except Thrown Bytes
  | none => .ok []
  | some raw => decodeServeHeader raw limit

def decodeOptionalCapabilities (document : Bytes → Option Json) (limit : Nat) :
    Option Bytes → Except Thrown Json
  | none => .ok (.object [])
  | some raw => decodeCapabilities document raw limit

/-- The identity of a user, or of nobody with capabilities. -/
def serveIdentity (issuer login display : Bytes) (capabilities : Json) (stated : Bool)
    (assertedPeer immediatePeer : Option Bytes) : PeerIdentity where
  provider := tailscaleProvider
  evidenceSource := ascii "serve_proxy"
  assurance := .configuredProxy
  issuer := issuer
  transport := ascii "http"
  subjectKind := if login = [] then .unknown else .user
  subjectKey := if login = [] then none else some (ascii "login:" ++ login)
  subjectStability := if login = [] then .none else .login
  subjectVerified := login ≠ []
  attributes := Json.make
    ((if login = [] then [] else [(ascii "user_login", .string login)]) ++
      if display = [] then [] else [(ascii "user_display_name", .string display)])
  capabilities := capabilities
  capabilitiesVerified := stated
  sourceAddress := assertedPeer
  proxyAddress := immediatePeer

/-- What the provider does with a valid context behind a proxy. -/
def servedIdentity (document : Bytes → Option Json) (dump : Json → Bytes) (issuer : Bytes)
    (limit : Nat) (context : PeerResolutionContext) :
    Except Thrown (PeerIdentityStatus ⊕ PeerIdentity) := do
  let funnel ← context.header funnelHeader
  let loginRaw ← context.header userLoginHeader
  let nameRaw ← context.header userNameHeader
  let profileRaw ← context.header userProfilePicHeader
  let capabilitiesRaw ← context.header appCapabilitiesHeader
  if funnel.isSome then
    return .inl (if funnel = some (ascii "?1") then .notApplicable else .invalid)
  else
    let login ← decodeOptional limit loginRaw
    let display ← decodeOptional limit nameRaw
    let _ ← decodeOptional limit profileRaw
    let capabilities ← decodeOptionalCapabilities document limit capabilitiesRaw
    if (loginRaw.isSome = true ∨ nameRaw.isSome = true ∨ profileRaw.isSome = true) ∧ login = [] then
      return .inl .invalid
    else if login = [] ∧ capabilityEntries capabilities = [] then
      return .inl .noMatch
    else
      let identity := serveIdentity issuer login display capabilities capabilitiesRaw.isSome
        context.assertedPeer context.immediatePeer
      identity.check dump
      return .inr identity

/-- `TailscaleServeOptions`. -/
structure TailscaleServeOptions where
  issuer : Bytes
  trustedProxyAddresses : List Bytes
  maxHeaderBytes : Nat := 16384

/-- `if (options.max_header_bytes == 0)`. -/
def TailscaleServeOptions.limit (options : TailscaleServeOptions) : Nat :=
  if options.maxHeaderBytes = 0 then 16384 else options.maxHeaderBytes

/-- `tailscale_serve_identity_provider`. -/
def tailscaleServeIdentityProvider (document : Bytes → Option Json) (dump : Json → Bytes)
    (options : TailscaleServeOptions) : Except Thrown PeerIdentityProvider := do
  throwIf (validIssuer options.issuer = false ∨ options.trustedProxyAddresses = [])
    (.invalidArgument "invalid Tailscale Serve configuration")
  let trusted ← proxyAddresses "Tailscale Serve proxy must be an exact IP address"
    options.trustedProxyAddresses
  return behindProxy dump tailscaleProvider trusted
    (servedIdentity document dump options.issuer options.limit)

/-! ## Options that are taken -/

/-- The options that make a provider. -/
structure TailscaleServeOptions.Valid (options : TailscaleServeOptions) : Prop where
  issuer : validIssuer options.issuer = true
  nonempty : options.trustedProxyAddresses ≠ []
  addresses : ∀ value ∈ options.trustedProxyAddresses, (parseExactIp value).isSome = true

theorem tailscaleServeIdentityProvider_ok_iff {document : Bytes → Option Json}
    {dump : Json → Bytes} {options : TailscaleServeOptions} {provider : PeerIdentityProvider} :
    tailscaleServeIdentityProvider document dump options = .ok provider ↔
      options.Valid ∧ ∃ trusted : List IpAddress,
        options.trustedProxyAddresses.map parseExactIp = trusted.map some ∧
          provider = behindProxy dump tailscaleProvider trusted
            (servedIdentity document dump options.issuer options.limit) := by
  simp only [tailscaleServeIdentityProvider, bind_eq_ok_iff, throwIf_ok_iff, exists_const, not_or,
    Bool.not_eq_false, proxyAddresses_ok_iff, pure, Except.pure, Except.ok.injEq]
  constructor
  · rintro ⟨⟨issuer, nonempty⟩, trusted, shape, rfl⟩
    exact ⟨⟨issuer, nonempty, exact_of_parsed shape⟩, trusted, shape, rfl⟩
  · rintro ⟨valid, trusted, shape, rfl⟩
    exact ⟨⟨valid.issuer, valid.nonempty⟩, trusted, shape, rfl⟩

/-! ## A server behind Tailscale Serve -/

section Server

variable (document : Bytes → Option Json) (dump : Json → Bytes) (sha256 : Bytes → Bytes)
  (options : TailscaleServeOptions) (config : DeploymentConfig) (now : Int) (request : HttpRequest)

/-- A server whose one provider is Tailscale Serve. -/
def resolveBehindServe (policy : Policy) : Except Thrown (AuthContext × PeerEvidenceSet) :=
  resolveOnly dump config now request (tailscaleServeIdentityProvider document dump options) policy

/-- What a header says once it is decoded; nothing if there is none. -/
def Says (limit : Nat) (name text : Bytes) : Prop :=
  ∃ sent : Option Bytes, request.headerValues name = sent.toList ∧ decodeOptional limit sent = .ok text

/-- The headers of a request that did not come through Funnel name a user, or nobody with
capabilities. -/
structure Served (limit : Nat) (login display : Bytes) (capabilities : Json) : Prop where
  direct : request.headerValues funnelHeader = []
  saysLogin : Says request limit userLoginHeader login
  saysName : Says request limit userNameHeader display
  saysPicture : ∃ picture, Says request limit userProfilePicHeader picture
  saysCapabilities : ∃ sent : Option Bytes, request.headerValues appCapabilitiesHeader = sent.toList ∧
    decodeOptionalCapabilities document limit sent = .ok capabilities
  nobody : login = [] → request.headerValues userLoginHeader = [] ∧
    request.headerValues userNameHeader = [] ∧ request.headerValues userProfilePicHeader = []
  something : login ≠ [] ∨ capabilityEntries capabilities ≠ []

/-- The identity of what the headers say. -/
def servedAs (issuer login display : Bytes) (capabilities : Json) : PeerIdentity :=
  serveIdentity issuer login display capabilities (request.headerValues appCapabilitiesHeader ≠ [])
    none request.sender

variable {document dump sha256 options config now request}

theorem headerValues_eq_nil_iff {name : Bytes} {sent : Option Bytes}
    (carried : request.headerValues name = sent.toList) :
    request.headerValues name = [] ↔ sent = none := by
  rw [carried, Option.toList_eq_nil_iff]

theorem isSome_sent {sent : Option Bytes}
    (carried : request.headerValues appCapabilitiesHeader = sent.toList) :
    sent.isSome = decide (request.headerValues appCapabilitiesHeader ≠ []) := by
  rw [carried]
  cases sent with
  | none => rfl
  | some value => rfl

theorem tailscaleProvider_ne_nil : tailscaleProvider ≠ [] := by decide

/-- What the provider answers with an identity. -/
theorem servedIdentity_ok_iff (valid : (httpContext config now request).validate dump = .ok ())
    {issuer : Bytes} {limit : Nat} {identity : PeerIdentity} :
    servedIdentity document dump issuer limit (httpContext config now request) =
        .ok (.inr identity) ↔
      ∃ login display capabilities, Served document request limit login display capabilities ∧
        (servedAs request issuer login display capabilities).check dump = .ok () ∧
          identity = servedAs request issuer login display capabilities := by
  have asserted : (httpContext config now request).assertedPeer = none := rfl
  have peer : (httpContext config now request).immediatePeer = request.sender := rfl
  simp only [servedIdentity, bind_eq_ok_iff, header_httpContext valid, asserted, peer]
  constructor
  · rintro ⟨funnel, direct, loginRaw, sentLogin, nameRaw, sentName, profileRaw, sentProfile,
      capabilitiesRaw, sentCapabilities, made⟩
    split at made
    next => cases made
    next undisguised =>
      simp only [bind_eq_ok_iff] at made
      rcases made with ⟨login, decodedLogin, display, decodedDisplay, picture, decodedPicture,
        capabilities, decodedCapabilities, made⟩
      split at made
      next => cases made
      next named =>
        split at made
        next => cases made
        next something =>
          rcases bind_eq_ok_iff.mp made with ⟨_, checked, same⟩
          cases Except.ok.inj same
          rw [isSome_sent sentCapabilities] at checked ⊢
          refine ⟨login, display, capabilities, ?_, checked, rfl⟩
          constructor
          · exact (headerValues_eq_nil_iff direct).mpr (Option.not_isSome_iff_eq_none.mp undisguised)
          · exact ⟨loginRaw, sentLogin, decodedLogin⟩
          · exact ⟨nameRaw, sentName, decodedDisplay⟩
          · exact ⟨picture, profileRaw, sentProfile, decodedPicture⟩
          · exact ⟨capabilitiesRaw, sentCapabilities, decodedCapabilities⟩
          · intro empty
            rw [headerValues_eq_nil_iff sentLogin, headerValues_eq_nil_iff sentName,
              headerValues_eq_nil_iff sentProfile]
            simp only [← Option.not_isSome_iff_eq_none]
            refine ⟨?_, ?_, ?_⟩
            · exact fun present => named ⟨.inl present, empty⟩
            · exact fun present => named ⟨.inr (.inl present), empty⟩
            · exact fun present => named ⟨.inr (.inr present), empty⟩
          · exact not_and_or.mp something
  · rintro ⟨login, display, capabilities, served, checked, rfl⟩
    rcases served.saysLogin with ⟨loginRaw, sentLogin, decodedLogin⟩
    rcases served.saysName with ⟨nameRaw, sentName, decodedDisplay⟩
    rcases served.saysPicture with ⟨picture, profileRaw, sentProfile, decodedPicture⟩
    rcases served.saysCapabilities with ⟨capabilitiesRaw, sentCapabilities, decodedCapabilities⟩
    refine ⟨none, served.direct, loginRaw, sentLogin, nameRaw, sentName, profileRaw, sentProfile,
      capabilitiesRaw, sentCapabilities, ?_⟩
    have named : ¬((loginRaw.isSome = true ∨ nameRaw.isSome = true ∨ profileRaw.isSome = true) ∧
        login = []) := by
      rintro ⟨present, empty⟩
      have absent := served.nobody empty
      rw [headerValues_eq_nil_iff sentLogin, headerValues_eq_nil_iff sentName,
        headerValues_eq_nil_iff sentProfile] at absent
      simp [absent.1, absent.2.1, absent.2.2] at present
    have something : ¬(login = [] ∧ capabilityEntries capabilities = []) :=
      not_and_or.mpr served.something
    rw [if_neg (by simp)]
    simp only [bind_eq_ok_iff]
    refine ⟨login, decodedLogin, display, decodedDisplay, picture, decodedPicture, capabilities,
      decodedCapabilities, ?_⟩
    rw [if_neg named, if_neg something, bind_eq_ok_iff, isSome_sent sentCapabilities]
    exact ⟨(), checked, rfl⟩

/-- What a policy that needs an identity admits. -/
theorem resolveBehindServe_ok_iff {policy : Policy} (needs : NeedsIdentity policy)
    {auth : AuthContext} {evidence : PeerEvidenceSet} :
    resolveBehindServe document dump options config now request policy = .ok (auth, evidence) ↔
      options.Valid ∧ 0 < config.peerIdentityResolutionTimeout ∧
        (httpContext config now request).validate dump = .ok () ∧
          AmongAddresses options.trustedProxyAddresses request.sender ∧
            ∃ login display capabilities,
              Served document request options.limit login display capabilities ∧
                (servedAs request options.issuer login display capabilities).check dump = .ok () ∧
                  evidence = evidenceOf (servedAs request options.issuer login display capabilities) ∧
                    policy evidence (identify config request) = .ok auth := by
  rw [resolveBehindServe, resolveOnly_ok_iff (fun _ => tailscaleServeIdentityProvider_ok_iff)
    (fun taken => taken.addresses) needs]
  constructor
  · rintro ⟨taken, inTime, valid, proxy, identity, found, -, rfl, admitted⟩
    rcases (servedIdentity_ok_iff valid).mp found with
      ⟨login, display, capabilities, served, checked, rfl⟩
    exact ⟨taken, inTime, valid, proxy, login, display, capabilities, served, checked, rfl, admitted⟩
  · rintro ⟨taken, inTime, valid, proxy, login, display, capabilities, served, checked, rfl, admitted⟩
    have found := (servedIdentity_ok_iff valid).mpr
      ⟨login, display, capabilities, served, checked, rfl⟩
    exact ⟨taken, inTime, valid, proxy, _, found, available_valid tailscaleProvider_ne_nil, rfl,
      admitted⟩

/-- A server that requires Tailscale Serve gives evidence of exactly what a configured proxy says. -/
theorem resolveBehindServe_required_iff {auth : AuthContext} {evidence : PeerEvidenceSet} :
    resolveBehindServe document dump options config now request
        (requirePeerIdentity dump sha256 tailscaleProvider) = .ok (auth, evidence) ↔
      options.Valid ∧ 0 < config.peerIdentityResolutionTimeout ∧
        (httpContext config now request).validate dump = .ok () ∧
          AmongAddresses options.trustedProxyAddresses request.sender ∧
            ∃ login display capabilities,
              Served document request options.limit login display capabilities ∧
                (servedAs request options.issuer login display capabilities).check dump = .ok () ∧
                  evidence = evidenceOf (servedAs request options.issuer login display capabilities) ∧
                    auth = setClaim (identify config request) "peer_evidence_binding"
                      (bindingDigest dump sha256 evidence [tailscaleProvider] none) := by
  rw [resolveBehindServe_ok_iff (needsIdentity_require dump sha256 tailscaleProvider)]
  constructor
  · rintro ⟨taken, inTime, valid, proxy, login, display, capabilities, served, checked, rfl, admitted⟩
    exact ⟨taken, inTime, valid, proxy, login, display, capabilities, served, checked, rfl,
      (requirePeerIdentity_evidenceOf _).mp admitted⟩
  · rintro ⟨taken, inTime, valid, proxy, login, display, capabilities, served, checked, rfl, admitted⟩
    exact ⟨taken, inTime, valid, proxy, login, display, capabilities, served, checked, rfl,
      (requirePeerIdentity_evidenceOf _).mpr admitted⟩

/-- A login is no stable subject: with Tailscale Serve alone nobody becomes the principal. -/
theorem resolveBehindServe_no_principal (outcome : AuthContext × PeerEvidenceSet) :
    resolveBehindServe document dump options config now request
      (peerIdentityPrimary dump sha256 tailscaleProvider) ≠ .ok outcome := by
  intro resolved
  rcases outcome with ⟨auth, evidence⟩
  rw [resolveBehindServe_ok_iff (needsIdentity_primary dump sha256 tailscaleProvider)] at resolved
  rcases resolved with ⟨-, -, -, -, login, display, capabilities, -, checked, rfl, admitted⟩
  have built := evidenceOf_built tailscaleProvider_ne_nil checked
  rcases (primary_ok_iff built).mp admitted with ⟨identity, only, -⟩
  have nobody : (evidenceOf (servedAs request options.issuer login display capabilities)).subjects
      tailscaleProvider = [] := by
    have unstable : (servedAs request options.issuer login display capabilities).subjectStability ≠
        .stable := by
      simp only [servedAs, serveIdentity]
      split
      next => decide
      next => decide
    simp [PeerEvidenceSet.subjects, evidenceOf, PeerEvidenceSet.ofResults, available,
      PeerIdentity.verifiedStable, unstable]
  rw [nobody] at only
  cases only

end Server

end VgiRpc.Peers
