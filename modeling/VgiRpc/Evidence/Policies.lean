import VgiRpc.Evidence.Binding

/-!
# Policies over peer evidence

The authentication policies: what they admit, and as whom.
-/

namespace VgiRpc.Evidence

open VgiRpc.Cpp VgiRpc.Identity

/-! ## The policies -/

/-- `PeerAuthenticationPolicy`. -/
abbrev Policy := PeerEvidenceSet → AuthContext → Except Thrown AuthContext

/-- `PeerIdentityLinker`: it refuses by throwing. -/
abbrev PeerIdentityLinker := AuthContext → List (Bytes × PeerIdentity) → Except Thrown Unit

/-- `auth.claims[key] = value`. -/
def setClaim (auth : AuthContext) (key : String) (value : Bytes) : AuthContext :=
  { auth with claims :=
      auth.claims.filter (fun claim => claim.1 != ascii key) ++ [(ascii key, .text value)] }

/-- `add_primary_identity_claims`. -/
def addPrimaryIdentityClaims (auth : AuthContext) (identity : PeerIdentity) : AuthContext :=
  let auth := setClaim auth "issuer" identity.issuer
  let auth := setClaim auth "subject_kind" identity.subjectKind.wire
  let auth := setClaim auth "assurance" identity.assurance.wire
  let auth := setClaim auth "evidence_source" identity.evidenceSource
  setClaim auth "subject" (identity.subjectKey.getD [])

/-- `std::map::emplace`: the first identity of a provider stays. -/
def emplace (identities : List (Bytes × PeerIdentity)) (provider : Bytes)
    (identity : PeerIdentity) : List (Bytes × PeerIdentity) :=
  if (identities.lookup provider).isSome then identities else identities ++ [(provider, identity)]

section Policies

variable (dump : Json → Bytes) (sha256 : Bytes → Bytes)

/-- `require_peer_identity`. -/
def requirePeerIdentity (provider : Bytes) : Policy := fun evidence auth => do
  evidence.requireAvailableProvider provider
  return setClaim auth "peer_evidence_binding" (bindingDigest dump sha256 evidence [provider] none)

/-- `peer_identity_primary`. -/
def peerIdentityPrimary (provider : Bytes) : Policy := fun evidence _ => do
  let identity ← evidence.requireUsableProvider provider
  let principal ← identity.canonicalPrincipal
  let auth := addPrimaryIdentityClaims ⟨provider, true, some principal, []⟩ identity
  return setClaim auth "peer_evidence_binding" (bindingDigest dump sha256 evidence [provider] none)

/-- `any_of_peer_identities`. -/
def anyOfPeerIdentities (providers : List Bytes) : Except Thrown Policy :=
  if providers = [] then
    .error (.invalidArgument "at least one provider is required")
  else
    .ok fun evidence auth =>
      if ∃ provider ∈ providers, evidence.status provider = .invalid ∨
          evidence.status provider = .untrustedProxy ∨
          1 < (evidence.eligibleSubjects provider).length then
        .error (.rejected "invalid or ambiguous peer evidence")
      else if auth.authenticated then
        .ok auth
      else
        match providers.find? fun provider => (evidence.eligibleSubjects provider).length == 1 with
        | some provider => peerIdentityPrimary dump sha256 provider evidence auth
        | none =>
            if ∃ provider ∈ providers, evidence.status provider = .unavailable ∨
                evidence.status provider = .permissionDenied then
              .error (.unavailable "no usable factor and a peer provider is unavailable")
            else
              .error (.rejected "no provider produced a verified subject")

/-- One provider in the loop of `all_of_peer_identities`. -/
def linkProvider (evidence : PeerEvidenceSet) (identities : List (Bytes × PeerIdentity))
    (provider : Bytes) : Except Thrown (List (Bytes × PeerIdentity)) := do
  let identity ← evidence.requireUsableProvider provider
  return emplace identities provider identity

/-- The identities that the loop hands to the linker. -/
def usableIdentities (evidence : PeerEvidenceSet) (providers : List Bytes) :
    Except Thrown (List (Bytes × PeerIdentity)) :=
  providers.foldlM (linkProvider evidence) []

/-- `std::map::at`. -/
def atKey (identities : List (Bytes × PeerIdentity)) (provider : Bytes) :
    Except Thrown PeerIdentity :=
  match identities.lookup provider with
  | none => .error (.logicError "map::at")
  | some identity => .ok identity

/-- The claims that `all_of_peer_identities` adds about the application. -/
def addApplicationClaims (auth application : AuthContext) : AuthContext :=
  setClaim (setClaim auth "application_domain" application.domain) "application_principal"
    (application.principal.getD [])

/-- The policy that `all_of_peer_identities` returns. -/
def allOf (providers : List Bytes) (linker : PeerIdentityLinker) (primary : Bytes) : Policy :=
  fun evidence application => do
    throwIf (application.authenticated = false) (.rejected "all-of requires application auth")
    let identities ← usableIdentities evidence providers
    linker application identities
    let identity ← atKey identities primary
    let principal ← identity.canonicalPrincipal
    let auth := addPrimaryIdentityClaims ⟨primary, true, some principal, []⟩ identity
    return setClaim (addApplicationClaims auth application) "peer_evidence_binding"
      (bindingDigest dump sha256 evidence providers (some application))

/-- `all_of_peer_identities`.  Without a linker it is refused; here it has one. -/
def allOfPeerIdentities (providers : List Bytes) (linker : PeerIdentityLinker)
    (principalProvider : Option Bytes) : Except Thrown Policy :=
  if providers = [] then
    .error (.invalidArgument "all-of requires providers and linker")
  else if principalProvider.getD (providers.headD []) ∉ providers then
    .error (.invalidArgument "principal provider must be configured")
  else
    .ok (allOf dump sha256 providers linker (principalProvider.getD (providers.headD [])))

end Policies

end VgiRpc.Evidence
