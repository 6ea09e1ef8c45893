import VgiRpc.Evidence.FailClosed
import VgiRpc.Peers.Context

/-!
# Identities over HTTP

How the identity of a request is resolved by a provider that listens to a proxy only, and by a
policy that reads its answer.
-/

namespace VgiRpc.Peers

open VgiRpc.Cpp VgiRpc.Lib VgiRpc.Evidence VgiRpc.Socket
open VgiRpc.Identity hiding PeerIdentityStatus

/-! ## Answers of providers -/

theorem trusts_iff {trusted : List IpAddress} {peer : Option Bytes} :
    trusts trusted peer = true ↔ ∃ address ∈ trusted, peer.bind parseExactIp = some address := by
  unfold trusts
  split
  next unread => simp [unread]
  next address reads => simp [reads]

/-- The address of a peer is one of these. -/
def AmongAddresses (addresses : List Bytes) (peer : Option Bytes) : Prop :=
  ∃ configured ∈ addresses, ∃ address,
    parseExactIp configured = some address ∧ peer.bind parseExactIp = some address

theorem trusts_addresses_iff {addresses : List Bytes} {trusted : List IpAddress}
    (shape : addresses.map parseExactIp = trusted.map some) {peer : Option Bytes} :
    trusts trusted peer = true ↔ AmongAddresses addresses peer := by
  have listed : ∀ address, address ∈ trusted ↔
      ∃ configured ∈ addresses, parseExactIp configured = some address := by
    intro address
    rw [← List.mem_map, shape, List.mem_map_of_injective (Option.some_injective _)]
  rw [trusts_iff]
  constructor
  · rintro ⟨address, known, reads⟩
    rcases (listed address).mp known with ⟨configured, among, same⟩
    exact ⟨configured, among, address, same, reads⟩
  · rintro ⟨configured, among, address, same, reads⟩
    exact ⟨address, (listed address).mpr ⟨configured, among, same⟩, reads⟩

theorem proxyAddresses_ok_iff {what : String} {addresses : List Bytes} {trusted : List IpAddress} :
    proxyAddresses what addresses = .ok trusted ↔ addresses.map parseExactIp = trusted.map some := by
  induction addresses generalizing trusted with
  | nil =>
      rw [proxyAddresses, Except.ok.injEq, List.map_nil, eq_comm, @eq_comm _ [], List.map_eq_nil_iff]
  | cons value rest ih =>
      rw [proxyAddresses]
      cases reads : parseExactIp value with
      | none =>
          constructor
          · intro made
            cases made
          · intro shape
            rw [List.map_cons, reads] at shape
            cases trusted with
            | nil => cases shape
            | cons address trusted => cases shape
      | some address =>
          simp only [bind_eq_ok_iff, ih, List.map_cons, reads, pure, Except.pure, Except.ok.injEq]
          constructor
          · rintro ⟨parsed, shape, rfl⟩
            rw [List.map_cons, shape]
          · intro shape
            cases trusted with
            | nil => cases shape
            | cons first trusted =>
                rw [List.map_cons, List.cons.injEq] at shape
                cases Option.some.inj shape.1
                exact ⟨trusted, shape.2, rfl⟩

/-- Addresses that are all exact can be read. -/
theorem exists_parsed {addresses : List Bytes}
    (exacts : ∀ value ∈ addresses, (parseExactIp value).isSome = true) :
    ∃ parsed : List IpAddress, addresses.map parseExactIp = parsed.map some := by
  induction addresses with
  | nil => exact ⟨[], rfl⟩
  | cons value rest ih =>
      rw [List.forall_mem_cons] at exacts
      rcases Option.isSome_iff_exists.mp exacts.1 with ⟨address, reads⟩
      rcases ih exacts.2 with ⟨parsed, shape⟩
      exact ⟨address :: parsed, by rw [List.map_cons, List.map_cons, reads, shape]⟩

theorem exact_of_parsed {addresses : List Bytes} {parsed : List IpAddress}
    (shape : addresses.map parseExactIp = parsed.map some) :
    ∀ value ∈ addresses, (parseExactIp value).isSome = true := by
  intro value listed
  have read : parseExactIp value ∈ parsed.map some := by
    rw [← shape]
    exact List.mem_map_of_mem listed
  rcases List.mem_map.mp read with ⟨address, -, reads⟩
  rw [← reads]
  rfl

theorem available_valid {identity : PeerIdentity} (named : identity.provider ≠ []) :
    (available identity).Valid := by
  constructor
  · exact named
  · exact ⟨fun _ => List.cons_ne_nil _ _, fun _ => rfl⟩
  · intro other listed
    rw [List.mem_singleton.mp listed]
    rfl

/-- A provider behind a proxy names someone only as its body does, for a trusted proxy. -/
theorem behindProxy_identities_iff {dump : Json → Bytes} {provider : Bytes} {trusted : List IpAddress}
    {body : PeerResolutionContext → Except Thrown (PeerIdentityStatus ⊕ PeerIdentity)}
    {context : PeerResolutionContext} {answer : PeerIdentityResult} :
    behindProxy dump provider trusted body context = .ok answer ∧ answer.identities ≠ [] ↔
      trusts trusted context.immediatePeer = true ∧ context.validate dump = .ok () ∧
        ∃ identity, body context = .ok (.inr identity) ∧ answer = available identity := by
  have nameless : ∀ status, result provider status = answer → ¬answer.identities ≠ [] := by
    rintro status rfl named
    exact named rfl
  unfold behindProxy
  split
  next untrusted =>
    constructor
    · rintro ⟨same, named⟩
      exact absurd named (nameless _ (Except.ok.inj same))
    · rintro ⟨trusted, -⟩
      rw [untrusted] at trusted
      cases trusted
  next trusted =>
    rw [Bool.not_eq_false] at trusted
    rw [and_iff_right trusted]
    cases valid : context.validate dump with
    | error thrown =>
        constructor
        · rintro ⟨same, named⟩
          exact absurd named (nameless _ (Except.ok.inj same))
        · rintro ⟨impossible, -⟩
          cases impossible
    | ok value =>
        cases outcome : body context with
        | error thrown =>
            constructor
            · rintro ⟨same, named⟩
              exact absurd named (nameless _ (Except.ok.inj same))
            · rintro ⟨-, identity, impossible, -⟩
              cases impossible
        | ok found =>
            cases found with
            | inl status =>
                constructor
                · rintro ⟨same, named⟩
                  exact absurd named (nameless _ (Except.ok.inj same))
                · rintro ⟨-, identity, impossible, -⟩
                  cases impossible
            | inr identity =>
                constructor
                · rintro ⟨same, -⟩
                  exact ⟨rfl, identity, rfl, (Except.ok.inj same).symm⟩
                · rintro ⟨-, other, same, rfl⟩
                  cases same
                  exact ⟨rfl, List.cons_ne_nil _ _⟩

/-- A server with one provider whose answer a policy reads. -/
theorem resolveDeploymentIdentity_single {dump : Json → Bytes} {config : DeploymentConfig} {now : Int}
    {request : HttpRequest} {provider : PeerIdentityProvider} {policy : Policy}
    (asked : config.peerIdentityProviders = [some provider])
    (read : config.peerAuthenticationPolicy = some policy) {auth : AuthContext}
    {evidence : PeerEvidenceSet} :
    resolveDeploymentIdentity dump config now request = .ok (auth, evidence) ↔
      0 < config.peerIdentityResolutionTimeout ∧
        (httpContext config now request).validate dump = .ok () ∧
          ∃ answer, provider (httpContext config now request) = .ok answer ∧ answer.Valid ∧
            evidence = PeerEvidenceSet.ofResults [answer] ∧
              policy evidence (identify config request) = .ok auth := by
  have one : ∀ answers, config.peerIdentityProviders.mapM (askProvider (httpContext config now request)) =
      .ok answers ↔ ∃ answer, provider (httpContext config now request) = .ok answer ∧ answer.Valid ∧
        answers = [answer] := by
    intro answers
    simp only [asked, List.mapM_cons, List.mapM_nil, askProvider, bind_eq_ok_iff, pure, Except.pure,
      Except.ok.injEq]
    constructor
    · rintro ⟨answer, ⟨_, answered, _, valid, rfl⟩, _, rfl, rfl⟩
      exact ⟨_, answered, (PeerIdentityResult.validate_iff _).mp valid, rfl⟩
    · rintro ⟨answer, answered, valid, rfl⟩
      exact ⟨answer, ⟨answer, answered, (), (PeerIdentityResult.validate_iff _).mpr valid, rfl⟩, [],
        rfl, rfl⟩
  have compatible : ∀ answer : PeerIdentityResult, answer.Valid → PeerEvidenceSet.Compatible [answer] := by
    intro answer valid
    refine ⟨?_, List.nodup_singleton _⟩
    intro other listed
    rw [List.mem_singleton.mp listed]
    exact valid
  have some_asked : config.peerIdentityProviders.isEmpty = false := by
    rw [asked]
    rfl
  simp only [resolveDeploymentIdentity, some_asked, read, bind_eq_ok_iff, throwIf_ok_iff, exists_const,
    one, PeerEvidenceSet.new_ok_iff, not_le, Bool.false_eq_true, if_false, pure, Except.pure,
    Except.ok.injEq, Prod.mk.injEq]
  apply and_congr_right
  intro _
  constructor
  · rintro ⟨_, sound, _, ⟨answer, answered, valid, rfl⟩, _, ⟨-, rfl⟩, _, admitted, rfl, rfl⟩
    exact ⟨sound, answer, answered, valid, rfl, admitted⟩
  · rintro ⟨sound, answer, answered, valid, rfl, admitted⟩
    exact ⟨(), sound, _, ⟨answer, answered, valid, rfl⟩, _, ⟨compatible answer valid, rfl⟩, _, admitted,
      rfl, rfl⟩

theorem requireText_of_valid {value : Bytes} (valid : validUtf8 value = true) (field : String) :
    requireText value field = .ok () := by
  rw [requireText, if_pos valid]

/-- A text that may stand in an identity. -/
structure Proper (text : Bytes) : Prop where
  present : text ≠ []
  valid : validUtf8 text = true

theorem Proper.of_ascii {text : Bytes} (present : text ≠ []) (small : ∀ byte ∈ text, byte < 0x80) :
    Proper text := ⟨present, validUtf8_of_ascii small⟩

/-- All that can be wrong with an identity of proper texts is its JSON. -/
theorem check_ok_iff {dump : Json → Bytes} {identity : PeerIdentity} {key : Bytes}
    (subject : identity.subjectKey = some key) (keyed : Proper key)
    (provider : Proper identity.provider) (source : Proper identity.evidenceSource)
    (issuer : Proper identity.issuer) (transport : Proper identity.transport) :
    identity.check dump = .ok () ↔ identity.ValidJson dump := by
  constructor
  · intro passed
    exact (PeerIdentity.check_ok passed).2
  · rintro ⟨attributes, capabilities⟩
    simp [PeerIdentity.check, bind_eq_ok_iff, throwIf_ok_iff, subject, keyed.present,
      provider.present, source.present, issuer.present, transport.present,
      requireText_of_valid, keyed.valid, provider.valid, source.valid, issuer.valid, transport.valid,
      attributes, capabilities]

/-! ## Evidence of one answer -/

/-- The evidence of an identity. -/
def evidenceOf (identity : PeerIdentity) : PeerEvidenceSet := .ofResults [available identity]

theorem ofResults_built {dump : Json → Bytes} {answer : PeerIdentityResult} (valid : answer.Valid)
    (checked : ∀ identity ∈ answer.identities, identity.check dump = .ok ()) :
    PeerEvidenceSet.Built dump (PeerEvidenceSet.ofResults [answer]) := by
  refine ⟨[answer], PeerEvidenceSet.added_iff.mpr ⟨⟨?_, List.nodup_singleton _⟩, rfl, ?_⟩⟩
  · intro other listed
    rw [List.mem_singleton.mp listed]
    exact valid
  · intro other listed
    rw [List.mem_singleton.mp listed]
    exact checked

/-- The evidence of a checked identity. -/
theorem evidenceOf_built {dump : Json → Bytes} {identity : PeerIdentity}
    (named : identity.provider ≠ []) (checked : identity.check dump = .ok ()) :
    PeerEvidenceSet.Built dump (evidenceOf identity) := by
  apply ofResults_built (available_valid named)
  intro other listed
  rw [List.mem_singleton.mp listed]
  exact checked

/-- An answer without identities admits nobody. -/
theorem identities_of_admitted {dump : Json → Bytes} {sha256 : Bytes → Bytes}
    {answer : PeerIdentityResult} (valid : answer.Valid)
    {provider : Bytes} {auth admitted : AuthContext}
    (passed : peerIdentityPrimary dump sha256 provider (PeerEvidenceSet.ofResults [answer]) auth =
      .ok admitted) : answer.identities ≠ [] := by
  intro nameless
  have built : PeerEvidenceSet.Built dump (PeerEvidenceSet.ofResults [answer]) := by
    apply ofResults_built valid
    intro identity among
    rw [nameless] at among
    cases among
  have nobody : (PeerEvidenceSet.ofResults [answer]).subjects provider = [] := by
    simp [PeerEvidenceSet.subjects, PeerEvidenceSet.ofResults, nameless]
  rcases (primary_ok_iff built).mp passed with ⟨identity, only, -⟩
  rw [nobody] at only
  cases only

/-- Nor is it what a policy requires. -/
theorem identities_of_available {answer : PeerIdentityResult} {provider : Bytes}
    (passed : (PeerEvidenceSet.ofResults [answer]).requireAvailableProvider provider = .ok ()) :
    answer.identities ≠ [] := by
  intro nameless
  have nobody : (PeerEvidenceSet.ofResults [answer]).forProvider provider = [] := by
    simp [PeerEvidenceSet.forProvider, PeerEvidenceSet.ofResults, nameless]
  rw [PeerEvidenceSet.requireAvailableProvider] at passed
  simp only [nobody, or_true, if_true] at passed
  split at passed
  next => cases passed
  next =>
    split at passed
    next => cases passed
    next => cases passed

theorem requireAvailableProvider_evidenceOf (identity : PeerIdentity) :
    (evidenceOf identity).requireAvailableProvider identity.provider = .ok () := by
  have found : (evidenceOf identity).status identity.provider = .available := by
    simp [PeerEvidenceSet.status, evidenceOf, PeerEvidenceSet.ofResults, available]
  have own : (evidenceOf identity).forProvider identity.provider = [identity] := by
    simp [PeerEvidenceSet.forProvider, evidenceOf, PeerEvidenceSet.ofResults, available]
  rw [PeerEvidenceSet.requireAvailableProvider, found, own]
  rfl

theorem requirePeerIdentity_evidenceOf {dump : Json → Bytes} {sha256 : Bytes → Bytes}
    (identity : PeerIdentity) {auth admitted : AuthContext} :
    requirePeerIdentity dump sha256 identity.provider (evidenceOf identity) auth = .ok admitted ↔
      admitted = setClaim auth "peer_evidence_binding"
        (bindingDigest dump sha256 (evidenceOf identity) [identity.provider] none) := by
  rw [requirePeerIdentity, bind_eq_ok_iff]
  constructor
  · rintro ⟨_, -, same⟩
    exact (Except.ok.inj same).symm
  · rintro rfl
    exact ⟨(), requireAvailableProvider_evidenceOf identity, rfl⟩

/-- A policy that admits nobody without an identity. -/
def NeedsIdentity (policy : Policy) : Prop :=
  ∀ answer : PeerIdentityResult, answer.Valid → ∀ auth admitted,
    policy (PeerEvidenceSet.ofResults [answer]) auth = .ok admitted → answer.identities ≠ []

theorem needsIdentity_primary (dump : Json → Bytes) (sha256 : Bytes → Bytes) (provider : Bytes) :
    NeedsIdentity (peerIdentityPrimary dump sha256 provider) := by
  intro answer valid auth admitted passed
  exact identities_of_admitted valid passed

theorem needsIdentity_require (dump : Json → Bytes) (sha256 : Bytes → Bytes) (provider : Bytes) :
    NeedsIdentity (requirePeerIdentity dump sha256 provider) := by
  intro answer _ auth admitted passed
  rcases bind_eq_ok_iff.mp passed with ⟨_, usable, -⟩
  exact identities_of_available usable

/-! ## Servers with one provider -/

/-- A server with one provider and one policy. -/
def DeploymentConfig.only (config : DeploymentConfig) (provider : PeerIdentityProvider)
    (policy : Policy) : DeploymentConfig :=
  { config with
    peerIdentityProviders := [some provider]
    peerAuthenticationPolicy := some policy }

/-- Such a server is set up, and resolves the identity of a request. -/
def resolveOnly (dump : Json → Bytes) (config : DeploymentConfig) (now : Int) (request : HttpRequest)
    (made : Except Thrown PeerIdentityProvider) (policy : Policy) :
    Except Thrown (AuthContext × PeerEvidenceSet) := do
  let provider ← made
  resolveDeploymentIdentity dump (config.only provider policy) now request

/-- A server whose one provider is behind a proxy resolves a request exactly as the body of the
provider does, for a proxy that is configured. -/
theorem resolveOnly_ok_iff {dump : Json → Bytes} {config : DeploymentConfig} {now : Int}
    {request : HttpRequest} {made : Except Thrown PeerIdentityProvider} {taken : Prop} {name : Bytes}
    {addresses : List Bytes}
    {body : PeerResolutionContext → Except Thrown (PeerIdentityStatus ⊕ PeerIdentity)}
    {policy : Policy}
    (makes : ∀ provider, made = .ok provider ↔ taken ∧ ∃ trusted : List IpAddress,
      addresses.map parseExactIp = trusted.map some ∧ provider = behindProxy dump name trusted body)
    (exacts : taken → ∀ value ∈ addresses, (parseExactIp value).isSome = true)
    (needs : NeedsIdentity policy) {auth : AuthContext} {evidence : PeerEvidenceSet} :
    resolveOnly dump config now request made policy = .ok (auth, evidence) ↔
      taken ∧ 0 < config.peerIdentityResolutionTimeout ∧
        (httpContext config now request).validate dump = .ok () ∧
          AmongAddresses addresses request.sender ∧
            ∃ identity, body (httpContext config now request) = .ok (.inr identity) ∧
              (available identity).Valid ∧ evidence = evidenceOf identity ∧
                policy evidence (identify config request) = .ok auth := by
  have peer : (httpContext config now request).immediatePeer = request.sender := rfl
  rw [resolveOnly, bind_eq_ok_iff]
  constructor
  · rintro ⟨provider, set, resolved⟩
    rcases (makes provider).mp set with ⟨accepted, trusted, shape, rfl⟩
    rcases (resolveDeploymentIdentity_single rfl rfl).mp resolved with
      ⟨inTime, valid, answer, answered, sound, rfl, admitted⟩
    rcases behindProxy_identities_iff.mp ⟨answered, needs answer sound _ _ admitted⟩ with
      ⟨trustworthy, -, identity, found, rfl⟩
    exact ⟨accepted, inTime, valid, (trusts_addresses_iff shape).mp trustworthy, identity, found,
      sound, rfl, admitted⟩
  · rintro ⟨accepted, inTime, valid, among, identity, found, sound, rfl, admitted⟩
    rcases exists_parsed (exacts accepted) with ⟨trusted, shape⟩
    have trustworthy := (trusts_addresses_iff shape).mpr among
    rw [← peer] at trustworthy
    refine ⟨_, (makes _).mpr ⟨accepted, trusted, shape, rfl⟩, ?_⟩
    apply (resolveDeploymentIdentity_single rfl rfl).mpr
    exact ⟨inTime, valid, available identity,
      (behindProxy_identities_iff.mpr ⟨trustworthy, valid, identity, found, rfl⟩).1, sound, rfl, admitted⟩

end VgiRpc.Peers
