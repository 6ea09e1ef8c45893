import VgiRpc.Evidence.Policies

/-!
# The policies fail closed

What each policy admits is said in terms of the identities of the evidence, and compared
between sets that differ in the order of their results or in one of them.
-/

namespace VgiRpc.Evidence

open VgiRpc.Cpp VgiRpc.Identity VgiRpc.Lib

/-! ## Subjects -/

/-- The subject of the identity is verified and stable. -/
def PeerIdentity.verifiedStable (identity : PeerIdentity) : Bool :=
  identity.subjectVerified && identity.subjectStability == .stable

namespace PeerEvidenceSet

/-- The verified stable subjects of a provider. -/
def subjects (evidence : PeerEvidenceSet) (provider : Bytes) : List PeerIdentity :=
  evidence.identities.filter fun identity =>
    identity.provider == provider && identity.verifiedStable

/-- The provider is available with exactly one verified stable subject. -/
structure Usable (evidence : PeerEvidenceSet) (provider : Bytes) : Prop where
  available : evidence.status provider = .available
  one : (evidence.subjects provider).length = 1

/-- The provider is invalid, came through an untrusted proxy or is ambiguous. -/
def Spoiled (evidence : PeerEvidenceSet) (provider : Bytes) : Prop :=
  evidence.status provider = .invalid ∨ evidence.status provider = .untrustedProxy ∨
    1 < (evidence.subjects provider).length

variable {dump : Json → Bytes} {evidence : PeerEvidenceSet}

theorem Built.eligibleSubjects_eq (built : Built dump evidence) (provider : Bytes) :
    evidence.eligibleSubjects provider = evidence.subjects provider := by
  rw [eligibleSubjects, forProvider, List.filter_filter, subjects]
  apply List.filter_congr
  intro identity listed
  have keyed := (built.checked identity listed).1
  cases verified : identity.subjectVerified with
  | false => simp [PeerIdentity.verifiedStable, verified]
  | true =>
      simp [PeerIdentity.verifiedStable, verified, keyed verified, bne, Bool.and_comm]

/-- A provider with a subject is available. -/
theorem Built.available_of_subject (built : Built dump evidence) {provider : Bytes}
    {identity : PeerIdentity} (listed : identity ∈ evidence.subjects provider) :
    evidence.status provider = .available := by
  rw [built.available_iff]
  have member := List.mem_filter.mp listed
  rw [Bool.and_eq_true] at member
  exact List.ne_nil_of_mem (List.mem_filter.mpr ⟨member.1, member.2.1⟩)

theorem Built.usable_iff (built : Built dump evidence) (provider : Bytes) :
    evidence.Usable provider ↔ (evidence.subjects provider).length = 1 := by
  constructor
  · intro usable
    exact usable.one
  · intro one
    rcases List.length_eq_one_iff.mp one with ⟨identity, only⟩
    have subject : identity ∈ evidence.subjects provider := by
      rw [only]
      exact List.mem_singleton_self identity
    exact ⟨built.available_of_subject subject, one⟩

/-- `require_usable_provider` finds the one subject. -/
theorem Built.requireUsableProvider_ok_iff (built : Built dump evidence) {provider : Bytes}
    {identity : PeerIdentity} :
    evidence.requireUsableProvider provider = .ok identity ↔
      evidence.subjects provider = [identity] := by
  have unique : evidence.uniqueVerifiedSubject provider = .ok identity ↔
      evidence.subjects provider = [identity] := by
    rw [uniqueVerifiedSubject, built.eligibleSubjects_eq]
    split
    next only shape => simp [shape]
    next others =>
      constructor
      · intro found
        cases found
      · intro only
        exact absurd only (others identity)
  rw [requireUsableProvider, bind_eq_ok_iff]
  simp only [unique]
  constructor
  · rintro ⟨_, -, only⟩
    exact only
  · intro only
    have available : evidence.status provider = .available := by
      have subject : identity ∈ evidence.subjects provider := by
        rw [only]
        exact List.mem_singleton_self identity
      exact built.available_of_subject subject
    have found := (built.available_iff provider).mp available
    refine ⟨(), ?_, only⟩
    simp [requireAvailableProvider, available, found]

theorem Built.usable_iff_found (built : Built dump evidence) (provider : Bytes) :
    evidence.Usable provider ↔ ∃ identity, evidence.requireUsableProvider provider = .ok identity := by
  simp only [built.usable_iff, built.requireUsableProvider_ok_iff, List.length_eq_one_iff]

end PeerEvidenceSet

/-! ## What is admitted -/

section Policies

variable {dump : Json → Bytes} {sha256 : Bytes → Bytes} {evidence : PeerEvidenceSet}

open PeerEvidenceSet

def Policy.Admits (policy : Policy) (evidence : PeerEvidenceSet) (auth : AuthContext) : Prop :=
  ∃ admitted, policy evidence auth = .ok admitted

/-- Someone is admitted as the one verified stable subject of a provider. -/
def AdmittedAs (evidence : PeerEvidenceSet) (provider : Bytes) (admitted : AuthContext) : Prop :=
  ∃ identity, evidence.subjects provider = [identity] ∧
    ∃ principal, identity.canonicalPrincipal = .ok principal ∧ admitted.principal = some principal

theorem Built.canonicalPrincipal_ok (built : Built dump evidence) {provider : Bytes}
    {identity : PeerIdentity} (only : evidence.subjects provider = [identity]) :
    ∃ principal, identity.canonicalPrincipal = .ok principal := by
  have listed : identity ∈ evidence.subjects provider := by
    rw [only]
    exact List.mem_singleton_self identity
  have member := List.mem_filter.mp listed
  simp only [PeerIdentity.verifiedStable, Bool.and_eq_true] at member
  rcases Option.isSome_iff_exists.mp ((built.checked identity member.1).1 member.2.2.1) with
    ⟨key, shape⟩
  exact ⟨_, by rw [PeerIdentity.canonicalPrincipal, shape]⟩

@[simp] theorem setClaim_principal (auth : AuthContext) (key : String) (value : Bytes) :
    (setClaim auth key value).principal = auth.principal := rfl

@[simp] theorem addPrimaryIdentityClaims_principal (auth : AuthContext) (identity : PeerIdentity) :
    (addPrimaryIdentityClaims auth identity).principal = auth.principal := rfl

/-- What `peer_identity_primary` does. -/
theorem primary_ok_iff (built : Built dump evidence) {provider : Bytes}
    {auth admitted : AuthContext} :
    peerIdentityPrimary dump sha256 provider evidence auth = .ok admitted ↔
      ∃ identity, evidence.subjects provider = [identity] ∧
        ∃ principal, identity.canonicalPrincipal = .ok principal ∧
          admitted = setClaim (addPrimaryIdentityClaims ⟨provider, true, some principal, []⟩ identity)
            "peer_evidence_binding" (bindingDigest dump sha256 evidence [provider] none) := by
  simp only [peerIdentityPrimary, bind_eq_ok_iff, built.requireUsableProvider_ok_iff]
  apply exists_congr
  intro identity
  apply and_congr_right
  intro _
  apply exists_congr
  intro principal
  apply and_congr_right
  intro _
  constructor
  · intro same
    exact (Except.ok.inj same).symm
  · intro same
    rw [same]
    rfl

theorem primary_admits_iff (built : Built dump evidence) (provider : Bytes) (auth : AuthContext) :
    (peerIdentityPrimary dump sha256 provider).Admits evidence auth ↔ evidence.Usable provider := by
  rw [built.usable_iff, List.length_eq_one_iff]
  simp only [Policy.Admits, primary_ok_iff built]
  constructor
  · rintro ⟨_, identity, only, -⟩
    exact ⟨identity, only⟩
  · rintro ⟨identity, only⟩
    rcases Built.canonicalPrincipal_ok built only with ⟨principal, named⟩
    exact ⟨_, identity, only, principal, named, rfl⟩

theorem primary_admittedAs (built : Built dump evidence) {provider : Bytes}
    {auth admitted : AuthContext}
    (passed : peerIdentityPrimary dump sha256 provider evidence auth = .ok admitted) :
    AdmittedAs evidence provider admitted := by
  rcases (primary_ok_iff built).mp passed with ⟨identity, only, principal, named, rfl⟩
  exact ⟨identity, only, principal, named, rfl⟩

/-! ### Any of several providers -/

theorem anyOf_ok_iff (built : Built dump evidence) {providers : List Bytes} {policy : Policy}
    (made : anyOfPeerIdentities dump sha256 providers = .ok policy) {auth admitted : AuthContext} :
    policy evidence auth = .ok admitted ↔
      (∀ provider ∈ providers, ¬evidence.Spoiled provider) ∧
        if auth.authenticated then admitted = auth
        else ∃ provider, (providers.find? fun provider => (evidence.subjects provider).length == 1) =
            some provider ∧ peerIdentityPrimary dump sha256 provider evidence auth = .ok admitted := by
  unfold anyOfPeerIdentities at made
  split at made
  next => cases made
  next =>
    rw [← Except.ok.inj made]
    simp only [built.eligibleSubjects_eq]
    split
    next spoiled =>
      constructor
      · intro passed
        cases passed
      · rintro ⟨clean, -⟩
        rcases spoiled with ⟨provider, listed, bad⟩
        exact absurd bad (clean provider listed)
    next unspoiled =>
      have clean : ∀ provider ∈ providers, ¬evidence.Spoiled provider := by
        intro provider listed bad
        exact unspoiled ⟨provider, listed, bad⟩
      rw [and_iff_right clean]
      cases auth.authenticated with
      | true => simp [eq_comm]
      | false =>
          simp only [Bool.false_eq_true, if_false]
          split
          next provider found => simp [found]
          next missing =>
            simp only [missing, reduceCtorEq, false_and, exists_false, iff_false]
            split <;> simp

theorem anyOf_admits_iff (built : Built dump evidence) {providers : List Bytes} {policy : Policy}
    (made : anyOfPeerIdentities dump sha256 providers = .ok policy) (auth : AuthContext) :
    policy.Admits evidence auth ↔
      (∀ provider ∈ providers, ¬evidence.Spoiled provider) ∧
        (auth.authenticated = true ∨ ∃ provider ∈ providers, evidence.Usable provider) := by
  simp only [Policy.Admits, anyOf_ok_iff built made, exists_and_left]
  apply and_congr_right
  intro _
  cases auth.authenticated with
  | true => simp
  | false =>
      simp only [Bool.false_eq_true, if_false, false_or]
      constructor
      · rintro ⟨_, provider, found, passed⟩
        exact ⟨provider, List.mem_of_find?_eq_some found,
          (primary_admits_iff built provider auth).mp ⟨_, passed⟩⟩
      · rintro ⟨provider, listed, usable⟩
        have some_found : (providers.find? fun provider =>
            (evidence.subjects provider).length == 1).isSome = true := by
          rw [List.find?_isSome]
          exact ⟨provider, listed, beq_iff_eq.mpr usable.one⟩
        rcases Option.isSome_iff_exists.mp some_found with ⟨first, found⟩
        have one := List.find?_some found
        simp only [beq_iff_eq] at one
        have admits : (peerIdentityPrimary dump sha256 first).Admits evidence auth :=
          (primary_admits_iff built first auth).mpr ((built.usable_iff first).mpr one)
        rcases admits with ⟨admitted, passed⟩
        exact ⟨admitted, first, found, passed⟩

theorem anyOf_admittedAs (built : Built dump evidence) {providers : List Bytes} {policy : Policy}
    (made : anyOfPeerIdentities dump sha256 providers = .ok policy) {auth admitted : AuthContext}
    (passed : policy evidence auth = .ok admitted) :
    (auth.authenticated = true ∧ admitted = auth) ∨
      ∃ provider ∈ providers, AdmittedAs evidence provider admitted := by
  rcases (anyOf_ok_iff built made).mp passed with ⟨-, outcome⟩
  split at outcome
  next authenticated => exact .inl ⟨authenticated, outcome⟩
  next =>
    rcases outcome with ⟨provider, found, passed⟩
    exact .inr ⟨provider, List.mem_of_find?_eq_some found, primary_admittedAs built passed⟩

/-! ### All of several providers -/

/-- The identities that were collected from some providers. -/
def Collected (evidence : PeerEvidenceSet) (providers : List Bytes)
    (identities : List (Bytes × PeerIdentity)) : Prop :=
  ∀ provider identity, identities.lookup provider = some identity ↔
    provider ∈ providers ∧ evidence.subjects provider = [identity]

theorem lookup_emplace (identities : List (Bytes × PeerIdentity)) (provider sought : Bytes)
    (identity : PeerIdentity) :
    (emplace identities provider identity).lookup sought =
      (identities.lookup sought).or (if sought = provider then some identity else none) := by
  unfold emplace
  split
  next known =>
    split
    next same =>
      rw [same]
      rcases Option.isSome_iff_exists.mp known with ⟨old, found⟩
      rw [found, Option.some_or]
    next => rw [Option.or_none]
  next fresh =>
    rw [List.lookup_append]
    congr 1
    by_cases same : sought = provider
    · simp [same]
    · simp [same, List.lookup_cons, beq_false_of_ne same]

theorem Collected.link (built : Built dump evidence) {seen : List Bytes}
    {before after : List (Bytes × PeerIdentity)} {provider : Bytes}
    (collected : Collected evidence seen before)
    (linked : linkProvider evidence before provider = .ok after) :
    evidence.Usable provider ∧ Collected evidence (seen ++ [provider]) after := by
  rcases bind_eq_ok_iff.mp linked with ⟨identity, found, same⟩
  cases Except.ok.inj same
  refine ⟨(built.usable_iff_found provider).mpr ⟨identity, found⟩, ?_⟩
  rw [built.requireUsableProvider_ok_iff] at found
  intro sought other
  rw [lookup_emplace, List.mem_append, List.mem_singleton]
  cases known : before.lookup sought with
  | some old =>
      rcases (collected sought old).mp known with ⟨listed, only⟩
      rw [Option.some_or, Option.some.injEq, only, List.cons.injEq, and_iff_left rfl]
      exact ⟨fun same => ⟨.inl listed, same⟩, fun same => same.2⟩
  | none =>
      rw [Option.none_or]
      by_cases same : sought = provider
      · rw [if_pos same, same, found, Option.some.injEq, List.cons.injEq, and_iff_left rfl]
        exact ⟨fun equal => ⟨.inr rfl, equal⟩, fun equal => equal.2⟩
      · rw [if_neg same]
        constructor
        · intro impossible
          cases impossible
        · rintro ⟨listed | equal, only⟩
          · rw [(collected sought other).mpr ⟨listed, only⟩] at known
            cases known
          · exact absurd equal same

/-- The loop collects the one subject of every provider. -/
theorem Collected.run (built : Built dump evidence) {providers seen : List Bytes}
    {before after : List (Bytes × PeerIdentity)} (collected : Collected evidence seen before)
    (linked : providers.foldlM (linkProvider evidence) before = .ok after) :
    (∀ provider ∈ providers, evidence.Usable provider) ∧
      Collected evidence (seen ++ providers) after := by
  induction providers generalizing seen before with
  | nil =>
      cases Except.ok.inj linked
      exact ⟨by simp, by rwa [List.append_nil]⟩
  | cons provider providers ih =>
      rw [List.foldlM_cons, bind_eq_ok_iff] at linked
      rcases linked with ⟨middle, first, later⟩
      rcases collected.link built first with ⟨usable, more⟩
      rcases ih more later with ⟨others, all⟩
      rw [List.append_assoc, List.singleton_append] at all
      exact ⟨List.forall_mem_cons.mpr ⟨usable, others⟩, all⟩

theorem usableIdentities_collected (built : Built dump evidence) {providers : List Bytes}
    {identities : List (Bytes × PeerIdentity)}
    (linked : usableIdentities evidence providers = .ok identities) :
    (∀ provider ∈ providers, evidence.Usable provider) ∧
      Collected evidence providers identities := by
  have none_collected : Collected evidence [] [] := by
    intro provider identity
    simp
  exact none_collected.run built linked

theorem atKey_ok_iff {identities : List (Bytes × PeerIdentity)} {provider : Bytes}
    {identity : PeerIdentity} :
    atKey identities provider = .ok identity ↔ identities.lookup provider = some identity := by
  unfold atKey
  split
  next missing => simp [missing]
  next found => simp [found]

@[simp] theorem addApplicationClaims_principal (auth application : AuthContext) :
    (addApplicationClaims auth application).principal = auth.principal := rfl

/-- What `all_of_peer_identities` does. -/
theorem allOf_ok_iff {providers : List Bytes} {linker : PeerIdentityLinker} {primary : Bytes}
    {auth admitted : AuthContext} :
    allOf dump sha256 providers linker primary evidence auth = .ok admitted ↔
      auth.authenticated = true ∧ ∃ identities,
        usableIdentities evidence providers = .ok identities ∧ linker auth identities = .ok () ∧
          ∃ identity, identities.lookup primary = some identity ∧
            ∃ principal, identity.canonicalPrincipal = .ok principal ∧
              admitted = setClaim (addApplicationClaims (addPrimaryIdentityClaims
                ⟨primary, true, some principal, []⟩ identity) auth) "peer_evidence_binding"
                  (bindingDigest dump sha256 evidence providers (some auth)) := by
  simp only [allOf, bind_eq_ok_iff, throwIf_ok_iff, atKey_ok_iff, exists_const, Bool.not_eq_false,
    pure, Except.pure, Except.ok.injEq]
  constructor
  · rintro ⟨authenticated, identities, linked, _, accepted, identity, found, principal, named, same⟩
    exact ⟨authenticated, identities, linked, accepted, identity, found, principal, named, same.symm⟩
  · rintro ⟨authenticated, identities, linked, accepted, identity, found, principal, named, same⟩
    exact ⟨authenticated, identities, linked, (), accepted, identity, found, principal, named,
      same.symm⟩

/-- The policy is configured with a provider to take the principal from. -/
theorem allOf_configured {providers : List Bytes} {linker : PeerIdentityLinker}
    {principalProvider : Option Bytes} {policy : Policy}
    (made : allOfPeerIdentities dump sha256 providers linker principalProvider = .ok policy) :
    ∃ primary ∈ providers, policy = allOf dump sha256 providers linker primary := by
  unfold allOfPeerIdentities at made
  split at made
  next => cases made
  next =>
    split at made
    next => cases made
    next configured => exact ⟨_, not_not.mp configured, (Except.ok.inj made).symm⟩

theorem allOf_admits_iff (built : Built dump evidence) {providers : List Bytes}
    {linker : PeerIdentityLinker} {principalProvider : Option Bytes} {policy : Policy}
    (made : allOfPeerIdentities dump sha256 providers linker principalProvider = .ok policy)
    (auth : AuthContext) :
    policy.Admits evidence auth ↔
      auth.authenticated = true ∧ (∀ provider ∈ providers, evidence.Usable provider) ∧
        ∃ identities, Collected evidence providers identities ∧
          usableIdentities evidence providers = .ok identities ∧ linker auth identities = .ok () := by
  rcases allOf_configured made with ⟨primary, configured, rfl⟩
  simp only [Policy.Admits, allOf_ok_iff]
  constructor
  · rintro ⟨_, authenticated, identities, linked, accepted, -⟩
    rcases usableIdentities_collected built linked with ⟨usable, collected⟩
    exact ⟨authenticated, usable, identities, collected, linked, accepted⟩
  · rintro ⟨authenticated, usable, identities, collected, linked, accepted⟩
    rcases List.length_eq_one_iff.mp (usable primary configured).one with ⟨identity, only⟩
    rcases Built.canonicalPrincipal_ok built only with ⟨principal, named⟩
    exact ⟨_, authenticated, identities, linked, accepted, identity,
      (collected primary identity).mpr ⟨configured, only⟩, principal, named, rfl⟩

theorem allOf_admittedAs (built : Built dump evidence) {providers : List Bytes}
    {linker : PeerIdentityLinker} {principalProvider : Option Bytes} {policy : Policy}
    (made : allOfPeerIdentities dump sha256 providers linker principalProvider = .ok policy)
    {auth admitted : AuthContext} (passed : policy evidence auth = .ok admitted) :
    ∃ provider ∈ providers, AdmittedAs evidence provider admitted := by
  rcases allOf_configured made with ⟨primary, configured, rfl⟩
  rcases allOf_ok_iff.mp passed with
    ⟨-, identities, linked, -, identity, found, principal, named, rfl⟩
  have collected := (usableIdentities_collected built linked).2
  exact ⟨primary, configured, identity, ((collected primary identity).mp found).2, principal,
    named, rfl⟩

/-! ## Comparing sets -/

/-- Two sets say the same about every provider. -/
structure Agree (first second : PeerEvidenceSet) : Prop where
  statuses : ∀ provider, first.status provider = second.status provider
  identities : ∀ provider, first.forProvider provider = second.forProvider provider

/-- The policies that can be configured. -/
inductive Configured (dump : Json → Bytes) (sha256 : Bytes → Bytes) : Policy → Prop
  | primary (provider : Bytes) : Configured dump sha256 (peerIdentityPrimary dump sha256 provider)
  | anyOf {providers : List Bytes} {policy : Policy}
      (made : anyOfPeerIdentities dump sha256 providers = .ok policy) :
      Configured dump sha256 policy
  | allOf {providers : List Bytes} {linker : PeerIdentityLinker} {principalProvider : Option Bytes}
      {policy : Policy}
      (made : allOfPeerIdentities dump sha256 providers linker principalProvider = .ok policy) :
      Configured dump sha256 policy

section Agree

variable {first second : PeerEvidenceSet}

theorem Agree.eligibleSubjects (agree : Agree first second) (provider : Bytes) :
    first.eligibleSubjects provider = second.eligibleSubjects provider := by
  rw [PeerEvidenceSet.eligibleSubjects, PeerEvidenceSet.eligibleSubjects, agree.identities]

theorem Agree.requireUsableProvider (agree : Agree first second) (provider : Bytes) :
    first.requireUsableProvider provider = second.requireUsableProvider provider := by
  simp only [PeerEvidenceSet.requireUsableProvider, requireAvailableProvider,
    uniqueVerifiedSubject, agree.statuses, agree.identities, agree.eligibleSubjects]

theorem Agree.bindingDigest (agree : Agree first second) (providers : List Bytes)
    (application : Option AuthContext) :
    bindingDigest dump sha256 first providers application =
      bindingDigest dump sha256 second providers application := by
  have groups : providerGroup dump first = providerGroup dump second := by
    funext provider
    rw [providerGroup, providerGroup, agree.statuses, agree.identities]
  rw [Evidence.bindingDigest, Evidence.bindingDigest, bindingPreimage, bindingPreimage,
    bindingFields, bindingFields, groups]

theorem Agree.primary (agree : Agree first second) (provider : Bytes) (auth : AuthContext) :
    peerIdentityPrimary dump sha256 provider first auth =
      peerIdentityPrimary dump sha256 provider second auth := by
  simp only [peerIdentityPrimary, agree.requireUsableProvider, agree.bindingDigest]

theorem Agree.usableIdentities (agree : Agree first second) (providers : List Bytes) :
    usableIdentities first providers = usableIdentities second providers := by
  have steps : linkProvider first = linkProvider second := by
    funext identities provider
    simp only [linkProvider, agree.requireUsableProvider]
  rw [Evidence.usableIdentities, Evidence.usableIdentities, steps]

/-- A policy reads a set through what it says about the providers. -/
theorem Configured.same {policy : Policy} (configured : Configured dump sha256 policy)
    (agree : Agree first second) (auth : AuthContext) : policy first auth = policy second auth := by
  cases configured with
  | primary provider => exact agree.primary provider auth
  | anyOf made =>
      unfold anyOfPeerIdentities at made
      split at made
      next => cases made
      next =>
        rw [← Except.ok.inj made]
        simp only [agree.statuses, agree.eligibleSubjects, agree.primary]
  | allOf made =>
      rcases allOf_configured made with ⟨primary, -, rfl⟩
      simp only [Evidence.allOf, agree.usableIdentities, agree.bindingDigest]

end Agree

/-- The order of compatible results does not matter. -/
theorem agree_of_perm {results others : List PeerIdentityResult} (compatible : Compatible results)
    (perm : results.Perm others) :
    Compatible others ∧ Agree (ofResults results) (ofResults others) := by
  have compatible' : Compatible others :=
    ⟨fun result listed => compatible.valid result (perm.mem_iff.mpr listed),
      (perm.map _).nodup_iff.mp compatible.distinct⟩
  refine ⟨compatible', ?_⟩
  constructor
  · intro provider
    rcases known_or_absent results provider with ⟨result, listed, rfl⟩ | absent
    · rw [status_ofResults compatible listed,
        status_ofResults compatible' (perm.mem_iff.mp listed)]
    · have absent' : ∀ result ∈ others, result.provider ≠ provider :=
        fun result listed => absent result (perm.mem_iff.mpr listed)
      rw [status_of_absent absent, status_of_absent absent']
  · intro provider
    rcases known_or_absent results provider with ⟨result, listed, rfl⟩ | absent
    · rw [forProvider_ofResults compatible listed,
        forProvider_ofResults compatible' (perm.mem_iff.mp listed)]
    · have absent' : ∀ result ∈ others, result.provider ≠ provider :=
        fun result listed => absent result (perm.mem_iff.mpr listed)
      rw [forProvider_of_absent compatible.valid absent,
        forProvider_of_absent compatible'.valid absent']

/-! ## Failing providers -/

/-- The statuses of a provider that did not vouch for anyone. -/
def Failing (status : PeerIdentityStatus) : Prop :=
  status = .invalid ∨ status = .untrustedProxy ∨ status = .unavailable ∨ status = .permissionDenied

/-- The results after that of one provider was replaced by a failure. -/
def failed (results : List PeerIdentityResult) (provider : Bytes) (status : PeerIdentityStatus) :
    List PeerIdentityResult :=
  results.map fun result => if result.provider = provider then ⟨provider, status, []⟩ else result

section Failed

variable {results : List PeerIdentityResult} {provider : Bytes} {status : PeerIdentityStatus}

theorem Failing.ne_available (failing : Failing status) : status ≠ .available := by
  rintro rfl
  rcases failing with same | same | same | same <;> cases same

theorem failed_provider (result : PeerIdentityResult) :
    (if result.provider = provider then ⟨provider, status, []⟩ else result :
      PeerIdentityResult).provider = result.provider := by
  split
  next same => exact same.symm
  next => rfl

theorem failed_compatible (compatible : Compatible results) (failing : Failing status) :
    Compatible (failed results provider status) := by
  constructor
  · intro result listed
    rcases List.mem_map.mp listed with ⟨before, member, rfl⟩
    have valid := compatible.valid before member
    split
    next same =>
      rw [← same]
      exact ⟨valid.named, by simp [failing.ne_available], by simp⟩
    next => exact valid
  · rw [failed, List.map_map]
    have same : PeerIdentityResult.provider ∘ (fun result : PeerIdentityResult =>
        if result.provider = provider then ⟨provider, status, []⟩ else result) =
          PeerIdentityResult.provider := by
      funext result
      exact failed_provider result
    rw [same]
    exact compatible.distinct

theorem failed_added {evidence : PeerEvidenceSet} (added : Added dump results evidence)
    (failing : Failing status) :
    Added dump (failed results provider status) (ofResults (failed results provider status)) := by
  rcases added_iff.mp added with ⟨compatible, rfl, checked⟩
  refine added_iff.mpr ⟨failed_compatible compatible failing, rfl, ?_⟩
  intro result listed identity own
  rcases List.mem_map.mp listed with ⟨before, member, rfl⟩
  split at own
  next => cases own
  next => exact checked before member identity own

theorem failed_known (compatible : Compatible results) (failing : Failing status)
    (known : ∃ result ∈ results, result.provider = provider) :
    (ofResults (failed results provider status)).status provider = status ∧
      (ofResults (failed results provider status)).forProvider provider = [] := by
  rcases known with ⟨result, listed, same⟩
  have member : (⟨provider, status, []⟩ : PeerIdentityResult) ∈ failed results provider status :=
    List.mem_map.mpr ⟨result, listed, if_pos same⟩
  have after := @failed_compatible _ provider _ compatible failing
  exact ⟨status_ofResults after member, forProvider_ofResults after member⟩

theorem failed_other (compatible : Compatible results) (failing : Failing status)
    {other : Bytes} (apart : other ≠ provider) :
    (ofResults (failed results provider status)).status other = (ofResults results).status other ∧
      (ofResults (failed results provider status)).forProvider other =
        (ofResults results).forProvider other := by
  have after := @failed_compatible _ provider _ compatible failing
  rcases known_or_absent results other with ⟨result, listed, rfl⟩ | absent
  · have member : result ∈ failed results provider status :=
      List.mem_map.mpr ⟨result, listed, if_neg apart⟩
    rw [status_ofResults after member, forProvider_ofResults after member,
      status_ofResults compatible listed, forProvider_ofResults compatible listed]
    exact ⟨rfl, rfl⟩
  · have absent' : ∀ result ∈ failed results provider status, result.provider ≠ other := by
      intro result listed
      rcases List.mem_map.mp listed with ⟨before, member, rfl⟩
      rw [failed_provider]
      exact absent before member
    rw [status_of_absent absent, status_of_absent absent', forProvider_of_absent compatible.valid
      absent, forProvider_of_absent after.valid absent']
    exact ⟨rfl, rfl⟩

theorem subjects_eq (evidence : PeerEvidenceSet) (provider : Bytes) :
    evidence.subjects provider =
      (evidence.forProvider provider).filter PeerIdentity.verifiedStable := by
  rw [forProvider, List.filter_filter, subjects]
  apply List.filter_congr
  intro identity _
  exact Bool.and_comm _ _

/-- A provider that failed is not usable; the others are what they were. -/
theorem failed_usable_iff (compatible : Compatible results) (failing : Failing status)
    (known : ∃ result ∈ results, result.provider = provider) (other : Bytes) :
    (ofResults (failed results provider status)).Usable other ↔
      other ≠ provider ∧ (ofResults results).Usable other := by
  by_cases same : other = provider
  · rw [same]
    constructor
    · intro usable
      have available := usable.available
      rw [(failed_known compatible failing known).1] at available
      exact absurd available failing.ne_available
    · rintro ⟨apart, -⟩
      exact absurd rfl apart
  · rcases @failed_other _ provider _ compatible failing _ same with ⟨statuses, identities⟩
    rw [and_iff_right same]
    constructor
    · rintro ⟨available, one⟩
      rw [subjects_eq, identities, ← subjects_eq] at one
      exact ⟨statuses ▸ available, one⟩
    · rintro ⟨available, one⟩
      rw [subjects_eq, ← identities, ← subjects_eq] at one
      exact ⟨statuses.symm ▸ available, one⟩

theorem failed_spoiled_iff (compatible : Compatible results) (failing : Failing status)
    {other : Bytes} (apart : other ≠ provider) :
    (ofResults (failed results provider status)).Spoiled other ↔
      (ofResults results).Spoiled other := by
  rcases @failed_other _ provider _ compatible failing _ apart with ⟨statuses, identities⟩
  rw [Spoiled, Spoiled, statuses, subjects_eq, identities, ← subjects_eq]

theorem usableIdentities_congr {first second : PeerEvidenceSet} {providers : List Bytes}
    (same : ∀ provider ∈ providers,
      first.requireUsableProvider provider = second.requireUsableProvider provider) :
    usableIdentities first providers = usableIdentities second providers := by
  have steps : ∀ before, providers.foldlM (linkProvider first) before =
      providers.foldlM (linkProvider second) before := by
    induction providers with
    | nil => exact fun _ => rfl
    | cons provider providers ih =>
        rw [List.forall_mem_cons] at same
        intro before
        simp only [List.foldlM_cons, linkProvider, same.1]
        apply bind_congr
        intro after
        exact ih same.2 after
  exact steps []

/-- A failure of a provider never makes the primary policy admit. -/
theorem primary_failed (added : Added dump results evidence) (failing : Failing status)
    (known : ∃ result ∈ results, result.provider = provider) {named : Bytes} {auth : AuthContext}
    (admits : (peerIdentityPrimary dump sha256 named).Admits
      (ofResults (failed results provider status)) auth) :
    (peerIdentityPrimary dump sha256 named).Admits evidence auth := by
  rw [primary_admits_iff ⟨_, failed_added added failing⟩] at admits
  rw [primary_admits_iff ⟨_, added⟩]
  rcases added_iff.mp added with ⟨compatible, rfl, -⟩
  exact ((failed_usable_iff compatible failing known named).mp admits).2

/-- A failure of a provider never makes a policy over all of some providers admit. -/
theorem allOf_failed (added : Added dump results evidence) (failing : Failing status)
    (known : ∃ result ∈ results, result.provider = provider) {providers : List Bytes}
    {linker : PeerIdentityLinker} {principalProvider : Option Bytes} {policy : Policy}
    (made : allOfPeerIdentities dump sha256 providers linker principalProvider = .ok policy)
    {auth : AuthContext} (admits : policy.Admits (ofResults (failed results provider status)) auth) :
    policy.Admits evidence auth := by
  rw [allOf_admits_iff ⟨_, failed_added added failing⟩ made] at admits
  rw [allOf_admits_iff ⟨_, added⟩ made]
  rcases admits with ⟨authenticated, usable, identities, -, linked, accepted⟩
  rcases added_iff.mp added with ⟨compatible, rfl, -⟩
  have each : ∀ named ∈ providers, named ≠ provider ∧ (ofResults results).Usable named :=
    fun named listed => (failed_usable_iff compatible failing known named).mp (usable named listed)
  have same : usableIdentities (ofResults results) providers = .ok identities := by
    rw [← linked]
    apply usableIdentities_congr
    intro named listed
    rcases @failed_other _ provider _ compatible failing _ (each named listed).1 with
      ⟨statuses, others⟩
    simp only [requireUsableProvider, requireAvailableProvider, uniqueVerifiedSubject,
      PeerEvidenceSet.eligibleSubjects, statuses, others]
  exact ⟨authenticated, fun named listed => (each named listed).2, identities,
    (usableIdentities_collected ⟨_, added⟩ same).2, same, accepted⟩

/-- A failure makes a policy over any of some providers admit only if it hides what spoiled
the provider before. -/
theorem anyOf_failed (added : Added dump results evidence) (failing : Failing status)
    (known : ∃ result ∈ results, result.provider = provider) {providers : List Bytes}
    {policy : Policy} (made : anyOfPeerIdentities dump sha256 providers = .ok policy)
    (kept : status = .invalid ∨ status = .untrustedProxy ∨ ¬evidence.Spoiled provider)
    {auth : AuthContext} (admits : policy.Admits (ofResults (failed results provider status)) auth) :
    policy.Admits evidence auth := by
  rw [anyOf_admits_iff ⟨_, failed_added added failing⟩ made] at admits
  rw [anyOf_admits_iff ⟨_, added⟩ made]
  rcases added_iff.mp added with ⟨compatible, rfl, -⟩
  rcases admits with ⟨clean, factor⟩
  constructor
  · intro named listed
    by_cases same : named = provider
    · intro spoiled
      rw [same] at listed spoiled
      have after := (failed_known compatible failing known).1
      rcases kept with rfl | rfl | unspoiled
      · exact clean provider listed (.inl after)
      · exact clean provider listed (.inr (.inl after))
      · exact unspoiled spoiled
    · rw [← @failed_spoiled_iff _ provider _ compatible failing _ same]
      exact clean named listed
  · refine factor.imp_right ?_
    rintro ⟨named, listed, usable⟩
    exact ⟨named, listed, ((failed_usable_iff compatible failing known named).mp usable).2⟩

end Failed

end Policies

/-! ## The policies -/

/-- A policy does not admit after a change whom it refused before. -/
def Policy.NoNewAdmission (policy : Policy) (before after : PeerEvidenceSet) (auth : AuthContext) :
    Prop :=
  policy.Admits after auth → policy.Admits before auth

open PeerEvidenceSet in
/-- What the policies admit, as whom, and what does not change it. -/
theorem policies_fail_closed (dump : Json → Bytes) (sha256 : Bytes → Bytes)
    {results : List PeerIdentityResult} {evidence : PeerEvidenceSet}
    (added : Added dump results evidence) (auth : AuthContext) :
    (∀ provider, ((peerIdentityPrimary dump sha256 provider).Admits evidence auth ↔
        evidence.Usable provider) ∧
      ∀ admitted, peerIdentityPrimary dump sha256 provider evidence auth = .ok admitted →
        AdmittedAs evidence provider admitted) ∧
    (∀ providers linker principalProvider policy,
      allOfPeerIdentities dump sha256 providers linker principalProvider = .ok policy →
        (policy.Admits evidence auth ↔
          auth.authenticated = true ∧ (∀ provider ∈ providers, evidence.Usable provider) ∧
            ∃ identities, Collected evidence providers identities ∧
              usableIdentities evidence providers = .ok identities ∧
                linker auth identities = .ok ()) ∧
        ∀ admitted, policy evidence auth = .ok admitted →
          ∃ provider ∈ providers, AdmittedAs evidence provider admitted) ∧
    (∀ providers policy, anyOfPeerIdentities dump sha256 providers = .ok policy →
      (policy.Admits evidence auth ↔
        (∀ provider ∈ providers, ¬evidence.Spoiled provider) ∧
          (auth.authenticated = true ∨ ∃ provider ∈ providers, evidence.Usable provider)) ∧
      ∀ admitted, policy evidence auth = .ok admitted →
        (auth.authenticated = true ∧ admitted = auth) ∨
          ∃ provider ∈ providers, AdmittedAs evidence provider admitted) ∧
    (∀ others, results.Perm others → (∃ other, Added dump others other) ∧
      ∀ other, Added dump others other → ∀ policy, Configured dump sha256 policy →
        policy other auth = policy evidence auth) ∧
    (∀ provider status, (∃ result ∈ results, result.provider = provider) → Failing status →
      (∃ after, Added dump (failed results provider status) after) ∧
      ∀ after, Added dump (failed results provider status) after →
        (∀ named, (peerIdentityPrimary dump sha256 named).NoNewAdmission evidence after auth) ∧
        (∀ providers linker principalProvider policy,
          allOfPeerIdentities dump sha256 providers linker principalProvider = .ok policy →
            policy.NoNewAdmission evidence after auth) ∧
        ∀ providers policy, anyOfPeerIdentities dump sha256 providers = .ok policy →
          (status = .invalid ∨ status = .untrustedProxy ∨ ¬evidence.Spoiled provider) →
            policy.NoNewAdmission evidence after auth) := by
  have built : Built dump evidence := ⟨results, added⟩
  refine ⟨?_, ?_, ?_, ?_, ?_⟩
  · intro provider
    exact ⟨primary_admits_iff built provider auth, fun admitted passed =>
      primary_admittedAs built passed⟩
  · intro providers linker principalProvider policy made
    exact ⟨allOf_admits_iff built made auth, fun admitted passed =>
      allOf_admittedAs built made passed⟩
  · intro providers policy made
    exact ⟨anyOf_admits_iff built made auth, fun admitted passed =>
      anyOf_admittedAs built made passed⟩
  · intro others perm
    rcases added_iff.mp added with ⟨compatible, rfl, checked⟩
    rcases agree_of_perm compatible perm with ⟨compatible', agree⟩
    constructor
    · refine ⟨_, added_iff.mpr ⟨compatible', rfl, ?_⟩⟩
      intro result listed
      exact checked result (perm.mem_iff.mpr listed)
    · intro other made policy configured
      rcases added_iff.mp made with ⟨-, rfl, -⟩
      exact (configured.same agree auth).symm
  · intro provider status known failing
    refine ⟨⟨_, failed_added added failing⟩, ?_⟩
    intro after made
    rcases added_iff.mp made with ⟨-, rfl, -⟩
    refine ⟨?_, ?_, ?_⟩
    · intro named admits
      exact primary_failed added failing known admits
    · intro providers linker principalProvider policy configured admits
      exact allOf_failed added failing known configured admits
    · intro providers policy configured kept admits
      exact anyOf_failed added failing known configured kept admits

/-- Evidence for `alice`. -/
def aliceResult : PeerIdentityResult := ⟨ascii "mesh", .available, [sampleIdentity (ascii "alice")]⟩

theorem sample_checked : ∀ identity ∈ aliceResult.identities, identity.check sampleDump = .ok () := by
  intro identity listed
  rw [List.mem_singleton.mp listed]
  decide

theorem aliceResult_added : PeerEvidenceSet.Added sampleDump [aliceResult]
    (PeerEvidenceSet.ofResults [aliceResult]) := by
  refine .new ?_ rfl
  intro result listed
  rw [List.mem_singleton.mp listed]
  exact sample_checked

/-- `alice` is admitted if the provider that vouches for her is primary. -/
theorem alice_admitted :
    (peerIdentityPrimary sampleDump id (ascii "mesh")).Admits
      (PeerEvidenceSet.ofResults [aliceResult]) .anonymous := by
  have policies := policies_fail_closed sampleDump id aliceResult_added .anonymous
  exact (policies.1 (ascii "mesh")).1.mpr ⟨by decide, by decide⟩

/-- Evidence for `alice` and against another provider. -/
def spoiledResults : List PeerIdentityResult := [⟨ascii "spiffe", .invalid, []⟩, aliceResult]

/-- The policy over any of the two refuses invalid evidence, and admits once the provider of
it is unavailable. -/
theorem unavailable_hides_invalid :
    PeerEvidenceSet.Added sampleDump spoiledResults (PeerEvidenceSet.ofResults spoiledResults) ∧
      ∃ policy, anyOfPeerIdentities sampleDump id [ascii "spiffe", ascii "mesh"] = .ok policy ∧
        ¬policy.Admits (PeerEvidenceSet.ofResults spoiledResults) .anonymous ∧
        policy.Admits (PeerEvidenceSet.ofResults
          (failed spoiledResults (ascii "spiffe") .unavailable)) .anonymous := by
  have added : PeerEvidenceSet.Added sampleDump spoiledResults
      (PeerEvidenceSet.ofResults spoiledResults) := by
    refine .new ?_ rfl
    intro result listed
    simp only [spoiledResults, List.mem_cons, List.not_mem_nil, or_false] at listed
    rcases listed with rfl | rfl
    · exact fun identity own => absurd own List.not_mem_nil
    · exact sample_checked
  have failing : Failing .unavailable := .inr (.inr (.inl rfl))
  have configured : ∃ policy, anyOfPeerIdentities sampleDump id [ascii "spiffe", ascii "mesh"] =
      .ok policy := ⟨_, rfl⟩
  rcases configured with ⟨policy, made⟩
  refine ⟨added, policy, made, ?_, ?_⟩
  · rw [anyOf_admits_iff ⟨_, added⟩ made]
    rintro ⟨clean, -⟩
    exact clean (ascii "spiffe") List.mem_cons_self (.inl rfl)
  · rw [anyOf_admits_iff ⟨_, failed_added added failing⟩ made]
    constructor
    · intro provider listed
      simp only [List.mem_cons, List.not_mem_nil, or_false] at listed
      rcases listed with rfl | rfl
      · unfold PeerEvidenceSet.Spoiled
        decide
      · unfold PeerEvidenceSet.Spoiled
        decide
    · exact .inr ⟨ascii "mesh", by decide, ⟨by decide, by decide⟩⟩

end VgiRpc.Evidence
