import VgiRpc.Identity.Bearer

/-!
# The bearer chain does not confuse credentials

A token reaches the resolver only in a shape that is neither a grant nor a JWS, a grant
is decided by the grant verifier alone, a presented credential never ends as an
anonymous caller on its own, and no caller of a grant or a resolved token mints a grant.
-/

namespace VgiRpc.Identity

open VgiRpc.Cpp VgiRpc.Grants

variable {sodium : Sodium} {config : BearerConfig} {identity : IdentityImpl}
  {request : BearerRequest} {token : Bytes} {auth : AuthContext} {origin : Origin}

/-! ## The property -/

/-- A token that the resolver may see. -/
structure Resolvable (token : Bytes) : Prop where
  notGrant : isGrantShaped token = false
  trims : Trims token (trimmed token)
  notBlank : trimmed token ≠ []
  notJws : ¬JwsShape (trimmed token)
  size : token.length ≤ kMaxTokenBytes

/-- The verdict on a grant: the verifier's if there are keys. -/
def grantOutcome (sodium : Sodium) (config : BearerConfig) (token : Bytes) (now : Binary64) :
    Except Refused (Origin × AuthContext) :=
  match config.activeIdentity.bind IdentityImpl.grantKeys with
  | some keys => grantVerdict sodium keys token now
  | none => .error .invalidCredential

/-- A credential is offered to the bearer chain: the deployment did not authenticate the
caller, and the chain is on. -/
def Reaches (config : BearerConfig) (request : BearerRequest) : Prop :=
  ∃ auth, request.deployment = .ok auth ∧ auth.authenticated = false ∧ config.chainActive = true

/-- `bearer_authenticate` is not configured or declined. -/
def Declined (config : BearerConfig) (request : BearerRequest) : Prop :=
  config.bearerAuthenticate = true → request.authenticateAnswer = .ok none

/-- The caller cannot get a grant, whatever the clock and the minting hook say. -/
def CannotMint (auth : AuthContext) : Prop :=
  ∀ stod identity now mintAnswer token, issueGrant stod identity auth now mintAnswer ≠ .ok token

/-- What the chain keeps for one request. -/
structure ChainSound (sodium : Sodium) (config : BearerConfig) (request : BearerRequest) :
    Prop where
  offered : ∀ token, .resolveToken token ∈ (resolveHttpIdentity sodium config request).calls →
    Resolvable token
  grants : ∀ token, request.header = kBearer ++ token → isGrantShaped token = true →
    Reaches config request → Declined config request →
      (∀ other, .resolveToken other ∉ (resolveHttpIdentity sodium config request).calls) ∧
        (resolveHttpIdentity sodium config request).outcome =
          grantOutcome sodium config token request.now
  anonymous : ∀ origin auth, config.chainActive = true → request.header ≠ [] →
    (resolveHttpIdentity sodium config request).outcome = .ok (origin, auth) →
      auth.authenticated = false →
        config.bearerAuthenticate = true ∧ request.authenticateAnswer = .ok (some auth)
  fresh : ∀ origin auth,
    (resolveHttpIdentity sodium config request).outcome = .ok (origin, auth) →
      origin = .grant ∨ origin = .token → CannotMint auth

/-! ## Each stage -/

theorem resolvable_of_guards (shape : isGrantShaped token = false)
    (passed : rejectJwsShaped token = true) : Resolvable token := by
  rcases (rejectJwsShaped_iff token).mp passed with ⟨notBlank, size, notJws⟩
  exact ⟨shape, trims_trimmed token, notBlank, notJws, size⟩

theorem identityBearers_offered {other : Bytes}
    (called : .resolveToken other ∈ (identityBearers sodium identity request token).calls) :
    Resolvable other := by
  unfold identityBearers at called
  split at called
  next => simp at called
  next => simp at called
  next shape =>
    split at called
    next passed =>
      rw [List.mem_singleton, HookCall.resolveToken.injEq] at called
      rw [Bool.and_eq_true] at passed
      rw [called]
      exact resolvable_of_guards shape passed.2
    next => simp at called

theorem afterAuthenticator_offered {other : Bytes}
    (called : .resolveToken other ∈ (afterAuthenticator sodium config request token).calls) :
    Resolvable other := by
  unfold afterAuthenticator at called
  split at called
  next => simp at called
  next => exact identityBearers_offered called

theorem bearerChain_offered {other : Bytes}
    (called : .resolveToken other ∈ (bearerChain sodium config request token).calls) :
    Resolvable other := by
  unfold bearerChain at called
  split at called
  next =>
    split at called
    next => simp at called
    next => simp at called
    next =>
      rw [List.mem_cons] at called
      rcases called with impossible | called
      · simp at impossible
      · exact afterAuthenticator_offered called
  next => exact afterAuthenticator_offered called

/-- Behind the authenticator, a grant is the verifier's business only. -/
theorem afterAuthenticator_grant (sodium : Sodium) (config : BearerConfig)
    (request : BearerRequest) (shape : isGrantShaped token = true) :
    (∀ other, .resolveToken other ∉ (afterAuthenticator sodium config request token).calls) ∧
      (afterAuthenticator sodium config request token).outcome =
        grantOutcome sodium config token request.now := by
  unfold afterAuthenticator grantOutcome
  cases config.activeIdentity with
  | none => simp
  | some identity =>
      cases keys : identity.grantKeys with
      | none => simp [identityBearers, shape, keys]
      | some keys => simp [identityBearers, shape, keys]

theorem bearerChain_grant (sodium : Sodium) (shape : isGrantShaped token = true)
    (declined : Declined config request) :
    (∀ other, .resolveToken other ∉ (bearerChain sodium config request token).calls) ∧
      (bearerChain sodium config request token).outcome =
        grantOutcome sodium config token request.now := by
  have rest := afterAuthenticator_grant sodium config request shape
  unfold bearerChain
  split
  next configured =>
    rw [declined configured]
    simp [rest.1, rest.2]
  next => exact rest

/-! ## Outcomes -/

/-- The context of an identity bearer is authenticated and carries no `auth_time`. -/
structure FromBearer (origin : Origin) (auth : AuthContext) : Prop where
  authenticated : auth.authenticated = true
  noAuthTime : auth.claims.lookup (ascii "auth_time") = none

theorem fromBearer_grantContext (claims : GrantClaims) : FromBearer .grant (grantContext claims) :=
  ⟨rfl, by rfl⟩

theorem fromBearer_tokenContext (found : TokenIdentity) : FromBearer .token (tokenContext found) :=
  ⟨rfl, by rfl⟩

theorem afterAuthenticator_outcome
    (resolved : (afterAuthenticator sodium config request token).outcome = .ok (origin, auth)) :
    FromBearer origin auth := by
  unfold afterAuthenticator identityBearers at resolved
  split at resolved
  next => simp at resolved
  next =>
    split at resolved
    next =>
      unfold grantVerdict at resolved
      split at resolved
      next => simp at resolved
      next claims _ =>
        rw [Except.ok.injEq, Prod.mk.injEq] at resolved
        rw [← resolved.1, ← resolved.2]
        exact fromBearer_grantContext claims
    next => simp at resolved
    next =>
      split at resolved
      next =>
        unfold resolveVerdict at resolved
        split at resolved
        next => simp at resolved
        next => simp at resolved
        next => simp at resolved
        next found _ =>
          rw [Except.ok.injEq, Prod.mk.injEq] at resolved
          rw [← resolved.1, ← resolved.2]
          exact fromBearer_tokenContext found
      next => simp at resolved

/-- A context of the chain is the authenticator's own or an identity bearer's. -/
theorem bearerChain_outcome
    (resolved : (bearerChain sodium config request token).outcome = .ok (origin, auth)) :
    (origin = .authenticator ∧ config.bearerAuthenticate = true ∧
        request.authenticateAnswer = .ok (some auth)) ∨ FromBearer origin auth := by
  unfold bearerChain at resolved
  split at resolved
  next configured =>
    split at resolved
    next => simp at resolved
    next accepted answer =>
      rw [Except.ok.injEq, Prod.mk.injEq] at resolved
      rw [resolved.2] at answer
      exact .inl ⟨resolved.1.symm, configured, answer⟩
    next => exact .inr (afterAuthenticator_outcome resolved)
  next => exact .inr (afterAuthenticator_outcome resolved)

/-- Who a resolved caller is. -/
theorem resolveHttpIdentity_outcome
    (resolved : (resolveHttpIdentity sodium config request).outcome = .ok (origin, auth)) :
    (origin = .deployment ∧ (auth.authenticated = true ∨ config.chainActive = false ∨
        request.header = [])) ∨
      (origin = .authenticator ∧ config.bearerAuthenticate = true ∧
        request.authenticateAnswer = .ok (some auth)) ∨ FromBearer origin auth := by
  unfold resolveHttpIdentity at resolved
  split at resolved
  next => simp at resolved
  next deployed _ =>
    split at resolved
    next early =>
      rw [Except.ok.injEq, Prod.mk.injEq] at resolved
      rw [resolved.2, Bool.or_eq_true, Bool.not_eq_true'] at early
      left
      refine ⟨resolved.1.symm, ?_⟩
      rcases early with authenticated | inactive
      · exact .inl authenticated
      · exact .inr (.inl inactive)
    next =>
      split at resolved
      next empty =>
        split at resolved
        next => simp at resolved
        next =>
          rw [Except.ok.injEq, Prod.mk.injEq] at resolved
          exact .inl ⟨resolved.1.symm, .inr (.inr empty)⟩
      next =>
        split at resolved
        next => simp at resolved
        next => exact .inr (bearerChain_outcome resolved)

theorem cannotMint_of_noAuthTime (missing : auth.claims.lookup (ascii "auth_time") = none) :
    CannotMint auth := by
  intro stod identity now mintAnswer token
  unfold issueGrant
  split
  next => simp
  next =>
    have stale : ∃ why, checkFreshness stod auth identity.maxAuthAge now = .error why := by
      rw [checkFreshness]
      split
      next => exact ⟨_, rfl⟩
      next =>
        rw [missing]
        exact ⟨_, rfl⟩
    rcases stale with ⟨why, stale⟩
    rw [stale]
    simp

/-! ## The chain -/

theorem resolveHttpIdentity_grant (header : request.header = kBearer ++ token)
    (reaches : Reaches config request) :
    resolveHttpIdentity sodium config request = bearerChain sodium config request token := by
  rcases reaches with ⟨auth, deployment, anonymous, active⟩
  have present : request.header ≠ [] := by
    rw [header]
    simp [kBearer, ascii]
  rw [resolveHttpIdentity, deployment]
  simp only [anonymous, active, Bool.not_true, Bool.or_false, Bool.false_eq_true, if_false,
    header, List.take_left, ne_eq, not_true_eq_false, List.drop_left]
  rw [if_neg]
  rw [← header]
  exact present

theorem resolveHttpIdentity_offered
    (called : .resolveToken token ∈ (resolveHttpIdentity sodium config request).calls) :
    Resolvable token := by
  unfold resolveHttpIdentity at called
  split at called
  next => simp at called
  next =>
    split at called
    next => simp at called
    next =>
      split at called
      next =>
        split at called
        next => simp at called
        next => simp at called
      next =>
        split at called
        next => simp at called
        next => exact bearerChain_offered called

theorem chainSound (sodium : Sodium) (config : BearerConfig) (request : BearerRequest) :
    ChainSound sodium config request := by
  constructor
  · intro token called
    exact resolveHttpIdentity_offered called
  · intro token header shape reaches declined
    rw [resolveHttpIdentity_grant header reaches]
    exact bearerChain_grant sodium shape declined
  · intro origin auth active present resolved anonymous
    rcases resolveHttpIdentity_outcome resolved with ⟨-, why⟩ | ⟨-, answered⟩ | bearer
    · rcases why with authenticated | inactive | empty
      · simp [anonymous] at authenticated
      · simp [active] at inactive
      · exact absurd empty present
    · exact answered
    · have authenticated := bearer.authenticated
      simp [anonymous] at authenticated
  · intro origin auth resolved identityBearer
    rcases resolveHttpIdentity_outcome resolved with ⟨rfl, -⟩ | ⟨rfl, -⟩ | bearer
    · simp at identityBearer
    · simp at identityBearer
    · exact cannotMint_of_noAuthTime bearer.noAuthTime

/-- Every request of a run is sound. -/
def RunSound (sodium : Sodium) (config : BearerConfig) (run : List BearerRequest) : Prop :=
  ∀ request ∈ run, ChainSound sodium config request

end VgiRpc.Identity
