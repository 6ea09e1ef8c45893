import VgiRpc.Grants.Token
import VgiRpc.Identity.AuthContext
import VgiRpc.Identity.Shape

/-!
# The bearer chain

`resolve_http_identity` runs the deployment's authenticators, then sealed grants, then
the token resolver.  What the hooks answer is part of a request of the model, so that a
hook may answer differently from request to request.  Every call of a hook is recorded.
-/

namespace VgiRpc.Identity

open VgiRpc.Cpp VgiRpc.Grants

/-! ## Configuration and hooks -/

/-- What a hook may throw. -/
inductive HookError where
  | authUnavailable (detail : Bytes) (retryAfter : Int)
  | identityUnavailable (detail : Bytes) (retryAfter : Int)
  | other
  deriving DecidableEq

/-- `TokenIdentity`. -/
structure TokenIdentity where
  principal : Bytes
  tokenName : Bytes
  ttlSeconds : Int
  deriving DecidableEq

/-- `IdentityImpl`, as far as the bearer chain and `issue_grant` read it. -/
structure IdentityImpl where
  resolvesTokens : Bool
  mintsGrants : Bool
  maxAuthAge : Binary64
  grantKeys : Option GrantKeys

/-- The part of `HttpConfig` that the bearer chain reads. -/
structure BearerConfig where
  bearerAuthenticate : Bool
  bearerOptional : Bool
  identityBearer : Bool
  identity : Option IdentityImpl

/-- A request: its `Authorization` header, the outcome of `resolve_deployment_identity`,
what the hooks would answer, and the clock. -/
structure BearerRequest where
  header : Bytes
  deployment : Except HookError AuthContext
  authenticateAnswer : Except HookError (Option AuthContext)
  resolveAnswer : Except HookError (Option TokenIdentity)
  now : Binary64

/-- A call of a hook or of the grant verifier. -/
inductive HookCall where
  | bearerAuthenticate (token : Bytes)
  | verifyGrant (token : Bytes)
  | resolveToken (token : Bytes)
  deriving DecidableEq

/-- Why a request is refused. -/
inductive Refused where
  | invalidCredential
  | expiredCredential
  /-- `AuthUnavailableError`, answered with 503. -/
  | unavailable (detail : Bytes) (retryAfter : Int)
  /-- Another exception, answered with 401. -/
  | thrown
  deriving DecidableEq

/-- Where a context came from. -/
inductive Origin where
  | deployment
  | authenticator
  | grant
  | token
  deriving DecidableEq

/-- What the chain did with a request. -/
structure Resolution where
  calls : List HookCall
  outcome : Except Refused (Origin × AuthContext)

def IdentityImpl.bearers (identity : IdentityImpl) : Bool :=
  identity.grantKeys.isSome || identity.resolvesTokens

/-- `identity_bearer_active`: the identity that accepts bearers. -/
def BearerConfig.activeIdentity (config : BearerConfig) : Option IdentityImpl :=
  if config.identityBearer then config.identity.filter IdentityImpl.bearers else none

/-- `bearer_chain_active`. -/
def BearerConfig.chainActive (config : BearerConfig) : Bool :=
  config.bearerAuthenticate || config.activeIdentity.isSome

/-- An exception that leaves `resolve_http_identity`. -/
def HookError.refused : HookError → Refused
  | .authUnavailable detail retryAfter => .unavailable detail retryAfter
  | .identityUnavailable _ _ | .other => .thrown

/-! ## The chain -/

def kBearer : Bytes := ascii "Bearer "

/-- The context of a grant; it has no `auth_time`. -/
def grantContext (claims : GrantClaims) : AuthContext :=
  { domain := ascii "grant"
    authenticated := true
    principal := some claims.principal
    claims := [(ascii "grant_id", .text claims.grantId), (ascii "scopes", .texts claims.scopes),
      (ascii "purpose", .text claims.purpose)] }

/-- The context of a resolved token; it has no `auth_time`. -/
def tokenContext (found : TokenIdentity) : AuthContext :=
  { domain := ascii "token"
    authenticated := true
    principal := some found.principal
    claims := [(ascii "token_name", .text found.tokenName)] }

/-- A token that starts with the grant prefix. -/
def isGrantShaped (token : Bytes) : Bool := token.take kGrantTokenPrefix.length == kGrantTokenPrefix

/-- The verdict of the grant verifier. -/
def grantVerdict (sodium : Sodium) (keys : GrantKeys) (token : Bytes) (now : Binary64) :
    Except Refused (Origin × AuthContext) :=
  match verifyGrantToken sodium keys token now with
  | .error invalid => .error (if invalid.isExpired then .expiredCredential else .invalidCredential)
  | .ok claims => .ok (.grant, grantContext claims)

/-- What the answer of the token resolver means. -/
def resolveVerdict (answer : Except HookError (Option TokenIdentity)) :
    Except Refused (Origin × AuthContext) :=
  match answer with
  | .error (.identityUnavailable detail retryAfter) =>
      .error (.unavailable (if detail = [] then ascii "identity lookup unavailable" else detail)
        retryAfter)
  | .error thrown => .error thrown.refused
  | .ok none => .error .invalidCredential
  | .ok (some found) => .ok (.token, tokenContext found)

/-- The identity bearers: sealed grants, then the token resolver. -/
def identityBearers (sodium : Sodium) (identity : IdentityImpl) (request : BearerRequest)
    (token : Bytes) : Resolution :=
  match isGrantShaped token, identity.grantKeys with
  | true, some keys => ⟨[.verifyGrant token], grantVerdict sodium keys token request.now⟩
  | true, none => ⟨[], .error .invalidCredential⟩
  | false, _ =>
      if identity.resolvesTokens && rejectJwsShaped token then
        ⟨[.resolveToken token], resolveVerdict request.resolveAnswer⟩
      else ⟨[], .error .invalidCredential⟩

/-- The chain behind `bearer_authenticate`. -/
def afterAuthenticator (sodium : Sodium) (config : BearerConfig) (request : BearerRequest)
    (token : Bytes) : Resolution :=
  match config.activeIdentity with
  | none => ⟨[], .error .invalidCredential⟩
  | some identity => identityBearers sodium identity request token

/-- The chain on a credential. -/
def bearerChain (sodium : Sodium) (config : BearerConfig) (request : BearerRequest)
    (token : Bytes) : Resolution :=
  if config.bearerAuthenticate then
    match request.authenticateAnswer with
    | .error thrown => ⟨[.bearerAuthenticate token], .error thrown.refused⟩
    | .ok (some accepted) => ⟨[.bearerAuthenticate token], .ok (.authenticator, accepted)⟩
    | .ok none =>
        let rest := afterAuthenticator sodium config request token
        { rest with calls := .bearerAuthenticate token :: rest.calls }
  else afterAuthenticator sodium config request token

/-- `resolve_http_identity`. -/
def resolveHttpIdentity (sodium : Sodium) (config : BearerConfig) (request : BearerRequest) :
    Resolution :=
  match request.deployment with
  | .error thrown => ⟨[], .error thrown.refused⟩
  | .ok auth =>
      if auth.authenticated || !config.chainActive then ⟨[], .ok (.deployment, auth)⟩
      else if request.header = [] then
        if config.bearerAuthenticate && !config.bearerOptional then
          ⟨[], .error .invalidCredential⟩
        else ⟨[], .ok (.deployment, auth)⟩
      else if request.header.take kBearer.length ≠ kBearer then ⟨[], .error .invalidCredential⟩
      else bearerChain sodium config request (request.header.drop kBearer.length)

/-! ## Minting for a caller -/

/-- Why `issue_grant` refuses. -/
inductive IssueError where
  | refused
  /-- "caller is not authenticated". -/
  | notAuthenticated
  /-- "credential carries no auth_time; ...". -/
  | noAuthTime
  /-- "credential carries an unusable auth_time". -/
  | unusableAuthTime
  /-- "last authentication was ... ago, ...". -/
  | tooOld
  | hook (thrown : HookError)
  deriving DecidableEq

/-- `check_freshness`.  `stod` reads a whole text as a number, if it is one. -/
def checkFreshness (stod : Bytes → Option Binary64) (auth : AuthContext) (maxAuthAge now : Binary64) :
    Except IssueError Binary64 :=
  if auth.authenticated = false ∨ auth.principal.getD [] = [] then .error .notAuthenticated
  else
    let authTime : Except IssueError Binary64 :=
      match auth.claims.lookup (ascii "auth_time") with
      | none | some .null => .error .noAuthTime
      | some (.number value) => .ok value
      | some (.text raw) =>
          match stod raw with
          | none => .error .unusableAuthTime
          | some value => .ok value
      | some (.texts _) | some .other => .error .unusableAuthTime
    match authTime with
    | .error invalid => .error invalid
    | .ok value => if now - value > maxAuthAge then .error .tooOld else .ok value

/-- `issue_grant`, with the token that the minting hook returns. -/
def issueGrant (stod : Bytes → Option Binary64) (identity : IdentityImpl) (auth : AuthContext) (now : Binary64)
    (mintAnswer : Except HookError Bytes) : Except IssueError Bytes :=
  if identity.mintsGrants = false then .error .refused
  else
    match checkFreshness stod auth identity.maxAuthAge now with
    | .error stale => .error stale
    | .ok _ =>
        match mintAnswer with
        | .error thrown => .error (.hook thrown)
        | .ok token => .ok token

end VgiRpc.Identity
