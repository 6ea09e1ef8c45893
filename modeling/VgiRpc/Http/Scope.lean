import VgiRpc.Http.Route
import VgiRpc.Http.Stream
import VgiRpc.Identity.AuthContext
import VgiRpc.Lib.Separators

/-!
# The scope of a caller

Session tokens are sealed under `session_aad` of the caller, cursors and call tokens
are bound to `stream_aad` of the caller and the protocol.  Both join strings with a
separator byte.  The protocol cannot contain its separator, but a domain can contain
the NUL between domain and principal, and then two callers can have one scope.
-/

namespace VgiRpc.Http

open VgiRpc.Cpp VgiRpc.Identity VgiRpc.Lib VgiRpc.Session

/-! ## Scopes -/

def kAadPrefix : Bytes := ascii "vgi_rpc.state.v4"

/-- `session_aad`. -/
def sessionAad (domain principal : Bytes) (authenticated : Bool) : Bytes :=
  if authenticated then kAadPrefix ++ 0 :: 1 :: (domain ++ 0 :: principal)
  else kAadPrefix ++ 0 :: 0 :: ascii "anonymous"

/-- `stream_aad`. -/
def streamAad (identityAad protocol : Bytes) : Bytes := identityAad ++ 0x1f :: protocol

/-- The scope that `handle_rpc` computes for a caller. -/
def callerScope (auth : AuthContext) : Bytes :=
  sessionAad auth.domain (auth.principal.getD []) auth.authenticated

/-- One caller: all callers that are not authenticated are the same. -/
def SameCaller (left right : AuthContext) : Prop :=
  left.authenticated = right.authenticated ∧
    (left.authenticated = true →
      left.domain = right.domain ∧ left.principal.getD [] = right.principal.getD [])

/-- The domain of the left caller contains a NUL at which it splits into the domain of
the right caller and the front of that caller's principal. -/
def Shifted (left right : AuthContext) : Prop :=
  left.authenticated = true ∧ right.authenticated = true ∧
    ∃ middle, left.domain = right.domain ++ 0 :: middle ∧
      right.principal.getD [] = middle ++ 0 :: left.principal.getD []

theorem separator_not_mem_protocol (server : Hosting) (path : Bytes) :
    0x1f ∉ (routePath server path).protocol := by
  rcases routePath_protocol server path with none | valid
  · simp [none]
  · intro mem
    have impossible := isProtocolByte_of_mem valid mem
    simp [isProtocolByte, isAlnum, isAlpha, isUpper, isLower, isDigit] at impossible

/-! ## When scopes coincide -/

theorem sameCaller_of_shared (left right : AuthContext) :
    callerScope left = callerScope right ↔
      SameCaller left right ∨ Shifted left right ∨ Shifted right left := by
  cases one : left.authenticated with
  | false =>
      cases two : right.authenticated with
      | false => simp [callerScope, sessionAad, SameCaller, one, two]
      | true => simp [callerScope, sessionAad, SameCaller, Shifted, one, two]
  | true =>
      cases two : right.authenticated with
      | false => simp [callerScope, sessionAad, SameCaller, Shifted, one, two]
      | true =>
          simp only [callerScope, sessionAad, one, two, if_true, List.append_cancel_left_eq,
            List.cons.injEq, true_and]
          rw [append_cons_eq]
          simp [SameCaller, Shifted, one, two]

/-- A caller is not a shifted copy of itself. -/
theorem not_shifted_of_sameCaller {left right : AuthContext} (same : SameCaller left right) :
    ¬Shifted left right := by
  intro shifted
  rcases shifted with ⟨one, -, middle, domain, -⟩
  have equal := congrArg List.length domain
  rw [(same.2 one).1] at equal
  simp at equal

theorem streamAad_eq_iff (left right : Bytes) {first second : Bytes} (one : 0x1f ∉ first)
    (two : 0x1f ∉ second) :
    streamAad left first = streamAad right second ↔ left = right ∧ first = second :=
  append_cons_inj one two

/-! ## Tokens of another scope -/

/-- An ideal AEAD: what was sealed under one scope opens under no other. -/
def OpensOnlyUnder (aeadOpen : AeadOpen) (sealed scope : Bytes) : Prop :=
  ∀ other, other ≠ scope → aeadOpen sealed other = none

/-- A session token that was minted under one scope is refused under the other. -/
def SessionTokenRefused (minted used : Bytes) : Prop :=
  ∀ (aeadOpen : AeadOpen) (serverId token sealed : Bytes) (version : UInt8) (unixNow : Nat),
    Crypto.base64urlDecode token = some (version :: sealed) →
      OpensOnlyUnder aeadOpen sealed minted →
        unsealToken aeadOpen serverId token used unixNow = .error .unsealable

/-- A cursor that was registered under one scope, and a call token that was minted
under it, are refused under the other. -/
def StreamTokensRefused (minted used : Bytes) : Prop :=
  (∀ (config : StreamConfig) (registry : Registry) (cursor callToken : Bytes)
      (session : StreamSession), registry.lookup cursor = some session → session.aad = minted →
        findStream config registry cursor used callToken = none) ∧
    ∀ (config : StreamConfig) (session : StreamSession) (cursor callToken raw : Bytes),
      Crypto.base64urlDecode callToken = some raw →
        OpensOnlyUnder config.tokenOpen raw minted →
          callTokenResolves config session cursor used callToken = false

theorem sessionTokenRefused {minted used : Bytes} (foreign : used ≠ minted) :
    SessionTokenRefused minted used := by
  intro aeadOpen serverId token sealed version unixNow decoded only
  have present : token ≠ [] := by
    rintro rfl
    simp [Crypto.base64urlDecode, Crypto.base64urlDecodeLoop] at decoded
  rw [unsealToken, if_neg present, decoded]
  simp only [only used foreign]
  split
  next => rfl
  next => rfl

theorem streamTokensRefused {minted used : Bytes} (foreign : used ≠ minted) :
    StreamTokensRefused minted used := by
  constructor
  · intro config registry cursor callToken session registered bound
    rw [findStream]
    split
    next => rfl
    next =>
      rw [registered]
      simp only [bound]
      rw [if_pos (Ne.symm foreign)]
  · intro config session cursor callToken raw decoded only
    rw [callTokenResolves, decoded]
    simp only [only used foreign]

/-! ## Scopes identify callers -/

/-- The scopes of two callers, each at a protocol. -/
structure ScopesIdentify (left right : AuthContext) (first second : Bytes) : Prop where
  session : callerScope left = callerScope right ↔ SameCaller left right
  stream : streamAad (callerScope left) first = streamAad (callerScope right) second ↔
    SameCaller left right ∧ first = second
  sessionRefused : ¬SameCaller left right →
    SessionTokenRefused (callerScope left) (callerScope right)
  streamRefused : ¬(SameCaller left right ∧ first = second) →
    StreamTokensRefused (streamAad (callerScope left) first)
      (streamAad (callerScope right) second)

end VgiRpc.Http
