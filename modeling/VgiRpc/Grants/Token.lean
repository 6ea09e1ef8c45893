import VgiRpc.Cpp.Binary64
import VgiRpc.Crypto.Encoding
import VgiRpc.Identity.Xfcc
import VgiRpc.Lib.Memory

/-!
# Sealed grants

`grants.cpp`: a token is a prefix and the base64url text of a key id, a version byte
and a sealed payload.  The digest and the cipher are libsodium's and stay parameters.
The clock of the verifier is a `double` number of seconds.
-/

namespace VgiRpc.Grants

open VgiRpc.Cpp VgiRpc.Crypto VgiRpc.Identity VgiRpc.Lib

/-! ## Primitives -/

/-- The primitives of libsodium, with the sizes that its documentation gives. -/
structure Sodium where
  sha256 : Bytes → Bytes
  encrypt : (key nonce aad plaintext : Bytes) → Bytes
  decrypt : (key nonce aad body : Bytes) → Option Bytes
  sha256_length : ∀ message, (sha256 message).length = 32
  encrypt_length : ∀ key nonce aad plaintext,
    (encrypt key nonce aad plaintext).length = plaintext.length + 16

/-- Decryption undoes encryption. -/
def Sodium.Correct (sodium : Sodium) : Prop :=
  ∀ key nonce aad plaintext,
    sodium.decrypt key nonce aad (sodium.encrypt key nonce aad plaintext) = some plaintext

/-- A key has exactly 32 bytes. -/
structure GrantKey where
  bytes : Bytes
  size : bytes.length = 32
  deriving DecidableEq

/-- A nonce has exactly 24 bytes. -/
structure Nonce where
  bytes : Bytes
  size : bytes.length = 24
  deriving DecidableEq

variable (sodium : Sodium)

/-- `aead_seal_with_nonce`: the nonce, the ciphertext and the tag. -/
def aeadSealWithNonce (key : GrantKey) (plaintext aad : Bytes) (nonce : Nonce) : Bytes :=
  nonce.bytes ++ sodium.encrypt key.bytes nonce.bytes aad plaintext

/-- `aead_open`. -/
def aeadOpen (key : GrantKey) (sealed aad : Bytes) : Option Bytes :=
  if sealed.length < 24 + 16 then none
  else sodium.decrypt key.bytes (sealed.take 24) aad (sealed.drop 24)

/-! ## Configuration -/

def kKidBytes : Nat := 8
def kEnvelopeVersion : UInt8 := 1
def kMaxField : Nat := 0xffff
def kMaxGrantTokenChars : Nat := 4096
def kGrantTokenPrefix : Bytes := ascii "vgig1."
def kKidDomain : Bytes := ascii "vgi_rpc.grant.kid.v1" ++ [0]
def kAadDomain : Bytes := ascii "vgi_rpc.grant.v1" ++ [0]

/-- `GrantKeys`: the first key mints, every key verifies. -/
structure GrantKeys where
  keys : List GrantKey
  audience : Bytes
  maxTtlSeconds : Int64
  clockSkewSeconds : Int64
  deriving DecidableEq

/-- `grant_key_id`. -/
def grantKeyId (key : GrantKey) : Bytes := (sodium.sha256 (kKidDomain ++ key.bytes)).take kKidBytes

/-- Why a configuration is refused. -/
inductive ConfigError where
  | noKey
  | sameKeyId
  | ttlNotPositive
  | skewNegative
  | audienceTooLong
  deriving DecidableEq, Repr

/-- `GrantKeys::validate`. -/
def GrantKeys.validate (config : GrantKeys) : Except ConfigError Unit :=
  if config.keys = [] then .error .noKey
  else if ¬(config.keys.map (grantKeyId sodium)).Nodup then .error .sameKeyId
  else if config.maxTtlSeconds ≤ 0 then .error .ttlNotPositive
  else if config.clockSkewSeconds < 0 then .error .skewNegative
  else if config.audience.length > kMaxField then .error .audienceTooLong
  else .ok ()

/-- `GrantKeys::aad`. -/
def GrantKeys.aad (config : GrantKeys) (kid : Bytes) : Bytes := kAadDomain ++ kid ++ config.audience

/-! ## Payload -/

/-- `GrantClaims`. -/
structure GrantClaims where
  principal : Bytes
  scopes : List Bytes
  purpose : Bytes
  grantId : Bytes
  issuedAt : Int64
  expiresAt : Int64
  deriving DecidableEq

/-- The `std::invalid_argument` of minting. -/
inductive MintError where
  /-- "ttl_seconds must be positive". -/
  | ttlNotPositive
  /-- "grant configuration needs at least one key". -/
  | noKey
  /-- "too many scopes". -/
  | tooManyScopes
  /-- "grant field longer than 65535 bytes". -/
  | fieldTooLong
  deriving DecidableEq, Repr

/-- The `GrantInvalidError` of verification. -/
inductive GrantInvalid where
  | notSealedGrant
  | tooLong
  | notBase64url
  | notCanonical
  | unknownKey
  | failedVerification
  | truncated
  | notUtf8
  | trailingBytes
  | noPrincipal
  | lifetimeExceeded
  | notYetValid
  | expired
  deriving DecidableEq, Repr

/-- `GrantInvalidError::expired`: authentic, but outside its lifetime. -/
def GrantInvalid.isExpired : GrantInvalid → Bool
  | .notYetValid | .expired => true
  | _ => false

def putU16 (value : Nat) : Bytes := Memory.toBytesLE 2 value

def putI64 (value : Int64) : Bytes := Memory.toBytesLE 8 value.toUInt64.toNat

def putText (value : Bytes) : Except MintError Bytes :=
  if value.length > kMaxField then .error .fieldTooLong
  else .ok (putU16 value.length ++ value)

/-- `encode_grant_payload`. -/
def encodeGrantPayload (claims : GrantClaims) : Except MintError Bytes := do
  if claims.scopes.length > kMaxField then throw .tooManyScopes
  let grantId ← putText claims.grantId
  let principal ← putText claims.principal
  let purpose ← putText claims.purpose
  let scopes ← claims.scopes.mapM putText
  return putI64 claims.issuedAt ++ putI64 claims.expiresAt ++ grantId ++ principal ++ purpose ++
    putU16 claims.scopes.length ++ scopes.flatten

/-- `PayloadReader`: a reader takes its value off the front of what is left. -/
abbrev Reader (α : Type) := StateT Bytes (Except GrantInvalid) α

namespace Reader

def take (count : Nat) : Reader Bytes := fun left =>
  if count > left.length then .error .truncated else .ok (left.take count, left.drop count)

def u16 : Reader Nat := do return Memory.ofBytesLE (← take 2)

def i64 : Reader Int64 := do return (UInt64.ofNat (Memory.ofBytesLE (← take 8))).toInt64

def text : Reader Bytes := do
  let length ← u16
  let value ← take length
  if validUtf8 value then return value else throw .notUtf8

def texts : Nat → Reader (List Bytes)
  | 0 => return []
  | count + 1 => do
      let first ← text
      let others ← texts count
      return first :: others

end Reader

/-- `decode_grant_payload`; the read order is the format. -/
def decodeGrantPayload (payload : Bytes) : Except GrantInvalid GrantClaims :=
  let read : Reader GrantClaims := do
    let issuedAt ← Reader.i64
    let expiresAt ← Reader.i64
    let grantId ← Reader.text
    let principal ← Reader.text
    let purpose ← Reader.text
    let count ← Reader.u16
    let scopes ← Reader.texts count
    return ⟨principal, scopes, purpose, grantId, issuedAt, expiresAt⟩
  match read payload with
  | .error invalid => .error invalid
  | .ok (claims, left) => if left = [] then .ok claims else .error .trailingBytes

/-! ## Tokens -/

def isB64urlChar (byte : UInt8) : Bool :=
  isUpper byte || isLower byte || isDigit byte || byte == 0x2d || byte == 0x5f

/-- `b64url_strict`: only the canonical spelling decodes. -/
def b64urlStrict (text : Bytes) : Except GrantInvalid Bytes :=
  if text = [] ∨ text.all isB64urlChar = false ∨ text.length % 4 = 1 then .error .notBase64url
  else
    match base64urlDecode text with
    | none => .error .notBase64url
    | some raw => if base64urlEncode raw ≠ text then .error .notCanonical else .ok raw

/-- What minting needs besides the configuration; `issuedAt`, `grantId` and `nonce` come
from the clock and the random generator. -/
structure MintRequest where
  principal : Bytes
  scopes : List Bytes
  purpose : Bytes
  ttlSeconds : Int64
  issuedAt : Int64
  grantId : Bytes
  nonce : Nonce

structure MintedGrantToken where
  token : Bytes
  claims : GrantClaims
  deriving DecidableEq

/-- The claims that are minted. -/
def MintRequest.claims (request : MintRequest) (config : GrantKeys) : GrantClaims :=
  { principal := request.principal
    scopes := request.scopes
    purpose := request.purpose
    grantId := request.grantId
    issuedAt := request.issuedAt
    expiresAt := request.issuedAt +
      (if config.maxTtlSeconds < request.ttlSeconds then config.maxTtlSeconds
        else request.ttlSeconds) }

/-- The key id, the version and the sealed payload. -/
def grantEnvelope (key : GrantKey) (config : GrantKeys) (payload : Bytes) (nonce : Nonce) : Bytes :=
  let kid := grantKeyId sodium key
  kid ++ kEnvelopeVersion :: aeadSealWithNonce sodium key payload (config.aad kid) nonce

/-- `mint_grant_token`. -/
def mintGrantToken (config : GrantKeys) (request : MintRequest) :
    Except MintError MintedGrantToken := do
  if request.ttlSeconds ≤ 0 then throw .ttlNotPositive
  match config.keys with
  | [] => throw .noKey
  | key :: _ =>
      let claims := request.claims config
      let payload ← encodeGrantPayload claims
      let raw := grantEnvelope sodium key config payload request.nonce
      return ⟨kGrantTokenPrefix ++ base64urlEncode raw, claims⟩

/-- The lifetime of authentic claims, and where the clock stands in it. -/
def checkLifetime (config : GrantKeys) (claims : GrantClaims) (now : Binary64) :
    Except GrantInvalid GrantClaims :=
  if claims.principal = [] then .error .noPrincipal
  else if claims.expiresAt ≤ claims.issuedAt ∨
      claims.expiresAt.toUInt64 - claims.issuedAt.toUInt64 > config.maxTtlSeconds.toUInt64 then
    .error .lifetimeExceeded
  else
    let skew := Binary64.ofInt config.clockSkewSeconds.toInt
    if Binary64.ofInt claims.issuedAt.toInt > now + skew then .error .notYetValid
    else if now ≥ Binary64.ofInt claims.expiresAt.toInt + skew then .error .expired
    else .ok claims

/-- `verify_grant_token`. -/
def verifyGrantToken (config : GrantKeys) (token : Bytes) (now : Binary64) :
    Except GrantInvalid GrantClaims := do
  if token.take kGrantTokenPrefix.length ≠ kGrantTokenPrefix then throw .notSealedGrant
  if token.length > kMaxGrantTokenChars then throw .tooLong
  let raw ← b64urlStrict (token.drop kGrantTokenPrefix.length)
  let kid := raw.take kKidBytes
  match config.keys.find? fun candidate => grantKeyId sodium candidate = kid with
  | none => throw .unknownKey
  | some key =>
      match raw.drop kKidBytes with
      | [] => throw .failedVerification
      | version :: sealed =>
          if version ≠ kEnvelopeVersion then throw .failedVerification
          match aeadOpen sodium key sealed (config.aad kid) with
          | none => throw .failedVerification
          | some payload =>
              let claims ← decodeGrantPayload payload
              checkLifetime config claims now

end VgiRpc.Grants
