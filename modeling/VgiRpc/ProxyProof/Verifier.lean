import VgiRpc.Crypto.Encoding
import Mathlib.Data.List.AList

/-!
# The proxy-proof verifier

`ProofVerifier` checks the `VGI-Proxy-Proof` header: five dot-separated fields,
a known key id, a timestamp inside a two-sided window around the verifier's
clock, and an HMAC over the fields and the verifier's own origin id.  A header
that passes goes through the replay cache, which remembers each nonce from the
second it arrived.

`verify` reads the clock twice, once for the window and once inside
`seen_nonce`; a call carries both readings.  HMAC-SHA256 is libsodium's and is a
parameter.
-/

namespace VgiRpc.ProxyProof

open Cpp Crypto

inductive ProofMode where
  | off
  | allow
  | require
  deriving DecidableEq, Repr

inductive ProofReason where
  | ok
  | noProof
  | malformed
  | unknownKid
  | expired
  | notYetValid
  | badMac
  | replayed
  deriving DecidableEq, Repr

/-- `proxyLabel` is set only when verified; `claimedKid` is informational. -/
structure ProofResult where
  reason : ProofReason := .noProof
  proxyLabel : Bytes := []
  claimedKid : Bytes := []
  deriving DecidableEq, Repr

/-- `HMAC-SHA256` of a message under a key. -/
abbrev Hmac := Bytes → Bytes → Bytes

def kProofLabel : Bytes := ascii "vgi.proxy.proof.v1"

def kMaxHeaderBytes : Nat := 512

def isKidChar (byte : UInt8) : Bool := isAlnum byte || byte == 0x5f || byte == 0x2d

def isB64urlChar (byte : UInt8) : Bool := isAlnum byte || byte == 0x2d || byte == 0x5f

def validKid (text : Bytes) : Bool :=
  text ≠ [] && text.length ≤ 64 && text.all isKidChar

def validTs (text : Bytes) : Bool :=
  text ≠ [] && text.length ≤ 20 && text.all isDigit

def validB64urlFixed (text : Bytes) (length : Nat) : Bool :=
  text.length = length && text.all isB64urlChar

/-- One to 255 letters, digits, dots, underscores, colons, slashes and dashes. -/
def validOriginId (text : Bytes) : Bool :=
  text ≠ [] && text.length ≤ 255 && text.all fun byte =>
    isAlnum byte || byte == 0x2e || byte == 0x5f || byte == 0x3a || byte == 0x2f ||
      byte == 0x2d

/-- The pieces of a text between separators; there is always at least one. -/
def splitOn (separator : UInt8) : Bytes → List Bytes
  | [] => [[]]
  | byte :: rest =>
      if byte = separator then
        [] :: splitOn separator rest
      else
        match splitOn separator rest with
        | piece :: pieces => (byte :: piece) :: pieces
        | [] => [[byte]]

/-- Exactly `count` pieces, or nothing. -/
def splitExact (text : Bytes) (separator : UInt8) (count : Nat) : Option (List Bytes) :=
  let pieces := splitOn separator text
  if pieces.length = count then some pieces else none

/-- What the operator configured.  The secrets are 32 raw bytes each. -/
structure Config where
  mode : ProofMode
  originId : Bytes
  secrets : List (Bytes × Bytes)
  skewSeconds : Int
  replayCache : Bool
  replayCapacity : Nat

/-- The messages of the `std::invalid_argument`s of the constructor. -/
inductive ConfigError where
  | notKidHex (entry : Bytes)
  | badKid (kid : Bytes)
  | badSecretLength (kid : Bytes) (length : Nat)
  | secretNotHex (kid : Bytes)
  | badOriginId
  | noSecrets
  deriving DecidableEq, Repr

def ConfigError.what : ConfigError → Bytes
  | .notKidHex entry => ascii "proxy-proof secret entry is not \x27kid:hex\x27: " ++ entry
  | .badKid kid => ascii "proxy-proof kid is not [A-Za-z0-9_-]\x7b1,64\x7d: " ++ kid
  | .badSecretLength kid length =>
      ascii "proxy-proof secret for \x27" ++ kid ++
        ascii "\x27 must be 64 hex characters, got " ++ decimal length
  | .secretNotHex kid => ascii "proxy-proof secret for \x27" ++ kid ++ ascii "\x27 is not hex"
  | .badOriginId =>
      ascii "proxy-proof origin_id is required in allow/require mode and must match " ++
        ascii "[A-Za-z0-9._:/-]\x7b1,255\x7d"
  | .noSecrets => ascii "proxy-proof mode is allow/require but no secrets are configured"

/-- One `kid:hex` entry of the secrets specification. -/
def parseSecret (entry : Bytes) : Except ConfigError (Bytes × Bytes) :=
  match entry.idxOf? 0x3a with
  | none => .error (.notKidHex entry)
  | some colon =>
      let kid := entry.take colon
      let hex := entry.drop (colon + 1)
      if !validKid kid then .error (.badKid kid)
      else if hex.length ≠ 64 then .error (.badSecretLength kid hex.length)
      else match hexDecode hex with
        | none => .error (.secretNotHex kid)
        | some raw => .ok (kid, raw)

/-- `parse_secrets`: comma-separated entries, empty ones skipped, a later entry
for a key id replacing an earlier one. -/
def parseSecrets (spec : Bytes) : Except ConfigError (List (Bytes × Bytes)) :=
  ((splitOn 0x2c spec).filter (· ≠ [])).foldlM (fun secrets entry => do
    let secret ← parseSecret entry
    return secret :: secrets.filter (·.1 ≠ secret.1)) []

/-- The constructor. -/
def Config.create (mode : ProofMode) (originId secretsSpec : Bytes) (skewSeconds : Int)
    (replayCache : Bool) (replayCapacity : Nat) : Except ConfigError Config :=
  let skewSeconds := if skewSeconds > 0 then skewSeconds else 30
  if mode = .off then
    .ok ⟨mode, originId, [], skewSeconds, replayCache, replayCapacity⟩
  else if !validOriginId originId then
    .error .badOriginId
  else do
    let secrets ← parseSecrets secretsSpec
    if secrets = [] then
      .error .noSecrets
    else
      .ok ⟨mode, originId, secrets, skewSeconds, replayCache, replayCapacity⟩

/-- `nonces_` and `nonce_order_`: first-seen second of each nonce, and the
nonces in arrival order. -/
structure ReplayCache where
  nonces : AList fun _ : Bytes => Int
  order : List Bytes

def ReplayCache.empty : ReplayCache := ⟨∅, []⟩

namespace ReplayCache

def size (cache : ReplayCache) : Nat := cache.nonces.keys.length

/-- The expiry loop of `seen_nonce`: pop the front while it is unknown or has
aged past the window. -/
def dropExpired (skew now : Int) (nonces : AList fun _ : Bytes => Int) :
    List Bytes → ReplayCache
  | [] => ⟨nonces, []⟩
  | front :: rest =>
      match nonces.lookup front with
      | some seen =>
          if now - seen ≤ skew then ⟨nonces, front :: rest⟩
          else dropExpired skew now (nonces.erase front) rest
      | none => dropExpired skew now nonces rest

/-- The capacity loop of `seen_nonce`. -/
def evictOldest (capacity : Nat) (nonces : AList fun _ : Bytes => Int) :
    List Bytes → ReplayCache
  | [] => ⟨nonces, []⟩
  | front :: rest =>
      if nonces.keys.length ≥ capacity then
        evictOldest capacity (nonces.erase front) rest
      else
        ⟨nonces, front :: rest⟩

/-- `nonces_[nonce] = now; nonce_order_.push_back(nonce)`. -/
def push (cache : ReplayCache) (nonce : Bytes) (now : Int) : ReplayCache :=
  ⟨cache.nonces.insert nonce now, cache.order ++ [nonce]⟩

/-- Whether the nonce is already known, and the cache afterwards. -/
def seenNonce (config : Config) (now : Int) (cache : ReplayCache) (nonce : Bytes) :
    Bool × ReplayCache :=
  if !config.replayCache then
    (false, cache)
  else
    let live := dropExpired config.skewSeconds now cache.nonces cache.order
    if nonce ∈ live.nonces then
      (true, live)
    else
      let roomy := evictOldest config.replayCapacity live.nonces live.order
      (false, roomy.push nonce now)

end ReplayCache

/-- The fields of a well-formed header. -/
structure Proof where
  kid : Bytes
  ts : Bytes
  nonce : Bytes
  mac : Bytes
  deriving DecidableEq, Repr

/-- Split a header into its fields and check their alphabets. -/
def parseProof (header : Bytes) : Option Proof :=
  match splitExact header 0x2e 5 with
  | some [version, kid, ts, nonce, mac] =>
      if version = ascii "v1" ∧ validKid kid ∧ validTs ts ∧ validB64urlFixed nonce 22 ∧
          validB64urlFixed mac 43 then
        some ⟨kid, ts, nonce, mac⟩
      else
        none
  | _ => none

/-- The bytes under the MAC. -/
def canonical (config : Config) (proof : Proof) : Bytes :=
  kProofLabel ++ [0] ++ proof.kid ++ [0] ++ proof.ts ++ [0] ++ proof.nonce ++ [0] ++
    config.originId

/-- Everything `verify` checks before it consults the replay cache, in the
source's order: the refusal, or the fields of the header. -/
def checkProof (hmac : Hmac) (config : Config) (now : Int) (header : Bytes) (count : Int) :
    Except ProofResult Proof :=
  if count = 0 then
    .error { reason := .noProof }
  else if count ≠ 1 ∨ header = [] ∨ header.length > kMaxHeaderBytes then
    .error { reason := .malformed }
  else match parseProof header with
    | none => .error { reason := .malformed }
    | some proof =>
        match config.secrets.lookup proof.kid with
        | none => .error { reason := .unknownKid, claimedKid := proof.kid }
        | some secret =>
            match stoll proof.ts with
            | none => .error { reason := .malformed, claimedKid := proof.kid }
            | some tsValue =>
                if now - tsValue > config.skewSeconds then
                  .error { reason := .expired, claimedKid := proof.kid }
                else if tsValue - now > config.skewSeconds then
                  .error { reason := .notYetValid, claimedKid := proof.kid }
                else if !constantTimeEqual
                    (base64urlEncode (hmac secret (canonical config proof))) proof.mac then
                  .error { reason := .badMac, claimedKid := proof.kid }
                else
                  .ok proof

/-- One request as the verifier sees it: the header value, how many instances
the request carried, and the two clock readings. -/
structure Call where
  header : Bytes
  count : Int
  now : Int
  nowSeen : Int
  deriving DecidableEq, Repr

/-- `ProofVerifier::verify`. -/
def verify (hmac : Hmac) (config : Config) (cache : ReplayCache) (call : Call) :
    ProofResult × ReplayCache :=
  if config.mode = .off then
    ({ reason := .ok }, cache)
  else
    match checkProof hmac config call.now call.header call.count with
    | .error refusal => (refusal, cache)
    | .ok proof =>
        let seen := cache.seenNonce config call.nowSeen proof.nonce
        if seen.1 then
          ({ reason := .replayed, claimedKid := proof.kid }, seen.2)
        else
          ({ reason := .ok, proxyLabel := proof.kid, claimedKid := proof.kid }, seen.2)

/-- A sequence of calls, each with its answer. -/
def verifyAll (hmac : Hmac) (config : Config) :
    ReplayCache → List Call → List (Call × ProofResult)
  | _, [] => []
  | cache, call :: calls =>
      let answer := verify hmac config cache call
      (call, answer.1) :: verifyAll hmac config answer.2 calls

end VgiRpc.ProxyProof
