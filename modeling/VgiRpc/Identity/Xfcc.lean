import VgiRpc.Cpp.Text

/-!
# Envoy's forwarded client certificate header

A model of `spiffe_proxy_identity.cpp`: the quote-aware splitter, the parser of
one `X-Forwarded-Client-Cert` element and the SPIFFE provider that turns its URI
and Hash into a workload identity.  A thrown `std::invalid_argument` is the
`error` of its text.
-/

namespace VgiRpc.Identity

open VgiRpc.Cpp

/-! ## Text helpers -/

def quote : UInt8 := 0x22
def backslash : UInt8 := 0x5c
def semicolon : UInt8 := 0x3b
def comma : UInt8 := 0x2c
def equals : UInt8 := 0x3d
def percent : UInt8 := 0x25

/-- The low six bits of a continuation byte. -/
def continuationBits (byte : UInt8) : Option Nat :=
  if byte &&& 0xc0 = 0x80 then some (byte &&& 0x3f).toNat else none

/-- The code point that continuation bytes complete. -/
def continued (lead : Nat) (bytes : List UInt8) : Option Nat :=
  bytes.foldlM (fun code byte => (continuationBits byte).map fun bits => code * 64 + bits) lead

/-- A decoded code point is in range, not a surrogate and not overlong. -/
def codeAllowed (least : Nat) : Option Nat → Bool
  | none => false
  | some code => least ≤ code && code ≤ 0x10ffff && !(0xd800 ≤ code && code ≤ 0xdfff)

/-- `valid_utf8`. -/
def validUtf8 : Bytes → Bool
  | [] => true
  | first :: rest =>
      if first < 0x80 then
        validUtf8 rest
      else if first &&& 0xe0 = 0xc0 then
        match rest with
        | second :: rest =>
            codeAllowed 0x80 (continued (first &&& 0x1f).toNat [second]) && validUtf8 rest
        | _ => false
      else if first &&& 0xf0 = 0xe0 then
        match rest with
        | second :: third :: rest =>
            codeAllowed 0x800 (continued (first &&& 0x0f).toNat [second, third]) &&
              validUtf8 rest
        | _ => false
      else if first &&& 0xf8 = 0xf0 then
        match rest with
        | second :: third :: fourth :: rest =>
            codeAllowed 0x10000 (continued (first &&& 0x07).toNat [second, third, fourth]) &&
              validUtf8 rest
        | _ => false
      else
        false

theorem validUtf8_of_ascii {value : Bytes} (small : ∀ byte ∈ value, byte < 0x80) :
    validUtf8 value = true := by
  induction value with
  | nil => rfl
  | cons byte value ih =>
      rw [List.forall_mem_cons] at small
      unfold validUtf8
      rw [if_pos small.1]
      exact ih small.2

/-- `has_control`. -/
def hasControl (value : Bytes) : Bool := value.any fun byte => byte < 0x20 || byte == 0x7f

/-- `std::tolower` in the "C" locale. -/
def toLower (byte : UInt8) : UInt8 := if isUpper byte then byte + 0x20 else byte

def lowerAscii (value : Bytes) : Bytes := value.map toLower

/-- `trim_ascii`. -/
def trimAscii (value : Bytes) : Bytes :=
  ((value.dropWhile isSpace).reverse.dropWhile isSpace).reverse

/-- Value of one hexadecimal digit. -/
def hexValue (byte : UInt8) : Option UInt8 :=
  if 0x30 ≤ byte && byte ≤ 0x39 then some (byte - 0x30)
  else if 0x61 ≤ byte && byte ≤ 0x66 then some (byte - 0x61 + 10)
  else if 0x41 ≤ byte && byte ≤ 0x46 then some (byte - 0x41 + 10)
  else none

def isXDigit (byte : UInt8) : Bool := (hexValue byte).isSome

/-- The bytes that `percent_decode` lets through. -/
def checkDecoded (certificate : Bool) (byte : UInt8) : Except String Unit :=
  if certificate then
    if 0x7f < byte || (byte < 0x20 && byte != 0x0d && byte != 0x0a) || byte == 0x7f then
      .error "invalid decoded certificate header"
    else
      .ok ()
  else if byte < 0x20 || byte == 0x7f then
    .error "invalid percent-decoded field"
  else
    .ok ()

/-- The decoding loop of `percent_decode`. -/
def percentDecodeBytes (certificate : Bool) : Bytes → Except String Bytes
  | [] => .ok []
  | byte :: rest =>
      if byte = percent then
        match rest with
        | high :: low :: rest =>
            match hexValue high, hexValue low with
            | some high, some low => do
                checkDecoded certificate (high <<< 4 ||| low)
                return (high <<< 4 ||| low) :: (← percentDecodeBytes certificate rest)
            | _, _ => .error "invalid percent escape"
        | _ => .error "invalid percent escape"
      else do
        checkDecoded certificate byte
        return byte :: (← percentDecodeBytes certificate rest)

/-- `percent_decode`. -/
def percentDecode (value : Bytes) (certificate : Bool) : Except String Bytes := do
  let out ← percentDecodeBytes certificate value
  if validUtf8 out then return out else throw "invalid percent-decoded UTF-8"

/-! ## The quote-aware splitter -/

/-- The loop of `split_xfcc`: the finished parts, the part being read, and
whether it stands inside quotes or right after a backslash. -/
def splitXfccLoop (delimiter : UInt8) :
    Bytes → (parts : List Bytes) → (current : Bytes) → (quoted escaped : Bool) →
      Except String (List Bytes)
  | [], parts, current, quoted, escaped =>
      if quoted || escaped then
        .error "unterminated XFCC quoted value"
      else
        .ok (parts ++ [current])
  | c :: rest, parts, current, quoted, escaped =>
      if escaped then
        if c != quote && c != backslash then
          .error "unsupported XFCC escape"
        else
          splitXfccLoop delimiter rest parts (current ++ [c]) quoted false
      else if quoted && c == backslash then
        splitXfccLoop delimiter rest parts current quoted true
      else if c == quote then
        splitXfccLoop delimiter rest parts (current ++ [c]) (!quoted) false
      else if c == delimiter && !quoted then
        splitXfccLoop delimiter rest (parts ++ [current]) [] quoted false
      else
        splitXfccLoop delimiter rest parts (current ++ [c]) quoted false

/-- `split_xfcc`. -/
def splitXfcc (value : Bytes) (delimiter : UInt8) : Except String (List Bytes) :=
  splitXfccLoop delimiter value [] [] false false

/-! ## One element -/

/-- The field names a parsed element may have. -/
inductive XfccKey where
  | by
  | hash
  | cert
  | chain
  | subject
  | uri
  | dns
  | issuer
  deriving DecidableEq, Repr

namespace XfccKey

/-- The key in lower case, as in the `allowed` set. -/
def text : XfccKey → Bytes
  | .by => ascii "by"
  | .hash => ascii "hash"
  | .cert => ascii "cert"
  | .chain => ascii "chain"
  | .subject => ascii "subject"
  | .uri => ascii "uri"
  | .dns => ascii "dns"
  | .issuer => ascii "issuer"

def all : List XfccKey := [.by, .hash, .cert, .chain, .subject, .uri, .dns, .issuer]

/-- Membership in the `allowed` set. -/
def ofText (key : Bytes) : Option XfccKey := all.find? fun candidate => candidate.text = key

/-- The keys whose values are percent-encoded. -/
def percentEncoded : XfccKey → Bool
  | .by | .uri | .cert | .chain => true
  | .hash | .subject | .dns | .issuer => false

/-- The keys that may occur several times. -/
def repeatable : XfccKey → Bool
  | .by | .uri | .dns => true
  | .hash | .cert | .chain | .subject | .issuer => false

end XfccKey

/-- The parsed element: the values of each key in order.  A key that is absent
from the source's map has no values. -/
abbrev XfccFields := XfccKey → List Bytes

/-- `fields[key].push_back(value)`. -/
def XfccFields.push (fields : XfccFields) (key : XfccKey) (value : Bytes) : XfccFields :=
  Function.update fields key (fields key ++ [value])

/-- The quotes around a value, or the rules for a value without quotes. -/
def unquoteXfcc (value : Bytes) : Except String Bytes :=
  if value ≠ [] ∧ (value.head? = some quote ∨ value.getLast? = some quote) then
    if value.length < 2 ∨ value.head? ≠ some quote ∨ value.getLast? ≠ some quote then
      .error "malformed quoted XFCC value"
    else
      .ok ((value.drop 1).take (value.length - 2))
  else if value = [] ∨ value.any fun c => c == comma || c == semicolon || c == equals then
    .error "invalid unquoted XFCC value"
  else
    .ok value

/-- The name before the first `=`. -/
def xfccKey (keyRaw : Bytes) : Except String XfccKey :=
  match keyRaw with
  | [] => .error "unknown XFCC field"
  | first :: _ =>
      if !isAlpha first || !keyRaw.all fun c => isAlnum c || c == 0x5f || c == 0x2d then
        .error "unknown XFCC field"
      else
        match XfccKey.ofText (lowerAscii keyRaw) with
        | none => .error "unknown XFCC field"
        | some key => .ok key

/-- One turn of the loop of `parse_xfcc`. -/
def parseXfccField (fields : XfccFields) (pair : Bytes) : Except String XfccFields := do
  let pair := trimAscii pair
  match pair.dropWhile (· != equals) with
  | [] => throw "malformed XFCC field"
  | _ :: afterEquals =>
      let key ← xfccKey (trimAscii (pair.takeWhile (· != equals)))
      let value ← unquoteXfcc (trimAscii afterEquals)
      let value ← if key.percentEncoded then percentDecode value false else pure value
      if !key.repeatable && fields key != [] then
        throw "duplicate XFCC singleton"
      return fields.push key value

/-- `parse_xfcc`. -/
def parseXfcc (raw : Bytes) (maxBytes : Nat) : Except String XfccFields := do
  if raw = [] ∨ maxBytes < raw.length ∨ validUtf8 raw = false ∨ hasControl raw = true ∨
      (raw.any fun c => 0x7f < c) = true then
    throw "invalid Envoy XFCC"
  match ← splitXfcc raw comma with
  | [element] =>
      if trimAscii element = [] then
        throw "Envoy XFCC must contain one element"
      else
        let pairs ← splitXfcc element semicolon
        pairs.foldlM parseXfccField fun _ => []
  | _ => throw "Envoy XFCC must contain one element"

/-! ## SPIFFE identifiers -/

/-- `valid_trust_domain`. -/
def validTrustDomain (value : Bytes) : Bool :=
  match value.head?, value.getLast? with
  | some first, some last =>
      value.length ≤ 255 && (isLower first || isDigit first) && (isLower last || isDigit last) &&
        value.all fun c => isLower c || isDigit c || c == 0x2e || c == 0x5f || c == 0x2d
  | _, _ => false

/-- A path segment of a SPIFFE ID. -/
def validSegment (segment : Bytes) : Bool :=
  segment != [] && segment != ascii "." && segment != ascii ".." &&
    segment.all fun c => isAlnum c || c == 0x2e || c == 0x5f || c == 0x2d

/-- The segment loop of `validate_id`; `segment` is what lies between its last slash and
the rest of the path. -/
def validSegments (segment : Bytes) : Bytes → Bool
  | [] => segment == [] || validSegment segment
  | byte :: path =>
      if byte = 0x2f then validSegment segment && validSegments [] path
      else validSegments (segment ++ [byte]) path

/-- The scheme and authority marker of a SPIFFE ID. -/
def spiffeScheme : Bytes := ascii "spiffe://"

/-- `validate_id`: the trust domain of an acceptable SPIFFE ID. -/
def validateId (value : Bytes) (domains : List Bytes) : Except String Bytes :=
  if value = [] ∨ 2048 < value.length ∨ validUtf8 value = false ∨ percent ∈ value ∨
      ¬spiffeScheme <+: value then
    .error "invalid SPIFFE ID size or encoding"
  else if (value.any fun c => c < 0x20 || 0x7e < c) = true then
    .error "SPIFFE ID must contain canonical ASCII"
  else
    let authority := value.drop spiffeScheme.length
    let domain := authority.takeWhile (· != 0x2f)
    let path := authority.dropWhile (· != 0x2f)
    if path = [] then
      .error "SPIFFE ID has no path"
    else if validTrustDomain domain = false ∨ domain ∉ domains ∨ 0x3a ∈ domain ∨
        0x40 ∈ domain then
      .error "SPIFFE trust domain is not allowed"
    else if 0x3f ∈ path ∨ 0x23 ∈ path then
      .error "SPIFFE ID contains URL parameters"
    else if path.length < 2 ∨ path.getLast? = some 0x2f then
      .error "non-canonical SPIFFE path"
    else if validSegments [] (path.drop 1) = false then
      .error "non-canonical SPIFFE path segment"
    else
      .ok domain

/-! ## The provider -/

/-- The part of `PeerIdentityStatus` that the provider answers with. -/
inductive PeerIdentityStatus where
  | noMatch
  | invalid
  | untrustedProxy
  deriving DecidableEq, Repr

/-- The request as the provider sees it. -/
structure PeerResolutionContext where
  immediatePeer : Option Bytes
  assertedPeer : Option Bytes
  headers : List (Bytes × List Bytes)

/-- `PeerResolutionContext::header`. -/
def PeerResolutionContext.header (context : PeerResolutionContext) (name : Bytes) :
    Except String (Option Bytes) :=
  match context.headers.find? fun field => lowerAscii field.1 = lowerAscii name with
  | none => .ok none
  | some (_, []) => .ok none
  | some (_, [value]) => .ok (some value)
  | some (_, _ :: _ :: _) => .error "duplicate peer identity header"

/-- The workload identity that the Envoy provider makes available.  The fields it
shares with every other header provider are constants. -/
structure WorkloadIdentity where
  issuer : Bytes
  subjectKey : Bytes
  certificateSha256 : Bytes
  proxyIdentities : Option (List Bytes)
  sourceAddress : Option Bytes
  proxyAddress : Option Bytes
  deriving DecidableEq, Repr

/-- A configured provider.  Address parsing, the context's own validation and
the JSON limits on attributes are the environment's. -/
structure EnvoyProvider where
  header : Bytes
  trustDomains : List Bytes
  maxBytes : Nat
  trusts : Option Bytes → Bool
  validContext : PeerResolutionContext → Bool
  validIdentity : WorkloadIdentity → Bool

namespace EnvoyProvider

variable (provider : EnvoyProvider)

/-- The handler around the provider's body: every exception is answered as
invalid. -/
def caught {α : Type} (body : Except String α) : Except PeerIdentityStatus α :=
  body.mapError fun _ => .invalid

/-- The identity in a header value that was found. -/
def identify (context : PeerResolutionContext) (raw : Bytes) :
    Except PeerIdentityStatus WorkloadIdentity := do
  let fields ← caught (parseXfcc raw provider.maxBytes)
  match fields .uri, fields .hash with
  | [uri], [hash] =>
      if hash.length ≠ 64 ∨ hash.all isXDigit = false then
        throw .invalid
      let domain ← caught (validateId uri provider.trustDomains)
      let identity : WorkloadIdentity :=
        { issuer := spiffeScheme ++ domain
          subjectKey := uri
          certificateSha256 := lowerAscii hash
          proxyIdentities := if fields .by = [] then none else some (fields .by)
          sourceAddress := context.assertedPeer
          proxyAddress := context.immediatePeer }
      if provider.validIdentity identity then return identity else throw .invalid
  | _, _ => throw .invalid

/-- `envoy_xfcc_spiffe_provider`. -/
def resolve (context : PeerResolutionContext) :
    Except PeerIdentityStatus WorkloadIdentity := do
  if provider.trusts context.immediatePeer = false then
    throw .untrustedProxy
  if provider.validContext context = false then
    throw .invalid
  match ← caught (context.header provider.header) with
  | none => throw .noMatch
  | some raw => provider.identify context raw

end EnvoyProvider

end VgiRpc.Identity
