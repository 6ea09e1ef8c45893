import VgiRpc.External.Address
import VgiRpc.Identity.Xfcc

/-!
# External URLs

`parse_url` and `resolve_redirect`, with the errors of a fetch.
-/

namespace VgiRpc.External

open VgiRpc.Cpp VgiRpc.Identity

/-! ## Errors -/

/-- `ExternalHttpError`; a URL in it is redacted. -/
inductive ExternalHttpError where
  | invalidUrl
  | relativeUrl
  | notHttp
  | emptyHost
  | invalidIpv6
  | textBehindIpv6
  | unbracketedIpv6
  | invalidHostname
  | zoneIdentifier
  | unnormalIpv6
  | invalidPort
  | portOutOfRange
  | invalidRedirect
  | requiresHttps
  | requiresHttp
  | nonPublic
  | unresolved
  | forbiddenAddress
  | unrenderable
  | noUsableAddress
  | uninitialized
  | encodedCap
  | getFailed (url : Bytes)
  | redirectLoop (url : Bytes)
  | redirectLimit (url : Bytes)
  | status (code : Int) (url : Bytes)
  | decodedCap
  | unsupportedEncoding
  | zstdDecoder
  | invalidZstd
  | truncatedZstd
  | checksumText
  | checksumMismatch
  deriving DecidableEq, Repr

def urlSuffix (url : Bytes) : Bytes := ascii " [url: " ++ url ++ ascii "]"

/-- The text that is thrown. -/
def ExternalHttpError.what : ExternalHttpError → Bytes
  | .invalidUrl => ascii "external URL is invalid or contains a fragment"
  | .relativeUrl => ascii "external URL must be absolute"
  | .notHttp => ascii "external URL scheme is not HTTP(S)"
  | .emptyHost => ascii "external URL has an empty host or forbidden userinfo"
  | .invalidIpv6 => ascii "external URL has an invalid IPv6 host"
  | .textBehindIpv6 => ascii "external URL has invalid text after its IPv6 host"
  | .unbracketedIpv6 => ascii "external URL IPv6 hosts must use brackets"
  | .invalidHostname => ascii "external URL has an invalid hostname"
  | .zoneIdentifier => ascii "external URL IPv6 zone identifiers are forbidden"
  | .unnormalIpv6 => ascii "external URL IPv6 host could not be normalized safely"
  | .invalidPort => ascii "external URL has an invalid port"
  | .portOutOfRange => ascii "external URL port is out of range"
  | .invalidRedirect => ascii "external redirect target is invalid or contains a fragment"
  | .requiresHttps => ascii "external URL policy requires HTTPS"
  | .requiresHttp => ascii "loopback test URL policy requires HTTP"
  | .nonPublic => ascii "external URL resolves to a non-public address"
  | .unresolved => ascii "external URL hostname could not be resolved"
  | .forbiddenAddress => ascii "external URL resolves to an address forbidden by policy"
  | .unrenderable => ascii "external URL address could not be rendered safely"
  | .noUsableAddress => ascii "external URL resolved to no usable address"
  | .uninitialized => ascii "external HTTP client could not be initialized"
  | .encodedCap => ascii "external response exceeds max_encoded_bytes"
  | .getFailed url => ascii "external GET failed" ++ urlSuffix url
  | .redirectLoop url => ascii "external redirect loop detected" ++ urlSuffix url
  | .redirectLimit url => ascii "external redirect limit exceeded" ++ urlSuffix url
  | .status code url => ascii "external GET returned HTTP " ++ Cpp.toString code ++ urlSuffix url
  | .decodedCap => ascii "external decoded response exceeds max_decoded_bytes"
  | .unsupportedEncoding => ascii "external response uses an unsupported Content-Encoding"
  | .zstdDecoder => ascii "cannot configure bounded external zstd decoder"
  | .invalidZstd => ascii "invalid external zstd response"
  | .truncatedZstd => ascii "truncated external zstd response"
  | .checksumText => ascii "external SHA-256 metadata is not a 64-character hex digest"
  | .checksumMismatch => ascii "external response SHA-256 checksum mismatch"

abbrev Fetched := Except ExternalHttpError

/-- `if (condition) throw`. -/
def throwIf (condition : Prop) [Decidable condition] (error : ExternalHttpError) : Fetched Unit :=
  if condition then .error error else .ok ()

/-! ## Parsing -/

/-- `inet_pton` of IPv6, and `inet_ntop`. -/
structure Inet where
  pton6 : Bytes → Option Ipv6
  ntop : Address → Option Bytes

/-- `ParsedUrl`. -/
structure ParsedUrl where
  scheme : Bytes
  host : Bytes
  port : Nat
  explicitPort : Bool
  ipv6Literal : Bool
  pathAndQuery : Bytes
  deriving DecidableEq

namespace ParsedUrl

def authority (url : ParsedUrl) : Bytes :=
  let value := if url.ipv6Literal then ascii "[" ++ url.host ++ ascii "]" else url.host
  let defaultPort := (url.scheme = ascii "https" ∧ url.port = 443) ∨
    (url.scheme = ascii "http" ∧ url.port = 80)
  if url.explicitPort ∨ ¬defaultPort then value ++ ascii ":" ++ decimal url.port else value

def origin (url : ParsedUrl) : Bytes := url.scheme ++ ascii "://" ++ url.authority

def full (url : ParsedUrl) : Bytes := url.origin ++ url.pathAndQuery

end ParsedUrl

/-- `has_forbidden_url_character`. -/
def hasForbiddenUrlCharacter (value : Bytes) : Bool :=
  value.any fun byte => byte ≤ 0x20 || byte == 0x7f || byte == 0x5c

/-- The texts before and behind the first occurrence of a pattern. -/
def breakOn (pattern : Bytes) : Bytes → Option (Bytes × Bytes)
  | [] => if pattern = [] then some ([], []) else none
  | byte :: rest =>
      if pattern.isPrefixOf (byte :: rest) then
        some ([], (byte :: rest).drop pattern.length)
      else
        (breakOn pattern rest).map fun split => (byte :: split.1, split.2)

/-- `parse_port`. -/
def parsePort (value : Bytes) : Fetched Nat := do
  throwIf (value = [] ∨ ¬value.all isDigit = true) .invalidPort
  let parsed := digitsValue value
  throwIf (2 ^ 64 ≤ parsed) .invalidPort
  throwIf (parsed = 0 ∨ 65535 < parsed) .portOutOfRange
  return parsed

/-- Host, and port if there is one, of an authority. -/
def splitAuthority (authority : Bytes) : Fetched (Bytes × Option Bytes) :=
  match authority with
  | 0x5b :: literal => do
      let host := literal.takeWhile (· != 0x5d)
      throwIf (0x5d ∉ literal ∨ host = []) .invalidIpv6
      match (literal.dropWhile (· != 0x5d)).tail with
      | [] => return (host, none)
      | 0x3a :: port => return (host, some port)
      | _ => .error .textBehindIpv6
  | authority => do
      throwIf (1 < authority.count 0x3a) .unbracketedIpv6
      match breakOn [0x3a] authority with
      | none => return (authority, none)
      | some (host, port) => return (host, some port)

/-- A host name, without the dots at its end. -/
def checkHostname (host : Bytes) : Fetched Bytes := do
  let host := (host.reverse.dropWhile (· == 0x2e)).reverse
  throwIf (host = [] ∨ 253 < host.length ∨ host.head? = some 0x2e ∨ host.getLast? = some 0x2e ∨
    (breakOn (ascii "..") host).isSome ∨
    ¬(host.all fun byte => isAlnum byte || byte == 0x2d || byte == 0x2e) = true) .invalidHostname
  return host

/-- The canonical text of an IPv6 literal. -/
def checkIpv6 (inet : Inet) (host : Bytes) : Fetched Bytes := do
  throwIf (0x25 ∈ host) .zoneIdentifier
  match inet.pton6 host with
  | none => .error .invalidIpv6
  | some address =>
      match inet.ntop (.inet6 address) with
      | none => .error .unnormalIpv6
      | some canonical => return lowerAscii canonical

def checkHost (inet : Inet) (ipv6Literal : Bool) (host : Bytes) : Fetched Bytes :=
  if ipv6Literal then checkIpv6 inet host else checkHostname host

/-- Scheme, authority, and what is behind it. -/
def splitUrl (url : Bytes) : Option (Bytes × Bytes × Bytes) :=
  (breakOn (ascii "://") url).map fun (scheme, rest) =>
    (scheme, rest.takeWhile (fun byte => byte != 0x2f && byte != 0x3f),
      rest.dropWhile fun byte => byte != 0x2f && byte != 0x3f)

def pathAndQueryOf (rest : Bytes) : Bytes :=
  match rest with
  | [] => ascii "/"
  | 0x3f :: _ => ascii "/" ++ rest
  | _ => rest

/-- The port that is written, or that of the scheme. -/
def portOf (scheme : Bytes) : Option Bytes → Fetched Nat
  | some port => parsePort port
  | none => .ok (if scheme = ascii "https" then 443 else 80)

/-- `parse_url`. -/
def parseUrl (inet : Inet) (url : Bytes) : Fetched ParsedUrl := do
  throwIf (url = [] ∨ hasForbiddenUrlCharacter url = true ∨ 0x23 ∈ url) .invalidUrl
  match splitUrl url with
  | none => .error .relativeUrl
  | some (scheme, authority, rest) =>
      let scheme := lowerAscii scheme
      throwIf (scheme ≠ ascii "https" ∧ scheme ≠ ascii "http") .notHttp
      throwIf (authority = [] ∨ 0x40 ∈ authority) .emptyHost
      let (host, port) ← splitAuthority authority
      let ipv6Literal := authority.head? == some 0x5b
      let host ← checkHost inet ipv6Literal (lowerAscii host)
      let number ← portOf scheme port
      return ⟨scheme, host, number, port.isSome, ipv6Literal, pathAndQueryOf rest⟩

/-- `redact_external_url`. -/
def redactExternalUrl (inet : Inet) (url : Bytes) : Bytes :=
  match parseUrl inet url with
  | .ok parsed => parsed.origin ++ parsed.pathAndQuery.takeWhile (· != 0x3f)
  | .error _ => ascii "<invalid-url>"

/-! ## Redirects -/

/-- One segment of a path. -/
def visitSegment (segments : List Bytes) (segment : Bytes) : List Bytes :=
  if segment = [] ∨ segment = ascii "." then segments
  else if segment = ascii ".." then segments.dropLast
  else segments ++ [segment]

/-- `normalize_path`. -/
def normalizePath (path : Bytes) : Bytes :=
  let suffix := path.dropWhile (· != 0x3f)
  let path := path.takeWhile (· != 0x3f)
  let segments := (path.splitOn 0x2f).foldl visitSegment []
  let slash := if 1 < path.length ∧ path.getLast? = some 0x2f then ascii "/" else []
  ascii "/" ++ [0x2f].intercalate segments ++ slash ++ suffix

/-- A path up to its last slash. -/
def directoryOf (path : Bytes) : Bytes :=
  if 0x2f ∈ path then (path.reverse.dropWhile (· != 0x2f)).reverse else ascii "/"

/-- `resolve_redirect`. -/
def resolveRedirect (base : ParsedUrl) (location : Bytes) : Fetched Bytes := do
  throwIf (location = [] ∨ hasForbiddenUrlCharacter location = true ∨ 0x23 ∈ location)
    .invalidRedirect
  let basePath := base.pathAndQuery.takeWhile (· != 0x3f)
  if (breakOn (ascii "://") location).isSome then
    return location
  else if (ascii "//").isPrefixOf location then
    return base.scheme ++ ascii ":" ++ location
  else if location.head? = some 0x2f then
    return base.origin ++ normalizePath location
  else if location.head? = some 0x3f then
    return base.origin ++ basePath ++ location
  else
    return base.origin ++ normalizePath (directoryOf basePath ++ location)

end VgiRpc.External
