import VgiRpc.External.Fetch

/-!
# Fetches of the server's HTTP backend

`HttpExternalStorage::fetch` has its own `split_url`, `resolve_redirect` and
`redact_url`.  A validator may refuse a URL, the servers answer to each hop, and the
Locations that were followed are kept beside the result.
-/

namespace VgiRpc.External

open VgiRpc.Cpp VgiRpc.Identity

/-! ## Errors -/

/-- What `HttpExternalStorage::fetch` throws; a URL in it is redacted. -/
inductive StorageError where
  | notAbsolute (url : Bytes)
  | noAuthority (url : Bytes)
  | rejected (url : Bytes)
  | fetchCap (cap : Nat)
  | fetchFailed (url : Bytes)
  | redirectLimit (limit : Int)
  | noLocation (url : Bytes)
  | status (code : Int) (url : Bytes)
  | zstd (reason : Bytes)
  | unsupportedEncoding (encoding : Bytes)
  | decodedCap (cap : Nat)
  deriving DecidableEq

namespace StorageError

/-- The text that is thrown. -/
def what : StorageError → Bytes
  | notAbsolute url => ascii "external location is not an absolute HTTP URL" ++ urlSuffix url
  | noAuthority url => ascii "external location URL has no authority" ++ urlSuffix url
  | rejected url => ascii "external location URL rejected" ++ urlSuffix url
  | fetchCap cap =>
      ascii "external location exceeds max_fetch_bytes (" ++ decimal cap ++ ascii ")"
  | fetchFailed url => ascii "external location fetch failed" ++ urlSuffix url
  | redirectLimit limit =>
      ascii "external location redirect limit exceeded (" ++ Cpp.toString limit ++ ascii ")"
  | noLocation url => ascii "external location redirect has no Location header" ++ urlSuffix url
  | status code url =>
      ascii "external location fetch failed: " ++ Cpp.toString code ++ urlSuffix url
  | zstd reason => reason
  | unsupportedEncoding encoding =>
      ascii "external location has unsupported Content-Encoding: " ++ encoding
  | decodedCap cap =>
      ascii "external location exceeds max_decompressed_bytes (" ++ decimal cap ++ ascii ")"

/-- The URL that a text shows. -/
def url : StorageError → Option Bytes
  | notAbsolute url | noAuthority url | rejected url | fetchFailed url | noLocation url
  | status _ url => some url
  | _ => none

end StorageError

/-! ## URLs -/

/-- Not one of the bytes that end an authority. -/
def isAuthorityByte (byte : UInt8) : Bool := byte != 0x2f && byte != 0x3f && byte != 0x23

/-- Not one of the bytes that end a path. -/
def isPathByte (byte : UInt8) : Bool := byte != 0x3f && byte != 0x23

/-- An authority without what is in front of its last `@`. -/
def withoutUserinfo (authority : Bytes) : Bytes :=
  (authority.reverse.takeWhile (· != 0x40)).reverse

/-- `redact_url`. -/
def redactUrl (url : Bytes) : Bytes :=
  match breakOn (ascii "://") url with
  | none => ascii "<invalid-url>"
  | some (scheme, rest) =>
      let authority := rest.takeWhile isAuthorityByte
      let behind := rest.dropWhile isAuthorityByte
      let path := if behind.head? = some 0x2f then behind.takeWhile isPathByte else ascii "/"
      scheme ++ ascii "://" ++ withoutUserinfo authority ++ path

/-- `split_url`: the origin and the request target. -/
def splitHttpUrl (url : Bytes) : Except StorageError (Bytes × Bytes) :=
  match breakOn (ascii "://") url with
  | none => .error (.notAbsolute (redactUrl url))
  | some (scheme, rest) =>
      if scheme ≠ ascii "http" ∧ scheme ≠ ascii "https" then
        .error (.notAbsolute (redactUrl url))
      else
        let authority := rest.takeWhile isAuthorityByte
        let behind := rest.dropWhile isAuthorityByte
        if authority = [] then
          .error (.noAuthority (redactUrl url))
        else if behind = [] ∨ behind.head? = some 0x23 then
          .ok (scheme ++ ascii "://" ++ authority, ascii "/")
        else
          let target := behind.takeWhile (· != 0x23)
          .ok (scheme ++ ascii "://" ++ authority,
            if target.head? = some 0x3f then ascii "/" ++ target else target)

/-- A path up to its last slash; nothing without one. -/
def upToSlash (path : Bytes) : Bytes := (path.reverse.dropWhile (· != 0x2f)).reverse

/-- `resolve_redirect` of the backend. -/
def resolveStorageRedirect (current location : Bytes) : Except StorageError Bytes :=
  if (breakOn (ascii "://") location).isSome then
    .ok location
  else
    match splitHttpUrl current with
    | .error error => .error error
    | .ok (origin, target) =>
        if (ascii "//").isPrefixOf location then
          .ok (current.takeWhile (· != 0x3a) ++ ascii ":" ++ location)
        else if location.head? = some 0x2f then
          .ok (origin ++ location)
        else
          let path := target.takeWhile (· != 0x3f)
          if location.head? = some 0x3f then
            .ok (origin ++ path ++ location)
          else
            .ok (origin ++ upToSlash path ++ location)

/-! ## The loop -/

/-- What the backend is built with; `zstdDecompressBounded` throws texts that show no URL. -/
structure StorageConfig where
  maxFetchBytes : Nat
  maxDecompressedBytes : Nat
  maxRedirects : Int
  /-- Whether the validator lets a URL through; there may be none. -/
  urlValidator : Option (Bytes → Bool)
  zstdDecompressBounded : Bytes → Except Bytes Bytes

/-- The content callback, with the body so far; nothing once the cap is exceeded. -/
def receiveCapped (cap : Nat) : (body : Bytes) → List Bytes → Option Bytes
  | body, [] => some body
  | body, chunk :: rest =>
      if cap < chunk.length ∨ cap - chunk.length < body.length then none
      else receiveCapped cap (body ++ chunk) rest

/-- The body of a response, decoded. -/
def decodeStored (config : StorageConfig) (contentEncoding body : Bytes) :
    Except StorageError Bytes :=
  let encoding := lowerAscii contentEncoding
  if encoding = ascii "zstd" then
    (config.zstdDecompressBounded body).mapError .zstd
  else if encoding ≠ [] ∧ encoding ≠ ascii "identity" then
    .error (.unsupportedEncoding encoding)
  else if config.maxDecompressedBytes < body.length then
    .error (.decodedCap config.maxDecompressedBytes)
  else
    .ok body

/-- What a hop ends in: a Location that is followed, or the end of the fetch. -/
inductive HopEnd where
  | follow (location : Bytes)
  | done (result : Except StorageError Bytes)

/-- One round of the loop behind the request; `last` says that no redirect is left. -/
def afterExchange (config : StorageConfig) (current : Bytes) (last : Bool) (exchange : Exchange) :
    HopEnd :=
  let head := exchange.head.getD ⟨0, [], [], none⟩
  let body := if isRedirect head.status then some []
    else receiveCapped config.maxFetchBytes [] exchange.chunks
  match body, exchange.result with
  | none, _ => .done (.error (.fetchCap config.maxFetchBytes))
  | _, none => .done (.error (.fetchFailed (redactUrl current)))
  | some body, some status =>
      if isRedirect status then
        if last then .done (.error (.redirectLimit config.maxRedirects))
        else if head.location = [] then .done (.error (.noLocation (redactUrl current)))
        else .follow head.location
      else if status ≠ 200 then
        .done (.error (.status status (redactUrl current)))
      else
        .done (decodeStored config head.contentEncoding body)

/-- The Locations that a fetch followed, and what it returned. -/
structure StorageRun where
  followed : List Bytes
  result : Except StorageError Bytes

section Fetch

variable (config : StorageConfig) (get : Nat → Bytes → Bytes → Exchange)

/-- The loop, with the number of redirects that may still be followed; requests are numbered. -/
def storageLoop : (left hop : Nat) → (current : Bytes) → StorageRun
  | left, hop, current =>
      if config.urlValidator.any (fun accepts => !accepts current) then
        ⟨[], .error (.rejected (redactUrl current))⟩
      else
        match splitHttpUrl current with
        | .error error => ⟨[], .error error⟩
        | .ok (origin, path) =>
            match afterExchange config current (left == 0) (get hop origin path), left with
            | .done result, _ => ⟨[], result⟩
            | .follow _, 0 => ⟨[], .error (.redirectLimit config.maxRedirects)⟩
            | .follow location, left + 1 =>
                match resolveStorageRedirect current location with
                | .error error => ⟨[], .error error⟩
                | .ok next =>
                    let rest := storageLoop left (hop + 1) next
                    ⟨location :: rest.followed, rest.result⟩

/-- `HttpExternalStorage::fetch`. -/
def storageFetch (url : Bytes) : StorageRun :=
  storageLoop config get config.maxRedirects.toNat 0 url

end Fetch

end VgiRpc.External
