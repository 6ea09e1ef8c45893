import VgiRpc.Crypto.Encoding
import VgiRpc.External.Url

/-!
# Fetches

`ClientExternalHttp::fetch`: the hops of a fetch, with what the resolver and the servers answer
to each.
-/

namespace VgiRpc.External

open VgiRpc.Cpp VgiRpc.Identity

/-! ## Options -/

inductive ExternalUrlPolicy where
  | publicHttps
  | loopbackHttpTest
  deriving DecidableEq, Repr

/-- `ClientExternalHttpOptions`, as the constructor lets them through. -/
structure ClientExternalHttpOptions where
  urlPolicy : ExternalUrlPolicy
  maxRedirects : Nat
  maxEncodedBytes : Nat
  maxDecodedBytes : Nat
  redirectsBound : maxRedirects ≤ 5
  encodedPositive : 0 < maxEncodedBytes
  decodedPositive : 0 < maxDecodedBytes

/-! ## Resolution -/

/-- The URL of a hop, and the numeric text that its connection is pinned to. -/
structure ResolvedTarget where
  url : ParsedUrl
  pinnedAddress : Bytes

/-- The head of a response, as the header callback sees it. -/
structure ResponseHead where
  status : Int
  location : Bytes
  contentEncoding : Bytes
  contentLength : Option Bytes

/-- What a `Get` delivers: the head if there is one, the pieces of the body, and the status of
its result if it has one. -/
structure Exchange where
  head : Option ResponseHead
  chunks : List Bytes
  result : Option Int

/-- The resolver and the servers; lookups and requests are numbered by their hop. -/
structure Network extends Inet where
  /-- The records of a host and a service; none if the lookup fails.  A record of neither IPv4
  nor IPv6 has no address. -/
  getaddrinfo : Nat → Bytes → Bytes → List (Option Address)
  /-- `is_valid` of a client for an origin. -/
  isValid : Bytes → Bool
  get : Nat → ResolvedTarget → Exchange

/-- Whether the policy allows an address. -/
def ExternalUrlPolicy.allows : ExternalUrlPolicy → Address → Bool
  | .publicHttps, address => address.isPublic
  | .loopbackHttpTest, address => address.isLoopback

/-- The loop over the records: every one is judged, and the first is selected. -/
def selectAddress (inet : Inet) (policy : ExternalUrlPolicy) (selected : Bytes) :
    List (Option Address) → Fetched Bytes
  | [] => .ok selected
  | none :: rest => selectAddress inet policy selected rest
  | some address :: rest => do
      throwIf (policy.allows address = false) .forbiddenAddress
      match inet.ntop address with
      | none => .error .unrenderable
      | some numeric =>
          selectAddress inet policy (if selected = [] then numeric else selected) rest

/-- `localhost`, or a name below it. -/
def isLocalhost (host : Bytes) : Bool :=
  host == ascii "localhost" || (10 < host.length && (ascii ".localhost").isSuffixOf host)

/-- `validate_and_resolve`. -/
def validateAndResolve (network : Network) (hop : Nat) (rawUrl : Bytes)
    (policy : ExternalUrlPolicy) : Fetched ResolvedTarget := do
  let url ← parseUrl network.toInet rawUrl
  throwIf (policy = .publicHttps ∧ url.scheme ≠ ascii "https") .requiresHttps
  throwIf (policy = .loopbackHttpTest ∧ url.scheme ≠ ascii "http") .requiresHttp
  throwIf (isLocalhost url.host = true ∧ policy ≠ .loopbackHttpTest) .nonPublic
  let addresses := network.getaddrinfo hop url.host (decimal url.port)
  throwIf (addresses = []) .unresolved
  let selected ← selectAddress network.toInet policy [] addresses
  throwIf (selected = []) .noUsableAddress
  return ⟨url, selected⟩

/-! ## One request -/

structure HttpResponse where
  status : Int
  location : Bytes
  contentEncoding : Bytes
  body : Bytes

/-- `is_redirect`. -/
def isRedirect (status : Int) : Bool :=
  status == 301 || status == 302 || status == 303 || status == 307 || status == 308

/-- `std::stoull`, which wraps what is negative. -/
def stoull (text : Bytes) : Option Nat :=
  let (negative, rest) := match text.dropWhile isSpace with
    | 0x2d :: rest => (true, rest)
    | 0x2b :: rest => (false, rest)
    | rest => (false, rest)
  let digits := rest.takeWhile isDigit
  let value := digitsValue digits
  if digits = [] ∨ 2 ^ 64 ≤ value then none
  else some (if negative then (2 ^ 64 - value) % 2 ^ 64 else value)

/-- The content callback. -/
def receive (cap : Nat) (body : Bytes) : List Bytes → Fetched Bytes
  | [] => .ok body
  | chunk :: rest => do
      throwIf (cap < chunk.length ∨ cap - chunk.length < body.length) .encodedCap
      receive cap (body ++ chunk) rest

/-- Whether the declared length is beyond the cap; one that is no number is not. -/
def declaresTooMuch (cap : Nat) (contentLength : Option Bytes) : Bool :=
  match contentLength.bind stoull with
  | some size => cap < size
  | none => false

/-- `get_once`, of what the server delivers. -/
def getOnce (options : ClientExternalHttpOptions) (inet : Inet) (target : ResolvedTarget)
    (exchange : Exchange) : Fetched HttpResponse := do
  let head := exchange.head.getD ⟨0, [], [], none⟩
  if isRedirect head.status then
    return ⟨head.status, head.location, head.contentEncoding, []⟩
  else
    throwIf (declaresTooMuch options.maxEncodedBytes head.contentLength = true) .encodedCap
    let body ← receive options.maxEncodedBytes [] exchange.chunks
    match exchange.result with
    | none => .error (.getFailed (redactExternalUrl inet target.url.full))
    | some status => return ⟨status, head.location, head.contentEncoding, body⟩

/-! ## Decoding -/

/-- The streaming decoder of the zstd library.  A call returns the number of bytes consumed, the
bytes produced, and a hint of what remains; it does not end a frame without reading any of its
input. -/
structure Zstd where
  State : Type
  create : (windowLogMax : Nat) → Option State
  decompressStream : State → Bytes → Option (State × Nat × Bytes × Nat)
  consumes : ∀ {state state' input consumed output remaining},
    decompressStream state input = some (state', consumed, output, remaining) →
      consumed ≤ input.length
  progress : ∀ {state state' input},
    decompressStream state input = some (state', 0, [], 0) → input = []

/-- `zstd_window_log_for_limit`. -/
def zstdWindowLogForLimit (maxBytes : Nat) : Nat :=
  min 31 (max 19 (Nat.size (max maxBytes (512 * 1024) - 1)))

/-- The decoding loop. -/
def decodeZstdLoop (zstd : Zstd) (cap : Nat) (state : zstd.State) (input decoded : Bytes) :
    Fetched Bytes :=
  match _ : zstd.decompressStream state input with
  | none => .error .invalidZstd
  | some (state, consumed, output, remaining) =>
      if _ : cap < output.length ∨ cap - output.length < decoded.length then
        .error .decodedCap
      else if _ : output = [] ∧ consumed = 0 ∧ remaining ≠ 0 then
        .error .truncatedZstd
      else if _ : input.drop consumed ≠ [] ∨ remaining ≠ 0 then
        decodeZstdLoop zstd cap state (input.drop consumed) (decoded ++ output)
      else
        .ok (decoded ++ output)
termination_by input.length + (cap - decoded.length)
decreasing_by
  rename_i called excess stuck more
  have bounded := zstd.consumes called
  rw [List.length_drop, List.length_append]
  rcases Nat.eq_zero_or_pos consumed with rfl | read
  · -- Nothing was read, so something was written.
    have written : output ≠ [] := by
      rintro rfl
      have none : remaining = 0 := by
        by_contra left
        exact stuck ⟨rfl, rfl, left⟩
      subst none
      have empty := zstd.progress called
      exact more.elim (fun left => left (by rw [empty, List.drop_nil])) fun left => left rfl
    have grown := List.length_pos_of_ne_nil written
    omega
  · omega

/-- `decode_zstd_bounded`. -/
def decodeZstdBounded (zstd : Zstd) (encoded : Bytes) (cap : Nat) : Fetched Bytes :=
  match zstd.create (zstdWindowLogForLimit cap) with
  | none => .error .zstdDecoder
  | some state => decodeZstdLoop zstd cap state encoded []

/-- The coding of a `Content-Encoding`, without its parameters. -/
def contentCoding (contentEncoding : Bytes) : Bytes :=
  let encoding := lowerAscii (trimAscii contentEncoding)
  if 0x3b ∈ encoding then trimAscii (encoding.takeWhile (· != 0x3b)) else encoding

def decodeBody (options : ClientExternalHttpOptions) (zstd : Zstd) (encoding body : Bytes) :
    Fetched Bytes :=
  if encoding = [] ∨ encoding = ascii "identity" then
    if options.maxDecodedBytes < body.length then .error .decodedCap else .ok body
  else if encoding = ascii "zstd" then
    decodeZstdBounded zstd body options.maxDecodedBytes
  else
    .error .unsupportedEncoding

/-- `verify_checksum`. -/
def verifyChecksum (sha256 : Bytes → Bytes) (bytes expected : Bytes) : Fetched Unit :=
  if expected = [] then .ok ()
  else
    match Crypto.hexDecode expected with
    | none => .error .checksumText
    | some decoded => do
        throwIf (decoded.length ≠ 32) .checksumText
        throwIf (Crypto.constantTimeEqual decoded (sha256 bytes) = false) .checksumMismatch

/-! ## The loop -/

/-- What a response leads to. -/
inductive Outcome where
  | redirected (url : Bytes)
  | decoded (bytes : Bytes)

/-- A request that was made. -/
structure Request where
  hop : Nat
  /-- The URL of the hop. -/
  rawUrl : Bytes
  target : ResolvedTarget

/-- The requests of a fetch and what it returns; nothing if it has not returned yet. -/
structure Run where
  requests : List Request
  result : Option (Fetched Bytes)

section Fetch

variable (options : ClientExternalHttpOptions) (network : Network) (zstd : Zstd)
  (sha256 : Bytes → Bytes) (checksum : Bytes)

/-- The rest of the loop's body, behind `get_once`. -/
def afterResponse (redirects : Nat) (current : Bytes) (target : ResolvedTarget)
    (response : HttpResponse) : Fetched Outcome := do
  if isRedirect response.status then
    throwIf (options.maxRedirects ≤ redirects)
      (.redirectLimit (redactExternalUrl network.toInet current))
    let next ← resolveRedirect target.url response.location
    return .redirected next
  else
    throwIf (response.status < 200 ∨ 300 ≤ response.status)
      (.status response.status (redactExternalUrl network.toInet current))
    let decoded ← decodeBody options zstd (contentCoding response.contentEncoding) response.body
    verifyChecksum sha256 decoded checksum
    return .decoded decoded

/-- One request, and what its response leads to. -/
def hopOutcome (redirects : Nat) (current : Bytes) (target : ResolvedTarget) : Fetched Outcome := do
  let response ← getOnce options network.toInet target (network.get redirects target)
  afterResponse options network zstd sha256 checksum redirects current target response

/-- The loop of `fetch`. -/
def fetchLoop : (rounds redirects : Nat) → (visited : List Bytes) → (current : Bytes) → Run
  | 0, _, _, _ => ⟨[], none⟩
  | rounds + 1, redirects, visited, current =>
      if current ∈ visited then
        ⟨[], some (.error (.redirectLoop (redactExternalUrl network.toInet current)))⟩
      else
        match validateAndResolve network redirects current options.urlPolicy with
        | .error error => ⟨[], some (.error error)⟩
        | .ok target =>
            if network.isValid target.url.origin = false then
              ⟨[], some (.error .uninitialized)⟩
            else
              let request : Request := ⟨redirects, current, target⟩
              match hopOutcome options network zstd sha256 checksum redirects current target with
              | .error error => ⟨[request], some (.error error)⟩
              | .ok (.decoded bytes) => ⟨[request], some (.ok bytes)⟩
              | .ok (.redirected next) =>
                  let rest := fetchLoop rounds (redirects + 1) (current :: visited) next
                  ⟨request :: rest.requests, rest.result⟩

/-- `ClientExternalHttp::fetch`, for a number of rounds of its loop. -/
def fetch (rounds : Nat) (initialUrl : Bytes) : Run :=
  fetchLoop options network zstd sha256 checksum rounds 0 [] initialUrl

end Fetch

end VgiRpc.External
