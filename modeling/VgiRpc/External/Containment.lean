import VgiRpc.External.Fetch
import VgiRpc.Lib.Results

/-!
# Containment of fetches

Whatever a URL, the resolver and the servers say, a fetch makes few requests, each to a pinned
address that its policy allows.
-/

namespace VgiRpc.External

open VgiRpc.Cpp VgiRpc.Identity VgiRpc.Lib

/-! ## Checks -/

@[simp] theorem throwIf_ok {condition : Prop} [Decidable condition] {error : ExternalHttpError}
    {done : Unit} : throwIf condition error = .ok done ↔ ¬condition := by
  unfold throwIf
  split
  next holds => simp [holds]
  next fails => simp [fails]

@[simp] theorem fetched_pure_ok {α : Type} {value other : α} :
    (pure value : Fetched α) = .ok other ↔ value = other := by
  simp [pure, Except.pure]

/-! ## URLs -/

/-- A URL that `parse_url` takes: HTTP(S), without user information or a fragment. -/
theorem parseUrl_ok {inet : Inet} {url : Bytes} {parsed : ParsedUrl}
    (parses : parseUrl inet url = .ok parsed) :
    (0x23 : UInt8) ∉ url ∧ (parsed.scheme = ascii "https" ∨ parsed.scheme = ascii "http") ∧
      ∃ scheme authority rest, splitUrl url = some (scheme, authority, rest) ∧
        parsed.scheme = lowerAscii scheme ∧ (0x40 : UInt8) ∉ authority := by
  simp only [parseUrl, bind_eq_ok_iff, throwIf_ok, not_or] at parses
  rcases parses with ⟨-, ⟨-, -, noFragment⟩, parses⟩
  split at parses
  next => cases parses
  next scheme authority rest split =>
      simp only [bind_eq_ok_iff, throwIf_ok, not_or, not_and_or, not_not, fetched_pure_ok]
        at parses
      rcases parses with ⟨-, http, -, ⟨-, noUser⟩, _, -, _, -, _, -, rfl⟩
      exact ⟨noFragment, http, scheme, authority, rest, split, rfl, noUser⟩

/-! ## Resolution -/

/-- Every record was judged, and what is selected is one of them. -/
theorem selectAddress_ok {inet : Inet} {policy : ExternalUrlPolicy} {selected final : Bytes}
    {records : List (Option Address)}
    (selects : selectAddress inet policy selected records = .ok final) :
    (∀ address, some address ∈ records → policy.allows address = true) ∧
      (final = selected ∨ ∃ address, some address ∈ records ∧ inet.ntop address = some final) := by
  induction records generalizing selected with
  | nil =>
      cases selects
      exact ⟨fun _ listed => absurd listed List.not_mem_nil, .inl rfl⟩
  | cons record records ih =>
      cases record with
      | none =>
          rcases ih selects with ⟨allowed, choice⟩
          refine ⟨?_, choice.imp_right ?_⟩
          · intro address listed
            exact allowed address ((List.mem_cons.mp listed).resolve_left (Option.some_ne_none address))
          · rintro ⟨address, listed, text⟩
            exact ⟨address, List.mem_cons_of_mem _ listed, text⟩
      | some address =>
          rw [selectAddress, bind_eq_ok_iff] at selects
          rcases selects with ⟨_, judged, selects⟩
          rw [throwIf_ok, Bool.not_eq_false] at judged
          split at selects
          next => cases selects
          next numeric text =>
              rcases ih selects with ⟨allowed, choice⟩
              refine ⟨?_, ?_⟩
              · intro other listed
                rcases List.mem_cons.mp listed with same | listed
                · rwa [Option.some_inj.mp same]
                · exact allowed other listed
              · rcases choice with same | ⟨other, listed, rendered⟩
                · rw [same]
                  split
                  next => exact .inr ⟨address, List.mem_cons_self, text⟩
                  next => exact .inl rfl
                · exact .inr ⟨other, List.mem_cons_of_mem _ listed, rendered⟩

/-- The scheme of a policy. -/
def ExternalUrlPolicy.scheme : ExternalUrlPolicy → Bytes
  | .publicHttps => ascii "https"
  | .loopbackHttpTest => ascii "http"

/-- What holds of a request before it is made. -/
structure Contained (network : Network) (policy : ExternalUrlPolicy) (request : Request) :
    Prop where
  parsed : parseUrl network.toInet request.rawUrl = .ok request.target.url
  scheme : request.target.url.scheme = policy.scheme
  noFragment : (0x23 : UInt8) ∉ request.rawUrl
  noUserinfo : ∃ scheme authority rest,
    splitUrl request.rawUrl = some (scheme, authority, rest) ∧ (0x40 : UInt8) ∉ authority
  allowed : ∀ address, some address ∈ network.getaddrinfo request.hop request.target.url.host
    (decimal request.target.url.port) → policy.allows address = true
  judged : ∃ address, some address ∈ network.getaddrinfo request.hop request.target.url.host
    (decimal request.target.url.port) ∧ network.ntop address = some request.target.pinnedAddress

theorem validateAndResolve_contained {network : Network} {hop : Nat} {rawUrl : Bytes}
    {policy : ExternalUrlPolicy} {target : ResolvedTarget}
    (resolves : validateAndResolve network hop rawUrl policy = .ok target) :
    Contained network policy ⟨hop, rawUrl, target⟩ := by
  simp only [validateAndResolve, bind_eq_ok_iff, throwIf_ok, fetched_pure_ok, not_and, not_not]
    at resolves
  rcases resolves with ⟨url, parsed, -, https, -, http, -, -, -, -, selected, selects, -, usable, rfl⟩
  rcases parseUrl_ok parsed with ⟨noFragment, schemes, scheme, authority, rest, split, -, noUser⟩
  rcases selectAddress_ok selects with ⟨allowed, choice⟩
  refine ⟨parsed, ?_, noFragment, ⟨scheme, authority, rest, split, noUser⟩, allowed,
    choice.resolve_left usable⟩
  cases policy with
  | publicHttps => exact https rfl
  | loopbackHttpTest => exact http rfl

/-- The connection of a public fetch reaches nothing internal. -/
theorem Contained.pinned_public {network : Network} {request : Request}
    (contained : Contained network .publicHttps request)
    (distinct : ∀ first second text, network.ntop first = some text →
      network.ntop second = some text → first = second)
    {address : Address} (pinned : network.ntop address = some request.target.pinnedAddress) :
    ¬Internal address := by
  rcases contained.judged with ⟨judged, listed, text⟩
  rw [distinct address judged _ pinned text]
  exact isPublic_internal (contained.allowed judged listed)

/-! ## Bodies -/

/-- What is received is within the cap. -/
theorem receive_ok {cap : Nat} {body final : Bytes} {chunks : List Bytes}
    (fits : body.length ≤ cap) (receives : receive cap body chunks = .ok final) :
    final.length ≤ cap ∧ final = body ++ chunks.flatten := by
  induction chunks generalizing body with
  | nil =>
      cases receives
      exact ⟨fits, (List.append_nil _).symm⟩
  | cons chunk chunks ih =>
      simp only [receive, bind_eq_ok_iff, throwIf_ok, not_or] at receives
      rcases receives with ⟨-, ⟨small, room⟩, receives⟩
      have grown : (body ++ chunk).length ≤ cap := by
        rw [List.length_append]
        omega
      rcases ih grown receives with ⟨within, whole⟩
      exact ⟨within, by rw [whole, List.flatten_cons, List.append_assoc]⟩

theorem decodeZstdLoop_ok {zstd : Zstd} {cap : Nat} {state : zstd.State}
    {input decoded final : Bytes} (decodes : decodeZstdLoop zstd cap state input decoded = .ok final) :
    final.length ≤ cap := by
  fun_induction decodeZstdLoop zstd cap state input decoded with
  | case1 => cases decodes
  | case2 => cases decodes
  | case3 => cases decodes
  | case4 state input decoded state' consumed output remaining called excess stuck more ih =>
      exact ih decodes
  | case5 state input decoded state' consumed output remaining called excess stuck more =>
      cases decodes
      rw [List.length_append]
      omega

/-- What a body is decoded to is within the cap. -/
theorem decodeBody_ok {options : ClientExternalHttpOptions} {zstd : Zstd}
    {encoding body decoded : Bytes} (decodes : decodeBody options zstd encoding body = .ok decoded) :
    decoded.length ≤ options.maxDecodedBytes := by
  unfold decodeBody at decodes
  split at decodes
  next =>
      split at decodes
      next => cases decodes
      next fits =>
          cases decodes
          exact Nat.le_of_not_lt fits
  next =>
      split at decodes
      next =>
          unfold decodeZstdBounded at decodes
          split at decodes
          next => cases decodes
          next => exact decodeZstdLoop_ok decodes
      next => cases decodes

theorem verifyChecksum_ok {sha256 : Bytes → Bytes} {bytes expected : Bytes} {done : Unit}
    (verifies : verifyChecksum sha256 bytes expected = .ok done) :
    expected = [] ∨ Crypto.hexDecode expected = some (sha256 bytes) := by
  unfold verifyChecksum at verifies
  split at verifies
  next empty => exact .inl empty
  next =>
      split at verifies
      next => cases verifies
      next decoded hex =>
          simp only [bind_eq_ok_iff, throwIf_ok, Bool.not_eq_false] at verifies
          rcases verifies with ⟨-, -, equal⟩
          exact .inr (by rw [hex, beq_iff_eq.mp equal])

/-! ## Hops -/

section Fetch

variable {options : ClientExternalHttpOptions} {network : Network} {zstd : Zstd}
  {sha256 : Bytes → Bytes} {checksum : Bytes}

/-- What holds of the bytes that the last request returned. -/
structure Delivered (options : ClientExternalHttpOptions) (network : Network) (zstd : Zstd)
    (sha256 : Bytes → Bytes) (checksum : Bytes) (request : Request) (bytes : Bytes) : Prop where
  body : ∃ encoding, decodeBody options zstd encoding
    (network.get request.hop request.target).chunks.flatten = .ok bytes
  encodedCap : (network.get request.hop request.target).chunks.flatten.length ≤
    options.maxEncodedBytes
  decodedCap : bytes.length ≤ options.maxDecodedBytes
  checksum : checksum = [] ∨ Crypto.hexDecode checksum = some (sha256 bytes)

/-- The next hop is where the response of this one points to. -/
def Follows (network : Network) (request : Request) (next : Bytes) : Prop :=
  ∃ head, (network.get request.hop request.target).head = some head ∧
    resolveRedirect request.target.url head.location = .ok next

theorem getOnce_ok {inet : Inet} {target : ResolvedTarget} {exchange : Exchange}
    {response : HttpResponse} (got : getOnce options inet target exchange = .ok response) :
    response.location = (exchange.head.getD ⟨0, [], [], none⟩).location ∧
      (isRedirect response.status = false →
        response.body = exchange.chunks.flatten ∧ response.body.length ≤ options.maxEncodedBytes) := by
  unfold getOnce at got
  dsimp only at got
  split at got
  next redirect =>
      cases got
      exact ⟨rfl, fun other => absurd redirect (Bool.not_eq_true _ ▸ other)⟩
  next =>
      simp only [bind_eq_ok_iff, throwIf_ok] at got
      rcases got with ⟨-, -, body, receives, got⟩
      have whole := receive_ok (Nat.zero_le _) receives
      split at got
      next => cases got
      next =>
          cases got
          exact ⟨rfl, fun _ => ⟨whole.2, whole.1⟩⟩

/-- A redirect is followed only if the limit leaves one. -/
theorem hopOutcome_redirected {redirects : Nat} {current next : Bytes} {target : ResolvedTarget}
    (outcome : hopOutcome options network zstd sha256 checksum redirects current target =
      .ok (.redirected next)) :
    redirects < options.maxRedirects ∧ Follows network ⟨redirects, current, target⟩ next := by
  rw [hopOutcome, bind_eq_ok_iff] at outcome
  rcases outcome with ⟨response, got, outcome⟩
  unfold afterResponse at outcome
  split at outcome
  next =>
      simp only [bind_eq_ok_iff, throwIf_ok, fetched_pure_ok, Outcome.redirected.injEq] at outcome
      rcases outcome with ⟨-, within, next, resolves, rfl⟩
      refine ⟨Nat.lt_of_not_le within, ?_⟩
      rw [(getOnce_ok got).1] at resolves
      cases answered : (network.get redirects target).head with
      | none =>
          rw [answered] at resolves
          cases resolves
      | some head =>
          rw [answered] at resolves
          exact ⟨head, answered, resolves⟩
  next =>
      simp only [bind_eq_ok_iff, fetched_pure_ok, reduceCtorEq, and_false, exists_false]
        at outcome

theorem hopOutcome_decoded {redirects : Nat} {current bytes : Bytes} {target : ResolvedTarget}
    (outcome : hopOutcome options network zstd sha256 checksum redirects current target =
      .ok (.decoded bytes)) :
    Delivered options network zstd sha256 checksum ⟨redirects, current, target⟩ bytes := by
  rw [hopOutcome, bind_eq_ok_iff] at outcome
  rcases outcome with ⟨response, got, outcome⟩
  unfold afterResponse at outcome
  split at outcome
  next =>
      simp only [bind_eq_ok_iff, fetched_pure_ok, reduceCtorEq, and_false, exists_false]
        at outcome
  next direct =>
      simp only [bind_eq_ok_iff, throwIf_ok, fetched_pure_ok, Outcome.decoded.injEq] at outcome
      rcases outcome with ⟨-, -, decoded, decodes, _, verifies, rfl⟩
      rcases (getOnce_ok got).2 (Bool.not_eq_true _ ▸ direct) with ⟨whole, fits⟩
      rw [whole] at decodes fits
      exact ⟨⟨_, decodes⟩, fits, decodeBody_ok decodes, verifyChecksum_ok verifies⟩

/-! ## Fetches -/

/-- What holds of a run from some hop on. -/
structure Run.Sound (options : ClientExternalHttpOptions) (network : Network) (zstd : Zstd)
    (sha256 : Bytes → Bytes) (checksum initialUrl : Bytes) (redirects : Nat) (run : Run) :
    Prop where
  count : run.requests.length ≤ options.maxRedirects + 1 - redirects
  hops : run.requests.map Request.hop = List.range' redirects run.requests.length
  contained : ∀ request ∈ run.requests, Contained network options.urlPolicy request
  first : ∀ request, run.requests.head? = some request → request.rawUrl = initialUrl
  chain : run.requests.IsChain fun request next => Follows network request next.rawUrl
  delivered : ∀ bytes, run.result = some (.ok bytes) → ∃ request,
    run.requests.getLast? = some request ∧
      Delivered options network zstd sha256 checksum request bytes

/-- A run that stops before its request. -/
theorem Run.Sound.stopped {current : Bytes} {redirects : Nat} {result : Option (Fetched Bytes)}
    (failed : ∀ bytes, result ≠ some (.ok bytes)) :
    Run.Sound options network zstd sha256 checksum current redirects ⟨[], result⟩ where
  count := Nat.zero_le _
  hops := rfl
  contained _ listed := absurd listed List.not_mem_nil
  first _ found := by cases found
  chain := .nil
  delivered bytes returned := absurd returned (failed bytes)

/-- A run that stops at its request. -/
theorem Run.Sound.last {request : Request} {result : Option (Fetched Bytes)}
    (within : request.hop ≤ options.maxRedirects)
    (contained : Contained network options.urlPolicy request)
    (delivered : ∀ bytes, result = some (.ok bytes) →
      Delivered options network zstd sha256 checksum request bytes) :
    Run.Sound options network zstd sha256 checksum request.rawUrl request.hop
      ⟨[request], result⟩ where
  count := by
    rw [List.length_singleton]
    omega
  hops := rfl
  contained other listed := by rwa [List.mem_singleton.mp listed]
  first other found := by
    cases found
    rfl
  chain := List.isChain_singleton _
  delivered bytes returned := ⟨request, rfl, delivered bytes returned⟩

/-- A run that is redirected. -/
theorem Run.Sound.redirected {request : Request} {next : Bytes} {rest : Run}
    (below : request.hop < options.maxRedirects)
    (contained : Contained network options.urlPolicy request) (follows : Follows network request next)
    (sound : Run.Sound options network zstd sha256 checksum next (request.hop + 1) rest) :
    Run.Sound options network zstd sha256 checksum request.rawUrl request.hop
      ⟨request :: rest.requests, rest.result⟩ where
  count := by
    have count := sound.count
    rw [List.length_cons]
    omega
  hops := by rw [List.map_cons, sound.hops, List.length_cons, List.range'_succ]
  contained := List.forall_mem_cons.mpr ⟨contained, sound.contained⟩
  first other found := by
    cases found
    rfl
  chain := by
    refine List.isChain_cons.mpr ⟨?_, sound.chain⟩
    intro other found
    rwa [sound.first other found]
  delivered bytes returned := by
    rcases sound.delivered bytes returned with ⟨final, last, delivered⟩
    exact ⟨final, by rw [List.getLast?_cons, last, Option.getD_some], delivered⟩

theorem fetchLoop_sound (rounds redirects : Nat) (visited : List Bytes) (current : Bytes)
    (within : redirects ≤ options.maxRedirects) :
    Run.Sound options network zstd sha256 checksum current redirects
      (fetchLoop options network zstd sha256 checksum rounds redirects visited current) := by
  induction rounds generalizing redirects visited current with
  | zero => exact Run.Sound.stopped (by rintro bytes ⟨⟩)
  | succ rounds ih =>
      rw [fetchLoop]
      split
      next => exact Run.Sound.stopped (by rintro bytes ⟨⟩)
      next =>
          split
          next => exact Run.Sound.stopped (by rintro bytes ⟨⟩)
          next target resolves =>
              have contained := validateAndResolve_contained resolves
              split
              next => exact Run.Sound.stopped (by rintro bytes ⟨⟩)
              next =>
                  dsimp only
                  split
                  next => exact .last within contained (by rintro bytes ⟨⟩)
                  next bytes decoded =>
                      refine .last within contained ?_
                      rintro bytes ⟨⟩
                      exact hopOutcome_decoded decoded
                  next next redirected =>
                      rcases hopOutcome_redirected redirected with ⟨below, follows⟩
                      exact .redirected below contained follows (ih _ _ _ below)

/-- With a round for each request, a run returns. -/
theorem fetchLoop_returns {rounds redirects : Nat} {visited : List Bytes} {current : Bytes}
    (within : redirects ≤ options.maxRedirects)
    (enough : options.maxRedirects < redirects + rounds) :
    (fetchLoop options network zstd sha256 checksum rounds redirects visited current).result ≠
      none := by
  induction rounds generalizing redirects visited current with
  | zero => omega
  | succ rounds ih =>
      rw [fetchLoop]
      split
      next => exact Option.some_ne_none _
      next =>
          split
          next => exact Option.some_ne_none _
          next target resolves =>
              split
              next => exact Option.some_ne_none _
              next =>
                  dsimp only
                  split
                  next => exact Option.some_ne_none _
                  next => exact Option.some_ne_none _
                  next next redirected =>
                      have below := (hopOutcome_redirected redirected).1
                      exact ih below (by omega)

/-- A fetch is contained, whatever it is answered. -/
theorem fetch_contained (rounds : Nat) (initialUrl : Bytes)
    (distinct : ∀ first second text, network.ntop first = some text →
      network.ntop second = some text → first = second)
    {run : Run} (fetched : fetch options network zstd sha256 checksum rounds initialUrl = run) :
    (options.maxRedirects < rounds → run.result ≠ none) ∧
      run.requests.length ≤ options.maxRedirects + 1 ∧
      run.requests.map Request.hop = List.range' 0 run.requests.length ∧
      (∀ request ∈ run.requests, Contained network options.urlPolicy request) ∧
      (∀ request, run.requests.head? = some request → request.rawUrl = initialUrl) ∧
      (run.requests.IsChain fun request next => Follows network request next.rawUrl) ∧
      (options.urlPolicy = .publicHttps → ∀ request ∈ run.requests, ∀ address,
        network.ntop address = some request.target.pinnedAddress → ¬Internal address) ∧
      (∀ bytes, run.result = some (.ok bytes) → ∃ request,
        run.requests.getLast? = some request ∧
          Delivered options network zstd sha256 checksum request bytes) := by
  subst fetched
  have sound : Run.Sound options network zstd sha256 checksum initialUrl 0 _ :=
    fetchLoop_sound rounds 0 [] initialUrl (Nat.zero_le _)
  refine ⟨?_, sound.count, sound.hops, sound.contained, sound.first, sound.chain, ?_,
    sound.delivered⟩
  · intro enough
    exact fetchLoop_returns (Nat.zero_le _) (by rwa [Nat.zero_add])
  · intro isPublic request listed address pinned
    have contained := sound.contained request listed
    rw [isPublic] at contained
    exact contained.pinned_public distinct pinned

end Fetch

/-! ## One fetch -/

def defaultOptions : ClientExternalHttpOptions where
  urlPolicy := .publicHttps
  maxRedirects := 5
  maxEncodedBytes := 256 * 1024 * 1024
  maxDecodedBytes := 4 * 1024 * 1024 * 1024
  redirectsBound := Nat.le_refl 5
  encodedPositive := by decide
  decodedPositive := by decide

/-- A public host that redirects once and then answers. -/
def oneRedirect : Network where
  pton6 _ := none
  ntop address := if address = .inet 0x08080808 then some (ascii "8.8.8.8") else none
  getaddrinfo _ _ _ := [some (.inet 0x08080808)]
  isValid _ := true
  get hop _ :=
    if hop = 0 then ⟨some ⟨302, ascii "/b", [], none⟩, [], none⟩
    else ⟨some ⟨200, [], [], some (ascii "5")⟩, [ascii "he", ascii "llo"], some 200⟩

/-- A decoder that refuses everything. -/
def noZstd : Zstd where
  State := Unit
  create _ := none
  decompressStream _ _ := none
  consumes := nofun
  progress := nofun

def oneRedirectRun : Run :=
  fetch defaultOptions oneRedirect noZstd (fun _ => List.replicate 32 0) [] 6
    (ascii "https://example.com/a")

theorem oneRedirectRun_contained :
    oneRedirectRun.result = some (.ok (ascii "hello")) ∧ oneRedirectRun.result ≠ none ∧
      oneRedirectRun.requests.length ≤ 6 := by
  have distinct : ∀ first second text, oneRedirect.ntop first = some text →
      oneRedirect.ntop second = some text → first = second := by
    intro first second text firstText secondText
    simp only [oneRedirect, Option.ite_none_right_eq_some] at firstText secondText
    rw [firstText.1, secondText.1]
  have contained := fetch_contained 6 (ascii "https://example.com/a") distinct
    (rfl : _ = oneRedirectRun)
  exact ⟨rfl, contained.1 (by decide), contained.2.1⟩

end VgiRpc.External
