import VgiRpc.External.PublicPart
import VgiRpc.Lib.Results

/-!
# Diagnostics do not show secrets

The URL in an error of a fetch is redacted.  Two fetches whose URLs and Locations
differ in secrets only show the same text, whatever the redirects between them.
-/

namespace VgiRpc.External

open VgiRpc.Cpp VgiRpc.Identity
open VgiRpc.Lib (bind_eq_ok_iff cut_eq stop_of_dropWhile takeWhile_congr dropWhile_congr takeWhile_stopped dropWhile_stopped)

/-! ## The backend's fetches -/

/-- Two Locations that differ in secrets only; a reference without a public part is a query in
both or in none. -/
structure SameLocation (one two : Bytes) : Prop where
  same : SameButSecrets one two
  schemed : Schemed one
  schemedToo : Schemed two
  head : one.head? = two.head?

/-- The URL behind some redirects of the backend. -/
def storageTarget (url : Bytes) (locations : List Bytes) : Option Bytes :=
  locations.foldlM (fun current location => (resolveStorageRedirect current location).toOption) url

/-- What is public of a Location. -/
def locationPart (location : Bytes) : Public × Bool :=
  (publicPart location, location.head? = some 0x3f)

theorem storageTarget_public {url final : Bytes} {locations : List Bytes}
    (leads : storageTarget url locations = some final) :
    publicPart final = (locations.map locationPart).foldl
      (fun current part => current.resolved part.1 part.2) (publicPart url) := by
  induction locations generalizing url with
  | nil =>
      obtain rfl := Option.some.inj leads
      rfl
  | cons location rest inductionHypothesis =>
      rw [storageTarget, List.foldlM_cons] at leads
      cases resolved : resolveStorageRedirect url location with
      | error error =>
          rw [resolved] at leads
          cases leads
      | ok next =>
          rw [resolved] at leads
          rw [List.map_cons, List.foldl_cons, inductionHypothesis leads, resolve_public resolved]
          rfl

theorem locationPart_same {locations others : List Bytes}
    (same : List.Forall₂ SameLocation locations others) :
    locations.map locationPart = others.map locationPart := by
  induction same with
  | nil => rfl
  | cons agree _ inductionHypothesis =>
      rw [List.map_cons, List.map_cons, inductionHypothesis, locationPart, locationPart,
        same_public agree.same agree.schemed agree.schemedToo, agree.head]

theorem splitHttpUrl_url {url text : Bytes} {error : StorageError}
    (fails : splitHttpUrl url = .error error) (shows : error.url = some text) :
    text = redactUrl url := by
  rw [splitHttpUrl] at fails
  split at fails
  · obtain rfl := Except.error.inj fails
    exact (Option.some.inj shows).symm
  · split at fails
    · obtain rfl := Except.error.inj fails
      exact (Option.some.inj shows).symm
    · dsimp only at fails
      split at fails
      · obtain rfl := Except.error.inj fails
        exact (Option.some.inj shows).symm
      · split at fails
        · cases fails
        · cases fails

theorem resolveStorageRedirect_error {current location : Bytes} {error : StorageError}
    (fails : resolveStorageRedirect current location = .error error) :
    splitHttpUrl current = .error error := by
  rw [resolveStorageRedirect] at fails
  split at fails
  · cases fails
  · split at fails
    · next splits =>
        obtain rfl := Except.error.inj fails
        exact splits
    · split at fails
      · cases fails
      · split at fails
        · cases fails
        · dsimp only at fails
          split at fails
          · cases fails
          · cases fails

theorem decodeStored_url {config : StorageConfig} {encoding body : Bytes} {error : StorageError}
    (fails : decodeStored config encoding body = .error error) : error.url = none := by
  rw [decodeStored] at fails
  split at fails
  · cases decoded : config.zstdDecompressBounded body with
    | error reason =>
        rw [decoded] at fails
        obtain rfl := Except.error.inj fails
        rfl
    | ok bytes =>
        rw [decoded] at fails
        cases fails
  · split at fails
    · obtain rfl := Except.error.inj fails
      rfl
    · split at fails
      · obtain rfl := Except.error.inj fails
        rfl
      · cases fails

theorem afterExchange_url {config : StorageConfig} {current text : Bytes} {last : Bool}
    {exchange : Exchange} {error : StorageError}
    (fails : afterExchange config current last exchange = .done (.error error))
    (shows : error.url = some text) : text = redactUrl current := by
  rw [afterExchange] at fails
  split at fails
  · obtain rfl := Except.error.inj (HopEnd.done.inj fails)
    cases shows
  · obtain rfl := Except.error.inj (HopEnd.done.inj fails)
    exact (Option.some.inj shows).symm
  · split at fails
    · split at fails
      · obtain rfl := Except.error.inj (HopEnd.done.inj fails)
        cases shows
      · split at fails
        · obtain rfl := Except.error.inj (HopEnd.done.inj fails)
          exact (Option.some.inj shows).symm
        · cases fails
    · split at fails
      · obtain rfl := Except.error.inj (HopEnd.done.inj fails)
        exact (Option.some.inj shows).symm
      · rw [decodeStored_url (HopEnd.done.inj fails)] at shows
        cases shows

/-- The URL that an error of the backend shows is the one behind the redirects. -/
theorem storageLoop_url {config : StorageConfig} {get : Nat → Bytes → Bytes → Exchange}
    {left hop : Nat} {current text : Bytes} {run : StorageRun} {error : StorageError}
    (runs : storageLoop config get left hop current = run) (fails : run.result = .error error)
    (shows : error.url = some text) :
    ∃ final, storageTarget current run.followed = some final ∧ text = redactUrl final := by
  induction left generalizing hop current run with
  | zero =>
      rw [storageLoop] at runs
      split at runs
      · subst run
        obtain rfl := Except.error.inj fails
        exact ⟨current, rfl, (Option.some.inj shows).symm⟩
      · split at runs
        · next splits =>
            subst run
            obtain rfl := Except.error.inj fails
            exact ⟨current, rfl, splitHttpUrl_url splits shows⟩
        · split at runs
          · next answered =>
              subst run
              obtain rfl := fails
              exact ⟨current, rfl, afterExchange_url answered shows⟩
          · subst run
            obtain rfl := Except.error.inj fails
            cases shows
          · next impossible => cases impossible
  | succ left inductionHypothesis =>
      rw [storageLoop] at runs
      split at runs
      · subst run
        obtain rfl := Except.error.inj fails
        exact ⟨current, rfl, (Option.some.inj shows).symm⟩
      · split at runs
        · next splits =>
            subst run
            obtain rfl := Except.error.inj fails
            exact ⟨current, rfl, splitHttpUrl_url splits shows⟩
        · next origin path splits =>
            split at runs
            · next answered =>
                subst run
                obtain rfl := fails
                exact ⟨current, rfl, afterExchange_url answered shows⟩
            · next impossible => cases impossible
            · next location again _ same =>
                obtain rfl := Nat.succ.inj same
                split at runs
                · next resolved =>
                    subst run
                    obtain rfl := Except.error.inj fails
                    exact ⟨current, rfl, splitHttpUrl_url (resolveStorageRedirect_error resolved) shows⟩
                · next target resolved =>
                    subst run
                    obtain ⟨final, leads, same⟩ := inductionHypothesis rfl fails
                    refine ⟨final, ?_, same⟩
                    rw [storageTarget, List.foldlM_cons, resolved]
                    exact leads

/-- Two fetches of the backend that differ in secrets show the same URL. -/
theorem storage_same {config config' : StorageConfig} {get get' : Nat → Bytes → Bytes → Exchange}
    {url url' text text' : Bytes} {error error' : StorageError}
    (same : SameButSecrets url url') (schemed : Schemed url) (schemed' : Schemed url')
    (fails : (storageFetch config get url).result = .error error)
    (fails' : (storageFetch config' get' url').result = .error error')
    (locations : List.Forall₂ SameLocation (storageFetch config get url).followed
      (storageFetch config' get' url').followed)
    (shows : error.url = some text) (shows' : error'.url = some text') : text = text' := by
  obtain ⟨final, leads, rfl⟩ := storageLoop_url rfl fails shows
  obtain ⟨final', leads', rfl⟩ := storageLoop_url rfl fails' shows'
  rw [redactUrl_public, redactUrl_public, storageTarget_public leads, storageTarget_public leads']
  change Public.printed (List.foldl _ _ ((storageFetch config get url).followed.map locationPart)) =
    Public.printed (List.foldl _ _ ((storageFetch config' get' url').followed.map locationPart))
  rw [same_public same schemed schemed', locationPart_same locations]

/-! ## The client's URLs -/

/-- Everything that `parse_url` makes of a scheme and an authority. -/
def authorityParts (inet : Inet) (scheme authority : Bytes) : Fetched ParsedUrl := do
  let (host, port) ← splitAuthority authority
  let host ← checkHost inet (authority.head? == some 0x5b) (lowerAscii host)
  let number ← portOf (lowerAscii scheme) port
  return ⟨lowerAscii scheme, host, number, port.isSome, authority.head? == some 0x5b, []⟩

/-- A URL that `parse_url` takes, by its public part. -/
structure ParsedFrom (inet : Inet) (url : Bytes) (parsed : ParsedUrl) (scheme host path query : Bytes) :
    Prop where
  public_eq : publicPart url = .url scheme host path
  schemed : Schemed url
  http : parsed.scheme = ascii "https" ∨ parsed.scheme = ascii "http"
  parts : authorityParts inet scheme host = .ok { parsed with pathAndQuery := [] }
  target : parsed.pathAndQuery = rooted path ++ query
  query_head : query = [] ∨ query.head? = some 0x3f
  query_plain : hasForbiddenUrlCharacter query = false ∧ (0x23 : UInt8) ∉ query

/-- The scheme of HTTP(S) has the letters of a class that the lower-case ones have, if the class
misses no upper-case letter. -/
theorem http_class {letter : UInt8 → Bool} {scheme : Bytes}
    (letters : (ascii "https" ++ ascii "http").all letter = true)
    (kept : ∀ byte, letter byte = false → toLower byte = byte)
    (http : lowerAscii scheme = ascii "https" ∨ lowerAscii scheme = ascii "http") :
    scheme.all letter = true := by
  rw [List.all_eq_true] at letters ⊢
  intro byte mem
  by_contra stop
  have same := kept byte (Bool.eq_false_iff.mpr stop)
  have lower : byte ∈ lowerAscii scheme := by
    rw [← same]
    exact List.mem_map_of_mem mem
  apply stop
  apply letters
  rw [List.mem_append]
  rcases http with https | http
  · rw [https] at lower
    exact .inl lower
  · rw [http] at lower
    exact .inr lower

theorem lowerAscii_plain {scheme : Bytes}
    (http : lowerAscii scheme = ascii "https" ∨ lowerAscii scheme = ascii "http") :
    scheme.all isAuthorityByte = true := by
  apply http_class (by decide) _ http
  intro byte stop
  rcases isAuthorityByte_false.mp stop with rfl | rfl | rfl
  · rfl
  · rfl
  · rfl

/-- Behind the authority of a URL without a fragment: a path, and then a query. -/
theorem pathAndQueryOf_eq {back : Bytes} (noHash : (0x23 : UInt8) ∉ back) :
    pathAndQueryOf (back.dropWhile isAuthorityByte) =
      rooted (pathOf back) ++ (back.dropWhile isAuthorityByte).dropWhile isPathByte := by
  have subset : ∀ byte ∈ back.dropWhile isAuthorityByte, byte ∈ back := by
    intro byte mem
    exact (List.dropWhile_suffix _).subset mem
  rw [rooted_pathOf, pathOf]
  by_cases empty : back.dropWhile isAuthorityByte = []
  · rw [empty]
    decide
  · have head := head_behind back empty
    cases behind : back.dropWhile isAuthorityByte with
    | nil => exact absurd behind empty
    | cons byte more =>
        rw [behind] at head subset
        simp only [List.head?_cons, Option.some.injEq] at head ⊢
        rcases head with rfl | rfl | rfl
        · rw [if_pos rfl, List.takeWhile_append_dropWhile]
          rfl
        · rfl
        · exact absurd (subset _ List.mem_cons_self) noHash

theorem query_head {back : Bytes} (noHash : (0x23 : UInt8) ∉ back) :
    (back.dropWhile isAuthorityByte).dropWhile isPathByte = [] ∨
      ((back.dropWhile isAuthorityByte).dropWhile isPathByte).head? = some 0x3f := by
  cases query : (back.dropWhile isAuthorityByte).dropWhile isPathByte with
  | nil => exact .inl rfl
  | cons byte more =>
      have stop : isPathByte byte = false := stop_of_dropWhile query
      have mem : byte ∈ back := by
        apply (List.dropWhile_suffix isAuthorityByte).subset
        apply (List.dropWhile_suffix isPathByte).subset
        rw [query]
        exact List.mem_cons_self
      rw [isPathByte, Bool.and_eq_false_iff, bne_eq_false_iff_eq, bne_eq_false_iff_eq] at stop
      rcases stop with rfl | rfl
      · exact .inr rfl
      · exact absurd mem noHash

/-- The parts of a URL that `parse_url` takes, cut where an authority ends. -/
theorem parseUrl_parts {inet : Inet} {url : Bytes} {parsed : ParsedUrl}
    (parses : parseUrl inet url = .ok parsed) :
    ∃ front back split host number, breakOn (ascii "://") url = some (front, back) ∧
      (lowerAscii front = ascii "https" ∨ lowerAscii front = ascii "http") ∧
      hasForbiddenUrlCharacter back = false ∧ (0x23 : UInt8) ∉ back ∧
      back.takeWhile isAuthorityByte ≠ [] ∧ IsHost (back.takeWhile isAuthorityByte) ∧
      splitAuthority (back.takeWhile isAuthorityByte) = .ok split ∧
      checkHost inet ((back.takeWhile isAuthorityByte).head? == some 0x5b) (lowerAscii split.1) =
        .ok host ∧
      portOf (lowerAscii front) split.2 = .ok number ∧
      parsed = ⟨lowerAscii front, host, number, split.2.isSome,
        (back.takeWhile isAuthorityByte).head? == some 0x5b,
        pathAndQueryOf (back.dropWhile isAuthorityByte)⟩ := by
  simp only [parseUrl, bind_eq_ok_iff, throwIf_ok, not_or] at parses
  rcases parses with ⟨-, ⟨-, clean, noFragment⟩, parses⟩
  split at parses
  · cases parses
  · next scheme authority rest splits =>
      simp only [bind_eq_ok_iff, throwIf_ok, not_or, not_and_or, not_not, fetched_pure_ok]
        at parses
      rcases parses with ⟨-, http, -, ⟨named, noUser⟩, split, splitHost, host, hosted, number, numbered,
        rfl⟩
      rw [splitUrl] at splits
      obtain ⟨⟨front, back⟩, found, parts⟩ := Option.map_eq_some_iff.mp splits
      obtain ⟨rfl, rest⟩ := Prod.mk.inj parts
      obtain ⟨rfl, rfl⟩ := Prod.mk.inj rest
      have noHash : (0x23 : UInt8) ∉ back := by
        intro mem
        apply noFragment
        rw [breakOn_eq found]
        exact List.mem_append_right _ mem
      have cleanBack : hasForbiddenUrlCharacter back = false := by
        rw [breakOn_eq found, hasForbiddenUrlCharacter, List.any_append, Bool.or_eq_true, not_or] at clean
        exact Bool.eq_false_iff.mpr clean.2
      have agree : ∀ byte ∈ back, (byte != 0x2f && byte != 0x3f) = isAuthorityByte byte := by
        intro byte mem
        have other : byte ≠ 0x23 := by
          rintro rfl
          exact noHash mem
        rw [isAuthorityByte, bne_iff_ne.mpr other, Bool.and_true]
      have authority := takeWhile_congr agree
      have behind := dropWhile_congr agree
      rw [authority] at named noUser splitHost hosted
      refine ⟨front, back, split, host, number, found, http, cleanBack, noHash, named,
        ⟨List.all_takeWhile, noUser⟩, splitHost, hosted, numbered, ?_⟩
      rw [authority, behind]

theorem parseUrl_from {inet : Inet} {url : Bytes} {parsed : ParsedUrl}
    (parses : parseUrl inet url = .ok parsed) :
    ∃ scheme host path query, ParsedFrom inet url parsed scheme host path query := by
  obtain ⟨front, back, split, host, number, found, http, cleanBack, noHash, -, isHost, splitHost, hosted,
    numbered, rfl⟩ := parseUrl_parts parses
  have hostEq : hostOf back = back.takeWhile isAuthorityByte := by
    rw [hostOf]
    exact withoutUserinfo_append (.inl rfl) isHost
  have schemed : Schemed url := by
    intro scheme rest again
    rw [found] at again
    obtain ⟨rfl, -⟩ := Prod.mk.inj (Option.some.inj again)
    exact lowerAscii_plain http
  have within : ∀ byte ∈ (back.dropWhile isAuthorityByte).dropWhile isPathByte, byte ∈ back := by
    intro byte mem
    exact (List.dropWhile_suffix _).subset ((List.dropWhile_suffix _).subset mem)
  refine ⟨front, back.takeWhile isAuthorityByte, pathOf back,
    (back.dropWhile isAuthorityByte).dropWhile isPathByte, ?_⟩
  exact {
    public_eq := by rw [publicPart_url found, hostEq]
    schemed := schemed
    http := http
    parts := by
      simp only [authorityParts, bind_eq_ok_iff, fetched_pure_ok]
      exact ⟨split, splitHost, host, hosted, number, numbered, rfl⟩
    target := pathAndQueryOf_eq noHash
    query_head := query_head noHash
    query_plain := by
      constructor
      · rw [hasForbiddenUrlCharacter, List.any_eq_false] at cleanBack ⊢
        intro byte mem
        exact cleanBack byte (within byte mem)
      · intro mem
        exact noHash (within _ mem) }

/-- A path in front of its query. -/
theorem takeWhile_query {path query : Bytes} (plain : path.all isPathByte = true)
    (head : query = [] ∨ query.head? = some 0x3f) :
    (path ++ query).takeWhile (· != 0x3f) = path := by
  apply (cut_eq ?_ ?_).1
  · rw [List.all_eq_true] at plain ⊢
    intro byte mem
    have kept := plain byte mem
    rw [isPathByte, Bool.and_eq_true] at kept
    exact kept.1
  · rintro byte rest rfl
    obtain rfl := Option.some.inj (head.resolve_left (List.cons_ne_nil byte rest))
    rfl

theorem publicPart_isPath {text scheme host path : Bytes}
    (public_eq : publicPart text = .url scheme host path) : IsPath path := by
  rw [publicPart] at public_eq
  split at public_eq
  · next behind _ =>
      obtain ⟨-, -, rfl⟩ := Public.url.inj public_eq
      exact pathOf_isPath behind
  · split at public_eq
    · cases public_eq
    · cases public_eq

namespace ParsedFrom

variable {inet : Inet} {url scheme host path query : Bytes} {parsed : ParsedUrl}

theorem path_eq (whole : ParsedFrom inet url parsed scheme host path query) :
    parsed.pathAndQuery.takeWhile (· != 0x3f) = rooted path := by
  rw [whole.target]
  exact takeWhile_query (rooted_all (publicPart_isPath whole.public_eq).2) whole.query_head

theorem redacts (whole : ParsedFrom inet url parsed scheme host path query)
    (parses : parseUrl inet url = .ok parsed) :
    redactExternalUrl inet url = parsed.origin ++ rooted path := by
  rw [redactExternalUrl, parses]
  dsimp only
  rw [whole.path_eq]

/-- What `parse_url` makes of two URLs with one public part is the same but for the query. -/
theorem same {other query' : Bytes} {parsed' : ParsedUrl} {scheme' host' path' : Bytes}
    (whole : ParsedFrom inet url parsed scheme host path query)
    (whole' : ParsedFrom inet other parsed' scheme' host' path' query')
    (same : publicPart url = publicPart other) :
    parsed.scheme = parsed'.scheme ∧ parsed.origin = parsed'.origin ∧ path = path' := by
  have parts := whole.public_eq.symm.trans (same.trans whole'.public_eq)
  obtain ⟨rfl, rfl, rfl⟩ := Public.url.inj parts
  have base := Except.ok.inj (whole.parts.symm.trans whole'.parts)
  have scheme := congrArg ParsedUrl.scheme base
  have origin := congrArg ParsedUrl.origin base
  exact ⟨scheme, origin, rfl⟩

end ParsedFrom

/-- Two URLs with one public part are redacted to the same text, if `parse_url` takes both. -/
theorem redactExternalUrl_same {inet : Inet} {one two : Bytes} {parsed parsed' : ParsedUrl}
    (parses : parseUrl inet one = .ok parsed) (parses' : parseUrl inet two = .ok parsed')
    (same : publicPart one = publicPart two) :
    redactExternalUrl inet one = redactExternalUrl inet two := by
  obtain ⟨scheme, host, path, query, whole⟩ := parseUrl_from parses
  obtain ⟨scheme', host', path', query', whole'⟩ := parseUrl_from parses'
  obtain ⟨-, origin, rfl⟩ := whole.same whole' same
  rw [whole.redacts parses, whole'.redacts parses', origin]

/-! ## Where the client's redirects lead -/

/-- The public part of a redirect's target, from a base that was parsed. -/
def Public.clientResolved (scheme origin path : Bytes) : Public → Public
  | .url other host target => .url other host target
  | .network host target => .url scheme host target
  | .reference body =>
      if body = [] then publicPart (origin ++ path)
      else if body.head? = some 0x2f then publicPart (origin ++ normalizePath body)
      else publicPart (origin ++ normalizePath (directoryOf path ++ body))

theorem normalizePath_query {path query : Bytes} (plain : path.all (· != 0x3f) = true)
    (head : query = [] ∨ query.head? = some 0x3f) :
    normalizePath (path ++ query) = normalizePath path ++ query := by
  have stops : ∀ byte rest, query = byte :: rest → (byte != 0x3f) = false := by
    rintro byte rest rfl
    obtain rfl := Option.some.inj (head.resolve_left (List.cons_ne_nil byte rest))
    rfl
  obtain ⟨front, back⟩ := cut_eq plain stops
  obtain ⟨whole, rest⟩ := cut_eq plain (show ∀ byte more, ([] : Bytes) = byte :: more → _ by nofun)
  rw [List.append_nil] at whole rest
  rw [normalizePath, normalizePath, front, back, whole, rest, List.append_nil]

/-- A Location that `resolve_redirect` takes. -/
theorem resolveRedirect_accepts {base : ParsedUrl} {location next : Bytes}
    (resolves : resolveRedirect base location = .ok next) :
    location ≠ [] ∧ hasForbiddenUrlCharacter location = false ∧ (0x23 : UInt8) ∉ location := by
  simp only [resolveRedirect, bind_eq_ok_iff, throwIf_ok, not_or] at resolves
  obtain ⟨-, ⟨some, clean, noHash⟩, -⟩ := resolves
  exact ⟨some, Bool.eq_false_iff.mpr clean, noHash⟩

/-- Where a Location leads that names no scheme. -/
theorem resolveRedirect_relative {base : ParsedUrl} {location next : Bytes}
    (resolves : resolveRedirect base location = .ok next)
    (absent : breakOn (ascii "://") location = none) :
    next =
      if (ascii "//").isPrefixOf location then base.scheme ++ ascii ":" ++ location
      else if location.head? = some 0x2f then base.origin ++ normalizePath location
      else if location.head? = some 0x3f then
        base.origin ++ base.pathAndQuery.takeWhile (· != 0x3f) ++ location
      else base.origin ++
        normalizePath (directoryOf (base.pathAndQuery.takeWhile (· != 0x3f)) ++ location) := by
  simp only [resolveRedirect, bind_eq_ok_iff, throwIf_ok] at resolves
  obtain ⟨-, -, resolves⟩ := resolves
  rw [absent, if_neg nofun] at resolves
  split at resolves
  · next slashes =>
      rw [if_pos slashes]
      exact (Except.ok.inj resolves).symm
  · next noAuthority =>
      rw [if_neg noAuthority]
      split at resolves
      · next slash =>
          rw [if_pos slash]
          exact (Except.ok.inj resolves).symm
      · next noSlash =>
          rw [if_neg noSlash]
          split at resolves
          · next query =>
              rw [if_pos query]
              exact (Except.ok.inj resolves).symm
          · next noQuery =>
              rw [if_neg noQuery]
              exact (Except.ok.inj resolves).symm

theorem resolveRedirect_absolute {base : ParsedUrl} {location next : Bytes}
    (resolves : resolveRedirect base location = .ok next)
    (present : (breakOn (ascii "://") location).isSome = true) : next = location := by
  simp only [resolveRedirect, bind_eq_ok_iff, throwIf_ok] at resolves
  obtain ⟨-, -, resolves⟩ := resolves
  rw [if_pos present] at resolves
  exact (Except.ok.inj resolves).symm

/-- A Location is a reference without its query, and the query. -/
theorem location_cut {location : Bytes} (noHash : (0x23 : UInt8) ∉ location) :
    ∃ body query, location = body ++ query ∧ location.takeWhile isPathByte = body ∧
      body.all isPathByte = true ∧ (query = [] ∨ query.head? = some 0x3f) := by
  refine ⟨location.takeWhile isPathByte, location.dropWhile isPathByte,
    List.takeWhile_append_dropWhile.symm, rfl, ?_, ?_⟩
  · rw [List.all_eq_true]
    intro byte mem
    exact List.mem_takeWhile_imp mem
  · cases query : location.dropWhile isPathByte with
    | nil => exact .inl rfl
    | cons byte more =>
        have stop : isPathByte byte = false := stop_of_dropWhile query
        have mem : byte ∈ location := by
          apply (List.dropWhile_suffix isPathByte).subset
          rw [query]
          exact List.mem_cons_self
        rw [isPathByte, Bool.and_eq_false_iff, bne_eq_false_iff_eq, bne_eq_false_iff_eq] at stop
        rcases stop with rfl | rfl
        · exact .inr rfl
        · exact absurd mem noHash

theorem directoryOf_plain {path : Bytes} (plain : path.all (· != 0x3f) = true) :
    (directoryOf path).all (· != 0x3f) = true := by
  rw [directoryOf]
  split
  · rw [List.all_eq_true] at plain ⊢
    intro byte mem
    exact plain byte (List.mem_reverse.mp ((List.dropWhile_suffix _).subset (List.mem_reverse.mp mem)))
  · decide

/-- A reference without an authority: its query is not public. -/
theorem resolveRedirect_reference {base : ParsedUrl} {location next path : Bytes}
    (some : location ≠ []) (noHash : (0x23 : UInt8) ∉ location)
    (basePath : base.pathAndQuery.takeWhile (· != 0x3f) = path)
    (leads : next =
      if location.head? = .some 0x2f then base.origin ++ normalizePath location
      else if location.head? = .some 0x3f then base.origin ++ path ++ location
      else base.origin ++ normalizePath (directoryOf path ++ location))
    (schemed : Schemed next) :
    publicPart next =
      (Public.reference (location.takeWhile isPathByte)).clientResolved base.scheme base.origin path := by
  obtain ⟨body, query, rfl, cut, plain, head⟩ := location_cut noHash
  have secret : IsSecret query := head.imp_right .inl
  have noQuery : body.all (· != 0x3f) = true := by
    rw [List.all_eq_true] at plain ⊢
    intro byte mem
    exact (Bool.and_eq_true_iff.mp (plain byte mem)).1
  have pathPlain : path.all (· != 0x3f) = true := by
    rw [← basePath]
    exact List.all_takeWhile
  rw [cut, Public.clientResolved]
  cases body with
  | nil =>
      have question := head.resolve_left some
      rw [List.nil_append, if_neg (by rw [question]; decide), if_pos question] at leads
      rw [if_pos rfl, leads, publicPart_secret secret (leads ▸ schemed)]
  | cons byte more =>
      have notQuestion : ¬(byte :: more ++ query).head? = .some 0x3f := by
        rw [List.all_cons, Bool.and_eq_true, bne_iff_ne] at noQuery
        intro same
        exact noQuery.1 (Option.some.inj same)
      rw [if_neg (List.cons_ne_nil byte more)]
      by_cases slash : byte = 0x2f
      · have starts : (byte :: more ++ query).head? = .some 0x2f := congrArg Option.some slash
        have startsToo : (byte :: more).head? = .some 0x2f := congrArg Option.some slash
        rw [if_pos starts, normalizePath_query noQuery head, ← List.append_assoc] at leads
        rw [if_pos startsToo, leads, publicPart_secret secret (leads ▸ schemed)]
      · have notSlash : ¬(byte :: more ++ query).head? = .some 0x2f := by
          intro same
          exact slash (Option.some.inj same)
        have notSlashToo : ¬(byte :: more).head? = .some 0x2f := by
          intro same
          exact slash (Option.some.inj same)
        have joined : (directoryOf path ++ (byte :: more)).all (· != 0x3f) = true := by
          rw [List.all_append, directoryOf_plain pathPlain, noQuery]
          rfl
        rw [if_neg notSlash, if_neg notQuestion, ← List.append_assoc, normalizePath_query joined head,
          ← List.append_assoc] at leads
        rw [if_neg notSlashToo, leads, publicPart_secret secret (leads ▸ schemed)]

/-- The public part of the target depends on the base and the public part of the Location. -/
theorem resolveRedirect_public {base : ParsedUrl} {location next path : Bytes}
    (http : base.scheme = ascii "https" ∨ base.scheme = ascii "http")
    (basePath : base.pathAndQuery.takeWhile (· != 0x3f) = path)
    (resolves : resolveRedirect base location = .ok next) (schemed : Schemed next) :
    publicPart next = (publicPart location).clientResolved base.scheme base.origin path := by
  obtain ⟨some, -, noHash⟩ := resolveRedirect_accepts resolves
  cases found : breakOn (ascii "://") location with
  | some split =>
      rw [resolveRedirect_absolute resolves (by rw [found]; rfl), publicPart_url found]
      rfl
  | none =>
      have leads := resolveRedirect_relative resolves found
      rw [basePath] at leads
      rw [publicPart_none found]
      by_cases slashes : (ascii "//").isPrefixOf location = true
      · have plain : (0x3a : UInt8) ∉ base.scheme := by
          rcases http with same | same
          · rw [same]
            decide
          · rw [same]
            decide
        rw [if_pos slashes] at leads
        rw [if_pos slashes, leads, publicPart_colon plain slashes]
        rfl
      · rw [if_neg slashes] at leads
        rw [if_neg slashes]
        exact resolveRedirect_reference some noHash basePath leads schemed

/-- The URL behind some redirects of the client. -/
def clientTarget (inet : Inet) (url : Bytes) (locations : List Bytes) : Option Bytes :=
  locations.foldlM (fun current location => (do
    let base ← parseUrl inet current
    resolveRedirect base location).toOption) url

theorem clientTarget_cons {inet : Inet} {url location final : Bytes} {rest : List Bytes}
    (leads : clientTarget inet url (location :: rest) = some final) :
    ∃ base next, parseUrl inet url = .ok base ∧ resolveRedirect base location = .ok next ∧
      clientTarget inet next rest = some final := by
  rw [clientTarget, List.foldlM_cons] at leads
  cases parsed : parseUrl inet url with
  | error error =>
      rw [parsed] at leads
      cases leads
  | ok base =>
      rw [parsed] at leads
      cases resolved : resolveRedirect base location with
      | error error =>
          simp only [bind, Except.bind, resolved] at leads
          cases leads
      | ok next =>
          simp only [bind, Except.bind, resolved] at leads
          exact ⟨base, next, rfl, resolved, leads⟩

/-- Every URL on the way was parsed. -/
theorem clientTarget_parsed {inet : Inet} {url final : Bytes} {locations : List Bytes}
    {parsed : ParsedUrl} (leads : clientTarget inet url locations = some final)
    (parses : parseUrl inet final = .ok parsed) : ∃ first, parseUrl inet url = .ok first := by
  cases locations with
  | nil =>
      obtain rfl := Option.some.inj leads
      exact ⟨parsed, parses⟩
  | cons location rest =>
      obtain ⟨base, -, whole, -⟩ := clientTarget_cons leads
      exact ⟨base, whole⟩

/-- A Location whose target was parsed has a `://` behind a scheme only. -/
theorem schemed_of_resolved {base : ParsedUrl} {location next : Bytes}
    (resolves : resolveRedirect base location = .ok next) (schemed : Schemed next) :
    Schemed location := by
  cases found : breakOn (ascii "://") location with
  | none =>
      intro scheme rest some
      rw [found] at some
      cases some
  | some split =>
      rw [resolveRedirect_absolute resolves (by rw [found]; rfl)] at schemed
      exact schemed

theorem clientTarget_public {inet : Inet} {url url' final final' : Bytes}
    {locations locations' : List Bytes} {parsed parsed' : ParsedUrl}
    (same : publicPart url = publicPart url')
    (agree : List.Forall₂ SameButSecrets locations locations')
    (leads : clientTarget inet url locations = some final)
    (leads' : clientTarget inet url' locations' = some final')
    (parses : parseUrl inet final = .ok parsed) (parses' : parseUrl inet final' = .ok parsed') :
    publicPart final = publicPart final' := by
  induction agree generalizing url url' with
  | nil =>
      obtain rfl := Option.some.inj leads
      obtain rfl := Option.some.inj leads'
      exact same
  | cons alike _ inductionHypothesis =>
      obtain ⟨base, next, whole, resolves, onwards⟩ := clientTarget_cons leads
      obtain ⟨base', next', whole', resolves', onwards'⟩ := clientTarget_cons leads'
      obtain ⟨first, parsedNext⟩ := clientTarget_parsed onwards parses
      obtain ⟨first', parsedNext'⟩ := clientTarget_parsed onwards' parses'
      obtain ⟨_, _, _, _, nextFrom⟩ := parseUrl_from parsedNext
      obtain ⟨_, _, _, _, nextFrom'⟩ := parseUrl_from parsedNext'
      obtain ⟨_, _, path, _, urlFrom⟩ := parseUrl_from whole
      obtain ⟨_, _, path', _, urlFrom'⟩ := parseUrl_from whole'
      obtain ⟨scheme, origin, rfl⟩ := urlFrom.same urlFrom' same
      have located := same_public alike (schemed_of_resolved resolves nextFrom.schemed)
        (schemed_of_resolved resolves' nextFrom'.schemed)
      apply inductionHypothesis _ onwards onwards'
      rw [resolveRedirect_public urlFrom.http urlFrom.path_eq resolves nextFrom.schemed,
        resolveRedirect_public urlFrom'.http urlFrom'.path_eq resolves' nextFrom'.schemed, located,
        scheme, origin]

/-! ## The client's errors -/

/-- The URL that a text of the client shows. -/
def ExternalHttpError.url : ExternalHttpError → Option Bytes
  | .getFailed url | .redirectLoop url | .redirectLimit url | .status _ url => some url
  | _ => none

/-- Errors that show no URL. -/
def Silent {α : Type} (result : Fetched α) : Prop := ∀ error, result = .error error → error.url = none

namespace Silent

theorem ok {α : Type} (value : α) : Silent (.ok value : Fetched α) := nofun

theorem error {α : Type} {error : ExternalHttpError} (none : error.url = .none) :
    Silent (.error error : Fetched α) := by
  rintro _ ⟨⟩
  exact none

theorem bind {α β : Type} {first : Fetched α} {next : α → Fetched β} (one : Silent first)
    (two : ∀ value, Silent (next value)) : Silent (first >>= next) := by
  intro error fails
  cases first with
  | error other =>
      obtain rfl := Except.error.inj fails
      exact one other rfl
  | ok value => exact two value error fails

theorem throwIf {condition : Prop} [Decidable condition] {error : ExternalHttpError}
    (none : error.url = .none) : Silent (throwIf condition error) := by
  rw [External.throwIf]
  split
  · exact Silent.error none
  · exact Silent.ok ()

end Silent

theorem parsePort_silent (value : Bytes) : Silent (parsePort value) :=
  Silent.bind (Silent.throwIf rfl) fun _ => Silent.bind (Silent.throwIf rfl) fun _ =>
    Silent.bind (Silent.throwIf rfl) fun _ => Silent.ok _

theorem splitAuthority_silent (authority : Bytes) : Silent (splitAuthority authority) := by
  rw [splitAuthority.eq_def]
  split
  · apply Silent.bind (Silent.throwIf rfl)
    intro _
    split
    · exact Silent.ok _
    · exact Silent.ok _
    · exact Silent.error rfl
  · apply Silent.bind (Silent.throwIf rfl)
    intro _
    split
    · exact Silent.ok _
    · exact Silent.ok _

theorem checkHost_silent (inet : Inet) (literal : Bool) (host : Bytes) :
    Silent (checkHost inet literal host) := by
  rw [checkHost]
  split
  · apply Silent.bind (Silent.throwIf rfl)
    intro _
    split
    · exact Silent.error rfl
    · split
      · exact Silent.error rfl
      · exact Silent.ok _
  · exact Silent.bind (Silent.throwIf rfl) fun _ => Silent.ok _

theorem parseUrl_silent (inet : Inet) (url : Bytes) : Silent (parseUrl inet url) := by
  apply Silent.bind (Silent.throwIf rfl)
  intro _
  split
  · exact Silent.error rfl
  · apply Silent.bind (Silent.throwIf rfl)
    intro _
    apply Silent.bind (Silent.throwIf rfl)
    intro _
    apply Silent.bind (splitAuthority_silent _)
    intro split
    apply Silent.bind (checkHost_silent inet _ _)
    intro host
    refine Silent.bind ?_ fun _ => Silent.ok _
    rw [portOf.eq_def]
    split
    · exact parsePort_silent _
    · exact Silent.ok _

theorem selectAddress_silent (inet : Inet) (policy : ExternalUrlPolicy) (selected : Bytes)
    (records : List (Option Address)) : Silent (selectAddress inet policy selected records) := by
  induction records generalizing selected with
  | nil => exact Silent.ok _
  | cons record rest inductionHypothesis =>
      cases record with
      | none => exact inductionHypothesis selected
      | some address =>
          rw [selectAddress]
          apply Silent.bind (Silent.throwIf rfl)
          intro _
          split
          · exact Silent.error rfl
          · exact inductionHypothesis _

theorem validateAndResolve_silent (network : Network) (hop : Nat) (url : Bytes)
    (policy : ExternalUrlPolicy) : Silent (validateAndResolve network hop url policy) := by
  apply Silent.bind (parseUrl_silent _ url)
  intro parsed
  apply Silent.bind (Silent.throwIf rfl)
  intro _
  apply Silent.bind (Silent.throwIf rfl)
  intro _
  apply Silent.bind (Silent.throwIf rfl)
  intro _
  apply Silent.bind (Silent.throwIf rfl)
  intro _
  apply Silent.bind (selectAddress_silent _ _ _ _)
  intro selected
  exact Silent.bind (Silent.throwIf rfl) fun _ => Silent.ok _

theorem receive_silent (cap : Nat) (body : Bytes) (chunks : List Bytes) :
    Silent (receive cap body chunks) := by
  induction chunks generalizing body with
  | nil => exact Silent.ok _
  | cons chunk rest inductionHypothesis =>
      exact Silent.bind (Silent.throwIf rfl) fun _ => inductionHypothesis _

theorem decodeZstdLoop_silent (zstd : Zstd) (cap : Nat) (state : zstd.State) (input decoded : Bytes) :
    Silent (decodeZstdLoop zstd cap state input decoded) := by
  fun_induction decodeZstdLoop zstd cap state input decoded with
  | case1 => exact Silent.error rfl
  | case2 => exact Silent.error rfl
  | case3 => exact Silent.error rfl
  | case4 => assumption
  | case5 => exact Silent.ok _

theorem decodeBody_silent (options : ClientExternalHttpOptions) (zstd : Zstd) (encoding body : Bytes) :
    Silent (decodeBody options zstd encoding body) := by
  rw [decodeBody]
  split
  · split
    · exact Silent.error rfl
    · exact Silent.ok _
  · split
    · rw [decodeZstdBounded]
      split
      · exact Silent.error rfl
      · exact decodeZstdLoop_silent _ _ _ _ _
    · exact Silent.error rfl

theorem verifyChecksum_silent (sha256 : Bytes → Bytes) (bytes expected : Bytes) :
    Silent (verifyChecksum sha256 bytes expected) := by
  rw [verifyChecksum]
  split
  · exact Silent.ok _
  · split
    · exact Silent.error rfl
    · exact Silent.bind (Silent.throwIf rfl) fun _ => Silent.throwIf rfl

theorem resolveRedirect_silent (base : ParsedUrl) (location : Bytes) :
    Silent (resolveRedirect base location) := by
  apply Silent.bind (Silent.throwIf rfl)
  intro _
  dsimp only
  split
  · exact Silent.ok _
  · split
    · exact Silent.ok _
    · split
      · exact Silent.ok _
      · split
        · exact Silent.ok _
        · exact Silent.ok _

section Fetch

variable {options : ClientExternalHttpOptions} {network : Network} {zstd : Zstd}
  {sha256 : Bytes → Bytes} {checksum current text : Bytes} {redirects : Nat}
  {target : ResolvedTarget} {error : ExternalHttpError}

/-- The request itself failed; its URL is printed as it was parsed. -/
def ExternalHttpError.isGetFailed : ExternalHttpError → Bool
  | .getFailed _ => true
  | _ => false

/-- The text of an error for a URL. -/
def shownUrl (inet : Inet) (error : ExternalHttpError) (url : Bytes) (parsed : ParsedUrl) : Bytes :=
  redactExternalUrl inet (if error.isGetFailed then parsed.full else url)

/-- An error that shows a URL comes from a step that is not silent. -/
theorem Silent.bind_shows {α β : Type} {first : Fetched α} {next : α → Fetched β}
    (silent : Silent first) (fails : first >>= next = .error error) (shows : error.url = some text) :
    ∃ value, first = .ok value ∧ next value = .error error := by
  cases ran : first with
  | error other =>
      rw [ran] at fails
      obtain rfl := Except.error.inj fails
      rw [silent other ran] at shows
      cases shows
  | ok value =>
      rw [ran] at fails
      exact ⟨value, rfl, fails⟩

theorem throwIf_shows {condition : Prop} [Decidable condition] {β : Type} {failure : ExternalHttpError}
    {next : Unit → Fetched β} (fails : throwIf condition failure >>= next = .error error) :
    error = failure ∨ next () = .error error := by
  rw [throwIf] at fails
  split at fails
  · exact .inl (Except.error.inj fails).symm
  · exact .inr fails

theorem getOnce_url {exchange : Exchange}
    (fails : getOnce options network.toInet target exchange = .error error)
    (shows : error.url = some text) :
    text = shownUrl network.toInet error current target.url ∧ error.isGetFailed = true := by
  rw [getOnce] at fails
  split at fails
  · cases fails
  · obtain ⟨_, -, fails⟩ := (Silent.throwIf rfl).bind_shows fails shows
    obtain ⟨body, -, fails⟩ := (receive_silent _ _ _).bind_shows fails shows
    split at fails
    · obtain rfl := Except.error.inj fails
      exact ⟨(Option.some.inj shows).symm, rfl⟩
    · cases fails

theorem afterResponse_url {response : HttpResponse}
    (fails : afterResponse options network zstd sha256 checksum redirects current target response =
      .error error) (shows : error.url = some text) :
    text = shownUrl network.toInet error current target.url ∧ ∀ url, error ≠ .redirectLoop url := by
  rw [afterResponse] at fails
  split at fails
  · rcases throwIf_shows fails with rfl | fails
    · exact ⟨(Option.some.inj shows).symm, by rintro _ ⟨⟩⟩
    · obtain ⟨next, -, fails⟩ := (resolveRedirect_silent _ _).bind_shows fails shows
      cases fails
  · rcases throwIf_shows fails with rfl | fails
    · exact ⟨(Option.some.inj shows).symm, by rintro _ ⟨⟩⟩
    · obtain ⟨decoded, -, fails⟩ := (decodeBody_silent _ _ _ _).bind_shows fails shows
      obtain ⟨_, -, fails⟩ := (verifyChecksum_silent _ _ _).bind_shows fails shows
      cases fails

theorem hopOutcome_url
    (fails : hopOutcome options network zstd sha256 checksum redirects current target = .error error)
    (shows : error.url = some text) :
    text = shownUrl network.toInet error current target.url ∧ ∀ url, error ≠ .redirectLoop url := by
  rw [hopOutcome] at fails
  cases got : getOnce options network.toInet target (network.get redirects target) with
  | error other =>
      rw [got] at fails
      obtain rfl := Except.error.inj fails
      obtain ⟨same, failed⟩ := getOnce_url got shows
      refine ⟨same, ?_⟩
      rintro url rfl
      cases failed
  | ok response =>
      rw [got] at fails
      exact afterResponse_url fails shows

/-- The Location that the answer to a request names. -/
def answeredLocation (network : Network) (request : Request) : Bytes :=
  ((network.get request.hop request.target).head.getD ⟨0, [], [], none⟩).location

/-- The Locations that a fetch followed before it failed. -/
def Run.followed (network : Network) (run : Run) : List Bytes :=
  match run.result with
  | some (.error (.redirectLoop _)) => run.requests.map (answeredLocation network)
  | _ => (run.requests.map (answeredLocation network)).dropLast

theorem Follows.answered {request : Request} {next : Bytes} (follows : Follows network request next) :
    resolveRedirect request.target.url (answeredLocation network request) = .ok next := by
  obtain ⟨head, answered, resolves⟩ := follows
  rw [answeredLocation, answered]
  exact resolves

theorem Run.followed_failed {request : Request} (noLoop : ∀ url, error ≠ .redirectLoop url) :
    (Run.mk [request] (some (.error error))).followed network = [] := by
  rw [Run.followed.eq_def]
  split
  · next same =>
      obtain rfl := Except.error.inj (Option.some.inj same)
      exact absurd rfl (noLoop _)
  · rfl

/-- One more request in front of a run that fails. -/
theorem Run.followed_cons {request : Request} {run : Run}
    (some : run.requests = [] → ∃ url, run.result = .some (.error (.redirectLoop url))) :
    (Run.mk (request :: run.requests) run.result).followed network =
      answeredLocation network request :: run.followed network := by
  rw [Run.followed.eq_def, Run.followed.eq_def]
  dsimp only
  split
  · rfl
  · next other =>
      have listed : run.requests.map (answeredLocation network) ≠ [] := by
        intro empty
        obtain ⟨url, looped⟩ := some (List.map_eq_nil_iff.mp empty)
        exact other url looped
      rw [List.map_cons, List.dropLast_cons_of_ne_nil listed]

/-- Before any request, only a loop is reported with its URL. -/
theorem fetchLoop_unasked {rounds : Nat} {visited : List Bytes} {run : Run}
    (runs : fetchLoop options network zstd sha256 checksum rounds redirects visited current = run)
    (fails : run.result = some (.error error)) (shows : error.url = some text)
    (unasked : run.requests = []) : ∃ url, error = .redirectLoop url := by
  cases rounds with
  | zero =>
      subst run
      cases fails
  | succ rounds =>
      rw [fetchLoop] at runs
      split at runs
      · subst run
        obtain rfl := Except.error.inj (Option.some.inj fails)
        exact ⟨_, rfl⟩
      · split at runs
        · next invalid =>
            subst run
            obtain rfl := Except.error.inj (Option.some.inj fails)
            rw [validateAndResolve_silent _ _ _ _ _ invalid] at shows
            cases shows
        · split at runs
          · subst run
            obtain rfl := Except.error.inj (Option.some.inj fails)
            cases shows
          · dsimp only at runs
            split at runs
            · subst run
              cases unasked
            · subst run
              cases unasked
            · subst run
              cases unasked

/-- The URL that an error of the client shows is the one behind the redirects. -/
theorem fetchLoop_url {rounds : Nat} {visited : List Bytes} {run : Run}
    (known : ∀ url ∈ visited, ∃ parsed, parseUrl network.toInet url = .ok parsed)
    (runs : fetchLoop options network zstd sha256 checksum rounds redirects visited current = run)
    (fails : run.result = some (.error error)) (shows : error.url = some text) :
    ∃ final parsed, clientTarget network.toInet current (run.followed network) = some final ∧
      parseUrl network.toInet final = .ok parsed ∧
      text = shownUrl network.toInet error final parsed := by
  induction rounds generalizing redirects visited current run with
  | zero =>
      subst run
      cases fails
  | succ rounds inductionHypothesis =>
      rw [fetchLoop] at runs
      split at runs
      · next again =>
          subst run
          obtain rfl := Except.error.inj (Option.some.inj fails)
          obtain ⟨parsed, parses⟩ := known current again
          exact ⟨current, parsed, rfl, parses, (Option.some.inj shows).symm⟩
      · split at runs
        · next invalid =>
            subst run
            obtain rfl := Except.error.inj (Option.some.inj fails)
            rw [validateAndResolve_silent _ _ _ _ _ invalid] at shows
            cases shows
        · next target validated =>
            have parses := (validateAndResolve_contained validated).parsed
            split at runs
            · subst run
              obtain rfl := Except.error.inj (Option.some.inj fails)
              cases shows
            · dsimp only at runs
              split at runs
              · next failed =>
                  subst run
                  obtain rfl := Except.error.inj (Option.some.inj fails)
                  obtain ⟨same, noLoop⟩ := hopOutcome_url failed shows
                  refine ⟨current, target.url, ?_, parses, same⟩
                  rw [Run.followed_failed noLoop]
                  rfl
              · subst run
                cases fails
              · next next redirected =>
                  subst run
                  have resolves := (hopOutcome_redirected redirected).2.answered
                  have knownToo : ∀ url ∈ current :: visited,
                      ∃ parsed, parseUrl network.toInet url = .ok parsed := by
                    rw [List.forall_mem_cons]
                    exact ⟨⟨target.url, parses⟩, known⟩
                  obtain ⟨final, parsed, leads, parsedFinal, same⟩ :=
                    inductionHypothesis knownToo rfl fails
                  refine ⟨final, parsed, ?_, parsedFinal, same⟩
                  rw [Run.followed_cons, clientTarget, List.foldlM_cons, parses]
                  · simp only [bind, Except.bind, resolves]
                    exact leads
                  · intro unasked
                    obtain ⟨url, rfl⟩ := fetchLoop_unasked rfl fails shows unasked
                    exact ⟨url, fails⟩

end Fetch

/-! ## A URL that is printed as it was parsed -/

theorem parseUrl_iff {inet : Inet} {url : Bytes} :
    (∃ parsed, parseUrl inet url = .ok parsed) ↔
      (url ≠ [] ∧ hasForbiddenUrlCharacter url = false ∧ (0x23 : UInt8) ∉ url) ∧
        ∃ scheme authority rest base, splitUrl url = some (scheme, authority, rest) ∧
          (lowerAscii scheme = ascii "https" ∨ lowerAscii scheme = ascii "http") ∧
          (authority ≠ [] ∧ (0x40 : UInt8) ∉ authority) ∧
          authorityParts inet scheme authority = .ok base := by
  simp only [parseUrl, authorityParts, bind_eq_ok_iff, throwIf_ok, fetched_pure_ok, not_or,
    Bool.not_eq_true]
  constructor
  · rintro ⟨parsed, _, accepted, parses⟩
    refine ⟨accepted, ?_⟩
    split at parses
    · cases parses
    · next scheme authority rest splits =>
        simp only [bind_eq_ok_iff, throwIf_ok, fetched_pure_ok, not_or, not_and_or, not_not] at parses
        obtain ⟨_, http, _, named, split, splitHost, host, hosted, number, numbered, rfl⟩ := parses
        exact ⟨scheme, authority, rest, _, splits, http, named, split, splitHost, host, hosted, number,
          numbered, rfl⟩
  · rintro ⟨accepted, scheme, authority, rest, base, splits, http, named, split, splitHost, host, hosted,
      number, numbered, rfl⟩
    rw [splits]
    refine ⟨⟨lowerAscii scheme, host, number, split.2.isSome, authority.head? == some 0x5b,
      pathAndQueryOf rest⟩, (), accepted, ?_⟩
    simp only [bind_eq_ok_iff, throwIf_ok, fetched_pure_ok, not_or, not_and_or, not_not]
    exact ⟨(), http, (), named, split, splitHost, host, hosted, number, numbered, rfl⟩

/-- A query makes no difference to whether a URL is taken. -/
theorem parseUrl_query {inet : Inet} {body query scheme rest : Bytes}
    (found : breakOn (ascii "://") body = some (scheme, rest))
    (head : query = [] ∨ query.head? = some 0x3f)
    (plain : hasForbiddenUrlCharacter query = false ∧ (0x23 : UInt8) ∉ query) :
    (∃ parsed, parseUrl inet (body ++ query) = .ok parsed) ↔
      ∃ parsed, parseUrl inet body = .ok parsed := by
  have stops : ∀ byte more, query = byte :: more → (byte != 0x2f && byte != 0x3f) = false := by
    rintro byte more rfl
    obtain rfl := Option.some.inj (head.resolve_left (List.cons_ne_nil byte more))
    rfl
  have some : body ≠ [] := by
    rintro rfl
    cases found
  have accepted : (body ++ query ≠ [] ∧ hasForbiddenUrlCharacter (body ++ query) = false ∧
      (0x23 : UInt8) ∉ body ++ query) ↔
      body ≠ [] ∧ hasForbiddenUrlCharacter body = false ∧ (0x23 : UInt8) ∉ body := by
    rw [hasForbiddenUrlCharacter, List.any_append, ← hasForbiddenUrlCharacter,
      ← hasForbiddenUrlCharacter, plain.1, Bool.or_false, List.mem_append, not_or]
    constructor
    · rintro ⟨-, clean, noHash, -⟩
      exact ⟨some, clean, noHash⟩
    · rintro ⟨-, clean, noHash⟩
      exact ⟨List.append_ne_nil_of_left_ne_nil some query, clean, noHash, plain.2⟩
  rw [parseUrl_iff, parseUrl_iff, accepted, splitUrl, splitUrl, breakOn_append found, found]
  simp only [Option.map_some, takeWhile_stopped stops, dropWhile_stopped stops, Option.some.injEq,
    Prod.mk.injEq]
  apply and_congr_right
  intro _
  constructor
  · rintro ⟨_, _, _, base, ⟨rfl, rfl, rfl⟩, http, named, parts⟩
    exact ⟨_, _, _, base, ⟨rfl, rfl, rfl⟩, http, named, parts⟩
  · rintro ⟨_, _, _, base, ⟨rfl, rfl, rfl⟩, http, named, parts⟩
    exact ⟨_, _, _, base, ⟨rfl, rfl, rfl⟩, http, named, parts⟩

theorem redactExternalUrl_query {inet : Inet} {body query scheme rest : Bytes}
    (found : breakOn (ascii "://") body = some (scheme, rest))
    (plainScheme : scheme.all isAuthorityByte = true)
    (head : query = [] ∨ query.head? = some 0x3f)
    (plain : hasForbiddenUrlCharacter query = false ∧ (0x23 : UInt8) ∉ query) :
    redactExternalUrl inet (body ++ query) = redactExternalUrl inet body := by
  have schemed : Schemed (body ++ query) := by
    intro other behind again
    rw [breakOn_append found] at again
    obtain ⟨rfl, -⟩ := Prod.mk.inj (Option.some.inj again)
    exact plainScheme
  have same := publicPart_secret (head.imp_right .inl : IsSecret query) schemed
  have taken := @parseUrl_query inet body query scheme rest found head plain
  cases one : parseUrl inet body with
  | ok parsed =>
      obtain ⟨parsed', two⟩ := taken.mpr ⟨parsed, one⟩
      exact redactExternalUrl_same two one same
  | error error =>
      cases two : parseUrl inet (body ++ query) with
      | ok parsed' =>
          obtain ⟨parsed, parses⟩ := taken.mp ⟨parsed', two⟩
          rw [one] at parses
          cases parses
      | error error' => rw [redactExternalUrl, redactExternalUrl, one, two]

/-- The URL of a request that failed is printed without its query. -/
theorem ParsedFrom.redacts_full {inet : Inet} {url scheme host path query : Bytes}
    {parsed : ParsedUrl} (whole : ParsedFrom inet url parsed scheme host path query) :
    redactExternalUrl inet parsed.full = redactExternalUrl inet (parsed.origin ++ rooted path) := by
  have plain : (0x3a : UInt8) ∉ parsed.scheme := by
    rcases whole.http with same | same
    · rw [same]
      decide
    · rw [same]
      decide
  have plainScheme : parsed.scheme.all isAuthorityByte = true := by
    rcases whole.http with same | same
    · rw [same]
      decide
    · rw [same]
      decide
  have found := breakOn_scheme plain (parsed.authority ++ rooted path)
  rw [← List.append_assoc, ← ParsedUrl.origin] at found
  rw [ParsedUrl.full, whole.target, ← List.append_assoc]
  exact redactExternalUrl_query found plainScheme whole.query_head whole.query_plain

/-- A parsed URL is redacted to its origin and its path, also when it is printed anew. -/
theorem shownUrl_same {inet : Inet} {error error' : ExternalHttpError} {one two : Bytes}
    {parsed parsed' : ParsedUrl} (parses : parseUrl inet one = .ok parsed)
    (parses' : parseUrl inet two = .ok parsed') (same : publicPart one = publicPart two)
    (kind : error.isGetFailed = error'.isGetFailed) :
    shownUrl inet error one parsed = shownUrl inet error' two parsed' := by
  rw [shownUrl, shownUrl, ← kind]
  split
  · obtain ⟨scheme, host, path, query, whole⟩ := parseUrl_from parses
    obtain ⟨scheme', host', path', query', whole'⟩ := parseUrl_from parses'
    obtain ⟨-, origin, rfl⟩ := whole.same whole' same
    rw [whole.redacts_full, whole'.redacts_full, origin]
  · exact redactExternalUrl_same parses parses' same

/-! ## Two fetches -/

/-- A fetch of the backend failed with an error that shows this text. -/
def StorageRun.Shows (run : StorageRun) (text : Bytes) : Prop :=
  ∃ error, run.result = .error error ∧ error.url = some text

/-- A fetch of the client failed with an error that shows this text, as the request itself did or
not. -/
def Run.Shows (run : Run) (requestFailed : Bool) (text : Bytes) : Prop :=
  ∃ error, run.result = some (.error error) ∧ error.url = some text ∧
    error.isGetFailed = requestFailed

section Client

variable {options options' : ClientExternalHttpOptions} {network network' : Network}
  {zstd zstd' : Zstd} {sha256 sha256' : Bytes → Bytes} {checksum checksum' : Bytes}
  {rounds rounds' : Nat} {url url' text text' : Bytes} {requestFailed : Bool}

/-- Two fetches of the client that differ in secrets show the same URL. -/
theorem client_same (same : SameButSecrets url url') (inet : network'.toInet = network.toInet)
    (locations : List.Forall₂ SameButSecrets
      ((fetch options network zstd sha256 checksum rounds url).followed network)
      ((fetch options' network' zstd' sha256' checksum' rounds' url').followed network'))
    (shows : (fetch options network zstd sha256 checksum rounds url).Shows requestFailed text)
    (shows' : (fetch options' network' zstd' sha256' checksum' rounds' url').Shows requestFailed
      text') : text = text' := by
  obtain ⟨error, fails, printed, kind⟩ := shows
  obtain ⟨error', fails', printed', kind'⟩ := shows'
  obtain ⟨final, parsed, leads, parses, rfl⟩ := fetchLoop_url (List.forall_mem_nil _) rfl fails printed
  obtain ⟨final', parsed', leads', parses', rfl⟩ := fetchLoop_url (List.forall_mem_nil _) rfl fails' printed'
  rw [inet] at leads' parses' ⊢
  obtain ⟨first, parsedFirst⟩ := clientTarget_parsed leads parses
  obtain ⟨first', parsedFirst'⟩ := clientTarget_parsed leads' parses'
  obtain ⟨_, _, _, _, urlFrom⟩ := parseUrl_from parsedFirst
  obtain ⟨_, _, _, _, urlFrom'⟩ := parseUrl_from parsedFirst'
  have start := same_public same urlFrom.schemed urlFrom'.schemed
  have ends := clientTarget_public start locations leads leads' parses parses'
  exact shownUrl_same parses parses' ends (kind.trans kind'.symm)

end Client

/-- What is printed of a URL, and what the errors of a fetch show, is the same for URLs and
Locations that differ in their secrets. -/
theorem secrets_not_shown :
    (∀ one two, SameButSecrets one two → Schemed one → Schemed two →
      redactUrl one = redactUrl two) ∧
    (∀ inet one two parsed parsed', SameButSecrets one two → parseUrl inet one = .ok parsed →
      parseUrl inet two = .ok parsed' → redactExternalUrl inet one = redactExternalUrl inet two) ∧
    (∀ inet url error, parseUrl inet url = .error error →
      redactExternalUrl inet url = ascii "<invalid-url>") ∧
    (∀ config config' get get' url url' text text', SameButSecrets url url' → Schemed url →
      Schemed url' →
      List.Forall₂ SameLocation (storageFetch config get url).followed
        (storageFetch config' get' url').followed →
      (storageFetch config get url).Shows text → (storageFetch config' get' url').Shows text' →
      text = text') ∧
    (∀ options options' network network' zstd zstd' sha256 sha256' checksum checksum' rounds rounds'
        url url' requestFailed text text',
      SameButSecrets url url' → Network.toInet network' = Network.toInet network →
      List.Forall₂ SameButSecrets
        ((fetch options network zstd sha256 checksum rounds url).followed network)
        ((fetch options' network' zstd' sha256' checksum' rounds' url').followed network') →
      (fetch options network zstd sha256 checksum rounds url).Shows requestFailed text →
      (fetch options' network' zstd' sha256' checksum' rounds' url').Shows requestFailed text' →
      text = text') := by
  refine ⟨?_, ?_, ?_, ?_, ?_⟩
  · intro one two same schemed schemed'
    rw [redactUrl_public, redactUrl_public, same_public same schemed schemed']
  · intro inet one two parsed parsed' same parses parses'
    obtain ⟨_, _, _, _, oneFrom⟩ := parseUrl_from parses
    obtain ⟨_, _, _, _, twoFrom⟩ := parseUrl_from parses'
    exact redactExternalUrl_same parses parses' (same_public same oneFrom.schemed twoFrom.schemed)
  · intro inet url error fails
    rw [redactExternalUrl, fails]
  · intro config config' get get' url url' text text' same schemed schemed' locations shows shows'
    obtain ⟨error, fails, printed⟩ := shows
    obtain ⟨error', fails', printed'⟩ := shows'
    exact storage_same same schemed schemed' fails fails' locations printed printed'
  · intros
    exact client_same ‹_› ‹_› ‹_› ‹_› ‹_›

/-! ## Two signed links -/

theorem schemed_none {text : Bytes} (absent : breakOn (ascii "://") text = none) : Schemed text := by
  intro scheme rest found
  rw [absent] at found
  cases found

theorem schemed_http (rest : Bytes) : Schemed (ascii "http://" ++ rest) := by
  intro scheme behind found
  have first := breakOn_scheme (show (0x3a : UInt8) ∉ ascii "http" by decide) rest
  have joined : ascii "http" ++ ascii "://" = ascii "http://" := by decide
  rw [joined, found] at first
  obtain ⟨rfl, -⟩ := Prod.mk.inj (Option.some.inj first)
  decide

def signedConfig : StorageConfig where
  maxFetchBytes := 100
  maxDecompressedBytes := 100
  maxRedirects := 2
  urlValidator := none
  zstdDecompressBounded _ := .error (ascii "zstd")

/-- A server that redirects to a signed target once, and then has nothing. -/
def signedAnswer (signature : Bytes) (hop : Nat) (_ _ : Bytes) : Exchange :=
  if hop = 0 then ⟨some ⟨302, ascii "/b?s=" ++ signature, [], none⟩, [], some 302⟩
  else ⟨some ⟨404, [], [], none⟩, [], some 404⟩

/-- A link that is redirected once. -/
theorem signed_run {url next signature : Bytes} {first second : Bytes × Bytes}
    (splits : splitHttpUrl url = .ok first)
    (resolves : resolveStorageRedirect url (ascii "/b?s=" ++ signature) = .ok next)
    (splitsNext : splitHttpUrl next = .ok second) :
    storageFetch signedConfig (signedAnswer signature) url =
      ⟨[ascii "/b?s=" ++ signature], .error (.status 404 (redactUrl next))⟩ := by
  have unchecked : ∀ url, ¬signedConfig.urlValidator.any (fun accepts => !accepts url) = true := nofun
  have redirected : afterExchange signedConfig url false (signedAnswer signature 0 first.1 first.2) =
      .follow (ascii "/b?s=" ++ signature) := rfl
  have missing : afterExchange signedConfig next false (signedAnswer signature 1 second.1 second.2) =
      .done (.error (.status 404 (redactUrl next))) := rfl
  change storageLoop signedConfig (signedAnswer signature) 2 0 url = _
  rw [storageLoop, if_neg (unchecked url), splits]
  dsimp only
  rw [show ((2 : Nat) == 0) = false from rfl, redirected]
  dsimp only
  rw [resolves]
  dsimp only
  rw [storageLoop, if_neg (unchecked next), splitsNext]
  dsimp only
  rw [show ((1 : Nat) == 0) = false from rfl, missing]

/-- Two fetches of one link, one with a password and each with a signature of its own. -/
theorem signed_hidden :
    (storageFetch signedConfig (signedAnswer (ascii "1")) (ascii "http://u:p@h/a?s=3")).Shows
        (redactUrl (ascii "http://u:p@h/b?s=1")) ∧
      (storageFetch signedConfig (signedAnswer (ascii "2")) (ascii "http://h/a#f")).Shows
        (redactUrl (ascii "http://h/b?s=2")) ∧
      redactUrl (ascii "http://u:p@h/b?s=1") = redactUrl (ascii "http://h/b?s=2") := by
  have one : storageFetch signedConfig (signedAnswer (ascii "1")) (ascii "http://u:p@h/a?s=3") =
      ⟨[ascii "/b?s=1"], .error (.status 404 (redactUrl (ascii "http://u:p@h/b?s=1")))⟩ :=
    @signed_run (ascii "http://u:p@h/a?s=3") (ascii "http://u:p@h/b?s=1") (ascii "1")
      (ascii "http://u:p@h", ascii "/a?s=3") (ascii "http://u:p@h", ascii "/b?s=1")
      (by decide) (by decide) (by decide)
  have two : storageFetch signedConfig (signedAnswer (ascii "2")) (ascii "http://h/a#f") =
      ⟨[ascii "/b?s=2"], .error (.status 404 (redactUrl (ascii "http://h/b?s=2")))⟩ :=
    @signed_run (ascii "http://h/a#f") (ascii "http://h/b?s=2") (ascii "2")
      (ascii "http://h", ascii "/a") (ascii "http://h", ascii "/b?s=2")
      (by decide) (by decide) (by decide)
  have shows : (storageFetch signedConfig (signedAnswer (ascii "1"))
      (ascii "http://u:p@h/a?s=3")).Shows (redactUrl (ascii "http://u:p@h/b?s=1")) := by
    rw [one]
    exact ⟨_, rfl, rfl⟩
  have shows' : (storageFetch signedConfig (signedAnswer (ascii "2")) (ascii "http://h/a#f")).Shows
      (redactUrl (ascii "http://h/b?s=2")) := by
    rw [two]
    exact ⟨_, rfl, rfl⟩
  have same : SameButSecrets (ascii "http://u:p@h/a?s=3") (ascii "http://h/a#f") :=
    SameButSecrets.url (ascii "http") (ascii "u:p@") [] (ascii "h") (ascii "/a") (ascii "?s=3")
      (ascii "#f") (by decide) (.inr ⟨ascii "u:p", by decide, by decide⟩) (.inl rfl)
      ⟨by decide, by decide⟩ ⟨.inr (by decide), by decide⟩ (.inr (.inl (by decide)))
      (.inr (.inr (by decide)))
  have schemed := schemed_http (ascii "u:p@h/a?s=3")
  have schemed' := schemed_http (ascii "h/a#f")
  have location : SameLocation (ascii "/b?s=1") (ascii "/b?s=2") := {
    same := SameButSecrets.text (ascii "/b") (ascii "?s=1") (ascii "?s=2") (by decide)
      (.inr (.inl (by decide))) (.inr (.inl (by decide)))
    schemed := schemed_none (by decide)
    schemedToo := schemed_none (by decide)
    head := by decide }
  refine ⟨shows, shows', ?_⟩
  apply secrets_not_shown.2.2.2.1 signedConfig signedConfig (signedAnswer (ascii "1"))
    (signedAnswer (ascii "2")) (ascii "http://u:p@h/a?s=3") (ascii "http://h/a#f") _ _ same schemed
    schemed' _ shows shows'
  rw [one, two]
  exact .cons location .nil

/-- A fragment makes a URL invalid, and that shows. -/
theorem fragment_shows :
    SameButSecrets (ascii "http://a/b") (ascii "http://a/b#f") ∧
      redactExternalUrl oneRedirect.toInet (ascii "http://a/b") ≠
        redactExternalUrl oneRedirect.toInet (ascii "http://a/b#f") := by
  constructor
  · exact SameButSecrets.text (ascii "http://a/b") [] (ascii "#f") (by decide) (.inl rfl)
      (.inr (.inr (by decide)))
  · decide

end VgiRpc.External
