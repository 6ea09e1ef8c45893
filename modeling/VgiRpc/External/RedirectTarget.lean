import VgiRpc.External.NormalPath
import VgiRpc.Lib.UriReference

/-!
# Where a redirect should lead

Both `resolve_redirect` functions have one shape: a Location with a `://` in it is kept,
and the others are put behind a part of the base.  They lead where the rules for generic
URIs say exactly for the Locations that this shape serves.
-/

namespace VgiRpc.External

open VgiRpc.Cpp VgiRpc.Identity
open VgiRpc.Lib (bind_eq_ok_iff Reference removeDots segments joinSegments DotFree IsDot climb withoutDots cut_eq)

/-! ## One shape -/

/-- A `://` anywhere. -/
def hasSeparator (location : Bytes) : Bool := (breakOn (ascii "://") location).isSome

/-- The shape of `resolve_redirect`, with what it does to paths. -/
def redirectTarget (clean : Bytes → Bytes) (scheme origin path location : Bytes) : Bytes :=
  if hasSeparator location = true then location
  else if (ascii "//").isPrefixOf location then scheme ++ ascii ":" ++ location
  else if location.head? = some 0x2f then origin ++ clean location
  else if location.head? = some 0x3f then origin ++ path ++ location
  else origin ++ clean (upToSlash path ++ location)

/-- What is done to a path goes on behind a slash, and leaves the query. -/
structure Cleaner (clean : Bytes → Bytes) : Prop where
  query : ∀ {path query : Bytes}, path.all isPathByte = true → (query = [] ∨ query.head? = some 0x3f) →
    clean (path ++ query) = clean path ++ query
  head : ∀ {path : Bytes}, path.head? = some 0x2f → (clean path).head? = some 0x2f
  plain : ∀ {path : Bytes}, path.head? = some 0x2f → path.all isPathByte = true →
    (clean path).all isPathByte = true

/-- A base with its components; its path is printed as `path`. -/
structure BasedOn (base : Reference) (scheme authority path : Bytes) : Prop where
  scheme_eq : base.scheme = some scheme
  authority_eq : base.authority = some authority
  path_eq : rooted base.path = path
  isPath : IsPath base.path
  http : lowerAscii scheme = ascii "https" ∨ lowerAscii scheme = ascii "http"
  plain : authority.all isAuthorityByte = true

/-- The path that a reference without an authority names. -/
def namedPath (base reference : Reference) : Bytes :=
  if reference.path.head? = some 0x2f then reference.path else base.merge reference.path

/-- The Locations that the shape serves, if it does the right thing to paths. -/
def Served (fine : Bytes → Prop) (base : Reference) (location : Bytes) : Prop :=
  let reference := Reference.parse location
  if reference.scheme ≠ none then hasSeparator location = true ∧ DotFree reference.path
  else hasSeparator location = false ∧
    if reference.authority ≠ none then DotFree reference.path
    else reference.path = [] ∨ fine (namedPath base reference)

/-- The URL asks for what the Location means, seen from the base. -/
def LeadsTo (base : Reference) (location next : Bytes) : Prop :=
  (Reference.parse next).target = (base.resolve (Reference.parse location)).target

section Shape

variable {clean : Bytes → Bytes} {base : Reference} {scheme authority path location : Bytes}

/-- Letters of a scheme. -/
theorem scheme_plain (http : lowerAscii scheme = ascii "https" ∨ lowerAscii scheme = ascii "http") :
    scheme ≠ [] ∧ scheme.all Reference.inScheme = true := by
  constructor
  · rintro rfl
    rcases http with same | same
    · cases same
    · cases same
  · apply http_class (by decide) _ http
    intro byte stop
    simp only [Reference.inScheme, Bool.and_eq_false_iff, bne_eq_false_iff_eq] at stop
    rcases stop with ((rfl | rfl) | rfl) | rfl
    · rfl
    · rfl
    · rfl
    · rfl

/-- What stands behind an origin. -/
theorem parse_behind (http : lowerAscii scheme = ascii "https" ∨ lowerAscii scheme = ascii "http")
    (authorityPlain : authority.all isAuthorityByte = true) {target : Bytes}
    (head : target = [] ∨ target.head? = some 0x2f ∨ target.head? = some 0x3f) :
    Reference.parse (scheme ++ ascii "://" ++ authority ++ target) =
      ⟨some scheme, some authority, target.takeWhile isPathByte,
        Reference.queryOf (target.dropWhile isPathByte)⟩ := by
  obtain ⟨named, plain⟩ := scheme_plain http
  have stops : ∀ byte rest, target = byte :: rest → isAuthorityByte byte = false := by
    rintro byte rest rfl
    rcases head with none | slash | query
    · cases none
    · obtain rfl := Option.some.inj slash
      rfl
    · obtain rfl := Option.some.inj query
      rfl
  have parts : (authority ++ target).takeWhile Reference.inAuthority = authority ∧
      (authority ++ target).dropWhile Reference.inAuthority = target := cut_eq authorityPlain stops
  have whole : scheme ++ ascii "://" ++ authority ++ target =
      scheme ++ 0x3a :: 0x2f :: 0x2f :: (authority ++ target) := by
    rw [separator_eq, List.append_assoc, List.append_assoc]
    rfl
  rw [whole, Reference.parse_colon named plain, Reference.hierarchical_authority, parts.1, parts.2]
  rfl

/-- Where only the path differs. -/
theorem target_iff {one two : Bytes} {scheme authority query : Option Bytes} (some : one ≠ [])
    (someToo : two ≠ []) :
    (Reference.mk scheme authority one query).target = (Reference.mk scheme authority two query).target ↔
      one = two := by
  rw [Reference.target, Reference.target]
  dsimp only
  rw [if_neg some, if_neg someToo]
  simp

/-- A path that is kept as it is written. -/
theorem target_kept {kept : Bytes} {scheme authority query : Option Bytes} :
    (Reference.mk scheme authority kept query).target =
      (Reference.mk scheme authority (removeDots kept []) query).target ↔ DotFree kept := by
  have same := Lib.removeDots_eq_iff kept []
  rw [List.nil_append] at same
  rw [← same]
  by_cases empty : kept = []
  · subst empty
    rw [Lib.removeDots_nil]
    exact iff_of_true rfl rfl
  · by_cases gone : removeDots kept [] = []
    · rw [gone]
      refine iff_of_false ?_ (Ne.symm empty)
      rw [Reference.target, Reference.target]
      dsimp only
      rw [if_neg empty, if_pos rfl]
      intro same
      have slash := congrArg Reference.path same
      dsimp only at slash
      rw [slash] at gone
      exact Lib.removeDots_ne_nil [] gone
    · rw [target_iff empty gone]
      exact eq_comm

/-- The path that a relative one is put behind. -/
theorem BasedOn.head (based : BasedOn base scheme authority path) (location : Bytes) :
    (upToSlash path ++ location).head? = some 0x2f := by
  have slash := upToSlash_head (rooted_head base.path based.isPath.1)
  rw [based.path_eq] at slash
  rw [List.head?_append, slash]
  rfl

/-- A Location with a scheme of its own. -/
theorem leads_schemed (cleaner : Cleaner clean) (based : BasedOn base scheme authority path)
    {own rest : Bytes} (named : own ≠ []) (plain : own.all Reference.inScheme = true)
    (whole : location = own ++ 0x3a :: rest) :
    LeadsTo base location (redirectTarget clean scheme (scheme ++ ascii "://" ++ authority) path location) ↔
      hasSeparator location = true ∧ DotFree (Reference.parse location).path := by
  have parsed : Reference.parse location = Reference.hierarchical (some own) rest := by
    rw [whole, Reference.parse_colon named plain]
  have schemed : (Reference.parse location).scheme ≠ none := by
    rw [parsed]
    exact Option.some_ne_none own
  rw [LeadsTo, redirectTarget, Reference.resolve, if_pos schemed]
  by_cases separated : hasSeparator location = true
  · rw [if_pos separated, iff_true_intro separated, true_and]
    exact target_kept
  · rw [if_neg separated]
    refine iff_of_false ?_ (fun both => separated both.1)
    obtain ⟨byte, more, rfl⟩ := List.exists_cons_of_ne_nil named
    rw [List.cons_append] at whole
    rw [List.all_cons, Bool.and_eq_true] at plain
    have noSlash : byte ≠ 0x2f := by
      rintro rfl
      cases plain.1
    have noQuery : byte ≠ 0x3f := by
      rintro rfl
      cases plain.1
    have noSlashes : ¬(ascii "//").isPrefixOf location = true := by
      rw [List.isPrefixOf_iff_prefix, whole]
      intro starts
      exact noSlash (List.cons_prefix_cons.mp starts).1.symm
    have noAuthority : (Reference.hierarchical (some (byte :: more)) rest).authority = none := by
      rw [Reference.hierarchical_path]
      rintro ⟨behind, rfl⟩
      apply separated
      have noColon : (0x3a : UInt8) ∉ byte :: more := by
        intro mem
        rw [← Bool.and_eq_true, ← List.all_cons, List.all_eq_true] at plain
        cases plain _ mem
      have found := breakOn_scheme noColon behind
      rw [separator_eq, List.append_assoc, List.cons_append] at found
      rw [hasSeparator, whole, separator_eq]
      change (breakOn _ (byte :: (more ++ ([0x3a, 0x2f, 0x2f] ++ behind)))).isSome = true
      rw [found]
      rfl
    have head : ∀ other, other ≠ byte → ¬location.head? = some other := by
      intro other differs same
      rw [whole] at same
      exact differs (Option.some.inj same).symm
    rw [if_neg noSlashes, if_neg (head _ noSlash.symm), if_neg (head _ noQuery.symm),
      parse_behind based.http based.plain (.inr (.inl (cleaner.head (based.head location))))]
    intro same
    have authorities := congrArg Reference.authority same
    rw [parsed] at authorities
    exact Option.some_ne_none authority (authorities.trans noAuthority)

theorem resolve_scheme {reference : Reference} (unschemed : reference.scheme = none) :
    (base.resolve reference).scheme = base.scheme := by
  rw [Reference.resolve, if_neg (not_not_intro unschemed)]
  split
  · rfl
  · split
    · rfl
    · split
      · rfl
      · rfl

/-- The path of a relative reference, behind the directory of the base. -/
theorem BasedOn.merge (based : BasedOn base scheme authority path) (body : Bytes) :
    base.merge body = upToSlash path ++ body := by
  have named : base.authority ≠ none := by
    rw [based.authority_eq]
    exact Option.some_ne_none authority
  rw [Reference.merge, ← based.path_eq, rooted]
  by_cases empty : base.path = []
  · rw [if_pos ⟨named, empty⟩, if_pos empty]
    rfl
  · rw [if_neg (fun both => empty both.2), if_neg empty]
    rfl

theorem BasedOn.path_plain (based : BasedOn base scheme authority path) :
    path.all isPathByte = true ∧ path.head? = some 0x2f := by
  rw [← based.path_eq]
  exact ⟨rooted_all based.isPath.2, rooted_head base.path based.isPath.1⟩

/-- A path that was cleaned, with its query. -/
theorem leads_path (cleaner : Cleaner clean) (based : BasedOn base scheme authority path)
    {named query : Bytes} (slash : named.head? = some 0x2f) (plain : named.all isPathByte = true)
    (head : query = [] ∨ query.head? = some 0x3f) :
    (Reference.parse (scheme ++ ascii "://" ++ authority ++ clean (named ++ query))).target =
        (Reference.mk base.scheme base.authority (removeDots named []) (Reference.queryOf query)).target ↔
      clean named = removeDots named [] := by
  have secret : IsSecret query := head.imp_right .inl
  have cleanSlash := cleaner.head slash
  have front : (clean named ++ query).head? = some 0x2f := by
    rw [List.head?_append, cleanSlash]
    rfl
  have parts := cut_eq (cleaner.plain slash plain) (fun _ _ => secret.head)
  rw [cleaner.query plain head, parse_behind based.http based.plain (.inr (.inl front)), parts.1, parts.2,
    based.scheme_eq, based.authority_eq]
  apply target_iff
  · intro empty
    rw [empty] at cleanSlash
    cases cleanSlash
  · cases named with
    | nil => cases slash
    | cons byte more =>
        obtain rfl := Option.some.inj slash
        exact Lib.removeDots_ne_nil more

/-- A Location with neither a scheme nor an authority. -/
theorem leads_reference (cleaner : Cleaner clean) (based : BasedOn base scheme authority path)
    (unschemed : Reference.splitScheme location = (none, location)) (some : location ≠ [])
    (noHash : (0x23 : UInt8) ∉ location) (together : hasSeparator location = false)
    (noSlashes : ¬(ascii "//").isPrefixOf location = true) :
    LeadsTo base location (redirectTarget clean scheme (scheme ++ ascii "://" ++ authority) path location) ↔
      (Reference.parse location).path = [] ∨
        clean (namedPath base (Reference.parse location)) =
          removeDots (namedPath base (Reference.parse location)) [] := by
  obtain ⟨body, query, rfl, cut, plain, head⟩ := location_cut noHash
  have secret : IsSecret query := head.imp_right .inl
  have behind : (body ++ query).dropWhile isPathByte = query :=
    (cut_eq plain fun _ _ => secret.head).2
  have parsed : Reference.parse (body ++ query) = ⟨none, none, body, Reference.queryOf query⟩ := by
    have slashes : ¬[0x2f, 0x2f] <+: body ++ query := by
      rw [← List.isPrefixOf_iff_prefix]
      exact noSlashes
    rw [Reference.parse, unschemed, Reference.hierarchical_path none slashes]
    change Reference.mk none none ((body ++ query).takeWhile isPathByte)
      (Reference.queryOf ((body ++ query).dropWhile isPathByte)) = _
    rw [cut, behind]
  rw [LeadsTo, parsed, redirectTarget, if_neg (by rw [together]; decide), if_neg noSlashes,
    Reference.resolve, if_neg (not_not_intro rfl), if_neg (not_not_intro rfl)]
  dsimp only
  cases body with
  | nil =>
      refine iff_of_true ?_ (.inl rfl)
      have question := head.resolve_left some
      have front : (path ++ query).head? = .some 0x2f := by
        rw [List.head?_append, based.path_plain.2]
        rfl
      have parts := cut_eq based.path_plain.1 (fun _ _ => secret.head)
      have asked : (Reference.queryOf query).or base.query = Reference.queryOf query := by
        obtain ⟨byte, more, rfl⟩ := List.exists_cons_of_ne_nil some
        obtain rfl := Option.some.inj question
        rfl
      rw [List.nil_append, if_pos rfl, if_neg (by rw [question]; decide), if_pos question,
        List.append_assoc, parse_behind based.http based.plain (.inr (.inl front)), parts.1, parts.2, asked,
        based.scheme_eq, based.authority_eq, Reference.target, Reference.target]
      dsimp only
      rw [← based.path_eq, rooted]
      by_cases empty : base.path = []
      · rw [if_pos empty, if_pos empty]
        rfl
      · rw [if_neg empty, if_neg empty]
  | cons byte more =>
      have notQuestion : ¬(byte :: more ++ query).head? = .some 0x3f := by
        rw [List.all_cons, Bool.and_eq_true] at plain
        intro same
        obtain rfl := Option.some.inj same
        cases plain.1
      rw [if_neg (List.cons_ne_nil byte more), or_iff_right (List.cons_ne_nil byte more), namedPath]
      dsimp only
      by_cases slash : byte = 0x2f
      · subst byte
        have starts : (0x2f :: more ++ query).head? = .some 0x2f := rfl
        have startsToo : (0x2f :: more).head? = .some (0x2f : UInt8) := rfl
        rw [if_pos starts, if_pos startsToo, if_pos startsToo]
        exact leads_path cleaner based rfl plain head
      · have notSlash : ¬(byte :: more ++ query).head? = .some 0x2f := fun same =>
          slash (Option.some.inj same)
        have notSlashToo : ¬(byte :: more).head? = .some 0x2f := fun same =>
          slash (Option.some.inj same)
        have front := based.head (byte :: more)
        have whole : (upToSlash path ++ (byte :: more)).all isPathByte = true := by
          rw [List.all_append, upToSlash_all based.path_plain.1, plain]
          rfl
        rw [if_neg notSlash, if_neg notQuestion, if_neg notSlashToo, if_neg notSlashToo,
          ← List.append_assoc, based.merge]
        exact leads_path cleaner based front whole head

/-- A Location without a scheme of its own. -/
theorem leads_unschemed (cleaner : Cleaner clean) (based : BasedOn base scheme authority path)
    (unschemed : Reference.splitScheme location = (none, location)) (some : location ≠ [])
    (noHash : (0x23 : UInt8) ∉ location) :
    LeadsTo base location (redirectTarget clean scheme (scheme ++ ascii "://" ++ authority) path location) ↔
      hasSeparator location = false ∧
        if (Reference.parse location).authority ≠ none then DotFree (Reference.parse location).path
        else (Reference.parse location).path = [] ∨
          clean (namedPath base (Reference.parse location)) =
            removeDots (namedPath base (Reference.parse location)) [] := by
  have parsed : Reference.parse location = Reference.hierarchical none location := by
    rw [Reference.parse, unschemed]
  have own : (Reference.parse location).scheme = none := by
    rw [parsed]
    rfl
  cases together : hasSeparator location with
  | true =>
      refine iff_of_false ?_ (fun both => Bool.noConfusion both.1)
      rw [LeadsTo, redirectTarget, if_pos together]
      intro same
      have schemes := congrArg Reference.scheme same
      change (Reference.parse location).scheme = (base.resolve (Reference.parse location)).scheme at schemes
      rw [resolve_scheme own, own, based.scheme_eq] at schemes
      cases schemes
  | false =>
      rw [eq_self, true_and]
      by_cases slashes : (ascii "//").isPrefixOf location = true
      · obtain ⟨rest, rfl⟩ := List.isPrefixOf_iff_prefix.mp slashes
        have network : Reference.parse (ascii "//" ++ rest) =
            ⟨none, .some (rest.takeWhile Reference.inAuthority),
              (rest.dropWhile Reference.inAuthority).takeWhile Reference.inPath,
              Reference.queryOf ((rest.dropWhile Reference.inAuthority).dropWhile Reference.inPath)⟩ := by
          rw [parsed]
          exact Reference.hierarchical_authority none rest
        have there : Reference.parse (scheme ++ ascii ":" ++ (ascii "//" ++ rest)) =
            ⟨.some scheme, .some (rest.takeWhile Reference.inAuthority),
              (rest.dropWhile Reference.inAuthority).takeWhile Reference.inPath,
              Reference.queryOf ((rest.dropWhile Reference.inAuthority).dropWhile Reference.inPath)⟩ := by
          have colon : scheme ++ ascii ":" ++ (ascii "//" ++ rest) =
              scheme ++ 0x3a :: (0x2f :: 0x2f :: rest) := by
            rw [List.append_assoc]
            rfl
          rw [colon, Reference.parse_colon (scheme_plain based.http).1 (scheme_plain based.http).2]
          exact Reference.hierarchical_authority _ rest
        rw [LeadsTo, redirectTarget, if_neg (by rw [together]; decide), if_pos slashes, there, network,
          Reference.resolve, if_neg (not_not_intro rfl), if_pos (Option.some_ne_none _),
          if_pos (Option.some_ne_none _), based.scheme_eq]
        exact target_kept
      · have unnamed : (Reference.parse location).authority = none := by
          rw [parsed, Reference.hierarchical_path]
          rw [List.isPrefixOf_iff_prefix] at slashes
          exact slashes
        rw [leads_reference cleaner based unschemed some noHash together slashes,
          if_neg (not_not_intro unnamed)]

/-- The shape leads where it should for the Locations that it serves. -/
theorem leads_iff (cleaner : Cleaner clean) (based : BasedOn base scheme authority path)
    (some : location ≠ []) (noHash : (0x23 : UInt8) ∉ location) :
    LeadsTo base location (redirectTarget clean scheme (scheme ++ ascii "://" ++ authority) path location) ↔
      Served (fun path => clean path = removeDots path []) base location := by
  rw [Served]
  rcases Reference.splitScheme_cases location with ⟨own, rest, named, plain, whole, -⟩ | unschemed
  · have schemed : (Reference.parse location).scheme ≠ none := by
      rw [whole, Reference.parse_colon named plain]
      exact Option.some_ne_none own
    rw [if_pos schemed]
    exact leads_schemed cleaner based named plain whole
  · have own : (Reference.parse location).scheme = none := by
      rw [Reference.parse, unschemed]
      rfl
    rw [if_neg (not_not_intro own)]
    exact leads_unschemed cleaner based unschemed some noHash

theorem Served.congr (based : BasedOn base scheme authority path) {fine other : Bytes → Prop}
    (same : ∀ path, path.all isPathByte = true → (fine (0x2f :: path) ↔ other (0x2f :: path))) :
    Served fine base location ↔ Served other base location := by
  have plain : (Reference.parse location).path.all isPathByte = true := List.all_takeWhile
  have agree : fine (namedPath base (Reference.parse location)) ↔
      other (namedPath base (Reference.parse location)) := by
    have whole : (namedPath base (Reference.parse location)).head? = some 0x2f ∧
        (namedPath base (Reference.parse location)).all isPathByte = true := by
      rw [namedPath]
      split
      · next slash => exact ⟨slash, plain⟩
      · rw [based.merge, List.all_append, upToSlash_all based.path_plain.1, plain]
        exact ⟨based.head _, rfl⟩
    cases named : namedPath base (Reference.parse location) with
    | nil =>
        rw [named] at whole
        cases whole.1
    | cons byte more =>
        rw [named] at whole
        obtain rfl := Option.some.inj whole.1
        rw [List.all_cons, Bool.and_eq_true] at whole
        exact same more whole.2.2
  rw [Served, Served, agree]

end Shape

/-! ## The backend -/

theorem cleaner_id : Cleaner id where
  query := fun _ _ => rfl
  head := id
  plain := fun _ => id

/-- A URL that `parse_url` takes, in its components. -/
theorem parse_raw {inet : Inet} {raw : Bytes} {parsed : ParsedUrl}
    (parses : parseUrl inet raw = .ok parsed) :
    ∃ scheme rest, breakOn (ascii "://") raw = some (scheme, rest) ∧ (0x23 : UInt8) ∉ rest ∧
      rest.takeWhile isAuthorityByte ≠ [] ∧ parsed.scheme = lowerAscii scheme ∧
      parsed.pathAndQuery =
        rooted (pathOf rest) ++ (rest.dropWhile isAuthorityByte).dropWhile isPathByte ∧
      Reference.parse raw = ⟨some scheme, some (rest.takeWhile isAuthorityByte), pathOf rest,
        Reference.queryOf ((rest.dropWhile isAuthorityByte).dropWhile isPathByte)⟩ ∧
      BasedOn (Reference.parse raw) scheme (rest.takeWhile isAuthorityByte) (rooted (pathOf rest)) := by
  obtain ⟨front, back, split, host, number, found, http, -, noHash, named, isHost, -, -, -, rfl⟩ :=
    parseUrl_parts parses
  have whole : Reference.parse raw = ⟨some front, some (back.takeWhile isAuthorityByte), pathOf back,
      Reference.queryOf ((back.dropWhile isAuthorityByte).dropWhile isPathByte)⟩ := by
    obtain ⟨some, plain⟩ := scheme_plain http
    rw [breakOn_eq found, List.append_assoc, separator_eq]
    exact (Reference.parse_colon some plain _).trans (Reference.hierarchical_authority _ back)
  refine ⟨front, back, found, noHash, named, rfl, pathAndQueryOf_eq noHash, whole, ?_⟩
  rw [whole]
  exact {
    scheme_eq := rfl
    authority_eq := rfl
    path_eq := rfl
    isPath := pathOf_isPath back
    http := http
    plain := isHost.1 }

/-- The backend resolves a Location in the common shape. -/
theorem HttpUrl.resolves {url origin target scheme rest location : Bytes}
    (http : HttpUrl url origin target scheme rest) (splits : splitHttpUrl url = .ok (origin, target)) :
    resolveStorageRedirect url location = .ok (redirectTarget id scheme
      (scheme ++ ascii "://" ++ rest.takeWhile isAuthorityByte) (rooted (pathOf rest)) location) := by
  rw [resolveStorageRedirect, redirectTarget, hasSeparator, splits]
  split
  · rfl
  · dsimp only
    rw [http.front, http.path_eq, ← http.origin_eq]
    split
    · rfl
    · split
      · rfl
      · split
        · rfl
        · rw [List.append_assoc]
          rfl

/-- A base whose scheme is written in lower case, as `split_url` of the backend wants it. -/
def Lower (base : Reference) : Prop :=
  base.scheme = some (ascii "http") ∨ base.scheme = some (ascii "https")

theorem splitHttpUrl_lower {url scheme rest : Bytes}
    (found : breakOn (ascii "://") url = some (scheme, rest))
    (named : rest.takeWhile isAuthorityByte ≠ []) :
    (∃ split, splitHttpUrl url = .ok split) ↔ scheme = ascii "http" ∨ scheme = ascii "https" := by
  rw [splitHttpUrl, found]
  dsimp only
  split
  · next other =>
      refine iff_of_false ?_ (not_or.mpr other)
      rintro ⟨_, ⟨⟩⟩
  · next same =>
      rw [not_and_or, not_not, not_not] at same
      refine iff_of_true ?_ same
      split
      · exact ⟨_, rfl⟩
      · exact ⟨_, rfl⟩

/-- Where the backend's redirects lead as they should. -/
theorem storage_leads_iff {inet : Inet} {raw location : Bytes} {parsed : ParsedUrl}
    (parses : parseUrl inet raw = .ok parsed) (some : location ≠ [])
    (noHash : (0x23 : UInt8) ∉ location) :
    (∃ next, resolveStorageRedirect raw location = .ok next ∧
        LeadsTo (Reference.parse raw) location next) ↔
      (hasSeparator location = true ∨ Lower (Reference.parse raw)) ∧
        Served DotFree (Reference.parse raw) location := by
  obtain ⟨scheme, rest, found, -, named, -, -, whole, based⟩ := parse_raw parses
  have shape := leads_iff cleaner_id based some noHash
  have fine : Served (fun path => id path = removeDots path []) (Reference.parse raw) location ↔
      Served DotFree (Reference.parse raw) location := by
    apply Served.congr based
    intro path plain
    rw [eq_comm]
    exact Lib.removeDots_eq_iff (0x2f :: path) []
  rw [fine] at shape
  have lower : Lower (Reference.parse raw) ↔ ∃ split, splitHttpUrl raw = .ok split := by
    rw [splitHttpUrl_lower found named, Lower, based.scheme_eq, Option.some.injEq, Option.some.injEq]
  by_cases split : ∃ split, splitHttpUrl raw = .ok split
  · obtain ⟨⟨origin, target⟩, splits⟩ := split
    obtain ⟨other, behind, http⟩ := splitHttpUrl_ok splits
    obtain ⟨rfl, rfl⟩ := Prod.mk.inj (Option.some.inj (http.found.symm.trans found))
    rw [http.resolves splits, iff_true_intro (lower.mpr ⟨_, splits⟩), or_true, true_and, ← shape]
    constructor
    · rintro ⟨next, same, leads⟩
      obtain rfl := Except.ok.inj same
      exact leads
    · intro leads
      exact ⟨_, rfl, leads⟩
  · rw [← lower] at split
    rw [or_iff_left split]
    by_cases separated : hasSeparator location = true
    · have kept : resolveStorageRedirect raw location = .ok location := by
        rw [resolveStorageRedirect]
        exact if_pos separated
      rw [iff_true_intro separated, true_and, ← shape, redirectTarget, if_pos separated, kept]
      constructor
      · rintro ⟨next, same, leads⟩
        obtain rfl := Except.ok.inj same
        exact leads
      · intro leads
        exact ⟨_, rfl, leads⟩
    · refine iff_of_false ?_ (fun both => separated both.1)
      rintro ⟨next, resolves, -⟩
      rw [hasSeparator] at separated
      rw [resolveStorageRedirect, if_neg separated] at resolves
      cases failed : splitHttpUrl raw with
      | ok split' => exact split (lower.mpr ⟨_, failed⟩)
      | error error =>
          rw [failed] at resolves
          cases resolves

/-! ## The client -/

theorem cleaner_normalizePath : Cleaner normalizePath where
  query := by
    intro path query plain head
    apply normalizePath_query _ head
    rw [List.all_eq_true] at plain ⊢
    intro byte mem
    exact (Bool.and_eq_true_iff.mp (plain byte mem)).1
  head := fun _ => rfl
  plain := by
    intro path slash plain
    cases path with
    | nil => cases slash
    | cons byte more =>
        obtain rfl := Option.some.inj slash
        rw [List.all_cons, Bool.and_eq_true] at plain
        rw [normalizePath_rooted plain.2]
        exact joinSegments_plain plain.2

theorem isAuthorityByte_toLower (byte : UInt8) :
    isAuthorityByte (toLower byte) = isAuthorityByte byte := by
  rw [toLower]
  split
  · next upper =>
      rw [isUpper, Bool.and_eq_true, decide_eq_true_eq, decide_eq_true_eq, UInt8.le_iff_toNat_le,
        UInt8.le_iff_toNat_le] at upper
      have before : isAuthorityByte byte = true := by
        simp only [isAuthorityByte, Bool.and_eq_true, bne_iff_ne, ← UInt8.toNat_inj.ne]
        simp at upper ⊢
        omega
      have after : isAuthorityByte (byte + 0x20) = true := by
        simp only [isAuthorityByte, Bool.and_eq_true, bne_iff_ne, ← UInt8.toNat_inj.ne, UInt8.toNat_add]
        simp at upper ⊢
        omega
      rw [before, after]
  · rfl

theorem lowerAscii_authority {text : Bytes} (plain : text.all isAuthorityByte = true) :
    (lowerAscii text).all isAuthorityByte = true := by
  rw [lowerAscii, List.all_map]
  rw [List.all_eq_true] at plain ⊢
  intro byte mem
  exact (isAuthorityByte_toLower byte).trans (plain byte mem)

/-- What `inet_ntop` prints has none of the letters that end an authority. -/
def Rendered (inet : Inet) : Prop :=
  ∀ address text, inet.ntop address = some text → text.all isAuthorityByte = true

theorem checkHost_plain {inet : Inet} {literal : Bool} {host checked : Bytes} (rendered : Rendered inet)
    (checks : checkHost inet literal host = .ok checked) : checked.all isAuthorityByte = true := by
  rw [checkHost] at checks
  split at checks
  · simp only [checkIpv6, bind_eq_ok_iff, throwIf_ok] at checks
    obtain ⟨-, -, checks⟩ := checks
    split at checks
    · cases checks
    · split at checks
      · cases checks
      · next canonical printed =>
          obtain rfl := Except.ok.inj checks
          exact lowerAscii_authority (rendered _ _ printed)
  · simp only [checkHostname, bind_eq_ok_iff, throwIf_ok, fetched_pure_ok, not_or, not_not] at checks
    obtain ⟨-, ⟨-, -, -, -, -, letters⟩, rfl⟩ := checks
    rw [List.all_eq_true] at letters ⊢
    intro byte mem
    have letter := letters byte mem
    by_contra stop
    rcases isAuthorityByte_false.mp (Bool.eq_false_iff.mpr stop) with rfl | rfl | rfl
    · cases letter
    · cases letter
    · cases letter

theorem ParsedUrl.authority_plain {url : ParsedUrl} (plain : url.host.all isAuthorityByte = true) :
    url.authority.all isAuthorityByte = true := by
  have digits : (decimal url.port).all isAuthorityByte = true := by
    rw [List.all_eq_true]
    intro byte mem
    have digit := decimal_isDigit mem
    by_contra stop
    rcases isAuthorityByte_false.mp (Bool.eq_false_iff.mpr stop) with rfl | rfl | rfl
    · cases digit
    · cases digit
    · cases digit
  have marks : (ascii "[").all isAuthorityByte = true ∧ (ascii "]").all isAuthorityByte = true ∧
      (ascii ":").all isAuthorityByte = true := by decide
  have value : (if url.ipv6Literal then ascii "[" ++ url.host ++ ascii "]" else url.host).all
      isAuthorityByte = true := by
    split
    · rw [List.all_append, List.all_append, plain, marks.1, marks.2.1]
      rfl
    · exact plain
  rw [ParsedUrl.authority]
  split
  · rw [List.all_append, List.all_append, value, digits, marks.2.2]
    rfl
  · exact value

theorem parseUrl_authority {inet : Inet} {raw : Bytes} {base : ParsedUrl} (rendered : Rendered inet)
    (parses : parseUrl inet raw = .ok base) :
    base.authority.all isAuthorityByte = true ∧
      (lowerAscii base.scheme = ascii "https" ∨ lowerAscii base.scheme = ascii "http") := by
  obtain ⟨front, back, split, host, number, -, http, -, -, -, -, -, hosted, -, rfl⟩ :=
    parseUrl_parts parses
  refine ⟨ParsedUrl.authority_plain (checkHost_plain rendered hosted), ?_⟩
  dsimp only
  rcases http with same | same
  · rw [same]
    exact .inl (by decide)
  · rw [same]
    exact .inr (by decide)

/-- The base of the client in its components: those of the URL, with the scheme in lower case, the
authority as it is printed, and a path. -/
theorem parse_full {inet : Inet} {raw : Bytes} {base : ParsedUrl} (rendered : Rendered inet)
    (parses : parseUrl inet raw = .ok base) :
    Reference.parse base.full =
      { (Reference.parse raw).target with
        scheme := (Reference.parse raw).scheme.map lowerAscii
        authority := some base.authority } := by
  obtain ⟨plain, http⟩ := parseUrl_authority rendered parses
  obtain ⟨scheme, rest, -, noHash, -, lower, target, whole, based⟩ := parse_raw parses
  have secret : IsSecret ((rest.dropWhile isAuthorityByte).dropWhile isPathByte) :=
    (query_head noHash).imp_right .inl
  have slash := based.path_plain.2
  have front : (rooted (pathOf rest) ++
      (rest.dropWhile isAuthorityByte).dropWhile isPathByte).head? = some 0x2f := by
    rw [List.head?_append, slash]
    rfl
  have parts := cut_eq based.path_plain.1 (fun _ _ => secret.head)
  rw [ParsedUrl.full, ParsedUrl.origin, target, parse_behind http plain (.inr (.inl front)), parts.1,
    parts.2, whole, lower]
  rfl

theorem basedOn_full {inet : Inet} {raw : Bytes} {base : ParsedUrl} (rendered : Rendered inet)
    (parses : parseUrl inet raw = .ok base) :
    BasedOn (Reference.parse base.full) base.scheme base.authority
      (base.pathAndQuery.takeWhile (· != 0x3f)) := by
  obtain ⟨plain, http⟩ := parseUrl_authority rendered parses
  obtain ⟨scheme, rest, -, noHash, -, lower, target, whole, based⟩ := parse_raw parses
  have path : (Reference.parse base.full).path = rooted (pathOf rest) := by
    rw [parse_full rendered parses, whole]
    rfl
  exact {
    scheme_eq := by
      rw [parse_full rendered parses, whole, lower]
      rfl
    authority_eq := by rw [parse_full rendered parses]
    path_eq := by
      have some : rooted (pathOf rest) ≠ [] := by
        intro empty
        have slash := based.path_plain.2
        rw [empty] at slash
        cases slash
      rw [path, target, takeWhile_query based.path_plain.1 (query_head noHash), rooted, if_neg some]
    isPath := by
      rw [path]
      exact ⟨.inr based.path_plain.2, based.path_plain.1⟩
    http := http
    plain := plain }

/-- The client resolves a Location in the common shape. -/
theorem resolveRedirect_shape {base : ParsedUrl} {location : Bytes} (some : location ≠ [])
    (noHash : (0x23 : UInt8) ∉ location) (clean : hasForbiddenUrlCharacter location = false)
    (slash : (base.pathAndQuery.takeWhile (· != 0x3f)).head? = .some 0x2f) :
    resolveRedirect base location = .ok (redirectTarget normalizePath base.scheme
      (base.scheme ++ ascii "://" ++ base.authority) (base.pathAndQuery.takeWhile (· != 0x3f))
      location) := by
  have accepted : ¬(location = [] ∨ hasForbiddenUrlCharacter location = true ∨ 0x23 ∈ location) := by
    rw [clean]
    rintro (empty | forbidden | hash)
    · exact some empty
    · cases forbidden
    · exact noHash hash
  have directory : directoryOf (base.pathAndQuery.takeWhile (· != 0x3f)) =
      upToSlash (base.pathAndQuery.takeWhile (· != 0x3f)) :=
    if_pos (List.mem_of_mem_head? slash)
  rw [resolveRedirect, throwIf, if_neg accepted, redirectTarget, hasSeparator]
  simp only [bind, Except.bind, directory]
  split
  · rfl
  · split
    · rfl
    · split
      · rfl
      · split
        · rfl
        · rfl

/-- Where the client's redirects lead as they should. -/
theorem client_leads_iff {inet : Inet} {raw location : Bytes} {base : ParsedUrl}
    (rendered : Rendered inet) (parses : parseUrl inet raw = .ok base) (some : location ≠ [])
    (noHash : (0x23 : UInt8) ∉ location) :
    (∃ next, resolveRedirect base location = .ok next ∧
        LeadsTo (Reference.parse base.full) location next) ↔
      hasForbiddenUrlCharacter location = false ∧
        Served (fun path => Collapsible (segments path).tail) (Reference.parse base.full) location := by
  have based := basedOn_full rendered parses
  have shape := leads_iff cleaner_normalizePath based some noHash
  have fine : Served (fun path => normalizePath path = removeDots path []) (Reference.parse base.full)
      location ↔ Served (fun path => Collapsible (segments path).tail) (Reference.parse base.full)
      location := by
    apply Served.congr based
    intro path plain
    have segmentsPlain := Lib.segments_plain path
    have collapsedPlain : ∀ one ∈ collapsed (segments path), (0x2f : UInt8) ∉ one := by
      intro one mem
      rcases mem_collapsed mem with rfl | own
      · exact List.not_mem_nil
      · exact segmentsPlain one own
    rw [normalizePath_rooted plain, Lib.removeDots_rooted, Lib.segments_slash, List.tail_cons,
      Lib.joinSegments_inj collapsedPlain (Lib.withoutDots_plain segmentsPlain)]
    exact collapsed_iff (List.splitOn_ne_nil _ _)
  rw [fine] at shape
  cases clean : hasForbiddenUrlCharacter location with
  | true =>
      refine iff_of_false ?_ (fun both => Bool.noConfusion both.1)
      rintro ⟨next, resolves, -⟩
      rw [(resolveRedirect_accepts resolves).2.1] at clean
      cases clean
  | false =>
      rw [resolveRedirect_shape some noHash clean based.path_plain.2, eq_self, true_and, ← shape]
      constructor
      · rintro ⟨next, same, leads⟩
        obtain rfl := Except.ok.inj same
        exact leads
      · intro leads
        exact ⟨_, rfl, leads⟩

/-! ## Both -/

/-- When the redirects of the client and of the backend lead where they should.  The client sees the
base as its URL prints it: with the scheme in lower case, a canonical authority and a path. -/
theorem redirects_lead_iff {inet : Inet} {raw location : Bytes} {base : ParsedUrl}
    (rendered : Rendered inet) (parses : parseUrl inet raw = .ok base) (given : location ≠ [])
    (noHash : (0x23 : UInt8) ∉ location) :
    ((∃ next, resolveRedirect base location = .ok next ∧
        LeadsTo (Reference.parse base.full) location next) ↔
      hasForbiddenUrlCharacter location = false ∧
        Served (fun path => Collapsible (segments path).tail) (Reference.parse base.full) location) ∧
    ((∃ next, resolveStorageRedirect raw location = .ok next ∧
        LeadsTo (Reference.parse raw) location next) ↔
      (hasSeparator location = true ∨ Lower (Reference.parse raw)) ∧
        Served DotFree (Reference.parse raw) location) ∧
    Reference.parse base.full =
      { (Reference.parse raw).target with
        scheme := (Reference.parse raw).scheme.map lowerAscii
        authority := some base.authority } :=
  ⟨client_leads_iff rendered parses given noHash, storage_leads_iff parses given noHash,
    parse_full rendered parses⟩

/-- The base `http://h/a` as the client sees it. -/
def plainBase : ParsedUrl := ⟨ascii "http", ascii "h", 80, false, false, ascii "/a"⟩

theorem plainBase_parsed : parseUrl oneRedirect.toInet (ascii "http://h/a") = .ok plainBase := by decide

theorem signed_reference_leads :
    (∃ next, resolveRedirect plainBase (ascii "b?s=1") = .ok next ∧
        LeadsTo (Reference.parse plainBase.full) (ascii "b?s=1") next) ∧
      ∃ next, resolveStorageRedirect (ascii "http://h/a") (ascii "b?s=1") = .ok next ∧
        LeadsTo (Reference.parse (ascii "http://h/a")) (ascii "b?s=1") next := by
  have rendered : Rendered oneRedirect.toInet := by
    intro address text printed
    simp only [oneRedirect, Option.ite_none_right_eq_some] at printed
    rw [← Option.some.inj printed.2]
    decide
  have iffs := redirects_lead_iff rendered plainBase_parsed
    (show ascii "b?s=1" ≠ [] by decide) (show (0x23 : UInt8) ∉ ascii "b?s=1" by decide)
  have unschemed : (Reference.parse (ascii "b?s=1")).scheme = none ∧
      (Reference.parse (ascii "b?s=1")).authority = none := by decide
  have together : hasSeparator (ascii "b?s=1") = false := by decide
  constructor
  · apply iffs.1.mpr
    refine ⟨by decide, ?_⟩
    rw [Served, if_neg (not_not_intro unschemed.1), if_neg (not_not_intro unschemed.2)]
    exact ⟨together, .inr (by decide)⟩
  · apply iffs.2.1.mpr
    refine ⟨.inr (.inl (by decide)), ?_⟩
    rw [Served, if_neg (not_not_intro unschemed.1), if_neg (not_not_intro unschemed.2)]
    exact ⟨together, .inr (by decide)⟩

/-- A `://` in a query is taken as the end of a scheme. -/
theorem query_taken_for_scheme :
    parseUrl oneRedirect.toInet (ascii "http://h/a") = .ok plainBase ∧
      resolveRedirect plainBase (ascii "/b?u=http://x") = .ok (ascii "/b?u=http://x") ∧
      ¬LeadsTo (Reference.parse plainBase.full) (ascii "/b?u=http://x") (ascii "/b?u=http://x") ∧
      resolveStorageRedirect (ascii "http://h/a") (ascii "/b?u=http://x") =
        .ok (ascii "/b?u=http://x") ∧
      ¬LeadsTo (Reference.parse (ascii "http://h/a")) (ascii "/b?u=http://x")
        (ascii "/b?u=http://x") := by
  have unschemed : (Reference.parse (ascii "/b?u=http://x")).scheme = none := by decide
  have lost : ∀ base : Reference, base.scheme = some (ascii "http") →
      ¬LeadsTo base (ascii "/b?u=http://x") (ascii "/b?u=http://x") := by
    intro base schemed same
    have schemes := congrArg Reference.scheme same
    change (Reference.parse (ascii "/b?u=http://x")).scheme = (base.resolve _).scheme at schemes
    rw [resolve_scheme unschemed, unschemed, schemed] at schemes
    cases schemes
  refine ⟨by decide, by decide, lost _ (by decide), by decide, lost _ (by decide)⟩

end VgiRpc.External
