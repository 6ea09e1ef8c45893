import VgiRpc.External.Containment
import VgiRpc.External.Storage
import VgiRpc.Lib.Spans

/-!
# The public part of a URL

A URL holds secrets in its userinfo, its query and its fragment.  What is left is its
public part: two URLs that differ in their secrets only have the same one, what is
printed of a URL depends on nothing else, and resolving a redirect leads from public
parts to public parts.
-/

namespace VgiRpc.External

open VgiRpc.Cpp VgiRpc.Identity
open VgiRpc.Lib (cut_eq stop_of_dropWhile takeWhile_stopped dropWhile_stopped)

/-! ## Strings that differ in secrets -/

/-- A userinfo with its `@`, or none. -/
def IsUserinfo (info : Bytes) : Prop :=
  info = [] ∨ ∃ name, info = name ++ [0x40] ∧ name.all isAuthorityByte = true

/-- A host, with its port. -/
def IsHost (host : Bytes) : Prop := host.all isAuthorityByte = true ∧ (0x40 : UInt8) ∉ host

/-- A path behind an authority. -/
def IsPath (path : Bytes) : Prop :=
  (path = [] ∨ path.head? = some 0x2f) ∧ path.all isPathByte = true

/-- A query, a fragment, or both. -/
def IsSecret (tail : Bytes) : Prop :=
  tail = [] ∨ tail.head? = some 0x3f ∨ tail.head? = some 0x23

/-- Two strings that agree except in the userinfo of their authority and at or after their first
`?` or `#`.  The second form is a reference that takes its scheme from elsewhere, the third one
has no authority to tell apart. -/
inductive SameButSecrets : Bytes → Bytes → Prop where
  | url (scheme info other host path tail tail' : Bytes) :
      breakOn (ascii "://") (scheme ++ ascii "://") = some (scheme, []) →
      IsUserinfo info → IsUserinfo other → IsHost host → IsPath path →
      IsSecret tail → IsSecret tail' →
      SameButSecrets (scheme ++ ascii "://" ++ (info ++ (host ++ (path ++ tail))))
        (scheme ++ ascii "://" ++ (other ++ (host ++ (path ++ tail'))))
  | network (info other host path tail tail' : Bytes) :
      IsUserinfo info → IsUserinfo other → IsHost host → IsPath path →
      IsSecret tail → IsSecret tail' →
      SameButSecrets (ascii "//" ++ (info ++ (host ++ (path ++ tail))))
        (ascii "//" ++ (other ++ (host ++ (path ++ tail'))))
  | text (body tail tail' : Bytes) :
      body.all isPathByte = true → IsSecret tail → IsSecret tail' →
      SameButSecrets (body ++ tail) (body ++ tail')

/-- A `://` stands behind a scheme only: nothing in front of the first one ends an authority. -/
def Schemed (text : Bytes) : Prop :=
  ∀ scheme rest, breakOn (ascii "://") text = some (scheme, rest) →
    scheme.all isAuthorityByte = true

/-! ## The public part -/

inductive Public where
  | url (scheme host path : Bytes)
  | network (host path : Bytes)
  | reference (body : Bytes)
  deriving DecidableEq

def hostOf (rest : Bytes) : Bytes := withoutUserinfo (rest.takeWhile isAuthorityByte)

def pathOf (rest : Bytes) : Bytes := (rest.dropWhile isAuthorityByte).takeWhile isPathByte

def publicPart (text : Bytes) : Public :=
  match breakOn (ascii "://") text with
  | some (scheme, rest) => .url scheme (hostOf rest) (pathOf rest)
  | none =>
      if (ascii "//").isPrefixOf text then .network (hostOf (text.drop 2)) (pathOf (text.drop 2))
      else .reference (text.takeWhile isPathByte)

/-! ## The first occurrence of a pattern -/

section BreakOn

variable {pattern text before behind : Bytes}

theorem breakOn_eq (found : breakOn pattern text = some (before, behind)) :
    text = before ++ pattern ++ behind := by
  induction text generalizing before behind with
  | nil =>
      rw [breakOn] at found
      split at found
      · next empty =>
          obtain ⟨rfl, rfl⟩ := Prod.mk.inj (Option.some.inj found)
          rw [empty]
          rfl
      · cases found
  | cons byte rest inductionHypothesis =>
      rw [breakOn] at found
      split at found
      · next starts =>
          obtain ⟨rfl, rfl⟩ := Prod.mk.inj (Option.some.inj found)
          rw [List.nil_append]
          exact (List.prefix_iff_eq_append.mp (List.isPrefixOf_iff_prefix.mp starts)).symm
      · obtain ⟨⟨front, back⟩, later, same⟩ := Option.map_eq_some_iff.mp found
        obtain ⟨rfl, rfl⟩ := Prod.mk.inj same
        rw [inductionHypothesis later]
        rfl

/-- What is appended does not move the first occurrence. -/
theorem breakOn_append (found : breakOn pattern text = some (before, behind)) (more : Bytes) :
    breakOn pattern (text ++ more) = some (before, behind ++ more) := by
  induction text generalizing before behind with
  | nil =>
      rw [breakOn] at found
      split at found
      · next empty =>
          obtain ⟨rfl, rfl⟩ := Prod.mk.inj (Option.some.inj found)
          rw [empty]
          cases more with
          | nil => rfl
          | cons byte rest => rfl
      · cases found
  | cons byte rest inductionHypothesis =>
      rw [breakOn] at found
      split at found
      · next starts =>
          obtain ⟨rfl, rfl⟩ := Prod.mk.inj (Option.some.inj found)
          have longer := (List.isPrefixOf_iff_prefix.mp starts).trans (List.prefix_append _ more)
          rw [List.cons_append] at longer
          rw [List.cons_append, breakOn, if_pos (List.isPrefixOf_iff_prefix.mpr longer),
            ← List.cons_append, List.drop_append_of_le_length
              (List.isPrefixOf_iff_prefix.mp starts).length_le]
      · next starts =>
          obtain ⟨⟨front, back⟩, later, same⟩ := Option.map_eq_some_iff.mp found
          obtain ⟨rfl, rfl⟩ := Prod.mk.inj same
          have still : ¬pattern.isPrefixOf (byte :: (rest ++ more)) = true := by
            intro longer
            apply starts
            rw [List.isPrefixOf_iff_prefix] at longer ⊢
            apply List.prefix_of_prefix_length_le longer (List.prefix_append (byte :: rest) more)
            rw [breakOn_eq later]
            simp only [List.length_append, List.length_cons]
            omega
          rw [List.cons_append, breakOn, if_neg still, inductionHypothesis later]
          rfl

theorem isAuthorityByte_false {byte : UInt8} :
    isAuthorityByte byte = false ↔ byte = 0x2f ∨ byte = 0x3f ∨ byte = 0x23 := by
  rw [isAuthorityByte, Bool.and_eq_false_iff, Bool.and_eq_false_iff, bne_eq_false_iff_eq,
    bne_eq_false_iff_eq, bne_eq_false_iff_eq, or_assoc]

theorem isPathByte_of_authority {byte : UInt8} (plain : isAuthorityByte byte = true) :
    isPathByte byte = true := by
  rw [isAuthorityByte, Bool.and_assoc, Bool.and_eq_true] at plain
  exact plain.2

/-- A query or a fragment begins with none of the bytes of `://`. -/
theorem IsSecret.head {tail : Bytes} {byte : UInt8} {rest : Bytes} (secret : IsSecret tail)
    (starts : tail = byte :: rest) : isPathByte byte = false := by
  rw [starts] at secret
  rcases secret with empty | query | fragment
  · cases empty
  · rw [List.head?_cons, Option.some.injEq] at query
    rw [query]
    rfl
  · rw [List.head?_cons, Option.some.injEq] at fragment
    rw [fragment]
    rfl

theorem separator_eq : ascii "://" = [0x3a, 0x2f, 0x2f] := by decide

/-- A `://` behind a scheme is not in a query. -/
theorem breakOn_secret {tail : Bytes} (secret : IsSecret tail)
    (found : breakOn (ascii "://") (text ++ tail) = some (before, behind))
    (scheme : before.all isAuthorityByte = true) :
    (breakOn (ascii "://") text).isSome = true := by
  rw [separator_eq] at found ⊢
  induction text generalizing before with
  | nil =>
      rw [List.nil_append] at found
      cases tail with
      | nil => cases found
      | cons byte rest =>
          have other := secret.head rfl
          rw [breakOn] at found
          split at found
          · next starts =>
              rw [List.isPrefixOf_iff_prefix] at starts
              obtain rfl := (List.cons_prefix_cons.mp starts).1
              cases other
          · obtain ⟨split, -, same⟩ := Option.map_eq_some_iff.mp found
            obtain ⟨rfl, -⟩ := Prod.mk.inj same
            rw [List.all_cons, Bool.and_eq_true] at scheme
            rw [isPathByte_of_authority scheme.1] at other
            cases other
  | cons byte rest inductionHypothesis =>
      rw [List.cons_append, breakOn] at found
      rw [breakOn]
      split at found
      · next starts =>
          have within : [0x3a, 0x2f, 0x2f].isPrefixOf (byte :: rest) = true := by
            rw [List.isPrefixOf_iff_prefix] at starts ⊢
            obtain ⟨colon, slashes⟩ := List.cons_prefix_cons.mp starts
            cases rest with
            | nil =>
                obtain ⟨more, same⟩ := slashes
                exact absurd (secret.head same.symm) (by decide)
            | cons second rest =>
                obtain ⟨slash, last⟩ := List.cons_prefix_cons.mp slashes
                cases rest with
                | nil =>
                    obtain ⟨more, same⟩ := last
                    exact absurd (secret.head same.symm) (by decide)
                | cons third rest =>
                    rw [← colon, ← slash, ← (List.cons_prefix_cons.mp last).1]
                    exact List.prefix_append [0x3a, 0x2f, 0x2f] rest
          rw [if_pos within]
          rfl
      · obtain ⟨⟨front, back⟩, later, same⟩ := Option.map_eq_some_iff.mp found
        obtain ⟨rfl, rfl⟩ := Prod.mk.inj same
        rw [List.all_cons, Bool.and_eq_true] at scheme
        split
        · rfl
        · rw [Option.isSome_map]
          exact inductionHypothesis later scheme.2

end BreakOn

/-! ## Secrets are not public -/

section Parts

variable {info host path tail : Bytes}

theorem withoutUserinfo_append (userinfo : IsUserinfo info) (isHost : IsHost host) :
    withoutUserinfo (info ++ host) = host := by
  have plain : host.reverse.all (· != 0x40) = true := by
    rw [List.all_eq_true]
    intro byte mem
    rw [bne_iff_ne]
    rintro rfl
    exact isHost.2 (List.mem_reverse.mp mem)
  have stops : ∀ byte rest, info.reverse = byte :: rest → (byte != 0x40) = false := by
    intro byte rest starts
    rcases userinfo with rfl | ⟨name, rfl, -⟩
    · cases starts
    · rw [List.reverse_append, List.reverse_singleton, List.singleton_append, List.cons.injEq] at starts
      rw [← starts.1]
      rfl
  rw [withoutUserinfo, List.reverse_append, (cut_eq plain stops).1, List.reverse_reverse]

theorem userinfo_plain (userinfo : IsUserinfo info) : info.all isAuthorityByte = true := by
  rcases userinfo with rfl | ⟨name, rfl, plain⟩
  · rfl
  · rw [List.all_append, plain]
    rfl

/-- What follows an authority does not go on with it. -/
theorem behind_authority (isPath : IsPath path) (secret : IsSecret tail) :
    ∀ byte rest, path ++ tail = byte :: rest → isAuthorityByte byte = false := by
  intro byte rest starts
  cases path with
  | nil =>
      by_contra plain
      have stops := secret.head starts
      rw [isPathByte_of_authority (Bool.eq_true_of_not_eq_false plain)] at stops
      cases stops
  | cons first more =>
      rw [List.cons_append, List.cons.injEq] at starts
      obtain rfl := Option.some.inj (isPath.1.resolve_left (List.cons_ne_nil first more))
      rw [← starts.1]
      rfl

theorem authority_cut (userinfo : IsUserinfo info) (isHost : IsHost host) (isPath : IsPath path)
    (secret : IsSecret tail) :
    (info ++ (host ++ (path ++ tail))).takeWhile isAuthorityByte = info ++ host ∧
      (info ++ (host ++ (path ++ tail))).dropWhile isAuthorityByte = path ++ tail := by
  rw [← List.append_assoc]
  apply cut_eq
  · rw [List.all_append, userinfo_plain userinfo, isHost.1]
    rfl
  · exact behind_authority isPath secret

theorem hostOf_parts (userinfo : IsUserinfo info) (isHost : IsHost host) (isPath : IsPath path)
    (secret : IsSecret tail) : hostOf (info ++ (host ++ (path ++ tail))) = host := by
  rw [hostOf, (authority_cut userinfo isHost isPath secret).1, withoutUserinfo_append userinfo isHost]

theorem pathOf_parts (userinfo : IsUserinfo info) (isHost : IsHost host) (isPath : IsPath path)
    (secret : IsSecret tail) : pathOf (info ++ (host ++ (path ++ tail))) = path := by
  rw [pathOf, (authority_cut userinfo isHost isPath secret).2]
  exact (cut_eq isPath.2 fun _ _ => secret.head).1

/-- What stands behind the scheme of a URL, with its secrets. -/
theorem publicPart_url {scheme rest : Bytes} {text : Bytes}
    (found : breakOn (ascii "://") text = some (scheme, rest)) :
    publicPart text = .url scheme (hostOf rest) (pathOf rest) := by
  rw [publicPart, found]

/-- A text that starts with a slash has no scheme. -/
theorem breakOn_slash {rest : Bytes} (schemed : Schemed (0x2f :: rest)) :
    breakOn (ascii "://") (0x2f :: rest) = none := by
  cases found : breakOn (ascii "://") (0x2f :: rest) with
  | none => rfl
  | some split =>
      obtain ⟨scheme, behind⟩ := split
      have plain := schemed scheme behind found
      have parts := breakOn_eq found
      rw [separator_eq] at parts
      cases scheme with
      | nil => cases parts
      | cons byte more =>
          rw [List.cons_append, List.cons_append, List.cons.injEq] at parts
          rw [← parts.1] at plain
          cases plain

theorem publicPart_network {rest : Bytes} (schemed : Schemed (ascii "//" ++ rest)) :
    publicPart (ascii "//" ++ rest) = .network (hostOf rest) (pathOf rest) := by
  have slashes : ascii "//" = [0x2f, 0x2f] := by decide
  rw [slashes] at schemed
  have starts : [0x2f, 0x2f].isPrefixOf ([0x2f, 0x2f] ++ rest) = true := by
    rw [List.isPrefixOf_iff_prefix]
    exact List.prefix_append _ _
  rw [publicPart, slashes]
  dsimp only [List.cons_append] at schemed starts ⊢
  rw [breakOn_slash schemed]
  dsimp only
  rw [if_pos starts]
  rfl

theorem IsSecret.stops_authority (secret : IsSecret tail) :
    ∀ byte rest, tail = byte :: rest → isAuthorityByte byte = false := by
  intro byte rest starts
  by_contra plain
  have stop := secret.head starts
  rw [isPathByte_of_authority (Bool.eq_true_of_not_eq_false plain)] at stop
  cases stop

theorem hostOf_secret (secret : IsSecret tail) (rest : Bytes) : hostOf (rest ++ tail) = hostOf rest := by
  rw [hostOf, hostOf, takeWhile_stopped secret.stops_authority]

theorem pathOf_secret (secret : IsSecret tail) (rest : Bytes) : pathOf (rest ++ tail) = pathOf rest := by
  rw [pathOf, pathOf, dropWhile_stopped secret.stops_authority,
    takeWhile_stopped fun _ _ => secret.head]

theorem slashes_secret (secret : IsSecret tail) (body : Bytes) :
    (ascii "//").isPrefixOf (body ++ tail) = (ascii "//").isPrefixOf body := by
  have slashes : ascii "//" = [0x2f, 0x2f] := by decide
  have stopped (rest : Bytes) : (0x2f :: rest).isPrefixOf tail = false := by
    cases tail with
    | nil => rfl
    | cons byte behind =>
        rw [Bool.eq_false_iff]
        intro starts
        rw [List.isPrefixOf_iff_prefix, List.cons_prefix_cons] at starts
        have stop := secret.head rfl
        rw [← starts.1] at stop
        cases stop
  rw [slashes]
  cases body with
  | nil => exact stopped [0x2f]
  | cons first rest =>
      cases rest with
      | nil =>
          rw [List.cons_append, List.nil_append, List.isPrefixOf, stopped []]
          rfl
      | cons second rest => rfl

/-- Whatever stands behind it, a query or a fragment is not public. -/
theorem publicPart_secret {body : Bytes} (secret : IsSecret tail) (schemed : Schemed (body ++ tail)) :
    publicPart (body ++ tail) = publicPart body := by
  cases found : breakOn (ascii "://") body with
  | some split =>
      rw [publicPart_url (breakOn_append found tail), publicPart_url found, hostOf_secret secret,
        pathOf_secret secret]
  | none =>
      have whole : breakOn (ascii "://") (body ++ tail) = none := by
        cases later : breakOn (ascii "://") (body ++ tail) with
        | none => rfl
        | some split =>
            have some := breakOn_secret secret later (schemed split.1 split.2 later)
            rw [found] at some
            cases some
      rw [publicPart, publicPart, whole, found]
      dsimp only
      rw [slashes_secret secret]
      split
      · next starts =>
          have length : 2 ≤ body.length := (List.isPrefixOf_iff_prefix.mp starts).length_le
          rw [List.drop_append_of_le_length length, hostOf_secret secret, pathOf_secret secret]
      · rw [takeWhile_stopped fun _ _ => secret.head]

theorem same_public {one two : Bytes} (same : SameButSecrets one two) (schemed : Schemed one)
    (schemedToo : Schemed two) : publicPart one = publicPart two := by
  cases same with
  | url scheme info other host path tail tail' found userinfo userinfoToo isHost isPath secret
      secretToo =>
      have first := breakOn_append found (info ++ (host ++ (path ++ tail)))
      have second := breakOn_append found (other ++ (host ++ (path ++ tail')))
      rw [List.nil_append] at first second
      rw [publicPart_url first, publicPart_url second,
        hostOf_parts userinfo isHost isPath secret, hostOf_parts userinfoToo isHost isPath secretToo,
        pathOf_parts userinfo isHost isPath secret, pathOf_parts userinfoToo isHost isPath secretToo]
  | network info other host path tail tail' userinfo userinfoToo isHost isPath secret secretToo =>
      rw [publicPart_network schemed, publicPart_network schemedToo,
        hostOf_parts userinfo isHost isPath secret, hostOf_parts userinfoToo isHost isPath secretToo,
        pathOf_parts userinfo isHost isPath secret, pathOf_parts userinfoToo isHost isPath secretToo]
  | text body tail tail' plain secret secretToo =>
      rw [publicPart_secret secret schemed, publicPart_secret secretToo schemedToo]

end Parts

/-! ## What is printed -/

/-- A path; an authority alone stands for the root. -/
def rooted (path : Bytes) : Bytes := if path = [] then ascii "/" else path

/-- What is printed of a URL; nothing of what is none. -/
def Public.printed : Public → Bytes
  | .url scheme host path => scheme ++ ascii "://" ++ host ++ rooted path
  | .network _ _ => ascii "<invalid-url>"
  | .reference _ => ascii "<invalid-url>"

/-- Behind an authority there is nothing, a path, a query or a fragment. -/
theorem rooted_pathOf (rest : Bytes) :
    rooted (pathOf rest) = if (rest.dropWhile isAuthorityByte).head? = some 0x2f then pathOf rest
      else ascii "/" := by
  rw [rooted, pathOf]
  cases behind : rest.dropWhile isAuthorityByte with
  | nil => rfl
  | cons byte more =>
      have stop : ¬isAuthorityByte byte = true := Bool.eq_false_iff.mp (stop_of_dropWhile behind)
      by_cases slash : byte = 0x2f
      · rw [slash, List.takeWhile_cons_of_pos (by decide), if_neg (List.cons_ne_nil _ _),
          List.head?_cons, if_pos rfl]
      · have plain : ¬isPathByte byte = true := by
          intro plain
          apply stop
          rw [isAuthorityByte, Bool.and_assoc, Bool.and_eq_true]
          exact ⟨bne_iff_ne.mpr slash, plain⟩
        rw [List.takeWhile_cons_of_neg plain, if_pos rfl, List.head?_cons,
          if_neg (fun same => slash (Option.some.inj same))]

/-- `redact_url` prints the public part of a URL. -/
theorem redactUrl_public (url : Bytes) : redactUrl url = (publicPart url).printed := by
  rw [redactUrl, publicPart]
  cases breakOn (ascii "://") url with
  | some split =>
      dsimp only [Public.printed]
      rw [rooted_pathOf]
      rfl
  | none =>
      dsimp only
      split
      · rfl
      · rfl

/-! ## Where the backend's redirects lead -/

/-- The public part of a redirect's target; `query` says that the reference starts with one. -/
def Public.resolved (current location : Public) (query : Bool) : Public :=
  match current, location with
  | _, .url scheme host path => .url scheme host path
  | .url scheme _ _, .network host path => .url scheme host path
  | .url scheme host path, .reference body =>
      if body.head? = some 0x2f then .url scheme host body
      else if query then .url scheme host (rooted path)
      else .url scheme host (upToSlash (rooted path) ++ body)
  | current, _ => current

/-- An authority without a colon in front of it ends the scheme. -/
theorem breakOn_scheme {scheme : Bytes} (plain : (0x3a : UInt8) ∉ scheme) (rest : Bytes) :
    breakOn (ascii "://") (scheme ++ ascii "://" ++ rest) = some (scheme, rest) := by
  rw [separator_eq]
  induction scheme with
  | nil => rfl
  | cons byte more inductionHypothesis =>
      rw [List.mem_cons, not_or] at plain
      have other : ¬[0x3a, 0x2f, 0x2f].isPrefixOf (byte :: (more ++ [0x3a, 0x2f, 0x2f] ++ rest)) = true := by
        intro starts
        rw [List.isPrefixOf_iff_prefix, List.cons_prefix_cons] at starts
        exact plain.1 starts.1
      rw [List.cons_append, List.cons_append, breakOn, if_neg other, inductionHypothesis plain.2]
      rfl

/-- A URL that `split_url` takes. -/
structure HttpUrl (url origin target scheme rest : Bytes) : Prop where
  found : breakOn (ascii "://") url = some (scheme, rest)
  plain : (0x3a : UInt8) ∉ scheme
  origin_eq : origin = scheme ++ ascii "://" ++ rest.takeWhile isAuthorityByte
  path_eq : target.takeWhile (· != 0x3f) = rooted (pathOf rest)

/-- Behind an authority there is a path, a query or a fragment. -/
theorem head_behind (rest : Bytes) (some : rest.dropWhile isAuthorityByte ≠ []) :
    (rest.dropWhile isAuthorityByte).head? = .some 0x2f ∨
      (rest.dropWhile isAuthorityByte).head? = .some 0x3f ∨
      (rest.dropWhile isAuthorityByte).head? = .some 0x23 := by
  cases behind : rest.dropWhile isAuthorityByte with
  | nil => exact absurd behind some
  | cons byte more =>
      simp only [List.head?_cons, Option.some.injEq]
      exact isAuthorityByte_false.mp (stop_of_dropWhile behind)

theorem head_cut {behind : Bytes} (query : behind.head? = some 0x3f) :
    (behind.takeWhile (· != 0x23)).head? = some 0x3f := by
  cases behind with
  | nil => cases query
  | cons byte more =>
      obtain rfl := Option.some.inj query
      rfl

theorem target_path (behind : Bytes) (slash : behind.head? = some 0x2f) :
    (behind.takeWhile (· != 0x23)).takeWhile (· != 0x3f) = behind.takeWhile isPathByte ∧
      (behind.takeWhile (· != 0x23)).head? = some 0x2f := by
  constructor
  · rw [List.takeWhile_takeWhile]
    congr 1
    funext byte
    rw [isPathByte, Bool.eq_iff_iff]
    simp
  · cases behind with
    | nil => cases slash
    | cons byte more =>
        obtain rfl := Option.some.inj slash
        rfl

theorem splitHttpUrl_ok {url origin target : Bytes} (splits : splitHttpUrl url = .ok (origin, target)) :
    ∃ scheme rest, HttpUrl url origin target scheme rest := by
  rw [splitHttpUrl] at splits
  split at splits
  · cases splits
  · next scheme rest found =>
      split at splits
      · cases splits
      · next http =>
          have plain : (0x3a : UInt8) ∉ scheme := by
            rw [not_and_or, not_not, not_not] at http
            rcases http with rfl | rfl
            · decide
            · decide
          dsimp only at splits
          split at splits
          · cases splits
          · refine ⟨scheme, rest, found, plain, ?_, ?_⟩
            · split at splits
              · exact (Prod.mk.inj (Except.ok.inj splits)).1.symm
              · exact (Prod.mk.inj (Except.ok.inj splits)).1.symm
            · rw [rooted_pathOf]
              split at splits
              · next bare =>
                  obtain ⟨-, rfl⟩ := Prod.mk.inj (Except.ok.inj splits)
                  have noPath : ¬(rest.dropWhile isAuthorityByte).head? = some 0x2f := by
                    rcases bare with empty | fragment
                    · rw [empty]
                      nofun
                    · rw [fragment]
                      decide
                  rw [if_neg noPath]
                  decide
              · next more =>
                  obtain ⟨-, rfl⟩ := Prod.mk.inj (Except.ok.inj splits)
                  rw [not_or] at more
                  rcases head_behind rest more.1 with slash | query | fragment
                  · obtain ⟨cut, starts⟩ := target_path _ slash
                    rw [if_pos slash, if_neg (by rw [starts]; decide), cut]
                    rfl
                  · have noPath : ¬(rest.dropWhile isAuthorityByte).head? = some 0x2f := by
                      rw [query]
                      decide
                    have starts := head_cut query
                    rw [if_neg noPath, if_pos starts]
                    cases cut : (rest.dropWhile isAuthorityByte).takeWhile (· != 0x23) with
                    | nil => rw [cut] at starts; cases starts
                    | cons byte behind =>
                        rw [cut] at starts
                        obtain rfl := Option.some.inj starts
                        rfl
                  · exact absurd fragment more.2

theorem rooted_head (path : Bytes) (isPath : path = [] ∨ path.head? = some 0x2f) :
    (rooted path).head? = some 0x2f := by
  rw [rooted]
  split
  · decide
  · next some => exact isPath.resolve_left some

theorem rooted_all {path : Bytes} (plain : path.all isPathByte = true) :
    (rooted path).all isPathByte = true := by
  rw [rooted]
  split
  · decide
  · exact plain

theorem pathOf_isPath (rest : Bytes) : IsPath (pathOf rest) := by
  constructor
  · rw [pathOf]
    by_cases empty : rest.dropWhile isAuthorityByte = []
    · rw [empty]
      exact .inl rfl
    · cases behind : rest.dropWhile isAuthorityByte with
      | nil => exact absurd behind empty
      | cons byte more =>
          have head := head_behind rest empty
          rw [behind, List.head?_cons, Option.some.injEq, Option.some.injEq, Option.some.injEq] at head
          rcases head with rfl | rfl | rfl
          · exact .inr rfl
          · exact .inl rfl
          · exact .inl rfl
  · rw [List.all_eq_true]
    intro byte mem
    exact List.mem_takeWhile_imp mem

/-- What starts with a slash is no more of the authority in front of it. -/
theorem parts_behind {rest behind : Bytes} (slash : behind.head? = some 0x2f) :
    hostOf (rest.takeWhile isAuthorityByte ++ behind) = hostOf rest ∧
      pathOf (rest.takeWhile isAuthorityByte ++ behind) = behind.takeWhile isPathByte := by
  have plain : (rest.takeWhile isAuthorityByte).all isAuthorityByte = true := by
    rw [List.all_eq_true]
    intro byte mem
    exact List.mem_takeWhile_imp mem
  have stops : ∀ byte more, behind = byte :: more → isAuthorityByte byte = false := by
    rintro byte more rfl
    obtain rfl := Option.some.inj slash
    rfl
  obtain ⟨authority, path⟩ := cut_eq plain stops
  constructor
  · rw [hostOf, authority, hostOf]
  · rw [pathOf, path]

/-- The public part of what is put behind the origin of a URL. -/
theorem HttpUrl.publicPart_behind {url origin target scheme rest behind : Bytes}
    (http : HttpUrl url origin target scheme rest) (slash : behind.head? = some 0x2f) :
    publicPart (origin ++ behind) = .url scheme (hostOf rest) (behind.takeWhile isPathByte) := by
  rw [http.origin_eq, List.append_assoc, publicPart_url (breakOn_scheme http.plain _),
    (parts_behind slash).1, (parts_behind slash).2]

theorem upToSlash_head {path : Bytes} (slash : path.head? = some 0x2f) :
    (upToSlash path).head? = some 0x2f := by
  cases path with
  | nil => cases slash
  | cons byte more =>
      obtain rfl := Option.some.inj slash
      rw [upToSlash, List.reverse_cons, List.dropWhile_append]
      split
      · rfl
      · rw [List.reverse_append]
        rfl

theorem upToSlash_all {path : Bytes} (plain : path.all isPathByte = true) :
    (upToSlash path).all isPathByte = true := by
  rw [List.all_eq_true] at plain ⊢
  intro byte mem
  rw [upToSlash, List.mem_reverse] at mem
  exact plain byte (List.mem_reverse.mp ((List.dropWhile_suffix _).subset mem))

theorem publicPart_none {text : Bytes} (absent : breakOn (ascii "://") text = none) :
    publicPart text =
      if (ascii "//").isPrefixOf text then .network (hostOf (text.drop 2)) (pathOf (text.drop 2))
      else .reference (text.takeWhile isPathByte) := by
  rw [publicPart, absent]

/-- A scheme in front of a network path. -/
theorem publicPart_colon {scheme location : Bytes} (plain : (0x3a : UInt8) ∉ scheme)
    (slashes : (ascii "//").isPrefixOf location = true) :
    publicPart (scheme ++ ascii ":" ++ location) =
      .url scheme (hostOf (location.drop 2)) (pathOf (location.drop 2)) := by
  have whole : ascii ":" ++ location = ascii "://" ++ location.drop 2 := by
    rw [List.isPrefixOf_iff_prefix, List.prefix_iff_eq_append] at slashes
    nth_rewrite 1 [← slashes]
    rfl
  rw [List.append_assoc, whole, ← List.append_assoc]
  exact publicPart_url (breakOn_scheme plain _)

/-- What stands in front of the first colon. -/
theorem HttpUrl.front {url origin target scheme rest : Bytes}
    (http : HttpUrl url origin target scheme rest) : url.takeWhile (· != 0x3a) = scheme := by
  have plain : scheme.all (· != 0x3a) = true := by
    rw [List.all_eq_true]
    intro byte mem
    rw [bne_iff_ne]
    rintro rfl
    exact http.plain mem
  have stops : ∀ byte more, ascii "://" ++ rest = byte :: more → (byte != 0x3a) = false := by
    intro byte more starts
    rw [separator_eq, List.cons_append, List.cons.injEq] at starts
    rw [← starts.1]
    rfl
  rw [breakOn_eq http.found, List.append_assoc, (cut_eq plain stops).1]

/-- The scheme of the URL in front of a network path. -/
theorem HttpUrl.publicPart_network {url origin target scheme rest location : Bytes}
    (http : HttpUrl url origin target scheme rest) (slashes : (ascii "//").isPrefixOf location = true) :
    publicPart (url.takeWhile (· != 0x3a) ++ ascii ":" ++ location) =
      .url scheme (hostOf (location.drop 2)) (pathOf (location.drop 2)) := by
  rw [http.front]
  exact publicPart_colon http.plain slashes

/-- A path that the reference names, merged with that of the URL if it is relative. -/
theorem HttpUrl.publicPart_reference {url origin target scheme rest location next : Bytes}
    (http : HttpUrl url origin target scheme rest)
    (leads : next =
      if location.head? = some 0x2f then origin ++ location
      else if location.head? = some 0x3f then origin ++ target.takeWhile (· != 0x3f) ++ location
      else origin ++ upToSlash (target.takeWhile (· != 0x3f)) ++ location) :
    publicPart next = (Public.url scheme (hostOf rest) (pathOf rest)).resolved
      (.reference (location.takeWhile isPathByte)) (location.head? = some 0x3f) := by
  have path := pathOf_isPath rest
  have head := rooted_head _ path.1
  have all := rooted_all path.2
  rw [http.path_eq, List.append_assoc, List.append_assoc] at leads
  rw [Public.resolved, leads]
  by_cases slash : location.head? = some 0x2f
  · have kept : (location.takeWhile isPathByte).head? = some 0x2f := by
      cases location with
      | nil => cases slash
      | cons byte more =>
          obtain rfl := Option.some.inj slash
          rfl
    rw [if_pos slash, if_pos kept, http.publicPart_behind slash]
  · have kept : ¬(location.takeWhile isPathByte).head? = some 0x2f := by
      cases location with
      | nil => nofun
      | cons byte more =>
          rw [List.takeWhile_cons]
          split
          · exact slash
          · nofun
    rw [if_neg slash, if_neg kept]
    by_cases query : location.head? = some 0x3f
    · have cut : (rooted (pathOf rest) ++ location).takeWhile isPathByte = rooted (pathOf rest) := by
        apply (cut_eq all ?_).1
        rintro byte more rfl
        obtain rfl := Option.some.inj query
        rfl
      have front : (rooted (pathOf rest) ++ location).head? = some 0x2f := by
        rw [List.head?_append, head]
        rfl
      rw [if_pos query, if_pos (decide_eq_true query), http.publicPart_behind front, cut]
    · have front : (upToSlash (rooted (pathOf rest)) ++ location).head? = some 0x2f := by
        rw [List.head?_append, upToSlash_head head]
        rfl
      rw [if_neg query, if_neg (by simpa using query), http.publicPart_behind front,
        List.takeWhile_append_of_pos (List.all_eq_true.mp (upToSlash_all all))]

/-- The public part of a target depends on the public parts of the URL and of the Location. -/
theorem resolve_public {current location next : Bytes}
    (resolves : resolveStorageRedirect current location = .ok next) :
    publicPart next = (publicPart current).resolved (publicPart location)
      (location.head? = some 0x3f) := by
  rw [resolveStorageRedirect] at resolves
  cases found : breakOn (ascii "://") location with
  | some split =>
      rw [found] at resolves
      obtain rfl := Except.ok.inj resolves
      rw [publicPart_url found]
      cases publicPart current with
      | url scheme host path => rfl
      | network host path => rfl
      | reference body => rfl
  | none =>
      rw [found, if_neg nofun] at resolves
      split at resolves
      · cases resolves
      · next origin target splits =>
          obtain ⟨scheme, rest, http⟩ := splitHttpUrl_ok splits
          rw [publicPart_url http.found, publicPart_none found]
          split at resolves
          · next slashes =>
              obtain rfl := Except.ok.inj resolves
              rw [if_pos slashes, http.publicPart_network slashes]
              rfl
          · next noAuthority =>
              rw [if_neg noAuthority]
              apply http.publicPart_reference
              split at resolves
              · next slash =>
                  rw [if_pos slash]
                  exact (Except.ok.inj resolves).symm
              · next noSlash =>
                  rw [if_neg noSlash]
                  dsimp only at resolves
                  split at resolves
                  · next query =>
                      rw [if_pos query]
                      exact (Except.ok.inj resolves).symm
                  · next noQuery =>
                      rw [if_neg noQuery]
                      exact (Except.ok.inj resolves).symm

end VgiRpc.External
