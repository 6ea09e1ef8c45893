import VgiRpc.Lib.DotSegments

/-!
# URI references

References without a fragment, taken apart and resolved against a base by the rules for
generic URIs: a scheme or an authority of their own is kept, a path is merged with that of
the base, and dot segments are removed.
-/

namespace VgiRpc.Lib

/-- The components of a reference. -/
structure Reference where
  scheme : Option (List UInt8)
  authority : Option (List UInt8)
  path : List UInt8
  query : Option (List UInt8)
  deriving DecidableEq

namespace Reference

/-! ## Components -/

/-- Not one of `:`, `/`, `?` and `#`. -/
def inScheme (byte : UInt8) : Bool := byte != 0x3a && byte != 0x2f && byte != 0x3f && byte != 0x23

/-- Not one of `/`, `?` and `#`. -/
def inAuthority (byte : UInt8) : Bool := byte != 0x2f && byte != 0x3f && byte != 0x23

/-- Neither `?` nor `#`. -/
def inPath (byte : UInt8) : Bool := byte != 0x3f && byte != 0x23

/-- The scheme, and what is behind its colon. -/
def splitScheme (text : List UInt8) : Option (List UInt8) × List UInt8 :=
  match text.dropWhile inScheme with
  | 0x3a :: rest =>
      if text.takeWhile inScheme = [] then (none, text) else (some (text.takeWhile inScheme), rest)
  | _ => (none, text)

/-- The authority behind two slashes, and the rest. -/
def splitAuthority (text : List UInt8) : Option (List UInt8) × List UInt8 :=
  match text with
  | 0x2f :: 0x2f :: rest => (some (rest.takeWhile inAuthority), rest.dropWhile inAuthority)
  | _ => (none, text)

/-- The query behind a `?`. -/
def queryOf (text : List UInt8) : Option (List UInt8) :=
  match text with
  | 0x3f :: rest => some (rest.takeWhile (· != 0x23))
  | _ => none

/-- A reference behind its scheme. -/
def hierarchical (scheme : Option (List UInt8)) (text : List UInt8) : Reference :=
  ⟨scheme, (splitAuthority text).1, (splitAuthority text).2.takeWhile inPath,
    queryOf ((splitAuthority text).2.dropWhile inPath)⟩

/-- The components of a text. -/
def parse (text : List UInt8) : Reference := hierarchical (splitScheme text).1 (splitScheme text).2

/-! ## Resolution -/

/-- A relative path behind the last slash of the base's path. -/
def merge (base : Reference) (path : List UInt8) : List UInt8 :=
  if base.authority ≠ none ∧ base.path = [] then 0x2f :: path
  else (base.path.reverse.dropWhile (· != 0x2f)).reverse ++ path

/-- A reference resolved against a base. -/
def resolve (base reference : Reference) : Reference :=
  if reference.scheme ≠ none then
    { reference with path := removeDots reference.path [] }
  else if reference.authority ≠ none then
    { reference with scheme := base.scheme, path := removeDots reference.path [] }
  else if reference.path = [] then
    ⟨base.scheme, base.authority, base.path, reference.query.or base.query⟩
  else if reference.path.head? = some 0x2f then
    ⟨base.scheme, base.authority, removeDots reference.path [], reference.query⟩
  else
    ⟨base.scheme, base.authority, removeDots (base.merge reference.path) [], reference.query⟩

/-! ## What a reference asks for -/

/-- The request target: an empty path is that of the root. -/
def target (reference : Reference) : Reference :=
  { reference with path := if reference.path = [] then [0x2f] else reference.path }

section Components

variable {scheme authority path rest text : List UInt8}

theorem splitScheme_colon (some : scheme ≠ []) (plain : scheme.all inScheme = true)
    (rest : List UInt8) : splitScheme (scheme ++ 0x3a :: rest) = (.some scheme, rest) := by
  have stops : ∀ byte more, 0x3a :: rest = byte :: more → inScheme byte = false := by
    intro byte more starts
    rw [← (List.cons.inj starts).1]
    rfl
  obtain ⟨front, back⟩ := cut_eq plain stops
  rw [splitScheme, front, back]
  exact if_neg some

/-- A text of a scheme and the rest, or without a scheme. -/
theorem splitScheme_cases (text : List UInt8) :
    (∃ scheme rest, scheme ≠ [] ∧ scheme.all inScheme = true ∧ text = scheme ++ 0x3a :: rest ∧
      splitScheme text = (some scheme, rest)) ∨ splitScheme text = (none, text) := by
  rw [splitScheme]
  split
  · next rest behind =>
      split
      · exact .inr rfl
      · next named =>
          refine .inl ⟨text.takeWhile inScheme, rest, named, List.all_takeWhile, ?_, rfl⟩
          rw [← behind, List.takeWhile_append_dropWhile]
  · exact .inr rfl

theorem parse_colon (some : scheme ≠ []) (plain : scheme.all inScheme = true) (rest : List UInt8) :
    parse (scheme ++ 0x3a :: rest) = hierarchical (.some scheme) rest := by
  rw [parse, splitScheme_colon some plain]

theorem hierarchical_authority (scheme : Option (List UInt8)) (rest : List UInt8) :
    hierarchical scheme (0x2f :: 0x2f :: rest) =
      ⟨scheme, some (rest.takeWhile inAuthority), (rest.dropWhile inAuthority).takeWhile inPath,
        queryOf ((rest.dropWhile inAuthority).dropWhile inPath)⟩ := rfl

/-- Without two slashes in front there is no authority. -/
theorem hierarchical_path (scheme : Option (List UInt8)) (plain : ¬[0x2f, 0x2f] <+: text) :
    hierarchical scheme text = ⟨scheme, none, text.takeWhile inPath, queryOf (text.dropWhile inPath)⟩ := by
  have split : splitAuthority text = (none, text) := by
    rw [splitAuthority.eq_def]
    split
    · next rest => exact absurd ⟨rest, rfl⟩ plain
    · rfl
  rw [hierarchical, split]

end Components

end Reference

end VgiRpc.Lib
