import VgiRpc.Iroh.Endpoint
import VgiRpc.Lib.DotSegments
import VgiRpc.Lib.PercentEncoding

/-!
# The grammar of endpoint URIs

A URI is accepted if it is one of the grammar and has no escape with a digit in upper case.
The escapes are checked with `isxdigit`, which takes both cases, and decoded with the digits
of endpoint ids, which are of lower case only.
-/

namespace VgiRpc.Iroh

open VgiRpc.Cpp VgiRpc.Lib

/-! ## The grammar -/

/-- Neither a dot nor a separator, a space, a control or DEL. -/
def IsPlain (decoded : UInt8) : Prop :=
  decoded ≠ 0x2e ∧ decoded ≠ 0x2f ∧ decoded ≠ 0x5c ∧ 0x20 < decoded ∧ decoded ≠ 0x7f

instance (decoded : UInt8) : Decidable (IsPlain decoded) :=
  inferInstanceAs (Decidable (_ ∧ _))

/-- Every percent sign begins an escape, with digits of either case, of a plain byte. -/
inductive IsEscaped : Bytes → Prop
  | nil : IsEscaped []
  | plain {byte : UInt8} {rest : Bytes} :
      byte ≠ 0x25 → IsEscaped rest → IsEscaped (byte :: rest)
  | escape {high low first second : UInt8} {rest : Bytes} :
      escapeValue high = some first → escapeValue low = some second →
      IsPlain (first <<< 4 ||| second) → IsEscaped rest →
      IsEscaped (0x25 :: high :: low :: rest)

/-- A name between two slashes. -/
structure IsSegment (segment : Bytes) : Prop where
  present : segment ≠ []
  plain : (0x2f : UInt8) ∉ segment
  name : ¬IsDot segment

/-- No path, the root, or segments with a slash in front of each. -/
def IsShaped (path : Bytes) : Prop :=
  path = [] ∨ path = ascii "/" ∨
    ∃ names, names ≠ [] ∧ path = joinSegments names ∧ ∀ segment ∈ names, IsSegment segment

/-- A path of the grammar. -/
structure IsPath (path : Bytes) : Prop where
  shaped : IsShaped path
  bytes : ∀ byte ∈ path, 0x20 < byte ∧ byte ≠ 0x7f ∧ byte ∉ ascii "\\?#"
  escaped : IsEscaped path

/-- `0` to `9` or `a` to `f`. -/
def IsLowerHex (byte : UInt8) : Prop := (0x30 ≤ byte ∧ byte ≤ 0x39) ∨ (0x61 ≤ byte ∧ byte ≤ 0x66)

instance (byte : UInt8) : Decidable (IsLowerHex byte) :=
  inferInstanceAs (Decidable ((0x30 ≤ byte ∧ byte ≤ 0x39) ∨ (0x61 ≤ byte ∧ byte ≤ 0x66)))

/-- A URI of the grammar. -/
structure EndpointUri where
  scheme : Scheme
  id : Bytes
  path : Bytes
  size : id.length = 64
  digits : ∀ byte ∈ id, IsLowerHex byte
  isPath : IsPath path
  pathless : scheme = .iroh → path = []

/-- The bytes that pairs of digits write. -/
def idBytes : Bytes → Bytes
  | high :: low :: rest =>
      ((escapeValue high).getD 0 <<< 4 ||| (escapeValue low).getD 0) :: idBytes rest
  | _ => []

namespace EndpointUri

def text (uri : EndpointUri) : Bytes := uri.scheme.text ++ (uri.id ++ uri.path)

/-- What the URI names: the decoded id, and the path without a lone slash. -/
def endpoint (uri : EndpointUri) : IrohEndpoint where
  scheme := uri.scheme
  endpointId := uri.id
  endpointIdBytes := idBytes uri.id
  basePath := if uri.path = ascii "/" then [] else uri.path
  alpn := if uri.scheme = .iroh then irohArrowMuxAlpn else irohHttpAlpn

end EndpointUri

/-- A text with an escape in which a digit is of upper case. -/
def UpperEscape (text : Bytes) : Prop :=
  ∃ front high low rest, text = front ++ 0x25 :: high :: low :: rest ∧
    (isUpper high = true ∨ isUpper low = true)

/-! ## Escapes -/

section Digits

variable {byte value high low : UInt8}

theorem hexNibble_ok_iff :
    hexNibble byte = .ok value ↔ escapeValue byte = some value ∧ isUpper byte = false := by
  have every := forall_byte (fun byte => decide (hexNibble byte =
    if isUpper byte then .error .notLowerHex
    else (escapeValue byte).elim (.error .notLowerHex) .ok)) (by decide) byte
  rw [of_decide_eq_true every]
  cases isUpper byte with
  | true => simp
  | false => cases escapeValue byte <;> simp

theorem isXDigit_iff : isXDigit byte = true ↔ (escapeValue byte).isSome = true := by
  have every := forall_byte (fun byte => isXDigit byte == (escapeValue byte).isSome)
    (by decide) byte
  rw [beq_iff_eq.mp every]

theorem isLowerHex_iff : IsLowerHex byte ↔ (escapeValue byte).isSome = true ∧ isUpper byte = false := by
  have every := forall_byte (fun byte => decide (IsLowerHex byte) ==
    ((escapeValue byte).isSome && !isUpper byte)) (by decide) byte
  rw [← Bool.not_eq_true', ← Bool.and_eq_true, ← beq_iff_eq.mp every, decide_eq_true_iff]

theorem hexByte_ok_iff : hexByte high low = .ok value ↔
    ∃ first second, escapeValue high = some first ∧ escapeValue low = some second ∧
      isUpper high = false ∧ isUpper low = false ∧ value = first <<< 4 ||| second := by
  rw [hexByte]
  constructor
  · intro decoded
    cases highDigit : hexNibble high with
    | error error =>
        rw [highDigit] at decoded
        cases decoded
    | ok first =>
        cases lowDigit : hexNibble low with
        | error error =>
            rw [highDigit, lowDigit] at decoded
            cases decoded
        | ok second =>
            rw [highDigit, lowDigit] at decoded
            obtain ⟨firstValue, firstCase⟩ := hexNibble_ok_iff.mp highDigit
            obtain ⟨secondValue, secondCase⟩ := hexNibble_ok_iff.mp lowDigit
            exact ⟨first, second, firstValue, secondValue, firstCase, secondCase,
              (Except.ok.inj decoded).symm⟩
  · rintro ⟨first, second, firstValue, secondValue, firstCase, secondCase, rfl⟩
    rw [hexNibble_ok_iff.mpr ⟨firstValue, firstCase⟩, hexNibble_ok_iff.mpr ⟨secondValue, secondCase⟩]
    rfl

theorem isSeparator_iff : isSeparator value = false ↔ IsPlain value := by
  simp only [isSeparator, IsPlain, Bool.or_eq_false_iff, beq_eq_false_iff_ne, decide_eq_false_iff_not,
    UInt8.not_le]
  tauto

theorem ne_percent (digit : (escapeValue byte).isSome = true) : byte ≠ 0x25 := by
  rintro rfl
  exact absurd digit (by decide)

end Digits

section Escapes

variable {byte high low : UInt8} {rest path : Bytes}

theorem upperEscape_plain (plain : byte ≠ 0x25) : UpperEscape (byte :: rest) ↔ UpperEscape rest := by
  constructor
  · rintro ⟨front, high, low, more, shape, upper⟩
    cases front with
    | nil => exact absurd (List.cons.inj shape).1 plain
    | cons first front => exact ⟨front, high, low, more, (List.cons.inj shape).2, upper⟩
  · rintro ⟨front, high, low, more, rfl, upper⟩
    exact ⟨byte :: front, high, low, more, rfl, upper⟩

theorem upperEscape_escape (highDigit : high ≠ 0x25) (lowDigit : low ≠ 0x25) :
    UpperEscape (0x25 :: high :: low :: rest) ↔
      (isUpper high = true ∨ isUpper low = true) ∨ UpperEscape rest := by
  constructor
  · rintro ⟨front, first, second, more, shape, upper⟩
    cases front with
    | nil =>
        simp only [List.nil_append, List.cons.injEq] at shape
        obtain ⟨-, rfl, rfl, -⟩ := shape
        exact .inl upper
    | cons mark front =>
        have behind : UpperEscape (high :: low :: rest) :=
          ⟨front, first, second, more, (List.cons.inj shape).2, upper⟩
        exact .inr ((upperEscape_plain lowDigit).mp ((upperEscape_plain highDigit).mp behind))
  · rintro (upper | ⟨front, first, second, more, rfl, upper⟩)
    · exact ⟨[], high, low, rest, rfl, upper⟩
    · exact ⟨0x25 :: high :: low :: front, first, second, more, rfl, upper⟩

theorem isEscaped_plain (plain : byte ≠ 0x25) : IsEscaped (byte :: rest) ↔ IsEscaped rest := by
  constructor
  · intro escaped
    cases escaped with
    | plain _ behind => exact behind
    | escape => exact absurd rfl plain
  · exact .plain plain

/-- The escape loop accepts the escapes of the grammar whose digits are of lower case. -/
theorem checkEscapes_ok_iff : checkEscapes path = .ok () ↔ IsEscaped path ∧ ¬UpperEscape path := by
  fun_induction checkEscapes path with
  | case1 =>
      have none : ¬UpperEscape [] := by
        rintro ⟨front, high, low, rest, shape, -⟩
        exact absurd shape.symm (List.append_ne_nil_of_right_ne_nil _ (List.cons_ne_nil _ _))
      exact iff_of_true rfl ⟨.nil, none⟩
  | case2 high low rest notDigits =>
      apply iff_of_false nofun
      rintro ⟨escaped, -⟩
      cases escaped with
      | plain plain => exact plain rfl
      | escape highDigit lowDigit =>
          have both : isXDigit high = true ∧ isXDigit low = true := by
            rw [isXDigit_iff, isXDigit_iff, highDigit, lowDigit]
            exact ⟨rfl, rfl⟩
          rw [both.1, both.2] at notDigits
          exact notDigits.elim nofun nofun
  | case3 high low rest digits error undecoded =>
      -- Both are digits, but one of them is of upper case.
      apply iff_of_false nofun
      rintro ⟨escaped, lower⟩
      cases escaped with
      | plain plain => exact plain rfl
      | escape highDigit lowDigit =>
          rename_i first second _ _
          have highMark := ne_percent (Option.isSome_of_eq_some highDigit)
          have lowMark := ne_percent (Option.isSome_of_eq_some lowDigit)
          have apart := (upperEscape_escape highMark lowMark).not.mp lower
          simp only [not_or, Bool.not_eq_true] at apart
          have decoded := hexByte_ok_iff.mpr
            ⟨first, second, highDigit, lowDigit, apart.1.1, apart.1.2, rfl⟩
          rw [undecoded] at decoded
          cases decoded
  | case4 high low rest digits decoded value separator =>
      apply iff_of_false nofun
      rintro ⟨escaped, -⟩
      cases escaped with
      | plain plain => exact plain rfl
      | escape highDigit lowDigit plain =>
          obtain ⟨first, second, firstValue, secondValue, -, -, rfl⟩ := hexByte_ok_iff.mp value
          rw [highDigit, Option.some.injEq] at firstValue
          rw [lowDigit, Option.some.injEq] at secondValue
          subst firstValue secondValue
          rw [isSeparator_iff.mpr plain] at separator
          cases separator
  | case5 high low rest digits decoded value separator inductionHypothesis =>
      obtain ⟨first, second, firstValue, secondValue, highCase, lowCase, rfl⟩ := hexByte_ok_iff.mp value
      have highMark := ne_percent (Option.isSome_of_eq_some firstValue)
      have lowMark := ne_percent (Option.isSome_of_eq_some secondValue)
      rw [Bool.not_eq_true, isSeparator_iff] at separator
      rw [inductionHypothesis, upperEscape_escape highMark lowMark, highCase, lowCase]
      constructor
      · rintro ⟨escaped, lower⟩
        exact ⟨.escape firstValue secondValue separator escaped, by simpa using lower⟩
      · rintro ⟨escaped, lower⟩
        rw [not_or] at lower
        cases escaped with
        | plain plain => exact absurd rfl plain
        | escape _ _ _ behind => exact ⟨behind, lower.2⟩
  | case6 rest short =>
      apply iff_of_false nofun
      rintro ⟨escaped, -⟩
      cases escaped with
      | plain plain => exact plain rfl
      | escape => exact short _ _ _ rfl
  | case7 byte rest plain inductionHypothesis =>
      rw [inductionHypothesis, isEscaped_plain plain, upperEscape_plain plain]

end Escapes

/-! ## Segments -/

section Segments

variable {segment path rest : Bytes} {names : List Bytes}

/-- The segment loop refuses dot segments. -/
theorem checkSegments_ok_iff : checkSegments path = .ok () ↔ ∀ segment ∈ segments path, ¬IsDot segment := by
  induction size : path.length using Nat.strongRecOn generalizing path with
  | ind length inductionHypothesis =>
      have plain : (0x2f : UInt8) ∉ path.takeWhile (· != 0x2f) := not_mem_takeWhile_ne
      have parts := @List.takeWhile_append_dropWhile _ (· != 0x2f) path
      have dots : path.takeWhile (· != 0x2f) = ascii "." ∨ path.takeWhile (· != 0x2f) = ascii ".." ↔
          IsDot (path.takeWhile (· != 0x2f)) := Iff.rfl
      rw [checkSegments]
      cases behind : path.dropWhile (· != 0x2f) with
      | nil =>
          rw [behind, List.append_nil] at parts
          rw [parts] at plain
          rw [segments_single plain, List.forall_mem_singleton]
          split
          next dot => exact iff_of_false nofun (not_not.mpr (parts ▸ dots.mp dot))
          next name => exact iff_of_true rfl (fun dot => name (dots.mpr (parts.symm ▸ dot)))
      | cons slash more =>
          have stop := @stop_of_dropWhile _ (· != 0x2f) _ _ _ behind
          obtain rfl : slash = 0x2f := bne_eq_false_iff_eq.mp stop
          rw [behind] at parts
          have shorter : more.length < length := by
            rw [← size, ← parts, List.length_append, List.length_cons]
            omega
          have split : segments path = path.takeWhile (· != 0x2f) :: segments more := by
            conv_lhs => rw [← parts, segments_cut plain]
          rw [split, List.forall_mem_cons]
          split
          next dot => exact iff_of_false nofun (fun all => all.1 (dots.mp dot))
          next name =>
              rw [if_neg (List.cons_ne_nil _ _), List.drop_succ_cons, List.drop_zero,
                inductionHypothesis more.length shorter rfl]
              exact ⟨fun later => ⟨fun dot => name (dots.mpr dot), later⟩, fun all => all.2⟩

theorem hasDoubleSlash_plain (plain : (0x2f : UInt8) ∉ segment) (rest : Bytes) :
    hasDoubleSlash (segment ++ rest) = hasDoubleSlash rest := by
  induction segment with
  | nil => rfl
  | cons byte segment inductionHypothesis =>
      rw [List.mem_cons, not_or] at plain
      rw [List.cons_append, hasDoubleSlash.eq_def]
      split
      next equal => exact absurd (List.cons.inj equal).1.symm plain.1
      next equal =>
          obtain ⟨-, rfl⟩ := List.cons.inj equal
          exact inductionHypothesis plain.2
      next equal => cases equal

theorem hasDoubleSlash_slash (rest : Bytes) :
    hasDoubleSlash (0x2f :: rest) = (rest.head? == some 0x2f || hasDoubleSlash rest) := by
  cases rest with
  | nil => rfl
  | cons byte rest =>
      by_cases slash : byte = 0x2f
      · subst slash
        rfl
      · rw [hasDoubleSlash.eq_def]
        split
        next equal => exact absurd (List.cons.inj (List.cons.inj equal).2).1 slash
        next equal =>
            obtain ⟨-, rfl⟩ := List.cons.inj equal
            simp [slash]
        next equal => cases equal

/-- Two slashes are an empty segment in front of another one. -/
theorem hasDoubleSlash_join (plain : ∀ segment ∈ names, (0x2f : UInt8) ∉ segment) :
    hasDoubleSlash (joinSegments names) = false ↔ ∀ segment ∈ names.dropLast, segment ≠ [] := by
  induction names with
  | nil => exact iff_of_true rfl (by simp)
  | cons segment names inductionHypothesis =>
      rw [List.forall_mem_cons] at plain
      have later := inductionHypothesis plain.2
      rw [joinSegments_cons, hasDoubleSlash_slash, hasDoubleSlash_plain plain.1,
        Bool.or_eq_false_iff, later]
      cases names with
      | nil =>
          rw [joinSegments_nil, List.append_nil]
          have open' : (segment.head? == some 0x2f) = false := by
            rw [beq_eq_false_iff_ne]
            intro slash
            exact plain.1 (List.mem_of_mem_head? slash)
          simp [open']
      | cons next names =>
          rw [List.dropLast_cons_cons, List.forall_mem_cons]
          apply and_congr_left
          intro _
          rw [joinSegments_cons, beq_eq_false_iff_ne]
          cases segment with
          | nil => simp
          | cons byte segment =>
              rw [List.mem_cons, not_or] at plain
              simp [Ne.symm plain.1.1]

/-- A slash at the end is an empty segment there. -/
theorem getLast?_join (front : List Bytes) (plain : (0x2f : UInt8) ∉ segment) :
    (joinSegments (front ++ [segment])).getLast? = some 0x2f ↔ segment = [] := by
  rw [joinSegments_append, joinSegments_cons, joinSegments_nil, List.append_nil, List.getLast?_append]
  cases segment with
  | nil => simp
  | cons byte segment =>
      rw [List.getLast?_cons_of_ne_nil (List.cons_ne_nil _ _)]
      refine iff_of_false ?_ (List.cons_ne_nil _ _)
      intro slash
      cases final : (byte :: segment).getLast? with
      | none => exact absurd (List.getLast?_eq_none_iff.mp final) (List.cons_ne_nil _ _)
      | some last =>
          rw [final, Option.some_or, Option.some.injEq] at slash
          subst slash
          exact plain (List.mem_of_mem_getLast? final)

/-- The checks of the slashes accept the root, and paths without empty segments. -/
theorem slashes_iff (front : List Bytes) (plain : ∀ name ∈ front ++ [segment], (0x2f : UInt8) ∉ name) :
    ¬(1 < (joinSegments (front ++ [segment])).length ∧
          (joinSegments (front ++ [segment])).getLast? = some 0x2f) ∧
        hasDoubleSlash (joinSegments (front ++ [segment])) = false ↔
      front ++ [segment] = [[]] ∨ ∀ name ∈ front ++ [segment], name ≠ [] := by
  have last : (0x2f : UInt8) ∉ segment := plain segment (by simp)
  rw [hasDoubleSlash_join plain, List.dropLast_concat, getLast?_join front last, List.forall_mem_append,
    List.forall_mem_singleton]
  cases front with
  | nil =>
      rw [List.nil_append, joinSegments_cons, joinSegments_nil, List.append_nil]
      cases segment with
      | nil => simp
      | cons byte segment => simp
  | cons name front =>
      have long : segment = [] → 1 < (joinSegments (name :: front ++ [segment])).length := by
        rintro rfl
        rw [joinSegments_append, joinSegments_cons, joinSegments_cons, List.length_append,
          List.length_cons, List.length_cons]
        omega
      have several : ¬name :: front ++ [segment] = [[]] := by simp
      constructor
      · rintro ⟨ends, inner⟩
        exact .inr ⟨inner, fun empty => ends ⟨long empty, empty⟩⟩
      · rintro (root | ⟨inner, present⟩)
        · exact absurd root several
        · exact ⟨fun ends => present ends.2, inner⟩

/-- The shapes of the grammar, read off the segments. -/
theorem isShaped_iff (rest : Bytes) : IsShaped (0x2f :: rest) ↔
    (segments rest = [[]] ∨ ∀ name ∈ segments rest, name ≠ []) ∧
      ∀ name ∈ segments rest, ¬IsDot name := by
  have whole := joinSegments_segments rest
  constructor
  · rintro (empty | root | ⟨names, nonempty, shape, areSegments⟩)
    · cases empty
    · obtain rfl : rest = [] := (List.cons.inj root).2
      exact ⟨.inl rfl, by decide⟩
    · have split := segments_join nonempty fun name listed => (areSegments name listed).plain
      rw [← shape, segments_slash, List.cons.injEq] at split
      rw [split.2]
      exact ⟨.inr fun name listed => (areSegments name listed).present,
        fun name listed => (areSegments name listed).name⟩
  · rintro ⟨root | present, names⟩
    · rw [root] at whole
      exact .inr (.inl whole.symm)
    · refine .inr (.inr ⟨segments rest, List.splitOn_ne_nil _ _, whole.symm, ?_⟩)
      intro name listed
      exact ⟨present name listed, segments_plain rest name listed, names name listed⟩

/-- `validate_path` accepts the shapes of the grammar, and its escapes but for their case. -/
theorem validatePath_ok_iff (rooted : path = [] ∨ ∃ rest, path = 0x2f :: rest) :
    validatePath path = .ok () ↔ IsShaped path ∧ IsEscaped path ∧ ¬UpperEscape path := by
  rw [← checkEscapes_ok_iff]
  rcases rooted with rfl | ⟨rest, rfl⟩
  · exact iff_of_true rfl ⟨.inl rfl, rfl⟩
  · obtain ⟨front, segment, names⟩ := (List.eq_nil_or_concat' (segments rest)).resolve_left
      (List.splitOn_ne_nil _ _)
    have plain := segments_plain rest
    have whole := joinSegments_segments rest
    rw [names] at plain whole
    have slashes := slashes_iff front plain
    rw [whole, ← names] at slashes
    have loops : (do
        if 0x2f :: rest ≠ [] then checkSegments ((0x2f :: rest).drop 1)
        checkEscapes (0x2f :: rest)) = .ok () ↔
          checkSegments rest = .ok () ∧ checkEscapes (0x2f :: rest) = .ok () := by
      rw [if_pos (List.cons_ne_nil _ _), List.drop_succ_cons, List.drop_zero]
      cases checkSegments rest with
      | error error => exact iff_of_false nofun nofun
      | ok _ => exact ⟨fun passed => ⟨rfl, passed⟩, fun both => both.2⟩
    rw [isShaped_iff, ← slashes, ← checkSegments_ok_iff, validatePath]
    split
    next ends => exact iff_of_false nofun (fun all => all.1.1.1 ends)
    next ends =>
        split
        next double =>
            refine iff_of_false nofun (fun all => ?_)
            rw [double] at all
            exact absurd all.1.1.2 (by decide)
        next single =>
            rw [Bool.not_eq_true] at single
            rw [loops]
            exact ⟨fun both => ⟨⟨⟨ends, single⟩, both.1⟩, both.2⟩, fun all => ⟨all.1.2, all.2⟩⟩

end Segments

/-! ## Endpoints -/

section Endpoints

variable {id uri bytes : Bytes}

theorem decodeId_ok_iff (even : id.length % 2 = 0) :
    decodeId id = .ok bytes ↔ (∀ byte ∈ id, IsLowerHex byte) ∧ bytes = idBytes id := by
  fun_induction decodeId id generalizing bytes with
  | case1 high low rest inductionHypothesis =>
      have shorter : rest.length % 2 = 0 := by
        rw [List.length_cons, List.length_cons] at even
        omega
      have later : ∀ {bytes}, decodeId rest = .ok bytes ↔
          (∀ byte ∈ rest, IsLowerHex byte) ∧ bytes = idBytes rest := inductionHypothesis shorter
      simp only [List.forall_mem_cons, isLowerHex_iff] at later ⊢
      constructor
      · intro decoded
        cases first : hexByte high low with
        | error error =>
            rw [first] at decoded
            cases decoded
        | ok byte =>
            cases behind : decodeId rest with
            | error error =>
                rw [first, behind] at decoded
                cases decoded
            | ok more =>
                rw [first, behind] at decoded
                obtain ⟨digits, rfl⟩ := later.mp behind
                obtain ⟨one, two, oneValue, twoValue, oneCase, twoCase, rfl⟩ := hexByte_ok_iff.mp first
                rw [idBytes, oneValue, twoValue]
                exact ⟨⟨⟨rfl, oneCase⟩, ⟨rfl, twoCase⟩, digits⟩, (Except.ok.inj decoded).symm⟩
      · rintro ⟨⟨⟨highDigit, highCase⟩, ⟨lowDigit, lowCase⟩, digits⟩, rfl⟩
        obtain ⟨one, oneValue⟩ := Option.isSome_iff_exists.mp highDigit
        obtain ⟨two, twoValue⟩ := Option.isSome_iff_exists.mp lowDigit
        rw [hexByte_ok_iff.mpr ⟨one, two, oneValue, twoValue, highCase, lowCase, rfl⟩,
          later.mpr ⟨digits, rfl⟩, idBytes, oneValue, twoValue]
        rfl
  | case2 id short =>
      cases id with
      | nil => simp [idBytes, eq_comm]
      | cons byte rest =>
          cases rest with
          | nil => cases even
          | cons next rest => exact absurd rfl (short byte next rest)

theorem schemeOf_text (scheme : Scheme) (rest : Bytes) : schemeOf (scheme.text ++ rest) = some scheme := by
  cases scheme with
  | iroh => rw [schemeOf, if_pos (List.prefix_append _ _)]
  | httpi =>
      have other : ¬Scheme.iroh.text <+: Scheme.httpi.text ++ rest := by
        rintro ⟨more, same⟩
        exact absurd (List.cons.inj same).1 (by decide)
      rw [schemeOf, if_neg other, if_pos (List.prefix_append _ _)]

theorem exists_rest_of_schemeOf {scheme : Scheme} (found : schemeOf uri = some scheme) :
    ∃ rest, uri = scheme.text ++ rest := by
  rw [schemeOf] at found
  split at found
  next starts =>
      obtain rfl := Option.some.inj found
      exact starts.imp fun _ same => same.symm
  next =>
      split at found
      next starts =>
          obtain rfl := Option.some.inj found
          exact starts.imp fun _ same => same.symm
      next => cases found

theorem exists_of_parse_ok {endpoint : IrohEndpoint} (parsed : parse uri = .ok endpoint) :
    ∃ (scheme : Scheme) (rest : Bytes), uri = scheme.text ++ rest := by
  rw [parse] at parsed
  split at parsed
  next => cases parsed
  next =>
      cases found : schemeOf uri with
      | none =>
          rw [found] at parsed
          cases parsed
      | some scheme => exact ⟨scheme, exists_rest_of_schemeOf found⟩

theorem isForbidden_iff {byte : UInt8} :
    isForbidden byte = false ↔ 0x20 < byte ∧ byte ≠ 0x7f ∧ byte ∉ ascii "\\?#" := by
  have list : ascii "\\?#" = [0x5c, 0x3f, 0x23] := by decide
  simp only [isForbidden, Bool.or_eq_false_iff, decide_eq_false_iff_not, UInt8.not_le,
    beq_eq_false_iff_ne, list, List.mem_cons, List.not_mem_nil, or_false, not_or, and_assoc, ne_eq]

theorem upperEscape_append {front : Bytes} (plain : (0x25 : UInt8) ∉ front) (rest : Bytes) :
    UpperEscape (front ++ rest) ↔ UpperEscape rest := by
  induction front with
  | nil => rfl
  | cons byte front inductionHypothesis =>
      rw [List.mem_cons, not_or] at plain
      rw [List.cons_append, upperEscape_plain (Ne.symm plain.1), inductionHypothesis plain.2]

theorem lowerHex_plain {byte : UInt8} (digit : IsLowerHex byte) :
    byte ≠ 0x25 ∧ byte ≠ 0x2f ∧ isForbidden byte = false := by
  have every := forall_byte (fun byte => decide (IsLowerHex byte →
    byte ≠ 0x25 ∧ byte ≠ 0x2f ∧ isForbidden byte = false)) (by decide) byte
  exact of_decide_eq_true every digit

theorem rooted_of_isShaped {path : Bytes} (shaped : IsShaped path) :
    path = [] ∨ ∃ rest, path = 0x2f :: rest := by
  rcases shaped with rfl | rfl | ⟨names, nonempty, rfl, -⟩
  · exact .inl rfl
  · exact .inr ⟨[], rfl⟩
  · cases names with
    | nil => exact absurd rfl nonempty
    | cons name names => exact .inr ⟨_, joinSegments_cons name names⟩

namespace EndpointUri

variable (uri : EndpointUri)

theorem upperEscape_text : UpperEscape uri.text ↔ UpperEscape uri.path := by
  have scheme : (0x25 : UInt8) ∉ uri.scheme.text := by
    cases uri.scheme with
    | iroh => decide
    | httpi => decide
  have id : (0x25 : UInt8) ∉ uri.id := fun member => (lowerHex_plain (uri.digits _ member)).1 rfl
  rw [text, upperEscape_append scheme, upperEscape_append id]

theorem text_allowed : uri.text.any isForbidden = false := by
  rw [List.any_eq_false]
  intro byte member
  rw [Bool.not_eq_true]
  rcases List.mem_append.mp member with scheme | behind
  · have every : ∀ scheme : Scheme, ∀ byte ∈ scheme.text, isForbidden byte = false := by
      intro scheme
      cases scheme with
      | iroh => decide
      | httpi => decide
    exact every uri.scheme byte scheme
  · rcases List.mem_append.mp behind with id | path
    · exact (lowerHex_plain (uri.digits byte id)).2.2
    · exact isForbidden_iff.mpr (uri.isPath.bytes byte path)

/-- Where the id of a URI ends. -/
theorem cut : (uri.id ++ uri.path).takeWhile (· != 0x2f) = uri.id ∧
    (uri.id ++ uri.path).dropWhile (· != 0x2f) = uri.path := by
  have plain : (0x2f : UInt8) ∉ uri.id := fun member => (lowerHex_plain (uri.digits _ member)).2.1 rfl
  apply cut_eq (plain_all plain)
  intro byte rest starts
  rcases rooted_of_isShaped uri.isPath.shaped with none | ⟨more, rooted⟩
  · rw [none] at starts
    cases starts
  · rw [rooted, List.cons.injEq] at starts
    rw [← starts.1]
    rfl

end EndpointUri

/-- The facts that an accepted URI has passed, over its two parts behind the scheme. -/
theorem parse_checked {scheme : Scheme} {rest : Bytes} {endpoint : IrohEndpoint}
    (parsed : parse (scheme.text ++ rest) = .ok endpoint) :
    (scheme.text ++ rest).any isForbidden = false ∧ (rest.takeWhile (· != 0x2f)).length = 64 ∧
      (∀ byte ∈ rest.takeWhile (· != 0x2f), IsLowerHex byte) ∧
      (scheme = .iroh → rest.dropWhile (· != 0x2f) = []) ∧
      validatePath (rest.dropWhile (· != 0x2f)) = .ok () ∧
      endpoint = ⟨scheme, rest.takeWhile (· != 0x2f), idBytes (rest.takeWhile (· != 0x2f)),
        if rest.dropWhile (· != 0x2f) = ascii "/" then [] else rest.dropWhile (· != 0x2f),
        if scheme = .iroh then irohArrowMuxAlpn else irohHttpAlpn⟩ := by
  rw [parse, schemeOf_text] at parsed
  dsimp only at parsed
  rw [List.drop_left] at parsed
  split at parsed
  next => cases parsed
  next allowed =>
      split at parsed
      next => cases parsed
      next size =>
          rw [not_not] at size
          cases decoded : decodeId (rest.takeWhile (· != 0x2f)) with
          | error error =>
              rw [decoded] at parsed
              cases parsed
          | ok bytes =>
              obtain ⟨digits, rfl⟩ := (decodeId_ok_iff (by rw [size])).mp decoded
              rw [decoded] at parsed
              simp only [bind, Except.bind] at parsed
              split at parsed
              next => cases parsed
              next pathless =>
                  cases valid : validatePath (rest.dropWhile (· != 0x2f)) with
                  | error error =>
                      rw [valid] at parsed
                      cases parsed
                  | ok _ =>
                      rw [valid] at parsed
                      refine ⟨Bool.not_eq_true _ ▸ allowed, size, digits, ?_, rfl,
                        (Except.ok.inj parsed).symm⟩
                      intro iroh
                      by_contra present
                      exact pathless ⟨iroh, present⟩

/-- `parse` accepts the URIs of the grammar whose escapes are of lower case. -/
theorem parse_ok_iff {text : Bytes} {endpoint : IrohEndpoint} : parse text = .ok endpoint ↔
    ∃ uri : EndpointUri, uri.text = text ∧ ¬UpperEscape text ∧ endpoint = uri.endpoint := by
  constructor
  · intro parsed
    obtain ⟨scheme, rest, rfl⟩ := exists_of_parse_ok parsed
    obtain ⟨allowed, size, digits, pathless, valid, named⟩ := parse_checked parsed
    have rooted : rest.dropWhile (· != 0x2f) = [] ∨ ∃ more, rest.dropWhile (· != 0x2f) = 0x2f :: more :=
      dropWhile_ne rest
    obtain ⟨shaped, escaped, lower⟩ := (validatePath_ok_iff rooted).mp valid
    have bytes : ∀ byte ∈ rest.dropWhile (· != 0x2f), 0x20 < byte ∧ byte ≠ 0x7f ∧ byte ∉ ascii "\\?#" := by
      intro byte member
      rw [List.any_append, Bool.or_eq_false_iff, List.any_eq_false, List.any_eq_false] at allowed
      have here := allowed.2 byte ((List.dropWhile_suffix _).mem member)
      rw [Bool.not_eq_true] at here
      exact isForbidden_iff.mp here
    obtain ⟨uri, same, behind, named⟩ : ∃ uri : EndpointUri, uri.text = scheme.text ++ rest ∧
        uri.path = rest.dropWhile (· != 0x2f) ∧ endpoint = uri.endpoint := by
      refine ⟨⟨scheme, rest.takeWhile (· != 0x2f), rest.dropWhile (· != 0x2f), size, digits,
        ⟨shaped, bytes, escaped⟩, pathless⟩, ?_, rfl, named⟩
      rw [EndpointUri.text, List.takeWhile_append_dropWhile]
    refine ⟨uri, same, ?_, named⟩
    rwa [← same, uri.upperEscape_text, behind]
  · rintro ⟨uri, rfl, lower, rfl⟩
    have id : decodeId uri.id = .ok (idBytes uri.id) := by
      apply (decodeId_ok_iff _).mpr ⟨uri.digits, rfl⟩
      rw [uri.size]
    have pathless : ¬(uri.scheme = .iroh ∧ uri.path ≠ []) := fun both => both.2 (uri.pathless both.1)
    rw [uri.upperEscape_text] at lower
    have path := (validatePath_ok_iff (rooted_of_isShaped uri.isPath.shaped)).mpr
      ⟨uri.isPath.shaped, uri.isPath.escaped, lower⟩
    rw [parse, if_neg (by rw [uri.text_allowed]; decide)]
    rw [EndpointUri.text, schemeOf_text]
    dsimp only
    rw [List.drop_left, uri.cut.1, uri.cut.2, if_neg (not_not.mpr uri.size), id]
    simp only [bind, Except.bind, if_neg pathless, path]
    rfl

end Endpoints

/-! ## The grammar and the code -/

/-- Scheme, id and base path as a URI. -/
def render (endpoint : IrohEndpoint) : Bytes :=
  endpoint.scheme.text ++ (endpoint.endpointId ++ endpoint.basePath)

/-- The URI is accepted exactly if it is one of the grammar, and then names what it says, also
when it is rendered again. -/
def Exact (text : Bytes) : Prop :=
  ((∃ endpoint, parse text = .ok endpoint) ↔ ∃ uri : EndpointUri, uri.text = text) ∧
    ∀ endpoint, parse text = .ok endpoint →
      (∃ uri : EndpointUri, uri.text = text ∧ endpoint = uri.endpoint) ∧
        parse (render endpoint) = .ok endpoint

theorem isPath_nil : IsPath [] where
  shaped := .inl rfl
  bytes := nofun
  escaped := .nil

/-- The URI of the grammar that an endpoint is rendered to. -/
theorem exists_render (uri : EndpointUri) : ∃ again : EndpointUri,
    again.text = render uri.endpoint ∧ again.endpoint = uri.endpoint ∧
      (UpperEscape again.path → UpperEscape uri.path) := by
  by_cases root : uri.path = ascii "/"
  · refine ⟨{ uri with path := [], isPath := isPath_nil, pathless := fun _ => rfl }, ?_, ?_, ?_⟩
    · simp only [EndpointUri.text, render, EndpointUri.endpoint, if_pos root]
    · simp only [EndpointUri.endpoint, if_pos root]
      rfl
    · rintro ⟨front, high, low, rest, shape, -⟩
      exact absurd shape.symm (List.append_ne_nil_of_right_ne_nil _ (List.cons_ne_nil _ _))
  · refine ⟨uri, ?_, rfl, id⟩
    simp only [EndpointUri.text, render, EndpointUri.endpoint, if_neg root]

/-- A URI of the grammar with an escape of upper case is refused. -/
theorem not_exact {text : Bytes} (grammatical : ∃ uri : EndpointUri, uri.text = text)
    (upper : UpperEscape text) : ¬Exact text := by
  rintro ⟨accepted, -⟩
  obtain ⟨endpoint, parsed⟩ := accepted.mpr grammatical
  obtain ⟨uri, -, lower, -⟩ := parse_ok_iff.mp parsed
  exact lower upper

/-- The code keeps to the grammar exactly on the URIs that have no escape of upper case. -/
theorem exact_iff (text : Bytes) :
    Exact text ↔ ¬((∃ uri : EndpointUri, uri.text = text) ∧ UpperEscape text) := by
  constructor
  · rintro both ⟨grammatical, upper⟩
    exact not_exact grammatical upper both
  · intro lower
    refine ⟨⟨?_, ?_⟩, ?_⟩
    · rintro ⟨endpoint, parsed⟩
      exact (parse_ok_iff.mp parsed).imp fun uri facts => facts.1
    · rintro ⟨uri, same⟩
      exact ⟨uri.endpoint, parse_ok_iff.mpr ⟨uri, same, fun upper => lower ⟨⟨uri, same⟩, upper⟩, rfl⟩⟩
    · intro endpoint parsed
      obtain ⟨uri, same, small, rfl⟩ := parse_ok_iff.mp parsed
      refine ⟨⟨uri, same, rfl⟩, ?_⟩
      obtain ⟨again, text, named, kept⟩ := exists_render uri
      rw [← same, uri.upperEscape_text] at small
      rw [← text, ← named]
      apply parse_ok_iff.mpr ⟨again, rfl, ?_, rfl⟩
      rw [again.upperEscape_text]
      exact fun upper => small (kept upper)

/-- The escape of a name in upper case, which is how URIs are usually written. -/
def accented : EndpointUri where
  scheme := .httpi
  id := List.replicate 64 0x61
  path := ascii "/%C3%A9"
  size := List.length_replicate
  digits := by
    intro byte member
    obtain rfl := List.eq_of_mem_replicate member
    decide
  isPath :=
    { shaped := .inr (.inr ⟨[ascii "%C3%A9"], List.cons_ne_nil _ _, by decide, fun segment listed => by
        obtain rfl := List.mem_singleton.mp listed
        exact ⟨by decide, by decide, by decide⟩⟩)
      bytes := by decide
      escaped := by
        have bytes : ascii "/%C3%A9" = [0x2f, 0x25, 0x43, 0x33, 0x25, 0x41, 0x39] := by decide
        rw [bytes]
        apply IsEscaped.plain (by decide)
        apply IsEscaped.escape rfl rfl (by decide)
        exact IsEscaped.escape rfl rfl (by decide) .nil }
  pathless := nofun

theorem accented_refused : ¬Exact accented.text := by
  apply not_exact ⟨accented, rfl⟩
  rw [accented.upperEscape_text]
  exact ⟨ascii "/", 0x43, 0x33, ascii "%A9", by decide, .inl (by decide)⟩

end VgiRpc.Iroh
