import Mathlib.Data.List.Infix
import VgiRpc.Lib.Separators
import VgiRpc.Protocol.TypeToken

/-!
# Tokens that can be read back

A token tells which type it spells, and where it ends in a longer text, as long as the
texts that are spliced into it do not read like its own punctuation: a child name has no
colon in front of what could be a token, no question mark at its end, and does not begin
like the end of a token; a time zone has no parenthesis that could close it.
-/

namespace VgiRpc.Protocol

open VgiRpc.Cpp VgiRpc.Lib

/-! ## Spliced texts -/

/-- Every type without parameters. -/
def Simple.all : List Simple :=
  [.na, .bool, .int8, .int16, .int32, .int64, .uint8, .uint16, .uint32, .uint64, .halfFloat,
    .float, .double, .string, .largeString, .stringView, .binary, .largeBinary, .binaryView,
    .date32, .date64, .intervalMonths, .intervalDayTime, .intervalMonthDayNano]

/-- How the token of a child can begin, up to where its first word ends. -/
def tokenStarts : List Bytes :=
  Simple.all.map (fun kind => kind.token ++ ascii ",") ++
    Simple.all.map (fun kind => kind.token ++ ascii ">") ++
    [ascii "fixed_size_binary(", ascii "time32(", ascii "time64(", ascii "duration(",
      ascii "timestamp(", ascii "decimal128(", ascii "decimal256(", ascii "list<",
      ascii "large_list<", ascii "fixed_size_list(", ascii "struct<", ascii "map<",
      ascii "dictionary<", ascii "sparse_union<", ascii "dense_union<"]

def startsToken (text : Bytes) : Bool := tokenStarts.any fun start => start.isPrefixOf text

/-- How a text goes on behind a token and a comma or a bracket, if the token has more to
come or a list of children ends. -/
def tokenEnds : List Bytes :=
  [ascii "keys_sorted,", ascii "keys_sorted>", ascii "ordered,", ascii "ordered>", ascii ">,",
    ascii ">>"]

/-- A name of a struct or union child that does not read like a part of a token. -/
def cleanName (name : Bytes) : Bool :=
  (name.tails.all fun
    | 0x3a :: back => !startsToken back
    | _ => true) &&
  name.getLast? ≠ some 0x3f &&
  tokenEnds.all fun mark => !mark.isPrefixOf name

/-- A time zone that does not close its own parenthesis. -/
def cleanZone (timezone : Bytes) : Bool :=
  timezone.tails.all fun
    | 0x29 :: 0x2c :: _ => false
    | 0x29 :: 0x3e :: _ => false
    | _ => true

mutual

/-- All spliced texts of a type are clean. -/
def DataType.clean : DataType → Bool
  | .timestamp _ timezone => cleanZone timezone
  | .list _ _ _ type => type.clean
  | .fixedSizeList _ _ _ type => type.clean
  | .struct fields => fields.clean
  | .map _ _ key _ _ item _ => key.clean && item.clean
  | .dictionary index value _ => index.clean && value.clean
  | .union _ members => members.clean
  | _ => true

def Fields.clean : Fields → Bool
  | .nil => true
  | .cons name _ type rest => cleanName name && type.clean && rest.clean

def Members.clean : Members → Bool
  | .nil => true
  | .cons _ name _ type rest => cleanName name && type.clean && rest.clean

end

theorem cleanName_colon {name front back : Bytes} (clean : cleanName name = true)
    (split : name = front ++ 0x3a :: back) : startsToken back = false := by
  unfold cleanName at clean
  simp only [Bool.and_eq_true, List.all_eq_true] at clean
  have here := clean.1.1 (0x3a :: back) ((List.mem_tails _ _).mpr ⟨front, split.symm⟩)
  simpa using here

theorem cleanName_last {name front : Bytes} (clean : cleanName name = true) :
    name ≠ front ++ [0x3f] := by
  unfold cleanName at clean
  simp only [Bool.and_eq_true, decide_eq_true_eq] at clean
  rintro rfl
  simp at clean

theorem cleanName_ends {name mark : Bytes} (clean : cleanName name = true)
    (listed : mark ∈ tokenEnds) : ¬mark <+: name := by
  unfold cleanName at clean
  simp only [Bool.and_eq_true, List.all_eq_true] at clean
  have here := clean.2 mark listed
  rw [← List.isPrefixOf_iff_prefix, Bool.not_eq_true]
  simpa using here

theorem cleanZone_paren {timezone front back : Bytes} {byte : UInt8}
    (clean : cleanZone timezone = true) (split : timezone = front ++ 0x29 :: byte :: back) :
    byte ≠ 0x2c ∧ byte ≠ 0x3e := by
  unfold cleanZone at clean
  rw [List.all_eq_true] at clean
  have here := clean (0x29 :: byte :: back) ((List.mem_tails _ _).mpr ⟨front, split.symm⟩)
  constructor
  · rintro rfl
    simp at here
  · rintro rfl
    simp at here

/-! ## What follows a token -/

/-- The end of the text, a comma or a closing bracket. -/
def Stops (rest : Bytes) : Prop := ∀ byte ∈ rest.head?, byte = 0x2c ∨ byte = 0x3e

/-- What can follow a token without being taken for a part of it. -/
structure Follows (rest : Bytes) : Prop where
  stops : Stops rest
  unmarked : ∀ mark ∈ [ascii "keys_sorted", ascii "ordered"], ∀ more, Stops more →
    rest ≠ 0x2c :: (mark ++ more)

theorem follows_nil : Follows [] := by
  constructor
  · intro byte first
    cases first
  · intro mark _ more _ same
    cases same

theorem follows_bracket (rest : Bytes) : Follows (0x3e :: rest) := by
  constructor
  · intro byte first
    cases first
    exact .inr rfl
  · intro mark _ more _ same
    cases same

/-- A comma is safe in front of a text that does not begin like a mark. -/
theorem follows_comma {rest : Bytes} (long : rest ≠ ascii "keys_sorted" ∧ rest ≠ ascii "ordered")
    (unlike : ∀ mark ∈ tokenEnds, ¬mark <+: rest) : Follows (0x2c :: rest) := by
  constructor
  · intro byte first
    cases first
    exact .inl rfl
  · intro mark listed more stops same
    rw [List.cons.injEq] at same
    cases more with
    | nil =>
        rw [List.append_nil] at same
        rw [same.2] at long
        simp only [List.mem_cons, List.not_mem_nil, or_false] at listed
        rcases listed with rfl | rfl
        · exact long.1 rfl
        · exact long.2 rfl
    | cons byte more =>
        have known : mark ++ [byte] ∈ tokenEnds := by
          simp only [List.mem_cons, List.not_mem_nil, or_false] at listed
          rcases listed with rfl | rfl <;> rcases stops byte rfl with rfl | rfl <;>
            decide
        refine unlike _ known ⟨more, ?_⟩
        rw [same.2, List.append_assoc]
        rfl

/-! ## Children -/

theorem startsToken_of_append_cons {text rest : Bytes} {byte : UInt8}
    (foreign : ∀ start ∈ tokenStarts, byte ∉ start)
    (starts : startsToken (text ++ byte :: rest) = true) : startsToken text = true := by
  rw [startsToken, List.any_eq_true] at starts ⊢
  rcases starts with ⟨start, listed, prefixed⟩
  rw [List.isPrefixOf_iff_prefix] at prefixed
  refine ⟨start, listed, ?_⟩
  rw [List.isPrefixOf_iff_prefix]
  exact prefix_of_append_cons (foreign start listed) prefixed

/-- No token starts with a colon in it, or a question mark. -/
theorem colon_foreign : ∀ start ∈ tokenStarts, (0x3a : UInt8) ∉ start := by decide

theorem nullMark_foreign : ∀ start ∈ tokenStarts, (0x3f : UInt8) ∉ start := by decide

/-- The mark of a nullable child. -/
def nullMark (nullable : Bool) : Bytes := if nullable then [0x3f] else []

theorem anonChild_append (name : Bytes) (nullable : Bool) (token rest : Bytes) :
    anonChild name nullable token ++ rest = name ++ nullMark nullable ++ 0x3a :: (token ++ rest) := by
  cases nullable with
  | false => simp [anonChild, nullMark, show ascii ":" = [0x3a] from rfl]
  | true =>
      simp [anonChild, nullMark, show ascii ":" = [0x3a] from rfl, show ascii "?" = [0x3f] from rfl]

/-- A colon in a clean name does not end it. -/
theorem not_shifted {name front middle : Bytes} {nullable : Bool} (clean : cleanName name = true)
    (split : name ++ nullMark nullable = front ++ 0x3a :: middle) : startsToken middle = false := by
  cases nullable with
  | false =>
      rw [nullMark, if_neg Bool.false_ne_true, List.append_nil] at split
      exact cleanName_colon clean split
  | true =>
      rw [nullMark, if_pos rfl] at split
      rcases List.eq_nil_or_concat middle with rfl | ⟨init, last, rfl⟩
      · have final := congrArg List.getLast? split
        simp at final
      · rw [List.concat_eq_append, ← List.cons_append, ← List.append_assoc] at split
        rcases List.append_inj' split rfl with ⟨whole, same⟩
        rw [List.cons.injEq] at same
        rw [← Bool.not_eq_true]
        intro starts
        rw [List.concat_eq_append, ← same.1] at starts
        have inside := startsToken_of_append_cons nullMark_foreign starts
        rw [cleanName_colon clean whole] at inside
        cases inside

/-- A clean name and its mark are told apart. -/
theorem nullMark_unique {name name' : Bytes} {nullable nullable' : Bool}
    (clean : cleanName name = true) (clean' : cleanName name' = true)
    (same : name ++ nullMark nullable = name' ++ nullMark nullable') :
    name = name' ∧ nullable = nullable' := by
  unfold nullMark at same
  cases nullable with
  | false =>
      cases nullable' with
      | false => simpa using same
      | true =>
          rw [if_neg Bool.false_ne_true, List.append_nil] at same
          exact absurd same (cleanName_last clean)
  | true =>
      cases nullable' with
      | false =>
          rw [if_neg Bool.false_ne_true, List.append_nil] at same
          exact absurd same.symm (cleanName_last clean')
      | true => simpa using same

/-- The text of a child tells its name, its mark and its token. -/
theorem anonChild_unique {name name' : Bytes} {nullable nullable' : Bool}
    {token rest token' rest' : Bytes} (clean : cleanName name = true)
    (clean' : cleanName name' = true) (starts : startsToken (token ++ rest) = true)
    (starts' : startsToken (token' ++ rest') = true)
    (same : anonChild name nullable token ++ rest = anonChild name' nullable' token' ++ rest') :
    name = name' ∧ nullable = nullable' ∧ token ++ rest = token' ++ rest' := by
  rw [anonChild_append, anonChild_append] at same
  rcases append_cons_eq.mp same with ⟨names, tokens⟩ | ⟨middle, names, tokens⟩ |
    ⟨middle, names, tokens⟩
  · rcases nullMark_unique clean clean' names with ⟨rfl, rfl⟩
    exact ⟨rfl, rfl, tokens⟩
  · rw [tokens] at starts'
    have inside := startsToken_of_append_cons colon_foreign starts'
    rw [not_shifted clean names] at inside
    cases inside
  · rw [tokens] at starts
    have inside := startsToken_of_append_cons colon_foreign starts
    rw [not_shifted clean' names] at inside
    cases inside

/-- A child whose name is fixed tells its mark and its token. -/
theorem anonChild_fixed {name : Bytes} {nullable nullable' : Bool} {token rest token' rest' : Bytes}
    (same : anonChild name nullable token ++ rest = anonChild name nullable' token' ++ rest') :
    nullable = nullable' ∧ token ++ rest = token' ++ rest' := by
  rw [anonChild_append, anonChild_append, List.append_assoc, List.append_assoc] at same
  have marks := List.append_cancel_left same
  unfold nullMark at marks
  cases nullable with
  | false =>
      cases nullable' with
      | false => simpa using marks
      | true => simp at marks
  | true =>
      cases nullable' with
      | false => simp at marks
      | true => simpa using marks

/-! ## The first word -/

/-- The first word of a token. -/
inductive Head where
  | simple (kind : Simple)
  | fixedSizeBinary
  | timed (kind : Timed)
  | timestamp
  | decimal (width : DecimalWidth)
  | list (size : ListSize)
  | fixedSizeList
  | struct
  | map
  | dictionary
  | union (mode : UnionMode)
  deriving DecidableEq

def Head.all : List Head :=
  Simple.all.map .simple ++ [.fixedSizeBinary, .timed .time32, .timed .time64, .timed .duration,
    .timestamp, .decimal .decimal128, .decimal .decimal256, .list .list, .list .largeList,
    .fixedSizeList, .struct, .map, .dictionary, .union .sparse, .union .dense]

def Head.word : Head → Bytes
  | .simple kind => kind.token
  | .fixedSizeBinary => ascii "fixed_size_binary"
  | .timed kind => kind.token
  | .timestamp => ascii "timestamp"
  | .decimal width => width.token
  | .list size => size.token
  | .fixedSizeList => ascii "fixed_size_list"
  | .struct => ascii "struct"
  | .map => ascii "map"
  | .dictionary => ascii "dictionary"
  | .union mode => mode.token

theorem Head.mem_all (head : Head) : head ∈ Head.all := by
  cases head with
  | simple kind => cases kind <;> decide
  | timed kind => cases kind <;> decide
  | decimal width => cases width <;> decide
  | list size => cases size <;> decide
  | union mode => cases mode <;> decide
  | _ => decide

/-- No two heads have the same word. -/
theorem Head.word_injective : Function.Injective Head.word := by
  intro head other same
  have pairwise : ∀ head ∈ Head.all, ∀ other ∈ Head.all, head.word = other.word → head = other := by
    decide
  exact pairwise head head.mem_all other other.mem_all same

/-- The letters of a word. -/
def isWordByte (byte : UInt8) : Bool := isLower byte || isDigit byte || byte == 0x5f

theorem Head.word_letters (head : Head) : ∀ byte ∈ head.word, isWordByte byte = true := by
  have every : (Head.all.all fun head => head.word.all isWordByte) = true := by decide
  exact List.all_eq_true.mp (List.all_eq_true.mp every head head.mem_all)

def DataType.head : DataType → Head
  | .simple kind => .simple kind
  | .fixedSizeBinary _ => .fixedSizeBinary
  | .timed kind _ => .timed kind
  | .timestamp _ _ => .timestamp
  | .decimal width _ _ => .decimal width
  | .list size _ _ _ => .list size
  | .fixedSizeList _ _ _ _ => .fixedSizeList
  | .struct _ => .struct
  | .map _ _ _ _ _ _ _ => .map
  | .dictionary _ _ _ => .dictionary
  | .union mode _ => .union mode

/-- What stands in brackets behind the word. -/
def DataType.arguments : DataType → Bytes
  | .simple _ => []
  | .fixedSizeBinary byteWidth => 0x28 :: (Cpp.toString byteWidth ++ [0x29])
  | .timed _ unit => 0x28 :: (unitToken unit ++ [0x29])
  | .timestamp unit timezone =>
      0x28 :: (unitToken unit ++ (if timezone = [] then [] else ascii ",tz=" ++ timezone) ++ [0x29])
  | .decimal _ precision scale =>
      0x28 :: (Cpp.toString precision ++ 0x2c :: (Cpp.toString scale ++ [0x29]))
  | .list _ _ nullable type =>
      0x3c :: (anonChild (ascii "item") nullable (typeToken type) ++ [0x3e])
  | .fixedSizeList listSize _ nullable type =>
      0x28 :: (Cpp.toString listSize ++ 0x29 :: 0x3c ::
        (anonChild (ascii "item") nullable (typeToken type) ++ [0x3e]))
  | .struct fields => 0x3c :: (fieldTokens true fields ++ [0x3e])
  | .map _ keyNullable key _ itemNullable item keysSorted =>
      0x3c :: (anonChild (ascii "key") keyNullable (typeToken key) ++ 0x2c ::
        (anonChild (ascii "value") itemNullable (typeToken item) ++ 0x3e ::
          (if keysSorted then ascii ",keys_sorted" else [])))
  | .dictionary index value ordered =>
      0x3c :: (ascii "index:" ++ typeToken index ++ 0x2c :: (ascii "value:" ++ typeToken value ++
        0x3e :: (if ordered then ascii ",ordered" else [])))
  | .union _ members => 0x3c :: (memberTokens true members ++ [0x3e])

/-- A token is its word and its arguments. -/
theorem typeToken_eq (type : DataType) : typeToken type = type.head.word ++ type.arguments := by
  cases type <;> simp [typeToken, DataType.head, Head.word, DataType.arguments,
    show ascii "(" = [0x28] from rfl, show ascii ")" = [0x29] from rfl,
    show ascii "," = [0x2c] from rfl, show ascii "<" = [0x3c] from rfl,
    show ascii ">" = [0x3e] from rfl, show ascii ")<" = [0x29, 0x3c] from rfl,
    show ascii "<index:" = 0x3c :: ascii "index:" from rfl,
    show ascii ",value:" = 0x2c :: ascii "value:" from rfl]

/-- The bytes that can stand behind a word. -/
def Head.openings : Head → Bytes
  | .simple _ => [0x2c, 0x3e]
  | .fixedSizeBinary | .timed _ | .timestamp | .decimal _ | .fixedSizeList => [0x28]
  | .list _ | .struct | .map | .dictionary | .union _ => [0x3c]

theorem mem_openings {type : DataType} {rest : Bytes} {byte : UInt8} (stops : Stops rest)
    (first : byte ∈ (type.arguments ++ rest).head?) : byte ∈ type.head.openings := by
  cases type with
  | simple kind =>
      rcases stops byte first with rfl | rfl
      · simp [DataType.head, Head.openings]
      · simp [DataType.head, Head.openings]
  | _ =>
      cases first
      simp [DataType.head, Head.openings]

theorem Head.openings_foreign (head : Head) :
    ∀ byte ∈ head.openings, isWordByte byte = false := by
  have every : (Head.all.all fun head => head.openings.all fun byte => !isWordByte byte) = true := by
    decide
  intro byte listed
  have here := List.all_eq_true.mp (List.all_eq_true.mp every head head.mem_all) byte listed
  rwa [Bool.not_eq_true'] at here

theorem Head.openings_start (head : Head) :
    ∀ byte ∈ head.openings, head.word ++ [byte] ∈ tokenStarts := by
  have every : (Head.all.all fun head => head.openings.all fun byte =>
      decide (head.word ++ [byte] ∈ tokenStarts)) = true := by decide
  intro byte listed
  have here := List.all_eq_true.mp (List.all_eq_true.mp every head head.mem_all) byte listed
  exact of_decide_eq_true here

/-- The token of a child starts like a token. -/
theorem startsToken_typeToken (type : DataType) {rest : Bytes} (stops : Stops rest)
    (more : rest ≠ []) : startsToken (typeToken type ++ rest) = true := by
  rw [typeToken_eq, List.append_assoc]
  cases shape : type.arguments ++ rest with
  | nil => exact absurd (List.append_eq_nil_iff.mp shape).2 more
  | cons first tail =>
      have listed : first ∈ type.head.openings := by
        apply mem_openings stops
        rw [shape]
        rfl
      rw [startsToken, List.any_eq_true]
      refine ⟨_, type.head.openings_start first listed, ?_⟩
      rw [List.isPrefixOf_iff_prefix]
      exact ⟨tail, by simp⟩

/-- Texts that begin with tokens begin with the same word. -/
theorem head_unique {type other : DataType} {rest rest' : Bytes} (stops : Stops rest)
    (stops' : Stops rest') (same : typeToken type ++ rest = typeToken other ++ rest') :
    type.head = other.head ∧ type.arguments ++ rest = other.arguments ++ rest' := by
  rw [typeToken_eq, typeToken_eq, List.append_assoc, List.append_assoc] at same
  rcases append_inj_of_class isWordByte type.head.word_letters other.head.word_letters
    (fun byte first => type.head.openings_foreign byte (mem_openings stops first))
    (fun byte first => other.head.openings_foreign byte (mem_openings stops' first)) same with
    ⟨words, arguments⟩
  exact ⟨Head.word_injective words, arguments⟩

/-! ## Parameters -/

/-- A number ends at any byte that is not part of one. -/
theorem number_unique {value other : Int} {byte : UInt8} {rest rest' : Bytes}
    (ends : byte ≠ 0x2d ∧ isDigit byte = false)
    (same : Cpp.toString value ++ byte :: rest = Cpp.toString other ++ byte :: rest') :
    value = other ∧ rest = rest' := by
  have absent : ∀ value, byte ∉ Cpp.toString value := by
    intro value member
    rcases mem_toString member with sign | digit
    · exact ends.1 sign
    · rw [ends.2] at digit
      cases digit
  rcases (append_cons_inj_front (absent value) (absent other)).mp same with ⟨texts, tails⟩
  exact ⟨toString_injective texts, tails⟩

/-- A unit ends at a comma or a parenthesis. -/
theorem unit_unique {unit other : TimeUnit} {rest rest' : Bytes}
    (ends : ∀ byte ∈ rest.head?, isWordByte byte = false)
    (ends' : ∀ byte ∈ rest'.head?, isWordByte byte = false)
    (same : unitToken unit ++ rest = unitToken other ++ rest') : unit = other ∧ rest = rest' := by
  have letters : ∀ unit, ∀ byte ∈ unitToken unit, isWordByte byte = true := by
    intro unit
    rw [← List.all_eq_true]
    cases unit <;> rfl
  rcases append_inj_of_class isWordByte (letters unit) (letters other) ends ends' same with
    ⟨texts, tails⟩
  refine ⟨?_, tails⟩
  cases unit <;> cases other <;> first | rfl | exact absurd texts (by decide)

/-- A clean zone ends at its parenthesis. -/
theorem zone_unique {zone zone' rest rest' : Bytes} (clean : cleanZone zone = true)
    (clean' : cleanZone zone' = true) (stops : Stops rest) (stops' : Stops rest')
    (same : zone ++ 0x29 :: rest = zone' ++ 0x29 :: rest') : zone = zone' ∧ rest = rest' := by
  have shifted : ∀ {zone front middle rest more : Bytes}, cleanZone zone = true → Stops rest →
      zone = front ++ 0x29 :: middle → rest ≠ middle ++ 0x29 :: more := by
    intro zone front middle rest more clean stops split whole
    cases middle with
    | nil =>
        rcases stops 0x29 (by rw [whole]; rfl) with comma | bracket
        · cases comma
        · cases bracket
    | cons byte middle =>
        rcases cleanZone_paren clean split with ⟨notComma, notBracket⟩
        rcases stops byte (by rw [whole]; rfl) with comma | bracket
        · exact notComma comma
        · exact notBracket bracket
  rcases append_cons_eq.mp same with split | ⟨middle, split, whole⟩ | ⟨middle, split, whole⟩
  · exact split
  · exact absurd whole (shifted clean stops' split)
  · exact absurd whole (shifted clean' stops split)

/-- The parameters of a timestamp. -/
theorem timestamp_unique {unit unit' : TimeUnit} {zone zone' rest rest' : Bytes}
    (clean : cleanZone zone = true) (clean' : cleanZone zone' = true) (stops : Stops rest)
    (stops' : Stops rest')
    (same : (DataType.timestamp unit zone).arguments ++ rest =
      (DataType.timestamp unit' zone').arguments ++ rest') :
    unit = unit' ∧ zone = zone' ∧ rest = rest' := by
  have shape : ∀ (unit : TimeUnit) (zone rest : Bytes),
      (DataType.timestamp unit zone).arguments ++ rest = 0x28 :: (unitToken unit ++
        (if zone = [] then 0x29 :: rest else ascii ",tz=" ++ (zone ++ 0x29 :: rest))) := by
    intro unit zone rest
    by_cases none : zone = []
    · simp [DataType.arguments, none]
    · simp [DataType.arguments, none]
  have ends : ∀ (zone rest : Bytes), ∀ byte ∈ (if zone = [] then 0x29 :: rest
      else ascii ",tz=" ++ (zone ++ 0x29 :: rest)).head?, isWordByte byte = false := by
    intro zone rest byte first
    split at first
    · cases first
      decide
    · cases first
      decide
  rw [shape, shape, List.cons.injEq] at same
  rcases unit_unique (ends zone rest) (ends zone' rest') same.2 with ⟨units, zones⟩
  refine ⟨units, ?_⟩
  split at zones
  next none =>
      split at zones
      next none' =>
          rw [none, none']
          exact ⟨rfl, (List.cons.inj zones).2⟩
      next => exact absurd (List.cons.inj zones).1 (by decide)
  next =>
      split at zones
      next => exact absurd (List.cons.inj zones).1 (by decide)
      next => exact zone_unique clean clean' stops stops' (List.append_cancel_left zones)

/-- The mark behind the bracket of a map or a dictionary. -/
theorem suffix_unique {mark : Bytes} (listed : mark ∈ [ascii "keys_sorted", ascii "ordered"])
    {flag flag' : Bool} {rest rest' : Bytes} (follows : Follows rest) (follows' : Follows rest')
    (same : (if flag then 0x2c :: mark else []) ++ rest =
      (if flag' then 0x2c :: mark else []) ++ rest') : flag = flag' ∧ rest = rest' := by
  cases flag with
  | false =>
      cases flag' with
      | false => exact ⟨rfl, same⟩
      | true => exact absurd same (follows.unmarked mark listed rest' follows'.stops)
  | true =>
      cases flag' with
      | false => exact absurd same.symm (follows'.unmarked mark listed rest follows.stops)
      | true => exact ⟨rfl, List.append_cancel_left same⟩

/-! ## Lists of children -/

/-- The comma in front of every child but the first. -/
def separator (first : Bool) : Bytes := if first then [] else [0x2c]

@[simp] theorem separator_first (rest : Bytes) : separator true ++ rest = rest := rfl

@[simp] theorem separator_later (rest : Bytes) : separator false ++ rest = 0x2c :: rest := rfl

theorem fieldTokens_cons (first : Bool) (name : Bytes) (nullable : Bool) (type : DataType)
    (more : Fields) (rest : Bytes) :
    fieldTokens first (.cons name nullable type more) ++ rest = separator first ++
      (anonChild name nullable (typeToken type) ++ (fieldTokens false more ++ rest)) := by
  cases first <;> simp [fieldTokens, separator, show ascii "," = [0x2c] from rfl]

theorem memberTokens_cons (first : Bool) (typeCode : Int) (name : Bytes) (nullable : Bool)
    (type : DataType) (more : Members) (rest : Bytes) :
    memberTokens first (.cons typeCode name nullable type more) ++ rest = separator first ++
      (Cpp.toString typeCode ++ 0x3d ::
        (anonChild name nullable (typeToken type) ++ (memberTokens false more ++ rest))) := by
  cases first <;> simp [memberTokens, separator, show ascii "," = [0x2c] from rfl,
    show ascii "=" = [0x3d] from rfl]

theorem not_end_child {name : Bytes} (clean : cleanName name = true) (nullable : Bool)
    (token rest : Bytes) : ∀ mark ∈ tokenEnds, ¬mark <+: anonChild name nullable token ++ rest := by
  intro mark listed prefixed
  have noColon : ∀ mark ∈ tokenEnds, (0x3a : UInt8) ∉ mark := by decide
  have noMark : ∀ mark ∈ tokenEnds, (0x3f : UInt8) ∉ mark := by decide
  rw [anonChild_append] at prefixed
  have inName := prefix_of_append_cons (noColon mark listed) prefixed
  unfold nullMark at inName
  cases nullable with
  | false =>
      rw [if_neg Bool.false_ne_true, List.append_nil] at inName
      exact cleanName_ends clean listed inName
  | true =>
      rw [if_pos rfl] at inName
      exact cleanName_ends clean listed (prefix_of_append_cons (noMark mark listed) inName)

theorem colon_mem_child (name : Bytes) (nullable : Bool) (token rest : Bytes) :
    (0x3a : UInt8) ∈ anonChild name nullable token ++ rest := by
  rw [anonChild_append]
  simp

theorem follows_fields {fields : Fields} (clean : fields.clean = true) (rest : Bytes) :
    Follows (fieldTokens false fields ++ 0x3e :: rest) := by
  cases fields with
  | nil => exact follows_bracket rest
  | cons name nullable type more =>
      simp only [Fields.clean, Bool.and_eq_true] at clean
      rw [fieldTokens_cons, separator_later]
      apply follows_comma
      · have colon := colon_mem_child name nullable (typeToken type)
          (fieldTokens false more ++ 0x3e :: rest)
        constructor
        · intro whole
          rw [whole] at colon
          exact absurd colon (by decide)
        · intro whole
          rw [whole] at colon
          exact absurd colon (by decide)
      · exact not_end_child clean.1.1 nullable _ _

theorem follows_members (members : Members) (rest : Bytes) :
    Follows (memberTokens false members ++ 0x3e :: rest) := by
  cases members with
  | nil => exact follows_bracket rest
  | cons typeCode name nullable type more =>
      rw [memberTokens_cons, separator_later]
      have equals : ∀ mark ∈ tokenEnds, (0x3d : UInt8) ∉ mark ∧
          ∃ byte ∈ mark, byte ≠ 0x2d ∧ isDigit byte = false := by decide
      apply follows_comma
      · constructor
        · intro whole
          have sign : (0x3d : UInt8) ∈ ascii "keys_sorted" := by
            rw [← whole]
            simp
          exact absurd sign (by decide)
        · intro whole
          have sign : (0x3d : UInt8) ∈ ascii "ordered" := by
            rw [← whole]
            simp
          exact absurd sign (by decide)
      · intro mark listed prefixed
        rcases equals mark listed with ⟨absent, byte, member, notSign, notDigit⟩
        rcases mem_toString ((prefix_of_append_cons absent prefixed).subset member) with
          sign | digit
        · exact notSign sign
        · rw [notDigit] at digit
          cases digit

/-- The end of an empty list of children is not the beginning of a clean name. -/
theorem bracket_ne_child {name : Bytes} (clean : cleanName name = true) {rest : Bytes}
    (stops : Stops rest) (nullable : Bool) (token more : Bytes) :
    0x3e :: rest ≠ anonChild name nullable token ++ more := by
  intro same
  have starts : ∀ byte, byte ∈ rest.head? → [0x3e, byte] <+: anonChild name nullable token ++ more := by
    intro byte first
    rw [← same]
    cases rest with
    | nil => cases first
    | cons head tail =>
        cases first
        exact ⟨tail, rfl⟩
  cases rest with
  | nil =>
      have colon := colon_mem_child name nullable token more
      rw [← same] at colon
      exact absurd colon (by decide)
  | cons byte tail =>
      rcases stops byte rfl with rfl | rfl
      · exact not_end_child clean nullable token more _ (by decide) (starts _ rfl)
      · exact not_end_child clean nullable token more _ (by decide) (starts _ rfl)

theorem bracket_ne_separated {name : Bytes} (clean : cleanName name = true) {rest : Bytes}
    (stops : Stops rest) (first nullable : Bool) (token more : Bytes) :
    0x3e :: rest ≠ separator first ++ (anonChild name nullable token ++ more) := by
  cases first with
  | true => exact bracket_ne_child clean stops nullable token more
  | false =>
      intro same
      exact absurd (List.cons.inj same).1 (by decide)

theorem bracket_ne_number (first : Bool) (value : Int) (rest more : Bytes) :
    0x3e :: rest ≠ separator first ++ (Cpp.toString value ++ 0x3d :: more) := by
  intro same
  cases first with
  | true =>
      have started : (0x3e : UInt8) ∈ Cpp.toString value ++ [0x3d] := by
        rw [separator_first] at same
        cases text : Cpp.toString value with
        | nil =>
            rw [text] at same
            exact absurd (List.cons.inj same).1 (by decide)
        | cons byte tail =>
            rw [text] at same
            rw [(List.cons.inj same).1]
            exact List.mem_cons_self
      rcases List.mem_append.mp started with inside | last
      · rcases mem_toString inside with sign | digit
        · exact absurd sign (by decide)
        · exact absurd digit (by decide)
      · exact absurd last (by decide)
  | false => exact absurd (List.cons.inj same).1 (by decide)

/-- The value of a map follows its key. -/
theorem follows_value (nullable : Bool) (token rest : Bytes) :
    Follows (0x2c :: (anonChild (ascii "value") nullable token ++ rest)) := by
  apply follows_comma
  · constructor
    · intro whole
      exact absurd (List.cons.inj whole).1 (by decide)
    · intro whole
      exact absurd (List.cons.inj whole).1 (by decide)
  · exact not_end_child (by decide) nullable token rest

/-- The value of a dictionary follows its index. -/
theorem follows_plainValue (rest : Bytes) : Follows (0x2c :: (ascii "value:" ++ rest)) := by
  exact follows_value false [] rest

/-! ## Types -/

mutual

/-- A token tells which type it spells, and where it ends. -/
theorem typeToken_unique (type : DataType) : ∀ {other : DataType} {rest rest' : Bytes},
    type.clean = true → other.clean = true → Follows rest → Follows rest' →
      typeToken type ++ rest = typeToken other ++ rest' →
        type.normal = other.normal ∧ rest = rest' := by
  intro other rest rest' clean clean' follows follows' same
  rcases head_unique follows.stops follows'.stops same with ⟨heads, arguments⟩
  cases type with
  | simple kind =>
      cases other with
      | simple kind' =>
          cases heads
          exact ⟨rfl, arguments⟩
      | _ => cases heads
  | fixedSizeBinary byteWidth =>
      cases other with
      | fixedSizeBinary byteWidth' =>
          simp only [DataType.arguments, List.cons_append, List.append_assoc, List.nil_append,
            List.cons.injEq, true_and] at arguments
          rcases number_unique (by decide) arguments with ⟨rfl, rfl⟩
          exact ⟨rfl, rfl⟩
      | _ => cases heads
  | timed kind unit =>
      cases other with
      | timed kind' unit' =>
          cases heads
          simp only [DataType.arguments, List.cons_append, List.append_assoc, List.nil_append,
            List.cons.injEq, true_and] at arguments
          rcases unit_unique (by simp [show isWordByte 0x29 = false from rfl])
            (by simp [show isWordByte 0x29 = false from rfl]) arguments with ⟨rfl, tails⟩
          exact ⟨rfl, (List.cons.inj tails).2⟩
      | _ => cases heads
  | timestamp unit timezone =>
      cases other with
      | timestamp unit' timezone' =>
          rcases timestamp_unique clean clean' follows.stops follows'.stops arguments with
            ⟨rfl, rfl, rfl⟩
          exact ⟨rfl, rfl⟩
      | _ => cases heads
  | decimal width precision scale =>
      cases other with
      | decimal width' precision' scale' =>
          cases heads
          simp only [DataType.arguments, List.cons_append, List.append_assoc, List.nil_append,
            List.cons.injEq, true_and] at arguments
          rcases number_unique (by decide) arguments with ⟨rfl, scales⟩
          rcases number_unique (by decide) scales with ⟨rfl, rfl⟩
          exact ⟨rfl, rfl⟩
      | _ => cases heads
  | list size name nullable type =>
      cases other with
      | list size' name' nullable' type' =>
          cases heads
          simp only [DataType.arguments, List.cons_append, List.append_assoc, List.nil_append,
            List.cons.injEq, true_and] at arguments
          rcases anonChild_fixed arguments with ⟨rfl, tokens⟩
          have childClean : type'.clean = true := clean'
          rcases typeToken_unique type clean childClean (follows_bracket _) (follows_bracket _)
            tokens with ⟨types, tails⟩
          refine ⟨?_, (List.cons.inj tails).2⟩
          simp only [DataType.normal, types]
      | _ => cases heads
  | fixedSizeList listSize name nullable type =>
      cases other with
      | fixedSizeList listSize' name' nullable' type' =>
          simp only [DataType.arguments, List.cons_append, List.append_assoc, List.nil_append,
            List.cons.injEq, true_and] at arguments
          rcases number_unique (by decide) arguments with ⟨rfl, children⟩
          rw [List.cons.injEq] at children
          rcases anonChild_fixed children.2 with ⟨rfl, tokens⟩
          have childClean : type'.clean = true := clean'
          rcases typeToken_unique type clean childClean (follows_bracket _) (follows_bracket _)
            tokens with ⟨types, tails⟩
          refine ⟨?_, (List.cons.inj tails).2⟩
          simp only [DataType.normal, types]
      | _ => cases heads
  | struct fields =>
      cases other with
      | struct fields' =>
          simp only [DataType.arguments, List.cons_append, List.append_assoc, List.nil_append,
            List.cons.injEq, true_and] at arguments
          rcases fieldTokens_unique fields true clean clean' follows follows' arguments with
            ⟨children, rfl⟩
          refine ⟨?_, rfl⟩
          simp only [DataType.normal, children]
      | _ => cases heads
  | map keyName keyNullable key itemName itemNullable item keysSorted =>
      cases other with
      | map keyName' keyNullable' key' itemName' itemNullable' item' keysSorted' =>
          simp only [DataType.arguments, List.cons_append, List.append_assoc, List.cons.injEq,
            true_and] at arguments
          simp only [DataType.clean, Bool.and_eq_true] at clean clean'
          rcases anonChild_fixed arguments with ⟨rfl, keys⟩
          rcases typeToken_unique key clean.1 clean'.1 (follows_value _ _ _) (follows_value _ _ _)
            keys with ⟨keyTypes, items⟩
          rcases anonChild_fixed (List.cons.inj items).2 with ⟨rfl, values⟩
          rcases typeToken_unique item clean.2 clean'.2 (follows_bracket _) (follows_bracket _)
            values with ⟨itemTypes, tails⟩
          rcases suffix_unique (by decide) follows follows' (List.cons.inj tails).2 with
            ⟨rfl, rfl⟩
          refine ⟨?_, rfl⟩
          simp only [DataType.normal, keyTypes, itemTypes]
      | _ => cases heads
  | dictionary index value ordered =>
      cases other with
      | dictionary index' value' ordered' =>
          simp only [DataType.arguments, List.cons_append, List.append_assoc, List.cons.injEq,
            true_and, List.append_cancel_left_eq] at arguments
          simp only [DataType.clean, Bool.and_eq_true] at clean clean'
          rcases typeToken_unique index clean.1 clean'.1 (follows_plainValue _)
            (follows_plainValue _) arguments with ⟨indexTypes, values⟩
          simp only [List.cons.injEq, true_and, List.append_cancel_left_eq] at values
          rcases typeToken_unique value clean.2 clean'.2 (follows_bracket _) (follows_bracket _)
            values with ⟨valueTypes, tails⟩
          rcases suffix_unique (by decide) follows follows' (List.cons.inj tails).2 with
            ⟨rfl, rfl⟩
          refine ⟨?_, rfl⟩
          simp only [DataType.normal, indexTypes, valueTypes]
      | _ => cases heads
  | union mode members =>
      cases other with
      | union mode' members' =>
          cases heads
          simp only [DataType.arguments, List.cons_append, List.append_assoc, List.nil_append,
            List.cons.injEq, true_and] at arguments
          rcases memberTokens_unique members true clean clean' follows follows' arguments with
            ⟨children, rfl⟩
          refine ⟨?_, rfl⟩
          simp only [DataType.normal, children]
      | _ => cases heads

/-- The same for the children of a struct. -/
theorem fieldTokens_unique (fields : Fields) : ∀ (first : Bool) {other : Fields}
    {rest rest' : Bytes}, fields.clean = true → other.clean = true → Follows rest →
      Follows rest' → fieldTokens first fields ++ 0x3e :: rest =
        fieldTokens first other ++ 0x3e :: rest' → fields.normal = other.normal ∧ rest = rest' := by
  intro first other rest rest' clean clean' follows follows' same
  cases fields with
  | nil =>
      cases other with
      | nil => exact ⟨rfl, (List.cons.inj same).2⟩
      | cons name' nullable' type' more' =>
          simp only [Fields.clean, Bool.and_eq_true] at clean'
          rw [fieldTokens_cons] at same
          exact absurd same (bracket_ne_separated clean'.1.1 follows.stops first _ _ _)
  | cons name nullable type more =>
      simp only [Fields.clean, Bool.and_eq_true] at clean
      cases other with
      | nil =>
          rw [fieldTokens_cons] at same
          exact absurd same.symm (bracket_ne_separated clean.1.1 follows'.stops first _ _ _)
      | cons name' nullable' type' more' =>
          simp only [Fields.clean, Bool.and_eq_true] at clean'
          rw [fieldTokens_cons, fieldTokens_cons] at same
          have children := List.append_cancel_left same
          have next := follows_fields clean.2 rest
          have next' := follows_fields clean'.2 rest'
          rcases anonChild_unique clean.1.1 clean'.1.1
            (startsToken_typeToken type next.stops (by simp))
            (startsToken_typeToken type' next'.stops (by simp)) children with ⟨rfl, rfl, tokens⟩
          rcases typeToken_unique type clean.1.2 clean'.1.2 next next' tokens with ⟨types, tails⟩
          rcases fieldTokens_unique more false clean.2 clean'.2 follows follows' tails with
            ⟨rests, rfl⟩
          refine ⟨?_, rfl⟩
          simp only [Fields.normal, types, rests]

/-- The same for the children of a union. -/
theorem memberTokens_unique (members : Members) : ∀ (first : Bool) {other : Members}
    {rest rest' : Bytes}, members.clean = true → other.clean = true → Follows rest →
      Follows rest' → memberTokens first members ++ 0x3e :: rest =
        memberTokens first other ++ 0x3e :: rest' →
          members.normal = other.normal ∧ rest = rest' := by
  intro first other rest rest' clean clean' follows follows' same
  cases members with
  | nil =>
      cases other with
      | nil => exact ⟨rfl, (List.cons.inj same).2⟩
      | cons typeCode' name' nullable' type' more' =>
          rw [memberTokens_cons] at same
          exact absurd same (bracket_ne_number first _ _ _)
  | cons typeCode name nullable type more =>
      simp only [Members.clean, Bool.and_eq_true] at clean
      cases other with
      | nil =>
          rw [memberTokens_cons] at same
          exact absurd same.symm (bracket_ne_number first _ _ _)
      | cons typeCode' name' nullable' type' more' =>
          simp only [Members.clean, Bool.and_eq_true] at clean'
          rw [memberTokens_cons, memberTokens_cons] at same
          rcases number_unique (by decide) (List.append_cancel_left same) with ⟨rfl, children⟩
          have next := follows_members more rest
          have next' := follows_members more' rest'
          rcases anonChild_unique clean.1.1 clean'.1.1
            (startsToken_typeToken type next.stops (by simp))
            (startsToken_typeToken type' next'.stops (by simp)) children with ⟨rfl, rfl, tokens⟩
          rcases typeToken_unique type clean.1.2 clean'.1.2 next next' tokens with ⟨types, tails⟩
          rcases memberTokens_unique more false clean.2 clean'.2 follows follows' tails with
            ⟨rests, rfl⟩
          refine ⟨?_, rfl⟩
          simp only [Members.normal, types, rests]

end

end VgiRpc.Protocol
