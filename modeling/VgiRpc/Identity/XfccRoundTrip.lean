import Mathlib.Data.List.DropRight
import VgiRpc.Identity.XfccSplit

/-!
# Rendering and parsing an XFCC element

`parse_xfcc` reads a rendered list of fields back exactly if the second run of
the splitter copies every value, that is if every value that is not
percent-encoded is inert.
-/

namespace VgiRpc.Identity

open VgiRpc.Cpp

/-! ## Reading one field -/

theorem rdropWhile_append_cons (front : Bytes) {last : UInt8} (visible : isSpace last = false)
    (rest : Bytes) :
    (front ++ last :: rest).rdropWhile isSpace = front ++ last :: rest.rdropWhile isSpace := by
  induction rest using List.reverseRecOn with
  | nil =>
      rw [List.rdropWhile_concat_neg _ _ _ (by simp [visible]), List.rdropWhile_nil]
  | append_singleton rest byte ih =>
      have shape : front ++ last :: (rest ++ [byte]) = (front ++ last :: rest) ++ [byte] := by
        simp
      rw [shape, List.rdropWhile_concat, List.rdropWhile_concat, ih]
      split
      next => rfl
      next => simp

theorem trimAscii_cons {first : UInt8} (visible : isSpace first = false) (rest : Bytes) :
    trimAscii (first :: rest) = first :: rest.rdropWhile isSpace := by
  rw [trimAscii, List.dropWhile_cons_of_neg (by simp [visible])]
  exact rdropWhile_append_cons [] visible rest

/-- The text of a key starts with a letter and holds neither space nor `=`. -/
theorem XfccKey.exists_text_cons (key : XfccKey) :
    ∃ first rest, key.text = first :: rest ∧ isSpace first = false := by
  cases key <;> exact ⟨_, _, rfl, rfl⟩

theorem XfccKey.text_plain (key : XfccKey) :
    ∀ byte ∈ key.text, (byte != equals) = true ∧ isSpace byte = false := by
  have plain : (key.text.all fun byte => byte != equals && !isSpace byte) = true := by
    cases key <;> rfl
  intro byte member
  have here := List.all_eq_true.mp plain byte member
  rwa [Bool.and_eq_true, Bool.not_eq_true'] at here

theorem xfccKey_text (key : XfccKey) : xfccKey key.text = .ok key := by
  cases key <;> rfl

theorem trimAscii_text (key : XfccKey) : trimAscii key.text = key.text := by
  cases key <;> rfl

/-- Store a parsed value, as the end of one turn of the parser does. -/
def storeField (fields : XfccFields) (key : XfccKey) (value : Bytes) :
    Except String XfccFields := do
  let value ← if key.percentEncoded then percentDecode value false else pure value
  if !key.repeatable && fields key != [] then
    throw "duplicate XFCC singleton"
  return fields.push key value

/-- A part that starts like a quoted field is read under its key. -/
theorem parseXfccField_opening (fields : XfccFields) (key : XfccKey) (body : Bytes) :
    parseXfccField fields (key.text ++ equals :: quote :: body) =
      (unquoteXfcc (quote :: body.rdropWhile isSpace)).bind (storeField fields key) := by
  have trimmed : trimAscii (key.text ++ equals :: quote :: body) =
      key.text ++ equals :: quote :: body.rdropWhile isSpace := by
    rcases key.exists_text_cons with ⟨first, rest, shape, visible⟩
    rw [shape, List.cons_append, trimAscii_cons visible]
    have visibleQuote : isSpace quote = false := rfl
    have inner := rdropWhile_append_cons (rest ++ [equals]) visibleQuote body
    simp only [List.append_assoc, List.singleton_append] at inner
    rw [inner]
    rfl
  have name : (key.text ++ equals :: quote :: body.rdropWhile isSpace).takeWhile (· != equals) =
      key.text := by
    rw [List.takeWhile_append_of_pos fun byte member => (key.text_plain byte member).1]
    simp
  have value : (key.text ++ equals :: quote :: body.rdropWhile isSpace).dropWhile (· != equals) =
      equals :: quote :: body.rdropWhile isSpace := by
    rw [List.dropWhile_append_of_pos fun byte member => (key.text_plain byte member).1]
    simp
  have quotedTrim : trimAscii (quote :: body.rdropWhile isSpace) =
      quote :: body.rdropWhile isSpace := by
    rw [trimAscii_cons rfl, List.rdropWhile_idempotent]
  simp only [parseXfccField, trimmed, name, value, trimAscii_text, xfccKey_text, quotedTrim]
  rfl

theorem getLast?_cons_concat (first last : UInt8) (middle : Bytes) :
    (first :: (middle ++ [last])).getLast? = some last := by
  rw [← List.cons_append, List.getLast?_concat]

theorem unquoteXfcc_quoted (value : Bytes) :
    unquoteXfcc (quote :: (value ++ [quote])) = .ok value := by
  simp [unquoteXfcc, getLast?_cons_concat]

/-- Taking the quotes off succeeds only on a value between quotes. -/
theorem eq_of_unquoteXfcc {body value : Bytes}
    (unquoted : unquoteXfcc (quote :: body) = .ok value) : body = value ++ [quote] := by
  rw [unquoteXfcc, if_pos (by simp)] at unquoted
  split at unquoted
  next => simp at unquoted
  next closed =>
    simp only [not_or, not_lt, not_not] at closed
    rcases closed with ⟨long, -, last⟩
    rcases List.eq_nil_or_concat body with rfl | ⟨front, byte, rfl⟩
    · simp at long
    · have lastByte : byte = quote := by simpa [getLast?_cons_concat] using last
      simp at unquoted
      rw [← unquoted, lastByte]
      simp

/-- A quoted field whose value is in place is stored. -/
theorem parseXfccField_quotedField (fields : XfccFields) (key : XfccKey) (value : Bytes) :
    parseXfccField fields (quotedField key value) = storeField fields key value := by
  have visible : isSpace quote = false := rfl
  have kept := rdropWhile_append_cons value visible []
  rw [List.rdropWhile_nil] at kept
  rw [quotedField, parseXfccField_opening, kept, unquoteXfcc_quoted]
  rfl

/-! ## Percent-encoded values -/

theorem hexDigits_byte (byte : UInt8) :
    hexValue (hexDigit (byte >>> 4)) = some (byte >>> 4) ∧
      hexValue (hexDigit (byte &&& 0x0f)) = some (byte &&& 0x0f) ∧
      (byte >>> 4) <<< 4 ||| (byte &&& 0x0f) = byte := by
  have every := forall_byte (fun byte =>
    decide (hexValue (hexDigit (byte >>> 4)) = some (byte >>> 4) ∧
      hexValue (hexDigit (byte &&& 0x0f)) = some (byte &&& 0x0f) ∧
      (byte >>> 4) <<< 4 ||| (byte &&& 0x0f) = byte)) (by decide) byte
  exact of_decide_eq_true every

theorem hexDigit_safe (byte : UInt8) :
    (isUriByte (hexDigit (byte >>> 4)) = true) ∧ isUriByte (hexDigit (byte &&& 0x0f)) = true := by
  have every := forall_byte (fun byte => decide (isUriByte (hexDigit (byte >>> 4)) = true ∧
    isUriByte (hexDigit (byte &&& 0x0f)) = true)) (by decide) byte
  exact of_decide_eq_true every

theorem isUriByte_safe {byte : UInt8} (uriByte : isUriByte byte = true) :
    byte ≠ percent ∧ byte ≠ quote ∧ byte ≠ backslash ∧ isPrintable byte = true := by
  have every := forall_byte (fun byte => !isUriByte byte || decide (byte ≠ percent ∧
    byte ≠ quote ∧ byte ≠ backslash ∧ isPrintable byte = true)) (by decide) byte
  simpa [uriByte] using every

theorem isPrintable_range {byte : UInt8} (printable : isPrintable byte = true) :
    byte < 0x80 ∧ ¬byte < 0x20 ∧ byte ≠ 0x7f ∧ ¬0x7f < byte := by
  have every := forall_byte (fun byte => !isPrintable byte || decide (byte < 0x80 ∧
    ¬byte < 0x20 ∧ byte ≠ 0x7f ∧ ¬0x7f < byte)) (by decide) byte
  rw [printable, Bool.not_true, Bool.false_or] at every
  exact of_decide_eq_true every

theorem checkDecoded_of_isPrintable {byte : UInt8} (printable : isPrintable byte = true) :
    checkDecoded false byte = .ok () := by
  rcases isPrintable_range printable with ⟨-, visible, notDelete, -⟩
  simp [checkDecoded, visible, notDelete]

/-- Percent-decoding a printable byte that is not `%`. -/
theorem percentDecodeBytes_plain {byte : UInt8} (notPercent : byte ≠ percent)
    (printable : isPrintable byte = true) (rest : Bytes) :
    percentDecodeBytes false (byte :: rest) =
      (percentDecodeBytes false rest).map (byte :: ·) := by
  generalize tail : percentDecodeBytes false rest = result
  unfold percentDecodeBytes
  rw [if_neg notPercent, checkDecoded_of_isPrintable printable, tail]
  cases result with
  | error _ => rfl
  | ok _ => rfl

/-- Percent-decoding an escaped printable byte. -/
theorem percentDecodeBytes_escape {byte : UInt8} (printable : isPrintable byte = true)
    (rest : Bytes) :
    percentDecodeBytes false
        (percent :: hexDigit (byte >>> 4) :: hexDigit (byte &&& 0x0f) :: rest) =
      (percentDecodeBytes false rest).map (byte :: ·) := by
  rcases hexDigits_byte byte with ⟨high, low, whole⟩
  rw [percentDecodeBytes, if_pos rfl]
  simp only [high, low, whole, checkDecoded_of_isPrintable printable]
  cases percentDecodeBytes false rest with
  | error _ => rfl
  | ok _ => rfl

section Encoding

variable {keep : UInt8 → Bool} (uriBytes : ∀ byte, keep byte = true → isUriByte byte = true)

include uriBytes

/-- Decoding undoes the encoding of a printable value. -/
theorem percentDecodeBytes_percentEncode {value : Bytes}
    (printable : ∀ byte ∈ value, isPrintable byte = true) :
    percentDecodeBytes false (percentEncode keep value) = .ok value := by
  induction value with
  | nil => rfl
  | cons byte value ih =>
      rw [List.forall_mem_cons] at printable
      have encoded : percentEncode keep (byte :: value) =
          (if keep byte then [byte]
            else [percent, hexDigit (byte >>> 4), hexDigit (byte &&& 0x0f)]) ++
            percentEncode keep value := rfl
      rw [encoded]
      split
      next kept =>
        have safe := isUriByte_safe (uriBytes byte kept)
        rw [List.singleton_append, percentDecodeBytes_plain safe.1 printable.1, ih printable.2]
        rfl
      next =>
        simp only [List.cons_append, List.nil_append]
        rw [percentDecodeBytes_escape printable.1, ih printable.2]
        rfl

theorem percentDecode_percentEncode {value : Bytes}
    (printable : ∀ byte ∈ value, isPrintable byte = true) :
    percentDecode (percentEncode keep value) false = .ok value := by
  have utf8 : validUtf8 value = true :=
    validUtf8_of_ascii fun byte member => (isPrintable_range (printable byte member)).1
  rw [percentDecode, percentDecodeBytes_percentEncode uriBytes printable]
  simp only [bind, Except.bind, utf8, if_true]
  rfl

/-- An encoded value holds URI bytes and `%` only. -/
theorem mem_percentEncode {value : Bytes} {byte : UInt8} (member : byte ∈ percentEncode keep value) :
    byte ≠ quote ∧ byte ≠ backslash ∧ isPrintable byte = true := by
  rw [percentEncode, List.mem_flatMap] at member
  rcases member with ⟨source, -, member⟩
  split at member
  next kept =>
    rw [List.mem_singleton] at member
    rw [member]
    exact (isUriByte_safe (uriBytes source kept)).2
  next =>
    have digits := hexDigit_safe source
    simp only [List.mem_cons, List.not_mem_nil, or_false] at member
    rcases member with rfl | rfl | rfl
    · decide
    · exact (isUriByte_safe digits.1).2
    · exact (isUriByte_safe digits.2).2

end Encoding

/-- A text without `"` and `\` passes inside the quotes. -/
theorem passes_of_plain {value : Bytes}
    (plain : ∀ byte ∈ value, byte ≠ quote ∧ byte ≠ backslash) :
    passes semicolon true value = some true := by
  induction value with
  | nil => rfl
  | cons byte value ih =>
      rw [List.forall_mem_cons] at plain
      rw [passes, if_neg (by simp [plain.1.2]), if_neg (by simp [plain.1.1]), if_neg (by simp)]
      exact ih plain.2

/-! ## Reading all fields -/

/-- A value in wire form is stored as the value it came from. -/
theorem storeField_wireValue {keep : UInt8 → Bool}
    (uriBytes : ∀ byte, keep byte = true → isUriByte byte = true) {fields : XfccFields}
    {pair : XfccKey × Bytes} (printable : ∀ byte ∈ pair.2, isPrintable byte = true)
    (fresh : pair.1.repeatable = false → fields pair.1 = []) :
    storeField fields pair.1 (wireValue keep pair) = .ok (fields.push pair.1 pair.2) := by
  have noDuplicate : (!pair.1.repeatable && fields pair.1 != []) = false := by
    cases again : pair.1.repeatable with
    | false => simp [fresh again]
    | true => rfl
  rw [storeField, wireValue, noDuplicate]
  cases encoded : pair.1.percentEncoded with
  | false => rfl
  | true =>
      simp only [if_true]
      rw [percentDecode_percentEncode uriBytes printable]
      rfl

theorem push_append_fieldsOf (fields : XfccFields) (pair : XfccKey × Bytes)
    (pairs : List (XfccKey × Bytes)) (key : XfccKey) :
    fields.push pair.1 pair.2 key ++ fieldsOf pairs key =
      fields key ++ fieldsOf (pair :: pairs) key := by
  by_cases same : pair.1 = key
  · rw [← same]
    simp [XfccFields.push, fieldsOf]
  · simp [XfccFields.push, fieldsOf, same, Function.update_of_ne (Ne.symm same)]

/-- Every key that must not repeat has at most one value, counting the values
read so far. -/
def SingletonsOnce (fields : XfccFields) (pairs : List (XfccKey × Bytes)) : Prop :=
  ∀ key : XfccKey, key.repeatable = false → (fields key ++ fieldsOf pairs key).length ≤ 1

theorem SingletonsOnce.fresh {fields : XfccFields} {pair : XfccKey × Bytes}
    {pairs : List (XfccKey × Bytes)} (once : SingletonsOnce fields (pair :: pairs))
    (single : pair.1.repeatable = false) : fields pair.1 = [] := by
  have bound := once pair.1 single
  simp [fieldsOf] at bound
  exact List.eq_nil_of_length_eq_zero (by omega)

theorem SingletonsOnce.push {fields : XfccFields} {pair : XfccKey × Bytes}
    {pairs : List (XfccKey × Bytes)} (once : SingletonsOnce fields (pair :: pairs)) :
    SingletonsOnce (fields.push pair.1 pair.2) pairs := by
  intro key single
  rw [push_append_fieldsOf]
  exact once key single

/-- Reading the fields of a list of pairs appends their values. -/
theorem foldlM_quotedField {keep : UInt8 → Bool}
    (uriBytes : ∀ byte, keep byte = true → isUriByte byte = true)
    {pairs : List (XfccKey × Bytes)} {fields : XfccFields}
    (printable : ∀ pair ∈ pairs, ∀ byte ∈ pair.2, isPrintable byte = true)
    (once : SingletonsOnce fields pairs) :
    (pairs.map fun pair => quotedField pair.1 (wireValue keep pair)).foldlM
        parseXfccField fields =
      .ok fun key => fields key ++ fieldsOf pairs key := by
  induction pairs generalizing fields with
  | nil => simp [fieldsOf, pure, Except.pure]
  | cons pair pairs ih =>
      rw [List.forall_mem_cons] at printable
      rw [List.map_cons, List.foldlM_cons, parseXfccField_quotedField,
        storeField_wireValue uriBytes printable.1 once.fresh]
      simp only [bind, Except.bind]
      rw [ih printable.2 once.push]
      simp only [push_append_fieldsOf]

/-! ## The header as a whole -/

/-- What follows the first of several joined fields. -/
def separated : List Bytes → Bytes
  | [] => []
  | fields => semicolon :: joinFields fields

theorem joinFields_cons (field : Bytes) (fields : List Bytes) :
    joinFields (field :: fields) = field ++ separated fields := by
  cases fields with
  | nil => simp [joinFields, separated]
  | cons next fields => rfl

theorem separated_cases (fields : List Bytes) :
    separated fields = [] ∨ ∃ others, separated fields = semicolon :: others := by
  cases fields with
  | nil => exact .inl rfl
  | cons next fields => exact .inr ⟨_, rfl⟩

theorem mem_joinFields {byte : UInt8} {fields : List Bytes} (member : byte ∈ joinFields fields) :
    byte = semicolon ∨ ∃ field ∈ fields, byte ∈ field := by
  induction fields with
  | nil => simp [joinFields] at member
  | cons field fields ih =>
      rw [joinFields_cons, List.mem_append] at member
      rcases member with here | later
      · exact .inr ⟨field, List.mem_cons_self, here⟩
      · cases fields with
        | nil => simp [separated] at later
        | cons next fields =>
            rcases List.mem_cons.mp later with rfl | later
            · exact .inl rfl
            · rcases ih later with rfl | ⟨found, foundMem, inside⟩
              · exact .inl rfl
              · exact .inr ⟨found, List.mem_cons_of_mem _ foundMem, inside⟩

/-- The fields in the element that the run over commas finds. -/
def bareFields (keep : UInt8 → Bool) (pairs : List (XfccKey × Bytes)) : List Bytes :=
  pairs.map fun pair => quotedField pair.1 (wireValue keep pair)

theorem splitXfcc_renderXfcc (keep : UInt8 → Bool) (pairs : List (XfccKey × Bytes)) :
    splitXfcc (renderXfcc keep pairs) comma = .ok [joinFields (bareFields keep pairs)] := by
  have run := scan_comma_joinFields (pairs.map fun pair => (pair.1, wireValue keep pair))
  simp only [List.map_map] at run
  rw [splitXfcc_eq_scan, renderXfcc, bareFields]
  exact congrArg (Except.map fun result => result.1 :: result.2) run

/-- Fields that pass are cut at the separators between them. -/
theorem scan_joinFields {field : Bytes} {fields : List Bytes}
    (pass : ∀ part ∈ field :: fields, passes semicolon false part = some false) :
    scan semicolon false false (joinFields (field :: fields)) = .ok (field, fields) := by
  induction fields generalizing field with
  | nil => exact scan_semicolon_last (pass field List.mem_cons_self)
  | cons next fields ih =>
      rw [List.forall_mem_cons] at pass
      rw [joinFields_cons, separated, scan_semicolon_of_passes pass.1, ih pass.2]
      · rfl
      · simp

section Header

variable {keep : UInt8 → Bool} (uriBytes : ∀ byte, keep byte = true → isUriByte byte = true)

include uriBytes

theorem renderXfcc_printable {pairs : List (XfccKey × Bytes)}
    (printable : ∀ pair ∈ pairs, ∀ byte ∈ pair.2, isPrintable byte = true) :
    ∀ byte ∈ renderXfcc keep pairs, isPrintable byte = true := by
  intro byte member
  rcases mem_joinFields member with rfl | ⟨field, fieldMem, inside⟩
  · rfl
  · rcases List.mem_map.mp fieldMem with ⟨pair, pairMem, rfl⟩
    have keyPrintable : ∀ byte ∈ pair.1.text, isPrintable byte = true := by
      rw [← List.all_eq_true]
      cases pair.1 <;> rfl
    have wirePrintable : ∀ byte ∈ wireValue keep pair, isPrintable byte = true := by
      intro byte wireMem
      rw [wireValue] at wireMem
      split at wireMem
      next => exact (mem_percentEncode uriBytes wireMem).2.2
      next => exact printable pair pairMem byte wireMem
    simp only [quotedField, List.mem_append, List.mem_cons, List.not_mem_nil, or_false] at inside
    rcases inside with inKey | rfl | rfl | escaped | rfl
    · exact keyPrintable byte inKey
    · rfl
    · rfl
    · rcases List.mem_flatMap.mp escaped with ⟨source, sourceMem, written⟩
      split at written
      next =>
        simp only [List.mem_cons, List.not_mem_nil, or_false] at written
        rcases written with rfl | rfl
        · rfl
        · exact wirePrintable byte sourceMem
      next =>
        rw [List.mem_singleton] at written
        rw [written]
        exact wirePrintable source sourceMem
    · rfl

/-- On a rendered header that fits, the parser goes on to the second run. -/
theorem parseXfcc_renderXfcc {pairs : List (XfccKey × Bytes)} {maxBytes : Nat}
    (nonempty : pairs ≠ [])
    (printable : ∀ pair ∈ pairs, ∀ byte ∈ pair.2, isPrintable byte = true)
    (fits : (renderXfcc keep pairs).length ≤ maxBytes) :
    parseXfcc (renderXfcc keep pairs) maxBytes =
      (scan semicolon false false (joinFields (bareFields keep pairs))).bind fun parts =>
        (parts.1 :: parts.2).foldlM parseXfccField fun _ => [] := by
  have range := renderXfcc_printable uriBytes printable
  rcases List.exists_cons_of_ne_nil nonempty with ⟨pair, others, rfl⟩
  rcases pair.1.exists_text_cons with ⟨first, rest, keyText, visible⟩
  have utf8 : validUtf8 (renderXfcc keep (pair :: others)) = true :=
    validUtf8_of_ascii fun byte member => (isPrintable_range (range byte member)).1
  have noControl : hasControl (renderXfcc keep (pair :: others)) = false := by
    rw [hasControl, List.any_eq_false]
    intro byte member
    rcases isPrintable_range (range byte member) with ⟨-, visible, notDelete, -⟩
    simp [visible, notDelete]
  have noHigh : (renderXfcc keep (pair :: others)).any (fun c => decide (0x7f < c)) = false := by
    rw [List.any_eq_false]
    intro byte member
    simp [(isPrintable_range (range byte member)).2.2.2]
  have started : renderXfcc keep (pair :: others) ≠ [] := by
    rw [renderXfcc, List.map_cons, joinFields_cons, quotedField, keyText]
    simp
  have element : trimAscii (joinFields (bareFields keep (pair :: others))) ≠ [] := by
    rw [bareFields, List.map_cons, joinFields_cons, quotedField, keyText]
    simp only [List.cons_append]
    rw [trimAscii_cons visible]
    simp
  have admitted : ¬(renderXfcc keep (pair :: others) = [] ∨
      maxBytes < (renderXfcc keep (pair :: others)).length ∨
      validUtf8 (renderXfcc keep (pair :: others)) = false ∨
      hasControl (renderXfcc keep (pair :: others)) = true ∨
      (renderXfcc keep (pair :: others)).any (fun c => decide (0x7f < c)) = true) := by
    simp [started, utf8, noControl, noHigh, fits]
  rw [parseXfcc, if_neg admitted]
  simp only [splitXfcc_renderXfcc, bind, Except.bind, if_neg element]
  rw [splitXfcc_eq_scan]
  cases scan semicolon false false (joinFields (bareFields keep (pair :: others))) with
  | error _ => rfl
  | ok _ => rfl

omit uriBytes in
/-- Storing a value adds it to its key. -/
theorem exists_push_of_storeField {fields after : XfccFields} {key : XfccKey} {value : Bytes}
    (stored : storeField fields key value = .ok after) :
    ∃ decoded, after = fields.push key decoded ∧
      (key.percentEncoded = false → decoded = value) := by
  rw [storeField] at stored
  cases encoded : key.percentEncoded with
  | false =>
      simp only [encoded, Bool.false_eq_true, if_false, bind, Except.bind, pure,
        Except.pure] at stored
      split at stored
      next => simp [throw, throwThe, MonadExceptOf.throw] at stored
      next => exact ⟨value, (Except.ok.inj stored).symm, fun _ => rfl⟩
  | true =>
      simp only [encoded, if_true, bind, Except.bind] at stored
      split at stored
      next => simp at stored
      next decoded _ =>
        split at stored
        next => simp [throw, throwThe, MonadExceptOf.throw] at stored
        next => exact ⟨decoded, (Except.ok.inj stored).symm, by simp⟩

omit uriBytes in
/-- One turn of the parser adds one value to one key. -/
theorem exists_push_of_parseXfccField {fields after : XfccFields} {part : Bytes}
    (parsed : parseXfccField fields part = .ok after) :
    ∃ key value, after = fields.push key value := by
  rw [parseXfccField] at parsed
  simp only [] at parsed
  split at parsed
  next => simp [throw, throwThe, MonadExceptOf.throw] at parsed
  next afterEquals _ =>
    cases keyResult : xfccKey
        (trimAscii ((trimAscii part).takeWhile (· != equals))) with
    | error _ => simp [keyResult, bind, Except.bind] at parsed
    | ok key =>
        cases valueResult : unquoteXfcc (trimAscii afterEquals) with
        | error _ => simp [keyResult, valueResult, bind, Except.bind] at parsed
        | ok value =>
            simp only [keyResult, valueResult] at parsed
            rcases exists_push_of_storeField parsed with ⟨decoded, pushed, -⟩
            exact ⟨key, decoded, pushed⟩

omit uriBytes in
theorem prefix_push (fields : XfccFields) (key other : XfccKey) (value : Bytes) :
    fields other <+: fields.push key value other := by
  by_cases same : other = key
  · rw [same]
    simp [XfccFields.push]
  · simp [XfccFields.push, Function.update_of_ne same]

omit uriBytes in
/-- Reading further parts keeps the values read so far, in order. -/
theorem prefix_of_foldlM {parts : List Bytes} {fields after : XfccFields}
    (parsed : parts.foldlM parseXfccField fields = .ok after) (key : XfccKey) :
    fields key <+: after key := by
  induction parts generalizing fields with
  | nil =>
      rw [List.foldlM_nil] at parsed
      rw [Except.ok.inj parsed]
  | cons part parts ih =>
      rw [List.foldlM_cons] at parsed
      cases turn : parseXfccField fields part with
      | error _ => simp [turn, bind, Except.bind] at parsed
      | ok next =>
          simp only [turn, bind, Except.bind] at parsed
          rcases exists_push_of_parseXfccField turn with ⟨written, value, pushed⟩
          have step := prefix_push fields written key value
          rw [← pushed] at step
          exact step.trans (ih parsed)

/-- If the first part of the second run is read as the first pair, its value
passed. -/
theorem passes_of_first {pair : XfccKey × Bytes} {pairs : List (XfccKey × Bytes)}
    {fields : XfccFields} {part : Bytes} {later : List Bytes}
    (run : scan semicolon false false (joinFields (bareFields keep (pair :: pairs))) =
      .ok (part, later))
    (parsed : (part :: later).foldlM parseXfccField fields =
      .ok fun key => fields key ++ fieldsOf (pair :: pairs) key) :
    passes semicolon true (wireValue keep pair) = some true := by
  cases encoded : pair.1.percentEncoded with
  | true =>
      apply passes_of_plain
      intro byte member
      rw [wireValue, if_pos encoded] at member
      have safe := mem_percentEncode uriBytes member
      exact ⟨safe.1, safe.2.1⟩
  | false =>
      have wire : wireValue keep pair = pair.2 := by simp [wireValue, encoded]
      rw [bareFields, List.map_cons, joinFields_cons, wire, quotedField_eq,
        scan_append_of_passes (passes_opening pair.1 semicolon (.inr rfl))] at run
      rw [List.singleton_append] at run
      cases inner : scan semicolon true false (pair.2 ++ quote :: separated
          (pairs.map fun pair => quotedField pair.1 (wireValue keep pair))) with
      | error _ => simp [inner, Except.map] at run
      | ok parts =>
          rcases parts with ⟨body, others⟩
          simp only [inner, Except.map, copied, Except.ok.injEq, Prod.mk.injEq] at run
          rcases run with ⟨rfl, rfl⟩
          rw [List.foldlM_cons, List.append_assoc, List.cons_append, List.singleton_append,
            parseXfccField_opening] at parsed
          cases unquoted : unquoteXfcc (quote :: body.rdropWhile isSpace) with
          | error _ => simp [unquoted, bind, Except.bind] at parsed
          | ok value =>
              cases stored : storeField fields pair.1 value with
              | error _ => simp [unquoted, stored, bind, Except.bind] at parsed
              | ok next =>
                  simp only [unquoted, stored, bind, Except.bind] at parsed
                  rcases exists_push_of_storeField stored with ⟨decoded, rfl, same⟩
                  have kept := prefix_of_foldlM parsed pair.1
                  have valueEq : pair.2 = value := by
                    rw [same encoded, XfccFields.push, Function.update_self,
                      List.prefix_append_right_inj] at kept
                    rcases kept with ⟨_, shape⟩
                    simp only [fieldsOf, List.filter_cons, decide_true, if_true, List.map_cons,
                      List.singleton_append, List.cons.injEq] at shape
                    exact shape.1.symm
                  have bodyEq := eq_of_unquoteXfcc unquoted
                  have whole : body.rdropWhile isSpace ++ body.rtakeWhile isSpace = body :=
                    List.rdropWhile_append_rtakeWhile
                  rw [bodyEq, List.append_assoc, List.singleton_append, ← valueEq] at whole
                  rw [← whole] at inner
                  rw [wire]
                  exact passes_of_scan (fun byte member => List.mem_rtakeWhile_imp member)
                    (separated_cases _) inner

/-- If the second run is read as the pairs, every value passed. -/
theorem passes_of_parsed {pairs : List (XfccKey × Bytes)} {fields : XfccFields} {part : Bytes}
    {later : List Bytes}
    (printable : ∀ pair ∈ pairs, ∀ byte ∈ pair.2, isPrintable byte = true)
    (once : SingletonsOnce fields pairs)
    (run : scan semicolon false false (joinFields (bareFields keep pairs)) = .ok (part, later))
    (parsed : (part :: later).foldlM parseXfccField fields =
      .ok fun key => fields key ++ fieldsOf pairs key) :
    ∀ pair ∈ pairs, passes semicolon true (wireValue keep pair) = some true := by
  induction pairs generalizing fields part later with
  | nil => simp
  | cons pair pairs ih =>
      have pass := passes_of_first uriBytes run parsed
      rw [List.forall_mem_cons] at printable ⊢
      refine ⟨pass, ?_⟩
      cases pairs with
      | nil => simp
      | cons next pairs =>
          have field := passes_quotedField pair.1 pass
          have shape : joinFields (bareFields keep (pair :: next :: pairs)) =
              quotedField pair.1 (wireValue keep pair) ++
                semicolon :: joinFields (bareFields keep (next :: pairs)) := rfl
          rw [shape, scan_semicolon_of_passes field] at run
          cases inner : scan semicolon false false
              (joinFields (bareFields keep (next :: pairs))) with
          | error _ => simp [inner, Except.map] at run
          | ok parts =>
              simp only [inner, Except.map, Except.ok.injEq, Prod.mk.injEq] at run
              rcases run with ⟨rfl, rfl⟩
              rw [List.foldlM_cons, parseXfccField_quotedField,
                storeField_wireValue uriBytes printable.1 once.fresh] at parsed
              have shifted := push_append_fieldsOf fields pair (next :: pairs)
              simp only [bind, Except.bind, ← shifted] at parsed
              exact ih printable.2 once.push inner parsed

end Header

/-! ## Faithful parsing -/

/-- A value passes in its wire form if its key is percent-encoded or if it is
inert. -/
theorem passes_wireValue_iff {keep : UInt8 → Bool}
    (uriBytes : ∀ byte, keep byte = true → isUriByte byte = true) (pair : XfccKey × Bytes) :
    passes semicolon true (wireValue keep pair) = some true ↔
      (pair.1.percentEncoded = false → Inert pair.2) := by
  rw [wireValue]
  split
  next encoded =>
    have pass : passes semicolon true (percentEncode keep pair.2) = some true := by
      apply passes_of_plain
      intro byte member
      have safe := mem_percentEncode uriBytes member
      exact ⟨safe.1, safe.2.1⟩
    simp [pass, encoded]
  next raw => simp [inert_iff_passes, raw]

/-- The parser reads back exactly the pairs if and only if every value that is
not percent-encoded is inert. -/
theorem parseXfcc_eq_fieldsOf_iff {keep : UInt8 → Bool}
    (uriBytes : ∀ byte, keep byte = true → isUriByte byte = true)
    {pairs : List (XfccKey × Bytes)} {maxBytes : Nat} (nonempty : pairs ≠ [])
    (printable : ∀ pair ∈ pairs, ∀ byte ∈ pair.2, isPrintable byte = true)
    (once : SingletonsOnce (fun _ => []) pairs)
    (fits : (renderXfcc keep pairs).length ≤ maxBytes) :
    parseXfcc (renderXfcc keep pairs) maxBytes = .ok (fieldsOf pairs) ↔
      ∀ pair ∈ pairs, pair.1.percentEncoded = false → Inert pair.2 := by
  simp only [← passes_wireValue_iff uriBytes]
  rw [parseXfcc_renderXfcc uriBytes nonempty printable fits]
  constructor
  · intro parsed
    cases run : scan semicolon false false (joinFields (bareFields keep pairs)) with
    | error _ => simp [run, Except.bind] at parsed
    | ok parts =>
        rw [run] at parsed
        exact passes_of_parsed uriBytes printable once run parsed
  · intro pass
    have read := foldlM_quotedField uriBytes printable once
    have everyField : ∀ field ∈ bareFields keep pairs,
        passes semicolon false field = some false := by
      intro field member
      rcases List.mem_map.mp member with ⟨pair, pairMem, rfl⟩
      exact passes_quotedField pair.1 (pass pair pairMem)
    cases shape : bareFields keep pairs with
    | nil => exact absurd (List.map_eq_nil_iff.mp shape) nonempty
    | cons field fields =>
        rw [bareFields] at shape
        rw [bareFields, shape] at everyField
        rw [shape] at read
        rw [scan_joinFields everyField]
        exact read

/-! ## The workload identity -/

/-- The fields that a workload identity is made of. -/
def WorkloadIdentity.MadeOf (identity : WorkloadIdentity) (fields : XfccFields) : Prop :=
  fields .uri = [identity.subjectKey] ∧
    (∃ hash, fields .hash = [hash] ∧ identity.certificateSha256 = lowerAscii hash) ∧
    identity.proxyIdentities.getD [] = fields .by

theorem EnvoyProvider.madeOf_of_identify {provider : EnvoyProvider}
    {context : PeerResolutionContext} {raw : Bytes} {fields : XfccFields}
    {identity : WorkloadIdentity} (parsed : parseXfcc raw provider.maxBytes = .ok fields)
    (identified : provider.identify context raw = .ok identity) : identity.MadeOf fields := by
  simp only [EnvoyProvider.identify, parsed, EnvoyProvider.caught, Except.mapError, bind,
    Except.bind] at identified
  split at identified
  next uri hash uriEq hashEq =>
    split at identified
    next => simp [throw, throwThe, MonadExceptOf.throw] at identified
    next =>
      simp only [pure, Except.pure] at identified
      split at identified
      next => simp at identified
      next =>
        -- First whether the element names proxies, then the limits on attributes.
        split at identified
        next absent =>
          split at identified
          next =>
            rw [← Except.ok.inj identified]
            exact ⟨uriEq, ⟨hash, hashEq, rfl⟩, absent.symm⟩
          next => simp [throw, throwThe, MonadExceptOf.throw] at identified
        next =>
          split at identified
          next =>
            rw [← Except.ok.inj identified]
            exact ⟨uriEq, ⟨hash, hashEq, rfl⟩, rfl⟩
          next => simp at identified
  next => simp [throw, throwThe, MonadExceptOf.throw] at identified

theorem EnvoyProvider.identify_of_resolve {provider : EnvoyProvider}
    {context : PeerResolutionContext} {raw : Bytes} {identity : WorkloadIdentity}
    (found : context.header provider.header = .ok (some raw))
    (resolved : provider.resolve context = .ok identity) :
    provider.identify context raw = .ok identity := by
  simp only [EnvoyProvider.resolve, found, EnvoyProvider.caught, Except.mapError, bind,
    Except.bind] at resolved
  split at resolved
  next => simp [throw, throwThe, MonadExceptOf.throw] at resolved
  next =>
    split at resolved
    next => simp [throw, throwThe, MonadExceptOf.throw] at resolved
    next => exact resolved

/-- Parsing a rendered element is faithful exactly if every value that is not
percent-encoded is inert; then a workload identity has the URI, the hash and the
proxies that were rendered. -/
theorem parseXfcc_faithful_iff_inert {keep : UInt8 → Bool}
    (uriBytes : ∀ byte, keep byte = true → isUriByte byte = true)
    {pairs : List (XfccKey × Bytes)} {maxBytes : Nat} (nonempty : pairs ≠ [])
    (printable : ∀ pair ∈ pairs, ∀ byte ∈ pair.2, isPrintable byte = true)
    (once : ∀ key : XfccKey, key.repeatable = false → (fieldsOf pairs key).length ≤ 1)
    (fits : (renderXfcc keep pairs).length ≤ maxBytes) :
    (parseXfcc (renderXfcc keep pairs) maxBytes = .ok (fieldsOf pairs) ↔
      ∀ pair ∈ pairs, pair.1.percentEncoded = false → Inert pair.2) ∧
    ((∀ pair ∈ pairs, pair.1.percentEncoded = false → Inert pair.2) →
      ∀ (provider : EnvoyProvider) (context : PeerResolutionContext)
        (identity : WorkloadIdentity), provider.maxBytes = maxBytes →
        context.header provider.header = .ok (some (renderXfcc keep pairs)) →
        provider.resolve context = .ok identity → identity.MadeOf (fieldsOf pairs)) := by
  have faithful := parseXfcc_eq_fieldsOf_iff uriBytes nonempty printable once fits
  refine ⟨faithful, ?_⟩
  intro inert provider context identity sameLimit found resolved
  have parsed := faithful.mpr inert
  rw [← sameLimit] at parsed
  exact EnvoyProvider.madeOf_of_identify parsed
    (EnvoyProvider.identify_of_resolve found resolved)

/-- A subject with a comma and an escaped quote pair around it, and a URI. -/
def samplePairs : List (XfccKey × Bytes) :=
  [(.subject, ascii "CN=\"a,b\",O=x"), (.uri, ascii "spiffe://td/w")]

theorem samplePairs_faithful :
    parseXfcc (renderXfcc isAlnum samplePairs) 16384 = .ok (fieldsOf samplePairs) :=
  (parseXfcc_faithful_iff_inert
    (fun _ alnum => by simp [isUriByte, alnum]) (by decide)
    (by simp only [← List.all_eq_true]; decide)
    (by intro key _; cases key <;> decide) (by decide)).1.mpr (by decide)

/-- A hash and a subject that holds a quote, a semicolon and a URI field. -/
def forgingPairs : List (XfccKey × Bytes) :=
  [(.hash, List.replicate 64 0x61), (.subject, ascii "x\";uri=\"spiffe://td/admin")]

/-- A provider for the trust domain `td` behind a trusted proxy. -/
def sampleProvider : EnvoyProvider :=
  { header := ascii "X-Forwarded-Client-Cert"
    trustDomains := [ascii "td"]
    maxBytes := 16384
    trusts := fun _ => true
    validContext := fun _ => true
    validIdentity := fun _ => true }

/-- The request that carries the rendered header. -/
def forgingContext : PeerResolutionContext :=
  { immediatePeer := some (ascii "127.0.0.1")
    assertedPeer := none
    headers := [(ascii "X-Forwarded-Client-Cert", [renderXfcc isAlnum forgingPairs])] }

/-- No URI was rendered, yet the parser reports one, and the provider makes it
the workload's identity. -/
theorem forgingPairs_forge_identity :
    (renderXfcc isAlnum forgingPairs).length ≤ 16384 ∧
      fieldsOf forgingPairs .uri = [] ∧
      (parseXfcc (renderXfcc isAlnum forgingPairs) 16384).toOption.map (fun fields =>
        (fields .subject, fields .uri)) = some ([ascii "x"], [ascii "spiffe://td/admin"]) ∧
      parseXfcc (renderXfcc isAlnum forgingPairs) 16384 ≠ .ok (fieldsOf forgingPairs) ∧
      (sampleProvider.resolve forgingContext).toOption.map (·.subjectKey) =
        some (ascii "spiffe://td/admin") := by
  have parsed : (parseXfcc (renderXfcc isAlnum forgingPairs) 16384).toOption.map (fun fields =>
      (fields .subject, fields .uri)) = some ([ascii "x"], [ascii "spiffe://td/admin"]) := by
    decide +kernel
  refine ⟨by decide, by decide, parsed, ?_, by decide +kernel⟩
  intro faithful
  rw [faithful] at parsed
  exact absurd parsed (by decide)

end VgiRpc.Identity
