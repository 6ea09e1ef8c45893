import VgiRpc.Evidence.Results
import VgiRpc.Lib.Marks

/-!
# The identity headers of Tailscale Serve

`decode_serve_header`: a header is plain ASCII, or it is written in encoded words whose bodies are
the UTF-8 of the text in the Q encoding.
-/

namespace VgiRpc.Tailscale

open VgiRpc.Cpp VgiRpc.Lib VgiRpc.Identity VgiRpc.Evidence

namespace ServeHeader

/-! ## The code -/

def space : UInt8 := 0x20
def underscore : UInt8 := 0x5f
def question : UInt8 := 0x3f

/-- What an encoded word begins with. -/
def opening : Bytes := ascii "=?"

/-- What an encoded word ends with. -/
def closing : Bytes := ascii "?="

/-- `decode_q_word_body`. -/
def decodeQWordBody : Bytes → Except Thrown Bytes
  | [] => .ok []
  | byte :: rest =>
      if byte = underscore then do return space :: (← decodeQWordBody rest)
      else if byte = equals then
        match rest with
        | high :: low :: rest =>
            match hexValue high, hexValue low with
            | some high, some low => do return (high <<< 4 ||| low) :: (← decodeQWordBody rest)
            | _, _ => .error (.invalidArgument "invalid RFC 2047 Q escape")
        | _ => .error (.invalidArgument "invalid RFC 2047 Q escape")
      else if 0x7f < byte ∨ byte = question then .error (.invalidArgument "invalid RFC 2047 Q body")
      else do return byte :: (← decodeQWordBody rest)

/-- The parts of one encoded word, and the text behind it. -/
def takeWord (text : Bytes) : Option (Bytes × Bytes × Bytes × Bytes) := do
  let (charset, behindCharset) ← cut [question] (text.drop opening.length)
  let (encoding, behindEncoding) ← cut [question] behindCharset
  let (body, rest) ← cut closing behindEncoding
  return (charset, encoding, body, rest)

theorem takeWord_shorter {text charset encoding body rest : Bytes}
    (taken : takeWord text = some (charset, encoding, body, rest)) : rest.length < text.length := by
  simp only [takeWord, Option.bind_eq_bind, Option.bind_eq_some_iff, Prod.exists, Option.pure_def,
    Option.some_inj, Prod.mk.injEq] at taken
  obtain ⟨_, behindCharset, first, _, behindEncoding, second, _, _, third, rfl, rfl, rfl, rfl⟩ := taken
  have lengths := length_of_cut first
  have lengthsSecond := length_of_cut second
  have lengthsThird := length_of_cut third
  rw [List.length_drop] at lengths
  simp only [List.length_singleton] at lengths lengthsSecond
  omega

/-- The loop of `decode_serve_header`, at a word. -/
def decodeWords (text : Bytes) : Except Thrown Bytes :=
  if text.length < 10 ∨ ¬opening <+: text then .error (.invalidArgument "invalid RFC 2047 word")
  else
    match _ : takeWord text with
    | none => .error (.invalidArgument "only strict UTF-8 Q encoding is accepted")
    | some (charset, encoding, body, rest) =>
        if lowerAscii charset ≠ ascii "utf-8" ∨ lowerAscii encoding ≠ ascii "q" then
          .error (.invalidArgument "only strict UTF-8 Q encoding is accepted")
        else do
          let decoded ← decodeQWordBody body
          match rest with
          | [] => return decoded
          | byte :: _ =>
              if byte ≠ space then throw (.invalidArgument "invalid encoded-word spacing")
              else return decoded ++ (← decodeWords (rest.dropWhile (· == space)))
termination_by text.length
decreasing_by
  have shorter := takeWord_shorter ‹_›
  have fewer := (List.dropWhile_suffix (l := rest) (· == space)).length_le
  omega

end ServeHeader

open ServeHeader

/-- `decode_serve_header`. -/
def decodeServeHeader (value : Bytes) (maxBytes : Nat) : Except Thrown Bytes :=
  if maxBytes < value.length ∨ validUtf8 value = false ∨ hasControl value = true ∨
      (value.any fun byte => 0x7f < byte) = true then
    .error (.invalidArgument "invalid or oversized Tailscale Serve header")
  else if ¬opening <+: value then .ok value
  else do
    let decoded ← decodeWords value
    if maxBytes < decoded.length ∨ validUtf8 decoded = false ∨ hasControl decoded = true then
      throw (.invalidArgument "invalid decoded Tailscale Serve header")
    return decoded

namespace ServeHeader

/-! ## The grammar -/

/-- The spellings of a text in the body of an encoded word. -/
inductive Spells : Bytes → Bytes → Prop where
  | nil : Spells [] []
  | blank {text body : Bytes} (more : Spells text body) : Spells (space :: text) (underscore :: body)
  | escaped {text body : Bytes} {high low highValue lowValue : UInt8}
      (first : hexValue high = some highValue) (second : hexValue low = some lowValue)
      (more : Spells text body) :
      Spells ((highValue <<< 4 ||| lowValue) :: text) (equals :: high :: low :: body)
  | plain {text body : Bytes} {byte : UInt8} (ascii : byte ≤ 0x7f)
      (unreserved : byte ∉ [underscore, equals, question]) (more : Spells text body) :
      Spells (byte :: text) (byte :: body)

/-- An encoded word of a text. -/
structure Word (text word : Bytes) : Prop where
  parts : ∃ charset encoding body, word = opening ++ charset ++ [question] ++ encoding ++
    [question] ++ body ++ closing ∧ lowerAscii charset = ascii "utf-8" ∧
    lowerAscii encoding = ascii "q" ∧ Spells text body

/-- Encoded words of a text, with spaces between them. -/
inductive Words : Bytes → Bytes → Prop where
  | single {text word : Bytes} (only : Word text word) : Words text word
  | more {text rest word words : Bytes} {spaces : Nat} (first : Word text word)
      (others : Words rest words) :
      Words (text ++ rest) (word ++ List.replicate (spaces + 1) space ++ words)

/-! ## Bodies -/

theorem decodeQWordBody_of_spells {text body : Bytes} (spelled : Spells text body) :
    decodeQWordBody body = .ok text := by
  induction spelled with
  | nil => rfl
  | blank more inductionHypothesis =>
      unfold decodeQWordBody
      rw [if_pos rfl, inductionHypothesis]
      rfl
  | escaped first second more inductionHypothesis =>
      unfold decodeQWordBody
      rw [if_neg (by decide), if_pos rfl]
      simp only [first, second, inductionHypothesis]
      rfl
  | plain ascii unreserved more inductionHypothesis =>
      simp only [List.mem_cons, List.not_mem_nil, or_false, not_or] at unreserved
      have allowed := not_or.mpr ⟨UInt8.not_lt.mpr ascii, unreserved.2.2⟩
      unfold decodeQWordBody
      rw [if_neg unreserved.1, if_neg unreserved.2.1, if_neg allowed, inductionHypothesis]
      rfl

theorem spells_of_decodeQWordBody {body text : Bytes} (decodes : decodeQWordBody body = .ok text) :
    Spells text body := by
  fun_induction decodeQWordBody body generalizing text with
  | case1 =>
      cases decodes
      exact .nil
  | case2 rest inductionHypothesis =>
      obtain ⟨decoded, behind, same⟩ := bind_eq_ok_iff.mp decodes
      cases same
      exact .blank (inductionHypothesis behind)
  | case3 high low rest highValue lowValue first second notBlank inductionHypothesis =>
      obtain ⟨decoded, behind, same⟩ := bind_eq_ok_iff.mp decodes
      cases same
      exact .escaped second first (inductionHypothesis behind)
  | case7 byte rest notBlank notEscape allowed inductionHypothesis =>
      obtain ⟨decoded, behind, same⟩ := bind_eq_ok_iff.mp decodes
      cases same
      rw [not_or, UInt8.not_lt] at allowed
      refine .plain allowed.1 ?_ (inductionHypothesis behind)
      simp only [List.mem_cons, List.not_mem_nil, or_false, not_or]
      exact ⟨notBlank, notEscape, allowed.2⟩
  | _ => cases decodes

theorem ne_question_of_hexValue {byte value : UInt8} (digit : hexValue byte = some value) :
    byte ≠ question := by
  rintro rfl
  cases digit

/-- The mark of the parts of a word is in no body. -/
theorem Spells.question_not_mem {text body : Bytes} (spelled : Spells text body) : question ∉ body := by
  induction spelled with
  | nil => exact List.not_mem_nil
  | blank more inductionHypothesis =>
      rw [List.mem_cons, not_or]
      exact ⟨by decide, inductionHypothesis⟩
  | escaped first second more inductionHypothesis =>
      simp only [List.mem_cons, not_or]
      exact ⟨by decide, (ne_question_of_hexValue first).symm, (ne_question_of_hexValue second).symm,
        inductionHypothesis⟩
  | plain ascii unreserved more inductionHypothesis =>
      simp only [List.mem_cons, List.not_mem_nil, or_false, not_or] at unreserved ⊢
      exact ⟨fun same => unreserved.2.2 same.symm, inductionHypothesis⟩

/-! ## Words -/

/-- A name that is read without regard to case has no mark in it if the name it is compared with has
none. -/
theorem question_not_mem_of_lowerAscii {name lower : Bytes} (same : lowerAscii name = lower)
    (absent : question ∉ lower) : question ∉ name := by
  intro present
  apply absent
  rw [← same]
  exact List.mem_map.mpr ⟨question, present, rfl⟩

theorem takeWord_append {charset encoding body : Bytes} (charsetAbsent : question ∉ charset)
    (encodingAbsent : question ∉ encoding) (bodyAbsent : question ∉ body) (rest : Bytes) :
    takeWord (opening ++ charset ++ [question] ++ encoding ++ [question] ++ body ++ closing ++ rest) =
      some (charset, encoding, body, rest) := by
  have first : cut [question] (charset ++
      ([question] ++ (encoding ++ ([question] ++ (body ++ (closing ++ rest)))))) =
        some (charset, encoding ++ ([question] ++ (body ++ (closing ++ rest)))) :=
    cut_append_mark charsetAbsent _
  have second : cut [question] (encoding ++ ([question] ++ (body ++ (closing ++ rest)))) =
      some (encoding, body ++ (closing ++ rest)) := cut_append_mark encodingAbsent _
  have third : cut closing (body ++ (closing ++ rest)) = some (body, rest) :=
    cut_append_mark bodyAbsent rest
  simp only [List.append_assoc, takeWord, List.drop_left, first, second, third,
    Option.bind_eq_bind, Option.bind_some, Option.pure_def]

/-- A word is taken off the text that it stands in front of. -/
theorem Word.takeWord {text word : Bytes} (spelled : Word text word) (rest : Bytes) :
    ∃ charset encoding body, takeWord (word ++ rest) = some (charset, encoding, body, rest) ∧
      lowerAscii charset = ascii "utf-8" ∧ lowerAscii encoding = ascii "q" ∧ Spells text body := by
  obtain ⟨charset, encoding, body, rfl, charsetNamed, encodingNamed, spells⟩ := spelled.parts
  exact ⟨charset, encoding, body,
    takeWord_append (question_not_mem_of_lowerAscii charsetNamed (by decide))
      (question_not_mem_of_lowerAscii encodingNamed (by decide)) spells.question_not_mem rest,
    charsetNamed, encodingNamed, spells⟩

theorem Word.opening_prefix {text word : Bytes} (spelled : Word text word) (rest : Bytes) :
    opening <+: word ++ rest := by
  obtain ⟨charset, encoding, body, rfl, -⟩ := spelled.parts
  simp only [List.append_assoc]
  exact List.prefix_append _ _

theorem Word.length_le {text word : Bytes} (spelled : Word text word) : 10 ≤ word.length := by
  obtain ⟨charset, encoding, body, rfl, charsetNamed, encodingNamed, -⟩ := spelled.parts
  have charsetLength := congrArg List.length charsetNamed
  have encodingLength := congrArg List.length encodingNamed
  rw [lowerAscii, List.length_map] at charsetLength encodingLength
  simp only [List.length_append, charsetLength, encodingLength]
  have fixed : opening.length + (ascii "utf-8").length + [question].length + (ascii "q").length +
      [question].length + closing.length = 12 := rfl
  omega

theorem append_of_takeWord {text charset encoding body rest : Bytes} (opens : opening <+: text)
    (taken : ServeHeader.takeWord text = some (charset, encoding, body, rest)) :
    text = opening ++ charset ++ [question] ++ encoding ++ [question] ++ body ++ closing ++ rest := by
  obtain ⟨behind, rfl⟩ := opens
  simp only [ServeHeader.takeWord, Option.bind_eq_bind, Option.bind_eq_some_iff, Prod.exists,
    Option.pure_def, Option.some_inj, Prod.mk.injEq, List.drop_left] at taken
  obtain ⟨_, behindCharset, first, _, behindEncoding, second, _, _, third, rfl, rfl, rfl, rfl⟩ := taken
  rw [append_of_cut first, append_of_cut second, append_of_cut third]
  simp only [List.append_assoc]

theorem Words.opening_prefix {text words : Bytes} (spelled : Words text words) : opening <+: words := by
  cases spelled with
  | single only =>
      have starts := only.opening_prefix []
      rwa [List.append_nil] at starts
  | more first others =>
      rw [List.append_assoc]
      exact first.opening_prefix _

/-- What is skipped in front of a word is spaces. -/
theorem exists_replicate_append (text : Bytes) :
    ∃ count, text = List.replicate count space ++ text.dropWhile (· == space) := by
  refine ⟨(text.takeWhile (· == space)).length, ?_⟩
  have blank : text.takeWhile (· == space) =
      List.replicate (text.takeWhile (· == space)).length space := by
    refine List.eq_replicate_of_mem fun byte taken => ?_
    have held := List.mem_takeWhile_imp taken
    exact beq_iff_eq.mp held
  rw [← blank, List.takeWhile_append_dropWhile]

/-- The loop decodes words, one after the other. -/
theorem decodeWords_of_words {text words : Bytes} (spelled : Words text words) :
    decodeWords words = .ok text := by
  induction spelled with
  | @single text word only =>
      obtain ⟨charset, encoding, body, taken, charsetNamed, encodingNamed, spells⟩ := only.takeWord []
      have opens := only.opening_prefix []
      rw [List.append_nil] at taken opens
      rw [decodeWords, if_neg (not_or.mpr ⟨not_lt.mpr only.length_le, not_not.mpr opens⟩)]
      split
      next missing =>
        rw [taken] at missing
        cases missing
      next found =>
        rw [taken] at found
        cases found
        rw [if_neg (by simp [charsetNamed, encodingNamed]), decodeQWordBody_of_spells spells]
        rfl
  | @more text rest word words spaces first others inductionHypothesis =>
      have whole : word ++ List.replicate (spaces + 1) space ++ words =
          word ++ (space :: (List.replicate spaces space ++ words)) := by
        rw [List.replicate_succ, List.append_assoc, List.cons_append]
      obtain ⟨charset, encoding, body, taken, charsetNamed, encodingNamed, spells⟩ :=
        first.takeWord (space :: (List.replicate spaces space ++ words))
      have long : ¬(word ++ space :: (List.replicate spaces space ++ words)).length < 10 := by
        have least := first.length_le
        rw [List.length_append]
        omega
      have opens := first.opening_prefix (space :: (List.replicate spaces space ++ words))
      have skipped : (space :: (List.replicate spaces space ++ words)).dropWhile (· == space) = words := by
        rw [← List.cons_append, ← List.replicate_succ, List.dropWhile_append,
          List.dropWhile_eq_nil_iff.mpr (by simp +contextual [List.mem_replicate]),
          if_pos List.isEmpty_nil]
        obtain ⟨behind, rfl⟩ := others.opening_prefix
        rfl
      rw [whole, decodeWords, if_neg (not_or.mpr ⟨long, not_not.mpr opens⟩)]
      split
      next missing =>
        rw [taken] at missing
        cases missing
      next found =>
        rw [taken] at found
        cases found
        rw [if_neg (by simp [charsetNamed, encodingNamed]), decodeQWordBody_of_spells spells, skipped,
          inductionHypothesis]
        rfl

theorem words_of_decodeWords {words text : Bytes} (decodes : decodeWords words = .ok text) :
    Words text words := by
  fun_induction decodeWords words generalizing text with
  | case4 words allowed charset encoding body rest taken named inductionHypothesis =>
      rw [not_or, not_not] at allowed
      rw [not_or, not_ne_iff, not_ne_iff] at named
      obtain ⟨decoded, spelled, behind⟩ := bind_eq_ok_iff.mp decodes
      have first : Word decoded (opening ++ charset ++ [question] ++ encoding ++ [question] ++ body ++ closing) :=
        ⟨charset, encoding, body, rfl, named.1, named.2, spells_of_decodeQWordBody spelled⟩
      rw [append_of_takeWord allowed.2 taken]
      cases rest with
      | nil =>
          cases behind
          rw [List.append_nil]
          exact .single first
      | cons byte tail =>
          simp only at behind
          split at behind
          next other => cases behind
          next blank =>
            rw [not_ne_iff] at blank
            subst blank
            obtain ⟨others, decodesRest, same⟩ := bind_eq_ok_iff.mp behind
            cases same
            obtain ⟨spaces, skipped⟩ := exists_replicate_append (space :: tail)
            have several : ∃ count, spaces = count + 1 := by
              cases spaces with
              | succ count => exact ⟨count, rfl⟩
              | zero =>
                  have shorter := congrArg List.length skipped
                  rw [List.dropWhile_cons_of_pos (by rfl), List.replicate_zero, List.nil_append,
                    List.length_cons] at shorter
                  have fewer := (List.dropWhile_suffix (l := tail) (· == space)).length_le
                  omega
            obtain ⟨count, rfl⟩ := several
            rw [skipped, ← List.append_assoc]
            exact .more first (inductionHypothesis decodesRest)
  | _ => cases decodes

theorem decodeWords_ok_iff {words text : Bytes} : decodeWords words = .ok text ↔ Words text words :=
  ⟨words_of_decodeWords, decodeWords_of_words⟩

/-- The bytes that a header may have. -/
theorem printable_iff (value : Bytes) :
    (validUtf8 value = true ∧ hasControl value = false ∧ (value.any fun byte => 0x7f < byte) = false) ↔
      ∀ byte ∈ value, 0x20 ≤ byte ∧ byte < 0x7f := by
  constructor
  · rintro ⟨-, clean, small⟩ byte present
    have noControl := List.any_eq_false.mp clean byte present
    have below := List.any_eq_false.mp small byte present
    simp only [Bool.or_eq_true, decide_eq_true_eq, beq_iff_eq, not_or, UInt8.not_lt] at noControl below
    exact ⟨noControl.1, UInt8.lt_of_le_of_ne below noControl.2⟩
  · intro printable
    refine ⟨validUtf8_of_ascii fun byte present => ?_, ?_, ?_⟩
    · exact UInt8.lt_trans (printable byte present).2 (by decide)
    · refine List.any_eq_false.mpr fun byte present => ?_
      obtain ⟨low, high⟩ := printable byte present
      simp only [Bool.or_eq_true, decide_eq_true_eq, beq_iff_eq, not_or, UInt8.not_lt]
      exact ⟨low, UInt8.ne_of_lt high⟩
    · refine List.any_eq_false.mpr fun byte present => ?_
      simp only [decide_eq_true_eq, UInt8.not_lt]
      exact UInt8.le_of_lt (printable byte present).2

end ServeHeader

/-- A header of Tailscale Serve is accepted if and only if it is printable ASCII within the limit
and does not begin like an encoded word, or is a row of encoded words, apart by spaces, of a text
within the limit that is UTF-8 without controls.  What is decoded is that text. -/
theorem decodeServeHeader_exact (value text : Bytes) (maxBytes : Nat) :
    decodeServeHeader value maxBytes = .ok text ↔
      value.length ≤ maxBytes ∧ (∀ byte ∈ value, 0x20 ≤ byte ∧ byte < 0x7f) ∧
        (¬opening <+: value ∧ text = value ∨
          Words text value ∧ text.length ≤ maxBytes ∧ validUtf8 text = true ∧
            hasControl text = false) := by
  rw [← printable_iff, decodeServeHeader]
  split
  next refused =>
    simp only [reduceCtorEq, false_iff]
    rintro ⟨fits, ⟨valid, clean, small⟩, -⟩
    simp [valid, clean, small, not_lt.mpr fits] at refused
  next accepted =>
    simp only [not_or, Nat.not_lt, Bool.not_eq_false, Bool.not_eq_true] at accepted
    simp only [accepted.1, accepted.2.1, accepted.2.2.1, accepted.2.2.2, true_and]
    split
    next plain =>
      rw [Except.ok.injEq]
      constructor
      · rintro rfl
        exact .inl ⟨plain, rfl⟩
      · rintro (⟨-, rfl⟩ | ⟨spelled, -⟩)
        · rfl
        · exact absurd spelled.opening_prefix plain
    next opens =>
      rw [not_not] at opens
      simp only [bind_eq_ok_iff, decodeWords_ok_iff]
      constructor
      · rintro ⟨decoded, spelled, behind⟩
        split at behind
        next => cases behind
        next allowed =>
          cases behind
          simp only [not_or, Nat.not_lt, Bool.not_eq_false, Bool.not_eq_true] at allowed
          exact .inr ⟨spelled, allowed⟩
      · rintro (⟨plain, -⟩ | ⟨spelled, allowed⟩)
        · exact absurd opens plain
        · refine ⟨text, spelled, if_neg ?_⟩
          simp only [not_or, Nat.not_lt, Bool.not_eq_false, Bool.not_eq_true]
          exact allowed

end VgiRpc.Tailscale
