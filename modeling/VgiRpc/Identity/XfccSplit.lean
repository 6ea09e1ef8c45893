import VgiRpc.Identity.Xfcc

/-!
# The quote-aware splitter

What Envoy writes for a list of fields, and what one and two runs of the splitter
make of it.  The splitter is run twice over the header and each run removes one
layer of escapes, so the second run sees the bare values between the quotes.  The
values that it copies unchanged are the inert ones.
-/

namespace VgiRpc.Identity

open VgiRpc.Cpp

/-! ## What the proxy writes -/

/-- Printable ASCII. -/
def isPrintable (byte : UInt8) : Bool := 0x20 ≤ byte && byte ≤ 0x7e

/-- The unreserved and reserved characters of a URI. -/
def isUriByte (byte : UInt8) : Bool := isAlnum byte || byte ∈ ascii "-._~:/?#[]@!$&\x27()*+,;="

/-- `"` and `\` are escaped inside the quotes. -/
def escapeXfcc (value : Bytes) : Bytes :=
  value.flatMap fun byte =>
    if byte = quote ∨ byte = backslash then [backslash, byte] else [byte]

def hexDigit (value : UInt8) : UInt8 := if value < 10 then 0x30 + value else 0x41 + (value - 10)

/-- Percent-encoding that writes the bytes of `keep` as they are. -/
def percentEncode (keep : UInt8 → Bool) (value : Bytes) : Bytes :=
  value.flatMap fun byte =>
    if keep byte then [byte] else [percent, hexDigit (byte >>> 4), hexDigit (byte &&& 0x0f)]

/-- The value that is put between the quotes, before escaping. -/
def wireValue (keep : UInt8 → Bool) (pair : XfccKey × Bytes) : Bytes :=
  if pair.1.percentEncoded then percentEncode keep pair.2 else pair.2

/-- `key="value"` around a text that is already escaped, or not. -/
def quotedField (key : XfccKey) (text : Bytes) : Bytes :=
  key.text ++ equals :: quote :: (text ++ [quote])

/-- Fields joined by `;`. -/
def joinFields : List Bytes → Bytes
  | [] => []
  | [field] => field
  | field :: fields => field ++ semicolon :: joinFields fields

attribute [grind =] joinFields

/-- The header value of a list of fields. -/
def renderXfcc (keep : UInt8 → Bool) (pairs : List (XfccKey × Bytes)) : Bytes :=
  joinFields (pairs.map fun pair => quotedField pair.1 (escapeXfcc (wireValue keep pair)))

/-- The values of each key in order. -/
def fieldsOf (pairs : List (XfccKey × Bytes)) : XfccFields := fun key =>
  (pairs.filter fun pair => pair.1 = key).map Prod.snd

/-- A value that reads the same between quotes whether or not its escapes are
still there: reading each `"` as a switch, no `\` stands inside the quotes, no
`;` outside, and the value ends inside. -/
structure Inert (value : Bytes) : Prop where
  even : Even (value.count quote)
  backslashes : ∀ before after, value = before ++ backslash :: after → Odd (before.count quote)
  semicolons : ∀ before after, value = before ++ semicolon :: after → Even (before.count quote)

/-! ## The splitter without accumulators -/

/-- The part being read and the parts after it. -/
def scan (delimiter : UInt8) : (quoted escaped : Bool) → Bytes → Except String (Bytes × List Bytes)
  | quoted, escaped, [] =>
      if quoted || escaped then .error "unterminated XFCC quoted value" else .ok ([], [])
  | quoted, escaped, c :: rest =>
      if escaped then
        if c != quote && c != backslash then
          .error "unsupported XFCC escape"
        else
          (scan delimiter quoted false rest).map fun parts => (c :: parts.1, parts.2)
      else if quoted && c == backslash then
        scan delimiter quoted true rest
      else if c == quote then
        (scan delimiter (!quoted) false rest).map fun parts => (c :: parts.1, parts.2)
      else if c == delimiter && !quoted then
        (scan delimiter quoted false rest).map fun parts => ([], parts.1 :: parts.2)
      else
        (scan delimiter quoted false rest).map fun parts => (c :: parts.1, parts.2)

attribute [grind =] scan

theorem map_map {ε α β γ : Type} (f : α → β) (g : β → γ) (value : Except ε α) :
    (value.map f).map g = value.map fun result => g (f result) := by
  cases value with
  | error _ => rfl
  | ok _ => rfl

theorem splitXfccLoop_eq_scan (delimiter : UInt8) (input : Bytes) (parts : List Bytes)
    (current : Bytes) (quoted escaped : Bool) :
    splitXfccLoop delimiter input parts current quoted escaped =
      (scan delimiter quoted escaped input).map fun result =>
        parts ++ (current ++ result.1) :: result.2 := by
  induction input generalizing parts current quoted escaped with
  | nil =>
      rw [splitXfccLoop, scan]
      split
      next => rfl
      next => simp [Except.map]
  | cons c rest ih =>
      rw [splitXfccLoop, scan]
      simp only [ih]
      split
      next =>
        split
        next => rfl
        next => simp [map_map]
      next =>
        split
        next => rfl
        next =>
          split
          next => simp [map_map]
          next =>
            split
            next => simp [map_map]
            next => simp [map_map]

theorem splitXfcc_eq_scan (value : Bytes) (delimiter : UInt8) :
    splitXfcc value delimiter =
      (scan delimiter false false value).map fun result => result.1 :: result.2 := by
  rw [splitXfcc, splitXfccLoop_eq_scan]
  simp

/-- The state after a word that the splitter copies unchanged, if it does. -/
def passes (delimiter : UInt8) : (quoted : Bool) → Bytes → Option Bool
  | quoted, [] => some quoted
  | quoted, c :: rest =>
      if quoted && c == backslash then none
      else if c == quote then passes delimiter (!quoted) rest
      else if c == delimiter && !quoted then none
      else passes delimiter quoted rest

attribute [grind =] passes

/-- Put a copied word in front of the part being read. -/
def copied (word : Bytes) (parts : Bytes × List Bytes) : Bytes × List Bytes :=
  (word ++ parts.1, parts.2)

theorem scan_append_of_passes {delimiter : UInt8} {quoted after : Bool} {word : Bytes}
    (pass : passes delimiter quoted word = some after) (rest : Bytes) :
    scan delimiter quoted false (word ++ rest) =
      (scan delimiter after false rest).map (copied word) := by
  induction word generalizing quoted with
  | nil =>
      rw [passes, Option.some.injEq] at pass
      rw [pass]
      cases result : scan delimiter after false rest with
      | error _ => simp [result, Except.map]
      | ok _ => simp [result, Except.map, copied]
  | cons c word ih =>
      rw [passes] at pass
      rw [List.cons_append, scan]
      simp only [Bool.false_eq_true, if_false]
      split at pass
      next => exact absurd pass (by simp)
      next plain =>
        rw [if_neg plain]
        split at pass
        next isQuote =>
          rw [if_pos isQuote, ih pass, map_map]
          rfl
        next notQuote =>
          rw [if_neg notQuote]
          split at pass
          next => exact absurd pass (by simp)
          next inside =>
            rw [if_neg inside, ih pass, map_map]
            rfl

/-- Inside quotes, the splitter undoes the escapes of a value. -/
theorem scan_escapeXfcc (delimiter : UInt8) (value rest : Bytes) :
    scan delimiter true false (escapeXfcc value ++ rest) =
      (scan delimiter true false rest).map (copied value) := by
  induction value with
  | nil =>
      cases result : scan delimiter true false rest with
      | error _ => simp [escapeXfcc, result, Except.map]
      | ok _ => simp [escapeXfcc, result, Except.map, copied]
  | cons byte value ih =>
      have split : escapeXfcc (byte :: value) =
          (if byte = quote ∨ byte = backslash then [backslash, byte] else [byte]) ++
            escapeXfcc value := rfl
      rw [split]
      by_cases special : byte = quote ∨ byte = backslash
      · have escape : (byte != quote && byte != backslash) = false := by
          rcases special with rfl | rfl
          · rfl
          · rfl
        rw [if_pos special]
        simp only [List.cons_append, List.nil_append, scan, Bool.false_eq_true, if_false,
          Bool.true_and, beq_self_eq_true, if_true, escape]
        rw [ih, map_map]
        rfl
      · rw [not_or] at special
        have notQuote : (byte == quote) = false := beq_false_of_ne special.1
        have notBackslash : (byte == backslash) = false := beq_false_of_ne special.2
        rw [if_neg (by simp [special])]
        simp only [List.cons_append, List.nil_append, scan, Bool.false_eq_true, if_false,
          Bool.not_true, Bool.and_false, notQuote, notBackslash]
        rw [ih, map_map]
        rfl

/-! ## The first run: commas -/

theorem quotedField_eq (key : XfccKey) (text rest : Bytes) :
    quotedField key text ++ rest =
      (key.text ++ [equals, quote]) ++ (text ++ ([quote] ++ rest)) := by
  simp [quotedField]

theorem passes_opening (key : XfccKey) (delimiter : UInt8)
    (separator : delimiter = comma ∨ delimiter = semicolon) :
    passes delimiter false (key.text ++ [equals, quote]) = some true := by
  rcases separator with rfl | rfl
  · cases key <;> decide
  · cases key <;> decide

theorem passes_closing (delimiter : UInt8) : passes delimiter true [quote] = some false := by
  simp [passes, show (quote == backslash) = false from rfl]

theorem map_copied_map_copied (first second : Bytes)
    (result : Except String (Bytes × List Bytes)) :
    (result.map (copied second)).map (copied first) = result.map (copied (first ++ second)) := by
  cases result with
  | error _ => rfl
  | ok _ => simp [Except.map, copied]

/-- A rendered field comes out of the run over commas without its escapes. -/
theorem scan_comma_quotedField (key : XfccKey) (text rest : Bytes) :
    scan comma false false (quotedField key (escapeXfcc text) ++ rest) =
      (scan comma false false rest).map (copied (quotedField key text)) := by
  rw [quotedField_eq, scan_append_of_passes (passes_opening key comma (.inl rfl)),
    scan_escapeXfcc, scan_append_of_passes (passes_closing comma), map_copied_map_copied,
    map_copied_map_copied]
  simp [quotedField]

/-- The run over commas copies a `;` between two fields. -/
theorem scan_comma_separator (rest : Bytes) :
    scan comma false false (semicolon :: rest) =
      (scan comma false false rest).map (copied [semicolon]) :=
  scan_append_of_passes (show passes comma false [semicolon] = some false by decide) rest

/-- The run over commas finds one element, the fields without their escapes. -/
theorem scan_comma_joinFields (pairs : List (XfccKey × Bytes)) :
    scan comma false false
        (joinFields (pairs.map fun pair => quotedField pair.1 (escapeXfcc pair.2))) =
      .ok (joinFields (pairs.map fun pair => quotedField pair.1 pair.2), []) := by
  match pairs with
  | [] => rfl
  | [pair] =>
      have run := scan_comma_quotedField pair.1 pair.2 []
      rw [List.append_nil] at run
      simp only [List.map_cons, List.map_nil, joinFields, run]
      simp [scan, Except.map, copied]
  | first :: second :: pairs =>
      have ih := scan_comma_joinFields (second :: pairs)
      simp only [List.map_cons, joinFields] at ih ⊢
      rw [scan_comma_quotedField, scan_comma_separator, ih]
      simp [Except.map, copied]

/-! ## The second run: semicolons -/

theorem passes_append (delimiter : UInt8) (quoted : Bool) (first second : Bytes) :
    passes delimiter quoted (first ++ second) =
      (passes delimiter quoted first).bind fun after => passes delimiter after second := by
  induction first generalizing quoted with
  | nil => rfl
  | cons c first ih =>
      simp only [List.cons_append, passes]
      split
      next => rfl
      next =>
        split
        next => exact ih _
        next =>
          split
          next => rfl
          next => exact ih _

theorem passes_quotedField (key : XfccKey) {text : Bytes}
    (pass : passes semicolon true text = some true) :
    passes semicolon false (quotedField key text) = some false := by
  have shape := quotedField_eq key text []
  rw [List.append_nil, List.append_nil] at shape
  rw [shape, passes_append, passes_opening key semicolon (.inr rfl), Option.bind_some,
    passes_append, pass, Option.bind_some, passes_closing]

/-- One field that passes is cut off at the `;` after it. -/
theorem scan_semicolon_of_passes {field : Bytes}
    (pass : passes semicolon false field = some false) (rest : Bytes) :
    scan semicolon false false (field ++ semicolon :: rest) =
      (scan semicolon false false rest).map fun parts => (field, parts.1 :: parts.2) := by
  rw [scan_append_of_passes pass, scan]
  simp only [Bool.false_eq_true, if_false, Bool.false_and, Bool.not_false, Bool.and_true,
    beq_self_eq_true, if_true, show (semicolon == quote) = false from rfl, map_map, copied,
    List.append_nil]

theorem scan_semicolon_last {field : Bytes}
    (pass : passes semicolon false field = some false) :
    scan semicolon false false field = .ok (field, []) := by
  have run := scan_append_of_passes pass []
  rw [List.append_nil] at run
  rw [run]
  simp [scan, Except.map, copied]

/-! ## A part that is read wrongly -/

/-- After a backslash, the next byte is copied. -/
theorem scan_escaped_ok {delimiter c : UInt8} {quoted : Bool} {rest part : Bytes}
    {later : List Bytes} (run : scan delimiter quoted true (c :: rest) = .ok (part, later)) :
    ∃ copy, part = c :: copy ∧ scan delimiter quoted false rest = .ok (copy, later) := by
  rw [scan, if_pos rfl] at run
  split at run
  next => simp at run
  next =>
    cases result : scan delimiter quoted false rest with
    | error _ => simp [result, Except.map] at run
    | ok parts =>
        simp only [result, Except.map, Except.ok.injEq, Prod.mk.injEq] at run
        exact ⟨parts.1, run.1.symm, by rw [← run.2]⟩

theorem scan_copied_ok {delimiter c : UInt8} {quoted after : Bool} {rest part : Bytes}
    {later : List Bytes} (pass : passes delimiter quoted [c] = some after)
    (run : scan delimiter quoted false (c :: rest) = .ok (part, later)) :
    ∃ copy, part = c :: copy ∧ scan delimiter after false rest = .ok (copy, later) := by
  have step := scan_append_of_passes pass rest
  rw [List.singleton_append] at step
  rw [step] at run
  cases result : scan delimiter after false rest with
  | error _ => simp [result, Except.map] at run
  | ok parts =>
      simp only [result, Except.map, copied, Except.ok.injEq, Prod.mk.injEq] at run
      exact ⟨parts.1, run.1.symm, by rw [← run.2]⟩

theorem scan_delimiter_ok {delimiter : UInt8} {rest part : Bytes} {later : List Bytes}
    (notQuote : delimiter ≠ quote)
    (run : scan delimiter false false (delimiter :: rest) = .ok (part, later)) : part = [] := by
  rw [scan] at run
  simp only [Bool.false_eq_true, if_false, Bool.false_and, beq_self_eq_true, Bool.not_false,
    Bool.and_true, if_true, beq_false_of_ne notQuote] at run
  cases result : scan delimiter false false rest with
  | error _ => simp [result, Except.map] at run
  | ok parts =>
      simp only [result, Except.map, Except.ok.injEq, Prod.mk.injEq] at run
      exact run.1.symm

theorem scan_backslash (delimiter : UInt8) (rest : Bytes) :
    scan delimiter true false (backslash :: rest) = scan delimiter true true rest := by
  rw [scan]
  rfl

theorem replicate_append_cons {α : Type} (count : Nat) (value : α) (tail : List α) :
    List.replicate count value ++ value :: tail =
      List.replicate (count + 1) value ++ tail := by
  rw [List.replicate_succ', List.append_assoc]
  rfl

/-- Inside the quotes, once a backslash was taken for an escape, the part falls
behind a text that still has it, and never catches up before the quote that ends
the value. -/
theorem scan_escaped_ne {tail rest : Bytes} {later : List Bytes} :
    ∀ (value : Bytes) (lag : Nat),
      scan semicolon true true (value ++ quote :: rest) ≠
        .ok (List.replicate (lag + 1) backslash ++ (value ++ tail), later)
  | [], lag => by
      intro run
      rcases scan_escaped_ok run with ⟨copy, shape, -⟩
      rw [List.replicate_succ, List.cons_append] at shape
      exact absurd (List.cons.inj shape).1 (by decide)
  | [first], lag => by
      intro run
      rcases scan_escaped_ok run with ⟨copy, shape, rerun⟩
      rw [List.replicate_succ, List.cons_append, List.cons.injEq] at shape
      rcases shape with ⟨rfl, rfl⟩
      rcases scan_copied_ok (passes_closing semicolon) rerun with ⟨copy, shape, -⟩
      rw [List.singleton_append, replicate_append_cons, List.replicate_succ] at shape
      exact absurd (List.cons.inj shape).1 (by decide)
  | first :: second :: value, lag => by
      intro run
      rcases scan_escaped_ok run with ⟨copy, shape, rerun⟩
      rw [List.replicate_succ, List.cons_append, List.cons.injEq] at shape
      rcases shape with ⟨rfl, rfl⟩
      rw [List.cons_append, replicate_append_cons] at rerun
      by_cases again : second = backslash
      · subst again
        rw [List.cons_append, replicate_append_cons] at rerun
        exact scan_escaped_ne value (lag + 1) ((scan_backslash _ _).symm.trans rerun)
      · have pass : ∃ after, passes semicolon true [second] = some after := by
          simp only [passes, beq_false_of_ne again, Bool.false_eq_true, if_false,
            Bool.not_true, Bool.and_false]
          split
          next => exact ⟨_, rfl⟩
          next => exact ⟨_, rfl⟩
        rcases pass with ⟨after, pass⟩
        rcases scan_copied_ok pass rerun with ⟨copy, shape, -⟩
        rw [List.replicate_succ] at shape
        exact again (List.cons.inj shape).1.symm

/-- If the part that is read for a value is that value, its closing quote and
white space, the splitter copied the value. -/
theorem passes_of_scan {quoted : Bool} {value rest spaces : Bytes} {later : List Bytes}
    (white : ∀ byte ∈ spaces, isSpace byte = true)
    (next : rest = [] ∨ ∃ others, rest = semicolon :: others)
    (run : scan semicolon quoted false (value ++ quote :: rest) =
      .ok (value ++ quote :: spaces, later)) :
    passes semicolon quoted value = some true := by
  induction value generalizing quoted with
  | nil =>
      cases quoted with
      | true => rfl
      | false =>
          -- The quote opens a text instead of closing one, so the separator is copied.
          have opening : passes semicolon false [quote] = some true := rfl
          rcases scan_copied_ok opening run with ⟨copy, shape, rerun⟩
          rw [List.nil_append, List.cons.injEq] at shape
          rcases next with rfl | ⟨others, rfl⟩
          · simp [scan] at rerun
          · have separator : passes semicolon true [semicolon] = some true := rfl
            rcases scan_copied_ok separator rerun with ⟨copy, inner, -⟩
            rw [inner] at shape
            rw [shape.2] at white
            exact absurd (white semicolon List.mem_cons_self) (by decide)
  | cons c value ih =>
      cases single : passes semicolon quoted [c] with
      | some after =>
          rcases scan_copied_ok single run with ⟨copy, shape, rerun⟩
          rw [List.cons_append, List.cons.injEq] at shape
          rw [← shape.2] at rerun
          have whole := passes_append semicolon quoted [c] value
          rw [List.singleton_append, single, Option.bind_some] at whole
          rw [whole]
          exact ih rerun
      | none =>
          rw [passes] at single
          split at single
          next escape =>
            simp only [Bool.and_eq_true, beq_iff_eq] at escape
            rcases escape with ⟨rfl, rfl⟩
            rw [List.cons_append, scan_backslash] at run
            exact absurd run (scan_escaped_ne value 0)
          next =>
            split at single
            next => simp [passes] at single
            next notQuote =>
              split at single
              next cut =>
                simp only [Bool.and_eq_true, beq_iff_eq, Bool.not_eq_true'] at cut
                rcases cut with ⟨rfl, rfl⟩
                have empty := scan_delimiter_ok (by decide) run
                simp at empty
              next => simp [passes] at single

/-! ## Inert values -/

/-- Whether the splitter stands inside quotes after a text. -/
def inQuotes (quoted : Bool) (text : Bytes) : Bool := (text.count quote % 2 == 0) == quoted

theorem inQuotes_cons (quoted : Bool) (c : UInt8) (text : Bytes) :
    inQuotes quoted (c :: text) = inQuotes (if c = quote then !quoted else quoted) text := by
  by_cases isQuote : c = quote
  · rw [if_pos isQuote, isQuote, inQuotes, inQuotes, List.count_cons_self]
    rcases Nat.mod_two_eq_zero_or_one (text.count quote) with even | odd
    · cases quoted <;> simp [even, Nat.add_mod]
    · cases quoted <;> simp [odd, Nat.add_mod]
  · rw [if_neg isQuote, inQuotes, inQuotes, List.count_cons_of_ne isQuote]

/-- A property of everything before an occurrence, one byte at a time. -/
theorem forall_before_cons {c byte : UInt8} {text : Bytes} {property : Bytes → Prop} :
    (∀ before after, c :: text = before ++ byte :: after → property before) ↔
      (c = byte → property []) ∧
        ∀ before after, text = before ++ byte :: after → property (c :: before) := by
  constructor
  · intro every
    constructor
    · intro same
      exact every [] text (by rw [same]; rfl)
    · intro before after shape
      exact every (c :: before) after (by rw [shape]; rfl)
  · intro parts before after shape
    cases before with
    | nil =>
        rw [List.nil_append, List.cons.injEq] at shape
        exact parts.1 shape.1
    | cons first before =>
        rw [List.cons_append, List.cons.injEq] at shape
        rw [← shape.1]
        exact parts.2 before after shape.2

/-- The splitter copies a text exactly if it meets no backslash inside the quotes
and no delimiter outside. -/
theorem passes_eq_some_true_iff (quoted : Bool) (text : Bytes) :
    passes semicolon quoted text = some true ↔
      inQuotes quoted text = true ∧
      (∀ before after, text = before ++ backslash :: after →
        inQuotes quoted before = false) ∧
      (∀ before after, text = before ++ semicolon :: after →
        inQuotes quoted before = true) := by
  induction text generalizing quoted with
  | nil => simp [passes, inQuotes]
  | cons c text ih =>
      simp only [forall_before_cons, inQuotes_cons]
      rw [passes]
      have start : inQuotes quoted [] = quoted := by simp [inQuotes]
      rw [start]
      by_cases isQuote : c = quote
      · subst isQuote
        simp [ih, show quote ≠ backslash by decide, show quote ≠ semicolon by decide]
      · by_cases isBackslash : c = backslash
        · subst isBackslash
          cases quoted <;>
            simp [ih, isQuote, show backslash ≠ semicolon by decide,
              show (backslash == quote) = false from rfl]
        · by_cases isSemicolon : c = semicolon
          · subst isSemicolon
            cases quoted <;> simp [ih, isQuote, isBackslash]
          · simp [ih, isQuote, isBackslash, isSemicolon]

theorem inQuotes_true_iff (text : Bytes) : inQuotes true text = true ↔ Even (text.count quote) := by
  simp [inQuotes, Nat.even_iff]

theorem inert_iff_passes (value : Bytes) :
    Inert value ↔ passes semicolon true value = some true := by
  have outside : ∀ text, inQuotes true text = false ↔ Odd (text.count quote) := by
    intro text
    rw [← Nat.not_even_iff_odd, ← inQuotes_true_iff, Bool.not_eq_true]
  rw [passes_eq_some_true_iff]
  simp only [outside, inQuotes_true_iff]
  constructor
  · intro inert
    exact ⟨inert.even, inert.backslashes, inert.semicolons⟩
  · intro ⟨even, backslashes, semicolons⟩
    exact ⟨even, backslashes, semicolons⟩

instance (value : Bytes) : Decidable (Inert value) :=
  decidable_of_iff _ (inert_iff_passes value).symm

end VgiRpc.Identity
