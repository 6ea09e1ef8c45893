import VgiRpc.Cpp.Text

/-!
# The shape of a credential

The guards of `token_identity.cpp` in front of the token resolver: a credential that is
blank, too long or looks like a JWS is not offered to it.  Padding does not help, since
the shape is tested on the trimmed credential.
-/

namespace VgiRpc.Identity

open VgiRpc.Cpp

def kMaxTokenBytes : Nat := 4096

/-! ## Whitespace -/

/-- The whitespace code points of one byte: U+0009 to U+000D and U+0020. -/
def isPlainSpace (byte : UInt8) : Bool := byte == 0x20 || (0x09 ≤ byte && byte ≤ 0x0d)

/-- The whitespace code points of two bytes: U+0085 and U+00A0. -/
def isWideSpace (first second : UInt8) : Bool := first == 0xc2 && (second == 0x85 || second == 0xa0)

/-- The first loop of `Trimmed`. -/
def trimStart : Bytes → Bytes
  | [] => []
  | first :: rest =>
      if isPlainSpace first then trimStart rest
      else
        match rest with
        | [] => [first]
        | second :: others =>
            if isWideSpace first second then trimStart others else first :: second :: others

/-- The second loop of `Trimmed`, on the reversed text. -/
def trimEnd : Bytes → Bytes
  | [] => []
  | last :: rest =>
      match rest with
      | [] => if isPlainSpace last then [] else [last]
      | before :: others =>
          if isWideSpace before last then trimEnd others
          else if isPlainSpace last then trimEnd (before :: others)
          else last :: before :: others

/-- `Trimmed`. -/
def trimmed (token : Bytes) : Bytes := (trimEnd (trimStart token).reverse).reverse

/-! ## JWS -/

def isJwsChar (byte : UInt8) : Bool :=
  isUpper byte || isLower byte || isDigit byte || byte == 0x5f || byte == 0x2d

/-- Skip a segment that is not empty and the dot behind it. -/
def jwsSegment (view : Bytes) : Option Bytes :=
  if view.takeWhile isJwsChar = [] then none
  else
    match view.dropWhile isJwsChar with
    | [] => none
    | dot :: rest => if dot = 0x2e then some rest else none

/-- `IsJwsShaped`. -/
def isJwsShaped (view : Bytes) : Bool :=
  match jwsSegment view with
  | none => false
  | some second =>
      match jwsSegment second with
      | none => false
      | some third => third.dropWhile isJwsChar = []

/-- `reject_jws_shaped`: whether the credential passes. -/
def rejectJwsShaped (token : Bytes) : Bool :=
  !(trimmed token = [] || decide (token.length > kMaxTokenBytes) || isJwsShaped (trimmed token))

/-! ## What the guards mean -/

/-- A text of whitespace code points. -/
inductive Whitespace : Bytes → Prop
  | nil : Whitespace []
  | plain {byte : UInt8} {rest : Bytes} : isPlainSpace byte = true → Whitespace rest →
      Whitespace (byte :: rest)
  | wide {first second : UInt8} {rest : Bytes} : isWideSpace first second = true →
      Whitespace rest → Whitespace (first :: second :: rest)

/-- The text begins with a whitespace code point. -/
def startsBlank : Bytes → Bool
  | [] => false
  | [byte] => isPlainSpace byte
  | first :: second :: _ => isPlainSpace first || isWideSpace first second

/-- The reversed text ends with a whitespace code point. -/
def endsBlank : Bytes → Bool
  | [] => false
  | [byte] => isPlainSpace byte
  | last :: before :: _ => isPlainSpace last || isWideSpace before last

/-- The text without the whitespace around it. -/
structure Trims (token middle : Bytes) : Prop where
  split : ∃ front back, Whitespace front ∧ Whitespace back ∧ token = front ++ middle ++ back
  start : startsBlank middle = false
  stop : endsBlank middle.reverse = false

/-- Three segments of base64url characters between dots, of which the third may be
empty. -/
def JwsShape (text : Bytes) : Prop :=
  ∃ header payload signature, text = header ++ 0x2e :: (payload ++ 0x2e :: signature) ∧
    header ≠ [] ∧ payload ≠ [] ∧
      ∀ byte ∈ header ++ payload ++ signature, isJwsChar byte = true

/-! ## Trimming -/

theorem trimStart_plain {first : UInt8} (plain : isPlainSpace first = true) (rest : Bytes) :
    trimStart (first :: rest) = trimStart rest := by
  rw [trimStart.eq_def]
  simp [plain]

theorem trimStart_wide {first second : UInt8} (wide : isWideSpace first second = true)
    (others : Bytes) : trimStart (first :: second :: others) = trimStart others := by
  have notPlain : isPlainSpace first = false := by
    rw [isWideSpace, Bool.and_eq_true, beq_iff_eq] at wide
    rw [wide.1]
    rfl
  rw [trimStart.eq_def]
  simp [notPlain, wide]

theorem trimStart_spec (text : Bytes) :
    ∃ front, Whitespace front ∧ text = front ++ trimStart text ∧
      startsBlank (trimStart text) = false := by
  induction text using trimStart.induct with
  | case1 => exact ⟨[], .nil, rfl, rfl⟩
  | case2 first rest plain ih =>
      rcases ih with ⟨front, blank, split, start⟩
      rw [trimStart_plain plain]
      refine ⟨first :: front, .plain plain blank, ?_, start⟩
      rw [List.cons_append, ← split]
  | case3 first notPlain =>
      have kept : trimStart [first] = [first] := by simp [trimStart, notPlain]
      rw [kept]
      exact ⟨[], .nil, rfl, by simpa [startsBlank] using notPlain⟩
  | case4 first notPlain second others wide ih =>
      rcases ih with ⟨front, blank, split, start⟩
      rw [trimStart_wide wide]
      refine ⟨first :: second :: front, .wide wide blank, ?_, start⟩
      rw [List.cons_append, List.cons_append, ← split]
  | case5 first notPlain second others notWide =>
      have kept : trimStart (first :: second :: others) = first :: second :: others := by
        rw [trimStart.eq_def]
        simp [notPlain, notWide]
      rw [kept]
      exact ⟨[], .nil, rfl, by simp [startsBlank, notPlain, notWide]⟩

theorem Whitespace.append {one two : Bytes} (first : Whitespace one) (second : Whitespace two) :
    Whitespace (one ++ two) := by
  induction first with
  | nil => exact second
  | plain blank _ ih => exact .plain blank ih
  | wide blank _ ih => exact .wide blank ih

theorem trimEnd_spec (text : Bytes) :
    ∃ back, Whitespace back ∧ text = back.reverse ++ trimEnd text ∧
      endsBlank (trimEnd text) = false := by
  induction text using trimEnd.induct with
  | case1 => exact ⟨[], .nil, rfl, rfl⟩
  | case2 last plain =>
      have gone : trimEnd [last] = [] := by simp [trimEnd, plain]
      rw [gone]
      exact ⟨[last], .plain plain .nil, rfl, rfl⟩
  | case3 last notPlain =>
      have kept : trimEnd [last] = [last] := by simp [trimEnd, notPlain]
      rw [kept]
      exact ⟨[], .nil, rfl, by simpa [endsBlank] using notPlain⟩
  | case4 last before others wide ih =>
      have step : trimEnd (last :: before :: others) = trimEnd others := by
        rw [trimEnd.eq_def]
        simp [wide]
      rcases ih with ⟨back, blank, split, stop⟩
      rw [step]
      refine ⟨back ++ [before, last], blank.append (.wide wide .nil), ?_, stop⟩
      simpa using split
  | case5 last before others notWide plain ih =>
      have step : trimEnd (last :: before :: others) = trimEnd (before :: others) := by
        rw [trimEnd.eq_def]
        simp [notWide, plain]
      rcases ih with ⟨back, blank, split, stop⟩
      rw [step]
      refine ⟨back ++ [last], blank.append (.plain plain .nil), ?_, stop⟩
      simpa using split
  | case6 last before others notWide notPlain =>
      have kept : trimEnd (last :: before :: others) = last :: before :: others := by
        rw [trimEnd.eq_def]
        simp [notWide, notPlain]
      rw [kept]
      exact ⟨[], .nil, rfl, by simp [endsBlank, notWide, notPlain]⟩

/-- A prefix of a text that does not begin with whitespace does not either. -/
theorem startsBlank_of_append {text rest : Bytes} (start : startsBlank (text ++ rest) = false) :
    startsBlank text = false := by
  match text with
  | [] => rfl
  | [byte] =>
      cases rest with
      | nil => exact start
      | cons next rest =>
          simp only [List.cons_append, List.nil_append, startsBlank, Bool.or_eq_false_iff] at start
          exact start.1
  | first :: second :: others => exact start

/-- `Trimmed` strips the whitespace on both sides, and nothing else. -/
theorem trims_trimmed (token : Bytes) : Trims token (trimmed token) := by
  rcases trimStart_spec token with ⟨front, frontBlank, frontSplit, start⟩
  rcases trimEnd_spec (trimStart token).reverse with ⟨back, backBlank, backSplit, stop⟩
  have middle : trimStart token = trimmed token ++ back := by
    have reversed := congrArg List.reverse backSplit
    rw [List.reverse_reverse, List.reverse_append, List.reverse_reverse] at reversed
    exact reversed
  constructor
  · refine ⟨front, back, frontBlank, backBlank, ?_⟩
    rw [List.append_assoc, ← middle]
    exact frontSplit
  · rw [middle] at start
    exact startsBlank_of_append start
  · rw [trimmed, List.reverse_reverse]
    exact stop

/-! ## The scan -/

theorem jwsSegment_eq_some {view rest : Bytes} :
    jwsSegment view = some rest ↔ ∃ segment, view = segment ++ 0x2e :: rest ∧ segment ≠ [] ∧
      ∀ byte ∈ segment, isJwsChar byte = true := by
  constructor
  · intro skipped
    rw [jwsSegment] at skipped
    split at skipped
    next => simp at skipped
    next present =>
      split at skipped
      next => simp at skipped
      next dot others tail =>
        split at skipped
        next isDot =>
          rw [Option.some.injEq] at skipped
          refine ⟨view.takeWhile isJwsChar, ?_, present, fun byte mem => List.mem_takeWhile_imp mem⟩
          rw [← skipped, ← isDot, ← tail, List.takeWhile_append_dropWhile]
        next => simp at skipped
  · rintro ⟨segment, rfl, present, chars⟩
    have dot : ¬isJwsChar 0x2e = true := by decide
    have taken : (segment ++ 0x2e :: rest).takeWhile isJwsChar = segment := by
      rw [List.takeWhile_append_of_pos chars, List.takeWhile_cons_of_neg dot, List.append_nil]
    have dropped : (segment ++ 0x2e :: rest).dropWhile isJwsChar = 0x2e :: rest := by
      rw [List.dropWhile_append_of_pos chars, List.dropWhile_cons_of_neg dot]
    rw [jwsSegment, taken, if_neg present, dropped]
    rfl

/-- `IsJwsShaped` decides the shape of a JWS. -/
theorem isJwsShaped_iff (view : Bytes) : isJwsShaped view = true ↔ JwsShape view := by
  constructor
  · intro shaped
    rw [isJwsShaped] at shaped
    split at shaped
    next => simp at shaped
    next second first =>
      split at shaped
      next => simp at shaped
      next third next =>
        rcases jwsSegment_eq_some.mp first with ⟨header, rfl, headerPresent, headerChars⟩
        rcases jwsSegment_eq_some.mp next with ⟨payload, rfl, payloadPresent, payloadChars⟩
        rw [decide_eq_true_eq, List.dropWhile_eq_nil_iff] at shaped
        refine ⟨header, payload, third, rfl, headerPresent, payloadPresent, ?_⟩
        intro byte mem
        rw [List.mem_append, List.mem_append] at mem
        rcases mem with (mem | mem) | mem
        · exact headerChars byte mem
        · exact payloadChars byte mem
        · exact shaped byte mem
  · rintro ⟨header, payload, signature, rfl, headerPresent, payloadPresent, chars⟩
    have first : jwsSegment (header ++ 0x2e :: (payload ++ 0x2e :: signature)) =
        some (payload ++ 0x2e :: signature) :=
      jwsSegment_eq_some.mpr ⟨header, rfl, headerPresent, fun byte mem =>
        chars byte (List.mem_append_left _ (List.mem_append_left _ mem))⟩
    have second : jwsSegment (payload ++ 0x2e :: signature) = some signature :=
      jwsSegment_eq_some.mpr ⟨payload, rfl, payloadPresent, fun byte mem =>
        chars byte (List.mem_append_left _ (List.mem_append_right _ mem))⟩
    rw [isJwsShaped, first]
    simp only [second]
    rw [decide_eq_true_eq, List.dropWhile_eq_nil_iff]
    exact fun byte mem => chars byte (List.mem_append_right _ mem)

/-- A credential that passes the guards. -/
theorem rejectJwsShaped_iff (token : Bytes) :
    rejectJwsShaped token = true ↔
      trimmed token ≠ [] ∧ token.length ≤ kMaxTokenBytes ∧ ¬JwsShape (trimmed token) := by
  rw [rejectJwsShaped, ← isJwsShaped_iff]
  simp
  tauto

end VgiRpc.Identity
