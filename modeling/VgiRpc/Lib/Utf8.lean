import Mathlib.Tactic

/-!
# UTF-8

A text is a list of Unicode scalar values, which are the values of `Char`; its
encoding is the concatenation of the encodings of its characters.  The bytes of
one encoding are described by arithmetic: a lead byte, whose class says how many
bytes follow it, and continuation bytes of six bits each.

The three rules about the first byte of a text are what a scanner needs: one for
a byte that stands alone, one for a lead byte and one for any other byte.
-/

namespace VgiRpc.Lib.Utf8

/-- The bytes of a text. -/
def encode (text : List Char) : List UInt8 := text.flatMap String.utf8EncodeChar

/-- The bytes are those of a text. -/
def IsUtf8 (bytes : List UInt8) : Prop := ∃ text, bytes = encode text

@[simp] theorem encode_nil : encode [] = [] := rfl

@[simp] theorem encode_cons (character : Char) (text : List Char) :
    encode (character :: text) = String.utf8EncodeChar character ++ encode text := rfl

@[simp] theorem encode_append (front back : List Char) :
    encode (front ++ back) = encode front ++ encode back :=
  List.flatMap_append

/-- A number that is a scalar value. -/
def IsScalar (value : Nat) : Prop := value ≤ 0x10ffff ∧ ¬(0xd800 ≤ value ∧ value ≤ 0xdfff)

theorem exists_char_iff (value : Nat) :
    (∃ character : Char, character.toNat = value) ↔ IsScalar value := by
  constructor
  · rintro ⟨character, rfl⟩
    have valid : character.toNat.isValidChar := character.valid
    rw [Nat.isValidChar] at valid
    constructor <;> omega
  · rintro ⟨range, apart⟩
    have valid : value.isValidChar := by
      rw [Nat.isValidChar]
      omega
    exact ⟨Char.ofNatAux value valid, rfl⟩

/-! ## One character -/

variable {character : Char} {byte first second third fourth : UInt8} {rest tail : List UInt8}
  {count : Nat}

/-- A continuation byte. -/
def IsTail (byte : UInt8) : Prop := 0x80 ≤ byte.toNat ∧ byte.toNat < 0xc0

/-- The first lead byte of the class with this many continuation bytes. -/
def leadBase : Nat → Nat
  | 1 => 0xc0
  | 2 => 0xe0
  | _ => 0xf0

/-- How many lead bytes the class has. -/
def leadSpan : Nat → Nat
  | 1 => 0x20
  | 2 => 0x10
  | _ => 0x08

/-- The least value that needs this many continuation bytes. -/
def least : Nat → Nat
  | 1 => 0x80
  | 2 => 0x800
  | _ => 0x10000

/-- A lead byte of the class. -/
def IsLead (count : Nat) (byte : UInt8) : Prop :=
  (1 ≤ count ∧ count ≤ 3) ∧ leadBase count ≤ byte.toNat ∧ byte.toNat < leadBase count + leadSpan count

instance : DecidablePred IsTail := fun _ => inferInstanceAs (Decidable (_ ∧ _))

instance : Decidable (IsLead count byte) := inferInstanceAs (Decidable (_ ∧ _))

/-- The value that continuation bytes complete. -/
def tailValue (bits : Nat) (tail : List UInt8) : Nat :=
  tail.foldl (fun value byte => value * 64 + (byte.toNat - 0x80)) bits

@[simp] theorem tailValue_cons (bits : Nat) (byte : UInt8) (tail : List UInt8) :
    tailValue bits (byte :: tail) = tailValue (bits * 64 + (byte.toNat - 0x80)) tail := by
  rw [tailValue, List.foldl_cons, tailValue]

theorem ofNat_eq_iff (value : Nat) (byte : UInt8) :
    UInt8.ofNat value = byte ↔ value % 256 = byte.toNat := by
  rw [← UInt8.toNat_inj, UInt8.toNat_ofNat']

/-- One byte is the encoding of its own value. -/
theorem encode_eq_one_iff :
    String.utf8EncodeChar character = [first] ↔
      first.toNat < 0x80 ∧ character.toNat = first.toNat := by
  have value : character.val.toNat = character.toNat := rfl
  have bound := first.toNat_lt
  simp only [String.utf8EncodeChar, value]
  split_ifs <;> simp only [List.cons.injEq, and_true, reduceCtorEq, and_false, false_iff,
    ofNat_eq_iff] <;> omega

theorem encode_eq_two_iff :
    String.utf8EncodeChar character = [first, second] ↔
      (0xc0 ≤ first.toNat ∧ first.toNat < 0xe0) ∧ IsTail second ∧ 0x80 ≤ character.toNat ∧
        character.toNat = (first.toNat - 0xc0) * 64 + (second.toNat - 0x80) := by
  have value : character.val.toNat = character.toNat := rfl
  simp only [String.utf8EncodeChar, value, IsTail]
  split_ifs <;> simp only [List.cons.injEq, and_true, reduceCtorEq, and_false, false_iff,
    ofNat_eq_iff] <;> omega

theorem encode_eq_three_iff :
    String.utf8EncodeChar character = [first, second, third] ↔
      (0xe0 ≤ first.toNat ∧ first.toNat < 0xf0) ∧ (IsTail second ∧ IsTail third) ∧
        0x800 ≤ character.toNat ∧
          character.toNat = ((first.toNat - 0xe0) * 64 + (second.toNat - 0x80)) * 64 +
            (third.toNat - 0x80) := by
  have value : character.val.toNat = character.toNat := rfl
  simp only [String.utf8EncodeChar, value, IsTail]
  split_ifs <;> simp only [List.cons.injEq, and_true, reduceCtorEq, and_false, false_iff,
    ofNat_eq_iff] <;> omega

theorem encode_eq_four_iff :
    String.utf8EncodeChar character = [first, second, third, fourth] ↔
      (0xf0 ≤ first.toNat ∧ first.toNat < 0xf8) ∧ (IsTail second ∧ IsTail third ∧ IsTail fourth) ∧
        0x10000 ≤ character.toNat ∧
          character.toNat = (((first.toNat - 0xf0) * 64 + (second.toNat - 0x80)) * 64 +
            (third.toNat - 0x80)) * 64 + (fourth.toNat - 0x80) := by
  have value : character.val.toNat = character.toNat := rfl
  have range := ((exists_char_iff _).mp ⟨character, rfl⟩).1
  simp only [String.utf8EncodeChar, value, IsTail]
  split_ifs <;> simp only [List.cons.injEq, and_true, reduceCtorEq, and_false, false_iff,
    ofNat_eq_iff] <;> omega

/-- The classes of lead bytes do not meet. -/
theorem IsLead.unique {other : Nat} (lead : IsLead count byte) (again : IsLead other byte) :
    count = other := by
  rcases lead with ⟨class_, from_, below⟩
  rcases again with ⟨class', from', below'⟩
  obtain rfl | rfl | rfl : count = 1 ∨ count = 2 ∨ count = 3 := by omega
  all_goals
    obtain rfl | rfl | rfl : other = 1 ∨ other = 2 ∨ other = 3 := by omega
    all_goals
      simp only [leadBase, leadSpan] at from_ below from' below'
      omega

theorem IsLead.large (lead : IsLead count byte) : 0xc0 ≤ byte.toNat := by
  rcases lead with ⟨class_, from_, -⟩
  obtain rfl | rfl | rfl : count = 1 ∨ count = 2 ∨ count = 3 := by omega
  all_goals
    simp only [leadBase] at from_
    omega

/-- A lead byte of a class and as many continuation bytes are the encoding of the
value they hold, if no shorter encoding holds it. -/
theorem encode_eq_lead_iff (class_ : 1 ≤ count ∧ count ≤ 3) (size : tail.length = count) :
    String.utf8EncodeChar character = first :: tail ↔
      IsLead count first ∧ (∀ byte ∈ tail, IsTail byte) ∧ least count ≤ character.toNat ∧
        character.toNat = tailValue (first.toNat - leadBase count) tail := by
  obtain rfl | rfl | rfl : count = 1 ∨ count = 2 ∨ count = 3 := by omega
  · obtain ⟨second, rfl⟩ := List.length_eq_one_iff.mp size
    rw [encode_eq_two_iff]
    simp [IsLead, leadBase, leadSpan, least, tailValue]
  · obtain ⟨second, third, rfl⟩ := List.length_eq_two.mp size
    rw [encode_eq_three_iff]
    simp [IsLead, leadBase, leadSpan, least, tailValue]
  · obtain ⟨second, third, fourth, rfl⟩ := List.length_eq_three.mp size
    rw [encode_eq_four_iff]
    simp [IsLead, leadBase, leadSpan, least, tailValue]

/-- An encoding is one byte, or a lead byte with its continuation bytes. -/
theorem encode_cases (character : Char) :
    (∃ first, String.utf8EncodeChar character = [first] ∧ first.toNat < 0x80) ∨
      ∃ count first tail, String.utf8EncodeChar character = first :: tail ∧ tail.length = count ∧
        IsLead count first ∧ ∀ byte ∈ tail, IsTail byte := by
  have lead {count : Nat} {first : UInt8} {tail : List UInt8}
      (encoded : String.utf8EncodeChar character = first :: tail) (size : tail.length = count)
      (class_ : 1 ≤ count ∧ count ≤ 3) :
      ∃ count first tail, String.utf8EncodeChar character = first :: tail ∧ tail.length = count ∧
        IsLead count first ∧ ∀ byte ∈ tail, IsTail byte := by
    have known := (encode_eq_lead_iff class_ size).mp encoded
    exact ⟨count, first, tail, encoded, size, known.1, known.2.1⟩
  have positive := character.utf8Size_pos
  have small := character.utf8Size_le_four
  match shape : String.utf8EncodeChar character, String.length_utf8EncodeChar character with
  | [], size => simp at size; omega
  | [first], _ => exact .inl ⟨first, rfl, (encode_eq_one_iff.mp shape).1⟩
  | first :: second :: tail, size =>
      rw [List.length_cons, List.length_cons] at size
      rw [← shape]
      exact .inr (lead shape rfl (by rw [List.length_cons]; omega))

/-- Behind the first byte of an encoding stand continuation bytes. -/
theorem tail_of_getElem? {position : Nat}
    (found : (String.utf8EncodeChar character)[position + 1]? = some byte) : IsTail byte := by
  rcases encode_cases character with ⟨one, single, -⟩ | ⟨count, lead, tail, many, -, -, tails⟩
  · rw [single, List.getElem?_cons_succ, List.getElem?_nil] at found
    cases found
  · rw [many, List.getElem?_cons_succ] at found
    exact tails byte (List.mem_of_getElem? found)

/-- The first byte of an encoding of several bytes is a lead byte. -/
theorem lead_of_getElem? (found : (String.utf8EncodeChar character)[0]? = some byte)
    (several : 1 < (String.utf8EncodeChar character).length) :
    IsLead ((String.utf8EncodeChar character).length - 1) byte := by
  rcases encode_cases character with ⟨one, single, -⟩ | ⟨count, lead, tail, many, size, known, -⟩
  · rw [single, List.length_singleton] at several
    omega
  · rw [many, List.getElem?_cons_zero, Option.some.injEq] at found
    rw [many, List.length_cons, size, ← found]
    exact known

/-! ## Positions inside a character -/

/-- The position lies inside an encoded character, wherever in the bytes it stands. -/
def Cuts (bytes : List UInt8) (position : Nat) : Prop :=
  ∃ front character back, bytes = front ++ String.utf8EncodeChar character ++ back ∧
    front.length < position ∧ position < front.length + (String.utf8EncodeChar character).length

theorem getElem?_inside {front back bytes : List UInt8} {offset : Nat}
    (split : bytes = front ++ String.utf8EncodeChar character ++ back)
    (inside : offset < (String.utf8EncodeChar character).length) :
    bytes[front.length + offset]? = (String.utf8EncodeChar character)[offset]? := by
  rw [split, List.append_assoc, List.getElem?_append_right (Nat.le_add_right _ _),
    Nat.add_sub_cancel_left, List.getElem?_append_left inside]

/-- Before a position inside a character stands its lead byte, or a continuation byte in
front of which there is no lead byte that asks for a single one. -/
theorem Cuts.before {bytes : List UInt8} {position : Nat} (cuts : Cuts bytes (position + 1)) :
    (∃ count lead, bytes[position]? = some lead ∧ IsLead count lead) ∨
      ∃ earlier byte, position = earlier + 1 ∧ bytes[position]? = some byte ∧ IsTail byte ∧
        ∀ lead, bytes[earlier]? = some lead → ¬IsLead 1 lead := by
  obtain ⟨front, character, back, split, after, below⟩ := cuts
  obtain ⟨offset, rfl⟩ : ∃ offset, position = front.length + offset :=
    ⟨position - front.length, by omega⟩
  have inside : offset < (String.utf8EncodeChar character).length := by omega
  have found := getElem?_inside split inside
  have byte := List.getElem?_eq_getElem inside
  cases offset with
  | zero =>
      rw [byte] at found
      exact .inl ⟨_, _, found, lead_of_getElem? byte (by omega)⟩
  | succ offset =>
      rw [byte] at found
      refine .inr ⟨front.length + offset, _, rfl, found, tail_of_getElem? byte, ?_⟩
      intro lead earlier single
      rw [getElem?_inside split (by omega)] at earlier
      cases offset with
      | zero =>
          have several := (lead_of_getElem? earlier (by omega)).unique single
          omega
      | succ offset =>
          have range := (tail_of_getElem? earlier).2
          have large := single.large
          omega

/-- At a position inside a character stands a continuation byte. -/
theorem Cuts.continues {bytes : List UInt8} {position : Nat} (cuts : Cuts bytes position) :
    ∃ byte, bytes[position]? = some byte ∧ IsTail byte := by
  obtain ⟨front, character, back, split, after, below⟩ := cuts
  obtain ⟨offset, rfl⟩ : ∃ offset, position = front.length + (offset + 1) :=
    ⟨position - front.length - 1, by omega⟩
  have inside : offset + 1 < (String.utf8EncodeChar character).length := by omega
  have found := List.getElem?_eq_getElem inside
  exact ⟨_, (getElem?_inside split inside).trans found, tail_of_getElem? found⟩

/-! ## The first byte of a text -/

theorem isUtf8_cons_iff :
    IsUtf8 (first :: rest) ↔ ∃ character tail text,
      String.utf8EncodeChar character = first :: tail ∧ rest = tail ++ encode text := by
  constructor
  · rintro ⟨_ | ⟨character, text⟩, shape⟩
    · cases shape
    · rw [encode_cons] at shape
      cases encoded : String.utf8EncodeChar character with
      | nil =>
          have size := String.length_utf8EncodeChar character
          have positive := character.utf8Size_pos
          rw [encoded, List.length_nil] at size
          omega
      | cons head tail =>
          rw [encoded, List.cons_append, List.cons.injEq] at shape
          exact ⟨character, tail, text, by rw [encoded, shape.1], shape.2⟩
  · rintro ⟨character, tail, text, encoded, rfl⟩
    exact ⟨character :: text, by rw [encode_cons, encoded, List.cons_append]⟩

/-- A byte below 0x80 is a character of its own. -/
theorem isUtf8_single_iff (small : first.toNat < 0x80) : IsUtf8 (first :: rest) ↔ IsUtf8 rest := by
  rw [isUtf8_cons_iff]
  constructor
  · rintro ⟨character, tail, text, encoded, rfl⟩
    rcases encode_cases character with ⟨one, single, -⟩ | ⟨count, lead, others, many, -, known, -⟩
    · rw [single, List.cons.injEq] at encoded
      rw [← encoded.2, List.nil_append]
      exact ⟨text, rfl⟩
    · rw [many, List.cons.injEq] at encoded
      rw [encoded.1] at known
      have base : 0x80 ≤ leadBase count := by
        unfold leadBase
        split <;> omega
      have above := known.2.1
      omega
  · rintro ⟨text, rfl⟩
    have scalar : IsScalar first.toNat := ⟨by omega, by omega⟩
    obtain ⟨character, value⟩ := (exists_char_iff _).mpr scalar
    exact ⟨character, [], text, encode_eq_one_iff.mpr ⟨small, value⟩, rfl⟩

/-- Behind a lead byte stand the continuation bytes of its class, which complete
it to a scalar value that has no shorter encoding. -/
theorem isUtf8_lead_iff (lead : IsLead count first) :
    IsUtf8 (first :: rest) ↔
      count ≤ rest.length ∧ (∀ byte ∈ rest.take count, IsTail byte) ∧
        (least count ≤ tailValue (first.toNat - leadBase count) (rest.take count) ∧
          IsScalar (tailValue (first.toNat - leadBase count) (rest.take count))) ∧
          IsUtf8 (rest.drop count) := by
  rw [isUtf8_cons_iff]
  constructor
  · rintro ⟨character, tail, text, encoded, rfl⟩
    rcases encode_cases character with ⟨one, single, small⟩ | ⟨other, head, others, many, size, known, -⟩
    · rw [single, List.cons.injEq] at encoded
      have large := lead.large
      rw [encoded.1] at small
      omega
    · rw [many, List.cons.injEq] at encoded
      rcases encoded with ⟨rfl, rfl⟩
      obtain rfl := known.unique lead
      rcases (encode_eq_lead_iff lead.1 size).mp many with ⟨-, tails, shortest, value⟩
      rw [← size, List.take_left, List.drop_left, size, List.length_append, ← value]
      refine ⟨by omega, tails, ⟨shortest, (exists_char_iff _).mp ⟨character, rfl⟩⟩, text, rfl⟩
  · rintro ⟨room, tails, ⟨shortest, scalar⟩, text, behind⟩
    obtain ⟨character, value⟩ := (exists_char_iff _).mpr scalar
    have size : (rest.take count).length = count := by rw [List.length_take]; omega
    rw [← value] at shortest
    refine ⟨character, rest.take count, text,
      (encode_eq_lead_iff lead.1 size).mpr ⟨lead, tails, shortest, value⟩, ?_⟩
    rw [← behind, List.take_append_drop]

/-- No text starts with any other byte. -/
theorem not_isUtf8_of_no_lead (large : ¬first.toNat < 0x80) (noLead : ∀ count, ¬IsLead count first) :
    ¬IsUtf8 (first :: rest) := by
  rw [isUtf8_cons_iff]
  rintro ⟨character, tail, text, encoded, -⟩
  rcases encode_cases character with ⟨one, single, small⟩ | ⟨count, head, others, many, -, known, -⟩
  · rw [single, List.cons.injEq] at encoded
    rw [encoded.1] at small
    exact large small
  · rw [many, List.cons.injEq] at encoded
    rw [encoded.1] at known
    exact noLead count known

end VgiRpc.Lib.Utf8
