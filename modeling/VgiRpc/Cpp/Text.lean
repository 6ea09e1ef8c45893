import Mathlib.Tactic
import Mathlib.Data.List.TakeWhile

/-!
# Byte strings and decimal text

`std::string` is a list of bytes.  This module holds the part of the C++ library
that the modelled code uses on it: ASCII literals, the character classes of the
"C" locale, `std::to_string` and `std::stoll`.
-/

namespace VgiRpc.Cpp

/-- A `std::string`: any bytes, including NUL. -/
abbrev Bytes := List UInt8

instance : LawfulBEq Bytes := inferInstance

/-- What holds of every byte of a text is decided along the text, not for all 256 bytes. -/
instance (priority := 2000) decidableForallMem (text : Bytes) (property : UInt8 → Prop)
    [DecidablePred property] : Decidable (∀ byte ∈ text, property byte) :=
  List.decidableBAll property text

/-- A source-level string literal of ASCII characters. -/
def ascii (literal : String) : Bytes :=
  literal.toList.map fun character => UInt8.ofNat character.toNat

def isDigit (byte : UInt8) : Bool := 0x30 ≤ byte && byte ≤ 0x39
def isUpper (byte : UInt8) : Bool := 0x41 ≤ byte && byte ≤ 0x5a
def isLower (byte : UInt8) : Bool := 0x61 ≤ byte && byte ≤ 0x7a
def isAlpha (byte : UInt8) : Bool := isUpper byte || isLower byte
def isAlnum (byte : UInt8) : Bool := isAlpha byte || isDigit byte

/-- `std::isspace`: tab, line feed, vertical tab, form feed, carriage return and
space. -/
def isSpace (byte : UInt8) : Bool := byte == 0x20 || (0x09 ≤ byte && byte ≤ 0x0d)

/-- The digit character of a value below ten. -/
def digitByte (value : Nat) : UInt8 := UInt8.ofNat (0x30 + value)

/-- Value of one digit character. -/
def digitValue (byte : UInt8) : Nat := byte.toNat - 0x30

/-- Value of a run of digit characters, most significant first. -/
def digitsValue (digits : Bytes) : Nat :=
  digits.foldl (fun value byte => 10 * value + digitValue byte) 0

/-- Decimal digits with an explicit bound on their number. -/
def decimalDigits : (fuel : Nat) → Nat → Bytes
  | 0, _ => []
  | fuel + 1, value =>
      if value < 10 then
        [digitByte value]
      else
        decimalDigits fuel (value / 10) ++ [digitByte (value % 10)]

/-- `std::to_string` of an unsigned value. -/
def decimal (value : Nat) : Bytes := decimalDigits (value + 1) value

/-- `std::to_string` of a signed value. -/
def toString (value : Int) : Bytes :=
  if value < 0 then 0x2d :: decimal value.natAbs else decimal value.toNat

/-- `std::stoll`: leading space, an optional sign, then the longest run of
digits.  `none` stands for the `std::invalid_argument` of an empty run and the
`std::out_of_range` of a value outside 64 bits. -/
def stoll (text : Bytes) : Option Int :=
  let text := text.dropWhile isSpace
  let signed := match text with
    | 0x2d :: rest => (true, rest)
    | 0x2b :: rest => (false, rest)
    | rest => (false, rest)
  let digits := signed.2.takeWhile isDigit
  let value : Int := if signed.1 then -(digitsValue digits : Int) else digitsValue digits
  if digits = [] then none
  else if -2 ^ 63 ≤ value ∧ value < 2 ^ 63 then some value
  else none

/-- A property holds of the numbers below a square if it holds of each pair of a
high and a low digit. -/
theorem forall_below {base : Nat} {property : Nat → Prop}
    (every : ∀ high, high < base → ∀ low, low < base → property (base * high + low)) {value : Nat}
    (bound : value < base * base) : property value := by
  have digits := every (value / base) (Nat.div_lt_of_lt_mul bound) (value % base)
    (Nat.mod_lt _ (Nat.pos_of_ne_zero (by rintro rfl; omega)))
  rwa [Nat.div_add_mod] at digits

/-- A Boolean property of bytes holds of every byte if it holds of each pair of
half bytes. -/
theorem forall_byte (property : UInt8 → Bool)
    (every : ∀ high, high < 16 → ∀ low, low < 16 →
      property (UInt8.ofNat (16 * high + low)) = true) (byte : UInt8) :
    property byte = true := by
  have at_value : property (UInt8.ofNat byte.toNat) = true :=
    @forall_below 16 (fun value => property (UInt8.ofNat value) = true) every _ byte.toNat_lt
  rwa [UInt8.ofNat_toNat] at at_value

/-! ## Decimal text determines its value -/

theorem digitByte_isDigit {value : Nat} (bound : value < 10) :
    isDigit (digitByte value) = true := by
  interval_cases value <;> rfl

theorem digitValue_digitByte {value : Nat} (bound : value < 10) :
    digitValue (digitByte value) = value := by
  interval_cases value <;> rfl

theorem digitsValue_append_singleton (digits : Bytes) (byte : UInt8) :
    digitsValue (digits ++ [byte]) = 10 * digitsValue digits + digitValue byte := by
  simp [digitsValue]

theorem decimalDigits_ne_nil (fuel value : Nat) :
    decimalDigits (fuel + 1) value ≠ [] := by
  rw [decimalDigits]
  split <;> simp

theorem decimalDigits_isDigit (fuel value : Nat) :
    ∀ byte ∈ decimalDigits fuel value, isDigit byte = true := by
  induction fuel generalizing value with
  | zero => simp [decimalDigits]
  | succ fuel ih =>
      intro byte member
      rw [decimalDigits] at member
      split at member
      next small =>
        rw [List.mem_singleton] at member
        rw [member]
        exact digitByte_isDigit small
      next =>
        rcases List.mem_append.mp member with front | last
        · exact ih _ byte front
        · rw [List.mem_singleton] at last
          rw [last]
          exact digitByte_isDigit (Nat.mod_lt _ (by omega))

theorem digitsValue_decimalDigits {fuel value : Nat} (bound : value < fuel) :
    digitsValue (decimalDigits fuel value) = value := by
  induction fuel generalizing value with
  | zero => omega
  | succ fuel ih =>
      rw [decimalDigits]
      split
      next small =>
        have single := digitValue_digitByte small
        simp [digitsValue, single]
      next large =>
        rw [digitsValue_append_singleton, ih (by omega),
          digitValue_digitByte (Nat.mod_lt _ (by omega))]
        omega

theorem decimal_ne_nil (value : Nat) : decimal value ≠ [] :=
  decimalDigits_ne_nil value value

theorem decimal_isDigit {value : Nat} {byte : UInt8} (member : byte ∈ decimal value) :
    isDigit byte = true :=
  decimalDigits_isDigit _ _ byte member

@[simp] theorem digitsValue_decimal (value : Nat) : digitsValue (decimal value) = value :=
  digitsValue_decimalDigits (Nat.lt_succ_self value)

theorem decimal_injective : Function.Injective decimal := by
  intro left right equal
  rw [← digitsValue_decimal left, equal, digitsValue_decimal]

theorem isSpace_eq_false_of_isDigit {byte : UInt8} (digit : isDigit byte = true) :
    isSpace byte = false := by
  have every := forall_byte (fun byte => !isDigit byte || !isSpace byte)
    (by decide) byte
  simpa [digit] using every

/-- Decimal text starts with a digit. -/
theorem exists_decimal_cons (value : Nat) :
    ∃ byte rest, decimal value = byte :: rest ∧ isDigit byte = true := by
  cases shape : decimal value with
  | nil => exact absurd shape (decimal_ne_nil value)
  | cons byte rest =>
      have member : byte ∈ decimal value := by
        rw [shape]
        exact List.mem_cons_self
      exact ⟨byte, rest, rfl, decimal_isDigit member⟩

theorem takeWhile_decimal (value : Nat) : (decimal value).takeWhile isDigit = decimal value :=
  List.takeWhile_eq_self_iff.mpr fun _ member => decimal_isDigit member

/-- Printing a 64-bit value and reading it back gives the value. -/
theorem stoll_toString {value : Int} (lower : -2 ^ 63 ≤ value) (upper : value < 2 ^ 63) :
    stoll (toString value) = some value := by
  by_cases negative : value < 0
  · have digits := takeWhile_decimal value.natAbs
    have restored : -(value.natAbs : Int) = value := by omega
    simp only [toString, if_pos negative, stoll]
    rw [List.dropWhile_cons_of_neg (by decide)]
    simp only [digits, decimal_ne_nil, digitsValue_decimal, restored, if_true, if_false]
    rw [if_pos ⟨lower, upper⟩]
  · have digits := takeWhile_decimal value.toNat
    have restored : (value.toNat : Int) = value := by omega
    rcases exists_decimal_cons value.toNat with ⟨byte, rest, shape, digit⟩
    have notSpace : ¬isSpace byte = true := by simp [isSpace_eq_false_of_isDigit digit]
    have notMinus : byte ≠ 0x2d := by rintro rfl; exact absurd digit (by decide)
    have notPlus : byte ≠ 0x2b := by rintro rfl; exact absurd digit (by decide)
    have kept : (decimal value.toNat).dropWhile isSpace = decimal value.toNat := by
      rw [shape, List.dropWhile_cons_of_neg notSpace]
    have unsigned : (match byte :: rest with
        | 0x2d :: rest => (true, rest)
        | 0x2b :: rest => (false, rest)
        | rest => (false, rest)) = (false, byte :: rest) := by
      split
      next equal => exact absurd (List.cons.inj equal).1 notMinus
      next equal => exact absurd (List.cons.inj equal).1 notPlus
      next => rfl
    simp only [toString, if_neg negative, stoll, kept]
    rw [shape, unsigned]
    simp only [← shape, digits, decimal_ne_nil, digitsValue_decimal, restored, if_false,
      Bool.false_eq_true]
    rw [if_pos ⟨lower, upper⟩]

/-- Decimal text is digits behind an optional sign. -/
theorem mem_toString {value : Int} {byte : UInt8} (member : byte ∈ toString value) :
    byte = 0x2d ∨ isDigit byte = true := by
  unfold toString at member
  split at member
  next =>
      rcases List.mem_cons.mp member with sign | digit
      · exact .inl sign
      · exact .inr (decimal_isDigit digit)
  next => exact .inr (decimal_isDigit member)

theorem minus_not_mem_decimal (value : Nat) : (0x2d : UInt8) ∉ decimal value := by
  intro member
  exact absurd (decimal_isDigit member) (by decide)

theorem toString_injective : Function.Injective toString := by
  intro left right equal
  unfold toString at equal
  split at equal
  next leftNegative =>
      split at equal
      next rightNegative =>
          have magnitude := decimal_injective (List.cons.inj equal).2
          omega
      next =>
          have sign := minus_not_mem_decimal right.toNat
          rw [← equal] at sign
          exact absurd List.mem_cons_self sign
  next =>
      split at equal
      next =>
          have sign := minus_not_mem_decimal left.toNat
          rw [equal] at sign
          exact absurd List.mem_cons_self sign
      next =>
          have magnitude := decimal_injective equal
          omega

example : toString (-65536) = ascii "-65536" := by decide

example : stoll (ascii "9223372036854775808") = none := by decide

end VgiRpc.Cpp
