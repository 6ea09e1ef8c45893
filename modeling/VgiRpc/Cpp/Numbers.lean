import VgiRpc.Crypto.Encoding

/-!
# Numbers in text

`std::from_chars` and `std::stoull` on unsigned 64-bit numbers.
-/

namespace VgiRpc.Cpp

open VgiRpc.Crypto

/-- Value of one digit to the base ten. -/
def decimalNibble (byte : UInt8) : Option Nat :=
  if isDigit byte then some (digitValue byte) else none

section Digits

variable (base : Nat) (digit : UInt8 → Option Nat)

/-- Value of a run of digits, most significant first. -/
def numeralValue (text : Bytes) : Nat :=
  text.foldl (fun value byte => value * base + (digit byte).getD 0) 0

/-- `std::from_chars` on a `size_t`: the longest run of digits, without sign, prefix or
space, and what is behind it.  `none` is an error, of either kind. -/
def fromChars (text : Bytes) : Option (Nat × Bytes) :=
  let digits := text.takeWhile fun byte => (digit byte).isSome
  if digits = [] then none
  else if 2 ^ 64 ≤ numeralValue base digit digits then none
  else some (numeralValue base digit digits, text.dropWhile fun byte => (digit byte).isSome)

variable {base digit} {text : Bytes}

theorem numeralValue_append (text : Bytes) (byte : UInt8) :
    numeralValue base digit (text ++ [byte]) =
      numeralValue base digit text * base + (digit byte).getD 0 := by
  simp [numeralValue]

/-- So many digits stay below the power of the base. -/
theorem numeralValue_lt (small : ∀ byte ∈ text, (digit byte).getD 0 < base) :
    numeralValue base digit text < base ^ text.length := by
  induction text using List.reverseRecOn with
  | nil => simp [numeralValue]
  | append_singleton text byte inductionHypothesis =>
      rw [List.forall_mem_append, List.forall_mem_singleton] at small
      have front := inductionHypothesis small.1
      rw [numeralValue_append, List.length_append, List.length_singleton, Nat.pow_succ]
      calc
        numeralValue base digit text * base + (digit byte).getD 0
            < numeralValue base digit text * base + base := by omega
        _ = (numeralValue base digit text + 1) * base := by rw [Nat.add_one_mul]
        _ ≤ base ^ text.length * base := Nat.mul_le_mul_right base front

/-- A text that is a number as a whole. -/
theorem fromChars_whole {value : Nat} :
    fromChars base digit text = some (value, []) ↔
      text ≠ [] ∧ (∀ byte ∈ text, (digit byte).isSome = true) ∧
        value = numeralValue base digit text ∧ value < 2 ^ 64 := by
  constructor
  · intro read
    rw [fromChars] at read
    split at read
    next => cases read
    next present =>
        split at read
        next => cases read
        next bounded =>
            simp only [Option.some.injEq, Prod.mk.injEq] at read
            have digits := List.dropWhile_eq_nil_iff.mp read.2
            have whole : text.takeWhile (fun byte => (digit byte).isSome) = text :=
              List.takeWhile_eq_self_iff.mpr digits
            rw [whole] at present read bounded
            exact ⟨present, digits, read.1.symm, by omega⟩
  · rintro ⟨present, digits, rfl, bounded⟩
    have whole : text.takeWhile (fun byte => (digit byte).isSome) = text :=
      List.takeWhile_eq_self_iff.mpr digits
    rw [fromChars]
    simp only [whole, if_neg present, if_neg (Nat.not_le.mpr bounded),
      List.dropWhile_eq_nil_iff.mpr digits]

end Digits

/-- The optional sign of a number: whether it is a minus, and what is behind it. -/
def splitSign : Bytes → Bool × Bytes
  | 0x2d :: rest => (true, rest)
  | 0x2b :: rest => (false, rest)
  | text => (false, text)

/-- The optional `0x` in front of hexadecimal digits. -/
def dropHexPrefix : Bytes → Bytes
  | 0x30 :: mark :: digit :: rest =>
      if (mark = 0x78 ∨ mark = 0x58) ∧ (hexNibble digit).isSome = true then digit :: rest
      else 0x30 :: mark :: digit :: rest
  | text => text

/-- `std::stoull` to the base 16: leading space, an optional sign, an optional `0x`, then the
longest run of digits.  `none` stands for the `std::invalid_argument` of an empty run and the
`std::out_of_range` of a value outside 64 bits. -/
def stoullHex (text : Bytes) : Option Nat :=
  let signed := splitSign (text.dropWhile isSpace)
  (fromChars 16 hexNibble (dropHexPrefix signed.2)).map fun read =>
    if signed.1 then (2 ^ 64 - read.1) % 2 ^ 64 else read.1

section Plain

variable {first second : UInt8} {rest : Bytes}

theorem splitSign_plain (minus : first ≠ 0x2d) (plus : first ≠ 0x2b) :
    splitSign (first :: rest) = (false, first :: rest) := by
  unfold splitSign
  split
  next equal => exact absurd (List.cons.inj equal).1 minus
  next equal => exact absurd (List.cons.inj equal).1 plus
  next => rfl

theorem dropHexPrefix_plain (lower : second ≠ 0x78) (upper : second ≠ 0x58) :
    dropHexPrefix (first :: second :: rest) = first :: second :: rest := by
  unfold dropHexPrefix
  split
  next equal =>
      simp only [List.cons.injEq] at equal
      obtain ⟨rfl, rfl, rfl⟩ := equal
      rw [if_neg (fun prefixed => prefixed.1.elim lower upper)]
  next => rfl

end Plain

end VgiRpc.Cpp
