import Mathlib.Tactic

/-!
# Percent-encoding

Bytes of a class are written as they are, every other one as a percent sign and two
hexadecimal digits.  As the percent sign is not in the class, reading back is possible, and
no byte outside the class but the percent sign is written.
-/

namespace VgiRpc.Lib

/-- A digit of an escape, in upper case. -/
def escapeDigit (value : UInt8) : UInt8 := if value < 10 then 0x30 + value else 0x41 + (value - 10)

/-- Value of a digit of an escape, of either case. -/
def escapeValue (byte : UInt8) : Option UInt8 :=
  if 0x30 ≤ byte ∧ byte ≤ 0x39 then some (byte - 0x30)
  else if 0x41 ≤ byte ∧ byte ≤ 0x46 then some (byte - 0x41 + 10)
  else if 0x61 ≤ byte ∧ byte ≤ 0x66 then some (byte - 0x61 + 10)
  else none

/-- The text of one byte. -/
def escapeByte (keep : UInt8 → Bool) (byte : UInt8) : List UInt8 :=
  if keep byte then [byte] else [0x25, escapeDigit (byte >>> 4), escapeDigit (byte &&& 15)]

/-- The text of a byte string. -/
def escape (keep : UInt8 → Bool) (value : List UInt8) : List UInt8 := value.flatMap (escapeByte keep)

/-- The byte string of a text, if every percent sign begins an escape. -/
def unescape : List UInt8 → Option (List UInt8)
  | [] => some []
  | 0x25 :: high :: low :: rest => do
      let high ← escapeValue high
      let low ← escapeValue low
      return (high <<< 4 ||| low) :: (← unescape rest)
  | byte :: rest => if byte = 0x25 then none else (unescape rest).map (byte :: ·)

theorem escape_cons (keep : UInt8 → Bool) (byte : UInt8) (value : List UInt8) :
    escape keep (byte :: value) = escapeByte keep byte ++ escape keep value := rfl

/-- The two halves of a byte, and the byte that they make. -/
theorem byte_halves (byte : UInt8) :
    (byte >>> 4 < 16 ∧ byte &&& 15 < 16) ∧ (byte >>> 4) <<< 4 ||| byte &&& 15 = byte := by
  have every : ∀ high < 16, ∀ low < 16,
      (UInt8.ofNat (16 * high + low) >>> 4 < 16 ∧ UInt8.ofNat (16 * high + low) &&& 15 < 16) ∧
        (UInt8.ofNat (16 * high + low) >>> 4) <<< 4 ||| UInt8.ofNat (16 * high + low) &&& 15 =
          UInt8.ofNat (16 * high + low) := by decide
  have bound := byte.toNat_lt
  have here := every (byte.toNat / 16) (by omega) (byte.toNat % 16) (by omega)
  rwa [Nat.div_add_mod, UInt8.ofNat_toNat] at here

theorem escapeValue_digit {digit : UInt8} (small : digit < 16) :
    escapeValue (escapeDigit digit) = some digit := by
  have every : ∀ value < 16,
      escapeValue (escapeDigit (UInt8.ofNat value)) = some (UInt8.ofNat value) := by decide
  have here := every digit.toNat (UInt8.lt_iff_toNat_lt.mp small)
  rwa [UInt8.ofNat_toNat] at here

/-- The digits of a byte are digits, and write it. -/
theorem escapeValue_digits (byte : UInt8) :
    escapeValue (escapeDigit (byte >>> 4)) = some (byte >>> 4) ∧
      escapeValue (escapeDigit (byte &&& 15)) = some (byte &&& 15) ∧
        (byte >>> 4) <<< 4 ||| byte &&& 15 = byte := by
  obtain ⟨⟨high, low⟩, whole⟩ := byte_halves byte
  exact ⟨escapeValue_digit high, escapeValue_digit low, whole⟩

theorem unescape_plain {byte : UInt8} (plain : byte ≠ 0x25) (rest : List UInt8) :
    unescape (byte :: rest) = (unescape rest).map (byte :: ·) := by
  rw [unescape.eq_def]
  split
  next equal => cases equal
  next equal => exact absurd (List.cons.inj equal).1 plain
  next equal =>
      obtain ⟨rfl, rfl⟩ := List.cons.inj equal
      rw [if_neg plain]

/-- A text without a percent sign stands for itself. -/
theorem unescape_of_not_mem {text : List UInt8} (plain : (0x25 : UInt8) ∉ text) :
    unescape text = some text := by
  induction text with
  | nil => rfl
  | cons byte rest inductionHypothesis =>
      rw [List.mem_cons, not_or] at plain
      rw [unescape_plain (Ne.symm plain.1), inductionHypothesis plain.2]
      rfl

section Escape

variable {keep : UInt8 → Bool} (marked : keep 0x25 = false)

include marked

theorem unescape_escapeByte (byte : UInt8) (rest : List UInt8) :
    unescape (escapeByte keep byte ++ rest) = (unescape rest).map (byte :: ·) := by
  rw [escapeByte]
  split
  next kept =>
      have plain : byte ≠ 0x25 := by
        rintro rfl
        rw [marked] at kept
        cases kept
      exact unescape_plain plain rest
  next =>
      obtain ⟨high, low, whole⟩ := escapeValue_digits byte
      rw [List.cons_append, List.cons_append, List.cons_append, List.nil_append, unescape, high, low]
      simp only [Option.bind_eq_bind, Option.bind_some, whole]
      cases unescape rest with
      | none => rfl
      | some value => rfl

/-- Reading back undoes writing. -/
theorem unescape_escape (value : List UInt8) : unescape (escape keep value) = some value := by
  induction value with
  | nil => rfl
  | cons byte value inductionHypothesis =>
      rw [escape_cons, unescape_escapeByte marked, inductionHypothesis]
      rfl

end Escape

/-- Only bytes of the class, percent signs and digits are written. -/
theorem mem_escape {keep : UInt8 → Bool} {value : List UInt8} {byte : UInt8}
    (member : byte ∈ escape keep value) :
    keep byte = true ∨ byte = 0x25 ∨ ∃ digit : UInt8, digit < 16 ∧ byte = escapeDigit digit := by
  rw [escape, List.mem_flatMap] at member
  rcases member with ⟨source, -, member⟩
  rw [escapeByte] at member
  split at member
  next kept =>
      rw [List.mem_singleton] at member
      exact .inl (member ▸ kept)
  next =>
      have nibbles := (byte_halves source).1
      simp only [List.mem_cons, List.not_mem_nil, or_false] at member
      rcases member with rfl | rfl | rfl
      · exact .inr (.inl rfl)
      · exact .inr (.inr ⟨_, nibbles.1, rfl⟩)
      · exact .inr (.inr ⟨_, nibbles.2, rfl⟩)

/-- A separator that is neither of the class nor a percent sign nor a digit is not written. -/
theorem not_mem_escape {keep : UInt8 → Bool} {separator : UInt8} (dropped : keep separator = false)
    (mark : separator ≠ 0x25) (digit : escapeValue separator = none) (value : List UInt8) :
    separator ∉ escape keep value := by
  intro member
  rcases mem_escape member with kept | percent | ⟨value, small, rfl⟩
  · rw [dropped] at kept
    cases kept
  · exact mark percent
  · have every : ∀ value, value < 16 →
        (escapeValue (escapeDigit (UInt8.ofNat value))).isSome = true := by decide
    have known := every value.toNat (UInt8.lt_iff_toNat_lt.mp small)
    rw [UInt8.ofNat_toNat, digit] at known
    cases known

end VgiRpc.Lib
