import VgiRpc.Cpp.Json

/-!
# Doubles by their bits

A `double` is its 64 bits.  A finite one has an exact rational value, on which the
comparisons and the conversion to an integer are defined.
-/

namespace VgiRpc.Cpp.Double

def exponent (bits : UInt64) : Nat := bits.toNat / 2 ^ 52 % 2 ^ 11
def fraction (bits : UInt64) : Nat := bits.toNat % 2 ^ 52
def isNegative (bits : UInt64) : Bool := 2 ^ 63 ≤ bits.toNat

/-- The significand as an integer; the leading bit of a subnormal number is zero. -/
def significand (bits : UInt64) : Nat :=
  if exponent bits = 0 then fraction bits else 2 ^ 52 + fraction bits

/-- The power of two of the last bit of the significand. -/
def scale (bits : UInt64) : Int := (max 1 (exponent bits) : Nat) - 1075

/-- The value of a finite double. -/
def value (bits : UInt64) : ℚ :=
  (if isNegative bits then -1 else 1) * significand bits * (2 : ℚ) ^ scale bits

/-- `std::floor(seconds) == seconds`, of a finite double. -/
def isWhole (bits : UInt64) : Bool := (⌊value bits⌋ : ℚ) = value bits

/-- The bits of a non-negative integer, rounded to the nearest double, to even at a tie. -/
def magnitude (integer : Nat) : Nat :=
  if integer = 0 then
    0
  else
    let length := integer.log2
    if length ≤ 52 then
      (length + 1022) * 2 ^ 52 + integer * 2 ^ (52 - length)
    else
      let kept := integer / 2 ^ (length - 52)
      let rest := integer % 2 ^ (length - 52)
      let rounded :=
        if 2 * rest < 2 ^ (length - 52) ∨ 2 * rest = 2 ^ (length - 52) ∧ kept % 2 = 0 then kept
        else kept + 1
      (length + 1022) * 2 ^ 52 + rounded

/-- `static_cast<double>` of a 64-bit integer. -/
def ofInt (integer : Int) : UInt64 :=
  UInt64.ofNat ((if integer < 0 then 2 ^ 63 else 0) + magnitude integer.natAbs)

/-- `==`. -/
def Equal (first second : UInt64) : Prop :=
  if Json.isFinite first ∧ Json.isFinite second then value first = value second
  else first = second ∧ fraction first = 0

theorem isFinite_iff (bits : UInt64) : Json.isFinite bits = true ↔ exponent bits ≠ 2 ^ 11 - 1 := by
  rw [Json.isFinite, bne_iff_ne, not_iff_not, ← UInt64.toNat_inj, UInt64.toNat_and,
    UInt64.toNat_shiftRight]
  change bits.toNat >>> (52 % 64) &&& (2 ^ 11 - 1) = 2 ^ 11 - 1 ↔ _
  rw [Nat.and_two_pow_sub_one_eq_mod, Nat.shiftRight_eq_div_pow]
  rfl

/-- Below 2^53 the bits of an integer spell it out. -/
theorem magnitude_bounds {integer : Nat} (positive : integer ≠ 0) (small : integer < 2 ^ 53) :
    integer.log2 ≤ 52 ∧ 2 ^ 52 ≤ integer * 2 ^ (52 - integer.log2) ∧
      integer * 2 ^ (52 - integer.log2) < 2 ^ 53 := by
  have length : integer.log2 < 53 := (Nat.log2_lt positive).mpr small
  have fits : integer.log2 ≤ 52 := Nat.le_of_lt_succ length
  refine ⟨fits, ?_, ?_⟩
  · have least := Nat.mul_le_mul_right (2 ^ (52 - integer.log2)) (Nat.log2_self_le positive)
    rwa [← Nat.pow_add, Nat.add_sub_cancel' fits] at least
  · have most := Nat.mul_lt_mul_of_pos_right (k := 2 ^ (52 - integer.log2))
      (Nat.lt_log2_self (n := integer)) (by positivity)
    rwa [← Nat.pow_add, show integer.log2 + 1 + (52 - integer.log2) = 53 by omega] at most

theorem ofInt_toNat {integer : Int} (nonzero : integer ≠ 0) (small : integer.natAbs < 2 ^ 53) :
    (ofInt integer).toNat = (if integer < 0 then 2 ^ 63 else 0) +
      ((integer.natAbs.log2 + 1022) * 2 ^ 52 +
        integer.natAbs * 2 ^ (52 - integer.natAbs.log2)) := by
  have positive : integer.natAbs ≠ 0 := Int.natAbs_ne_zero.mpr nonzero
  rcases magnitude_bounds positive small with ⟨length, least, most⟩
  rw [ofInt, magnitude, if_neg positive, if_pos length]
  apply UInt64.toNat_ofNat_of_lt'
  change _ < 2 ^ 64
  split_ifs <;> omega

/-- The three fields of an integer below 2^53. -/
theorem ofInt_fields {integer : Int} (nonzero : integer ≠ 0) (small : integer.natAbs < 2 ^ 53) :
    exponent (ofInt integer) = integer.natAbs.log2 + 1023 ∧
      2 ^ 52 + fraction (ofInt integer) = integer.natAbs * 2 ^ (52 - integer.natAbs.log2) ∧
        isNegative (ofInt integer) = decide (integer < 0) := by
  rcases magnitude_bounds (Int.natAbs_ne_zero.mpr nonzero) small with ⟨length, least, most⟩
  rw [exponent, fraction, isNegative, ofInt_toNat nonzero small, decide_eq_decide]
  generalize integer.natAbs * 2 ^ (52 - integer.natAbs.log2) = shifted at least most ⊢
  split_ifs with negative
  · simp only [negative, iff_true]
    omega
  · simp only [negative, iff_false]
    omega

/-- An integer below 2^53 is its own double. -/
theorem value_ofInt {integer : Int} (small : integer.natAbs < 2 ^ 53) :
    Json.isFinite (ofInt integer) = true ∧ value (ofInt integer) = integer := by
  by_cases zero : integer = 0
  · subst zero
    refine ⟨rfl, ?_⟩
    rw [value, show significand (ofInt 0) = 0 from rfl]
    simp
  rcases ofInt_fields zero small with ⟨power, digits, sign⟩
  have length := (magnitude_bounds (Int.natAbs_ne_zero.mpr zero) small).1
  constructor
  · rw [isFinite_iff, power]
    omega
  · have spelled : (significand (ofInt integer) : ℚ) * 2 ^ scale (ofInt integer) =
        integer.natAbs := by
      rw [significand, power, if_neg (Nat.succ_ne_zero _), digits, scale, power, Nat.cast_mul,
        Nat.cast_pow, Nat.cast_ofNat, mul_assoc, ← zpow_natCast, ← zpow_add₀ two_ne_zero]
      have balanced : ((52 - integer.natAbs.log2 : Nat) : Int) +
          (((max 1 (integer.natAbs.log2 + 1023) : Nat) : Int) - 1075) = 0 := by
        omega
      rw [balanced, zpow_zero, mul_one]
    rw [value, sign, mul_assoc, spelled, Nat.cast_natAbs]
    by_cases negative : integer < 0
    · simp [negative, abs_of_neg negative]
    · simp [negative, abs_of_nonneg (not_lt.mp negative)]

end VgiRpc.Cpp.Double
