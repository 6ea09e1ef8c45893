import VgiRpc.Lib.Rounding

/-!
# Doubles by their values

A sum, a difference or a conversion gives the double that is nearest to the exact result, or an
infinity if that is too large.  Nothing compares with what is not a number.
-/

namespace VgiRpc.Cpp

open VgiRpc.Lib.Rounding

/-- The format of `double`. -/
def binary64 : Format := ⟨53, -1074, by decide⟩

/-- Where the finite doubles end. -/
def overflow : ℚ := 2 ^ 1024

/-- The nearest number of the format, the even one of two. -/
def nearest (rational : ℚ) : ℚ := binary64.round .nearestEven rational

/-- A finite double; its two zeros are one. -/
structure Number where
  value : ℚ
  exact_ : binary64.Exact value
  bounded : |value| < overflow
  deriving DecidableEq

/-- `double`. -/
inductive Binary64 where
  | nan
  | infinite (negative : Bool)
  | finite (number : Number)
  deriving DecidableEq

namespace Binary64

/-- The double for a rational. -/
def ofRat (rational : ℚ) : Binary64 :=
  if bounded : |nearest rational| < overflow then
    .finite ⟨nearest rational, Format.exact_round _ _ _, bounded⟩
  else .infinite (rational < 0)

/-- `static_cast<double>`. -/
def ofInt (integer : Int) : Binary64 := ofRat integer

/-- `+`. -/
def add : Binary64 → Binary64 → Binary64
  | .finite first, .finite second => ofRat (first.value + second.value)
  | .finite _, .infinite negative | .infinite negative, .finite _ => .infinite negative
  | .infinite first, .infinite second => if first = second then .infinite first else .nan
  | .nan, _ | _, .nan => .nan

def neg : Binary64 → Binary64
  | .finite number => ofRat (-number.value)
  | .infinite negative => .infinite !negative
  | .nan => .nan

/-- `<`. -/
def lt : Binary64 → Binary64 → Bool
  | .finite first, .finite second => first.value < second.value
  | .finite _, .infinite negative => !negative
  | .infinite negative, .finite _ => negative
  | .infinite first, .infinite second => first && !second
  | .nan, _ | _, .nan => false

/-- `<=`. -/
def le : Binary64 → Binary64 → Bool
  | .finite first, .finite second => first.value ≤ second.value
  | .finite _, .infinite negative => !negative
  | .infinite negative, .finite _ => negative
  | .infinite first, .infinite second => first || !second
  | .nan, _ | _, .nan => false

instance : Add Binary64 := ⟨add⟩
instance : Sub Binary64 := ⟨fun first second => add first (neg second)⟩
instance : LT Binary64 := ⟨fun first second => lt first second⟩
instance : LE Binary64 := ⟨fun first second => le first second⟩
instance (first second : Binary64) : Decidable (first < second) :=
  inferInstanceAs (Decidable (lt first second = true))
instance (first second : Binary64) : Decidable (first ≤ second) :=
  inferInstanceAs (Decidable (le first second = true))

end Binary64

/-! ## Rounding to a double -/

theorem nearest_mono : Monotone nearest := binary64.round_mono .nearestEven

theorem nearest_exact {rational : ℚ} (exact_ : binary64.Exact rational) : nearest rational = rational :=
  Format.round_exact .nearestEven exact_

/-- Rounding does not pass a number of the format. -/
theorem nearest_le {rational bound : ℚ} (exact_ : binary64.Exact bound) (order : rational ≤ bound) :
    nearest rational ≤ bound :=
  (nearest_mono order).trans (nearest_exact exact_).le

theorem le_nearest {rational bound : ℚ} (exact_ : binary64.Exact bound) (order : bound ≤ rational) :
    bound ≤ nearest rational :=
  (nearest_exact exact_).ge.trans (nearest_mono order)

/-- An integer of at most 53 bits, or 2^53, is a double. -/
theorem exact_int {integer : Int} (small : |integer| ≤ 2 ^ 53) : binary64.Exact (integer : ℚ) :=
  Format.exact_intCast small (by decide)

theorem nearest_int {integer : Int} (small : |integer| ≤ 2 ^ 53) : nearest integer = integer :=
  nearest_exact (exact_int small)

/-- If a sum rounds to an integer of so many bits, it is less than one unit in the last place
below. -/
theorem lt_of_le_nearest {integer : Int} {power : Nat} {rational : ℚ} (bits : power ≤ 53)
    (size : |integer| < 2 ^ power) (order : integer ≤ nearest rational) :
    integer - (2 : ℚ) ^ ((power : Int) - 53) < rational := by
  by_contra below
  have spelled : (integer : ℚ) - 2 ^ ((power : Int) - 53) =
      ((integer * 2 ^ (53 - power) - 1 : Int) : ℚ) * 2 ^ ((power : Int) - 53) := by
    have shift : (2 : ℚ) ^ (53 - power) * 2 ^ ((power : Int) - 53) = 1 := by
      rw [← zpow_natCast, ← zpow_add₀ two_ne_zero, show ((53 - power : Nat) : Int) +
        ((power : Int) - 53) = 0 by omega, zpow_zero]
    push_cast
    rw [sub_mul, mul_assoc, shift, mul_one, one_mul]
  have digits : |integer * 2 ^ (53 - power) - 1| ≤ 2 ^ binary64.precision := by
    have scaled : (|integer| + 1) * 2 ^ (53 - power) ≤ 2 ^ 53 := by
      calc
        (|integer| + 1) * 2 ^ (53 - power)
        _ ≤ 2 ^ power * 2 ^ (53 - power) :=
          mul_le_mul_of_nonneg_right size (by positivity)
        _ = 2 ^ 53 := by rw [← pow_add, Nat.add_sub_cancel' bits]
    have positive : (1 : Int) ≤ 2 ^ (53 - power) := one_le_pow₀ (by norm_num)
    have triangle := abs_sub (integer * 2 ^ (53 - power)) 1
    rw [abs_mul, abs_one, abs_of_pos (by positivity : (0 : Int) < 2 ^ (53 - power))] at triangle
    change _ ≤ (2 : Int) ^ 53
    linarith
  have exact_ : binary64.Exact ((integer : ℚ) - 2 ^ ((power : Int) - 53)) := by
    rw [spelled]
    exact Format.exact_of_le digits (by change (-1074 : Int) ≤ _; omega)
  have rounded := nearest_le exact_ (not_lt.mp below)
  have positive : (0 : ℚ) < 2 ^ ((power : Int) - 53) := by positivity
  linarith

theorem lt_overflow {rational : ℚ} {power : Nat} (size : |rational| ≤ 2 ^ power)
    (fits : power < 1024) : |rational| < overflow :=
  size.trans_lt (pow_lt_pow_right₀ one_lt_two fits)

/-- An integer that is a double. -/
def Number.ofInt (integer : Int) (small : |integer| ≤ 2 ^ 53) : Number where
  value := integer
  exact_ := exact_int small
  bounded := by
    have size : |(integer : ℚ)| ≤ 2 ^ 53 := by exact_mod_cast small
    exact lt_overflow size (by decide)

namespace Binary64

variable {rational : ℚ} {number : Number}

theorem ofRat_finite (bounded : |nearest rational| < overflow) :
    ofRat rational = .finite ⟨nearest rational, Format.exact_round _ _ _, bounded⟩ :=
  dif_pos bounded

/-- A rational too large for a double stands beyond every finite one. -/
theorem beyond (large : ¬|nearest rational| < overflow) (number : Number) :
    if rational < 0 then nearest rational < number.value else number.value < nearest rational := by
  have bounds := abs_lt.mp number.bounded
  rw [not_lt] at large
  split_ifs with negative
  · have nonpos : nearest rational ≤ 0 := Format.round_nonpos negative.le
    rw [abs_of_nonpos nonpos] at large
    linarith
  · have nonneg : 0 ≤ nearest rational := Format.round_nonneg (not_lt.mp negative)
    rw [abs_of_nonneg nonneg] at large
    linarith

theorem ofRat_lt_finite : ofRat rational < .finite number ↔ nearest rational < number.value := by
  by_cases bounded : |nearest rational| < overflow
  · rw [ofRat_finite bounded]
    exact decide_eq_true_iff
  · have far := beyond bounded number
    rw [ofRat, dif_neg bounded]
    change decide (rational < 0) = true ↔ _
    rw [decide_eq_true_iff]
    split_ifs at far with negative
    · exact iff_of_true negative far
    · exact iff_of_false negative far.not_gt

theorem ofRat_le_finite : ofRat rational ≤ .finite number ↔ nearest rational ≤ number.value := by
  by_cases bounded : |nearest rational| < overflow
  · rw [ofRat_finite bounded]
    exact decide_eq_true_iff
  · have far := beyond bounded number
    rw [ofRat, dif_neg bounded]
    change decide (rational < 0) = true ↔ _
    rw [decide_eq_true_iff]
    split_ifs at far with negative
    · exact iff_of_true negative far.le
    · exact iff_of_false negative far.not_ge

/-- A 64-bit integer has a finite double. -/
theorem ofInt_finite (integer : Int64) : ∃ number : Number,
    ofInt integer.toInt = .finite number ∧ number.value = nearest integer.toInt := by
  have above : nearest integer.toInt ≤ 2 ^ 63 :=
    nearest_le ⟨1, 63, by decide, by decide, by norm_num⟩
      (by exact_mod_cast integer.toInt_lt.le)
  have below : -2 ^ 63 ≤ nearest integer.toInt :=
    le_nearest ⟨-1, 63, by decide, by decide, by norm_num⟩
      (by exact_mod_cast integer.le_toInt)
  have bounded : |nearest integer.toInt| < overflow :=
    lt_overflow (abs_le.mpr ⟨below, above⟩) (by decide)
  exact ⟨_, ofRat_finite bounded, rfl⟩

theorem add_finite (first second : Number) :
    Binary64.finite first + .finite second = ofRat (first.value + second.value) := rfl

end Binary64

end VgiRpc.Cpp
