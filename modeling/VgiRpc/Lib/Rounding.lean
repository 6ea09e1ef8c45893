import Mathlib.Data.Int.Log
import Mathlib.Tactic

/-!
# Rounding to a binary format

A number of a format is an integer of so many bits times a power of two that is not too small.
To round a rational, it is measured in the last bit that the format has for numbers of its size,
and that multiple is rounded to an integer.  How this is done is the mode.
-/

namespace VgiRpc.Lib.Rounding

/-- So many bits, and the least power of two. -/
structure Format where
  precision : Nat
  least : Int
  positive : 0 < precision

/-- An integer for every rational, in the same order, and the integers themselves. -/
structure Mode where
  toInt : ℚ → Int
  monotone : Monotone toInt
  toInt_intCast : ∀ integer : Int, toInt integer = integer

namespace Mode

/-- To the next integer above. -/
def up : Mode := ⟨Int.ceil, Int.ceil_mono, Int.ceil_intCast⟩

/-- To the nearest integer, and to the even one of two that are as near. -/
def evenInt (rational : ℚ) : Int :=
  let below := ⌊rational⌋
  if rational - below < 1 / 2 ∨ rational - below = 1 / 2 ∧ below % 2 = 0 then below else below + 1

theorem evenInt_bounds (rational : ℚ) : ⌊rational⌋ ≤ evenInt rational ∧
    evenInt rational ≤ ⌊rational⌋ + 1 := by
  rw [evenInt]
  split_ifs <;> omega

theorem evenInt_mono : Monotone evenInt := by
  intro first second order
  rcases (Int.floor_mono order).lt_or_eq with apart | same
  · have above := (evenInt_bounds first).2
    have below := (evenInt_bounds second).1
    omega
  · rw [evenInt, evenInt, ← same]
    split_ifs with low high
    · exact le_refl _
    · omega
    · rename_i high
      refine (low ?_).elim
      rcases high with less | ⟨half, even⟩
      · exact .inl (by linarith)
      · rcases order.lt_or_eq with less | rfl
        · exact .inl (by linarith)
        · exact .inr ⟨half, even⟩
    · exact le_refl _

theorem evenInt_intCast (integer : Int) : evenInt integer = integer := by
  rw [evenInt, Int.floor_intCast, sub_self, if_pos (.inl (by norm_num))]

def nearestEven : Mode := ⟨evenInt, evenInt_mono, evenInt_intCast⟩

/-- The mirror image at zero. -/
def mirrored (mode : Mode) : Mode where
  toInt rational := -mode.toInt (-rational)
  monotone := fun _ _ order => neg_le_neg (mode.monotone (neg_le_neg order))
  toInt_intCast integer := by
    rw [← Int.cast_neg, mode.toInt_intCast, neg_neg]

end Mode

namespace Format

variable {format : Format} {mode : Mode} {rational first second : ℚ}

/-- The power of two of the last bit for numbers of this size. -/
def exponent (format : Format) (rational : ℚ) : Int :=
  max (Int.log 2 |rational| + 1 - format.precision) format.least

def unit (format : Format) (rational : ℚ) : ℚ := 2 ^ format.exponent rational

/-- The rational, rounded. -/
def round (format : Format) (mode : Mode) (rational : ℚ) : ℚ :=
  mode.toInt (rational / format.unit rational) * format.unit rational

/-- The rational is a number of the format. -/
def Exact (format : Format) (rational : ℚ) : Prop :=
  ∃ digits scale : Int, |digits| < 2 ^ format.precision ∧ format.least ≤ scale ∧
    rational = digits * 2 ^ scale

theorem unit_pos (format : Format) (rational : ℚ) : 0 < format.unit rational := by
  rw [unit]
  positivity

theorem exponent_neg (format : Format) (rational : ℚ) :
    format.exponent (-rational) = format.exponent rational := by
  rw [exponent, abs_neg, exponent]

theorem unit_neg (format : Format) (rational : ℚ) : format.unit (-rational) = format.unit rational := by
  rw [unit, exponent_neg, unit]

theorem round_neg (format : Format) (mode : Mode) (rational : ℚ) :
    format.round mode (-rational) = -format.round mode.mirrored rational := by
  rw [round, round, Mode.mirrored, unit_neg, Int.cast_neg, neg_div, neg_mul, neg_neg]

/-! ## Multiples of the last bit -/

/-- Rounding does not pass a multiple of the last bit. -/
theorem round_le {bound : Int} (order : rational ≤ bound * format.unit rational) :
    format.round mode rational ≤ bound * format.unit rational := by
  have positive := format.unit_pos rational
  have rounded := mode.monotone ((div_le_iff₀ positive).mpr order)
  rw [mode.toInt_intCast] at rounded
  exact mul_le_mul_of_nonneg_right (by exact_mod_cast rounded) positive.le

theorem le_round {bound : Int} (order : bound * format.unit rational ≤ rational) :
    bound * format.unit rational ≤ format.round mode rational := by
  have positive := format.unit_pos rational
  have rounded := mode.monotone ((le_div_iff₀ positive).mpr order)
  rw [mode.toInt_intCast] at rounded
  exact mul_le_mul_of_nonneg_right (by exact_mod_cast rounded) positive.le

/-- A power of two that is no smaller than the last bit is a multiple of it. -/
theorem exists_multiple {power : Int} (larger : format.exponent rational ≤ power) :
    ∃ bound : Int, (2 : ℚ) ^ power = bound * format.unit rational := by
  refine ⟨2 ^ (power - format.exponent rational).toNat, ?_⟩
  rw [unit, Int.cast_pow, Int.cast_ofNat, ← zpow_natCast, ← zpow_add₀ two_ne_zero,
    Int.toNat_of_nonneg (by omega), sub_add_cancel]

theorem round_nonneg (order : 0 ≤ rational) : 0 ≤ format.round mode rational := by
  have bounded : ((0 : Int) : ℚ) * format.unit rational ≤ format.round mode rational :=
    le_round (by simpa using order)
  simpa using bounded

theorem round_nonpos (order : rational ≤ 0) : format.round mode rational ≤ 0 := by
  have bounded : format.round mode rational ≤ ((0 : Int) : ℚ) * format.unit rational :=
    round_le (by simpa using order)
  simpa using bounded

/-! ## The order -/

theorem exponent_mono (format : Format) (positive : 0 < first) (order : first ≤ second) :
    format.exponent first ≤ format.exponent second := by
  have log := Int.log_mono_right (b := 2) positive order
  rw [exponent, exponent, abs_of_pos positive, abs_of_pos (positive.trans_le order)]
  omega

theorem round_mono_pos (format : Format) (mode : Mode) (positive : 0 < first)
    (order : first ≤ second) :
    format.round mode first ≤ format.round mode second := by
  rcases (format.exponent_mono positive order).lt_or_eq with apart | same
  · -- A power of two stands between them, and is a multiple of the last bit of each.
    have sizes : Int.log 2 first < Int.log 2 second := by
      rw [exponent, exponent, abs_of_pos positive, abs_of_pos (positive.trans_le order)] at apart
      omega
    have large : format.exponent second ≤ Int.log 2 second := by
      have := format.positive
      rw [exponent, exponent, abs_of_pos (positive.trans_le order)] at *
      omega
    obtain ⟨low, ofFirst⟩ := exists_multiple (apart.le.trans large)
    obtain ⟨high, ofSecond⟩ := exists_multiple large
    have below : first ≤ 2 ^ Int.log 2 second :=
      ((Int.lt_zpow_iff_log_lt (b := 2) (by norm_num) positive).mpr sizes).le
    have above : (2 : ℚ) ^ Int.log 2 second ≤ second := by
      exact_mod_cast Int.zpow_log_le_self (b := 2) (by norm_num) (positive.trans_le order)
    calc
      format.round mode first
      _ ≤ 2 ^ Int.log 2 second := by
        rw [ofFirst] at below ⊢
        exact round_le below
      _ ≤ format.round mode second := by
        rw [ofSecond] at above ⊢
        exact le_round above
  · have units : format.unit first = format.unit second := by rw [unit, same, unit]
    have positive := format.unit_pos second
    have rounded := mode.monotone (div_le_div_of_nonneg_right order positive.le)
    rw [round, round, units]
    exact mul_le_mul_of_nonneg_right (by exact_mod_cast rounded) positive.le

/-- Rounding keeps the order. -/
theorem round_mono (format : Format) (mode : Mode) : Monotone (format.round mode) := by
  intro first second order
  rcases lt_or_ge 0 first with positive | nonpos
  · exact format.round_mono_pos mode positive order
  rcases lt_or_ge second 0 with negative | nonneg
  · have mirrored := format.round_mono_pos mode.mirrored
      (neg_pos.mpr negative) (neg_le_neg order)
    rw [← neg_le_neg_iff, ← round_neg, ← round_neg, neg_neg, neg_neg] at mirrored
    exact mirrored
  · exact (round_nonpos nonpos).trans (round_nonneg nonneg)

/-! ## Numbers of the format -/

theorem exponent_le {digits scale : Int} (nonzero : digits ≠ 0)
    (bits : |digits| < 2 ^ format.precision) (fits : format.least ≤ scale) :
    format.exponent (digits * 2 ^ scale) ≤ scale := by
  have positive : 0 < |(digits : ℚ) * 2 ^ scale| :=
    abs_pos.mpr (mul_ne_zero (Int.cast_ne_zero.mpr nonzero) (by positivity))
  have size : |(digits : ℚ) * 2 ^ scale| < 2 ^ (format.precision + scale) := by
    rw [abs_mul, abs_of_pos (by positivity : (0 : ℚ) < 2 ^ scale), zpow_add₀ two_ne_zero,
      zpow_natCast]
    exact mul_lt_mul_of_pos_right (by exact_mod_cast bits) (by positivity)
  have log := (Int.lt_zpow_iff_log_lt (b := 2) (by norm_num) positive).mp size
  rw [exponent]
  omega

/-- A number of the format is a multiple of its last bit. -/
theorem Exact.exists_multiple (exact_ : format.Exact rational) :
    ∃ bound : Int, rational = bound * format.unit rational := by
  obtain ⟨digits, scale, bits, fits, rfl⟩ := exact_
  by_cases zero : digits = 0
  · exact ⟨0, by simp [zero]⟩
  · obtain ⟨multiple, spelled⟩ := Format.exists_multiple (exponent_le zero bits fits)
    refine ⟨digits * multiple, ?_⟩
    rw [Int.cast_mul, mul_assoc, ← spelled]

/-- Rounding leaves the numbers of the format as they are. -/
theorem round_exact (mode : Mode) (exact_ : format.Exact rational) :
    format.round mode rational = rational := by
  obtain ⟨bound, multiple⟩ := exact_.exists_multiple
  apply le_antisymm
  · exact (round_le multiple.le).trans multiple.ge
  · exact multiple.le.trans (le_round multiple.ge)

/-- So many bits, or the next power of two. -/
theorem exact_of_le {digits scale : Int} (bits : |digits| ≤ 2 ^ format.precision)
    (fits : format.least ≤ scale) : format.Exact (digits * 2 ^ scale) := by
  rcases bits.lt_or_eq with fewer | all
  · exact ⟨digits, scale, fewer, fits, rfl⟩
  · obtain ⟨rest, split⟩ := Nat.exists_eq_succ_of_ne_zero format.positive.ne'
    rw [split, Nat.succ_eq_add_one, pow_succ'] at all
    have half : ∃ half : Int, digits = 2 * half ∧ |half| = 2 ^ rest := by
      rcases abs_choice digits with same | same
      · exact ⟨2 ^ rest, by rw [← all, same], abs_of_pos (by positivity)⟩
      · refine ⟨-2 ^ rest, by rw [mul_neg, ← all, same, neg_neg], ?_⟩
        rw [abs_neg, abs_of_pos (by positivity)]
    obtain ⟨half, rfl, size⟩ := half
    refine ⟨half, scale + 1, ?_, by omega, ?_⟩
    · rw [size, split]
      exact pow_lt_pow_right₀ (by norm_num) (Nat.lt_succ_self rest)
    · rw [zpow_add_one₀ two_ne_zero]
      push_cast
      ring

theorem exact_intCast {integer : Int} (bits : |integer| ≤ 2 ^ format.precision)
    (fits : format.least ≤ 0) : format.Exact (integer : ℚ) := by
  have spelled := exact_of_le bits fits
  rwa [zpow_zero, mul_one] at spelled

theorem abs_div_unit_lt (format : Format) (rational : ℚ) :
    |rational / format.unit rational| < 2 ^ format.precision := by
  have positive := format.unit_pos rational
  rw [abs_div, abs_of_pos positive, div_lt_iff₀ positive]
  calc
    |rational|
    _ < 2 ^ (Int.log 2 |rational| + 1) := by
      exact_mod_cast Int.lt_zpow_succ_log_self (b := 2) (by norm_num) |rational|
    _ ≤ 2 ^ (format.precision + format.exponent rational) := by
      refine zpow_le_zpow_right₀ (by norm_num) ?_
      rw [exponent]
      omega
    _ = 2 ^ format.precision * format.unit rational := by
      rw [zpow_add₀ two_ne_zero, zpow_natCast, unit]

/-- What is rounded is a number of the format. -/
theorem exact_round (format : Format) (mode : Mode) (rational : ℚ) :
    format.Exact (format.round mode rational) := by
  obtain ⟨below, above⟩ := abs_lt.mp (format.abs_div_unit_lt rational)
  have limit : ((2 ^ format.precision : Int) : ℚ) = 2 ^ format.precision := by push_cast; rfl
  refine exact_of_le (abs_le.mpr ⟨?_, ?_⟩) (le_max_right _ _)
  · rw [← limit, ← Int.cast_neg] at below
    simpa only [mode.toInt_intCast] using mode.monotone below.le
  · rw [← limit] at above
    simpa only [mode.toInt_intCast] using mode.monotone above.le

/-! ## Upwards -/

theorem le_round_up (format : Format) (rational : ℚ) : rational ≤ format.round .up rational := by
  have positive := format.unit_pos rational
  rw [round, ← div_le_iff₀ positive]
  exact Int.le_ceil _

/-- Rounded upwards, a rational is the least number of the format that is not below it. -/
theorem round_up_le_iff (exact_ : format.Exact second) :
    format.round .up first ≤ second ↔ first ≤ second := by
  constructor
  · exact fun order => (format.le_round_up first).trans order
  · intro order
    rw [← round_exact .up exact_]
    exact format.round_mono .up order

end Format

end VgiRpc.Lib.Rounding
