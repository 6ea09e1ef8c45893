import Mathlib.Tactic
import Mathlib.Data.Rat.Floor
import VgiRpc.Cpp.Numbers
import VgiRpc.Http.Client

/-!
# Delays between attempts

`retry_delay` spreads the delays of clients that failed together around an exponential
base.  The text of eight hexadecimal digits that it draws is a number of 32 bits, and is
divided by the largest number of 64 bits: the delays stay at the lower end of the window.
Its arithmetic is taken on rational numbers.
-/

namespace VgiRpc.Http.Backoff

open VgiRpc.Cpp VgiRpc.Crypto

/-! ## The code -/

/-- `RetryPolicy` with its delays, in milliseconds. -/
structure RetryPolicy extends Client.RetryPolicy where
  initialBackoff : Int
  maxBackoff : Int
  multiplier : ℚ
  jitter : ℚ

/-- `validate_retry_policy`.  A rational number is finite. -/
def validateRetryPolicy (policy : RetryPolicy) : Except String Unit :=
  if policy.maxAttempts = 0 ∨ policy.initialBackoff < 0 ∨ policy.maxBackoff < 0 ∨
      policy.multiplier ≤ 0 ∨ policy.jitter < 0 ∨ policy.jitter > 1 then
    .error "invalid HTTP retry policy"
  else if ∃ status ∈ policy.retryableStatusCodes, status < 100 ∨ status > 599 then
    .error "HTTP retry status codes must be between 100 and 599"
  else
    .ok ()

def hexChars : Bytes := ascii "0123456789abcdef"

/-- `random_hex`, with what the distribution draws. -/
def randomHex (length : Nat) (dist : Fin length → Fin 16) : Bytes :=
  List.ofFn fun index => hexChars.getD (dist index) 0

/-- The delay that is spread. -/
def base (policy : RetryPolicy) (attempt : Nat) : ℚ :=
  min (policy.initialBackoff * policy.multiplier ^ (attempt - 1)) policy.maxBackoff

/-- The share of a sample in the largest number of 64 bits. -/
def fraction (sample : Nat) : ℚ := sample / (2 ^ 64 - 1)

/-- The milliseconds of `retry_delay` in front of the rounding.  The entropy is read only if
there is jitter. -/
def unflooredDelay (policy : RetryPolicy) (attempt : Nat) (entropy : Bytes) : Option ℚ :=
  if attempt = 0 then some 0
  else
    let milliseconds := base policy attempt
    if 0 < policy.jitter then
      (stoullHex entropy).map fun sample =>
        milliseconds + milliseconds * policy.jitter * (fraction sample * 2 - 1)
    else
      some milliseconds

/-- `retry_delay`. -/
def retryDelay (policy : RetryPolicy) (attempt : Nat) (dist : Fin 8 → Fin 16) : Option Int :=
  (unflooredDelay policy attempt (randomHex 8 dist)).map fun milliseconds => max 0 ⌊milliseconds⌋

/-! ## What is drawn -/

/-- The number that the drawn digits write. -/
def sample {length : Nat} (dist : Fin length → Fin 16) : Nat :=
  numeralValue 16 hexNibble (randomHex length dist)

theorem hexChars_digit (value : Fin 16) :
    hexNibble (hexChars.getD value 0) = some value.val ∧ isSpace (hexChars.getD value 0) = false ∧
      hexChars.getD value 0 ∉ [0x2b, 0x2d, 0x58, 0x78] := by
  revert value
  decide

theorem mem_randomHex {length : Nat} {dist : Fin length → Fin 16} {byte : UInt8}
    (member : byte ∈ randomHex length dist) : ∃ value : Fin 16, byte = hexChars.getD value 0 := by
  rw [randomHex, List.mem_ofFn] at member
  rcases member with ⟨index, rfl⟩
  exact ⟨dist index, rfl⟩

theorem hexNibble_lt (byte : UInt8) : (hexNibble byte).getD 0 < 16 := by
  have every := forall_byte (fun byte => decide ((hexNibble byte).getD 0 < 16))
    (by decide) byte
  exact of_decide_eq_true every

theorem sample_lt {length : Nat} (dist : Fin length → Fin 16) : sample dist < 16 ^ length := by
  have bound : sample dist < 16 ^ (randomHex length dist).length :=
    numeralValue_lt fun byte _ => hexNibble_lt byte
  rwa [randomHex, List.length_ofFn] at bound

/-- Drawn digits have no sign and no prefix in front. -/
theorem stoullHex_randomHex (dist : Fin 8 → Fin 16) :
    stoullHex (randomHex 8 dist) = some (sample dist) := by
  obtain ⟨first, second, rest, shape⟩ : ∃ first second rest,
      randomHex 8 dist = first :: second :: rest := ⟨_, _, _, rfl⟩
  have digits : ∀ byte ∈ randomHex 8 dist, (hexNibble byte).isSome = true := by
    intro byte member
    rcases mem_randomHex member with ⟨value, rfl⟩
    rw [(hexChars_digit value).1]
    rfl
  have firstDrawn : first ∈ randomHex 8 dist := by simp [shape]
  have secondDrawn : second ∈ randomHex 8 dist := by simp [shape]
  obtain ⟨one, firstDigit⟩ := mem_randomHex firstDrawn
  obtain ⟨two, secondDigit⟩ := mem_randomHex secondDrawn
  have plain := hexChars_digit one
  have next := hexChars_digit two
  rw [← firstDigit] at plain
  rw [← secondDigit] at next
  simp only [List.mem_cons, List.not_mem_nil, or_false, not_or] at plain next
  have kept : (randomHex 8 dist).dropWhile isSpace = randomHex 8 dist := by
    rw [shape, List.dropWhile_cons_of_neg (by rw [plain.2.1]; decide)]
  have unsigned : splitSign (randomHex 8 dist) = (false, randomHex 8 dist) := by
    rw [shape, splitSign_plain plain.2.2.2.1 plain.2.2.1]
  have bare : dropHexPrefix (randomHex 8 dist) = randomHex 8 dist := by
    rw [shape, dropHexPrefix_plain next.2.2.2.2.2 next.2.2.2.2.1]
  have whole : fromChars 16 hexNibble (randomHex 8 dist) = some (sample dist, []) :=
    fromChars_whole.mpr ⟨by simp [shape], digits, rfl, lt_of_lt_of_le (sample_lt dist) (by decide)⟩
  simp only [stoullHex, kept, unsigned, bare, whole, Option.map_some, Bool.false_eq_true, if_false]

/-! ## The window -/

/-- The delay that a draw leads to, in front of the rounding. -/
def delayOf (policy : RetryPolicy) (attempt : Nat) (dist : Fin 8 → Fin 16) : ℚ :=
  (unflooredDelay policy attempt (randomHex 8 dist)).getD 0

/-- All the delays that a client may draw. -/
def delays (policy : RetryPolicy) (attempt : Nat) : Set ℚ :=
  {delay | ∃ dist, unflooredDelay policy attempt (randomHex 8 dist) = some delay}

/-- How far the delays of two neighbouring samples are apart. -/
def sampleStep (policy : RetryPolicy) (attempt : Nat) : ℚ :=
  2 * base policy attempt * policy.jitter / (2 ^ 64 - 1)

/-- The delays fill the window around the base, as many above it as below. -/
structure JitterCentred (policy : RetryPolicy) (attempt : Nat) : Prop where
  least : IsLeast (delays policy attempt) (base policy attempt * (1 - policy.jitter))
  greatest : IsGreatest (delays policy attempt) (base policy attempt * (1 + policy.jitter))
  symmetric : ∀ delay ∈ delays policy attempt, ∃ other ∈ delays policy attempt,
    |other - (2 * base policy attempt - delay)| ≤ sampleStep policy attempt
  balanced : (Finset.univ.filter fun dist => base policy attempt < delayOf policy attempt dist).card =
    (Finset.univ.filter fun dist => delayOf policy attempt dist < base policy attempt).card

section Delays

variable {policy : RetryPolicy} {attempt : Nat}

theorem unflooredDelay_drawn (later : 1 ≤ attempt) (jitter : 0 < policy.jitter) (dist : Fin 8 → Fin 16) :
    unflooredDelay policy attempt (randomHex 8 dist) =
      some (base policy attempt + base policy attempt * policy.jitter *
        (fraction (sample dist) * 2 - 1)) := by
  simp only [unflooredDelay, if_neg (Nat.ne_of_gt later), if_pos jitter, stoullHex_randomHex,
    Option.map_some]

/-- Eight digits are far below half of the largest number. -/
theorem fraction_sample_lt (dist : Fin 8 → Fin 16) : fraction (sample dist) * 2 - 1 < 0 := by
  have bound : (sample dist : ℚ) < 2 ^ 32 := by exact_mod_cast sample_lt dist
  have share : fraction (sample dist) < 1 / 2 := by
    rw [fraction, div_lt_div_iff₀ (by norm_num) (by norm_num)]
    linarith
  linarith

/-- With jitter every delay is shorter than the base. -/
theorem delays_lt_base (later : 1 ≤ attempt) (jitter : 0 < policy.jitter)
    (positive : 0 < base policy attempt) {delay : ℚ} (drawn : delay ∈ delays policy attempt) : delay < base policy attempt := by
  rcases drawn with ⟨dist, drawn⟩
  rw [unflooredDelay_drawn later jitter, Option.some.injEq] at drawn
  have below := mul_neg_of_pos_of_neg (mul_pos positive jitter) (fraction_sample_lt dist)
  linarith

theorem not_centred (later : 1 ≤ attempt) (jitter : 0 < policy.jitter)
    (positive : 0 < base policy attempt) : ¬JitterCentred policy attempt := by
  intro centred
  have below := delays_lt_base later jitter positive centred.greatest.1
  have above := mul_pos positive jitter
  linarith

/-- Nothing to spread, or no jitter to spread it. -/
theorem unflooredDelay_flat (later : 1 ≤ attempt) (nonneg : 0 ≤ policy.jitter)
    (flat : base policy attempt * policy.jitter = 0) (dist : Fin 8 → Fin 16) :
    unflooredDelay policy attempt (randomHex 8 dist) = some (base policy attempt) := by
  rcases nonneg.eq_or_lt with none | jitter
  · simp only [unflooredDelay, if_neg (Nat.ne_of_gt later), ← none, lt_irrefl, if_false]
  · rw [unflooredDelay_drawn later jitter, flat, zero_mul, add_zero]

theorem centred_of_flat (later : 1 ≤ attempt) (nonneg : 0 ≤ policy.jitter)
    (flat : base policy attempt * policy.jitter = 0) : JitterCentred policy attempt := by
  have only : delays policy attempt = {base policy attempt} := by
    ext delay
    simp only [delays, unflooredDelay_flat later nonneg flat, Set.mem_ofPred_eq, exists_const,
      Option.some.injEq, Set.mem_singleton_iff, eq_comm]
  have same : ∀ dist, delayOf policy attempt dist = base policy attempt := by
    intro dist
    rw [delayOf, unflooredDelay_flat later nonneg flat, Option.getD_some]
  constructor
  · rw [only, mul_sub, flat, mul_one, sub_zero]
    exact isLeast_singleton
  · rw [only, mul_add, flat, mul_one, add_zero]
    exact isGreatest_singleton
  · rw [only]
    intro delay drawn
    rw [Set.mem_singleton_iff] at drawn
    refine ⟨base policy attempt, rfl, ?_⟩
    rw [drawn, sampleStep, mul_assoc, flat, mul_zero, zero_div, two_mul, add_sub_cancel_right,
      sub_self, abs_zero]
  · simp only [same, lt_irrefl, Finset.filter_false]

/-! ## The law -/

/-- What a valid policy is known to satisfy. -/
structure RetryPolicy.Valid (policy : RetryPolicy) : Prop where
  initial : 0 ≤ policy.initialBackoff
  limit : 0 ≤ policy.maxBackoff
  multiplier : 0 < policy.multiplier
  jitter : 0 ≤ policy.jitter

theorem valid_of_validate (passed : validateRetryPolicy policy = .ok ()) : policy.Valid := by
  rw [validateRetryPolicy] at passed
  split at passed
  next => cases passed
  next valid =>
      simp only [not_or, not_lt, not_le, gt_iff_lt] at valid
      exact ⟨valid.2.1, valid.2.2.1, valid.2.2.2.1, valid.2.2.2.2.1⟩

theorem base_nonneg (valid : policy.Valid) (attempt : Nat) : 0 ≤ base policy attempt := by
  have initial : (0 : ℚ) ≤ policy.initialBackoff := Int.cast_nonneg valid.initial
  have limit : (0 : ℚ) ≤ policy.maxBackoff := Int.cast_nonneg valid.limit
  exact le_min (mul_nonneg initial (pow_pos valid.multiplier _).le) limit

theorem base_eq_zero_iff (valid : policy.Valid) (attempt : Nat) :
    base policy attempt = 0 ↔ policy.initialBackoff = 0 ∨ policy.maxBackoff = 0 := by
  have power := pow_pos valid.multiplier (attempt - 1)
  constructor
  · intro zero
    by_contra neither
    rw [not_or] at neither
    have initial : (0 : ℚ) < policy.initialBackoff :=
      Int.cast_pos.mpr (lt_of_le_of_ne valid.initial (Ne.symm neither.1))
    have limit : (0 : ℚ) < policy.maxBackoff :=
      Int.cast_pos.mpr (lt_of_le_of_ne valid.limit (Ne.symm neither.2))
    have positive : 0 < base policy attempt := lt_min (mul_pos initial power) limit
    exact positive.ne' zero
  · intro either
    apply le_antisymm _ (base_nonneg valid attempt)
    rcases either with none | none
    · exact (min_le_left _ _).trans (by simp [none])
    · exact (min_le_right _ _).trans (by simp [none])

/-- The delays of a valid policy are centred on the base exactly if there is nothing to
spread: no jitter, no initial delay, or a limit of nothing. -/
theorem jitterCentred_iff (passed : validateRetryPolicy policy = .ok ()) (later : 1 ≤ attempt) :
    JitterCentred policy attempt ↔
      policy.jitter = 0 ∨ policy.initialBackoff = 0 ∨ policy.maxBackoff = 0 := by
  have valid := valid_of_validate passed
  rw [← base_eq_zero_iff valid attempt]
  constructor
  · intro centred
    by_contra neither
    rw [not_or] at neither
    exact not_centred later (lt_of_le_of_ne valid.jitter (Ne.symm neither.1))
      (lt_of_le_of_ne (base_nonneg valid attempt) (Ne.symm neither.2)) centred
  · intro either
    apply centred_of_flat later valid.jitter
    rcases either with none | none
    · rw [none, mul_zero]
    · rw [none, zero_mul]

/-- The default policy of the client. -/
def defaultPolicy : RetryPolicy :=
  { maxAttempts := 3, retryableStatusCodes := [], initialBackoff := 100, maxBackoff := 10000,
    multiplier := 2, jitter := 1 / 5 }

theorem defaultPolicy_not_centred :
    validateRetryPolicy defaultPolicy = .ok () ∧ ¬JitterCentred defaultPolicy 1 := by
  refine ⟨by decide +kernel, not_centred le_rfl (by decide +kernel) (by decide +kernel)⟩

/-- The default policy without jitter. -/
def steadyPolicy : RetryPolicy := { defaultPolicy with jitter := 0 }

theorem steadyPolicy_centred : JitterCentred steadyPolicy 3 :=
  (jitterCentred_iff (by decide) (by decide)).mpr (.inl rfl)

end Delays

end VgiRpc.Http.Backoff
