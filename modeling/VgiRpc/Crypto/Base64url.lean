import VgiRpc.Crypto.Encoding

/-!
# base64url is exact

Decoding undoes encoding, three bytes at a time: the accumulator of the decoder keeps
stale bits above the ones it still has to read, and a byte is cut out below them.
-/

namespace VgiRpc.Crypto

open Cpp

/-! ## Characters -/

/-- The character of a six-bit value. -/
def b64urlDigit (value : Nat) : UInt8 := kB64Url.getD value 0

theorem b64urlValue_digit {value : Nat} (bound : value < 64) :
    b64urlValue (b64urlDigit value) = some (UInt32.ofNat value) := by
  have every : ∀ high, high < 8 → ∀ low, low < 8 →
      b64urlValue (b64urlDigit (8 * high + low)) = some (UInt32.ofNat (8 * high + low)) := by decide
  exact @forall_below 8 (fun value => b64urlValue (b64urlDigit value) = some (UInt32.ofNat value))
    every value bound

theorem b64urlDigit_ne_padding {value : Nat} (bound : value < 64) :
    b64urlDigit value ≠ 0x3d := by
  have every : ∀ high, high < 8 → ∀ low, low < 8 → b64urlDigit (8 * high + low) ≠ 0x3d := by decide
  exact @forall_below 8 (b64urlDigit · ≠ 0x3d) every value bound

theorem b64urlChar_eq (group shift : Nat) :
    b64urlChar group shift = b64urlDigit (group / 2 ^ shift % 64) := by
  have low : group >>> shift &&& 0x3f = group / 2 ^ shift % 64 := by
    rw [Nat.shiftRight_eq_div_pow]
    exact Nat.and_two_pow_sub_one_eq_mod _ 6
  rw [b64urlChar, low, b64urlDigit]

/-- Three bytes as one number. -/
theorem group_eq (first second third : UInt8) :
    first.toNat <<< 16 ||| second.toNat <<< 8 ||| third.toNat =
      first.toNat * 65536 + second.toNat * 256 + third.toNat := by
  have high : first.toNat <<< 16 ||| second.toNat <<< 8 =
      first.toNat <<< 16 + second.toNat <<< 8 := by
    rw [Nat.shiftLeft_add_eq_or_of_lt]
    rw [Nat.shiftLeft_eq]
    have := second.toNat_lt
    omega
  have both : first.toNat <<< 16 + second.toNat <<< 8 =
      (first.toNat * 256 + second.toNat) <<< 8 := by
    simp only [Nat.shiftLeft_eq]
    omega
  rw [high, both, ← Nat.shiftLeft_add_eq_or_of_lt third.toNat_lt, Nat.shiftLeft_eq]
  omega

/-! ## The decoding loop -/

/-- The accumulator after one more character. -/
def pushBits (acc : UInt32) (value : Nat) : UInt32 := acc <<< 6 ||| UInt32.ofNat value

theorem toNat_pushBits (acc : UInt32) {value : Nat} (bound : value < 64) :
    (pushBits acc value).toNat = (acc.toNat * 64 + value) % 2 ^ 32 := by
  have shifted : (acc <<< 6).toNat = (acc.toNat % 2 ^ 26) <<< 6 := by
    rw [UInt32.toNat_shiftLeft, Nat.shiftLeft_eq, Nat.shiftLeft_eq]
    have : (6 : UInt32).toNat % 32 = 6 := rfl
    rw [this]
    omega
  have small : (UInt32.ofNat value).toNat = value := by
    rw [UInt32.toNat_ofNat']
    omega
  rw [pushBits, UInt32.toNat_or, shifted, small, ← Nat.shiftLeft_add_eq_or_of_lt (by omega),
    Nat.shiftLeft_eq]
  omega

theorem decodeLoop_digit {value : Nat} (bound : value < 64) (rest : Bytes) (acc : UInt32)
    (bits : Nat) :
    base64urlDecodeLoop (b64urlDigit value :: rest) acc bits =
      if bits + 6 ≥ 8 then
        (base64urlDecodeLoop rest (pushBits acc value) (bits + 6 - 8)).map
          ((pushBits acc value >>> UInt32.ofNat (bits + 6 - 8)).toUInt8 :: ·)
      else base64urlDecodeLoop rest (pushBits acc value) (bits + 6) := by
  rw [base64urlDecodeLoop, b64urlValue_digit bound]
  simp only [Option.bind_eq_bind, Option.bind_some, pushBits]
  split
  next =>
    cases base64urlDecodeLoop rest (acc <<< 6 ||| UInt32.ofNat value) (bits + 6 - 8) with
    | none => rfl
    | some out => rfl
  next => rfl

/-- The byte that is cut out of the accumulator above its lowest bits. -/
theorem toUInt8_shift {acc : UInt32} {shift : Nat} {byte : UInt8} (bound : shift < 32)
    (value : acc.toNat / 2 ^ shift % 256 = byte.toNat) :
    (acc >>> UInt32.ofNat shift).toUInt8 = byte := by
  apply UInt8.toNat_inj.mp
  rw [UInt32.toNat_toUInt8, UInt32.toNat_shiftRight, UInt32.toNat_ofNat', ← value,
    Nat.shiftRight_eq_div_pow]
  congr 3
  omega

/-- Four characters are three bytes. -/
theorem decodeLoop_group (first second third : UInt8) (rest : Bytes) (acc : UInt32) :
    ∃ left, base64urlDecodeLoop (base64urlEncode [first, second, third] ++ rest) acc 0 =
      (base64urlDecodeLoop rest left 0).map (first :: second :: third :: ·) := by
  have one := first.toNat_lt
  have two := second.toNat_lt
  have three := third.toNat_lt
  have stale := acc.toNat_lt
  simp only [base64urlEncode, b64urlChar_eq, group_eq, List.cons_append, List.nil_append]
  generalize whole : first.toNat * 65536 + second.toNat * 256 + third.toNat = group
  have digit (shift : Nat) : group / 2 ^ shift % 64 < 64 := Nat.mod_lt _ (by decide)
  have cutFirst : (pushBits (pushBits acc (group / 2 ^ 18 % 64)) (group / 2 ^ 12 % 64) >>>
      UInt32.ofNat 4).toUInt8 = first := by
    apply toUInt8_shift (by decide)
    rw [toNat_pushBits _ (digit _), toNat_pushBits _ (digit _)]
    omega
  have cutSecond : (pushBits (pushBits (pushBits acc (group / 2 ^ 18 % 64))
      (group / 2 ^ 12 % 64)) (group / 2 ^ 6 % 64) >>> UInt32.ofNat 2).toUInt8 = second := by
    apply toUInt8_shift (by decide)
    rw [toNat_pushBits _ (digit _), toNat_pushBits _ (digit _), toNat_pushBits _ (digit _)]
    omega
  have cutThird : (pushBits (pushBits (pushBits (pushBits acc (group / 2 ^ 18 % 64))
      (group / 2 ^ 12 % 64)) (group / 2 ^ 6 % 64)) (group / 2 ^ 0 % 64) >>>
        UInt32.ofNat 0).toUInt8 = third := by
    apply toUInt8_shift (by decide)
    rw [toNat_pushBits _ (digit _), toNat_pushBits _ (digit _), toNat_pushBits _ (digit _),
      toNat_pushBits _ (digit _)]
    omega
  refine ⟨pushBits (pushBits (pushBits (pushBits acc (group / 2 ^ 18 % 64))
    (group / 2 ^ 12 % 64)) (group / 2 ^ 6 % 64)) (group / 2 ^ 0 % 64), ?_⟩
  rw [decodeLoop_digit (digit _), if_neg (by decide), decodeLoop_digit (digit _),
    if_pos (by decide), decodeLoop_digit (digit _), if_pos (by decide),
    decodeLoop_digit (digit _), if_pos (by decide), cutFirst, cutSecond, cutThird,
    Option.map_map, Option.map_map]
  rfl

/-- The end of a text whose length is not a multiple of three. -/
theorem decodeLoop_last {last : Bytes} (short : last.length < 3) (acc : UInt32) :
    base64urlDecodeLoop (base64urlEncode last) acc 0 = some last := by
  have stale := acc.toNat_lt
  have digit (group shift : Nat) : group / 2 ^ shift % 64 < 64 := Nat.mod_lt _ (by decide)
  match last, short with
  | [], _ => rfl
  | [first], _ =>
      have one := first.toNat_lt
      simp only [base64urlEncode, b64urlChar_eq, Nat.shiftLeft_eq]
      have cutFirst : (pushBits (pushBits acc (first.toNat * 2 ^ 16 / 2 ^ 18 % 64))
          (first.toNat * 2 ^ 16 / 2 ^ 12 % 64) >>> UInt32.ofNat 4).toUInt8 = first := by
        apply toUInt8_shift (by decide)
        rw [toNat_pushBits _ (digit _ _), toNat_pushBits _ (digit _ _)]
        omega
      rw [decodeLoop_digit (digit _ _), if_neg (by decide), decodeLoop_digit (digit _ _),
        if_pos (by decide), cutFirst]
      rfl
  | [first, second], _ =>
      have one := first.toNat_lt
      have two := second.toNat_lt
      have group : first.toNat <<< 16 ||| second.toNat <<< 8 =
          first.toNat * 65536 + second.toNat * 256 := by
        simpa using group_eq first second 0
      simp only [base64urlEncode, b64urlChar_eq, group]
      generalize whole : first.toNat * 65536 + second.toNat * 256 = group
      have cutFirst : (pushBits (pushBits acc (group / 2 ^ 18 % 64)) (group / 2 ^ 12 % 64) >>>
          UInt32.ofNat 4).toUInt8 = first := by
        apply toUInt8_shift (by decide)
        rw [toNat_pushBits _ (digit _ _), toNat_pushBits _ (digit _ _)]
        omega
      have cutSecond : (pushBits (pushBits (pushBits acc (group / 2 ^ 18 % 64))
          (group / 2 ^ 12 % 64)) (group / 2 ^ 6 % 64) >>> UInt32.ofNat 2).toUInt8 = second := by
        apply toUInt8_shift (by decide)
        rw [toNat_pushBits _ (digit _ _), toNat_pushBits _ (digit _ _),
          toNat_pushBits _ (digit _ _)]
        omega
      rw [decodeLoop_digit (digit _ _), if_neg (by decide), decodeLoop_digit (digit _ _),
        if_pos (by decide), decodeLoop_digit (digit _ _), if_pos (by decide), cutFirst, cutSecond]
      rfl

/-! ## Round trip -/

theorem decodeLoop_encode (bytes : Bytes) (acc : UInt32) :
    base64urlDecodeLoop (base64urlEncode bytes) acc 0 = some bytes := by
  induction bytes using base64urlEncode.induct generalizing acc with
  | case1 first second third rest ih =>
      rcases decodeLoop_group first second third (base64urlEncode rest) acc with ⟨left, step⟩
      have split : base64urlEncode (first :: second :: third :: rest) =
          base64urlEncode [first, second, third] ++ base64urlEncode rest := by
        simp [base64urlEncode]
      rw [split, step, ih]
      rfl
  | case2 first => exact decodeLoop_last (by simp) acc
  | case3 first second => exact decodeLoop_last (by simp) acc
  | case4 => rfl

/-- The number of characters of an encoded text. -/
theorem length_base64urlEncode (bytes : Bytes) :
    (base64urlEncode bytes).length = (4 * bytes.length + 2) / 3 := by
  induction bytes using base64urlEncode.induct with
  | case1 first second third rest ih =>
      simp only [base64urlEncode, List.length_cons, ih]
      omega
  | case2 first => simp [base64urlEncode]
  | case3 first second => simp [base64urlEncode]
  | case4 => rfl

theorem exists_b64urlChar (group shift : Nat) :
    ∃ value, value < 64 ∧ b64urlChar group shift = b64urlDigit value :=
  ⟨_, Nat.mod_lt _ (by decide), b64urlChar_eq group shift⟩

/-- An encoded text is made of the characters of the alphabet. -/
theorem exists_digit_of_mem {bytes : Bytes} {char : UInt8} (mem : char ∈ base64urlEncode bytes) :
    ∃ value, value < 64 ∧ char = b64urlDigit value := by
  induction bytes using base64urlEncode.induct with
  | case1 first second third rest ih =>
      simp only [base64urlEncode, List.mem_cons] at mem
      rcases mem with rfl | rfl | rfl | rfl | mem
      · exact exists_b64urlChar _ _
      · exact exists_b64urlChar _ _
      · exact exists_b64urlChar _ _
      · exact exists_b64urlChar _ _
      · exact ih mem
  | case2 first =>
      simp only [base64urlEncode, List.mem_cons, List.not_mem_nil, or_false] at mem
      rcases mem with rfl | rfl
      · exact exists_b64urlChar _ _
      · exact exists_b64urlChar _ _
  | case3 first second =>
      simp only [base64urlEncode, List.mem_cons, List.not_mem_nil, or_false] at mem
      rcases mem with rfl | rfl | rfl
      · exact exists_b64urlChar _ _
      · exact exists_b64urlChar _ _
      · exact exists_b64urlChar _ _
  | case4 => simp [base64urlEncode] at mem

/-- Decoding undoes encoding. -/
theorem base64urlDecode_encode (bytes : Bytes) :
    base64urlDecode (base64urlEncode bytes) = some bytes := by
  have unpadded : ((base64urlEncode bytes).reverse.dropWhile (· == 0x3d)).reverse =
      base64urlEncode bytes := by
    rw [List.reverse_eq_iff, List.dropWhile_eq_self_iff]
    intro positive
    have last := List.getElem_mem positive
    rw [List.mem_reverse] at last
    rcases exists_digit_of_mem last with ⟨value, bound, char⟩
    rw [char]
    simpa using b64urlDigit_ne_padding bound
  rw [base64urlDecode]
  simp only [unpadded]
  rw [if_neg, decodeLoop_encode]
  rw [length_base64urlEncode]
  omega

/-! ## What is decoded -/

/-- The characters as digits to the base 64, behind the number read so far.  Nothing wraps. -/
def wholeValue (read : Nat) (text : Bytes) : Nat :=
  text.foldl (fun value char => value * 64 + kB64Url.idxOf char) read

/-- The whole bytes of a number of so many bits, most significant first. -/
def cutBytes (value width : Nat) : Bytes :=
  (List.range (width / 8)).map fun index => UInt8.ofNat (value / 2 ^ (width - 8 * (index + 1)))

/-- A text without the padding behind it. -/
def unpadded (text : Bytes) : Bytes := (text.reverse.dropWhile (· == 0x3d)).reverse

theorem cutBytes_short {width : Nat} (few : width < 8) (value : Nat) : cutBytes value width = [] := by
  rw [cutBytes, Nat.div_eq_of_lt few]
  rfl

theorem cutBytes_first {width : Nat} (enough : 8 ≤ width) (value : Nat) :
    cutBytes value width = UInt8.ofNat (value / 2 ^ (width - 8)) :: cutBytes value (width - 8) := by
  obtain ⟨left, rfl⟩ := Nat.exists_eq_add_of_le' enough
  have count : (left + 8) / 8 = left / 8 + 1 := by omega
  rw [cutBytes, count, List.range_succ_eq_map, List.map_cons, List.map_map, cutBytes,
    Nat.add_sub_cancel]
  congr 1
  apply List.map_congr_left
  intro index _
  have position : left + 8 - 8 * (index + 1 + 1) = left - 8 * (index + 1) := by omega
  rw [Function.comp_apply, Nat.succ_eq_add_one, position]

theorem wholeValue_cons (read : Nat) (char : UInt8) (text : Bytes) :
    wholeValue read (char :: text) = wholeValue (read * 64 + kB64Url.idxOf char) text := rfl

theorem idxOf_lt {char : UInt8} (listed : char ∈ kB64Url) : kB64Url.idxOf char < 64 :=
  List.idxOf_lt_length_of_mem listed

/-- The digits behind a number do not reach into it. -/
theorem wholeValue_div {text : Bytes} (alphabet : ∀ char ∈ text, char ∈ kB64Url) (read : Nat) :
    wholeValue read text / 64 ^ text.length = read := by
  induction text generalizing read with
  | nil => simp [wholeValue]
  | cons char text inductionHypothesis =>
      rw [List.forall_mem_cons] at alphabet
      have digit := idxOf_lt alphabet.1
      rw [wholeValue_cons, List.length_cons, Nat.pow_succ, ← Nat.div_div_eq_div_mul,
        inductionHypothesis alphabet.2]
      omega

theorem b64urlDigit_idxOf {char : UInt8} (listed : char ∈ kB64Url) :
    b64urlDigit (kB64Url.idxOf char) = char := by
  rw [b64urlDigit, List.getD_eq_getElem?_getD, List.getElem?_idxOf listed, Option.getD_some]

theorem mem_of_b64urlValue {char : UInt8} {value : UInt32} (known : b64urlValue char = some value) :
    char ∈ kB64Url := by
  have every := forall_byte (fun char => (b64urlValue char).all fun value =>
    value.toNat < kB64Url.length && b64urlDigit value.toNat == char) (by decide) char
  rw [known, Option.all_some, Bool.and_eq_true, decide_eq_true_eq, beq_iff_eq] at every
  rw [← every.2, b64urlDigit, List.getD_eq_getElem?_getD, List.getElem?_eq_getElem every.1,
    Option.getD_some]
  exact List.getElem_mem every.1

/-- A byte that lies inside of the lowest 32 bits. -/
theorem byte_of_low {shift : Nat} (inside : shift + 8 ≤ 32) (value : Nat) :
    value % 2 ^ 32 / 2 ^ shift % 2 ^ 8 = value / 2 ^ shift % 2 ^ 8 := by
  have width : 2 ^ 32 = 2 ^ shift * 2 ^ (32 - shift) := by
    rw [← Nat.pow_add]
    congr 1
    omega
  have divides : 2 ^ 8 ∣ 2 ^ (32 - shift) := Nat.pow_dvd_pow 2 (by omega)
  rw [width, Nat.mod_mul_right_div_self, Nat.mod_mod_of_dvd _ divides]

/-- The loop puts out the bytes of the whole number, although its accumulator keeps the lowest
32 bits only: fewer than eight of them are still to be put out when a character comes. -/
theorem decodeLoop_eq {text : Bytes} (alphabet : ∀ char ∈ text, char ∈ kB64Url) {acc : UInt32}
    {bits read : Nat} (few : bits < 8) (holds : acc.toNat = read % 2 ^ 32) :
    base64urlDecodeLoop text acc bits =
      some (cutBytes (wholeValue read text) (bits + 6 * text.length)) := by
  induction text generalizing acc bits read with
  | nil =>
      rw [List.length_nil, Nat.mul_zero, Nat.add_zero, cutBytes_short few]
      rfl
  | cons char text inductionHypothesis =>
      rw [List.forall_mem_cons] at alphabet
      have digit := idxOf_lt alphabet.1
      have next : (pushBits acc (kB64Url.idxOf char)).toNat =
          (read * 64 + kB64Url.idxOf char) % 2 ^ 32 := by
        rw [toNat_pushBits acc digit, holds]
        omega
      have width : bits + 6 * (char :: text).length = bits + 6 + 6 * text.length := by
        rw [List.length_cons]
        omega
      have step := decodeLoop_digit digit text acc bits
      rw [b64urlDigit_idxOf alphabet.1] at step
      rw [step, wholeValue_cons, width]
      split
      next enough =>
          have left : bits + 6 + 6 * text.length - 8 = bits + 6 - 8 + 6 * text.length := by omega
          have more : 8 ≤ bits + 6 + 6 * text.length := by omega
          have power : (2 : Nat) ^ (bits + 6 + 6 * text.length - 8) =
              64 ^ text.length * 2 ^ (bits + 6 - 8) := by
            rw [left, Nat.add_comm, Nat.pow_add, Nat.pow_mul]
          have byte : (pushBits acc (kB64Url.idxOf char) >>> UInt32.ofNat (bits + 6 - 8)).toUInt8 =
              UInt8.ofNat (wholeValue (read * 64 + kB64Url.idxOf char) text /
                2 ^ (bits + 6 + 6 * text.length - 8)) := by
            apply toUInt8_shift (by omega)
            rw [next, power, ← Nat.div_div_eq_div_mul, wholeValue_div alphabet.2,
              UInt8.toNat_ofNat']
            exact byte_of_low (by omega) _
          rw [inductionHypothesis alphabet.2 (by omega) next, Option.map_some, byte,
            cutBytes_first more, left]
      next => exact inductionHypothesis alphabet.2 (by omega) next

/-- A character outside the alphabet stops the loop. -/
theorem decodeLoop_foreign {text : Bytes} (foreign : ∃ char ∈ text, char ∉ kB64Url) (acc : UInt32)
    (bits : Nat) : base64urlDecodeLoop text acc bits = none := by
  induction text generalizing acc bits with
  | nil => simp at foreign
  | cons char text inductionHypothesis =>
      rw [base64urlDecodeLoop]
      cases known : b64urlValue char with
      | none => rfl
      | some value =>
          have behind : ∃ char ∈ text, char ∉ kB64Url := by
            rcases foreign with ⟨other, listed, foreign⟩
            rcases List.mem_cons.mp listed with rfl | behind
            · exact absurd (mem_of_b64urlValue known) foreign
            · exact ⟨other, behind, foreign⟩
          simp only [Option.bind_eq_bind, Option.bind_some, inductionHypothesis behind,
            Option.bind_none, ite_self]

/-- What the decoder accepts, and what it puts out then. -/
theorem base64urlDecode_eq (text : Bytes) :
    base64urlDecode text =
      if (unpadded text).length % 4 ≠ 1 ∧ ∀ char ∈ unpadded text, char ∈ kB64Url then
        some (cutBytes (wholeValue 0 (unpadded text)) (6 * (unpadded text).length))
      else
        none := by
  rw [base64urlDecode, ← unpadded]
  by_cases cut : (unpadded text).length % 4 = 1
  · rw [if_pos cut, if_neg (by simp [cut])]
  · rw [if_neg cut]
    by_cases alphabet : ∀ char ∈ unpadded text, char ∈ kB64Url
    · have read : (0 : UInt32).toNat = 0 % 2 ^ 32 := rfl
      rw [if_pos ⟨cut, alphabet⟩, decodeLoop_eq alphabet (by decide) read, Nat.zero_add]
    · rw [if_neg (fun both => alphabet both.2)]
      push Not at alphabet
      exact decodeLoop_foreign alphabet 0 0

end VgiRpc.Crypto
