import VgiRpc.Crypto.Base64url
import VgiRpc.Grants.Payload

/-!
# Minted grants are accepted

Verification undoes minting step by step.  What it checks and minting does not: that
the principal is not empty, that every text is UTF-8, and that the token is short
enough.  Its clock is a double: the sums that it compares are rounded, where the window of
a token is exact.
-/

namespace VgiRpc.Grants

open VgiRpc.Cpp VgiRpc.Crypto VgiRpc.Identity VgiRpc.Lib VgiRpc.Lib.Rounding

variable {sodium : Sodium} {config rotated : GrantKeys} {request : MintRequest}

/-! ## The envelope -/

theorem length_grantKeyId (key : GrantKey) : (grantKeyId sodium key).length = kKidBytes := by
  rw [grantKeyId, List.length_take, sodium.sha256_length]
  rfl

theorem length_aeadSeal (key : GrantKey) (plaintext aad : Bytes) (nonce : Nonce) :
    (aeadSealWithNonce sodium key plaintext aad nonce).length = plaintext.length + 40 := by
  rw [aeadSealWithNonce, List.length_append, nonce.size, sodium.encrypt_length]
  omega

/-- Opening what was sealed. -/
theorem aeadOpen_seal (correct : sodium.Correct) (key : GrantKey) (plaintext aad : Bytes) (nonce : Nonce) :
    aeadOpen sodium key (aeadSealWithNonce sodium key plaintext aad nonce) aad =
      some plaintext := by
  rw [aeadOpen, if_neg (by rw [length_aeadSeal]; omega), aeadSealWithNonce, ← nonce.size,
    List.take_left, List.drop_left, correct]

theorem isB64urlChar_digit {value : Nat} (bound : value < 64) :
    isB64urlChar (b64urlDigit value) = true := by
  have every : ∀ high, high < 8 → ∀ low, low < 8 →
      isB64urlChar (b64urlDigit (8 * high + low)) = true := by decide
  exact @forall_below 8 (fun value => isB64urlChar (b64urlDigit value) = true) every value bound

/-- The strict decoder accepts what the encoder writes. -/
theorem b64urlStrict_encode {raw : Bytes} (present : raw ≠ []) :
    b64urlStrict (base64urlEncode raw) = .ok raw := by
  have size := length_base64urlEncode raw
  have positive := List.length_pos_iff.mpr present
  rw [b64urlStrict, if_neg, base64urlDecode_encode]
  · simp
  · rintro (empty | foreign | short)
    · rw [empty, List.length_nil] at size
      omega
    · rw [List.all_eq_false] at foreign
      rcases foreign with ⟨char, mem, foreign⟩
      rcases exists_digit_of_mem mem with ⟨value, bound, rfl⟩
      exact foreign (isB64urlChar_digit bound)
    · omega

/-- The key that a token was minted with is found by its id. -/
theorem find_key {keys : List GrantKey} (distinct : (keys.map (grantKeyId sodium)).Nodup)
    {key : GrantKey} (mem : key ∈ keys) :
    keys.find? (fun candidate => grantKeyId sodium candidate = grantKeyId sodium key) =
      some key := by
  cases found : keys.find? fun candidate => grantKeyId sodium candidate = grantKeyId sodium key with
  | none =>
      rw [List.find?_eq_none] at found
      exact absurd (decide_eq_true rfl) (found key mem)
  | some other =>
      have same : grantKeyId sodium other = grantKeyId sodium key := by
        simpa using List.find?_some found
      rw [List.inj_on_of_nodup_map distinct (List.mem_of_find?_eq_some found) mem same]

/-! ## Verification of a minted token -/

/-- A configuration that passed `validate`. -/
structure GrantKeys.Valid (sodium : Sodium) (config : GrantKeys) : Prop where
  distinct : (config.keys.map (grantKeyId sodium)).Nodup
  ttl : 0 < config.maxTtlSeconds
  skew : 0 ≤ config.clockSkewSeconds

theorem valid_of_validate (passed : config.validate sodium = .ok ()) : config.Valid sodium := by
  rw [GrantKeys.validate] at passed
  split at passed
  next => simp at passed
  next =>
    split at passed
    next => simp at passed
    next distinct =>
      split at passed
      next => simp at passed
      next ttl =>
        split at passed
        next => simp at passed
        next skew => exact ⟨not_not.mp distinct, Int64.not_le.mp ttl, Int64.not_lt.mp skew⟩

theorem length_grantEnvelope (sodium : Sodium) (key : GrantKey) (config : GrantKeys) (payload : Bytes) (nonce : Nonce) :
    (grantEnvelope sodium key config payload nonce).length = payload.length + 49 := by
  rw [grantEnvelope, List.length_append, List.length_cons, length_aeadSeal, length_grantKeyId,
    kKidBytes]
  omega

/-- Verifying the text of an envelope. -/
theorem verify_envelope (correct : sodium.Correct) {key : GrantKey}
    (distinct : (rotated.keys.map (grantKeyId sodium)).Nodup) (mem : key ∈ rotated.keys)
    (audience : rotated.audience = config.audience) (payload : Bytes) (nonce : Nonce) (now : Binary64) :
    verifyGrantToken sodium rotated
        (kGrantTokenPrefix ++ base64urlEncode (grantEnvelope sodium key config payload nonce)) now =
      if payload.length > 3018 then .error .tooLong
      else (decodeGrantPayload payload).bind fun claims => checkLifetime rotated claims now := by
  have size := length_grantEnvelope sodium key config payload nonce
  have present : grantEnvelope sodium key config payload nonce ≠ [] :=
    List.length_pos_iff.mp (by omega)
  have short : (kGrantTokenPrefix ++
      base64urlEncode (grantEnvelope sodium key config payload nonce)).length >
        kMaxGrantTokenChars ↔ payload.length > 3018 := by
    have six : kGrantTokenPrefix.length = 6 := rfl
    rw [List.length_append, length_base64urlEncode, size, six, kMaxGrantTokenChars]
    omega
  have kid : (grantEnvelope sodium key config payload nonce).take kKidBytes =
      grantKeyId sodium key := by
    rw [grantEnvelope, ← length_grantKeyId key, List.take_left]
  have envelope : (grantEnvelope sodium key config payload nonce).drop kKidBytes =
      kEnvelopeVersion :: aeadSealWithNonce sodium key payload
        (config.aad (grantKeyId sodium key)) nonce := by
    rw [grantEnvelope, ← length_grantKeyId key, List.drop_left]
  have aad : rotated.aad (grantKeyId sodium key) = config.aad (grantKeyId sodium key) := by
    rw [GrantKeys.aad, GrantKeys.aad, audience]
  rw [verifyGrantToken, if_neg (by rw [List.take_left]; simp)]
  by_cases long : payload.length > 3018
  · rw [if_pos (short.mpr long), if_pos long]
    rfl
  · rw [if_neg (fun exceeds => long (short.mp exceeds)), if_neg long, List.drop_left,
      b64urlStrict_encode present]
    simp only [bind, Except.bind, kid, find_key distinct mem,
      envelope, ne_eq, not_true_eq_false, if_false, aad, aeadOpen_seal correct]

theorem mintGrantToken_ok {minted : MintedGrantToken}
    (mint : mintGrantToken sodium config request = .ok minted) :
    ∃ key others, config.keys = key :: others ∧ 0 < request.ttlSeconds ∧
      (request.claims config).Fits ∧ minted.claims = request.claims config ∧
        minted.token = kGrantTokenPrefix ++ base64urlEncode
          (grantEnvelope sodium key config (payloadBytes (request.claims config))
            request.nonce) := by
  rw [mintGrantToken] at mint
  by_cases expired : request.ttlSeconds ≤ 0
  · rw [if_pos expired] at mint
    cases mint
  · rw [if_neg expired] at mint
    cases keys : config.keys with
    | nil =>
        rw [keys] at mint
        cases mint
    | cons key others =>
        rw [keys] at mint
        cases encoded : encodeGrantPayload (request.claims config) with
        | error invalid =>
            simp only [bind, Except.bind, encoded] at mint
            cases mint
        | ok payload =>
            simp only [bind, Except.bind, encoded] at mint
            have made := Except.ok.inj mint
            rcases encodeGrantPayload_ok encoded with ⟨fits, rfl⟩
            exact ⟨key, others, rfl, Int64.not_le.mp expired, fits, by rw [← made],
              by rw [← made]⟩

/-- The lifetime that is minted. -/
def MintRequest.lifetime (request : MintRequest) (config : GrantKeys) : Int64 :=
  if config.maxTtlSeconds < request.ttlSeconds then config.maxTtlSeconds else request.ttlSeconds

/-- The size of the payload of a request. -/
def MintRequest.payloadSize (request : MintRequest) : Nat :=
  24 + request.grantId.length + request.principal.length + request.purpose.length +
    (request.scopes.map fun scope => 2 + scope.length).sum

theorem length_payloadBytes (request : MintRequest) (config : GrantKeys) :
    (payloadBytes (request.claims config)).length = request.payloadSize := by
  simp only [payloadBytes, textBytes, putI64, putU16, List.length_append,
    Memory.toBytesLE_length, MintRequest.claims, MintRequest.payloadSize, List.length_flatten,
    List.map_map, Function.comp_def]
  omega

/-- A 64-bit value and its unsigned reading. -/
theorem toInt_eq (value : Int64) :
    value.toInt = if 2 * value.toUInt64.toNat < 2 ^ 64 then (value.toUInt64.toNat : Int)
      else (value.toUInt64.toNat : Int) - 2 ^ 64 :=
  BitVec.toInt_eq_toNat_cond value.toBitVec

/-- The unsigned difference of ordered values is their distance. -/
theorem toNat_toUInt64_sub {later earlier : Int64} (ordered : earlier ≤ later) :
    ((later.toUInt64 - earlier.toUInt64).toNat : Int) = later.toInt - earlier.toInt := by
  have order := Int64.le_iff_toInt_le.mp ordered
  have one := later.toUInt64.toNat_lt
  have two := earlier.toUInt64.toNat_lt
  rw [UInt64.toNat_sub]
  rw [toInt_eq, toInt_eq] at order
  rw [toInt_eq later, toInt_eq earlier]
  split at order
  next => split at order <;> simp_all <;> omega
  next => split at order <;> simp_all <;> omega

theorem lifetime_bounds (valid : config.Valid sodium) (positive : 0 < request.ttlSeconds) :
    0 < (request.lifetime config).toInt ∧
      (request.lifetime config).toInt ≤ config.maxTtlSeconds.toInt := by
  have ttl := Int64.lt_iff_toInt_lt.mp valid.ttl
  have asked := Int64.lt_iff_toInt_lt.mp positive
  rw [MintRequest.lifetime]
  split
  next => exact ⟨ttl, le_refl _⟩
  next short => exact ⟨asked, Int64.le_iff_toInt_le.mp (Int64.not_lt.mp short)⟩

/-- The end of a minted lifetime. -/
theorem toInt_expiresAt (positive : 0 < (request.lifetime config).toInt)
    (noOverflow : request.issuedAt.toInt + (request.lifetime config).toInt < 2 ^ 63) :
    (request.claims config).expiresAt.toInt =
      request.issuedAt.toInt + (request.lifetime config).toInt := by
  have lower := request.issuedAt.le_toInt
  have sum : (request.claims config).expiresAt = request.issuedAt + request.lifetime config := rfl
  rw [sum, Int64.toInt_add, Int.bmod_eq_of_le (by omega) (by omega)]

/-! ## The clock -/

/-- The clock stands before what verification takes for the start of the window. -/
theorem notYetValid_iff (issued skew : Int64) (now : Number) :
    Binary64.ofInt issued.toInt > .finite now + Binary64.ofInt skew.toInt ↔
      nearest (now.value + nearest skew.toInt) < nearest issued.toInt := by
  obtain ⟨start, start_eq, start_value⟩ := Binary64.ofInt_finite issued
  obtain ⟨width, width_eq, width_value⟩ := Binary64.ofInt_finite skew
  rw [start_eq, width_eq, Binary64.add_finite, gt_iff_lt, Binary64.ofRat_lt_finite, start_value,
    width_value]

/-- The clock stands at what it takes for the end of the window, or behind. -/
theorem expired_iff (expires skew : Int64) (now : Number) :
    .finite now ≥ Binary64.ofInt expires.toInt + Binary64.ofInt skew.toInt ↔
      nearest (nearest expires.toInt + nearest skew.toInt) ≤ now.value := by
  obtain ⟨finish, finish_eq, finish_value⟩ := Binary64.ofInt_finite expires
  obtain ⟨width, width_eq, width_value⟩ := Binary64.ofInt_finite skew
  rw [finish_eq, width_eq, Binary64.add_finite, ge_iff_le, Binary64.ofRat_le_finite, finish_value,
    width_value]

/-- Claims whose seconds are integers of 53 bits, with the skew as well. -/
structure Small (config : GrantKeys) (claims : GrantClaims) : Prop where
  issued : |claims.issuedAt.toInt| ≤ 2 ^ 53
  expires : |claims.expiresAt.toInt| ≤ 2 ^ 53
  skew : |config.clockSkewSeconds.toInt| ≤ 2 ^ 53
  last : |claims.expiresAt.toInt + config.clockSkewSeconds.toInt| ≤ 2 ^ 53

/-- The end of their window is not rounded. -/
theorem Small.nearest_end {claims : GrantClaims} (small : Small config claims) :
    nearest (nearest claims.expiresAt.toInt + nearest config.clockSkewSeconds.toInt) =
      claims.expiresAt.toInt + config.clockSkewSeconds.toInt := by
  rw [nearest_int small.expires, nearest_int small.skew, ← Int.cast_add, nearest_int small.last]

/-- The lifetime of minted claims is no longer than verification allows. -/
theorem lifetime_allowed (valid : config.Valid sodium) (positive : 0 < request.ttlSeconds)
    (noOverflow : request.issuedAt.toInt + (request.lifetime config).toInt < 2 ^ 63)
    (ttl : rotated.maxTtlSeconds = config.maxTtlSeconds) :
    ¬((request.claims config).expiresAt ≤ (request.claims config).issuedAt ∨
      (request.claims config).expiresAt.toUInt64 - (request.claims config).issuedAt.toUInt64 >
        rotated.maxTtlSeconds.toUInt64) := by
  have bounds := lifetime_bounds valid positive
  have ends := toInt_expiresAt bounds.1 noOverflow
  have issued : (request.claims config).issuedAt = request.issuedAt := rfl
  have later : (request.claims config).issuedAt < (request.claims config).expiresAt := by
    rw [Int64.lt_iff_toInt_lt, ends, issued]
    omega
  rintro (early | long)
  · exact Int64.not_lt.mpr early later
  · have distance := toNat_toUInt64_sub (Int64.le_of_lt later)
    have unsigned := toInt_eq config.maxTtlSeconds
    rw [gt_iff_lt, UInt64.lt_iff_toNat_lt, ttl] at long
    rw [ends, issued] at distance
    rw [issued] at long
    split at unsigned <;> omega

/-- What verification makes of the lifetime of minted claims, at a time. -/
theorem checkLifetime_minted (valid : config.Valid sodium) (positive : 0 < request.ttlSeconds)
    (noOverflow : request.issuedAt.toInt + (request.lifetime config).toInt < 2 ^ 63)
    (ttl : rotated.maxTtlSeconds = config.maxTtlSeconds)
    (skew : rotated.clockSkewSeconds = config.clockSkewSeconds)
    (named : request.principal ≠ []) (now : Number) :
    checkLifetime rotated (request.claims config) (.finite now) = .ok (request.claims config) ↔
      nearest request.issuedAt.toInt ≤
          nearest (now.value + nearest config.clockSkewSeconds.toInt) ∧
        now.value < nearest (nearest (request.claims config).expiresAt.toInt +
          nearest config.clockSkewSeconds.toInt) := by
  have principal : (request.claims config).principal = request.principal := rfl
  have issued : (request.claims config).issuedAt = request.issuedAt := rfl
  rw [checkLifetime, principal, if_neg named,
    if_neg (lifetime_allowed valid positive noOverflow ttl), issued, skew]
  simp only [notYetValid_iff, expired_iff]
  split_ifs with early late
  · simp [early]
  · simp [late]
  · simp [not_lt.mp early, not_le.mp late]

/-! ## Rotation -/

/-- A configuration that still verifies what another one mints. -/
structure Rotates (sodium : Sodium) (config rotated : GrantKeys) : Prop where
  validated : rotated.validate sodium = .ok ()
  key : ∀ key ∈ config.keys.head?, key ∈ rotated.keys
  audience : rotated.audience = config.audience
  ttl : rotated.maxTtlSeconds = config.maxTtlSeconds
  skew : rotated.clockSkewSeconds = config.clockSkewSeconds

/-- The request names a principal, is all UTF-8, and is short enough for a token. -/
def MintRequest.Acceptable (request : MintRequest) : Prop :=
  request.principal ≠ [] ∧
    (validUtf8 request.grantId = true ∧ validUtf8 request.principal = true ∧
      validUtf8 request.purpose = true ∧ request.scopes.all validUtf8 = true) ∧
    request.payloadSize ≤ 3018

instance (request : MintRequest) : Decidable request.Acceptable :=
  inferInstanceAs (Decidable (_ ∧ _))

/-- Where the window of a request begins. -/
def MintRequest.opens (request : MintRequest) (config : GrantKeys) : ℚ :=
  request.issuedAt.toInt - config.clockSkewSeconds.toInt

/-- Where it ends. -/
def MintRequest.closes (request : MintRequest) (config : GrantKeys) : ℚ :=
  (request.claims config).expiresAt.toInt + config.clockSkewSeconds.toInt

/-- If there is a double in the window, the first of them is no longer before the rounded
start, and the rounded end is not before the exact one. -/
def MintRequest.Timely (request : MintRequest) (config : GrantKeys) : Prop :=
  binary64.round .up (request.opens config) < request.closes config →
    nearest request.issuedAt.toInt ≤ nearest
        (binary64.round .up (request.opens config) + nearest config.clockSkewSeconds.toInt) ∧
      request.closes config ≤ nearest (nearest (request.claims config).expiresAt.toInt +
        nearest config.clockSkewSeconds.toInt)

instance (request : MintRequest) (config : GrantKeys) : Decidable (request.Timely config) :=
  inferInstanceAs (Decidable (_ → _))

theorem timely_of_small (small : Small config (request.claims config)) : request.Timely config := by
  intro _
  have issued : |request.issuedAt.toInt| ≤ 2 ^ 53 := small.issued
  rw [small.nearest_end, nearest_int issued, nearest_int small.skew]
  refine ⟨le_nearest (exact_int issued) ?_, le_refl _⟩
  have first := binary64.le_round_up (request.opens config)
  rw [MintRequest.opens] at first ⊢
  linarith

/-- `verify_grant_token` can never accept the token, for its size, for its texts or for its
empty principal. -/
def GrantInvalid.isDead : GrantInvalid → Bool
  | .tooLong | .notUtf8 | .noPrincipal => true
  | _ => false

/-- Claims that name a principal are refused for their lifetime only. -/
theorem not_isDead_of_checkLifetime {claims : GrantClaims} {now : Binary64} {invalid : GrantInvalid}
    (named : claims.principal ≠ []) (refused : checkLifetime config claims now = .error invalid) :
    invalid.isDead = false := by
  rw [checkLifetime, if_neg named] at refused
  simp only at refused
  split_ifs at refused <;> cases refused <;> rfl

/-- What verification makes of a minted token. -/
theorem verify_minted {minted : MintedGrantToken} (correct : sodium.Correct)
    (mint : mintGrantToken sodium config request = .ok minted)
    (rotates : Rotates sodium config rotated) (now : Binary64) :
    verifyGrantToken sodium rotated minted.token now =
      if request.payloadSize > 3018 then .error .tooLong
      else if (request.claims config).ValidText then
        checkLifetime rotated (request.claims config) now
      else .error .notUtf8 := by
  rcases mintGrantToken_ok mint with ⟨key, others, keys, -, fits, -, token⟩
  have mem : key ∈ rotated.keys := rotates.key key (by rw [keys]; rfl)
  rw [token, verify_envelope correct (valid_of_validate rotates.validated).distinct mem
    rotates.audience, length_payloadBytes, decodeGrantPayload_payloadBytes fits]
  split_ifs <;> rfl

/-- A token is not dead exactly if its request was acceptable. -/
theorem alive_iff {minted : MintedGrantToken} (correct : sodium.Correct)
    (mint : mintGrantToken sodium config request = .ok minted)
    (rotates : Rotates sodium config rotated) (now : Binary64) :
    (∀ invalid, verifyGrantToken sodium rotated minted.token now = .error invalid →
        invalid.isDead = false) ↔ request.Acceptable := by
  rw [verify_minted correct mint rotates]
  split_ifs with long texts
  · refine iff_of_false (fun alive => ?_) fun acceptable => by
      have short := acceptable.2.2
      omega
    cases alive .tooLong rfl
  · by_cases named : request.principal = []
    · refine iff_of_false (fun alive => ?_) fun acceptable => acceptable.1 named
      cases alive .noPrincipal (if_pos named)
    · refine iff_of_true (fun invalid refused => ?_) ⟨named, texts, Nat.le_of_not_gt long⟩
      exact not_isDead_of_checkLifetime named refused
  · refine iff_of_false (fun alive => ?_) fun acceptable => texts acceptable.2.1
    cases alive .notUtf8 rfl

/-- At a time, a token whose request was acceptable is accepted if the rounded window says so. -/
theorem accepted_iff {minted : MintedGrantToken} (correct : sodium.Correct)
    (validated : config.validate sodium = .ok ())
    (mint : mintGrantToken sodium config request = .ok minted)
    (noOverflow : request.issuedAt.toInt + (request.lifetime config).toInt < 2 ^ 63)
    (rotates : Rotates sodium config rotated) (acceptable : request.Acceptable) (now : Number) :
    verifyGrantToken sodium rotated minted.token (.finite now) = .ok minted.claims ↔
      nearest request.issuedAt.toInt ≤
          nearest (now.value + nearest config.clockSkewSeconds.toInt) ∧
        now.value < nearest (nearest (request.claims config).expiresAt.toInt +
          nearest config.clockSkewSeconds.toInt) := by
  rcases mintGrantToken_ok mint with ⟨-, -, -, positive, -, claims, -⟩
  obtain ⟨named, texts, short⟩ := acceptable
  have valid_text : (request.claims config).ValidText := texts
  rw [verify_minted correct mint rotates, if_neg (Nat.not_lt.mpr short), if_pos valid_text, claims]
  exact checkLifetime_minted (valid_of_validate validated) positive noOverflow rotates.ttl
    rotates.skew named now

/-- A configuration is a rotation of itself. -/
theorem rotates_self (validated : config.validate sodium = .ok ()) :
    Rotates sodium config config := by
  refine ⟨validated, ?_, rfl, rfl, rfl⟩
  intro key head
  exact List.mem_of_mem_head? head

/-- The doubles of the window of a request. -/
theorem exists_number {first : ℚ} (exact_ : binary64.Exact first)
    (started : request.opens config ≤ first) (running : first < request.closes config) :
    ∃ now : Number, now.value = first := by
  have issued := request.issuedAt.le_toInt
  have width := config.clockSkewSeconds.toInt_lt
  have depth := config.clockSkewSeconds.le_toInt
  have expires := (request.claims config).expiresAt.toInt_lt
  rw [MintRequest.opens] at started
  rw [MintRequest.closes] at running
  have low : -(2 : ℚ) ^ 64 ≤ request.issuedAt.toInt - config.clockSkewSeconds.toInt := by
    exact_mod_cast (by omega : -(2 : Int) ^ 64 ≤ request.issuedAt.toInt - config.clockSkewSeconds.toInt)
  have high : ((request.claims config).expiresAt.toInt : ℚ) + config.clockSkewSeconds.toInt ≤ 2 ^ 64 := by
    exact_mod_cast (by omega :
      (request.claims config).expiresAt.toInt + config.clockSkewSeconds.toInt ≤ (2 : Int) ^ 64)
  refine ⟨⟨first, exact_, lt_overflow (abs_le.mpr ⟨?_, ?_⟩) (by decide : 64 < 1024)⟩, rfl⟩
  · linarith
  · linarith

/-- In its window every double is accepted exactly if the request is timely. -/
theorem accepted_everywhere_iff {minted : MintedGrantToken} (correct : sodium.Correct)
    (validated : config.validate sodium = .ok ())
    (mint : mintGrantToken sodium config request = .ok minted)
    (noOverflow : request.issuedAt.toInt + (request.lifetime config).toInt < 2 ^ 63)
    (acceptable : request.Acceptable) :
    (∀ rotated (now : Number), Rotates sodium config rotated → request.opens config ≤ now.value →
        now.value < request.closes config →
          verifyGrantToken sodium rotated minted.token (.finite now) = .ok minted.claims) ↔
      request.Timely config := by
  constructor
  · intro accepted inside
    have self := rotates_self validated
    have rounded := accepted_iff correct validated mint noOverflow self acceptable
    have opened := binary64.le_round_up (request.opens config)
    have exact_ := binary64.exact_round .up (request.opens config)
    constructor
    · obtain ⟨now, value⟩ := exists_number exact_ opened inside
      have here := (rounded now).mp (accepted config now self (by rwa [value]) (by rwa [value]))
      rw [value] at here
      exact here.1
    · -- Otherwise the rounded end, or the start if it is later, is a double that is refused.
      by_contra short
      rw [not_le] at short
      set finish := nearest (nearest (request.claims config).expiresAt.toInt +
        nearest config.clockSkewSeconds.toInt)
      have ends : binary64.Exact finish := binary64.exact_round _ _
      have last : binary64.Exact (max (binary64.round .up (request.opens config)) finish) := by
        rcases max_choice (binary64.round .up (request.opens config)) finish with same | same
        · rwa [same]
        · rwa [same]
      obtain ⟨now, value⟩ := exists_number last (opened.trans (le_max_left _ _)) (max_lt inside short)
      have here := (rounded now).mp (accepted config now self
        (by rw [value]; exact opened.trans (le_max_left _ _)) (by rw [value]; exact max_lt inside short))
      exact (here.2.trans_le (by rw [value]; exact le_max_right _ _)).false
  · intro timely rotated now rotates started running
    have first := (Format.round_up_le_iff now.exact_).mpr started
    obtain ⟨begun, ended⟩ := timely (first.trans_lt running)
    refine (accepted_iff correct validated mint noOverflow rotates acceptable now).mpr
      ⟨begun.trans (nearest_mono ?_), running.trans_le ended⟩
    linarith

/-- A minted token is accepted with its claims at every time of its window, under its own keys
and every rotation of them, and is never dead, exactly if the request was acceptable and
timely. -/
theorem minted_accepted_iff {minted : MintedGrantToken} (correct : sodium.Correct)
    (validated : config.validate sodium = .ok ())
    (mint : mintGrantToken sodium config request = .ok minted)
    (noOverflow : request.issuedAt.toInt + (request.lifetime config).toInt < 2 ^ 63) :
    ((∀ rotated (now : Number), Rotates sodium config rotated →
        (minted.claims.issuedAt.toInt : ℚ) - config.clockSkewSeconds.toInt ≤ now.value →
          now.value < minted.claims.expiresAt.toInt + config.clockSkewSeconds.toInt →
            verifyGrantToken sodium rotated minted.token (.finite now) = .ok minted.claims) ∧
      ∀ rotated now invalid, Rotates sodium config rotated →
        verifyGrantToken sodium rotated minted.token now = .error invalid →
          invalid.isDead = false) ↔
      request.Acceptable ∧ request.Timely config := by
  rcases mintGrantToken_ok mint with ⟨-, -, -, -, -, claims, -⟩
  have everywhere := accepted_everywhere_iff correct validated mint noOverflow
  rw [claims] at everywhere ⊢
  constructor
  · rintro ⟨accepted, alive⟩
    have self := rotates_self validated
    have acceptable := (alive_iff correct mint self .nan).mp fun invalid => alive config .nan invalid self
    exact ⟨acceptable, (everywhere acceptable).mp accepted⟩
  · rintro ⟨acceptable, timely⟩
    refine ⟨(everywhere acceptable).mpr timely, ?_⟩
    intro rotated now invalid rotates
    exact (alive_iff correct mint rotates now).mpr acceptable invalid

/-! ## A purpose that is not UTF-8 -/

/-- A stand-in for libsodium: the plaintext in the clear behind a tag of zeros. -/
def plainSodium : Sodium where
  sha256 message := (message.drop 21 ++ List.replicate 32 0).take 32
  encrypt _ _ _ plaintext := List.replicate 16 0 ++ plaintext
  decrypt _ _ _ body := if body.take 16 = List.replicate 16 0 then some (body.drop 16) else none
  sha256_length message := by simp
  encrypt_length _ _ _ plaintext := by
    rw [List.length_append, List.length_replicate, Nat.add_comm]

theorem plainSodium_correct : plainSodium.Correct := by
  intro key nonce aad plaintext
  simp [plainSodium]

def sampleKey : GrantKey := ⟨List.replicate 32 7, rfl⟩

def sampleKeys : GrantKeys := ⟨[sampleKey], ascii "prod", 3600, 60⟩

/-- A request of `alice` for a minute. -/
def sampleRequest (purpose : Bytes) : MintRequest :=
  ⟨ascii "alice", [ascii "read"], purpose, 60, 1000, ascii "id", ⟨List.replicate 24 1, rfl⟩⟩

/-- From 2^53 seconds on a second may be rounded away. -/
example : ¬{ sampleRequest (ascii "nightly") with issuedAt := 2 ^ 53, ttlSeconds := 1 }.Timely
    { sampleKeys with clockSkewSeconds := 0 } := by
  decide +kernel

/-- An ordinary grant is accepted until the end of its window. -/
theorem sampleRequest_accepted :
    ∃ minted, mintGrantToken plainSodium sampleKeys (sampleRequest (ascii "nightly")) =
        .ok minted ∧
      verifyGrantToken plainSodium sampleKeys minted.token (.finite (.ofInt 1119 (by decide))) =
        .ok minted.claims := by
  have validated : sampleKeys.validate plainSodium = .ok () := by decide
  have mints : (mintGrantToken plainSodium sampleKeys (sampleRequest (ascii "nightly"))).isOk =
      true := by decide
  cases mint : mintGrantToken plainSodium sampleKeys (sampleRequest (ascii "nightly")) with
  | error invalid =>
      rw [mint] at mints
      cases mints
  | ok minted =>
      have claims : minted.claims = (sampleRequest (ascii "nightly")).claims sampleKeys := by
        rcases mintGrantToken_ok mint with ⟨-, -, -, -, -, claims, -⟩
        exact claims
      have accepted := (minted_accepted_iff plainSodium_correct validated mint (by decide)).mpr
        ⟨by decide +kernel, timely_of_small ⟨by decide, by decide, by decide, by decide⟩⟩
      refine ⟨minted, rfl, accepted.1 sampleKeys _ (rotates_self validated) ?_ ?_⟩
      · rw [claims]
        decide +kernel
      · rw [claims]
        decide +kernel

/-- A purpose of one byte `ff` is minted, and not accepted at the moment of minting. -/
theorem badPurpose_refused :
    sampleKeys.validate plainSodium = .ok () ∧
      ∃ minted, mintGrantToken plainSodium sampleKeys (sampleRequest [0xff]) = .ok minted ∧
        verifyGrantToken plainSodium sampleKeys minted.token (.finite (.ofInt 1000 (by decide))) =
          .error .notUtf8 := by
  constructor
  · decide
  · have refused : (match mintGrantToken plainSodium sampleKeys (sampleRequest [0xff]) with
        | .error _ => false
        | .ok minted =>
            match verifyGrantToken plainSodium sampleKeys minted.token
                (.finite (.ofInt 1000 (by decide))) with
            | .error invalid => invalid = .notUtf8
            | .ok _ => false) = true := by decide +kernel
    split at refused
    next => simp at refused
    next minted mint =>
      refine ⟨minted, mint, ?_⟩
      split at refused
      next invalid verified =>
        rw [verified]
        simpa using refused
      next => simp at refused

end VgiRpc.Grants
