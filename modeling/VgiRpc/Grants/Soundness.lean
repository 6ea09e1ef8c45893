import VgiRpc.Grants.Acceptance

/-!
# Accepted grants were minted

With an ideal AEAD, a token that verifies is, byte for byte, one that was minted for
the same audience.  Every step of verification fixes a part of the token: the prefix,
the canonical spelling, the key id, the version, and the sealed payload.
-/

namespace VgiRpc.Grants

open VgiRpc.Cpp VgiRpc.Crypto VgiRpc.Identity VgiRpc.Lib VgiRpc.Lib.Rounding

variable {sodium : Sodium} {config : GrantKeys} {token : Bytes} {claims : GrantClaims}
  {now : Binary64}

/-! ## What verification checks -/

theorem b64urlStrict_ok {text raw : Bytes} (decoded : b64urlStrict text = .ok raw) :
    text = base64urlEncode raw := by
  rw [b64urlStrict] at decoded
  split at decoded
  next => simp at decoded
  next =>
    split at decoded
    next => simp at decoded
    next =>
      split at decoded
      next => simp at decoded
      next canonical =>
        rw [← Except.ok.inj decoded]
        exact (not_not.mp canonical).symm

/-- The parts of a token that verifies. -/
structure Verified (sodium : Sodium) (config : GrantKeys) (token : Bytes) (claims : GrantClaims)
    (now : Binary64) (key : GrantKey) (sealed payload : Bytes) : Prop where
  held : key ∈ config.keys
  spelled : token = kGrantTokenPrefix ++
    base64urlEncode (grantKeyId sodium key ++ kEnvelopeVersion :: sealed)
  opened : aeadOpen sodium key sealed (config.aad (grantKeyId sodium key)) = some payload
  decoded : decodeGrantPayload payload = .ok claims
  lifetime : checkLifetime config claims now = .ok claims

/-- What is known of claims whose lifetime was checked. -/
structure InLifetime (config : GrantKeys) (claims : GrantClaims) (now : Binary64) : Prop where
  positive : claims.issuedAt.toInt < claims.expiresAt.toInt
  bounded : 0 ≤ config.maxTtlSeconds →
    claims.expiresAt.toInt - claims.issuedAt.toInt ≤ config.maxTtlSeconds.toInt
  started : ¬Binary64.ofInt claims.issuedAt.toInt >
    now + Binary64.ofInt config.clockSkewSeconds.toInt
  running : ¬now ≥ Binary64.ofInt claims.expiresAt.toInt +
    Binary64.ofInt config.clockSkewSeconds.toInt

theorem checkLifetime_ok {read : GrantClaims} (checked : checkLifetime config read now = .ok claims) :
    read = claims ∧ InLifetime config claims now := by
  rw [checkLifetime] at checked
  split at checked
  next => simp at checked
  next =>
    split at checked
    next => simp at checked
    next within =>
      simp only at checked
      split at checked
      next => simp at checked
      next started =>
        split at checked
        next => simp at checked
        next running =>
          have same := Except.ok.inj checked
          rw [same] at within started running
          rw [not_or] at within
          have later := Int64.not_le.mp within.1
          refine ⟨same, Int64.lt_iff_toInt_lt.mp later, ?_, started, running⟩
          intro valid
          have distance := toNat_toUInt64_sub (Int64.le_of_lt later)
          have unsigned := toInt_eq config.maxTtlSeconds
          have positive := Int64.le_iff_toInt_le.mp valid
          have short := within.2
          rw [gt_iff_lt, UInt64.lt_iff_toNat_lt] at short
          rw [Int64.toInt_zero] at positive
          have size := config.maxTtlSeconds.toUInt64.toNat_lt
          split at unsigned <;> omega

theorem verifyGrantToken_ok (accepted : verifyGrantToken sodium config token now = .ok claims) :
    ∃ key sealed payload, Verified sodium config token claims now key sealed payload := by
  rw [verifyGrantToken] at accepted
  by_cases prefixed : token.take kGrantTokenPrefix.length ≠ kGrantTokenPrefix
  · rw [if_pos prefixed] at accepted
    cases accepted
  · rw [if_neg prefixed] at accepted
    by_cases long : token.length > kMaxGrantTokenChars
    · rw [if_pos long] at accepted
      cases accepted
    · rw [if_neg long] at accepted
      cases strict : b64urlStrict (token.drop kGrantTokenPrefix.length) with
      | error invalid =>
          simp only [bind, Except.bind, strict] at accepted
          cases accepted
      | ok raw =>
          simp only [bind, Except.bind, strict] at accepted
          cases found : config.keys.find? fun candidate =>
              grantKeyId sodium candidate = raw.take kKidBytes with
          | none =>
              rw [found] at accepted
              cases accepted
          | some key =>
              rw [found] at accepted
              cases envelope : raw.drop kKidBytes with
              | nil =>
                  simp only [envelope] at accepted
                  cases accepted
              | cons version sealed =>
                  simp only [envelope] at accepted
                  by_cases other : version ≠ kEnvelopeVersion
                  · rw [if_pos other] at accepted
                    cases accepted
                  · rw [if_neg other] at accepted
                    cases opened : aeadOpen sodium key sealed (config.aad (raw.take kKidBytes)) with
                    | none =>
                        rw [opened] at accepted
                        cases accepted
                    | some payload =>
                        rw [opened] at accepted
                        cases decoded : decodeGrantPayload payload with
                        | error invalid =>
                            simp only [decoded] at accepted
                            cases accepted
                        | ok read =>
                            simp only [decoded] at accepted
                            refine ⟨key, sealed, payload, ?_⟩
                            have kid : grantKeyId sodium key = raw.take kKidBytes := by
                              simpa using List.find?_some found
                            have checked := (checkLifetime_ok accepted).1
                            rw [checked] at accepted decoded
                            constructor
                            · exact List.mem_of_find?_eq_some found
                            · rw [kid, ← not_not.mp other, ← envelope, List.take_append_drop,
                                ← b64urlStrict_ok strict]
                              nth_rewrite 1 [← not_not.mp prefixed]
                              rw [List.take_append_drop]
                            · rw [kid]
                              exact opened
                            · exact decoded
                            · exact accepted

/-! ## The clock -/

/-- The clock stands in the window of the claims, as sums of doubles tell it. -/
structure Window (config : GrantKeys) (claims : GrantClaims) (now : Number) : Prop where
  started : nearest claims.issuedAt.toInt ≤
    nearest (now.value + nearest config.clockSkewSeconds.toInt)
  running : now.value <
    nearest (nearest claims.expiresAt.toInt + nearest config.clockSkewSeconds.toInt)

namespace Window

variable {number : Number}

theorem running_exact (window : Window config claims number) (small : Small config claims) :
    number.value < claims.expiresAt.toInt + config.clockSkewSeconds.toInt := by
  have running := window.running
  rwa [small.nearest_end] at running

/-- The start is less than one unit in the last place of `issued_at` early. -/
theorem started_close (window : Window config claims number) (small : Small config claims)
    {power : Nat} (bits : power ≤ 53) (size : |claims.issuedAt.toInt| < 2 ^ power) :
    (claims.issuedAt.toInt : ℚ) - config.clockSkewSeconds.toInt - 2 ^ ((power : Int) - 53) <
      number.value := by
  have started := window.started
  rw [nearest_int small.issued, nearest_int small.skew] at started
  have close := lt_of_le_nearest bits size started
  linarith

/-- It is not early at all if the clock and the skew add up to a double. -/
theorem started_exact (window : Window config claims number) (small : Small config claims)
    (sum : binary64.Exact (number.value + config.clockSkewSeconds.toInt)) :
    (claims.issuedAt.toInt : ℚ) - config.clockSkewSeconds.toInt ≤ number.value := by
  have started := window.started
  rw [nearest_int small.issued, nearest_int small.skew, nearest_exact sum] at started
  linarith

end Window

theorem InLifetime.window {number : Number} (lifetime : InLifetime config claims (.finite number)) :
    Window config claims number where
  started := not_lt.mp (mt (notYetValid_iff _ _ number).mpr lifetime.started)
  running := not_le.mp (mt (expired_iff _ _ number).mpr lifetime.running)

/-- At an infinite time nothing is accepted. -/
theorem InLifetime.not_infinite (lifetime : InLifetime config claims now) (negative : Bool) :
    now ≠ .infinite negative := by
  rintro rfl
  obtain ⟨start, start_eq, -⟩ := Binary64.ofInt_finite claims.issuedAt
  obtain ⟨finish, finish_eq, -⟩ := Binary64.ofInt_finite claims.expiresAt
  obtain ⟨width, width_eq, -⟩ := Binary64.ofInt_finite config.clockSkewSeconds
  obtain ⟨-, -, started, running⟩ := lifetime
  rw [start_eq, width_eq] at started
  rw [finish_eq, width_eq, Binary64.add_finite] at running
  cases negative with
  | true => exact started rfl
  | false =>
      refine running ?_
      change Binary64.le (Binary64.ofRat _) _ = true
      rw [Binary64.ofRat]
      split_ifs
      · rfl
      · cases decide (finish.value + width.value < 0) <;> rfl

/-! ## An ideal AEAD -/

/-- A call of `mint_grant_token` that returned. -/
structure Minting (sodium : Sodium) where
  config : GrantKeys
  request : MintRequest
  key : GrantKey
  minted : MintedGrantToken
  first : config.keys.head? = some key
  mint : mintGrantToken sodium config request = .ok minted

namespace Minting

/-- The associated data of the call of `aead_seal`. -/
def aad (minting : Minting sodium) : Bytes := minting.config.aad (grantKeyId sodium minting.key)

/-- The plaintext. -/
def payload (minting : Minting sodium) : Bytes := payloadBytes minting.minted.claims

/-- The sealed bytes. -/
def sealed (minting : Minting sodium) : Bytes :=
  aeadSealWithNonce sodium minting.key minting.payload minting.aad minting.request.nonce

theorem token_eq (minting : Minting sodium) :
    minting.minted.token = kGrantTokenPrefix ++ base64urlEncode
      (grantKeyId sodium minting.key ++ kEnvelopeVersion :: minting.sealed) := by
  rcases mintGrantToken_ok minting.mint with ⟨key, others, keys, -, -, claims, token⟩
  have same : minting.key = key := by
    have first := minting.first
    rw [keys, List.head?_cons, Option.some.injEq] at first
    exact first.symm
  rw [token, ← claims, ← same]
  rfl

theorem fits (minting : Minting sodium) : minting.minted.claims.Fits := by
  rcases mintGrantToken_ok minting.mint with ⟨-, -, -, -, fits, claims, -⟩
  rw [claims]
  exact fits

end Minting

/-- The AEAD opens under the associated data of grants only what minting sealed, and no
two mintings seal the same bytes. -/
structure IdealAead (sodium : Sodium) (log : List (Minting sodium)) : Prop where
  opens : ∀ {key sealed rest payload}, aeadOpen sodium key sealed (kAadDomain ++ rest) =
    some payload → ∃ minting ∈ log, minting.key = key ∧ minting.sealed = sealed ∧
      minting.aad = kAadDomain ++ rest ∧ minting.payload = payload
  unique : ∀ one ∈ log, ∀ two ∈ log, one.sealed = two.sealed → one = two

/-- The associated data names the audience. -/
theorem audience_of_aad {other : GrantKeys} {kid : Bytes} (same : other.aad kid = config.aad kid) :
    other.audience = config.audience := by
  rw [GrantKeys.aad, GrantKeys.aad] at same
  exact List.append_cancel_left same

/-- What is accepted was minted, with one of the keys and for the same audience. -/
structure Authentic (config : GrantKeys) (token : Bytes) (claims : GrantClaims)
    (minting : Minting sodium) : Prop where
  token : minting.minted.token = token
  claims : minting.minted.claims = claims
  key : minting.key ∈ config.keys
  audience : minting.config.audience = config.audience

theorem authentic_of_verified {log : List (Minting sodium)} (ideal : IdealAead sodium log)
    {key : GrantKey} {sealed payload : Bytes}
    (verified : Verified sodium config token claims now key sealed payload) :
    ∃ minting ∈ log, minting.sealed = sealed ∧ Authentic config token claims minting := by
  have opened := verified.opened
  rw [GrantKeys.aad, List.append_assoc] at opened
  rcases ideal.opens opened with ⟨minting, mem, sealedBy, bytes, aad, plain⟩
  refine ⟨minting, mem, bytes, ?_⟩
  have read := verified.decoded
  rw [← plain, Minting.payload, decodeGrantPayload_payloadBytes minting.fits] at read
  constructor
  · rw [minting.token_eq, verified.spelled, sealedBy, bytes]
  · split at read
    next => exact Except.ok.inj read
    next => simp at read
  · rw [sealedBy]
    exact verified.held
  · rw [Minting.aad, sealedBy, ← List.append_assoc, ← GrantKeys.aad] at aad
    exact audience_of_aad aad

/-! ## Soundness -/

/-- The bytes behind the key id of a token. -/
def sealedEnvelope (token : Bytes) : Bytes :=
  ((base64urlDecode (token.drop kGrantTokenPrefix.length)).getD []).drop kKidBytes

theorem sealedEnvelope_of_verified {key : GrantKey} {sealed payload : Bytes}
    (verified : Verified sodium config token claims now key sealed payload) :
    sealedEnvelope token = kEnvelopeVersion :: sealed := by
  rw [sealedEnvelope, verified.spelled, List.drop_left, base64urlDecode_encode, Option.getD_some,
    ← length_grantKeyId key, List.drop_left]

/-- An ordinary request. -/
def nightlyRequest : MintRequest := sampleRequest (ascii "nightly")

/-- The same, a minute behind 2^31. -/
def lateRequest : MintRequest := { nightlyRequest with issuedAt := 2147483708 }

/-- A stand-in for libsodium that opens nothing but the payload of one request. -/
def idealSodium (request : MintRequest) : Sodium :=
  { plainSodium with
    decrypt := fun key nonce aad body =>
      if key = sampleKey.bytes ∧ nonce = request.nonce.bytes ∧
          aad = sampleKeys.aad (grantKeyId plainSodium sampleKey) ∧
          body = List.replicate 16 0 ++ payloadBytes (request.claims sampleKeys) then
        some (payloadBytes (request.claims sampleKeys))
      else none }

/-- The only token that is ever sealed. -/
def onlyMinted (request : MintRequest) : MintedGrantToken :=
  ⟨kGrantTokenPrefix ++ base64urlEncode (grantEnvelope (idealSodium request) sampleKey sampleKeys
    (payloadBytes (request.claims sampleKeys)) request.nonce),
    request.claims sampleKeys⟩

variable {request : MintRequest}

def onlyMinting
    (mint : mintGrantToken (idealSodium request) sampleKeys request = .ok (onlyMinted request)) :
    Minting (idealSodium request) :=
  ⟨sampleKeys, request, sampleKey, onlyMinted request, rfl, mint⟩

theorem idealSodium_ideal
    (mint : mintGrantToken (idealSodium request) sampleKeys request = .ok (onlyMinted request)) :
    IdealAead (idealSodium request) [onlyMinting mint] := by
  constructor
  · intro key sealed rest payload opened
    refine ⟨onlyMinting mint, List.mem_cons_self, ?_⟩
    rw [aeadOpen] at opened
    split at opened
    next => simp at opened
    next =>
      simp only [idealSodium] at opened
      split at opened
      next here =>
        rcases here with ⟨bytes, nonce, aad, body⟩
        rw [Option.some.injEq] at opened
        refine ⟨?_, ?_, aad.symm, opened⟩
        · cases key
          simp only at bytes
          subst bytes
          rfl
        · rw [← List.take_append_drop 24 sealed, nonce, body]
          rfl
      next => simp at opened
  · intro one oneMem two twoMem _
    rw [List.mem_singleton] at oneMem twoMem
    rw [oneMem, twoMem]

theorem mint_nightlyRequest : mintGrantToken (idealSodium nightlyRequest) sampleKeys nightlyRequest =
    .ok (onlyMinted nightlyRequest) := rfl

theorem mint_lateRequest : mintGrantToken (idealSodium lateRequest) sampleKeys lateRequest =
    .ok (onlyMinted lateRequest) := rfl

/-- The configuration of `sampleKeys` with a limit of minus one second. -/
def negativeKeys : GrantKeys := { sampleKeys with maxTtlSeconds := -1 }

/-- The last double in front of 2^31. -/
def justBefore : Number where
  value := (2 ^ 53 - 1) / 2 ^ 22
  exact_ := ⟨2 ^ 53 - 1, -22, by decide, by decide, by norm_num⟩
  bounded := by
    have size : |((2 : ℚ) ^ 53 - 1) / 2 ^ 22| ≤ 2 ^ 31 := by norm_num
    exact lt_overflow size (by decide)

end VgiRpc.Grants
