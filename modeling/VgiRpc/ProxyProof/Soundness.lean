import VgiRpc.Crypto.Base64url
import VgiRpc.Lib.Separators
import VgiRpc.ProxyProof.Replay

/-!
# Accepted proofs were minted for this worker

With an ideal HMAC, a header is accepted only if the holder of the secret that it names has
computed the MAC over its key id, timestamp and nonce and over the origin id of this verifier.
The text under the MAC has NUL bytes between its parts, which the alphabets of the parts rule
out inside them.
-/

namespace VgiRpc.ProxyProof

open VgiRpc.Cpp VgiRpc.Crypto VgiRpc.Lib

/-! ## Headers -/

namespace Proof

/-- The header of a proof. -/
def text (proof : Proof) : Bytes :=
  [0x2e].intercalate [ascii "v1", proof.kid, proof.ts, proof.nonce, proof.mac]

/-- Every field is of its alphabet and its length. -/
structure WellFormed (proof : Proof) : Prop where
  kid : validKid proof.kid = true
  ts : validTs proof.ts = true
  nonce : validB64urlFixed proof.nonce 22 = true
  mac : validB64urlFixed proof.mac 43 = true

end Proof

section Fields

variable {text : Bytes} {byte : UInt8}

/-- A byte of a key id or of a base64url text separates nothing. -/
theorem alphabet_apart : ((isKidChar byte = true ∨ isB64urlChar byte = true) ∨ isDigit byte = true) →
    byte ≠ 0x2e ∧ byte ≠ 0 := by
  have every := forall_byte (fun byte => decide (((isKidChar byte = true ∨ isB64urlChar byte = true) ∨
    isDigit byte = true) → byte ≠ 0x2e ∧ byte ≠ 0)) (by decide) byte
  exact of_decide_eq_true every

theorem apart_of_validKid (valid : validKid text = true) : (0x2e : UInt8) ∉ text ∧ (0 : UInt8) ∉ text := by
  simp only [validKid, Bool.and_eq_true, List.all_eq_true] at valid
  exact ⟨fun member => (alphabet_apart (.inl (.inl (valid.2 _ member)))).1 rfl,
    fun member => (alphabet_apart (.inl (.inl (valid.2 _ member)))).2 rfl⟩

theorem apart_of_validTs (valid : validTs text = true) : (0x2e : UInt8) ∉ text ∧ (0 : UInt8) ∉ text := by
  simp only [validTs, Bool.and_eq_true, List.all_eq_true] at valid
  exact ⟨fun member => (alphabet_apart (.inr (valid.2 _ member))).1 rfl,
    fun member => (alphabet_apart (.inr (valid.2 _ member))).2 rfl⟩

theorem apart_of_validB64urlFixed {length : Nat} (valid : validB64urlFixed text length = true) :
    (0x2e : UInt8) ∉ text ∧ (0 : UInt8) ∉ text := by
  simp only [validB64urlFixed, Bool.and_eq_true, List.all_eq_true] at valid
  exact ⟨fun member => (alphabet_apart (.inl (.inr (valid.2 _ member)))).1 rfl,
    fun member => (alphabet_apart (.inl (.inr (valid.2 _ member)))).2 rfl⟩

theorem splitOn_eq (separator : UInt8) (text : Bytes) : splitOn separator text = text.splitOn separator := by
  induction text with
  | nil => rfl
  | cons byte text inductionHypothesis =>
      rw [splitOn, List.splitOn_cons_eq_if_modifyHead, inductionHypothesis]
      by_cases here : byte = separator
      · rw [if_pos here, if_pos (beq_iff_eq.mpr here)]
      · rw [if_neg here, if_neg (mt beq_iff_eq.mp here)]
        cases pieces : text.splitOn separator with
        | nil => exact absurd pieces (List.splitOn_ne_nil _ _)
        | cons piece pieces => rfl

/-- The headers that parse are the texts of well-formed proofs. -/
theorem parseProof_eq_some_iff {header : Bytes} {proof : Proof} :
    parseProof header = some proof ↔ proof.WellFormed ∧ header = proof.text := by
  constructor
  · intro parsed
    rw [parseProof] at parsed
    split at parsed
    next version kid ts nonce mac pieces =>
        split at parsed
        next valid =>
            obtain ⟨rfl, kidOk, tsOk, nonceOk, macOk⟩ := valid
            obtain rfl := Option.some.inj parsed
            rw [splitExact] at pieces
            split at pieces
            next =>
                have joined := @List.intercalate_splitOn _ header _ _ 0x2e
                rw [← splitOn_eq, Option.some.inj pieces] at joined
                exact ⟨⟨kidOk, tsOk, nonceOk, macOk⟩, joined.symm⟩
            next => cases pieces
        next => cases parsed
    next => cases parsed
  · rintro ⟨valid, rfl⟩
    have split : splitOn 0x2e proof.text = [ascii "v1", proof.kid, proof.ts, proof.nonce, proof.mac] := by
      rw [splitOn_eq, Proof.text, List.splitOn_intercalate _ ?_ (List.cons_ne_nil _ _)]
      simp only [List.forall_mem_cons]
      exact ⟨by decide, (apart_of_validKid valid.kid).1, (apart_of_validTs valid.ts).1,
        (apart_of_validB64urlFixed valid.nonce).1, (apart_of_validB64urlFixed valid.mac).1,
        fun _ listed => absurd listed List.not_mem_nil⟩
    rw [parseProof, splitExact, split]
    simp [valid.kid, valid.ts, valid.nonce, valid.mac]

/-- The text under the MAC has one reading. -/
theorem canonical_injective {config other : Config} {proof otherProof : Proof}
    (valid : proof.WellFormed) (otherValid : otherProof.WellFormed)
    (same : canonical config proof = canonical other otherProof) :
    proof.kid = otherProof.kid ∧ proof.ts = otherProof.ts ∧ proof.nonce = otherProof.nonce ∧
      config.originId = other.originId := by
  simp only [canonical, List.append_assoc, List.singleton_append] at same
  have behind := (List.cons.inj (List.append_cancel_left same)).2
  obtain ⟨kid, behind⟩ := (append_cons_inj_front (apart_of_validKid valid.kid).2
    (apart_of_validKid otherValid.kid).2).mp behind
  obtain ⟨ts, behind⟩ := (append_cons_inj_front (apart_of_validTs valid.ts).2
    (apart_of_validTs otherValid.ts).2).mp behind
  obtain ⟨nonce, origin⟩ := (append_cons_inj_front (apart_of_validB64urlFixed valid.nonce).2
    (apart_of_validB64urlFixed otherValid.nonce).2).mp behind
  exact ⟨kid, ts, nonce, origin⟩

/-- A run of digits has a value that is not negative. -/
theorem stoll_validTs {value : Int} (valid : validTs text = true) (read : stoll text = some value) :
    0 ≤ value ∧ value < 2 ^ 63 := by
  simp only [validTs, Bool.and_eq_true, List.all_eq_true, decide_eq_true_eq] at valid
  cases text with
  | nil => exact absurd rfl valid.1.1
  | cons byte text =>
      have digit := valid.2 byte List.mem_cons_self
      have notSpace : ¬isSpace byte = true := by simp [isSpace_eq_false_of_isDigit digit]
      rw [stoll, List.dropWhile_cons_of_neg notSpace] at read
      split at read
      next equal =>
          rw [(List.cons.inj equal).1] at digit
          exact absurd digit (by decide)
      next equal =>
          rw [(List.cons.inj equal).1] at digit
          exact absurd digit (by decide)
      next =>
          simp only [Bool.false_eq_true, if_false] at read
          split at read
          next => cases read
          next =>
              split at read
              next range =>
                  obtain rfl := Option.some.inj read
                  exact ⟨Int.natCast_nonneg _, range.2⟩
              next => cases read

end Fields

/-! ## The call of the HMAC -/

/-- What `verify` makes of the MAC that it expects. -/
def conclude (proof : Proof) (expected : Bytes) : Except ProofResult Proof :=
  if !constantTimeEqual (base64urlEncode expected) proof.mac then
    .error { reason := .badMac, claimedKid := proof.kid }
  else .ok proof

/-- The steps of `checkProof`, with the call of `hmac_sha256` as an effect. -/
def checkProofM {m : Type → Type} [Monad m] (hmacSha256 : Bytes → Bytes → m Bytes) (config : Config)
    (now : Int) (header : Bytes) (count : Int) : m (Except ProofResult Proof) :=
  if count = 0 then
    return .error { reason := .noProof }
  else if count ≠ 1 ∨ header = [] ∨ header.length > kMaxHeaderBytes then
    return .error { reason := .malformed }
  else match parseProof header with
    | none => return .error { reason := .malformed }
    | some proof =>
        match config.secrets.lookup proof.kid with
        | none => return .error { reason := .unknownKid, claimedKid := proof.kid }
        | some secret =>
            match stoll proof.ts with
            | none => return .error { reason := .malformed, claimedKid := proof.kid }
            | some tsValue =>
                if now - tsValue > config.skewSeconds then
                  return .error { reason := .expired, claimedKid := proof.kid }
                else if tsValue - now > config.skewSeconds then
                  return .error { reason := .notYetValid, claimedKid := proof.kid }
                else do
                  let expected ← hmacSha256 secret (canonical config proof)
                  return conclude proof expected

/-- A call of the HMAC that is written down. -/
def noted (hmac : Hmac) (key message : Bytes) : StateM (List (Bytes × Bytes)) Bytes := do
  modify (· ++ [(key, message)])
  return hmac key message

/-- A single header passes every check but the one of its MAC. -/
structure Checked (config : Config) (now : Int) (header : Bytes) (count : Int) (proof : Proof)
    (secret : Bytes) : Prop where
  single : count = 1
  short : header.length ≤ kMaxHeaderBytes
  parsed : parseProof header = some proof
  known : config.secrets.lookup proof.kid = some secret
  inWindow : ∃ tsValue, stoll proof.ts = some tsValue ∧ now - tsValue ≤ config.skewSeconds ∧
    tsValue - now ≤ config.skewSeconds

section Calls

variable {hmac : Hmac} {config : Config} {now count : Int} {header : Bytes}

/-- A header that is refused before its MAC is compared is refused without the HMAC. -/
theorem checkProofM_cases {m : Type → Type} [Monad m] (hmacSha256 : Bytes → Bytes → m Bytes) :
    (∃ refusal, checkProofM hmacSha256 config now header count = pure (.error refusal) ∧
        checkProof hmac config now header count = .error refusal) ∨
      ∃ proof secret, Checked config now header count proof secret ∧
        checkProofM hmacSha256 config now header count =
          (do
            let expected ← hmacSha256 secret (canonical config proof)
            return conclude proof expected) ∧
        checkProof hmac config now header count =
          conclude proof (hmac secret (canonical config proof)) := by
  rw [checkProofM, checkProof]
  split
  next => exact .inl ⟨_, rfl, rfl⟩
  next =>
      split
      next => exact .inl ⟨_, rfl, rfl⟩
      next sized =>
          cases parsed : parseProof header with
          | none => exact .inl ⟨_, rfl, rfl⟩
          | some proof =>
              cases known : config.secrets.lookup proof.kid with
              | none =>
                  simp only [known]
                  exact .inl ⟨_, rfl, rfl⟩
              | some secret =>
                  cases read : stoll proof.ts with
                  | none =>
                      simp only [known, read]
                      exact .inl ⟨_, rfl, rfl⟩
                  | some tsValue =>
                      simp only [known, read]
                      split
                      next => exact .inl ⟨_, rfl, rfl⟩
                      next recent =>
                          split
                          next => exact .inl ⟨_, rfl, rfl⟩
                          next early =>
                              simp only [not_or, not_not, not_lt] at sized recent early
                              exact .inr ⟨proof, secret, ⟨sized.1, sized.2.2, parsed, known, tsValue,
                                read, recent, early⟩, rfl, rfl⟩

/-- The written-down steps end as `checkProof` does, with at most one call, which is of the
secret and the text of a header that passes every other check. -/
theorem checkProofM_noted (log : List (Bytes × Bytes)) :
    (checkProofM (noted hmac) config now header count log).1 = checkProof hmac config now header count ∧
      ((checkProofM (noted hmac) config now header count log).2 = log ∨
        ∃ proof secret, Checked config now header count proof secret ∧
          (checkProofM (noted hmac) config now header count log).2 =
            log ++ [(secret, canonical config proof)]) := by
  rcases @checkProofM_cases hmac config now count header _ _ (noted hmac) with
    ⟨refusal, steps, refused⟩ | ⟨proof, secret, checked, steps, concluded⟩
  · rw [steps, refused]
    exact ⟨rfl, .inl rfl⟩
  · rw [steps, concluded]
    exact ⟨rfl, .inr ⟨proof, secret, checked, rfl⟩⟩

theorem conclude_ok_iff {proof accepted : Proof} {expected : Bytes} :
    conclude proof expected = .ok accepted ↔ proof.mac = base64urlEncode expected ∧ accepted = proof := by
  rw [conclude, constantTimeEqual]
  by_cases same : base64urlEncode expected = proof.mac
  · rw [beq_iff_eq.mpr same]
    exact ⟨fun passed => ⟨same.symm, (Except.ok.inj passed).symm⟩, fun both => by rw [both.2]; rfl⟩
  · rw [beq_eq_false_iff_ne.mpr same]
    exact iff_of_false (by rintro ⟨⟩) (fun both => same both.1.symm)

/-- `checkProof` accepts the headers that pass every check. -/
theorem checkProof_ok_iff {proof : Proof} : checkProof hmac config now header count = .ok proof ↔
    ∃ secret, Checked config now header count proof secret ∧
      proof.mac = base64urlEncode (hmac secret (canonical config proof)) := by
  constructor
  · intro passed
    rcases @checkProofM_cases hmac config now count header Id _ hmac with
      ⟨refusal, -, refused⟩ | ⟨fields, secret, checked, -, concluded⟩
    · rw [refused] at passed
      cases passed
    · rw [concluded] at passed
      obtain ⟨mac, rfl⟩ := conclude_ok_iff.mp passed
      exact ⟨secret, checked, mac⟩
  · rintro ⟨secret, checked, mac⟩
    obtain ⟨tsValue, read, recent, early⟩ := checked.inWindow
    obtain rfl := checked.single
    have valid := parseProof_eq_some_iff.mp checked.parsed
    have nonempty : header ≠ [] := by
      rw [valid.2]
      exact List.cons_ne_nil _ _
    have authentic : Authentic hmac config header proof tsValue :=
      ⟨nonempty, checked.short, checked.parsed, read, secret, checked.known, mac.symm⟩
    rw [authentic.checkProof, if_neg (by omega), if_neg (by omega)]

/-- `verify` answers OK to the headers that pass every check and whose nonce is new. -/
theorem verify_ok_iff {cache : ReplayCache} {call : Call} (gate : config.mode ≠ .off) :
    (verify hmac config cache call).1.reason = .ok ↔
      ∃ proof, checkProof hmac config call.now call.header call.count = .ok proof ∧
        (cache.seenNonce config call.nowSeen proof.nonce).1 = false := by
  rw [verify, if_neg gate]
  cases passed : checkProof hmac config call.now call.header call.count with
  | error refusal =>
      apply iff_of_false
      · exact checkProof_error_ne passed
      · rintro ⟨proof, accepted, -⟩
        cases accepted
  | ok proof =>
      simp only [Except.ok.injEq, exists_eq_left']
      cases seen : (cache.seenNonce config call.nowSeen proof.nonce).1 with
      | true => exact iff_of_false (by rintro ⟨⟩) (by rintro ⟨⟩)
      | false => exact iff_of_true rfl rfl

end Calls

/-! ## An ideal HMAC -/

/-- A MAC that is presented was computed by somebody who holds the key, and no two computed
MACs are the same. -/
structure IdealHmac (hmac : Hmac) (computed : List (Bytes × Bytes)) (presented : Bytes → Prop) : Prop where
  size : ∀ key message, (hmac key message).length = 32
  unforgeable : ∀ header, presented header → ∀ key message,
    base64urlEncode (hmac key message) <:+: header → (key, message) ∈ computed
  distinct : ∀ one ∈ computed, ∀ two ∈ computed, hmac one.1 one.2 = hmac two.1 two.2 → one = two

/-- The proof that the holder of a secret mints for a verifier. -/
def minted (hmac : Hmac) (config : Config) (secret kid ts nonce : Bytes) : Proof where
  kid := kid
  ts := ts
  nonce := nonce
  mac := base64urlEncode (hmac secret (canonical config ⟨kid, ts, nonce, []⟩))

/-- The fields pass every check of `verify` in this state but the one of the MAC. -/
structure Timely (config : Config) (cache : ReplayCache) (now nowSeen : Int) (kid ts nonce : Bytes) :
    Prop where
  isKid : validKid kid = true
  isTs : validTs ts = true
  isNonce : validB64urlFixed nonce 22 = true
  inWindow : ∃ tsValue, stoll ts = some tsValue ∧ now - tsValue ≤ config.skewSeconds ∧
    tsValue - now ≤ config.skewSeconds
  new : (cache.seenNonce config nowSeen nonce).1 = false

/-- What holds of a verifier, whatever is presented to it. -/
structure SoundVerifier (hmac : Hmac) (computed : List (Bytes × Bytes)) (presented : Bytes → Prop)
    (config : Config) : Prop where
  /-- The holder of the secret has computed the MAC over these fields for this origin. -/
  authentic : ∀ cache call, presented call.header → (verify hmac config cache call).1.reason = .ok →
    ∃ proof secret, parseProof call.header = some proof ∧
      (verify hmac config cache call).1.proxyLabel = proof.kid ∧
      config.secrets.lookup proof.kid = some secret ∧ (secret, canonical config proof) ∈ computed
  /-- The text under the MAC has one reading. -/
  injective : ∀ (other : Config) (proof otherProof : Proof), proof.WellFormed →
    otherProof.WellFormed → canonical config proof = canonical other otherProof →
      proof.kid = otherProof.kid ∧ proof.ts = otherProof.ts ∧ proof.nonce = otherProof.nonce ∧
        config.originId = other.originId
  /-- A header with the MAC of a proof that was minted with another secret, key id, timestamp or
  nonce, or for another origin, is not accepted. -/
  bound : ∀ (other : Config) (secret kid ts nonce : Bytes),
    (minted hmac other secret kid ts nonce).WellFormed →
    ∀ cache call proof, presented call.header → parseProof call.header = some proof →
      proof.mac = (minted hmac other secret kid ts nonce).mac →
      (verify hmac config cache call).1.reason = .ok →
        config.secrets.lookup kid = some secret ∧ config.originId = other.originId ∧
          proof = minted hmac other secret kid ts nonce
  /-- Of the headers with a key id, a timestamp and a nonce, one is accepted. -/
  unique : ∀ kid ts nonce cache now nowSeen count header,
    ((∃ mac, parseProof header = some ⟨kid, ts, nonce, mac⟩) ∧
        (verify hmac config cache ⟨header, count, now, nowSeen⟩).1.reason = .ok) ↔
      count = 1 ∧ Timely config cache now nowSeen kid ts nonce ∧
        ∃ secret, config.secrets.lookup kid = some secret ∧
          header = (minted hmac config secret kid ts nonce).text
  /-- From 1970 on, the differences that the window is checked with are 64-bit integers. -/
  inRange : ∀ ts tsValue now, validTs ts = true → stoll ts = some tsValue → 0 ≤ now → now < 2 ^ 63 →
    (-2 ^ 63 ≤ now - tsValue ∧ now - tsValue < 2 ^ 63) ∧
      (-2 ^ 63 ≤ tsValue - now ∧ tsValue - now < 2 ^ 63)
  /-- The HMAC is called at most once, for a single header that passes every other check. -/
  frugal : ∀ now header count,
    (checkProofM (noted hmac) config now header count []).1 = checkProof hmac config now header count ∧
      ((checkProofM (noted hmac) config now header count []).2 = [] ∨
        ∃ proof secret, Checked config now header count proof secret ∧
          (checkProofM (noted hmac) config now header count []).2 = [(secret, canonical config proof)])

section Ideal

variable {hmac : Hmac} {computed : List (Bytes × Bytes)} {presented : Bytes → Prop} {config : Config}
variable {secret kid ts nonce : Bytes} {proof : Proof}

theorem Proof.mac_infix (proof : Proof) : proof.mac <:+: proof.text := by
  refine ⟨[0x2e].intercalate [ascii "v1", proof.kid, proof.ts, proof.nonce] ++ [0x2e], [], ?_⟩
  simp [Proof.text, List.intercalate]

theorem base64urlEncode_injective : Function.Injective base64urlEncode := by
  intro one two same
  have decoded := congrArg base64urlDecode same
  rw [base64urlDecode_encode, base64urlDecode_encode] at decoded
  exact Option.some.inj decoded

theorem isB64urlChar_digit {value : Nat} (bound : value < 64) : isB64urlChar (b64urlDigit value) = true := by
  have every : ∀ high, high < 8 → ∀ low, low < 8 →
      isB64urlChar (b64urlDigit (8 * high + low)) = true := by decide
  exact @forall_below 8 (fun value => isB64urlChar (b64urlDigit value) = true) every value bound

/-- The text of a MAC is one that `verify` takes. -/
theorem validB64urlFixed_mac {tag : Bytes} (size : tag.length = 32) :
    validB64urlFixed (base64urlEncode tag) 43 = true := by
  simp only [validB64urlFixed, Bool.and_eq_true, List.all_eq_true, decide_eq_true_eq]
  refine ⟨by rw [length_base64urlEncode, size], ?_⟩
  intro char member
  obtain ⟨value, bound, rfl⟩ := exists_digit_of_mem member
  exact isB64urlChar_digit bound

theorem computed_of_mac (ideal : IdealHmac hmac computed presented) {header key message : Bytes}
    (shown : presented header) (parsed : parseProof header = some proof)
    (mac : proof.mac = base64urlEncode (hmac key message)) : (key, message) ∈ computed := by
  apply ideal.unforgeable header shown
  rw [← mac, (parseProof_eq_some_iff.mp parsed).2]
  exact proof.mac_infix

theorem authentic_of_ok (ideal : IdealHmac hmac computed presented) (gate : config.mode ≠ .off)
    {cache : ReplayCache} {call : Call} (shown : presented call.header)
    (accepted : (verify hmac config cache call).1.reason = .ok) :
    ∃ proof secret, parseProof call.header = some proof ∧
      (verify hmac config cache call).1.proxyLabel = proof.kid ∧
      config.secrets.lookup proof.kid = some secret ∧
      proof.mac = base64urlEncode (hmac secret (canonical config proof)) ∧
      (secret, canonical config proof) ∈ computed := by
  obtain ⟨proof, passed, new⟩ := (verify_ok_iff gate).mp accepted
  obtain ⟨secret, checked, mac⟩ := checkProof_ok_iff.mp passed
  refine ⟨proof, secret, checked.parsed, ?_, checked.known, mac,
    computed_of_mac ideal shown checked.parsed mac⟩
  rw [verify, if_neg gate, passed]
  simp only [new, Bool.false_eq_true, if_false]

theorem bound_of_ok (ideal : IdealHmac hmac computed presented) (gate : config.mode ≠ .off)
    {other : Config} (valid : (minted hmac other secret kid ts nonce).WellFormed)
    {cache : ReplayCache} {call : Call} (shown : presented call.header)
    (parsed : parseProof call.header = some proof)
    (mac : proof.mac = (minted hmac other secret kid ts nonce).mac)
    (accepted : (verify hmac config cache call).1.reason = .ok) :
    config.secrets.lookup kid = some secret ∧ config.originId = other.originId ∧
      proof = minted hmac other secret kid ts nonce := by
  obtain ⟨fields, held, parsedFields, -, known, expected, logged⟩ :=
    authentic_of_ok ideal gate shown accepted
  obtain rfl : fields = proof := Option.some.inj (parsedFields.symm.trans parsed)
  have otherLogged := computed_of_mac ideal shown parsed mac
  have tags := base64urlEncode_injective (expected.symm.trans mac)
  have same := Prod.mk.inj (ideal.distinct _ logged _ otherLogged tags)
  obtain ⟨sameKid, sameTs, sameNonce, sameOrigin⟩ :=
    @canonical_injective config other fields (minted hmac other secret kid ts nonce)
      (parseProof_eq_some_iff.mp parsed).1 valid same.2
  have kidEq : fields.kid = kid := sameKid
  refine ⟨?_, sameOrigin, ?_⟩
  · rw [← kidEq, known, same.1]
  · cases fields
    simp only [minted, Proof.mk.injEq] at sameKid sameTs sameNonce mac ⊢
    exact ⟨sameKid, sameTs, sameNonce, mac⟩

/-- The minted proof is well-formed if its fields are, and is short enough. -/
theorem minted_wellFormed (ideal : IdealHmac hmac computed presented) (kidOk : validKid kid = true)
    (tsOk : validTs ts = true) (nonceOk : validB64urlFixed nonce 22 = true) :
    (minted hmac config secret kid ts nonce).WellFormed ∧
      (minted hmac config secret kid ts nonce).text.length ≤ kMaxHeaderBytes := by
  have mac := validB64urlFixed_mac (ideal.size secret (canonical config ⟨kid, ts, nonce, []⟩))
  refine ⟨⟨kidOk, tsOk, nonceOk, mac⟩, ?_⟩
  simp only [validKid, validTs, validB64urlFixed, Bool.and_eq_true, decide_eq_true_eq] at kidOk tsOk nonceOk mac
  have label : (ascii "v1").length = 2 := by decide
  simp only [Proof.text, minted, List.intercalate, List.intersperse, List.flatten_cons,
    List.flatten_nil, List.length_append, List.length_singleton, List.length_nil, label, mac.1,
    nonceOk.1, kMaxHeaderBytes]
  have kidSize := kidOk.1.2
  have tsSize := tsOk.1.2
  omega

theorem unique_of_ok (ideal : IdealHmac hmac computed presented) (gate : config.mode ≠ .off)
    {cache : ReplayCache} {now nowSeen count : Int} {header : Bytes} :
    ((∃ mac, parseProof header = some ⟨kid, ts, nonce, mac⟩) ∧
        (verify hmac config cache ⟨header, count, now, nowSeen⟩).1.reason = .ok) ↔
      count = 1 ∧ Timely config cache now nowSeen kid ts nonce ∧
        ∃ secret, config.secrets.lookup kid = some secret ∧
          header = (minted hmac config secret kid ts nonce).text := by
  rw [verify_ok_iff gate]
  constructor
  · rintro ⟨⟨mac, parsed⟩, proof, passed, new⟩
    obtain ⟨secret, checked, expected⟩ := checkProof_ok_iff.mp passed
    obtain rfl : ⟨kid, ts, nonce, mac⟩ = proof := Option.some.inj (parsed.symm.trans checked.parsed)
    have valid := parseProof_eq_some_iff.mp parsed
    refine ⟨checked.single, ⟨valid.1.kid, valid.1.ts, valid.1.nonce, checked.inWindow, new⟩, secret,
      checked.known, ?_⟩
    have macEq : mac = base64urlEncode (hmac secret (canonical config ⟨kid, ts, nonce, []⟩)) := expected
    rw [valid.2, minted, macEq]
  · rintro ⟨rfl, timely, secret, known, rfl⟩
    obtain ⟨valid, short⟩ := @minted_wellFormed hmac computed presented config secret kid ts nonce
      ideal timely.isKid timely.isTs timely.isNonce
    have parsed := parseProof_eq_some_iff.mpr ⟨valid, rfl⟩
    refine ⟨⟨_, parsed⟩, minted hmac config secret kid ts nonce, ?_, timely.new⟩
    exact checkProof_ok_iff.mpr ⟨secret, ⟨rfl, short, parsed, known, timely.inWindow⟩, rfl⟩

/-- Every verifier in allow or require mode is sound. -/
theorem verifier_sound (ideal : IdealHmac hmac computed presented) (gate : config.mode ≠ .off) :
    SoundVerifier hmac computed presented config where
  authentic cache call shown accepted := by
    obtain ⟨proof, secret, parsed, label, known, -, logged⟩ := authentic_of_ok ideal gate shown accepted
    exact ⟨proof, secret, parsed, label, known, logged⟩
  injective other proof otherProof valid otherValid same := canonical_injective valid otherValid same
  bound other secret kid ts nonce valid cache call proof shown parsed mac accepted :=
    bound_of_ok ideal gate valid shown parsed mac accepted
  unique kid ts nonce cache now nowSeen count header := unique_of_ok ideal gate
  inRange ts tsValue now valid read past future := by
    have value := stoll_validTs valid read
    omega
  frugal now header count := checkProofM_noted []

/-- The one call of the HMAC that `sampleHeader` was minted with. -/
def sampleCall : Bytes × Bytes :=
  (List.replicate 32 0, canonical sampleConfig ⟨ascii "k", ascii "1030", List.replicate 22 0x41, []⟩)

/-- A stand-in for HMAC-SHA256 that is right about that call, and about no other. -/
def idealHmac : Hmac := fun key message =>
  if (key, message) = sampleCall then sampleHmac key message else List.replicate 32 0

theorem idealHmac_ideal : IdealHmac idealHmac [sampleCall] (· = sampleHeader) where
  size key message := by
    rw [idealHmac]
    split
    · rfl
    · exact List.length_replicate
  unforgeable header shown key message listed := by
    rw [shown, idealHmac] at listed
    split at listed
    next same => exact List.mem_singleton.mpr same
    next =>
        have absent : ¬base64urlEncode (List.replicate 32 0) <:+: sampleHeader := by decide +kernel
        exact absurd listed absent
  distinct one oneListed two twoListed _ := by
    rw [List.mem_singleton.mp oneListed, List.mem_singleton.mp twoListed]

/-- The verifier of the samples is sound, and accepts the header. -/
theorem sampleConfig_sound :
    SoundVerifier idealHmac [sampleCall] (· = sampleHeader) sampleConfig ∧
      (verify idealHmac sampleConfig .empty ⟨sampleHeader, 1, 1030, 1030⟩).1.reason = .ok :=
  ⟨verifier_sound idealHmac_ideal (by decide), by decide⟩

end Ideal

end VgiRpc.ProxyProof
