import VgiRpc.Grants.Token

/-!
# The payload of a grant

Every field of a payload knows its own length, so reading a payload gives back the
claims it was written from, unless a text is not UTF-8.
-/

namespace VgiRpc.Grants

open VgiRpc.Cpp VgiRpc.Identity VgiRpc.Lib

/-! ## Writing -/

/-- A text with its length. -/
def textBytes (value : Bytes) : Bytes := putU16 value.length ++ value

/-- The record of claims that fit. -/
def payloadBytes (claims : GrantClaims) : Bytes :=
  putI64 claims.issuedAt ++ putI64 claims.expiresAt ++ textBytes claims.grantId ++
    textBytes claims.principal ++ textBytes claims.purpose ++ putU16 claims.scopes.length ++
      (claims.scopes.map textBytes).flatten

/-- Every field and the list of scopes have a length of two bytes. -/
structure GrantClaims.Fits (claims : GrantClaims) : Prop where
  grantId : claims.grantId.length ≤ kMaxField
  principal : claims.principal.length ≤ kMaxField
  purpose : claims.purpose.length ≤ kMaxField
  scopes : ∀ scope ∈ claims.scopes, scope.length ≤ kMaxField
  count : claims.scopes.length ≤ kMaxField

theorem putText_ok {value text : Bytes} (put : putText value = .ok text) :
    value.length ≤ kMaxField ∧ text = textBytes value := by
  rw [putText] at put
  split at put
  next => simp at put
  next fits =>
    constructor
    · exact Nat.le_of_not_gt fits
    · exact (Except.ok.inj put).symm

theorem mapM_putText_ok {values texts : List Bytes} (put : values.mapM putText = .ok texts) :
    (∀ value ∈ values, value.length ≤ kMaxField) ∧ texts = values.map textBytes := by
  induction values generalizing texts with
  | nil =>
      rw [List.mapM_nil] at put
      rw [← Except.ok.inj put]
      simp
  | cons value values ih =>
      rw [List.mapM_cons] at put
      cases first : putText value with
      | error invalid =>
          rw [first] at put
          cases put
      | ok text =>
          cases others : values.mapM putText with
          | error invalid =>
              rw [first, others] at put
              cases put
          | ok rest =>
              rw [first, others] at put
              rw [← Except.ok.inj put]
              constructor
              · intro member mem
                rcases List.mem_cons.mp mem with rfl | mem
                · exact (putText_ok first).1
                · exact (ih others).1 member mem
              · rw [(putText_ok first).2, (ih others).2, List.map_cons]

theorem encodeGrantPayload_ok {claims : GrantClaims} {payload : Bytes}
    (encoded : encodeGrantPayload claims = .ok payload) :
    claims.Fits ∧ payload = payloadBytes claims := by
  rw [encodeGrantPayload] at encoded
  by_cases many : claims.scopes.length > kMaxField
  · rw [if_pos many] at encoded
    cases encoded
  · rw [if_neg many] at encoded
    cases grantId : putText claims.grantId with
    | error invalid =>
        rw [grantId] at encoded
        cases encoded
    | ok one =>
        cases principal : putText claims.principal with
        | error invalid =>
            rw [grantId, principal] at encoded
            cases encoded
        | ok two =>
            cases purpose : putText claims.purpose with
            | error invalid =>
                rw [grantId, principal, purpose] at encoded
                cases encoded
            | ok three =>
                cases scopes : claims.scopes.mapM putText with
                | error invalid =>
                    rw [grantId, principal, purpose, scopes] at encoded
                    cases encoded
                | ok four =>
                    rw [grantId, principal, purpose, scopes] at encoded
                    constructor
                    · exact ⟨(putText_ok grantId).1, (putText_ok principal).1,
                        (putText_ok purpose).1, (mapM_putText_ok scopes).1,
                        Nat.le_of_not_gt many⟩
                    · rw [← Except.ok.inj encoded, payloadBytes, (putText_ok grantId).2,
                        (putText_ok principal).2, (putText_ok purpose).2,
                        (mapM_putText_ok scopes).2]

/-! ## Reading back -/

namespace Reader

theorem take_append {front : Bytes} {count : Nat} (size : front.length = count) (rest : Bytes) :
    take count (front ++ rest) = .ok (front, rest) := by
  rw [take, if_neg (by rw [List.length_append]; omega), ← size, List.take_left, List.drop_left]

theorem u16_append {value : Nat} (bound : value ≤ kMaxField) (rest : Bytes) :
    u16 (putU16 value ++ rest) = .ok (value, rest) := by
  have read := take_append (Memory.toBytesLE_length 2 value) rest
  have small : value % 256 ^ 2 = value := Nat.mod_eq_of_lt (by rw [kMaxField] at bound; omega)
  simp only [u16, putU16, bind, StateT.bind, read, Except.bind]
  change Except.ok (Memory.ofBytesLE (Memory.toBytesLE 2 value), rest) = .ok (value, rest)
  rw [Memory.ofBytesLE_toBytesLE, small]

theorem i64_append (value : Int64) (rest : Bytes) :
    i64 (putI64 value ++ rest) = .ok (value, rest) := by
  have read := take_append (Memory.toBytesLE_length 8 value.toUInt64.toNat) rest
  have small : value.toUInt64.toNat % 256 ^ 8 = value.toUInt64.toNat :=
    Nat.mod_eq_of_lt value.toUInt64.toNat_lt
  simp only [i64, putI64, bind, StateT.bind, read, Except.bind]
  change Except.ok ((UInt64.ofNat (Memory.ofBytesLE
    (Memory.toBytesLE 8 value.toUInt64.toNat))).toInt64, rest) = .ok (value, rest)
  rw [Memory.ofBytesLE_toBytesLE, small, UInt64.ofNat_toNat, Int64.toInt64_toUInt64]

/-- Reading a text that was written. -/
theorem text_append {value : Bytes} (fits : value.length ≤ kMaxField) (rest : Bytes) :
    text (textBytes value ++ rest) =
      if validUtf8 value then .ok (value, rest) else .error .notUtf8 := by
  simp only [text, textBytes, List.append_assoc, bind, StateT.bind, u16_append fits, Except.bind,
    take_append rfl]
  split
  next => rfl
  next => rfl

theorem texts_append {values : List Bytes} (fits : ∀ value ∈ values, value.length ≤ kMaxField)
    (rest : Bytes) :
    texts values.length ((values.map textBytes).flatten ++ rest) =
      if values.all validUtf8 then .ok (values, rest) else .error .notUtf8 := by
  induction values with
  | nil => rfl
  | cons value values ih =>
      have first := text_append (fits value List.mem_cons_self)
        ((values.map textBytes).flatten ++ rest)
      have others := ih fun member mem => fits member (List.mem_cons_of_mem _ mem)
      rw [List.length_cons, texts, List.map_cons, List.flatten_cons, List.append_assoc]
      simp only [bind, StateT.bind, first]
      by_cases valid : validUtf8 value = true
      · rw [if_pos valid]
        simp only [Except.bind, others, List.all_cons, valid, Bool.true_and]
        cases values.all validUtf8 with
        | true => rfl
        | false => rfl
      · rw [if_neg valid]
        simp [Except.bind, valid]

end Reader

/-- Every text of the claims is UTF-8. -/
def GrantClaims.ValidText (claims : GrantClaims) : Prop :=
  validUtf8 claims.grantId = true ∧ validUtf8 claims.principal = true ∧
    validUtf8 claims.purpose = true ∧ claims.scopes.all validUtf8 = true

instance (claims : GrantClaims) : Decidable claims.ValidText :=
  inferInstanceAs (Decidable (_ ∧ _))

/-- Reading a payload gives the claims it was written from, or finds a text that is not
UTF-8. -/
theorem decodeGrantPayload_payloadBytes {claims : GrantClaims} (fits : claims.Fits) :
    decodeGrantPayload (payloadBytes claims) =
      if claims.ValidText then .ok claims else .error .notUtf8 := by
  have scopes := Reader.texts_append fits.scopes []
  rw [List.append_nil] at scopes
  simp only [decodeGrantPayload, payloadBytes, List.append_assoc, bind, StateT.bind,
    Reader.i64_append, Except.bind, Reader.text_append fits.grantId]
  by_cases grantId : validUtf8 claims.grantId = true
  · rw [if_pos grantId]
    simp only [Reader.text_append fits.principal]
    by_cases principal : validUtf8 claims.principal = true
    · rw [if_pos principal]
      simp only [Reader.text_append fits.purpose]
      by_cases purpose : validUtf8 claims.purpose = true
      · rw [if_pos purpose]
        simp only [Reader.u16_append fits.count, scopes]
        by_cases every : claims.scopes.all validUtf8 = true
        · rw [if_pos every, if_pos ⟨grantId, principal, purpose, every⟩]
          rfl
        · rw [if_neg every, if_neg fun valid => every valid.2.2.2]
      · rw [if_neg purpose, if_neg fun valid => purpose valid.2.2.1]
    · rw [if_neg principal, if_neg fun valid => principal valid.2.1]
  · rw [if_neg grantId, if_neg fun valid => grantId valid.1]

end VgiRpc.Grants
