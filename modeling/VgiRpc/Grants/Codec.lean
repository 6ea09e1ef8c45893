import VgiRpc.Grants.Payload
import VgiRpc.Lib.Cursor

/-!
# One payload, one spelling

The bytes that decode to some claims are the bytes that these claims are encoded to, and reading
them never leaves the payload.
-/

namespace VgiRpc.Grants

open VgiRpc.Cpp VgiRpc.Identity VgiRpc.Lib

/-! ## What was read -/

theorem reader_bind_ok {α β : Type} {first : Reader α} {next : α → Reader β} {left rest : Bytes}
    {value : β} (read : (first >>= next) left = .ok (value, rest)) :
    ∃ middle between, first left = .ok (middle, between) ∧ next middle between = .ok (value, rest) := by
  cases shape : first left with
  | error error =>
      simp only [bind, StateT.bind, shape, Except.bind] at read
      cases read
  | ok pair => exact ⟨pair.1, pair.2, rfl, by simpa [bind, StateT.bind, shape, Except.bind] using read⟩

namespace Reader

theorem take_ok {count : Nat} {left chunk rest : Bytes} (read : take count left = .ok (chunk, rest)) :
    left = chunk ++ rest ∧ chunk.length = count := by
  rw [take] at read
  split at read
  next => cases read
  next enough =>
      cases read
      exact ⟨(List.take_append_drop _ _).symm, List.length_take_of_le (Nat.le_of_not_lt enough)⟩

theorem u16_ok {left rest : Bytes} {value : Nat} (read : u16 left = .ok (value, rest)) :
    left = putU16 value ++ rest ∧ value ≤ kMaxField := by
  rcases reader_bind_ok read with ⟨chunk, between, taken, returned⟩
  cases returned
  rcases take_ok taken with ⟨whole, two⟩
  have bound := Memory.ofBytesLE_lt chunk
  have spelled := Memory.toBytesLE_ofBytesLE chunk
  rw [two] at bound spelled
  rw [putU16, spelled]
  exact ⟨whole, Nat.le_of_lt_succ bound⟩

theorem i64_ok {left rest : Bytes} {value : Int64} (read : i64 left = .ok (value, rest)) :
    left = putI64 value ++ rest := by
  rcases reader_bind_ok read with ⟨chunk, between, taken, returned⟩
  cases returned
  rcases take_ok taken with ⟨whole, eight⟩
  have bound := Memory.ofBytesLE_lt chunk
  have spelled := Memory.toBytesLE_ofBytesLE chunk
  rw [eight] at bound spelled
  have small : Memory.ofBytesLE chunk < 2 ^ 64 := lt_of_lt_of_eq bound (by norm_num)
  rw [putI64, UInt64.toUInt64_toInt64, UInt64.toNat_ofNat', Nat.mod_eq_of_lt small, spelled]
  exact whole

theorem text_ok {left rest value : Bytes} (read : text left = .ok (value, rest)) :
    left = textBytes value ++ rest ∧ value.length ≤ kMaxField ∧ validUtf8 value = true := by
  rcases reader_bind_ok read with ⟨length, between, sized, read⟩
  rcases reader_bind_ok read with ⟨chunk, behind, taken, returned⟩
  rcases u16_ok sized with ⟨whole, small⟩
  rcases take_ok taken with ⟨inner, exact⟩
  split at returned
  next valid =>
      cases returned
      rw [textBytes, exact, whole, inner, List.append_assoc]
      exact ⟨rfl, exact ▸ small, valid⟩
  next => cases returned

/-- By induction over the list of texts. -/
theorem texts_ok {count : Nat} {left rest : Bytes} {values : List Bytes}
    (read : texts count left = .ok (values, rest)) :
    left = (values.map textBytes).flatten ++ rest ∧ values.length = count ∧
      ∀ value ∈ values, value.length ≤ kMaxField ∧ validUtf8 value = true := by
  induction count generalizing left values with
  | zero =>
      cases read
      exact ⟨rfl, rfl, fun _ listed => absurd listed List.not_mem_nil⟩
  | succ count ih =>
      rw [texts] at read
      rcases reader_bind_ok read with ⟨first, between, firstRead, read⟩
      rcases reader_bind_ok read with ⟨others, behind, othersRead, returned⟩
      cases returned
      rcases text_ok firstRead with ⟨whole, fits, valid⟩
      rcases ih othersRead with ⟨inner, size, every⟩
      refine ⟨?_, by rw [List.length_cons, size], List.forall_mem_cons.mpr ⟨⟨fits, valid⟩, every⟩⟩
      rw [whole, inner, List.map_cons, List.flatten_cons, List.append_assoc]

end Reader

/-- What decodes is the record of what it decodes to. -/
theorem decodeGrantPayload_ok {payload : Bytes} {claims : GrantClaims}
    (decodes : decodeGrantPayload payload = .ok claims) :
    payload = payloadBytes claims ∧ claims.Fits ∧ claims.ValidText := by
  rw [decodeGrantPayload] at decodes
  split at decodes
  next => cases decodes
  next decoded left read =>
      split at decodes
      next empty =>
          cases decodes
          subst empty
          rcases reader_bind_ok read with ⟨issuedAt, _, issuedRead, read⟩
          rcases reader_bind_ok read with ⟨expiresAt, _, expiresRead, read⟩
          rcases reader_bind_ok read with ⟨grantId, _, grantRead, read⟩
          rcases reader_bind_ok read with ⟨principal, _, principalRead, read⟩
          rcases reader_bind_ok read with ⟨purpose, _, purposeRead, read⟩
          rcases reader_bind_ok read with ⟨count, _, countRead, read⟩
          rcases reader_bind_ok read with ⟨scopes, _, scopesRead, returned⟩
          cases returned
          rcases Reader.text_ok grantRead with ⟨grantWhole, grantFits, grantValid⟩
          rcases Reader.text_ok principalRead with ⟨principalWhole, principalFits, principalValid⟩
          rcases Reader.text_ok purposeRead with ⟨purposeWhole, purposeFits, purposeValid⟩
          rcases Reader.u16_ok countRead with ⟨countWhole, countFits⟩
          rcases Reader.texts_ok scopesRead with ⟨scopesWhole, scopesCount, every⟩
          refine ⟨?_, ⟨grantFits, principalFits, purposeFits, fun scope listed =>
            (every scope listed).1, scopesCount ▸ countFits⟩, grantValid, principalValid,
            purposeValid, List.all_eq_true.mpr fun scope listed => (every scope listed).2⟩
          rw [payloadBytes, Reader.i64_ok issuedRead, Reader.i64_ok expiresRead, grantWhole,
            principalWhole, purposeWhole, countWhole, scopesWhole, scopesCount, List.append_nil]
          simp only [List.append_assoc]
      next => cases decodes

/-! ## Writing what fits -/

theorem mapM_putText {values : List Bytes} (fits : ∀ value ∈ values, value.length ≤ kMaxField) :
    values.mapM putText = .ok (values.map textBytes) := by
  induction values with
  | nil => rfl
  | cons value values ih =>
      rw [List.forall_mem_cons] at fits
      rw [List.mapM_cons, putText, if_neg (Nat.not_lt.mpr fits.1), ih fits.2]
      rfl

theorem encodeGrantPayload_fits {claims : GrantClaims} (fits : claims.Fits) :
    encodeGrantPayload claims = .ok (payloadBytes claims) := by
  rw [encodeGrantPayload, if_neg (Nat.not_lt.mpr fits.count), putText, putText, putText,
    if_neg (Nat.not_lt.mpr fits.grantId), if_neg (Nat.not_lt.mpr fits.principal),
    if_neg (Nat.not_lt.mpr fits.purpose), mapM_putText fits.scopes]
  rfl

/-! ## Reading by position -/

/-- `PayloadReader`, with the position that it moves. -/
abbrev PayloadReader (α : Type) := Scan UInt8 GrantInvalid α

namespace PayloadReader

def u16 : PayloadReader Nat := do return Memory.ofBytesLE (← Scan.take 2 .truncated)

def i64 : PayloadReader Int64 := do
  return (UInt64.ofNat (Memory.ofBytesLE (← Scan.take 8 .truncated))).toInt64

def text : PayloadReader Bytes := do
  let length ← u16
  let value ← Scan.take length .truncated
  if validUtf8 value then return value else Scan.fail .notUtf8

def texts : Nat → PayloadReader (List Bytes)
  | 0 => return []
  | count + 1 => do
      let first ← text
      let others ← texts count
      return first :: others

/-- The fields in their order. -/
def claims : PayloadReader GrantClaims := do
  let issuedAt ← i64
  let expiresAt ← i64
  let grantId ← text
  let principal ← text
  let purpose ← text
  let count ← u16
  let scopes ← texts count
  return ⟨principal, scopes, purpose, grantId, issuedAt, expiresAt⟩

theorem take_simulates (count : Nat) :
    Simulates (Scan.take count GrantInvalid.truncated : PayloadReader Bytes) (Reader.take count) :=
  Simulates.take count GrantInvalid.truncated

theorem u16_simulates : Simulates u16 Reader.u16 :=
  (take_simulates 2).bind fun _ => .pure _

theorem i64_simulates : Simulates i64 Reader.i64 :=
  (take_simulates 8).bind fun _ => .pure _

theorem text_simulates : Simulates text Reader.text := by
  refine u16_simulates.bind fun length => (take_simulates length).bind fun value => ?_
  split
  next => exact .pure _
  next => exact .fail _

theorem texts_simulates (count : Nat) : Simulates (texts count) (Reader.texts count) := by
  induction count with
  | zero => exact .pure _
  | succ count ih => exact text_simulates.bind fun _ => ih.bind fun _ => .pure _

end PayloadReader

/-- `decode_grant_payload` on positions. -/
def decodeGrantPayloadAt (payload : Bytes) : Except (Fault GrantInvalid) GrantClaims :=
  match PayloadReader.claims payload 0 with
  | .error fault => .error fault
  | .ok (claims, position) =>
      if position = payload.length then .ok claims else .error (.invalid .trailingBytes)

/-- Being at the end is having nothing left. -/
theorem follows_atEnd {payload : Bytes} {scanned : Except (Fault GrantInvalid) (GrantClaims × Nat)}
    {read : Except GrantInvalid (GrantClaims × Bytes)} : Follows payload scanned read →
    (match scanned with
      | .error fault => .error fault
      | .ok (claims, position) =>
          if position = payload.length then .ok claims
          else .error (Fault.invalid .trailingBytes)) =
      Except.mapError Fault.invalid (match read with
        | .error invalid => .error invalid
        | .ok (claims, left) =>
            if left = [] then .ok claims else .error GrantInvalid.trailingBytes) := by
  intro follows
  cases read with
  | error invalid =>
      rw [show scanned = _ from follows]
      rfl
  | ok pair =>
      rcases follows with ⟨position, inside, left, rfl⟩
      dsimp only
      by_cases done : position = payload.length
      · rw [if_pos done, left, if_pos (List.drop_eq_nil_iff.mpr done.ge)]
        rfl
      · rw [if_neg done, left, if_neg fun empty => done
          (Nat.le_antisymm inside (List.drop_eq_nil_iff.mp empty))]
        rfl

/-- On positions the payload is decoded as off its front. -/
theorem decodeGrantPayloadAt_eq (payload : Bytes) :
    decodeGrantPayloadAt payload = (decodeGrantPayload payload).mapError .invalid := by
  have follows := (PayloadReader.i64_simulates.bind fun issuedAt =>
    PayloadReader.i64_simulates.bind fun expiresAt =>
    PayloadReader.text_simulates.bind fun grantId =>
    PayloadReader.text_simulates.bind fun principal =>
    PayloadReader.text_simulates.bind fun purpose => PayloadReader.u16_simulates.bind fun count =>
    (PayloadReader.texts_simulates count).bind fun scopes =>
    .pure (⟨principal, scopes, purpose, grantId, issuedAt, expiresAt⟩ : GrantClaims))
      payload 0 (Nat.zero_le _)
  exact follows_atEnd follows

/-- Claims that fit have one payload, and nothing else decodes; no byte string is read outside
itself. -/
theorem payload_bijection :
    (∀ claims : GrantClaims, claims.Fits → claims.ValidText → ∃ payload,
      encodeGrantPayload claims = .ok payload ∧ decodeGrantPayload payload = .ok claims) ∧
    (∀ payload claims, decodeGrantPayload payload = .ok claims →
      encodeGrantPayload claims = .ok payload) ∧
    (∀ payload, (¬∃ claims : GrantClaims, claims.Fits ∧ claims.ValidText ∧
      encodeGrantPayload claims = .ok payload) →
        ∃ invalid : GrantInvalid, decodeGrantPayload payload = .error invalid) ∧
    (∀ payload, decodeGrantPayloadAt payload = (decodeGrantPayload payload).mapError .invalid ∧
      decodeGrantPayloadAt payload ≠ .error .outside) := by
  refine ⟨?_, ?_, ?_, ?_⟩
  · intro claims fits valid
    refine ⟨payloadBytes claims, encodeGrantPayload_fits fits, ?_⟩
    rw [decodeGrantPayload_payloadBytes fits, if_pos valid]
  · intro payload claims decodes
    rcases decodeGrantPayload_ok decodes with ⟨rfl, fits, -⟩
    exact encodeGrantPayload_fits fits
  · intro payload other
    cases decodes : decodeGrantPayload payload with
    | error invalid => exact ⟨invalid, rfl⟩
    | ok claims =>
        rcases decodeGrantPayload_ok decodes with ⟨whole, fits, valid⟩
        exact absurd ⟨claims, fits, valid, whole ▸ encodeGrantPayload_fits fits⟩ other
  · intro payload
    refine ⟨decodeGrantPayloadAt_eq payload, ?_⟩
    rw [decodeGrantPayloadAt_eq]
    cases decodeGrantPayload payload with
    | error invalid => exact nofun
    | ok claims => exact nofun

/-- Claims with an extreme time and a text with a NUL. -/
def extremeClaims : GrantClaims := ⟨[0], [[]], [], ascii "g", Int64.minValue, -1⟩

theorem extremeClaims_payload : ∃ payload,
    encodeGrantPayload extremeClaims = .ok payload ∧
      decodeGrantPayload payload = .ok extremeClaims :=
  payload_bijection.1 extremeClaims
    ⟨by decide, by decide, by decide, by decide, by decide⟩ ⟨rfl, rfl, rfl, rfl⟩

end VgiRpc.Grants
