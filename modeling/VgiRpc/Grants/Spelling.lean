import VgiRpc.Grants.Soundness

/-!
# One spelling for each value

The decoder is lenient about padding and about the bits behind the last byte.  Encoding
again what it puts out and comparing leaves one spelling of each value.
-/

namespace VgiRpc.Grants

open VgiRpc.Cpp VgiRpc.Crypto

/-- The strict decoder accepts what the encoder writes, and nothing else. -/
theorem b64urlStrict_ok_iff {text value : Bytes} :
    b64urlStrict text = .ok value ↔ value ≠ [] ∧ text = base64urlEncode value := by
  constructor
  · intro decoded
    have spelled := b64urlStrict_ok decoded
    refine ⟨?_, spelled⟩
    rintro rfl
    rw [spelled] at decoded
    cases decoded
  · rintro ⟨present, rfl⟩
    exact b64urlStrict_encode present

theorem base64urlDecode_isSome_iff (text : Bytes) :
    (base64urlDecode text).isSome = true ↔
      (unpadded text).length % 4 ≠ 1 ∧ ∀ char ∈ unpadded text, char ∈ kB64Url := by
  rw [base64urlDecode_eq]
  split
  next accepted => exact ⟨fun _ => accepted, fun _ => rfl⟩
  next refused => exact ⟨nofun, fun accepted => absurd accepted refused⟩

/-- Decoding undoes encoding, the strict decoder accepts the one text that encodes a value,
and the lenient one every unpadded length and text of the alphabet.  What it puts out are
the bytes of the whole number that the characters write, so its accumulator of 32 bits
loses none of them. -/
theorem base64url_exact :
    (∀ bytes, base64urlDecode (base64urlEncode bytes) = some bytes) ∧
      (∀ text value, b64urlStrict text = .ok value ↔
        value ≠ [] ∧ text = base64urlEncode value) ∧
      (∀ text, (base64urlDecode text).isSome = true ↔
        (unpadded text).length % 4 ≠ 1 ∧ ∀ char ∈ unpadded text, char ∈ kB64Url) ∧
      ∀ text bytes, base64urlDecode text = some bytes →
        bytes = cutBytes (wholeValue 0 (unpadded text)) (6 * (unpadded text).length) := by
  refine ⟨base64urlDecode_encode, fun text value => b64urlStrict_ok_iff,
    base64urlDecode_isSome_iff, ?_⟩
  intro text bytes decoded
  rw [base64urlDecode_eq] at decoded
  split at decoded
  next => exact (Option.some.inj decoded).symm
  next => cases decoded

end VgiRpc.Grants
