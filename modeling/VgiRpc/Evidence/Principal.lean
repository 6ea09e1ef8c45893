import VgiRpc.Evidence.Binding
import VgiRpc.Lib.DotSegments
import VgiRpc.Lib.PercentEncoding

/-!
# Canonical principals

The provider, the issuer and the subject key of an identity, percent-encoded and joined by
slashes.  A slash inside of one of them is escaped, so they can be told apart again.
-/

namespace VgiRpc.Evidence

open VgiRpc.Cpp VgiRpc.Lib

/-- The bytes that `percent` writes as they are. -/
def isUnreserved (byte : UInt8) : Bool :=
  isAlnum byte || byte == 0x2d || byte == 0x2e || byte == 0x5f || byte == 0x7e

theorem percentText_eq (value : Bytes) : percentText value = escape isUnreserved value := rfl

theorem slash_not_mem_percentText (value : Bytes) : (0x2f : UInt8) ∉ percentText value := by
  rw [percentText_eq]
  exact not_mem_escape (by decide) (by decide) (by decide) value

/-- The provider, the issuer and the subject key that a principal names. -/
def principalParts (principal : Bytes) : Option (Bytes × Bytes × Bytes) :=
  match segments principal with
  | [_, provider, issuer, subjectKey] => do
      let provider ← unescape provider
      let issuer ← unescape issuer
      let subjectKey ← unescape subjectKey
      return (provider, issuer, subjectKey)
  | _ => none

section Principals

variable {identity other : PeerIdentity} {subjectKey otherKey : Bytes}

/-- What a principal is made of can be read off it. -/
theorem principalParts_canonicalPrincipal (keyed : identity.subjectKey = some subjectKey) :
    ∃ principal, identity.canonicalPrincipal = .ok principal ∧
      principalParts principal = some (identity.provider, identity.issuer, subjectKey) := by
  have head : (0x2f : UInt8) ∉ ascii "peer" := by decide
  have split : segments (ascii "peer/" ++ percentText identity.provider ++ ascii "/" ++
      percentText identity.issuer ++ ascii "/" ++ percentText subjectKey) =
        [ascii "peer", percentText identity.provider, percentText identity.issuer,
          percentText subjectKey] := by
    have cut : ascii "peer/" ++ percentText identity.provider ++ ascii "/" ++
        percentText identity.issuer ++ ascii "/" ++ percentText subjectKey =
          ascii "peer" ++ 0x2f :: (percentText identity.provider ++
            0x2f :: (percentText identity.issuer ++ 0x2f :: percentText subjectKey)) := by
      simp [ascii]
    rw [cut, segments_cut head, segments_cut (slash_not_mem_percentText _),
      segments_cut (slash_not_mem_percentText _), segments_single (slash_not_mem_percentText _)]
  refine ⟨_, by rw [PeerIdentity.canonicalPrincipal, keyed], ?_⟩
  rw [principalParts, split]
  simp only [percentText_eq, unescape_escape (rfl : isUnreserved 0x25 = false),
    Option.bind_eq_bind, Option.bind_some, Option.pure_def]

/-- Two identities with a subject key have the same principal exactly if they have the same
provider, issuer and subject key, and these three can be read off it. -/
theorem canonicalPrincipal_faithful (keyed : identity.subjectKey = some subjectKey)
    (otherKeyed : other.subjectKey = some otherKey) :
    (identity.canonicalPrincipal = other.canonicalPrincipal ↔
      identity.provider = other.provider ∧ identity.issuer = other.issuer ∧
        subjectKey = otherKey) ∧
      ∃ principal, identity.canonicalPrincipal = .ok principal ∧
        principalParts principal = some (identity.provider, identity.issuer, subjectKey) := by
  have parts := principalParts_canonicalPrincipal keyed
  refine ⟨⟨?_, ?_⟩, parts⟩
  · intro same
    rcases parts with ⟨principal, made, read⟩
    rcases principalParts_canonicalPrincipal otherKeyed with ⟨otherPrincipal, otherMade, otherRead⟩
    rw [made, otherMade, Except.ok.injEq] at same
    rw [same, otherRead] at read
    simp only [Option.some.injEq, Prod.mk.injEq] at read
    exact ⟨read.1.symm, read.2.1.symm, read.2.2.symm⟩
  · rintro ⟨provider, issuer, rfl⟩
    rw [PeerIdentity.canonicalPrincipal, PeerIdentity.canonicalPrincipal, keyed, otherKeyed, provider,
      issuer]

/-- An identity whose subject key looks like the escape of the other's is another principal. -/
theorem escapes_told_apart :
    ((sampleIdentity (ascii "a/b")).canonicalPrincipal =
        (sampleIdentity (ascii "a%2Fb")).canonicalPrincipal ↔
      (sampleIdentity (ascii "a/b")).provider = (sampleIdentity (ascii "a%2Fb")).provider ∧
        (sampleIdentity (ascii "a/b")).issuer = (sampleIdentity (ascii "a%2Fb")).issuer ∧
          ascii "a/b" = ascii "a%2Fb") ∧
      ∃ principal, (sampleIdentity (ascii "a/b")).canonicalPrincipal = .ok principal ∧
        principalParts principal = some (ascii "mesh",
          (sampleIdentity (ascii "a/b")).issuer, ascii "a/b") :=
  canonicalPrincipal_faithful rfl rfl

end Principals

end VgiRpc.Evidence
