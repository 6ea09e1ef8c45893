import VgiRpc.Identity.Xfcc
import VgiRpc.Lib.Utf8

/-!
# Scanning UTF-8

`identity.cpp` and `identity_provider_internal.h` hold a copy each of `valid_utf8`, with
the same text.  The scan reads the string by index; here a read past the end of the string
is a failure of its own, so that the scan is seen never to make one.
-/

namespace VgiRpc.Identity

open VgiRpc.Cpp Lib

/-- A read past the end of the string. -/
structure PastEnd where
  index : Nat
  deriving DecidableEq, Repr

/-- `value[i]`. -/
def byteAt (value : Bytes) (i : Nat) : Except PastEnd UInt8 :=
  match value[i]? with
  | some byte => .ok byte
  | none => .error ⟨i⟩

/-- The class of a lead byte: how many continuation bytes follow it, and the bits it
carries. -/
def leadClass (first : UInt8) : Option (Nat × UInt32) :=
  if first &&& 0xe0 = 0xc0 then some (1, (first &&& 0x1f).toUInt32)
  else if first &&& 0xf0 = 0xe0 then some (2, (first &&& 0x0f).toUInt32)
  else if first &&& 0xf8 = 0xf0 then some (3, (first &&& 0x07).toUInt32)
  else none

/-- The inner loop, from index `i` on: the code point, or nothing at a byte that does not
continue one. -/
def continuationLoop (value : Bytes) : Nat → Nat → UInt32 → Except PastEnd (Option UInt32)
  | 0, _, code => .ok (some code)
  | left + 1, i, code => do
      let byte ← byteAt value i
      if byte &&& 0xc0 ≠ 0x80 then
        return none
      continuationLoop value left (i + 1) ((code <<< 6) ||| (byte &&& 0x3f).toUInt32)

/-- The checks on a decoded code point. -/
def codeRefused (continuation : Nat) (code : UInt32) : Bool :=
  (continuation = 1 && code < 0x80) || (continuation = 2 && code < 0x800) ||
    (continuation = 3 && code < 0x10000) || code > 0x10ffff || (code ≥ 0xd800 && code ≤ 0xdfff)

/-- The outer loop, from index `i` on. -/
def scanUtf8 (value : Bytes) (i : Nat) : Except PastEnd Bool :=
  if i < value.length then
    match byteAt value i with
    | .error fault => .error fault
    | .ok first =>
        if first < 0x80 then scanUtf8 value (i + 1)
        else
          match leadClass first with
          | none => .ok false
          | some (continuation, bits) =>
              if i + 1 + continuation > value.length then .ok false
              else
                match continuationLoop value continuation (i + 1) bits with
                | .error fault => .error fault
                | .ok none => .ok false
                | .ok (some code) =>
                    if codeRefused continuation code then .ok false
                    else scanUtf8 value (i + 1 + continuation)
  else .ok true
termination_by value.length - i

/-- `valid_utf8` of `identity.cpp`. -/
def identityValidUtf8 (value : Bytes) : Except PastEnd Bool := scanUtf8 value 0

/-- `valid_utf8` of `identity_provider_internal.h`. -/
def providerValidUtf8 (value : Bytes) : Except PastEnd Bool := scanUtf8 value 0

/-! ## One character -/

variable {value rest : Bytes} {first byte : UInt8} {i count : Nat} {bits code : UInt32}

theorem isTail_iff : byte &&& 0xc0 = 0x80 ↔ Utf8.IsTail byte := by
  have every := forall_byte (fun byte => decide (byte &&& 0xc0 = 0x80 ↔ Utf8.IsTail byte))
    (by decide) byte
  exact of_decide_eq_true every

/-- The masks find the class of a lead byte and its place in the class. -/
theorem leadClass_spec (first : UInt8) :
    (∀ count bits, leadClass first = some (count, bits) →
      Utf8.IsLead count first ∧ bits.toNat = first.toNat - Utf8.leadBase count) ∧
    (leadClass first = none → ∀ count, ¬Utf8.IsLead count first) := by
  have every := forall_byte (fun first => match leadClass first with
    | some (count, bits) =>
        decide (Utf8.IsLead count first ∧ bits.toNat = first.toNat - Utf8.leadBase count)
    | none => decide (¬Utf8.IsLead 1 first ∧ ¬Utf8.IsLead 2 first ∧ ¬Utf8.IsLead 3 first))
    (by decide) first
  constructor
  · intro count bits found
    simp only [found] at every
    exact of_decide_eq_true every
  · intro missing count lead
    simp only [missing] at every
    have apart := of_decide_eq_true every
    obtain rfl | rfl | rfl : count = 1 ∨ count = 2 ∨ count = 3 := by
      have class_ := lead.1
      omega
    · exact apart.1 lead
    · exact apart.2.1 lead
    · exact apart.2.2 lead

/-- Six more bits. -/
theorem toNat_continue (tail : Utf8.IsTail byte) (room : code.toNat * 64 + 64 ≤ 2 ^ 32) :
    ((code <<< 6) ||| (byte &&& 0x3f).toUInt32).toNat = code.toNat * 64 + (byte.toNat - 0x80) := by
  have low : (byte &&& 0x3f).toNat = byte.toNat % 2 ^ 6 := by
    rw [UInt8.toNat_and]
    exact Nat.and_two_pow_sub_one_eq_mod byte.toNat 6
  rw [UInt32.toNat_or, UInt32.toNat_shiftLeft, UInt8.toNat_toUInt32, low]
  have shift : code.toNat <<< ((6 : UInt32).toNat % 32) % 2 ^ 32 = code.toNat <<< 6 := by
    rw [show (6 : UInt32).toNat % 32 = 6 from rfl, Nat.shiftLeft_eq]
    exact Nat.mod_eq_of_lt (by omega)
  rw [shift, ← Nat.shiftLeft_add_eq_or_of_lt (Nat.mod_lt _ (by decide)), Nat.shiftLeft_eq]
  have range := tail
  rw [Utf8.IsTail] at range
  omega

theorem byteAt_eq_ok (bound : i < value.length) : byteAt value i = .ok value[i] := by
  rw [byteAt, List.getElem?_eq_getElem bound]

/-- Within the string the inner loop reads as many bytes as it is told to, and decodes
them if they all continue the code point. -/
theorem continuationLoop_spec {left : Nat} (room : i + left ≤ value.length)
    (small : (code.toNat + 1) * 64 ^ left ≤ 2 ^ 32) :
    ∃ decoded, continuationLoop value left i code = .ok decoded ∧
      (decoded = none → ¬∀ byte ∈ (value.drop i).take left, Utf8.IsTail byte) ∧
      ∀ code', decoded = some code' → (∀ byte ∈ (value.drop i).take left, Utf8.IsTail byte) ∧
        code'.toNat = Utf8.tailValue code.toNat ((value.drop i).take left) := by
  induction left generalizing i code with
  | zero =>
      refine ⟨some code, rfl, by simp, ?_⟩
      rintro code' ⟨⟩
      simp [Utf8.tailValue]
  | succ left ih =>
      have bound : i < value.length := by omega
      have behind : i + 1 + left ≤ value.length := by omega
      have taken : (value.drop i).take (left + 1) = value[i] :: (value.drop (i + 1)).take left := by
        rw [List.drop_eq_getElem_cons bound, List.take_succ_cons]
      rw [continuationLoop, byteAt_eq_ok bound, taken]
      by_cases tail : Utf8.IsTail value[i]
      · have grown : (code.toNat + 1) * 64 * 64 ^ left ≤ 2 ^ 32 := by
          rwa [Nat.pow_succ', ← Nat.mul_assoc] at small
        have fits : code.toNat * 64 + 64 ≤ 2 ^ 32 :=
          calc code.toNat * 64 + 64 = (code.toNat + 1) * 64 := by ring
            _ ≤ (code.toNat + 1) * 64 * 64 ^ left := Nat.le_mul_of_pos_right _ (by positivity)
            _ ≤ 2 ^ 32 := grown
        have next := toNat_continue tail fits
        have step : code.toNat * 64 + (value[i].toNat - 0x80) + 1 ≤ (code.toNat + 1) * 64 := by
          have range := tail.2
          omega
        have enough := Nat.le_trans (Nat.mul_le_mul_right (64 ^ left) step) grown
        rw [← next] at enough
        obtain ⟨decoded, result, refused, accepted⟩ := ih behind enough
        refine ⟨decoded, ?_, ?_, ?_⟩
        · simpa [bind, Except.bind, isTail_iff.mpr tail] using result
        · intro gone every
          exact refused gone fun byte member => every byte (List.mem_cons_of_mem _ member)
        · intro code' found
          rcases accepted code' found with ⟨tails, decodes⟩
          refine ⟨List.forall_mem_cons.mpr ⟨tail, tails⟩, ?_⟩
          rw [decodes, next, Utf8.tailValue_cons]
      · refine ⟨none, ?_, ?_, by simp⟩
        · have refused : ¬value[i] &&& 0xc0 = 0x80 := fun equal => tail (isTail_iff.mp equal)
          simp [bind, Except.bind, pure, Except.pure, refused]
        · intro _ every
          exact tail (every _ List.mem_cons_self)

theorem codeRefused_eq_false_iff (class_ : 1 ≤ count ∧ count ≤ 3) :
    codeRefused count code = false ↔ Utf8.least count ≤ code.toNat ∧ Utf8.IsScalar code.toNat := by
  simp only [codeRefused, Utf8.IsScalar, Bool.or_eq_false_iff, Bool.and_eq_false_iff,
    decide_eq_false_iff_not, UInt32.lt_iff_toNat_lt, UInt32.le_iff_toNat_le, ge_iff_le, gt_iff_lt]
  obtain rfl | rfl | rfl : count = 1 ∨ count = 2 ∨ count = 3 := by omega
  all_goals
    simp [Utf8.least]
    omega

/-! ## The scan -/

/-- What the inner loop finds behind a lead byte. -/
theorem continuationLoop_lead (value : Bytes) (class_ : leadClass first = some (count, bits))
    (room : i + count ≤ value.length) :
    ∃ decoded, continuationLoop value count i bits = .ok decoded ∧
      (decoded = none → ¬∀ byte ∈ (value.drop i).take count, Utf8.IsTail byte) ∧
      ∀ code, decoded = some code → (∀ byte ∈ (value.drop i).take count, Utf8.IsTail byte) ∧
        code.toNat = Utf8.tailValue (first.toNat - Utf8.leadBase count) ((value.drop i).take count) := by
  rcases (leadClass_spec first).1 count bits class_ with ⟨lead, carried⟩
  rw [← carried]
  refine continuationLoop_spec room ?_
  have below := lead.2.2
  rcases lead with ⟨known, from_, -⟩
  obtain rfl | rfl | rfl : count = 1 ∨ count = 2 ∨ count = 3 := by omega
  all_goals
    simp only [Utf8.leadBase, Utf8.leadSpan] at carried below
    omega

/-- From any index on, the scan ends without a read past the end and decides whether the
rest of the string is UTF-8. -/
theorem scanUtf8_spec (value : Bytes) (i : Nat) :
    ∃ valid, scanUtf8 value i = .ok valid ∧ (valid = true ↔ Utf8.IsUtf8 (value.drop i)) := by
  induction i using scanUtf8.induct value with
  | case1 i bound fault failed =>
      rw [byteAt_eq_ok bound] at failed
      cases failed
  | case2 i bound first read small ih =>
      rw [byteAt_eq_ok bound] at read
      obtain rfl := Except.ok.inj read
      obtain ⟨valid, result, decides⟩ := ih
      refine ⟨valid, ?_, ?_⟩
      · rw [scanUtf8, if_pos bound, byteAt_eq_ok bound]
        simp only [if_pos small]
        exact result
      · rw [decides, List.drop_eq_getElem_cons bound,
          Utf8.isUtf8_single_iff (UInt8.lt_iff_toNat_lt.mp small)]
  | case3 i bound first read large unknown =>
      rw [byteAt_eq_ok bound] at read
      obtain rfl := Except.ok.inj read
      refine ⟨false, ?_, ?_⟩
      · rw [scanUtf8, if_pos bound, byteAt_eq_ok bound]
        simp only [if_neg large, unknown]
      · rw [List.drop_eq_getElem_cons bound]
        simp only [Bool.false_eq_true, false_iff]
        exact Utf8.not_isUtf8_of_no_lead (fun small => large (UInt8.lt_iff_toNat_lt.mpr small))
          ((leadClass_spec _).2 unknown)
  | case4 i bound first read large count bits class_ short =>
      rw [byteAt_eq_ok bound] at read
      obtain rfl := Except.ok.inj read
      refine ⟨false, ?_, ?_⟩
      · rw [scanUtf8, if_pos bound, byteAt_eq_ok bound]
        simp only [if_neg large, class_, if_pos short]
      · rw [List.drop_eq_getElem_cons bound,
          Utf8.isUtf8_lead_iff ((leadClass_spec _).1 count bits class_).1, List.length_drop]
        simp only [Bool.false_eq_true, false_iff, not_and]
        intro room
        omega
  | case5 i bound first read large count bits class_ room fault failed =>
      obtain ⟨decoded, result, -⟩ := continuationLoop_lead value class_ (Nat.le_of_not_lt room)
      rw [result] at failed
      cases failed
  | case6 i bound first read large count bits class_ room ended =>
      rw [byteAt_eq_ok bound] at read
      obtain rfl := Except.ok.inj read
      obtain ⟨decoded, result, refused, -⟩ := continuationLoop_lead value class_
        (Nat.le_of_not_lt room)
      rw [ended] at result
      refine ⟨false, ?_, ?_⟩
      · rw [scanUtf8, if_pos bound, byteAt_eq_ok bound]
        simp only [if_neg large, class_, if_neg room, ended]
      · rw [List.drop_eq_getElem_cons bound,
          Utf8.isUtf8_lead_iff ((leadClass_spec _).1 count bits class_).1]
        simp only [Bool.false_eq_true, false_iff]
        rintro ⟨-, tails, -⟩
        exact refused (Except.ok.inj result).symm tails
  | case7 i bound first read large count bits class_ room code ended off =>
      rw [byteAt_eq_ok bound] at read
      obtain rfl := Except.ok.inj read
      obtain ⟨decoded, result, -, accepted⟩ := continuationLoop_lead value class_
        (Nat.le_of_not_lt room)
      rw [ended] at result
      have lead := ((leadClass_spec _).1 count bits class_).1
      refine ⟨false, ?_, ?_⟩
      · rw [scanUtf8, if_pos bound, byteAt_eq_ok bound]
        simp only [if_neg large, class_, if_neg room, ended, if_pos off]
      · rw [List.drop_eq_getElem_cons bound, Utf8.isUtf8_lead_iff lead,
          ← (accepted code (Except.ok.inj result).symm).2, ← codeRefused_eq_false_iff lead.1, off]
        simp
  | case8 i bound first read large count bits class_ room code ended kept ih =>
      rw [byteAt_eq_ok bound] at read
      obtain rfl := Except.ok.inj read
      obtain ⟨decoded, result, -, accepted⟩ := continuationLoop_lead value class_
        (Nat.le_of_not_lt room)
      rw [ended] at result
      obtain ⟨tails, decodes⟩ := accepted code (Except.ok.inj result).symm
      have lead := ((leadClass_spec _).1 count bits class_).1
      obtain ⟨valid, scanned, decides⟩ := ih
      refine ⟨valid, ?_, ?_⟩
      · rw [scanUtf8, if_pos bound, byteAt_eq_ok bound]
        simp only [if_neg large, class_, if_neg room, ended, if_neg kept]
        exact scanned
      · have enough : count ≤ (value.drop (i + 1)).length := by
          rw [List.length_drop]
          omega
        rw [decides, List.drop_eq_getElem_cons bound, Utf8.isUtf8_lead_iff lead, ← decodes,
          ← codeRefused_eq_false_iff lead.1, List.drop_drop]
        simp only [enough, Bool.eq_false_iff.mpr kept, true_and]
        exact ⟨fun behind => ⟨tails, behind⟩, And.right⟩
  | case9 i past =>
      refine ⟨true, ?_, ?_⟩
      · rw [scanUtf8, if_neg past]
      · rw [List.drop_eq_nil_of_le (Nat.le_of_not_lt past)]
        simp only [true_iff]
        exact ⟨[], rfl⟩

/-! ## The scan by cases -/

theorem continuationBits_eq_some_iff {value : Nat} :
    continuationBits byte = some value ↔ Utf8.IsTail byte ∧ value = byte.toNat - 0x80 := by
  have every := forall_byte (fun byte => decide (continuationBits byte =
    if Utf8.IsTail byte then some (byte.toNat - 0x80) else none)) (by decide) byte
  rw [of_decide_eq_true every]
  split_ifs with tail <;> simp [tail, eq_comm]

theorem continued_eq_some_iff {lead value : Nat} {bytes : Bytes} :
    continued lead bytes = some value ↔
      (∀ byte ∈ bytes, Utf8.IsTail byte) ∧ value = Utf8.tailValue lead bytes := by
  induction bytes generalizing lead with
  | nil => simp [continued, Utf8.tailValue, eq_comm]
  | cons byte bytes ih =>
      rw [List.forall_mem_cons, Utf8.tailValue_cons, and_assoc]
      simp only [continued, List.foldlM_cons]
      constructor
      · intro result
        obtain ⟨code, head, rest⟩ := Option.bind_eq_some_iff.mp result
        obtain ⟨bits, found, rfl⟩ := Option.map_eq_some_iff.mp head
        obtain ⟨tail, low⟩ := continuationBits_eq_some_iff.mp found
        rw [low] at rest
        exact ⟨tail, ih.mp rest⟩
      · rintro ⟨tail, rest⟩
        have found := continuationBits_eq_some_iff.mpr ⟨tail, rfl⟩
        simp only [found, Option.map_some]
        exact ih.mpr rest

/-- A lead byte with its continuation bytes, in front of text that the cases decide. -/
theorem codeAllowed_iff {others : Bytes} {bits : Nat} {valid : Bool} (tail : Bytes)
    (lead : Utf8.IsLead count first) (carried : bits = first.toNat - Utf8.leadBase count)
    (size : tail.length = count) (decides : valid = true ↔ Utf8.IsUtf8 others) :
    (codeAllowed (Utf8.least count) (continued bits tail) && valid) = true ↔
      Utf8.IsUtf8 (first :: (tail ++ others)) := by
  have allowed : codeAllowed (Utf8.least count) (continued bits tail) = true ↔
      (∀ byte ∈ tail, Utf8.IsTail byte) ∧ Utf8.least count ≤ Utf8.tailValue bits tail ∧
        Utf8.IsScalar (Utf8.tailValue bits tail) := by
    cases result : continued bits tail with
    | none =>
        have refused : ¬∀ byte ∈ tail, Utf8.IsTail byte := fun tails => by
          rw [continued_eq_some_iff.mpr ⟨tails, rfl⟩] at result
          cases result
        simp [codeAllowed, refused]
    | some code =>
        obtain ⟨tails, rfl⟩ := continued_eq_some_iff.mp result
        simp only [codeAllowed, Utf8.IsScalar, Bool.and_eq_true, decide_eq_true_eq,
          Bool.not_eq_eq_eq_not, Bool.not_true, Bool.and_eq_false_iff, decide_eq_false_iff_not]
        exact ⟨fun ⟨⟨low, high⟩, apart⟩ => ⟨tails, low, high, by omega⟩,
          fun ⟨_, low, high, apart⟩ => ⟨⟨low, high⟩, by omega⟩⟩
  have room : count ≤ (tail ++ others).length := by
    rw [List.length_append]
    omega
  rw [Utf8.isUtf8_lead_iff lead, ← size, List.take_left, List.drop_left, size, ← carried,
    Bool.and_eq_true, allowed, decides]
  simp only [room, true_and, and_assoc]

/-- Nor is there room for the continuation bytes in a shorter text. -/
theorem not_isUtf8_of_short (lead : Utf8.IsLead count first) (short : rest.length < count) :
    ¬Utf8.IsUtf8 (first :: rest) := by
  rw [Utf8.isUtf8_lead_iff lead]
  rintro ⟨room, -⟩
  omega

/-- The scan by cases on the list decides the same. -/
theorem validUtf8_iff (value : Bytes) : validUtf8 value = true ↔ Utf8.IsUtf8 value := by
  induction value using validUtf8.induct with
  | case1 => exact ⟨fun _ => ⟨[], rfl⟩, fun _ => by rw [validUtf8]⟩
  | case2 first rest small ih =>
      rw [validUtf8.eq_def, Utf8.isUtf8_single_iff (UInt8.lt_iff_toNat_lt.mp small)]
      simp only [if_pos small]
      exact ih
  | case3 first large one second rest ih =>
      obtain ⟨lead, carried⟩ := (leadClass_spec first).1 1 _ (by rw [leadClass, if_pos one])
      rw [UInt8.toNat_toUInt32] at carried
      rw [validUtf8.eq_def]
      simp only [if_neg large, if_pos one]
      exact codeAllowed_iff [second] lead carried rfl ih
  | case4 first rest large one short =>
      obtain ⟨lead, -⟩ := (leadClass_spec first).1 1 _ (by rw [leadClass, if_pos one])
      rcases rest with _ | ⟨second, rest⟩
      case cons => exact (short second rest rfl).elim
      rw [validUtf8.eq_def]
      simp only [if_neg large, if_pos one, Bool.false_eq_true, false_iff]
      exact not_isUtf8_of_short lead (by simp)
  | case5 first large one two second third rest ih =>
      obtain ⟨lead, carried⟩ := (leadClass_spec first).1 2 _
        (by rw [leadClass, if_neg one, if_pos two])
      rw [UInt8.toNat_toUInt32] at carried
      rw [validUtf8.eq_def]
      simp only [if_neg large, if_neg one, if_pos two]
      exact codeAllowed_iff [second, third] lead carried rfl ih
  | case6 first rest large one two short =>
      obtain ⟨lead, -⟩ := (leadClass_spec first).1 2 _
        (by rw [leadClass, if_neg one, if_pos two])
      rcases rest with _ | ⟨second, _ | ⟨third, rest⟩⟩
      case cons.cons => exact (short second third rest rfl).elim
      all_goals
        rw [validUtf8.eq_def]
        simp only [if_neg large, if_neg one, if_pos two, Bool.false_eq_true, false_iff]
        exact not_isUtf8_of_short lead (by simp)
  | case7 first large one two three second third fourth rest ih =>
      obtain ⟨lead, carried⟩ := (leadClass_spec first).1 3 _
        (by rw [leadClass, if_neg one, if_neg two, if_pos three])
      rw [UInt8.toNat_toUInt32] at carried
      rw [validUtf8.eq_def]
      simp only [if_neg large, if_neg one, if_neg two, if_pos three]
      exact codeAllowed_iff [second, third, fourth] lead carried rfl ih
  | case8 first rest large one two three short =>
      obtain ⟨lead, -⟩ := (leadClass_spec first).1 3 _
        (by rw [leadClass, if_neg one, if_neg two, if_pos three])
      rcases rest with _ | ⟨second, _ | ⟨third, _ | ⟨fourth, rest⟩⟩⟩
      case cons.cons.cons => exact (short second third fourth rest rfl).elim
      all_goals
        rw [validUtf8.eq_def]
        simp only [if_neg large, if_neg one, if_neg two, if_pos three, Bool.false_eq_true,
          false_iff]
        exact not_isUtf8_of_short lead (by simp)
  | case9 first rest large one two three =>
      have unknown : leadClass first = none := by
        rw [leadClass, if_neg one, if_neg two, if_neg three]
      rw [validUtf8.eq_def]
      simp only [if_neg large, if_neg one, if_neg two, if_neg three, Bool.false_eq_true, false_iff]
      exact Utf8.not_isUtf8_of_no_lead (fun small => large (UInt8.lt_iff_toNat_lt.mpr small))
        ((leadClass_spec first).2 unknown)

/-- The scan by index is the scan by cases. -/
theorem scanUtf8_eq (value : Bytes) : scanUtf8 value 0 = .ok (validUtf8 value) := by
  obtain ⟨valid, scanned, decides⟩ := scanUtf8_spec value 0
  rw [List.drop_zero, ← validUtf8_iff] at decides
  rw [scanned, Bool.eq_iff_iff.mpr decides]

/-- Both copies of `valid_utf8` decide whether a string is the encoding of a list of scalar
values, and never read past its end. -/
theorem validUtf8_decides (value : Bytes) :
    ∃ valid, identityValidUtf8 value = .ok valid ∧ providerValidUtf8 value = .ok valid ∧
      (valid = true ↔ ∃ text : List Char, value = text.flatMap String.utf8EncodeChar) := by
  have scanned := scanUtf8_eq value
  exact ⟨validUtf8 value, scanned, scanned, validUtf8_iff value⟩

end VgiRpc.Identity
