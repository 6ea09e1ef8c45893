import VgiRpc.Protocol.Description
import VgiRpc.Protocol.Unambiguous

/-!
# The preimage tells the protocol

Two protocols have the same canonical description exactly if they are the same, up to the
order of their methods and to the names that Arrow ignores, provided that no spliced name
or zone reads like the punctuation of a token.
-/

namespace VgiRpc.Protocol

open VgiRpc.Cpp VgiRpc.Lib

/-! ## Strings -/

/-- How many bytes an escape takes, told from its first two. -/
def escapeLength (text : Bytes) : Nat :=
  if text.head? = some 0x5c then
    if text.tail.head? = some 0x75 then 6 else 2
  else
    1

/-- The byte that an escape stands for. -/
def unescape : Bytes → UInt8
  | [_, 0x62] => 0x08
  | [_, 0x66] => 0x0c
  | [_, 0x6e] => 0x0a
  | [_, 0x72] => 0x0d
  | [_, 0x74] => 0x09
  | [_, byte] => byte
  | [_, _, _, _, high, low] =>
      (high - 0x30) * 16 + (if low < 0x61 then low - 0x30 else low - 0x61 + 10)
  | text => text.headD 0

theorem unescape_escapeByte (byte : UInt8) : unescape (escapeByte byte) = byte := by
  have every := forall_byte (fun byte => decide (unescape (escapeByte byte) = byte))
    (by decide) byte
  simpa using every

theorem escapeLength_escapeByte (byte : UInt8) (rest : Bytes) :
    escapeLength (escapeByte byte ++ rest) = (escapeByte byte).length := by
  unfold escapeByte
  split_ifs with quote backslash
  all_goals first
    | rfl
    | simp [escapeLength, backslash]

/-- An escape ends where it says. -/
theorem escapeByte_unique {byte other : UInt8} {rest rest' : Bytes}
    (same : escapeByte byte ++ rest = escapeByte other ++ rest') : byte = other ∧ rest = rest' := by
  have lengths := congrArg escapeLength same
  rw [escapeLength_escapeByte, escapeLength_escapeByte] at lengths
  rcases List.append_inj same lengths with ⟨texts, tails⟩
  refine ⟨?_, tails⟩
  rw [← unescape_escapeByte byte, texts, unescape_escapeByte]

/-- No escape begins with the closing quote. -/
theorem escapeByte_ne_quote (byte : UInt8) (rest rest' : Bytes) :
    escapeByte byte ++ rest ≠ 0x22 :: rest' := by
  have every := forall_byte (fun byte => decide ((escapeByte byte).head? ≠ some 0x22 ∧
    escapeByte byte ≠ [])) (by decide) byte
  rw [decide_eq_true_eq] at every
  intro same
  have first := congrArg List.head? same
  rw [List.head?_append_of_ne_nil _ every.2] at first
  exact every.1 first

/-- A JSON string can be read back, and ends where it says. -/
theorem jsonString_unique {value other rest rest' : Bytes}
    (same : jsonString value ++ rest = jsonString other ++ rest') : value = other ∧ rest = rest' := by
  simp only [jsonString, List.cons_append, List.append_assoc, List.nil_append, List.cons.injEq,
    true_and] at same
  induction value generalizing other with
  | nil =>
      cases other with
      | nil => exact ⟨rfl, (List.cons.inj same).2⟩
      | cons byte' other =>
          rw [List.flatMap_cons, List.append_assoc] at same
          exact absurd same.symm (escapeByte_ne_quote byte' _ _)
  | cons byte value ih =>
      cases other with
      | nil =>
          rw [List.flatMap_cons, List.append_assoc] at same
          exact absurd same (escapeByte_ne_quote byte _ _)
      | cons byte' other =>
          rw [List.flatMap_cons, List.flatMap_cons, List.append_assoc, List.append_assoc] at same
          rcases escapeByte_unique same with ⟨rfl, more⟩
          rcases ih more with ⟨rfl, tails⟩
          exact ⟨rfl, tails⟩

theorem jsonBool_unique {value other : Bool} {rest rest' : Bytes}
    (same : jsonBool value ++ rest = jsonBool other ++ rest') : value = other ∧ rest = rest' := by
  cases value with
  | false =>
      cases other with
      | false => exact ⟨rfl, List.append_cancel_left same⟩
      | true => exact absurd (List.cons.inj same).1 (by decide)
  | true =>
      cases other with
      | false => exact absurd (List.cons.inj same).1 (by decide)
      | true => exact ⟨rfl, List.append_cancel_left same⟩

/-! ## Names that Arrow ignores -/

mutual

/-- They do not get into a token. -/
theorem typeToken_normal (type : DataType) : typeToken type.normal = typeToken type := by
  cases type with
  | list size name nullable type => simp only [DataType.normal, typeToken, typeToken_normal type]
  | fixedSizeList listSize name nullable type =>
      simp only [DataType.normal, typeToken, typeToken_normal type]
  | struct fields => simp only [DataType.normal, typeToken, fieldTokens_normal fields true]
  | map keyName keyNullable key itemName itemNullable item keysSorted =>
      simp only [DataType.normal, typeToken, typeToken_normal key, typeToken_normal item]
  | dictionary index value ordered =>
      simp only [DataType.normal, typeToken, typeToken_normal index, typeToken_normal value]
  | union mode members => simp only [DataType.normal, typeToken, memberTokens_normal members true]
  | _ => rfl

theorem fieldTokens_normal (fields : Fields) :
    ∀ first, fieldTokens first fields.normal = fieldTokens first fields := by
  intro first
  cases fields with
  | nil => rfl
  | cons name nullable type rest =>
      simp only [Fields.normal, fieldTokens, typeToken_normal type, fieldTokens_normal rest false]

theorem memberTokens_normal (members : Members) :
    ∀ first, memberTokens first members.normal = memberTokens first members := by
  intro first
  cases members with
  | nil => rfl
  | cons typeCode name nullable type rest =>
      simp only [Members.normal, memberTokens, typeToken_normal type,
        memberTokens_normal rest false]

end

/-- Types have the same token if they are the same to Arrow. -/
theorem typeToken_congr {type other : DataType} (same : type.normal = other.normal) :
    typeToken type = typeToken other := by
  rw [← typeToken_normal type, same, typeToken_normal]

/-- Clean types have the same token only if they are the same to Arrow. -/
theorem typeToken_inj {type other : DataType} (clean : type.clean = true)
    (clean' : other.clean = true) (same : typeToken type = typeToken other) :
    type.normal = other.normal := by
  have appended : typeToken type ++ [] = typeToken other ++ [] := by rw [same]
  exact (typeToken_unique type clean clean' follows_nil follows_nil appended).1

/-! ## Schemas -/

theorem fieldJson_congr {field other : Field} (same : field.normal = other.normal) :
    fieldJson field = fieldJson other := by
  simp only [Field.normal, Field.mk.injEq] at same
  simp only [fieldJson, same.1, same.2.1, typeToken_congr same.2.2]

theorem fieldJson_unique {field other : Field} (clean : field.type.clean = true)
    (clean' : other.type.clean = true) {rest rest' : Bytes}
    (same : fieldJson field ++ rest = fieldJson other ++ rest') :
    field.normal = other.normal ∧ rest = rest' := by
  simp only [fieldJson, List.append_assoc, List.append_cancel_left_eq] at same
  rcases jsonString_unique same with ⟨names, nullables⟩
  rcases jsonBool_unique (List.append_cancel_left nullables) with ⟨marks, types⟩
  rcases jsonString_unique (List.append_cancel_left types) with ⟨tokens, tails⟩
  refine ⟨?_, List.append_cancel_left tails⟩
  simp only [Field.normal, names, marks, typeToken_inj clean clean' tokens]

def cleanSchema (schema : List Field) : Bool := schema.all fun field => field.type.clean

theorem fieldTokensJson_congr {schema other : List Field}
    (same : schema.map Field.normal = other.map Field.normal) :
    fieldTokensJson schema = fieldTokensJson other := by
  rw [fieldTokensJson, fieldTokensJson, joined_congr (fun same => fieldJson_congr same) same]

theorem fieldTokensJson_unique {schema other : List Field} (clean : cleanSchema schema = true)
    (clean' : cleanSchema other = true) {rest rest' : Bytes}
    (same : fieldTokensJson schema ++ rest = fieldTokensJson other ++ rest') :
    schema.map Field.normal = other.map Field.normal ∧ rest = rest' := by
  simp only [fieldTokensJson, List.append_assoc, List.append_cancel_left_eq] at same
  have opens : ∀ (field : Field) (rest rest' : Bytes), fieldJson field ++ rest ≠ 0x5d :: rest' := by
    intro field rest rest' whole
    exact absurd (List.cons.inj whole).1 (by decide)
  apply joined_unique (by decide) opens _ (List.all_eq_true.mp clean) (List.all_eq_true.mp clean')
    true same
  intro field other clean clean' rest rest' same
  exact fieldJson_unique clean clean' same

/-! ## Methods -/

/-- No spliced text of a method reads like the punctuation of a token. -/
def HashMethod.clean (method : HashMethod) : Bool :=
  cleanSchema method.paramsSchema && (!method.hasReturn || cleanSchema method.resultSchema) &&
    (!method.hasHeader || cleanSchema method.headerSchema)

/-- The schema that a flag guards. -/
theorem guarded_congr {flag : Bool} {schema other : List Field}
    (same : (if flag then schema.map Field.normal else []) =
      if flag then other.map Field.normal else []) (key : Bytes) :
    (if flag then key ++ fieldTokensJson schema else []) =
      if flag then key ++ fieldTokensJson other else [] := by
  cases flag with
  | false => rfl
  | true => simp only [if_true, fieldTokensJson_congr same]

theorem guarded_unique {flag : Bool} {schema other : List Field}
    (clean : (!flag || cleanSchema schema) = true) (clean' : (!flag || cleanSchema other) = true)
    {key rest rest' : Bytes}
    (same : (if flag then key ++ fieldTokensJson schema else []) ++ rest =
      (if flag then key ++ fieldTokensJson other else []) ++ rest') :
    ((if flag then schema.map Field.normal else []) =
      if flag then other.map Field.normal else []) ∧ rest = rest' := by
  cases flag with
  | false => exact ⟨rfl, same⟩
  | true =>
      simp only [if_true, List.append_assoc, List.append_cancel_left_eq] at same
      exact fieldTokensJson_unique clean clean' same

theorem methodEntry_congr {method other : HashMethod} (same : method.normal = other.normal) :
    methodEntry method = methodEntry other := by
  simp only [HashMethod.normal, HashMethod.mk.injEq] at same
  rcases same with ⟨names, types, returns, headers, params, results, headerFields⟩
  rw [← returns] at results
  rw [← headers] at headerFields
  rw [methodEntry, methodEntry, ← returns, ← headers, ← names, ← types,
    fieldTokensJson_congr params, guarded_congr results, guarded_congr headerFields]

/-- The entry of a clean method can be read back, and ends where it says. -/
theorem methodEntry_unique {method other : HashMethod} (clean : method.clean = true)
    (clean' : other.clean = true) {rest rest' : Bytes}
    (same : methodEntry method ++ rest = methodEntry other ++ rest') :
    method.normal = other.normal ∧ rest = rest' := by
  simp only [HashMethod.clean, Bool.and_eq_true] at clean clean'
  simp only [methodEntry, List.append_assoc, List.append_cancel_left_eq] at same
  rcases jsonBool_unique same with ⟨headers, same⟩
  rcases jsonBool_unique (List.append_cancel_left same) with ⟨returns, same⟩
  rw [← headers, ← returns] at same clean'
  rcases guarded_unique clean.2 clean'.2 same with ⟨headerFields, same⟩
  rcases jsonString_unique (List.append_cancel_left same) with ⟨names, same⟩
  rcases fieldTokensJson_unique clean.1.1 clean'.1.1 (List.append_cancel_left same) with
    ⟨params, same⟩
  rcases guarded_unique clean.1.2 clean'.1.2 same with ⟨results, same⟩
  rcases jsonString_unique (List.append_cancel_left same) with ⟨types, same⟩
  refine ⟨?_, List.append_cancel_left same⟩
  simp only [HashMethod.normal, HashMethod.mk.injEq]
  rw [← headers, ← returns]
  exact ⟨names, types, rfl, rfl, params, results, headerFields⟩

/-! ## Protocols -/

theorem sortedMethods_perm (methods : List HashMethod) : (sortedMethods methods).Perm methods :=
  List.mergeSort_perm methods _

theorem sortedMethods_pairwise (methods : List HashMethod) :
    (sortedMethods methods).Pairwise fun first second => first.name ≤ second.name := by
  have trans : ∀ first second third : HashMethod, decide (first.name ≤ second.name) = true →
      decide (second.name ≤ third.name) = true → decide (first.name ≤ third.name) = true := by
    intro first second third before after
    exact decide_eq_true (Std.le_trans (of_decide_eq_true before) (of_decide_eq_true after))
  have total : ∀ first second : HashMethod,
      (decide (first.name ≤ second.name) || decide (second.name ≤ first.name)) = true := by
    intro first second
    rw [Bool.or_eq_true, decide_eq_true_eq, decide_eq_true_eq]
    exact Std.le_total
  exact (List.pairwise_mergeSort trans total methods).imp fun before => of_decide_eq_true before

/-- What is compared of the methods, in the order of the description. -/
def sortedNormal (methods : List HashMethod) : List HashMethod :=
  (sortedMethods methods).map HashMethod.normal

theorem sortedNormal_perm (methods : List HashMethod) :
    (sortedNormal methods).Perm (methods.map HashMethod.normal) :=
  (sortedMethods_perm methods).map _

theorem sortedNormal_pairwise (methods : List HashMethod) :
    (sortedNormal methods).Pairwise fun first second => first.name ≤ second.name := by
  rw [sortedNormal, List.pairwise_map]
  exact sortedMethods_pairwise methods

/-- Methods with distinct names are sorted in one way. -/
theorem sortedNormal_congr {methods others : List HashMethod}
    (distinct : (methods.map HashMethod.name).Nodup) (same : SameMethods methods others) :
    sortedNormal methods = sortedNormal others := by
  have perm : (sortedNormal methods).Perm (sortedNormal others) :=
    ((sortedNormal_perm methods).trans same).trans (sortedNormal_perm others).symm
  have names : ((sortedNormal methods).map HashMethod.name).Nodup := by
    rw [((sortedNormal_perm methods).map HashMethod.name).nodup_iff, List.map_map]
    exact distinct
  apply List.Perm.eq_of_pairwise _ (sortedNormal_pairwise methods) (sortedNormal_pairwise others)
    perm
  intro first second listed listed' before after
  exact List.inj_on_of_nodup_map names listed (perm.mem_iff.mpr listed') (Std.le_antisymm before after)

/-- Protocols have the same description if they are the same. -/
theorem canonicalDescription_congr {methods others : List HashMethod}
    (distinct : (methods.map HashMethod.name).Nodup) (same : SameMethods methods others)
    (protocolName : Bytes) :
    canonicalDescription protocolName methods = canonicalDescription protocolName others := by
  rw [canonicalDescription, canonicalDescription,
    joined_congr (fun same => methodEntry_congr same) (sortedNormal_congr distinct same)]

/-- The order of the methods does not matter. -/
theorem canonicalDescription_perm {methods others : List HashMethod}
    (distinct : (methods.map HashMethod.name).Nodup) (perm : methods.Perm others)
    (protocolName : Bytes) :
    canonicalDescription protocolName methods = canonicalDescription protocolName others :=
  canonicalDescription_congr distinct (perm.map _) protocolName

/-- No spliced text of a protocol reads like the punctuation of a token. -/
def HashProtocol.clean (protocol : HashProtocol) : Bool := protocol.methods.all HashMethod.clean

theorem HashProtocol.clean_sorted {protocol : HashProtocol} (clean : protocol.clean = true) :
    ∀ method ∈ sortedMethods protocol.methods, method.clean = true := by
  intro method listed
  exact List.all_eq_true.mp clean method ((sortedMethods_perm protocol.methods).mem_iff.mp listed)

/-- Clean protocols have the same description only if they are the same. -/
theorem description_inj {protocol other : HashProtocol} (clean : protocol.clean = true)
    (clean' : other.clean = true) (same : protocol.description = other.description) :
    protocol.Same other := by
  simp only [HashProtocol.description, canonicalDescription, List.append_assoc,
    List.append_cancel_left_eq] at same
  have opens : ∀ (method : HashMethod) (rest rest' : Bytes),
      methodEntry method ++ rest ≠ 0x5d :: rest' := by
    intro method rest rest' whole
    exact absurd (List.cons.inj whole).1 (by decide)
  have read := joined_unique (by decide) opens methodEntry_unique (HashProtocol.clean_sorted clean)
    (HashProtocol.clean_sorted clean') true same
  rcases read with ⟨methods, same⟩
  rcases jsonString_unique (List.append_cancel_left same) with ⟨names, -⟩
  refine ⟨names, ?_⟩
  have sorted : sortedNormal protocol.methods = sortedNormal other.methods := methods
  have perm := sortedNormal_perm protocol.methods
  rw [sorted] at perm
  exact perm.symm.trans (sortedNormal_perm other.methods)

/-- The preimage of the protocol hash is faithful on clean protocols: it tells them apart
exactly up to the order of their methods. -/
theorem canonicalDescription_faithful (protocol other : HashProtocol) (clean : protocol.clean = true)
    (clean' : other.clean = true) :
    (protocol.description = other.description ↔ protocol.Same other) ∧
      ∀ methods, methods.Perm protocol.methods →
        canonicalDescription protocol.protocolName methods = protocol.description := by
  constructor
  · constructor
    · intro same
      exact description_inj clean clean' same
    · intro same
      rw [HashProtocol.description, same.1]
      exact canonicalDescription_congr protocol.distinct same.2 other.protocolName
  · intro methods perm
    exact (canonicalDescription_perm protocol.distinct perm.symm protocol.protocolName).symm

/-- A protocol with one method, which takes a struct and returns a time. -/
def oneMethod (fields : Fields) (timezone : Bytes) : HashProtocol where
  protocolName := ascii "demo"
  methods := [{
    name := ascii "call"
    methodType := ascii "unary"
    hasReturn := true
    hasHeader := false
    paramsSchema := [⟨ascii "input", false, .struct fields⟩]
    resultSchema := [⟨ascii "at", true, .timestamp .micro timezone⟩]
    headerSchema := [] }]
  distinct := List.nodup_singleton _

/-- Two columns. -/
def twoColumns : Fields :=
  .cons (ascii "a") false (.simple .int32) (.cons (ascii "b") false (.simple .int32) .nil)

/-- One column whose name spells two. -/
def oneColumn : Fields := .cons (ascii "a:int32,b") false (.simple .int32) .nil

theorem zones_told_apart :
    (oneMethod twoColumns (ascii "UTC")).clean = true ∧
      (oneMethod twoColumns (ascii "+00:00")).clean = true ∧
        ((oneMethod twoColumns (ascii "UTC")).description =
            (oneMethod twoColumns (ascii "+00:00")).description ↔
          (oneMethod twoColumns (ascii "UTC")).Same (oneMethod twoColumns (ascii "+00:00"))) :=
  ⟨by decide, by decide,
    (canonicalDescription_faithful _ _ (by decide) (by decide)).1⟩

/-- A name that spells a child and a comma makes two protocols look alike. -/
theorem oneColumn_looks_like_two :
    (oneMethod oneColumn (ascii "UTC")).description =
        (oneMethod twoColumns (ascii "UTC")).description ∧
      ¬(oneMethod oneColumn (ascii "UTC")).Same (oneMethod twoColumns (ascii "UTC")) := by
  constructor
  · decide +kernel
  · intro same
    have methods := List.singleton_perm_singleton.mp same.2
    simp [HashMethod.normal, Field.normal, DataType.normal, Fields.normal, twoColumns, oneColumn]
      at methods

end VgiRpc.Protocol
