import VgiRpc.Protocol.ClientDescription
import VgiRpc.Protocol.Faithful

/-!
# A description is a copy

What a client decodes of a service description is what the server registered, and the
protocol hash of it is the one that the server computed.
-/

namespace VgiRpc.Protocol

open VgiRpc.Cpp

@[simp] theorem decoded_bind {α β : Type} (value : α) (next : α → Decoded β) :
    ((.ok value : Decoded α) >>= next) = next value := rfl

/-! ## Cells -/

section Cells

variable {items : List MethodInfo} {row : Nat} {item : MethodInfo}
  {columns : List (Bytes × Column)} {name : Bytes}

theorem takeString_column (listed : items[row]? = some item) {cell : MethodInfo → Bytes}
    (found : columnByName columns name = some (utf8Column (items.map cell))) :
    takeString columns row name = .ok (cell item) := by
  simp only [takeString, found, utf8Column, List.map_map, List.getElem?_map, listed,
    Option.map_some, Function.comp_apply, Option.join_some, Option.getD_some]

theorem takeBool_column (listed : items[row]? = some item) {cell : MethodInfo → Bool}
    (found : columnByName columns name = some (booleanColumn (items.map cell))) :
    takeBool columns row name = .ok (cell item) := by
  simp only [takeBool, found, booleanColumn, List.map_map, List.getElem?_map, listed,
    Option.map_some, Function.comp_apply, Option.join_some, Option.getD_some]

theorem takeBinary_column (listed : items[row]? = some item) {cell : MethodInfo → Bytes}
    (found : columnByName columns name = some (binaryColumn (items.map cell))) :
    takeBinary columns row name = .ok (cell item) := by
  simp only [takeBinary, found, binaryColumn, List.map_map, List.getElem?_map, listed,
    Option.map_some, Function.comp_apply, Option.join_some, Option.getD_some]

end Cells

/-! ## Methods -/

/-- What a description tells of a method. -/
def MethodInfo.described (info : MethodInfo) : MethodDescription where
  name := info.name
  methodType := info.typeText
  hasReturn := info.unaryHasReturn
  paramsSchema := info.paramsSchema.getD []
  resultSchema := if info.unaryHasReturn then info.resultSchema.getD [] else []
  hasHeader := info.headerSchema.isSome
  headerSchema := info.headerSchema
  isExchange := if info.methodType = .unary then none else some info.isExchange

theorem schemaFromIpc_schemaIpc {ipc : Ipc} {schemas : List (List Field)} {batch : Batch}
    (trips : ipc.RoundTrips schemas batch) {schema : Option (List Field)}
    (listed : schema.toList ⊆ schemas) :
    schemaFromIpc ipc (schemaIpc ipc schema) = .ok (schema.getD []) := by
  cases schema with
  | none => rfl
  | some schema =>
      have member : schema ∈ schemas := listed (List.mem_singleton_self schema)
      rw [schemaIpc, schemaFromIpc, if_neg (trips.nonempty schema member),
        trips.schema schema member]
      rfl

theorem typeText_valid (info : MethodInfo) :
    info.typeText = ascii "unary" ∨ info.typeText = ascii "stream" := by
  unfold MethodInfo.typeText
  split
  · exact .inl rfl
  · exact .inr rfl

theorem isExchangeOf_streamKindFor (info : MethodInfo) :
    isExchangeOf info.streamKindFor =
      if info.methodType = .unary then none else some info.isExchange := by
  unfold MethodInfo.streamKindFor
  cases info.methodType with
  | unary => rfl
  | stream => cases info.isExchange <;> rfl

/-- One row of the description. -/
theorem decodeMethod_row {ipc : Ipc} {schemas : List (List Field)} {batch : Batch}
    (trips : ipc.RoundTrips schemas batch) {methods : List MethodInfo} {row : Nat}
    {info : MethodInfo} (listed : methods[row]? = some info) (held : info.schemas ⊆ schemas)
    (named : info.name ≠ []) :
    decodeMethod ipc (methodColumns ipc methods) row = .ok info.described := by
  rw [MethodInfo.schemas, List.append_subset, List.append_subset] at held
  rcases held with ⟨⟨paramsHeld, resultHeld⟩, headerHeld⟩
  have name : takeString (methodColumns ipc methods) row (ascii "name") = .ok info.name :=
    takeString_column listed rfl
  have type : takeString (methodColumns ipc methods) row (ascii "method_type") =
      .ok info.typeText := takeString_column listed rfl
  have hasReturn : takeBool (methodColumns ipc methods) row (ascii "has_return") =
      .ok info.unaryHasReturn := takeBool_column listed rfl
  have hasHeader : takeBool (methodColumns ipc methods) row (ascii "has_header") =
      .ok info.headerSchema.isSome :=
    @takeBool_column _ _ _ _ _ listed (fun info => info.headerSchema.isSome) rfl
  have params : takeBinary (methodColumns ipc methods) row (ascii "params_schema_ipc") =
      .ok (schemaIpc ipc info.paramsSchema) :=
    @takeBinary_column _ _ _ _ _ listed (fun info => schemaIpc ipc info.paramsSchema) rfl
  have result : takeBinary (methodColumns ipc methods) row (ascii "result_schema_ipc") =
      .ok (if info.unaryHasReturn then schemaIpc ipc info.resultSchema else []) :=
    @takeBinary_column _ _ _ _ _ listed
      (fun info => if info.unaryHasReturn then schemaIpc ipc info.resultSchema else []) rfl
  have header : takeBinary (methodColumns ipc methods) row (ascii "header_schema_ipc") =
      .ok (schemaIpc ipc info.headerSchema) :=
    @takeBinary_column _ _ _ _ _ listed (fun info => schemaIpc ipc info.headerSchema) rfl
  have kind : takeString (methodColumns ipc methods) row (ascii "stream_kind") =
      .ok info.streamKindFor := takeString_column listed rfl
  have resultSchema : schemaFromIpc ipc
      (if info.unaryHasReturn then schemaIpc ipc info.resultSchema else []) =
        .ok (if info.unaryHasReturn then info.resultSchema.getD [] else []) := by
    split
    next => exact schemaFromIpc_schemaIpc trips resultHeld
    next => rfl
  have headerSchema : headerFromIpc ipc info.headerSchema.isSome (schemaIpc ipc info.headerSchema) =
      .ok info.headerSchema := by
    rw [headerFromIpc, schemaFromIpc_schemaIpc trips headerHeld]
    cases info.headerSchema with
    | none => rfl
    | some schema => rfl
  simp only [decodeMethod, decoded_bind, name, type, hasReturn, hasHeader, params, result, header,
    kind, schemaFromIpc_schemaIpc trips paramsHeld, resultSchema, headerSchema, isExchangeOf_streamKindFor,
    require, if_pos named, if_pos (typeText_valid info)]
  rfl

/-- The loop over rows whose methods have different names. -/
theorem addMethod_rows {ipc : Ipc} {columns : List (Bytes × Column)} {methods : List MethodInfo}
    (rows : ∀ row info, methods[row]? = some info →
      decodeMethod ipc columns row = .ok info.described)
    (distinct : (methods.map MethodInfo.name).Nodup) :
    (List.range methods.length).foldlM (addMethod ipc columns) [] =
      .ok (methods.map MethodInfo.described) := by
  induction methods using List.reverseRecOn with
  | nil => rfl
  | append_singleton methods last ih =>
      have earlier : ∀ row info, methods[row]? = some info →
          decodeMethod ipc columns row = .ok info.described := by
        intro row info listed
        apply rows
        rw [List.getElem?_append_left (List.getElem?_eq_some_iff.mp listed).1, listed]
      have final : decodeMethod ipc columns methods.length = .ok last.described := by
        apply rows
        rw [List.getElem?_concat_length]
      rw [List.map_append, List.map_singleton, List.nodup_append] at distinct
      have fresh : last.described.name ∉ (methods.map MethodInfo.described).map
          MethodDescription.name := by
        rw [List.map_map]
        intro listed
        exact distinct.2.2 _ listed _ (List.mem_singleton_self _) rfl
      rw [List.length_append, List.length_singleton, List.range_succ, List.foldlM_append,
        ih earlier distinct.1]
      simp only [List.foldlM_cons, List.foldlM_nil, addMethod, decoded_bind, final, require,
        if_pos fresh, List.map_append, List.map_singleton]
      rfl

/-! ## The hash -/

theorem hexText_length (digest : Bytes) : (hexText digest).length = 2 * digest.length := by
  induction digest with
  | nil => rfl
  | cons byte digest ih =>
      rw [hexText, List.flatMap_cons, List.length_append, ← hexText, ih, List.length_cons,
        List.length_cons, List.length_cons, List.length_nil]
      omega

theorem lowerHex_digit {value : UInt8} (small : value.toNat < 16) :
    isHexDigit (lowerHex value) = true := by
  have every : ∀ nibble, nibble < 16 → isHexDigit (lowerHex (UInt8.ofNat nibble)) = true := by
    decide
  have digit := every value.toNat small
  rwa [UInt8.ofNat_toNat] at digit

/-- The hash of a binding passes the check of the client. -/
theorem isSha256Hex_hexText {digest : Bytes} (length : digest.length = 32) :
    isSha256Hex (hexText digest) = true := by
  rw [isSha256Hex, hexText_length, length, Bool.and_eq_true, List.all_eq_true]
  refine ⟨rfl, ?_⟩
  intro character listed
  rcases List.mem_flatMap.mp listed with ⟨byte, -, digit⟩
  rcases List.mem_pair.mp digit with rfl | rfl
  · apply lowerHex_digit
    rw [UInt8.toNat_shiftRight, Nat.shiftRight_eq_div_pow]
    exact Nat.div_lt_of_lt_mul byte.toNat_lt
  · apply lowerHex_digit
    rw [UInt8.toNat_and]
    exact Nat.lt_succ_of_le Nat.and_le_right

/-! ## Bindings -/

/-- A registered protocol; its methods come in the order of the map that holds them. -/
structure ProtocolBinding where
  name : Bytes
  version : Bytes
  registrations : List Registration
  distinct : (registrations.map fun registration => registration.info.name).Nodup

namespace ProtocolBinding

def methods (binding : ProtocolBinding) : List MethodInfo :=
  binding.registrations.map Registration.info

/-- The schemas of its methods. -/
def schemas (binding : ProtocolBinding) : List (List Field) :=
  binding.methods.flatMap MethodInfo.schemas

/-- The registrations that are not the framework's. -/
def application (binding : ProtocolBinding) : List Registration :=
  binding.registrations.filter fun registration => isApplicationMethod registration.info.name

end ProtocolBinding

/-- What a client is to learn of a registration. -/
def Registration.description : Registration → MethodDescription
  | .addUnary name paramsSchema resultSchema =>
      ⟨name, ascii "unary", !resultSchema.isEmpty, paramsSchema, resultSchema, false, none, none⟩
  | .addVoid name paramsSchema =>
      ⟨name, ascii "unary", false, paramsSchema, [], false, none, none⟩
  | .addProducer name paramsSchema headerSchema =>
      ⟨name, ascii "stream", false, paramsSchema, [], headerSchema.isSome, headerSchema, some false⟩
  | .addExchange name paramsSchema headerSchema =>
      ⟨name, ascii "stream", false, paramsSchema, [], headerSchema.isSome, headerSchema, some true⟩

theorem described_info (registration : Registration) :
    registration.info.described = registration.description := by
  cases registration with
  | addUnary name paramsSchema resultSchema => cases resultSchema <;> rfl
  | addVoid name paramsSchema => rfl
  | addProducer name paramsSchema headerSchema => rfl
  | addExchange name paramsSchema headerSchema => rfl

/-- A client hashes of a registration what the server hashes. -/
theorem hashMethod_description (registration : Registration) :
    registration.description.hashMethod = registration.info.hashMethod := by
  cases registration with
  | addUnary name paramsSchema resultSchema => rfl
  | addVoid name paramsSchema => rfl
  | addProducer name paramsSchema headerSchema => cases headerSchema <;> rfl
  | addExchange name paramsSchema headerSchema => cases headerSchema <;> rfl

section Copy

variable {ipc : Ipc} {sha256 : Bytes → Bytes} (binding : ProtocolBinding)

theorem applicationMethods_eq :
    applicationMethods binding.methods = binding.application.map Registration.info := by
  rw [applicationMethods, ProtocolBinding.methods, List.filter_map]
  rfl

theorem ordered_perm : (ordered binding.methods).Perm (applicationMethods binding.methods) :=
  List.mergeSort_perm _ _

theorem ordered_distinct : ((ordered binding.methods).map MethodInfo.name).Nodup := by
  rw [((ordered_perm binding).map _).nodup_iff, applicationMethods_eq, List.map_map]
  exact binding.distinct.sublist (List.filter_sublist.map _)

variable {binding}

theorem ordered_named (named : ∀ registration ∈ binding.registrations, registration.info.name ≠ [])
    {info : MethodInfo} (listed : info ∈ ordered binding.methods) : info.name ≠ [] := by
  rw [(ordered_perm binding).mem_iff, applicationMethods_eq] at listed
  rcases List.mem_map.mp listed with ⟨registration, registered, rfl⟩
  exact named registration (List.mem_of_mem_filter registered)

theorem ordered_held {info : MethodInfo} (listed : info ∈ ordered binding.methods) :
    info.schemas ⊆ binding.schemas := by
  intro schema member
  have registered := List.mem_of_mem_filter ((ordered_perm binding).mem_iff.mp listed)
  exact List.mem_flatMap.mpr ⟨info, registered, member⟩

/-- The reply is decoded, method by method. -/
theorem decode_describeReply {hash : Bytes}
    (trips : ipc.RoundTrips binding.schemas
      (descriptionBatch ipc binding.name binding.version hash binding.methods))
    (named : ∀ registration ∈ binding.registrations, registration.info.name ≠ [])
    (hexadecimal : isSha256Hex hash = true) :
    decodeServiceDescription ipc
        (describeReply ipc binding.name binding.version hash binding.methods) =
      .ok ⟨binding.name, binding.version, hash,
        (ordered binding.methods).map MethodInfo.described⟩ := by
  have payload : reflectionPayload ipc
      (describeReply ipc binding.name binding.version hash binding.methods) =
        .ok (descriptionBatch ipc binding.name binding.version hash binding.methods) := by
    have found : columnByName
        (describeReply ipc binding.name binding.version hash binding.methods).columns
        (ascii "result") =
          some (.binary [some (buildServiceDescription ipc binding.name binding.version hash
            binding.methods)]) := rfl
    rw [reflectionPayload, found]
    simp only [buildServiceDescription, trips.batch]
    rfl
  have rows := addMethod_rows (fun row info listed => decodeMethod_row trips listed
    (ordered_held (List.mem_of_getElem? listed))
    (ordered_named named (List.mem_of_getElem? listed))) (ordered_distinct binding)
  have cells : ∀ batch, batch = descriptionBatch ipc binding.name binding.version hash
      binding.methods →
      takeString batch.columns 0 (ascii "protocol") = .ok binding.name ∧
      takeString batch.columns 0 (ascii "protocol_version") = .ok binding.version ∧
      takeString batch.columns 0 (ascii "protocol_hash") = .ok hash ∧
      takeStructList batch.columns 0 (ascii "methods") = .ok (some
        ((ordered binding.methods).length, methodColumns ipc (ordered binding.methods))) := by
    rintro batch rfl
    exact ⟨rfl, rfl, rfl, rfl⟩
  rcases cells _ rfl with ⟨name, version, digest, methods⟩
  simp only [decodeServiceDescription, payload, decoded_bind, name, version, digest, methods,
    require, if_pos hexadecimal, decodeMethods, rows]
  rfl

/-- The methods that a client hashes, in its order, are those that the server hashes. -/
theorem hashed_perm : (((ordered binding.methods).map MethodInfo.described).map
      MethodDescription.hashMethod).Perm
    ((applicationMethods binding.methods).map MethodInfo.hashMethod) := by
  have same : (applicationMethods binding.methods).map MethodInfo.hashMethod =
      ((applicationMethods binding.methods).map MethodInfo.described).map
        MethodDescription.hashMethod := by
    simp only [applicationMethods_eq, List.map_map]
    refine List.map_congr_left fun registration _ => ?_
    rw [Function.comp_apply, Function.comp_apply, Function.comp_apply, described_info,
      hashMethod_description]
  rw [same]
  exact ((ordered_perm binding).map _).map _

theorem recomputedHash_eq {hash : Bytes} :
    ServiceDescription.recomputedHash sha256 ⟨binding.name, binding.version, hash,
        (ordered binding.methods).map MethodInfo.described⟩ =
      bindingHash sha256 binding.name binding.methods := by
  have distinct : ((((ordered binding.methods).map MethodInfo.described).map
      MethodDescription.hashMethod).map HashMethod.name).Nodup := by
    rw [List.map_map, List.map_map]
    exact ordered_distinct binding
  rw [ServiceDescription.recomputedHash, bindingHash, computeProtocolHash, computeProtocolHash,
    canonicalDescription_perm distinct hashed_perm]

/-- A description is decoded to the application methods as they were registered, and its
recomputed hash is the hash of the binding. -/
theorem description_copy (digest : ∀ preimage, (sha256 preimage).length = 32)
    (binding : ProtocolBinding)
    (trips : ipc.RoundTrips binding.schemas (descriptionBatch ipc binding.name binding.version
      (bindingHash sha256 binding.name binding.methods) binding.methods))
    (named : ∀ registration ∈ binding.registrations, registration.info.name ≠ []) :
    ∃ description,
      decodeServiceDescription ipc (describeReply ipc binding.name binding.version
        (bindingHash sha256 binding.name binding.methods) binding.methods) = .ok description ∧
      description.protocolName = binding.name ∧
      description.protocolVersion = binding.version ∧
      description.protocolHash = bindingHash sha256 binding.name binding.methods ∧
      description.methods.Perm (binding.application.map Registration.description) ∧
      description.recomputedHash sha256 = bindingHash sha256 binding.name binding.methods := by
  refine ⟨_, decode_describeReply trips named (isSha256Hex_hexText (digest _)), rfl, rfl, rfl,
    ?_, recomputedHash_eq⟩
  have same : binding.application.map Registration.description =
      (applicationMethods binding.methods).map MethodInfo.described := by
    rw [applicationMethods_eq, List.map_map]
    exact List.map_congr_left fun registration _ => (described_info registration).symm
  rw [same]
  exact (ordered_perm binding).map _

end Copy

/-! ## One protocol -/

def textField : Field := ⟨ascii "text", true, .simple .string⟩

/-- A protocol with a call, a stream and a method of the framework. -/
def echoBinding : ProtocolBinding where
  name := ascii "Echo"
  version := ascii "1.0.0"
  registrations := [.addUnary (ascii "say") [] [textField], .addProducer (ascii "count") [] none,
    .addVoid (ascii "__transport_options__") []]
  distinct := by decide

/-- An encoding of the schemas of the protocol, and of one batch. -/
def echoIpc (batch : Batch) : Ipc where
  writeSchema schema := if schema.isEmpty then [0] else [1]
  readSchema bytes := some (if bytes = [0] then [] else [textField])
  writeBatch _ := []
  readBatch _ := some batch

/-- SHA-256 of the text that the hash of the protocol is made of. -/
def echoSha256 : Bytes → Bytes := fun _ =>
  [3, 218, 224, 239, 63, 69, 27, 46, 225, 184, 32, 137, 144, 81, 157, 147, 44, 142, 196, 73, 255,
    67, 234, 222, 165, 178, 125, 250, 67, 68, 61, 90]

/-- The batch that describes the protocol; what it reads of the encoding is of schemas. -/
def echoBatch : Batch :=
  descriptionBatch (echoIpc ⟨0, []⟩) echoBinding.name echoBinding.version
    (bindingHash echoSha256 echoBinding.name echoBinding.methods) echoBinding.methods

theorem echo_trips : (echoIpc echoBatch).RoundTrips echoBinding.schemas echoBatch where
  schema := by
    intro schema listed
    have shape : schema = [] ∨ schema = [textField] := by
      simpa [echoBinding, ProtocolBinding.schemas, ProtocolBinding.methods, Registration.info,
        MethodInfo.schemas, or_comm] using listed
    rcases shape with rfl | rfl <;> rfl
  nonempty := by
    intro schema _
    rw [echoIpc]
    dsimp only
    split <;> exact List.cons_ne_nil _ _
  batch := rfl

theorem echo_described : ∃ description,
    decodeServiceDescription (echoIpc echoBatch) (describeReply (echoIpc echoBatch)
      echoBinding.name echoBinding.version
      (bindingHash echoSha256 echoBinding.name echoBinding.methods) echoBinding.methods) =
        .ok description ∧
    description.protocolName = ascii "Echo" ∧
    description.protocolVersion = ascii "1.0.0" ∧
    description.protocolHash = bindingHash echoSha256 echoBinding.name echoBinding.methods ∧
    description.methods.Perm
      [⟨ascii "say", ascii "unary", true, [], [textField], false, none, none⟩,
        ⟨ascii "count", ascii "stream", false, [], [], false, none, some false⟩] ∧
    description.recomputedHash echoSha256 =
      bindingHash echoSha256 echoBinding.name echoBinding.methods :=
  description_copy (fun _ => rfl) echoBinding echo_trips
    (by decide)

end VgiRpc.Protocol
