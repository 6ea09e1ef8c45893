import VgiRpc.Errors.Envelope

/-!
# Error envelopes are read back

What a client makes of the envelope of a thrown exception, from the top-level keys or from
their copy in `log_extra`.
-/

namespace VgiRpc.Errors

open VgiRpc.Cpp VgiRpc.Lib VgiRpc.Identity VgiRpc.Wire

/-! ## What the library documents -/

/-- Strict printing fails only on text that is not UTF-8, and parsing undoes it. -/
structure Prints (json : JsonText) (value : Json) : Prop where
  dumped : (json.dump value).isSome = true ↔ ∀ text ∈ value.strings, validUtf8 text = true
  nonempty : json.dump value ≠ some []
  parsed : ∀ text, json.dump value = some text → json.parse text = some value.printed

/-- Replacing makes any text UTF-8. -/
def Replaces (json : JsonText) (text : Bytes) : Prop :=
  ∃ safe, wireSafeText json text = some safe ∧ validUtf8 safe = true

/-! ## Arrays of details -/

theorem detailType_toJson (detail : ErrorDetail) :
    detailType (detailToJson detail) = some detail.type := by
  cases detail <;> rfl

theorem isObject_toJson (detail : ErrorDetail) : (detailToJson detail).isObject = true := by
  cases detail <;> rfl

/-- Typed details are valid if no type comes twice. -/
theorem errorDetailsValid_detailsJson (details : List ErrorDetail) :
    errorDetailsValid (detailsJson details) = decide (details.map ErrorDetail.type).Nodup := by
  have typed : (details.map detailToJson).mapM detailType = some (details.map ErrorDetail.type) := by
    induction details with
    | nil => rfl
    | cons detail details ih =>
        rw [List.map_cons, List.mapM_cons, detailType_toJson, ih]
        rfl
  rw [detailsJson, errorDetailsValid, typed]

/-- What a client reads of an array of details that was printed. -/
theorem received_details (details : List ErrorDetail) :
    (objectItems (detailsJson details).printed).filterMap parseErrorDetail =
      details.filterMap ErrorDetail.received := by
  induction details with
  | nil => rfl
  | cons detail details ih =>
      rw [detailsJson, Json.printed_array, objectItems] at ih ⊢
      rw [List.map_cons, List.map_cons,
        List.filter_cons_of_pos ((Json.isObject_printed _).trans (isObject_toJson detail)),
        List.filterMap_cons, List.filterMap_cons, parseErrorDetail_printed, ih]

/-- The encoder emits the printed array. -/
theorem encodeErrorDetails_some {json : JsonText} {details : Json} {text : Bytes}
    (encoded : encodeErrorDetails json details = some text) : json.dump details = some text := by
  unfold encodeErrorDetails at encoded
  split at encoded
  next =>
    split at encoded
    next =>
      rcases Option.bind_eq_some_iff.mp encoded with ⟨dumped, printed, kept⟩
      split at kept
      next => cases kept
      next =>
        cases Option.some.inj kept
        exact printed
    next => cases encoded
  next => cases encoded

/-! ## The object of `log_extra` -/

section Extra

variable (json : JsonText) (safeType safeMessage safeKind code safeTraceback : Bytes)
  (details : Json)

theorem extra_type :
    (errorExtra json safeType safeMessage safeKind code safeTraceback details).find
      (ascii "exception_type") = some (.string safeType) := by
  unfold errorExtra
  split_ifs <;> rfl

theorem extra_message :
    (errorExtra json safeType safeMessage safeKind code safeTraceback details).find
      (ascii "exception_message") = some (.string safeMessage) := by
  unfold errorExtra
  split_ifs <;> rfl

theorem extra_code :
    (errorExtra json safeType safeMessage safeKind code safeTraceback details).find
      (ascii "error_code") = some (.string code) := by
  unfold errorExtra
  split_ifs <;> rfl

theorem extra_kind :
    (errorExtra json safeType safeMessage safeKind code safeTraceback details).find
      (ascii "error_kind") = if safeKind ≠ [] then some (.string safeKind) else none := by
  unfold errorExtra
  split_ifs <;> rfl

theorem extra_details :
    (errorExtra json safeType safeMessage safeKind code safeTraceback details).find
      (ascii "error_details") =
        if (encodeErrorDetails json details).isSome then some details else none := by
  unfold errorExtra
  split_ifs <;> rfl

variable {json safeType safeMessage safeKind code safeTraceback details}

omit json safeType safeMessage safeKind code safeTraceback details in
theorem validUtf8_plain {text : Bytes}
    (plain : text.all (fun byte => decide (byte < 0x80)) = true) : validUtf8 text = true := by
  apply validUtf8_of_ascii
  intro byte listed
  exact of_decide_eq_true (List.all_eq_true.mp plain byte listed)

omit json safeType safeMessage safeKind code safeTraceback details in
theorem member_valid {key value text : Bytes}
    (keyed : key.all (fun byte => decide (byte < 0x80)) = true) (valid : validUtf8 value = true) (inside : text = key ∨ text ∈ (Json.string value).strings) :
    validUtf8 text = true := by
  rcases inside with rfl | same
  · exact validUtf8_plain keyed
  · rwa [List.mem_singleton.mp same]

/-- The members of the object are keys of this module, safe texts and printed details. -/
theorem extra_strings (type : validUtf8 safeType = true) (message : validUtf8 safeMessage = true)
    (kind : validUtf8 safeKind = true) (named : validUtf8 code = true)
    (traceback : validUtf8 safeTraceback = true) (prints : Prints json details) :
    ∀ text ∈ (errorExtra json safeType safeMessage safeKind code safeTraceback details).strings,
      validUtf8 text = true := by
  intro text listed
  rcases Json.strings_make listed with ⟨member, written, inside⟩
  simp only [List.mem_append, List.mem_cons, List.not_mem_nil, or_false] at written
  rcases written with (((rfl | rfl | rfl) | kinded) | detailed) | traced
  · exact member_valid (by rfl) type inside
  · exact member_valid (by rfl) message inside
  · exact member_valid (by rfl) named inside
  · split at kinded
    · rw [List.mem_singleton.mp kinded] at inside
      exact member_valid (by rfl) kind inside
    · cases kinded
  · split at detailed
    next emitted =>
      rw [List.mem_singleton.mp detailed] at inside
      rcases inside with rfl | same
      · exact validUtf8_plain (by rfl)
      · rcases Option.isSome_iff_exists.mp emitted with ⟨encoded, found⟩
        apply prints.dumped.mp _ text same
        rw [encodeErrorDetails_some found]
        rfl
    next => cases detailed
  · split at traced
    · rw [List.mem_singleton.mp traced] at inside
      exact member_valid (by rfl) traceback inside
    · cases traced

end Extra

/-! ## The keys -/

/-- The metadata that `make_error_metadata` writes. -/
def envelope (json : JsonText) (safeMessage extra serverId requestId code safeKind : Bytes)
    (details : Json) : Metadata :=
  [(Wire.Keys.logLevel, ascii "EXCEPTION"), (Wire.Keys.logMessage, safeMessage),
      (Keys.logExtra, extra)] ++
    (if serverId ≠ [] then [(Keys.serverId, serverId)] else []) ++
    (if requestId ≠ [] then [(Wire.Keys.requestId, requestId)] else []) ++
    [(Keys.errorCode, code)] ++
    (if safeKind ≠ [] then [(Keys.errorKind, safeKind)] else []) ++
    ((encodeErrorDetails json details).toList.map fun text => (Keys.errorDetails, text))

section Envelope

variable (json : JsonText) (safeMessage extra serverId requestId code safeKind : Bytes)
  (details : Json)

theorem top_message :
    top (envelope json safeMessage extra serverId requestId code safeKind details)
      Wire.Keys.logMessage = some safeMessage := rfl

theorem value_extra :
    (envelope json safeMessage extra serverId requestId code safeKind details).value
      Keys.logExtra = extra := rfl

theorem top_code :
    top (envelope json safeMessage extra serverId requestId code safeKind details)
      Keys.errorCode = some code := by
  unfold envelope
  split_ifs <;> rfl

theorem top_kind :
    top (envelope json safeMessage extra serverId requestId code safeKind details)
      Keys.errorKind = if safeKind ≠ [] then some safeKind else none := by
  unfold envelope
  cases encodeErrorDetails json details <;> split_ifs <;> rfl

theorem top_details :
    top (envelope json safeMessage extra serverId requestId code safeKind details)
      Keys.errorDetails = encodeErrorDetails json details := by
  unfold envelope
  cases encodeErrorDetails json details <;> split_ifs <;> rfl

end Envelope

/-- What the library prints for an envelope: the details, and the object of `log_extra`. -/
def Written (json : JsonText) (scope : Option TracebackScope) (thrown : HandlerException)
    (traceback : Bytes) (value : Json) : Prop :=
  value = thrown.details ∨
    ∃ safeType safeMessage safeKind safeTraceback,
      wireSafeText json thrown.exceptionType = some safeType ∧
      wireSafeText json thrown.what = some safeMessage ∧
      wireSafeText json thrown.kind = some safeKind ∧
      wireSafeTraceback json
        (envelopeTraceback scope thrown.exceptionType thrown.what traceback) =
          some safeTraceback ∧
      value = errorExtra json safeType safeMessage safeKind (codeName thrown.code) safeTraceback
        thrown.details

theorem wireSafeTraceback_some {json : JsonText} (texts : ∀ text, Replaces json text)
    (traceback : Bytes) :
    ∃ safe, wireSafeTraceback json traceback = some safe ∧ validUtf8 safe = true := by
  unfold wireSafeTraceback
  split
  next => exact texts traceback
  next => exact ⟨[], rfl, rfl⟩

/-- The envelope is written, in whole. -/
theorem makeExceptionMetadata_some {json : JsonText} {scope : Option TracebackScope}
    {thrown : HandlerException} {traceback : Bytes} (texts : ∀ text, Replaces json text)
    (prints : ∀ value, Written json scope thrown traceback value → Prints json value)
    (serverId requestId : Bytes) :
    ∃ safeType safeMessage safeKind safeTraceback extra,
      wireSafeText json thrown.exceptionType = some safeType ∧
      wireSafeText json thrown.what = some safeMessage ∧
      wireSafeText json thrown.kind = some safeKind ∧
      Prints json (errorExtra json safeType safeMessage safeKind (codeName thrown.code)
        safeTraceback thrown.details) ∧
      json.dump (errorExtra json safeType safeMessage safeKind (codeName thrown.code)
        safeTraceback thrown.details) = some extra ∧
      makeExceptionMetadata json scope thrown serverId requestId traceback =
        some (envelope json safeMessage extra serverId requestId (codeName thrown.code) safeKind
          thrown.details) := by
  rcases texts thrown.exceptionType with ⟨safeType, type, typeValid⟩
  rcases texts thrown.what with ⟨safeMessage, message, messageValid⟩
  rcases texts thrown.kind with ⟨safeKind, kind, kindValid⟩
  have code : envelopeCode thrown.exceptionType thrown.kind (codeName thrown.code) =
      codeName thrown.code := by
    rw [envelopeCode, if_neg (codeName_ne_nil _), parseCode_codeName]
  have named : validUtf8 (codeName thrown.code) = true := by
    apply validUtf8_plain
    cases thrown.code <;> rfl
  rcases wireSafeTraceback_some texts
    (envelopeTraceback scope thrown.exceptionType thrown.what traceback) with
    ⟨safeTraceback, source, tracebackValid⟩
  have printed := prints _ (.inr ⟨safeType, safeMessage, safeKind, safeTraceback, type, message,
    kind, source, rfl⟩)
  have dumped := printed.dumped.mpr (extra_strings typeValid messageValid kindValid named
    tracebackValid (prints _ (.inl rfl)))
  rcases Option.isSome_iff_exists.mp dumped with ⟨extra, found⟩
  refine ⟨safeType, safeMessage, safeKind, safeTraceback, extra, type, message, kind, printed,
    found, ?_⟩
  simp only [makeExceptionMetadata, makeErrorMetadata, type, message, kind, code, source, found,
    Option.bind_eq_bind, Option.bind_some]
  rfl

/-! ## Both readers -/

/-- The same detail; delays are compared as numbers. -/
def ErrorDetail.Same : ErrorDetail → ErrorDetail → Prop
  | .retryInfo sent, .retryInfo read => Double.Equal sent read
  | sent, read => sent = read

/-- A client learns what was thrown. -/
structure Delivered (json : JsonText) (thrown : HandlerException) (details : List ErrorDetail)
    (error : RemoteError) : Prop where
  exceptionType : wireSafeText json thrown.exceptionType = some error.exceptionType
  message : wireSafeText json thrown.what = some error.message
  code : error.status.code = thrown.code
  kind : wireSafeText json thrown.kind = some error.status.errorKind
  /-- All details in order, or none at all if the encoder dropped the array. -/
  details : List.Forall₂ ErrorDetail.Same details error.status.details ∨
    encodeErrorDetails json (detailsJson details) = none ∧ error.status.details = []

/-- The top-level keys and their copy say the same. -/
structure Mirrored (json : JsonText) (metadata : Metadata) (extra : Json) : Prop where
  object : extraObject json metadata = some extra
  message : top metadata Wire.Keys.logMessage =
    (extra.find (ascii "exception_message")).bind Json.text?
  code : (decodeRemoteStatus json metadata (Json.make [])).errorCode =
    (decodeRemoteStatus json [] extra).errorCode
  kind : (decodeRemoteStatus json metadata (Json.make [])).errorKind =
    (decodeRemoteStatus json [] extra).errorKind
  details : (decodeRemoteStatus json metadata (Json.make [])).errorDetails =
    (decodeRemoteStatus json [] extra).errorDetails

/-- The envelope of an exception is written, both clients learn what was thrown, and either
copy of the keys is enough. -/
def Survives (json : JsonText) (scope : Option TracebackScope) (thrown : HandlerException)
    (details : List ErrorDetail) (serverId requestId traceback : Bytes) : Prop :=
  ∃ metadata, makeExceptionMetadata json scope thrown serverId requestId traceback =
      some metadata ∧
    (∀ client : ClientKind, Delivered json thrown details (client.remoteError json metadata)) ∧
    ∃ extra, Mirrored json metadata extra

/-! ## The details -/

/-- Two lists of details of which one was made of the other by `received`. -/
theorem received_same {details : List ErrorDetail}
    (usable : ∀ seconds, .retryInfo seconds ∈ details → Usable seconds) :
    List.Forall₂ ErrorDetail.Same details (details.filterMap ErrorDetail.received) := by
  induction details with
  | nil => exact .nil
  | cons detail details ih =>
      have later := ih fun seconds listed => usable seconds (List.mem_cons_of_mem _ listed)
      cases detail with
      | retryInfo seconds =>
          have first := usable seconds List.mem_cons_self
          rcases readDelay_value first.1 with ⟨-, finite, same⟩
          have taken : (ErrorDetail.retryInfo seconds).received =
              some (.retryInfo (readDelay seconds)) := if_pos first
          rw [List.filterMap_cons_some taken]
          refine .cons ?_ later
          change Double.Equal seconds (readDelay seconds)
          rw [Double.Equal, if_pos ⟨first.1, finite⟩, same]
      | _ => exact .cons rfl later

/-- A detail that no client takes is missing. -/
theorem not_received {details : List ErrorDetail} {seconds : UInt64}
    (listed : .retryInfo seconds ∈ details) (unusable : ¬Usable seconds) :
    ¬List.Forall₂ ErrorDetail.Same details (details.filterMap ErrorDetail.received) := by
  intro same
  have shorter : (details.filterMap ErrorDetail.received).length < details.length := by
    rw [List.length_filterMap_lt_length_iff_exists]
    exact ⟨_, listed, if_neg unusable⟩
  exact absurd same.length_eq (Nat.ne_of_gt shorter)

/-! ## One envelope -/

section Read

variable {json : JsonText} {thrown : HandlerException} {details : List ErrorDetail}
  {safeType safeMessage safeKind safeTraceback extra serverId requestId : Bytes}

/-- The details that either reader finds: what was printed, or nothing. -/
def readDetails (json : JsonText) (details : List ErrorDetail) : List Json :=
  if (encodeErrorDetails json (detailsJson details)).isSome then
    objectItems (detailsJson details).printed
  else
    []

/-- The keys, whatever the second reader would find. -/
theorem status_top (code : Code) (safeMessage extra serverId requestId safeKind : Bytes)
    (prints : Prints json (detailsJson details)) (object : Json)
    (dropped : encodeErrorDetails json (detailsJson details) = none →
      object.find (ascii "error_details") = none)
    (kind : safeKind = [] → object.find (ascii "error_kind") = none) :
    let status := decodeRemoteStatus json (envelope json safeMessage extra serverId requestId
      (codeName code) safeKind (detailsJson details)) object
    status.errorCode = codeName code ∧ status.errorKind = safeKind ∧
      status.errorDetails = readDetails json details := by
  refine ⟨?_, ?_, ?_⟩
  · change (top _ _).getD _ = _
    rw [top_code, Option.getD_some]
  · change (top _ _).getD _ = _
    rw [top_kind]
    by_cases absent : safeKind = []
    · rw [if_neg (not_not.mpr absent), Option.getD_none, mirrored, kind absent, absent]
      rfl
    · rw [if_pos absent, Option.getD_some]
  · simp only [decodeRemoteStatus, top_details, readDetails]
    cases encoded : encodeErrorDetails json (detailsJson details) with
    | none =>
        simp only [dropped encoded, Option.isSome_none, Bool.false_eq_true, if_false]
        rfl
    | some raw =>
        simp only [decodeErrorDetails, prints.parsed raw (encodeErrorDetails_some encoded),
          Option.isSome_some, if_true]

/-- The copy, without the keys. -/
theorem status_mirror (json : JsonText) (thrown : HandlerException) (details : List ErrorDetail)
    (safeType safeMessage safeKind safeTraceback : Bytes) :
    let status := decodeRemoteStatus json [] (errorExtra json safeType safeMessage safeKind
      (codeName thrown.code) safeTraceback (detailsJson details)).printed
    status.errorCode = codeName thrown.code ∧ status.errorKind = safeKind ∧
      status.errorDetails = readDetails json details := by
  refine ⟨?_, ?_, ?_⟩
  · change mirrored _ _ = _
    rw [mirrored, Json.find_printed, extra_code]
    rfl
  · change mirrored _ _ = _
    rw [mirrored, Json.find_printed, extra_kind]
    by_cases absent : safeKind = []
    · rw [if_neg (not_not.mpr absent), absent]
      rfl
    · rw [if_pos absent]
      rfl
  · change ((Json.find _ _).map objectItems).getD [] = _
    rw [Json.find_printed, extra_details, readDetails]
    split <;> rfl

/-- Typed details of what either reader finds. -/
theorem readDetails_received :
    (readDetails json details).filterMap parseErrorDetail =
      if (encodeErrorDetails json (detailsJson details)).isSome then
        details.filterMap ErrorDetail.received
      else [] := by
  unfold readDetails
  split
  next => exact received_details details
  next => rfl

/-- `log_extra` of an envelope is the printed object. -/
theorem extraObject_envelope (serverId requestId : Bytes)
    (prints : Prints json (errorExtra json safeType safeMessage safeKind (codeName thrown.code)
      safeTraceback (detailsJson details)))
    (dumped : json.dump (errorExtra json safeType safeMessage safeKind (codeName thrown.code)
      safeTraceback (detailsJson details)) = some extra) :
    extraObject json (envelope json safeMessage extra serverId requestId (codeName thrown.code)
        safeKind (detailsJson details)) =
      some (errorExtra json safeType safeMessage safeKind (codeName thrown.code) safeTraceback
        (detailsJson details)).printed := by
  have written : extra ≠ [] := by
    intro empty
    rw [empty] at dumped
    exact prints.nonempty dumped
  simp only [extraObject, value_extra, if_neg written, prints.parsed extra dumped,
    Json.isObject_printed]
  rfl

/-- What a client throws, field by field. -/
theorem remoteError_envelope (prints : Prints json (detailsJson details))
    (object : extraObject json (envelope json safeMessage extra serverId requestId
      (codeName thrown.code) safeKind (detailsJson details)) =
        some (errorExtra json safeType safeMessage safeKind (codeName thrown.code) safeTraceback
          (detailsJson details)).printed) (client : ClientKind) :
    let error := client.remoteError json (envelope json safeMessage extra serverId requestId
      (codeName thrown.code) safeKind (detailsJson details))
    error.exceptionType = safeType ∧ error.message = safeMessage ∧
      error.status.errorCode = codeName thrown.code ∧ error.status.errorKind = safeKind ∧
        error.status.errorDetails = readDetails json details := by
  have status := status_top thrown.code safeMessage extra serverId requestId safeKind prints
    (errorExtra json safeType safeMessage safeKind (codeName thrown.code) safeTraceback
      (detailsJson details)).printed
    (fun dropped => by rw [Json.find_printed, extra_details, dropped]; rfl)
    (fun absent => by rw [Json.find_printed, extra_kind, absent]; rfl)
  cases client with
  | raw =>
      simp only [ClientKind.remoteError, remoteException, object, Option.bind_some,
        Json.find_printed, extra_type, top_message, Option.getD_some, Option.map_some]
      exact ⟨rfl, trivial, status⟩
  | http =>
      simp only [ClientKind.remoteError, throwRemoteError, object, Option.bind_some,
        Json.find_printed, extra_type, top_message, Option.getD_some, Option.map_some]
      exact ⟨rfl, trivial, status⟩

end Read

section Envelopes

variable {json : JsonText} {scope : Option TracebackScope} {thrown : HandlerException}
  {details : List ErrorDetail} {traceback : Bytes}

/-- The one envelope of an exception: its two copies agree, and a client learns what was
thrown if no detail is lost. -/
theorem envelope_read (typed : thrown.details = detailsJson details)
    (texts : ∀ text, Replaces json text)
    (prints : ∀ value, Written json scope thrown traceback value → Prints json value)
    (serverId requestId : Bytes) :
    ∃ metadata, makeExceptionMetadata json scope thrown serverId requestId traceback =
        some metadata ∧
      (∃ extra, Mirrored json metadata extra) ∧
      ∀ client : ClientKind, Delivered json thrown details (client.remoteError json metadata) ↔
        encodeErrorDetails json (detailsJson details) = none ∨
          List.Forall₂ ErrorDetail.Same details (details.filterMap ErrorDetail.received) := by
  rcases makeExceptionMetadata_some texts prints serverId requestId with
    ⟨safeType, safeMessage, safeKind, safeTraceback, extra, type, message, kind, printed, dumped,
      made⟩
  rw [typed] at printed dumped made
  have array : Prints json (detailsJson details) := prints _ (.inl typed.symm)
  have object := extraObject_envelope serverId requestId printed dumped
  refine ⟨_, made, ⟨_, object, ?_, ?_, ?_, ?_⟩, ?_⟩
  · rw [top_message, Json.find_printed, extra_message]
    rfl
  · rw [(status_top _ _ _ _ _ _ array (Json.make []) (fun _ => rfl) fun _ => rfl).1,
      (status_mirror ..).1]
  · rw [(status_top _ _ _ _ _ _ array (Json.make []) (fun _ => rfl) fun _ => rfl).2.1,
      (status_mirror ..).2.1]
  · rw [(status_top _ _ _ _ _ _ array (Json.make []) (fun _ => rfl) fun _ => rfl).2.2,
      (status_mirror ..).2.2]
  · intro client
    rcases remoteError_envelope array object client with
      ⟨readType, readMessage, readCode, readKind, readItems⟩
    have readTyped : (client.remoteError json (envelope json safeMessage extra serverId requestId
        (codeName thrown.code) safeKind (detailsJson details))).status.details =
          (readDetails json details).filterMap parseErrorDetail := by
      rw [RemoteStatus.details, readItems]
    rw [readDetails_received] at readTyped
    constructor
    · intro delivered
      cases encoded : encodeErrorDetails json (detailsJson details) with
      | none => exact .inl rfl
      | some text =>
          rw [encoded, Option.isSome_some, if_pos rfl] at readTyped
          rcases delivered.details with same | dropped
          · exact .inr (readTyped ▸ same)
          · rw [encoded] at dropped
            cases dropped.1
    · intro same
      refine ⟨by rw [readType, type], by rw [readMessage, message], ?_, by rw [readKind, kind], ?_⟩
      · rw [RemoteStatus.code, readCode, parseCode_codeName]
      · rw [readTyped]
        cases encoded : encodeErrorDetails json (detailsJson details) with
        | none => exact .inr ⟨rfl, rfl⟩
        | some text =>
            rw [encoded] at same
            exact .inl (same.resolve_left nofun)

/-- An envelope whose details were emitted loses one that no client takes. -/
theorem not_survives (typed : thrown.details = detailsJson details)
    (texts : ∀ text, Replaces json text)
    (prints : ∀ value, Written json scope thrown traceback value → Prints json value)
    (serverId requestId : Bytes) {seconds : UInt64} (listed : .retryInfo seconds ∈ details)
    (unusable : ¬Usable seconds) (emitted : encodeErrorDetails json (detailsJson details) ≠ none) :
    ¬Survives json scope thrown details serverId requestId traceback := by
  rintro ⟨metadata, made, delivered, -⟩
  rcases envelope_read typed texts prints serverId requestId with ⟨_, same, -, exact_⟩
  rw [made] at same
  cases Option.some.inj same
  exact not_received listed unusable (((exact_ .raw).mp (delivered .raw)).resolve_left emitted)

/-- What is thrown reaches both clients, and either copy of the keys is enough, just when the
encoder drops the details or no `RetryInfo` has a delay that is negative or not finite. -/
theorem survives_iff (typed : thrown.details = detailsJson details)
    (texts : ∀ text, Replaces json text)
    (prints : ∀ value, Written json scope thrown traceback value → Prints json value)
    (serverId requestId : Bytes) :
    Survives json scope thrown details serverId requestId traceback ↔
      encodeErrorDetails json (detailsJson details) = none ∨
        ∀ seconds, .retryInfo seconds ∈ details → Usable seconds := by
  constructor
  · intro survives
    by_contra neither
    rw [not_or, not_forall] at neither
    rcases neither with ⟨emitted, seconds, unusable⟩
    rw [Classical.not_imp] at unusable
    exact not_survives typed texts prints serverId requestId unusable.1 unusable.2 emitted survives
  · intro usable
    rcases envelope_read typed texts prints serverId requestId with ⟨metadata, made, mirrored, read⟩
    refine ⟨metadata, made, fun client => (read client).mpr ?_, mirrored⟩
    rcases usable with dropped | usable
    · exact .inl dropped
    · exact .inr (received_same usable)

end Envelopes

/-! ## Two errors -/

def quoted (text : Bytes) : Bytes := 0x22 :: text ++ [0x22]

mutual

/-- The compact text of a value without floats and without escapes. -/
def compact : Json → Bytes
  | .null => ascii "null"
  | .bool value => if value then ascii "true" else ascii "false"
  | .integer value => toString value
  | .float _ => ascii "null"
  | .string text => quoted text
  | .array items => 0x5b :: compactItems items ++ [0x5d]
  | .object members => 0x7b :: compactMembers members ++ [0x7d]

def compactItems : List Json → Bytes
  | [] => []
  | item :: items => compact item ++ (if items.isEmpty then [] else [0x2c]) ++ compactItems items

def compactMembers : List (Bytes × Json) → Bytes
  | [] => []
  | (key, item) :: members =>
      quoted key ++ [0x3a] ++ compact item ++ (if members.isEmpty then [] else [0x2c]) ++
        compactMembers members

end

/-- A library that prints compactly, and parses strings, one array and one object. -/
def sampleText (items : List Json) (members : List (Bytes × Json)) : JsonText where
  dump value :=
    if value.strings.all validUtf8 then some (compact value) else none
  dumpReplacing
    | .string text => if validUtf8 text then quoted text else quoted []
    | value => compact value
  parse text :=
    if text = compact (.array items) then some (Json.array items).printed
    else if text = compact (.object members) then some (Json.object members).printed
    else
      match text with
      | 0x22 :: rest => some (.string rest.dropLast)
      | _ => none

section Sample

variable (items : List Json) (members : List (Bytes × Json))

theorem sampleText_parse (text : Bytes) :
    (sampleText items members).parse (quoted text) = some (.string text) := by
  simp [sampleText, quoted, compact]

theorem sampleText_safe {text : Bytes} (valid : validUtf8 text = true) :
    wireSafeText (sampleText items members) text = some text := by
  have dumped : (sampleText items members).dumpReplacing (.string text) = quoted text := if_pos valid
  rw [wireSafeText, dumped, sampleText_parse]
  rfl

theorem sampleText_replaces (text : Bytes) : Replaces (sampleText items members) text := by
  by_cases valid : validUtf8 text = true
  · exact ⟨text, sampleText_safe items members valid, valid⟩
  · have dumped : (sampleText items members).dumpReplacing (.string text) = quoted [] :=
      if_neg valid
    refine ⟨[], ?_, rfl⟩
    rw [wireSafeText, dumped, sampleText_parse]
    rfl

theorem sampleText_dumped (value : Json) :
    ((sampleText items members).dump value).isSome = true ↔
      ∀ text ∈ value.strings, validUtf8 text = true := by
  rw [← List.all_eq_true]
  change Option.isSome (if _ then _ else _) = true ↔ _
  split
  next valid => exact iff_of_true rfl valid
  next invalid => exact iff_of_false nofun invalid

theorem sampleText_compact {value : Json} {text : Bytes}
    (dumped : (sampleText items members).dump value = some text) : text = compact value := by
  change (if _ then _ else _) = some text at dumped
  split at dumped
  next => exact (Option.some.inj dumped).symm
  next => cases dumped

theorem sampleText_dump {value : Json} (valid : ∀ text ∈ value.strings, validUtf8 text = true) :
    (sampleText items members).dump value = some (compact value) :=
  if_pos (List.all_eq_true.mpr valid)

theorem sampleText_array : Prints (sampleText items members) (.array items) := by
  refine ⟨sampleText_dumped items members _, ?_, ?_⟩
  · intro empty
    cases sampleText_compact items members empty
  · intro text dumped
    rw [sampleText_compact items members dumped]
    exact if_pos rfl

theorem sampleText_object : Prints (sampleText items members) (.object members) := by
  refine ⟨sampleText_dumped items members _, ?_, ?_⟩
  · intro empty
    cases sampleText_compact items members empty
  · intro text dumped
    have different : compact (.object members) ≠ compact (.array items) := by simp [compact]
    rw [sampleText_compact items members dumped]
    simp only [sampleText, if_neg different, if_true]

end Sample

/-- A `StatusError` with one `RetryInfo`. -/
def rebuilding (delay : Int) : HandlerException :=
  .kinded (ascii "rebuilding") (ascii "StatusError") (ascii "try again") .unavailable
    (detailsJson [.retryInfo (Double.ofInt delay)])

/-- The members of its `log_extra`. -/
def rebuildingExtra (delay : Int) : List (Bytes × Json) :=
  assignAll []
    [(ascii "exception_type", .string (ascii "StatusError")),
      (ascii "exception_message", .string (ascii "try again")),
      (ascii "error_code", .string (ascii "UNAVAILABLE")),
      (ascii "error_kind", .string (ascii "rebuilding")),
      (ascii "error_details", detailsJson [.retryInfo (Double.ofInt delay)])]

/-- The library for this error. -/
def rebuildingText (delay : Int) : JsonText :=
  sampleText [detailToJson (.retryInfo (Double.ofInt delay))] (rebuildingExtra delay)

theorem delayValue_ofInt {delay : Int} (small : delay.natAbs < 9000000000000000) :
    delayValue (Double.ofInt delay) = .integer delay := by
  have fits : delay.natAbs < 2 ^ 53 := by omega
  rcases Double.value_ofInt fits with ⟨finite, same⟩
  have whole : Double.isWhole (Double.ofInt delay) = true := by
    rw [Double.isWhole, same, Int.floor_intCast, decide_eq_true_eq]
  have bound : |(delay : ℚ)| < 9000000000000000 := by
    rw [← Int.cast_abs, Int.abs_eq_natAbs]
    exact_mod_cast small
  rw [delayValue, finite, whole, same, decide_eq_true bound, Int.floor_intCast]
  rfl

/-- Its details are emitted. -/
theorem rebuilding_emitted {delay : Int} (small : delay.natAbs < 9000000000000000)
    (short : (Cpp.toString delay).length ≤ 20) :
    (encodeErrorDetails (rebuildingText delay)
      (detailsJson [.retryInfo (Double.ofInt delay)])).isSome = true := by
  have shape : detailToJson (.retryInfo (Double.ofInt delay)) =
      .object [(ascii "@type", .string DetailType.retryInfo),
        (ascii "retry_delay_seconds", .integer delay)] := by
    rw [detailToJson, delayValue_ofInt small]
    rfl
  have valid : errorDetailsValid (detailsJson [.retryInfo (Double.ofInt delay)]) = true := by
    rw [errorDetailsValid_detailsJson, decide_eq_true_eq]
    exact List.nodup_singleton _
  have plain : ∀ text ∈ (detailsJson [.retryInfo (Double.ofInt delay)]).strings,
      validUtf8 text = true := by
    rw [detailsJson, List.map_singleton, shape]
    intro text listed
    change text ∈ [ascii "@type", DetailType.retryInfo, ascii "retry_delay_seconds"] at listed
    simp only [List.mem_cons, List.not_mem_nil, or_false] at listed
    rcases listed with rfl | rfl | rfl
    · exact validUtf8_plain (by rfl)
    · exact validUtf8_plain (by rfl)
    · exact validUtf8_plain (by rfl)
  have dumped : (rebuildingText delay).dump (detailsJson [.retryInfo (Double.ofInt delay)]) =
      some (compact (detailsJson [.retryInfo (Double.ofInt delay)])) :=
    sampleText_dump _ _ plain
  have length : ¬kMaxErrorDetailsBytes <
      (compact (detailsJson [.retryInfo (Double.ofInt delay)])).length := by
    rw [detailsJson, List.map_singleton, shape]
    simp only [compact, compactItems, compactMembers, quoted, List.length_append, List.length_cons,
      List.length_nil, List.isEmpty_nil, List.isEmpty_cons, if_true, Bool.false_eq_true, if_false]
    have first : (ascii "@type").length = 5 := rfl
    have second : DetailType.retryInfo.length = 17 := rfl
    have third : (ascii "retry_delay_seconds").length = 19 := rfl
    rw [kMaxErrorDetailsBytes]
    omega
  rw [detailsJson, List.map_singleton] at valid dumped length ⊢
  simp only [encodeErrorDetails, valid, dumped, if_true, Option.bind_eq_bind, Option.bind_some,
    if_neg length]
  rfl

/-- What the library prints for this error. -/
theorem rebuilding_prints {delay : Int} (small : delay.natAbs < 9000000000000000)
    (short : (Cpp.toString delay).length ≤ 20) (value : Json)
    (written : Written (rebuildingText delay) none (rebuilding delay) [] value) :
    Prints (rebuildingText delay) value := by
  rcases written with rfl | ⟨safeType, safeMessage, safeKind, safeTraceback, type, message, kind,
    traceback, rfl⟩
  · exact sampleText_array _ _
  · have safe : ∀ text, text.all (fun byte => decide (byte < 0x80)) = true →
        wireSafeText (rebuildingText delay) text = some text :=
      fun text plain => sampleText_safe _ _ (validUtf8_plain plain)
    rw [safe _ (by rfl)] at type message kind
    cases Option.some.inj type
    cases Option.some.inj message
    cases Option.some.inj kind
    cases Option.some.inj traceback
    have members : errorExtra (rebuildingText delay) (ascii "StatusError") (ascii "try again")
        (ascii "rebuilding") (codeName (rebuilding delay).code) [] (rebuilding delay).details =
          .object (rebuildingExtra delay) := by
      have emitted := rebuilding_emitted small short
      rw [errorExtra]
      simp only [rebuilding, HandlerException.details, emitted, if_true]
      rfl
    change Prints _ (errorExtra _ (ascii "StatusError") (ascii "try again") (ascii "rebuilding")
      _ _ _)
    rw [members]
    exact sampleText_object _ _

/-- A delay of seven seconds arrives. -/
theorem rebuilding_survives :
    Survives (rebuildingText 7) none (rebuilding 7) [.retryInfo (Double.ofInt 7)] [] [] [] := by
  have typed : (rebuilding 7).details = detailsJson [.retryInfo (Double.ofInt 7)] := rfl
  have texts : ∀ text, Replaces (rebuildingText 7) text := sampleText_replaces _ _
  have usable : Usable (Double.ofInt 7) := by
    rcases @Double.value_ofInt 7 (by decide) with ⟨finite, same⟩
    refine ⟨finite, ?_⟩
    rw [same]
    norm_num
  have prints := @rebuilding_prints 7 (by decide) (by decide)
  refine (survives_iff typed texts prints [] []).mpr (.inr ?_)
  intro seconds listed
  cases List.mem_singleton.mp listed
  exact usable

/-- A negative delay is accepted, sent, and missing at the client. -/
theorem negative_delay_lost :
    statusError (ascii "try again") .unavailable (ascii "rebuilding")
        [.retryInfo (Double.ofInt (-1))] = .ok (rebuilding (-1)) ∧
      ¬Survives (rebuildingText (-1)) none (rebuilding (-1)) [.retryInfo (Double.ofInt (-1))]
        [] [] [] := by
  have typed : (rebuilding (-1)).details = detailsJson [.retryInfo (Double.ofInt (-1))] := rfl
  have texts : ∀ text, Replaces (rebuildingText (-1)) text := sampleText_replaces _ _
  have prints := @rebuilding_prints (-1) (by decide) (by decide)
  have emitted := @rebuilding_emitted (-1) (by decide) (by decide)
  have unusable : ¬Usable (Double.ofInt (-1)) := by
    intro usable
    have value := usable.2
    rw [(@Double.value_ofInt (-1) (by decide)).2] at value
    norm_num at value
  constructor
  · apply if_pos
    rw [errorDetailsValid_detailsJson, decide_eq_true_eq]
    exact List.nodup_singleton _
  · exact not_survives typed texts prints [] [] List.mem_cons_self unusable
      (Option.isSome_iff_ne_none.mp emitted)

end VgiRpc.Errors
