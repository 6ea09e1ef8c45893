import VgiRpc.Errors.Catalog

/-!
# Details are read back

Every typed detail is read back from its JSON form, once that was printed and parsed,
unless it is a `RetryInfo` whose delay is negative or not finite.
-/

namespace VgiRpc.Errors

open VgiRpc.Cpp VgiRpc.Lib

/-! ## Records -/

theorem readFieldViolation_toJson (violation : FieldViolation) :
    readFieldViolation violation.toJson.printed = some violation := rfl

theorem readPreconditionViolation_toJson (violation : PreconditionViolation) :
    readPreconditionViolation violation.toJson.printed = some violation := rfl

theorem readQuotaViolation_toJson (violation : QuotaViolation) :
    readQuotaViolation violation.toJson.printed = some violation := rfl

theorem readHelpLink_toJson (link : HelpLink) :
    readHelpLink link.toJson.printed = some link := rfl

theorem mapM_inverse {α : Type} {read : Json → Option α} {write : α → Json}
    (inverse : ∀ item, read (write item).printed = some item) (items : List α) :
    (items.map fun item => (write item).printed).mapM read = some items := by
  induction items with
  | nil => rfl
  | cons item items ih =>
      rw [List.map_cons, List.mapM_cons, inverse, ih]
      rfl

/-- An array of objects is read back if each object is. -/
theorem readList_listDetail {α : Type} {read : Json → Option α} {write : α → Json}
    {type key : Bytes} (inverse : ∀ item, read (write item).printed = some item)
    (objects : ∀ item, (write item).isObject = true) (items : List α) :
    readList (listDetail type key (items.map write)).printed key read = some items := by
  have found : (listDetail type key (items.map write)).find key =
      some (.array (items.map write)) := by
    simp only [listDetail, Json.make, Json.find_object, assignAll, List.foldl_cons, List.foldl_nil,
      lookup_assign, if_true]
  have shaped : (items.map fun item => (write item).printed).all Json.isObject = true := by
    rw [List.all_map, List.all_eq_true]
    intro item _
    exact (Json.isObject_printed _).trans (objects item)
  rw [readList, readObjects, Json.find_printed, found, Option.map_some, Json.printed_array,
    List.map_map]
  simp only [Function.comp_def, shaped, if_true]
  exact mapM_inverse inverse items

/-! ## Numbers -/

/-- A delay that a client takes: finite, and not negative. -/
def Usable (seconds : UInt64) : Prop :=
  Json.isFinite seconds = true ∧ 0 ≤ Double.value seconds

instance (seconds : UInt64) : Decidable (Usable seconds) := inferInstanceAs (Decidable (_ ∧ _))

/-- The delay that a client reads. -/
def readDelay (seconds : UInt64) : UInt64 := ((delayValue seconds).number?).getD 0

/-- A finite delay is read as a double of the same value. -/
theorem readDelay_value {seconds : UInt64} (finite : Json.isFinite seconds = true) :
    (delayValue seconds).printed.number? = some (readDelay seconds) ∧
      Json.isFinite (readDelay seconds) = true ∧
        Double.value (readDelay seconds) = Double.value seconds := by
  unfold readDelay delayValue
  split
  next whole =>
    simp only [Bool.and_eq_true, decide_eq_true_eq, Double.isWhole, finite, true_and] at whole
    have small : ⌊Double.value seconds⌋.natAbs < 2 ^ 53 := by
      have bound := whole.2
      rw [← whole.1, ← Int.cast_abs] at bound
      have limit : |⌊Double.value seconds⌋| < 9000000000000000 := by exact_mod_cast bound
      rw [Int.abs_eq_natAbs] at limit
      omega
    rcases Double.value_ofInt small with ⟨exact_, same⟩
    exact ⟨rfl, exact_, same.trans whole.1⟩
  next =>
    rw [Json.printed, if_pos finite]
    exact ⟨rfl, finite, rfl⟩

/-- A delay that is not finite is printed as `null`. -/
theorem delayValue_not_finite {seconds : UInt64} (infinite : Json.isFinite seconds = false) :
    (delayValue seconds).printed.number? = none := by
  rw [delayValue, infinite, Bool.false_and, Bool.false_and, if_neg Bool.false_ne_true, Json.printed,
    infinite, if_neg Bool.false_ne_true]
  rfl

/-! ## Details -/

/-- What a client makes of a detail. -/
def ErrorDetail.received : ErrorDetail → Option ErrorDetail
  | .retryInfo seconds => if Usable seconds then some (.retryInfo (readDelay seconds)) else none
  | detail => some detail

theorem readRetryInfo_toJson (seconds : UInt64) :
    readRetryInfo (detailToJson (.retryInfo seconds)).printed =
      (ErrorDetail.retryInfo seconds).received := by
  have found : (detailToJson (.retryInfo seconds)).find (ascii "retry_delay_seconds") =
      some (delayValue seconds) := rfl
  rw [readRetryInfo, Json.find_printed, found, Option.map_some, ErrorDetail.received]
  cases finite : Json.isFinite seconds with
  | false =>
      have unusable : ¬Usable seconds := by
        intro usable
        rw [usable.1] at finite
        cases finite
      rw [if_neg unusable]
      simp only [Option.bind_eq_bind, Option.bind_some, delayValue_not_finite finite,
        Option.bind_none]
  | true =>
      rcases readDelay_value finite with ⟨number, exact_, same⟩
      simp only [Option.bind_eq_bind, Option.bind_some, number, exact_, same, Bool.not_true,
        Bool.false_or, decide_eq_true_eq, Usable, finite, true_and]
      by_cases negative : Double.value seconds < 0
      · rw [if_pos negative, if_neg (not_le.mpr negative)]
      · rw [if_neg negative, if_pos (not_lt.mp negative)]
        rfl

theorem printedMembers_strings (entries : List (Bytes × Bytes)) :
    Json.printedMembers (entries.map fun entry => (entry.1, .string entry.2)) =
      entries.map fun entry => (entry.1, .string entry.2) := by
  induction entries with
  | nil => rfl
  | cons entry entries ih =>
      rw [List.map_cons, Json.printedMembers, ih]
      rfl

theorem mapM_strings (entries : List (Bytes × Bytes)) :
    (entries.map fun entry => (entry.1, Json.string entry.2)).mapM
      (fun member => member.2.text?.map fun text => (member.1, text)) = some entries := by
  induction entries with
  | nil => rfl
  | cons entry entries ih =>
      rw [List.map_cons, List.mapM_cons, ih]
      rfl

/-- The members of a map are printed in their own order. -/
theorem stringFields_printed (metadata : OrderedMap Bytes Bytes) :
    (stringFields metadata.entries).printed =
      .object (metadata.entries.map fun entry => (entry.1, .string entry.2)) := by
  have increasing : Increasing (metadata.entries.map fun entry => (entry.1, Json.string entry.2)) :=
    List.pairwise_map.mpr metadata.increasing
  rw [stringFields, Json.make, assignAll_of_increasing increasing, List.nil_append, Json.printed,
    printedMembers_strings]

theorem readErrorInfo_toJson (metadata : OrderedMap Bytes Bytes) :
    readErrorInfo (detailToJson (.errorInfo metadata)).printed = some (.errorInfo metadata) := by
  have found : (detailToJson (.errorInfo metadata)).find (ascii "metadata") =
      some (stringFields metadata.entries) := rfl
  rw [readErrorInfo, Json.find_printed, found, Option.map_some, stringFields_printed]
  simp only [mapM_strings, OrderedMap.ofEntries_entries, Option.bind_eq_bind, Option.bind_some]
  rfl

/-- Each detail is read back from what was printed of it. -/
theorem parseErrorDetail_printed (detail : ErrorDetail) :
    parseErrorDetail (detailToJson detail).printed = detail.received := by
  cases detail with
  | errorInfo metadata => exact readErrorInfo_toJson metadata
  | retryInfo seconds => exact readRetryInfo_toJson seconds
  | badRequest violations =>
      exact congrArg
        (fun read => Option.bind read fun violations => some (ErrorDetail.badRequest violations))
        (readList_listDetail readFieldViolation_toJson (fun _ => rfl) violations)
  | preconditionFailure violations =>
      exact congrArg
        (fun read => Option.bind read fun violations =>
          some (ErrorDetail.preconditionFailure violations))
        (readList_listDetail readPreconditionViolation_toJson (fun _ => rfl) violations)
  | quotaFailure violations =>
      exact congrArg
        (fun read => Option.bind read fun violations => some (ErrorDetail.quotaFailure violations))
        (readList_listDetail readQuotaViolation_toJson (fun _ => rfl) violations)
  | resourceInfo resourceType resourceName owner description => rfl
  | help links =>
      exact congrArg (fun read => Option.bind read fun links => some (ErrorDetail.help links))
        (readList_listDetail readHelpLink_toJson (fun _ => rfl) links)
  | localizedMessage locale message => rfl

end VgiRpc.Errors
