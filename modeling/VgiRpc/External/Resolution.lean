import VgiRpc.Wire.Metadata

/-!
# Resolving an external pointer

`resolve_pointer` of the client fetches what a pointer batch points at, and puts the metadata of
the two together: `merge_resolution_metadata` keeps the entries of both, lets the fetched batch win,
and stamps where it came from.
-/

namespace VgiRpc.External

open VgiRpc.Cpp VgiRpc.Wire

/-! ## Metadata -/

/-- `is_location_metadata`. -/
def isLocationMetadata (key : Bytes) : Bool :=
  key = Keys.location || key = Keys.locationSha256 || key = Keys.locationSource ||
    key = Keys.locationFetchMs

/-- The two keys that a reader stamps. -/
def isProvenance (key : Bytes) : Bool := key = Keys.locationSource || key = Keys.locationFetchMs

/-- The entries of the fetched batch, one after the other: each one erases its key and is appended. -/
def overlay (outer inner : Metadata) : Metadata :=
  inner.foldl (fun result entry =>
    if isLocationMetadata entry.1 then result else result.replace entry.1 entry.2) outer

/-- `merge_resolution_metadata`; `elapsed` is the printed time. -/
def mergeResolutionMetadata (outer inner : Option Metadata) (source elapsed : Bytes) : Metadata :=
  let result := (outer.getD []).filter fun entry => !isLocationMetadata entry.1
  let result := overlay result (inner.getD [])
  let result := [Keys.locationSource, Keys.locationFetchMs].foldl Metadata.remove result
  result ++ [(Keys.locationSource, source), (Keys.locationFetchMs, elapsed)]

/-! ## The pointer -/

/-- A batch with its metadata; the columns stay abstract. -/
structure AnnotatedBatch (χ β : Type) where
  schema : χ
  numRows : Nat
  columns : β
  customMetadata : Option Metadata
  deriving DecidableEq

namespace AnnotatedBatch

variable {χ β : Type} (batch : AnnotatedBatch χ β)

/-- The entries of the metadata; a null pointer has none. -/
def entries : Metadata := batch.customMetadata.getD []

/-- An empty batch with a level and a message. -/
def isLog : Bool :=
  batch.numRows = 0 && batch.entries.has Keys.logLevel && batch.entries.has Keys.logMessage

end AnnotatedBatch

/-- `ExternalHttpError` of `resolve_pointer`, or of what it calls. -/
inductive ResolutionError where
  | malformedPointer
  | fetchFailed
  | unreadable
  | noStream
  | trailingData
  | nested
  | remoteException (message : Bytes)
  | notOneBatch
  | schemaMismatch
  deriving DecidableEq, Repr

/-- What the client has at hand: `fetch` of a URL under a checksum, the reader of an IPC stream with
the number of bytes that it read, and the printed time. -/
structure Resolver (χ β : Type) where
  fetch : (url checksum : Bytes) → Except ResolutionError Bytes
  readIpcStream : Bytes → Except ResolutionError (Option (χ × List (AnnotatedBatch χ β)) × Nat)
  elapsed : Bytes

section Resolve

variable {χ β : Type} [DecidableEq χ]

/-- The batches of a payload: the logs that are handed on, and the data batches. -/
def scanPayload : List (AnnotatedBatch χ β) →
    List (AnnotatedBatch χ β) × Except ResolutionError (List (AnnotatedBatch χ β))
  | [] => ([], .ok [])
  | batch :: rest =>
      if batch.entries.has Keys.location then
        ([], .error .nested)
      else if batch.isLog then
        if batch.entries.value Keys.logLevel = ascii "EXCEPTION" then
          ([], .error (.remoteException (batch.entries.value Keys.logMessage)))
        else
          (batch :: (scanPayload rest).1, (scanPayload rest).2)
      else
        ((scanPayload rest).1, (scanPayload rest).2.map (batch :: ·))

/-- The one data batch, if its schema is that of the pointer. -/
def singleBatch (resolver : Resolver χ β) (pointer : AnnotatedBatch χ β) (schema : χ) :
    Except ResolutionError (List (AnnotatedBatch χ β)) →
      Except ResolutionError (AnnotatedBatch χ β)
  | .error error => .error error
  | .ok [data] =>
      if schema ≠ pointer.schema ∨ data.schema ≠ pointer.schema then
        .error .schemaMismatch
      else
        .ok { data with customMetadata := some (mergeResolutionMetadata pointer.customMetadata
          data.customMetadata (pointer.entries.value Keys.location) resolver.elapsed) }
  | .ok _ => .error .notOneBatch

/-- `resolve_pointer`: the logs that were handed on, and the batch that stands for the pointer. -/
def resolvePointer (resolver : Resolver χ β) (pointer : AnnotatedBatch χ β) :
    List (AnnotatedBatch χ β) × Except ResolutionError (AnnotatedBatch χ β) :=
  if pointer.entries.has Keys.location = false then
    ([], .ok pointer)
  else if pointer.numRows ≠ 0 ∨ pointer.entries.has Keys.logLevel then
    ([], .error .malformedPointer)
  else
    match resolver.fetch (pointer.entries.value Keys.location)
      (pointer.entries.value Keys.locationSha256) with
    | .error error => ([], .error error)
    | .ok payload =>
        match resolver.readIpcStream payload with
        | .error error => ([], .error error)
        | .ok (none, _) => ([], .error .noStream)
        | .ok (some (schema, batches), position) =>
            if position ≠ payload.length then
              ([], .error .trailingData)
            else
              ((scanPayload batches).1, singleBatch resolver pointer schema (scanPayload batches).2)

/-- What was resolved is a batch of the payload, under the merged metadata. -/
theorem resolvePointer_ok {resolver : Resolver χ β} {pointer resolved : AnnotatedBatch χ β}
    {logs : List (AnnotatedBatch χ β)} (located : pointer.entries.has Keys.location = true)
    (resolves : resolvePointer resolver pointer = (logs, .ok resolved)) :
    ∃ payload schema batches position data,
      resolver.fetch (pointer.entries.value Keys.location)
        (pointer.entries.value Keys.locationSha256) = .ok payload ∧
      resolver.readIpcStream payload = .ok (some (schema, batches), position) ∧
      scanPayload batches = (logs, .ok [data]) ∧
      resolved = { data with customMetadata := some (mergeResolutionMetadata pointer.customMetadata
        data.customMetadata (pointer.entries.value Keys.location) resolver.elapsed) } := by
  rw [resolvePointer, if_neg (by rw [located]; decide)] at resolves
  split at resolves
  · cases (Prod.mk.inj resolves).2
  · split at resolves
    · cases (Prod.mk.inj resolves).2
    · next payload fetched =>
        split at resolves
        · cases (Prod.mk.inj resolves).2
        · cases (Prod.mk.inj resolves).2
        · next schema batches position reads =>
            split at resolves
            · cases (Prod.mk.inj resolves).2
            · obtain ⟨rfl, single⟩ := Prod.mk.inj resolves
              rw [singleBatch.eq_def] at single
              split at single
              · cases single
              · next data one =>
                  split at single
                  · cases single
                  · exact ⟨payload, schema, batches, position, data, fetched, reads, Prod.ext rfl one,
                      (Except.ok.inj single).symm⟩
              · cases single

end Resolve

/-! ## What the merge does -/

section Merge

variable {outer inner : Metadata} {key : Bytes}

/-- A key occurs once at most. -/
def OnceIn (metadata : Metadata) (key : Bytes) : Prop :=
  (metadata.filter fun entry => entry.1 = key).length ≤ 1

theorem overlay_filter (outer inner : Metadata) :
    overlay outer inner = (inner.filter fun entry => !isLocationMetadata entry.1).foldl
      (fun result entry => result.replace entry.1 entry.2) outer := by
  rw [List.foldl_filter, overlay]
  congr 1
  funext result entry
  cases isLocationMetadata entry.1 <;> rfl

theorem not_has_cons (first : Bytes × Bytes) (rest : Metadata) (key : Bytes) :
    (!Metadata.has (first :: rest) key) = (decide (key ≠ first.1) && !Metadata.has rest key) := by
  rw [Metadata.has_cons, Bool.not_or, decide_not, decide_eq_decide.mpr eq_comm]

/-- On keys that do not repeat, replacing one by one is replacing all at once. -/
theorem foldl_replace {chosen : Bytes → Bool}
    (once : ∀ key, chosen key = true → OnceIn inner key) :
    (inner.foldl (fun result entry => Metadata.replace result entry.1 entry.2) outer).filter
        (fun entry => chosen entry.1) =
      (outer.filter (fun entry => !inner.has entry.1) ++ inner).filter fun entry => chosen entry.1 := by
  induction inner generalizing outer with
  | nil => simp
  | cons first rest inductionHypothesis =>
      have onceRest : ∀ key, chosen key = true → OnceIn rest key := by
        intro key picked
        refine le_trans (List.Sublist.length_le ?_) (once key picked)
        exact (List.sublist_cons_self first rest).filter _
      have single (picked : chosen first.1 = true) : Metadata.has rest first.1 = false := by
        have bound := once first.1 picked
        rw [OnceIn, List.filter_cons_of_pos (by simp), List.length_cons] at bound
        have empty := List.length_eq_zero_iff.mp (Nat.le_zero.mp (Nat.le_of_succ_le_succ bound))
        rw [List.filter_eq_nil_iff] at empty
        rw [Metadata.has.eq_def, List.any_eq_false]
        exact empty
      have before : (Metadata.remove outer first.1).filter (fun entry => !Metadata.has rest entry.1) =
          outer.filter fun entry => !Metadata.has (first :: rest) entry.1 := by
        rw [Metadata.remove, List.filter_filter]
        congr 1
        funext entry
        rw [not_has_cons, Bool.and_comm]
      have itself : ([first].filter fun entry => !Metadata.has rest entry.1).filter
          (fun entry => chosen entry.1) = [first].filter fun entry => chosen entry.1 := by
        by_cases picked : chosen first.1 = true
        · rw [List.filter_cons_of_pos (by rw [single picked]; rfl), List.filter_nil]
        · rw [List.filter_filter, List.filter_cons_of_neg (by simp [picked]), List.filter_nil]
          simp [picked]
      rw [List.foldl_cons, inductionHypothesis onceRest, Metadata.replace, List.filter_append,
        List.filter_append, List.filter_append, before, itself, List.filter_append, List.append_assoc,
        ← List.filter_append, List.singleton_append]

/-- A predicate on keys that picks none of the location keys. -/
def Apart (chosen : Bytes → Bool) : Prop := ∀ key, chosen key = true → isLocationMetadata key = false

theorem filter_location {chosen : Bytes → Bool} (apart : Apart chosen) (metadata : Metadata) :
    (metadata.filter fun entry => !isLocationMetadata entry.1).filter (fun entry => chosen entry.1) =
      metadata.filter fun entry => chosen entry.1 := by
  rw [List.filter_filter]
  congr 1
  funext entry
  cases picked : chosen entry.1 with
  | false => rfl
  | true => rw [apart entry.1 picked]; rfl

theorem remove_filter {chosen : Bytes → Bool} {removed : Bytes} (kept : chosen removed = false)
    (metadata : Metadata) : (metadata.remove removed).filter (fun entry => chosen entry.1) =
      metadata.filter fun entry => chosen entry.1 := by
  rw [Metadata.remove, List.filter_filter]
  congr 1
  funext entry
  cases picked : chosen entry.1 with
  | false => rfl
  | true =>
      have apart : entry.1 ≠ removed := by
        intro same
        rw [same, kept] at picked
        cases picked
      rw [decide_eq_true apart]
      rfl

theorem has_overlay_location (location : isLocationMetadata key = true)
    (absent : outer.has key = false) : (overlay outer inner).has key = false := by
  rw [overlay_filter]
  have plain : ∀ entry ∈ inner.filter fun entry => !isLocationMetadata entry.1, entry.1 ≠ key := by
    intro entry mem same
    have kept := (List.mem_filter.mp mem).2
    rw [same, location] at kept
    cases kept
  generalize inner.filter (fun entry => !isLocationMetadata entry.1) = entries at plain
  induction entries generalizing outer with
  | nil => exact absent
  | cons first rest inductionHypothesis =>
      rw [List.forall_mem_cons] at plain
      apply inductionHypothesis _ plain.2
      change Metadata.has (Metadata.replace outer first.1 first.2) key = false
      rw [Metadata.replace, Metadata.has_append, Metadata.has_remove, absent, Bool.and_false,
        Bool.false_or, Metadata.has_cons, decide_eq_false plain.1]
      rfl

theorem has_filter_location (metadata : Metadata) (location : isLocationMetadata key = true) :
    Metadata.has (metadata.filter fun entry => !isLocationMetadata entry.1) key = false := by
  rw [Metadata.has.eq_def, List.any_eq_false]
  intro entry mem same
  have kept := (List.mem_filter.mp mem).2
  rw [of_decide_eq_true same, location] at kept
  cases kept

theorem has_filter_apart (metadata : Metadata) (apart : isLocationMetadata key = false) :
    Metadata.has (metadata.filter fun entry => !isLocationMetadata entry.1) key = metadata.has key := by
  rw [Metadata.has.eq_def, Metadata.has.eq_def, List.any_filter]
  congr 1
  funext entry
  by_cases same : entry.1 = key
  · rw [same, apart]
    rfl
  · rw [decide_eq_false same, Bool.and_false]

end Merge

section Resolution

variable (outer inner : Option Metadata) (source elapsed : Bytes)

/-- The stamp is there once, and says what the reader says. -/
theorem merge_provenance : (mergeResolutionMetadata outer inner source elapsed).filter
    (fun entry => isProvenance entry.1) =
      [(Keys.locationSource, source), (Keys.locationFetchMs, elapsed)] := by
  rw [mergeResolutionMetadata]
  dsimp only [List.foldl_cons, List.foldl_nil]
  generalize overlay _ _ = merged
  have none : ((merged.remove Keys.locationSource).remove Keys.locationFetchMs).filter
      (fun entry => isProvenance entry.1) = [] := by
    rw [List.filter_eq_nil_iff]
    intro entry mem provenance
    rw [Metadata.remove, List.mem_filter, Metadata.remove, List.mem_filter] at mem
    obtain ⟨⟨-, source⟩, fetch⟩ := mem
    rw [isProvenance, Bool.or_eq_true, decide_eq_true_eq, decide_eq_true_eq] at provenance
    rcases provenance with same | same
    · exact of_decide_eq_true source same
    · exact of_decide_eq_true fetch same
  rw [List.filter_append, none]
  rfl

/-- Nothing is left of the pointer. -/
theorem merge_unlocated {key : Bytes} (pointer : key = Keys.location ∨ key = Keys.locationSha256) :
    (mergeResolutionMetadata outer inner source elapsed).has key = false := by
  have location : isLocationMetadata key = true := by
    rcases pointer with rfl | rfl
    · rfl
    · rfl
  have apart : Keys.locationSource ≠ key ∧ Keys.locationFetchMs ≠ key := by
    rcases pointer with rfl | rfl
    · decide
    · decide
  rw [mergeResolutionMetadata]
  dsimp only [List.foldl_cons, List.foldl_nil]
  rw [Metadata.has_append, Metadata.has_remove, Metadata.has_remove,
    has_overlay_location location (has_filter_location _ location), Metadata.has_cons,
    Metadata.has_cons, decide_eq_false apart.1, decide_eq_false apart.2, Bool.and_false,
    Bool.and_false]
  rfl

/-- Everything else: the entries of the pointer that the fetched batch does not have, and those of
the fetched batch, in their order; as far as it does not repeat a key. -/
theorem merge_others {chosen : Bytes → Bool} (apart : Apart chosen)
    (once : ∀ key, chosen key = true → OnceIn (inner.getD []) key) :
    (mergeResolutionMetadata outer inner source elapsed).filter (fun entry => chosen entry.1) =
      ((outer.getD []).filter (fun entry => !(inner.getD []).has entry.1) ++ inner.getD []).filter
        fun entry => chosen entry.1 := by
  have unchosen {key : Bytes} (location : isLocationMetadata key = true) : chosen key = false := by
    cases picked : chosen key with
    | false => rfl
    | true =>
        rw [apart key picked] at location
        cases location
  have onceKept : ∀ key, chosen key = true →
      OnceIn ((inner.getD []).filter fun entry => !isLocationMetadata entry.1) key := by
    intro key picked
    exact le_trans (List.Sublist.length_le (List.filter_sublist.filter _)) (once key picked)
  have stamps : [(Keys.locationSource, source), (Keys.locationFetchMs, elapsed)].filter
      (fun entry => chosen entry.1) = [] := by
    rw [List.filter_cons_of_neg (by rw [unchosen rfl]; decide),
      List.filter_cons_of_neg (by rw [unchosen rfl]; decide), List.filter_nil]
  rw [mergeResolutionMetadata]
  dsimp only [List.foldl_cons, List.foldl_nil]
  rw [List.filter_append, stamps, List.append_nil, remove_filter (unchosen rfl),
    remove_filter (unchosen rfl), overlay_filter, foldl_replace onceKept, List.filter_append,
    filter_location apart, List.filter_append]
  congr 1
  rw [List.filter_filter, List.filter_filter, List.filter_filter]
  congr 1
  funext entry
  cases picked : chosen entry.1 with
  | false => rfl
  | true =>
      have plain := apart entry.1 picked
      rw [has_filter_apart _ plain, plain, Bool.not_false, Bool.and_true]

end Resolution

end VgiRpc.External
