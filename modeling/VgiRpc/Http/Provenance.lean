import VgiRpc.External.Resolution

/-!
# Metadata of stream inputs

What a stream turn hands to `process` is the metadata of its input without the tokens of the turn.
An input that came through an external pointer carries a stamp of where it came from, which
`handle_rpc` keeps aside while the pointer is replaced by what it points at.
-/

namespace VgiRpc.Http

open VgiRpc.Cpp VgiRpc.Wire VgiRpc.External

/-! ## The code -/

/-- The tokens that address a turn, and the cancel marker. -/
def isTurnToken (key : Bytes) : Bool :=
  key = Keys.stateB64 || key = Keys.callStateB64 || key = Keys.cancel

/-- `turn_input_metadata`: the stamp replaces whatever the payload says. -/
def turnInputMetadata (request provenance : Option Metadata) : Option Metadata :=
  let md := (request.getD []).filter fun entry => !isTurnToken entry.1
  let md := (provenance.getD []).foldl (fun md entry => Metadata.replace md entry.1 entry.2) md
  if 0 < md.length then some md else none

/-- `ExternalStorage`, the reader of an IPC stream, and the digest. -/
structure Storage (χ β : Type) where
  fetch : Bytes → Except Bytes Bytes
  readIpcStream : Bytes → Except Bytes (Option (List (AnnotatedBatch χ β)))
  sha256Hex : Bytes → Bytes

section Input

variable {χ β : Type}

/-- `resolve_request_pointer`; the batches behind the first one are not read. -/
def resolveRequestPointer (storage : Option (Storage χ β)) (first : AnnotatedBatch χ β) :
    Except Bytes (Option (AnnotatedBatch χ β)) :=
  match storage with
  | none => .ok none
  | some storage =>
      let url := first.entries.value Keys.location
      if url = [] then
        .ok none
      else
        match storage.fetch url with
        | .error error => .error error
        | .ok fetched =>
            let expected := first.entries.value Keys.locationSha256
            if expected ≠ [] ∧ storage.sha256Hex fetched ≠ expected then
              .error (ascii "external location checksum mismatch: expected " ++ expected ++
                ascii ", got " ++ storage.sha256Hex fetched)
            else
              match storage.readIpcStream fetched with
              | .error error => .error error
              | .ok none | .ok (some []) =>
                  .error (ascii "externalized request resolved to an empty stream")
              | .ok (some (batch :: _)) =>
                  if batch.entries.has Keys.location then
                    .error (ascii "externalized request redirects to another location")
                  else
                    .ok (some batch)

/-- The first stage of `handle_rpc`: the batch that is dispatched, and the reader's stamp;
`fetchMs` is the printed time. -/
def resolveInput (storage : Option (Storage χ β)) (first : AnnotatedBatch χ β) (fetchMs : Bytes) :
    Except Bytes (AnnotatedBatch χ β × Option Metadata) :=
  match resolveRequestPointer storage first with
  | .error error => .error (ascii "Could not resolve externalized request: " ++ error)
  | .ok none => .ok (first, none)
  | .ok (some batch) =>
      .ok (batch, some [(Keys.locationSource, first.entries.value Keys.location),
        (Keys.locationFetchMs, fetchMs)])

end Input

/-- The turns that have an input: the first tick of a producer, which rides on `/init`, an exchange
turn, and a later tick. -/
inductive InputTurn where
  | init
  | exchange
  | tick
  deriving DecidableEq, Repr

/-- The metadata that `process` sees; `/init` passes no stamp on. -/
def processMetadata (turn : InputTurn) (request provenance : Option Metadata) : Metadata :=
  match turn with
  | .init => (turnInputMetadata request none).getD []
  | .exchange | .tick => (turnInputMetadata request provenance).getD []

/-! ## What `process` sees -/

/-- The metadata of an input, and what is left of it: no token; the reader's stamp, once, if there
is one, and what the request says itself if there is none; and every other entry in its place. -/
structure SeenMetadata (effective : Metadata) (stamp : Option Metadata) (seen : Metadata) : Prop where
  tokenless : ∀ key, isTurnToken key = true → seen.has key = false
  stamped : ∀ entries, stamp = some entries →
    seen.filter (fun entry => isProvenance entry.1) = entries
  unstamped : stamp = none → seen.filter (fun entry => isProvenance entry.1) =
    effective.filter fun entry => isProvenance entry.1
  others : seen.filter (fun entry => !isProvenance entry.1) =
    effective.filter fun entry => !isProvenance entry.1 && !isTurnToken entry.1

section Seen

variable {effective : Metadata}

theorem turnInputMetadata_getD (request provenance : Option Metadata) :
    (turnInputMetadata request provenance).getD [] =
      (provenance.getD []).foldl (fun md entry => Metadata.replace md entry.1 entry.2)
        ((request.getD []).filter fun entry => !isTurnToken entry.1) := by
  rw [turnInputMetadata]
  generalize (provenance.getD []).foldl _ _ = md
  split
  · rfl
  · next empty =>
      rw [Nat.not_lt, Nat.le_zero, List.length_eq_zero_iff] at empty
      rw [empty]
      rfl

/-- Without a stamp an input loses its tokens only. -/
theorem seen_unstamped (request : Option Metadata) :
    SeenMetadata (request.getD []) none ((turnInputMetadata request none).getD []) := by
  rw [turnInputMetadata_getD]
  change SeenMetadata (request.getD []) none ((request.getD []).filter fun entry => !isTurnToken entry.1)
  generalize request.getD [] = effective
  constructor
  · intro key token
    rw [Metadata.has.eq_def, List.any_eq_false]
    intro entry mem same
    have kept := (List.mem_filter.mp mem).2
    rw [of_decide_eq_true same, token] at kept
    cases kept
  · intro entries none
    cases none
  · intro _
    rw [List.filter_filter]
    congr 1
    funext entry
    cases provenance : isProvenance entry.1 with
    | false => rfl
    | true =>
        rw [isProvenance, Bool.or_eq_true, decide_eq_true_eq, decide_eq_true_eq] at provenance
        rcases provenance with same | same
        · rw [same]
          rfl
        · rw [same]
          rfl
  · rw [List.filter_filter]

/-- Replacing the two keys one after the other. -/
theorem Metadata.stamp_eq (md : Metadata) (url fetchMs : Bytes) :
    Metadata.replace (Metadata.replace md Keys.locationSource url) Keys.locationFetchMs fetchMs =
      (md.filter fun entry => !isProvenance entry.1) ++
        [(Keys.locationSource, url), (Keys.locationFetchMs, fetchMs)] := by
  have kept : (md.remove Keys.locationSource).remove Keys.locationFetchMs =
      md.filter fun entry => !isProvenance entry.1 := by
    rw [Metadata.remove, Metadata.remove, List.filter_filter]
    congr 1
    funext entry
    rw [isProvenance, Bool.not_or, decide_not, decide_not, Bool.and_comm]
  have source : Metadata.remove [(Keys.locationSource, url)] Keys.locationFetchMs =
      [(Keys.locationSource, url)] := rfl
  have removes : Metadata.remove (md.remove Keys.locationSource ++ [(Keys.locationSource, url)])
      Keys.locationFetchMs = (md.remove Keys.locationSource).remove Keys.locationFetchMs ++
        Metadata.remove [(Keys.locationSource, url)] Keys.locationFetchMs := List.filter_append ..
  rw [Metadata.replace, Metadata.replace, removes, kept, source, List.append_assoc]
  rfl

/-- With a stamp it loses whatever it says about its provenance, too. -/
theorem seen_stamped (request : Option Metadata) (url fetchMs : Bytes) :
    SeenMetadata (request.getD [])
      (some [(Keys.locationSource, url), (Keys.locationFetchMs, fetchMs)])
      ((turnInputMetadata request
        (some [(Keys.locationSource, url), (Keys.locationFetchMs, fetchMs)])).getD []) := by
  have plain := seen_unstamped request
  rw [turnInputMetadata_getD] at plain ⊢
  change SeenMetadata (request.getD []) none ((request.getD []).filter fun entry => !isTurnToken entry.1)
    at plain
  dsimp only [Option.getD_some, List.foldl_cons, List.foldl_nil]
  generalize (request.getD []).filter (fun entry => !isTurnToken entry.1) = kept at plain ⊢
  rw [Metadata.stamp_eq]
  have stampOnly : [(Keys.locationSource, url), (Keys.locationFetchMs, fetchMs)].filter
      (fun entry => isProvenance entry.1) =
        [(Keys.locationSource, url), (Keys.locationFetchMs, fetchMs)] := rfl
  have stampNone : [(Keys.locationSource, url), (Keys.locationFetchMs, fetchMs)].filter
      (fun entry => !isProvenance entry.1) = [] := rfl
  constructor
  · intro key token
    have absent := plain.tokenless key token
    have apart : Keys.locationSource ≠ key ∧ Keys.locationFetchMs ≠ key := by
      rw [isTurnToken, Bool.or_eq_true, Bool.or_eq_true, decide_eq_true_eq, decide_eq_true_eq,
        decide_eq_true_eq] at token
      rcases token with (rfl | rfl) | rfl <;> decide
    rw [Metadata.has.eq_def, List.any_eq_false] at absent
    rw [Metadata.has_append, Metadata.has_cons, Metadata.has_cons, decide_eq_false apart.1,
      decide_eq_false apart.2, Metadata.has_nil, Bool.or_false, Bool.or_false, Bool.or_false,
      Metadata.has.eq_def, List.any_eq_false]
    intro entry mem
    exact absent entry (List.mem_of_mem_filter mem)
  · intro entries same
    have none : (kept.filter fun entry => !isProvenance entry.1).filter
        (fun entry => isProvenance entry.1) = [] := by
      rw [List.filter_eq_nil_iff]
      intro entry mem provenance
      have other := (List.mem_filter.mp mem).2
      rw [provenance] at other
      cases other
    rw [List.filter_append, none, stampOnly, List.nil_append]
    exact Option.some.inj same
  · intro none
    cases none
  · rw [List.filter_append, List.filter_filter, stampNone, List.append_nil, ← plain.others]
    congr 1
    funext entry
    exact Bool.and_self _

end Seen

/-! ## Provenance -/

/-- The metadata of a batch that was fetched through a pointer, on the client: the reader's stamp,
once; nothing of the pointer; and of every other key that the fetched batch does not repeat, the
entries of the fetched batch if it has any, and those of the pointer if not. -/
structure ResolvedMetadata (outer inner : Metadata) (source elapsed : Bytes) (merged : Metadata) :
    Prop where
  stamped : merged.filter (fun entry => isProvenance entry.1) =
    [(Keys.locationSource, source), (Keys.locationFetchMs, elapsed)]
  unlocated : merged.has Keys.location = false ∧ merged.has Keys.locationSha256 = false
  others : ∀ chosen, Apart chosen → (∀ key, chosen key = true → OnceIn inner key) →
    merged.filter (fun entry => chosen entry.1) =
      (outer.filter (fun entry => !inner.has entry.1) ++ inner).filter fun entry => chosen entry.1

/-- A reader's stamp is authentic.  Over HTTP a turn behind `/init`, or any turn without a pointer,
sees the reader's stamp once if its input was fetched, and what the request says if not; on the
client every resolved batch carries the reader's stamp once. -/
theorem provenance_authentic {χ β : Type} [DecidableEq χ] :
    (∀ (turn : InputTurn) (storage : Option (Storage χ β)) (first : AnnotatedBatch χ β)
      (fetchMs : Bytes) (batch : AnnotatedBatch χ β) (stamp : Option Metadata),
      resolveInput storage first fetchMs = .ok (batch, stamp) →
      (turn = .init → stamp = none) →
      (stamp = none → batch = first) ∧
      (∀ entries, stamp = some entries → entries =
        [(Keys.locationSource, first.entries.value Keys.location), (Keys.locationFetchMs, fetchMs)]) ∧
      SeenMetadata batch.entries stamp (processMetadata turn batch.customMetadata stamp)) ∧
    (∀ (resolver : Resolver χ β) (pointer resolved : AnnotatedBatch χ β)
      (logs : List (AnnotatedBatch χ β)), pointer.entries.has Keys.location = true →
      resolvePointer resolver pointer = (logs, .ok resolved) →
      ∃ payload schema batches position data,
        resolver.fetch (pointer.entries.value Keys.location)
          (pointer.entries.value Keys.locationSha256) = .ok payload ∧
        resolver.readIpcStream payload = .ok (some (schema, batches), position) ∧
        scanPayload batches = (logs, .ok [data]) ∧
        ResolvedMetadata pointer.entries data.entries (pointer.entries.value Keys.location)
          resolver.elapsed resolved.entries) := by
  constructor
  · intro turn storage first fetchMs batch stamp resolves early
    rw [resolveInput.eq_def] at resolves
    split at resolves
    · cases resolves
    · obtain ⟨rfl, rfl⟩ := Prod.mk.inj (Except.ok.inj resolves)
      refine ⟨fun _ => rfl, nofun, ?_⟩
      cases turn with
      | init => exact seen_unstamped _
      | exchange => exact seen_unstamped _
      | tick => exact seen_unstamped _
    · obtain ⟨rfl, rfl⟩ := Prod.mk.inj (Except.ok.inj resolves)
      refine ⟨nofun, fun entries same => (Option.some.inj same).symm, ?_⟩
      cases turn with
      | init => cases early rfl
      | exchange => exact seen_stamped _ _ _
      | tick => exact seen_stamped _ _ _
  · intro resolver pointer resolved logs located resolves
    obtain ⟨payload, schema, batches, position, data, fetched, reads, scans, rfl⟩ :=
      resolvePointer_ok located resolves
    refine ⟨payload, schema, batches, position, data, fetched, reads, scans, ?_, ⟨?_, ?_⟩, ?_⟩
    · exact merge_provenance _ _ _ _
    · exact merge_unlocated _ _ _ _ (.inl rfl)
    · exact merge_unlocated _ _ _ _ (.inr rfl)
    · intro chosen apart once
      exact merge_others _ _ _ _ apart once

/-- A batch that lies about where it came from. -/
def liar : AnnotatedBatch Unit Unit :=
  ⟨(), 1, (), some [(Keys.locationSource, ascii "https://trusted.example/")]⟩

/-- A pointer. -/
def pointer : AnnotatedBatch Unit Unit :=
  ⟨(), 0, (), some [(Keys.location, ascii "https://store.example/")]⟩

/-- Both readers find the liar behind the pointer, and stamp it. -/
theorem liar_stamped :
    SeenMetadata liar.entries
      (some [(Keys.locationSource, ascii "https://store.example/"),
        (Keys.locationFetchMs, ascii "0.1")])
      (processMetadata .exchange liar.customMetadata
        (some [(Keys.locationSource, ascii "https://store.example/"),
          (Keys.locationFetchMs, ascii "0.1")])) ∧
    ∃ payload schema batches position data,
      Except.ok [] = (.ok payload : Except ResolutionError Bytes) ∧
      Except.ok (some ((), [liar]), 0) = (.ok (some (schema, batches), position) :
        Except ResolutionError (Option (Unit × List (AnnotatedBatch Unit Unit)) × Nat)) ∧
      scanPayload batches = ([], .ok [data]) ∧
      ResolvedMetadata pointer.entries data.entries (ascii "https://store.example/") (ascii "0.1")
        [(Keys.locationSource, ascii "https://store.example/"),
          (Keys.locationFetchMs, ascii "0.1")] := by
  constructor
  · exact ((@provenance_authentic Unit Unit _).1 .exchange
      (some ⟨fun _ => .ok [], fun _ => .ok (some [liar]), fun digest => digest⟩) pointer
      (ascii "0.1") liar _ rfl nofun).2.2
  · exact (@provenance_authentic Unit Unit _).2
      ⟨fun _ _ => .ok [], fun _ => .ok (some ((), [liar]), 0), ascii "0.1"⟩ pointer
      ⟨(), 1, (), some [(Keys.locationSource, ascii "https://store.example/"),
        (Keys.locationFetchMs, ascii "0.1")]⟩ [] rfl rfl

/-- Inline, what a request says about its provenance reaches the handler. -/
theorem liar_delivered :
    resolveInput (none : Option (Storage Unit Unit)) liar [] = .ok (liar, none) ∧
      (processMetadata .exchange liar.customMetadata none).has Keys.locationSource = true := by
  constructor
  · rfl
  · decide

end VgiRpc.Http
