import VgiRpc.External.Resolution
import VgiRpc.Raw.Dispatch
import VgiRpc.Wire.Owned

/-!
# The metadata that the clients send

`HttpClient` strips what a caller may not set with a longer list of keys than
`RpcClient`, and replaces with a function that deletes one entry of a key only.
What either of them sends is the caller's metadata under the client's own entries.
-/

namespace VgiRpc.Http

open VgiRpc.Cpp VgiRpc.Wire VgiRpc.External
open VgiRpc.Raw (ClientOptions)

/-! ## The builders -/

/-- `replace_metadata` of the HTTP client: the first entry of the key goes, the new one is
the last. -/
def replaceFirst (metadata : Metadata) (key value : Bytes) : Metadata :=
  metadata.eraseP (fun entry => entry.1 = key) ++ [(key, value)]

/-- The keys that `sanitized_metadata` deletes. -/
def sanitizedKeys : List Bytes :=
  [Keys.method, Keys.requestVersion, Keys.protocolVersion, Keys.stateB64, Keys.requestId,
    Keys.callStateB64, Keys.streamState, Keys.cancel, Keys.location, Keys.locationSha256,
    Keys.locationSource, Keys.locationFetchMs, Keys.shmOffset, Keys.shmLength, Keys.shmSource,
    Keys.shmSegmentName, Keys.shmSegmentSize, Keys.transportShm]

/-- `sanitized_metadata`. -/
def sanitizedMetadata (original : Option Metadata) : Metadata :=
  sanitizedKeys.foldl Metadata.remove (original.getD [])

/-- `request_metadata` of the HTTP client; nothing is sent where a protocol is missing. -/
def requestMetadata (original : Option Metadata)
    (method protocol protocolVersion requestId : Bytes) : Option Metadata :=
  if protocol = [] ∧ Raw.isReservedMethod method = false then
    none
  else
    let callerVersion :=
      if protocolVersion = [] then (original.getD []).value Keys.protocolVersion else []
    let sanitized := sanitizedMetadata original
    let restored :=
      if callerVersion = [] then sanitized
      else replaceFirst sanitized Keys.protocolVersion callerVersion
    let named := replaceFirst restored Keys.method method
    let identified :=
      replaceFirst (replaceFirst named Keys.requestVersion (ascii "1")) Keys.requestId requestId
    let routed :=
      if Raw.isReservedMethod method then identified
      else replaceFirst identified Keys.protocol protocol
    if protocolVersion = [] then some routed
    else some (replaceFirst routed Keys.protocolVersion protocolVersion)

/-- What a stream session of the client holds between two turns. -/
structure Continuation where
  cursor : Bytes
  callState : Bytes

namespace Continuation

variable (session : Continuation)

/-- `continuation_metadata`. -/
def continuationMetadata (requestId : Bytes) (cancel : Bool) : Metadata :=
  let identified := replaceFirst [] Keys.requestId requestId
  let located := replaceFirst identified Keys.stateB64 session.cursor
  let held :=
    if session.callState = [] then located
    else replaceFirst located Keys.callStateB64 session.callState
  if cancel then replaceFirst held Keys.cancel (ascii "1") else held

/-- The metadata of an input in `exchange`. -/
def exchangeMetadata (input : Option Metadata) (requestId : Bytes) : Metadata :=
  let identified := replaceFirst (sanitizedMetadata input) Keys.requestId requestId
  let located := replaceFirst identified Keys.stateB64 session.cursor
  if session.callState = [] then located
  else replaceFirst located Keys.callStateB64 session.callState

/-- The metadata of a tick: what the caller says for this turn is merged in. -/
def tickMetadata (turn : Option Metadata) (requestId : Bytes) : Metadata :=
  match turn with
  | none => session.continuationMetadata requestId false
  | some _ => (sanitizedMetadata turn).foldl
      (fun metadata entry => replaceFirst metadata entry.1 entry.2)
      (session.continuationMetadata requestId false)

end Continuation

/-! ## Replacing where a key does not repeat -/

section Replacing

variable {metadata : Metadata} {key value : Bytes}

theorem eraseP_of_absent (absent : metadata.has key = false) :
    metadata.eraseP (fun entry => entry.1 = key) = metadata := by
  apply List.eraseP_of_forall_not
  intro entry mem
  rw [Metadata.has.eq_def, List.any_eq_false] at absent
  exact absent entry mem

theorem remove_of_absent (absent : metadata.has key = false) : metadata.remove key = metadata := by
  rw [Metadata.remove, List.filter_eq_self]
  intro entry mem
  rw [Metadata.has.eq_def, List.any_eq_false] at absent
  simpa using absent entry mem

/-- Deleting the first entry deletes them all, where there is one at most. -/
theorem replaceFirst_eq (once : OnceIn metadata key) :
    replaceFirst metadata key value = metadata.replace key value := by
  rw [replaceFirst, Metadata.replace]
  congr 1
  induction metadata with
  | nil => rfl
  | cons first rest inductionHypothesis =>
      by_cases same : first.1 = key
      · rw [OnceIn, List.filter_cons_of_pos (by simpa using same), List.length_cons] at once
        have absent : Metadata.has rest key = false := by
          rw [Metadata.has.eq_def, List.any_eq_false]
          have empty := List.length_eq_zero_iff.mp (Nat.le_zero.mp (Nat.le_of_succ_le_succ once))
          exact List.filter_eq_nil_iff.mp empty
        rw [List.eraseP_cons_of_pos (by simpa using same), Metadata.remove,
          List.filter_cons_of_neg (by simpa using same), ← Metadata.remove, remove_of_absent absent]
      · rw [OnceIn, List.filter_cons_of_neg (by simpa using same)] at once
        rw [List.eraseP_cons_of_neg (by simpa using same), inductionHypothesis once,
          Metadata.remove, Metadata.remove, List.filter_cons_of_pos (by simpa using same)]

theorem onceIn_of_absent (absent : metadata.has key = false) : OnceIn metadata key := by
  rw [Metadata.has.eq_def, List.any_eq_false] at absent
  rw [OnceIn, List.filter_eq_nil_iff.mpr absent]
  exact Nat.zero_le 1

end Replacing

section Laying

variable {controls : List Bytes} {owned caller sent : Metadata} {key value : Bytes}

/-- The replacement of the HTTP client lays an entry over the rest as well, unless a key that
it does not strip repeats. -/
theorem owns_replaceFirst (owns : Owns controls owned caller sent) (fresh : key ∉ owned.keys)
    (once : key ∉ controls → OnceIn caller key) :
    Owns controls (owned ++ [(key, value)]) caller (replaceFirst sent key value) := by
  have onceSent : OnceIn sent key := by
    by_cases control : key ∈ controls
    · exact onceIn_of_absent (owns.absent key control fresh)
    · rw [OnceIn, owns.filter_plain control fresh]
      exact once control
  rw [replaceFirst_eq onceSent]
  exact owns.replace fresh

theorem owns_foldl {entries : Metadata} (owns : Owns controls owned caller sent)
    (distinct : (owned ++ entries).keys.Nodup)
    (once : ∀ key ∈ entries.keys, key ∉ controls → OnceIn caller key) :
    Owns controls (owned ++ entries) caller
      (entries.foldl (fun metadata entry => replaceFirst metadata entry.1 entry.2) sent) := by
  induction entries generalizing owned sent with
  | nil => rw [List.append_nil]; exact owns
  | cons first rest inductionHypothesis =>
      obtain ⟨fresh, others⟩ := Owns.fresh_of_nodup distinct
      rw [Metadata.keys, List.map_cons, List.forall_mem_cons] at once
      rw [List.foldl_cons, ← List.singleton_append, ← List.append_assoc]
      exact inductionHypothesis (owns_replaceFirst owns fresh once.1) others once.2

theorem stripped_owns (extras : Metadata) :
    Owns transportControls [] extras (stripTransportControls extras) := by
  rw [stripTransportControls]
  exact Owns.stripped transportControls extras

theorem sanitized_owns (original : Option Metadata) :
    Owns sanitizedKeys [] (original.getD []) (sanitizedMetadata original) :=
  Owns.stripped sanitizedKeys (original.getD [])

end Laying

/-! ## What is laid over the caller's metadata -/

/-- The entries of a raw request. -/
def rawEntries (options : ClientOptions) (method requestId : Bytes) : Metadata :=
  [(Keys.method, method)] ++
    (if Raw.isReservedMethod method then [] else [(Keys.protocol, options.protocol)]) ++
    [(Keys.requestVersion, ascii "1"), (Keys.requestId, requestId)] ++
    (if options.protocolVersion = [] then []
      else [(Keys.protocolVersion, options.protocolVersion)]) ++
    match options.segment with
    | none => []
    | some (name, size) =>
        [(Keys.shmSegmentName, name.dropWhile (· = 0x2f)), (Keys.shmSegmentSize, size)]

/-- The entries of a request of the HTTP client; a version that is not configured is the one of
the caller. -/
def requestEntries (original : Option Metadata)
    (method protocol protocolVersion requestId : Bytes) : Metadata :=
  (if protocolVersion = [] ∧ (original.getD []).value Keys.protocolVersion ≠ [] then
      [(Keys.protocolVersion, (original.getD []).value Keys.protocolVersion)]
    else []) ++
    [(Keys.method, method), (Keys.requestVersion, ascii "1"), (Keys.requestId, requestId)] ++
    (if Raw.isReservedMethod method then [] else [(Keys.protocol, protocol)]) ++
    if protocolVersion = [] then [] else [(Keys.protocolVersion, protocolVersion)]

/-- The entries of a turn. -/
def turnEntries (session : Continuation) (requestId : Bytes) (cancel : Bool) : Metadata :=
  [(Keys.requestId, requestId), (Keys.stateB64, session.cursor)] ++
    (if session.callState = [] then [] else [(Keys.callStateB64, session.callState)]) ++
    if cancel then [(Keys.cancel, ascii "1")] else []

theorem keys_optional (absent : Prop) [Decidable absent] (key value : Bytes) :
    List.Sublist (Metadata.keys (if absent then [] else [(key, value)])) [key] := by
  split
  · exact List.nil_sublist [key]
  · exact List.Sublist.refl [key]

theorem rawEntries_distinct (options : ClientOptions) (method requestId : Bytes) :
    (rawEntries options method requestId).keys.Nodup := by
  have all : ([Keys.method] ++ [Keys.protocol] ++ [Keys.requestVersion, Keys.requestId] ++
      [Keys.protocolVersion] ++ [Keys.shmSegmentName, Keys.shmSegmentSize]).Nodup := by decide
  refine all.sublist ?_
  rw [rawEntries, Metadata.keys, List.map_append, List.map_append, List.map_append, List.map_append]
  refine ((((List.Sublist.refl _).append (keys_optional _ _ _)).append (List.Sublist.refl _)).append
    (keys_optional _ _ _)).append ?_
  cases options.segment with
  | none => exact List.nil_sublist _
  | some segment => exact List.Sublist.refl _

theorem requestEntries_distinct (original : Option Metadata)
    (method protocol protocolVersion requestId : Bytes) :
    (requestEntries original method protocol protocolVersion requestId).keys.Nodup := by
  have all : ([Keys.method, Keys.requestVersion, Keys.requestId] ++ [Keys.protocol] ++
      [Keys.protocolVersion]).Nodup := by decide
  have restored : ([Keys.protocolVersion] ++ [Keys.method, Keys.requestVersion, Keys.requestId] ++
      [Keys.protocol]).Nodup := by decide
  rw [requestEntries, Metadata.keys, List.map_append, List.map_append, List.map_append]
  by_cases configured : protocolVersion = []
  · rw [if_pos configured, List.map_nil, List.append_nil]
    refine restored.sublist ((List.Sublist.append ?_ (List.Sublist.refl _)).append
      (keys_optional _ _ _))
    split
    · exact List.Sublist.refl _
    · exact List.nil_sublist _
  · rw [if_neg (fun unversioned => configured unversioned.1), if_neg configured, List.map_nil,
      List.nil_append]
    exact all.sublist (((List.Sublist.refl _).append (keys_optional _ _ _)).append
      (List.Sublist.refl _))

theorem turnEntries_distinct (session : Continuation) (requestId : Bytes) (cancel : Bool) :
    (turnEntries session requestId cancel).keys.Nodup := by
  have all : ([Keys.requestId, Keys.stateB64] ++ [Keys.callStateB64] ++ [Keys.cancel]).Nodup := by
    decide
  refine all.sublist ?_
  rw [turnEntries, Metadata.keys, List.map_append, List.map_append]
  refine ((List.Sublist.refl _).append (keys_optional _ _ _)).append ?_
  cases cancel with
  | true => exact List.Sublist.refl _
  | false => exact List.nil_sublist _

/-! ## Each builder lays its entries over the caller's -/

theorem foldl_optional (lay : Metadata → Bytes × Bytes → Metadata) (absent : Prop)
    [Decidable absent] (entry : Bytes × Bytes) (metadata : Metadata) :
    List.foldl lay metadata (if absent then [] else [entry]) =
      if absent then metadata else lay metadata entry := by
  split
  · rfl
  · rfl

theorem raw_sent {options : ClientOptions} {method requestId : Bytes} {extras sent : Metadata}
    (sends : Raw.requestMetadata options method requestId extras = some sent) :
    sent = (rawEntries options method requestId).foldl
      (fun metadata entry => metadata.replace entry.1 entry.2) (stripTransportControls extras) := by
  rw [Raw.requestMetadata] at sends
  split at sends
  · cases sends
  · split at sends
    · cases sends
    · rw [rawEntries, List.foldl_append, List.foldl_append, List.foldl_append, List.foldl_append,
        foldl_optional, foldl_optional, List.foldl_cons, List.foldl_cons, List.foldl_cons,
        List.foldl_nil, List.foldl_nil]
      cases segment : options.segment with
      | none =>
          rw [segment] at sends
          exact (Option.some.inj sends).symm
      | some named =>
          rw [segment] at sends
          exact (Option.some.inj sends).symm

theorem request_sent {original : Option Metadata}
    {method protocol protocolVersion requestId : Bytes} {sent : Metadata}
    (sends : requestMetadata original method protocol protocolVersion requestId = some sent) :
    sent = (requestEntries original method protocol protocolVersion requestId).foldl
      (fun metadata entry => replaceFirst metadata entry.1 entry.2) (sanitizedMetadata original) := by
  rw [requestMetadata] at sends
  split at sends
  · cases sends
  · rw [requestEntries, List.foldl_append, List.foldl_append, List.foldl_append, foldl_optional,
      foldl_optional, List.foldl_cons, List.foldl_cons, List.foldl_cons, List.foldl_nil]
    generalize (original.getD []).value Keys.protocolVersion = callerVersion at sends ⊢
    by_cases unversioned : protocolVersion = []
    · rw [if_pos unversioned] at sends
      rw [if_pos unversioned]
      by_cases absent : callerVersion = []
      · have unrestored : ¬(protocolVersion = [] ∧ callerVersion ≠ []) :=
          fun restored => restored.2 absent
        rw [if_neg unrestored, List.foldl_nil]
        rw [if_pos unversioned, if_pos absent] at sends
        exact (Option.some.inj sends).symm
      · have restored : protocolVersion = [] ∧ callerVersion ≠ [] := ⟨unversioned, absent⟩
        rw [if_pos restored, List.foldl_cons, List.foldl_nil]
        rw [if_pos unversioned, if_neg absent] at sends
        exact (Option.some.inj sends).symm
    · have unrestored : ¬(protocolVersion = [] ∧ callerVersion ≠ []) :=
        fun restored => unversioned restored.1
      rw [if_neg unversioned, if_neg unversioned] at sends
      rw [if_neg unversioned, if_neg unrestored, List.foldl_nil]
      exact (Option.some.inj sends).symm

theorem continuation_sent (session : Continuation) (requestId : Bytes) (cancel : Bool) :
    session.continuationMetadata requestId cancel = (turnEntries session requestId cancel).foldl
      (fun metadata entry => replaceFirst metadata entry.1 entry.2) [] := by
  rw [turnEntries, List.foldl_append, List.foldl_append, Continuation.continuationMetadata]
  by_cases absent : session.callState = []
  · rw [if_pos absent, if_pos absent]
    cases cancel <;> rfl
  · rw [if_neg absent, if_neg absent]
    cases cancel <;> rfl

theorem exchange_sent (session : Continuation) (input : Option Metadata) (requestId : Bytes) :
    session.exchangeMetadata input requestId = (turnEntries session requestId false).foldl
      (fun metadata entry => replaceFirst metadata entry.1 entry.2) (sanitizedMetadata input) := by
  rw [turnEntries, List.foldl_append, List.foldl_append, Continuation.exchangeMetadata]
  by_cases absent : session.callState = []
  · rw [if_pos absent, if_pos absent]
    rfl
  · rw [if_neg absent, if_neg absent]
    rfl

/-- Entries whose keys do not repeat and are new are appended as they are. -/
theorem foldl_replaceFirst_fresh {entries metadata : Metadata}
    (fresh : ∀ key ∈ entries.keys, metadata.has key = false) (distinct : entries.keys.Nodup) :
    entries.foldl (fun metadata entry => replaceFirst metadata entry.1 entry.2) metadata =
      metadata ++ entries := by
  induction entries generalizing metadata with
  | nil => rw [List.append_nil]; rfl
  | cons first rest inductionHypothesis =>
      rw [Metadata.keys, List.map_cons] at fresh distinct
      rw [List.forall_mem_cons] at fresh
      rw [List.nodup_cons] at distinct
      have replaced : replaceFirst metadata first.1 first.2 = metadata ++ [first] := by
        rw [replaceFirst, eraseP_of_absent fresh.1]
      rw [List.foldl_cons, replaced, inductionHypothesis _ distinct.2, List.append_assoc,
        List.singleton_append]
      intro key mem
      rw [Metadata.has_append, fresh.2 key mem, Metadata.has_cons, Bool.false_or, Metadata.has_nil,
        Bool.or_false, decide_eq_false_iff_not]
      rintro rfl
      exact distinct.1 mem

/-! ## The framework's keys win -/

section Turns

variable (session : Continuation) (requestId : Bytes)

/-- Every entry of a turn is one that a caller may not set. -/
theorem turnEntries_controls (cancel : Bool) :
    ∀ key ∈ (turnEntries session requestId cancel).keys, key ∈ sanitizedKeys := by
  have all : ∀ key ∈ [Keys.requestId, Keys.stateB64] ++ [Keys.callStateB64] ++ [Keys.cancel],
      key ∈ sanitizedKeys := by decide
  intro key mem
  apply all key
  rw [turnEntries, Metadata.keys, List.map_append, List.map_append] at mem
  refine (((List.Sublist.refl _).append (keys_optional _ _ _)).append ?_).subset mem
  cases cancel with
  | true => exact List.Sublist.refl _
  | false => exact List.nil_sublist _

theorem turn_owns (input : Option Metadata) (cancel : Bool) :
    Owns sanitizedKeys (turnEntries session requestId cancel) (input.getD [])
      ((turnEntries session requestId cancel).foldl
        (fun metadata entry => replaceFirst metadata entry.1 entry.2) (sanitizedMetadata input)) := by
  apply owns_foldl (sanitized_owns input) (turnEntries_distinct session requestId cancel)
  intro key mem plain
  exact (plain (turnEntries_controls session requestId cancel key mem)).elim

theorem continuation_owns (cancel : Bool) :
    Owns sanitizedKeys (turnEntries session requestId cancel) []
      (session.continuationMetadata requestId cancel) := by
  rw [continuation_sent]
  exact turn_owns session requestId none cancel

theorem keys_nodup {metadata : Metadata} (once : ∀ key, OnceIn metadata key) :
    metadata.keys.Nodup := by
  rw [List.nodup_iff_count_le_one]
  intro key
  refine le_trans (le_of_eq ?_) (once key)
  rw [Metadata.keys, List.count, List.countP_map, List.countP_eq_length_filter]
  congr 2
  funext entry
  exact beq_eq_decide entry.1 key

theorem sanitized_once {input : Option Metadata}
    (once : ∀ key ∉ sanitizedKeys, OnceIn (input.getD []) key) (key : Bytes) :
    OnceIn (sanitizedMetadata input) key := by
  have owns := sanitized_owns input
  by_cases control : key ∈ sanitizedKeys
  · exact onceIn_of_absent (owns.absent key control List.not_mem_nil)
  · rw [OnceIn, owns.filter_plain control List.not_mem_nil]
    exact once key control

theorem sanitized_plain {input : Option Metadata} {key : Bytes}
    (mem : key ∈ (sanitizedMetadata input).keys) : key ∉ sanitizedKeys := by
  intro control
  have absent := (sanitized_owns input).absent key control List.not_mem_nil
  rw [Metadata.has.eq_def, List.any_eq_false] at absent
  obtain ⟨entry, entryMem, rfl⟩ := List.mem_map.mp mem
  exact absent entry entryMem (decide_eq_true rfl)

theorem continuation_plain {key : Bytes} (cancel : Bool) (plain : key ∉ sanitizedKeys) :
    (session.continuationMetadata requestId cancel).has key = false := by
  have empty := (continuation_owns session requestId cancel).filter_plain plain
    fun owned => plain (turnEntries_controls session requestId cancel key owned)
  rw [Metadata.has.eq_def, List.any_eq_false]
  exact List.filter_eq_nil_iff.mp empty

/-- A tick is the continuation, and then what the caller says for this turn. -/
theorem tick_sent {turn : Option Metadata}
    (once : ∀ key ∉ sanitizedKeys, OnceIn (turn.getD []) key) :
    session.tickMetadata turn requestId =
      session.continuationMetadata requestId false ++ sanitizedMetadata turn := by
  cases turn with
  | none => exact (List.append_nil _).symm
  | some turn =>
      apply foldl_replaceFirst_fresh
      · intro key mem
        exact continuation_plain session requestId false (sanitized_plain mem)
      · exact keys_nodup (sanitized_once once)

theorem callerEntries_turn (cancel : Bool) (metadata : Metadata) :
    callerEntries sanitizedKeys (turnEntries session requestId cancel) metadata =
      callerEntries sanitizedKeys [] metadata := by
  rw [callerEntries, callerEntries]
  congr 1
  funext entry
  rw [decide_eq_decide]
  constructor
  · rintro ⟨plain, -⟩
    exact ⟨plain, List.not_mem_nil⟩
  · rintro ⟨plain, -⟩
    exact ⟨plain, fun owned => plain (turnEntries_controls session requestId cancel _ owned)⟩

theorem tick_owns {turn : Option Metadata}
    (once : ∀ key ∉ sanitizedKeys, OnceIn (turn.getD []) key) :
    Owns sanitizedKeys (turnEntries session requestId false) (turn.getD [])
      (session.tickMetadata turn requestId) := by
  have framework := continuation_owns session requestId false
  have application := sanitized_owns turn
  rw [tick_sent session requestId once]
  exact {
    once := by
      intro entry mem
      have control := turnEntries_controls session requestId false entry.1 (List.mem_map_of_mem mem)
      have absent := application.absent entry.1 control List.not_mem_nil
      rw [Metadata.has.eq_def, List.any_eq_false] at absent
      rw [List.filter_append, framework.once entry mem, List.filter_eq_nil_iff.mpr absent,
        List.append_nil]
    absent := by
      intro key control fresh
      rw [Metadata.has_append, framework.absent key control fresh,
        application.absent key control List.not_mem_nil, Bool.or_self]
    kept := by
      rw [callerEntries_turn, callerEntries_turn, ← application.kept, callerEntries,
        List.filter_append]
      have none : callerEntries sanitizedKeys [] (session.continuationMetadata requestId false) = [] := by
        rw [← callerEntries_turn session requestId false, framework.kept]
        rfl
      rw [← callerEntries, none, List.nil_append]
      rfl }

end Turns

/-- What a client sends. -/
inductive Sending where
  | raw (options : ClientOptions) (method requestId : Bytes) (extras : Metadata)
  | request (original : Option Metadata) (method protocol protocolVersion requestId : Bytes)
  | exchange (session : Continuation) (input : Option Metadata) (requestId : Bytes)
  | tick (session : Continuation) (turn : Option Metadata) (requestId : Bytes)
  | cancel (session : Continuation) (requestId : Bytes)

namespace Sending

/-- The metadata that is sent, if anything is. -/
def sent : Sending → Option Metadata
  | raw options method requestId extras => Raw.requestMetadata options method requestId extras
  | request original method protocol protocolVersion requestId =>
      requestMetadata original method protocol protocolVersion requestId
  | exchange session input requestId => some (session.exchangeMetadata input requestId)
  | tick session turn requestId => some (session.tickMetadata turn requestId)
  | cancel session requestId => some (session.continuationMetadata requestId true)

/-- What the caller says. -/
def caller : Sending → Metadata
  | raw _ _ _ extras => extras
  | request original _ _ _ _ => original.getD []
  | exchange _ input _ => input.getD []
  | tick _ turn _ => turn.getD []
  | cancel _ _ => []

/-- The keys that a caller may not set. -/
def controls : Sending → List Bytes
  | raw _ _ _ _ => transportControls
  | _ => sanitizedKeys

/-- What the framework says. -/
def owned : Sending → Metadata
  | raw options method requestId _ => rawEntries options method requestId
  | request original method protocol protocolVersion requestId =>
      requestEntries original method protocol protocolVersion requestId
  | exchange session _ requestId => turnEntries session requestId false
  | tick session _ requestId => turnEntries session requestId false
  | cancel session requestId => turnEntries session requestId true

/-- A reserved method is called. -/
def reserved : Sending → Bool
  | raw _ method _ _ => Raw.isReservedMethod method
  | request _ method _ _ _ => Raw.isReservedMethod method
  | _ => false

/-- The caller sets no protocol for a reserved method, none twice over HTTP, and says nothing
twice for a tick. -/
def Plain : Sending → Prop
  | raw _ method _ extras =>
      Raw.isReservedMethod method = true → Metadata.has extras Keys.protocol = false
  | request original method _ _ _ =>
      OnceIn (original.getD []) Keys.protocol ∧
        (Raw.isReservedMethod method = true → (original.getD []).has Keys.protocol = false)
  | tick _ turn _ => ∀ key ∉ sanitizedKeys, OnceIn (turn.getD []) key
  | _ => True

end Sending

theorem protocol_plain : Keys.protocol ∉ transportControls ∧ Keys.protocol ∉ sanitizedKeys := by
  decide

section Requests

variable {sent : Metadata}

/-- Without an entry of the client, whether there is a protocol is up to the caller. -/
theorem has_of_plain {controls : List Bytes} {owned caller : Metadata} {key : Bytes}
    (owns : Owns controls owned caller sent) (plain : key ∉ controls) (fresh : key ∉ owned.keys)
    (absent : caller.has key = false) : sent.has key = false := by
  rw [Metadata.has.eq_def, List.any_eq_false] at absent ⊢
  apply List.filter_eq_nil_iff.mp
  rw [owns.filter_plain plain fresh]
  exact List.filter_eq_nil_iff.mpr absent

theorem raw_owns {options : ClientOptions} {method requestId : Bytes} {extras : Metadata}
    (sends : Raw.requestMetadata options method requestId extras = some sent) :
    Owns transportControls (rawEntries options method requestId) extras sent := by
  rw [raw_sent sends]
  exact (stripped_owns extras).foldl_replace (rawEntries_distinct options method requestId)

theorem request_owns {original : Option Metadata}
    {method protocol protocolVersion requestId : Bytes}
    (once : OnceIn (original.getD []) Keys.protocol)
    (sends : requestMetadata original method protocol protocolVersion requestId = some sent) :
    Owns sanitizedKeys (requestEntries original method protocol protocolVersion requestId)
      (original.getD []) sent := by
  have all : ∀ key ∈ [Keys.protocolVersion] ++ [Keys.method, Keys.requestVersion, Keys.requestId] ++
      [Keys.protocol] ++ [Keys.protocolVersion], key ∉ sanitizedKeys → key = Keys.protocol := by
    decide
  have single : ∀ key ∈ (requestEntries original method protocol protocolVersion requestId).keys,
      key ∉ sanitizedKeys → OnceIn (original.getD []) key := by
    intro key mem plain
    rw [all key ?_ plain]
    · exact once
    · rw [requestEntries, Metadata.keys, List.map_append, List.map_append, List.map_append] at mem
      refine (((List.Sublist.append ?_ (List.Sublist.refl _)).append (keys_optional _ _ _)).append
        (keys_optional _ _ _)).subset mem
      split
      · exact List.Sublist.refl _
      · exact List.nil_sublist _
  rw [request_sent sends]
  exact owns_foldl (sanitized_owns original)
    (requestEntries_distinct original method protocol protocolVersion requestId) single

theorem raw_unrouted {options : ClientOptions} {method requestId : Bytes}
    (reserved : Raw.isReservedMethod method = true) :
    Keys.protocol ∉ (rawEntries options method requestId).keys := by
  have all : Keys.protocol ∉ [Keys.method] ++ [Keys.requestVersion, Keys.requestId] ++
      [Keys.protocolVersion] ++ [Keys.shmSegmentName, Keys.shmSegmentSize] := by decide
  rw [rawEntries, if_pos reserved, List.append_nil, Metadata.keys, List.map_append,
    List.map_append, List.map_append]
  intro mem
  apply all
  refine (((List.Sublist.refl _).append (keys_optional _ _ _)).append ?_).subset mem
  cases options.segment with
  | none => exact List.nil_sublist _
  | some segment => exact List.Sublist.refl _

theorem request_unrouted {original : Option Metadata}
    {method protocol protocolVersion requestId : Bytes} (reserved : Raw.isReservedMethod method = true) :
    Keys.protocol ∉ (requestEntries original method protocol protocolVersion requestId).keys := by
  have all : Keys.protocol ∉ [Keys.protocolVersion] ++
      [Keys.method, Keys.requestVersion, Keys.requestId] ++ [Keys.protocolVersion] := by decide
  rw [requestEntries, if_pos reserved, List.append_nil, Metadata.keys, List.map_append,
    List.map_append]
  intro mem
  apply all
  refine ((List.Sublist.append ?_ (List.Sublist.refl _)).append (keys_optional _ _ _)).subset mem
  split
  · exact List.Sublist.refl _
  · exact List.nil_sublist _

end Requests

/-- The framework's entries are there once with the framework's values, which every reader
finds; a reserved method names no protocol, no control of the transport is left of the caller,
and the rest of the caller is as it was. -/
theorem framework_keys_win (sending : Sending) {sent : Metadata} (plain : sending.Plain)
    (sends : sending.sent = some sent) :
    Owns sending.controls sending.owned sending.caller sent ∧
      (∀ entry ∈ sending.owned, sent.value entry.1 = entry.2) ∧
      (sending.reserved = true → sent.has Keys.protocol = false) := by
  have both (owns : Owns sending.controls sending.owned sending.caller sent)
      (unrouted : sending.reserved = true → sent.has Keys.protocol = false) :
      Owns sending.controls sending.owned sending.caller sent ∧
        (∀ entry ∈ sending.owned, sent.value entry.1 = entry.2) ∧
        (sending.reserved = true → sent.has Keys.protocol = false) :=
    ⟨owns, fun _ mem => owns.reads mem, unrouted⟩
  cases sending with
  | raw options method requestId extras =>
      have owns := raw_owns sends
      apply both owns
      intro reserved
      exact has_of_plain owns protocol_plain.1 (raw_unrouted reserved) (plain reserved)
  | request original method protocol protocolVersion requestId =>
      have owns := request_owns plain.1 sends
      apply both owns
      intro reserved
      exact has_of_plain owns protocol_plain.2 (request_unrouted reserved) (plain.2 reserved)
  | exchange session input requestId =>
      obtain rfl := Option.some.inj sends
      apply both
      · change Owns sanitizedKeys (turnEntries session requestId false) (input.getD [])
          (session.exchangeMetadata input requestId)
        rw [exchange_sent]
        exact turn_owns session requestId input false
      · nofun
  | tick session turn requestId =>
      obtain rfl := Option.some.inj sends
      apply both
      · exact tick_owns session requestId plain
      · nofun
  | cancel session requestId =>
      obtain rfl := Option.some.inj sends
      apply both
      · exact continuation_owns session requestId true
      · nofun

/-- A request whose caller names another method twice, and another protocol. -/
def misnamed : Sending :=
  .request (some [(Keys.method, ascii "a"), (Keys.protocol, ascii "q"), (Keys.method, ascii "b"),
    (ascii "k", ascii "v")]) (ascii "m") (ascii "p") [] (ascii "1")

theorem misnamed_sent : ∃ sent, misnamed.sent = some sent ∧
    Owns sanitizedKeys misnamed.owned misnamed.caller sent ∧
    ∀ entry ∈ misnamed.owned, sent.value entry.1 = entry.2 := by
  have plain : misnamed.Plain := by
    constructor
    · rw [OnceIn]
      decide
    · intro reserved
      exact absurd reserved (by decide)
  obtain ⟨sent, sends⟩ : ∃ sent, misnamed.sent = some sent := by
    rw [misnamed, Sending.sent, requestMetadata, if_neg (by decide), if_pos rfl]
    exact ⟨_, rfl⟩
  have wins := framework_keys_win misnamed plain sends
  exact ⟨sent, sends, wins.1, wins.2.1⟩

/-- The address of a turn names the method; its metadata does not. -/
theorem exchange_names_no_method : ¬ ∀ (session : Continuation) (input : Option Metadata)
    (requestId : Bytes), ∃ method,
      (session.exchangeMetadata input requestId).filter (fun entry => entry.1 = Keys.method) =
        [(Keys.method, method)] := by
  intro named
  obtain ⟨method, single⟩ := named ⟨ascii "c", []⟩ none (ascii "1")
  have absent : ((⟨ascii "c", []⟩ : Continuation).exchangeMetadata none (ascii "1")).filter
      (fun entry => entry.1 = Keys.method) = [] := by decide
  rw [absent] at single
  cases single

end VgiRpc.Http
