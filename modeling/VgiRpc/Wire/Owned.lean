import VgiRpc.Wire.Metadata

/-!
# Keys that belong to the framework

A client sends what its caller says under entries of its own.  `Owns` states what
that means for one list of metadata: the entries of the client are there once and
are what a reader finds, the controls of the transport are gone, and the rest of
the caller is as it was.
-/

namespace VgiRpc.Wire

open VgiRpc.Cpp

/-- The keys of some entries. -/
def Metadata.keys (metadata : Metadata) : List Bytes := metadata.map Prod.fst

/-- A caller's entries that are neither a control nor laid over. -/
def callerEntries (controls : List Bytes) (owned metadata : Metadata) : Metadata :=
  metadata.filter fun entry => entry.1 ∉ controls ∧ entry.1 ∉ owned.keys

/-- `sent` is what `caller` says without the controls, under the entries `owned`. -/
structure Owns (controls : List Bytes) (owned caller sent : Metadata) : Prop where
  once : ∀ entry ∈ owned, sent.filter (fun other => other.1 = entry.1) = [entry]
  absent : ∀ key ∈ controls, key ∉ owned.keys → sent.has key = false
  kept : callerEntries controls owned sent = callerEntries controls owned caller

theorem Metadata.value_of_filter {metadata : Metadata} {key : Bytes} {entry : Bytes × Bytes}
    (single : metadata.filter (fun other => other.1 = key) = [entry]) :
    metadata.value key = entry.2 := by
  rw [Metadata.value, ← List.head?_filter, single]
  rfl

theorem foldl_remove (controls : List Bytes) (metadata : Metadata) :
    controls.foldl Metadata.remove metadata = metadata.filter fun entry => entry.1 ∉ controls := by
  induction controls generalizing metadata with
  | nil => simp
  | cons first rest inductionHypothesis =>
      rw [List.foldl_cons, inductionHypothesis, Metadata.remove, List.filter_filter]
      congr 1
      funext entry
      rw [Bool.eq_iff_iff]
      simp [and_comm]

namespace Owns

variable {controls : List Bytes} {owned caller sent : Metadata} {key value : Bytes}

/-- Whoever reads an entry of the client finds the client's value. -/
theorem reads (owns : Owns controls owned caller sent) (mem : (key, value) ∈ owned) :
    sent.value key = value :=
  Metadata.value_of_filter (owns.once (key, value) mem)

/-- Without the controls, nothing is owned yet. -/
theorem stripped (controls : List Bytes) (caller : Metadata) :
    Owns controls [] caller (controls.foldl Metadata.remove caller) where
  once := by
    intro entry mem
    cases mem
  absent := by
    intro key control _
    rw [Metadata.has_foldl_remove, decide_eq_false (not_not_intro control), Bool.false_and]
  kept := by
    rw [callerEntries, callerEntries, foldl_remove, List.filter_filter]
    congr 1
    funext entry
    rw [Bool.eq_iff_iff]
    simp
    tauto

theorem filter_replace_other {other : Bytes} (apart : other ≠ key) (sent : Metadata) :
    (sent.replace key value).filter (fun entry => entry.1 = other) =
      sent.filter fun entry => entry.1 = other := by
  rw [Metadata.replace, Metadata.remove, List.filter_append, List.filter_filter,
    List.filter_cons_of_neg (by simpa using apart.symm), List.filter_nil, List.append_nil]
  congr 1
  funext entry
  rw [Bool.eq_iff_iff]
  simp
  rintro rfl
  exact apart

theorem filter_replace_self (sent : Metadata) :
    (sent.replace key value).filter (fun entry => entry.1 = key) = [(key, value)] := by
  have gone : (sent.remove key).filter (fun entry => entry.1 = key) = [] := by
    rw [List.filter_eq_nil_iff]
    intro entry mem same
    exact of_decide_eq_true (List.mem_filter.mp mem).2 (of_decide_eq_true same)
  rw [Metadata.replace, List.filter_append, gone, List.nil_append,
    List.filter_cons_of_pos (by simp), List.filter_nil]

theorem remove_replace (sent : Metadata) : (sent.replace key value).remove key = sent.remove key := by
  have twice : (sent.remove key).remove key = sent.remove key := by
    rw [Metadata.remove, Metadata.remove, List.filter_filter]
    congr 1
    funext entry
    rw [Bool.and_self]
  rw [Metadata.replace, Metadata.remove, List.filter_append, ← Metadata.remove, twice,
    List.filter_cons_of_neg (by simp), List.filter_nil, List.append_nil]

theorem callerEntries_remove (metadata : Metadata) :
    (callerEntries controls owned metadata).remove key =
      callerEntries controls owned (metadata.remove key) :=
  List.filter_comm _ _ metadata

theorem callerEntries_append (metadata : Metadata) :
    callerEntries controls (owned ++ [(key, value)]) metadata =
      callerEntries controls owned (metadata.remove key) := by
  rw [callerEntries, callerEntries, Metadata.remove, List.filter_filter]
  congr 1
  funext entry
  rw [Bool.eq_iff_iff, Bool.and_eq_true, decide_eq_true_eq, decide_eq_true_eq, decide_eq_true_eq,
    Metadata.keys, List.map_append, List.mem_append, not_or, List.map_singleton, List.mem_singleton,
    and_assoc]
  rfl

/-- Laying one more entry over the rest. -/
theorem replace (owns : Owns controls owned caller sent) (fresh : key ∉ owned.keys) :
    Owns controls (owned ++ [(key, value)]) caller (sent.replace key value) where
  once := by
    intro entry mem
    rcases List.mem_append.mp mem with earlier | last
    · have apart : entry.1 ≠ key := by
        rintro rfl
        exact fresh (List.mem_map_of_mem earlier)
      rw [filter_replace_other apart]
      exact owns.once entry earlier
    · rw [List.mem_singleton.mp last]
      exact filter_replace_self sent
  absent := by
    intro control mem other
    rw [Metadata.keys, List.map_append, List.mem_append, not_or, List.map_singleton,
      List.mem_singleton] at other
    rw [Metadata.replace, Metadata.has_append, Metadata.has_remove, owns.absent control mem other.1,
      Metadata.has_cons, decide_eq_false (Ne.symm other.2)]
    simp
  kept := by
    rw [callerEntries_append, callerEntries_append, remove_replace, ← callerEntries_remove,
      ← callerEntries_remove, owns.kept]

theorem fresh_of_nodup {entries : Metadata} {entry : Bytes × Bytes}
    (distinct : (owned ++ entry :: entries).keys.Nodup) :
    entry.1 ∉ owned.keys ∧ ((owned ++ [entry]) ++ entries).keys.Nodup := by
  rw [Metadata.keys, List.map_append, List.map_cons] at distinct
  constructor
  · intro mem
    exact List.disjoint_of_nodup_append distinct mem List.mem_cons_self
  · rw [Metadata.keys, List.append_assoc, List.map_append, List.singleton_append, List.map_cons]
    exact distinct

/-- Laying entries over the rest, one after the other. -/
theorem foldl_replace {entries : Metadata} (owns : Owns controls owned caller sent)
    (distinct : (owned ++ entries).keys.Nodup) :
    Owns controls (owned ++ entries) caller
      (entries.foldl (fun metadata entry => metadata.replace entry.1 entry.2) sent) := by
  induction entries generalizing owned sent with
  | nil => rw [List.append_nil]; exact owns
  | cons first rest inductionHypothesis =>
      obtain ⟨fresh, others⟩ := fresh_of_nodup distinct
      rw [List.foldl_cons, ← List.singleton_append, ← List.append_assoc]
      exact inductionHypothesis (owns.replace fresh) others

/-- Of a key that is neither a control nor owned, the entries are the caller's. -/
theorem filter_plain (owns : Owns controls owned caller sent) (plain : key ∉ controls)
    (fresh : key ∉ owned.keys) :
    sent.filter (fun entry => entry.1 = key) = caller.filter fun entry => entry.1 = key := by
  have within (metadata : Metadata) : (callerEntries controls owned metadata).filter
      (fun entry => entry.1 = key) = metadata.filter fun entry => entry.1 = key := by
    rw [callerEntries, List.filter_filter]
    congr 1
    funext entry
    by_cases same : entry.1 = key
    · rw [same]
      exact Bool.and_eq_left_iff_imp.mpr fun _ => decide_eq_true ⟨plain, fresh⟩
    · rw [decide_eq_false same, Bool.false_and]
  rw [← within, owns.kept, within]

end Owns

end VgiRpc.Wire
