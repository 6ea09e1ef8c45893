import VgiRpc.ProxyProof.Replay

/-!
# The replay cache under any load

However many nonces arrive, the cache holds the newest insertions that are not older than
the window, at most as many as its capacity.  The map and the queue stay in step through
both eviction loops, so a nonce is known exactly as long as it is one of these.
-/

namespace VgiRpc.ProxyProof

open Cpp Lib

/-- A call of `seen_nonce`, with the reading of its clock. -/
structure Lookup where
  now : Int
  nonce : Bytes

/-- A cache, and every insertion that was made in it, oldest first. -/
structure History where
  cache : ReplayCache
  inserted : List (Bytes × Int)

/-- What the expiry loop leaves. -/
def ReplayCache.aged (config : Config) (now : Int) (cache : ReplayCache) : ReplayCache :=
  dropExpired config.skewSeconds now cache.nonces cache.order

/-- One call.  With the cache on, a call that does not know its nonce inserts it. -/
def History.step (config : Config) (history : History) (call : Lookup) : History where
  cache := (history.cache.seenNonce config call.now call.nonce).2
  inserted :=
    if config.replayCache && !(history.cache.seenNonce config call.now call.nonce).1 then
      history.inserted ++ [(call.nonce, call.now)]
    else history.inserted

/-- The calls of a verifier, from its construction on. -/
def History.run (config : Config) (calls : List Lookup) : History :=
  calls.foldl (History.step config) ⟨.empty, []⟩

/-- The map and the queue are in step, in order of insertion, within the capacity and
within the window. -/
structure Coherent (config : Config) (now : Int) (cache : ReplayCache) : Prop where
  nodup : cache.order.Nodup
  keys : ∀ nonce, nonce ∈ cache.order ↔ nonce ∈ cache.nonces
  ordered : cache.order.Pairwise fun first later => ∀ seen seen',
    cache.nonces.lookup first = some seen → cache.nonces.lookup later = some seen' → seen ≤ seen'
  bounded : cache.size ≤ config.replayCapacity
  recent : ∀ nonce seen, cache.nonces.lookup nonce = some seen → now - seen ≤ config.skewSeconds

/-- The nonce was inserted, has not aged out, and fewer insertions than the capacity came
after it, so that none of them evicted it. -/
def Remembered (config : Config) (inserted : List (Bytes × Int)) (now : Int) (nonce : Bytes) : Prop :=
  ∃ before seen after, inserted = before ++ (nonce, seen) :: after ∧
    now - seen ≤ config.skewSeconds ∧ after.length < config.replayCapacity

/-- The capacity loop takes the oldest entries, as many as are too many, and keeps the map
and the queue in step. -/
def EvictsOldest (capacity : Nat) (aged : ReplayCache) : Prop :=
  ∃ evicted, aged.order = evicted ++ (ReplayCache.evictOldest capacity aged.nonces aged.order).order ∧
    evicted.length = aged.size + 1 - capacity ∧
    (∀ nonce, nonce ∈ (ReplayCache.evictOldest capacity aged.nonces aged.order).nonces ↔
      nonce ∈ (ReplayCache.evictOldest capacity aged.nonces aged.order).order) ∧
    ∀ old ∈ evicted, ∀ kept ∈ (ReplayCache.evictOldest capacity aged.nonces aged.order).order,
      ∀ seen seen', aged.nonces.lookup old = some seen → aged.nonces.lookup kept = some seen' →
        seen ≤ seen'

variable {config : Config} {cache : ReplayCache} {entries : List (Bytes × Int)} {now : Int}
  {nonce : Bytes} {calls : List Lookup} {call : Lookup}

/-! ## One call -/

namespace Represents

/-- The capacity loop leaves the newest entries. -/
theorem evictNewest {nonces : AList fun _ : Bytes => Int} {order : List Bytes} {capacity : Nat}
    (rep : Represents ⟨nonces, order⟩ entries) (positive : 1 ≤ capacity) :
    Represents (ReplayCache.evictOldest capacity nonces order) (entries.rtake (capacity - 1)) := by
  induction entries generalizing nonces order with
  | nil =>
      have orderEq : order = [] := rep.order_eq
      subst order
      rw [List.rtake_nil]
      exact rep
  | cons entry entries ih =>
      have orderEq : order = entry.1 :: entries.map Prod.fst := rep.order_eq
      have size : nonces.keys.length = entries.length + 1 := rep.size_eq
      subst order
      rw [ReplayCache.evictOldest, size]
      by_cases full : entries.length + 1 ≥ capacity
      · rw [if_pos full, rtake_cons (by omega)]
        exact ih rep.tail
      · rw [if_neg full, rtake_of_length_le (by rw [List.length_cons]; omega)]
        exact rep

theorem coherent (rep : Represents cache entries) (ordered : Chronological entries)
    (few : entries.length ≤ config.replayCapacity)
    (recent : ∀ entry ∈ entries, now - entry.2 ≤ config.skewSeconds) :
    Coherent config now cache where
  nodup := by
    rw [rep.order_eq]
    exact rep.nodup
  keys nonce := by rw [rep.order_eq, rep.mem_iff]
  ordered := by
    rw [rep.order_eq, List.pairwise_map]
    refine List.Pairwise.imp_of_mem ?_ ordered
    rintro ⟨first, seen⟩ ⟨later, seen'⟩ firstMember laterMember order one other found found'
    rw [(rep.lookup_iff first seen).mpr firstMember, Option.some.injEq] at found
    rw [(rep.lookup_iff later seen').mpr laterMember, Option.some.injEq] at found'
    rw [← found, ← found']
    exact order
  bounded := by rw [rep.size_eq]; exact few
  recent nonce seen found := recent (nonce, seen) ((rep.lookup_iff nonce seen).mp found)

theorem evictsOldest (rep : Represents cache entries) (ordered : Chronological entries)
    {capacity : Nat} (positive : 1 ≤ capacity) : EvictsOldest capacity cache := by
  have kept := rep.evictNewest positive
  have whole := List.take_append_drop (entries.length - (capacity - 1)) entries
  refine ⟨(entries.take (entries.length - (capacity - 1))).map Prod.fst, ?_, ?_, ?_, ?_⟩
  · rw [kept.order_eq, List.rtake, ← List.map_append, whole, rep.order_eq]
  · rw [List.length_map, List.length_take, rep.size_eq]
    omega
  · intro nonce
    rw [kept.order_eq, kept.mem_iff]
  · intro old evicted later stays seen seen' found found'
    rw [kept.order_eq] at stays
    obtain ⟨⟨_, time⟩, front, rfl⟩ := List.mem_map.mp evicted
    obtain ⟨⟨_, time'⟩, back, rfl⟩ := List.mem_map.mp stays
    have listed := (rep.lookup_iff _ time).mpr (List.mem_of_mem_take front)
    have listed' := (rep.lookup_iff _ time').mpr (List.mem_of_mem_drop back)
    rw [listed, Option.some.injEq] at found
    rw [listed', Option.some.injEq] at found'
    rw [← whole] at ordered
    have order := (List.pairwise_append.mp ordered).2.2 _ front _ back
    rwa [found, found'] at order

end Represents

/-- The cache holds the newest insertions that are inside the window. -/
structure Holds (config : Config) (history : History) (now : Int) : Prop where
  rep : Represents history.cache
    (live config.skewSeconds now (history.inserted.rtake config.replayCapacity))
  ordered : Chronological history.inserted
  past : ∀ entry ∈ history.inserted, entry.2 ≤ now

namespace Holds

variable {history : History}

/-- The expiry loop of a later call leaves what is still inside the window. -/
theorem aged (holds : Holds config history now) (later : now ≤ call.now) :
    Represents (history.cache.aged config call.now)
      (live config.skewSeconds call.now (history.inserted.rtake config.replayCapacity)) := by
  have ordered : Chronological
      (live config.skewSeconds now (history.inserted.rtake config.replayCapacity)) :=
    (holds.ordered.rtake _).live
  rw [← live_live later, ← ordered.dropWhile_eq_live]
  exact holds.rep.dropExpired config.skewSeconds call.now

end Holds

/-- A nonce is among the newest insertions inside the window if it is remembered. -/
theorem mem_newest_iff {inserted : List (Bytes × Int)} :
    nonce ∈ (live config.skewSeconds now (inserted.rtake config.replayCapacity)).map Prod.fst ↔
      Remembered config inserted now nonce := by
  rw [List.mem_map]
  constructor
  · rintro ⟨⟨_, seen⟩, member, rfl⟩
    obtain ⟨newest, fresh⟩ := mem_live.mp member
    obtain ⟨before, after, split, few⟩ := mem_rtake_iff.mp newest
    exact ⟨before, seen, after, split, fresh, few⟩
  · rintro ⟨before, seen, after, split, fresh, few⟩
    exact ⟨(nonce, seen), mem_live.mpr ⟨mem_rtake_iff.mpr ⟨before, after, split, few⟩, fresh⟩, rfl⟩

/-- A new insertion takes the place of the oldest of as many as the capacity. -/
theorem live_rtake_append {inserted : List (Bytes × Int)} {width : Int} {capacity : Nat}
    (ordered : Chronological inserted) (positive : 1 ≤ capacity) (nonneg : 0 ≤ width) :
    live width now ((inserted ++ [(nonce, now)]).rtake capacity) =
      (live width now (inserted.rtake capacity)).rtake (capacity - 1) ++ [(nonce, now)] := by
  obtain ⟨capacity, rfl⟩ : ∃ fewer, capacity = fewer + 1 := ⟨capacity - 1, by omega⟩
  rw [List.rtake_concat_succ, live_append_now nonce nonneg, Nat.add_sub_cancel,
    (ordered.rtake _).rtake_live, rtake_rtake (Nat.le_succ capacity)]

/-- A known nonce is left where it is; a new one is inserted behind the newest. -/
theorem seenNonce_eq (on : config.replayCache = true) :
    cache.seenNonce config now nonce =
      if nonce ∈ (cache.aged config now).nonces then (true, cache.aged config now)
      else (false, (ReplayCache.evictOldest config.replayCapacity (cache.aged config now).nonces
        (cache.aged config now).order).push nonce now) := by
  simp only [ReplayCache.seenNonce, on, Bool.not_true, Bool.false_eq_true, if_false]
  rfl

/-- One call keeps the cache to the newest insertions, and knows a nonce exactly while it
is remembered. -/
theorem Holds.step {history : History} (on : config.replayCache = true)
    (positive : 1 ≤ config.replayCapacity) (nonneg : 0 ≤ config.skewSeconds)
    (holds : Holds config history now) (later : now ≤ call.now) :
    Holds config (history.step config call) call.now ∧
      ((history.cache.seenNonce config call.now call.nonce).1 = true ↔
        Remembered config history.inserted call.now call.nonce) := by
  have aged := holds.aged later
  have known := aged.mem_iff call.nonce
  have past : ∀ entry ∈ history.inserted, entry.2 ≤ call.now := fun entry member =>
    (holds.past entry member).trans later
  rw [History.step, seenNonce_eq on, on, ← mem_newest_iff, ← known]
  by_cases member : call.nonce ∈ (history.cache.aged config call.now).nonces
  · simp only [if_pos member]
    simp only [Bool.not_true, Bool.and_false, Bool.false_eq_true, if_false, member, and_true]
    exact ⟨aged, holds.ordered, past⟩
  · have fresh : call.nonce ∉ ((live config.skewSeconds call.now
        (history.inserted.rtake config.replayCapacity)).rtake (config.replayCapacity - 1)).map
          Prod.fst := by
      intro newest
      obtain ⟨entry, inside, same⟩ := List.mem_map.mp newest
      exact member (known.mpr (List.mem_map.mpr ⟨entry, List.mem_of_mem_drop inside, same⟩))
    simp only [if_neg member]
    simp only [Bool.not_false, Bool.and_true, if_true, Bool.false_eq_true, member, and_true]
    refine ⟨?_, holds.ordered.append past, ?_⟩
    · rw [live_rtake_append holds.ordered positive nonneg]
      exact (aged.evictNewest positive).push call.now fresh
    · rw [List.forall_mem_append]
      exact ⟨past, List.forall_mem_singleton.mpr le_rfl⟩

/-! ## Runs -/

/-- The cache stays as it was built with the cache off. -/
theorem run_off (off : config.replayCache = false) (calls : List Lookup) :
    History.run config calls = ⟨.empty, []⟩ := by
  induction calls using List.reverseRecOn with
  | nil => rfl
  | append_singleton calls call ih =>
      rw [History.run] at ih ⊢
      rw [List.foldl_append, ih]
      simp [History.step, ReplayCache.seenNonce, off]

/-- Before a call the cache holds what the last call before it left. -/
theorem holds_run (on : config.replayCache = true) (positive : 1 ≤ config.replayCapacity)
    (nonneg : 0 ≤ config.skewSeconds)
    (clock : (calls ++ [call]).Pairwise fun first later => first.now ≤ later.now) :
    ∃ now ≤ call.now, Holds config (History.run config calls) now := by
  induction calls using List.reverseRecOn generalizing call with
  | nil =>
      refine ⟨call.now, le_rfl, ?_, List.Pairwise.nil, by simp [History.run]⟩
      simp only [History.run, List.foldl_nil, List.rtake_nil, live, List.filter_nil]
      exact Represents.empty
  | append_singleton calls last ih =>
      obtain ⟨before, -, latest⟩ := List.pairwise_append.mp clock
      obtain ⟨now, le, holds⟩ := ih before
      refine ⟨last.now, latest last (by simp) call (by simp), ?_⟩
      rw [History.run, List.foldl_append]
      exact (holds.step on positive nonneg le).1

/-- The cache of a verifier after any calls whose clock does not go back: map and queue are
in step, ordered, within capacity and window; a call answers yes exactly for the nonces
that were inserted and have neither aged out nor been evicted; and what is evicted are the
oldest. -/
theorem seenNonce_exact {mode : ProofMode} {originId secretsSpec : Bytes} {skewSeconds : Int}
    {replayCache : Bool} {replayCapacity : Nat}
    (created : Config.create mode originId secretsSpec skewSeconds replayCache replayCapacity =
      .ok config)
    (positive : 1 ≤ replayCapacity)
    (clock : (calls ++ [call]).Pairwise fun first later => first.now ≤ later.now) :
    Coherent config call.now (History.run config (calls ++ [call])).cache ∧
      (((History.run config calls).cache.seenNonce config call.now call.nonce).1 = true ↔
        Remembered config (History.run config calls).inserted call.now call.nonce) ∧
      EvictsOldest config.replayCapacity ((History.run config calls).cache.aged config call.now) := by
  obtain ⟨-, cacheEq, capacityEq, skew⟩ := Config.create_eq created
  rw [← capacityEq] at positive
  cases on : config.replayCache with
  | false =>
      have blank : Represents .empty [] := Represents.empty
      have nothing : ∀ entry ∈ ([] : List (Bytes × Int)), call.now - entry.2 ≤ config.skewSeconds := by
        simp
      rw [run_off on, run_off on]
      refine ⟨blank.coherent List.Pairwise.nil (Nat.zero_le _) nothing, ?_,
        blank.evictsOldest List.Pairwise.nil positive⟩
      simp [ReplayCache.seenNonce, on, Remembered]
  | true =>
      obtain ⟨now, le, holds⟩ := holds_run on positive skew.le clock
      obtain ⟨after, answers⟩ := holds.step on positive skew.le le
      have aged := holds.aged le
      rw [History.run, List.foldl_append]
      refine ⟨?_, answers, aged.evictsOldest (holds.ordered.rtake _).live positive⟩
      refine after.rep.coherent (after.ordered.rtake _).live ?_ fun entry member =>
        (mem_live.mp member).2
      refine (List.length_filter_le _ _).trans ?_
      rw [List.rtake, List.length_drop]
      omega

/-- A nonce is known thirty seconds after it was inserted. -/
theorem sampleNonce_known :
    ((History.run sampleConfig [⟨1000, ascii "one"⟩, ⟨1020, ascii "two"⟩]).cache.seenNonce
      sampleConfig 1030 (ascii "one")).1 = true := by
  have created : Config.create .require (ascii "w") (ascii "k:" ++ List.replicate 64 0x30) 30 true
      100000 = .ok sampleConfig := rfl
  have known := (@seenNonce_exact _ [⟨1000, ascii "one"⟩, ⟨1020, ascii "two"⟩]
    ⟨1030, ascii "one"⟩ _ _ _ _ _ _ created (by decide) (by simp)).2.1
  exact known.mpr ⟨[], 1000, [(ascii "two", 1020)], by decide, by decide, by decide⟩

end VgiRpc.ProxyProof
