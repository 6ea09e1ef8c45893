import VgiRpc.ProxyProof.Verifier
import VgiRpc.Lib.Window

/-!
# Replay protection of the proxy proof

The replay cache holds the arrivals of the last `skew` seconds.  As long as the
clock does not go back and no entry is evicted for capacity, it answers like a
log of every accepted nonce read through a window of that width, and the law
about whole runs is proved on the log.

A header is accepted up to `skew` seconds before and after its own timestamp, so
its acceptance interval is twice as long as the window that remembers it.  A
header is refused the second time exactly when both presentations fall into one
window.
-/

namespace VgiRpc.ProxyProof

open Cpp Lib

/-! ## The cache represents a list of arrivals -/

/-- The cache holds exactly these arrivals, oldest first. -/
structure Represents (cache : ReplayCache) (entries : List (Bytes × Int)) : Prop where
  order_eq : cache.order = entries.map Prod.fst
  nodup : (entries.map Prod.fst).Nodup
  lookup_iff : ∀ nonce seen,
    cache.nonces.lookup nonce = some seen ↔ (nonce, seen) ∈ entries

namespace Represents

variable {cache : ReplayCache} {entries : List (Bytes × Int)}

theorem empty : Represents .empty [] := by
  constructor
  · rfl
  · exact List.nodup_nil
  · intro nonce seen
    simp [ReplayCache.empty]

theorem mem_iff (rep : Represents cache entries) (nonce : Bytes) :
    nonce ∈ cache.nonces ↔ nonce ∈ entries.map Prod.fst := by
  rw [← AList.lookup_isSome, Option.isSome_iff_exists, List.mem_map]
  constructor
  · rintro ⟨seen, found⟩
    exact ⟨(nonce, seen), (rep.lookup_iff nonce seen).mp found, rfl⟩
  · rintro ⟨⟨other, seen⟩, member, rfl⟩
    exact ⟨seen, (rep.lookup_iff _ seen).mpr member⟩

theorem size_eq (rep : Represents cache entries) : cache.size = entries.length := by
  have perm : cache.nonces.keys.Perm (entries.map Prod.fst) := by
    rw [List.perm_ext_iff_of_nodup cache.nonces.keys_nodup rep.nodup]
    intro nonce
    exact rep.mem_iff nonce
  rw [ReplayCache.size, perm.length_eq, List.length_map]

/-- Forgetting the oldest arrival. -/
theorem tail {nonces : AList fun _ : Bytes => Int} {order : List Bytes} {nonce : Bytes}
    {seen : Int} (rep : Represents ⟨nonces, nonce :: order⟩ ((nonce, seen) :: entries)) :
    Represents ⟨nonces.erase nonce, order⟩ entries := by
  have nodup := List.nodup_cons.mp rep.nodup
  constructor
  · exact (List.cons.inj rep.order_eq).2
  · exact nodup.2
  · intro other time
    by_cases same : other = nonce
    · subst other
      have absent : (nonce, time) ∉ entries := by
        intro member
        exact nodup.1 (List.mem_map.mpr ⟨(nonce, time), member, rfl⟩)
      simp [absent]
    · rw [AList.lookup_erase_ne same, rep.lookup_iff other time]
      simp [same]

/-- The expiry loop drops the expired front. -/
theorem dropExpired {nonces : AList fun _ : Bytes => Int} {order : List Bytes}
    (rep : Represents ⟨nonces, order⟩ entries) (skew now : Int) :
    Represents (ReplayCache.dropExpired skew now nonces order)
      (entries.dropWhile fun entry => !decide (now - entry.2 ≤ skew)) := by
  induction entries generalizing nonces order with
  | nil =>
      have orderEq : order = [] := rep.order_eq
      subst order
      exact rep
  | cons entry entries ih =>
      rcases entry with ⟨nonce, seen⟩
      have orderEq : order = nonce :: entries.map Prod.fst := rep.order_eq
      subst order
      have found := (rep.lookup_iff nonce seen).mpr List.mem_cons_self
      simp only at found
      by_cases fresh : now - seen ≤ skew
      · rw [List.dropWhile_cons_of_neg (by simp [fresh])]
        simp only [ReplayCache.dropExpired, found, if_pos fresh]
        exact rep
      · rw [List.dropWhile_cons_of_pos (by simp [fresh])]
        simp only [ReplayCache.dropExpired, found, if_neg fresh]
        exact ih rep.tail

/-- Below the capacity the eviction loop does nothing. -/
theorem evictOldest (rep : Represents cache entries) {capacity : Nat}
    (room : entries.length < capacity) :
    ReplayCache.evictOldest capacity cache.nonces cache.order = cache := by
  have size := rep.size_eq
  rw [ReplayCache.size] at size
  cases order : cache.order with
  | nil => rw [ReplayCache.evictOldest, ← order]
  | cons front rest =>
      rw [ReplayCache.evictOldest, if_neg (by omega), ← order]

/-- Remembering a new arrival. -/
theorem push (rep : Represents cache entries) {nonce : Bytes} (now : Int)
    (fresh : nonce ∉ entries.map Prod.fst) :
    Represents (cache.push nonce now) (entries ++ [(nonce, now)]) := by
  constructor
  · rw [ReplayCache.push, rep.order_eq, List.map_append]
    rfl
  · rw [List.map_append]
    refine List.nodup_append.mpr ⟨rep.nodup, List.nodup_singleton _, ?_⟩
    intro other member last lastMember equal
    rw [List.map_singleton, List.mem_singleton] at lastMember
    rw [equal, lastMember] at member
    exact fresh member
  · intro other time
    rw [List.mem_append, List.mem_singleton, Prod.mk.injEq]
    by_cases same : other = nonce
    · subst other
      have absent : (nonce, time) ∉ entries := by
        intro member
        exact fresh (List.mem_map.mpr ⟨(nonce, time), member, rfl⟩)
      simp [ReplayCache.push, absent, eq_comm]
    · rw [ReplayCache.push, AList.lookup_insert_ne same, rep.lookup_iff other time]
      simp [same]

end Represents

/-- One lookup in the cache is one lookup in the live entries, and leaves the
live entries behind, with the new arrival if there was one. -/
theorem seenNonce_spec {config : Config} {cache : ReplayCache}
    {entries : List (Bytes × Int)} {now : Int} (nonce : Bytes)
    (on : config.replayCache = true) (rep : Represents cache entries)
    (ordered : Chronological entries)
    (room : (live config.skewSeconds now entries).length < config.replayCapacity) :
    if nonce ∈ (live config.skewSeconds now entries).map Prod.fst then
      (cache.seenNonce config now nonce).1 = true ∧
        Represents (cache.seenNonce config now nonce).2
          (live config.skewSeconds now entries)
    else
      (cache.seenNonce config now nonce).1 = false ∧
        Represents (cache.seenNonce config now nonce).2
          (live config.skewSeconds now entries ++ [(nonce, now)]) := by
  have dropped : Represents
      (ReplayCache.dropExpired config.skewSeconds now cache.nonces cache.order)
      (live config.skewSeconds now entries) := by
    rw [← ordered.dropWhile_eq_live]
    exact rep.dropExpired config.skewSeconds now
  have known := dropped.mem_iff nonce
  simp only [ReplayCache.seenNonce, on, Bool.not_true, Bool.false_eq_true, if_false]
  by_cases member : nonce ∈ (live config.skewSeconds now entries).map Prod.fst
  · rw [if_pos member, if_pos (known.mpr member)]
    exact ⟨rfl, dropped⟩
  · rw [if_neg member, if_neg (fun found => member (known.mp found)),
      dropped.evictOldest room]
    exact ⟨rfl, dropped.push now member⟩

/-! ## The windowed log -/

/-- The answer to a header that passed every check and is new. -/
def accepted (proof : Proof) : ProofResult :=
  { reason := .ok, proxyLabel := proof.kid, claimedKid := proof.kid }

/-- The answer to a header that passed every check and is not new. -/
def replayed (proof : Proof) : ProofResult :=
  { reason := .replayed, claimedKid := proof.kid }

/-- The verifier's purpose stated on a log of every accepted nonce: refuse a
nonce that the last `skew` seconds of the log already hold. -/
def windowAll (hmac : Hmac) (config : Config) :
    List (Bytes × Int) → List Call → List (Call × ProofResult)
  | _, [] => []
  | log, call :: calls =>
      match checkProof hmac config call.now call.header call.count with
      | .error refusal => (call, refusal) :: windowAll hmac config log calls
      | .ok proof =>
          if proof.nonce ∈ (live config.skewSeconds call.nowSeen log).map Prod.fst then
            (call, replayed proof) :: windowAll hmac config log calls
          else
            (call, accepted proof) ::
              windowAll hmac config (log ++ [(proof.nonce, call.nowSeen)]) calls

attribute [grind =] windowAll

/-- The clock readings of a run, in the order the verifier takes them. -/
def readings (calls : List Call) : List Int :=
  calls.flatMap fun call => [call.now, call.nowSeen]

/-- The nonces of the headers a run answered with OK. -/
def acceptedNonces (trace : List (Call × ProofResult)) : List Bytes :=
  trace.filterMap fun entry =>
    if entry.2.reason = .ok then (parseProof entry.1.header).map Proof.nonce else none

/-- The cache answers every remaining call like the log. -/
structure Tracks (config : Config) (cache : ReplayCache) (log : List (Bytes × Int))
    (calls : List Call) (entries : List (Bytes × Int)) : Prop where
  rep : Represents cache entries
  ordered : Chronological entries
  past : ∀ entry ∈ entries, ∀ reading ∈ readings calls, entry.2 ≤ reading
  same : ∀ reading ∈ readings calls,
    live config.skewSeconds reading entries = live config.skewSeconds reading log
  logged : ∀ entry ∈ entries, entry ∈ log

@[simp] theorem readings_cons (call : Call) (calls : List Call) :
    readings (call :: calls) = call.now :: call.nowSeen :: readings calls := by
  simp [readings]

/-! ## What passing the checks means -/

/-- The checks that do not depend on the clock: a well-formed header under a
known key id with a readable timestamp and a matching MAC. -/
structure Authentic (hmac : Hmac) (config : Config) (header : Bytes) (proof : Proof)
    (tsValue : Int) : Prop where
  nonempty : header ≠ []
  short : header.length ≤ kMaxHeaderBytes
  parsed : parseProof header = some proof
  timestamp : stoll proof.ts = some tsValue
  mac : ∃ secret, config.secrets.lookup proof.kid = some secret ∧
    Crypto.base64urlEncode (hmac secret (canonical config proof)) = proof.mac

section Checks

variable {hmac : Hmac} {config : Config} {now count tsValue : Int} {header : Bytes}
variable {proof : Proof}

/-- A single presentation of an authentic header is judged by its timestamp
alone. -/
theorem Authentic.checkProof (authentic : Authentic hmac config header proof tsValue) :
    checkProof hmac config now header 1 =
      if now - tsValue > config.skewSeconds then
        .error { reason := .expired, claimedKid := proof.kid }
      else if tsValue - now > config.skewSeconds then
        .error { reason := .notYetValid, claimedKid := proof.kid }
      else
        .ok proof := by
  rcases authentic.mac with ⟨secret, known, macEq⟩
  have wellFormed : ¬((1 : Int) ≠ 1 ∨ header = [] ∨ header.length > kMaxHeaderBytes) := by
    have short := authentic.short
    have nonempty := authentic.nonempty
    simp [nonempty, short]
  rw [ProxyProof.checkProof, if_neg (by omega), if_neg wellFormed]
  simp only [authentic.parsed, known, authentic.timestamp, Crypto.constantTimeEqual, macEq,
    beq_self_eq_true, Bool.not_true, Bool.false_eq_true, if_false]

/-- A header passes exactly when it is a single authentic one whose timestamp is
at most `skew` seconds away. -/
theorem authentic_of_checkProof
    (passed : checkProof hmac config now header count = .ok proof) :
    count = 1 ∧ ∃ tsValue, Authentic hmac config header proof tsValue ∧
      now - tsValue ≤ config.skewSeconds ∧ tsValue - now ≤ config.skewSeconds := by
  rw [checkProof] at passed
  by_cases absent : count = 0
  · simp [absent] at passed
  by_cases malformed : count ≠ 1 ∨ header = [] ∨ header.length > kMaxHeaderBytes
  · simp [absent, malformed] at passed
  rw [if_neg absent, if_neg malformed] at passed
  simp only [not_or, not_not, not_lt] at malformed
  cases parsed : parseProof header with
  | none => simp [parsed] at passed
  | some fields =>
      cases known : config.secrets.lookup fields.kid with
      | none => simp [parsed, known] at passed
      | some secret =>
          cases timestamp : stoll fields.ts with
          | none => simp [parsed, known, timestamp] at passed
          | some value =>
              simp only [parsed, known, timestamp] at passed
              by_cases old : now - value > config.skewSeconds
              · simp [old] at passed
              by_cases early : value - now > config.skewSeconds
              · simp [old, early] at passed
              by_cases macEq : Crypto.constantTimeEqual (Crypto.base64urlEncode
                  (hmac secret (canonical config fields))) fields.mac = true
              · simp only [old, early, macEq, if_false, Bool.not_true, Bool.false_eq_true,
                  Except.ok.injEq] at passed
                subst passed
                refine ⟨malformed.1, value, ?_, by omega, by omega⟩
                exact ⟨malformed.2.1, malformed.2.2, parsed, timestamp, secret, known,
                  by simpa [Crypto.constantTimeEqual] using macEq⟩
              · simp [old, early, macEq] at passed

/-- Once a header has passed, every later single presentation of it either
passes again or is expired. -/
theorem checkProof_later {later : Int}
    (passed : checkProof hmac config now header count = .ok proof) (le : now ≤ later) :
    checkProof hmac config later header 1 = .ok proof ∨
      checkProof hmac config later header 1 =
        .error { reason := .expired, claimedKid := proof.kid } := by
  rcases authentic_of_checkProof passed with ⟨-, tsValue, authentic, -, early⟩
  rw [authentic.checkProof]
  by_cases old : later - tsValue > config.skewSeconds
  · right
    rw [if_pos old]
  · left
    rw [if_neg old, if_neg (by omega)]

theorem parseProof_of_checkProof
    (passed : checkProof hmac config now header count = .ok proof) :
    parseProof header = some proof := by
  rcases authentic_of_checkProof passed with ⟨-, tsValue, authentic, -⟩
  exact authentic.parsed

end Checks

/-! ## The cache answers like the log -/

theorem acceptedNonces_cons_accepted {call : Call} {proof : Proof}
    (trace : List (Call × ProofResult)) (parsed : parseProof call.header = some proof) :
    acceptedNonces ((call, accepted proof) :: trace) =
      proof.nonce :: acceptedNonces trace := by
  simp [acceptedNonces, accepted, parsed]

theorem acceptedNonces_cons_of_ne {call : Call} {answer : ProofResult}
    (trace : List (Call × ProofResult)) (refused : answer.reason ≠ .ok) :
    acceptedNonces ((call, answer) :: trace) = acceptedNonces trace := by
  simp [acceptedNonces, refused]

/-- Every refusal before the replay cache is a refusal. -/
theorem checkProof_error_ne {hmac : Hmac} {config : Config} {now count : Int}
    {header : Bytes} {refusal : ProofResult}
    (refused : checkProof hmac config now header count = .error refusal) :
    refusal.reason ≠ .ok := by
  intro isOk
  simp only [checkProof] at refused
  repeat' split at refused
  all_goals
    first
    | (simp only [Except.error.injEq] at refused
       subst refused
       simp at isOk)
    | simp at refused

namespace Tracks

variable {config : Config} {cache : ReplayCache} {log entries : List (Bytes × Int)}
variable {call : Call} {calls : List Call}

theorem empty (config : Config) (calls : List Call) :
    Tracks config .empty [] calls [] := by
  constructor
  · exact Represents.empty
  · exact List.Pairwise.nil
  · simp
  · simp
  · simp

/-- A refused call leaves cache and log as they are. -/
theorem skip (tracks : Tracks config cache log (call :: calls) entries) :
    Tracks config cache log calls entries := by
  constructor
  · exact tracks.rep
  · exact tracks.ordered
  · intro entry member reading later
    exact tracks.past entry member reading (by simp [later])
  · intro reading later
    exact tracks.same reading (by simp [later])
  · exact tracks.logged

/-- The live entries at a call's second reading. -/
theorem live_eq (tracks : Tracks config cache log (call :: calls) entries) :
    live config.skewSeconds call.nowSeen entries =
      live config.skewSeconds call.nowSeen log :=
  tracks.same call.nowSeen (by simp)

/-- The live entries never outnumber the distinct nonces of the log. -/
theorem length_live_le (tracks : Tracks config cache log (call :: calls) entries)
    (more : List Bytes) :
    (live config.skewSeconds call.nowSeen entries).length ≤
      (log.map Prod.fst ++ more).dedup.length := by
  have sublist : (live config.skewSeconds call.nowSeen entries).map Prod.fst ⊆
      (log.map Prod.fst ++ more).dedup := by
    intro nonce member
    rcases List.mem_map.mp member with ⟨entry, isLive, rfl⟩
    rw [List.mem_dedup, List.mem_append]
    left
    exact List.mem_map_of_mem (tracks.logged entry (mem_live.mp isLive).1)
  have nodup : ((live config.skewSeconds call.nowSeen entries).map Prod.fst).Nodup :=
    tracks.rep.nodup.sublist (List.Sublist.map _ List.filter_sublist)
  have bound := (nodup.subperm sublist).length_le
  rwa [List.length_map] at bound

/-- After a lookup the live entries, with the new arrival if there was one,
track the log. -/
theorem settle (tracks : Tracks config cache log (call :: calls) entries)
    (clock : (readings (call :: calls)).Pairwise (· ≤ ·)) {next : ReplayCache}
    (rep : Represents next (live config.skewSeconds call.nowSeen log)) :
    Tracks config next log calls (live config.skewSeconds call.nowSeen log) := by
  rw [readings_cons] at clock
  rcases List.pairwise_cons.mp clock with ⟨-, clock⟩
  rcases List.pairwise_cons.mp clock with ⟨future, -⟩
  rw [← tracks.live_eq] at rep ⊢
  constructor
  · exact rep
  · exact tracks.ordered.live
  · intro entry member reading later
    exact tracks.past entry (mem_live.mp member).1 reading (by simp [later])
  · intro reading later
    rw [live_live (future reading later)]
    exact tracks.same reading (by simp [later])
  · intro entry member
    exact tracks.logged entry (mem_live.mp member).1

theorem settle_push (tracks : Tracks config cache log (call :: calls) entries)
    (nonneg : 0 ≤ config.skewSeconds)
    (clock : (readings (call :: calls)).Pairwise (· ≤ ·)) {next : ReplayCache}
    {nonce : Bytes}
    (rep : Represents next
      (live config.skewSeconds call.nowSeen log ++ [(nonce, call.nowSeen)])) :
    Tracks config next (log ++ [(nonce, call.nowSeen)]) calls
      (live config.skewSeconds call.nowSeen log ++ [(nonce, call.nowSeen)]) := by
  have newest : ∀ entry ∈ live config.skewSeconds call.nowSeen log,
      entry.2 ≤ call.nowSeen := by
    intro entry member
    rw [← tracks.live_eq] at member
    exact tracks.past entry (mem_live.mp member).1 call.nowSeen (by simp)
  have ordered : Chronological (live config.skewSeconds call.nowSeen log) := by
    rw [← tracks.live_eq]
    exact tracks.ordered.live
  rw [readings_cons] at clock
  rcases List.pairwise_cons.mp clock with ⟨-, clock⟩
  rcases List.pairwise_cons.mp clock with ⟨future, -⟩
  constructor
  · exact rep
  · exact ordered.append newest
  · intro entry member reading later
    rcases List.mem_append.mp member with old | new
    · exact (newest entry old).trans (future reading later)
    · rw [List.mem_singleton] at new
      rw [new]
      exact future reading later
  · intro reading later
    rw [← live_append_now nonce nonneg, live_live (future reading later)]
  · intro entry member
    rw [← live_append_now nonce nonneg] at member
    exact (mem_live.mp member).1

end Tracks

/-- With the cache on, a clock that does not go back and fewer distinct accepted
nonces than the capacity, the verifier answers like the windowed log. -/
theorem verifyAll_eq_windowAll {hmac : Hmac} {config : Config} {cache : ReplayCache}
    {log entries : List (Bytes × Int)} {calls : List Call}
    (mode : config.mode ≠ .off) (on : config.replayCache = true)
    (nonneg : 0 ≤ config.skewSeconds)
    (clock : (readings calls).Pairwise (· ≤ ·))
    (tracks : Tracks config cache log calls entries)
    (room : (log.map Prod.fst ++
      acceptedNonces (verifyAll hmac config cache calls)).dedup.length <
        config.replayCapacity) :
    verifyAll hmac config cache calls = windowAll hmac config log calls := by
  induction calls generalizing cache log entries with
  | nil => rfl
  | cons call calls ih =>
      have clockTail : (readings calls).Pairwise (· ≤ ·) := by
        rw [readings_cons] at clock
        exact (List.pairwise_cons.mp (List.pairwise_cons.mp clock).2).2
      rw [verifyAll, windowAll]
      rw [verifyAll] at room
      cases checked : checkProof hmac config call.now call.header call.count with
      | error refusal =>
          simp only [verify, if_neg mode, checked] at room ⊢
          rw [acceptedNonces_cons_of_ne _ (checkProof_error_ne checked)] at room
          rw [ih clockTail tracks.skip room]
      | ok proof =>
          have parsed := parseProof_of_checkProof checked
          have liveRoom := (tracks.length_live_le _).trans_lt room
          have spec := seenNonce_spec proof.nonce on tracks.rep tracks.ordered liveRoom
          rw [tracks.live_eq] at spec
          simp only [verify, if_neg mode, checked] at room ⊢
          by_cases known : proof.nonce ∈
              (live config.skewSeconds call.nowSeen log).map Prod.fst
          · rw [if_pos known] at spec ⊢
            simp only [spec.1, if_true] at room ⊢
            rw [acceptedNonces_cons_of_ne _ (by simp)] at room
            rw [ih clockTail (tracks.settle clock spec.2) room]
            rfl
          · rw [if_neg known] at spec ⊢
            simp only [spec.1, Bool.false_eq_true, if_false] at room ⊢
            have consed := acceptedNonces_cons_accepted (verifyAll hmac config
              (cache.seenNonce config call.nowSeen proof.nonce).2 calls) parsed
            rw [accepted] at consed
            rw [consed] at room
            rw [ih clockTail (tracks.settle_push nonneg clock spec.2) (by simpa using room)]
            rfl

/-! ## Accepted once, refused ever after -/

/-- A call passes every check but the replay cache. -/
def Passes (hmac : Hmac) (config : Config) (call : Call) : Prop :=
  ∃ proof, checkProof hmac config call.now call.header call.count = .ok proof

/-- Once a header has been answered with OK, every later presentation of it is
refused, and a single one is refused as replayed or expired. -/
def AcceptedOnce (trace : List (Call × ProofResult)) : Prop :=
  trace.Pairwise fun first later =>
    first.2.reason = .ok → later.1.header = first.1.header →
      later.2.reason ≠ .ok ∧
        (later.1.count = 1 → later.2.reason = .replayed ∨ later.2.reason = .expired)

/-- No header passes the checks again more than `skew` seconds after it passed
them before. -/
def WithinOneWindow (hmac : Hmac) (config : Config) (calls : List Call) : Prop :=
  calls.Pairwise fun first later => later.header = first.header →
    Passes hmac config first → Passes hmac config later →
      later.nowSeen - first.nowSeen ≤ config.skewSeconds

/-- Headers that pass the checks and share a nonce are the same header. -/
def NoncesIdentify (hmac : Hmac) (config : Config) (calls : List Call) : Prop :=
  ∀ first ∈ calls, ∀ second ∈ calls, ∀ proof other : Proof,
    checkProof hmac config first.now first.header first.count = .ok proof →
    checkProof hmac config second.now second.header second.count = .ok other →
    proof.nonce = other.nonce → first.header = second.header

section Window

variable {hmac : Hmac} {config : Config} {log : List (Bytes × Int)} {calls : List Call}

@[simp] theorem windowAll_map_fst :
    (windowAll hmac config log calls).map Prod.fst = calls := by
  induction calls generalizing log with
  | nil => rfl
  | cons call calls ih =>
      rw [windowAll]
      split
      next => rw [List.map_cons, ih]
      next => split <;> rw [List.map_cons, ih]

/-- A call that fails a check is answered with that refusal. -/
theorem windowAll_refusal {call : Call} {answer refusal : ProofResult}
    (member : (call, answer) ∈ windowAll hmac config log calls)
    (refused : checkProof hmac config call.now call.header call.count = .error refusal) :
    answer = refusal := by
  induction calls generalizing log with
  | nil => simp [windowAll] at member
  | cons head calls ih =>
      rw [windowAll] at member
      cases checked : checkProof hmac config head.now head.header head.count with
      | error headRefusal =>
          simp only [checked, List.mem_cons, Prod.mk.injEq] at member
          rcases member with ⟨rfl, rfl⟩ | member
          · rw [checked] at refused
            exact Except.error.inj refused
          · exact ih member
      | ok proof =>
          simp only [checked] at member
          split at member
          next =>
            rcases List.mem_cons.mp member with equal | member
            · rw [(Prod.mk.inj equal).1, checked] at refused
              simp at refused
            · exact ih member
          next =>
            rcases List.mem_cons.mp member with equal | member
            · rw [(Prod.mk.inj equal).1, checked] at refused
              simp at refused
            · exact ih member

/-- A nonce in the window of the log is refused. -/
theorem windowAll_replayed {call : Call} {answer : ProofResult} {proof : Proof} {seen : Int}
    (logged : (proof.nonce, seen) ∈ log)
    (member : (call, answer) ∈ windowAll hmac config log calls)
    (passed : checkProof hmac config call.now call.header call.count = .ok proof)
    (recent : call.nowSeen - seen ≤ config.skewSeconds) :
    answer.reason = .replayed := by
  induction calls generalizing log with
  | nil => simp [windowAll] at member
  | cons head calls ih =>
      rw [windowAll] at member
      cases checked : checkProof hmac config head.now head.header head.count with
      | error headRefusal =>
          simp only [checked, List.mem_cons, Prod.mk.injEq] at member
          rcases member with ⟨rfl, rfl⟩ | member
          · rw [checked] at passed
            simp at passed
          · exact ih logged member
      | ok headProof =>
          simp only [checked] at member
          split at member
          next =>
            rcases List.mem_cons.mp member with equal | member
            · rw [(Prod.mk.inj equal).2]
              rfl
            · exact ih logged member
          next fresh =>
            rcases List.mem_cons.mp member with equal | member
            · -- The head itself would have been refused.
              rcases Prod.mk.inj equal with ⟨rfl, -⟩
              rw [checked] at passed
              have same := Except.ok.inj passed
              subst same
              exact absurd (List.mem_map.mpr ⟨_, mem_live.mpr ⟨logged, recent⟩, rfl⟩) fresh
            · exact ih (List.mem_append_left _ logged) member

/-- On the log, presentations inside one window are refused after the first. -/
theorem windowAll_acceptedOnce (clock : (readings calls).Pairwise (· ≤ ·))
    (within : WithinOneWindow hmac config calls) :
    AcceptedOnce (windowAll hmac config log calls) := by
  induction calls generalizing log with
  | nil => exact List.Pairwise.nil
  | cons head calls ih =>
      rcases List.pairwise_cons.mp within with ⟨headWithin, tailWithin⟩
      rw [readings_cons] at clock
      rcases List.pairwise_cons.mp clock with ⟨future, clock⟩
      have tailClock := (List.pairwise_cons.mp clock).2
      rw [windowAll]
      cases checked : checkProof hmac config head.now head.header head.count with
      | error refusal =>
          refine List.pairwise_cons.mpr ⟨?_, ih tailClock tailWithin⟩
          intro later _ accepted
          exact absurd accepted (checkProof_error_ne checked)
      | ok proof =>
          simp only
          split
          next =>
            refine List.pairwise_cons.mpr ⟨?_, ih tailClock tailWithin⟩
            intro later _ accepted
            simp [replayed] at accepted
          next =>
            refine List.pairwise_cons.mpr ⟨?_, ih tailClock tailWithin⟩
            rintro ⟨call, answer⟩ member - sameHeader
            have inCalls : call ∈ calls := by
              have mapped := List.mem_map_of_mem (f := Prod.fst) member
              rwa [windowAll_map_fst] at mapped
            simp only at sameHeader
            cases laterCheck : checkProof hmac config call.now call.header call.count with
            | ok laterProof =>
                have recent := headWithin call inCalls sameHeader ⟨proof, checked⟩
                  ⟨laterProof, laterCheck⟩
                have parsed := parseProof_of_checkProof laterCheck
                rw [sameHeader, parseProof_of_checkProof checked] at parsed
                have sameProof := Option.some.inj parsed
                subst sameProof
                have refused := windowAll_replayed (List.mem_append_right _
                  (List.mem_singleton_self _)) member laterCheck recent
                simp [refused]
            | error refusal =>
                have answerEq := windowAll_refusal member laterCheck
                subst answerEq
                refine ⟨checkProof_error_ne laterCheck, fun single => .inr ?_⟩
                have order : head.now ≤ call.now := by
                  apply future
                  simp only [List.mem_cons, readings, List.mem_flatMap]
                  exact .inr ⟨call, inCalls, by simp⟩
                have later := checkProof_later checked order
                rw [← sameHeader, ← single, laterCheck] at later
                rcases later with impossible | expired
                · simp at impossible
                · rw [Except.error.inj expired]

/-- Behind every presentation that passes stands an accepted one of the same
nonce, itself or an earlier one in its window. -/
theorem exists_accepted {call : Call} {answer : ProofResult} {proof : Proof}
    (nonneg : 0 ≤ config.skewSeconds) (clock : (readings calls).Pairwise (· ≤ ·))
    (member : (call, answer) ∈ windowAll hmac config log calls)
    (passed : checkProof hmac config call.now call.header call.count = .ok proof) :
    (∃ seen, (proof.nonce, seen) ∈ log ∧ call.nowSeen - seen ≤ config.skewSeconds) ∨
      ∃ other otherAnswer otherProof,
        (other, otherAnswer) ∈ windowAll hmac config log calls ∧
        otherAnswer.reason = .ok ∧
        checkProof hmac config other.now other.header other.count = .ok otherProof ∧
        otherProof.nonce = proof.nonce ∧ other.nowSeen ≤ call.nowSeen ∧
        call.nowSeen - other.nowSeen ≤ config.skewSeconds := by
  induction calls generalizing log with
  | nil => simp [windowAll] at member
  | cons head calls ih =>
      rw [readings_cons] at clock
      have future := (List.pairwise_cons.mp (List.pairwise_cons.mp clock).2).1
      have tailClock := (List.pairwise_cons.mp (List.pairwise_cons.mp clock).2).2
      rw [windowAll] at member ⊢
      cases checked : checkProof hmac config head.now head.header head.count with
      | error refusal =>
          simp only [checked] at member ⊢
          rcases List.mem_cons.mp member with equal | member
          · rw [(Prod.mk.inj equal).1, checked] at passed
            simp at passed
          · rcases ih tailClock member with logged | ⟨other, answer, proof, found, rest⟩
            · exact .inl logged
            · exact .inr ⟨other, answer, proof, List.mem_cons_of_mem _ found, rest⟩
      | ok headProof =>
          simp only [checked] at member ⊢
          split at member
          next known =>
            rw [if_pos known]
            rcases List.mem_cons.mp member with equal | member
            · left
              rcases Prod.mk.inj equal with ⟨rfl, -⟩
              rw [checked] at passed
              rw [← Except.ok.inj passed]
              rcases List.mem_map.mp known with ⟨⟨nonce, seen⟩, isLive, rfl⟩
              exact ⟨seen, mem_live.mp isLive⟩
            · rcases ih tailClock member with logged | ⟨other, answer, proof, found, rest⟩
              · exact .inl logged
              · exact .inr ⟨other, answer, proof, List.mem_cons_of_mem _ found, rest⟩
          next fresh =>
            rw [if_neg fresh]
            rcases List.mem_cons.mp member with equal | member
            · right
              rcases Prod.mk.inj equal with ⟨rfl, rfl⟩
              rw [checked] at passed
              exact ⟨call, _, headProof, List.mem_cons_self, rfl, checked,
                by rw [Except.ok.inj passed], le_rfl, by omega⟩
            · have inCalls : call ∈ calls := by
                have mapped := List.mem_map_of_mem (f := Prod.fst) member
                rwa [windowAll_map_fst] at mapped
              rcases ih tailClock member with logged | ⟨other, answer, proof, found, rest⟩
              · -- The arrival in the log is either an old one or the head's.
                rcases logged with ⟨seen, inLog, recent⟩
                rcases List.mem_append.mp inLog with old | new
                · exact .inl ⟨seen, old, recent⟩
                · right
                  rcases Prod.mk.inj (List.mem_singleton.mp new) with ⟨nonceEq, rfl⟩
                  refine ⟨head, _, headProof, List.mem_cons_self, rfl, checked,
                    nonceEq.symm, ?_, recent⟩
                  apply future
                  simp only [readings, List.mem_flatMap]
                  exact ⟨call, inCalls, by simp⟩
              · exact .inr ⟨other, answer, proof, List.mem_cons_of_mem _ found, rest⟩

/-- The second readings of a run do not go back either. -/
theorem pairwise_nowSeen (clock : (readings calls).Pairwise (· ≤ ·)) :
    calls.Pairwise fun first later => first.nowSeen ≤ later.nowSeen := by
  induction calls with
  | nil => exact List.Pairwise.nil
  | cons call calls ih =>
      rw [readings_cons] at clock
      rcases List.pairwise_cons.mp (List.pairwise_cons.mp clock).2 with ⟨future, clock⟩
      refine List.pairwise_cons.mpr ⟨?_, ih clock⟩
      intro later member
      apply future
      simp only [readings, List.mem_flatMap]
      exact ⟨later, member, by simp⟩

/-- On the log, if nonces identify headers, a header that passes again outside
the window of its first presentation is accepted twice. -/
theorem withinOneWindow_of_acceptedOnce (nonneg : 0 ≤ config.skewSeconds)
    (clock : (readings calls).Pairwise (· ≤ ·))
    (identify : NoncesIdentify hmac config calls)
    (once : AcceptedOnce (windowAll hmac config [] calls)) :
    WithinOneWindow hmac config calls := by
  have order : (windowAll hmac config [] calls).Pairwise
      fun first later => first.1.nowSeen ≤ later.1.nowSeen := by
    rw [← List.pairwise_map (f := Prod.fst) (R := fun first later : Call =>
      first.nowSeen ≤ later.nowSeen), windowAll_map_fst]
    exact pairwise_nowSeen clock
  have behind : ∀ call ∈ calls, ∀ proof,
      checkProof hmac config call.now call.header call.count = .ok proof →
      ∃ other otherAnswer otherProof,
        (other, otherAnswer) ∈ windowAll hmac config [] calls ∧
        otherAnswer.reason = .ok ∧
        checkProof hmac config other.now other.header other.count = .ok otherProof ∧
        otherProof.nonce = proof.nonce ∧ other.nowSeen ≤ call.nowSeen ∧
        call.nowSeen - other.nowSeen ≤ config.skewSeconds := by
    intro call member proof passed
    have mapped : call ∈ (windowAll hmac config [] calls).map Prod.fst := by
      rw [windowAll_map_fst]
      exact member
    rcases List.mem_map.mp mapped with ⟨⟨call, answer⟩, inTrace, rfl⟩
    rcases exists_accepted nonneg clock inTrace passed with ⟨seen, logged, -⟩ | found
    · simp at logged
    · exact found
  refine List.pairwise_iff_forall_sublist.mpr ?_
  intro first later sublist sameHeader ⟨proof, passed⟩ ⟨laterProof, laterPassed⟩
  have firstMem : first ∈ calls := sublist.subset (by simp)
  have laterMem : later ∈ calls := sublist.subset (by simp)
  have sameProof : laterProof = proof := by
    have parsed := parseProof_of_checkProof laterPassed
    rw [sameHeader, parseProof_of_checkProof passed] at parsed
    exact (Option.some.inj parsed).symm
  subst sameProof
  by_contra far
  rcases behind first firstMem _ passed with
    ⟨one, oneAnswer, oneProof, oneMem, oneOk, onePassed, oneNonce, oneLe, -⟩
  rcases behind later laterMem _ laterPassed with
    ⟨two, twoAnswer, twoProof, twoMem, twoOk, twoPassed, twoNonce, -, twoRecent⟩
  have oneIn : one ∈ calls := by
    have mapped := List.mem_map_of_mem (f := Prod.fst) oneMem
    rwa [windowAll_map_fst] at mapped
  have twoIn : two ∈ calls := by
    have mapped := List.mem_map_of_mem (f := Prod.fst) twoMem
    rwa [windowAll_map_fst] at mapped
  have headers := identify two twoIn one oneIn twoProof oneProof twoPassed onePassed
    (twoNonce.trans oneNonce.symm)
  have refused := rel_of_measure_lt once order oneMem twoMem
    (show one.nowSeen < two.nowSeen by omega) oneOk headers
  exact refused.1 twoOk

end Window

/-- The constructor keeps mode and cache switch and never leaves a verifier
without a positive skew. -/
theorem Config.create_eq {mode : ProofMode} {originId secretsSpec : Bytes}
    {skewSeconds : Int} {replayCache : Bool} {replayCapacity : Nat} {config : Config}
    (created : Config.create mode originId secretsSpec skewSeconds replayCache
      replayCapacity = .ok config) :
    config.mode = mode ∧ config.replayCache = replayCache ∧
      config.replayCapacity = replayCapacity ∧ 0 < config.skewSeconds := by
  have positive : 0 < (if skewSeconds > 0 then skewSeconds else 30) := by
    split <;> omega
  simp only [Config.create] at created
  split at created
  next =>
    rw [← Except.ok.inj created]
    exact ⟨rfl, rfl, rfl, positive⟩
  next =>
    split at created
    next => simp at created
    next =>
      simp only [bind, Except.bind] at created
      split at created
      next => simp at created
      next =>
        split at created
        next => simp at created
        next =>
          rw [← Except.ok.inj created]
          exact ⟨rfl, rfl, rfl, positive⟩

/-- In every run of a verifier with its gate and its replay cache on, whose clock
does not go back and which accepts fewer distinct nonces than the cache holds: if
no header passes the checks again more than `skew` seconds after it passed them
before, no header is accepted twice; and where the nonces of the headers that
pass are distinct, only then. -/
theorem acceptedOnce_iff_withinOneWindow {hmac : Hmac} {mode : ProofMode}
    {originId secretsSpec : Bytes} {skewSeconds : Int} {replayCapacity : Nat}
    {config : Config} {calls : List Call}
    (created : Config.create mode originId secretsSpec skewSeconds true replayCapacity =
      .ok config)
    (gate : mode ≠ .off) (clock : (readings calls).Pairwise (· ≤ ·))
    (room : (acceptedNonces (verifyAll hmac config .empty calls)).dedup.length <
      replayCapacity) :
    (WithinOneWindow hmac config calls →
      AcceptedOnce (verifyAll hmac config .empty calls)) ∧
    (NoncesIdentify hmac config calls →
      AcceptedOnce (verifyAll hmac config .empty calls) →
        WithinOneWindow hmac config calls) := by
  rcases Config.create_eq created with ⟨modeEq, on, capacityEq, positive⟩
  have nonneg := positive.le
  rw [← modeEq] at gate
  rw [← capacityEq] at room
  have refined : verifyAll hmac config .empty calls = windowAll hmac config [] calls :=
    verifyAll_eq_windowAll gate on nonneg clock (Tracks.empty config calls) room
  rw [refined]
  constructor
  · intro within
    exact windowAll_acceptedOnce clock within
  · intro identify once
    exact withinOneWindow_of_acceptedOnce nonneg clock identify once

/-- A header stays inside one window if it is never presented before its own
timestamp and never looked up after the timestamp has expired. -/
theorem withinOneWindow_of_timestamps {hmac : Hmac} {config : Config} {calls : List Call}
    (current : ∀ call ∈ calls, ∀ proof tsValue,
      Authentic hmac config call.header proof tsValue →
        Passes hmac config call →
          tsValue ≤ call.nowSeen ∧ call.nowSeen - tsValue ≤ config.skewSeconds) :
    WithinOneWindow hmac config calls := by
  refine List.pairwise_iff_forall_sublist.mpr ?_
  intro first later sublist sameHeader firstPasses laterPasses
  rcases firstPasses with ⟨proof, passed⟩
  rcases authentic_of_checkProof passed with ⟨-, tsValue, authentic, -⟩
  have laterAuthentic : Authentic hmac config later.header proof tsValue := by
    rw [sameHeader]
    exact authentic
  have arrived := current first (sublist.subset (by simp)) proof tsValue authentic
    ⟨proof, passed⟩
  have unexpired := current later (sublist.subset (by simp)) proof tsValue laterAuthentic
    laterPasses
  omega

instance (trace : List (Call × ProofResult)) : Decidable (AcceptedOnce trace) :=
  inferInstanceAs (Decidable (List.Pairwise _ trace))

/-- A verifier with one all-zero secret, origin `w` and the default skew. -/
def sampleConfig : Config :=
  ⟨.require, ascii "w", [(ascii "k", List.replicate 32 0)], 30, true, 100000⟩

/-- `HMAC-SHA256` under the all-zero key of the canonical string of
`sampleHeader`. -/
def sampleHmac : Hmac := fun _ _ =>
  [48, 179, 220, 164, 105, 0, 114, 117, 77, 91, 241, 179, 219, 178, 230, 190, 180, 34, 174,
    154, 224, 131, 78, 96, 84, 1, 114, 113, 85, 223, 20, 69]

/-- A header whose timestamp is the second 1030. -/
def sampleHeader : Bytes :=
  ascii "v1.k.1030.AAAAAAAAAAAAAAAAAAAAAA.MLPcpGkAcnVNW_Gz27LmvrQirprgg05gVAFycVXfFEU"

/-- The header arrives on time and again thirty seconds later. -/
def sampleCallsInTime : List Call :=
  [⟨sampleHeader, 1, 1030, 1030⟩, ⟨sampleHeader, 1, 1060, 1060⟩]

theorem sampleCallsInTime_acceptedOnce :
    Config.create .require (ascii "w") (ascii "k:" ++ List.replicate 64 0x30) 30 true
        100000 = .ok sampleConfig ∧
      WithinOneWindow sampleHmac sampleConfig sampleCallsInTime ∧
      AcceptedOnce (verifyAll sampleHmac sampleConfig .empty sampleCallsInTime) := by
  have created : Config.create .require (ascii "w") (ascii "k:" ++ List.replicate 64 0x30)
      30 true 100000 = .ok sampleConfig := rfl
  have within : WithinOneWindow sampleHmac sampleConfig sampleCallsInTime := by
    simp [WithinOneWindow, sampleCallsInTime, sampleConfig]
  refine ⟨created, within, ?_⟩
  exact (acceptedOnce_iff_withinOneWindow created (by decide) (by decide)
    (by decide)).1 within

/-- The header arrives in the second 1000, thirty seconds early, and again in
the second 1031. -/
def sampleCallsEarly : List Call :=
  [⟨sampleHeader, 1, 1000, 1000⟩, ⟨sampleHeader, 1, 1031, 1031⟩]

/-- Both presentations are answered with OK, though the clock did not go back and
the cache was far from full. -/
theorem sampleCallsEarly_accepted_twice :
    Config.create .require (ascii "w") (ascii "k:" ++ List.replicate 64 0x30) 30 true
        100000 = .ok sampleConfig ∧
      (readings sampleCallsEarly).Pairwise (· ≤ ·) ∧
      (acceptedNonces (verifyAll sampleHmac sampleConfig .empty
        sampleCallsEarly)).dedup.length < sampleConfig.replayCapacity ∧
      (verifyAll sampleHmac sampleConfig .empty sampleCallsEarly).map (fun entry =>
        entry.2.reason) = [.ok, .ok] ∧
      ¬AcceptedOnce (verifyAll sampleHmac sampleConfig .empty sampleCallsEarly) := by
  refine ⟨rfl, by decide, ?_, ?_, ?_⟩
  · decide
  · decide
  · decide

end VgiRpc.ProxyProof
