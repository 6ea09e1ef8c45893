import VgiRpc.Crypto.Base64url
import VgiRpc.Lib.Runs
import VgiRpc.Session.Ledger

/-!
# The lifecycle of a sticky session

Whoever runs a hook holds the entry's dispatch mutex, because each remover takes
the mutex first; and each entry has one right to run its hook.  With the shape of
the call stacks this gives the guarantees of the registry, whatever the
interleaving.
-/

namespace VgiRpc.Session

open VgiRpc.Cpp VgiRpc.Lib

/-! ## Stacks of calls -/

section Stacks

variable {Thread : Type} [DecidableEq Thread] {aeadOpen : AeadOpen} {serverId : Bytes}
  {state next : State Thread} {event : Option (Event Thread)} {trace : List (Event Thread)}

/-- The token names the session id: it unseals to it for some principal at some time. -/
def Names (aeadOpen : AeadOpen) (serverId token id : Bytes) : Prop :=
  ∃ aad unixNow, unsealToken aeadOpen serverId token aad unixNow = .ok id

def Frame.isHook : Frame → Bool
  | .hook _ _ => true
  | .openInsert _ _ _ | .find _ _ _ | .lock _ _ _ _ | .check _ _ _ _ | .sweepCollect _
  | .sweepNext _ | .sweepCheck _ _ _ | .shutdownNext _ | .removed _ _ | .finish _ _ => false

/-- What a call that removed an entry goes on to do. -/
def After.WellFormed (aeadOpen : AeadOpen) (serverId : Bytes) : After → Prop
  | .returnOk => False
  | .closeTrue token id => Names aeadOpen serverId token id
  | .resolveRefused _ _ | .closeFalse _ | .sweepOn _ | .shutdownOn _ | .raise => True

/-- A frame that looks up an id has its id from its token. -/
def Frame.WellFormed (aeadOpen : AeadOpen) (serverId : Bytes) : Frame → Prop
  | .find _ token id | .lock _ token id _ | .check _ token id _ => Names aeadOpen serverId token id
  | .removed _ next | .hook _ next => next.WellFormed aeadOpen serverId
  | .finish _ next => next = .returnOk ∨ next.WellFormed aeadOpen serverId
  | .openInsert _ _ _ | .sweepCollect _ | .sweepNext _ | .sweepCheck _ _ _ | .shutdownNext _ => True

/-- The frames are well-formed, and only a hook has calls on top of it. -/
structure Stacked (aeadOpen : AeadOpen) (serverId : Bytes) (frames : List Frame) : Prop where
  wellFormed : ∀ frame ∈ frames, frame.WellFormed aeadOpen serverId
  nested : ∀ frame ∈ frames.tail, frame.isHook = true

/-- What a step does to the stack of its thread. -/
structure Turn (aeadOpen : AeadOpen) (serverId : Bytes) (state : State Thread) (thread : Thread)
    (top : Option Frame) (rest : List Frame) : Prop where
  below : (state.Running thread ∧ rest = state.frames thread) ∨
    ∃ old, state.frames thread = old :: rest
  wellFormed : Stacked aeadOpen serverId (state.frames thread) →
    ∀ frame ∈ top, frame.WellFormed aeadOpen serverId
  /-- `resolve` is about to report OK: the entry is in the map. -/
  resolved : Stacked aeadOpen serverId (state.frames thread) →
    ∀ entry, top = some (.finish entry .returnOk) → ∃ id, state.lookup id = some entry

/-- A step leaves the stacks alone, or changes that of one thread. -/
def Moved (aeadOpen : AeadOpen) (serverId : Bytes) (state next : State Thread) : Prop :=
  (∀ thread, next.frames thread = state.frames thread) ∨
    ∃ thread top rest, Turn aeadOpen serverId state thread top rest ∧
      ∀ other, next.frames other =
        if other = thread then top.toList ++ rest else state.frames other

namespace Moved

variable {base : State Thread} {thread : Thread} {old frame : Frame} {rest : List Frame}

/-- A call begins. -/
theorem push (framesEq : ∀ other, base.frames other = state.frames other)
    (running : state.Running thread) (good : frame.WellFormed aeadOpen serverId)
    (quiet : ∀ entry, frame ≠ .finish entry .returnOk) :
    Moved aeadOpen serverId state (base.setFrames thread (frame :: state.frames thread)) := by
  refine .inr ⟨thread, some frame, state.frames thread, ⟨.inl ⟨running, rfl⟩, ?_, ?_⟩, ?_⟩
  · intro _ other mem
    rw [Option.mem_some_iff] at mem
    rw [← mem]
    exact good
  · intro _ entry same
    rw [Option.some.injEq] at same
    exact absurd same (quiet entry)
  · intro other
    rw [State.frames_setFrames, framesEq]
    rfl

/-- A call moves on. -/
theorem replace (framesEq : ∀ other, base.frames other = state.frames other)
    (top : state.frames thread = old :: rest)
    (good : old.WellFormed aeadOpen serverId → frame.WellFormed aeadOpen serverId)
    (resolved : old.WellFormed aeadOpen serverId → ∀ entry, frame = .finish entry .returnOk →
      ∃ id, state.lookup id = some entry) :
    Moved aeadOpen serverId state (base.setFrames thread (frame :: rest)) := by
  have oldGood (stacked : Stacked aeadOpen serverId (state.frames thread)) :
      old.WellFormed aeadOpen serverId := by
    apply stacked.wellFormed
    rw [top]
    exact List.mem_cons_self
  refine .inr ⟨thread, some frame, rest, ⟨.inr ⟨old, top⟩, ?_, ?_⟩, ?_⟩
  · intro stacked other mem
    rw [Option.mem_some_iff] at mem
    rw [← mem]
    exact good (oldGood stacked)
  · intro stacked entry same
    rw [Option.some.injEq] at same
    exact resolved (oldGood stacked) entry same
  · intro other
    rw [State.frames_setFrames, framesEq]
    rfl

/-- A call returns. -/
theorem pop (framesEq : ∀ other, next.frames other = (state.setFrames thread rest).frames other)
    (top : state.frames thread = old :: rest) : Moved aeadOpen serverId state next := by
  refine .inr ⟨thread, none, rest, ⟨.inr ⟨old, top⟩, ?_, ?_⟩, ?_⟩
  · intro _ _ mem
    simp at mem
  · intro _ _ same
    simp at same
  · intro other
    rw [framesEq, State.frames_setFrames]
    rfl

/-- The call goes on to give its lock back. -/
theorem finish {entry : Entry} {after : After} (top : state.frames thread = old :: rest)
    (good : old.WellFormed aeadOpen serverId → after.WellFormed aeadOpen serverId) :
    Moved aeadOpen serverId state (state.setFrames thread (.finish entry after :: rest)) := by
  apply replace (fun _ => rfl) top
  · intro oldGood
    exact .inr (good oldGood)
  · intro oldGood other same
    rw [Frame.finish.injEq] at same
    have wrong := good oldGood
    rw [same.2] at wrong
    exact wrong.elim

end Moved

/-- Every step changes the stack of one thread at most, in one of three ways. -/
theorem Step.moved (step : Step aeadOpen serverId state event next) :
    Moved aeadOpen serverId state next := by
  cases step with
  | tick _ => exact .inl fun _ => rfl
  | openBegin running => exact .push (fun _ => rfl) running trivial (by simp)
  | openInsert top => exact .pop (fun _ => rfl) top
  | callRefused _ _ => exact .inl fun _ => rfl
  | callBegin running unsealed => exact .push (fun _ => rfl) running ⟨_, _, unsealed⟩ (by simp)
  | findMissing top _ => exact .pop (fun _ => rfl) top
  | findEntry top _ => exact .replace (fun _ => rfl) top (fun good => good) (by simp)
  | lock top _ => exact .replace (fun _ => rfl) top (fun good => good) (by simp)
  | @checkMissing _ call _ _ _ _ top _ => exact .finish top fun _ => by cases call <;> trivial
  | checkResolveKeep top _ _ => exact .pop (fun _ => State.frames_setHandles _ _ _ _) top
  | checkResolve top present _ =>
      apply Moved.replace (fun _ => rfl) top
      · intro _
        exact .inl rfl
      · intro _ entry same
        rw [Frame.finish.injEq] at same
        rw [← same.1]
        exact ⟨_, present⟩
  | checkExpired top _ _ => exact .replace (fun _ => rfl) top (fun _ => trivial) (by simp)
  | checkClose top _ => exact .replace (fun _ => rfl) top (fun good => good) (by simp)
  | sweepBegin running => exact .push (fun _ => rfl) running trivial (by simp)
  | sweepCollect top _ => exact .replace (fun _ => rfl) top (fun _ => trivial) (by simp)
  | sweepDone top => exact .pop (fun _ => rfl) top
  | sweepLock top _ => exact .replace (fun _ => rfl) top (fun _ => trivial) (by simp)
  | sweepRemove top _ _ => exact .replace (fun _ => rfl) top (fun _ => trivial) (by simp)
  | sweepKeep top _ => exact .finish top fun _ => trivial
  | shutdownBegin running _ => exact .push (fun _ => rfl) running trivial (by simp)
  | shutdownDone top => exact .pop (fun _ => rfl) top
  | shutdownLock top _ => exact .replace (fun _ => rfl) top (fun _ => trivial) (by simp)
  | hookStart top _ => exact .replace (fun _ => rfl) top (fun good => good) (by simp)
  | hookSkip top _ => exact .finish top fun good => good
  | hookEnd top => exact .finish top fun good => good
  | hookThrow top => exact .finish top fun _ => trivial
  | @finish thread _ after rest top =>
      cases after with
      | sweepOn _ => exact .replace (fun _ => rfl) top (fun _ => trivial) (by simp)
      | shutdownOn _ => exact .replace (fun _ => rfl) top (fun _ => trivial) (by simp)
      | _ => exact .pop (fun _ => rfl) top
  | release _ _ => exact .inl fun _ => State.frames_setHandles _ _ _ _

omit [DecidableEq Thread] in
/-- Below the innermost call there are hooks. -/
theorem Turn.hooks {thread : Thread} {top : Option Frame} {rest : List Frame}
    (turn : Turn aeadOpen serverId state thread top rest)
    (stacked : Stacked aeadOpen serverId (state.frames thread)) :
    ∀ frame ∈ rest, frame.isHook = true := by
  intro frame mem
  rcases turn.below with ⟨running, rfl⟩ | ⟨old, stack⟩
  · rw [State.Running] at running
    split at running
    next empty => simp [empty] at mem
    next entry after below stack =>
      rw [stack, List.mem_cons] at mem
      rcases mem with rfl | mem
      · rfl
      · apply stacked.nested
        rw [stack]
        exact mem
    next => exact running.elim
  · apply stacked.nested
    rw [stack]
    exact mem

/-- Every step keeps the stacks in shape. -/
theorem Step.stacked (step : Step aeadOpen serverId state event next)
    (stacked : ∀ thread, Stacked aeadOpen serverId (state.frames thread)) (thread : Thread) :
    Stacked aeadOpen serverId (next.frames thread) := by
  rcases step.moved with same | ⟨mover, top, rest, turn, framesEq⟩
  · rw [same]
    exact stacked thread
  · rw [framesEq]
    split
    next =>
      have before := stacked mover
      have hooks := turn.hooks before
      have good : ∀ frame ∈ rest, frame.WellFormed aeadOpen serverId := by
        intro frame mem
        apply before.wellFormed
        rcases turn.below with ⟨-, rfl⟩ | ⟨old, top⟩
        · exact mem
        · rw [top]
          exact List.mem_cons_of_mem old mem
      cases top with
      | none => exact ⟨good, fun frame mem => hooks frame (List.mem_of_mem_tail mem)⟩
      | some frame =>
          constructor
          · intro item mem
            rw [Option.toList_some, List.singleton_append, List.mem_cons] at mem
            rcases mem with rfl | mem
            · exact turn.wellFormed before item rfl
            · exact good item mem
          · exact hooks
    next => exact stacked thread

end Stacks

/-! ## Tokens and session ids -/

/-- A sealed text has one plaintext under a key: the associated data decides only
whether it opens. -/
def OneFrame (aeadOpen : AeadOpen) : Prop :=
  ∀ sealed aad other frame frame', aeadOpen sealed aad = some frame →
    aeadOpen sealed other = some frame' → frame = frame'

/-- The session id in the frame of a token. -/
def frameSessionId (frame : Bytes) : Bytes :=
  match frame.drop 8 with
  | [] => []
  | idLen :: rest => (rest.drop idLen.toNat).take 24

theorem unsealToken_ok {aeadOpen : AeadOpen} {serverId token aad id : Bytes} {unixNow : Nat}
    (unsealed : unsealToken aeadOpen serverId token aad unixNow = .ok id) :
    ∃ version sealed frame, Crypto.base64urlDecode token = some (version :: sealed) ∧
      aeadOpen sealed aad = some frame ∧ frameSessionId frame = id := by
  rw [unsealToken] at unsealed
  split at unsealed
  next => simp at unsealed
  next =>
    split at unsealed
    next version sealed decoded =>
      split at unsealed
      next => simp at unsealed
      next =>
        split at unsealed
        next => simp at unsealed
        next frame opened =>
          refine ⟨version, sealed, frame, decoded, opened, ?_⟩
          split at unsealed
          next => simp at unsealed
          next idLen rest shape =>
            simp only [frameSessionId, shape]
            simp only at unsealed
            split at unsealed
            next => simp at unsealed
            next =>
              split at unsealed
              next => simp at unsealed
              next =>
                split at unsealed
                next => simp at unsealed
                next => exact Except.ok.inj unsealed
    next => simp at unsealed

/-- A token names one session id. -/
theorem Names.unique {aeadOpen : AeadOpen} {serverId token id id' : Bytes}
    (oneFrame : OneFrame aeadOpen) (first : Names aeadOpen serverId token id)
    (second : Names aeadOpen serverId token id') : id = id' := by
  rcases first with ⟨aad, now, first⟩
  rcases second with ⟨other, later, second⟩
  rcases unsealToken_ok first with ⟨version, sealed, frame, decoded, opened, rfl⟩
  rcases unsealToken_ok second with ⟨version', sealed', frame', decoded', opened', rfl⟩
  rw [decoded, Option.some.injEq, List.cons.injEq] at decoded'
  rw [← decoded'.2] at opened'
  rw [oneFrame sealed aad other frame frame' opened opened']

/-! ## Whole runs -/

section Runs

variable {Thread : Type} [DecidableEq Thread] {aeadOpen : AeadOpen} {serverId : Bytes}
  {state next : State Thread} {event : Option (Event Thread)} {trace : List (Event Thread)}
  {thread : Thread} {token id : Bytes} {entry : Entry}

/-- The hooks that a trace has started, in order. -/
def hooksStarted (trace : List (Event Thread)) : List Entry := trace.filterMap Event.started

/-- The session ids that a trace has opened, in order. -/
def idsOpened (trace : List (Event Thread)) : List Bytes := (closeLedger Thread).opened trace

/-- What holds in every reachable state. -/
structure Invariant (aeadOpen : AeadOpen) (serverId : Bytes) (trace : List (Event Thread))
    (state : State Thread) : Prop where
  locks : state.LocksTrack
  hooks : (hookLedger Thread).Balanced trace state
  closes : (closeLedger Thread).Balanced trace state
  calls : ∀ thread, Stacked aeadOpen serverId (state.frames thread)
  distinct : ((hookLedger Thread).opened trace).Nodup
  addresses : ∀ entry ∈ (hookLedger Thread).opened trace, entry.address < state.nextAddress
  pending : ∀ thread entry rest, state.frames thread = .finish entry .returnOk :: rest →
    entry ∉ hooksStarted trace

/-- Only `open` makes entries, each at a new address. -/
theorem Step.opened (step : Step aeadOpen serverId state event next) :
    ((hookLedger Thread).opened event.toList = [] ∧ next.nextAddress = state.nextAddress) ∨
      ∃ entry, (hookLedger Thread).opened event.toList = [entry] ∧
        entry.address = state.nextAddress ∧ next.nextAddress = state.nextAddress + 1 := by
  cases step with
  | openInsert _ => exact .inr ⟨_, rfl, rfl, rfl⟩
  | @callRefused _ call _ _ _ _ _ => exact .inl ⟨by cases call <;> rfl, rfl⟩
  | @findMissing _ call _ _ _ _ _ => exact .inl ⟨by cases call <;> rfl, rfl⟩
  | @finish _ _ after _ _ => exact .inl ⟨by cases after <;> rfl, rfl⟩
  | _ => exact .inl ⟨rfl, rfl⟩

/-- A hook starts under the dispatch mutex, from the call that removed the entry. -/
theorem Step.started (step : Step aeadOpen serverId state event next)
    (starts : entry ∈ hooksStarted event.toList) :
    ∃ thread after rest, state.frames thread = .removed entry after :: rest := by
  cases step with
  | @hookStart _ _ _ _ top _ =>
      rw [List.mem_singleton.mp starts]
      exact ⟨_, _, _, top⟩
  | @callRefused _ call _ _ _ _ _ =>
      exfalso
      cases call <;> simp [hooksStarted, Call.refused, Event.started, List.filterMap_cons] at starts
  | @findMissing _ call _ _ _ _ _ =>
      exfalso
      cases call <;> simp [hooksStarted, Call.refused, Event.started, List.filterMap_cons] at starts
  | @finish _ _ after _ _ =>
      exfalso
      cases after <;> simp [hooksStarted, After.event, Event.started, List.filterMap_cons] at starts
  | _ => simp [hooksStarted, Event.started, List.filterMap_cons] at starts

theorem invariant_initial (steadyNow : Int) (unixNow : Nat) :
    Invariant aeadOpen serverId [] (State.initial steadyNow unixNow : State Thread) where
  locks := fun _ _ => rfl
  hooks := fun threads entry => by simp [Ledger.mapped, Ledger.kept, Ledger.spent, State.initial,
    State.frames]
  closes := fun threads id => by simp [Ledger.mapped, Ledger.kept, Ledger.spent, State.initial,
    State.frames]
  calls := fun _ => ⟨by simp [State.initial, State.frames], by simp [State.initial, State.frames]⟩
  distinct := List.nodup_nil
  addresses := by simp [Ledger.opened]
  pending := by simp [State.initial, State.frames]

omit [DecidableEq Thread] in
theorem hook_mapped_pos (present : state.lookup id = some entry) :
    0 < (hookLedger Thread).mapped state entry := by
  have count := Ledger.count_filter_lookup (hookLedger Thread).key present entry
  rw [hookLedger_key, List.count_singleton_self] at count
  exact lt_of_lt_of_le (Nat.succ_pos _) count

/-- The hook of an entry that is in the map has not started. -/
theorem Invariant.not_started (invariant : Invariant aeadOpen serverId trace state)
    (present : state.lookup id = some entry) : entry ∉ hooksStarted trace := by
  intro started
  have once : 0 < ((hookLedger Thread).spent trace).count entry := List.count_pos_iff.mpr started
  have bound := invariant.hooks ∅ entry
  have mapped := hook_mapped_pos present
  have single := List.nodup_iff_count_le_one.mp invariant.distinct entry
  omega

/-- While one thread runs a hook or is about to, no other thread has the dispatch
mutex. -/
theorem Invariant.exclusive (invariant : Invariant aeadOpen serverId trace state)
    {frame other : Frame} {holder : Thread} (mine : frame ∈ state.frames thread)
    (holds : 0 < frame.holds entry) (theirs : other ∈ state.frames holder)
    (held : 0 < other.holds entry) : holder = thread := by
  have depth {owner : Thread} {item : Frame} (mem : item ∈ state.frames owner)
      (positive : 0 < item.holds entry) : 0 < (state.mutexes entry).depth owner := by
    rw [invariant.locks owner entry]
    exact State.holding_pos mem positive
  exact RecursiveMutex.eq_of_depth_pos (depth theirs held) (depth mine holds)

/-- An entry that is in the map has no call that removed it. -/
theorem Invariant.not_removed (invariant : Invariant aeadOpen serverId trace state) {after : After}
    {rest : List Frame} (present : state.lookup id = some entry)
    (removed : state.frames thread = .removed entry after :: rest) : False := by
  have bound := invariant.hooks {thread} entry
  have mapped := hook_mapped_pos present
  have single := List.nodup_iff_count_le_one.mp invariant.distinct entry
  have kept : 0 < (hookLedger Thread).kept state {thread} entry := by
    simp [Ledger.kept, removed, Frame.rights]
  omega

/-- A report of OK was pending before the step, or the entry is still in the map. -/
theorem Step.pending (step : Step aeadOpen serverId state event next)
    (stacked : ∀ thread, Stacked aeadOpen serverId (state.frames thread)) {rest : List Frame}
    (stack : next.frames thread = .finish entry .returnOk :: rest) :
    state.frames thread = .finish entry .returnOk :: rest ∨
      ∃ id, state.lookup id = some entry := by
  rcases step.moved with same | ⟨mover, top, below, turn, framesEq⟩
  · rw [same] at stack
    exact .inl stack
  · rw [framesEq] at stack
    split at stack
    next =>
      cases top with
      | none =>
          have hook := turn.hooks (stacked mover) (.finish entry .returnOk)
          rw [Option.toList_none, List.nil_append] at stack
          rw [stack] at hook
          exact absurd (hook List.mem_cons_self) (by simp [Frame.isHook])
      | some frame =>
          rw [Option.toList_some, List.singleton_append, List.cons.injEq] at stack
          exact .inr (turn.resolved (stacked mover) entry (by rw [stack.1]))
    next => exact .inl stack

theorem Invariant.step (invariant : Invariant aeadOpen serverId trace state)
    (step : Step aeadOpen serverId state event next) :
    Invariant aeadOpen serverId (trace ++ event.toList) next where
  locks := step.locksTrack invariant.locks
  hooks := step.hooks_balanced invariant.hooks
  closes := step.closes_balanced invariant.closes
  calls := step.stacked invariant.calls
  distinct := by
    rw [Ledger.opened_append]
    rcases step.opened with ⟨none, -⟩ | ⟨entry, one, address, -⟩
    · rw [none, List.append_nil]
      exact invariant.distinct
    · rw [one]
      apply invariant.distinct.append (List.nodup_singleton entry)
      intro item mem same
      rw [List.mem_singleton] at same
      have below := invariant.addresses item mem
      rw [same, address] at below
      exact lt_irrefl _ below
  addresses := by
    intro item mem
    rw [Ledger.opened_append, List.mem_append] at mem
    rcases step.opened with ⟨none, address⟩ | ⟨entry, one, address, advance⟩
    · rw [none] at mem
      rw [address]
      exact invariant.addresses item (mem.resolve_right (List.not_mem_nil))
    · rw [one, List.mem_singleton] at mem
      rw [advance]
      rcases mem with mem | rfl
      · exact Nat.lt_succ_of_lt (invariant.addresses item mem)
      · rw [address]
        exact Nat.lt_succ_self _
  pending := by
    intro thread entry rest stack started
    have split : hooksStarted (trace ++ event.toList) =
        hooksStarted trace ++ hooksStarted event.toList := List.filterMap_append
    rw [split, List.mem_append] at started
    rcases step.pending invariant.calls stack with pending | ⟨id, present⟩
    · rcases started with earlier | now
      · exact invariant.pending thread entry rest pending earlier
      · rcases step.started now with ⟨starter, after, below, removed⟩
        have same : starter = thread := by
          have mine : .finish entry .returnOk ∈ state.frames thread := by
            rw [pending]
            exact List.mem_cons_self
          have theirs : .removed entry after ∈ state.frames starter := by
            rw [removed]
            exact List.mem_cons_self
          have positive : 0 < if entry = entry then 1 else 0 := by simp
          exact invariant.exclusive mine positive theirs positive
        rw [same, pending] at removed
        simp at removed
    · rcases started with earlier | now
      · exact invariant.not_started present earlier
      · rcases step.started now with ⟨starter, after, below, removed⟩
        exact invariant.not_removed present removed

theorem invariant_of_run {steadyNow : Int} {unixNow : Nat}
    (run : Run (Step aeadOpen serverId) (State.initial steadyNow unixNow : State Thread) trace
      state) : Invariant aeadOpen serverId trace state :=
  run.invariant (invariant_initial steadyNow unixNow) Invariant.step

/-- `resolve` reports OK for an entry that is in the map under the id of its token. -/
theorem Step.resolved (step : Step aeadOpen serverId state (some (.resolved token id entry)) next)
    (stacked : ∀ thread, Stacked aeadOpen serverId (state.frames thread)) :
    state.lookup id = some entry ∧ Names aeadOpen serverId token id := by
  generalize visible : some (Event.resolved token id entry) = event at step
  cases step with
  | @checkResolveKeep thread _ _ _ _ top present _ =>
      simp only [Option.some.injEq, Event.resolved.injEq] at visible
      rcases visible with ⟨rfl, rfl, rfl⟩
      refine ⟨present, (stacked thread).wellFormed (.check (.resolve true) token id entry) ?_⟩
      rw [top]
      exact List.mem_cons_self
  | @checkResolve thread _ _ _ _ top present _ =>
      simp only [Option.some.injEq, Event.resolved.injEq] at visible
      rcases visible with ⟨rfl, rfl, rfl⟩
      refine ⟨present, (stacked thread).wellFormed (.check (.resolve false) token id entry) ?_⟩
      rw [top]
      exact List.mem_cons_self
  | @callRefused _ call _ _ _ _ _ => cases call <;> simp [Call.refused] at visible
  | @findMissing _ call _ _ _ _ _ => cases call <;> simp [Call.refused] at visible
  | @finish _ _ after _ _ => cases after <;> simp [After.event] at visible
  | _ => simp at visible

/-- `close` returns true for the id of its token. -/
theorem Step.closed (step : Step aeadOpen serverId state (some (.closed token id)) next)
    (stacked : ∀ thread, Stacked aeadOpen serverId (state.frames thread)) :
    Names aeadOpen serverId token id := by
  generalize visible : some (Event.closed token id) = event at step
  cases step with
  | @finish thread _ after _ top =>
      cases after with
      | closeTrue _ _ =>
          simp only [After.event, Option.some.injEq, Event.closed.injEq] at visible
          rcases visible with ⟨rfl, rfl⟩
          have good := (stacked thread).wellFormed (.finish _ (.closeTrue token id)) (by
            rw [top]
            exact List.mem_cons_self)
          rcases good with wrong | named
          · simp at wrong
          · exact named
      | _ => simp [After.event] at visible
  | @callRefused _ call _ _ _ _ _ => cases call <;> simp [Call.refused] at visible
  | @findMissing _ call _ _ _ _ _ => cases call <;> simp [Call.refused] at visible
  | _ => simp at visible

/-- The event is an accepted `resolve` or `close` of the token. -/
def Event.accepts (token : Bytes) : Event Thread → Prop
  | .resolved other _ _ | .closed other _ => other = token
  | .opened _ _ | .resolveRefused _ _ | .closeRefused _ | .hookStarted _ _ | .hookEnded _ _ => False

/-- After `close` returned true for a token, the token is not accepted again. -/
theorem refused_after_close {steadyNow : Int} {unixNow : Nat} {before after : List (Event Thread)}
    (run : Run (Step aeadOpen serverId) (State.initial steadyNow unixNow : State Thread)
      (before ++ .closed token id :: after) state)
    (oneFrame : OneFrame aeadOpen)
    (fresh : (idsOpened (before ++ .closed token id :: after)).Nodup) :
    ∀ event ∈ after, ¬event.accepts token := by
  intro event mem accepted
  rcases List.append_of_mem mem with ⟨between, later, rfl⟩
  rcases run.exists_step_of_append with ⟨closing, afterClose, untilClose, closeStep, -⟩
  have closeNames := closeStep.closed (invariant_of_run untilClose).calls
  rw [← List.cons_append, ← List.append_assoc] at run fresh
  rcases run.exists_step_of_append with ⟨reached, following, prior, step, -⟩
  have invariant := invariant_of_run prior
  -- The id was closed before, so it is not in the map and nothing can close it again.
  have spent : 0 < ((closeLedger Thread).spent (before ++ .closed token id :: between)).count id := by
    rw [List.count_pos_iff, Ledger.spent, List.mem_filterMap]
    exact ⟨.closed token id, by simp, rfl⟩
  have once : ((closeLedger Thread).opened (before ++ .closed token id :: between)).count id ≤ 1 := by
    rw [idsOpened, Ledger.opened_append] at fresh
    exact List.nodup_iff_count_le_one.mp (List.Nodup.of_append_left fresh) id
  cases event with
  | resolved other otherId entry =>
      rw [Event.accepts] at accepted
      rw [accepted] at step
      rcases step.resolved invariant.calls with ⟨present, names⟩
      rw [← closeNames.unique oneFrame names] at present
      have mapped := Ledger.count_filter_lookup (closeLedger Thread).key present id
      rw [closeLedger_key, List.count_singleton_self] at mapped
      have mapEq : (closeLedger Thread).mapped reached id =
          (reached.entries.map (closeLedger Thread).key).count id := rfl
      have bound := invariant.closes ∅ id
      omega
  | closed other otherId =>
      rw [Event.accepts] at accepted
      rw [accepted] at step
      have names := step.closed invariant.calls
      rw [← closeNames.unique oneFrame names] at step
      have bound := (invariant.step step).closes ∅ id
      rw [Ledger.spent_append, Ledger.opened_append, List.count_append, List.count_append] at bound
      have again : ((closeLedger Thread).spent (some (Event.closed token id)).toList).count id = 1 :=
        List.count_singleton_self
      have nothing : (closeLedger Thread).opened (some (Event.closed token id)).toList = [] := rfl
      rw [again, nothing, List.count_nil] at bound
      omega
  | _ => exact accepted

/-- The lifecycle of sessions, in every run of any number of threads: a hook runs
at most once; `resolve` never reports OK for an entry whose hook has started, not
even when it reports late; a hook runs only while no other thread holds the
entry's dispatch mutex; and once `close` returned true for a token, no `resolve` or
`close` of that token succeeds. -/
theorem session_lifecycle {steadyNow : Int} {unixNow : Nat}
    (run : Run (Step aeadOpen serverId) (State.initial steadyNow unixNow : State Thread) trace
      state) :
    (hooksStarted trace).Nodup ∧
      (∀ before after token id entry, trace = before ++ .resolved token id entry :: after →
        entry ∉ hooksStarted before) ∧
      (∀ thread entry rest, state.frames thread = .finish entry .returnOk :: rest →
        entry ∉ hooksStarted trace) ∧
      (∀ thread other entry after, .hook entry after ∈ state.frames thread → other ≠ thread →
        (state.mutexes entry).depth other = 0) ∧
      (OneFrame aeadOpen → (idsOpened trace).Nodup →
        ∀ before after token id, trace = before ++ .closed token id :: after →
          ∀ event ∈ after, ¬event.accepts token) := by
  have invariant := invariant_of_run run
  refine ⟨?_, ?_, invariant.pending, ?_, ?_⟩
  · rw [List.nodup_iff_count_le_one]
    intro entry
    have bound := invariant.hooks ∅ entry
    have single := List.nodup_iff_count_le_one.mp invariant.distinct entry
    have spentEq : (hookLedger Thread).spent trace = hooksStarted trace := rfl
    rw [spentEq] at bound
    omega
  · rintro before after token id entry rfl
    rcases run.exists_step_of_append with ⟨reached, following, prior, step, -⟩
    have earlier := invariant_of_run prior
    exact earlier.not_started (step.resolved earlier.calls).1
  · intro thread other entry after running different
    by_contra held
    have mine : 0 < (state.mutexes entry).depth thread := by
      rw [invariant.locks]
      exact State.holding_pos running (by simp [Frame.holds])
    exact different (RecursiveMutex.eq_of_depth_pos (Nat.pos_of_ne_zero held) mine)
  · rintro oneFrame fresh before after token id rfl
    exact refused_after_close run oneFrame fresh

end Runs

/-! ## A run -/

def sampleId : Bytes := List.replicate 24 0x61

/-- Created at 0 by a server with an empty id, and valid up to 100. -/
def sampleFrame : Bytes := List.replicate 9 0 ++ sampleId ++ [100, 0, 0, 0, 0, 0, 0, 0]

/-- What `aead_seal` makes of the frame under the all-zero key, with the all-zero nonce. -/
def sampleSealed : Bytes :=
  List.replicate 24 0 ++
    [120, 158, 150, 137, 229, 32, 141, 127, 217, 128, 146, 164, 212, 85, 126, 41, 142, 121, 192,
      95, 32, 232, 249, 204, 187, 188, 246, 194, 8, 91, 249, 30, 239, 230, 236, 213, 193, 67, 59,
      254, 209, 204, 149, 84, 10, 78, 81, 182, 219, 17, 220, 227, 124, 253, 62, 177, 80]

def sampleToken : Bytes := Crypto.base64urlEncode (0x01 :: sampleSealed)

/-- The key opens the sealed frame for one principal. -/
def sampleOpen : AeadOpen := fun sealed aad =>
  if sealed = sampleSealed ∧ aad = [] then some sampleFrame else none

theorem sampleOpen_oneFrame : OneFrame sampleOpen := by
  intro sealed aad other frame frame' first second
  rw [sampleOpen, Option.ite_none_right_eq_some] at first second
  exact Option.some.inj (first.2.symm.trans second.2)

def sampleEntry : Entry := ⟨0, true, 60⟩

/-- A session is opened and closed by one thread; another thread comes too late. -/
def sampleTrace : List (Event Bool) :=
  [.opened sampleId sampleEntry, .hookStarted false sampleEntry, .hookEnded false sampleEntry,
    .closed sampleToken sampleId, .resolveRefused sampleToken .missing]

theorem sampleToken_unseals :
    unsealToken sampleOpen [] sampleToken [] 0 = .ok sampleId := by
  have decoded : Crypto.base64urlDecode sampleToken = some (0x01 :: sampleSealed) :=
    Crypto.base64urlDecode_encode _
  have present : sampleToken ≠ [] := by
    intro empty
    rw [empty] at decoded
    cases decoded
  have opened : sampleOpen sampleSealed [] = some sampleFrame := if_pos ⟨rfl, rfl⟩
  rw [unsealToken, if_neg present, decoded]
  dsimp only
  rw [if_neg (by decide), opened]
  decide

theorem sample_run : ∃ state, Run (Step sampleOpen []) (State.initial 0 0 : State Bool)
    sampleTrace state := by
  have start : Run (Step sampleOpen []) (State.initial 0 0 : State Bool) []
      (State.initial 0 0) := .refl
  have opening := start.snoc (@Step.openBegin _ _ _ _ _ false sampleId true 60 trivial)
  have opened := opening.snoc (@Step.openInsert _ _ _ _ _ false _ _ _ _ rfl)
  have closing := opened.snoc
    (@Step.callBegin _ _ _ _ _ false .close _ _ _ trivial sampleToken_unseals)
  have found := closing.snoc
    (@Step.findEntry _ _ _ _ _ false _ _ _ sampleEntry _ rfl (by decide))
  have locked := found.snoc (@Step.lock _ _ _ _ _ false _ _ _ _ _ (.held false 0) rfl rfl)
  have erased := locked.snoc (@Step.checkClose _ _ _ _ _ false _ _ _ _ rfl (by decide))
  have started := erased.snoc (@Step.hookStart _ _ _ _ _ false _ _ _ rfl rfl)
  have ended := started.snoc (@Step.hookEnd _ _ _ _ _ false _ _ _ rfl)
  have closed := ended.snoc (@Step.finish _ _ _ _ _ false _ _ _ rfl)
  have resolving := closed.snoc
    (@Step.callBegin _ _ _ _ _ true (.resolve true) _ _ _ trivial sampleToken_unseals)
  have missing := resolving.snoc
    (@Step.findMissing _ _ _ _ _ true _ _ _ _ rfl (by decide))
  exact ⟨_, missing⟩

/-- The closed token stays closed in the run. -/
theorem sample_lifecycle :
    (hooksStarted sampleTrace).Nodup ∧
      ∀ event ∈ [(.resolveRefused sampleToken .missing : Event Bool)],
        ¬event.accepts sampleToken := by
  rcases sample_run with ⟨state, run⟩
  have facts := session_lifecycle run
  exact ⟨facts.1, facts.2.2.2.2 sampleOpen_oneFrame (by decide)
    [.opened sampleId sampleEntry, .hookStarted false sampleEntry, .hookEnded false sampleEntry]
    _ sampleToken sampleId rfl⟩

end VgiRpc.Session
