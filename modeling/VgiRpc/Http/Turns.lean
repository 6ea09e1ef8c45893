import VgiRpc.Http.Advertised
import VgiRpc.Lib.Runs

/-!
# Concurrent turns on one stream

A continuation fetches its session under `streams_mutex_`, waits for the session's
`dispatch_mutex`, looks the cursor up again, runs the handler, and erases the session
if the turn was the last one.  The model is a step relation over any number of
threads.  A step is one critical section of `streams_mutex_`, one acquisition or
release of a dispatch mutex, or the return of a handler.

The state of a stream belongs to its session, so "on one state" is "on one session".
Nobody knows a cursor before the answer of its `/init`, which is therefore one step.
-/

namespace VgiRpc.Http

open VgiRpc.Cpp VgiRpc.Lib

/-! ## Threads -/

/-- A continuation or cancel request. -/
structure Turn where
  cursor : Bytes
  scope : Bytes
  callToken : Bytes
  limit : Option Int
  cancel : Bool
  deriving DecidableEq

/-- Where the thread of a request stands. -/
inductive Phase where
  | idle
  /-- The session was found; waiting for its dispatch mutex. -/
  | waiting (turn : Turn) (session : StreamSession)
  /-- The dispatch mutex is held; the cursor has to be looked up again. -/
  | locked (turn : Turn) (session : StreamSession)
  /-- `process` or `on_cancel` is running. -/
  | running (turn : Turn) (session : StreamSession)
  /-- The handler returned; the session has to be erased if the turn was the last. -/
  | finishing (turn : Turn) (session : StreamSession) (outcome : Outcome)
  /-- About to give the dispatch mutex back. -/
  | unlocking (session : StreamSession)

/-- Why a continuation is refused before its turn. -/
inductive Refusal where
  /-- "Unknown or missing stream state token". -/
  | unknownToken
  /-- "Stream continuation is missing its call token; ...". -/
  | missingCallToken
  deriving DecidableEq, Repr

/-- What an observer sees. -/
inductive Event (Thread : Type) where
  /-- `process`, or `on_cancel` if the turn is a cancel, begins. -/
  | started (thread : Thread) (turn : Turn) (session : StreamSession)
  /-- It returned or threw. -/
  | returned (turn : Turn) (session : StreamSession) (outcome : Outcome)
  /-- A request was refused because its cursor was not found. -/
  | unknown (thread : Thread) (turn : Turn)
  /-- A request that had found the session was refused. -/
  | refused (thread : Thread) (session : StreamSession) (reason : Refusal)

/-- What the threads share. -/
structure Shared (Thread : Type) where
  registry : Registry
  nextAddress : Nat
  /-- Who holds the dispatch mutex of a session. -/
  owner : StreamSession → Option Thread

/-- The server and the threads that serve it. -/
structure State (Thread : Type) where
  shared : Shared Thread
  phase : Thread → Phase

/-- The server before its first request. -/
def State.initial {Thread : Type} : State Thread := ⟨⟨[], 0, fun _ => none⟩, fun _ => .idle⟩

/-! ## Steps -/

/-- The checks under the dispatch mutex, in the order of the source. -/
def revalidate (config : StreamConfig) (registry : Registry) (turn : Turn)
    (session : StreamSession) : Except Refusal Unit :=
  if registry.lookup turn.cursor ≠ some session then .error .unknownToken
  else if session.aad ≠ turn.scope then .error .unknownToken
  else if config.callStateCache = false ∧
      callTokenResolves config session turn.cursor turn.scope turn.callToken = false then
    .error .missingCallToken
  else .ok ()

/-- Erase a cursor if it still belongs to the session. -/
def Registry.eraseOwn (registry : Registry) (cursor : Bytes) (session : StreamSession) :
    Registry :=
  if registry.lookup cursor = some session then registry.erase cursor else registry

/-- The answer of a turn, and whether its session is erased. -/
def Turn.result (config : StreamConfig) (turn : Turn) (session : StreamSession)
    (outcome : Outcome) : Bool × Response :=
  dispatchTurn config session turn.cursor turn.limit turn.cancel outcome

section Steps

variable {Thread : Type} [DecidableEq Thread]

/-- Set who holds a dispatch mutex. -/
def Shared.setOwner (shared : Shared Thread) (session : StreamSession) (owner : Option Thread) :
    Shared Thread :=
  { shared with owner := Function.update shared.owner session owner }

omit [DecidableEq Thread] in
@[simp] theorem Shared.owner_setOwner (shared : Shared Thread) (session other : StreamSession)
    (owner : Option Thread) :
    (shared.setOwner session owner).owner other =
      if other = session then owner else shared.owner other :=
  Function.update_apply shared.owner session owner other

/-- What one thread can do next. -/
inductive Move (config : StreamConfig) (thread : Thread) :
    Shared Thread → Phase → Option (Event Thread) → Shared Thread → Phase → Prop
  /-- `/init`, with a session object of its own. -/
  | init {shared cursor session factory outcome} (fresh : session.address = shared.nextAddress) :
      Move config thread shared .idle none
        { shared with
          registry := (handleInit config shared.registry cursor session factory outcome).1
          nextAddress := shared.nextAddress + 1 }
        .idle
  /-- A cursor that is missing or not registered. -/
  | unknown {shared} {turn : Turn}
      (missing : turn.cursor = [] ∨ shared.registry.lookup turn.cursor = none) :
      Move config thread shared .idle (some (.unknown thread turn)) shared .idle
  | lookup {shared} {turn : Turn} {session} (present : turn.cursor ≠ [])
      (found : shared.registry.lookup turn.cursor = some session) :
      Move config thread shared .idle none shared (.waiting turn session)
  | lock {shared turn session} (free : shared.owner session = none) :
      Move config thread shared (.waiting turn session) none
        (shared.setOwner session (some thread)) (.locked turn session)
  | start {shared turn session} (live : revalidate config shared.registry turn session = .ok ()) :
      Move config thread shared (.locked turn session) (some (.started thread turn session))
        shared (.running turn session)
  | refuse {shared turn session reason}
      (dead : revalidate config shared.registry turn session = .error reason) :
      Move config thread shared (.locked turn session) (some (.refused thread session reason))
        shared (.unlocking session)
  | finish {shared turn session} (outcome : Outcome) :
      Move config thread shared (.running turn session) (some (.returned turn session outcome))
        shared (.finishing turn session outcome)
  | erase {shared turn session outcome} :
      Move config thread shared (.finishing turn session outcome) none
        { shared with
          registry :=
            if (turn.result config session outcome).1 then
              shared.registry.eraseOwn turn.cursor session
            else shared.registry }
        (.unlocking session)
  | unlock {shared session} :
      Move config thread shared (.unlocking session) none (shared.setOwner session none) .idle

/-- A thread moved on. -/
def State.move (state : State Thread) (thread : Thread) (shared : Shared Thread) (phase : Phase) :
    State Thread :=
  ⟨shared, Function.update state.phase thread phase⟩

/-- One step of the server: some thread moves. -/
inductive Step (config : StreamConfig) :
    State Thread → Option (Event Thread) → State Thread → Prop
  | move {state : State Thread} {thread event shared phase}
      (moved : Move config thread state.shared (state.phase thread) event shared phase) :
      Step config state event (state.move thread shared phase)

@[simp] theorem State.shared_move (state : State Thread) (thread : Thread)
    (shared : Shared Thread) (phase : Phase) :
    (state.move thread shared phase).shared = shared := rfl

@[simp] theorem State.phase_move (state : State Thread) (thread other : Thread)
    (shared : Shared Thread) (phase : Phase) :
    (state.move thread shared phase).phase other =
      if other = thread then phase else state.phase other :=
  Function.update_apply state.phase thread phase other

end Steps

/-! ## What a run must not do -/

namespace Event

variable {Thread : Type}

/-- A handler of the session begins. -/
def Starts (session : StreamSession) : Event Thread → Prop
  | .started _ _ other => other = session
  | _ => False

/-- `on_cancel` of the session begins. -/
def startsCancel (session : StreamSession) : Event Thread → Bool
  | .started _ turn other => turn.cancel && other = session
  | _ => false

/-- A turn of the session ended the stream: its answer does not advertise the cursor. -/
def Ends (config : StreamConfig) (session : StreamSession) : Event Thread → Prop
  | .returned turn other outcome =>
      other = session ∧ (turn.result config session outcome).2.advertises turn.cursor = false
  | _ => False

/-- A turn of the session erases it. -/
def Removes (config : StreamConfig) (session : StreamSession) : Event Thread → Prop
  | .returned turn other outcome =>
      other = session ∧ (turn.result config session outcome).1 = true
  | _ => False

/-- `process`, or the upload after it, throws something other than a
`std::exception`. -/
def Escapes : Event Thread → Prop
  | .returned turn session outcome =>
      turn.cancel = false ∧ outcome.throwsOther session.isExchange = true
  | _ => False

/-- A turn that ends the stream erases its session, unless it escapes. -/
theorem removes_of_ends {config : StreamConfig} {session : StreamSession} {event : Event Thread}
    (ends : event.Ends config session) (calm : ¬event.Escapes) : event.Removes config session := by
  cases event with
  | started thread turn other => exact ends
  | unknown thread turn => exact ends
  | refused thread other reason => exact ends
  | returned turn other outcome =>
      rcases ends with ⟨rfl, silent⟩
      refine ⟨rfl, ?_⟩
      rw [Turn.result] at silent ⊢
      rw [(dispatchTurn_erases config other turn.cursor turn.limit turn.cancel outcome).mpr calm,
        silent]
      rfl

end Event

/-! ## Who holds a dispatch mutex -/

/-- The thread holds the dispatch mutex of the session. -/
def Phase.Holds (session : StreamSession) : Phase → Prop
  | .idle | .waiting _ _ => False
  | .locked _ other | .running _ other | .finishing _ other _ | .unlocking other =>
      other = session

namespace State

variable {Thread : Type} [DecidableEq Thread] {config : StreamConfig}

/-- Every dispatch mutex knows its holder. -/
def LocksTrack (state : State Thread) : Prop :=
  ∀ thread session, (state.phase thread).Holds session ↔ state.shared.owner session = some thread

omit [DecidableEq Thread] in
theorem LocksTrack.unique {state : State Thread} (tracks : state.LocksTrack)
    {first second : Thread} {session : StreamSession} (one : (state.phase first).Holds session)
    (two : (state.phase second).Holds session) : first = second := by
  rw [tracks] at one two
  rw [one, Option.some.injEq] at two
  exact two

/-- A step of a thread that leaves all mutexes alone. -/
theorem LocksTrack.move {state : State Thread} (tracks : state.LocksTrack) {thread : Thread}
    {shared : Shared Thread} {phase : Phase} (owner : shared.owner = state.shared.owner)
    (same : ∀ session, phase.Holds session ↔ (state.phase thread).Holds session) :
    (state.move thread shared phase).LocksTrack := by
  intro other session
  rw [shared_move, owner, ← tracks, phase_move]
  split
  next mine =>
    rw [mine]
    exact same session
  next => rfl

/-- A step of a thread that sets the owner of one mutex. -/
theorem LocksTrack.setOwner {state : State Thread} (tracks : state.LocksTrack) {thread : Thread}
    {session : StreamSession} {owner : Option Thread} {phase : Phase}
    (mine : ∀ other, phase.Holds other ↔ other = session ∧ owner = some thread)
    (before : ∀ other, (state.phase thread).Holds other → other = session)
    (theirs : ∀ other, other ≠ thread →
      ((state.phase other).Holds session ↔ owner = some other)) :
    (state.move thread (state.shared.setOwner session owner) phase).LocksTrack := by
  intro other item
  rw [shared_move, phase_move, Shared.owner_setOwner]
  by_cases same : item = session
  · rw [if_pos same, same]
    split
    next me =>
      rw [mine, me]
      simp
    next foreign => exact theirs other foreign
  · rw [if_neg same, ← tracks]
    split
    next me =>
      rw [mine, me]
      constructor
      · intro held
        exact absurd held.1 same
      · intro held
        exact absurd (before item held) same
    next => rfl

theorem LocksTrack.step {state next : State Thread} {event : Option (Event Thread)}
    (tracks : state.LocksTrack) (step : Step config state event next) : next.LocksTrack := by
  cases step with
  | @move thread event shared phase moved =>
      generalize here : state.phase thread = old at moved
      cases moved with
      | init fresh => exact tracks.move rfl fun session => by rw [here]
      | unknown missing => exact tracks.move rfl fun session => by rw [here]
      | lookup present found => exact tracks.move rfl fun session => by rw [here]; rfl
      | start live => exact tracks.move rfl fun session => by rw [here]; rfl
      | refuse dead => exact tracks.move rfl fun session => by rw [here]; rfl
      | finish outcome => exact tracks.move rfl fun session => by rw [here]; rfl
      | erase => exact tracks.move rfl fun session => by rw [here]; rfl
      | @lock turn session free =>
          apply tracks.setOwner
          · intro other
            simp [Phase.Holds, eq_comm]
          · intro other held
            rw [here] at held
            exact held.elim
          · intro other foreign
            rw [tracks, free, Option.some.injEq]
            simp [Ne.symm foreign]
      | @unlock session =>
          apply tracks.setOwner
          · intro other
            simp [Phase.Holds]
          · intro other held
            rw [here] at held
            exact held.symm
          · intro other foreign
            have held : (state.phase thread).Holds session := by
              rw [here]
              rfl
            simp only [reduceCtorEq, iff_false]
            intro other
            exact foreign (tracks.unique other held)

end State

/-! ## Sessions are objects -/

namespace Registry

theorem lookup_erase_ne (registry : Registry) {cursor other : Bytes} (ne : other ≠ cursor) :
    (registry.erase cursor).lookup other = registry.lookup other := by
  induction registry with
  | nil => rfl
  | cons item rest ih =>
      rw [erase] at ih ⊢
      by_cases same : item.1 = cursor
      · have skipped : (other == item.1) = false := by
          rw [same]
          exact beq_false_of_ne ne
        rw [List.filter_cons_of_neg (by simp [same]), ih, List.lookup_cons, skipped]
      · rw [List.filter_cons_of_pos (by simp [same]), List.lookup_cons, List.lookup_cons, ih]

theorem lookup_insert_ne (registry : Registry) {cursor other : Bytes} (session : StreamSession)
    (ne : other ≠ cursor) :
    (registry.insert cursor session).lookup other = registry.lookup other := by
  have skipped : (other == cursor) = false := beq_false_of_ne ne
  rw [insert, List.lookup_cons, skipped]
  exact lookup_erase_ne registry ne

theorem lookup_of_erase {registry : Registry} {cursor other : Bytes} {session : StreamSession}
    (found : (registry.erase cursor).lookup other = some session) :
    registry.lookup other = some session := by
  by_cases same : other = cursor
  · rw [same, lookup_erase] at found
    simp at found
  · rw [← found, lookup_erase_ne registry same]

theorem lookup_of_eraseOwn {registry : Registry} {cursor other : Bytes}
    {session item : StreamSession}
    (found : (registry.eraseOwn cursor session).lookup other = some item) :
    registry.lookup other = some item := by
  rw [eraseOwn] at found
  split at found
  next => exact lookup_of_erase found
  next => exact found

theorem lookup_eraseOwn_ne (registry : Registry) (cursor : Bytes) (session : StreamSession) :
    (registry.eraseOwn cursor session).lookup cursor ≠ some session := by
  rw [eraseOwn]
  split
  next => simp
  next absent => exact absent

theorem lookup_of_insert {registry : Registry} {cursor other : Bytes}
    {session item : StreamSession}
    (found : (registry.insert cursor session).lookup other = some item) :
    registry.lookup other = some item ∨ (other, item) = (cursor, session) := by
  by_cases same : other = cursor
  · rw [same, lookup_insert, Option.some.injEq] at found
    exact .inr (by rw [same, found])
  · rw [lookup_insert_ne registry session same] at found
    exact .inl found

end Registry

/-- `/init` registers nothing but its own session. -/
theorem handleInit_lookup {config : StreamConfig} {registry : Registry} {cursor other : Bytes}
    {session item : StreamSession} {factory : Except Throw Unit} {outcome : Outcome}
    (found : (handleInit config registry cursor session factory outcome).1.lookup other =
      some item) :
    registry.lookup other = some item ∨ (other, item) = (cursor, session) := by
  unfold handleInit at found
  split at found
  next => exact .inl found
  next => exact .inl found
  next =>
    simp only at found
    split at found
    next => exact .inl (Registry.lookup_of_erase found)
    next => exact .inl found
    next built _ =>
      have registered (there : (if built.finished then registry else
          registry.insert cursor session).lookup other = some item) :
          registry.lookup other = some item ∨ (other, item) = (cursor, session) := by
        split at there
        next => exact .inl there
        next => exact Registry.lookup_of_insert there
      split at found
      next => exact registered (Registry.lookup_of_erase found)
      next =>
        split at found
        next => exact registered (Registry.lookup_of_erase found)
        next => exact registered found

/-- The cursor and the session that a thread works on. -/
def Phase.stream? : Phase → Option (Bytes × StreamSession)
  | .idle | .unlocking _ => none
  | .waiting turn session | .locked turn session | .running turn session
  | .finishing turn session _ => some (turn.cursor, session)

/-- The cursor and the session of a turn. -/
def Event.stream? {Thread : Type} : Event Thread → Option (Bytes × StreamSession)
  | .unknown _ _ | .refused _ _ _ => none
  | .started _ turn session | .returned turn session _ => some (turn.cursor, session)

section Moves

variable {Thread : Type} {config : StreamConfig} {thread : Thread}
  {shared next : Shared Thread} {phase after : Phase} {event : Option (Event Thread)}

/-- A thread works on what it was working on or found in the registry. -/
theorem Move.phase_stream (moved : Move config thread shared phase event next after)
    {cursor : Bytes} {session : StreamSession} (works : after.stream? = some (cursor, session)) :
    phase.stream? = some (cursor, session) ∨ shared.registry.lookup cursor = some session := by
  cases moved with
  | init fresh => exact .inl works
  | unknown missing => exact .inl works
  | lookup present found =>
      rw [Phase.stream?, Option.some.injEq, Prod.mk.injEq] at works
      rw [works.1, works.2] at found
      exact .inr found
  | lock free => exact .inl works
  | start live => exact .inl works
  | refuse dead => exact .inl (by simp [Phase.stream?] at works)
  | finish outcome => exact .inl works
  | erase => exact .inl (by simp [Phase.stream?] at works)
  | unlock => exact .inl works

/-- An event is about the stream that the thread works on. -/
theorem Move.event_stream {visible : Event Thread}
    (moved : Move config thread shared phase (some visible) next after)
    {cursor : Bytes} {session : StreamSession} (about : visible.stream? = some (cursor, session)) :
    phase.stream? = some (cursor, session) := by
  cases moved with
  | unknown missing => simp [Event.stream?] at about
  | start live => exact about
  | refuse dead => simp [Event.stream?] at about
  | finish outcome => exact about

/-- A step registers nothing, or one session object that was never seen. -/
theorem Move.registry (moved : Move config thread shared phase event next after) :
    ((∀ cursor session, next.registry.lookup cursor = some session →
        shared.registry.lookup cursor = some session) ∧ next.nextAddress = shared.nextAddress) ∨
      ∃ cursor session, session.address = shared.nextAddress ∧
        next.nextAddress = shared.nextAddress + 1 ∧
          ∀ other item, next.registry.lookup other = some item →
            shared.registry.lookup other = some item ∨ (other, item) = (cursor, session) := by
  cases moved with
  | @init cursor session factory outcome fresh =>
      exact .inr ⟨cursor, session, fresh, rfl, fun other item found => handleInit_lookup found⟩
  | erase =>
      refine .inl ⟨fun cursor session found => ?_, rfl⟩
      simp only at found
      split at found
      next => exact Registry.lookup_of_eraseOwn found
      next => exact found
  | unknown missing => exact .inl ⟨fun _ _ found => found, rfl⟩
  | lookup present found => exact .inl ⟨fun _ _ found => found, rfl⟩
  | lock free => exact .inl ⟨fun _ _ found => found, rfl⟩
  | start live => exact .inl ⟨fun _ _ found => found, rfl⟩
  | refuse dead => exact .inl ⟨fun _ _ found => found, rfl⟩
  | finish outcome => exact .inl ⟨fun _ _ found => found, rfl⟩
  | unlock => exact .inl ⟨fun _ _ found => found, rfl⟩

end Moves

end VgiRpc.Http
