import VgiRpc.Http.Turns

/-!
# Turns on one stream are serialised

Along every run at most one handler runs on a session, `on_cancel` runs at most once,
and no handler runs after a turn that erased the session.  A turn that ends the
stream erases it unless it throws something other than a `std::exception`.
-/

namespace VgiRpc.Http

open VgiRpc.Cpp VgiRpc.Lib

namespace State

variable {Thread : Type} {config : StreamConfig} {state next : State Thread}
  {trace : List (Event Thread)} {event : Option (Event Thread)}

/-! ## Invariants -/

/-- The session was seen under the cursor: in the registry, by a thread, or in a turn. -/
def Seen (trace : List (Event Thread)) (state : State Thread) (cursor : Bytes)
    (session : StreamSession) : Prop :=
  state.shared.registry.lookup cursor = some session ∨
    (∃ thread, (state.phase thread).stream? = some (cursor, session)) ∨
      ∃ event ∈ trace, event.stream? = some (cursor, session)

/-- Session objects are told apart by their addresses, and have one cursor. -/
structure Allocated (trace : List (Event Thread)) (state : State Thread) : Prop where
  older : ∀ {cursor session}, state.Seen trace cursor session →
    session.address < state.shared.nextAddress
  unique : ∀ {cursor other session}, state.Seen trace cursor session →
    state.Seen trace other session → cursor = other

/-- A session that a turn erases is gone, or that turn is about to erase it. -/
def Gone (config : StreamConfig) (trace : List (Event Thread)) (state : State Thread) : Prop :=
  ∀ event ∈ trace, ∀ session, event.Removes config session →
    (∀ cursor, state.shared.registry.lookup cursor ≠ some session) ∨
      ∃ thread turn outcome, state.phase thread = .finishing turn session outcome ∧
        (turn.result config session outcome).1 = true

/-- `on_cancel` ran at most once, and then the session is erased. -/
def CancelledOnce (config : StreamConfig) (trace : List (Event Thread)) (state : State Thread) :
    Prop :=
  ∀ session, trace.countP (Event.startsCancel session) = 0 ∨
    trace.countP (Event.startsCancel session) = 1 ∧
      ((∃ event ∈ trace, event.Removes config session) ∨
        ∃ thread turn, state.phase thread = .running turn session ∧ turn.cancel = true)

section Preservation

variable [DecidableEq Thread]

/-- What is seen after a step was seen before, or is a new session object. -/
theorem Seen.of_step (trace : List (Event Thread)) (step : Step config state event next) :
    (∃ cursor session, session.address = state.shared.nextAddress ∧
        next.shared.nextAddress = state.shared.nextAddress + 1 ∧
          ∀ other item, next.Seen (trace ++ event.toList) other item →
            state.Seen trace other item ∨ (other, item) = (cursor, session)) ∨
      next.shared.nextAddress = state.shared.nextAddress ∧
        ∀ other item, next.Seen (trace ++ event.toList) other item → state.Seen trace other item := by
  cases step with
  | @move thread event shared phase moved =>
      have threads : ∀ other item, (∃ thread', ((state.move thread shared phase).phase thread').stream? =
          some (other, item)) → state.Seen trace other item := by
        intro other item works
        rcases works with ⟨worker, works⟩
        rw [phase_move] at works
        split at works
        next =>
          rcases moved.phase_stream works with before | registered
          · exact .inr (.inl ⟨thread, before⟩)
          · exact .inl registered
        next => exact .inr (.inl ⟨worker, works⟩)
      have events : ∀ other item, (∃ visible ∈ trace ++ event.toList,
          visible.stream? = some (other, item)) → state.Seen trace other item := by
        intro other item seen
        rcases seen with ⟨visible, mem, about⟩
        rw [List.mem_append, Option.mem_toList] at mem
        rcases mem with mem | mem
        · exact .inr (.inr ⟨visible, mem, about⟩)
        · rw [mem] at moved
          exact .inr (.inl ⟨thread, moved.event_stream about⟩)
      rcases moved.registry with ⟨kept, address⟩ | ⟨cursor, session, fresh, address, added⟩
      · refine .inr ⟨address, fun other item seen => ?_⟩
        rcases seen with registered | works | seen
        · exact .inl (kept other item registered)
        · exact threads other item works
        · exact events other item seen
      · refine .inl ⟨cursor, session, fresh, address, fun other item seen => ?_⟩
        rcases seen with registered | works | seen
        · rcases added other item registered with before | new
          · exact .inl (.inl before)
          · exact .inr new
        · exact .inl (threads other item works)
        · exact .inl (events other item seen)

theorem Allocated.step (allocated : state.Allocated trace) (step : Step config state event next) :
    next.Allocated (trace ++ event.toList) := by
  rcases Seen.of_step trace step with
    ⟨cursor, session, fresh, address, seen⟩ | ⟨address, seen⟩
  · constructor
    · intro other item now
      rw [address]
      rcases seen other item now with before | new
      · exact Nat.lt_succ_of_lt (allocated.older before)
      · rw [Prod.mk.injEq] at new
        rw [new.2, fresh]
        exact Nat.lt_succ_self _
    · -- The new object has one cursor; what was seen before is not the new object.
      have old {other : Bytes} (before : state.Seen trace other session) : False := by
        have := allocated.older before
        omega
      intro first second item one two
      rcases seen first item one with one | one
      · rcases seen second item two with two | two
        · exact allocated.unique one two
        · rw [Prod.mk.injEq] at two
          rw [two.2] at one
          exact (old one).elim
      · rw [Prod.mk.injEq] at one
        rcases seen second item two with two | two
        · rw [one.2] at two
          exact (old two).elim
        · rw [Prod.mk.injEq] at two
          rw [one.1, two.1]
  · constructor
    · intro other item now
      rw [address]
      exact allocated.older (seen other item now)
    · intro first second item one two
      exact allocated.unique (seen first item one) (seen second item two)

omit [DecidableEq Thread] in
theorem seen_of_removes (state : State Thread) {removal : Event Thread} {session : StreamSession} (mem : removal ∈ trace)
    (removes : removal.Removes config session) : ∃ cursor, state.Seen trace cursor session := by
  cases removal with
  | unknown thread turn => exact removes.elim
  | started thread turn other => exact removes.elim
  | refused thread other reason => exact removes.elim
  | returned turn other outcome =>
      refine ⟨turn.cursor, .inr (.inr ⟨_, mem, ?_⟩)⟩
      rw [← removes.1]
      rfl

/-- A session that is not registered and was seen is not registered by a step. -/
theorem unregistered_step (allocated : state.Allocated trace) {session : StreamSession}
    {cursor : Bytes} (seen : state.Seen trace cursor session)
    (absent : ∀ cursor, state.shared.registry.lookup cursor ≠ some session)
    (step : Step config state event next) (other : Bytes) :
    next.shared.registry.lookup other ≠ some session := by
  intro found
  cases step with
  | @move thread event shared phase moved =>
      rw [shared_move] at found
      rcases moved.registry with ⟨kept, -⟩ | ⟨_, _, fresh, -, added⟩
      · exact absent other (kept other session found)
      · rcases added other session found with before | new
        · exact absent other before
        · rw [Prod.mk.injEq] at new
          have older := allocated.older seen
          rw [new.2] at older
          omega

omit [DecidableEq Thread] in
/-- The turn that erases a session takes it out of the registry. -/
theorem unregistered_erase (allocated : state.Allocated trace) {thread : Thread} {turn : Turn}
    {session : StreamSession} {outcome : Outcome}
    (here : state.phase thread = .finishing turn session outcome) (cursor : Bytes) :
    (state.shared.registry.eraseOwn turn.cursor session).lookup cursor ≠ some session := by
  intro found
  have works : state.Seen trace turn.cursor session :=
    .inr (.inl ⟨thread, by rw [here]; rfl⟩)
  have same := allocated.unique works (.inl (Registry.lookup_of_eraseOwn found))
  rw [← same] at found
  exact Registry.lookup_eraseOwn_ne _ _ _ found

theorem Gone.step (gone : state.Gone config trace) (allocated : state.Allocated trace)
    (step : Step config state event next) : next.Gone config (trace ++ event.toList) := by
  intro removal mem session removes
  rw [List.mem_append, Option.mem_toList] at mem
  rcases mem with mem | mem
  · rcases seen_of_removes state mem removes with ⟨cursor, seen⟩
    rcases gone removal mem session removes with absent | ⟨worker, turn, outcome, here, erases⟩
    · exact .inl (unregistered_step allocated seen absent step)
    · cases step with
      | @move thread event shared phase moved =>
          by_cases same : worker = thread
          · rw [same] at here
            rw [here] at moved
            cases moved with
            | erase =>
                left
                rw [shared_move]
                simp only [erases, if_true]
                exact unregistered_erase allocated here
          · right
            refine ⟨worker, turn, outcome, ?_, erases⟩
            rw [phase_move, if_neg same]
            exact here
  · rw [mem] at step
    cases step with
    | @move thread event shared phase moved =>
        generalize here : state.phase thread = old at moved
        cases moved with
        | unknown missing => exact removes.elim
        | start live => exact removes.elim
        | refuse dead => exact removes.elim
        | @finish turn other outcome =>
            rcases removes with ⟨rfl, erases⟩
            right
            exact ⟨thread, turn, outcome, by rw [phase_move, if_pos rfl], erases⟩

omit [DecidableEq Thread] in
/-- A thread that holds the dispatch mutex of an erased session finds it gone. -/
theorem Gone.unregistered (gone : state.Gone config trace) (tracks : state.LocksTrack)
    {removal : Event Thread} {session : StreamSession} (mem : removal ∈ trace)
    (removes : removal.Removes config session) {thread : Thread} {turn : Turn}
    (here : state.phase thread = .locked turn session) (cursor : Bytes) :
    state.shared.registry.lookup cursor ≠ some session := by
  rcases gone removal mem session removes with absent | ⟨worker, work, outcome, there, -⟩
  · exact absent cursor
  · have one : (state.phase thread).Holds session := by
      rw [here]
      rfl
    have two : (state.phase worker).Holds session := by
      rw [there]
      rfl
    rw [tracks.unique one two, there] at here
    simp at here

omit [DecidableEq Thread] in
theorem lookup_of_revalidate {registry : Registry} {turn : Turn} {session : StreamSession}
    (live : revalidate config registry turn session = .ok ()) :
    registry.lookup turn.cursor = some session := by
  rw [revalidate] at live
  split at live
  next => simp at live
  next registered => exact not_not.mp registered

/-- A turn of a cancel erases its session. -/
theorem cancel_result {turn : Turn} (cancel : turn.cancel = true) (session : StreamSession)
    (outcome : Outcome) : (turn.result config session outcome).1 = true := by
  rw [Turn.result, dispatchTurn, if_pos cancel]

theorem CancelledOnce.step (once : state.CancelledOnce config trace)
    (gone : state.Gone config trace) (tracks : state.LocksTrack)
    (step : Step config state event next) : next.CancelledOnce config (trace ++ event.toList) := by
  intro session
  cases step with
  | @move thread event shared phase moved =>
      have kept : (∀ visible ∈ event, visible.startsCancel session = false) →
          ((∃ turn, state.phase thread = .running turn session ∧ turn.cancel = true) →
            ∃ visible ∈ event, visible.Removes config session) →
          (trace ++ event.toList).countP (Event.startsCancel session) = 0 ∨
            (trace ++ event.toList).countP (Event.startsCancel session) = 1 ∧
              ((∃ visible ∈ trace ++ event.toList, visible.Removes config session) ∨
                ∃ worker turn, (state.move thread shared phase).phase worker =
                  .running turn session ∧ turn.cancel = true) := by
        intro silent ending
        have count : (trace ++ event.toList).countP (Event.startsCancel session) =
            trace.countP (Event.startsCancel session) := by
          rw [List.countP_append, Nat.add_eq_left, List.countP_eq_zero]
          intro visible mem
          rw [silent visible (Option.mem_toList.mp mem)]
          simp
        rw [count]
        rcases once session with none | ⟨one, ⟨removal, mem, removes⟩ | ⟨worker, turn, runs, cancel⟩⟩
        · exact .inl none
        · exact .inr ⟨one, .inl ⟨removal, List.mem_append_left _ mem, removes⟩⟩
        · by_cases same : worker = thread
          · rw [same] at runs
            rcases ending ⟨turn, runs, cancel⟩ with ⟨visible, mem, removes⟩
            exact .inr ⟨one, .inl ⟨visible,
              List.mem_append_right _ (Option.mem_toList.mpr mem), removes⟩⟩
          · refine .inr ⟨one, .inr ⟨worker, turn, ?_, cancel⟩⟩
            rw [phase_move, if_neg same]
            exact runs
      have quiet (idle : ∀ turn, state.phase thread ≠ .running turn session) :
          (∃ turn, state.phase thread = .running turn session ∧ turn.cancel = true) →
            ∃ visible ∈ event, visible.Removes config session := by
        intro running
        rcases running with ⟨turn, running, -⟩
        exact (idle turn running).elim
      generalize here : state.phase thread = old at moved
      cases moved with
      | init fresh => exact kept (by simp) (quiet (by simp [here]))
      | unknown missing => exact kept (by simp [Event.startsCancel]) (quiet (by simp [here]))
      | lookup present found => exact kept (by simp) (quiet (by simp [here]))
      | lock free => exact kept (by simp) (quiet (by simp [here]))
      | refuse dead => exact kept (by simp [Event.startsCancel]) (quiet (by simp [here]))
      | erase => exact kept (by simp) (quiet (by simp [here]))
      | unlock => exact kept (by simp) (quiet (by simp [here]))
      | @finish turn other outcome =>
          apply kept (by simp [Event.startsCancel])
          rintro ⟨work, runs, cancel⟩
          rw [here, Phase.running.injEq] at runs
          rw [← runs.1] at cancel
          exact ⟨_, rfl, runs.2, cancel_result cancel _ _⟩
      | @start turn other live =>
          by_cases mine : turn.cancel = true ∧ other = session
          · -- Nobody cancelled before: the session would be gone, or its mutex taken.
            rw [mine.2] at here live
            have never : trace.countP (Event.startsCancel session) = 0 := by
              rcases once session with
                none | ⟨-, ⟨removal, mem, removes⟩ | ⟨worker, work, runs, -⟩⟩
              · exact none
              · exact (gone.unregistered tracks mem removes here turn.cursor
                  (lookup_of_revalidate live)).elim
              · have one : (state.phase thread).Holds session := by
                  rw [here]
                  rfl
                have two : (state.phase worker).Holds session := by
                  rw [runs]
                  rfl
                rw [tracks.unique one two, runs] at here
                simp at here
            right
            constructor
            · rw [List.countP_append, never]
              simp [Event.startsCancel, mine.1, mine.2]
            · right
              refine ⟨thread, turn, ?_, mine.1⟩
              rw [phase_move, if_pos rfl, mine.2]
          · apply kept
            · intro visible mem
              rw [Option.mem_some_iff] at mem
              rw [← mem, Event.startsCancel]
              simpa using mine
            · exact quiet (by simp [here])

end Preservation

/-! ## Runs -/

section Runs

variable [DecidableEq Thread]

/-- The invariants of a run. -/
structure Sound (config : StreamConfig) (trace : List (Event Thread)) (state : State Thread) :
    Prop where
  tracks : state.LocksTrack
  allocated : state.Allocated trace
  gone : state.Gone config trace
  once : state.CancelledOnce config trace

omit [DecidableEq Thread] in
theorem sound_initial : Sound config [] (initial : State Thread) := by
  constructor
  · intro thread session
    simp [initial, Phase.Holds]
  · constructor
    · intro cursor session seen
      simp [Seen, initial, Phase.stream?] at seen
    · intro cursor other session seen
      simp [Seen, initial, Phase.stream?] at seen
  · intro event mem
    simp at mem
  · intro session
    exact .inl rfl

theorem Sound.step (sound : state.Sound config trace) (step : Step config state event next) :
    next.Sound config (trace ++ event.toList) :=
  ⟨sound.tracks.step step, sound.allocated.step step, sound.gone.step sound.allocated step,
    sound.once.step sound.gone sound.tracks step⟩

/-- The invariants hold along every run of the server. -/
theorem sound_of_run (run : Run (Step config) initial trace state) : state.Sound config trace :=
  run.invariant sound_initial fun sound step => sound.step step

omit [DecidableEq Thread] in
/-- A request that waited behind a turn that erased its session is refused with the
unknown-token error. -/
theorem Sound.revalidate_eq (sound : state.Sound config trace) {removal : Event Thread}
    {session : StreamSession} (mem : removal ∈ trace) (removes : removal.Removes config session)
    {thread : Thread} {turn : Turn} (here : state.phase thread = .locked turn session) :
    revalidate config state.shared.registry turn session = .error .unknownToken := by
  rw [revalidate, if_pos]
  exact sound.gone.unregistered sound.tracks mem removes here turn.cursor

/-- What a step may show about a session that a turn erased. -/
theorem Sound.refused_of_step (sound : state.Sound config trace) {removal visible : Event Thread}
    {session : StreamSession} (mem : removal ∈ trace) (removes : removal.Removes config session)
    (step : Step config state (some visible) next) :
    ¬visible.Starts session ∧
      ∀ thread reason, visible = .refused thread session reason → reason = .unknownToken := by
  cases step with
  | @move thread event shared phase moved =>
      generalize here : state.phase thread = old at moved
      cases moved with
      | unknown missing => exact ⟨id, by simp⟩
      | finish outcome => exact ⟨id, by simp⟩
      | @start turn other live =>
          constructor
          · intro starts
            rw [starts] at here live
            rw [sound.revalidate_eq mem removes here] at live
            simp at live
          · simp
      | @refuse turn other reason dead =>
          constructor
          · exact id
          · intro worker cause same
            rw [Event.refused.injEq] at same
            rw [same.2.1] at here dead
            rw [sound.revalidate_eq mem removes here, Except.error.injEq] at dead
            rw [← same.2.2, ← dead]

end Runs

end State

/-! ## The stream protocol -/

section Protocol

variable {Thread : Type} [DecidableEq Thread] {config : StreamConfig} {trace : List (Event Thread)}
  {state : State Thread}

/-- Turns on one stream are serialised, in every run of any number of threads: two
handlers never run on one session, and `on_cancel` starts at most once.  If no
`process` or upload of the run throws something other than a `std::exception`, then
after a turn that ended the stream no handler of the session starts, and every
request that waited behind that turn is refused with the unknown-token error. -/
theorem turns_serialised (run : Run (Step config) State.initial trace state) :
    (∀ session first second turn other, state.phase first = .running turn session →
        state.phase second = .running other session → first = second) ∧
      (∀ session, trace.countP (Event.startsCancel session) ≤ 1) ∧
      ((∀ event ∈ trace, ¬event.Escapes) →
        ∀ before ending after session, trace = before ++ ending :: after →
          ending.Ends config session →
            (∀ event ∈ after, ¬event.Starts session ∧ ∀ thread reason,
              event = .refused thread session reason → reason = .unknownToken) ∧
            ∀ thread turn, state.phase thread = .locked turn session →
              revalidate config state.shared.registry turn session = .error .unknownToken) := by
  have sound := State.sound_of_run run
  refine ⟨?_, ?_, ?_⟩
  · intro session first second turn other one two
    have held : (state.phase first).Holds session := by
      rw [one]
      rfl
    apply sound.tracks.unique held
    rw [two]
    rfl
  · intro session
    rcases sound.once session with none | one
    · omega
    · omega
  · intro calm before ending after session split ends
    have removes := Event.removes_of_ends ends (calm ending (by simp [split]))
    constructor
    · intro event mem
      rcases List.append_of_mem mem with ⟨middle, rest, afterSplit⟩
      rw [split, afterSplit, ← List.cons_append, ← List.append_assoc] at run
      rcases run.exists_step_of_append with ⟨reached, next, prior, taken, -⟩
      exact (State.sound_of_run prior).refused_of_step (by simp) removes taken
    · intro thread turn here
      exact sound.revalidate_eq (by simp [split]) removes here

/-- A run goes on with a step of a thread. -/
theorem run_move (run : Run (Step config) State.initial trace state) (thread : Thread)
    {event : Option (Event Thread)} {shared : Shared Thread} {old phase : Phase}
    (here : state.phase thread = old)
    (moved : Move config thread state.shared old event shared phase) :
    Run (Step config) State.initial (trace ++ event.toList) (state.move thread shared phase) := by
  rw [← here] at moved
  exact run.snoc (.move moved)

end Protocol

/-! ## A producer that throws an `int` -/

/-- A continuation of the sample stream. -/
def sampleTurn : Turn := ⟨[7], [], [], none, false⟩

/-- One thread runs the last turn while another one waits behind it. -/
def waitingTrace : List (Event Bool) :=
  [.started false sampleTurn sampleSession, .returned sampleTurn sampleSession finishOutcome,
    .refused true sampleSession .unknownToken]

/-- A turn throws an `int`, and the waiting thread runs `process` after it. -/
def thrownTrace : List (Event Bool) :=
  [.started false sampleTurn sampleSession, .returned sampleTurn sampleSession thrownOutcome,
    .started true sampleTurn sampleSession]

/-- `/init`, two threads find the session, and the first one runs a turn to its end. -/
theorem bothWaiting (outcome : Outcome) :
    ∃ state : State Bool, Run (Step sampleConfig) State.initial
        [.started false sampleTurn sampleSession, .returned sampleTurn sampleSession outcome]
        state ∧ state.phase true = .locked sampleTurn sampleSession ∧
      state.shared.registry =
        if (sampleTurn.result sampleConfig sampleSession outcome).1 then []
        else [([7], sampleSession)] := by
  have start : Run (Step sampleConfig) (State.initial : State Bool) [] State.initial := .refl
  have opened := run_move start false rfl
    (@Move.init Bool sampleConfig false _ [7] sampleSession (.ok ()) rowOutcome rfl)
  have first := run_move opened false rfl
    (@Move.lookup Bool sampleConfig false _ sampleTurn sampleSession (by decide) rfl)
  have second := run_move first true rfl
    (@Move.lookup Bool sampleConfig true _ sampleTurn sampleSession (by decide) rfl)
  have locked := run_move second false rfl (.lock rfl)
  have started := run_move locked false rfl (.start rfl)
  have returned := run_move started false rfl (.finish outcome)
  have erased := run_move returned false rfl .erase
  have unlocked := run_move erased false rfl .unlock
  have waiting := run_move unlocked true rfl (.lock rfl)
  refine ⟨_, waiting, rfl, ?_⟩
  rfl

/-- The waiting request is refused. -/
theorem waitingTrace_serialised :
    (∃ state, Run (Step sampleConfig) State.initial waitingTrace state) ∧
      (∀ event ∈ waitingTrace, ¬event.Escapes) ∧
      ∀ event ∈ waitingTrace.drop 2, ¬event.Starts sampleSession := by
  rcases bothWaiting finishOutcome with ⟨state, run, here, registry⟩
  have refused := run_move run true here (.refuse (by rw [registry]; rfl))
  have calm : ∀ event ∈ waitingTrace, ¬event.Escapes := by
    simp [waitingTrace, Event.Escapes, finishOutcome, Outcome.throwsOther]
  refine ⟨⟨_, refused⟩, calm, fun event mem => ?_⟩
  have ended := (turns_serialised refused).2.2 calm [.started false sampleTurn sampleSession]
    (.returned sampleTurn sampleSession finishOutcome) (waitingTrace.drop 2) sampleSession rfl
    ⟨rfl, rfl⟩
  exact (ended.1 event mem).1

/-- The thrown `int` ended the first turn with a 500, and `process` runs again. -/
theorem thrownTrace_restarts :
    (∃ state, Run (Step sampleConfig) State.initial thrownTrace state) ∧
      ∃ before ending after session, thrownTrace = before ++ ending :: after ∧
        ending.Ends sampleConfig session ∧ ∃ event ∈ after, event.Starts session := by
  constructor
  · rcases bothWaiting thrownOutcome with ⟨state, run, here, registry⟩
    exact ⟨_, run_move run true here (.start (by rw [registry]; rfl))⟩
  · exact ⟨[.started false sampleTurn sampleSession],
      .returned sampleTurn sampleSession thrownOutcome, [.started true sampleTurn sampleSession],
      sampleSession, rfl, ⟨rfl, rfl⟩, _, List.mem_singleton_self _, rfl⟩

end VgiRpc.Http
