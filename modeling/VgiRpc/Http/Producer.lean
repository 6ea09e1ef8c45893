import VgiRpc.Http.Advertised
import VgiRpc.Http.ClientSession

/-!
# Producer streams behind an HTTP server

The continuation handler of `HttpServer` as seen by a client of producer streams: every
stream is one mutable state behind a constant cursor.  A producer is any state machine.
A batch is named by its place in the output of its stream, since neither side looks into
one; so two batches are never the same by accident.
-/

namespace VgiRpc.Http.Client

open VgiRpc.Cpp

/-! ## Producers -/

/-- How a turn ends. -/
inductive Ending where
  /-- The turn answers, with the cursor. -/
  | continues
  /-- The turn answers and the stream is over. -/
  | finishes
  /-- A `std::exception` or an exceeded limit: an error answer, and the stream is over. -/
  | refused
  /-- Anything else that is thrown: the HTTP server answers 500, and the stream is left
  as it is. -/
  | escaped
  deriving DecidableEq, Repr

namespace Ending

/-- The session is erased from the registry. -/
def erases : Ending → Bool
  | .continues => false
  | .finishes => true
  | .refused => true
  | .escaped => false

/-- The status of the answer. -/
def status : Ending → Nat
  | .continues => 200
  | .finishes => 200
  | .refused => 200
  | .escaped => 500

end Ending

/-- The ending of a continuation turn with the given outcome. -/
def endingOf (config : StreamConfig) (limit : Option Int) (cursor : Bytes) (outcome : Outcome) :
    Ending :=
  match producerBody cursor outcome with
  | .error .standard => .refused
  | .error .other => .escaped
  | .ok built =>
      if externalCapExceeded config built.externalized = true ∨
          overLimit limit outcome.bodySize = true ∨ built.failed = true then .refused
      else if built.finished then .finishes
      else .continues

theorem producerBody_failed {cursor : Bytes} {outcome : Outcome} {built : Built}
    (body : producerBody cursor outcome = .ok built) (failed : built.failed = true) :
    built.finished = true := by
  unfold producerBody at body
  split at body
  next => cases body
  next first run =>
      have turn : first.failed = true → first.finished = true := by
        intro threw
        unfold runProducerTurns at run
        split at run
        next =>
            cases run
            rfl
        next => cases run
        next =>
            split at run
            next => cases run
            next =>
                cases run
                cases threw
      split at body
      next => cases body
      next =>
          split at body
          next finished =>
              cases body
              exact finished
          next unfinished =>
              cases body
              exact absurd (turn failed) unfinished

/-- The endings are those of the continuation handler: what it erases, and the status it
answers. -/
theorem dispatchTurn_ending (config : StreamConfig) (session : Http.StreamSession) (cursor : Bytes)
    (limit : Option Int) (outcome : Outcome) (producer : session.isExchange = false) :
    (dispatchTurn config session cursor limit false outcome).1 =
        (endingOf config (minLimit limit session.responseLimitBytes) cursor outcome).erases ∧
      (dispatchTurn config session cursor limit false outcome).2.status =
        (endingOf config (minLimit limit session.responseLimitBytes) cursor outcome).status := by
  simp only [dispatchTurn, endingOf, producer, Bool.false_eq_true, if_false]
  cases body : producerBody cursor outcome with
  | error thrown => cases thrown <;> exact ⟨rfl, rfl⟩
  | ok built =>
      dsimp only
      split
      next capped => simp [capped, Ending.erases, Ending.status, Response.error]
      next free =>
          split
          next exceeded => simp [exceeded, Ending.erases, Ending.status, Response.error]
          next within =>
              cases failed : built.failed with
              | true => simp [producerBody_failed body failed, Ending.erases, Ending.status]
              | false =>
                  cases finished : built.finished <;>
                    simp [free, within, Ending.erases, Ending.status]

/-- One call of `process`: whether it emitted a batch, and how the turn ended. -/
structure Turn where
  emits : Bool
  ending : Ending
  deriving DecidableEq, Repr

/-- A producer: its factory and its `process`, which sees the metadata of the turn. -/
structure Producer (σ ι : Type) where
  factory : ι → Except Throw σ
  process : σ → ι → Turn × σ

/-! ## The server -/

/-- A stream of the server.  `emitted` counts what its producer emitted; a stream that
was erased is kept as one that is not live. -/
structure Stream (σ : Type) where
  state : σ
  live : Bool
  emitted : Nat

/-- The streams of the server by their cursors, and the number of cursors drawn. -/
structure Server (σ : Type) where
  streams : Bytes → Option (Stream σ)
  drawn : Nat

/-- The texts of the tokens: the cursors of `random_hex` in the order they are drawn, and
the sealed call tokens. -/
structure Tokens where
  cursor : Nat → Bytes
  callState : Nat → Bytes

namespace Server

variable {σ : Type}

/-- How many batches the stream behind a cursor has emitted. -/
def emitted (server : Server σ) (cursor : Bytes) : Nat :=
  ((server.streams cursor).map Stream.emitted).getD 0

attribute [grind =] emitted

/-- The stream behind a cursor is registered. -/
def isLive (server : Server σ) (cursor : Bytes) : Bool :=
  ((server.streams cursor).map Stream.live).getD false

/-- Replace the stream behind a cursor. -/
def put (server : Server σ) (cursor : Bytes) (stream : Stream σ) : Server σ :=
  { server with streams := Function.update server.streams cursor (some stream) }

@[simp] theorem emitted_put (server : Server σ) (cursor : Bytes) (stream : Stream σ) :
    (server.put cursor stream).emitted cursor = stream.emitted := by
  simp [emitted, put]

@[simp] theorem isLive_put (server : Server σ) (cursor : Bytes) (stream : Stream σ) :
    (server.put cursor stream).isLive cursor = stream.live := by
  simp [isLive, put]

end Server

section Handlers

variable {σ ι χ : Type} (producer : Producer σ ι) (schema : χ)

/-- The answer to a turn; `control` is what it carries if the stream goes on. -/
def Turn.reply (turn : Turn) (position : Nat) (control : List Control) : Reply χ Nat :=
  let data := if turn.emits then [⟨position, []⟩] else []
  match turn.ending with
  | .continues => ⟨200, some ⟨schema, data, control⟩⟩
  | .finishes => ⟨200, some ⟨schema, data, []⟩⟩
  | .refused => ⟨200, none⟩
  | .escaped => ⟨500, none⟩

/-- The stream after a turn. -/
def Stream.after (stream : Stream σ) (turn : Turn) (state : σ) (live : Bool) : Stream σ :=
  ⟨state, live, stream.emitted + turn.emits.toNat⟩

/-- A continuation or a cancel. -/
def handleTurn (request : Request ι) (server : Server σ) : Reply χ Nat × Server σ :=
  match server.streams request.cursor with
  | none => (⟨400, none⟩, server)
  | some stream =>
      if stream.live = false ∨ request.cursor = [] then (⟨400, none⟩, server)
      else if request.cancel then
        (⟨200, some ⟨schema, [], []⟩⟩, server.put request.cursor { stream with live := false })
      else
        let (turn, state) := producer.process stream.state request.input
        (turn.reply schema stream.emitted [⟨request.cursor, []⟩],
          server.put request.cursor (stream.after turn state (!turn.ending.erases)))

/-- `/init`: the factory and the first turn.  Only a stream that goes on is registered. -/
def handleOpen (tokens : Tokens) (request : Request ι) (server : Server σ) :
    Reply χ Nat × Server σ :=
  match producer.factory request.input with
  | .error .standard => (⟨200, none⟩, server)
  | .error .other => (⟨500, none⟩, server)
  | .ok start =>
      let (turn, state) := producer.process start request.input
      let cursor := tokens.cursor server.drawn
      (turn.reply schema 0 [⟨cursor, tokens.callState server.drawn⟩],
        { server.put cursor
            (Stream.after ⟨start, true, 0⟩ turn state (decide (turn.ending = .continues))) with
          drawn := server.drawn + 1 })

theorem Turn.reply_status (turn : Turn) (position : Nat) (control : List Control) :
    (turn.reply schema position control).status = turn.ending.status := by
  rcases turn with ⟨emits, ending⟩
  cases ending <;> rfl

theorem Ending.status_ne (ending : Ending) : ending.status ≠ 413 ∧ ending.status ≠ 415 := by
  cases ending <;> exact ⟨by decide, by decide⟩

/-- `/exchange` of a server with this producer. -/
def turnEndpoint : Endpoint (Server σ) ι χ Nat where
  handle := handleTurn producer schema
  handled_status := by
    intro request server
    unfold handleTurn
    split
    next => simp
    next =>
        split
        next => simp
        next =>
            split
            next => simp
            next =>
                simp only [Turn.reply_status]
                exact Ending.status_ne _

/-- `/init` of a server with this producer. -/
def openEndpoint (tokens : Tokens) : Endpoint (Server σ) ι χ Nat where
  handle := handleOpen producer schema tokens
  handled_status := by
    intro request server
    unfold handleOpen
    split
    next => simp
    next => simp
    next =>
        simp only [Turn.reply_status]
        exact Ending.status_ne _

end Handlers

/-! ## What a request does to a stream -/

section Steps

variable {σ ι χ : Type} {producer : Producer σ ι} {schema : χ}

theorem emitted_put_of_ne {server : Server σ} {cursor other : Bytes} {stream : Stream σ}
    (different : other ≠ cursor) : (server.put cursor stream).emitted other = server.emitted other := by
  simp [Server.emitted, Server.put, Function.update_of_ne different]

/-- No request takes a batch back. -/
theorem emitted_le_handleTurn (request : Request ι) (server : Server σ) (cursor : Bytes) :
    server.emitted cursor ≤ (handleTurn producer schema request server).2.emitted cursor := by
  have replaced : ∀ old stream : Stream σ, server.streams request.cursor = some old →
      old.emitted ≤ stream.emitted →
        server.emitted cursor ≤ (server.put request.cursor stream).emitted cursor := by
    intro old stream found more
    by_cases same : cursor = request.cursor
    · subst same
      rw [Server.emitted_put]
      simpa [Server.emitted, found] using more
    · rw [emitted_put_of_ne same]
  unfold handleTurn
  split
  next => exact Nat.le_refl _
  next old found =>
      split
      next => exact Nat.le_refl _
      next =>
          split
          next => exact replaced old _ found (Nat.le_refl _)
          next => exact replaced old _ found (Nat.le_add_right _ _)

theorem Turn.reply_decoded {turn : Turn} {position : Nat} {control : List Control}
    {decoded : Decoded χ Nat} (answer : (turn.reply schema position control).decoded = some decoded) :
    decoded.data = (if turn.emits then [⟨position, []⟩] else []) ∧
      (decoded.control = control ∧ turn.ending = .continues ∨
        decoded.control = [] ∧ turn.ending = .finishes) := by
  rcases turn with ⟨emits, ending⟩
  cases ending with
  | continues =>
      cases answer
      exact ⟨rfl, .inl ⟨rfl, rfl⟩⟩
  | finishes =>
      cases answer
      exact ⟨rfl, .inr ⟨rfl, rfl⟩⟩
  | refused => cases answer
  | escaped => cases answer

/-- The answer to a turn carries the batch that was emitted in it, if any, and the cursor
unless the stream is over. -/
theorem handleTurn_decoded {request : Request ι} {server : Server σ} {decoded : Decoded χ Nat}
    (answer : (handleTurn producer schema request server).1.decoded = some decoded) :
    (decoded.data = [] ∨
      decoded.data = [⟨server.emitted request.cursor, []⟩] ∧
        (handleTurn producer schema request server).2.emitted request.cursor =
          server.emitted request.cursor + 1) ∧
      (decoded.control = [⟨request.cursor, []⟩] ∨
        decoded.control = [] ∧
          (handleTurn producer schema request server).2.isLive request.cursor = false) := by
  unfold handleTurn at answer ⊢
  split at answer
  next => cases answer
  next stream found =>
      have count : server.emitted request.cursor = stream.emitted := by
        simp [Server.emitted, found]
      split at answer
      next => cases answer
      next passes =>
          rw [if_neg passes]
          split at answer
          next cancelled =>
              rw [if_pos cancelled]
              cases answer
              exact ⟨.inl rfl, .inr ⟨rfl, by simp⟩⟩
          next running =>
              rw [if_neg running]
              generalize producer.process stream.state request.input = step at answer ⊢
              rcases step with ⟨turn, state⟩
              rcases Turn.reply_decoded answer with ⟨data, control⟩
              rw [Server.emitted_put, Server.isLive_put, data, count]
              constructor
              · cases emits : turn.emits with
                | false => exact .inl rfl
                | true => exact .inr ⟨rfl, by simp [Stream.after, emits]⟩
              · rcases control with ⟨same, -⟩ | ⟨none, ending⟩
                · exact .inl same
                · exact .inr ⟨none, by simp [Stream.after, ending, Ending.erases]⟩

/-- Handling a request any number of times takes no batch back. -/
theorem emitted_le_handles {request : Request ι} {before after : Server σ} (cursor : Bytes)
    (reached : Relation.ReflTransGen (Handles (turnEndpoint producer schema) request) before after) :
    before.emitted cursor ≤ after.emitted cursor := by
  induction reached with
  | refl => exact Nat.le_refl _
  | tail _ handled ih =>
      rw [handled]
      exact Nat.le_trans ih (emitted_le_handleTurn request _ cursor)

theorem decode_eq_some {S β : Type} {posted : Posted S χ β} {decoded : Decoded χ β}
    (answer : decode posted = some decoded) :
    ∃ status reply, posted.sent = .answered status (some reply) ∧ reply.decoded = some decoded := by
  unfold decode at answer
  split at answer
  next => cases answer
  next => cases answer
  next status reply held =>
      split at answer
      next => cases answer
      next => exact ⟨status, reply, held, answer⟩

/-- What a client learns from a turn that it posted, however often the turn ran: the batch
is the last one that the stream emitted. -/
theorem post_turn {policy : RetryPolicy} {options : CallOptions} {retryable : Bool}
    {route : Route} {request : Request ι} {server : Server σ} {decoded : Decoded χ Nat}
    (answer : decode (post (turnEndpoint producer schema) policy request options retryable route
      server) = some decoded) :
    (decoded.data = [] ∨ ∃ position, decoded.data = [⟨position, []⟩] ∧
      server.emitted request.cursor ≤ position ∧
        (post (turnEndpoint producer schema) policy request options retryable route
          server).server.emitted request.cursor = position + 1) ∧
      (decoded.control = [⟨request.cursor, []⟩] ∨ decoded.control = [] ∧
        (post (turnEndpoint producer schema) policy request options retryable route
          server).server.isLive request.cursor = false) := by
  rcases decode_eq_some answer with ⟨status, reply, held, carried⟩
  rcases (post_follows options retryable route server).held status reply held with
    ⟨-, middle, reached, handled⟩
  have monotone := emitted_le_handles request.cursor reached
  have answered : (handleTurn producer schema request middle).1.decoded = some decoded := by
    rw [show handleTurn producer schema request middle = _ from handled]
    exact carried
  have facts := handleTurn_decoded answered
  rw [show handleTurn producer schema request middle = _ from handled] at facts
  rcases facts with ⟨data, control⟩
  refine ⟨?_, control⟩
  rcases data with empty | ⟨one, count⟩
  · exact .inl empty
  · exact .inr ⟨_, one, monotone, count⟩

theorem emitted_le_post (policy : RetryPolicy) (options : CallOptions) (retryable : Bool)
    (route : Route) (request : Request ι) (server : Server σ) (cursor : Bytes) :
    server.emitted cursor ≤
      (post (turnEndpoint producer schema) policy request options retryable route
        server).server.emitted cursor :=
  emitted_le_handles cursor (post_follows options retryable route server).reached

end Steps

/-! ## What a tick does -/

namespace HttpStreamSession

variable {σ ι χ : Type} [DecidableEq χ] {producer : Producer σ ι} {schema : χ}

@[simp] theorem controlCursor_nil : controlCursor [] = [] := rfl

@[simp] theorem controlCursor_singleton (cursor callState : Bytes) :
    controlCursor [⟨cursor, callState⟩] = cursor := by
  simp only [controlCursor, List.foldl_cons, List.foldl_nil]
  split
  next empty => exact empty.symm
  next => rfl

/-- An answer that is taken over fills the queue and brings the cursor. -/
theorem takeTurn_true {β : Type} {session next : HttpStreamSession χ β} {decoded : Decoded χ β}
    (taken : session.takeTurn decoded = (true, next)) :
    next.pending = session.pending ++ decoded.data.map Output.batch ∧
      next.cursor = controlCursor decoded.control ∧
        next.isFinished = (session.isFinished || decide (controlCursor decoded.control = [])) := by
  unfold takeTurn at taken
  split at taken
  next => cases taken
  next =>
      dsimp only at taken
      split at taken
      next => cases taken
      next =>
          cases taken
          exact ⟨rfl, rfl, rfl⟩

/-- An answer that is refused changes neither the queue nor the cursor. -/
theorem takeTurn_false {β : Type} {session next : HttpStreamSession χ β} {decoded : Decoded χ β}
    (refused : session.takeTurn decoded = (false, next)) :
    next.pending = session.pending ∧ next.cursor = session.cursor := by
  unfold takeTurn at refused
  split at refused
  next =>
      cases refused
      exact ⟨rfl, rfl⟩
  next =>
      dsimp only at refused
      split at refused
      next =>
          cases refused
          exact ⟨rfl, rfl⟩
      next => cases refused

/-- What is pending is handed out without a request. -/
theorem tickLoop_of_pending {policy : RetryPolicy} {options : CallOptions} {input : ι}
    {routes : List Route} {session : HttpStreamSession χ Nat} {server : Server σ} {value : Nat}
    {rest : List Nat} (pending : session.pending = value :: rest) :
    tickLoop (turnEndpoint producer schema) policy options input routes session server =
      ⟨.batch value, { session with pending := rest }, server, [], 0⟩ := by
  have polled : session.poll = some (.batch value, { session with pending := rest }) := by
    simp only [poll, pending]
  unfold tickLoop
  rw [polled]

/-- What a tick of a session with nothing pending leaves. -/
structure Ticked (cursor : Bytes) (session : HttpStreamSession χ Nat) (server : Server σ)
    (called : Called (HttpStreamSession χ Nat) (Server σ) ι Nat) : Prop where
  cursor_eq : called.session.cursor = [] ∨ called.session.cursor = cursor
  pending_eq : called.session.pending = []
  emitted_le : server.emitted cursor ≤ called.server.emitted cursor
  /-- A batch is the last one that the stream emitted, in this call. -/
  batch_eq : ∀ position, called.result = .batch position →
    server.emitted cursor ≤ position ∧ called.server.emitted cursor = position + 1
  /-- The end is reported for a stream that is over, or because the session knew. -/
  ended : called.result = .ended →
    (session.isFinished = true ∨ session.cursor = []) ∧ called.server = server ∨
      called.server.isLive cursor = false

omit [DecidableEq χ] in
/-- A poll reports the end only if the session knows of it. -/
theorem poll_eq_some {session next : HttpStreamSession χ Nat} {result : Result Nat}
    (drained : session.pending = []) (polled : session.poll = some (result, next)) :
    result = .ended ∧ next.pending = [] ∧ next.cursor = session.cursor ∧
      (session.isFinished = true ∨ session.cursor = []) := by
  simp only [poll, drained] at polled
  split at polled
  next knows =>
      cases polled
      exact ⟨rfl, rfl, rfl, knows⟩
  next => cases polled

omit [DecidableEq χ] in
/-- A tick that throws without taking anything over. -/
theorem Ticked.threw {cursor : Bytes} {session next : HttpStreamSession χ Nat}
    {server after : Server σ} {posts : List (Request ι)} {handled : Nat}
    (own : session.cursor = [] ∨ session.cursor = cursor) (drained : session.pending = [])
    (same : next.pending = session.pending ∧ next.cursor = session.cursor)
    (more : server.emitted cursor ≤ after.emitted cursor) :
    Ticked cursor session server ⟨.threw, next, after, posts, handled⟩ where
  cursor_eq := by rwa [same.2]
  pending_eq := by rw [same.1, drained]
  emitted_le := more
  batch_eq := by
    intro position returned
    cases returned
  ended := by
    intro finished
    cases finished

omit [DecidableEq χ] in
/-- A tick that only polls. -/
theorem Ticked.polled {cursor : Bytes} {session next : HttpStreamSession χ Nat}
    {server : Server σ} {result : Result Nat} {posts : List (Request ι)} {handled : Nat}
    (own : session.cursor = [] ∨ session.cursor = cursor) (drained : session.pending = [])
    (polled : session.poll = some (result, next)) :
    Ticked cursor session server ⟨result, next, server, posts, handled⟩ := by
  rcases poll_eq_some drained polled with ⟨rfl, empty, same, knows⟩
  constructor
  case cursor_eq => rwa [same]
  case pending_eq => exact empty
  case emitted_le => exact Nat.le_refl _
  case batch_eq =>
      intro position returned
      cases returned
  case ended =>
      intro _
      exact .inl ⟨knows, rfl⟩

omit [DecidableEq χ] in
/-- A turn in front of a tick: what the rest of the tick does is what the whole does. -/
theorem Ticked.after {cursor : Bytes} {session next : HttpStreamSession χ Nat}
    {server middle : Server σ} {called : Called (HttpStreamSession χ Nat) (Server σ) ι Nat}
    (rest : Ticked cursor next middle called)
    (more : server.emitted cursor ≤ middle.emitted cursor)
    (closing : next.isFinished = true ∨ next.cursor = [] → middle.isLive cursor = false)
    (posts : List (Request ι)) (handled : Nat) :
    Ticked cursor session server { called with posts := posts, handled := handled } where
  cursor_eq := rest.cursor_eq
  pending_eq := rest.pending_eq
  emitted_le := more.trans rest.emitted_le
  batch_eq := by
    intro position returned
    rcases rest.batch_eq position returned with ⟨least, count⟩
    exact ⟨more.trans least, count⟩
  ended := by
    intro reported
    right
    rcases rest.ended reported with ⟨knows, unchanged⟩ | dead
    · exact unchanged ▸ closing knows
    · exact dead

omit [DecidableEq χ] in
/-- A poll that finds nothing is one of an open stream. -/
theorem poll_eq_none {session : HttpStreamSession χ Nat} (unknown : session.poll = none) :
    session.isFinished = false ∧ session.cursor ≠ [] := by
  unfold poll at unknown
  split at unknown
  next => cases unknown
  next =>
      split at unknown
      next => cases unknown
      next knows => simpa using knows

/-- The loop of a tick, by induction on the requests that it makes. -/
theorem tickLoop_ticked (policy : RetryPolicy) (options : CallOptions) (input : ι)
    (routes : List Route) (cursor : Bytes) (session : HttpStreamSession χ Nat) (server : Server σ)
    (own : session.cursor = [] ∨ session.cursor = cursor) (drained : session.pending = []) :
    Ticked cursor session server
      (tickLoop (turnEndpoint producer schema) policy options input routes session server) := by
  induction routes generalizing session server with
  | nil =>
      unfold tickLoop
      split
      next polled => exact .polled own drained polled
      next => exact .threw own drained ⟨rfl, rfl⟩ (Nat.le_refl _)
  | cons route routes ih =>
      unfold tickLoop
      split
      next polled => exact .polled own drained polled
      next unknown =>
          rcases poll_eq_none unknown with ⟨running, known⟩
          have here : session.cursor = cursor := own.resolve_left known
          have more : server.emitted cursor ≤ (post (turnEndpoint producer schema) policy
              (session.continuation false input) options true route server).server.emitted cursor :=
            emitted_le_post _ _ _ _ _ _ _
          dsimp only
          split
          next => exact .threw own drained ⟨rfl, rfl⟩ more
          next decoded answer =>
              split
              next next refused => exact .threw own drained (takeTurn_false refused) more
              next next taken =>
                  rcases post_turn answer with ⟨data, control⟩
                  rcases takeTurn_true taken with ⟨queue, bearer, finished⟩
                  rw [drained, List.nil_append] at queue
                  rw [show (session.continuation false input).cursor = cursor from here] at data control
                  rw [running, Bool.false_or] at finished
                  have owned : next.cursor = [] ∨ next.cursor = cursor := by
                    rcases control with same | ⟨none, -⟩
                    · right
                      rw [bearer, same, controlCursor_singleton]
                    · left
                      rw [bearer, none, controlCursor_nil]
                  have closing : next.isFinished = true ∨ next.cursor = [] →
                      (post (turnEndpoint producer schema) policy
                        (session.continuation false input) options true route
                          server).server.isLive cursor = false := by
                    rw [finished, bearer, decide_eq_true_eq, or_self]
                    rcases control with same | ⟨-, dead⟩
                    · rw [same, controlCursor_singleton, ← here]
                      exact fun empty => absurd empty known
                    · exact fun _ => dead
                  rcases data with empty | ⟨position, one, least, count⟩
                  · rw [empty, List.map_nil] at queue
                    exact (ih next _ owned queue).after more closing _ _
                  · rw [one, List.map_singleton] at queue
                    rw [tickLoop_of_pending queue]
                    refine ⟨owned, rfl, more, ?_, ?_⟩
                    · intro other returned
                      cases returned
                      exact ⟨least, count⟩
                    · intro reported
                      cases reported

end HttpStreamSession

end VgiRpc.Http.Client
