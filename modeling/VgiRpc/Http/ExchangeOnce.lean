import VgiRpc.Http.ClientSession

/-!
# Exchange turns run at most once

A call of `exchange` posts without retries, and it retires the cursor before the request
leaves.  So the server handles at most one request for the call, and if the call throws
after the request was handed over, no later operation on the session posts anything.
-/

namespace VgiRpc.Http.Client

open VgiRpc.Cpp

variable {S ι χ β : Type} [DecidableEq χ]

/-! ## Operations on a session -/

/-- An operation on a stream session.  Destruction is `close`. -/
inductive StreamOperation (ι χ : Type) where
  | tick (options : CallOptions) (input : ι) (routes : List Route)
  | nextWithToken (options : CallOptions) (input : ι) (routes : List Route)
  | exchange (options : CallOptions) (input : Input ι χ) (route : Route)
  | seekToToken (token : Bytes)
  | cancel (input : ι) (route : Route)
  | close

/-- An operation on an exchange session.  Destruction is `close`. -/
inductive ExchangeOperation (ι χ : Type) where
  | exchange (options : CallOptions) (input : Input ι χ) (route : Route)
  | cancel (input : ι) (route : Route)
  | close

/-- What an operation leaves: the session, the server, and the requests it posted. -/
structure Left (σ S ι : Type) where
  session : σ
  server : S
  posts : List (Request ι)

/-- Forget what the caller gets. -/
def Called.left {σ β : Type} (called : Called σ S ι β) : Left σ S ι :=
  ⟨called.session, called.server, called.posts⟩

/-- Perform an operation on a stream session. -/
def StreamOperation.perform (endpoint : Endpoint S ι χ β) (policy : RetryPolicy)
    (operation : StreamOperation ι χ) (session : HttpStreamSession χ β) (server : S) :
    Left (HttpStreamSession χ β) S ι :=
  match operation with
  | .tick options input routes =>
      (session.tick endpoint policy options input routes server).left
  | .nextWithToken options input routes =>
      (session.nextWithToken endpoint policy options input routes server).left
  | .exchange options input route =>
      (session.exchange endpoint policy options input route server).left
  | .seekToToken token => ⟨(session.seekToToken token).getD session, server, []⟩
  | .cancel input route => (session.cancel endpoint policy input route server).left
  | .close => ⟨session.close, server, []⟩

/-- Perform an operation on an exchange session. -/
def ExchangeOperation.perform (endpoint : Endpoint S ι χ β) (policy : RetryPolicy)
    (operation : ExchangeOperation ι χ) (session : HttpExchangeSession χ) (server : S) :
    Left (HttpExchangeSession χ) S ι :=
  match operation with
  | .exchange options input route =>
      (session.exchange endpoint policy options input route server).left
  | .cancel input route => (session.cancel endpoint policy input route server).left
  | .close => ⟨session.close, server, []⟩

/-- The requests of a sequence of operations. -/
def postsOf {σ o : Type} (perform : o → σ → S → Left σ S ι) :
    List o → σ → S → List (Request ι)
  | [], _, _ => []
  | operation :: later, session, server =>
      (perform operation session server).posts ++
        postsOf perform later (perform operation session server).session
          (perform operation session server).server

/-- If every operation keeps a session retired and posts nothing on a retired session,
no sequence of operations on it posts anything. -/
theorem postsOf_retired {σ o : Type} {perform : o → σ → S → Left σ S ι} {Retired : σ → Prop}
    (silent : ∀ operation session server, Retired session →
      Retired (perform operation session server).session ∧
        (perform operation session server).posts = [])
    (operations : List o) (session : σ) (server : S) (retired : Retired session) :
    postsOf perform operations session server = [] := by
  induction operations generalizing session server with
  | nil => rfl
  | cons operation later ih =>
      rcases silent operation session server retired with ⟨still, nothing⟩
      simp only [postsOf, nothing, List.nil_append]
      exact ih _ _ still

/-! ## Stream sessions -/

namespace HttpStreamSession

variable (endpoint : Endpoint S ι χ β) (policy : RetryPolicy)

theorem tick_of_closed {options : CallOptions} {input : ι} {routes : List Route}
    {session : HttpStreamSession χ β} {server : S} (closed : session.isClosed = true) :
    session.tick endpoint policy options input routes server = ⟨.threw, session, server, [], 0⟩ := by
  simp [tick, closed]

/-- A closed session posts nothing and stays closed. -/
theorem perform_of_closed (operation : StreamOperation ι χ) (session : HttpStreamSession χ β)
    (server : S) (closed : session.isClosed = true) :
    (operation.perform endpoint policy session server).session.isClosed = true ∧
      (operation.perform endpoint policy session server).posts = [] := by
  cases operation with
  | tick options input routes =>
      simp only [StreamOperation.perform, tick_of_closed endpoint policy closed]
      exact ⟨closed, rfl⟩
  | nextWithToken options input routes =>
      simp only [StreamOperation.perform, nextWithToken, tick_of_closed endpoint policy closed]
      split
      next => exact ⟨closed, rfl⟩
      next => exact ⟨closed, rfl⟩
  | exchange options input route =>
      simp only [StreamOperation.perform, exchange, retire, closed, true_or, if_true]
      exact ⟨closed, rfl⟩
  | seekToToken token =>
      simp only [StreamOperation.perform, seekToToken, closed, true_or, if_true, Option.getD_none,
        and_self]
  | cancel input route =>
      simp only [StreamOperation.perform, cancel, closed, true_or, if_true]
      exact ⟨rfl, rfl⟩
  | close => exact ⟨rfl, rfl⟩

/-- A request is posted only by a session that is closed meanwhile. -/
theorem retire_closed {session retired : HttpStreamSession χ β} {input : Input ι χ}
    (ready : session.retire input = (true, retired)) : retired.isClosed = true := by
  unfold retire at ready
  split at ready
  next => cases ready
  next =>
      split at ready
      next => cases ready
      next =>
          split at ready
          next => cases ready
          next =>
              dsimp only at ready
              split at ready
              next => cases ready
              next =>
                  rw [Prod.mk.injEq] at ready
                  rw [← ready.2]

/-- A contract violation leaves the session as it was. -/
theorem takeAnswer_threw {session : HttpStreamSession χ β} {decoded : Decoded χ β}
    (threw : (session.takeAnswer decoded).1 = .threw) :
    (session.takeAnswer decoded).2.isClosed = session.isClosed := by
  unfold takeAnswer at threw ⊢
  split
  next => rfl
  next matching =>
      rw [if_neg matching] at threw
      cases data : decoded.data with
      | nil => rfl
      | cons output rest =>
          cases rest with
          | nil =>
              rw [data] at threw
              cases threw
          | cons second rest => rfl

/-- The server handles at most one request of an exchange, and an exchange that throws
after its request was posted leaves the session closed. -/
theorem exchange_once (options : CallOptions) (input : Input ι χ) (route : Route)
    (session : HttpStreamSession χ β) (server : S) :
    (session.exchange endpoint policy options input route server).handled ≤ 1 ∧
      ((session.exchange endpoint policy options input route server).result = .threw →
        (session.exchange endpoint policy options input route server).posts ≠ [] →
          (session.exchange endpoint policy options input route server).session.isClosed = true) := by
  unfold exchange
  split
  next => exact ⟨Nat.zero_le 1, fun _ posted => absurd rfl posted⟩
  next retired ready =>
      have closed := retire_closed ready
      dsimp only
      split
      next => exact ⟨post_handled_le_one _ _ _, fun _ _ => closed⟩
      next decoded _ =>
          constructor
          · exact post_handled_le_one _ _ _
          · intro threw _
            rw [takeAnswer_threw threw]
            exact closed

end HttpStreamSession

/-! ## Exchange sessions -/

namespace HttpExchangeSession

variable (endpoint : Endpoint S ι χ β) (policy : RetryPolicy)

/-- An inactive session posts nothing and stays inactive. -/
theorem perform_of_inactive (operation : ExchangeOperation ι χ) (session : HttpExchangeSession χ)
    (server : S) (inactive : session.isActive = false) :
    (operation.perform endpoint policy session server).session.isActive = false ∧
      (operation.perform endpoint policy session server).posts = [] := by
  cases operation with
  | exchange options input route =>
      simp only [ExchangeOperation.perform, exchange, inactive, true_or, if_true]
      exact ⟨inactive, rfl⟩
  | cancel input route =>
      simp only [ExchangeOperation.perform, cancel, inactive, if_true]
      exact ⟨inactive, rfl⟩
  | close => exact ⟨rfl, rfl⟩

/-- A contract violation leaves the session as it was. -/
theorem takeAnswer_threw {session : HttpExchangeSession χ} {decoded : Decoded χ β}
    (threw : (session.takeAnswer decoded).1 = .threw) :
    (session.takeAnswer decoded).2 = session := by
  unfold takeAnswer at threw ⊢
  split
  next => rfl
  next matching =>
      rw [if_neg matching] at threw
      split
      next output one =>
          rw [one] at threw
          dsimp only at threw ⊢
          split
          next => rfl
          next found =>
              rw [if_neg found] at threw
              cases threw
      next => rfl

/-- The server handles at most one request of an exchange, and an exchange that throws
after its request was posted leaves the session inactive. -/
theorem exchange_once (options : CallOptions) (input : Input ι χ) (route : Route)
    (session : HttpExchangeSession χ) (server : S) :
    (session.exchange endpoint policy options input route server).handled ≤ 1 ∧
      ((session.exchange endpoint policy options input route server).result = .threw →
        (session.exchange endpoint policy options input route server).posts ≠ [] →
          (session.exchange endpoint policy options input route server).session.isActive = false) := by
  unfold exchange
  split
  next => exact ⟨Nat.zero_le 1, fun _ posted => absurd rfl posted⟩
  next =>
      dsimp only
      split
      next => exact ⟨post_handled_le_one _ _ _, fun _ _ => rfl⟩
      next decoded _ =>
          constructor
          · exact post_handled_le_one _ _ _
          · intro threw _
            rw [takeAnswer_threw threw]

end HttpExchangeSession

/-! ## At most once, and never again after an ambiguous end -/

/-- For every server, configuration and schedule, one call of `exchange` makes the server
handle at most one request.  If the call threw after it had posted its request, whatever
the reason, no operation on the session posts anything from then on. -/
theorem exchange_at_most_once (endpoint : Endpoint S ι χ β) (policy : RetryPolicy)
    (options : CallOptions) (input : Input ι χ) (route : Route) (server : S) :
    (∀ session : HttpExchangeSession χ,
      let called := session.exchange endpoint policy options input route server
      called.handled ≤ 1 ∧
        (called.result = .threw → called.posts ≠ [] → ∀ operations server,
          postsOf (ExchangeOperation.perform endpoint policy) operations called.session server =
            [])) ∧
    (∀ session : HttpStreamSession χ β,
      let called := session.exchange endpoint policy options input route server
      called.handled ≤ 1 ∧
        (called.result = .threw → called.posts ≠ [] → ∀ operations server,
          postsOf (StreamOperation.perform endpoint policy) operations called.session server =
            [])) := by
  constructor
  · intro session
    rcases HttpExchangeSession.exchange_once endpoint policy options input route session
      server with ⟨once, inactive⟩
    refine ⟨once, fun threw posted operations server => ?_⟩
    exact postsOf_retired (HttpExchangeSession.perform_of_inactive endpoint policy) operations _ server
      (inactive threw posted)
  · intro session
    rcases HttpStreamSession.exchange_once endpoint policy options input route session
      server with ⟨once, closed⟩
    refine ⟨once, fun threw posted operations server => ?_⟩
    exact postsOf_retired (HttpStreamSession.perform_of_closed endpoint policy) operations _ server
      (closed threw posted)

/-- A server that counts its turns and hands the same cursor out again. -/
def countingEndpoint : Endpoint Nat Unit Unit Nat where
  handle _ turns := (⟨200, some ⟨(), [⟨turns, [1]⟩], []⟩⟩, turns + 1)
  handled_status := by
    intro request turns
    simp

/-- The default of three attempts, with 503 declared retryable. -/
def samplePolicy : RetryPolicy := ⟨3, [503]⟩

def sampleExchange : HttpExchangeSession Unit := ⟨(), (), [1], [2], true⟩

def sampleInput : Input Unit Unit := ⟨some (), true, true, ()⟩

/-- The answer to a turn is lost, in a call that is declared idempotent: the handler ran
once, and `exchange`, `cancel` and `close` send nothing afterwards. -/
theorem lostAnswer_sends_nothing_more :
    let called := sampleExchange.exchange countingEndpoint samplePolicy ⟨true⟩ sampleInput
      (plainRoute [.responseLost true, .delivered true]) 0
    called.handled ≤ 1 ∧ called.server = 1 ∧
      postsOf (ExchangeOperation.perform countingEndpoint samplePolicy)
        [.exchange ⟨true⟩ sampleInput (plainRoute [.delivered true]),
          .cancel () (plainRoute [.delivered true]), .close] called.session called.server = [] := by
  have both := (exchange_at_most_once countingEndpoint samplePolicy ⟨true⟩ sampleInput
    (plainRoute [.responseLost true, .delivered true]) 0).1 sampleExchange
  exact ⟨both.1, by decide, both.2 (by decide) (by decide) _ _⟩

end VgiRpc.Http.Client
