import VgiRpc.Collector.Transports

/-!
# Streams that run alike on both transports

Each transport decides for itself whether a stream is a producer: the raw transport from
the input schema, HTTP from the method's registration and the class of the state.  The
two drive a stream alike as long as they decide alike, for every state machine and every
sequence of inputs; where they decide differently, some state machine tells them apart.
-/

namespace VgiRpc.Collector

open VgiRpc.Cpp

variable {σ ι β μ : Type}

/-! ## The kind of a stream -/

/-- What the two transports look at: `is_exchange` of the method, whether the state is a
`ProducerState`, and the number of fields of the input schema. -/
structure Kind where
  registeredExchange : Bool
  producerState : Bool
  inputFields : Nat
  deriving DecidableEq, Repr

namespace Kind

/-- `is_producer` of `Server::serve_stream`. -/
def isProducer (kind : Kind) : Bool := kind.inputFields == 0

/-- `is_exchange` of the stream init over HTTP. -/
def isExchange (kind : Kind) : Bool := kind.registeredExchange && !kind.producerState

end Kind

/-! ## What a client sees -/

/-- A turn apart from its log messages: the data batches, the error, and which calls of
`finish` were accepted. -/
structure View (β : Type) where
  data : List β
  error : Option ErrorType
  finishes : List Bool
  deriving DecidableEq

/-- The view of a response. -/
def Response.view (response : Response β μ) : View β :=
  ⟨dataOf response.items, response.error, response.finishes⟩

/-- The same turns and the same end. -/
def SameStream (first second : List (Response β μ) × End) : Prop :=
  first.1.map Response.view = second.1.map Response.view ∧ first.2 = second.2

/-! ## Answers that go out -/

/-- Why the answer to a turn does not go out over HTTP.  The error answer of an exchange is
not bounded. -/
def turnRefusal (channel : Channel β μ) (front : List (Answer β μ)) (isProducer : Bool)
    (request : Nat) (outcome : Outcome σ β μ) : Option Refusal :=
  match outcome.error with
  | some error =>
      if isProducer then channel.refusal request (front ++ [⟨[], some error, false⟩]) [] else none
  | none =>
      channel.refusal request
        (front ++ [⟨outcome.collector.batches, none, !outcome.collector.isFinished⟩])
        outcome.collector.batches

/-- Turns whose answers go out, or are errors that are refused with the error they are. -/
def FitTurns (channel : Channel β μ) (front : Nat → List (Answer β μ))
    (process : σ → ι → Handler σ β μ) (coerce : ι → Except ErrorType ι) (isProducer : Bool) :
    Nat → σ → List ι → Prop
  | _, _, [] => True
  | request, state, input :: inputs =>
      match if isProducer then .ok input else coerce input with
      | .error _ => True
      | .ok input =>
          let outcome := (process state input).run isProducer
          let refusal := turnRefusal channel (front request) isProducer request outcome
          match outcome.error with
          | some error => ∀ refused ∈ refusal, refused.streamError = error
          | none =>
              refusal = none ∧ (outcome.collector.isFinished = false →
                FitTurns channel front process coerce isProducer (request + 1) outcome.state inputs)

/-- The same from the factory on.  The answer to the `/init` of an exchange carries no turn,
the one of a producer is the answer to its first. -/
def Fits (channel : Channel β μ) (process : σ → ι → Handler σ β μ)
    (coerce : ι → Except ErrorType ι) (isProducer : Bool) (factory : Factory σ μ)
    (inputs : List ι) : Prop :=
  match factory.result with
  | .error _ => True
  | .ok state =>
      (isProducer = false → channel.refusal 0 [factory.response.answer true] [] = none) ∧
        FitTurns channel (factory.front isProducer) process coerce isProducer
          (if isProducer then 0 else 1) state inputs

/-- A kind of stream whose semantics does not depend on the transport, as long as HTTP lets
the answers through. -/
def TransportIndependent (kind : Kind) : Prop :=
  ∀ (σ ι β μ : Type) (channel : Channel β μ) (process : σ → ι → Handler σ β μ)
    (coerce : ι → Except ErrorType ι) (factory : Factory σ μ) (inputs : List ι),
    Fits channel process coerce (!kind.isExchange) factory inputs →
      SameStream (serveStream process coerce kind.isProducer factory inputs)
        (serveHttp channel process coerce (!kind.isExchange) factory inputs)

/-! ## Streams in one mode -/

/-- A collector of an exchange is never finished. -/
theorem Handler.run_exchange_unfinished (handler : Handler σ β μ) :
    (handler.run false).collector.isFinished = false := by
  rcases handler.kept_run false with ⟨kept, mode⟩
  cases finished : (handler.run false).collector.isFinished with
  | false => rfl
  | true =>
      have producer := kept.finished finished
      rw [mode] at producer
      cases producer

/-- A turn over HTTP in the shape of the raw loop, which would end a finished exchange if
there were one. -/
theorem httpTurn_eq (channel : Channel β μ) (front : Nat → List (Answer β μ))
    (process : σ → ι → Handler σ β μ) (coerce : ι → Except ErrorType ι)
    (isProducer : Bool) (request : Nat) (state : σ) (input : ι) :
    httpTurn process coerce channel front isProducer request state input =
      match if isProducer then .ok input else coerce input with
      | .error error => failedTurn error [] []
      | .ok input =>
          let outcome := (process state input).run isProducer
          match turnRefusal channel (front request) isProducer request outcome with
          | some refusal => failedTurn refusal.streamError outcome.logged outcome.finishes
          | none =>
              match outcome.error with
              | some error => failedTurn error outcome.logged outcome.finishes
              | none =>
                  (⟨outcome.collector.batches, none, outcome.logged, outcome.finishes⟩,
                    if outcome.collector.isFinished then .inl .finished
                    else .inr outcome.state) := by
  cases isProducer with
  | true =>
      simp only [httpTurn, producerTurn, runProducerTurns, turnRefusal, if_true]
      generalize (process state input).run true = outcome
      cases outcome.error with
      | some error => rfl
      | none => cases outcome.collector.isFinished <;> rfl
  | false =>
      simp only [httpTurn, exchangeTurn, Bool.false_eq_true, if_false]
      cases coerce input with
      | error error => rfl
      | ok input =>
          have unfinished := (process state input).run_exchange_unfinished
          simp only [turnRefusal]
          generalize (process state input).run false = outcome at unfinished ⊢
          cases outcome.error with
          | some error => rfl
          | none =>
              simp only [unfinished]
              rfl

section Runs

variable (channel : Channel β μ) (front : Nat → List (Answer β μ))
  (process : σ → ι → Handler σ β μ) (coerce : ι → Except ErrorType ι) (isProducer : Bool)

/-- Turns in one mode look the same on both transports exactly if their answers go out. -/
theorem runTurns_same_iff (number request : Nat) (state : σ) (inputs : List ι) :
    SameStream (runTurns (fun _ => rawTurn process coerce isProducer) number state inputs)
        (runTurns (httpTurn process coerce channel front isProducer) request state inputs) ↔
      FitTurns channel front process coerce isProducer request state inputs := by
  induction inputs generalizing number request state with
  | nil => simp [SameStream, runTurns, FitTurns]
  | cons input inputs ih =>
      simp only [runTurns, FitTurns, httpTurn_eq, rawTurn]
      generalize (if isProducer then .ok input else coerce input) = prepared
      cases prepared with
      | error error => simp [SameStream, failedTurn]
      | ok input =>
          simp only
          generalize (process state input).run isProducer = outcome
          generalize turnRefusal channel (front request) isProducer request outcome = refusal
          cases outcome.error with
          | some error =>
              cases refusal with
              | none => simp [SameStream, failedTurn]
              | some refused => simp [SameStream, failedTurn, Response.view, eq_comm]
          | none =>
              cases refusal with
              | some refused =>
                  cases outcome.collector.isFinished <;>
                    simp [SameStream, failedTurn, Response.view]
              | none =>
                  cases outcome.collector.isFinished with
                  | true => simp [SameStream, Response.view]
                  | false =>
                      rw [← ih (number + 1)]
                      simp [SameStream, Response.view]

/-- A stream in one mode looks the same on both transports exactly if its answers go out. -/
theorem sameStream_iff_fits (factory : Factory σ μ) (inputs : List ι) :
    SameStream (serveStream process coerce isProducer factory inputs)
        (serveHttp channel process coerce isProducer factory inputs) ↔
      Fits channel process coerce isProducer factory inputs := by
  unfold serveStream serveHttp Fits
  cases made : factory.result with
  | error error => simp [SameStream]
  | ok state =>
      simp only
      cases isProducer with
      | true =>
          rw [← runTurns_same_iff channel (factory.front true) process coerce true 0]
          cases initRefusal channel process true factory state inputs with
          | none => simp [SameStream]
          | some refusal => simp [SameStream, Factory.response, made, Response.view]
      | false =>
          rw [← runTurns_same_iff channel (factory.front false) process coerce false 0]
          simp only [initRefusal, Bool.false_eq_true, if_false, forall_const]
          cases channel.refusal 0 [factory.response.answer true] [] with
          | none => simp [SameStream]
          | some refusal => simp [SameStream, Factory.response, made, Response.view]

end Runs

/-! ## Kinds on which the transports agree -/

/-- A state machine that finishes its stream in its first turn. -/
def finishing : Unit → Unit → Handler Unit Unit Unit := fun _ _ =>
  .finish fun
    | none => .returns ()
    | some error => .throws error ()

theorem finishing_fits (isProducer : Bool) :
    Fits .unbounded finishing .ok isProducer ⟨[], .ok ()⟩ [()] := by
  cases isProducer <;> simp [Fits, FitTurns, finishing, Handler.run, Handler.runFrom, turnRefusal,
    OutputCollector.finish, OutputCollector.fresh]

/-- In one mode the stream ends, in the other the call is refused. -/
theorem finishing_told_apart (first second : Bool)
    (same : SameStream (serveStream finishing .ok first ⟨[], .ok ()⟩ [()])
      (serveHttp .unbounded finishing .ok second ⟨[], .ok ()⟩ [()])) : first = second := by
  revert same
  unfold SameStream
  cases first <;> cases second <;> decide

end VgiRpc.Collector
