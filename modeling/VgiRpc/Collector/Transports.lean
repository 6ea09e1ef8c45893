import VgiRpc.Collector.Limits

/-!
# Calls on the two transports

How `Server::serve_stream` drives a stream on the raw transport and how the `/init` and
continuation handlers of `HttpServer` drive it over HTTP, and what each of them sends for
every turn.  Both call the same factory and the same `process`; what differs is which mode
they give the collector, which logs they flush, and that HTTP bounds its answers.

What a pointer stands for counts as sent.  A handler throws nothing but a `std::exception`.
-/

namespace VgiRpc.Collector

open VgiRpc.Cpp

variable {σ ι β μ : Type}

/-! ## Turns -/

/-- What the server sends for one turn.  `logged` and `finishes` are what the handler did
in it. -/
structure Response (β μ : Type) where
  items : List (Item β μ)
  error : Option ErrorType
  logged : List μ
  finishes : List Bool
  deriving DecidableEq

/-- How a stream ends; it waits if the inputs have run out. -/
inductive End where
  | waiting
  | finished
  | failed (error : ErrorType)
  deriving DecidableEq, Repr

/-- What the response puts into its body. -/
def Response.answer (response : Response β μ) (cursor : Bool) : Answer β μ :=
  ⟨response.items, response.error, cursor⟩

/-- Turn after turn, until one of them ends the stream.  A turn is told its number. -/
def runTurns (turn : Nat → σ → ι → Response β μ × (End ⊕ σ)) :
    Nat → σ → List ι → List (Response β μ) × End
  | _, _, [] => ([], .waiting)
  | number, state, input :: inputs =>
      match turn number state input with
      | (response, .inl ending) => ([response], ending)
      | (response, .inr state) =>
          let rest := runTurns turn (number + 1) state inputs
          (response :: rest.1, rest.2)

/-- The error answer to a turn: nothing but the exception batch. -/
def failedTurn (error : ErrorType) (logged : List μ) (finishes : List Bool) :
    Response β μ × (End ⊕ σ) :=
  (⟨[], some error, logged, finishes⟩, .inl (.failed error))

section Turns

variable (process : σ → ι → Handler σ β μ) (coerce : ι → Except ErrorType ι)

/-- A turn of the loop of `serve_stream`: the log sink, then the collector.  An exception
leaves the loop in front of both. -/
def rawTurn (isProducer : Bool) (state : σ) (input : ι) : Response β μ × (End ⊕ σ) :=
  match if isProducer then .ok input else coerce input with
  | .error error => failedTurn error [] []
  | .ok input =>
      let outcome := (process state input).run isProducer
      match outcome.error with
      | some error => failedTurn error outcome.logged outcome.finishes
      | none =>
          (⟨outcome.sink.map .log ++ outcome.collector.batches, none, outcome.logged,
              outcome.finishes⟩,
            if outcome.collector.isFinished then .inl .finished else .inr outcome.state)

/-- `run_producer_turns`: the collector. -/
def runProducerTurns (state : σ) (input : ι) : Response β μ × (End ⊕ σ) :=
  let outcome := (process state input).run true
  match outcome.error with
  | some error => failedTurn error outcome.logged outcome.finishes
  | none =>
      (⟨outcome.collector.batches, none, outcome.logged, outcome.finishes⟩,
        if outcome.collector.isFinished then .inl .finished else .inr outcome.state)

/-- A turn as it is answered over HTTP, behind what the body carries already. -/
def Channel.answer (channel : Channel β μ) (front : List (Answer β μ)) (request : Nat)
    (turn : Response β μ × (End ⊕ σ)) : Response β μ × (End ⊕ σ) :=
  match channel.refusal request (front ++ [turn.1.answer turn.2.isRight]) turn.1.items with
  | some refusal => failedTurn refusal.streamError turn.1.logged turn.1.finishes
  | none => turn

variable (channel : Channel β μ) (front : Nat → List (Answer β μ))

/-- A turn of a producer over HTTP. -/
def producerTurn (request : Nat) (state : σ) (input : ι) : Response β μ × (End ⊕ σ) :=
  channel.answer (front request) request (runProducerTurns process state input)

/-- An exchange turn over HTTP: the collector, and the cursor in any case.  An exception is
answered past the limits. -/
def exchangeTurn (request : Nat) (state : σ) (input : ι) : Response β μ × (End ⊕ σ) :=
  match coerce input with
  | .error error => failedTurn error [] []
  | .ok input =>
      let outcome := (process state input).run false
      match outcome.error with
      | some error => failedTurn error outcome.logged outcome.finishes
      | none =>
          channel.answer (front request) request
            (⟨outcome.collector.batches, none, outcome.logged, outcome.finishes⟩,
              .inr outcome.state)

/-- A turn over HTTP. -/
def httpTurn (isProducer : Bool) : Nat → σ → ι → Response β μ × (End ⊕ σ) :=
  if isProducer then producerTurn process channel front
  else exchangeTurn process coerce channel front

end Turns

/-! ## Streams -/

/-- A stream factory: the messages it logs to its context, and the state it returns or the
error it throws. -/
structure Factory (σ μ : Type) where
  logs : List μ
  result : Except ErrorType σ

/-- What goes out for the factory: its logs, with the header or in front of the first turn.
An error goes out alone. -/
def Factory.response (factory : Factory σ μ) : Response β μ :=
  match factory.result with
  | .error error => ⟨[], some error, factory.logs, []⟩
  | .ok _ => ⟨factory.logs.map .log, none, factory.logs, []⟩

/-- What the body of an answer carries in front of a turn: the first turn of a producer is
answered on `/init`, behind what the factory sent. -/
def Factory.front (factory : Factory σ μ) (isProducer : Bool) (request : Nat) :
    List (Answer β μ) :=
  if isProducer = true ∧ request = 0 then [factory.response.answer false] else []

/-- `Server::serve_stream` for the inputs of a client. -/
def serveStream (process : σ → ι → Handler σ β μ) (coerce : ι → Except ErrorType ι)
    (isProducer : Bool) (factory : Factory σ μ) (inputs : List ι) :
    List (Response β μ) × End :=
  match factory.result with
  | .error error => ([factory.response], .failed error)
  | .ok state =>
      let rest := runTurns (fun _ => rawTurn process coerce isProducer) 0 state inputs
      (factory.response :: rest.1, rest.2)

/-- Why the answer to `/init` does not go out.  The first turn of a producer is in it, and
the cursor of an exchange. -/
def initRefusal (channel : Channel β μ) (process : σ → ι → Handler σ β μ) (isProducer : Bool)
    (factory : Factory σ μ) (state : σ) (inputs : List ι) : Option Refusal :=
  if isProducer then
    inputs.head?.bind fun input =>
      let turn := runProducerTurns process state input
      channel.refusal 0 (factory.front true 0 ++ [turn.1.answer turn.2.isRight]) turn.1.items
  else channel.refusal 0 [factory.response.answer true] []

/-- The stream handlers of `HttpServer` for the inputs of a client.  The first input of a
producer rides on `/init`, every other one on a continuation.  If `/init` is refused, what
the factory sent goes with it. -/
def serveHttp (channel : Channel β μ) (process : σ → ι → Handler σ β μ)
    (coerce : ι → Except ErrorType ι) (isProducer : Bool) (factory : Factory σ μ)
    (inputs : List ι) : List (Response β μ) × End :=
  match factory.result with
  | .error error => ([factory.response], .failed error)
  | .ok state =>
      let turn := httpTurn process coerce channel (factory.front isProducer) isProducer
      match initRefusal channel process isProducer factory state inputs with
      | none =>
          let rest := runTurns turn (if isProducer then 0 else 1) state inputs
          (factory.response :: rest.1, rest.2)
      | some refusal =>
          if isProducer then
            let rest := runTurns turn 0 state inputs
            (⟨[], none, factory.logs, []⟩ :: rest.1, rest.2)
          else ([⟨[], some refusal.streamError, factory.logs, []⟩], .failed refusal.streamError)

/-! ## Unary calls -/

/-- A unary handler: the messages it logs to its context, and its result. -/
structure UnaryHandler (β μ : Type) where
  logs : List μ
  result : Except ErrorType β

/-- `serve_unary_impl`, which both transports call: the logs are flushed whether or not the
handler threw. -/
def serveUnary (handler : UnaryHandler β μ) : Response β μ :=
  match handler.result with
  | .error error => ⟨handler.logs.map .log, some error, handler.logs, []⟩
  | .ok batch => ⟨handler.logs.map .log ++ [.data batch], none, handler.logs, []⟩

/-- Why the answer to a unary call does not go out over HTTP.  The answer of a handler that
threw is not uploaded. -/
def unaryRefusal (channel : Channel β μ) (handler : UnaryHandler β μ) : Option Refusal :=
  let response := serveUnary handler
  channel.refusal 0 [response.answer false]
    (if response.error.isSome then [] else response.items)

/-- A unary call of `HttpServer`. -/
def serveUnaryHttp (channel : Channel β μ) (handler : UnaryHandler β μ) : Response β μ :=
  match unaryRefusal channel handler with
  | some refusal => ⟨[], some refusal.unaryError, handler.logs, []⟩
  | none => serveUnary handler

end VgiRpc.Collector
