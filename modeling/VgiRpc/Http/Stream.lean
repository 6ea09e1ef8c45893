import VgiRpc.Crypto.Encoding
import VgiRpc.Session.Registry

/-!
# Streams over HTTP

The stream part of `HttpServer::handle_rpc`: `/init` registers a session under a
cursor, continuations and cancels look it up, and every exit pairs an edit of the
registry with an answer.

What user code does is an input of the model: the outcome of a factory, of one
`process` call and of an upload, and the size of the body that was built from them.
A throw is kept as an outcome, because `handle_rpc` catches `std::exception` only;
anything else unwinds to the exception handler of the HTTP server, which answers
500.
-/

namespace VgiRpc.Http

open VgiRpc.Cpp

/-! ## Outcomes of user code -/

/-- What was thrown: a `std::exception`, or something that is not one. -/
inductive Throw where
  | standard
  | other
  deriving DecidableEq, Repr

/-- What happens while one turn is handled. -/
structure Outcome where
  /-- `process`: the row counts of the batches it emitted, and whether it called
  `finish`. -/
  process : Except Throw (List Nat × Bool)
  /-- The externalizer: nothing, or the number of bytes uploaded. -/
  upload : Except Throw (Option Nat)
  /-- An IPC write inside `build_body` throws. -/
  writeFails : Bool
  /-- The size of the body of a successful answer. -/
  bodySize : Nat

/-! ## Sessions and answers -/

/-- `HttpStreamSession`; the address tells session objects apart. -/
structure StreamSession where
  address : Nat
  isExchange : Bool
  methodName : Bytes
  aad : Bytes
  responseLimitBytes : Option Int
  deriving DecidableEq

/-- The part of `HttpConfig` that stream handling reads. -/
structure StreamConfig where
  maxExternalizedResponseBytes : Int
  callStateCache : Bool
  tokenOpen : Session.AeadOpen

/-- A batch of an answer; `cursor` is its continuation token, if it has one.  The
cursor is stripped from what a handler sees, so no handler attaches it. -/
structure WireBatch where
  numRows : Nat
  cursor : Option Bytes
  isException : Bool
  deriving DecidableEq

/-- An HTTP answer: the batches of its body, and those behind a pointer batch. -/
structure Response where
  status : Nat
  rpcError : Bool
  inline : List WireBatch
  stored : List WireBatch
  deriving DecidableEq

namespace Response

/-- The answer tells the client to continue with the cursor. -/
def advertises (response : Response) (cursor : Bytes) : Bool :=
  response.status = 200 && !response.rpcError &&
    (response.inline ++ response.stored).any fun batch => batch.cursor = some cursor

/-- An error in the body of a 200. -/
def error : Response := ⟨200, true, [⟨0, none, true⟩], []⟩

/-- `fail(400, ...)`. -/
def refused : Response := ⟨400, true, [⟨0, none, true⟩], []⟩

/-- The exception handler of the HTTP server. -/
def internalError : Response := ⟨500, false, [], []⟩

end Response

/-! ## One turn -/

/-- A batch as a handler emitted it. -/
def plainBatch (numRows : Nat) : WireBatch := ⟨numRows, none, false⟩

/-- The zero-row batch that carries only the cursor. -/
def cursorBatch (cursor : Bytes) : WireBatch := ⟨0, some cursor, false⟩

/-- The zero-row batch that points at an upload. -/
def pointerBatch : WireBatch := ⟨0, none, false⟩

/-- What a turn has built. -/
structure Built where
  inline : List WireBatch
  stored : List WireBatch
  finished : Bool
  failed : Bool
  externalized : Nat

/-- Replace a cycle by a pointer if it was uploaded. -/
def externalize (upload : Except Throw (Option Nat)) (batches : List WireBatch) :
    Except Throw (List WireBatch × List WireBatch × Nat) :=
  match upload with
  | .error thrown => .error thrown
  | .ok none => .ok (batches, [], 0)
  | .ok (some bytes) => .ok ([pointerBatch], batches, bytes)

/-- `run_producer_turns`: a handler error becomes an error batch and ends the stream. -/
def runProducerTurns (outcome : Outcome) : Except Throw Built :=
  match outcome.process with
  | .error .standard => .ok ⟨[⟨0, none, true⟩], [], true, true, 0⟩
  | .error .other => .error .other
  | .ok (batches, finished) =>
      match externalize outcome.upload (batches.map plainBatch) with
      | .error thrown => .error thrown
      | .ok (inline, stored, bytes) => .ok ⟨inline, stored, finished, false, bytes⟩

/-- The producer body of `/init` and of a continuation: a turn, and the cursor unless
it was the last one. -/
def producerBody (cursor : Bytes) (outcome : Outcome) : Except Throw Built :=
  match runProducerTurns outcome with
  | .error thrown => .error thrown
  | .ok built =>
      if outcome.writeFails then .error .standard
      else if built.finished then .ok built
      else .ok { built with inline := built.inline ++ [cursorBatch cursor] }

/-- The body of an exchange turn: the cursor rides on every batch with rows, or on a
batch of its own behind them. -/
def exchangeBody (cursor : Bytes) (outcome : Outcome) : Except Throw Built :=
  match outcome.process with
  | .error thrown => .error thrown
  -- `finish` is refused on an exchange.
  | .ok (_, true) => .error .standard
  | .ok (batches, false) =>
      let merged := batches.map fun numRows =>
        if 0 < numRows then ⟨numRows, some cursor, false⟩ else plainBatch numRows
      let trailing := if (batches.getLast?.getD 0) = 0 then [cursorBatch cursor] else []
      match externalize outcome.upload merged with
      | .error thrown => .error thrown
      | .ok (inline, stored, bytes) =>
          if outcome.writeFails then .error .standard
          else .ok ⟨inline ++ trailing, stored, false, false, bytes⟩

/-- `max_externalized_response_bytes` is exceeded. -/
def externalCapExceeded (config : StreamConfig) (externalized : Nat) : Bool :=
  decide (0 ≤ config.maxExternalizedResponseBytes) &&
    decide ((externalized : Int) > config.maxExternalizedResponseBytes)

/-- The body is over the response limit. -/
def overLimit (limit : Option Int) (bodySize : Nat) : Bool :=
  match limit with
  | none => false
  | some bytes => decide ((bodySize : Int) > bytes)

/-- `min_limit`. -/
def minLimit : Option Int → Option Int → Option Int
  | some left, some right => some (min left right)
  | some left, none => some left
  | none, right => right

/-! ## Requests -/

/-- The registry `streams_`. -/
abbrev Registry := List (Bytes × StreamSession)

namespace Registry

def insert (registry : Registry) (cursor : Bytes) (session : StreamSession) : Registry :=
  (cursor, session) :: registry.filter fun item => item.1 ≠ cursor

def erase (registry : Registry) (cursor : Bytes) : Registry :=
  registry.filter fun item => item.1 ≠ cursor

end Registry

/-- A stream request that passed routing and identity.  `scope` is the identity and
protocol that it is made under, `limit` its response limit. -/
inductive Request where
  /-- `/init`, with the session and the cursor that the server draws for it. -/
  | init (cursor : Bytes) (session : StreamSession) (factory : Except Throw Unit)
  | continuation (cursor scope callToken : Bytes) (limit : Option Int) (cancel : Bool)

/-- `/init` from the factory on. -/
def handleInit (config : StreamConfig) (registry : Registry) (cursor : Bytes)
    (session : StreamSession) (factory : Except Throw Unit) (outcome : Outcome) :
    Registry × Response :=
  match factory with
  | .error .standard => (registry, .error)
  | .error .other => (registry, .internalError)
  | .ok () =>
      let body :=
        if session.isExchange then
          if outcome.writeFails then .error .standard
          else .ok ⟨[cursorBatch cursor], [], false, false, 0⟩
        else producerBody cursor outcome
      match body with
      -- Whatever was registered inside the body is taken back.
      | .error .standard => (registry.erase cursor, .error)
      | .error .other => (registry, .internalError)
      | .ok built =>
          let registered := if built.finished then registry else registry.insert cursor session
          if externalCapExceeded config built.externalized then (registered.erase cursor, .error)
          else if overLimit session.responseLimitBytes outcome.bodySize then
            (registered.erase cursor, .error)
          else (registered, ⟨200, built.failed, built.inline, built.stored⟩)

/-- The call token of a continuation resolves to its stream. -/
def callTokenResolves (config : StreamConfig) (session : StreamSession)
    (cursor scope callToken : Bytes) : Bool :=
  match Crypto.base64urlDecode callToken with
  | none => false
  | some raw =>
      match config.tokenOpen raw scope with
      | none => false
      | some opened => decide (callToken ≠ [] ∧ 0 ∈ opened ∧
          opened.takeWhile (· ≠ 0) = session.methodName ∧
            (opened.dropWhile (· ≠ 0)).tail = cursor)

/-- The session that a continuation is dispatched to, past the checks in front of the
turn. -/
def findStream (config : StreamConfig) (registry : Registry) (cursor scope callToken : Bytes) :
    Option StreamSession :=
  if cursor = [] then
    none
  else
    match registry.lookup cursor with
    | none => none
    | some session =>
        if session.aad ≠ scope then none
        else if config.callStateCache = false ∧
            callTokenResolves config session cursor scope callToken = false then none
        else some session

/-- The turn of a continuation, and whether its session is erased. -/
def dispatchTurn (config : StreamConfig) (session : StreamSession) (cursor : Bytes)
    (limit : Option Int) (cancel : Bool) (outcome : Outcome) : Bool × Response :=
  let limit := minLimit limit session.responseLimitBytes
  if cancel then
    -- `on_cancel` may throw anything, but the empty body is built outside the `try`.
    (true, if outcome.writeFails then .internalError
      else if overLimit limit outcome.bodySize then .error else ⟨200, false, [], []⟩)
  else
    match if session.isExchange then exchangeBody cursor outcome else producerBody cursor outcome with
    | .error .standard => (true, .error)
    | .error .other => (false, .internalError)
    | .ok built =>
        if externalCapExceeded config built.externalized then (true, .error)
        else if overLimit limit outcome.bodySize then (true, .error)
        else (built.finished, ⟨200, built.failed, built.inline, built.stored⟩)

/-- A request and what it left: the registry, the answer, and whether it was
dispatched to a stream. -/
structure Exchange where
  request : Request
  outcome : Outcome
  before : Registry
  after : Registry
  response : Response
  dispatched : Bool

/-- `handle_rpc` for a stream request. -/
def handle (config : StreamConfig) (registry : Registry) (request : Request) (outcome : Outcome) :
    Exchange :=
  match request with
  | .init cursor session factory =>
      let (after, response) := handleInit config registry cursor session factory outcome
      ⟨request, outcome, registry, after, response, true⟩
  | .continuation cursor scope callToken limit cancel =>
      match findStream config registry cursor scope callToken with
      | none => ⟨request, outcome, registry, registry, .refused, false⟩
      | some session =>
          let (ended, response) := dispatchTurn config session cursor limit cancel outcome
          ⟨request, outcome, registry, if ended then registry.erase cursor else registry, response,
            true⟩

/-- A sequence of requests. -/
def serve (config : StreamConfig) (registry : Registry) : List (Request × Outcome) → List Exchange
  | [] => []
  | (request, outcome) :: rest =>
      handle config registry request outcome ::
        serve config (handle config registry request outcome).after rest

end VgiRpc.Http
