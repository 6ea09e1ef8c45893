import VgiRpc.Lib.FramedChannel
import VgiRpc.Raw.Dispatch

/-!
# One raw connection

`RpcClient` and the server's `serve_one_with_state` loop at the two ends of a pair
of byte streams, each a sequence of IPC streams.  The unit of both channels is one
IPC message: a schema, a record batch, or an end-of-stream marker.

A step of the connection is an application call on the client, or one party reading
one message together with everything it does until it reads again.  Reads and
writes of the two parties interleave freely.  What the environment decides (which
outcome a handler has, what it emits, whether a callback throws) is part of the
label of a step.  Channels lose nothing while the client has not closed the
transport, and handlers throw nothing but `std::exception`.
-/

namespace VgiRpc.Raw

open VgiRpc.Cpp VgiRpc.Wire VgiRpc.Lib

/-- `write_ipc_stream`: the messages of a stream with these batches. -/
abbrev writeIpcStream {β : Type} (batches : List β) : List (Token β) := framed batches

/-! ## The client -/

/-- `ClientStreamKind`. -/
inductive StreamKind where
  | producer
  | exchange
  deriving DecidableEq, Repr

/-- The fields of `ClientStream::Impl`: which ends are open, and whether the
response stream is finished.  `wantsHeader` is what the stream was opened with. -/
structure ClientStream where
  kind : StreamKind
  wantsHeader : Bool
  inputOpen : Bool
  outputOpen : Bool
  finished : Bool
  deriving DecidableEq

/-- Where the client is.  Every state but the first and the last belongs to one call. -/
inductive ClientState where
  | idle
  /-- `call_unary` reads its response. -/
  | unary (call : Nat) (reader : Reader BatchType)
  /-- `open_stream` reads the header. -/
  | header (call : Nat) (kind : StreamKind) (reader : Reader BatchType)
  /-- The application has a stream and is not in a call on it. -/
  | live (call : Nat) (stream : ClientStream)
  /-- `read_next_data` of `tick` or `exchange`. -/
  | turn (call : Nat) (stream : ClientStream)
  /-- `read_next_data` has an exception batch and drains the response. -/
  | turnDrain (call : Nat) (stream : ClientStream)
  /-- `drain_output` of `close`; `pending` if it met an exception batch. -/
  | closing (call : Nat) (stream : ClientStream) (pending : Bool)
  /-- `drain_output` of `cancel`. -/
  | cancelling (call : Nat) (stream : ClientStream) (pending : Bool)
  /-- The transport is closed. -/
  | aborted
  deriving DecidableEq

/-- The outcome of `read_substream`. -/
inductive Substream where
  | value
  /-- An `RpcException`: a remote error, or one thrown by a callback. -/
  | raised
  /-- Any other exception, or no data batch. -/
  | failed
  deriving DecidableEq

/-- `read_substream` over the batches of a stream; `raises` if the log callback or the
resolution of an external pointer throws an `RpcException`. -/
def readSubstream (raises : Bool) : (seen : Bool) → List BatchType → Substream
  | true, [] => .value
  | false, [] => .failed
  | seen, .log :: rest => if raises then .raised else readSubstream raises seen rest
  | _, .exception :: _ => .raised
  | true, .data :: _ | true, .shmPointer :: _ | true, .externalPointer :: _ => .failed
  | false, .data :: rest | false, .shmPointer :: rest => readSubstream raises true rest
  | false, .externalPointer :: rest => if raises then .raised else readSubstream raises true rest
  | _, .stateToken :: _ => .failed

/-! ## The server -/

/-- Where the server is; `call` is the request that a stream answers. -/
inductive ServerState (Columns : Type) where
  /-- Reading a request. -/
  | request (reader : Reader (Batch Columns))
  /-- Draining the input stream after a factory error. -/
  | factoryDrain (reader : Reader (Batch Columns))
  /-- Opening the reader of the input stream. -/
  | openInput (call : Nat)
  /-- In the stream loop; `started` if the response schema is out. -/
  | loop (call : Nat) (started : Bool)
  /-- `drain_reader` after the stream loop. -/
  | drain
  /-- The serve loop is left. -/
  | ended
  deriving DecidableEq

/-- The outcome of a stream factory. -/
inductive Factory where
  | error
  | ok (header : Bool)
  deriving DecidableEq

/-- What the environment decides when the server reads a message. -/
structure Choice (Columns : Type) where
  /-- What the attached segment holds for a pointer batch. -/
  resolved : Option Columns
  /-- The log messages before a result, a header or the first turn. -/
  logs : List LogMessage
  /-- The last batch of an answer. -/
  result : BatchType
  factory : Factory
  /-- What a turn emits; a handler error is an exception batch and `stop`. -/
  outs : List BatchType
  stop : Bool

/-! ## The connection -/

/-- The two streams that a client writes for one call. -/
inductive Part where
  | request
  | input
  deriving DecidableEq

/-- Who wrote a message to the server.  Neither party can see this. -/
structure Origin where
  call : Nat
  wantsHeader : Bool
  part : Part
  deriving DecidableEq

structure Connection (Columns : Type) where
  client : ClientState
  server : ServerState Columns
  requests : List (Origin × Token (Batch Columns))
  /-- Each message with the call whose request it answers. -/
  responses : List (Nat × Token BatchType)
  nextCall : Nat
  deriving DecidableEq

/-- The arguments of a call. -/
structure Params (Columns : Type) where
  method : Bytes
  requestId : Bytes
  extras : Metadata
  numRows : Nat
  columns : Columns

/-- The two ends of a connection. -/
structure Setup (Columns : Type) where
  options : ClientOptions
  server : Server Columns
  /-- The columns of an empty batch. -/
  empty : Columns

inductive Label (Columns : Type) where
  | callUnary (params : Params Columns)
  | openStream (kind : StreamKind) (wantsHeader : Bool) (params : Params Columns)
  /-- `tick` or `exchange`, with the batch that goes out. -/
  | turn (kind : StreamKind) (outbound : Batch Columns)
  | cancel
  | close
  /-- The stream object is destroyed. -/
  | drop
  /-- The client reads a message; `raises` as in `readSubstream`. -/
  | clientRead (raises : Bool)
  /-- Anything but an `RpcException` is thrown inside the client. -/
  | clientFails
  | serverRead (choice : Choice Columns)

section Steps

variable {Columns : Type}

/-- Messages of one origin. -/
def tag {α β : Type} (origin : α) (tokens : List β) : List (α × β) := tokens.map (Prod.mk origin)

namespace ClientStream

/-- The stream that `open_stream` returns. -/
def fresh (kind : StreamKind) (wantsHeader : Bool) : ClientStream :=
  ⟨kind, wantsHeader, false, false, false⟩

/-- `ensure_input_writer`: the schema goes out with the first message. -/
def opening (stream : ClientStream) : List (Token (Batch Columns)) :=
  if stream.inputOpen then [] else [.schema]

end ClientStream

namespace ClientState

/-- `drain_output` reads a message: the next state of the drain, or its end. -/
def drainOutput (raises : Bool) (stream : ClientStream) (pending : Bool) :
    Token BatchType → Option (ClientStream × Bool) ⊕ Bool
  | .schema =>
      if stream.outputOpen then .inl none else .inl (some ({ stream with outputOpen := true }, pending))
  | .batch content =>
      if stream.outputOpen = false ∨ (content = .log ∧ raises = true) then .inl none
      else .inl (some (stream, pending || content = .exception))
  | .eos => if stream.outputOpen then .inr pending else .inl none

/-- The client reads a message: its next state and what it writes into the input
stream of the call. -/
def receive (raises : Bool) : ClientState → Token BatchType →
    ClientState × List (Token (Batch Columns))
  | .unary call .start, .schema => (.unary call (.body []), [])
  | .unary call (.body read), .batch content => (.unary call (.body (read ++ [content])), [])
  | .unary _ (.body read), .eos =>
      match readSubstream raises false read with
      | .value | .raised => (.idle, [])
      | .failed => (.aborted, [])
  | .unary _ _, _ => (.aborted, [])
  | .header call kind .start, .schema => (.header call kind (.body []), [])
  | .header call kind (.body read), .batch content =>
      (.header call kind (.body (read ++ [content])), [])
  | .header call kind (.body read), .eos =>
      match readSubstream raises false read with
      | .value => (.live call (.fresh kind true), [])
      -- The empty input stream that a failed factory leaves the server waiting for.
      | .raised => (.idle, [.schema, .eos])
      | .failed => (.aborted, [])
  | .header _ _ _, _ => (.aborted, [])
  | .turn call stream, .schema =>
      if stream.outputOpen then (.aborted, [])
      else (.turn call { stream with outputOpen := true }, [])
  | .turn call stream, .batch content =>
      if stream.outputOpen = false then (.aborted, [])
      else
        match content with
        | .log => if raises then (.live call stream, []) else (.turn call stream, [])
        | .exception => (.turnDrain call stream, [])
        | .data | .shmPointer | .externalPointer => (.live call stream, [])
        | .stateToken => (.aborted, [])
  | .turn call stream, .eos =>
      if stream.outputOpen = false then (.aborted, [])
      else (.live call { stream with finished := true }, [])
  | .turnDrain call stream, .batch _ => (.turnDrain call stream, [])
  | .turnDrain call stream, .schema | .turnDrain call stream, .eos =>
      (.live call { stream with finished := true }, [])
  | .closing call stream pending, token =>
      match drainOutput raises stream pending token with
      | .inl none => (.aborted, [])
      | .inl (some (stream, pending)) => (.closing call stream pending, [])
      | .inr true => (.aborted, [])
      | .inr false => (.idle, [])
  | .cancelling call stream pending, token =>
      match drainOutput raises stream pending token with
      | .inl none => (.aborted, [])
      | .inl (some (stream, pending)) => (.cancelling call stream pending, [])
      | .inr true => (.aborted, [])
      | .inr false => (.idle, [.eos])
  | .idle, _ => (.idle, [])
  | .live call stream, _ => (.live call stream, [])
  | .aborted, _ => (.aborted, [])

attribute [grind =] receive

/-- The call whose response the client is reading, and whether it wants a header. -/
def reading : ClientState → Option (Nat × Bool)
  | .unary call _ => some (call, false)
  | .header call _ _ => some (call, true)
  | .turn call stream | .turnDrain call stream | .closing call stream _
  | .cancelling call stream _ => some (call, stream.wantsHeader)
  | .idle | .live _ _ | .aborted => none

end ClientState

namespace ServerState

/-- Closing the response writer. -/
def closing (started : Bool) : List (Token BatchType) :=
  if started then [.eos] else [.schema, .eos]

/-- Writing batches: the schema goes out with the first one. -/
def emitting (started : Bool) (outs : List BatchType) : List (Token BatchType) :=
  (if started || outs = [] then [] else [.schema]) ++ outs.map .batch

/-- The server reads a message: its next state, and what it writes with the call
that this answers. -/
def receive (server : Server Columns) (choice : Choice Columns) (call : Nat) :
    ServerState Columns → Token (Batch Columns) →
      ServerState Columns × List (Nat × Token BatchType)
  | .request .start, .schema => (.request (.body []), [])
  | .request (.body read), .batch content => (.request (.body (read ++ [content])), [])
  | .request (.body (first :: _)), .eos =>
      match server.dispatch choice.resolved first with
      | .refused _ => (.request .start, tag call (writeIpcStream [.exception]))
      | .framework | .unary =>
          (.request .start,
            tag call
              (writeIpcStream (choice.logs.map LogMessage.batchType ++ [choice.result])))
      | .stream =>
          match choice.factory with
          | .error => (.factoryDrain .start, tag call (writeIpcStream [.exception]))
          | .ok true =>
              (.openInput call,
                tag call (writeIpcStream (choice.logs.map LogMessage.batchType ++ [.data])))
          | .ok false => (.openInput call, [])
  -- An empty stream is taken for the end of the connection, anything else is not a stream.
  | .request _, _ => (.ended, [])
  | .factoryDrain .start, .schema => (.factoryDrain (.body []), [])
  | .factoryDrain (.body read), .batch content => (.factoryDrain (.body (read ++ [content])), [])
  | .factoryDrain _, _ => (.request .start, [])
  | .openInput call, .schema =>
      if choice.logs = [] then (.loop call false, [])
      else
        (.loop call true,
          tag call (.schema :: (choice.logs.map LogMessage.batchType).map .batch))
  | .openInput _, _ => (.request .start, [])
  | .loop call started, .batch content =>
      if content.metadata.has Keys.cancel then
        (.drain, tag call (closing started))
      else
        let opened := started || choice.outs ≠ []
        if choice.stop then (.drain, tag call (emitting started choice.outs ++ closing opened))
        else (.loop call opened, tag call (emitting started choice.outs))
  | .loop call started, _ => (.request .start, tag call (closing started))
  | .drain, .batch _ => (.drain, [])
  | .drain, _ => (.request .start, [])
  | .ended, _ => (.ended, [])

attribute [grind =] receive

end ServerState

/-- The request batch of a call, if the client sends one. -/
def Setup.request (setup : Setup Columns) (params : Params Columns) : Option (Batch Columns) :=
  (requestMetadata setup.options params.method params.requestId params.extras).map fun metadata =>
    ⟨metadata, params.numRows, params.columns⟩

/-- The batch of `send_cancel`. -/
def Setup.cancelBatch (setup : Setup Columns) : Batch Columns :=
  ⟨[(Keys.cancel, ascii "1")], 0, setup.empty⟩

namespace Connection

/-- A connection before the first call. -/
def initial : Connection Columns := ⟨.idle, .request .start, [], [], 0⟩

/-- The client writes into the request or the input stream of a call. -/
def send (connection : Connection Columns) (origin : Origin)
    (tokens : List (Token (Batch Columns))) : Connection Columns :=
  { connection with requests := connection.requests ++ tag origin tokens }

/-- A new call: its request goes out. -/
def begin (connection : Connection Columns) (wantsHeader : Bool) (request : Batch Columns)
    (client : ClientState) : Connection Columns :=
  { connection.send ⟨connection.nextCall, wantsHeader, .request⟩ (writeIpcStream [request]) with
    client := client
    nextCall := connection.nextCall + 1 }

/-- The client reads a message. -/
def accept (connection : Connection Columns) (raises : Bool) (token : Token BatchType) :
    Option (Connection Columns) :=
  match connection.client.reading with
  | none => none
  | some (call, wantsHeader) =>
      let (client, written) := connection.client.receive raises token
      some { connection.send ⟨call, wantsHeader, .input⟩ written with client := client }

/-- One step; `none` if the step is not possible, or changes nothing. -/
def step (setup : Setup Columns) (connection : Connection Columns) :
    Label Columns → Option (Connection Columns)
  | .callUnary params =>
      match connection.client, setup.request params with
      | .idle, some request =>
          some (connection.begin false request (.unary connection.nextCall .start))
      | _, _ => none
  | .openStream kind wantsHeader params =>
      match connection.client, setup.request params with
      | .idle, some request =>
          some (connection.begin wantsHeader request
            (if wantsHeader then .header connection.nextCall kind .start
              else .live connection.nextCall (.fresh kind false)))
      | _, _ => none
  | .turn kind outbound =>
      match connection.client with
      | .live call stream =>
          if stream.kind = kind ∧ stream.finished = false then
            some { connection.send ⟨call, stream.wantsHeader, .input⟩
                (stream.opening ++ [.batch outbound]) with
              client := .turn call { stream with inputOpen := true } }
          else none
      | _ => none
  | .cancel =>
      match connection.client with
      | .live call stream =>
          if stream.finished then
            some { connection.send ⟨call, stream.wantsHeader, .input⟩ (stream.opening ++ [.eos]) with
              client := .idle }
          else
            some { connection.send ⟨call, stream.wantsHeader, .input⟩
                (stream.opening ++ [.batch setup.cancelBatch]) with
              client := .cancelling call { stream with inputOpen := true } false }
      | _ => none
  | .close =>
      match connection.client with
      | .live call stream =>
          some { connection.send ⟨call, stream.wantsHeader, .input⟩ (stream.opening ++ [.eos]) with
            client := if stream.finished then .idle else .closing call stream false }
      | _ => none
  | .drop =>
      match connection.client with
      | .live _ _ => some { connection with client := .aborted }
      | _ => none
  | .clientRead raises =>
      match connection.responses, connection.server with
      | (_, token) :: rest, _ => { connection with responses := rest }.accept raises token
      -- The end of the transport reads like an end-of-stream marker.
      | [], .ended => connection.accept raises .eos
      | [], _ => none
  | .clientFails =>
      match connection.client with
      | .unary _ _ | .header _ _ _ | .turn _ _ | .closing _ _ _ | .cancelling _ _ _ =>
          some { connection with client := .aborted }
      | .idle | .live _ _ | .turnDrain _ _ | .aborted => none
  | .serverRead choice =>
      match connection.requests with
      | [] => none
      | (origin, token) :: rest =>
          let (server, written) :=
            connection.server.receive setup.server choice origin.call token
          some { connection with
            server := server
            requests := rest
            responses := connection.responses ++ written }

end Connection

end Steps

end VgiRpc.Raw
