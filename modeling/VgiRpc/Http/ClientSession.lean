import VgiRpc.Http.Client

/-!
# Client sessions over HTTP

`HttpStreamSession` and `HttpExchangeSession`: the state that a session keeps between
calls and what every public operation does to it.  A session that was moved from holds
no state and sends nothing; it is left out.
-/

namespace VgiRpc.Http.Client

open VgiRpc.Cpp

/-! ## Calls -/

/-- What a call gives its caller. -/
inductive Result (β : Type) where
  | batch (value : β)
  | ended
  | threw
  deriving DecidableEq, Repr

/-- The batch of a result. -/
def Result.batch? {β : Type} : Result β → Option β
  | .batch value => some value
  | .ended => none
  | .threw => none

/-- A call that has returned: its result, the session and the server after it, the
requests that it handed to `post`, and how many of them the server handled. -/
structure Called (σ S ι β : Type) where
  result : Result β
  session : σ
  server : S
  posts : List (Request ι)
  handled : Nat

/-- The input of an exchange.  A null batch has no schema. -/
structure Input (ι χ : Type) where
  schema : Option χ
  /-- `logical_request_id` accepts the request id. -/
  requestIdValid : Bool
  /-- `encode_ipc` succeeds. -/
  encodes : Bool
  value : ι

/-- `control_cursor`: the last cursor among the control batches. -/
def controlCursor (control : List Control) : Bytes :=
  control.foldl (fun cursor batch => if batch.cursor = [] then cursor else batch.cursor) []

/-- The cursor behind an exchange turn: on its batch, or on a control batch. -/
def nextCursor {χ β : Type} (decoded : Decoded χ β) (output : Output β) : Bytes :=
  if output.cursor = [] then controlCursor decoded.control else output.cursor

/-! ## Stream sessions -/

/-- `HttpStreamKind`. -/
inductive HttpStreamKind where
  | producer
  | exchange
  deriving DecidableEq, Repr

/-- `HttpStreamSession::Impl`. -/
structure HttpStreamSession (χ β : Type) where
  kind : HttpStreamKind
  inputSchema : Option χ
  outputSchema : Option χ
  pending : List β
  cursor : Bytes
  callState : Bytes
  isFinished : Bool
  isClosed : Bool
  deriving DecidableEq

namespace HttpStreamSession

variable {S ι χ β : Type}

/-- `update_controls`: the cursor is the one of this answer, and the call state is kept
until another one arrives. -/
def updateControls (session : HttpStreamSession χ β) (decoded : Decoded χ β) :
    HttpStreamSession χ β :=
  let cursor := controlCursor decoded.control
  let callState := decoded.control.foldl
    (fun state batch => if batch.callState = [] then state else batch.callState) session.callState
  { session with
    cursor := cursor
    callState := callState
    isFinished := session.isFinished || decide (cursor = []) }

/-- The request of a continuation. -/
def continuation (session : HttpStreamSession χ β) (cancel : Bool) (input : ι) : Request ι :=
  ⟨session.cursor, session.callState, cancel, input⟩

/-- `make_http_stream_impl` for the answer to `/init`, or `none` if it throws. -/
def make (kind : HttpStreamKind) (inputSchema : Option χ) (decoded : Decoded χ β) :
    Option (HttpStreamSession χ β) :=
  if kind = .producer ∧ 1 < decoded.data.length then none
  else
    some <| ({ kind, inputSchema, outputSchema := some decoded.schema,
               pending := decoded.data.map Output.batch, cursor := [], callState := [],
               isFinished := false, isClosed := false } : HttpStreamSession χ β).updateControls
      decoded

/-- What `tick` does without posting: hand out what is pending, or report the end. -/
def poll (session : HttpStreamSession χ β) : Option (Result β × HttpStreamSession χ β) :=
  match session.pending with
  | value :: rest => some (.batch value, { session with pending := rest })
  | [] =>
      if session.isFinished = true ∨ session.cursor = [] then
        some (.ended, { session with isFinished := true })
      else none

/-- `tick` takes over the answer to a turn; `false` if it throws instead. -/
def takeTurn [DecidableEq χ] (session : HttpStreamSession χ β) (decoded : Decoded χ β) :
    Bool × HttpStreamSession χ β :=
  if session.outputSchema.any (· ≠ decoded.schema) then (false, session)
  else
    let session := { session with outputSchema := some decoded.schema }
    if 1 < decoded.data.length then (false, session)
    else
      let received := { session with pending := session.pending ++ decoded.data.map Output.batch }
      (true, received.updateControls decoded)

/-- The part of `exchange` in front of the request; `false` if it throws.  The session is
closed before the request is encoded. -/
def retire [DecidableEq χ] (session : HttpStreamSession χ β) (input : Input ι χ) :
    Bool × HttpStreamSession χ β :=
  if session.isClosed = true ∨ session.isFinished = true ∨ session.kind ≠ .exchange then
    (false, session)
  else
    match input.schema with
    | none => (false, session)
    | some schema =>
        if session.inputSchema.any (· ≠ schema) then (false, session)
        else
          let session := { session with inputSchema := some schema }
          if input.requestIdValid = false then (false, session)
          else (input.encodes, { session with isClosed := true })

/-- The part of `exchange` behind a decoded answer.  Only an answer with its one batch
opens the session again. -/
def takeAnswer [DecidableEq χ] (session : HttpStreamSession χ β) (decoded : Decoded χ β) :
    Result β × HttpStreamSession χ β :=
  if session.outputSchema.any (· ≠ decoded.schema) then (.threw, session)
  else
    let session := { session with outputSchema := some decoded.schema }
    match decoded.data with
    | [] => (.ended, { session with isFinished := true })
    | [output] =>
        let cursor := nextCursor decoded output
        (.batch output.batch,
          { session with cursor := cursor, isFinished := decide (cursor = []), isClosed := false })
    | _ :: _ :: _ => (.threw, session)

section Calls

variable [DecidableEq χ] (endpoint : Endpoint S ι χ β) (policy : RetryPolicy)

/-- The loop of `tick`: one route for each `post` that it makes.  When the routes have
run out the next `post` throws before it sends anything. -/
def tickLoop (options : CallOptions) (input : ι) :
    List Route → HttpStreamSession χ β → S → Called (HttpStreamSession χ β) S ι β
  | routes, session, server =>
      match session.poll with
      | some (result, session) => ⟨result, session, server, [], 0⟩
      | none =>
          match routes with
          | [] => ⟨.threw, session, server, [], 0⟩
          | route :: routes =>
              let request := session.continuation false input
              let posted := post endpoint policy request options true route server
              match decode posted with
              | none => ⟨.threw, session, posted.server, [request], posted.handled⟩
              | some decoded =>
                  match session.takeTurn decoded with
                  | (false, session) =>
                      ⟨.threw, session, posted.server, [request], posted.handled⟩
                  | (true, session) =>
                      let rest := tickLoop options input routes session posted.server
                      { rest with
                        posts := request :: rest.posts
                        handled := posted.handled + rest.handled }

/-- `tick`. -/
def tick (options : CallOptions) (input : ι) (routes : List Route)
    (session : HttpStreamSession χ β) (server : S) : Called (HttpStreamSession χ β) S ι β :=
  if session.isClosed = true ∨ session.kind ≠ .producer then ⟨.threw, session, server, [], 0⟩
  else tickLoop endpoint policy options input routes session server

/-- `HttpStreamSession::exchange`. -/
def exchange (options : CallOptions) (input : Input ι χ) (route : Route)
    (session : HttpStreamSession χ β) (server : S) : Called (HttpStreamSession χ β) S ι β :=
  match session.retire input with
  | (false, session) => ⟨.threw, session, server, [], 0⟩
  | (true, session) =>
      let request := session.continuation false input.value
      let posted := post endpoint policy request options false route server
      match decode posted with
      | none => ⟨.threw, session, posted.server, [request], posted.handled⟩
      | some decoded =>
          let (result, session) := session.takeAnswer decoded
          ⟨result, session, posted.server, [request], posted.handled⟩

/-- `close`, which the destructor calls too. -/
def close (session : HttpStreamSession χ β) : HttpStreamSession χ β :=
  { session with isClosed := true, pending := [] }

/-- `cancel`: a last request if the stream is open, and `close`. -/
def cancel (input : ι) (route : Route) (session : HttpStreamSession χ β) (server : S) :
    Called (HttpStreamSession χ β) S ι β :=
  if session.isClosed = true ∨ session.isFinished = true ∨ session.cursor = [] then
    ⟨.ended, session.close, server, [], 0⟩
  else
    let request := session.continuation true input
    let posted := post endpoint policy request ⟨false⟩ false route server
    ⟨.ended, session.close, posted.server, [request], posted.handled⟩

end Calls

/-- `open_producer` and `open_stream_exchange`; `endpoint` is `/init`. -/
def openStream (endpoint : Endpoint S ι χ β) (policy : RetryPolicy) (kind : HttpStreamKind)
    (inputSchema : Option χ) (options : CallOptions) (input : ι) (route : Route) (server : S) :
    Option (HttpStreamSession χ β) × S :=
  let posted := post endpoint policy ⟨[], [], false, input⟩ options true route server
  match decode posted with
  | none => (none, posted.server)
  | some decoded =>
      match make kind inputSchema decoded with
      | none => (none, posted.server)
      | some session =>
          if kind = .exchange then
            if session.cursor = [] then (none, posted.server)
            else (some { session with isFinished := false }, posted.server)
          else (some session, posted.server)

end HttpStreamSession

/-! ## Resume tokens -/

/-- `pack_resume_token`: the length of the cursor in four bytes, the cursor and the call
state. -/
def packResumeToken (cursor callState : Bytes) : Option Bytes :=
  if cursor.length > 2 ^ 32 - 1 then none
  else
    some ([0, 8, 16, 24].map (fun shift => UInt8.ofNat (cursor.length >>> shift)) ++
      (cursor ++ callState))

/-- `unpack_resume_token`. -/
def unpackResumeToken (token : Bytes) : Option (Bytes × Bytes) :=
  match token with
  | first :: second :: third :: fourth :: rest =>
      let cursorSize := first.toNat ||| second.toNat <<< 8 ||| third.toNat <<< 16 |||
        fourth.toNat <<< 24
      if cursorSize > rest.length then none
      else some (rest.take cursorSize, rest.drop cursorSize)
  | _ => none

namespace HttpStreamSession

variable {S ι χ β : Type}

/-- What `next_with_token` makes of the result of its tick: a batch gets the token that
resumes behind it, if the stream goes on. -/
def withToken (session : HttpStreamSession χ β) : Result β → Result (β × Option Bytes)
  | .threw => .threw
  | .ended => .ended
  | .batch value =>
      if session.pending ≠ [] then .threw
      else if session.cursor = [] then .batch (value, none)
      else
        match packResumeToken session.cursor session.callState with
        | none => .threw
        | some token => .batch (value, some token)

/-- `next_with_token`. -/
def nextWithToken [DecidableEq χ] (endpoint : Endpoint S ι χ β) (policy : RetryPolicy)
    (options : CallOptions) (input : ι) (routes : List Route) (session : HttpStreamSession χ β)
    (server : S) : Called (HttpStreamSession χ β) S ι (β × Option Bytes) :=
  if 1 < session.pending.length then ⟨.threw, session, server, [], 0⟩
  else
    let called := tick endpoint policy options input routes session server
    ⟨called.session.withToken called.result, called.session, called.server, called.posts,
      called.handled⟩

/-- `seek_to_token`, or `none` if it throws. -/
def seekToToken (token : Bytes) (session : HttpStreamSession χ β) :
    Option (HttpStreamSession χ β) :=
  if session.isClosed = true ∨ session.kind ≠ .producer then none
  else
    match unpackResumeToken token with
    | none => none
    | some (cursor, callState) =>
        if cursor = [] then none
        else some { session with pending := [], cursor, callState, isFinished := false }

/-- `resume_stream`, or `none` if it throws. -/
def resumeStream (token : Bytes) (outputSchema inputSchema : χ) : Option (HttpStreamSession χ β) :=
  match unpackResumeToken token with
  | none => none
  | some (cursor, callState) =>
      if cursor = [] then none
      else
        some { kind := .producer, inputSchema := some inputSchema,
               outputSchema := some outputSchema, pending := [], cursor, callState,
               isFinished := false, isClosed := false }

end HttpStreamSession

/-! ## Exchange sessions -/

/-- `HttpExchangeSession::Impl`. -/
structure HttpExchangeSession (χ : Type) where
  inputSchema : χ
  outputSchema : χ
  cursor : Bytes
  callState : Bytes
  isActive : Bool
  deriving DecidableEq

namespace HttpExchangeSession

variable {S ι χ β : Type} [DecidableEq χ]

/-- The request of a turn. -/
def continuation (session : HttpExchangeSession χ) (cancel : Bool) (input : ι) : Request ι :=
  ⟨session.cursor, session.callState, cancel, input⟩

/-- The part of `exchange` behind a decoded answer.  Only an answer with its one batch
and a cursor makes the session active again. -/
def takeAnswer (session : HttpExchangeSession χ) (decoded : Decoded χ β) :
    Result β × HttpExchangeSession χ :=
  if decoded.schema ≠ session.outputSchema then (.threw, session)
  else
    match decoded.data with
    | [output] =>
        let cursor := nextCursor decoded output
        if cursor = [] then (.threw, session)
        else (.batch output.batch, { session with cursor := cursor, isActive := true })
    | _ => (.threw, session)

/-- `HttpExchangeSession::exchange`.  The request is built first, and the cursor is
retired before it leaves. -/
def exchange (endpoint : Endpoint S ι χ β) (policy : RetryPolicy) (options : CallOptions)
    (input : Input ι χ) (route : Route) (session : HttpExchangeSession χ) (server : S) :
    Called (HttpExchangeSession χ) S ι β :=
  if session.isActive = false ∨ input.schema ≠ some session.inputSchema ∨
      input.requestIdValid = false ∨ input.encodes = false then
    ⟨.threw, session, server, [], 0⟩
  else
    let request := session.continuation false input.value
    let session := { session with isActive := false }
    let posted := post endpoint policy request options false route server
    match decode posted with
    | none => ⟨.threw, session, posted.server, [request], posted.handled⟩
    | some decoded =>
        let (result, session) := session.takeAnswer decoded
        ⟨result, session, posted.server, [request], posted.handled⟩

/-- `close`, which the destructor calls too. -/
def close (session : HttpExchangeSession χ) : HttpExchangeSession χ :=
  { session with isActive := false }

/-- `cancel`: a last request if the session is active. -/
def cancel (endpoint : Endpoint S ι χ β) (policy : RetryPolicy) (input : ι) (route : Route)
    (session : HttpExchangeSession χ) (server : S) : Called (HttpExchangeSession χ) S ι β :=
  if session.isActive = false then ⟨.ended, session, server, [], 0⟩
  else
    let request := session.continuation true input
    let posted := post endpoint policy request ⟨false⟩ false route server
    ⟨.ended, session.close, posted.server, [request], posted.handled⟩

end HttpExchangeSession

end VgiRpc.Http.Client
