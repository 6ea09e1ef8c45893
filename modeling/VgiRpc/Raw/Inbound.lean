import VgiRpc.Shm.Live
import VgiRpc.Collector.Handler
import VgiRpc.Raw.Dispatch

/-!
# Inbound regions of the raw transport

A request or a stream input may come as a pointer into the shared segment.  The server
resolves it, hands the columns to the method, and frees the region: at the end of
`serve_one_with_state` for a request, behind the writes of a turn for a stream input.
Neither place is reached on every way out.  A request that fails its parameter contract,
and an input that cannot be coerced or whose handler throws, keep their region.
-/

namespace VgiRpc.Raw.Inbound

open VgiRpc.Cpp VgiRpc.Wire VgiRpc.Lib VgiRpc.Shm VgiRpc.Shm.Segment VgiRpc.Collector

variable {Columns Schema σ β μ : Type}

/-! ## What the server does with a message -/

/-- A stream method: its factory, and what the loop of `serve_stream` runs. -/
structure StreamMethod (Columns σ β μ : Type) where
  factory : AnnotatedBatch Columns → Except ErrorType σ
  isProducer : Bool
  coerce : Columns → Except ErrorType Columns
  process : σ → AnnotatedBatch Columns → Handler σ β μ

/-- Where the server is between two messages.  `held` is `shm_free_offset` of the request
that a stream answers. -/
inductive Phase (Columns σ β μ : Type) where
  | idle
  | loop (held : Option Int64) (method : StreamMethod Columns σ β μ) (state : σ)
  /-- Reading the rest of the inputs. -/
  | drain (held : Option Int64)

/-- The region that waits for the end of a stream. -/
def Phase.held : Phase Columns σ β μ → Option Int64
  | .idle => none
  | .loop held _ _ | .drain held => held

attribute [grind =] Phase.held

/-- The server waits for a request. -/
def Phase.isIdle : Phase Columns σ β μ → Bool
  | .idle => true
  | .loop _ _ _ | .drain _ => false

/-- What a message leaves behind: the next phase, the regions it made the server resolve
and the ones that it made it free. -/
structure Left (Columns σ β μ : Type) where
  phase : Phase Columns σ β μ
  resolved : List Int64
  freed : List Int64

section Server

variable (arrow : Arrow Columns Schema) (server : Server Columns)

/-- The region that a pointer batch names. -/
def pointerOf (message : AnnotatedBatch Columns) : Option Int64 :=
  if isShmPointerBatch arrow message then
    readInt64 (message.entries.value Keys.shmOffset)
  else
    none

/-- A pointer is resolved in the attached segment.  The second component is the offset to
free, none standing for -1. -/
def resolve (shm : Option Segment) (message : AnnotatedBatch Columns) :
    Option (AnnotatedBatch Columns × Option Int64) :=
  if isShmPointerBatch arrow message then
    match shm with
    | none => none
    | some segment => (resolveShmBatch arrow segment message).toOption
  else
    some (message, none)

/-- The batch as the ladder of a request looks at it. -/
def requestBatch (message : AnnotatedBatch Columns) : Batch Columns :=
  ⟨message.entries, arrow.numRows message.batch, message.batch⟩

/-- The ladder with what the attached segment holds. -/
def dispatched (shm : Option Segment) (message : AnnotatedBatch Columns) : Dispatch :=
  server.dispatch ((resolve arrow shm message).map fun resolution => resolution.1.batch)
    (requestBatch arrow message)

/-- `serve_one_with_state`.  Only the parameter contract is checked behind the resolution;
every other refusal comes before it, or is its failure. -/
def serveOne (shm : Option Segment) (method : StreamMethod Columns σ β μ)
    (message : AnnotatedBatch Columns) : Left Columns σ β μ :=
  match dispatched arrow server shm message, resolve arrow shm message with
  | .refused .parameterContract, some (_, offset) => ⟨.idle, offset.toList, []⟩
  | .unary, some (_, offset) => ⟨.idle, offset.toList, offset.toList⟩
  | .stream, some (request, offset) =>
      match method.factory request with
      | .error _ => ⟨.drain offset, offset.toList, []⟩
      | .ok state => ⟨.loop offset method state, offset.toList, []⟩
  | _, _ => ⟨.idle, [], []⟩

/-- The batch that a turn hands to the handler. -/
def StreamMethod.input (method : StreamMethod Columns σ β μ) (input : AnnotatedBatch Columns) :
    Except ErrorType (AnnotatedBatch Columns) :=
  match if method.isProducer then .ok input.batch else method.coerce input.batch with
  | .error error => .error error
  | .ok batch => .ok { input with batch }

/-- A turn of `serve_stream`.  The region is freed in the loop, which an exception leaves. -/
def serveInput (shm : Option Segment) (held : Option Int64) (method : StreamMethod Columns σ β μ)
    (state : σ) (message : AnnotatedBatch Columns) : Left Columns σ β μ :=
  if message.entries.has Keys.cancel then
    ⟨.drain held, [], []⟩
  else
    match resolve arrow shm message with
    | none => ⟨.drain held, [], []⟩
    | some (raw, offset) =>
        match method.input raw with
        | .error _ => ⟨.drain held, offset.toList, []⟩
        | .ok input =>
            let outcome := (method.process state input).run method.isProducer
            match outcome.error with
            | some _ => ⟨.drain held, offset.toList, []⟩
            | none =>
                ⟨if outcome.collector.isFinished then .drain held
                    else .loop held method outcome.state, offset.toList, offset.toList⟩

/-! ## The connection -/

/-- Who wrote a region: the client for a message, or the server for an answer. -/
inductive Owner where
  | request
  | response
  deriving DecidableEq, Repr

/-- A connection with its segment.  `owner` is who wrote the last region at an offset,
`sent` are the regions of the messages that the server has not read, `resolved` and
`freed` are what it has resolved and freed so far. -/
structure World (Columns σ β μ : Type) where
  segment : Segment
  attached : Bool
  owner : Nat → Owner
  sent : List Nat
  phase : Phase Columns σ β μ
  resolved : List Int64
  freed : List Int64

inductive Label (Columns σ β μ : Type) where
  /-- The client puts a message into the segment. -/
  | write (batch : Columns)
  /-- The server puts an answer into the segment. -/
  | respond (batch : Columns)
  /-- The client frees an answer that it has read. -/
  | release (offset : Int64)
  /-- The server reads a request; `attached` is what `refresh_shm` leaves. -/
  | request (attached : Bool) (method : StreamMethod Columns σ β μ)
      (message : AnnotatedBatch Columns)
  | input (message : AnnotatedBatch Columns)
  | endInput

/-- Free one region after the other. -/
def freeAll : Segment → List Int64 → Option Segment
  | segment, [] => some segment
  | segment, offset :: rest =>
      match segment.freeAlloc offset with
      | .error _ => none
      | .ok segment => freeAll segment rest

namespace World

/-- A connection over a new segment. -/
def start (segment : Segment) : World Columns σ β μ :=
  ⟨segment, false, fun _ => .response, [], .idle, [], []⟩

/-- The segment that the server has attached. -/
def shm (world : World Columns σ β μ) (attached : Bool) : Option Segment :=
  if attached then some world.segment else none

/-- The live table entries that belong to requests and inputs. -/
def requestRegions (world : World Columns σ β μ) : List Nat :=
  world.segment.starts.filter fun offset => world.owner offset = .request

/-- The unread messages without the one that is read now, which the client has sent. -/
def taken (world : World Columns σ β μ) (message : AnnotatedBatch Columns) : Option (List Nat) :=
  match pointerOf arrow message with
  | none => some world.sent
  | some offset =>
      if toU64 offset ∈ world.sent then some (world.sent.erase (toU64 offset)) else none

/-- The connection after a message. -/
def leave (world : World Columns σ β μ) (sent : List Nat) (left : Left Columns σ β μ) :
    Option (World Columns σ β μ) :=
  (freeAll world.segment left.freed).map fun segment =>
    { world with
      segment
      sent
      phase := left.phase
      resolved := world.resolved ++ left.resolved
      freed := world.freed ++ left.freed }

/-- What the server leaves behind when it reads, if it can read this now. -/
def reads (world : World Columns σ β μ) : Label Columns σ β μ → Option (Left Columns σ β μ)
  | .request attached method message =>
      match world.phase with
      | .idle => some (serveOne arrow server (world.shm attached) method message)
      | _ => none
  | .input message =>
      match world.phase with
      | .idle => none
      | .loop held method state =>
          some (serveInput arrow (world.shm world.attached) held method state message)
      | .drain held => some ⟨.drain held, [], []⟩
  | .endInput =>
      match world.phase with
      | .idle => none
      | .loop held _ _ | .drain held => some ⟨.idle, [], held.toList⟩
  | _ => none

/-- A region is written. -/
def put (world : World Columns σ β μ) (batch : Columns) (owner : Owner) :
    Option (World Columns σ β μ) :=
  match world.segment.allocateAndWrite arrow batch with
  | .ok (segment, some (offset, _)) =>
      some { world with
        segment
        owner := Function.update world.owner (toU64 offset) owner
        sent := match owner with
          | .request => toU64 offset :: world.sent
          | .response => world.sent }
  | _ => none

/-- One step, if it is possible. -/
def step (world : World Columns σ β μ) (label : Label Columns σ β μ) :
    Option (World Columns σ β μ) :=
  match label with
  | .write batch => world.put arrow batch .request
  | .respond batch => world.put arrow batch .response
  | .release offset =>
      if world.owner (toU64 offset) = .response then
        (freeAll world.segment [offset]).map fun segment => { world with segment }
      else
        none
  | .request attached _ message => do
      let left ← world.reads arrow server label
      let sent ← world.taken arrow message
      { world with attached }.leave sent left
  | .input message => do
      let left ← world.reads arrow server label
      let sent ← world.taken arrow message
      world.leave sent left
  | .endInput => do
      let left ← world.reads arrow server label
      world.leave world.sent left

def run : World Columns σ β μ → List (Label Columns σ β μ) → Option (World Columns σ β μ)
  | world, [] => some world
  | world, label :: labels => do run (← world.step arrow server label) labels

/-- A condition on the steps of a run, each in the state before it. -/
def along (condition : World Columns σ β μ → Label Columns σ β μ → Bool) :
    World Columns σ β μ → List (Label Columns σ β μ) → Bool
  | _, [] => true
  | world, label :: labels => condition world label &&
      match world.step arrow server label with
      | none => true
      | some next => along condition next labels

end World

end Server

end VgiRpc.Raw.Inbound
