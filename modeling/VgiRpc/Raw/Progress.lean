import VgiRpc.Collector.Handler
import VgiRpc.Raw.Lockstep

/-!
# Progress of raw streams

A turn of the stream loop writes what the log sink and the collector hold and reads on,
whether or not there is a data batch among it.  The client waits for one, and at an
exception batch for the end of the stream.  If every turn finishes the stream, throws, or
emits a batch that reads as data and logs nothing at level `EXCEPTION`, the two parties
never wait for each other.  A turn that only logs blocks both.
-/

namespace VgiRpc.Raw

open VgiRpc.Cpp VgiRpc.Wire VgiRpc.Lib VgiRpc.Collector

variable {Columns σ : Type}

/-! ## What a turn writes -/

/-- What a reader looks at in a batch that a handler emits. -/
structure Emitted where
  numRows : Nat
  metadata : Option Metadata
  deriving DecidableEq

/-- What the batch is on the wire.  `pointer` are offset and length as `maybe_write_to_shm`
adds them to the metadata of a batch that went through the shared segment. -/
def Emitted.batchType (pointer : Option (Bytes × Bytes)) (batch : Emitted) : BatchType :=
  match pointer with
  | none => classifyBatch batch.numRows batch.metadata
  | some (offset, length) =>
      if batch.numRows = 0 then classifyBatch 0 batch.metadata
      else
        classifyBatch 0 (some (batch.metadata.getD [] ++
          [(Keys.shmOffset, offset), (Keys.shmLength, length)]))

/-- What an item of the collector is on the wire. -/
def wireType (pointer : Option (Bytes × Bytes)) : Item Emitted LogMessage → BatchType
  | .log message => message.batchType
  | .data batch => batch.batchType pointer

/-- The batches that the stream loop writes for a turn. -/
def turnOuts (pointer : Option (Bytes × Bytes)) (outcome : Outcome σ Emitted LogMessage) :
    List BatchType :=
  match outcome.error with
  | some _ => [.exception]
  | none =>
      outcome.sink.map LogMessage.batchType ++ outcome.collector.batches.map (wireType pointer)

/-- The stream loop is left after a turn. -/
def turnStop {β μ : Type} (outcome : Outcome σ β μ) : Bool :=
  outcome.error.isSome || outcome.collector.isFinished

/-- A batch that `read_next_data` returns. -/
def IsData : BatchType → Bool
  | .data | .shmPointer | .externalPointer => true
  | .log | .exception | .stateToken => false

/-- A turn writes a data batch, an exception batch or the end of the stream, and an exception
batch only in front of the end, for which the client then waits. -/
structure Answers (outs : List BatchType) (stop : Bool) : Prop where
  answer : stop = true ∨ ∃ out ∈ outs, IsData out = true ∨ out = .exception
  ended : .exception ∈ outs → stop = true

/-- The handler threw, finished the stream, or emitted a batch that reads as data and logged
nothing at level `EXCEPTION`. -/
def Productive (pointer : Option (Bytes × Bytes)) (outcome : Outcome σ Emitted LogMessage) :
    Prop :=
  outcome.error.isSome = true ∨ outcome.collector.isFinished = true ∨
    ((∃ batch ∈ dataOf outcome.collector.batches, IsData (batch.batchType pointer) = true) ∧
      ∀ message ∈ outcome.logged, message.level ≠ .exception)

instance (pointer : Option (Bytes × Bytes)) (outcome : Outcome σ Emitted LogMessage) :
    Decidable (Productive pointer outcome) :=
  inferInstanceAs (Decidable (_ ∨ _ ∨ _ ∧ _))

theorem batchType_eq_exception_iff (message : LogMessage) :
    message.batchType = .exception ↔ message.level = .exception := by
  rw [LogMessage.batchType_eq]
  split <;> simp [*]

theorem isData_batchType (message : LogMessage) : IsData message.batchType = false := by
  rw [LogMessage.batchType_eq]
  split <;> rfl

theorem mem_map_wireType {pointer : Option (Bytes × Bytes)}
    {items : List (Item Emitted LogMessage)} {out : BatchType} :
    out ∈ items.map (wireType pointer) ↔
      (∃ message ∈ logsOf items, message.batchType = out) ∨
        ∃ batch ∈ dataOf items, batch.batchType pointer = out := by
  induction items with
  | nil => simp
  | cons item items ih =>
      rw [List.map_cons, List.mem_cons, ih, ← List.singleton_append, logsOf_append, dataOf_append]
      cases item with
      | log message => simp [wireType, or_assoc, eq_comm]
      | data batch => simp [wireType, or_left_comm, eq_comm]

/-- What a turn that does not throw writes: what it logged, and what it emitted. -/
theorem mem_turnOuts (pointer : Option (Bytes × Bytes)) {handler : Handler σ Emitted LogMessage}
    {producerMode : Bool} (returns : (handler.run producerMode).error = none) (out : BatchType) :
    out ∈ turnOuts pointer (handler.run producerMode) ↔
      (∃ message ∈ (handler.run producerMode).logged, message.batchType = out) ∨
        ∃ batch ∈ dataOf (handler.run producerMode).collector.batches,
          batch.batchType pointer = out := by
  have logged := (handler.kept_run producerMode).1.logged
  have written : turnOuts pointer (handler.run producerMode) =
      (handler.run producerMode).sink.map LogMessage.batchType ++
        (handler.run producerMode).collector.batches.map (wireType pointer) := by
    simp only [turnOuts, returns]
  rw [written, List.mem_append, mem_map_wireType, List.mem_map, ← or_assoc]
  simp only [logged.mem_iff, List.mem_append, or_and_right, exists_or]

/-- The stream loop answers exactly the turns in which the handler throws, finishes, or emits
data and logs no error. -/
theorem answers_iff_productive (pointer : Option (Bytes × Bytes))
    (handler : Handler σ Emitted LogMessage) (producerMode : Bool) :
    Answers (turnOuts pointer (handler.run producerMode)) (turnStop (handler.run producerMode)) ↔
      Productive pointer (handler.run producerMode) := by
  have kept := (handler.kept_run producerMode).1
  cases error : (handler.run producerMode).error with
  | some thrown =>
      refine iff_of_true ⟨.inl ?_, fun _ => ?_⟩ (.inl ?_) <;> simp [turnStop, error]
  | none =>
      have outs := mem_turnOuts pointer error
      cases finished : (handler.run producerMode).collector.isFinished with
      | true =>
          refine iff_of_true ⟨.inl ?_, fun _ => ?_⟩ (.inr (.inl finished)) <;>
            simp [turnStop, finished]
      | false =>
          have goes : turnStop (handler.run producerMode) = false := by
            simp [turnStop, error, finished]
          constructor
          · rintro ⟨answer, ended⟩
            have calm : .exception ∉ turnOuts pointer (handler.run producerMode) := by
              intro inside
              rw [goes] at ended
              cases ended inside
            refine .inr (.inr ⟨?_, ?_⟩)
            · rcases answer with stop | ⟨out, inside, data | rfl⟩
              · rw [goes] at stop
                cases stop
              · rcases (outs out).mp inside with ⟨message, -, rfl⟩ | ⟨batch, emitted, rfl⟩
                · rw [isData_batchType] at data
                  cases data
                · exact ⟨batch, emitted, data⟩
              · exact absurd inside calm
            · intro message logged level
              exact calm ((outs _).mpr
                (.inl ⟨message, logged, (batchType_eq_exception_iff message).mpr level⟩))
          · rintro (threw | stop | ⟨⟨batch, emitted, data⟩, calm⟩)
            · simp [error] at threw
            · simp [finished] at stop
            · refine ⟨.inr ⟨_, (outs _).mpr (.inr ⟨batch, emitted, rfl⟩), .inl data⟩, ?_⟩
              intro inside
              rcases (outs _).mp inside with ⟨message, logged, raised⟩ | ⟨other, also, raised⟩
              · exact absurd ((batchType_eq_exception_iff message).mp raised) (calm message logged)
              · rw [kept.eq_of_mem emitted also, raised] at data
                cases data

/-! ## What is owed to a waiting client -/

/-- The client is in `read_next_data`. -/
def ClientState.awaits : ClientState → Bool
  | .turn _ _ | .turnDrain _ _ => true
  | _ => false

/-- A message that ends the wait of `read_next_data`. -/
def IsAnswer : Token BatchType → Prop
  | .schema => False
  | .batch content => content ≠ .log
  | .eos => True

/-- Behind every exception batch there is an end of a stream. -/
def Ends : List (Nat × Token BatchType) → Prop
  | [] => True
  | item :: rest => (item.2 = .batch .exception → ∃ last ∈ rest, last.2 = .eos) ∧ Ends rest

theorem Ends.append {first second : List (Nat × Token BatchType)} (front : Ends first)
    (back : Ends second) : Ends (first ++ second) := by
  induction first with
  | nil => exact back
  | cons item rest ih =>
      refine ⟨fun raised => ?_, ih front.2⟩
      obtain ⟨last, inside, ending⟩ := front.1 raised
      exact ⟨last, List.mem_append_left _ inside, ending⟩

theorem ends_of_calm {items : List (Nat × Token BatchType)}
    (calm : ∀ item ∈ items, item.2 ≠ .batch .exception) : Ends items := by
  induction items with
  | nil => trivial
  | cons item rest ih =>
      rw [List.forall_mem_cons] at calm
      exact ⟨fun raised => absurd raised calm.1, ih calm.2⟩

theorem ends_closed (call : Nat) (front : List (Token BatchType)) :
    Ends (tag call (front ++ [.eos])) := by
  induction front with
  | nil => exact ends_of_calm (by simp [tag])
  | cons token front ih =>
      refine ⟨fun _ => ⟨(call, .eos), ?_, rfl⟩, ih⟩
      exact List.mem_map_of_mem (List.mem_append_right _ List.mem_cons_self)

theorem ends_framed (call : Nat) (batches : List BatchType) : Ends (tag call (framed batches)) :=
  ends_closed call (.schema :: batches.map .batch)

namespace Connection

/-- Both parties wait: the client in `read_next_data` with nothing to read, and the server
with nothing to read either. -/
def Blocked (connection : Connection Columns) : Prop :=
  connection.client.awaits = true ∧ connection.responses = [] ∧ connection.requests = []

/-- A client that waits in a turn has its input batch in front of the server, the last
message that it wrote, or an answer in front of itself; one that drains the response has the
end of it in front of itself. -/
structure Owed (connection : Connection Columns) : Prop where
  ends : Ends connection.responses
  turn : ∀ call stream, connection.client = .turn call stream →
    stream.finished = false ∧
      ((∃ front origin batch, connection.requests = front ++ [(origin, .batch batch)] ∧
          origin.part = .input) ∨
        ∃ item ∈ connection.responses, IsAnswer item.2)
  drain : ∀ call stream, connection.client = .turnDrain call stream →
    ∃ item ∈ connection.responses, item.2 = .eos

theorem Owed.not_blocked {connection : Connection Columns} (owed : connection.Owed) :
    ¬ connection.Blocked := by
  rintro ⟨awaits, responses, requests⟩
  cases client : connection.client with
  | turn call stream =>
      rcases owed.turn call stream client with
        ⟨-, ⟨front, origin, batch, pending, -⟩ | ⟨item, inside, -⟩⟩
      · rw [requests] at pending
        simp at pending
      · rw [responses] at inside
        simp at inside
  | turnDrain call stream =>
      obtain ⟨item, inside, -⟩ := owed.drain call stream client
      rw [responses] at inside
      simp at inside
  | _ => rw [client] at awaits; cases awaits

end Connection

/-! ## Steps -/

/-- What the loop writes for an input batch is the turn of a handler, which is productive,
and in front of the first turn the factory has logged nothing at level `EXCEPTION`. -/
def ProductiveTurn (σ : Type) (connection : Connection Columns) : Label Columns → Prop
  | .serverRead choice =>
      (∀ call, connection.server = .openInput call →
        ∀ message ∈ choice.logs, message.level ≠ .exception) ∧
      ∀ call started origin batch rest,
        connection.server = .loop call started →
          connection.requests = (origin, .batch batch) :: rest →
            batch.metadata.has Keys.cancel = false →
              ∃ (handler : Handler σ Emitted LogMessage) (producerMode : Bool)
                (pointer : Option (Bytes × Bytes)),
                Productive pointer (handler.run producerMode) ∧
                  choice.outs = turnOuts pointer (handler.run producerMode) ∧
                    choice.stop = turnStop (handler.run producerMode)
  | _ => True

/-- The steps on which the parties agree, with productive turns. -/
def ProductiveSteps (σ : Type) (setup : Setup Columns) (connection : Connection Columns)
    (event : Option (Label Columns)) (next : Connection Columns) : Prop :=
  ∃ label, event = some label ∧ Agrees setup connection label ∧
    ProductiveTurn σ connection label ∧ connection.step setup label = some next

/-- Productive turns answer. -/
theorem ProductiveTurn.answers {connection : Connection Columns} {choice : Choice Columns}
    (productive : ProductiveTurn σ connection (.serverRead choice)) {call : Nat} {started : Bool}
    {origin : Origin} {batch : Batch Columns} {rest : List (Origin × Token (Batch Columns))}
    (loop : connection.server = .loop call started)
    (head : connection.requests = (origin, .batch batch) :: rest)
    (running : batch.metadata.has Keys.cancel = false) : Answers choice.outs choice.stop := by
  rcases productive.2 call started origin batch rest loop head running with
    ⟨handler, mode, pointer, emits, outs, stop⟩
  rw [outs, stop]
  exact (answers_iff_productive pointer handler mode).mpr emits

/-- Closing the writer ends the response. -/
theorem closing_eq (started : Bool) :
    ServerState.closing started = (if started then [] else [.schema]) ++ [.eos] := by
  cases started <;> rfl

/-- A loop that reads an input batch writes an answer, if the turn is productive or the
batch cancels the stream. -/
theorem loop_writes_answer (server : Server Columns) (choice : Choice Columns)
    (call origin : Nat) (started : Bool) (batch : Batch Columns)
    (answers : batch.metadata.has Keys.cancel = false → Answers choice.outs choice.stop) :
    ∃ item ∈ ((ServerState.loop call started).receive server choice origin (.batch batch)).2,
      IsAnswer item.2 := by
  have closes : ∀ opened written, ∃ item ∈ tag call (written ++ ServerState.closing opened),
      IsAnswer item.2 := by
    intro opened written
    refine ⟨(call, .eos), ?_, trivial⟩
    rw [closing_eq, ← List.append_assoc]
    exact List.mem_map_of_mem (List.mem_append_right _ List.mem_cons_self)
  simp only [ServerState.receive]
  split
  next => exact closes started []
  next running =>
      split
      next => exact closes _ _
      next continues =>
          rcases (answers (by simpa using running)).answer with stop | ⟨out, inside, other⟩
          · exact absurd stop continues
          · refine ⟨(call, .batch out), ?_, ?_⟩
            · apply List.mem_map_of_mem
              exact List.mem_append_right _ (List.mem_map_of_mem inside)
            · rcases other with data | rfl
              · rintro rfl
                cases data
              · exact BatchType.noConfusion

/-- Behind an exception batch that the server writes it ends the stream, if no turn does
otherwise. -/
theorem receive_ends (server : Server Columns) (choice : Choice Columns) (origin : Nat)
    {state : ServerState Columns} {token : Token (Batch Columns)}
    (calm : ∀ call, state = .openInput call →
      ∀ message ∈ choice.logs, message.level ≠ .exception)
    (answers : ∀ call started batch, state = .loop call started → token = .batch batch →
      batch.metadata.has Keys.cancel = false → Answers choice.outs choice.stop) :
    Ends (state.receive server choice origin token).2 := by
  have closes : ∀ call started written,
      Ends (tag call (written ++ ServerState.closing started)) := by
    intro call started written
    rw [closing_eq, ← List.append_assoc]
    exact ends_closed call _
  cases state with
  | request reader =>
      cases reader with
      | start => cases token <;> trivial
      | body read =>
          cases token with
          | schema => trivial
          | batch content => trivial
          | eos =>
              cases read with
              | nil => trivial
              | cons first read =>
                  simp only [ServerState.receive]
                  split
                  next => exact ends_framed ..
                  next => exact ends_framed ..
                  next => exact ends_framed ..
                  next =>
                      split
                      next => exact ends_framed ..
                      next => exact ends_framed ..
                      next => trivial
  | factoryDrain reader => cases reader <;> cases token <;> trivial
  | openInput call =>
      cases token with
      | schema =>
          simp only [ServerState.receive]
          split
          next => trivial
          next =>
              apply ends_of_calm
              simp only [tag, List.forall_mem_map, List.forall_mem_cons]
              refine ⟨by simp, fun message logged raised => ?_⟩
              rw [Token.batch.injEq, batchType_eq_exception_iff] at raised
              exact calm call rfl message logged raised
      | batch content => trivial
      | eos => trivial
  | loop call started =>
      cases token with
      | schema => exact closes call started []
      | eos => exact closes call started []
      | batch content =>
          simp only [ServerState.receive]
          split
          next => exact closes call started []
          next running =>
              split
              next => exact closes ..
              next continues =>
                  apply ends_of_calm
                  simp only [tag, ServerState.emitting, List.forall_mem_map, List.forall_mem_append]
                  refine ⟨fun token opened => ?_, fun out inside raised => ?_⟩
                  · split at opened
                    next => cases opened
                    next =>
                        rw [List.mem_singleton.mp opened]
                        simp
                  · rw [Token.batch.injEq] at raised
                    subst raised
                    exact continues
                      ((answers call started content rfl rfl (by simpa using running)).ended inside)
  | drain => cases token <;> trivial
  | ended => cases token <;> trivial

/-- A complete response that is not read to its end has its end in flight. -/
theorem eos_mem_of_complete {got : Progress} {output : List (Token BatchType)}
    (carries : Carries .complete got output) (unread : got ≠ .done) : Token.eos ∈ output := by
  cases carries with
  | complete batches => simp [framed]
  | rest batches => simp
  | done => exact absurd rfl unread

namespace Connection

variable {setup : Setup Columns} {connection next : Connection Columns}

/-- A request that is not read yet is more than an input batch. -/
theorem Asked.not_single {call : Nat} {wantsHeader : Bool} {request : Batch Columns}
    {input : List (Token (Batch Columns))} {origin : Origin} {batch : Batch Columns}
    (asked : connection.Asked call wantsHeader request input) :
    connection.requests ≠ [(origin, .batch batch)] := by
  rcases asked with ⟨-, asking, asks, requests⟩
  rw [requests]
  generalize connection.server = server at asks
  cases asks with
  | behind serving residue => simp [tag, framed, List.append_eq_singleton_iff]
  | schema => simp [tag]
  | batch => simp [tag]

/-- The server reads the last message in front of it, an input batch of the client's
turn: it has answered already, or it does now. -/
theorem Invariant.answers_last {choice : Choice Columns} {origin : Origin}
    {batch : Batch Columns} {call : Nat} {stream : ClientStream}
    (invariant : connection.Invariant setup) (client : connection.client = .turn call stream)
    (unfinished : stream.finished = false)
    (single : connection.requests = [(origin, .batch batch)])
    (productive : ProductiveTurn σ connection (.serverRead choice)) :
    ∃ item ∈ (connection.received setup choice origin (.batch batch) []).responses,
      IsAnswer item.2 := by
  have unread : stream.got ≠ .done := by
    unfold ClientStream.got
    rw [unfinished]
    cases stream.outputOpen <;> simp
  rw [Invariant, client] at invariant
  dsimp only at invariant
  rcases invariant with ⟨-, -, request, input, -, asked, -⟩ | served
  · exact absurd single asked.not_single
  · rcases served with ⟨progress, phase, input, output, requests, responses, serving, inflow, outflow⟩
    have complete : phase = .complete → ∃ item ∈
        (connection.received setup choice origin (.batch batch) []).responses, IsAnswer item.2 := by
      rintro rfl
      refine ⟨(call, .eos), List.mem_append_left _ ?_, trivial⟩
      rw [responses]
      exact List.mem_map_of_mem (eos_mem_of_complete outflow unread)
    have looping : ∀ started, connection.server = .loop call started → ∃ item ∈
        (connection.received setup choice origin (.batch batch) []).responses, IsAnswer item.2 := by
      intro started loop
      rcases loop_writes_answer setup.server choice call origin.call started batch
        (productive.answers loop single) with
        ⟨item, inside, answer⟩
      refine ⟨item, List.mem_append_right _ ?_, answer⟩
      rw [loop]
      exact inside
    rw [single] at requests
    generalize here : connection.server = server at serving
    cases serving with
    | failed => exact complete rfl
    | draining read => exact complete rfl
    | opening =>
        exfalso
        cases input with
        | nil => simp [tag] at requests
        | cons first input =>
            have schema := inflow.read_start.1
            simp [tag, schema] at requests
    | silent => exact looping false here
    | speaking => exact looping true here
    | drain => exact complete rfl
    | done => exact complete rfl

/-- Nothing more is owed to a client that is not in a turn. -/
theorem Owed.of_client (ends : Ends next.responses) (elsewhere : next.client.awaits = false) :
    next.Owed := by
  refine ⟨ends, ?_, ?_⟩
  · intro call stream client
    rw [client] at elsewhere
    cases elsewhere
  · intro call stream client
    rw [client] at elsewhere
    cases elsewhere

/-- A client that is not in a turn does not get into one by reading. -/
theorem receive_elsewhere {client : ClientState} {raises : Bool} {token : Token BatchType}
    {after : ClientState} {written : List (Token (Batch Columns))}
    (received : client.receive raises token = (after, written))
    (elsewhere : client.awaits = false) : after.awaits = false := by
  have reached : after = (client.receive raises token : _ × List (Token (Batch Columns))).1 := by
    rw [received]
  rw [reached]
  cases client with
  | turn call stream => cases elsewhere
  | turnDrain call stream => cases elsewhere
  | unary call reader =>
      cases reader <;> cases token <;> first
        | rfl
        | simp only [ClientState.receive]; split <;> rfl
  | header call kind reader =>
      cases reader <;> cases token <;> first
        | rfl
        | simp only [ClientState.receive]; split <;> rfl
  | closing call stream pending =>
      simp only [ClientState.receive]
      split <;> rfl
  | cancelling call stream pending =>
      simp only [ClientState.receive]
      split <;> rfl
  | _ => rfl

/-- The client reads a message and still waits: it was not an answer. -/
theorem receive_turn {client : ClientState} {raises : Bool} {token : Token BatchType}
    {call : Nat} {stream : ClientStream} {written : List (Token (Batch Columns))}
    (received : client.receive raises token = (.turn call stream, written)) :
    written = [] ∧ ¬ IsAnswer token ∧
      ∃ before, client = .turn call before ∧ before.finished = stream.finished := by
  cases client with
  | turn other before =>
      cases token with
      | schema =>
          simp only [ClientState.receive] at received
          split at received
          next => cases received
          next =>
              cases received
              exact ⟨rfl, id, before, rfl, rfl⟩
      | batch content =>
          simp only [ClientState.receive] at received
          split at received
          next => cases received
          next =>
              split at received
              next =>
                  split at received
                  next => cases received
                  next =>
                      cases received
                      exact ⟨rfl, fun answer => answer rfl, _, rfl, rfl⟩
              all_goals cases received
      | eos =>
          simp only [ClientState.receive] at received
          split at received <;> cases received
  | turnDrain other before => cases token <;> cases received
  | _ => cases receive_elsewhere received rfl

/-- The client reads a message and drains the response: it met an exception batch now, or
before. -/
theorem receive_turnDrain {client : ClientState} {raises : Bool} {token : Token BatchType}
    {call : Nat} {stream : ClientStream} {written : List (Token (Batch Columns))}
    (received : client.receive raises token = (.turnDrain call stream, written)) :
    token = .batch .exception ∨
      client = .turnDrain call stream ∧ ∃ content, token = .batch content := by
  cases client with
  | turn other before =>
      cases token with
      | batch content =>
          simp only [ClientState.receive] at received
          split at received
          next => cases received
          next =>
              cases content with
              | exception => exact .inl rfl
              | log => cases raises <;> cases received
              | _ => cases received
      | schema =>
          simp only [ClientState.receive] at received
          split at received <;> cases received
      | eos =>
          simp only [ClientState.receive] at received
          split at received <;> cases received
  | turnDrain other before =>
      cases token with
      | batch content =>
          cases received
          exact .inr ⟨rfl, content, rfl⟩
      | schema => cases received
      | eos => cases received
  | _ => cases receive_elsewhere received rfl

theorem Owed.clientRead {raises : Bool} (owed : connection.Owed)
    (taken : connection.step setup (.clientRead raises) = some next) : next.Owed := by
  have reads : ∀ token rest, (∀ item ∈ connection.responses, item.2 = token ∨ item ∈ rest) →
      Ends rest → (token = .batch .exception → ∃ last ∈ rest, last.2 = .eos) →
        { connection with responses := rest }.accept raises token = some next → next.Owed := by
    intro token rest covered ends behind accepted
    unfold accept at accepted
    split at accepted
    next => cases accepted
    next reading =>
        dsimp only at accepted
        generalize received : connection.client.receive raises token = result at accepted
        rcases result with ⟨after, written⟩
        cases accepted
        refine ⟨ends, ?_, ?_⟩
        · intro call stream client
          rcases receive_turn (received.trans (by rw [← client])) with
            ⟨rfl, noAnswer, before, waiting, finished⟩
          rcases owed.turn call before waiting with
            ⟨unfinished, ⟨front, origin, batch, pending, part⟩ | ⟨item, inside, answer⟩⟩
          · refine ⟨finished ▸ unfinished, .inl ⟨front, origin, batch, ?_, part⟩⟩
            dsimp only
            rw [send_nil]
            exact pending
          · refine ⟨finished ▸ unfinished, .inr ⟨item, ?_, answer⟩⟩
            rcases covered item inside with same | later
            · rw [same] at answer
              exact absurd answer noAnswer
            · dsimp only
              rw [send_nil]
              exact later
        · intro call stream client
          rcases receive_turnDrain (received.trans (by rw [← client])) with
            raised | ⟨draining, content, rfl⟩
          · exact behind raised
          · rcases owed.drain call stream draining with ⟨item, inside, ending⟩
            rcases covered item inside with same | later
            · rw [same] at ending
              cases ending
            · exact ⟨item, later, ending⟩
  have ends := owed.ends
  rw [step] at taken
  split at taken
  next source token rest queue =>
      rw [queue] at ends
      apply reads token rest _ ends.2 ends.1 taken
      intro item inside
      rw [queue, List.mem_cons] at inside
      rcases inside with rfl | later
      · exact .inl rfl
      · exact .inr later
  next queue _ =>
      apply reads .eos connection.responses (fun item inside => .inr inside) ends _ taken
      intro raised
      cases raised
  next => cases taken

theorem Owed.serverRead {choice : Choice Columns} (invariant : connection.Invariant setup)
    (owed : connection.Owed) (productive : ProductiveTurn σ connection (.serverRead choice))
    (taken : connection.step setup (.serverRead choice) = some next) : next.Owed := by
  rcases head : connection.requests with _ | ⟨⟨origin, token⟩, rest⟩
  · rw [step, head] at taken
    cases taken
  · rw [step_serverRead head, Option.some.injEq] at taken
    rw [← taken]
    refine ⟨owed.ends.append ?_, ?_, ?_⟩
    · apply receive_ends
      · exact productive.1
      · rintro call started batch loop rfl running
        exact productive.answers loop head running
    · intro call stream client
      rcases owed.turn call stream client with
        ⟨unfinished, ⟨front, source, batch, pending, part⟩ | ⟨item, inside, answer⟩⟩
      · refine ⟨unfinished, ?_⟩
        rw [head] at pending
        cases front with
        | nil =>
            rw [List.nil_append, List.cons.injEq, Prod.mk.injEq] at pending
            rcases pending with ⟨⟨rfl, rfl⟩, rfl⟩
            exact .inr (invariant.answers_last client unfinished head productive)
        | cons first front =>
            rw [List.cons_append, List.cons.injEq] at pending
            exact .inl ⟨front, source, batch, pending.2, part⟩
      · exact ⟨unfinished, .inr ⟨item, List.mem_append_left _ inside, answer⟩⟩
    · intro call stream client
      rcases owed.drain call stream client with ⟨item, inside, ending⟩
      exact ⟨item, List.mem_append_left _ inside, ending⟩

/-- Every step keeps what is owed. -/
theorem Owed.step {label : Label Columns} (invariant : connection.Invariant setup)
    (owed : connection.Owed) (productive : ProductiveTurn σ connection label)
    (taken : connection.step setup label = some next) : next.Owed := by
  cases label with
  | callUnary params =>
      rw [Connection.step] at taken
      split at taken
      next =>
          cases taken
          exact .of_client owed.ends rfl
      next => cases taken
  | openStream kind wantsHeader params =>
      rw [Connection.step] at taken
      split at taken
      next =>
          cases taken
          refine .of_client owed.ends ?_
          cases wantsHeader <;> rfl
      next => cases taken
  | turn kind outbound =>
      rw [Connection.step] at taken
      split at taken
      next call stream live =>
          split at taken
          next allowed =>
              cases taken
              refine ⟨owed.ends, ?_, fun _ _ client => by cases client⟩
              intro other after client
              cases client
              refine ⟨allowed.2, .inl ⟨connection.requests ++
                tag ⟨call, stream.wantsHeader, .input⟩ stream.opening,
                  ⟨call, stream.wantsHeader, .input⟩, outbound, ?_, rfl⟩⟩
              simp [send, tag]
          next => cases taken
      next => cases taken
  | cancel =>
      rw [Connection.step] at taken
      split at taken
      next =>
          split at taken
          next =>
              cases taken
              exact .of_client owed.ends rfl
          next =>
              cases taken
              exact .of_client owed.ends rfl
      next => cases taken
  | close =>
      rw [Connection.step] at taken
      split at taken
      next call stream live =>
          cases taken
          refine .of_client owed.ends ?_
          cases stream.finished <;> rfl
      next => cases taken
  | drop =>
      rw [Connection.step] at taken
      split at taken
      next =>
          cases taken
          exact .of_client owed.ends rfl
      next => cases taken
  | clientRead raises => exact owed.clientRead taken
  | clientFails =>
      have gone : next = { connection with client := .aborted } := by
        rw [Connection.step] at taken
        split at taken <;> first | exact (Option.some.inj taken).symm | simp at taken
      rw [gone]
      exact .of_client owed.ends rfl
  | serverRead choice => exact owed.serverRead invariant productive taken

end Connection

/-! ## Progress -/

/-- A stream loop answers exactly the turns in which the handler throws, finishes the stream,
or emits data and logs no error; and in every run in which all turns do, no state is reached
in which a client waits in `read_next_data` while the server waits for input. -/
theorem turns_make_progress (setup : Setup Columns) :
    (∀ (pointer : Option (Bytes × Bytes)) (handler : Handler σ Emitted LogMessage)
      (producerMode : Bool),
      Answers (turnOuts pointer (handler.run producerMode))
          (turnStop (handler.run producerMode)) ↔
        Productive pointer (handler.run producerMode)) ∧
      ∀ {trace : List (Label Columns)} {connection : Connection Columns},
        Run (ProductiveSteps σ setup) Connection.initial trace connection →
          ¬ connection.Blocked := by
  constructor
  · exact answers_iff_productive
  · intro trace connection run
    have both : connection.Invariant setup ∧ connection.Owed := by
      apply run.invariant
      · exact ⟨Connection.invariant_initial setup, .of_client trivial rfl⟩
      · rintro _ state event next ⟨invariant, owed⟩ ⟨label, -, agrees, productive, taken⟩
        exact ⟨invariant.step agrees taken, owed.step invariant productive taken⟩
    exact both.2.not_blocked

/-- A handler that emits one batch. -/
def emitOne : Handler Unit Emitted LogMessage := .emit true ⟨1, none⟩ fun _ => .returns ()

/-- A handler that only logs. -/
def logOnly : Handler Unit Emitted LogMessage :=
  .outLog ⟨.info, ascii "working", []⟩ (.returns ())

/-- The choice of a server whose turns are those of a producer. -/
def choiceOf (handler : Handler Unit Emitted LogMessage) : Choice Unit :=
  ⟨none, [], .data, .ok false, turnOuts none (handler.run true), turnStop (handler.run true)⟩

/-- In the run of a producer that emits a batch in its turn, nobody blocks. -/
theorem emitOne_progresses :
    ∃ connection, runLabels sampleSetup servedRun = some connection ∧ ¬ connection.Blocked := by
  have reached : runLabels sampleSetup servedRun =
      some ⟨.idle, .request .start, [], [], 1⟩ := by decide +kernel
  refine ⟨_, reached, (turns_make_progress (σ := Unit) sampleSetup).2
    (run_of_runLabels reached ?_)⟩
  intro label member before after taken
  refine ⟨label, rfl, servedRun_agrees label member before, ?_, taken⟩
  cases label with
  | serverRead choice =>
      have same : choice = sampleChoice := by
        simp only [servedRun, List.mem_cons, List.not_mem_nil, or_false, reduceCtorEq, false_or,
          Label.serverRead.injEq] at member
        rcases member with same | same | same | same | same | same <;> exact same
      rw [same]
      refine ⟨fun _ _ message logged => (by cases logged), ?_⟩
      intro call started origin batch rest _ _ _
      exact ⟨emitOne, true, none, by decide, rfl, rfl⟩
  | _ => trivial

/-- A producer is opened and ticked, and its handler only logs. -/
def logOnlyRun : List (Label Unit) :=
  [.openStream .producer false (sampleParams "count"), .turn .producer sampleTick,
    .serverRead (choiceOf logOnly), .serverRead (choiceOf logOnly), .serverRead (choiceOf logOnly),
    .serverRead (choiceOf logOnly), .serverRead (choiceOf logOnly), .clientRead false,
    .clientRead false]

/-- The server has read the tick, the client has read the log batch, and each waits for the
other. -/
theorem logOnlyRun_blocks :
    (logOnly.run true).error = none ∧
      ¬ Answers (turnOuts none (logOnly.run true)) (turnStop (logOnly.run true)) ∧
      ∃ connection, runLabels sampleSetup logOnlyRun = some connection ∧ connection.Blocked := by
  have reached : runLabels sampleSetup logOnlyRun =
      some ⟨.turn 0 ⟨.producer, false, true, true, false⟩, .loop 0 true, [], [], 1⟩ := by
    decide +kernel
  refine ⟨rfl, ?_, _, reached, rfl, rfl, rfl⟩
  rw [answers_iff_productive]
  decide

end VgiRpc.Raw
