import VgiRpc.Lib.Runs
import VgiRpc.Raw.Connection

/-!
# Agreement on a raw connection

The lockstep property of a connection, the condition under which it holds, and the
invariant behind it: what is in flight on either channel follows from how much of
the two streams of a call each party has written and read.  This module proves that
the server keeps the invariant.
-/

namespace VgiRpc.Raw

open VgiRpc.Cpp VgiRpc.Wire VgiRpc.Lib

variable {Columns : Type}

/-! ## The property -/

/-- The call that a client state belongs to. -/
def ClientState.call : ClientState → Option Nat
  | .unary call _ | .header call _ _ | .live call _ | .turn call _ | .turnDrain call _
  | .closing call _ _ | .cancelling call _ _ => some call
  | .idle | .aborted => none

namespace Connection

/-- Both channels are empty and the server waits for a request. -/
def Waiting (connection : Connection Columns) : Prop :=
  connection.server = .request .start ∧ connection.requests = [] ∧ connection.responses = []

/-- The server alone reads messages. -/
def serve (setup : Setup Columns) (connection : Connection Columns)
    (choices : List (Choice Columns)) : Option (Connection Columns) :=
  choices.foldlM (fun reached choice => reached.step setup (.serverRead choice)) connection

/-- Once the server has read what is in flight, whatever the environment decides,
both channels are empty and it waits for a request. -/
def CatchesUp (setup : Setup Columns) (connection : Connection Columns) : Prop :=
  ∀ choices : List (Choice Columns), choices.length = connection.requests.length →
    ∃ caughtUp, connection.serve setup choices = some caughtUp ∧ caughtUp.Waiting

/-- Client and server are in lockstep. -/
structure Lockstep (setup : Setup Columns) (connection : Connection Columns) : Prop where
  /-- An idle client has no response left to read, and the server gets back to waiting. -/
  idle : connection.client = .idle → connection.responses = [] ∧ connection.CatchesUp setup
  /-- Every response belongs to the call that the client is in. -/
  answers : connection.client ≠ .aborted →
    ∀ item ∈ connection.responses, connection.client.call = some item.1
  /-- The server never takes an input stream for a request. -/
  requests : connection.client ≠ .aborted →
    ∀ reader origin token rest, connection.server = .request reader →
      connection.requests = (origin, token) :: rest → origin.part = .request

end Connection

/-! ## Agreement on the kind of a call -/

/-- The two parties agree on what a step is about: a unary call does not name a
stream, a stream call reaches the factory of a stream, a header is sent only to a
client that reads one and behind no log message at level `EXCEPTION`, and no callback
throws an `RpcException` into the reading of a header. -/
def Agrees (setup : Setup Columns) (connection : Connection Columns) : Label Columns → Prop
  | .callUnary params => ∀ request ∈ setup.request params, ∀ resolved,
      setup.server.dispatch resolved request ≠ .stream
  | .openStream _ _ params => ∀ request ∈ setup.request params, ∀ resolved,
      setup.server.dispatch resolved request = .stream
  | .clientRead raises => ∀ call kind reader,
      connection.client = .header call kind reader → raises = false
  | .serverRead choice => ∀ first read origin rest,
      connection.server = .request (.body (first :: read)) →
        connection.requests = (origin, .eos) :: rest →
          setup.server.dispatch choice.resolved first = .stream → choice.factory = .ok true →
            origin.wantsHeader = true ∧ ∀ message ∈ choice.logs, message.level ≠ .exception
  | .turn _ _ | .cancel | .close | .drop | .clientFails => True

/-- The steps of a connection. -/
def Steps (setup : Setup Columns) (connection : Connection Columns)
    (event : Option (Label Columns)) (next : Connection Columns) : Prop :=
  ∃ label, event = some label ∧ connection.step setup label = some next

/-- The steps on which the parties agree. -/
def AgreedSteps (setup : Setup Columns) (connection : Connection Columns)
    (event : Option (Label Columns)) (next : Connection Columns) : Prop :=
  ∃ label, event = some label ∧ Agrees setup connection label ∧
    connection.step setup label = some next

/-! ## The invariant -/

/-- What the server has read of the input stream and written of the response stream
of a call, from the outcome of its factory on. -/
inductive Serving (call : Nat) : ServerState Columns → Progress → Phase → Prop
  | failed : Serving call (.factoryDrain .start) .start .complete
  | draining (read : List (Batch Columns)) :
      Serving call (.factoryDrain (.body read)) .body .complete
  | opening : Serving call (.openInput call) .start .unsent
  | silent : Serving call (.loop call false) .body .unsent
  | speaking : Serving call (.loop call true) .body .unfinished
  | drain : Serving call .drain .body .complete
  | done : Serving call (.request .start) .done .complete

/-- The server has not read the whole request yet; it may still be busy with the
input stream of the call before. -/
inductive Asking (origin : Origin) (request : Batch Columns) :
    ServerState Columns → List (Origin × Token (Batch Columns)) → Prop
  | behind {call : Nat} {server : ServerState Columns} {progress : Progress} {before : Origin}
      {residue : List (Token (Batch Columns))} :
      Serving call server progress .complete → Carries .complete progress residue →
        Asking origin request server (tag before residue ++ tag origin (framed [request]))
  | schema : Asking origin request (.request (.body [])) (tag origin [.batch request, .eos])
  | batch : Asking origin request (.request (.body [request])) (tag origin [.eos])

namespace ClientStream

def sent (stream : ClientStream) : Phase := if stream.inputOpen then .unfinished else .unsent

def got (stream : ClientStream) : Progress :=
  if stream.finished then .done else if stream.outputOpen then .body else .start

end ClientStream

namespace Connection

/-- The client has nothing to read, and the server at most the rest of an input stream. -/
def Settled (connection : Connection Columns) : Prop :=
  ∃ origin call progress input, origin.part = .input ∧
    connection.requests = tag origin input ∧ connection.responses = [] ∧
      Serving call connection.server progress .complete ∧ Carries .complete progress input

/-- The server is about to read the request of a call; the client has written
`input` behind it. -/
def Asked (connection : Connection Columns) (call : Nat) (wantsHeader : Bool)
    (request : Batch Columns) (input : List (Token (Batch Columns))) : Prop :=
  connection.responses = [] ∧
    ∃ asking, Asking ⟨call, wantsHeader, .request⟩ request connection.server asking ∧
      connection.requests = asking ++ tag ⟨call, wantsHeader, .input⟩ input

/-- The server answers a stream call. -/
def Served (connection : Connection Columns) (call : Nat) (wantsHeader : Bool) (sent : Phase)
    (got : Progress) : Prop :=
  ∃ progress phase input output,
    connection.requests = tag ⟨call, wantsHeader, .input⟩ input ∧
      connection.responses = tag call output ∧ Serving call connection.server progress phase ∧
        Carries sent progress input ∧ Carries phase got output

/-- A stream call of which the client has written and read so much. -/
def Streaming (setup : Setup Columns) (connection : Connection Columns) (call : Nat)
    (wantsHeader : Bool) (sent : Phase) (got : Progress) : Prop :=
  (wantsHeader = false ∧ got = .start ∧
    ∃ request input, (∀ resolved, setup.server.dispatch resolved request = .stream) ∧
      connection.Asked call false request input ∧ Carries sent .start input) ∨
    connection.Served call wantsHeader sent got

/-- A unary call whose response the client reads. -/
def Answering (setup : Setup Columns) (connection : Connection Columns) (call : Nat)
    (reader : Reader BatchType) : Prop :=
  (reader = .start ∧ ∃ request,
    (∀ resolved, setup.server.dispatch resolved request ≠ .stream) ∧
      connection.Asked call false request []) ∨
    (connection.server = .request .start ∧ connection.requests = [] ∧
      ∃ output batches, connection.responses = tag call output ∧
        reader.consumed ++ output = framed batches)

/-- A stream call whose header the client reads. -/
def Heading (setup : Setup Columns) (connection : Connection Columns) (call : Nat)
    (reader : Reader BatchType) : Prop :=
  (reader = .start ∧ ∃ request,
    (∀ resolved, setup.server.dispatch resolved request = .stream) ∧
      connection.Asked call true request []) ∨
    (connection.requests = [] ∧ ∃ output, connection.responses = tag call output ∧
      ((connection.server = .factoryDrain .start ∧
          reader.consumed ++ output = framed [.exception]) ∨
        (connection.server = .openInput call ∧ reader = .start ∧ output = []) ∨
        (connection.server = .openInput call ∧
          ∃ logs : List LogMessage, (∀ message ∈ logs, message.level ≠ .exception) ∧
            reader.consumed ++ output = framed (logs.map LogMessage.batchType ++ [.data]))))

/-- What holds in every reachable state. -/
def Invariant (setup : Setup Columns) (connection : Connection Columns) : Prop :=
  match connection.client with
  | .aborted => True
  | .idle => connection.Settled
  | .unary call reader => connection.Answering setup call reader
  | .header call _ reader => connection.Heading setup call reader
  | .live call stream | .turn call stream =>
      connection.Streaming setup call stream.wantsHeader stream.sent stream.got
  | .turnDrain call stream =>
      connection.Streaming setup call stream.wantsHeader stream.sent .body
  | .closing call stream _ =>
      connection.Streaming setup call stream.wantsHeader .complete stream.got
  | .cancelling call stream _ =>
      connection.Streaming setup call stream.wantsHeader .unfinished stream.got

end Connection

/-! ## Reading an input stream -/

section Tags

variable {α β : Type}

theorem tag_append (origin : α) (first second : List β) :
    tag origin (first ++ second) = tag origin first ++ tag origin second :=
  List.map_append

theorem tag_eq_cons {origin : α} {tokens : List β} {item : α × β} {rest : List (α × β)}
    (same : tag origin tokens = item :: rest) :
    ∃ token tail, tokens = token :: tail ∧ item = (origin, token) ∧ rest = tag origin tail := by
  cases tokens with
  | nil => simp [tag] at same
  | cons token tail =>
      rw [tag, List.map_cons, List.cons.injEq] at same
      exact ⟨token, tail, rfl, same.1.symm, same.2.symm⟩

end Tags

theorem carries_closing {started : Bool} {got : Progress} {output : List (Token BatchType)}
    (carries : Carries (if started then .unfinished else .unsent) got output) :
    Carries .complete got (output ++ ServerState.closing started) := by
  cases started with
  | false => exact carries.open_close
  | true => exact carries.close

/-- What a turn emits goes into the response stream, opened if need be. -/
theorem carries_emitted {started : Bool} {got : Progress} {output : List (Token BatchType)}
    (outs : List BatchType)
    (carries : Carries (if started then .unfinished else .unsent) got output) :
    Carries (if started || outs ≠ [] then .unfinished else .unsent) got
      (output ++ ServerState.emitting started outs) := by
  cases started with
  | true => simpa [ServerState.emitting] using carries.write_all outs
  | false =>
      cases outs with
      | nil => simpa [ServerState.emitting] using carries
      | cons first outs =>
          have opened := carries.open_all (first :: outs)
          simpa [ServerState.emitting] using opened

/-- The loop state of a server whose response schema is out or not. -/
theorem Serving.loop (call : Nat) (started : Bool) :
    Serving call (.loop call started : ServerState Columns) .body
      (if started then .unfinished else .unsent) := by
  cases started with
  | false => exact .silent
  | true => exact .speaking

theorem Serving.waiting {call : Nat} {state : ServerState Columns} {progress : Progress}
    {phase : Phase} (serving : Serving call state progress phase) (done : progress = .done) :
    state = .request .start := by
  cases serving with
  | done => rfl
  | _ => simp at done

/-- The stream loop reads a message of the input stream. -/
theorem Serving.receive_loop (server : Server Columns) (choice : Choice Columns)
    (call origin : Nat) (started : Bool) {sent : Phase} {token : Token (Batch Columns)}
    {input : List (Token (Batch Columns))} (carries : Carries sent .body (token :: input)) :
    ∃ next progress' phase' written,
      (ServerState.loop call started).receive server choice origin token =
          (next, tag call written) ∧
        Serving call next progress' phase' ∧ Carries sent progress' input ∧
          ∀ {got output}, Carries (if started then .unfinished else .unsent) got output →
            Carries phase' got (output ++ written) := by
  rcases carries.read_body with ⟨content, rfl, rest⟩ | ⟨rfl, rfl, rfl⟩
  · by_cases cancelled : content.metadata.has Keys.cancel = true
    · refine ⟨_, _, _, ServerState.closing started, ?_, .drain, rest, fun same => carries_closing same⟩
      rw [ServerState.receive, if_pos cancelled]
    · by_cases stop : choice.stop = true
      · refine ⟨_, _, _, ServerState.emitting started choice.outs ++
          ServerState.closing (started || choice.outs ≠ []), ?_, .drain, rest, fun same => ?_⟩
        · simp only [ServerState.receive, if_neg cancelled, if_pos stop]
        · rw [← List.append_assoc]
          exact carries_closing (carries_emitted choice.outs same)
      · refine ⟨_, _, _, ServerState.emitting started choice.outs, ?_,
          .loop call (started || choice.outs ≠ []), rest,
          fun same => carries_emitted choice.outs same⟩
        simp only [ServerState.receive, if_neg cancelled, if_neg stop]
  · exact ⟨_, _, _, ServerState.closing started, rfl, .done, .done, fun same => carries_closing same⟩

/-- The server reads a message of the input stream. -/
theorem Serving.receive (server : Server Columns) (choice : Choice Columns) (origin : Nat)
    {call : Nat} {state : ServerState Columns} {sent : Phase} {progress : Progress} {phase : Phase}
    {token : Token (Batch Columns)} {input : List (Token (Batch Columns))}
    (serving : Serving call state progress phase) (carries : Carries sent progress (token :: input)) :
    ∃ next progress' phase' written,
      state.receive server choice origin token = (next, tag call written) ∧
        Serving call next progress' phase' ∧ Carries sent progress' input ∧
          (phase = .complete → phase' = .complete ∧ written = []) ∧
            ∀ {got output}, Carries phase got output → Carries phase' got (output ++ written) := by
  have quiet {got : Progress} {output : List (Token BatchType)}
      (same : Carries Phase.complete got output) : Carries Phase.complete got (output ++ []) := by
    rw [List.append_nil]
    exact same
  cases serving with
  | failed =>
      rcases carries.read_start with ⟨rfl, rest⟩
      exact ⟨_, _, _, [], rfl, .draining [], rest, fun same => ⟨same, rfl⟩, quiet⟩
  | draining read =>
      rcases carries.read_body with ⟨content, rfl, rest⟩ | ⟨rfl, rfl, rfl⟩
      · exact ⟨_, _, _, [], rfl, .draining _, rest, fun same => ⟨same, rfl⟩, quiet⟩
      · exact ⟨_, _, _, [], rfl, .done, .done, fun same => ⟨same, rfl⟩, quiet⟩
  | opening =>
      rcases carries.read_start with ⟨rfl, rest⟩
      by_cases none : choice.logs = []
      · refine ⟨_, _, _, [], ?_, .silent, rest, by simp, ?_⟩
        · rw [ServerState.receive, if_pos none]
          rfl
        · intro got output same
          rw [List.append_nil]
          exact same
      · refine ⟨_, _, _, .schema :: (choice.logs.map LogMessage.batchType).map .batch, ?_,
          .speaking, rest, by simp, fun same => same.open_all _⟩
        rw [ServerState.receive, if_neg none]
  | drain =>
      rcases carries.read_body with ⟨content, rfl, rest⟩ | ⟨rfl, rfl, rfl⟩
      · exact ⟨_, _, _, [], rfl, .drain, rest, fun same => ⟨same, rfl⟩, quiet⟩
      · exact ⟨_, _, _, [], rfl, .done, .done, fun same => ⟨same, rfl⟩, quiet⟩
  | done => exact absurd carries Carries.not_read_done
  | silent =>
      rcases Serving.receive_loop server choice call origin false carries with
        ⟨next, progress', phase', written, received, serving, rest, grows⟩
      exact ⟨next, progress', phase', written, received, serving, rest, by simp, grows⟩
  | speaking =>
      rcases Serving.receive_loop server choice call origin true carries with
        ⟨next, progress', phase', written, received, serving, rest, grows⟩
      exact ⟨next, progress', phase', written, received, serving, rest, by simp, grows⟩

/-! ## Server steps -/

namespace Connection

variable {setup : Setup Columns} {connection : Connection Columns} {choice : Choice Columns}
  {origin : Origin} {token : Token (Batch Columns)} {rest : List (Origin × Token (Batch Columns))}
  {call : Nat} {wantsHeader : Bool}

/-- The connection after the server read a message. -/
def received (setup : Setup Columns) (connection : Connection Columns) (choice : Choice Columns)
    (origin : Origin) (token : Token (Batch Columns))
    (rest : List (Origin × Token (Batch Columns))) : Connection Columns :=
  { connection with
    server := (connection.server.receive setup.server choice origin.call token).1
    requests := rest
    responses := connection.responses ++
      (connection.server.receive setup.server choice origin.call token).2 }

theorem step_serverRead (head : connection.requests = (origin, token) :: rest) :
    connection.step setup (.serverRead choice) =
      some (connection.received setup choice origin token rest) := by
  rw [step, head]
  rfl

theorem Settled.received (settled : connection.Settled)
    (head : connection.requests = (origin, token) :: rest) :
    (connection.received setup choice origin token rest).Settled := by
  rcases settled with ⟨source, call, progress, input, part, requests, responses, serving, carries⟩
  rw [head] at requests
  rcases tag_eq_cons requests.symm with ⟨first, tail, rfl, item, rest⟩
  rw [Prod.mk.injEq] at item
  rcases item with ⟨rfl, rfl⟩
  rcases Serving.receive setup.server choice origin.call serving carries with ⟨next, progress', phase', written, step, serving', left, silent, -⟩
  rcases silent rfl with ⟨rfl, rfl⟩
  refine ⟨origin, call, progress', tail, part, rest, ?_, ?_, left⟩
  · simp [Connection.received, step, responses, tag]
  · simp only [Connection.received, step]
    exact serving'

theorem Served.received {sent : Phase} {got : Progress}
    (served : connection.Served call wantsHeader sent got)
    (head : connection.requests = (origin, token) :: rest) :
    (connection.received setup choice origin token rest).Served call wantsHeader sent got := by
  rcases served with ⟨progress, phase, input, output, requests, responses, serving, inflow, outflow⟩
  rw [head] at requests
  rcases tag_eq_cons requests.symm with ⟨first, tail, rfl, item, rest⟩
  rw [Prod.mk.injEq] at item
  rcases item with ⟨rfl, rfl⟩
  rcases Serving.receive setup.server choice call serving inflow with ⟨next, progress', phase', written, step, serving', left, -, grows⟩
  refine ⟨progress', phase', tail, output ++ written, rest, ?_, ?_, left, grows outflow⟩
  · simp only [Connection.received, step, responses, tag_append]
  · simp only [Connection.received, step]
    exact serving'

/-- The server reads a message of the request, or of the input stream before it. -/
theorem Asked.received {request : Batch Columns} {input : List (Token (Batch Columns))}
    (asked : connection.Asked call wantsHeader request input)
    (head : connection.requests = (origin, token) :: rest) :
    (connection.received setup choice origin token rest).Asked call wantsHeader request input ∨
      (connection.server = .request (.body [request]) ∧
        origin = ⟨call, wantsHeader, .request⟩ ∧ token = .eos ∧
          rest = tag ⟨call, wantsHeader, .input⟩ input) := by
  rcases asked with ⟨responses, asking, state, requests⟩
  generalize current : connection.server = server at state
  rw [head] at requests
  cases state with
  | @behind old _ progress before residue serving carries =>
      refine .inl ?_
      cases residue with
      | nil =>
          -- The server is back at reading requests.
          have waiting : server = .request .start := serving.waiting carries.done_of_nil
          rw [tag, List.map_nil, List.nil_append, tag, framed, List.map_cons, List.cons_append,
            List.cons.injEq, Prod.mk.injEq] at requests
          rcases requests with ⟨⟨rfl, rfl⟩, rfl⟩
          refine ⟨?_, _, ?_, rfl⟩
          · simp [Connection.received, current, waiting, ServerState.receive, responses]
          · simp only [Connection.received, current, waiting, ServerState.receive]
            exact .schema
      | cons first residue =>
          rw [tag, List.map_cons, List.cons_append, List.cons_append, List.cons.injEq,
            Prod.mk.injEq] at requests
          rcases requests with ⟨⟨rfl, rfl⟩, rfl⟩
          rcases Serving.receive setup.server choice origin.call serving carries with
            ⟨next, progress', phase', written, step, serving', left, silent, -⟩
          rcases silent rfl with ⟨rfl, rfl⟩
          refine ⟨?_, tag origin residue ++ tag ⟨call, wantsHeader, .request⟩ (framed [request]),
            ?_, rfl⟩
          · simp [Connection.received, current, step, responses, tag]
          · simp only [Connection.received, current, step]
            exact .behind serving' left
  | schema =>
      refine .inl ?_
      rw [tag, List.map_cons, List.cons_append, List.cons.injEq, Prod.mk.injEq] at requests
      rcases requests with ⟨⟨rfl, rfl⟩, rfl⟩
      refine ⟨?_, _, ?_, rfl⟩
      · simp [Connection.received, current, ServerState.receive, responses]
      · simp only [Connection.received, current, ServerState.receive, List.nil_append]
        exact .batch
  | batch =>
      rw [tag, List.map_cons, List.cons_append, List.cons.injEq, Prod.mk.injEq] at requests
      rcases requests with ⟨⟨rfl, rfl⟩, rfl⟩
      exact .inr ⟨rfl, rfl, rfl, rfl⟩

/-- The request of a stream call is read: its factory runs. -/
theorem receive_stream (call : Nat) {request : Batch Columns}
    (streams : setup.server.dispatch choice.resolved request = .stream) :
    (ServerState.request (.body [request])).receive setup.server choice call .eos =
      match choice.factory with
      | .error => (.factoryDrain .start, tag call (framed [.exception]))
      | .ok true =>
          (.openInput call, tag call (framed (choice.logs.map LogMessage.batchType ++ [.data])))
      | .ok false => (.openInput call, []) := by
  cases made : choice.factory with
  | error => simp only [ServerState.receive, streams, made]
  | ok headed => cases headed <;> simp only [ServerState.receive, streams, made]

/-- The request of any other call is read: the server answers it. -/
theorem receive_other (call : Nat) {request : Batch Columns}
    (other : setup.server.dispatch choice.resolved request ≠ .stream) :
    ∃ batches, (ServerState.request (.body [request])).receive setup.server choice call .eos =
      (.request .start, tag call (framed batches)) := by
  rw [ServerState.receive]
  split
  next => exact ⟨_, rfl⟩
  next => exact ⟨_, rfl⟩
  next => exact ⟨_, rfl⟩
  next streams => exact absurd streams other

theorem Streaming.received {sent : Phase} {got : Progress}
    (streaming : connection.Streaming setup call wantsHeader sent got)
    (head : connection.requests = (origin, token) :: rest)
    (agrees : Agrees setup connection (.serverRead choice)) :
    (connection.received setup choice origin token rest).Streaming setup call wantsHeader sent
      got := by
  rcases streaming with ⟨rfl, rfl, request, input, streams, asked, carries⟩ | served
  · rcases asked.received head with asked' | ⟨current, rfl, rfl, rfl⟩
    · exact .inl ⟨rfl, rfl, request, input, streams, asked', carries⟩
    · right
      have received := receive_stream call (streams choice.resolved)
      have responses := asked.1
      cases factory : choice.factory with
      | error =>
          rw [factory] at received
          refine ⟨.start, .complete, input, framed [.exception], rfl, ?_, ?_, carries, .complete _⟩
          · simp only [Connection.received, current, received, responses, List.nil_append]
          · simp only [Connection.received, current, received]
            exact .failed
      | ok header =>
          cases header with
          | true =>
              have wanted := (agrees request [] _ _ current head (streams _) factory).1
              simp at wanted
          | false =>
              rw [factory] at received
              refine ⟨.start, .unsent, input, [], rfl, ?_, ?_, carries, .unsent⟩
              · simp only [Connection.received, current, received, responses, List.nil_append]
                rfl
              · simp only [Connection.received, current, received]
                exact .opening
  · exact .inr (served.received head)

theorem Answering.received {reader : Reader BatchType}
    (answering : connection.Answering setup call reader)
    (head : connection.requests = (origin, token) :: rest) :
    (connection.received setup choice origin token rest).Answering setup call reader := by
  rcases answering with ⟨rfl, request, other, asked⟩ | ⟨-, empty, -⟩
  · rcases asked.received head with asked' | ⟨current, rfl, rfl, rfl⟩
    · exact .inl ⟨rfl, request, other, asked'⟩
    · rcases receive_other call (other choice.resolved) with ⟨batches, received⟩
      have responses := asked.1
      refine .inr ⟨?_, rfl, framed batches, batches, ?_, rfl⟩
      · simp only [Connection.received, current, received]
      · simp only [Connection.received, current, received, responses, List.nil_append]
  · rw [empty] at head
    simp at head

theorem Heading.received {reader : Reader BatchType}
    (heading : connection.Heading setup call reader)
    (head : connection.requests = (origin, token) :: rest)
    (agrees : Agrees setup connection (.serverRead choice)) :
    (connection.received setup choice origin token rest).Heading setup call reader := by
  rcases heading with ⟨rfl, request, streams, asked⟩ | ⟨empty, -⟩
  · rcases asked.received head with asked' | ⟨current, rfl, rfl, rfl⟩
    · exact .inl ⟨rfl, request, streams, asked'⟩
    · have received := receive_stream call (streams choice.resolved)
      have responses := asked.1
      right
      cases factory : choice.factory with
      | error =>
          rw [factory] at received
          refine ⟨rfl, framed [.exception], ?_, .inl ⟨?_, rfl⟩⟩
          · simp only [Connection.received, current, received, responses, List.nil_append]
          · simp only [Connection.received, current, received]
      | ok header =>
          rw [factory] at received
          cases header with
          | true =>
              have calm := (agrees request [] _ _ current head (streams _) factory).2
              refine ⟨rfl, framed (choice.logs.map LogMessage.batchType ++ [.data]), ?_,
                .inr (.inr ⟨?_, choice.logs, calm, rfl⟩)⟩
              · simp only [Connection.received, current, received, responses, List.nil_append]
              · simp only [Connection.received, current, received]
          | false =>
              refine ⟨rfl, [], ?_, .inr (.inl ⟨?_, rfl, rfl⟩)⟩
              · simp only [Connection.received, current, received, responses, List.nil_append]
                rfl
              · simp only [Connection.received, current, received]
  · rw [empty] at head
    simp at head

/-- A step of the server keeps the invariant. -/
theorem Invariant.serverRead {next : Connection Columns} (invariant : connection.Invariant setup)
    (agrees : Agrees setup connection (.serverRead choice))
    (step : connection.step setup (.serverRead choice) = some next) : next.Invariant setup := by
  cases requests : connection.requests with
  | nil => simp [Connection.step, requests] at step
  | cons item rest =>
      rcases item with ⟨origin, token⟩
      rw [step_serverRead requests, Option.some.injEq] at step
      rw [← step]
      have client : (connection.received setup choice origin token rest).client =
          connection.client := rfl
      rw [Invariant] at invariant ⊢
      rw [client]
      split
      next => trivial
      next idle =>
        rw [idle] at invariant
        exact Settled.received invariant requests
      next unary =>
        rw [unary] at invariant
        exact Answering.received invariant requests
      next header =>
        rw [header] at invariant
        exact Heading.received invariant requests agrees
      next live =>
        rw [live] at invariant
        exact Streaming.received invariant requests agrees
      next turn =>
        rw [turn] at invariant
        exact Streaming.received invariant requests agrees
      next drain =>
        rw [drain] at invariant
        exact Streaming.received invariant requests agrees
      next closing =>
        rw [closing] at invariant
        exact Streaming.received invariant requests agrees
      next cancelling =>
        rw [cancelling] at invariant
        exact Streaming.received invariant requests agrees

end Connection

end VgiRpc.Raw
