import VgiRpc.Raw.Agreement

/-!
# Lockstep on a raw connection

When the client is idle again, nothing of the finished call may be left on the
connection.  This holds as long as the client and the server agree on what kind of
call they are in.  It fails for stream calls that the server refuses before their
factory runs: the server answers and goes back to reading requests, and the input
stream that the client still writes is read as a request.
-/

namespace VgiRpc.Raw

open VgiRpc.Cpp VgiRpc.Wire VgiRpc.Lib

variable {Columns : Type}

namespace Connection

variable {setup : Setup Columns} {connection : Connection Columns} {choice : Choice Columns}
  {origin : Origin} {token : Token (Batch Columns)} {rest : List (Origin × Token (Batch Columns))}
  {call : Nat} {wantsHeader : Bool}

/-! ## Client steps -/

theorem carries_opening_batch {stream : ClientStream} {progress : Progress}
    {tokens : List (Token (Batch Columns))} (content : Batch Columns)
    (carries : Carries stream.sent progress tokens) :
    Carries .unfinished progress (tokens ++ (stream.opening ++ [.batch content])) := by
  rw [ClientStream.sent] at carries
  rw [ClientStream.opening]
  cases opened : stream.inputOpen with
  | true =>
      rw [opened] at carries
      exact carries.write_all [content]
  | false =>
      rw [opened] at carries
      exact carries.open_all [content]

theorem carries_opening_eos {stream : ClientStream} {progress : Progress}
    {tokens : List (Token (Batch Columns))} (carries : Carries stream.sent progress tokens) :
    Carries .complete progress (tokens ++ (stream.opening ++ [.eos])) := by
  rw [ClientStream.sent] at carries
  rw [ClientStream.opening]
  cases opened : stream.inputOpen with
  | true =>
      rw [opened] at carries
      exact carries.close
  | false =>
      rw [opened] at carries
      exact carries.open_close

theorem send_nil (connection : Connection Columns) (origin : Origin) :
    connection.send origin [] = connection := by
  simp [send, tag]

/-- The client writes into the input stream. -/
theorem Streaming.send {sent sent' : Phase} {got : Progress}
    {written : List (Token (Batch Columns))}
    (streaming : connection.Streaming setup call wantsHeader sent got)
    (grows : ∀ {progress tokens}, Carries sent progress tokens →
      Carries sent' progress (tokens ++ written)) :
    (connection.send ⟨call, wantsHeader, .input⟩ written).Streaming setup call wantsHeader sent'
      got := by
  rcases streaming with ⟨rfl, rfl, request, input, streams, asked, carries⟩ | served
  · rcases asked with ⟨responses, asking, state, requests⟩
    refine .inl ⟨rfl, rfl, request, input ++ written, streams, ⟨responses, asking, state, ?_⟩,
      grows carries⟩
    rw [Connection.send, requests, tag_append, List.append_assoc]
  · rcases served with ⟨progress, phase, input, output, requests, responses, serving, inflow,
      outflow⟩
    refine .inr ⟨progress, phase, input ++ written, output, ?_, responses, serving, grows inflow,
      outflow⟩
    rw [Connection.send, requests, tag_append]

/-- The input stream is complete and the response read to its end: the call is over. -/
theorem Streaming.settled (streaming : connection.Streaming setup call wantsHeader .complete .done) :
    connection.Settled := by
  rcases streaming with ⟨-, impossible, -⟩ | served
  · simp at impossible
  · rcases served with ⟨progress, phase, input, output, requests, responses, serving, inflow,
      outflow⟩
    cases outflow with
    | done => exact ⟨_, call, progress, input, rfl, requests, responses, serving, inflow⟩

/-- The client reads a message of the response stream. -/
theorem Streaming.read {sent : Phase} {got : Progress} {source : Nat} {message : Token BatchType}
    {later : List (Nat × Token BatchType)}
    (streaming : connection.Streaming setup call wantsHeader sent got)
    (head : connection.responses = (source, message) :: later) :
    (got = .start ∧ message = .schema ∧
        { connection with responses := later }.Streaming setup call wantsHeader sent .body) ∨
      (got = .body ∧ (∃ content, message = .batch content) ∧
        { connection with responses := later }.Streaming setup call wantsHeader sent .body) ∨
      (got = .body ∧ message = .eos ∧
        { connection with responses := later }.Streaming setup call wantsHeader sent .done) := by
  rcases streaming with ⟨-, -, request, input, -, asked, -⟩ | served
  · rw [asked.1] at head
    simp at head
  · rcases served with ⟨progress, phase, input, output, requests, responses, serving, inflow,
      outflow⟩
    rw [head] at responses
    rcases tag_eq_cons responses.symm with ⟨token, tail, rfl, item, rfl⟩
    rw [Prod.mk.injEq] at item
    rcases item with ⟨rfl, rfl⟩
    cases got with
    | start =>
        rcases outflow.read_start with ⟨rfl, rest⟩
        exact .inl ⟨rfl, rfl, .inr ⟨progress, phase, input, tail, requests, rfl, serving, inflow,
          rest⟩⟩
    | body =>
        rcases outflow.read_body with ⟨content, rfl, rest⟩ | ⟨rfl, rfl, rfl⟩
        · exact .inr (.inl ⟨rfl, ⟨content, rfl⟩, .inr ⟨progress, phase, input, tail, requests, rfl,
            serving, inflow, rest⟩⟩)
        · exact .inr (.inr ⟨rfl, rfl, .inr ⟨progress, .complete, input, [], requests, rfl, serving,
            inflow, .done⟩⟩)
    | done => exact absurd outflow Carries.not_read_done

theorem got_start {stream : ClientStream} (got : stream.got = .start) :
    stream.finished = false ∧ stream.outputOpen = false := by
  rw [ClientStream.got] at got
  split at got
  next => simp at got
  next unfinished =>
    split at got
    next => simp at got
    next closed => simp [unfinished, closed]

theorem got_body {stream : ClientStream} (got : stream.got = .body) :
    stream.finished = false ∧ stream.outputOpen = true := by
  rw [ClientStream.got] at got
  split at got
  next => simp at got
  next unfinished =>
    split at got
    next opened => simp [unfinished, opened]
    next => simp at got

theorem got_opened {stream : ClientStream} (unfinished : stream.finished = false) :
    ClientStream.got { stream with outputOpen := true } = .body := by
  simp [ClientStream.got, unfinished]

/-- A client that reads `turn` messages keeps the invariant. -/
theorem Invariant.turnRead {raises : Bool} {stream : ClientStream} {source : Nat}
    {message : Token BatchType} {later : List (Nat × Token BatchType)} {next : Connection Columns}
    (client : connection.client = .turn call stream) (invariant : connection.Invariant setup)
    (head : connection.responses = (source, message) :: later)
    (step : { connection with responses := later }.accept raises message = some next) :
    next.Invariant setup := by
  have streaming : connection.Streaming setup call stream.wantsHeader stream.sent stream.got := by
    rw [Invariant, client] at invariant
    exact invariant
  rw [accept] at step
  simp only [client, ClientState.reading, Option.some.injEq] at step
  rw [← step]
  rcases streaming.read head with ⟨got, rfl, after⟩ | ⟨got, ⟨content, rfl⟩, after⟩ | ⟨got, rfl, after⟩
  · rcases got_start got with ⟨unfinished, closed⟩
    simp only [ClientState.receive, closed, Bool.false_eq_true, if_false, send_nil, Invariant,
      got_opened unfinished]
    exact after
  · rcases got_body got with ⟨unfinished, opened⟩
    rw [← got] at after
    simp only [ClientState.receive, opened, Bool.true_eq_false, if_false]
    cases content with
    | log =>
        cases raises with
        | true =>
            simp only [if_true, send_nil, Invariant]
            exact after
        | false =>
            simp only [Bool.false_eq_true, if_false, send_nil, Invariant]
            exact after
    | exception =>
        simp only [send_nil, Invariant]
        rw [← got]
        exact after
    | stateToken => trivial
    | data =>
        simp only [send_nil, Invariant]
        exact after
    | shmPointer =>
        simp only [send_nil, Invariant]
        exact after
    | externalPointer =>
        simp only [send_nil, Invariant]
        exact after
  · rcases got_body got with ⟨unfinished, opened⟩
    simp only [ClientState.receive, opened, Bool.true_eq_false, if_false, send_nil, Invariant]
    exact after

theorem Invariant.turnDrainRead {raises : Bool} {stream : ClientStream} {source : Nat}
    {message : Token BatchType} {later : List (Nat × Token BatchType)} {next : Connection Columns}
    (client : connection.client = .turnDrain call stream) (invariant : connection.Invariant setup)
    (head : connection.responses = (source, message) :: later)
    (step : { connection with responses := later }.accept raises message = some next) :
    next.Invariant setup := by
  have streaming : connection.Streaming setup call stream.wantsHeader stream.sent .body := by
    rw [Invariant, client] at invariant
    exact invariant
  rw [accept] at step
  simp only [client, ClientState.reading, Option.some.injEq] at step
  rw [← step]
  rcases streaming.read head with ⟨got, -⟩ | ⟨-, ⟨content, rfl⟩, after⟩ | ⟨-, rfl, after⟩
  · simp at got
  · simp only [ClientState.receive, send_nil, Invariant]
    exact after
  · simp only [ClientState.receive, send_nil, Invariant]
    exact after

/-- `drain_output` reads a message. -/
theorem Streaming.drainOutput {stream : ClientStream} {sent : Phase} {source : Nat}
    {message : Token BatchType} {later : List (Nat × Token BatchType)}
    (streaming : connection.Streaming setup call wantsHeader sent stream.got)
    (raises pending : Bool) (head : connection.responses = (source, message) :: later) :
    match ClientState.drainOutput raises stream pending message with
    | .inl none => True
    | .inl (some (drained, _)) => drained.wantsHeader = stream.wantsHeader ∧
        { connection with responses := later }.Streaming setup call wantsHeader sent drained.got
    | .inr _ => { connection with responses := later }.Streaming setup call wantsHeader sent
        .done := by
  rcases streaming.read head with ⟨got, rfl, after⟩ | ⟨got, ⟨content, rfl⟩, after⟩ |
    ⟨got, rfl, after⟩
  · rcases got_start got with ⟨unfinished, closed⟩
    simp only [ClientState.drainOutput, closed, Bool.false_eq_true, if_false,
      got_opened unfinished, true_and]
    exact after
  · rcases got_body got with ⟨unfinished, opened⟩
    rw [← got] at after
    simp only [ClientState.drainOutput, opened, Bool.true_eq_false, false_or]
    split
    next => trivial
    next same =>
      split at same
      next => simp at same
      next =>
        simp only [Sum.inl.injEq, Option.some.injEq, Prod.mk.injEq] at same
        rw [← same.1]
        exact ⟨rfl, after⟩
    next same => split at same <;> simp at same
  · rcases got_body got with ⟨unfinished, opened⟩
    simp only [ClientState.drainOutput, opened, if_true]
    exact after

theorem Invariant.closingRead {raises pending : Bool} {stream : ClientStream} {source : Nat}
    {message : Token BatchType} {later : List (Nat × Token BatchType)} {next : Connection Columns}
    (client : connection.client = .closing call stream pending)
    (invariant : connection.Invariant setup)
    (head : connection.responses = (source, message) :: later)
    (step : { connection with responses := later }.accept raises message = some next) :
    next.Invariant setup := by
  have streaming : connection.Streaming setup call stream.wantsHeader .complete stream.got := by
    rw [Invariant, client] at invariant
    exact invariant
  have drained := streaming.drainOutput raises pending head
  rw [accept] at step
  simp only [client, ClientState.reading, Option.some.injEq, ClientState.receive] at step
  rw [← step]
  split at drained
  next failed =>
    simp only [failed]
    trivial
  next after pending going =>
    simp only [going, send_nil, Invariant]
    rw [drained.1]
    exact drained.2
  next pending ended =>
    cases pending with
    | true =>
        simp only [ended]
        trivial
    | false =>
        simp only [ended, send_nil, Invariant]
        exact drained.settled

theorem Invariant.cancellingRead {raises pending : Bool} {stream : ClientStream} {source : Nat}
    {message : Token BatchType} {later : List (Nat × Token BatchType)} {next : Connection Columns}
    (client : connection.client = .cancelling call stream pending)
    (invariant : connection.Invariant setup)
    (head : connection.responses = (source, message) :: later)
    (step : { connection with responses := later }.accept raises message = some next) :
    next.Invariant setup := by
  have streaming : connection.Streaming setup call stream.wantsHeader .unfinished stream.got := by
    rw [Invariant, client] at invariant
    exact invariant
  have drained := streaming.drainOutput raises pending head
  rw [accept] at step
  simp only [client, ClientState.reading, Option.some.injEq, ClientState.receive] at step
  rw [← step]
  split at drained
  next failed =>
    simp only [failed]
    trivial
  next after pending going =>
    simp only [going, send_nil, Invariant]
    rw [drained.1]
    exact drained.2
  next pending ended =>
    cases pending with
    | true =>
        simp only [ended]
        trivial
    | false =>
        simp only [ended, Invariant]
        exact (drained.send fun carries => carries.close).settled

theorem Invariant.unaryRead {raises : Bool} {reader : Reader BatchType} {source : Nat}
    {message : Token BatchType} {later : List (Nat × Token BatchType)} {next : Connection Columns}
    (client : connection.client = .unary call reader) (invariant : connection.Invariant setup)
    (head : connection.responses = (source, message) :: later)
    (step : { connection with responses := later }.accept raises message = some next) :
    next.Invariant setup := by
  have answering : connection.Answering setup call reader := by
    rw [Invariant, client] at invariant
    exact invariant
  rw [accept] at step
  simp only [client, ClientState.reading, Option.some.injEq] at step
  rw [← step]
  rcases answering with ⟨-, request, -, asked⟩ | ⟨server, requests, output, batches, responses, whole⟩
  · rw [asked.1] at head
    simp at head
  · rw [head] at responses
    rcases tag_eq_cons responses.symm with ⟨token, tail, rfl, item, rfl⟩
    rw [Prod.mk.injEq] at item
    rcases item with ⟨rfl, rfl⟩
    rcases Reader.next_of_framed whole with ⟨rfl, rfl, rest⟩ | ⟨read, content, rfl, rfl, rest⟩ |
      ⟨rfl, rfl, rfl⟩
    · simp only [ClientState.receive, send_nil, Invariant]
      exact .inr ⟨server, requests, tail, batches, rfl, rest⟩
    · simp only [ClientState.receive, send_nil, Invariant]
      exact .inr ⟨server, requests, tail, batches, rfl, rest⟩
    · have settled : ({ connection with responses := [] } : Connection Columns).Settled :=
        ⟨⟨source, false, .input⟩, source, .done, [], rfl, requests, rfl, by rw [server]; exact .done,
          .done⟩
      simp only [ClientState.receive]
      cases readSubstream raises false batches with
      | value =>
          simp only [send_nil, Invariant]
          exact settled
      | raised =>
          simp only [send_nil, Invariant]
          exact settled
      | failed => trivial

/-- A header behind log messages that are no errors is read. -/
theorem readSubstream_header {logs : List LogMessage}
    (calm : ∀ message ∈ logs, message.level ≠ .exception) :
    readSubstream false false (logs.map LogMessage.batchType ++ [.data]) = .value := by
  induction logs with
  | nil => rfl
  | cons message logs ih =>
      rw [List.forall_mem_cons] at calm
      rw [List.map_cons, List.cons_append, LogMessage.batchType_eq, if_neg calm.1, readSubstream]
      exact ih calm.2

theorem Invariant.headerRead {kind : StreamKind} {reader : Reader BatchType} {source : Nat}
    {message : Token BatchType} {later : List (Nat × Token BatchType)} {next : Connection Columns}
    (client : connection.client = .header call kind reader)
    (invariant : connection.Invariant setup)
    (head : connection.responses = (source, message) :: later)
    (step : { connection with responses := later }.accept false message = some next) :
    next.Invariant setup := by
  have heading : connection.Heading setup call reader := by
    rw [Invariant, client] at invariant
    exact invariant
  rw [accept] at step
  simp only [client, ClientState.reading, Option.some.injEq] at step
  rw [← step]
  rcases heading with ⟨-, request, -, asked⟩ | ⟨requests, output, responses, cases⟩
  · rw [asked.1] at head
    simp at head
  · rw [head] at responses
    rcases tag_eq_cons responses.symm with ⟨token, tail, rfl, item, rfl⟩
    rw [Prod.mk.injEq] at item
    rcases item with ⟨rfl, rfl⟩
    rcases cases with ⟨server, whole⟩ | ⟨-, -, empty⟩ | ⟨server, logs, calm, whole⟩
    · rcases Reader.next_of_framed whole with ⟨rfl, rfl, rest⟩ |
        ⟨read, content, rfl, rfl, rest⟩ | ⟨rfl, rfl, rfl⟩
      · simp only [ClientState.receive, send_nil, Invariant]
        exact .inr ⟨requests, tail, rfl, .inl ⟨server, rest⟩⟩
      · simp only [ClientState.receive, send_nil, Invariant]
        exact .inr ⟨requests, tail, rfl, .inl ⟨server, rest⟩⟩
      · -- A factory error: the client completes the input stream that the server drains.
        simp only [ClientState.receive, readSubstream, Invariant]
        refine ⟨⟨source, true, .input⟩, source, .start, framed [], rfl, ?_, rfl, ?_, .complete []⟩
        · simp only [Connection.send, requests, List.nil_append]
          rfl
        · simp only [Connection.send, server]
          exact .failed
    · simp at empty
    · rcases Reader.next_of_framed whole with ⟨rfl, rfl, rest⟩ |
        ⟨read, content, rfl, rfl, rest⟩ | ⟨rfl, rfl, rfl⟩
      · simp only [ClientState.receive, send_nil, Invariant]
        exact .inr ⟨requests, tail, rfl, .inr (.inr ⟨server, logs, calm, rest⟩)⟩
      · simp only [ClientState.receive, send_nil, Invariant]
        exact .inr ⟨requests, tail, rfl, .inr (.inr ⟨server, logs, calm, rest⟩)⟩
      · simp only [ClientState.receive, readSubstream_header calm, send_nil, Invariant]
        refine .inr ⟨.start, .unsent, [], [], requests, rfl, ?_, .unsent, .unsent⟩
        simp only [server]
        exact .opening

theorem serving_not_ended {progress : Progress} {phase : Phase}
    (serving : Serving call (connection.server) progress phase) : connection.server ≠ .ended := by
  intro ended
  rw [ended] at serving
  cases serving

theorem Asked.not_ended {request : Batch Columns} {input : List (Token (Batch Columns))}
    (asked : connection.Asked call wantsHeader request input) : connection.server ≠ .ended := by
  rcases asked with ⟨-, asking, state, -⟩
  intro ended
  rw [ended] at state
  cases state with
  | behind serving _ => cases serving

theorem Streaming.not_ended {sent : Phase} {got : Progress}
    (streaming : connection.Streaming setup call wantsHeader sent got) :
    connection.server ≠ .ended := by
  rcases streaming with ⟨-, -, request, input, -, asked, -⟩ | served
  · exact asked.not_ended
  · rcases served with ⟨progress, phase, input, output, -, -, serving, -⟩
    exact serving_not_ended serving

/-- The server is there as long as a client reads. -/
theorem Invariant.not_ended (invariant : connection.Invariant setup)
    (reading : connection.client.reading ≠ none) : connection.server ≠ .ended := by
  rw [Invariant] at invariant
  split at invariant
  next client => simp [client, ClientState.reading] at reading
  next client => simp [client, ClientState.reading] at reading
  next =>
    rcases invariant with ⟨-, request, -, asked⟩ | ⟨server, -⟩
    · exact asked.not_ended
    · rw [server]
      simp
  next =>
    rcases invariant with ⟨-, request, -, asked⟩ | ⟨-, output, -, cases⟩
    · exact asked.not_ended
    · rcases cases with ⟨server, -⟩ | ⟨server, -⟩ | ⟨server, -⟩
      · rw [server]
        simp
      · rw [server]
        simp
      · rw [server]
        simp
  all_goals exact Streaming.not_ended invariant

/-- The client reads a message. -/
theorem Invariant.clientRead {raises : Bool} {next : Connection Columns}
    (invariant : connection.Invariant setup)
    (agrees : Agrees setup connection (.clientRead raises))
    (step : connection.step setup (.clientRead raises) = some next) : next.Invariant setup := by
  rw [Connection.step] at step
  split at step
  next source message later responses =>
    cases client : connection.client with
    | idle => simp [accept, client, ClientState.reading] at step
    | live call stream => simp [accept, client, ClientState.reading] at step
    | aborted => simp [accept, client, ClientState.reading] at step
    | unary call reader => exact invariant.unaryRead client responses step
    | header call kind reader =>
        rw [agrees call kind reader client] at step
        exact invariant.headerRead client responses step
    | turn call stream => exact invariant.turnRead client responses step
    | turnDrain call stream => exact invariant.turnDrainRead client responses step
    | closing call stream pending => exact invariant.closingRead client responses step
    | cancelling call stream pending => exact invariant.cancellingRead client responses step
  next _ ended =>
    exfalso
    by_cases reading : connection.client.reading = none
    · simp [accept, reading] at step
    · exact invariant.not_ended reading ended
  next => simp at step

/-- A call begins: its request goes out behind the rest of the last input stream. -/
theorem Settled.begin (settled : connection.Settled) (wantsHeader : Bool)
    (request : Batch Columns) (client : ClientState) :
    (connection.begin wantsHeader request client).Asked connection.nextCall wantsHeader request
      [] := by
  rcases settled with ⟨origin, call, progress, input, -, requests, responses, serving, carries⟩
  refine ⟨responses, tag origin input ++
    tag ⟨connection.nextCall, wantsHeader, .request⟩ (framed [request]), ?_, ?_⟩
  · exact .behind serving carries
  · simp only [Connection.begin, Connection.send, requests, tag, List.map_nil, List.append_nil]

/-- Every step on which the parties agree keeps the invariant. -/
theorem Invariant.step {label : Label Columns} {next : Connection Columns}
    (invariant : connection.Invariant setup) (agrees : Agrees setup connection label)
    (step : connection.step setup label = some next) : next.Invariant setup := by
  cases label with
  | serverRead choice => exact invariant.serverRead agrees step
  | clientRead raises => exact invariant.clientRead agrees step
  | callUnary params =>
      rw [Connection.step] at step
      split at step
      next request idle asked =>
        rw [Option.some.injEq] at step
        rw [← step]
        rw [Invariant, idle] at invariant
        exact .inl ⟨rfl, request, agrees request asked, Settled.begin invariant _ _ _⟩
      next => simp at step
  | openStream kind wantsHeader params =>
      rw [Connection.step] at step
      split at step
      next request idle asked =>
        rw [Option.some.injEq] at step
        rw [← step]
        rw [Invariant, idle] at invariant
        have begun := Settled.begin invariant wantsHeader request
          (if wantsHeader then .header connection.nextCall kind .start
            else .live connection.nextCall (.fresh kind false))
        cases wantsHeader with
        | true => exact .inl ⟨rfl, request, agrees request asked, begun⟩
        | false => exact .inl ⟨rfl, rfl, request, [], agrees request asked, begun, .unsent⟩
      next => simp at step
  | turn kind outbound =>
      rw [Connection.step] at step
      split at step
      next call stream live =>
        split at step
        next =>
          rw [Option.some.injEq] at step
          rw [← step]
          rw [Invariant, live] at invariant
          exact Streaming.send invariant fun carries => carries_opening_batch outbound carries
        next => simp at step
      next => simp at step
  | cancel =>
      rw [Connection.step] at step
      split at step
      next call stream live =>
        rw [Invariant, live] at invariant
        split at step
        next finished =>
          rw [Option.some.injEq] at step
          rw [← step]
          have sent := Streaming.send invariant fun carries => carries_opening_eos carries
          rw [ClientStream.got, if_pos finished] at sent
          exact sent.settled
        next =>
          rw [Option.some.injEq] at step
          rw [← step]
          exact Streaming.send invariant fun carries => carries_opening_batch _ carries
      next => simp at step
  | close =>
      rw [Connection.step] at step
      split at step
      next call stream live =>
        rw [Option.some.injEq] at step
        rw [← step]
        rw [Invariant, live] at invariant
        have sent := Streaming.send invariant fun carries => carries_opening_eos carries
        by_cases finished : stream.finished = true
        · rw [ClientStream.got, if_pos finished] at sent
          simp only [finished, if_true, Invariant]
          exact sent.settled
        · simp only [finished, Bool.false_eq_true, if_false, Invariant]
          exact sent
      next => simp at step
  | drop =>
      rw [Connection.step] at step
      split at step
      next =>
        rw [Option.some.injEq] at step
        rw [← step]
        trivial
      next => simp at step
  | clientFails =>
      have gone : next = { connection with client := .aborted } := by
        rw [Connection.step] at step
        split at step <;> first | exact (Option.some.inj step).symm | simp at step
      rw [gone]
      trivial

/-! ## Lockstep from the invariant -/

theorem Settled.catchesUp (settled : connection.Settled) : connection.CatchesUp setup := by
  intro choices
  induction choices generalizing connection with
  | nil =>
      intro length
      rcases settled with ⟨origin, call, progress, input, -, requests, responses, serving, carries⟩
      have empty : connection.requests = [] := List.length_eq_zero_iff.mp length.symm
      have nothing : input = [] := by
        rw [empty] at requests
        exact List.map_eq_nil_iff.mp requests.symm
      rw [nothing] at carries
      exact ⟨connection, rfl, serving.waiting carries.done_of_nil, empty, responses⟩
  | cons choice choices ih =>
      intro length
      cases requests : connection.requests with
      | nil => simp [requests] at length
      | cons item rest =>
          rcases item with ⟨origin, token⟩
          rw [requests, List.length_cons, List.length_cons, Nat.add_right_cancel_iff] at length
          rcases ih (settled.received requests) length with ⟨caughtUp, served, waiting⟩
          refine ⟨caughtUp, ?_, waiting⟩
          rw [serve, List.foldlM_cons, step_serverRead requests]
          exact served

/-- A server that reads requests has read the whole input stream. -/
theorem serving_nothing_left {reader : Reader (Batch Columns)} {progress : Progress} {phase : Phase}
    {sent : Phase} {input : List (Token (Batch Columns))}
    (serving : Serving call connection.server progress phase) (carries : Carries sent progress input)
    (current : connection.server = .request reader) : input = [] := by
  rw [current] at serving
  cases serving with
  | done =>
      cases carries with
      | done => rfl

theorem Asked.part {request : Batch Columns} {input : List (Token (Batch Columns))}
    {reader : Reader (Batch Columns)} (asked : connection.Asked call wantsHeader request input)
    (current : connection.server = .request reader)
    (head : connection.requests = (origin, token) :: rest) : origin.part = .request := by
  rcases asked with ⟨-, asking, state, requests⟩
  rw [requests] at head
  generalize same : connection.server = server at state
  cases state with
  | behind serving carries =>
      rw [← same] at serving
      rw [serving_nothing_left serving carries current] at head
      simp only [tag, framed, List.map_nil, List.map_cons, List.nil_append, List.cons_append,
        List.cons.injEq, Prod.mk.injEq] at head
      rw [← head.1.1]
  | schema =>
      simp only [tag, List.map_cons, List.cons_append, List.cons.injEq, Prod.mk.injEq] at head
      rw [← head.1.1]
  | batch =>
      simp only [tag, List.map_cons, List.cons_append, List.cons.injEq, Prod.mk.injEq] at head
      rw [← head.1.1]

theorem Streaming.part {sent : Phase} {got : Progress} {reader : Reader (Batch Columns)}
    (streaming : connection.Streaming setup call wantsHeader sent got)
    (current : connection.server = .request reader)
    (head : connection.requests = (origin, token) :: rest) : origin.part = .request := by
  rcases streaming with ⟨-, -, request, input, -, asked, -⟩ | served
  · exact asked.part current head
  · rcases served with ⟨progress, phase, input, output, requests, -, serving, inflow, -⟩
    rw [requests, serving_nothing_left serving inflow current] at head
    simp [tag] at head

theorem Streaming.answers {sent : Phase} {got : Progress}
    (streaming : connection.Streaming setup call wantsHeader sent got) :
    ∀ item ∈ connection.responses, some call = some item.1 := by
  intro item mem
  rcases streaming with ⟨-, -, request, input, -, asked, -⟩ | served
  · rw [asked.1] at mem
    simp at mem
  · rcases served with ⟨progress, phase, input, output, -, responses, -⟩
    rw [responses, tag, List.mem_map] at mem
    rcases mem with ⟨token, -, rfl⟩
    rfl

theorem Invariant.answers (invariant : connection.Invariant setup)
    (live : connection.client ≠ .aborted) :
    ∀ item ∈ connection.responses, connection.client.call = some item.1 := by
  rw [Invariant] at invariant
  split at invariant
  next client => exact absurd client live
  next client =>
    rcases invariant with ⟨origin, call, progress, input, -, -, responses, -⟩
    simp [responses]
  next call reader client =>
    intro item mem
    rw [client, ClientState.call]
    rcases invariant with ⟨-, request, -, asked⟩ | ⟨-, -, output, batches, responses, -⟩
    · rw [asked.1] at mem
      simp at mem
    · rw [responses, tag, List.mem_map] at mem
      rcases mem with ⟨token, -, rfl⟩
      rfl
  next call kind reader client =>
    intro item mem
    rw [client, ClientState.call]
    rcases invariant with ⟨-, request, -, asked⟩ | ⟨-, output, responses, -⟩
    · rw [asked.1] at mem
      simp at mem
    · rw [responses, tag, List.mem_map] at mem
      rcases mem with ⟨token, -, rfl⟩
      rfl
  all_goals
    rename_i client
    rw [client, ClientState.call]
    exact Streaming.answers invariant

theorem Invariant.requests (invariant : connection.Invariant setup)
    (live : connection.client ≠ .aborted) {reader : Reader (Batch Columns)}
    (current : connection.server = .request reader)
    (head : connection.requests = (origin, token) :: rest) : origin.part = .request := by
  rw [Invariant] at invariant
  split at invariant
  next client => exact absurd client live
  next =>
    rcases invariant with ⟨source, call, progress, input, -, requests, -, serving, carries⟩
    rw [requests, serving_nothing_left serving carries current] at head
    simp [tag] at head
  next =>
    rcases invariant with ⟨-, request, -, asked⟩ | ⟨-, empty, -⟩
    · exact asked.part current head
    · rw [empty] at head
      simp at head
  next =>
    rcases invariant with ⟨-, request, -, asked⟩ | ⟨empty, -⟩
    · exact asked.part current head
    · rw [empty] at head
      simp at head
  all_goals exact Streaming.part invariant current head

theorem Invariant.lockstep (invariant : connection.Invariant setup) :
    connection.Lockstep setup where
  idle := by
    intro client
    rw [Invariant, client] at invariant
    have settled : connection.Settled := invariant
    refine ⟨?_, settled.catchesUp⟩
    rcases settled with ⟨origin, call, progress, input, -, -, responses, -⟩
    exact responses
  answers := invariant.answers
  requests := fun live _ _ _ _ current head => invariant.requests live current head

theorem invariant_initial (setup : Setup Columns) :
    (initial : Connection Columns).Invariant setup :=
  ⟨⟨0, false, .input⟩, 0, .done, [], rfl, rfl, rfl, .done, .done⟩

end Connection

/-- In every run whose steps the parties agree on, client and server are in
lockstep. -/
theorem lockstep_of_agreed_run {setup : Setup Columns} {trace : List (Label Columns)}
    {connection : Connection Columns}
    (run : Run (AgreedSteps setup) Connection.initial trace connection) :
    connection.Lockstep setup := by
  have invariant : connection.Invariant setup := by
    apply run.invariant (Connection.invariant_initial setup)
    rintro _ state event next holds ⟨label, -, agrees, step⟩
    exact holds.step agrees step
  exact invariant.lockstep

/-! ## Runs -/

/-- A server with one producer, and a client for it. -/
def sampleSetup : Setup Unit where
  options := ⟨ascii "Demo", [], none⟩
  server := ⟨⟨ascii "Demo", [], [(ascii "count", ⟨.stream, fun _ => true⟩)]⟩, []⟩
  empty := ()

def sampleParams (method : String) : Params Unit := ⟨ascii method, ascii "id", [], 1, ()⟩

def sampleTick : Batch Unit := ⟨[], 0, ()⟩

/-- A factory without a header, whose turns emit one batch. -/
def sampleChoice : Choice Unit := ⟨none, [], .data, .ok false, [.data], false⟩

def runLabels (setup : Setup Columns) (labels : List (Label Columns)) :
    Option (Connection Columns) :=
  labels.foldlM (fun connection label => connection.step setup label) Connection.initial

theorem run_of_runLabels {setup : Setup Columns} {labels : List (Label Columns)}
    {relation : Connection Columns → Option (Label Columns) → Connection Columns → Prop}
    {connection : Connection Columns} (reached : runLabels setup labels = some connection)
    (related : ∀ label ∈ labels, ∀ before after : Connection Columns,
      before.step setup label = some after → relation before (some label) after) :
    Run relation Connection.initial labels connection := by
  induction labels using List.reverseRecOn generalizing connection with
  | nil =>
      rw [runLabels, List.foldlM_nil] at reached
      rw [← Option.some.inj reached]
      exact .refl
  | append_singleton labels label ih =>
      rw [runLabels, List.foldlM_append, Option.bind_eq_bind, Option.bind_eq_some_iff] at reached
      rcases reached with ⟨before, earlier, last⟩
      rw [List.foldlM_cons, Option.bind_eq_bind, Option.bind_eq_some_iff] at last
      rcases last with ⟨next, step, rest⟩
      rw [← Option.some.inj rest]
      have run := ih earlier fun other mem => related other (List.mem_append_left [label] mem)
      exact run.snoc (related label (by simp) before next step)

/-- A producer of one batch, opened, ticked and closed. -/
def servedRun : List (Label Unit) :=
  [.openStream .producer false (sampleParams "count"), .turn .producer sampleTick,
    .serverRead sampleChoice, .serverRead sampleChoice, .serverRead sampleChoice,
    .serverRead sampleChoice, .serverRead sampleChoice, .clientRead false, .clientRead false,
    .close, .serverRead sampleChoice, .clientRead false]

theorem servedRun_agrees : ∀ label ∈ servedRun, ∀ connection, Agrees sampleSetup connection label := by
  have streams : ∀ request ∈ sampleSetup.request (sampleParams "count"), ∀ resolved,
      sampleSetup.server.dispatch resolved request = .stream := by
    have dispatched : ∀ resolved, (sampleSetup.request (sampleParams "count")).map
        (sampleSetup.server.dispatch resolved) = some .stream := by decide +kernel
    intro request sent resolved
    have result := dispatched resolved
    rw [Option.mem_def.mp sent, Option.map_some, Option.some.injEq] at result
    exact result
  intro label mem connection
  simp only [servedRun, List.mem_cons, List.not_mem_nil, or_false] at mem
  rcases mem with rfl | rfl | rfl | rfl | rfl | rfl | rfl | rfl | rfl | rfl | rfl | rfl <;>
    first
    | exact streams
    | trivial
    | (intro _ _ _ _; rfl)
    | (intro _ _ _ _ _ _ _ header; simp [sampleChoice] at header)

/-- After the run the client is idle and the server waits. -/
theorem servedRun_lockstep :
    ∃ connection, runLabels sampleSetup servedRun = some connection ∧
      connection.client = .idle ∧ connection.Waiting ∧ connection.Lockstep sampleSetup := by
  have reached : runLabels sampleSetup servedRun =
      some ⟨.idle, .request .start, [], [], 1⟩ := by decide +kernel
  refine ⟨_, reached, rfl, ⟨rfl, rfl, rfl⟩, lockstep_of_agreed_run (run_of_runLabels reached ?_)⟩
  intro label mem before after step
  exact ⟨label, rfl, servedRun_agrees label mem before, step⟩

/-- A producer is opened for a method that the server does not have, ticked once,
and closed. -/
def refusedRun : List (Label Unit) :=
  [.openStream .producer false (sampleParams "missing"), .turn .producer sampleTick,
    .serverRead sampleChoice, .serverRead sampleChoice, .serverRead sampleChoice,
    .clientRead false, .clientRead false, .clientRead false, .close,
    .serverRead sampleChoice, .serverRead sampleChoice, .serverRead sampleChoice]

/-- The idle client has the answer to its tick stream ahead of it, which the server
read as a request. -/
theorem refusedRun_leaves_response :
    ∃ connection, Run (Steps sampleSetup) Connection.initial refusedRun connection ∧
      connection.client = .idle ∧ connection.server = .request .start ∧
        connection.requests = [] ∧ connection.responses = tag 0 (framed [.exception]) ∧
          ¬connection.Lockstep sampleSetup := by
  have reached : runLabels sampleSetup refusedRun =
      some ⟨.idle, .request .start, [], tag 0 (framed [.exception]), 1⟩ := by decide +kernel
  refine ⟨_, run_of_runLabels reached ?_, rfl, rfl, rfl, rfl, ?_⟩
  · intro label _ before after step
    exact ⟨label, rfl, step⟩
  intro lockstep
  have empty := (lockstep.idle rfl).1
  simp [tag, framed] at empty

end VgiRpc.Raw
