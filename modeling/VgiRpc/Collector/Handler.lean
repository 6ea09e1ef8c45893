import VgiRpc.Cpp.Text

/-!
# Handlers and the output collector

`OutputCollector` and `LogSink`, and handlers as programs over them.  A handler talks to
the framework only through its collector and the log of its context, so one call of
`process` is a tree: which call it makes next, for each answer that the last one had.  A
call that throws may be caught by the handler, which then goes on.
-/

namespace VgiRpc.Collector

open VgiRpc.Cpp

/-! ## The collector -/

/-- The name that `exception_type_of` gives to an exception. -/
abbrev ErrorType := Bytes

/-- What a collector gathers, in order: log batches and the data batch. -/
inductive Item (β μ : Type) where
  | log (message : μ)
  | data (batch : β)
  deriving DecidableEq, Repr

/-- `OutputCollector` of one turn.  `hasData` is `data_batch_idx_`. -/
structure OutputCollector (β μ : Type) where
  producerMode : Bool
  batches : List (Item β μ)
  hasData : Bool
  isFinished : Bool
  deriving DecidableEq

namespace OutputCollector

variable {β μ : Type}

/-- A collector at the start of a turn. -/
def fresh (producerMode : Bool) : OutputCollector β μ := ⟨producerMode, [], false, false⟩

/-- `emit_batch`; `fits` if the schema is the one of the stream.  The error type if it
throws. -/
def emitBatch (collector : OutputCollector β μ) (fits : Bool) (batch : β) :
    Option ErrorType × OutputCollector β μ :=
  if collector.hasData then (some (ascii "ProtocolError"), collector)
  else if fits = false then (some (ascii "RuntimeError"), collector)
  else (none, { collector with batches := collector.batches ++ [.data batch], hasData := true })

/-- `client_log`. -/
def clientLog (collector : OutputCollector β μ) (message : μ) : OutputCollector β μ :=
  { collector with batches := collector.batches ++ [.log message] }

/-- `finish`, which an exchange refuses. -/
def finish (collector : OutputCollector β μ) : Option ErrorType × OutputCollector β μ :=
  if collector.producerMode then (none, { collector with isFinished := true })
  else (some (ascii "RuntimeError"), collector)

end OutputCollector

/-! ## Handlers -/

/-- One call of `process`: what it does next, and how it ends.  `next` is asked with the
error type that the call threw, or `none`. -/
inductive Handler (σ β μ : Type) where
  | returns (state : σ)
  | throws (error : ErrorType) (state : σ)
  | emit (fits : Bool) (batch : β) (next : Option ErrorType → Handler σ β μ)
  | outLog (message : μ) (next : Handler σ β μ)
  | contextLog (message : μ) (next : Handler σ β μ)
  | finish (next : Option ErrorType → Handler σ β μ)

/-- What a call of `process` leaves: the collector, the messages in the log sink, the
error it ended in and the state.  `logged` are all messages in the order they were logged,
`finishes` the calls of `finish` and whether they were accepted. -/
structure Outcome (σ β μ : Type) where
  collector : OutputCollector β μ
  sink : List μ
  error : Option ErrorType
  state : σ
  logged : List μ
  finishes : List Bool

namespace Handler

variable {σ β μ : Type}

/-- Run a handler against a collector and a log sink. -/
def runFrom : Handler σ β μ → OutputCollector β μ → (sink logged : List μ) →
    (finishes : List Bool) → Outcome σ β μ
  | .returns state, collector, sink, logged, finishes =>
      ⟨collector, sink, none, state, logged, finishes⟩
  | .throws error state, collector, sink, logged, finishes =>
      ⟨collector, sink, some error, state, logged, finishes⟩
  | .emit fits batch next, collector, sink, logged, finishes =>
      (next (collector.emitBatch fits batch).1).runFrom (collector.emitBatch fits batch).2 sink logged
        finishes
  | .outLog message next, collector, sink, logged, finishes =>
      next.runFrom (collector.clientLog message) sink (logged ++ [message]) finishes
  | .contextLog message next, collector, sink, logged, finishes =>
      next.runFrom collector (sink ++ [message]) (logged ++ [message]) finishes
  | .finish next, collector, sink, logged, finishes =>
      (next collector.finish.1).runFrom collector.finish.2 sink logged
        (finishes ++ [collector.finish.1.isNone])

/-- One turn: a new collector, and a log sink that was flushed. -/
def run (handler : Handler σ β μ) (producerMode : Bool) : Outcome σ β μ :=
  handler.runFrom (.fresh producerMode) [] [] []

end Handler

/-! ## What every turn keeps to -/

/-- The data batches among the items. -/
def dataOf {β μ : Type} (items : List (Item β μ)) : List β :=
  items.filterMap fun
    | .log _ => none
    | .data batch => some batch

/-- The log messages among the items. -/
def logsOf {β μ : Type} (items : List (Item β μ)) : List μ :=
  items.filterMap fun
    | .log message => some message
    | .data _ => none

section Lemmas

variable {σ β μ : Type}

@[simp] theorem dataOf_nil : dataOf ([] : List (Item β μ)) = [] := rfl

@[simp] theorem logsOf_nil : logsOf ([] : List (Item β μ)) = [] := rfl

@[simp] theorem dataOf_append (first second : List (Item β μ)) :
    dataOf (first ++ second) = dataOf first ++ dataOf second := List.filterMap_append ..

@[simp] theorem logsOf_append (first second : List (Item β μ)) :
    logsOf (first ++ second) = logsOf first ++ logsOf second := List.filterMap_append ..

@[simp] theorem logsOf_map_log (messages : List μ) :
    logsOf (messages.map (Item.log : μ → Item β μ)) = messages := by
  simp [logsOf, List.filterMap_map]

@[simp] theorem dataOf_map_log (messages : List μ) :
    dataOf (messages.map (Item.log : μ → Item β μ)) = [] := by
  simp [dataOf, List.filterMap_map]

@[simp] theorem dataOf_data (batch : β) : dataOf [(.data batch : Item β μ)] = [batch] := rfl

@[simp] theorem dataOf_log (message : μ) : dataOf [(.log message : Item β μ)] = [] := rfl

@[simp] theorem logsOf_data (batch : β) : logsOf [(.data batch : Item β μ)] = [] := rfl

@[simp] theorem logsOf_log (message : μ) : logsOf [(.log message : Item β μ)] = [message] := rfl

/-- A collector and a log sink in the middle of a turn: at most one data batch, an end
only of a producer, and every message in one of the two places. -/
structure Kept (collector : OutputCollector β μ) (sink logged : List μ) : Prop where
  data : (dataOf collector.batches).length = collector.hasData.toNat
  finished : collector.isFinished = true → collector.producerMode = true
  logged : logged.Perm (sink ++ logsOf collector.batches)

theorem Kept.eq_of_mem {collector : OutputCollector β μ} {sink logged : List μ}
    (kept : Kept collector sink logged) {first second : β}
    (one : first ∈ dataOf collector.batches) (other : second ∈ dataOf collector.batches) :
    first = second := by
  have single := kept.data
  generalize dataOf collector.batches = batches at one other single
  rcases batches with _ | ⟨batch, _ | ⟨next, rest⟩⟩
  · cases one
  · rw [List.mem_singleton.mp one, List.mem_singleton.mp other]
  · cases hasData : collector.hasData <;> simp [hasData] at single

/-- A run keeps to it, whatever the handler does; the mode never changes. -/
theorem Handler.kept_runFrom (handler : Handler σ β μ) {collector : OutputCollector β μ}
    {sink logged : List μ} (kept : Kept collector sink logged) (finishes : List Bool) :
    Kept (handler.runFrom collector sink logged finishes).collector
        (handler.runFrom collector sink logged finishes).sink
          (handler.runFrom collector sink logged finishes).logged ∧
      (handler.runFrom collector sink logged finishes).collector.producerMode =
        collector.producerMode := by
  induction handler generalizing collector sink logged finishes with
  | returns state => exact ⟨kept, rfl⟩
  | throws error state => exact ⟨kept, rfl⟩
  | emit fits batch next ih =>
      have after : Kept (collector.emitBatch fits batch).2 sink logged ∧
          (collector.emitBatch fits batch).2.producerMode = collector.producerMode := by
        unfold OutputCollector.emitBatch
        split
        next => exact ⟨kept, rfl⟩
        next first =>
            split
            next => exact ⟨kept, rfl⟩
            next =>
                refine ⟨⟨?_, kept.finished, ?_⟩, rfl⟩
                · have nothing := kept.data
                  simp only [first, Bool.toNat_false] at nothing
                  rw [dataOf_append, List.length_append, nothing]
                  rfl
                · simpa using kept.logged
      rcases ih _ after.1 _ with ⟨still, mode⟩
      exact ⟨still, mode.trans after.2⟩
  | outLog message next ih =>
      apply ih
      refine ⟨?_, kept.finished, ?_⟩
      · simpa [OutputCollector.clientLog] using kept.data
      · have more := kept.logged.append_right [message]
        simpa [OutputCollector.clientLog] using more
  | contextLog message next ih =>
      apply ih
      refine ⟨kept.data, kept.finished, ?_⟩
      have more := kept.logged.append_right [message]
      refine more.trans ?_
      rw [List.append_assoc, List.append_assoc]
      exact List.Perm.append_left sink List.perm_append_comm
  | finish next ih =>
      have after : Kept collector.finish.2 sink logged ∧
          collector.finish.2.producerMode = collector.producerMode := by
        unfold OutputCollector.finish
        split
        next producer => exact ⟨⟨kept.data, fun _ => producer, kept.logged⟩, rfl⟩
        next => exact ⟨kept, rfl⟩
      rcases ih _ after.1 _ with ⟨still, mode⟩
      exact ⟨still, mode.trans after.2⟩

theorem Handler.kept_run (handler : Handler σ β μ) (producerMode : Bool) :
    Kept (handler.run producerMode).collector (handler.run producerMode).sink
        (handler.run producerMode).logged ∧
      (handler.run producerMode).collector.producerMode = producerMode := by
  apply handler.kept_runFrom
  refine ⟨rfl, ?_, .nil⟩
  intro finished
  cases finished

end Lemmas

end VgiRpc.Collector
