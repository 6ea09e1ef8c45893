import VgiRpc.Collector.Agreement

/-!
# Log messages on the two transports

A handler logs to its collector or to the log sink of its context.  The raw loop flushes
both after a turn; the turns over HTTP write the collector only, neither transport writes
anything for a turn that throws, and an answer over HTTP that does not go out takes its log
messages with it.  So every message reaches the client, on both transports, exactly in the
calls whose turns log through the collector and are silent when they throw or are refused.
-/

namespace VgiRpc.Collector

open VgiRpc.Cpp

variable {σ ι β μ : Type}

/-! ## Calls -/

/-- A unary call, or a stream with the inputs of its client, and the channel it has over
HTTP. -/
inductive Call (σ ι β μ : Type) where
  | unary (channel : Channel β μ) (handler : UnaryHandler β μ)
  | stream (channel : Channel β μ) (process : σ → ι → Handler σ β μ)
      (coerce : ι → Except ErrorType ι) (isProducer : Bool) (factory : Factory σ μ)
      (inputs : List ι)

/-- The responses on the raw transport. -/
def Call.raw : Call σ ι β μ → List (Response β μ)
  | .unary _ handler => [serveUnary handler]
  | .stream _ process coerce isProducer factory inputs =>
      (serveStream process coerce isProducer factory inputs).1

/-- The responses over HTTP. -/
def Call.http : Call σ ι β μ → List (Response β μ)
  | .unary channel handler => [serveUnaryHttp channel handler]
  | .stream channel process coerce isProducer factory inputs =>
      (serveHttp channel process coerce isProducer factory inputs).1

/-- The log messages of a response are the ones of its turn, each once. -/
def Response.Delivered (response : Response β μ) : Prop :=
  (logsOf response.items).Perm response.logged

/-- The log messages of a response. -/
def Response.logs (response : Response β μ) : List μ := logsOf response.items

/-- No message is lost on either transport, and both deliver the same sequence. -/
structure LogsDelivered (onRaw onHttp : List (Response β μ)) : Prop where
  raw : ∀ response ∈ onRaw, response.Delivered
  http : ∀ response ∈ onHttp, response.Delivered
  same : onRaw.flatMap Response.logs = onHttp.flatMap Response.logs

/-- The same of a call. -/
def Call.LogsDelivered (call : Call σ ι β μ) : Prop := Collector.LogsDelivered call.raw call.http

/-! ## Quiet handlers -/

section Quiet

variable (process : σ → ι → Handler σ β μ) (coerce : ι → Except ErrorType ι) (isProducer : Bool)

/-- Turns that log nothing. -/
def SilentTurns : σ → List ι → Prop
  | _, [] => True
  | state, input :: inputs =>
      match if isProducer then .ok input else coerce input with
      | .error _ => True
      | .ok input =>
          let outcome := (process state input).run isProducer
          outcome.logged = [] ∧ (outcome.error = none → outcome.collector.isFinished = false →
            SilentTurns outcome.state inputs)

variable (channel : Channel β μ) (front : Nat → List (Answer β μ))

/-- Turns that log nothing to their context, and nothing at all if they throw.  From an
answer on that does not go out over HTTP, where the stream ends with it, they log nothing. -/
def QuietTurns : Nat → σ → List ι → Prop
  | _, _, [] => True
  | request, state, input :: inputs =>
      match if isProducer then .ok input else coerce input with
      | .error _ => True
      | .ok input =>
          let outcome := (process state input).run isProducer
          match outcome.error, turnRefusal channel (front request) isProducer request outcome with
          | some _, _ => outcome.logged = []
          | none, some _ =>
              outcome.logged = [] ∧ (outcome.collector.isFinished = false →
                SilentTurns process coerce isProducer outcome.state inputs)
          | none, none =>
              outcome.sink = [] ∧ (outcome.collector.isFinished = false →
                QuietTurns (request + 1) outcome.state inputs)

end Quiet

/-- The same from the factory on. -/
def Call.Quiet : Call σ ι β μ → Prop
  | .unary channel handler => unaryRefusal channel handler = none ∨ handler.logs = []
  | .stream channel process coerce isProducer factory inputs =>
      match factory.result with
      | .error _ => factory.logs = []
      | .ok state =>
          match initRefusal channel process isProducer factory state inputs with
          | some _ => factory.logs = [] ∧ SilentTurns process coerce isProducer state inputs
          | none =>
              QuietTurns process coerce isProducer channel (factory.front isProducer)
                (if isProducer then 0 else 1) state inputs

/-! ## Responses one by one -/

theorem lost_delivered_iff {error : Option ErrorType} {logged : List μ} {finishes : List Bool} :
    (⟨[], error, logged, finishes⟩ : Response β μ).Delivered ↔ logged = [] :=
  List.nil_perm

/-- A response that delivers its messages is without any exactly if its turn logged none. -/
theorem Response.Delivered.logs_iff {response : Response β μ} (delivered : response.Delivered) :
    response.logs = [] ↔ response.logged = [] := by
  constructor
  · intro nothing
    rw [Response.Delivered, ← Response.logs, nothing] at delivered
    exact delivered.nil_eq.symm
  · intro nothing
    rw [Response.Delivered, nothing] at delivered
    exact delivered.eq_nil

/-- Responses that deliver what they have to, in front of others. -/
theorem logsDelivered_cons {onRaw onHttp : List (Response β μ)} {first second : Response β μ}
    {quiet : Prop} (raw : first.Delivered) (http : second.Delivered ↔ quiet)
    (same : quiet → first.logs = second.logs) :
    LogsDelivered (first :: onRaw) (second :: onHttp) ↔ quiet ∧ LogsDelivered onRaw onHttp := by
  constructor
  · intro all
    have holds := http.mp (all.http _ List.mem_cons_self)
    have sequences := all.same
    rw [List.flatMap_cons, List.flatMap_cons, same holds, List.append_cancel_left_eq] at sequences
    exact ⟨holds, fun response listed => all.raw response (List.mem_cons_of_mem _ listed),
      fun response listed => all.http response (List.mem_cons_of_mem _ listed), sequences⟩
  · intro ⟨holds, rest⟩
    refine ⟨List.forall_mem_cons.mpr ⟨raw, rest.raw⟩,
      List.forall_mem_cons.mpr ⟨http.mpr holds, rest.http⟩, ?_⟩
    rw [List.flatMap_cons, List.flatMap_cons, same holds, rest.same]

/-- Responses on the raw transport that have no counterpart. -/
theorem logsDelivered_cons_nil {onRaw : List (Response β μ)} {first : Response β μ} :
    LogsDelivered (first :: onRaw) [] ↔
      (first.Delivered ∧ first.logged = []) ∧ LogsDelivered onRaw [] := by
  constructor
  · intro all
    have delivered := all.raw _ List.mem_cons_self
    have sequences := all.same
    rw [List.flatMap_cons, List.flatMap_nil, List.append_eq_nil_iff, delivered.logs_iff] at sequences
    exact ⟨⟨delivered, sequences.1⟩,
      fun response listed => all.raw response (List.mem_cons_of_mem _ listed), all.http, sequences.2⟩
  · intro ⟨⟨delivered, silent⟩, rest⟩
    refine ⟨List.forall_mem_cons.mpr ⟨delivered, rest.raw⟩, rest.http, ?_⟩
    rw [List.flatMap_cons, delivered.logs_iff.mpr silent, List.nil_append, rest.same]

/-- A last answer over HTTP that carries no messages. -/
theorem logsDelivered_lost {onRaw : List (Response β μ)} {error : Option ErrorType}
    {logged : List μ} {finishes : List Bool} :
    LogsDelivered onRaw [⟨[], error, logged, finishes⟩] ↔ logged = [] ∧ LogsDelivered onRaw [] := by
  constructor
  · intro all
    exact ⟨lost_delivered_iff.mp (all.http _ List.mem_cons_self), all.raw, by simp, all.same⟩
  · intro ⟨silent, rest⟩
    refine ⟨rest.raw, ?_, rest.same⟩
    rw [List.forall_mem_singleton, lost_delivered_iff]
    exact silent

@[simp] theorem logsDelivered_nil : LogsDelivered ([] : List (Response β μ)) [] :=
  ⟨by simp, by simp, rfl⟩

/-- What the sink still holds is what the collector lacks. -/
theorem Handler.collector_delivered_iff (handler : Handler σ β μ) (isProducer : Bool) :
    let outcome := handler.run isProducer
    (⟨outcome.collector.batches, none, outcome.logged, outcome.finishes⟩ :
      Response β μ).Delivered ↔ outcome.sink = [] := by
  have logged := (handler.kept_run isProducer).1.logged
  constructor
  · intro delivered
    have contained : (logsOf (handler.run isProducer).collector.batches).Perm
        (handler.run isProducer).logged := delivered
    have lengths := (contained.trans logged).length_eq
    rw [List.length_append] at lengths
    exact List.eq_nil_of_length_eq_zero (by omega)
  · intro empty
    rw [empty, List.nil_append] at logged
    exact logged.symm

/-- With the sink in front, every message of a turn is there. -/
theorem Handler.flushed_delivered (handler : Handler σ β μ) (isProducer : Bool) :
    let outcome := handler.run isProducer
    (⟨outcome.sink.map .log ++ outcome.collector.batches, none, outcome.logged,
      outcome.finishes⟩ : Response β μ).Delivered := by
  rw [Response.Delivered, logsOf_append, logsOf_map_log]
  exact (handler.kept_run isProducer).1.logged.symm

/-! ## Runs of turns -/

section Turns

variable (process : σ → ι → Handler σ β μ) (coerce : ι → Except ErrorType ι) (isProducer : Bool)

/-- On the raw transport alone nothing is lost and nothing delivered exactly if the turns
are silent. -/
theorem silentTurns_iff (number : Nat) (state : σ) (inputs : List ι) :
    LogsDelivered
        (runTurns (fun _ => rawTurn process coerce isProducer) number state inputs).1 [] ↔
      SilentTurns process coerce isProducer state inputs := by
  induction inputs generalizing number state with
  | nil => simp [runTurns, SilentTurns]
  | cons input inputs ih =>
      simp only [runTurns, SilentTurns, rawTurn]
      generalize (if isProducer then .ok input else coerce input) = prepared
      cases prepared with
      | error error => simp [failedTurn, logsDelivered_cons_nil, lost_delivered_iff]
      | ok input =>
          have flushed := (process state input).flushed_delivered isProducer
          simp only
          generalize (process state input).run isProducer = outcome at flushed ⊢
          cases outcome.error with
          | some error => simp [failedTurn, logsDelivered_cons_nil, lost_delivered_iff]
          | none =>
              cases outcome.collector.isFinished with
              | true => simp [logsDelivered_cons_nil, flushed]
              | false => simp [logsDelivered_cons_nil, flushed, ih]

variable (channel : Channel β μ) (front : Nat → List (Answer β μ))

/-- Over both transports no message is lost exactly if the turns are quiet. -/
theorem quietTurns_iff (number request : Nat) (state : σ) (inputs : List ι) :
    LogsDelivered
        (runTurns (fun _ => rawTurn process coerce isProducer) number state inputs).1
        (runTurns (httpTurn process coerce channel front isProducer) request state inputs).1 ↔
      QuietTurns process coerce isProducer channel front request state inputs := by
  induction inputs generalizing number request state with
  | nil => simp [runTurns, QuietTurns]
  | cons input inputs ih =>
      simp only [runTurns, QuietTurns, httpTurn_eq, rawTurn]
      generalize (if isProducer then .ok input else coerce input) = prepared
      cases prepared with
      | error error =>
          simp [failedTurn, logsDelivered_lost, logsDelivered_cons_nil, lost_delivered_iff]
      | ok input =>
          have flushed := (process state input).flushed_delivered isProducer
          have collector := (process state input).collector_delivered_iff isProducer
          simp only
          generalize (process state input).run isProducer = outcome at flushed collector ⊢
          generalize turnRefusal channel (front request) isProducer request outcome = refusal
          cases outcome.error with
          | some error =>
              cases refusal <;>
                simp [failedTurn, logsDelivered_lost, logsDelivered_cons_nil, lost_delivered_iff]
          | none =>
              cases refusal with
              | some refused =>
                  cases outcome.collector.isFinished with
                  | true =>
                      simp [failedTurn, logsDelivered_lost, logsDelivered_cons_nil, flushed]
                  | false =>
                      simp [failedTurn, logsDelivered_lost, logsDelivered_cons_nil, flushed,
                        silentTurns_iff]
              | none =>
                  have heads : outcome.sink = [] →
                      logsOf (outcome.sink.map .log ++ outcome.collector.batches) =
                        logsOf outcome.collector.batches := by
                    intro empty
                    rw [empty, List.map_nil, List.nil_append]
                  cases outcome.collector.isFinished with
                  | true => simp [logsDelivered_cons flushed collector heads]
                  | false => simp [logsDelivered_cons flushed collector heads, ih]

/-- Why the answer to `/init` of a producer does not go out is why the one to its first turn
does not. -/
theorem initRefusal_producer (factory : Factory σ μ) (state : σ) (input : ι) (inputs : List ι) :
    initRefusal channel process true factory state (input :: inputs) =
      turnRefusal channel (factory.front true 0) true 0 ((process state input).run true) := by
  simp only [initRefusal, List.head?_cons, Option.bind_some, runProducerTurns, turnRefusal, if_true]
  generalize (process state input).run true = outcome
  cases outcome.error with
  | some error => rfl
  | none => cases outcome.collector.isFinished <;> rfl

/-- A producer whose `/init` is refused is quiet exactly if it is silent. -/
theorem quietTurns_refused {factory : Factory σ μ} {state : σ} {inputs : List ι}
    {refusal : Refusal}
    (refused : initRefusal channel process true factory state inputs = some refusal) :
    QuietTurns process coerce true channel (factory.front true) 0 state inputs ↔
      SilentTurns process coerce true state inputs := by
  cases inputs with
  | nil => cases refused
  | cons input inputs =>
      rw [initRefusal_producer] at refused
      simp only [QuietTurns, SilentTurns, if_true, refused]
      cases ((process state input).run true).error <;> simp

end Turns

/-! ## Calls -/

/-- A unary call loses nothing on the raw transport, whether or not it throws. -/
theorem serveUnary_delivered (handler : UnaryHandler β μ) : (serveUnary handler).Delivered := by
  unfold serveUnary
  cases handler.result with
  | error error => simp [Response.Delivered]
  | ok batch => simp [Response.Delivered]

/-- An exchange that logs to its context and emits, over a channel that bounds nothing: the
message reaches a client on the raw transport, and none over HTTP. -/
def loggingExchange : Call Unit Unit Unit Unit :=
  .stream .unbounded (fun _ _ => .contextLog () (.emit true () fun _ => .returns ())) .ok false
    ⟨[], .ok ()⟩ [()]

end VgiRpc.Collector
