import VgiRpc.Http.Attempts

/-!
# Delivery of a producer stream

The batches that `tick` returns, against the batches that the producer emits.  The client
replays a turn, or asks again after a failed one, as if the cursor named a position; the
server has one state behind it.  So a batch whose answer is not taken is skipped: delivery is
without gaps as long as every batch that is emitted is taken, and the first batch that is
returned behind a lost one breaks it.
-/

namespace VgiRpc.Http.Client

open VgiRpc.Cpp

variable {σ ι χ : Type} [DecidableEq χ]

/-! ## Runs -/

/-- The arguments of a `tick` and what the network does to it. -/
structure TickCall (ι : Type) where
  options : CallOptions
  input : ι
  routes : List Route

/-- A session with its server, the cursor of the stream that it opened, and the batches that it
returned. -/
structure Delivery (σ χ : Type) where
  home : Bytes
  session : HttpStreamSession χ Nat
  server : Server σ
  returned : List Nat

namespace Delivery

/-- `open_producer`.  Every `/init` that ran opened a stream of its own; the session is
about the last one. -/
def start (producer : Producer σ ι) (schema emptySchema : χ) (tokens : Tokens)
    (policy : RetryPolicy) (options : CallOptions) (input : ι) (route : Route)
    (server : Server σ) : Option (Delivery σ χ) :=
  match HttpStreamSession.openStream (openEndpoint producer schema tokens) policy .producer
      (some emptySchema) options input route server with
  | (none, _) => none
  | (some session, server) => some ⟨tokens.cursor (server.drawn - 1), session, server, []⟩

section Ticks

variable (producer : Producer σ ι) (schema : χ) (policy : RetryPolicy)

/-- A `tick`, whether it returns or throws. -/
def tick (delivery : Delivery σ χ) (call : TickCall ι) : Delivery σ χ :=
  let called := delivery.session.tick (turnEndpoint producer schema) policy call.options
    call.input call.routes delivery.server
  { delivery with
    session := called.session
    server := called.server
    returned := delivery.returned ++ called.result.batch?.toList }

/-- Any number of ticks. -/
def run (delivery : Delivery σ χ) (calls : List (TickCall ι)) : Delivery σ χ :=
  calls.foldl (tick producer schema policy) delivery

/-- Every attempt of the tick whose turn emits a batch is answered, and its answer taken. -/
def Lossless (delivery : Delivery σ χ) (call : TickCall ι) : Prop :=
  Client.Lossless producer delivery.home call.input policy
    (delivery.session.tickAttempts (turnEndpoint producer schema) policy call.options call.input
      call.routes delivery.server)

instance (delivery : Delivery σ χ) (call : TickCall ι) :
    Decidable (delivery.Lossless producer schema policy call) :=
  inferInstanceAs (Decidable (Client.Lossless _ _ _ _ _))

/-- Every tick of the run is lossless. -/
def LosslessRun (delivery : Delivery σ χ) : List (TickCall ι) → Prop
  | [] => True
  | call :: calls =>
      delivery.Lossless producer schema policy call ∧
        LosslessRun (delivery.tick producer schema policy call) calls

instance decidableLosslessRun (delivery : Delivery σ χ) (calls : List (TickCall ι)) :
    Decidable (delivery.LosslessRun producer schema policy calls) :=
  match calls with
  | [] => inferInstanceAs (Decidable True)
  | call :: calls =>
      have := decidableLosslessRun (delivery.tick producer schema policy call) calls
      inferInstanceAs (Decidable (_ ∧ _))

end Ticks

/-! ## While nothing is lost -/

/-- The session is about its stream, and every batch that was emitted was returned or waits. -/
structure Whole (schema : χ) (delivery : Delivery σ χ) : Prop where
  own : delivery.session.cursor = [] ∨ delivery.session.cursor = delivery.home
  expects : delivery.session.Expects schema
  complete : delivery.returned ++ delivery.session.pending =
    List.range (delivery.server.emitted delivery.home)

variable {producer : Producer σ ι} {schema : χ} {policy : RetryPolicy} {delivery : Delivery σ χ}

/-- A lossless tick keeps the delivery whole. -/
theorem Whole.tick (whole : Whole schema delivery) (call : TickCall ι)
    (lossless : delivery.Lossless producer schema policy call) :
    Whole schema (delivery.tick producer schema policy call) := by
  unfold Delivery.tick
  rcases HttpStreamSession.tick_cases policy call.options call.input call.routes delivery.home
    delivery.session delivery.server whole.own with ⟨failed, -⟩ | ⟨value, rest, pending, handed, -⟩ |
      ⟨drained, ticked, accounted⟩
  · rw [failed]
    refine ⟨whole.own, whole.expects, ?_⟩
    simpa [Result.batch?] using whole.complete
  · rw [handed]
    refine ⟨whole.own, whole.expects, ?_⟩
    have complete := whole.complete
    rw [pending] at complete
    simpa [Result.batch?] using complete
  · have count := (accounted.lossless_iff whole.expects).mp lossless
    have complete := whole.complete
    rw [drained, List.append_nil] at complete
    refine ⟨ticked.cursor_eq, accounted.expects whole.expects, ?_⟩
    dsimp only
    rw [ticked.pending_eq, List.append_nil, count, complete]
    cases result : (delivery.session.tick (turnEndpoint producer schema) policy call.options
        call.input call.routes delivery.server).result with
    | batch position =>
        have last := (ticked.batch_eq position result).2
        rw [result] at count
        simp only [Result.batch?, Option.toList_some, List.length_singleton] at count ⊢
        rw [List.range_succ]
        congr 2
        omega
    | ended => simp [Result.batch?]
    | threw => simp [Result.batch?]

/-- Lossless ticks keep it whole. -/
theorem Whole.run (whole : Whole schema delivery) {calls : List (TickCall ι)}
    (lossless : delivery.LosslessRun producer schema policy calls) :
    Whole schema (delivery.run producer schema policy calls) := by
  induction calls generalizing delivery with
  | nil => exact whole
  | cons call calls ih => exact ih (whole.tick call lossless.1) lossless.2

/-! ## Behind a lost batch -/

omit [DecidableEq χ] in
theorem mem_batch? {result : Result Nat} {next : Nat} :
    next ∈ result.batch?.toList ↔ result = .batch next := by
  cases result with
  | batch value => simp [Result.batch?, eq_comm]
  | ended => simp [Result.batch?]
  | threw => simp [Result.batch?]

/-- A batch at this position was emitted, and will not be returned. -/
structure Behind (position : Nat) (delivery : Delivery σ χ) : Prop where
  own : delivery.session.cursor = [] ∨ delivery.session.cursor = delivery.home
  drained : delivery.session.pending = []
  emitted : position < delivery.server.emitted delivery.home

/-- What a tick returns stands behind the lost batch. -/
theorem Behind.tick {position : Nat} (behind : Behind position delivery) (call : TickCall ι) :
    Behind position (delivery.tick producer schema policy call) ∧
      ∃ more, (delivery.tick producer schema policy call).returned = delivery.returned ++ more ∧
        ∀ next ∈ more, position < next := by
  unfold Delivery.tick
  rcases HttpStreamSession.tick_cases policy call.options call.input call.routes delivery.home
    delivery.session delivery.server behind.own with ⟨failed, -⟩ | ⟨value, rest, pending, -⟩ |
      ⟨-, ticked, -⟩
  · rw [failed]
    exact ⟨⟨behind.own, behind.drained, behind.emitted⟩, [], rfl, by simp⟩
  · rw [behind.drained] at pending
    cases pending
  · refine ⟨⟨ticked.cursor_eq, ticked.pending_eq, behind.emitted.trans_le ticked.emitted_le⟩, _, rfl, ?_⟩
    intro next returned
    exact behind.emitted.trans_le (ticked.batch_eq next (mem_batch?.mp returned)).1

variable (producer schema policy) in
theorem Behind.run {position : Nat} (behind : Behind position delivery) (calls : List (TickCall ι)) :
    Behind position (delivery.run producer schema policy calls) ∧
      ∃ more, (delivery.run producer schema policy calls).returned = delivery.returned ++ more ∧
        ∀ next ∈ more, position < next := by
  induction calls generalizing delivery with
  | nil => exact ⟨behind, [], (List.append_nil _).symm, by simp⟩
  | cons call calls ih =>
      obtain ⟨still, first, returned, later⟩ := behind.tick call
      obtain ⟨last, rest, rest_eq, behind⟩ := ih still
      refine ⟨last, first ++ rest, ?_, List.forall_mem_append.mpr ⟨later, behind⟩⟩
      rw [← List.append_assoc, ← returned]
      exact rest_eq

omit [DecidableEq χ] in
/-- Behind a batch that is missing only nothing makes an initial segment. -/
theorem append_prefix_iff {position count : Nat} {more : List Nat}
    (later : ∀ next ∈ more, position < next) (fits : position ≤ count) :
    List.range position ++ more <+: List.range count ↔ more = [] := by
  constructor
  · rintro ⟨rest, split⟩
    cases more with
    | nil => rfl
    | cons next more =>
        have place := congrArg (fun list => list[position]?) split
        have above := later next List.mem_cons_self
        simp only [List.append_assoc, List.cons_append, List.getElem?_append_right,
          List.length_range, le_refl, Nat.sub_self, List.getElem?_cons_zero] at place
        obtain ⟨inside, same⟩ := List.getElem?_eq_some_iff.mp place.symm
        rw [List.getElem_range] at same
        omega
  · rintro rfl
    rw [List.append_nil, ← Nat.add_sub_of_le fits, List.range_add]
    exact List.prefix_append _ _

/-- A tick that is not lossless loses the next batch. -/
theorem Whole.lose (whole : Whole schema delivery) (call : TickCall ι)
    (lossy : ¬delivery.Lossless producer schema policy call) :
    Behind (delivery.server.emitted delivery.home) (delivery.tick producer schema policy call) ∧
      delivery.returned = List.range (delivery.server.emitted delivery.home) ∧
      ∃ more, (delivery.tick producer schema policy call).returned = delivery.returned ++ more ∧
        ∀ next ∈ more, delivery.server.emitted delivery.home < next := by
  unfold Delivery.tick
  unfold Delivery.Lossless at lossy
  rcases HttpStreamSession.tick_cases policy call.options call.input call.routes delivery.home
    delivery.session delivery.server whole.own with ⟨-, none⟩ | ⟨value, rest, -, -, none⟩ |
      ⟨drained, ticked, accounted⟩
  · rw [none] at lossy
    exact (lossy (by simp [Client.Lossless])).elim
  · rw [none] at lossy
    exact (lossy (by simp [Client.Lossless])).elim
  · rw [accounted.lossless_iff whole.expects] at lossy
    have complete := whole.complete
    rw [drained, List.append_nil] at complete
    have emitted := ticked.emitted_le
    refine ⟨⟨ticked.cursor_eq, ticked.pending_eq, ?_⟩, complete, _, rfl, ?_⟩
    · cases result : (delivery.session.tick (turnEndpoint producer schema) policy call.options
          call.input call.routes delivery.server).result with
      | batch position =>
          have last := ticked.batch_eq position result
          dsimp only
          omega
      | ended =>
          rw [result] at lossy
          exact lt_of_le_of_ne emitted (Ne.symm lossy)
      | threw =>
          rw [result] at lossy
          exact lt_of_le_of_ne emitted (Ne.symm lossy)
    · intro next returned
      have last := ticked.batch_eq next (mem_batch?.mp returned)
      rw [mem_batch?.mp returned] at lossy
      simp only [Result.batch?, Option.toList_some, List.length_singleton] at lossy
      omega

/-! ## Opening -/

omit [DecidableEq χ] in
/-- The answer to `/init`: the first batch of the stream, if the turn emitted one, and the
cursor if the stream goes on. -/
theorem handleOpen_decoded {tokens : Tokens} {request : Request ι} {server : Server σ}
    {decoded : Decoded χ Nat}
    (answer : (handleOpen producer schema tokens request server).1.decoded = some decoded) :
    (handleOpen producer schema tokens request server).2.drawn = server.drawn + 1 ∧
      (decoded.data = [] ∨ decoded.data = [⟨0, []⟩]) ∧
        (handleOpen producer schema tokens request server).2.emitted
          (tokens.cursor server.drawn) = decoded.data.length ∧
          (controlCursor decoded.control = [] ∨
            controlCursor decoded.control = tokens.cursor server.drawn) := by
  unfold handleOpen at answer ⊢
  split at answer
  next => cases answer
  next => cases answer
  next start found =>
      generalize producer.process start request.input = step at answer ⊢
      rcases step with ⟨turn, state⟩
      rcases Turn.reply_decoded answer with ⟨data, control⟩
      refine ⟨rfl, ?_, ?_, ?_⟩
      · rw [data]
        cases turn.emits with
        | false => exact .inl rfl
        | true => exact .inr rfl
      · rw [data]
        cases emits : turn.emits <;>
          simp [Server.emitted, Server.put, Stream.after, emits]
      · rcases control with ⟨same, -⟩ | ⟨none, -⟩
        · right
          rw [same, HttpStreamSession.controlCursor_singleton]
        · left
          rw [none, HttpStreamSession.controlCursor_nil]

omit [DecidableEq χ] in
theorem openStream_producer {S β : Type} {endpoint : Endpoint S ι χ β} {inputSchema : Option χ}
    {options : CallOptions} {input : ι} {route : Route} {server after : S}
    {session : HttpStreamSession χ β}
    (opened : HttpStreamSession.openStream endpoint policy .producer inputSchema options input route
      server = (some session, after)) :
    ∃ decoded,
      decode (post endpoint policy ⟨[], [], false, input⟩ options true route server) = some decoded ∧
        after = (post endpoint policy ⟨[], [], false, input⟩ options true route server).server ∧
          session.pending = decoded.data.map Output.batch ∧
            session.cursor = controlCursor decoded.control ∧
              session.outputSchema = some decoded.schema := by
  unfold HttpStreamSession.openStream at opened
  dsimp only at opened
  split at opened
  next => cases opened
  next decoded answer =>
      split at opened
      next => cases opened
      next made built =>
          rw [if_neg (by decide)] at opened
          cases opened
          unfold HttpStreamSession.make at built
          split at built
          next => cases built
          next =>
              cases built
              exact ⟨decoded, answer, rfl, rfl, rfl, rfl⟩

omit [DecidableEq χ] in
theorem handleOpen_schema {tokens : Tokens} {request : Request ι} {server : Server σ}
    {decoded : Decoded χ Nat}
    (answer : (handleOpen producer schema tokens request server).1.decoded = some decoded) :
    decoded.schema = schema := by
  unfold handleOpen at answer
  split at answer
  next => cases answer
  next => cases answer
  next start found =>
      generalize producer.process start request.input = step at answer
      exact Turn.reply_schema answer

/-- A session that was opened is about its stream, of which the first batch may wait. -/
theorem start_spec {tokens : Tokens} {emptySchema : χ} {options : CallOptions} {input : ι}
    {route : Route} {server : Server σ}
    (opened : start producer schema emptySchema tokens policy options input route server =
      some delivery) :
    Whole schema delivery ∧ (delivery.session.pending = [] ∨
      delivery.session.pending = [0] ∧ delivery.server.emitted delivery.home = 1) := by
  unfold start at opened
  split at opened
  next => cases opened
  next session after made =>
      cases opened
      rcases openStream_producer made with ⟨decoded, answer, rfl, pending, cursor, expected⟩
      rcases decode_eq_some answer with ⟨status, reply, held, carried⟩
      rcases (post_follows options true route server).held status reply held with
        ⟨-, middle, -, handled⟩
      have answered : (handleOpen producer schema tokens ⟨[], [], false, input⟩ middle).1.decoded =
          some decoded := by
        rw [show handleOpen producer schema tokens ⟨[], [], false, input⟩ middle = _ from handled]
        exact carried
      have typed := handleOpen_schema answered
      have facts := handleOpen_decoded answered
      rw [show handleOpen producer schema tokens ⟨[], [], false, input⟩ middle = _ from handled]
        at facts
      dsimp only at facts
      rcases facts with ⟨drawn, data, count, bearer⟩
      rw [← cursor] at bearer
      rw [drawn, Nat.add_sub_cancel]
      refine ⟨⟨bearer, ?_, ?_⟩, ?_⟩
      · simp [HttpStreamSession.Expects, expected, typed]
      · dsimp only
        rw [count, pending]
        rcases data with none | one
        · simp [none]
        · simp [one]
      · rcases data with none | one
        · exact .inl (by rw [pending, none, List.map_nil])
        · refine .inr ⟨by rw [pending, one]; rfl, ?_⟩
          dsimp only
          rw [count, one]
          rfl

/-- What a run from a whole delivery returns if a tick of it is not lossless. -/
theorem Whole.lost (whole : Whole schema delivery) {before : List (TickCall ι)} {call : TickCall ι}
    (after : List (TickCall ι)) (lossless : delivery.LosslessRun producer schema policy before)
    (lossy : ¬(delivery.run producer schema policy before).Lossless producer schema policy call) :
    let final := delivery.run producer schema policy (before ++ call :: after)
    (final.returned <+: List.range (final.server.emitted final.home) ↔
      final.returned = (delivery.run producer schema policy before).returned) := by
  obtain ⟨behind, returned, first, first_eq, later⟩ := (whole.run lossless).lose call lossy
  obtain ⟨last, rest, rest_eq, behind⟩ :=
    behind.run producer schema policy after
  intro final
  have split : final = ((delivery.run producer schema policy before).tick producer schema policy
      call).run producer schema policy after := List.foldl_append ..
  have all : final.returned = (delivery.run producer schema policy before).returned ++
      (first ++ rest) := by
    rw [split, rest_eq, first_eq, List.append_assoc]
  have beyond : ∀ next ∈ first ++ rest, _ < next := List.forall_mem_append.mpr ⟨later, behind⟩
  rw [← split] at last
  rw [all, List.append_right_eq_self, returned]
  exact append_prefix_iff beyond last.emitted.le

end Delivery

/-! ## Delivery without gaps -/

/-- A producer that emits a batch in every turn. -/
def counter : Producer Nat Unit where
  factory _ := .ok 0
  process state _ := (⟨true, .continues⟩, state + 1)

def emptyServer : Server Nat := ⟨fun _ => none, 0⟩

def sampleTokens : Tokens := ⟨fun number => [UInt8.ofNat (number + 1)], fun _ => [7]⟩

/-- A tick of one request with the given attempts. -/
def tickOf (idempotent : Bool) (fates : List Fate) : TickCall Unit :=
  ⟨⟨idempotent⟩, (), [plainRoute fates]⟩

/-- Three attempts, and 503 is retryable. -/
def threeAttempts : RetryPolicy := ⟨3, [503]⟩

def counterStart : Option (Delivery Nat Unit) :=
  Delivery.start counter () () sampleTokens threeAttempts ⟨false⟩ () (plainRoute [.delivered true])
    emptyServer

theorem counterStart_isSome : counterStart.isSome = true := by decide

/-- A stream of `counter` that was opened. -/
def counterOpened : Delivery Nat Unit := counterStart.get counterStart_isSome

/-- The stream, ticked. -/
def counterRun (calls : List (TickCall Unit)) : Delivery Nat Unit :=
  counterOpened.run counter () threeAttempts calls

end VgiRpc.Http.Client
