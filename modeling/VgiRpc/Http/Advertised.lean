import VgiRpc.Http.Stream

/-!
# The stream registry and what the client was told

After a request was dispatched to a stream, the cursor should be registered if and
only if the answer told the client to continue with it.  Every exit keeps to this
except one: a turn of a continuation that throws something other than a
`std::exception` answers an error and leaves the session registered.
-/

namespace VgiRpc.Http

open VgiRpc.Cpp

/-! ## The property and the exception -/

namespace Request

/-- The cursor that a request is about. -/
def cursor : Request → Bytes
  | .init cursor _ _ => cursor
  | .continuation cursor _ _ _ _ => cursor

end Request

namespace Outcome

/-- Something other than a `std::exception` leaves the turn: from `process`, or from
the upload that follows it. -/
def throwsOther (outcome : Outcome) (isExchange : Bool) : Bool :=
  match outcome.process with
  | .error thrown => thrown = .other
  | .ok (_, finished) =>
      !(isExchange && finished) && (match outcome.upload with
        | .error thrown => thrown = .other
        | .ok _ => false)

end Outcome

namespace Exchange

/-- The registry agrees with the answer. -/
def Agrees (exchange : Exchange) : Prop :=
  exchange.dispatched = true →
    ((exchange.after.lookup exchange.request.cursor).isSome = true ↔
      exchange.response.advertises exchange.request.cursor = true)

/-- A turn of a continuation throws something other than a `std::exception`. -/
def Escapes (config : StreamConfig) (exchange : Exchange) : Prop :=
  match exchange.request with
  | .init _ _ _ => False
  | .continuation cursor scope callToken _ cancel =>
      cancel = false ∧
        (findStream config exchange.before cursor scope callToken).any (fun session =>
          exchange.outcome.throwsOther session.isExchange) = true

/-- `/init` draws a cursor that is not in use. -/
def Fresh (exchange : Exchange) : Prop :=
  match exchange.request with
  | .init cursor _ _ => exchange.before.lookup cursor = none
  | .continuation _ _ _ _ _ => True

instance (exchange : Exchange) : Decidable exchange.Agrees :=
  inferInstanceAs (Decidable (_ → (_ ↔ _)))

instance (config : StreamConfig) (exchange : Exchange) : Decidable (exchange.Escapes config) :=
  match exchange with
  | ⟨.init _ _ _, _, _, _, _, _⟩ => inferInstanceAs (Decidable False)
  | ⟨.continuation _ _ _ _ _, _, _, _, _, _⟩ => inferInstanceAs (Decidable (_ ∧ _))

instance (exchange : Exchange) : Decidable exchange.Fresh :=
  match exchange with
  | ⟨.init _ _ _, _, _, _, _, _⟩ => inferInstanceAs (Decidable (_ = _))
  | ⟨.continuation _ _ _ _ _, _, _, _, _, _⟩ => inferInstanceAs (Decidable True)

end Exchange

/-! ## The registry -/

namespace Registry

theorem lookup_filter_ne (registry : Registry) (cursor : Bytes) :
    (registry.filter fun item => item.1 ≠ cursor).lookup cursor = none := by
  rw [List.lookup_eq_none_iff]
  intro item mem
  rw [List.mem_filter, decide_eq_true_eq] at mem
  exact bne_iff_ne.mpr (Ne.symm mem.2)

@[simp] theorem lookup_erase (registry : Registry) (cursor : Bytes) :
    (registry.erase cursor).lookup cursor = none := lookup_filter_ne registry cursor

@[simp] theorem lookup_insert (registry : Registry) (cursor : Bytes) (session : StreamSession) :
    (registry.insert cursor session).lookup cursor = some session := by
  simp [insert]

end Registry

/-! ## Bodies -/

/-- Some batch carries the cursor. -/
def Built.carries (built : Built) (cursor : Bytes) : Bool :=
  (built.inline ++ built.stored).any fun batch => batch.cursor = some cursor

theorem externalize_ok {upload : Except Throw (Option Nat)}
    {batches inline stored : List WireBatch} {bytes : Nat}
    (done : externalize upload batches = .ok (inline, stored, bytes)) (cursor : Bytes) :
    ((inline ++ stored).any fun batch => batch.cursor = some cursor) =
      batches.any fun batch => batch.cursor = some cursor := by
  unfold externalize at done
  split at done
  next => simp at done
  next =>
    simp only [Except.ok.injEq, Prod.mk.injEq] at done
    rcases done with ⟨rfl, rfl, -⟩
    rw [List.append_nil]
  next =>
    simp only [Except.ok.injEq, Prod.mk.injEq] at done
    rcases done with ⟨rfl, rfl, -⟩
    simp [pointerBatch]

theorem runProducerTurns_ok {outcome : Outcome} {built : Built}
    (ran : runProducerTurns outcome = .ok built) (cursor : Bytes) :
    built.carries cursor = false ∧ (built.failed = true → built.finished = true) := by
  rw [runProducerTurns] at ran
  split at ran
  next =>
    rw [← Except.ok.inj ran]
    simp [Built.carries]
  next => simp at ran
  next batches finished _ =>
    split at ran
    next => simp at ran
    next inline stored bytes uploaded =>
      rw [← Except.ok.inj ran, Built.carries, externalize_ok uploaded]
      simp [plainBatch]

/-- A producer body carries the cursor unless it was the last turn. -/
theorem producerBody_ok {cursor : Bytes} {outcome : Outcome} {built : Built}
    (made : producerBody cursor outcome = .ok built) :
    built.carries cursor = !built.finished ∧ (built.failed = true → built.finished = true) := by
  rw [producerBody] at made
  split at made
  next => simp at made
  next ran turned =>
    have turn := runProducerTurns_ok turned cursor
    split at made
    next => simp at made
    next =>
      split at made
      next finished =>
        rw [← Except.ok.inj made, finished]
        exact ⟨turn.1, fun _ => rfl⟩
      next unfinished =>
        rw [← Except.ok.inj made]
        refine ⟨?_, turn.2⟩
        simp [Built.carries, cursorBatch, unfinished]

/-- The last batch of an exchange turn carries the cursor if it has rows. -/
theorem merged_any_of_last {batches : List Nat} (rows : ¬batches.getLast?.getD 0 = 0)
    (cursor : Bytes) :
    ((batches.map fun numRows => if 0 < numRows then (⟨numRows, some cursor, false⟩ : WireBatch)
      else plainBatch numRows).any fun batch => batch.cursor = some cursor) = true := by
  cases last : batches.getLast? with
  | none => simp [last] at rows
  | some numRows =>
      rw [last, Option.getD_some] at rows
      rw [List.any_eq_true]
      refine ⟨⟨numRows, some cursor, false⟩, ?_, by simp⟩
      rw [List.mem_map]
      exact ⟨numRows, List.mem_of_getLast? last, if_pos (Nat.pos_of_ne_zero rows)⟩

/-- An exchange body always carries the cursor. -/
theorem exchangeBody_ok {cursor : Bytes} {outcome : Outcome} {built : Built}
    (made : exchangeBody cursor outcome = .ok built) :
    built.carries cursor = true ∧ built.finished = false ∧ built.failed = false := by
  rw [exchangeBody] at made
  split at made
  next => simp at made
  next => simp at made
  next batches _ =>
    simp only at made
    split at made
    next => simp at made
    next inline stored bytes uploaded =>
      split at made
      next => simp at made
      next =>
        rw [← Except.ok.inj made]
        refine ⟨?_, rfl, rfl⟩
        have same := externalize_ok uploaded cursor
        rw [Built.carries, List.append_assoc, List.any_append, List.any_append]
        by_cases trailing : batches.getLast?.getD 0 = 0
        · simp [trailing, cursorBatch]
        · rw [if_neg trailing, List.any_nil, Bool.false_or, ← List.any_append, same]
          exact merged_any_of_last trailing cursor

theorem exchangeBody_error_other {cursor : Bytes} {outcome : Outcome} :
    exchangeBody cursor outcome = .error .other ↔ outcome.throwsOther true = true := by
  rcases outcome with ⟨process, upload, writeFails, bodySize⟩
  cases process with
  | error thrown => simp [exchangeBody, Outcome.throwsOther]
  | ok result =>
      rcases result with ⟨batches, finished⟩
      cases finished with
      | true => simp [exchangeBody, Outcome.throwsOther]
      | false =>
          cases upload with
          | error thrown => simp [exchangeBody, externalize, Outcome.throwsOther]
          | ok stored =>
              cases stored <;> cases writeFails <;>
                simp [exchangeBody, externalize, Outcome.throwsOther]

theorem producerBody_error_other {cursor : Bytes} {outcome : Outcome} :
    producerBody cursor outcome = .error .other ↔ outcome.throwsOther false = true := by
  rcases outcome with ⟨process, upload, writeFails, bodySize⟩
  cases process with
  | error thrown =>
      cases thrown <;> cases writeFails <;>
        simp [producerBody, runProducerTurns, Outcome.throwsOther]
  | ok result =>
      rcases result with ⟨batches, finished⟩
      cases upload with
      | error thrown => simp [producerBody, runProducerTurns, externalize, Outcome.throwsOther]
      | ok stored =>
          cases stored <;> cases writeFails <;> cases finished <;>
            simp [producerBody, runProducerTurns, externalize, Outcome.throwsOther]

/-! ## Each request -/

/-- The answer of a body that goes out advertises the cursor as long as the stream is
not finished. -/
theorem advertises_of_built {cursor : Bytes} {built : Built}
    (carries : built.carries cursor = !built.finished)
    (failed : built.failed = true → built.finished = true) :
    Response.advertises ⟨200, built.failed, built.inline, built.stored⟩ cursor =
      !built.finished := by
  rw [Response.advertises, ← Built.carries, carries]
  cases finished : built.finished with
  | true => simp
  | false =>
      have sound : built.failed = false := by
        by_contra wrong
        rw [Bool.not_eq_false] at wrong
        rw [failed wrong] at finished
        simp at finished
      simp [sound]

@[simp] theorem advertises_error (cursor : Bytes) : Response.error.advertises cursor = false := rfl

@[simp] theorem advertises_internalError (cursor : Bytes) :
    Response.internalError.advertises cursor = false := rfl

/-- A turn erases its session exactly if its answer does not advertise the cursor,
unless it throws something other than a `std::exception`. -/
theorem dispatchTurn_erases (config : StreamConfig) (session : StreamSession) (cursor : Bytes)
    (limit : Option Int) (cancel : Bool) (outcome : Outcome) :
    (dispatchTurn config session cursor limit cancel outcome).1 =
        !(dispatchTurn config session cursor limit cancel outcome).2.advertises cursor ↔
      ¬(cancel = false ∧ outcome.throwsOther session.isExchange = true) := by
  cases cancel with
  | true =>
      simp only [dispatchTurn, if_true, Bool.true_eq_false, false_and, not_false_eq_true, iff_true]
      split
      next => simp
      next =>
        split
        next => simp
        next => simp [Response.advertises]
  | false =>
      have escapes : (if session.isExchange then exchangeBody cursor outcome
          else producerBody cursor outcome) = .error .other ↔
          outcome.throwsOther session.isExchange = true := by
        cases session.isExchange with
        | true => exact exchangeBody_error_other
        | false => exact producerBody_error_other
      have sound {built : Built} (made : (if session.isExchange then exchangeBody cursor outcome
          else producerBody cursor outcome) = .ok built) :
          built.carries cursor = !built.finished ∧
            (built.failed = true → built.finished = true) := by
        cases kind : session.isExchange with
        | true =>
            rw [kind, if_pos rfl] at made
            have body := exchangeBody_ok made
            rw [body.1, body.2.1, body.2.2]
            simp
        | false =>
            rw [kind, if_neg (by simp)] at made
            exact producerBody_ok made
      simp only [dispatchTurn, Bool.false_eq_true, if_false, true_and]
      split
      next thrown =>
        rw [thrown] at escapes
        simpa using escapes
      next thrown =>
        rw [thrown] at escapes
        simpa using escapes
      next built made =>
        have calm : ¬outcome.throwsOther session.isExchange = true := by
          rw [← escapes, made]
          simp
        have body := sound made
        split
        next => simpa using calm
        next =>
          split
          next => simpa using calm
          next =>
            rw [advertises_of_built body.1 body.2]
            simpa using calm

theorem findStream_some {config : StreamConfig} {registry : Registry}
    {cursor scope callToken : Bytes} {session : StreamSession}
    (found : findStream config registry cursor scope callToken = some session) :
    registry.lookup cursor = some session := by
  unfold findStream at found
  split at found
  next => simp at found
  next =>
    split at found
    next => simp at found
    next registered =>
      split at found
      next => simp at found
      next =>
        split at found
        next => simp at found
        next =>
          rw [registered]
          exact found

/-- A body of `/init` that goes out carries the cursor unless the stream is finished. -/
theorem initBody_ok {cursor : Bytes} {session : StreamSession} {outcome : Outcome} {built : Built}
    (made : (if session.isExchange then
        if outcome.writeFails then .error .standard
        else .ok ⟨[cursorBatch cursor], [], false, false, 0⟩
      else producerBody cursor outcome) = Except.ok built) :
    built.carries cursor = !built.finished ∧ (built.failed = true → built.finished = true) := by
  split at made
  next =>
    split at made
    next => simp at made
    next =>
      rw [← Except.ok.inj made]
      simp [Built.carries, cursorBatch]
  next => exact producerBody_ok made

/-- `/init` of a fresh cursor registers it exactly if it advertises it. -/
theorem handleInit_agrees (config : StreamConfig) {registry : Registry} {cursor : Bytes}
    (session : StreamSession) (factory : Except Throw Unit) (outcome : Outcome)
    (fresh : registry.lookup cursor = none) :
    ((handleInit config registry cursor session factory outcome).1.lookup cursor).isSome =
      (handleInit config registry cursor session factory outcome).2.advertises cursor := by
  unfold handleInit
  split
  next => simp [fresh]
  next => simp [fresh]
  next =>
    simp only
    split
    next => simp
    next => simp [fresh]
    next built made =>
      have body := initBody_ok made
      split
      next => simp
      next =>
        split
        next => simp
        next =>
          rw [advertises_of_built body.1 body.2]
          cases finished : built.finished with
          | true => simp [fresh]
          | false => simp

/-- One request: the registry agrees with the answer unless the turn escapes. -/
theorem handle_agrees {config : StreamConfig} {registry : Registry} {request : Request}
    {outcome : Outcome} (fresh : (handle config registry request outcome).Fresh) :
    (handle config registry request outcome).Agrees ↔
      ¬(handle config registry request outcome).Escapes config := by
  cases request with
  | init cursor session factory =>
      have agrees := handleInit_agrees config session factory outcome fresh
      simp only [handle] at agrees
      simp only [handle, Exchange.Agrees, Exchange.Escapes, Request.cursor, not_false_eq_true,
        iff_true]
      intro _
      rw [agrees]
  | continuation cursor scope callToken limit cancel =>
      cases found : findStream config registry cursor scope callToken with
      | none => simp [handle, found, Exchange.Agrees, Exchange.Escapes]
      | some session =>
          have turn := dispatchTurn_erases config session cursor limit cancel outcome
          have registered := findStream_some found
          simp only [handle, found, Exchange.Agrees, Exchange.Escapes, Request.cursor,
            forall_const, Option.any_some]
          rw [← turn]
          cases (dispatchTurn config session cursor limit cancel outcome).1 with
          | true => simp
          | false => simp [registered]

/-- What is true of every request that is handled is true of a whole sequence. -/
theorem forall_serve {config : StreamConfig} {motive : Exchange → Prop}
    (each : ∀ registry request outcome, motive (handle config registry request outcome)) :
    ∀ (history : List (Request × Outcome)) (registry : Registry),
      ∀ exchange ∈ serve config registry history, motive exchange := by
  intro history
  induction history with
  | nil =>
      intro registry exchange mem
      simp [serve] at mem
  | cons item rest ih =>
      intro registry exchange mem
      rw [serve, List.mem_cons] at mem
      rcases mem with rfl | mem
      · exact each registry item.1 item.2
      · exact ih _ exchange mem

/-- Over every sequence of stream requests: the registry agrees with every answer if
and only if no turn of a continuation throws something other than a `std::exception`. -/
theorem registry_agrees_iff (config : StreamConfig) (history : List (Request × Outcome))
    (fresh : ∀ exchange ∈ serve config [] history, exchange.Fresh) :
    (∀ exchange ∈ serve config [] history, exchange.Agrees) ↔
      ∀ exchange ∈ serve config [] history, ¬exchange.Escapes config := by
  have each := forall_serve (motive := fun exchange => exchange.Fresh →
    (exchange.Agrees ↔ ¬exchange.Escapes config)) (fun _ _ _ => handle_agrees) history []
  constructor
  · intro agrees exchange mem
    exact (each exchange mem (fresh exchange mem)).mp (agrees exchange mem)
  · intro calm exchange mem
    exact (each exchange mem (fresh exchange mem)).mpr (calm exchange mem)

/-! ## A producer that throws an `int` -/

def sampleConfig : StreamConfig := ⟨-1, true, fun _ _ => none⟩

def sampleSession : StreamSession := ⟨0, false, [112], [], none⟩

/-- A turn that emits one row. -/
def rowOutcome : Outcome := ⟨.ok ([1], false), .ok none, false, 100⟩

/-- `throw 42` inside `process`. -/
def thrownOutcome : Outcome := ⟨.error .other, .ok none, false, 0⟩

/-- The last turn. -/
def finishOutcome : Outcome := ⟨.ok ([], true), .ok none, false, 100⟩

/-- `/init`, one turn, and the last turn. -/
def finishedHistory : List (Request × Outcome) :=
  [(.init [7] sampleSession (.ok ()), rowOutcome),
    (.continuation [7] [] [] none false, rowOutcome),
    (.continuation [7] [] [] none false, finishOutcome)]

/-- `/init`, and a turn that throws an `int`. -/
def thrownHistory : List (Request × Outcome) :=
  [(.init [7] sampleSession (.ok ()), rowOutcome),
    (.continuation [7] [] [] none false, thrownOutcome)]

theorem finishedHistory_agrees :
    (∀ exchange ∈ serve sampleConfig [] finishedHistory, exchange.Fresh) ∧
      ∀ exchange ∈ serve sampleConfig [] finishedHistory, exchange.Agrees := by
  have fresh : ∀ exchange ∈ serve sampleConfig [] finishedHistory, exchange.Fresh := by decide
  constructor
  · exact fresh
  · apply (registry_agrees_iff sampleConfig finishedHistory fresh).mpr
    decide

/-- The answer is a 500, and the cursor stays registered. -/
theorem thrownHistory_disagrees :
    (∀ exchange ∈ serve sampleConfig [] thrownHistory, exchange.Fresh) ∧
      ¬∀ exchange ∈ serve sampleConfig [] thrownHistory, exchange.Agrees := by
  decide

end VgiRpc.Http
