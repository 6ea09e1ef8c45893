import VgiRpc.Http.Delivery

/-!
# Resume tokens

`next_with_token` pairs a batch with a token that is documented to resume behind it.  The
token carries the cursor and the call state, and the server has one state behind the
cursor.  So the tick of a resumed session goes on where the stream is, not where the token
was handed out.
-/

namespace VgiRpc.Http.Client

open VgiRpc.Cpp

/-! ## The token -/

/-- Four bytes of a number below 2³², the least significant first. -/
theorem le32_recompose (size : Nat) (short : size < 2 ^ 32) :
    (UInt8.ofNat (size >>> 0)).toNat ||| (UInt8.ofNat (size >>> 8)).toNat <<< 8 |||
      (UInt8.ofNat (size >>> 16)).toNat <<< 16 ||| (UInt8.ofNat (size >>> 24)).toNat <<< 24 = size := by
  apply Nat.eq_of_testBit_eq
  intro bit
  have high : 32 ≤ bit → size.testBit bit = false := by
    intro outside
    exact Nat.testBit_lt_two_pow (short.trans_le (Nat.pow_le_pow_right (by decide) outside))
  -- The bit comes from the one byte that it falls into.
  have byte : ∀ shift, shift ≤ bit → size.testBit (shift + (bit - shift)) = size.testBit bit := by
    intro shift inside
    rw [Nat.add_sub_of_le inside]
  simp only [UInt8.toNat_ofNat', Nat.testBit_or, Nat.testBit_shiftLeft, Nat.testBit_mod_two_pow,
    Nat.testBit_shiftRight]
  grind

/-- A token unpacks to what was packed. -/
theorem unpack_pack {cursor callState token : Bytes}
    (packed : packResumeToken cursor callState = some token) :
    unpackResumeToken token = some (cursor, callState) := by
  unfold packResumeToken at packed
  split at packed
  next => cases packed
  next short =>
      cases packed
      have size := le32_recompose cursor.length (by omega)
      simp only [List.map_cons, List.map_nil, List.cons_append, List.nil_append, unpackResumeToken,
        size]
      simp

/-! ## Operations on the session that hands the token out -/

variable {σ ι χ : Type} [DecidableEq χ]

/-- An operation of the holder of a producer session. -/
inductive HolderCall (ι : Type) where
  | tick (call : TickCall ι)
  | nextWithToken (call : TickCall ι)
  | cancel (input : ι) (route : Route)
  | close

/-- A session and the server that it talks to. -/
structure Holder (σ χ : Type) where
  session : HttpStreamSession χ Nat
  server : Server σ

namespace Holder

/-- Perform one operation, whatever it returns. -/
def perform (producer : Producer σ ι) (schema : χ) (policy : RetryPolicy) (holder : Holder σ χ) :
    HolderCall ι → Holder σ χ
  | .tick call =>
      let called := holder.session.tick (turnEndpoint producer schema) policy call.options
        call.input call.routes holder.server
      ⟨called.session, called.server⟩
  | .nextWithToken call =>
      let called := holder.session.nextWithToken (turnEndpoint producer schema) policy call.options
        call.input call.routes holder.server
      ⟨called.session, called.server⟩
  | .cancel input route =>
      let called := holder.session.cancel (turnEndpoint producer schema) policy input route
        holder.server
      ⟨called.session, called.server⟩
  | .close => ⟨holder.session.close, holder.server⟩

/-- Any number of operations. -/
def run (producer : Producer σ ι) (schema : χ) (policy : RetryPolicy) (holder : Holder σ χ)
    (calls : List (HolderCall ι)) : Holder σ χ :=
  calls.foldl (perform producer schema policy) holder

/-- No attempt of the operation runs a turn that emits a batch.  A cancel runs no turn. -/
def Quiet (producer : Producer σ ι) (schema : χ) (policy : RetryPolicy) (home : Bytes)
    (holder : Holder σ χ) : HolderCall ι → Prop
  | .tick call | .nextWithToken call =>
      ∀ attempt ∈ holder.session.tickAttempts (turnEndpoint producer schema) policy call.options
        call.input call.routes holder.server, attempt.emits producer home call.input = false
  | .cancel _ _ | .close => True

/-- None of the operations does. -/
def QuietRun (producer : Producer σ ι) (schema : χ) (policy : RetryPolicy) (home : Bytes)
    (holder : Holder σ χ) : List (HolderCall ι) → Prop
  | [] => True
  | call :: calls =>
      holder.Quiet producer schema policy home call ∧
        QuietRun producer schema policy home (holder.perform producer schema policy call) calls

instance decidableQuiet (producer : Producer σ ι) (schema : χ) (policy : RetryPolicy)
    (home : Bytes) (holder : Holder σ χ) (call : HolderCall ι) :
    Decidable (holder.Quiet producer schema policy home call) :=
  match call with
  | .tick _ | .nextWithToken _ => inferInstanceAs (Decidable (∀ _ ∈ _, _))
  | .cancel _ _ | .close => inferInstanceAs (Decidable True)

instance decidableQuietRun (producer : Producer σ ι) (schema : χ) (policy : RetryPolicy)
    (home : Bytes) (holder : Holder σ χ) (calls : List (HolderCall ι)) :
    Decidable (holder.QuietRun producer schema policy home calls) :=
  match calls with
  | [] => inferInstanceAs (Decidable True)
  | call :: calls =>
      have := decidableQuietRun producer schema policy home
        (holder.perform producer schema policy call) calls
      inferInstanceAs (Decidable (_ ∧ _))

/-- The session is about one stream, and a batch that waits is the last one emitted. -/
structure Placed (home : Bytes) (holder : Holder σ χ) : Prop where
  own : holder.session.cursor = [] ∨ holder.session.cursor = home
  waiting : holder.session.pending = [] ∨
    ∃ position, holder.session.pending = [position] ∧ holder.server.emitted home = position + 1

variable {producer : Producer σ ι} {schema : χ} {policy : RetryPolicy} {home : Bytes}
  {holder : Holder σ χ}

/-- What a tick leaves: the session in place, nothing taken back, and a batch that was
returned is the last one emitted. -/
theorem Placed.tick (placed : Placed home holder) (call : TickCall ι) :
    Placed home (holder.perform producer schema policy (.tick call)) ∧
      holder.server.emitted home ≤
        (holder.perform producer schema policy (.tick call)).server.emitted home ∧
      ∀ position,
        (holder.session.tick (turnEndpoint producer schema) policy call.options call.input
          call.routes holder.server).result = .batch position →
            (holder.perform producer schema policy (.tick call)).server.emitted home =
              position + 1 := by
  simp only [perform]
  rcases HttpStreamSession.tick_cases policy call.options call.input call.routes home
    holder.session holder.server placed.own with ⟨failed, -⟩ | ⟨value, rest, pending, handed, -⟩ |
      ⟨drained, ticked, -⟩
  · rw [failed]
    exact ⟨placed, Nat.le_refl _, fun position returned => by cases returned⟩
  · rw [handed]
    rcases placed.waiting with drained | ⟨position, one, count⟩
    · rw [pending] at drained
      cases drained
    · rw [pending, List.cons.injEq] at one
      rcases one with ⟨rfl, rfl⟩
      refine ⟨⟨placed.own, .inl rfl⟩, Nat.le_refl _, ?_⟩
      intro position returned
      cases returned
      exact count
  · exact ⟨⟨ticked.cursor_eq, .inl ticked.pending_eq⟩, ticked.emitted_le,
      fun position returned => (ticked.batch_eq position returned).2⟩

/-- `next_with_token` leaves what its tick leaves. -/
theorem perform_nextWithToken (holder : Holder σ χ) (call : TickCall ι) :
    holder.perform producer schema policy (.nextWithToken call) = holder ∨
      holder.perform producer schema policy (.nextWithToken call) =
        holder.perform producer schema policy (.tick call) := by
  simp only [perform, HttpStreamSession.nextWithToken]
  split
  next => exact .inl rfl
  next => exact .inr rfl

variable (producer schema policy) in
/-- Every operation keeps the session in place and takes nothing back. -/
theorem Placed.perform (placed : Placed home holder) (call : HolderCall ι) :
    Placed home (holder.perform producer schema policy call) ∧
      holder.server.emitted home ≤
        (holder.perform producer schema policy call).server.emitted home := by
  cases call with
  | tick call =>
      rcases placed.tick call with ⟨still, more, -⟩
      exact ⟨still, more⟩
  | nextWithToken call =>
      rcases perform_nextWithToken holder call with same | same
      · rw [same]
        exact ⟨placed, Nat.le_refl _⟩
      · rw [same]
        rcases placed.tick call with ⟨still, more, -⟩
        exact ⟨still, more⟩
  | cancel input route =>
      simp only [Holder.perform, HttpStreamSession.cancel]
      split
      next => exact ⟨⟨placed.own, .inl rfl⟩, Nat.le_refl _⟩
      next => exact ⟨⟨placed.own, .inl rfl⟩, emitted_le_post _ _ _ _ _ _ _⟩
  | close => exact ⟨⟨placed.own, .inl rfl⟩, Nat.le_refl _⟩

variable (producer schema policy) in
theorem Placed.run (placed : Placed home holder) (calls : List (HolderCall ι)) :
    Placed home (holder.run producer schema policy calls) ∧
      holder.server.emitted home ≤
        (holder.run producer schema policy calls).server.emitted home := by
  induction calls generalizing holder with
  | nil => exact ⟨placed, Nat.le_refl _⟩
  | cons call calls ih =>
      rcases placed.perform producer schema policy call with ⟨still, more⟩
      rcases ih still with ⟨placed, rest⟩
      exact ⟨placed, more.trans rest⟩

omit [DecidableEq χ] in
/-- A cancel emits nothing. -/
theorem emitted_handleCancel {request : Request ι} (cancels : request.cancel = true)
    (server : Server σ) (cursor : Bytes) :
    (handleTurn producer schema request server).2.emitted cursor = server.emitted cursor := by
  unfold handleTurn
  cases found : server.streams request.cursor with
  | none => rfl
  | some stream =>
      simp only [cancels, if_true]
      split
      next => rfl
      next =>
          by_cases same : cursor = request.cursor
          · rw [same, Server.emitted_put]
            simp [Server.emitted, found]
          · exact emitted_put_of_ne same

omit [DecidableEq χ] in
theorem emitted_postCancel {request : Request ι} (cancels : request.cancel = true)
    (route : Route) (server : Server σ) (cursor : Bytes) :
    (post (turnEndpoint producer schema) policy request ⟨false⟩ false route server).server.emitted
      cursor = server.emitted cursor := by
  have follows : Follows (turnEndpoint producer schema) request server
      (post (turnEndpoint producer schema) policy request ⟨false⟩ false route server) :=
    post_follows ..
  have reached := follows.reached
  generalize (post (turnEndpoint producer schema) policy request ⟨false⟩ false route server).server =
    after at reached
  induction reached with
  | refl => rfl
  | tail _ handled ih =>
      rw [handled, ← ih]
      exact emitted_handleCancel cancels _ cursor

/-- A tick is quiet exactly if it adds nothing to the stream. -/
theorem Placed.quiet_tick_iff (placed : Placed home holder) (call : TickCall ι) :
    holder.Quiet producer schema policy home (.tick call) ↔
      (holder.perform producer schema policy (.tick call)).server.emitted home =
        holder.server.emitted home := by
  have emitted := HttpStreamSession.tick_emitted producer schema policy
    call.options call.input call.routes home holder.session holder.server placed.own
  simp only [Quiet, Holder.perform, emitted, Nat.add_eq_left, List.countP_eq_zero, Bool.not_eq_true]

variable (producer schema policy) in
/-- An operation is quiet exactly if it adds nothing to the stream. -/
theorem Placed.quiet_iff (placed : Placed home holder) (call : HolderCall ι) :
    holder.Quiet producer schema policy home call ↔
      (holder.perform producer schema policy call).server.emitted home =
        holder.server.emitted home := by
  cases call with
  | tick call => exact placed.quiet_tick_iff call
  | nextWithToken call =>
      have single : ¬1 < holder.session.pending.length := by
        rcases placed.waiting with drained | ⟨position, one, -⟩
        · simp [drained]
        · simp [one]
      have same : holder.perform producer schema policy (.nextWithToken call) =
          holder.perform producer schema policy (.tick call) := by
        simp only [Holder.perform, HttpStreamSession.nextWithToken, if_neg single]
      rw [same]
      exact placed.quiet_tick_iff call
  | cancel input route =>
      refine iff_of_true trivial ?_
      simp only [Holder.perform, HttpStreamSession.cancel]
      split
      next => rfl
      next => exact emitted_postCancel rfl _ _ _
  | close => exact iff_of_true trivial rfl

variable (producer schema policy) in
/-- So do any number of them. -/
theorem Placed.quietRun_iff (placed : Placed home holder) (calls : List (HolderCall ι)) :
    holder.QuietRun producer schema policy home calls ↔
      (holder.run producer schema policy calls).server.emitted home =
        holder.server.emitted home := by
  induction calls generalizing holder with
  | nil => exact iff_of_true trivial rfl
  | cons call calls ih =>
      obtain ⟨still, more⟩ := placed.perform producer schema policy call
      obtain ⟨-, rest⟩ := still.run producer schema policy calls
      have step := placed.quiet_iff producer schema policy call
      rw [QuietRun, step, ih still]
      change _ ↔ ((holder.perform producer schema policy call).run producer schema policy
        calls).server.emitted home = _
      omega

/-- A session that was just opened is in place. -/
theorem placed_of_start {tokens : Tokens} {emptySchema : χ} {options : CallOptions} {input : ι}
    {route : Route} {server : Server σ} {opened : Delivery σ χ}
    (start : Delivery.start producer schema emptySchema tokens policy options input route server =
      some opened) : Placed opened.home ⟨opened.session, opened.server⟩ := by
  obtain ⟨whole, waiting⟩ := Delivery.start_spec start
  refine ⟨whole.own, ?_⟩
  rcases waiting with drained | ⟨first, one⟩
  · exact .inl drained
  · exact .inr ⟨0, first, one⟩

end Holder

/-! ## Resuming -/

/-- The tick of a resumed session keeps to the token for the batch at `position`: it
returns the next batch, reports the end if there is no next batch, or fails. -/
def Honours (home : Bytes) (position : Nat)
    (called : Called (HttpStreamSession χ Nat) (Server σ) ι Nat) : Prop :=
  match called.result with
  | .batch next => next = position + 1
  | .ended => called.server.emitted home = position + 1 ∧ called.server.isLive home = false
  | .threw => True

/-- Since the token was handed out no operation of its holder ran a turn that emits a batch, and
every batch that the tick of the resumed session emits is taken. -/
def NothingSince (producer : Producer σ ι) (schema : χ) (policy : RetryPolicy) (home : Bytes)
    (holder : Holder σ χ) (further : List (HolderCall ι)) (resumed : HttpStreamSession χ Nat)
    (again : TickCall ι) : Prop :=
  holder.QuietRun producer schema policy home further ∧
    Lossless producer home again.input policy
      (resumed.tickAttempts (turnEndpoint producer schema) policy again.options again.input
        again.routes (holder.run producer schema policy further).server)

instance (producer : Producer σ ι) (schema : χ) (policy : RetryPolicy) (home : Bytes)
    (holder : Holder σ χ) (further : List (HolderCall ι)) (resumed : HttpStreamSession χ Nat)
    (again : TickCall ι) :
    Decidable (NothingSince producer schema policy home holder further resumed again) :=
  inferInstanceAs (Decidable (_ ∧ _))

/-- The tick of the resumed session is not answered: under the schema that the session expects no
attempt brings it a batch or the end of the stream. -/
def Unanswered (producer : Producer σ ι) (schema : χ) (policy : RetryPolicy) (home : Bytes)
    (holder : Holder σ χ) (further : List (HolderCall ι)) (resumed : HttpStreamSession χ Nat)
    (again : TickCall ι) : Prop :=
  resumed.Expects schema →
    ∀ attempt ∈ resumed.tickAttempts (turnEndpoint producer schema) policy again.options again.input
      again.routes (holder.run producer schema policy further).server,
        attempt.settles producer home again.input policy = false

instance (producer : Producer σ ι) (schema : χ) (policy : RetryPolicy) (home : Bytes)
    (holder : Holder σ χ) (further : List (HolderCall ι)) (resumed : HttpStreamSession χ Nat)
    (again : TickCall ι) :
    Decidable (Unanswered producer schema policy home holder further resumed again) :=
  inferInstanceAs (Decidable (_ → ∀ _ ∈ _, _))

/-- The session that a token gives: a new one of `resume_stream`, or the holder's own after
`seek_to_token`. -/
inductive Resumes (token : Bytes) (session : HttpStreamSession χ Nat) :
    HttpStreamSession χ Nat → Prop where
  | resumeStream {outputSchema inputSchema : χ} {resumed : HttpStreamSession χ Nat} :
      HttpStreamSession.resumeStream token outputSchema inputSchema = some resumed →
        Resumes token session resumed
  | seekToToken {resumed : HttpStreamSession χ Nat} :
      session.seekToToken token = some resumed → Resumes token session resumed

omit [DecidableEq χ] in
/-- A resumed session stands at the cursor of the token, with nothing pending. -/
theorem Resumes.spec {cursor callState token : Bytes} {session resumed : HttpStreamSession χ Nat}
    (packed : packResumeToken cursor callState = some token)
    (resumes : Resumes token session resumed) :
    resumed.cursor = cursor ∧ cursor ≠ [] ∧ resumed.pending = [] ∧ resumed.isFinished = false := by
  cases resumes with
  | resumeStream made =>
      simp only [HttpStreamSession.resumeStream, unpack_pack packed] at made
      split at made
      next => cases made
      next known =>
          cases made
          exact ⟨rfl, known, rfl, rfl⟩
  | seekToToken sought =>
      simp only [HttpStreamSession.seekToToken, unpack_pack packed] at sought
      split at sought
      next => cases sought
      next =>
          split at sought
          next => cases sought
          next known =>
              cases sought
              exact ⟨rfl, known, rfl, rfl⟩

omit [DecidableEq χ] in
/-- A batch with a token is one of the tick, and the token packs the session's cursor. -/
theorem withToken_eq {session : HttpStreamSession χ Nat} {result : Result Nat} {position : Nat}
    {token : Bytes} (given : session.withToken result = .batch (position, some token)) :
    result = .batch position ∧ packResumeToken session.cursor session.callState = some token := by
  unfold HttpStreamSession.withToken at given
  split at given
  next => cases given
  next => cases given
  next value =>
      split at given
      next => cases given
      next =>
          split at given
          next => cases given
          next =>
              split at given
              next => cases given
              next packed =>
                  cases given
                  exact ⟨rfl, packed⟩

/-- A call of `next_with_token` that gives a token leaves what its tick leaves. -/
theorem nextWithToken_eq {producer : Producer σ ι} {schema : χ} {policy : RetryPolicy}
    {holder : Holder σ χ} {call : TickCall ι} {position : Nat} {token : Bytes}
    (given : (holder.session.nextWithToken (turnEndpoint producer schema) policy call.options
      call.input call.routes holder.server).result = .batch (position, some token)) :
    (holder.session.tick (turnEndpoint producer schema) policy call.options call.input call.routes
        holder.server).result = .batch position ∧
      packResumeToken (holder.perform producer schema policy (.tick call)).session.cursor
        (holder.perform producer schema policy (.tick call)).session.callState = some token ∧
      holder.perform producer schema policy (.nextWithToken call) =
        holder.perform producer schema policy (.tick call) := by
  simp only [HttpStreamSession.nextWithToken] at given
  split at given
  next => cases given
  next single =>
      rcases withToken_eq given with ⟨returned, packed⟩
      refine ⟨returned, packed, ?_⟩
      simp only [Holder.perform, HttpStreamSession.nextWithToken, if_neg single]

omit [DecidableEq χ] in
/-- On a stream that emitted at least up to the token, the tick of a resumed session keeps
to the token if it returned all that was emitted since, and otherwise only by failing. -/
theorem honours_iff {home : Bytes} {position : Nat} {resumed : HttpStreamSession χ Nat}
    {server : Server σ} {called : Called (HttpStreamSession χ Nat) (Server σ) ι Nat}
    (ticked : HttpStreamSession.Ticked home resumed server called)
    (running : resumed.isFinished = false) (known : resumed.cursor ≠ [])
    (handed : position + 1 ≤ server.emitted home) :
    Honours home position called ↔
      (server.emitted home = position + 1 ∧
        called.server.emitted home =
          server.emitted home + called.result.batch?.toList.length) ∨ called.result = .threw := by
  have more := ticked.emitted_le
  unfold Honours
  cases result : called.result with
  | batch next =>
      have bounds := ticked.batch_eq next result
      simp only [Result.batch?, Option.toList_some, List.length_singleton, reduceCtorEq, or_false]
      omega
  | ended =>
      have dead : called.server.isLive home = false := by
        rcases ticked.ended result with ⟨finished | empty, -⟩ | dead
        · rw [running] at finished
          cases finished
        · exact absurd empty known
        · exact dead
      simp only [Result.batch?, Option.toList_none, List.length_nil, reduceCtorEq, or_false, dead,
        and_true]
      omega
  | threw => simp

omit [DecidableEq χ] in
/-- A session that was just resumed does not know of the end. -/
theorem poll_running {session : HttpStreamSession χ Nat} (drained : session.pending = [])
    (running : session.isFinished = false) (known : session.cursor ≠ []) : session.poll = none := by
  simp [HttpStreamSession.poll, drained, running, known]

/-- A session that expects another schema never takes an answer. -/
theorem tick_unexpected {producer : Producer σ ι} {schema : χ} {policy : RetryPolicy}
    {options : CallOptions} {input : ι} {routes : List Route} {session : HttpStreamSession χ Nat}
    {server : Server σ} (unexpected : ¬session.Expects schema) (drained : session.pending = [])
    (running : session.isFinished = false) (known : session.cursor ≠ []) :
    (session.tick (turnEndpoint producer schema) policy options input routes server).result =
      .threw := by
  have unknown := poll_running drained running known
  unfold HttpStreamSession.tick
  split
  next => rfl
  next =>
      cases routes with
      | nil =>
          unfold HttpStreamSession.tickLoop
          rw [unknown]
      | cons route routes =>
          unfold HttpStreamSession.tickLoop
          rw [unknown]
          dsimp only
          cases answer : decode (post (turnEndpoint producer schema) policy
              (session.continuation false input) options true route server) with
          | none => rfl
          | some decoded =>
              have refused : session.takeTurn decoded = (false, session) := by
                unfold HttpStreamSession.takeTurn
                rw [post_schema answer, if_pos (Bool.not_eq_false _ ▸ unexpected)]
              dsimp only
              rw [refused]

/-- The session of `counterStart` with its server. -/
def counterHolder : Holder Nat Unit :=
  ⟨counterOpened.session, counterOpened.server⟩

/-- What the holder has after its first batch, which came with `/init`. -/
def counterHolding : Holder Nat Unit :=
  counterHolder.perform counter () threeAttempts (.nextWithToken (tickOf false []))

/-- The same after some operations. -/
def counterLater (calls : List (HolderCall Unit)) : Holder Nat Unit :=
  counterHolding.run counter () threeAttempts calls

/-- The session that is resumed from the token of the first batch. -/
def counterResumed : HttpStreamSession Unit Nat :=
  ⟨.producer, some (), some (), [], [1], [7], false, false⟩

/-- The tick of the resumed session. -/
def counterTick (calls : List (HolderCall Unit)) :
    Called (HttpStreamSession Unit Nat) (Server Nat) Unit Nat :=
  counterResumed.tick (turnEndpoint counter ()) threeAttempts ⟨false⟩ ()
    [plainRoute [.delivered true]] (counterLater calls).server

end VgiRpc.Http.Client
