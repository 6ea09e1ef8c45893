import VgiRpc.Http.Producer

/-!
# The attempts of a tick

The attempts that a tick makes, each with the server in front of it, and what they come to on
the stream behind a cursor: an attempt may run a turn that emits a batch, and its answer may be
the one that the client takes.
-/

namespace VgiRpc.Http.Client

open VgiRpc.Cpp

/-- An attempt: its fate, how many are left behind it in the retry loop, and the server in front
of it. -/
structure Attempt (S : Type) where
  fate : Fate
  left : Nat
  server : S

/-- The server handles the request of this attempt. -/
def Fate.runs : Fate → Bool
  | .requestLost _ => false
  | .responseLost _ => true
  | .status code ran => ran && code != 413 && code != 415
  | .delivered _ => true

section Attempts

variable {S ι χ β : Type}
variable (endpoint : Endpoint S ι χ β) (policy : RetryPolicy) (request : Request ι)

/-- The attempts of `send`. -/
def sendAttempts : Nat → List Fate → S → List (Attempt S)
  | 0, _, _ => []
  | left + 1, fates, server =>
      let first : Posted S χ β := sendOnce endpoint request fates server
      ⟨fates.headD (.requestLost false), left, server⟩ ::
        if first.sent.retries policy left then sendAttempts left first.fates first.server else []

/-- The attempts of `post_inline`. -/
def inlineAttempts (attempts : Nat) (compressed : Bool) (fates : List Fate) (server : S) :
    List (Attempt S) :=
  let first := send endpoint policy request attempts fates server
  sendAttempts endpoint policy request attempts fates server ++
    if first.sent.status = some 415 ∧ compressed = true then
      sendAttempts endpoint policy request attempts first.fates first.server
    else []

/-- The attempts of `post`. -/
def postAttempts (options : CallOptions) (retryable : Bool) (route : Route) (server : S) :
    List (Attempt S) :=
  let externalized := route.oversize && route.external && route.uploadUrlSupport
  let attempts := attemptsOf policy options retryable
  if route.capabilities = false ∨ externalized = true ∧ route.uploads = false then []
  else
    let first :=
      postInline endpoint policy request attempts route.external route.compressed route.fates server
    inlineAttempts endpoint policy request attempts route.compressed route.fates server ++
      if (first.sent.status = some 413 ∧ externalized = false ∧ route.external = true ∧
          route.uploadUrlSupportAfter = true) ∧ route.uploads = true then
        inlineAttempts endpoint policy request attempts route.compressedAfter first.fates first.server
      else []

variable [DecidableEq χ] {request}

/-- The attempts of the loop of `tick`. -/
def HttpStreamSession.tickLoopAttempts (options : CallOptions) (input : ι) :
    List Route → HttpStreamSession χ β → S → List (Attempt S)
  | routes, session, server =>
      match session.poll with
      | some _ => []
      | none =>
          match routes with
          | [] => []
          | route :: routes =>
              let request := session.continuation false input
              let posted := post endpoint policy request options true route server
              postAttempts endpoint policy request options true route server ++
                match decode posted with
                | none => []
                | some decoded =>
                    match session.takeTurn decoded with
                    | (false, _) => []
                    | (true, session) =>
                        HttpStreamSession.tickLoopAttempts options input routes session posted.server

/-- The attempts of `tick`. -/
def HttpStreamSession.tickAttempts (options : CallOptions) (input : ι) (routes : List Route)
    (session : HttpStreamSession χ β) (server : S) : List (Attempt S) :=
  if session.isClosed = true ∨ session.kind ≠ .producer then []
  else HttpStreamSession.tickLoopAttempts endpoint policy options input routes session server

end Attempts

/-! ## Turns -/

/-- The client can read the answer to a turn that ends so. -/
def Ending.answers : Ending → Bool
  | .continues | .finishes => true
  | .refused | .escaped => false

/-- The turn emits a batch or ends the stream. -/
def Turn.settles (turn : Turn) : Bool :=
  turn.emits || turn.ending.erases

section Turns

variable {σ ι : Type} (producer : Producer σ ι) (cursor : Bytes) (input : ι)

/-- The turn that a continuation runs. -/
def turnOf (server : Server σ) : Option Turn :=
  (server.streams cursor).bind fun stream =>
    if stream.live = false ∨ cursor = [] then none
    else some (producer.process stream.state input).1

namespace Attempt

/-- The attempt runs a turn that emits a batch. -/
def emits (attempt : Attempt (Server σ)) : Bool :=
  attempt.fate.runs && (turnOf producer cursor input attempt.server).any Turn.emits

/-- The answer to a turn of this kind comes to the client, which does not retry after it. -/
def brings (policy : RetryPolicy) (kind : Turn → Bool) (attempt : Attempt (Server σ)) : Bool :=
  decide (attempt.fate = .delivered true) &&
    !(decide (0 < attempt.left) && policy.retryableStatusCodes.contains 200) &&
      (turnOf producer cursor input attempt.server).any fun turn => kind turn && turn.ending.answers

/-- A batch comes to the client. -/
def taken (policy : RetryPolicy) (attempt : Attempt (Server σ)) : Bool :=
  attempt.brings producer cursor input policy Turn.emits

/-- A batch or the end of the stream comes to the client. -/
def settles (policy : RetryPolicy) (attempt : Attempt (Server σ)) : Bool :=
  attempt.brings producer cursor input policy Turn.settles

end Attempt

variable {producer cursor input}

theorem Attempt.emits_of_taken {policy : RetryPolicy} {attempt : Attempt (Server σ)}
    (taken : attempt.taken producer cursor input policy = true) :
    attempt.emits producer cursor input = true := by
  simp only [Attempt.taken, Attempt.brings, Bool.and_eq_true, decide_eq_true_eq,
    Option.any_eq_true] at taken
  obtain ⟨⟨delivered, -⟩, turn, ran, emits, -⟩ := taken
  simp only [Attempt.emits, delivered, Fate.runs, Bool.true_and, Option.any_eq_true]
  exact ⟨turn, ran, emits⟩

/-- Every batch that the attempts made is taken. -/
def Lossless (producer : Producer σ ι) (cursor : Bytes) (input : ι) (policy : RetryPolicy)
    (attempts : List (Attempt (Server σ))) : Prop :=
  ∀ attempt ∈ attempts, attempt.emits producer cursor input = true →
    attempt.taken producer cursor input policy = true

instance (policy : RetryPolicy) (attempts : List (Attempt (Server σ))) :
    Decidable (Lossless producer cursor input policy attempts) :=
  inferInstanceAs (Decidable (∀ _ ∈ _, _))

/-- Attempts are lossless if as many batches are taken as emitted. -/
theorem lossless_iff {policy : RetryPolicy} {attempts : List (Attempt (Server σ))} :
    Lossless producer cursor input policy attempts ↔
      attempts.countP (·.emits producer cursor input) =
        attempts.countP (·.taken producer cursor input policy) := by
  induction attempts with
  | nil => simp [Lossless]
  | cons first attempts ih =>
      have fewer : attempts.countP (·.taken producer cursor input policy) ≤
          attempts.countP (·.emits producer cursor input) :=
        List.countP_mono_left fun _ _ taken => Attempt.emits_of_taken taken
      have only := @Attempt.emits_of_taken _ _ producer cursor input policy first
      simp only [Lossless, List.forall_mem_cons] at ih ⊢
      rw [ih, List.countP_cons, List.countP_cons]
      cases emits : first.emits producer cursor input <;>
        cases taken : first.taken producer cursor input policy <;>
          simp_all
      omega

end Turns

/-! ## What the attempts come to -/

/-- What the client decodes from what it holds. -/
def Sent.decoded {χ β : Type} : Sent χ β → Option (Decoded χ β)
  | .failed _ => none
  | .answered _ none => none
  | .answered status (some reply) => if status < 200 ∨ 300 ≤ status then none else reply.decoded

theorem decode_eq {S χ β : Type} (posted : Posted S χ β) : decode posted = posted.sent.decoded := by
  rcases posted with ⟨sent, handled, server, fates⟩
  cases sent with
  | failed retryable => rfl
  | answered status reply => cases reply <;> rfl

/-- How much of something is decoded. -/
def Sent.gives {χ β : Type} (count : Decoded χ β → Nat) (sent : Sent χ β) : Nat :=
  (sent.decoded.map count).getD 0

/-- What is counted in the answer to a turn tells whether the turn is of this kind. -/
def Tells {χ : Type} (kind : Turn → Bool) (count : Decoded χ Nat → Nat) : Prop :=
  ∀ (turn : Turn) (schema : χ) (position : Nat) (cursor : Bytes), turn.ending.answers = true →
    ((turn.reply schema position [⟨cursor, []⟩]).decoded.map count).getD 0 = (kind turn).toNat

theorem tells_emits {χ : Type} : Tells (χ := χ) Turn.emits (·.data.length) := by
  intro turn schema position cursor answers
  rcases turn with ⟨emits, ending⟩
  cases emits <;> cases ending <;> first | rfl | cases answers

/-- One if there is a batch, or no cursor. -/
def Decoded.settles {χ β : Type} (decoded : Decoded χ β) : Nat :=
  if decoded.data = [] ∧ decoded.control ≠ [] then 0 else 1

theorem tells_settles {χ : Type} : Tells (χ := χ) Turn.settles Decoded.settles := by
  intro turn schema position cursor answers
  rcases turn with ⟨emits, ending⟩
  cases emits <;> cases ending <;> first | rfl | cases answers

/-- The attempts account for a post: they emitted what the stream has more, and the answer that
is held gives what they brought. -/
structure Accounts {σ ι χ : Type} (producer : Producer σ ι) (policy : RetryPolicy)
    (request : Request ι) (server : Server σ) (posted : Posted (Server σ) χ Nat)
    (attempts : List (Attempt (Server σ))) : Prop where
  emitted : posted.server.emitted request.cursor = server.emitted request.cursor +
    attempts.countP (·.emits producer request.cursor request.input)
  gives : ∀ kind count, Tells kind count → posted.sent.gives count =
    attempts.countP (·.brings producer request.cursor request.input policy kind)

namespace Accounts

variable {σ ι χ : Type} {producer : Producer σ ι} {schema : χ} {policy : RetryPolicy}
  {request : Request ι} {server : Server σ} {first : Posted (Server σ) χ Nat}
  {attempts rest : List (Attempt (Server σ))}

theorem idle {sent : Sent χ Nat} {handled : Nat} {fates : List Fate}
    (nothing : sent.decoded = none) :
    Accounts producer policy request server ⟨sent, handled, server, fates⟩ [] where
  emitted := rfl
  gives := fun kind count _ => by rw [Sent.gives, nothing, Option.map_none, Option.getD_none,
    List.countP_nil]

/-- What is held gives nothing, and is thrown away. -/
theorem again {next : List Fate → Server σ → Posted (Server σ) χ Nat}
    (accounts : Accounts producer policy request server first attempts)
    (nothing : first.sent.decoded = none)
    (follow : Accounts producer policy request first.server (next first.fates first.server) rest) :
    Accounts producer policy request server (first.again next) (attempts ++ rest) where
  emitted := by
    rw [List.countP_append, ← Nat.add_assoc, ← accounts.emitted]
    exact follow.emitted
  gives := by
    intro kind count tells
    have none := accounts.gives kind count tells
    rw [Sent.gives, nothing, Option.map_none, Option.getD_none] at none
    rw [List.countP_append, ← none, Nat.zero_add]
    exact follow.gives kind count tells

/-- What is held gives nothing, and is not returned. -/
theorem throws (accounts : Accounts producer policy request server first attempts)
    (nothing : first.sent.decoded = none) :
    Accounts producer policy request server first.throws attempts where
  emitted := accounts.emitted
  gives := by
    intro kind count tells
    rw [← accounts.gives kind count tells, Sent.gives, Sent.gives, nothing]
    rfl

theorem throwUnless (accounts : Accounts producer policy request server first attempts)
    {accepts : Sent χ Nat → Bool} (accepted : first.sent.decoded ≠ none → accepts first.sent = true) :
    Accounts producer policy request server (first.throwUnless accepts) attempts := by
  unfold Posted.throwUnless
  split
  next => exact accounts
  next refused => exact accounts.throws (not_not.mp (mt accepted refused))

/-- As many batches are decoded as were taken. -/
theorem takes (accounts : Accounts producer policy request server first attempts) :
    ((decode first).map (·.data.length)).getD 0 =
      attempts.countP (·.taken producer request.cursor request.input policy) := by
  rw [decode_eq]
  exact accounts.gives _ _ tells_emits

theorem settles (accounts : Accounts producer policy request server first attempts) :
    ((decode first).map Decoded.settles).getD 0 =
      attempts.countP (·.settles producer request.cursor request.input policy) := by
  rw [decode_eq]
  exact accounts.gives _ _ tells_settles

end Accounts

section Posts

variable {σ ι χ : Type} {producer : Producer σ ι} {schema : χ} {policy : RetryPolicy}
  {request : Request ι}

/-- A continuation of a live stream runs a turn. -/
theorem handleTurn_live (running : request.cancel = false) {server : Server σ} {stream : Stream σ}
    (found : server.streams request.cursor = some stream)
    (passes : ¬(stream.live = false ∨ request.cursor = [])) :
    handleTurn producer schema request server =
      let step := producer.process stream.state request.input
      (step.1.reply schema stream.emitted [⟨request.cursor, []⟩],
        server.put request.cursor (stream.after step.1 step.2 (!step.1.ending.erases))) := by
  unfold handleTurn
  simp only [found, if_neg passes, running, Bool.false_eq_true, if_false]

theorem turnOf_live {server : Server σ} {stream : Stream σ}
    (found : server.streams request.cursor = some stream)
    (passes : ¬(stream.live = false ∨ request.cursor = [])) :
    turnOf producer request.cursor request.input server =
      some (producer.process stream.state request.input).1 := by
  rw [turnOf, found, Option.bind_some, if_neg passes]

/-- Any other is refused. -/
theorem handleTurn_dead {server : Server σ}
    (dead : ∀ stream, server.streams request.cursor = some stream →
      stream.live = false ∨ request.cursor = []) :
    handleTurn producer schema request server = (⟨400, none⟩, server) := by
  unfold handleTurn
  cases found : server.streams request.cursor with
  | none => rfl
  | some stream => simp [dead stream found]

theorem turnOf_dead {server : Server σ}
    (dead : ∀ stream, server.streams request.cursor = some stream →
      stream.live = false ∨ request.cursor = []) :
    turnOf producer request.cursor request.input server = none := by
  unfold turnOf
  cases found : server.streams request.cursor with
  | none => rfl
  | some stream => simp [dead stream found]

theorem turn_cases (request : Request ι) (server : Server σ) :
    (∃ stream, server.streams request.cursor = some stream ∧
      ¬(stream.live = false ∨ request.cursor = [])) ∨
      ∀ stream, server.streams request.cursor = some stream →
        stream.live = false ∨ request.cursor = [] := by
  by_cases live : ∃ stream, server.streams request.cursor = some stream ∧
      ¬(stream.live = false ∨ request.cursor = [])
  · exact .inl live
  · right
    intro stream found
    by_contra passes
    exact live ⟨stream, found, passes⟩

/-- What handling a continuation adds to the stream. -/
theorem handleTurn_emitted (producer : Producer σ ι) (schema : χ)
    (running : request.cancel = false) (server : Server σ) :
    (handleTurn producer schema request server).2.emitted request.cursor =
      server.emitted request.cursor +
        ((turnOf producer request.cursor request.input server).any Turn.emits).toNat := by
  rcases turn_cases request server with ⟨stream, found, passes⟩ | dead
  · have count : server.emitted request.cursor = stream.emitted := by
      simp [Server.emitted, found]
    rw [handleTurn_live running found passes, turnOf_live found passes, count]
    exact Server.emitted_put ..
  · rw [handleTurn_dead dead, turnOf_dead dead]
    rfl

/-- What its answer gives. -/
theorem handleTurn_gives {kind : Turn → Bool} {count : Decoded χ Nat → Nat}
    (tells : Tells kind count) (producer : Producer σ ι) (schema : χ)
    (running : request.cancel = false) (server : Server σ) :
    Sent.gives count (.answered (handleTurn producer schema request server).1.status
        (some (handleTurn producer schema request server).1)) =
      ((turnOf producer request.cursor request.input server).any fun turn =>
        kind turn && turn.ending.answers).toNat := by
  rcases turn_cases request server with ⟨stream, found, passes⟩ | dead
  · rw [handleTurn_live running found passes, turnOf_live found passes, Option.any_some]
    dsimp only
    generalize (producer.process stream.state request.input).1 = turn
    cases answers : turn.ending.answers with
    | true =>
        have success : (turn.reply schema stream.emitted [⟨request.cursor, []⟩]).status = 200 := by
          rw [Turn.reply_status]
          revert answers
          cases turn.ending <;> decide
        rw [Bool.and_true, ← tells turn schema stream.emitted request.cursor answers, Sent.gives,
          Sent.decoded, success, if_neg (by decide)]
    | false =>
        have silent : (turn.reply schema stream.emitted [⟨request.cursor, []⟩]).decoded = none := by
          rcases turn with ⟨emits, ending⟩
          cases ending <;> first | rfl | cases answers
        rw [Bool.and_false, Sent.gives, Sent.decoded, silent]
        split <;> rfl
  · rw [handleTurn_dead dead, turnOf_dead dead]
    rfl

/-- An answer that the client can read has the status of success. -/
theorem handleTurn_status {kind : Turn → Bool} (producer : Producer σ ι) (schema : χ)
    (running : request.cancel = false) {server : Server σ}
    (answered : (turnOf producer request.cursor request.input server).any (fun turn =>
      kind turn && turn.ending.answers) = true) :
    (handleTurn producer schema request server).1.status = 200 := by
  rcases turn_cases request server with ⟨stream, found, passes⟩ | dead
  · rw [turnOf_live found passes, Option.any_some, Bool.and_eq_true] at answered
    rw [handleTurn_live running found passes]
    dsimp only
    rw [Turn.reply_status]
    generalize (producer.process stream.state request.input).1 = turn at answered
    rcases answered with ⟨-, answers⟩
    revert answers
    cases turn.ending <;> decide
  · rw [turnOf_dead dead] at answered
    cases answered

/-- What an attempt adds to the stream. -/
theorem sendOnce_emitted (producer : Producer σ ι) (schema : χ)
    (running : request.cancel = false) (fates : List Fate) (left : Nat) (server : Server σ) :
    let first := sendOnce (turnEndpoint producer schema) request fates server
    let attempt : Attempt (Server σ) := ⟨fates.headD (.requestLost false), left, server⟩
    first.server.emitted request.cursor = server.emitted request.cursor +
      (attempt.emits producer request.cursor request.input).toNat := by
  have emitted := handleTurn_emitted producer schema running server
  intro first attempt
  have sent : first = sendOnce (turnEndpoint producer schema) request fates server := rfl
  have attempted : attempt.fate = fates.headD (.requestLost false) := rfl
  unfold sendOnce at sent
  rw [Attempt.emits]
  cases fate : fates.headD (.requestLost false) with
  | requestLost retryable =>
      rw [fate] at sent attempted
      rw [sent, attempted]
      rfl
  | responseLost retryable =>
      rw [fate] at sent attempted
      rw [sent, attempted]
      exact emitted
  | delivered readable =>
      rw [fate] at sent attempted
      rw [sent, attempted]
      exact emitted
  | status code ran =>
      rw [fate] at sent attempted
      dsimp only at sent
      split_ifs at sent with handled
      · have runs : attempt.fate.runs = true := by simp [attempted, Fate.runs, handled]
        rw [sent, runs, Bool.true_and]
        exact emitted
      · have idle : attempt.fate.runs = false := by
          rw [attempted, Fate.runs, ← Bool.not_eq_true]
          simpa [and_assoc] using handled
        rw [sent, idle, Bool.false_and]
        rfl

/-- What an attempt brings is what its answer gives, unless the client retries after it. -/
theorem sendOnce_gives {kind : Turn → Bool} {count : Decoded χ Nat → Nat} (tells : Tells kind count)
    (producer : Producer σ ι) (schema : χ) (policy : RetryPolicy)
    (running : request.cancel = false) (fates : List Fate) (left : Nat) (server : Server σ) :
    let first := sendOnce (turnEndpoint producer schema) request fates server
    let attempt : Attempt (Server σ) := ⟨fates.headD (.requestLost false), left, server⟩
    if first.sent.retries policy left then
      attempt.brings producer request.cursor request.input policy kind = false
    else
      first.sent.gives count =
        (attempt.brings producer request.cursor request.input policy kind).toNat := by
  have gives := handleTurn_gives tells producer schema running server
  intro first attempt
  have sent : first = sendOnce (turnEndpoint producer schema) request fates server := rfl
  have attempted : attempt.fate = fates.headD (.requestLost false) := rfl
  -- An attempt whose answer does not come through leaves nothing to decode.
  have nothing : attempt.fate ≠ .delivered true → first.sent.decoded = none →
      if first.sent.retries policy left then
        attempt.brings producer request.cursor request.input policy kind = false
      else first.sent.gives count =
        (attempt.brings producer request.cursor request.input policy kind).toNat := by
    intro other none
    rw [Attempt.brings, decide_eq_false other, Bool.false_and, Bool.false_and, Sent.gives, none]
    split <;> rfl
  unfold sendOnce at sent
  cases fate : fates.headD (.requestLost false) with
  | requestLost retryable =>
      rw [fate] at sent attempted
      exact nothing (by simp [attempted]) (by rw [sent]; rfl)
  | responseLost retryable =>
      rw [fate] at sent attempted
      exact nothing (by simp [attempted]) (by rw [sent]; rfl)
  | status code ran =>
      rw [fate] at sent attempted
      dsimp only at sent
      split_ifs at sent <;> exact nothing (by simp [attempted]) (by rw [sent]; rfl)
  | delivered readable =>
      rw [fate] at sent attempted
      cases readable with
      | false => exact nothing (by simp [attempted]) (by rw [sent]; rfl)
      | true =>
          rw [Attempt.brings, decide_eq_true attempted, Bool.true_and]
          have held : first.sent.gives count =
              ((turnOf producer request.cursor request.input server).any fun turn =>
                kind turn && turn.ending.answers).toNat := by
            rw [sent]
            exact gives
          cases answered : (turnOf producer request.cursor request.input server).any fun turn =>
              kind turn && turn.ending.answers with
          | false =>
              rw [answered] at held
              rw [held, Bool.and_false]
              split <;> rfl
          | true =>
              have retried : first.sent.retries policy left =
                  (decide (0 < left) && policy.retryableStatusCodes.contains 200) := by
                rw [sent]
                simp [Sent.retries, turnEndpoint, handleTurn_status producer schema running answered]
              rw [answered] at held
              rw [held, retried, Bool.and_true]
              cases decide (0 < left) && policy.retryableStatusCodes.contains 200 <;> rfl

theorem countP_eq_toNat {α : Type} (counts : α → Bool) (first : α) (rest : List α) :
    (first :: rest).countP counts = (counts first).toNat + rest.countP counts := by
  rw [List.countP_cons, Nat.add_comm]
  cases counts first <;> rfl

variable (producer policy) in
/-- Nothing is decoded from what the client retries after. -/
theorem send_accounts (schema : χ) (running : request.cancel = false) (attempts : Nat)
    (fates : List Fate) (server : Server σ) :
    Accounts producer policy request server
      (send (turnEndpoint producer schema) policy request attempts fates server)
      (sendAttempts (turnEndpoint producer schema) policy request attempts fates server) := by
  induction attempts generalizing fates server with
  | zero => exact .idle rfl
  | succ left ih =>
      have emitted := sendOnce_emitted producer schema running fates left server
      have gives {kind : Turn → Bool} {count : Decoded χ Nat → Nat} (tells : Tells kind count) :=
        sendOnce_gives tells producer schema policy running fates left server
      simp only [send, sendAttempts]
      split
      next retried =>
          have more := ih (sendOnce (turnEndpoint producer schema) request fates server).fates
            (sendOnce (turnEndpoint producer schema) request fates server).server
          constructor
          · rw [countP_eq_toNat, ← Nat.add_assoc, ← emitted]
            exact more.emitted
          · intro kind count tells
            have brings := gives tells
            rw [if_pos retried] at brings
            rw [countP_eq_toNat, brings, Bool.toNat_false, Nat.zero_add]
            exact more.gives kind count tells
      next last =>
          constructor
          · rw [emitted, countP_eq_toNat, List.countP_nil, Nat.add_zero]
          · intro kind count tells
            have brings := gives tells
            rw [if_neg last] at brings
            rw [brings, countP_eq_toNat, List.countP_nil, Nat.add_zero]

/-- What is decoded comes with a status of success. -/
theorem Sent.decoded_ne_none {sent : Sent χ Nat} (answer : sent.decoded ≠ none) :
    ∃ status reply, sent = .answered status (some reply) ∧ 200 ≤ status ∧ status < 300 := by
  cases sent with
  | failed retryable => exact absurd rfl answer
  | answered status reply =>
      cases reply with
      | none => exact absurd rfl answer
      | some reply =>
          rw [Sent.decoded] at answer
          split at answer
          next => exact absurd rfl answer
          next inside =>
              rw [not_or, Nat.not_lt, Nat.not_le] at inside
              exact ⟨status, reply, rfl, inside⟩

theorem Sent.decoded_eq_none {sent : Sent χ Nat} {status : Nat} (held : sent.status = some status)
    (outside : status < 200 ∨ 300 ≤ status) : sent.decoded = none := by
  by_contra answer
  obtain ⟨other, reply, rfl, inside⟩ := Sent.decoded_ne_none answer
  obtain rfl := Option.some.inj held
  omega

variable (producer policy) in
theorem postInline_accounts (schema : χ) (running : request.cancel = false) (attempts : Nat)
    (external compressed : Bool) (fates : List Fate) (server : Server σ) :
    Accounts producer policy request server
      (postInline (turnEndpoint producer schema) policy request attempts external compressed fates server)
      (inlineAttempts (turnEndpoint producer schema) policy request attempts compressed fates server) := by
  unfold postInline
  apply Accounts.throwUnless
  · have first := send_accounts producer policy schema running attempts fates server
    simp only [sendFallback, inlineAttempts]
    split_ifs with fallback
    · exact first.again (Sent.decoded_eq_none fallback.1 (by decide))
        (send_accounts producer policy schema running attempts _ _)
    · rw [List.append_nil]
      exact first
  · intro answer
    obtain ⟨status, reply, held, inside⟩ := Sent.decoded_ne_none answer
    rw [held, returnsInline]
    split_ifs <;> first | omega | rfl

variable (producer policy) in
theorem post_accounts (schema : χ) (running : request.cancel = false) (options : CallOptions)
    (retryable : Bool) (route : Route) (server : Server σ) :
    Accounts producer policy request server
      (post (turnEndpoint producer schema) policy request options retryable route server)
      (postAttempts (turnEndpoint producer schema) policy request options retryable route server) := by
  simp only [post, postAttempts]
  by_cases blocked : route.capabilities = false ∨
      (route.oversize && route.external && route.uploadUrlSupport) = true ∧ route.uploads = false
  · rw [if_pos blocked, if_pos blocked]
    exact .idle rfl
  · rw [if_neg blocked, if_neg blocked]
    apply Accounts.throwUnless
    · have inline := postInline_accounts producer policy schema running
        (attemptsOf policy options retryable) route.external route.compressed route.fates server
      simp only [postFallback]
      split
      next early =>
          have nothing := Sent.decoded_eq_none early.1 (by decide)
          split
          next uploads =>
              rw [if_pos ⟨early, uploads⟩]
              exact inline.again nothing (postInline_accounts producer policy schema running _ _ _ _ _)
          next refused =>
              rw [if_neg fun both => refused both.2, List.append_nil]
              exact inline.throws nothing
      next other =>
          rw [if_neg fun both => other both.1, List.append_nil]
          exact inline
    · intro answer
      obtain ⟨status, reply, held, inside⟩ := Sent.decoded_ne_none answer
      rw [held]
      exact Bool.or_true _

theorem Turn.reply_schema {turn : Turn} {position : Nat} {control : List Control}
    {decoded : Decoded χ Nat} (answer : (turn.reply schema position control).decoded = some decoded) :
    decoded.schema = schema := by
  rcases turn with ⟨emits, ending⟩
  cases ending <;> cases answer <;> rfl

theorem handleTurn_schema {server : Server σ} {decoded : Decoded χ Nat}
    (answer : (handleTurn producer schema request server).1.decoded = some decoded) :
    decoded.schema = schema := by
  unfold handleTurn at answer
  split at answer
  next => cases answer
  next stream found =>
      split at answer
      next => cases answer
      next =>
          split at answer
          next =>
              cases answer
              rfl
          next =>
              generalize producer.process stream.state request.input = step at answer
              exact Turn.reply_schema answer

theorem post_schema {options : CallOptions} {retryable : Bool} {route : Route} {server : Server σ}
    {decoded : Decoded χ Nat}
    (answer : decode (post (turnEndpoint producer schema) policy request options retryable route
      server) = some decoded) :
    decoded.schema = schema := by
  rcases decode_eq_some answer with ⟨status, reply, held, carried⟩
  rcases (post_follows options retryable route server).held status reply held with
    ⟨-, middle, -, handled⟩
  have answered : (handleTurn producer schema request middle).1.decoded = some decoded := by
    rw [show handleTurn producer schema request middle = _ from handled]
    exact carried
  exact handleTurn_schema answered

end Posts

/-! ## Ticks -/

namespace HttpStreamSession

variable {σ ι χ : Type} [DecidableEq χ] {producer : Producer σ ι} {schema : χ}

/-- The session takes answers of this schema. -/
def Expects (session : HttpStreamSession χ Nat) (schema : χ) : Prop :=
  session.outputSchema.any (· ≠ schema) = false

instance (session : HttpStreamSession χ Nat) (schema : χ) : Decidable (session.Expects schema) :=
  inferInstanceAs (Decidable (_ = _))

/-- The attempts account for a tick: the stream emitted as much more, and if the schema is the one
that the session expects, the batch that the tick returns was taken, and it throws if nothing
settled it. -/
structure Accounted (producer : Producer σ ι) (schema : χ) (policy : RetryPolicy) (cursor : Bytes)
    (input : ι) (session : HttpStreamSession χ Nat) (server : Server σ)
    (called : Called (HttpStreamSession χ Nat) (Server σ) ι Nat)
    (attempts : List (Attempt (Server σ))) : Prop where
  emitted : called.server.emitted cursor = server.emitted cursor +
    attempts.countP (·.emits producer cursor input)
  returned : session.Expects schema →
    called.result.batch?.toList.length = attempts.countP (·.taken producer cursor input policy)
  expects : session.Expects schema → called.session.Expects schema
  settled : session.poll = none → session.Expects schema →
    (called.result = .threw ↔ attempts.countP (·.settles producer cursor input policy) = 0)

namespace Accounted

variable {policy : RetryPolicy} {cursor : Bytes} {input : ι} {session next : HttpStreamSession χ Nat}
  {server : Server σ} {result : Result Nat} {posts : List (Request ι)} {handled : Nat}
  {posted : Posted (Server σ) χ Nat} {attempts rest : List (Attempt (Server σ))}

/-- A tick that posts nothing. -/
theorem idle (nothing : result.batch? = none) (same : next.outputSchema = session.outputSchema)
    (throws : session.poll = none → result = .threw) :
    Accounted producer schema policy cursor input session server
      ⟨result, next, server, posts, handled⟩ [] where
  emitted := rfl
  returned := fun _ => by
    rw [nothing]
    rfl
  expects := by
    unfold Expects
    rw [same]
    exact id
  settled := fun unknown _ => iff_of_true (throws unknown) rfl

/-- A post whose answer gives nothing, or does not fit, and after which the tick throws. -/
theorem threw
    (emitted : posted.server.emitted cursor = server.emitted cursor +
      attempts.countP (·.emits producer cursor input))
    (nothing : session.Expects schema → attempts.countP (·.taken producer cursor input policy) = 0 ∧
      attempts.countP (·.settles producer cursor input policy) = 0)
    (expects : session.Expects schema → next.Expects schema) :
    Accounted producer schema policy cursor input session server
      ⟨.threw, next, posted.server, posts, handled⟩ attempts where
  emitted := emitted
  returned := fun fits => (nothing fits).1.symm
  expects := expects
  settled := fun _ fits => iff_of_true rfl (nothing fits).2

/-- A post whose answer gives no batch, and then the rest of the tick. -/
theorem follow {later : Called (HttpStreamSession χ Nat) (Server σ) ι Nat}
    (emitted : posted.server.emitted cursor = server.emitted cursor +
      attempts.countP (·.emits producer cursor input))
    (nothing : attempts.countP (·.taken producer cursor input policy) = 0)
    (expects : session.Expects schema → next.Expects schema)
    (settled : next.Expects schema → (later.result = .threw ↔
      attempts.countP (·.settles producer cursor input policy) +
        rest.countP (·.settles producer cursor input policy) = 0))
    (accounted : Accounted producer schema policy cursor input next posted.server later rest) :
    Accounted producer schema policy cursor input session server
      { later with posts, handled } (attempts ++ rest) where
  emitted := by
    rw [List.countP_append, ← Nat.add_assoc, ← emitted]
    exact accounted.emitted
  returned := fun fits => by
    rw [List.countP_append, nothing, Nat.zero_add]
    exact accounted.returned (expects fits)
  expects := fun fits => accounted.expects (expects fits)
  settled := fun _ fits => by
    rw [List.countP_append]
    exact settled (expects fits)

end Accounted

omit [DecidableEq χ] in
/-- A poll that finds nothing pending reports the end. -/
theorem poll_drained {session : HttpStreamSession χ Nat}
    {out : Result Nat × HttpStreamSession χ Nat} (drained : session.pending = [])
    (polled : session.poll = some out) :
    out.1 = .ended ∧ out.2.outputSchema = session.outputSchema := by
  unfold poll at polled
  rw [drained] at polled
  dsimp only at polled
  split at polled
  next =>
      cases polled
      exact ⟨rfl, rfl⟩
  next => cases polled

/-- A session that took over an answer without a batch knows of the end if there was no cursor. -/
theorem poll_taken {session next : HttpStreamSession χ Nat} {decoded : Decoded χ Nat}
    (taken : session.takeTurn decoded = (true, next)) (drained : session.pending = [])
    (running : session.isFinished = false) (empty : decoded.data = []) :
    next.pending = [] ∧ next.poll =
      if controlCursor decoded.control = [] then some (.ended, { next with isFinished := true })
      else none := by
  obtain ⟨queue, bearer, finished⟩ := takeTurn_true taken
  rw [drained, empty, List.map_nil, List.append_nil] at queue
  rw [running, Bool.false_or] at finished
  exact ⟨queue, by simp [poll, queue, bearer, finished]⟩

/-- A session that takes over an answer expects its schema from then on. -/
theorem takeTurn_expects {session next : HttpStreamSession χ Nat} {decoded : Decoded χ Nat}
    {accepted : Bool} (turn : session.takeTurn decoded = (accepted, next)) :
    session.Expects decoded.schema → next.Expects decoded.schema := by
  intro fits
  unfold takeTurn at turn
  rw [if_neg (by rw [show session.outputSchema.any _ = false from fits]; decide)] at turn
  dsimp only at turn
  split at turn <;>
  · cases turn
    simp [Expects, updateControls]

/-- An answer that fits and is refused has more than one batch. -/
theorem takeTurn_refused {session next : HttpStreamSession χ Nat} {decoded : Decoded χ Nat}
    (refused : session.takeTurn decoded = (false, next)) (fits : session.Expects decoded.schema) :
    1 < decoded.data.length := by
  unfold takeTurn at refused
  rw [if_neg (by rw [show session.outputSchema.any _ = false from fits]; decide)] at refused
  dsimp only at refused
  split at refused
  next several => exact several
  next => cases refused

section Polled

variable {policy : RetryPolicy} {options : CallOptions} {input : ι} {routes : List Route}
  {session : HttpStreamSession χ Nat} {server : Server σ}

theorem tickLoop_of_polled {out : Result Nat × HttpStreamSession χ Nat}
    (polled : session.poll = some out) :
    tickLoop (turnEndpoint producer schema) policy options input routes session server =
      ⟨out.1, out.2, server, [], 0⟩ := by
  unfold tickLoop
  rw [polled]

theorem tickLoopAttempts_of_polled {out : Result Nat × HttpStreamSession χ Nat}
    (polled : session.poll = some out) :
    tickLoopAttempts (turnEndpoint producer schema) policy options input routes session server = [] := by
  unfold tickLoopAttempts
  rw [polled]

/-- What is pending is handed out without an attempt. -/
theorem tickLoopAttempts_of_pending {value : Nat} {rest : List Nat}
    (pending : session.pending = value :: rest) :
    tickLoopAttempts (turnEndpoint producer schema) policy options input routes session server = [] :=
  tickLoopAttempts_of_polled (by simp only [poll, pending]; rfl)

/-- A poll that finds something makes no attempt. -/
theorem Accounted.polled {cursor : Bytes} {out : Result Nat × HttpStreamSession χ Nat}
    (drained : session.pending = []) (polled : session.poll = some out) :
    Accounted producer schema policy cursor input session server
      (tickLoop (turnEndpoint producer schema) policy options input routes session server)
      (tickLoopAttempts (turnEndpoint producer schema) policy options input routes session
        server) := by
  obtain ⟨ended, same⟩ := poll_drained drained polled
  rw [tickLoop_of_polled polled, tickLoopAttempts_of_polled polled]
  refine .idle (by rw [ended]; rfl) same fun unknown => ?_
  rw [unknown] at polled
  cases polled

end Polled

theorem tickLoop_accounted (policy : RetryPolicy) (options : CallOptions) (input : ι)
    (routes : List Route) (cursor : Bytes) (session : HttpStreamSession χ Nat) (server : Server σ)
    (own : session.cursor = [] ∨ session.cursor = cursor) (drained : session.pending = []) :
    Accounted producer schema policy cursor input session server
      (tickLoop (turnEndpoint producer schema) policy options input routes session server)
      (tickLoopAttempts (turnEndpoint producer schema) policy options input routes session
        server) := by
  induction routes generalizing session server with
  | nil =>
      cases polled : session.poll with
      | some out => exact .polled drained polled
      | none =>
          unfold tickLoop tickLoopAttempts
          rw [polled]
          exact .idle rfl rfl fun _ => rfl
  | cons route routes ih =>
      cases polled : session.poll with
      | some out => exact .polled drained polled
      | none =>
          unfold tickLoop tickLoopAttempts
          rw [polled]
          obtain ⟨running, known⟩ := poll_eq_none polled
          have here : session.cursor = cursor := own.resolve_left known
          have accounts := post_accounts producer policy schema
            (show (session.continuation false input).cancel = false from rfl) options true route
            server
          have emitted := accounts.emitted
          have takes := accounts.takes
          have settles := accounts.settles
          rw [show (session.continuation false input).cursor = cursor from here,
            show (session.continuation false input).input = input from rfl] at emitted takes settles
          dsimp only
          cases answer : decode (post (turnEndpoint producer schema) policy
              (session.continuation false input) options true route server) with
          | none =>
              rw [answer] at takes settles
              rw [List.append_nil]
              exact .threw emitted (fun _ => ⟨takes.symm, settles.symm⟩) id
          | some decoded =>
              rw [answer, Option.map_some, Option.getD_some] at takes settles
              have typed := post_schema answer
              obtain ⟨data, control⟩ := post_turn answer
              rw [show (session.continuation false input).cursor = cursor from here] at control
              dsimp only
              cases turn : session.takeTurn decoded with
              | mk accepted next =>
                  have expects := takeTurn_expects turn
                  rw [typed] at expects
                  cases accepted with
                  | false =>
                      rw [List.append_nil]
                      refine .threw emitted (fun fits => ?_) expects
                      rw [← typed] at fits
                      have several := takeTurn_refused turn fits
                      rcases data with none | ⟨position, one, -⟩
                      · simp [none] at several
                      · simp [one] at several
                  | true =>
                      obtain ⟨queue, bearer, -⟩ := takeTurn_true turn
                      rw [drained, List.nil_append] at queue
                      have owned : next.cursor = [] ∨ next.cursor = cursor := by
                        rcases control with same | ⟨none, -⟩
                        · right
                          rw [bearer, same, controlCursor_singleton]
                        · left
                          rw [bearer, none, controlCursor_nil]
                      rcases data with empty | ⟨position, one, -⟩
                      · obtain ⟨pending, poll⟩ := poll_taken turn drained running empty
                        have rest := ih next (post (turnEndpoint producer schema) policy
                          (session.continuation false input) options true route server).server
                          owned pending
                        rw [empty, List.length_nil] at takes
                        refine .follow emitted takes.symm expects (fun fits => ?_) rest
                        -- Without a cursor the next poll reports the end; else the loop goes on.
                        rw [Decoded.settles, empty] at settles
                        rcases control with same | ⟨none, -⟩
                        · rw [same, controlCursor_singleton, if_neg (here ▸ known)] at poll
                          rw [same, if_pos ⟨rfl, List.cons_ne_nil _ _⟩] at settles
                          rw [← settles, Nat.zero_add]
                          exact rest.settled poll fits
                        · rw [none, controlCursor_nil, if_pos rfl] at poll
                          rw [none, if_neg fun both => both.2 rfl] at settles
                          rw [← settles, tickLoop_of_polled poll]
                          exact iff_of_false (fun threw => by cases threw) (by omega)
                      · rw [one, List.map_singleton] at queue
                        dsimp only
                        rw [tickLoop_of_pending queue, tickLoopAttempts_of_pending queue,
                          List.append_nil]
                        rw [one, List.length_singleton] at takes
                        rw [Decoded.settles, one, if_neg fun both => List.cons_ne_nil _ _ both.1]
                          at settles
                        refine ⟨emitted, fun _ => takes, expects, fun _ _ => ?_⟩
                        rw [← settles]
                        exact iff_of_false (fun threw => by cases threw) Nat.one_ne_zero

/-- A tick fails on the spot, hands out what is pending, or runs the loop. -/
theorem tick_cases (policy : RetryPolicy) (options : CallOptions) (input : ι)
    (routes : List Route) (cursor : Bytes) (session : HttpStreamSession χ Nat) (server : Server σ)
    (own : session.cursor = [] ∨ session.cursor = cursor) :
    let called := session.tick (turnEndpoint producer schema) policy options input routes server
    let attempts :=
      session.tickAttempts (turnEndpoint producer schema) policy options input routes server
    called = ⟨.threw, session, server, [], 0⟩ ∧ attempts = [] ∨
      (∃ value rest, session.pending = value :: rest ∧
        called = ⟨.batch value, { session with pending := rest }, server, [], 0⟩ ∧ attempts = []) ∨
      session.pending = [] ∧ Ticked cursor session server called ∧
        Accounted producer schema policy cursor input session server called attempts := by
  unfold tick tickAttempts
  split
  next => exact .inl ⟨rfl, rfl⟩
  next =>
      cases pending : session.pending with
      | nil =>
          exact .inr (.inr ⟨rfl, tickLoop_ticked _ _ _ _ _ _ _ own pending,
            tickLoop_accounted _ _ _ _ _ _ _ own pending⟩)
      | cons value rest =>
          exact .inr (.inl ⟨value, rest, rfl, tickLoop_of_pending pending,
            tickLoopAttempts_of_pending pending⟩)

variable (producer schema) in
/-- A tick adds to the stream what its attempts emit. -/
theorem tick_emitted (policy : RetryPolicy) (options : CallOptions) (input : ι)
    (routes : List Route) (cursor : Bytes) (session : HttpStreamSession χ Nat) (server : Server σ)
    (own : session.cursor = [] ∨ session.cursor = cursor) :
    (session.tick (turnEndpoint producer schema) policy options input routes
        server).server.emitted cursor = server.emitted cursor +
      (session.tickAttempts (turnEndpoint producer schema) policy options input routes
        server).countP (·.emits producer cursor input) := by
  rcases tick_cases policy options input routes cursor session server own with ⟨failed, none⟩ |
    ⟨value, rest, -, handed, none⟩ | ⟨-, -, accounted⟩
  · rw [failed, none]
    rfl
  · rw [handed, none]
    rfl
  · exact accounted.emitted

/-- The attempts are lossless exactly if the stream emitted no more than the tick returned. -/
theorem Accounted.lossless_iff {policy : RetryPolicy} {cursor : Bytes} {input : ι}
    {session : HttpStreamSession χ Nat} {server : Server σ}
    {called : Called (HttpStreamSession χ Nat) (Server σ) ι Nat}
    {attempts : List (Attempt (Server σ))}
    (accounted : Accounted producer schema policy cursor input session server called attempts)
    (fits : session.Expects schema) :
    Lossless producer cursor input policy attempts ↔
      called.server.emitted cursor = server.emitted cursor + called.result.batch?.toList.length := by
  rw [Client.lossless_iff, accounted.emitted, accounted.returned fits, Nat.add_right_inj]

end HttpStreamSession

end VgiRpc.Http.Client
