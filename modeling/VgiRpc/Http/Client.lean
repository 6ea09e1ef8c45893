import Mathlib.Logic.Relation
import VgiRpc.Cpp.Text

/-!
# Posting a request over HTTP

The transport half of `HttpClient`: one attempt (`send_once`), the retry loop
(`send`), the compression fallback (`post_inline`) and the upload fallback (`post`).

The network is adversarial.  What becomes of each attempt is an input of the model, and
so is everything a `post` finds on its way that is not about the request itself.  The
server is any state machine that answers requests.
-/

namespace VgiRpc.Http.Client

open VgiRpc.Cpp

/-! ## Requests and answers -/

/-- A `/exchange` request: the tokens it carries, the cancel flag, and the input. -/
structure Request (ι : Type) where
  cursor : Bytes
  callState : Bytes
  cancel : Bool
  input : ι
  deriving DecidableEq

/-- A data batch of an answer, and the cursor on it; empty if there is none. -/
structure Output (β : Type) where
  batch : β
  cursor : Bytes
  deriving DecidableEq

/-- A control batch: the tokens on it. -/
structure Control where
  cursor : Bytes
  callState : Bytes
  deriving DecidableEq

/-- `DecodedResponse` without its header.  A schema stands for its class under
`schema_equals`. -/
structure Decoded (χ β : Type) where
  schema : χ
  data : List (Output β)
  control : List Control
  deriving DecidableEq

/-- What the server answers.  `decoded` is `none` if `decode` throws on the answer: an
error envelope, or a body that violates the protocol. -/
structure Reply (χ β : Type) where
  status : Nat
  decoded : Option (Decoded χ β)
  deriving DecidableEq

/-- The server behind the network.  A request that it answers 413 or 415 is refused in
front of `handle`, and is a fate of the attempt. -/
structure Endpoint (S ι χ β : Type) where
  handle : Request ι → S → Reply χ β × S
  handled_status (request : Request ι) (server : S) :
    (handle request server).1.status ≠ 413 ∧ (handle request server).1.status ≠ 415

/-! ## Attempts -/

/-- What becomes of one attempt. -/
inductive Fate where
  /-- The request does not reach the server; `retryable` is the verdict of the retry
  loop on the error, the deadline and the stop token included. -/
  | requestLost (retryable : Bool)
  /-- The server handled the request, and the client gets an error for it. -/
  | responseLost (retryable : Bool)
  /-- A bare status arrives, in front of the server or (`ran`) after it handled the
  request. -/
  | status (code : Nat) (ran : Bool)
  /-- The answer of the server arrives.  It may still be unreadable: the wrong content
  type, a body that cannot be decoded, a pointer that cannot be resolved. -/
  | delivered (readable : Bool)
  deriving DecidableEq, Repr

/-- `RetryPolicy` without its delays. -/
structure RetryPolicy where
  maxAttempts : Nat
  retryableStatusCodes : List Nat

/-- The part of `CallOptions` that decides on a replay. -/
structure CallOptions where
  idempotent : Bool

/-- The client's side of an attempt: an error, or a status and the answer if it is one
of the server. -/
inductive Sent (χ β : Type) where
  | failed (retryable : Bool)
  | answered (status : Nat) (reply : Option (Reply χ β))
  deriving DecidableEq

namespace Sent

variable {χ β : Type}

/-- The status of an answer. -/
def status : Sent χ β → Option Nat
  | .failed _ => none
  | .answered status _ => some status

/-- The answer of the server, if it is at hand. -/
def reply : Sent χ β → Option (Reply χ β)
  | .failed _ => none
  | .answered _ reply => reply

/-- The retry loop goes round again; `left` attempts remain after this one. -/
def retries (policy : RetryPolicy) (left : Nat) : Sent χ β → Bool
  | .failed retryable => decide (0 < left) && retryable
  | .answered status _ =>
      decide (status ≠ 415) && decide (0 < left) && policy.retryableStatusCodes.contains status

end Sent

/-- How far a `post` has come: what the client holds, how many requests the server
handled for it, and the fates that are left. -/
structure Posted (S χ β : Type) where
  sent : Sent χ β
  handled : Nat
  server : S
  fates : List Fate

namespace Posted

variable {S χ β : Type}

/-- Post once more, whatever is held now. -/
def again (first : Posted S χ β) (next : List Fate → S → Posted S χ β) : Posted S χ β :=
  let rest := next first.fates first.server
  { rest with handled := first.handled + rest.handled }

/-- Throw instead of returning what is held. -/
def throws (posted : Posted S χ β) : Posted S χ β :=
  { posted with sent := .failed false }

/-- Throw if what is held is not accepted. -/
def throwUnless (posted : Posted S χ β) (accepts : Sent χ β → Bool) : Posted S χ β :=
  if accepts posted.sent then posted else posted.throws

end Posted

section Post

variable {S ι χ β : Type}
variable (endpoint : Endpoint S ι χ β) (policy : RetryPolicy) (request : Request ι)

/-- `send_once`.  A schedule that has run out is a refused connection. -/
def sendOnce (fates : List Fate) (server : S) : Posted S χ β :=
  let answer := endpoint.handle request server
  match fates.headD (.requestLost false) with
  | .requestLost retryable => ⟨.failed retryable, 0, server, fates.tail⟩
  | .responseLost retryable => ⟨.failed retryable, 1, answer.2, fates.tail⟩
  | .status code ran =>
      if ran = true ∧ code ≠ 413 ∧ code ≠ 415 then ⟨.answered code none, 1, answer.2, fates.tail⟩
      else ⟨.answered code none, 0, server, fates.tail⟩
  | .delivered readable =>
      ⟨.answered answer.1.status (if readable then some answer.1 else none), 1, answer.2,
        fates.tail⟩

/-- `send`: the retry loop over the attempts that remain. -/
def send : Nat → List Fate → S → Posted S χ β
  | 0, fates, server => ⟨.failed false, 0, server, fates⟩
  | left + 1, fates, server =>
      let first := sendOnce endpoint request fates server
      if first.sent.retries policy left then first.again (send left) else first

/-- The number of attempts of a call. -/
def attemptsOf (options : CallOptions) (retryable : Bool) : Nat :=
  if retryable && options.idempotent then policy.maxAttempts else 1

/-- `post_inline` returns what it holds: an answer in Arrow, or the 413 that `post`
reacts to. -/
def returnsInline (external : Bool) : Sent χ β → Bool
  | .failed _ => false
  | .answered status reply =>
      if status = 401 ∨ status = 403 then false
      else if status < 200 ∨ 300 ≤ status then
        (decide (status = 413) && external) || reply.isSome
      else reply.isSome

/-- The compression fallback: once more without compression after a 415. -/
def sendFallback (attempts : Nat) (compressed : Bool) (fates : List Fate) (server : S) :
    Posted S χ β :=
  let first := send endpoint policy request attempts fates server
  if first.sent.status = some 415 ∧ compressed = true then
    first.again (send endpoint policy request attempts)
  else first

/-- `post_inline`. -/
def postInline (attempts : Nat) (external compressed : Bool) (fates : List Fate) (server : S) :
    Posted S χ β :=
  (sendFallback endpoint policy request attempts compressed fates server).throwUnless
    (returnsInline external)

/-- What a `post` finds on its way. -/
structure Route where
  /-- `capabilities` answers. -/
  capabilities : Bool
  /-- The body is over the inline ceiling. -/
  oversize : Bool
  /-- `external_http` is configured. -/
  external : Bool
  /-- The server supports uploads, as known before and after the first request. -/
  uploadUrlSupport : Bool
  uploadUrlSupportAfter : Bool
  /-- `externalize_request` succeeds. -/
  uploads : Bool
  /-- `send_compressed`, when the first and the second request are made. -/
  compressed : Bool
  compressedAfter : Bool
  fates : List Fate

/-- A route without uploads. -/
def plainRoute (fates : List Fate) : Route :=
  ⟨true, false, false, false, false, false, true, true, fates⟩

/-- The upload fallback: once more behind a pointer after a 413, if the body was not
behind one and the server supports uploads. -/
def postFallback (attempts : Nat) (externalized : Bool) (route : Route) (server : S) :
    Posted S χ β :=
  let first :=
    postInline endpoint policy request attempts route.external route.compressed route.fates server
  if first.sent.status = some 413 ∧ externalized = false ∧ route.external = true ∧
      route.uploadUrlSupportAfter = true then
    if route.uploads then
      first.again (postInline endpoint policy request attempts route.external
        route.compressedAfter)
    else first.throws
  else first

/-- `post`: the request inline, or behind a pointer if the body is over the ceiling. -/
def post (options : CallOptions) (retryable : Bool) (route : Route) (server : S) :
    Posted S χ β :=
  let externalized := route.oversize && route.external && route.uploadUrlSupport
  if route.capabilities = false ∨ externalized = true ∧ route.uploads = false then
    ⟨.failed false, 0, server, route.fates⟩
  else
    (postFallback endpoint policy request (attemptsOf policy options retryable) externalized route
      server).throwUnless fun sent => decide (sent.status ≠ some 413) || sent.reply.isSome

/-- `decode`: the answer of a successful `post`, or `none` if it throws. -/
def decode (posted : Posted S χ β) : Option (Decoded χ β) :=
  match posted.sent with
  | .failed _ => none
  | .answered _ none => none
  | .answered status (some reply) =>
      if status < 200 ∨ 300 ≤ status then none else reply.decoded

end Post

/-! ## What a post does to the server -/

section Follows

variable {S ι χ β : Type}
variable {endpoint : Endpoint S ι χ β} {policy : RetryPolicy} {request : Request ι}

/-- The server handles the request once. -/
def Handles (endpoint : Endpoint S ι χ β) (request : Request ι) (before after : S) : Prop :=
  after = (endpoint.handle request before).2

/-- The server comes to its state by handling this request, some number of times, and an
answer that the client holds is the one to the last of them. -/
structure Follows (endpoint : Endpoint S ι χ β) (request : Request ι) (server : S)
    (posted : Posted S χ β) : Prop where
  reached : Relation.ReflTransGen (Handles endpoint request) server posted.server
  held : ∀ status reply, posted.sent = .answered status (some reply) →
    status = reply.status ∧ ∃ middle,
      Relation.ReflTransGen (Handles endpoint request) server middle ∧
        endpoint.handle request middle = (reply, posted.server)

theorem Follows.throws {server : S} {posted : Posted S χ β}
    (follows : Follows endpoint request server posted) :
    Follows endpoint request server posted.throws where
  reached := follows.reached
  held := by
    intro status reply held
    cases held

theorem Follows.throwUnless {server : S} {posted : Posted S χ β}
    (follows : Follows endpoint request server posted) (accepts : Sent χ β → Bool) :
    Follows endpoint request server (posted.throwUnless accepts) := by
  unfold Posted.throwUnless
  split
  next => exact follows
  next => exact follows.throws

theorem Follows.again {server : S} {first : Posted S χ β}
    {next : List Fate → S → Posted S χ β}
    (follows : Follows endpoint request server first)
    (follow : ∀ fates server, Follows endpoint request server (next fates server)) :
    Follows endpoint request server (first.again next) where
  reached := follows.reached.trans (follow first.fates first.server).reached
  held := by
    intro status reply held
    rcases (follow first.fates first.server).held status reply held with
      ⟨same, middle, reached, answered⟩
    exact ⟨same, middle, follows.reached.trans reached, answered⟩

/-- A post that handles nothing and holds nothing. -/
theorem Follows.idle {server : S} {sent : Sent χ β} {handled : Nat} {fates : List Fate}
    (nothing : sent.reply = none) :
    Follows endpoint request server ⟨sent, handled, server, fates⟩ where
  reached := .refl
  held := by
    intro status reply held
    rw [show sent = .answered status (some reply) from held] at nothing
    cases nothing

/-- A post that handles the request once. -/
theorem Follows.once {server : S} {sent : Sent χ β} {handled : Nat} {fates : List Fate}
    (holds : ∀ status reply, sent = .answered status (some reply) →
      status = reply.status ∧ reply = (endpoint.handle request server).1) :
    Follows endpoint request server
      ⟨sent, handled, (endpoint.handle request server).2, fates⟩ where
  reached := .single rfl
  held := by
    intro status reply held
    rcases holds status reply held with ⟨same, own⟩
    exact ⟨same, server, .refl, by rw [own]⟩

theorem sendOnce_follows (fates : List Fate) (server : S) :
    Follows endpoint request server (sendOnce endpoint request fates server) := by
  unfold sendOnce
  split
  next => exact .idle rfl
  next => exact .once fun _ _ held => by cases held
  next =>
      split
      next => exact .once fun _ _ held => by cases held
      next => exact .idle rfl
  next readable _ =>
      apply Follows.once
      intro status reply held
      cases readable with
      | false => cases held
      | true =>
          cases held
          exact ⟨rfl, rfl⟩

theorem send_follows (attempts : Nat) (fates : List Fate) (server : S) :
    Follows endpoint request server (send endpoint policy request attempts fates server) := by
  induction attempts generalizing fates server with
  | zero => exact .idle rfl
  | succ left follow =>
      simp only [send]
      split
      next => exact (sendOnce_follows fates server).again follow
      next => exact sendOnce_follows fates server

theorem sendFallback_follows (attempts : Nat) (compressed : Bool) (fates : List Fate)
    (server : S) :
    Follows endpoint request server
      (sendFallback endpoint policy request attempts compressed fates server) := by
  simp only [sendFallback]
  split
  next => exact (send_follows attempts fates server).again (send_follows attempts)
  next => exact send_follows attempts fates server

theorem postInline_follows (attempts : Nat) (external compressed : Bool) (fates : List Fate)
    (server : S) :
    Follows endpoint request server
      (postInline endpoint policy request attempts external compressed fates server) :=
  (sendFallback_follows attempts compressed fates server).throwUnless _

theorem postFallback_follows (attempts : Nat) (externalized : Bool) (route : Route)
    (server : S) :
    Follows endpoint request server
      (postFallback endpoint policy request attempts externalized route server) := by
  simp only [postFallback]
  split
  next =>
      split
      next => exact (postInline_follows _ _ _ _ _).again (postInline_follows _ _ _)
      next => exact (postInline_follows _ _ _ _ _).throws
  next => exact postInline_follows _ _ _ _ _

/-- The server handled nothing but this request, and what the client holds is the answer
to the last time it did. -/
theorem post_follows (options : CallOptions) (retryable : Bool) (route : Route) (server : S) :
    Follows endpoint request server
      (post endpoint policy request options retryable route server) := by
  simp only [post]
  split
  next => exact .idle rfl
  next => exact (postFallback_follows _ _ _ _).throwUnless _

end Follows

/-! ## A post that is not retried -/

section Once

variable {S ι χ β : Type}
variable {endpoint : Endpoint S ι χ β} {policy : RetryPolicy} {request : Request ι}

/-- The server handled at most one request, and none if the client holds a 413 or a
415, the answers that it posts again after. -/
def AtMostOnce (posted : Posted S χ β) : Prop :=
  posted.handled ≤ 1 ∧
    (posted.sent.status = some 413 ∨ posted.sent.status = some 415 → posted.handled = 0)

theorem AtMostOnce.throws {posted : Posted S χ β} (once : AtMostOnce posted) :
    AtMostOnce posted.throws := by
  constructor
  · exact once.1
  · rintro (early | early) <;> cases early

theorem AtMostOnce.throwUnless {posted : Posted S χ β} (once : AtMostOnce posted)
    (accepts : Sent χ β → Bool) : AtMostOnce (posted.throwUnless accepts) := by
  unfold Posted.throwUnless
  split
  next => exact once
  next => exact once.throws

/-- Posting again after a 413 or a 415 still handles at most one request. -/
theorem AtMostOnce.again {first : Posted S χ β} {next : List Fate → S → Posted S χ β}
    (once : AtMostOnce first)
    (early : first.sent.status = some 413 ∨ first.sent.status = some 415)
    (follow : ∀ fates server, AtMostOnce (next fates server)) :
    AtMostOnce (first.again next) := by
  have nothing := once.2 early
  have rest := follow first.fates first.server
  simp only [AtMostOnce, Posted.again, nothing, Nat.zero_add]
  exact rest

theorem sendOnce_atMostOnce (fates : List Fate) (server : S) :
    AtMostOnce (sendOnce endpoint request fates server) := by
  have status := endpoint.handled_status request server
  unfold sendOnce
  split
  next => exact ⟨Nat.zero_le 1, fun _ => rfl⟩
  next =>
      constructor
      · exact Nat.le_refl 1
      · rintro (early | early) <;> cases early
  next =>
      split
      next ran =>
          constructor
          · exact Nat.le_refl 1
          · rintro (early | early)
            · exact absurd (Option.some.inj early) ran.2.1
            · exact absurd (Option.some.inj early) ran.2.2
      next => exact ⟨Nat.zero_le 1, fun _ => rfl⟩
  next =>
      constructor
      · exact Nat.le_refl 1
      · rintro (early | early)
        · exact absurd (Option.some.inj early) status.1
        · exact absurd (Option.some.inj early) status.2

/-- With a single attempt the retry loop never goes round. -/
theorem send_one (fates : List Fate) (server : S) :
    send endpoint policy request 1 fates server = sendOnce endpoint request fates server := by
  have stops : (sendOnce endpoint request fates server).sent.retries policy 0 = false := by
    cases (sendOnce endpoint request fates server).sent with
    | failed retryable => rfl
    | answered status reply => simp [Sent.retries]
  simp only [send, stops, Bool.false_eq_true, if_false]

theorem sendFallback_atMostOnce (compressed : Bool) (fates : List Fate) (server : S) :
    AtMostOnce (sendFallback endpoint policy request 1 compressed fates server) := by
  have attempt : ∀ fates server, AtMostOnce (send endpoint policy request 1 fates server) := by
    intro fates server
    rw [send_one]
    exact sendOnce_atMostOnce fates server
  simp only [sendFallback]
  split
  next fallback => exact (attempt fates server).again (.inr fallback.1) attempt
  next => exact attempt fates server

theorem postInline_atMostOnce (external compressed : Bool) (fates : List Fate) (server : S) :
    AtMostOnce (postInline endpoint policy request 1 external compressed fates server) :=
  (sendFallback_atMostOnce compressed fates server).throwUnless _

theorem postFallback_atMostOnce (externalized : Bool) (route : Route) (server : S) :
    AtMostOnce (postFallback endpoint policy request 1 externalized route server) := by
  simp only [postFallback]
  split
  next oversize =>
      split
      next => exact (postInline_atMostOnce _ _ _ _).again (.inl oversize.1) (postInline_atMostOnce _ _)
      next => exact (postInline_atMostOnce _ _ _ _).throws
  next => exact postInline_atMostOnce _ _ _ _

/-- A call that is not retryable reaches the handler at most once. -/
theorem post_handled_le_one (options : CallOptions) (route : Route) (server : S) :
    (post endpoint policy request options false route server).handled ≤ 1 := by
  have attempts : attemptsOf policy options false = 1 := by
    simp [attemptsOf]
  simp only [post, attempts]
  split
  next => exact Nat.zero_le 1
  next => exact ((postFallback_atMostOnce _ _ _).throwUnless _).1

end Once

end VgiRpc.Http.Client
