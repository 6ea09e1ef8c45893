import VgiRpc.Collector.Handler
import VgiRpc.Http.Stream

/-!
# What bounds an answer over HTTP

An answer of `HttpServer` goes out whole or not at all.  A batch over the threshold of the
storage is uploaded and a pointer takes its place; an upload that throws, uploads over
`max_externalized_response_bytes` and a body over the response limit of the request each
put an error answer in its place, logs included.  The raw transport has none of this.
-/

namespace VgiRpc.Collector

open VgiRpc.Cpp
open VgiRpc.Http (minLimit)

variable {β μ : Type}

/-! ## The limit of a request -/

/-- `configured_limit`; a negative limit is none. -/
def configuredLimit (application hosting : Int) : Option Int :=
  minLimit (if application ≥ 0 then some application else none)
    (if hosting ≥ 0 then some hosting else none)

/-- The limits of `HttpConfig` on what an answer carries. -/
structure HttpLimits where
  maxResponseBytes : Int
  hostingMaxResponseBytes : Int
  maxExternalizedResponseBytes : Int
  deriving DecidableEq, Repr

/-- What `upload_ipc_stream` does with the batches of an answer: nothing if there is no
storage or they are under its threshold, else it uploads so many bytes or throws. -/
inductive Upload where
  | inline
  | uploaded (bytes : Int)
  | throws (error : ErrorType)
  deriving DecidableEq, Repr

/-- What an answer puts into its body: log and data batches, an exception batch, and the
cursor of a stream that goes on. -/
structure Answer (β μ : Type) where
  items : List (Item β μ)
  error : Option ErrorType
  cursor : Bool
  deriving DecidableEq

/-- A request of a call: the response limit it declares, what the storage does with the
batches of an answer, and the bytes of a body that carries these answers. -/
structure Request (β μ : Type) where
  acceptedResponseLimit : Option Int
  upload : List (Item β μ) → Upload
  bodySize : List (Answer β μ) → Int

/-- The requests of a call over HTTP, `/init` or the unary call first. -/
structure Channel (β μ : Type) where
  limits : HttpLimits
  requests : Nat → Request β μ

/-! ## Refusals -/

/-- Why an answer does not go out. -/
inductive Refusal where
  | upload (error : ErrorType)
  | externalized
  | tooLarge
  deriving DecidableEq, Repr

/-- The error of a stream in place of an answer. -/
def Refusal.streamError : Refusal → ErrorType
  | .upload error => error
  | .externalized => ascii "RpcError"
  | .tooLarge => ascii "ResponseTooLargeError"

/-- The error of a unary call in place of its answer. -/
def Refusal.unaryError : Refusal → ErrorType
  | .upload _ => ascii "RpcError"
  | .externalized => ascii "RpcError"
  | .tooLarge => ascii "ResponseTooLargeError"

namespace Channel

/-- `response_limit`: a continuation may tighten the one of the session and not raise it. -/
def responseLimit (channel : Channel β μ) (request : Nat) : Option Int :=
  let own (request : Nat) := minLimit
    (configuredLimit channel.limits.maxResponseBytes channel.limits.hostingMaxResponseBytes)
    (channel.requests request).acceptedResponseLimit
  if request = 0 then own 0 else minLimit (own request) (own 0)

/-- `externalize_cycle`: batches without a data batch stay inline. -/
def externalizeCycle (channel : Channel β μ) (request : Nat) (batches : List (Item β μ)) :
    Upload :=
  if dataOf batches = [] then .inline else (channel.requests request).upload batches

/-- Why an answer with these batches, in a body of these answers, does not go out. -/
def refusal (channel : Channel β μ) (request : Nat) (body : List (Answer β μ))
    (batches : List (Item β μ)) : Option Refusal :=
  let sized :=
    if (channel.responseLimit request).any fun limit =>
        decide ((channel.requests request).bodySize body > limit) then some Refusal.tooLarge
    else none
  let cap := channel.limits.maxExternalizedResponseBytes
  match channel.externalizeCycle request batches with
  | .inline => sized
  | .uploaded bytes => if cap ≥ 0 ∧ bytes > cap then some .externalized else sized
  | .throws error => some (.upload error)

/-- No storage, and no limit on either side. -/
def unbounded : Channel β μ :=
  ⟨⟨-1, -1, -1⟩, fun _ => ⟨none, fun _ => .inline, fun _ => 0⟩⟩

@[simp] theorem unbounded_refusal (request : Nat) (body : List (Answer β μ))
    (batches : List (Item β μ)) : (unbounded : Channel β μ).refusal request body batches = none := by
  have open_ : (unbounded : Channel β μ).responseLimit request = none := by
    rw [responseLimit]
    split <;> rfl
  have stays : (unbounded : Channel β μ).externalizeCycle request batches = .inline := by
    rw [externalizeCycle]
    split <;> rfl
  simp [refusal, open_, stays]

end Channel

end VgiRpc.Collector
