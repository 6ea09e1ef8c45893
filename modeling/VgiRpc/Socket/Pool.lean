import Mathlib.Tactic

/-!
# The socket connection pool

`SocketConnectionPool`: its critical sections as steps, and what any interleaving of them
keeps.  A step that takes a lock is atomic; between two steps of a worker stands the service
of its connection.
-/

namespace VgiRpc.Socket

/-- An accepted connection: the number of the `accept` that it came from, and its descriptor. -/
structure Connection where
  id : Nat
  fd : Int
  deriving DecidableEq, Repr

/-- What happened to a connection. -/
inductive Event where
  | accepted (connection : Connection)
  | refused (connection : Connection)
  /-- A worker took it, and serves it. -/
  | served (connection : Connection)
  /-- The worker that served it closed it. -/
  | closed (connection : Connection)
  /-- `stop` closed it in the queue. -/
  | dropped (connection : Connection)
  deriving DecidableEq, Repr

/-- `SocketConnectionPool`, with the connection that each worker is serving.  `ids` and
`history` record what is observed, and are read by no step. -/
structure Pool (ω : Type) where
  maximumAdmitted : UInt64
  admitted : UInt64
  everAdmitted : Bool
  drainedAt : Nat
  pending : List Connection
  active : Finset Int
  stopping : Bool
  serving : List (ω × Connection)
  exited : List ω
  ids : Nat
  history : List Event

/-- `IdleSnapshot`. -/
structure IdleSnapshot where
  admitted : UInt64
  everAdmitted : Bool
  drainedAt : Nat

namespace Pool

variable {ω : Type} [DecidableEq ω]

/-- The constructor. -/
def new (maximumActive maximumPending : UInt64) : Except String (Pool ω) :=
  if maximumActive = 0 ∨ maximumPending = 0 ∨ maximumActive > UInt64.ofNat (2 ^ 64 - 1) - maximumPending then
    .error "socket admission limits must be positive"
  else
    .ok
      { maximumAdmitted := maximumActive + maximumPending
        admitted := 0
        everAdmitted := false
        drainedAt := 0
        pending := []
        active := ∅
        stopping := false
        serving := []
        exited := []
        ids := 0
        history := [] }

/-- The descriptors that the pool has to close. -/
def descriptors (pool : Pool ω) : List Int :=
  pool.pending.map Connection.fd ++ pool.serving.map fun entry => entry.2.fd

/-- `submit`. -/
def submit (pool : Pool ω) (fd : Int) : Pool ω :=
  let connection : Connection := ⟨pool.ids, fd⟩
  if pool.stopping ∨ pool.admitted = pool.maximumAdmitted then
    { pool with ids := pool.ids + 1, history := pool.history ++ [.refused connection] }
  else
    { pool with
      admitted := pool.admitted + 1
      everAdmitted := true
      pending := pool.pending ++ [connection]
      ids := pool.ids + 1
      history := pool.history ++ [.accepted connection] }

/-- `idle_snapshot`. -/
def idleSnapshot (pool : Pool ω) : IdleSnapshot :=
  ⟨pool.admitted, pool.everAdmitted, pool.drainedAt⟩

/-- `stop`, up to the joining of the workers. -/
def stop (pool : Pool ω) : Pool ω :=
  if pool.stopping then
    pool
  else
    { pool with
      stopping := true
      admitted := pool.admitted - UInt64.ofNat pool.pending.length
      pending := []
      history := pool.history ++ pool.pending.map .dropped }

/-- The descriptors that `stop` shuts down. -/
def shutdowns (pool : Pool ω) : Finset Int := if pool.stopping then ∅ else pool.active

/-- A worker is between two connections. -/
def Waits (pool : Pool ω) (worker : ω) : Prop :=
  worker ∉ pool.serving.map Prod.fst ∧ worker ∉ pool.exited

instance (pool : Pool ω) (worker : ω) : Decidable (pool.Waits worker) :=
  inferInstanceAs (Decidable (_ ∧ _))

/-- The critical section at the head of `worker_loop`: a worker takes a connection. -/
def take (pool : Pool ω) (worker : ω) : Option (Pool ω) :=
  if pool.Waits worker then
    match pool.pending with
    | [] => none
    | connection :: pending =>
        some
          { pool with
            pending := pending
            active := insert connection.fd pool.active
            serving := (worker, connection) :: pool.serving
            history := pool.history ++ [.served connection] }
  else
    none

/-- A worker finds the pool stopped and empty, and returns. -/
def leave (pool : Pool ω) (worker : ω) : Option (Pool ω) :=
  if pool.Waits worker ∧ pool.stopping ∧ pool.pending = [] then
    some { pool with exited := worker :: pool.exited }
  else
    none

/-- The critical section at the end of `worker_loop`, once `serve_` has returned or thrown. -/
def finish (pool : Pool ω) (worker : ω) (now : Nat) : Option (Pool ω) :=
  match pool.serving.lookup worker with
  | none => none
  | some connection =>
      some
        { pool with
          active := pool.active.erase connection.fd
          admitted := pool.admitted - 1
          drainedAt := if pool.admitted - 1 = 0 then now else pool.drainedAt
          serving := pool.serving.filter fun entry => entry.1 != worker
          history := pool.history ++ [.closed connection] }

end Pool

/-- A critical section, and by whom it is entered. -/
inductive Section (ω : Type) where
  | submit (fd : Int)
  | take (worker : ω)
  | finish (worker : ω) (now : Nat)
  | leave (worker : ω)
  | stop

variable {ω : Type} [DecidableEq ω]

/-- One step.  The descriptor that the system hands out for a new connection is not open, so
it is none of those that the pool still has to close. -/
def Pool.step (pool : Pool ω) : Section ω → Option (Pool ω)
  | .submit fd => if fd ∈ pool.descriptors then none else some (pool.submit fd)
  | .take worker => pool.take worker
  | .finish worker now => pool.finish worker now
  | .leave worker => pool.leave worker
  | .stop => some pool.stop

/-- Steps one after the other. -/
def Pool.run (pool : Pool ω) (sections : List (Section ω)) : Option (Pool ω) :=
  sections.foldlM Pool.step pool

end VgiRpc.Socket
