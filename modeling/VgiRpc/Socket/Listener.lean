import VgiRpc.Socket.Admission

/-!
# The accept loop and its idle clock

The listener is the one thread that submits to its pool, and stops it only after its loop.
Its loop leaves on an idle deadline that it computed from a snapshot of the pool; workers
may run at any time in between.
-/

namespace VgiRpc.Socket

/-! ## Deadlines -/

/-- `time_point::max`, in nanoseconds. -/
def maxTime : Nat := 2 ^ 63 - 1

def nanosPerMilli : Nat := 1000000

/-- `deadline_after`; the timeout is in milliseconds. -/
def deadlineAfter (start timeout : Nat) : Nat :=
  let available := (maxTime - start) / nanosPerMilli
  if timeout ≥ available then maxTime else start + timeout * nanosPerMilli

/-- `idle_deadline`. -/
def idleDeadline (snapshot : IdleSnapshot) (started idleTimeout startupGrace : Nat) : Option Nat :=
  if snapshot.admitted ≠ 0 then
    none
  else if !snapshot.everAdmitted then
    some (deadlineAfter started startupGrace)
  else
    some (deadlineAfter snapshot.drainedAt idleTimeout)

/-! ## The loop -/

/-- Where `accept_loop` stands. -/
inductive Acceptor where
  /-- At the head of the loop of `wait_for_connection_or_idle`. -/
  | checking
  /-- It has the snapshot, and is about to read the clock. -/
  | deciding (snapshot : IdleSnapshot)
  | polling
  /-- About to call `accept`. -/
  | accepting
  /-- Out of the loop, because it was idle or because `accept` failed. -/
  | left (idle : Bool)
  /-- The destructor has stopped the pool. -/
  | stopped

/-- A listener with its pool.  `drain` records when the permits in use last fell to zero, and
is read by no step. -/
structure Listener (ω : Type) where
  pool : Pool ω
  acceptor : Acceptor
  clock : Nat
  started : Nat
  idleTimeout : Nat
  startupGrace : Nat
  drain : Option Nat

/-- What happens next. -/
inductive Move (ω : Type) where
  | tick (now : Nat)
  | take (worker : ω)
  | finish (worker : ω)
  | leave (worker : ω)
  | snapshot
  | decide
  | polled (ready : Bool)
  | accepted (fd : Int)
  | acceptFailed (interrupted : Bool)
  | destroy

namespace Listener

variable {ω : Type}

/-- The head of the loop: without an idle timeout the listener does not poll. -/
def loopHead (listener : Listener ω) : Acceptor :=
  if listener.idleTimeout > 0 then .checking else .accepting

/-- A new listener. -/
def start (pool : Pool ω) (now idleTimeout startupGrace : Nat) : Listener ω where
  pool := pool
  acceptor := if idleTimeout > 0 then .checking else .accepting
  clock := now
  started := now
  idleTimeout := idleTimeout
  startupGrace := startupGrace
  drain := none

/-- The pool after a critical section of a worker. -/
def worked (listener : Listener ω) (pool : Pool ω) : Listener ω :=
  { listener with
    pool := pool
    drain :=
      if listener.pool.admitted ≠ 0 ∧ pool.admitted = 0 then some listener.clock
      else listener.drain }

/-- What the listener does with its snapshot and the clock. -/
def decideIdle (listener : Listener ω) (snapshot : IdleSnapshot) : Acceptor :=
  match idleDeadline snapshot listener.started listener.idleTimeout listener.startupGrace with
  | some deadline => if deadline ≤ listener.clock then .left true else .polling
  | none => .polling

section Steps

variable [DecidableEq ω]

/-- One step.  The clock does not run back, and does not reach its end. -/
def step (listener : Listener ω) : Move ω → Option (Listener ω)
  | .tick now =>
      if listener.clock ≤ now ∧ now < maxTime then some { listener with clock := now } else none
  | .take worker => (listener.pool.step (.take worker)).map listener.worked
  | .finish worker => (listener.pool.step (.finish worker listener.clock)).map listener.worked
  | .leave worker => (listener.pool.step (.leave worker)).map listener.worked
  | .snapshot =>
      match listener.acceptor with
      | .checking => some { listener with acceptor := .deciding listener.pool.idleSnapshot }
      | _ => none
  | .decide =>
      match listener.acceptor with
      | .deciding snapshot => some { listener with acceptor := listener.decideIdle snapshot }
      | _ => none
  | .polled ready =>
      match listener.acceptor with
      | .polling => some { listener with acceptor := if ready then .accepting else .checking }
      | _ => none
  | .accepted fd =>
      match listener.acceptor with
      | .accepting =>
          (listener.pool.step (.submit fd)).map fun pool =>
            { listener with pool := pool, acceptor := listener.loopHead }
      | _ => none
  | .acceptFailed interrupted =>
      match listener.acceptor with
      | .accepting =>
          some { listener with acceptor := if interrupted then listener.loopHead else .left false }
      | _ => none
  | .destroy =>
      match listener.acceptor with
      | .left _ =>
          (listener.pool.step .stop).map fun pool =>
            { listener with pool := pool, acceptor := .stopped }
      | _ => none

/-- Steps one after the other. -/
def run (listener : Listener ω) (moves : List (Move ω)) : Option (Listener ω) :=
  moves.foldlM step listener

end Steps

/-! ## The idle exit -/

/-- The listener has been idle long enough. -/
structure Idle (listener : Listener ω) : Prop where
  admitted : listener.pool.admitted = 0
  /-- The timeout has passed since the permits in use last fell to zero. -/
  drained : ∀ time ∈ listener.drain,
    time + listener.idleTimeout * nanosPerMilli ≤ listener.clock
  /-- If they were never in use, the grace has passed since the start. -/
  startup : listener.drain = none →
    listener.started + listener.startupGrace * nanosPerMilli ≤ listener.clock

/-- What the pool tells about its last drain. -/
def Recorded (listener : Listener ω) : Prop :=
  listener.pool.admitted = 0 →
    if listener.pool.everAdmitted then listener.drain = some listener.pool.drainedAt
    else listener.drain = none

/-- A snapshot without permits in use stays true. -/
def Current (listener : Listener ω) (snapshot : IdleSnapshot) : Prop :=
  snapshot.admitted = 0 → listener.pool.admitted = 0 ∧
    snapshot.everAdmitted = listener.pool.everAdmitted ∧
      snapshot.drainedAt = listener.pool.drainedAt

/-- What holds between two steps. -/
structure Sound (listener : Listener ω) : Prop where
  pool : listener.pool.Sound
  ever : listener.pool.admitted ≠ 0 → listener.pool.everAdmitted = true
  clock : listener.clock < maxTime
  open_ : listener.acceptor ≠ .stopped → listener.pool.stopping = false
  recorded : listener.acceptor ≠ .stopped → listener.Recorded
  current : ∀ snapshot, listener.acceptor = .deciding snapshot → listener.Current snapshot
  idle : listener.acceptor = .left true → listener.Idle

theorem deadlineAfter_le {start timeout now : Nat} (later : deadlineAfter start timeout ≤ now)
    (running : now < maxTime) : start + timeout * nanosPerMilli ≤ now := by
  simp only [deadlineAfter] at later
  split at later
  next => exact absurd later (Nat.not_le.mpr running)
  next => exact later

/-! ## Workers and the clock -/

variable {listener next : Listener ω} {after : Pool ω}

/-- A critical section of a worker keeps the listener sound, if it needs a permit and tells
the time of a drain, or the pool is stopped. -/
theorem Sound.worked (sound : listener.Sound) (pooled : after.Sound)
    (ever : after.everAdmitted = listener.pool.everAdmitted)
    (stopping : after.stopping = listener.pool.stopping)
    (permit : listener.pool.stopping = true ∨ listener.pool.admitted ≠ 0)
    (fewer : after.admitted ≠ 0 → listener.pool.admitted ≠ 0)
    (told : listener.pool.stopping = true ∨ (after.admitted = 0 → after.drainedAt = listener.clock)) :
    (listener.worked after).Sound := by
  have running : listener.acceptor ≠ .stopped → listener.pool.admitted ≠ 0 := by
    intro open_
    rcases permit with stopped | some_admitted
    · rw [sound.open_ open_] at stopped
      cases stopped
    · exact some_admitted
  constructor
  · exact pooled
  · intro some_admitted
    change after.everAdmitted = true
    rw [ever]
    exact sound.ever (fewer some_admitted)
  · exact sound.clock
  · intro open_
    change after.stopping = false
    rw [stopping]
    exact sound.open_ open_
  · intro open_ none_admitted
    have some_admitted := running open_
    have drained : after.drainedAt = listener.clock := by
      rcases told with stopped | at_clock
      · rw [sound.open_ open_] at stopped
        cases stopped
      · exact at_clock none_admitted
    change if after.everAdmitted then _ else _
    rw [ever, sound.ever some_admitted, if_pos rfl]
    change (if _ then _ else _) = some after.drainedAt
    rw [if_pos ⟨some_admitted, none_admitted⟩, drained]
  · intro snapshot deciding none_taken
    have open_ : listener.acceptor ≠ .stopped := by
      intro stopped
      rw [show listener.acceptor = .deciding snapshot from deciding] at stopped
      cases stopped
    exact absurd (sound.current snapshot deciding none_taken).1 (running open_)
  · intro left
    have open_ : listener.acceptor ≠ .stopped := by
      intro stopped
      rw [show listener.acceptor = .left true from left] at stopped
      cases stopped
    exact absurd (sound.idle left).admitted (running open_)

/-! ## The thread of the listener -/

/-- A move of the listener's own thread that leaves the pool. -/
theorem Sound.move (sound : listener.Sound) {acceptor : Acceptor}
    (open_ : listener.acceptor ≠ .stopped)
    (current : ∀ snapshot, acceptor = .deciding snapshot → listener.Current snapshot)
    (idle : acceptor = .left true → listener.Idle) :
    ({ listener with acceptor := acceptor } : Listener ω).Sound :=
  ⟨sound.pool, sound.ever, sound.clock, fun _ => sound.open_ open_, fun _ => sound.recorded open_,
    current, fun left => ⟨(idle left).admitted, (idle left).drained, (idle left).startup⟩⟩

theorem Sound.tick (sound : listener.Sound) {now : Nat} (later : listener.clock ≤ now)
    (running : now < maxTime) : ({ listener with clock := now } : Listener ω).Sound := by
  refine ⟨sound.pool, sound.ever, running, sound.open_, sound.recorded, sound.current, ?_⟩
  intro left
  have idle := sound.idle left
  exact ⟨idle.admitted, fun time listed => (idle.drained time listed).trans later,
    fun never => (idle.startup never).trans later⟩

/-- The listener leaves only when it has been idle long enough. -/
theorem Sound.decide (sound : listener.Sound) {snapshot : IdleSnapshot}
    (deciding : listener.acceptor = .deciding snapshot)
    (left : listener.decideIdle snapshot = .left true) : listener.Idle := by
  have open_ : listener.acceptor ≠ .stopped := by
    rw [deciding]
    nofun
  unfold decideIdle at left
  split at left
  next deadline found =>
    split at left
    next passed =>
      unfold idleDeadline at found
      split at found
      next => cases found
      next none_taken =>
        rcases sound.current snapshot deciding (not_not.mp none_taken) with
          ⟨none_admitted, ever, drained⟩
        have recorded := sound.recorded open_ none_admitted
        split at found
        next never =>
          rw [ever, Bool.not_eq_true'] at never
          rw [never] at recorded
          refine ⟨none_admitted, ?_, ?_⟩
          · intro time listed
            rw [show listener.drain = none from recorded] at listed
            cases listed
          · intro _
            rw [← Option.some.inj found] at passed
            exact deadlineAfter_le passed sound.clock
        next once =>
          rw [ever, Bool.not_eq_true', Bool.not_eq_false] at once
          rw [once] at recorded
          refine ⟨none_admitted, ?_, ?_⟩
          · intro time listed
            rw [show listener.drain = some listener.pool.drainedAt from recorded,
              Option.mem_some_iff] at listed
            rw [← Option.some.inj found, drained] at passed
            rw [← listed]
            exact deadlineAfter_le passed sound.clock
          · intro never
            rw [show listener.drain = some listener.pool.drainedAt from recorded] at never
            cases never
    next => cases left
  next => cases left

/-- The head of the loop decides nothing. -/
theorem looping (listener : Listener ω) (snapshot : IdleSnapshot) :
    listener.loopHead ≠ .deciding snapshot ∧ listener.loopHead ≠ .left true := by
  unfold loopHead
  split <;> exact ⟨nofun, nofun⟩

/-- Submitting a connection. -/
theorem Sound.submitted (sound : listener.Sound) {fd : Int} (closed : fd ∉ listener.pool.descriptors)
    (accepting : listener.acceptor = .accepting) :
    ({ listener with pool := listener.pool.submit fd, acceptor := listener.loopHead } :
      Listener ω).Sound := by
  have open_ : listener.acceptor ≠ .stopped := by
    rw [accepting]
    nofun
  rcases sound.pool.submit_frame fd with ⟨stopping, permits⟩
  refine ⟨sound.pool.submit closed, ?_, sound.clock, fun _ => stopping.trans (sound.open_ open_), ?_,
    ?_, ?_⟩
  · intro some_admitted
    rcases permits with ⟨-, ever⟩ | ⟨admitted, ever, -⟩
    · exact ever
    · rw [admitted] at some_admitted
      exact ever.trans (sound.ever some_admitted)
  · intro _ none_admitted
    rcases permits with ⟨some_admitted, -⟩ | ⟨admitted, ever, drained⟩
    · exact absurd none_admitted some_admitted
    · have recorded := sound.recorded open_ (admitted.symm.trans none_admitted)
      rw [← ever, ← drained] at recorded
      exact recorded
  · intro snapshot deciding
    exact absurd deciding (listener.looping snapshot).1
  · intro left
    exact absurd left (listener.looping ⟨0, false, 0⟩).2

/-- Stopping the pool. -/
theorem Sound.destroyed (sound : listener.Sound) :
    ({ listener with pool := listener.pool.stop, acceptor := .stopped } : Listener ω).Sound := by
  refine ⟨sound.pool.stop, ?_, sound.clock, fun open_ => absurd rfl open_,
    fun open_ => absurd rfl open_, nofun, nofun⟩
  intro some_admitted
  rw [Pool.stop_everAdmitted]
  apply sound.ever
  intro none_admitted
  exact some_admitted (sound.pool.stop_frame none_admitted)

theorem sound_start {pool : Pool ω} {now idleTimeout startupGrace : Nat}
    {maximumActive maximumPending : UInt64}
    (made : Pool.new maximumActive maximumPending = .ok pool) (running : now < maxTime) :
    (start pool now idleTimeout startupGrace).Sound := by
  rcases Pool.new_frame made with ⟨admitted, ever, stopping⟩
  have looping := (start pool now idleTimeout startupGrace).looping
  refine ⟨(Pool.sound_new made).1, fun some_admitted => absurd admitted some_admitted, running,
    fun _ => stopping, ?_, fun snapshot deciding => absurd deciding (looping snapshot).1,
    fun left => absurd left (looping ⟨0, false, 0⟩).2⟩
  intro _ _
  change if pool.everAdmitted then _ else _
  rw [ever]
  rfl

section Steps

variable [DecidableEq ω]

/-- Every step keeps the listener sound. -/
theorem Sound.step (sound : listener.Sound) {move : Move ω}
    (taken : listener.step move = some next) : next.Sound := by
  cases move with
  | tick now =>
      simp only [Listener.step, Option.ite_none_right_eq_some, Option.some.injEq] at taken
      rw [← taken.2]
      exact sound.tick taken.1.1 taken.1.2
  | take worker =>
      rcases Option.map_eq_some_iff.mp taken with ⟨after, stepped, rfl⟩
      rcases Pool.take_frame stepped with ⟨queued, admitted, ever, stopping⟩
      have some_admitted : listener.pool.admitted ≠ 0 :=
        fun none_admitted => queued (sound.pool.empty none_admitted).1
      refine sound.worked (sound.pool.step stepped) ever stopping (.inr some_admitted)
        (fun _ => some_admitted) (.inr ?_)
      intro none_admitted
      rw [admitted] at none_admitted
      exact absurd none_admitted some_admitted
  | finish worker =>
      rcases Option.map_eq_some_iff.mp taken with ⟨after, stepped, rfl⟩
      rcases Pool.finish_frame stepped with ⟨busy, -, ever, stopping, drained⟩
      have some_admitted : listener.pool.admitted ≠ 0 :=
        fun none_admitted => busy (sound.pool.empty none_admitted).2
      exact sound.worked (sound.pool.step stepped) ever stopping (.inr some_admitted)
        (fun _ => some_admitted) (.inr drained)
  | leave worker =>
      rcases Option.map_eq_some_iff.mp taken with ⟨after, stepped, rfl⟩
      rcases Pool.leave_frame stepped with ⟨stopped, admitted, ever, stopping⟩
      refine sound.worked (sound.pool.step stepped) ever stopping (.inl stopped) ?_ (.inl stopped)
      intro some_admitted
      rwa [admitted] at some_admitted
  | snapshot =>
      simp only [Listener.step] at taken
      split at taken
      next checking =>
        rw [← Option.some.inj taken]
        refine sound.move (by rw [checking]; rintro ⟨⟩) ?_ (by rintro ⟨⟩)
        intro snapshot same
        rw [← Acceptor.deciding.inj same]
        exact fun none_admitted => ⟨none_admitted, rfl, rfl⟩
      next => cases taken
  | decide =>
      simp only [Listener.step] at taken
      split at taken
      next snapshot deciding =>
        rw [← Option.some.inj taken]
        refine sound.move (by rw [deciding]; rintro ⟨⟩) ?_ (sound.decide deciding)
        intro other same
        unfold decideIdle at same
        split at same
        next => split at same <;> cases same
        next => cases same
      next => cases taken
  | polled ready =>
      simp only [Listener.step] at taken
      split at taken
      next polling =>
        rw [← Option.some.inj taken]
        apply sound.move (by rw [polling]; rintro ⟨⟩)
        · intro snapshot same
          cases ready with
          | false => cases same
          | true => cases same
        · intro same
          cases ready with
          | false => cases same
          | true => cases same
      next => cases taken
  | accepted fd =>
      simp only [Listener.step] at taken
      split at taken
      next accepting =>
        rcases Option.map_eq_some_iff.mp taken with ⟨after, stepped, rfl⟩
        simp only [Pool.step, Option.ite_none_left_eq_some, Option.some.injEq] at stepped
        rw [← stepped.2]
        exact sound.submitted stepped.1 accepting
      next => cases taken
  | acceptFailed interrupted =>
      simp only [Listener.step] at taken
      split at taken
      next accepting =>
        rw [← Option.some.inj taken]
        apply sound.move (by rw [accepting]; rintro ⟨⟩)
        · intro snapshot same
          cases interrupted with
          | false => cases same
          | true => exact absurd same (listener.looping snapshot).1
        · intro same
          cases interrupted with
          | false => cases same
          | true => exact absurd same (listener.looping ⟨0, false, 0⟩).2
      next => cases taken
  | destroy =>
      simp only [Listener.step] at taken
      split at taken
      next =>
        rcases Option.map_eq_some_iff.mp taken with ⟨after, stepped, rfl⟩
        rw [← Option.some.inj stepped]
        exact sound.destroyed
      next => cases taken

theorem Sound.run (sound : listener.Sound) {moves : List (Move ω)}
    (ran : listener.run moves = some next) : next.Sound :=
  Lib.foldlM_invariant (fun before taken => before.step taken) sound ran

end Steps

end Listener

/-! ## The contract of the pool -/

section Contract

variable {ω : Type} [DecidableEq ω]

/-- Whatever the interleaving of submitter, workers and destructor: the permits count the
connections in the queue and with a worker and stay within the limits, every connection is
accounted for, `stop` shuts down only what is being served, and each accepted connection has
been closed once when the workers are joined.  A listener that leaves as idle was idle. -/
theorem admission_sound {pool : Pool ω} {maximumActive maximumPending : UInt64}
    (made : Pool.new maximumActive maximumPending = .ok pool) :
    (∀ sections next, pool.run sections = some next →
      next.admitted.toNat = next.pending.length + next.serving.length ∧
      next.admitted.toNat ≤ maximumActive.toNat + maximumPending.toNat ∧
      (∀ connection, next.Accounted connection) ∧
      next.descriptors.Nodup ∧
      next.active = (next.serving.map fun entry => entry.2.fd).toFinset ∧
      (∀ fd ∈ next.shutdowns, ∃ connection ∈ next.serving.map Prod.snd, connection.fd = fd ∧
        .closed connection ∉ next.history ∧ .dropped connection ∉ next.history) ∧
      (∀ worker, next.Waits worker → next.pending ≠ [] → (next.take worker).isSome) ∧
      (∀ worker now, worker ∈ next.serving.map Prod.fst → (next.finish worker now).isSome) ∧
      (next.stopping = true → (∀ worker, worker ∈ next.exited) → ∀ connection,
        .accepted connection ∈ next.history →
          next.history.count (.closed connection) +
            next.history.count (.dropped connection) = 1)) ∧
    (∀ now idleTimeout startupGrace moves next, now < maxTime →
      (Listener.start pool now idleTimeout startupGrace).run moves = some next →
        next.acceptor = .left true → next.Idle ∧ next.pool.pending = [] ∧
          next.pool.serving = []) := by
  rcases Pool.sound_new made with ⟨fresh, limit⟩
  constructor
  · intro sections next ran
    have sound := fresh.run ran
    have maximum : next.maximumAdmitted = pool.maximumAdmitted := Pool.run_maximumAdmitted ran
    refine ⟨sound.counted, ?_, sound.accounted, sound.distinct, sound.active, ?_,
      fun _ => Pool.take_isSome, fun _ _ => Pool.finish_isSome, fun stopping joined _ => sound.joined_closed stopping joined⟩
    · rw [← limit, ← maximum]
      exact sound.bounded
    · intro fd shut
      unfold Pool.shutdowns at shut
      split at shut
      next => exact absurd shut (Finset.notMem_empty fd)
      next =>
        rw [sound.active, List.mem_toFinset] at shut
        rcases List.mem_map.mp shut with ⟨entry, listed, rfl⟩
        have served : entry.2 ∈ next.serving.map Prod.snd := List.mem_map_of_mem listed
        exact ⟨entry.2, served, rfl, (sound.accounted entry.2).serving served⟩
  · intro now idleTimeout startupGrace moves next running ran left
    have sound := (Listener.sound_start made running).run ran
    have idle := sound.idle left
    exact ⟨idle, sound.pool.empty idle.admitted⟩

/-- A pool of one worker, and a queue of one connection. -/
def onePool : Pool Unit where
  maximumAdmitted := 2
  admitted := 0
  everAdmitted := false
  drainedAt := 0
  pending := []
  active := ∅
  stopping := false
  serving := []
  exited := []
  ids := 0
  history := []

/-- The pool that served one connection, dropped one and refused two. -/
def joinedPool : Pool Unit :=
  { onePool with
    everAdmitted := true
    drainedAt := 5
    stopping := true
    exited := [()]
    ids := 4
    history := [.accepted ⟨0, 7⟩, .served ⟨0, 7⟩, .accepted ⟨1, 8⟩, .refused ⟨2, 9⟩,
      .dropped ⟨1, 8⟩, .refused ⟨3, 8⟩, .closed ⟨0, 7⟩] }

/-- The listener of a pool that served one connection, and then waited for its timeout. -/
def leftListener : Listener Unit where
  pool :=
    { onePool with
      everAdmitted := true
      drainedAt := 5
      ids := 1
      history := [.accepted ⟨0, 7⟩, .served ⟨0, 7⟩, .closed ⟨0, 7⟩] }
  acceptor := .left true
  clock := 3000005
  started := 0
  idleTimeout := 3
  startupGrace := 60000
  drain := some 5

/-- Both are reached: the joined pool has closed its connection once, and the listener that
left was idle. -/
theorem onePool_closes :
    (onePool.run [.submit 7, .take (), .submit 8, .submit 9, .stop, .submit 8, .finish () 5,
        .leave ()] = some joinedPool ∧
      joinedPool.history.count (.closed ⟨0, 7⟩) +
        joinedPool.history.count (.dropped ⟨0, 7⟩) = 1) ∧
      ((Listener.start onePool 0 3 60000).run [.snapshot, .decide, .polled true, .accepted 7,
          .take (), .tick 5, .finish (), .snapshot, .tick 3000005, .decide] = some leftListener ∧
        leftListener.Idle) := by
  have made : Pool.new 1 1 = .ok onePool := rfl
  refine ⟨⟨rfl, ?_⟩, rfl, ?_⟩
  · rcases (admission_sound made).1 [.submit 7, .take (), .submit 8, .submit 9, .stop, .submit 8,
      .finish () 5, .leave ()] joinedPool rfl with ⟨-, -, -, -, -, -, -, -, closed⟩
    exact closed rfl (fun _ => List.mem_cons_self) ⟨0, 7⟩ List.mem_cons_self
  · have left := (admission_sound made).2 0 3 60000 [.snapshot, .decide, .polled true, .accepted 7,
      .take (), .tick 5, .finish (), .snapshot, .tick 3000005, .decide] leftListener (by decide)
    exact (left rfl rfl).1

end Contract

end VgiRpc.Socket
