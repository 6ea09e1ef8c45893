import VgiRpc.Lib.Runs
import VgiRpc.Socket.Pool

/-!
# Descriptors are closed once

Every descriptor that the pool accepted is in its queue, with a worker or closed, and only
in one of these places; the permits count the first two.
-/

namespace VgiRpc.Socket

variable {ω : Type}

/-! ## Counting events -/

theorem count_snoc (history : List Event) (last event : Event) :
    (history ++ [last]).count event = history.count event + if last = event then 1 else 0 := by
  rw [List.count_append, List.count_singleton]
  simp only [beq_iff_eq]

theorem count_dropped (pending : List Connection) (connection : Connection) :
    (pending.map Event.dropped).count (.dropped connection) = pending.count connection := by
  apply List.count_map_of_injective
  intro first second same
  exact Event.dropped.inj same

theorem count_of_not_dropped (pending : List Connection) {event : Event}
    (other : ∀ connection, event ≠ .dropped connection) :
    (pending.map Event.dropped).count event = 0 := by
  rw [List.count_eq_zero]
  intro listed
  rcases List.mem_map.mp listed with ⟨connection, -, same⟩
  exact other connection same.symm

/-! ## The invariant -/

namespace Pool

/-- What holds between two critical sections. -/
structure Sound (pool : Pool ω) : Prop where
  counted : pool.admitted.toNat = pool.pending.length + pool.serving.length
  bounded : pool.admitted.toNat ≤ pool.maximumAdmitted.toNat
  distinct : pool.descriptors.Nodup
  active : pool.active = (pool.serving.map fun entry => entry.2.fd).toFinset
  workers : (pool.serving.map Prod.fst).Nodup
  /-- Every `accept` was answered at most once. -/
  fresh : ∀ connection, pool.history.count (.accepted connection) +
    pool.history.count (.refused connection) ≤ if connection.id < pool.ids then 1 else 0
  /-- What was accepted is in the queue, was served or was dropped. -/
  queued : ∀ connection, pool.history.count (.accepted connection) =
    pool.pending.count connection + pool.history.count (.served connection) +
      pool.history.count (.dropped connection)
  /-- What was served is being served or was closed. -/
  closing : ∀ connection, pool.history.count (.served connection) =
    (pool.serving.map Prod.snd).count connection + pool.history.count (.closed connection)
  stopped : pool.stopping = true → pool.pending = []
  joined : ∀ worker ∈ pool.exited, worker ∉ pool.serving.map Prod.fst

variable {pool next : Pool ω} {worker : ω} {fd : Int} {now : Nat}

theorem sound_new {maximumActive maximumPending : UInt64}
    (made : Pool.new maximumActive maximumPending = .ok pool) :
    pool.Sound ∧ pool.maximumAdmitted.toNat = maximumActive.toNat + maximumPending.toNat := by
  unfold Pool.new at made
  split at made
  next => cases made
  next limits =>
    cases Except.ok.inj made
    constructor
    · constructor <;> simp [descriptors]
    · simp only [not_or] at limits
      have fits := UInt64.le_iff_toNat_le.mp (UInt64.not_lt.mp limits.2.2)
      have pending := maximumPending.toNat_lt
      rw [UInt64.toNat_sub_of_le] at fits
      · rw [UInt64.toNat_add]
        apply Nat.mod_eq_of_lt
        change _ ≤ 2 ^ 64 - 1 - _ at fits
        omega
      · rw [UInt64.le_iff_toNat_le]
        change _ ≤ 2 ^ 64 - 1
        omega

theorem new_frame {maximumActive maximumPending : UInt64}
    (made : Pool.new maximumActive maximumPending = .ok pool) :
    pool.admitted = 0 ∧ pool.everAdmitted = false ∧ pool.stopping = false := by
  unfold Pool.new at made
  split at made
  next => cases made
  next =>
    cases Except.ok.inj made
    exact ⟨rfl, rfl, rfl⟩

/-- The next `accept` is answered once. -/
theorem Sound.fresh_snoc (sound : pool.Sound) {event : Event}
    (answer : event = .accepted ⟨pool.ids, fd⟩ ∨ event = .refused ⟨pool.ids, fd⟩)
    (connection : Connection) :
    (pool.history ++ [event]).count (.accepted connection) +
        (pool.history ++ [event]).count (.refused connection) ≤
      if connection.id < pool.ids + 1 then 1 else 0 := by
  have before := sound.fresh connection
  by_cases same : connection = ⟨pool.ids, fd⟩
  · rw [same, if_neg (Nat.lt_irrefl _)] at before
    rw [same, if_pos (Nat.lt_succ_self _)]
    rcases answer with rfl | rfl
    · simp only [count_snoc, if_true, reduceCtorEq, if_false]
      omega
    · simp only [count_snoc, if_true, reduceCtorEq, if_false]
      omega
  · have later : (if connection.id < pool.ids then 1 else 0) ≤
        if connection.id < pool.ids + 1 then 1 else 0 := by
      split_ifs <;> omega
    rcases answer with rfl | rfl
    · simp only [count_snoc, Event.accepted.injEq, if_neg (Ne.symm same), reduceCtorEq, if_false]
      omega
    · simp only [count_snoc, Event.refused.injEq, if_neg (Ne.symm same), reduceCtorEq, if_false]
      omega

/-- A permit that is given out does not overflow. -/
theorem Sound.admitted_succ (sound : pool.Sound) (room : pool.admitted ≠ pool.maximumAdmitted) :
    (pool.admitted + 1).toNat = pool.admitted.toNat + 1 ∧
      pool.admitted.toNat + 1 ≤ pool.maximumAdmitted.toNat := by
  have small : pool.admitted.toNat < pool.maximumAdmitted.toNat :=
    lt_of_le_of_ne sound.bounded fun same => room (UInt64.toNat_inj.mp same)
  have limit := pool.maximumAdmitted.toNat_lt
  refine ⟨?_, small⟩
  rw [UInt64.toNat_add]
  exact Nat.mod_eq_of_lt (by change _ + 1 < _; omega)

/-- What `submit` does to the permits. -/
theorem Sound.submit_frame (sound : pool.Sound) (fd : Int) :
    (pool.submit fd).stopping = pool.stopping ∧
      (((pool.submit fd).admitted ≠ 0 ∧ (pool.submit fd).everAdmitted = true) ∨
        ((pool.submit fd).admitted = pool.admitted ∧
          (pool.submit fd).everAdmitted = pool.everAdmitted ∧
            (pool.submit fd).drainedAt = pool.drainedAt)) := by
  unfold Pool.submit
  split
  next => exact ⟨rfl, .inr ⟨rfl, rfl, rfl⟩⟩
  next accepted =>
    rw [not_or] at accepted
    refine ⟨rfl, .inl ⟨?_, rfl⟩⟩
    intro none_admitted
    have added := (sound.admitted_succ accepted.2).1
    rw [show pool.admitted + 1 = 0 from none_admitted] at added
    cases added

theorem Sound.submit (sound : pool.Sound) (closed : fd ∉ pool.descriptors) :
    (pool.submit fd).Sound := by
  unfold Pool.submit
  split
  next refused =>
    constructor
    · exact sound.counted
    · exact sound.bounded
    · exact sound.distinct
    · exact sound.active
    · exact sound.workers
    · exact sound.fresh_snoc (.inr rfl)
    · intro connection
      simp only [count_snoc, reduceCtorEq, if_false, Nat.add_zero]
      exact sound.queued connection
    · intro connection
      simp only [count_snoc, reduceCtorEq, if_false, Nat.add_zero]
      exact sound.closing connection
    · exact sound.stopped
    · exact sound.joined
  next accepted =>
    rw [not_or] at accepted
    rcases sound.admitted_succ accepted.2 with ⟨added, small⟩
    constructor
    · simp only [added, sound.counted, List.length_append, List.length_singleton]
      omega
    · rw [added]
      exact small
    · have distinct := sound.distinct
      simp only [descriptors, List.map_append, List.map_singleton] at distinct closed ⊢
      rw [List.append_assoc, (List.perm_append_comm_assoc _ _ _).nodup_iff, List.singleton_append,
        List.nodup_cons]
      exact ⟨closed, distinct⟩
    · exact sound.active
    · exact sound.workers
    · exact sound.fresh_snoc (.inl rfl)
    · intro connection
      have before := sound.queued connection
      simp only [reduceCtorEq, if_false, Nat.add_zero, List.count_append, List.count_singleton,
        beq_iff_eq, Event.accepted.injEq]
      omega
    · intro connection
      simp only [count_snoc, reduceCtorEq, if_false, Nat.add_zero]
      exact sound.closing connection
    · intro stopping
      exact absurd stopping accepted.1
    · exact sound.joined

theorem Sound.stop (sound : pool.Sound) : pool.stop.Sound := by
  unfold Pool.stop
  split
  next => exact sound
  next =>
    have fewer : pool.pending.length ≤ pool.admitted.toNat := by
      rw [sound.counted]
      omega
    have length : (UInt64.ofNat pool.pending.length).toNat = pool.pending.length :=
      UInt64.toNat_ofNat_of_lt' (lt_of_le_of_lt fewer pool.admitted.toNat_lt)
    have released : (pool.admitted - UInt64.ofNat pool.pending.length).toNat =
        pool.admitted.toNat - pool.pending.length := by
      rw [UInt64.toNat_sub_of_le, length]
      rw [UInt64.le_iff_toNat_le, length]
      exact fewer
    constructor
    · simp only [released, sound.counted, List.length_nil]
      omega
    · rw [released]
      exact (Nat.sub_le _ _).trans sound.bounded
    · have distinct := sound.distinct
      rw [descriptors, List.nodup_append] at distinct
      exact distinct.2.1
    · exact sound.active
    · exact sound.workers
    · intro connection
      rw [List.count_append, List.count_append, count_of_not_dropped _ (by simp),
        count_of_not_dropped _ (by simp)]
      exact sound.fresh connection
    · intro connection
      have before := sound.queued connection
      rw [List.count_append, List.count_append, List.count_append, count_of_not_dropped _ (by simp),
        count_of_not_dropped _ (by simp), count_dropped, List.count_nil]
      omega
    · intro connection
      rw [List.count_append, List.count_append, count_of_not_dropped _ (by simp),
        count_of_not_dropped _ (by simp)]
      exact sound.closing connection
    · exact fun _ => rfl
    · exact sound.joined

/-- A pool without permits in use is empty. -/
theorem Sound.empty (sound : pool.Sound) (none_admitted : pool.admitted = 0) :
    pool.pending = [] ∧ pool.serving = [] := by
  have counted := sound.counted
  rw [none_admitted] at counted
  have lengths : pool.pending.length = 0 ∧ pool.serving.length = 0 := by
    change 0 = _ at counted
    omega
  exact ⟨List.eq_nil_of_length_eq_zero lengths.1, List.eq_nil_of_length_eq_zero lengths.2⟩

/-- Stopping gives no permit out. -/
theorem Sound.stop_frame (sound : pool.Sound) (none_admitted : pool.admitted = 0) :
    pool.stop.admitted = 0 := by
  unfold Pool.stop
  split
  next => exact none_admitted
  next =>
    rw [none_admitted, (sound.empty none_admitted).1]
    rfl

theorem stop_everAdmitted (pool : Pool ω) : pool.stop.everAdmitted = pool.everAdmitted := by
  unfold Pool.stop
  split <;> rfl

section Workers

variable [DecidableEq ω]

theorem Sound.take (sound : pool.Sound) (taken : pool.take worker = some next) : next.Sound := by
  unfold Pool.take at taken
  split at taken
  next waits =>
    split at taken
    next => cases taken
    next first rest shape =>
      cases Option.some.inj taken
      have distinct := sound.distinct
      simp only [descriptors, shape, List.map_cons, List.cons_append] at distinct
      constructor
      · have counted := sound.counted
        simp only [shape, List.length_cons] at counted ⊢
        omega
      · exact sound.bounded
      · exact (List.perm_middle.nodup_iff).mpr distinct
      · rw [List.map_cons, List.toFinset_cons, sound.active]
      · exact List.nodup_cons.mpr ⟨waits.1, sound.workers⟩
      · intro connection
        simp only [count_snoc, reduceCtorEq, if_false, Nat.add_zero]
        exact sound.fresh connection
      · intro connection
        have before := sound.queued connection
        simp only [count_snoc, shape, List.count_cons, beq_iff_eq, reduceCtorEq, if_false,
          Nat.add_zero, Event.served.injEq] at before ⊢
        omega
      · intro connection
        have before := sound.closing connection
        simp only [count_snoc, List.map_cons, List.count_cons, beq_iff_eq, reduceCtorEq, if_false,
          Nat.add_zero, Event.served.injEq] at before ⊢
        omega
      · intro stopping
        have empty := sound.stopped stopping
        rw [shape] at empty
        cases empty
      · intro other left
        rw [List.map_cons, List.mem_cons, not_or]
        refine ⟨?_, sound.joined other left⟩
        intro same
        rw [same] at left
        exact waits.2 left
  next => cases taken

theorem Sound.leave (sound : pool.Sound) (left : pool.leave worker = some next) : next.Sound := by
  unfold Pool.leave at left
  split at left
  next waits =>
    cases Option.some.inj left
    refine ⟨sound.counted, sound.bounded, sound.distinct, sound.active, sound.workers, sound.fresh,
      sound.queued, sound.closing, sound.stopped, ?_⟩
    intro other listed
    rcases List.mem_cons.mp listed with rfl | before
    · exact waits.1.1
    · exact sound.joined other before
  next => cases left

/-- The entry of one worker, and the others. -/
theorem serving_perm {serving : List (ω × Connection)} (workers : (serving.map Prod.fst).Nodup)
    {connection : Connection} (found : serving.lookup worker = some connection) :
    serving.Perm ((worker, connection) :: serving.filter fun entry => entry.1 != worker) := by
  induction serving with
  | nil => cases found
  | cons entry serving ih =>
      rw [List.map_cons, List.nodup_cons] at workers
      rcases entry with ⟨owner, served⟩
      by_cases same : owner = worker
      · subst same
        rw [List.lookup_cons_self] at found
        rw [Option.some.inj found, List.filter_cons_of_neg (by simp)]
        have others : serving.filter (fun entry => entry.1 != owner) = serving := by
          rw [List.filter_eq_self]
          intro other listed
          rw [bne_iff_ne]
          intro equal
          exact workers.1 (List.mem_map.mpr ⟨other, listed, equal⟩)
        rw [others]
      · rw [List.lookup_cons, beq_false_of_ne (Ne.symm same)] at found
        have kept : ((owner, served) :: serving).filter (fun entry => entry.1 != worker) =
            (owner, served) :: serving.filter fun entry => entry.1 != worker :=
          List.filter_cons_of_pos (bne_iff_ne.mpr same)
        rw [kept]
        exact ((ih workers.2 found).cons _).trans (List.Perm.swap _ _ _)

theorem Sound.finish (sound : pool.Sound) (finished : pool.finish worker now = some next) :
    next.Sound := by
  unfold Pool.finish at finished
  split at finished
  next => cases finished
  next connection found =>
    cases Option.some.inj finished
    have parted := serving_perm sound.workers found
    have lengths := parted.length_eq
    rw [List.length_cons] at lengths
    have released : (pool.admitted - 1).toNat = pool.admitted.toNat - 1 := by
      rw [UInt64.toNat_sub_of_le]
      · rfl
      · rw [UInt64.le_iff_toNat_le, sound.counted, lengths]
        change 1 ≤ _
        omega
    have distinct := sound.distinct
    rw [descriptors, ((parted.map _).append_left _).nodup_iff, List.map_cons] at distinct
    constructor
    · simp only [released, sound.counted]
      omega
    · rw [released]
      exact (Nat.sub_le _ _).trans sound.bounded
    · rw [List.perm_middle.nodup_iff] at distinct
      exact (List.nodup_cons.mp distinct).2
    · have fds := (List.nodup_append.mp distinct).2.1
      rw [sound.active, List.toFinset_eq_of_perm _ _ (parted.map _), List.map_cons,
        List.toFinset_cons, Finset.erase_insert]
      rw [List.mem_toFinset]
      exact (List.nodup_cons.mp fds).1
    · exact sound.workers.sublist (List.filter_sublist.map _)
    · intro other
      simp only [count_snoc, reduceCtorEq, if_false, Nat.add_zero]
      exact sound.fresh other
    · intro other
      simp only [count_snoc, reduceCtorEq, if_false, Nat.add_zero]
      exact sound.queued other
    · intro other
      have before := sound.closing other
      rw [(parted.map Prod.snd).count_eq, List.map_cons, List.count_cons] at before
      simp only [count_snoc, beq_iff_eq, reduceCtorEq, if_false, Nat.add_zero,
        Event.closed.injEq] at before ⊢
      omega
    · exact sound.stopped
    · intro other left listed
      exact sound.joined other left ((List.filter_sublist.map _).subset listed)

/-- Taking a connection leaves the permits. -/
theorem take_frame (taken : pool.take worker = some next) :
    pool.pending ≠ [] ∧ next.admitted = pool.admitted ∧
      next.everAdmitted = pool.everAdmitted ∧ next.stopping = pool.stopping := by
  unfold Pool.take at taken
  split at taken
  next =>
    split at taken
    next => cases taken
    next shape =>
      cases Option.some.inj taken
      exact ⟨by simp [shape], rfl, rfl, rfl⟩
  next => cases taken

/-- Finishing a connection gives one permit back, and records the time of the last one. -/
theorem finish_frame {now : Nat} (finished : pool.finish worker now = some next) :
    pool.serving ≠ [] ∧ next.admitted = pool.admitted - 1 ∧
      next.everAdmitted = pool.everAdmitted ∧ next.stopping = pool.stopping ∧
        (next.admitted = 0 → next.drainedAt = now) := by
  unfold Pool.finish at finished
  split at finished
  next => cases finished
  next found =>
    cases Option.some.inj finished
    refine ⟨?_, rfl, rfl, rfl, ?_⟩
    · intro empty
      rw [empty] at found
      cases found
    · intro last
      exact if_pos last

/-- A worker leaves a stopped pool only. -/
theorem leave_frame (left : pool.leave worker = some next) :
    pool.stopping = true ∧ next.admitted = pool.admitted ∧
      next.everAdmitted = pool.everAdmitted ∧ next.stopping = pool.stopping := by
  unfold Pool.leave at left
  split at left
  next waits =>
    cases Option.some.inj left
    exact ⟨waits.2.1, rfl, rfl, rfl⟩
  next => cases left

/-- Every critical section keeps the pool sound. -/
theorem Sound.step (sound : pool.Sound) {entered : Section ω}
    (taken : pool.step entered = some next) : next.Sound := by
  cases entered with
  | submit fd =>
      simp only [Pool.step, Option.ite_none_left_eq_some, Option.some.injEq] at taken
      rw [← taken.2]
      exact sound.submit taken.1
  | take worker => exact sound.take taken
  | finish worker now => exact sound.finish taken
  | leave worker => exact sound.leave taken
  | stop =>
      rw [← Option.some.inj taken]
      exact sound.stop

theorem Sound.run (sound : pool.Sound) {sections : List (Section ω)}
    (ran : pool.run sections = some next) : next.Sound :=
  Lib.foldlM_invariant (fun before taken => before.step taken) sound ran

/-- No critical section changes the limit. -/
theorem step_maximumAdmitted {entered : Section ω} (taken : pool.step entered = some next) :
    next.maximumAdmitted = pool.maximumAdmitted := by
  cases entered with
  | submit fd =>
      simp only [Pool.step, Option.ite_none_left_eq_some, Option.some.injEq] at taken
      rw [← taken.2]
      unfold Pool.submit
      split <;> rfl
  | take worker =>
      simp only [Pool.step, Pool.take] at taken
      split at taken
      next =>
        split at taken
        next => cases taken
        next => cases Option.some.inj taken; rfl
      next => cases taken
  | finish worker now =>
      simp only [Pool.step, Pool.finish] at taken
      split at taken
      next => cases taken
      next => cases Option.some.inj taken; rfl
  | leave worker =>
      simp only [Pool.step, Pool.leave] at taken
      split at taken
      next => cases Option.some.inj taken; rfl
      next => cases taken
  | stop =>
      rw [← Option.some.inj taken]
      unfold Pool.stop
      split <;> rfl

theorem run_maximumAdmitted {sections : List (Section ω)} (ran : pool.run sections = some next) :
    next.maximumAdmitted = pool.maximumAdmitted :=
  Lib.foldlM_invariant (motive := fun reached => reached.maximumAdmitted = pool.maximumAdmitted)
    (fun before taken => (step_maximumAdmitted taken).trans before) rfl ran

/-- A worker that has served its connection can close it. -/
theorem finish_isSome (served : worker ∈ pool.serving.map Prod.fst) :
    (pool.finish worker now).isSome := by
  rcases List.mem_map.mp served with ⟨entry, listed, rfl⟩
  unfold Pool.finish
  split
  next missing =>
    rw [List.lookup_eq_none_iff] at missing
    exact absurd rfl (bne_iff_ne.mp (missing entry listed))
  next => rfl

/-- A connection in the queue can be taken by any worker that waits. -/
theorem take_isSome (waits : pool.Waits worker) (queued : pool.pending ≠ []) :
    (pool.take worker).isSome := by
  unfold Pool.take
  rw [if_pos waits]
  split
  next empty => exact absurd empty queued
  next => rfl

end Workers

/-! ## One connection -/

/-- What the pool has done with a connection. -/
structure Accounted (pool : Pool ω) (connection : Connection) : Prop where
  /-- A refused connection stays with the caller. -/
  refused : .refused connection ∈ pool.history →
    .accepted connection ∉ pool.history ∧ .served connection ∉ pool.history ∧
      .closed connection ∉ pool.history ∧ .dropped connection ∉ pool.history
  /-- An accepted connection waits, is served or was closed once. -/
  accepted : .accepted connection ∈ pool.history →
    pool.pending.count connection + (pool.serving.map Prod.snd).count connection +
      pool.history.count (.closed connection) + pool.history.count (.dropped connection) = 1
  dropped : .dropped connection ∈ pool.history → .served connection ∉ pool.history
  /-- What is served is not closed. -/
  serving : connection ∈ pool.serving.map Prod.snd →
    .closed connection ∉ pool.history ∧ .dropped connection ∉ pool.history
  /-- What was not accepted is not touched. -/
  unknown : .accepted connection ∉ pool.history →
    .served connection ∉ pool.history ∧ .closed connection ∉ pool.history ∧
      .dropped connection ∉ pool.history

theorem Sound.accounted (sound : pool.Sound) (connection : Connection) :
    pool.Accounted connection := by
  have fresh : pool.history.count (.accepted connection) +
      pool.history.count (.refused connection) ≤ 1 :=
    (sound.fresh connection).trans (by split_ifs <;> decide)
  have queued := sound.queued connection
  have closing := sound.closing connection
  constructor
  · intro refused
    have := List.count_pos_iff.mpr refused
    simp only [← List.count_eq_zero]
    omega
  · intro accepted
    have := List.count_pos_iff.mpr accepted
    omega
  · intro dropped
    have := List.count_pos_iff.mpr dropped
    simp only [← List.count_eq_zero]
    omega
  · intro serving
    have := List.count_pos_iff.mpr serving
    simp only [← List.count_eq_zero]
    omega
  · intro unknown
    simp only [← List.count_eq_zero] at unknown ⊢
    omega

/-- Once `stop` has joined the workers, every accepted connection was closed once. -/
theorem Sound.joined_closed (sound : pool.Sound) (stopping : pool.stopping = true)
    (joined : ∀ worker, worker ∈ pool.exited) {connection : Connection}
    (accepted : .accepted connection ∈ pool.history) :
    pool.history.count (.closed connection) + pool.history.count (.dropped connection) = 1 := by
  have idle : pool.serving = [] := by
    cases shape : pool.serving with
    | nil => rfl
    | cons entry rest =>
        have left := sound.joined entry.1 (joined entry.1)
        rw [shape, List.map_cons] at left
        exact absurd List.mem_cons_self left
  have closed := (sound.accounted connection).accepted accepted
  rw [sound.stopped stopping, idle] at closed
  change 0 + 0 + _ + _ = 1 at closed
  omega

end Pool

end VgiRpc.Socket
