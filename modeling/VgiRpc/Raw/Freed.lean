import VgiRpc.Raw.Inbound

/-!
# Inbound regions are freed once

The regions that the server resolves and the ones that it frees balance, but for the one
that an open stream holds, as long as no message takes one of the ways out that skip the
free.  If moreover every pointer is served to its end, an idle server leaves no entry of a
request in the table.
-/

namespace VgiRpc.Raw.Inbound

open VgiRpc.Cpp VgiRpc.Wire VgiRpc.Lib VgiRpc.Shm VgiRpc.Shm.Segment VgiRpc.Collector

variable {Columns Schema σ β μ : Type}

section Server

variable (arrow : Arrow Columns Schema) (server : Server Columns)

/-! ## Conditions on a message -/

/-- The input is coerced and the handler returns. -/
def StreamMethod.returns (method : StreamMethod Columns σ β μ) (state : σ)
    (raw : AnnotatedBatch Columns) : Bool :=
  match method.input raw with
  | .error _ => false
  | .ok input => ((method.process state input).run method.isProducer).error.isNone

/-- A resolved request meets its parameter contract; a resolved input is coerced and its
handler returns. -/
def keeps (world : World Columns σ β μ) : Label Columns σ β μ → Bool
  | .request attached _ message =>
      match resolve arrow (world.shm attached) message with
      | some (_, some _) =>
          dispatched arrow server (world.shm attached) message ≠ .refused .parameterContract
      | _ => true
  | .input message =>
      match world.phase with
      | .loop _ method state =>
          message.entries.has Keys.cancel ||
            match resolve arrow (world.shm world.attached) message with
            | some (raw, some _) => method.returns state raw
            | _ => true
      | _ => true
  | _ => true

/-- A pointer is not only kept but served: the request reaches its method, the input a
turn that returns. -/
def serves (world : World Columns σ β μ) : Label Columns σ β μ → Bool
  | .request attached _ message =>
      (pointerOf arrow message).isNone ||
        match dispatched arrow server (world.shm attached) message with
        | .unary | .stream => true
        | _ => false
  | .input message =>
      (pointerOf arrow message).isNone ||
        match world.phase with
        | .loop _ method state =>
            !message.entries.has Keys.cancel &&
              match resolve arrow (world.shm world.attached) message with
              | some (raw, _) => method.returns state raw
              | none => false
        | _ => false
  | _ => true

/-- Every region that the server resolved was freed once, but the one that the open stream
holds. -/
def World.Settled (world : World Columns σ β μ) : Prop :=
  world.resolved.Perm (world.freed ++ world.phase.held.toList)

/-! ## Resolution -/

variable {arrow server}

/-- What resolution yields for a pointer, and for any other batch. -/
theorem resolve_cases {shm : Option Segment} {message raw : AnnotatedBatch Columns}
    {offset : Option Int64} (resolved : resolve arrow shm message = some (raw, offset)) :
    (isShmPointerBatch arrow message = true ∧ ∃ segment,
        resolveShmBatch arrow segment message = .ok (raw, offset)) ∨
      (isShmPointerBatch arrow message = false ∧ offset = none) := by
  unfold resolve at resolved
  split at resolved
  next pointer =>
      left
      cases shm with
      | none => cases resolved
      | some segment =>
          refine ⟨pointer, segment, ?_⟩
          cases result : resolveShmBatch arrow segment message with
          | error message => simp [result, Except.toOption] at resolved
          | ok value => simpa [result, Except.toOption] using resolved
  next inline =>
      right
      cases resolved
      exact ⟨by simpa using inline, rfl⟩

/-- What is resolved is what the pointer names. -/
theorem resolve_pointer {shm : Option Segment} {message raw : AnnotatedBatch Columns}
    {offset : Option Int64} (resolved : resolve arrow shm message = some (raw, offset)) :
    offset = pointerOf arrow message := by
  unfold pointerOf
  rcases resolve_cases resolved with ⟨pointer, segment, result⟩ | ⟨inline, rfl⟩
  · rcases resolveShmBatch_pointer pointer result with ⟨named, _, _, text, -, rfl, -⟩
    rw [if_pos pointer, text]
  · rw [inline, if_neg Bool.false_ne_true]

/-- A pointer that is not resolved reaches no method. -/
theorem dispatched_of_unresolved {shm : Option Segment} {message : AnnotatedBatch Columns}
    (failed : resolve arrow shm message = none) :
    dispatched arrow server shm message ≠ .unary ∧
      dispatched arrow server shm message ≠ .stream := by
  have pointer : Server.isShmPointer (requestBatch arrow message) = true := by
    unfold resolve at failed
    split at failed
    next pointer =>
        cases message with
        | mk batch customMetadata =>
            cases customMetadata with
            | none => simp [isShmPointerBatch] at pointer
            | some metadata =>
                exact pointer
    next => cases failed
  unfold dispatched
  rw [failed, Option.map_none]
  unfold Server.dispatch
  simp only [pointer, if_true]
  constructor <;> (repeat' split) <;> simp

/-! ## One message -/

/-- A message frees what it resolves and what was held, but for what is held now. -/
def Left.Balanced (held : Option Int64) (left : Left Columns σ β μ) : Prop :=
  (held.toList ++ left.resolved).Perm (left.freed ++ left.phase.held.toList)

variable (arrow server) in
/-- What a request leaves: it is refused behind its resolution, or served, or refused
before. -/
theorem serveOne_cases (shm : Option Segment) (method : StreamMethod Columns σ β μ)
    (message : AnnotatedBatch Columns) :
    (∃ raw offset, resolve arrow shm message = some (raw, offset) ∧
        dispatched arrow server shm message = .refused .parameterContract ∧
        serveOne arrow server shm method message = ⟨.idle, offset.toList, []⟩) ∨
      (∃ raw offset, resolve arrow shm message = some (raw, offset) ∧
        (dispatched arrow server shm message = .unary ∨
          dispatched arrow server shm message = .stream) ∧
        (serveOne arrow server shm method message).resolved = offset.toList ∧
        (serveOne arrow server shm method message).Balanced none) ∨
      (dispatched arrow server shm message ≠ .unary ∧
        dispatched arrow server shm message ≠ .stream ∧
        (∀ raw offset, resolve arrow shm message = some (raw, offset) →
          dispatched arrow server shm message ≠ .refused .parameterContract) ∧
        serveOne arrow server shm method message = ⟨.idle, [], []⟩) := by
  have unresolved := @dispatched_of_unresolved _ _ arrow server shm message
  unfold serveOne
  generalize dispatched arrow server shm message = dispatch at unresolved ⊢
  generalize resolve arrow shm message = resolution at unresolved ⊢
  cases resolution with
  | none =>
      right; right
      rcases unresolved rfl with ⟨notUnary, notStream⟩
      refine ⟨notUnary, notStream, fun _ _ missing => (by cases missing), ?_⟩
      split <;> simp_all
  | some resolution =>
      rcases resolution with ⟨raw, offset⟩
      cases dispatch with
      | refused reason =>
          by_cases contract : reason = .parameterContract
          · subst contract
            exact .inl ⟨raw, offset, rfl, rfl, rfl⟩
          · refine .inr (.inr ⟨by simp, by simp, fun _ _ _ => by simpa using contract, ?_⟩)
            cases reason <;> first | rfl | exact absurd rfl contract
      | framework => exact .inr (.inr ⟨by simp, by simp, by simp, rfl⟩)
      | unary =>
          refine .inr (.inl ⟨raw, offset, rfl, .inl rfl, rfl, ?_⟩)
          simp [Left.Balanced, Phase.held]
      | stream =>
          refine .inr (.inl ⟨raw, offset, rfl, .inr rfl, ?_⟩)
          simp only
          cases method.factory raw with
          | error error => simp [Left.Balanced, Phase.held]
          | ok state => simp [Left.Balanced, Phase.held]

variable (arrow) in
/-- What an input leaves: it is not resolved, or given up behind its resolution, or
served. -/
theorem serveInput_cases (shm : Option Segment) (held : Option Int64)
    (method : StreamMethod Columns σ β μ) (state : σ) (message : AnnotatedBatch Columns) :
    ((message.entries.has Keys.cancel = true ∨ resolve arrow shm message = none) ∧
        serveInput arrow shm held method state message = ⟨.drain held, [], []⟩) ∨
      (∃ raw offset, message.entries.has Keys.cancel = false ∧
        resolve arrow shm message = some (raw, offset) ∧ method.returns state raw = false ∧
        serveInput arrow shm held method state message = ⟨.drain held, offset.toList, []⟩) ∨
      (∃ raw offset, message.entries.has Keys.cancel = false ∧
        resolve arrow shm message = some (raw, offset) ∧ method.returns state raw = true ∧
        (serveInput arrow shm held method state message).phase.held = held ∧
        (serveInput arrow shm held method state message).resolved = offset.toList ∧
        (serveInput arrow shm held method state message).freed = offset.toList) := by
  unfold serveInput StreamMethod.returns
  cases cancelled : message.entries.has Keys.cancel with
  | true => exact .inl ⟨.inl rfl, rfl⟩
  | false =>
      simp only [Bool.false_eq_true, if_false]
      cases resolve arrow shm message with
      | none => exact .inl ⟨.inr rfl, rfl⟩
      | some resolution =>
          rcases resolution with ⟨raw, offset⟩
          right
          simp only
          cases prepared : method.input raw with
          | error error => exact .inl ⟨raw, offset, trivial, rfl, by rw [prepared], rfl⟩
          | ok input =>
              simp only
              cases threw : ((method.process state input).run method.isProducer).error with
              | some error =>
                  exact .inl ⟨raw, offset, trivial, rfl, by simp only [prepared, threw]; rfl, rfl⟩
              | none =>
                  refine .inr ⟨raw, offset, trivial, rfl, by simp only [prepared, threw]; rfl, ?_,
                    rfl, rfl⟩
                  simp only
                  split <;> rfl

/-- What the server can read. -/
theorem reads_cases {world : World Columns σ β μ} {label : Label Columns σ β μ}
    {left : Left Columns σ β μ} (read : world.reads arrow server label = some left) :
    (∃ attached method message, label = .request attached method message ∧
        world.phase = .idle ∧ left = serveOne arrow server (world.shm attached) method message) ∨
      (∃ message held method state, label = .input message ∧
        world.phase = .loop held method state ∧
        left = serveInput arrow (world.shm world.attached) held method state message) ∨
      (∃ message held, label = .input message ∧ world.phase = .drain held ∧
        left = ⟨.drain held, [], []⟩) ∨
      (label = .endInput ∧ left = ⟨.idle, [], world.phase.held.toList⟩) := by
  cases label with
  | write batch => cases read
  | respond batch => cases read
  | release offset => cases read
  | request attached method message =>
      simp only [World.reads] at read
      cases phase : world.phase with
      | idle =>
          simp only [phase, Option.some.injEq] at read
          exact .inl ⟨attached, method, message, rfl, rfl, read.symm⟩
      | loop held method state => simp [phase] at read
      | drain held => simp [phase] at read
  | input message =>
      simp only [World.reads] at read
      cases phase : world.phase with
      | idle => simp [phase] at read
      | loop held method state =>
          simp only [phase, Option.some.injEq] at read
          exact .inr (.inl ⟨message, held, method, state, rfl, rfl, read.symm⟩)
      | drain held =>
          simp only [phase, Option.some.injEq] at read
          exact .inr (.inr (.inl ⟨message, held, rfl, rfl, read.symm⟩))
  | endInput =>
      simp only [World.reads] at read
      refine .inr (.inr (.inr ⟨rfl, ?_⟩))
      cases phase : world.phase with
      | idle => simp [phase] at read
      | loop held method state =>
          simp only [phase, Option.some.injEq] at read
          exact read.symm
      | drain held =>
          simp only [phase, Option.some.injEq] at read
          exact read.symm

theorem balanced_served {held : Option Int64} {left : Left Columns σ β μ}
    (holds : left.phase.held = held) (freed : left.freed = left.resolved) :
    left.Balanced held := by
  rw [Left.Balanced, holds, freed]
  exact List.perm_append_comm

/-- A message that meets its condition balances.  One that does not leaves its region
behind, and frees nothing. -/
theorem reads_keeps {world : World Columns σ β μ} {label : Label Columns σ β μ}
    {left : Left Columns σ β μ} (read : world.reads arrow server label = some left) :
    (keeps arrow server world label = true ∧ left.Balanced world.phase.held) ∨
      (keeps arrow server world label = false ∧ left.freed = [] ∧
        left.phase.held = world.phase.held ∧ ∃ offset, left.resolved = [offset]) := by
  rcases reads_cases read with ⟨attached, method, message, rfl, phase, rfl⟩ |
    ⟨message, held, method, state, rfl, phase, rfl⟩ | ⟨message, held, rfl, phase, rfl⟩ | ⟨rfl, rfl⟩
  · simp only [keeps, phase]
    rcases serveOne_cases arrow server (world.shm attached) method message with
      ⟨raw, offset, resolved, contract, result⟩ | ⟨raw, offset, resolved, reached, -, balanced⟩ |
      ⟨-, -, early, result⟩
    · rw [result, resolved, contract]
      cases offset with
      | none => exact .inl ⟨rfl, .nil⟩
      | some offset => exact .inr ⟨rfl, rfl, rfl, offset, rfl⟩
    · refine .inl ⟨?_, balanced⟩
      rw [resolved]
      cases offset with
      | none => rfl
      | some offset =>
          rcases reached with unary | stream
          · simp [unary]
          · simp [stream]
    · rw [result]
      refine .inl ⟨?_, .nil⟩
      cases found : resolve arrow (world.shm attached) message with
      | none => rfl
      | some resolution =>
          rcases resolution with ⟨raw, offset⟩
          have kept := early raw offset found
          cases offset with
          | none => rfl
          | some offset => simpa using kept
  · simp only [keeps, phase]
    rcases serveInput_cases arrow (world.shm world.attached) held method state message
      with ⟨skipped, result⟩ | ⟨raw, offset, live, resolved, threw, result⟩ |
        ⟨raw, offset, live, resolved, returned, holds, resolves, freed⟩
    · rw [result]
      refine .inl ⟨?_, balanced_served rfl rfl⟩
      rcases skipped with cancelled | unresolved
      · rw [cancelled, Bool.true_or]
      · rw [unresolved, Bool.or_true]
    · rw [result, live, resolved, Bool.false_or]
      cases offset with
      | none => exact .inl ⟨rfl, balanced_served rfl rfl⟩
      | some offset => exact .inr ⟨threw, rfl, rfl, offset, rfl⟩
    · refine .inl ⟨?_, balanced_served holds (freed.trans resolves.symm)⟩
      rw [live, resolved, Bool.false_or]
      cases offset with
      | none => rfl
      | some offset => exact returned
  · refine .inl ⟨by simp only [keeps, phase], ?_⟩
    rw [phase]
    exact balanced_served rfl rfl
  · refine .inl ⟨rfl, ?_⟩
    simp [Left.Balanced, Phase.held]

/-- A message balances exactly if its condition holds. -/
theorem reads_balanced_iff {world : World Columns σ β μ} {label : Label Columns σ β μ}
    {left : Left Columns σ β μ} (read : world.reads arrow server label = some left) :
    left.Balanced world.phase.held ↔ keeps arrow server world label = true := by
  rcases reads_keeps read with ⟨kept, balanced⟩ | ⟨lost, freed, held, offset, resolved⟩
  · simp only [kept, balanced]
  · simp only [lost, Bool.false_eq_true, iff_false]
    intro balanced
    have lengths := balanced.length_eq
    simp [freed, held, resolved] at lengths

/-- Whatever a message is, the server frees only what it has resolved. -/
theorem reads_subperm {world : World Columns σ β μ} {label : Label Columns σ β μ}
    {left : Left Columns σ β μ} (read : world.reads arrow server label = some left) :
    (left.freed ++ left.phase.held.toList).Subperm (world.phase.held.toList ++ left.resolved) := by
  rcases reads_keeps read with ⟨-, balanced⟩ | ⟨-, freed, held, -⟩
  · exact balanced.symm.subperm
  · rw [freed, held, List.nil_append]
    exact (List.sublist_append_left _ _).subperm

/-- The region of the message that a step reads. -/
def Label.pointer (arrow : Arrow Columns Schema) : Label Columns σ β μ → Option Int64
  | .request _ _ message | .input message => pointerOf arrow message
  | _ => none

/-- The region of a message that is served is resolved, and balanced. -/
theorem reads_of_serves {world : World Columns σ β μ} {label : Label Columns σ β μ}
    {left : Left Columns σ β μ} (read : world.reads arrow server label = some left)
    (served : serves arrow server world label = true) :
    left.resolved = (label.pointer arrow).toList ∧ left.Balanced world.phase.held := by
  rcases reads_cases read with ⟨attached, method, message, rfl, phase, rfl⟩ |
    ⟨message, held, method, state, rfl, phase, rfl⟩ | ⟨message, held, rfl, phase, rfl⟩ | ⟨rfl, rfl⟩
  · simp only [serves, Bool.or_eq_true, Option.isNone_iff_eq_none] at served
    rw [phase]
    rcases serveOne_cases arrow server (world.shm attached) method message with
      ⟨raw, offset, resolved, contract, result⟩ | ⟨raw, offset, resolved, -, resolves, balanced⟩ |
      ⟨notUnary, notStream, -, result⟩
    · have inline : pointerOf arrow message = none := by
        rw [contract] at served
        simpa using served
      rw [result, resolve_pointer resolved, Label.pointer, inline]
      exact ⟨rfl, .nil⟩
    · rw [resolves, resolve_pointer resolved]
      exact ⟨rfl, balanced⟩
    · have inline : pointerOf arrow message = none := by
        rcases served with inline | reached
        · exact inline
        · split at reached <;> simp_all
      rw [result, Label.pointer, inline]
      exact ⟨rfl, .nil⟩
  · simp only [serves, phase, Bool.or_eq_true, Option.isNone_iff_eq_none] at served
    rw [phase]
    rcases serveInput_cases arrow (world.shm world.attached) held method state message
      with ⟨skipped, result⟩ | ⟨raw, offset, live, resolved, threw, result⟩ |
        ⟨raw, offset, live, resolved, returned, holds, resolves, freed⟩
    · have inline : pointerOf arrow message = none := by
        rcases skipped with cancelled | unresolved
        · simpa [cancelled] using served
        · simpa [unresolved] using served
      rw [result, Label.pointer, inline]
      exact ⟨rfl, balanced_served rfl rfl⟩
    · have inline : pointerOf arrow message = none := by simpa [resolved, threw] using served
      rw [result, resolve_pointer resolved, Label.pointer, inline]
      exact ⟨rfl, balanced_served rfl rfl⟩
    · rw [resolves, resolve_pointer resolved]
      exact ⟨rfl, balanced_served holds (freed.trans resolves.symm)⟩
  · simp only [serves, phase, Bool.or_false, Option.isNone_iff_eq_none] at served
    rw [Label.pointer, served, phase]
    exact ⟨rfl, balanced_served rfl rfl⟩
  · refine ⟨rfl, ?_⟩
    simp [Left.Balanced, Phase.held]

/-! ## Steps -/

/-- The message that is read was sent. -/
theorem taken_perm {world : World Columns σ β μ} {message : AnnotatedBatch Columns}
    {sent : List Nat} (taken : world.taken arrow message = some sent) :
    world.sent.Perm ((pointerOf arrow message).toList.map toU64 ++ sent) := by
  unfold World.taken at taken
  split at taken
  next inline =>
      cases taken
      rw [inline]
      exact .refl _
  next offset pointer =>
      split at taken
      next listed =>
          cases taken
          rw [pointer]
          exact List.perm_cons_erase listed
      next => cases taken

/-- A step reads a message, or writes a region, or frees one of an answer. -/
theorem step_cases {world next : World Columns σ β μ} {label : Label Columns σ β μ}
    (taken : world.step arrow server label = some next) :
    (∃ left sent attached, world.reads arrow server label = some left ∧
        world.sent.Perm ((label.pointer arrow).toList.map toU64 ++ sent) ∧
        { world with attached }.leave sent left = some next) ∨
      (keeps arrow server world label = true ∧ ∃ batch owner,
        world.put arrow batch owner = some next) ∨
      (keeps arrow server world label = true ∧ ∃ offset segment,
        world.owner (toU64 offset) = .response ∧ freeAll world.segment [offset] = some segment ∧
        next = { world with segment }) := by
  cases label with
  | write batch => exact .inr (.inl ⟨rfl, batch, .request, taken⟩)
  | respond batch => exact .inr (.inl ⟨rfl, batch, .response, taken⟩)
  | release offset =>
      simp only [World.step] at taken
      split at taken
      next answer =>
          rcases Option.map_eq_some_iff.mp taken with ⟨segment, freed, rfl⟩
          exact .inr (.inr ⟨rfl, offset, segment, answer, freed, rfl⟩)
      next => cases taken
  | request attached method message =>
      simp only [World.step, Option.bind_eq_bind, Option.bind_eq_some_iff] at taken
      rcases taken with ⟨left, read, sent, mine, leaves⟩
      exact .inl ⟨left, sent, attached, read, taken_perm mine, leaves⟩
  | input message =>
      simp only [World.step, Option.bind_eq_bind, Option.bind_eq_some_iff] at taken
      rcases taken with ⟨left, read, sent, mine, leaves⟩
      exact .inl ⟨left, sent, world.attached, read, taken_perm mine, leaves⟩
  | endInput =>
      simp only [World.step, Option.bind_eq_bind, Option.bind_eq_some_iff] at taken
      rcases taken with ⟨left, read, leaves⟩
      exact .inl ⟨left, world.sent, world.attached, read, .refl _, leaves⟩

theorem leave_eq {world next : World Columns σ β μ} {sent : List Nat} {left : Left Columns σ β μ}
    (leaves : world.leave sent left = some next) :
    next.phase = left.phase ∧ next.resolved = world.resolved ++ left.resolved ∧
      next.freed = world.freed ++ left.freed := by
  rcases Option.map_eq_some_iff.mp leaves with ⟨segment, -, rfl⟩
  exact ⟨rfl, rfl, rfl⟩

theorem put_eq {world next : World Columns σ β μ} {batch : Columns} {owner : Owner}
    (written : world.put arrow batch owner = some next) :
    next.phase = world.phase ∧ next.resolved = world.resolved ∧ next.freed = world.freed := by
  unfold World.put at written
  split at written
  next =>
      cases written
      exact ⟨rfl, rfl, rfl⟩
  next => cases written

/-- From a settled state, a step leads to a settled one exactly if its condition holds. -/
theorem step_settled_iff {world next : World Columns σ β μ} {label : Label Columns σ β μ}
    (settled : world.Settled) (taken : world.step arrow server label = some next) :
    next.Settled ↔ keeps arrow server world label = true := by
  rcases step_cases taken with ⟨left, sent, attached, read, -, leaves⟩ |
    ⟨kept, batch, owner, written⟩ | ⟨kept, offset, segment, -, -, rfl⟩
  · rcases leave_eq leaves with ⟨phase, resolved, freed⟩
    have added : (world.freed ++ (world.phase.held.toList ++ left.resolved)).Perm
        (world.freed ++ (left.freed ++ left.phase.held.toList)) ↔ left.Balanced world.phase.held :=
      List.perm_append_left_iff world.freed
    rw [← List.append_assoc, ← List.append_assoc] at added
    rw [← reads_balanced_iff read, ← added, World.Settled, phase, resolved, freed]
    exact List.Perm.congr_left (settled.append_right left.resolved) _
  · rcases put_eq written with ⟨phase, resolved, freed⟩
    rw [World.Settled, phase, resolved, freed]
    exact iff_of_true settled kept
  · exact iff_of_true settled kept

/-- What a step frees or holds was resolved. -/
theorem step_subperm {world next : World Columns σ β μ} {label : Label Columns σ β μ}
    (known : (world.freed ++ world.phase.held.toList).Subperm world.resolved)
    (taken : world.step arrow server label = some next) :
    (next.freed ++ next.phase.held.toList).Subperm next.resolved := by
  rcases step_cases taken with ⟨left, sent, attached, read, -, leaves⟩ |
    ⟨-, batch, owner, written⟩ | ⟨-, offset, segment, -, -, rfl⟩
  · rcases leave_eq leaves with ⟨phase, resolved, freed⟩
    rw [phase, resolved, freed, List.append_assoc]
    have more : (world.freed ++ (left.freed ++ left.phase.held.toList)).Subperm
        (world.freed ++ (world.phase.held.toList ++ left.resolved)) :=
      (List.subperm_append_left world.freed).mpr (reads_subperm read)
    rw [← List.append_assoc world.freed world.phase.held.toList] at more
    exact more.trans ((List.subperm_append_right left.resolved).mpr known)
  · rcases put_eq written with ⟨phase, resolved, freed⟩
    rw [phase, resolved, freed]
    exact known
  · exact known

/-! ## The table -/

/-- The entries of requests in the table are the regions of unread messages and the one
that a stream holds. -/
structure World.Live (world : World Columns σ β μ) : Prop where
  valid : world.segment.Valid
  regions : world.requestRegions.Perm (world.sent ++ world.phase.held.toList.map toU64)

theorem freeAlloc_eq {segment after : Segment} (valid : segment.Valid) {offset : Int64}
    (freed : segment.freeAlloc offset = .ok after) :
    after.Valid ∧ after.starts = segment.starts.erase (toU64 offset) := by
  rcases freeAlloc_starts valid offset with ⟨result, ok, kept, erased⟩
  rw [freed, Except.ok.injEq] at ok
  subst ok
  exact ⟨kept, erased⟩

/-- Freeing live regions of a class leaves the others of that class. -/
theorem freeAll_filter {segment after : Segment} {offsets : List Int64} {rest : List Nat}
    (valid : segment.Valid) (chosen : Nat → Bool)
    (live : (segment.starts.filter chosen).Perm (offsets.map toU64 ++ rest))
    (freed : freeAll segment offsets = some after) :
    after.Valid ∧ (after.starts.filter chosen).Perm rest := by
  induction offsets generalizing segment with
  | nil =>
      cases freed
      exact ⟨valid, live⟩
  | cons offset offsets ih =>
      simp only [freeAll] at freed
      cases one : segment.freeAlloc offset with
      | error fault => simp [one] at freed
      | ok segment' =>
          rw [one] at freed
          rcases freeAlloc_eq valid one with ⟨valid', erased⟩
          refine ih valid' ?_ freed
          rw [erased, ← List.erase_filter]
          have less := live.erase (toU64 offset)
          rwa [List.map_cons, List.cons_append, List.erase_cons_head] at less

/-- A region that is written is live, and no other changes its owner. -/
theorem World.Live.put {world next : World Columns σ β μ} {batch : Columns} {owner : Owner}
    (live : world.Live) (written : world.put arrow batch owner = some next) : next.Live := by
  unfold World.put at written
  split at written
  next segment offset length result =>
      rcases allocateAndWrite_starts live.valid result with ⟨valid, starts⟩
      have fresh := (starts.nodup_iff.mp valid.nodup_starts).notMem
      have others : (world.segment.starts.filter fun start =>
          Function.update world.owner (toU64 offset) owner start = .request) =
            world.requestRegions := by
        apply List.filter_congr
        intro start listed
        rw [Function.update_of_ne (ne_of_mem_of_not_mem listed fresh)]
      have regions := starts.filter fun start =>
        Function.update world.owner (toU64 offset) owner start = .request
      rw [List.filter_cons, others, Function.update_self] at regions
      cases written
      refine ⟨valid, regions.trans ?_⟩
      cases owner with
      | request => exact live.regions.cons _
      | response => exact live.regions
  next => cases written

/-- The region of an answer is not one of a request. -/
theorem World.Live.release {world : World Columns σ β μ} {segment : Segment} {offset : Int64}
    (live : world.Live) (answer : world.owner (toU64 offset) = .response)
    (freed : freeAll world.segment [offset] = some segment) :
    World.Live { world with segment } := by
  simp only [freeAll] at freed
  cases one : world.segment.freeAlloc offset with
  | error fault => simp [one] at freed
  | ok after =>
      simp only [one, Option.some.injEq] at freed
      subst freed
      rcases freeAlloc_eq live.valid one with ⟨valid, erased⟩
      refine ⟨valid, ?_⟩
      have absent : toU64 offset ∉ world.requestRegions := by
        simp [World.requestRegions, answer]
      have unchanged : World.requestRegions { world with segment := after } =
          world.requestRegions := by
        simp only [World.requestRegions, erased, ← List.erase_filter]
        exact List.erase_of_not_mem absent
      rw [unchanged]
      exact live.regions

/-- Serving a message frees its region or moves it to what is held. -/
theorem World.Live.leave {world next : World Columns σ β μ} {sent : List Nat}
    {left : Left Columns σ β μ} {offsets : List Int64} (live : world.Live)
    (read : world.sent.Perm (offsets.map toU64 ++ sent)) (resolved : left.resolved = offsets)
    (balanced : left.Balanced world.phase.held) (leaves : world.leave sent left = some next) :
    next.Live := by
  have moved : (world.sent ++ world.phase.held.toList.map toU64).Perm
      (left.freed.map toU64 ++ (sent ++ left.phase.held.toList.map toU64)) := by
    have regions := balanced.map toU64
    rw [resolved, List.map_append, List.map_append] at regions
    rw [List.perm_iff_count]
    intro offset
    have mine := read.count_eq offset
    have kept := regions.count_eq offset
    simp only [List.count_append] at mine kept ⊢
    omega
  rcases Option.map_eq_some_iff.mp leaves with ⟨segment, freed, rfl⟩
  rcases freeAll_filter live.valid _ (live.regions.trans moved) freed with ⟨valid, regions⟩
  exact ⟨valid, regions⟩

theorem World.Live.step {world next : World Columns σ β μ} {label : Label Columns σ β μ}
    (live : world.Live) (served : serves arrow server world label = true)
    (taken : world.step arrow server label = some next) : next.Live := by
  rcases step_cases taken with ⟨left, sent, attached, read, mine, leaves⟩ |
    ⟨-, batch, owner, written⟩ | ⟨-, offset, segment, answer, freed, rfl⟩
  · rcases reads_of_serves read served with ⟨resolved, balanced⟩
    have attachedLive : World.Live { world with attached } := ⟨live.valid, live.regions⟩
    exact attachedLive.leave mine resolved balanced leaves
  · exact live.put written
  · exact live.release answer freed

/-! ## Runs -/

/-- A property that steps with a condition keep is kept along runs of them. -/
theorem run_along {condition : World Columns σ β μ → Label Columns σ β μ → Bool}
    {property : World Columns σ β μ → Prop}
    (kept : ∀ {world label next}, property world → condition world label = true →
      world.step arrow server label = some next → property next)
    {world final : World Columns σ β μ} {labels : List (Label Columns σ β μ)}
    (start : property world) (meets : world.along arrow server condition labels = true)
    (ran : world.run arrow server labels = some final) : property final := by
  induction labels generalizing world with
  | nil =>
      cases ran
      exact start
  | cons label labels ih =>
      simp only [World.run, Option.bind_eq_bind, Option.bind_eq_some_iff] at ran
      rcases ran with ⟨next, taken, rest⟩
      simp only [World.along, taken, Bool.and_eq_true] at meets
      exact ih (kept start meets.1 taken) meets.2 rest

theorem along_true (world : World Columns σ β μ) (labels : List (Label Columns σ β μ)) :
    world.along arrow server (fun _ _ => true) labels = true := by
  induction labels generalizing world with
  | nil => rfl
  | cons label labels ih =>
      simp only [World.along, Bool.true_and]
      split
      next => rfl
      next => exact ih _

theorem held_of_isIdle {phase : Phase Columns σ β μ} (idle : phase.isIdle = true) :
    phase.held = none := by
  cases phase with
  | idle => rfl
  | loop held method state => cases idle
  | drain held => cases idle

variable (arrow server)

end Server

/-! ## Regions that go and regions that stay -/

/-- A server with a unary method, one whose contract no request meets, and a stream. -/
def sampleServer : Server Bytes where
  primary :=
    { name := []
      version := []
      methods := [(ascii "unary", ⟨.unary, fun _ => true⟩), (ascii "strict", ⟨.unary, fun _ => false⟩),
        (ascii "stream", ⟨.stream, fun _ => true⟩)] }
  others := []

/-- An exchange whose handler throws. -/
def throwingMethod : StreamMethod Bytes Unit Unit Unit where
  factory := fun _ => .ok ()
  isProducer := false
  coerce := .ok
  process := fun _ _ => .throws (ascii "ValueError") ()

/-- A request without rows. -/
def sampleRequest (method : Bytes) (pointer : Metadata) : Label Bytes Unit Unit Unit :=
  .request true throwingMethod
    ⟨[], some ([(Keys.method, method), (Keys.requestVersion, ascii "1")] ++ pointer)⟩

/-- The pointer to the first region of a segment. -/
def samplePointer : Metadata :=
  [(Keys.shmOffset, ascii "65536"), (Keys.shmLength, ascii "12")]

/-- A new segment of one page. -/
def createdSegment : Segment :=
  (Segment.create (fun _ => 0) 69632 (ascii "seg")).getD sampleSegment

/-- A run of the server over it, as far as it can be told: what was resolved and freed,
what is unread, whether the server is idle, and the entries of requests. -/
def summary (labels : List (Label Bytes Unit Unit Unit)) :
    Option (List Int64 × List Int64 × List Nat × Bool × List Nat) :=
  ((World.start createdSegment).run sampleArrow sampleServer labels).map fun world =>
    (world.resolved, world.freed, world.sent, world.phase.isIdle, world.requestRegions)

/-- A request that goes through the segment and is served. -/
def servedRun : List (Label Bytes Unit Unit Unit) :=
  [.write [7, 8, 9], sampleRequest (ascii "unary") samplePointer]

/-- A request that goes through the segment and fails its parameter contract. -/
def refusedRun : List (Label Bytes Unit Unit Unit) :=
  [.write [7, 8, 9], sampleRequest (ascii "strict") samplePointer]

/-- An input that goes through the segment and whose handler throws. -/
def throwingRun : List (Label Bytes Unit Unit Unit) :=
  [sampleRequest (ascii "stream") [], .write [7, 8, 9], .input ⟨[], some samplePointer⟩, .endInput]

/-- After the run the server is idle and has read everything; the region that it resolved was
not freed, and is still in the table. -/
def KeepsRegion (labels : List (Label Bytes Unit Unit Unit)) : Prop :=
  ∃ final, (World.start createdSegment).run sampleArrow sampleServer labels = some final ∧
    final.phase.isIdle = true ∧ final.sent = [] ∧ final.resolved = [65536] ∧ final.freed = [] ∧
    final.requestRegions = [65536]

theorem keepsRegion_of_summary {labels : List (Label Bytes Unit Unit Unit)}
    (told : summary labels = some ([65536], [], [], true, [65536])) : KeepsRegion labels := by
  rcases Option.map_eq_some_iff.mp told with ⟨final, ran, same⟩
  simp only [Prod.mk.injEq] at same
  exact ⟨final, ran, same.2.2.2.1, same.2.2.1, same.1, same.2.1, same.2.2.2.2⟩

end VgiRpc.Raw.Inbound
