import VgiRpc.Session.Locks

/-!
# What an opened session is spent on

Every entry carries one right to run its hook, and every session id can be
reported as closed once.  Both start in the map, go to the one call that takes the
entry out of the map, and are used up by an event of that call.
-/

namespace VgiRpc.Session

open VgiRpc.Cpp VgiRpc.Lib

/-! ## Ledgers

A ledger counts what an opened entry may be spent on once.  The unit starts in the
map, goes to the call that takes the entry out of the map, and is spent when that
call makes an event. -/

section Ledgers

variable {Thread : Type} [DecidableEq Thread] {κ : Type} [BEq κ]

/-- What is counted, where calls keep it, and the events that spend it. -/
structure Ledger (Thread κ : Type) where
  key : Bytes × Entry → κ
  weight : κ → Frame → Nat
  spends : Event Thread → Option κ

namespace Ledger

variable (ledger : Ledger Thread κ)

/-- The unit that an event puts into the map. -/
def opens : Event Thread → Option κ
  | .opened id entry => some (ledger.key (id, entry))
  | .resolved _ _ _ | .resolveRefused _ _ | .closed _ _ | .closeRefused _ | .hookStarted _ _
  | .hookEnded _ _ => none

def opened (trace : List (Event Thread)) : List κ := trace.filterMap ledger.opens

def spent (trace : List (Event Thread)) : List κ := trace.filterMap ledger.spends

def mapped (state : State Thread) (unit : κ) : Nat := (state.entries.map ledger.key).count unit

/-- The units that some threads keep in their calls. -/
def kept (state : State Thread) (threads : Finset Thread) (unit : κ) : Nat :=
  ∑ thread ∈ threads, stackSum (ledger.weight unit) (state.frames thread)

/-- No unit is in two places, or spent and still there. -/
def Balanced (trace : List (Event Thread)) (state : State Thread) : Prop :=
  ∀ threads unit,
    ledger.mapped state unit + ledger.kept state threads unit + (ledger.spent trace).count unit ≤
      (ledger.opened trace).count unit

end Ledger

namespace Ledger

variable {ledger : Ledger Thread κ} {state next : State Thread} {event : Option (Event Thread)}
  {trace : List (Event Thread)} {thread : Thread}

omit [DecidableEq Thread] [BEq κ] in
theorem opened_append (trace more : List (Event Thread)) :
    ledger.opened (trace ++ more) = ledger.opened trace ++ ledger.opened more :=
  List.filterMap_append

omit [DecidableEq Thread] [BEq κ] in
theorem spent_append (trace more : List (Event Thread)) :
    ledger.spent (trace ++ more) = ledger.spent trace ++ ledger.spent more :=
  List.filterMap_append

omit [BEq κ] in
theorem kept_update {threads : Finset Thread} (mem : thread ∈ threads) {frames : List Frame}
    (framesEq : ∀ other, next.frames other = if other = thread then frames else state.frames other)
    (unit : κ) :
    ledger.kept next threads unit + stackSum (ledger.weight unit) (state.frames thread) =
      ledger.kept state threads unit + stackSum (ledger.weight unit) frames := by
  have others : ∑ other ∈ threads.erase thread,
      stackSum (ledger.weight unit) (next.frames other) =
      ∑ other ∈ threads.erase thread, stackSum (ledger.weight unit) (state.frames other) := by
    apply Finset.sum_congr rfl
    intro other elsewhere
    rw [framesEq, if_neg (Finset.ne_of_mem_erase elsewhere)]
  have after := Finset.add_sum_erase threads
    (fun other => stackSum (ledger.weight unit) (next.frames other)) mem
  have before := Finset.add_sum_erase threads
    (fun other => stackSum (ledger.weight unit) (state.frames other)) mem
  simp only [framesEq thread, if_true] at after
  simp only [kept]
  omega

omit [BEq κ] in
theorem kept_le_insert (state : State Thread) (threads : Finset Thread) (thread : Thread)
    (unit : κ) :
    ledger.kept state threads unit ≤ ledger.kept state (insert thread threads) unit :=
  Finset.sum_le_sum_of_subset (Finset.subset_insert thread threads)

/-- A step of one thread that makes no new unit. -/
theorem Balanced.step (balanced : ledger.Balanced trace state) (base : State Thread)
    (thread : Thread) (frames : List Frame)
    (framesEq : ∀ other, base.frames other = state.frames other)
    (less : ∀ unit, ledger.mapped base unit + stackSum (ledger.weight unit) frames +
      (ledger.spent event.toList).count unit ≤
        ledger.mapped state unit + stackSum (ledger.weight unit) (state.frames thread)) :
    ledger.Balanced (trace ++ event.toList) (base.setFrames thread frames) := by
  intro threads unit
  have before := balanced (insert thread threads) unit
  have moved : ledger.kept (base.setFrames thread frames) (insert thread threads) unit +
      stackSum (ledger.weight unit) (state.frames thread) =
      ledger.kept state (insert thread threads) unit +
        stackSum (ledger.weight unit) frames := by
    apply kept_update (Finset.mem_insert_self thread threads)
    intro other
    rw [State.frames_setFrames, framesEq]
  have grow : ledger.kept (base.setFrames thread frames) threads unit ≤
      ledger.kept (base.setFrames thread frames) (insert thread threads) unit :=
    kept_le_insert _ threads thread unit
  have balance := less unit
  have mapEq : ledger.mapped (base.setFrames thread frames) unit = ledger.mapped base unit := rfl
  rw [spent_append, opened_append, List.count_append, List.count_append, mapEq]
  omega

/-- The handles of a thread are not counted. -/
theorem Balanced.setHandles (balanced : ledger.Balanced trace state) {handles : List Entry} :
    ledger.Balanced trace (state.setHandles thread handles) := by
  intro threads unit
  have bound := balanced threads unit
  have keptEq : ledger.kept (state.setHandles thread handles) threads unit =
      ledger.kept state threads unit := by
    simp only [kept, State.frames_setHandles]
  rw [keptEq]
  exact bound

/-- A step of one thread that leaves the map and the units alone. -/
theorem Balanced.setFrames (balanced : ledger.Balanced trace state) {frames : List Frame}
    (quiet : ledger.spent event.toList = [])
    (same : ∀ unit, stackSum (ledger.weight unit) frames =
      stackSum (ledger.weight unit) (state.frames thread)) :
    ledger.Balanced (trace ++ event.toList) (state.setFrames thread frames) := by
  apply balanced.step state thread frames (fun _ => rfl)
  intro unit
  rw [same, quiet, List.count_nil, Nat.add_zero]

theorem count_filter_lookup {entries : List (Bytes × Entry)} {id : Bytes} {entry : Entry}
    (key : Bytes × Entry → κ) (present : entries.lookup id = some entry) (unit : κ) :
    ((entries.filter fun other => other.1 ≠ id).map key).count unit +
        [key (id, entry)].count unit ≤
      (entries.map key).count unit := by
  induction entries with
  | nil => simp at present
  | cons head tail ih =>
      rcases head with ⟨name, value⟩
      have shrink : ((tail.filter fun other => other.1 ≠ id).map key).count unit ≤
          (tail.map key).count unit :=
        (List.filter_sublist.map key).count_le unit
      by_cases same : id = name
      · simp only [List.lookup_cons, same, beq_self_eq_true, Option.some.injEq] at present
        subst same present
        simp only [ne_eq, decide_not, decide_true, Bool.not_true, Bool.false_eq_true,
          not_false_eq_true, List.filter_cons_of_neg, List.map_cons, List.count_cons,
          List.count_nil] at shrink ⊢
        omega
      · have later : tail.lookup id = some entry := by
          simpa [List.lookup_cons, beq_eq_false_iff_ne.mpr same] using present
        have rest := ih later
        have keep : ¬name = id := fun equal => same equal.symm
        simp only [ne_eq, decide_not, keep, decide_false, Bool.not_false, List.filter_cons_of_pos,
          List.map_cons, List.count_cons] at rest ⊢
        omega

/-- A call takes an entry out of the map, and its unit with it. -/
theorem Balanced.remove (balanced : ledger.Balanced trace state) {id : Bytes} {entry : Entry}
    {frames : List Frame} (present : state.lookup id = some entry)
    (more : ∀ unit, stackSum (ledger.weight unit) frames ≤
      stackSum (ledger.weight unit) (state.frames thread) +
        [ledger.key (id, entry)].count unit) :
    ledger.Balanced (trace ++ (none : Option (Event Thread)).toList)
      ((state.erase id).setFrames thread frames) := by
  apply balanced.step (state.erase id) thread frames (fun _ => rfl)
  intro unit
  have shrink := count_filter_lookup ledger.key present unit
  have after : ledger.mapped (state.erase id) unit =
      ((state.entries.filter fun other => other.1 ≠ id).map ledger.key).count unit := rfl
  have before : ledger.mapped state unit = (state.entries.map ledger.key).count unit := rfl
  have quiet : ledger.spent (none : Option (Event Thread)).toList = [] := rfl
  have bound := more unit
  rw [after, before, quiet, List.count_nil]
  omega

/-- A new entry brings its own unit. -/
theorem Balanced.openInsert (balanced : ledger.Balanced trace state) {id : Bytes} {entry : Entry}
    {frame : Frame} {rest : List Frame} {nextAddress : Nat}
    (top : state.frames thread = frame :: rest) (light : ∀ unit, ledger.weight unit frame = 0)
    (quiet : ledger.spends (.opened id entry) = none) :
    ledger.Balanced (trace ++ (some (Event.opened id entry)).toList)
      { (state.setFrames thread rest).insert id entry with nextAddress } := by
  have popped : ledger.Balanced (trace ++ (none : Option (Event Thread)).toList)
      (state.setFrames thread rest) :=
    balanced.setFrames rfl fun unit => by simp [top, light]
  rw [Option.toList_none, List.append_nil] at popped
  intro threads unit
  have before := popped threads unit
  have shrink : ((state.entries.filter fun other => other.1 ≠ id).map ledger.key).count unit ≤
      (state.entries.map ledger.key).count unit :=
    (List.filter_sublist.map ledger.key).count_le unit
  have mapEq : ledger.mapped { (state.setFrames thread rest).insert id entry with nextAddress }
      unit = (ledger.key (id, entry) ::
        (state.entries.filter fun other => other.1 ≠ id).map ledger.key).count unit := rfl
  have keptEq : ledger.kept { (state.setFrames thread rest).insert id entry with nextAddress }
      threads unit = ledger.kept (state.setFrames thread rest) threads unit := rfl
  have beforeMap : ledger.mapped (state.setFrames thread rest) unit =
      (state.entries.map ledger.key).count unit := rfl
  have spentEq : ledger.spent (some (Event.opened id entry)).toList = [] := by
    simp [spent, quiet]
  have openedEq : ledger.opened (some (Event.opened id entry)).toList =
      [ledger.key (id, entry)] := rfl
  rw [spent_append, opened_append, spentEq, openedEq, List.append_nil, List.count_append, mapEq,
    keptEq, List.count_cons, List.count_singleton]
  omega

end Ledger

end Ledgers

section Balances

variable {Thread : Type} [DecidableEq Thread] {aeadOpen : AeadOpen} {serverId : Bytes}
  {state next : State Thread} {event : Option (Event Thread)} {trace : List (Event Thread)}

/-- The entry whose hook an event starts. -/
def Event.started : Event Thread → Option Entry
  | .hookStarted _ entry => some entry
  | .opened _ _ | .resolved _ _ _ | .resolveRefused _ _ | .closed _ _ | .closeRefused _
  | .hookEnded _ _ => none

/-- The session id that an event reports as closed. -/
def Event.closedId : Event Thread → Option Bytes
  | .closed _ id => some id
  | .opened _ _ | .resolved _ _ _ | .resolveRefused _ _ | .closeRefused _ | .hookStarted _ _
  | .hookEnded _ _ => none

def After.rights (entry : Entry) : After → Nat
  | .shutdownOn live => live.count entry
  | .returnOk | .resolveRefused _ _ | .closeTrue _ _ | .closeFalse _ | .sweepOn _ | .raise => 0

/-- How many hooks of an entry a frame has yet to start. -/
def Frame.rights (entry : Entry) : Frame → Nat
  | .shutdownNext live => live.count entry
  | .removed other next => (if other = entry then 1 else 0) + next.rights entry
  | .hook _ next | .finish _ next => next.rights entry
  | .openInsert _ _ _ | .find _ _ _ | .lock _ _ _ _ | .check _ _ _ _ | .sweepCollect _
  | .sweepNext _ | .sweepCheck _ _ _ => 0

def After.closes (id : Bytes) : After → Nat
  | .closeTrue _ other => if other = id then 1 else 0
  | .returnOk | .resolveRefused _ _ | .closeFalse _ | .sweepOn _ | .shutdownOn _ | .raise => 0

/-- How often a frame has yet to report that a session id is closed. -/
def Frame.closes (id : Bytes) : Frame → Nat
  | .removed _ next | .hook _ next | .finish _ next => next.closes id
  | .openInsert _ _ _ | .find _ _ _ | .lock _ _ _ _ | .check _ _ _ _ | .sweepCollect _
  | .sweepNext _ | .sweepCheck _ _ _ | .shutdownNext _ => 0

variable (Thread) in
/-- Every entry has one right to run its hook. -/
def hookLedger : Ledger Thread Entry := ⟨Prod.snd, Frame.rights, Event.started⟩

variable (Thread) in
/-- Every opened session id can be closed once. -/
def closeLedger : Ledger Thread Bytes := ⟨Prod.fst, Frame.closes, Event.closedId⟩

omit [DecidableEq Thread] in
theorem spent_refused (call : Call) (token : Bytes) (status : SessionLookup) :
    (hookLedger Thread).spent [call.refused Thread token status] = [] ∧
      (closeLedger Thread).spent [call.refused Thread token status] = [] := by
  cases call <;> exact ⟨rfl, rfl⟩

omit [DecidableEq Thread] in
theorem hook_spent_after (after : After) :
    (hookLedger Thread).spent (after.event Thread).toList = [] := by
  cases after <;> rfl

theorem After.rights_frames (after : After) (entry : Entry) :
    stackSum (Frame.rights entry) after.frames = after.rights entry := by
  cases after <;> simp [After.frames, After.rights, Frame.rights]

theorem After.closes_frames (after : After) (id : Bytes) :
    stackSum (Frame.closes id) after.frames = 0 := by
  cases after <;> simp [After.frames, Frame.closes]

omit [DecidableEq Thread] in
theorem close_spent_after (after : After) (id : Bytes) :
    ((closeLedger Thread).spent (after.event Thread).toList).count id = after.closes id := by
  cases after with
  | closeTrue token other =>
      have single : (closeLedger Thread).spent
          (After.event Thread (.closeTrue token other)).toList =
          [other] := rfl
      simp [single, After.closes, List.count_singleton]
  | _ => rfl

omit [DecidableEq Thread] in
@[simp] theorem hookLedger_weight (entry : Entry) (frame : Frame) :
    (hookLedger Thread).weight entry frame = frame.rights entry := rfl

omit [DecidableEq Thread] in
@[simp] theorem closeLedger_weight (id : Bytes) (frame : Frame) :
    (closeLedger Thread).weight id frame = frame.closes id := rfl

omit [DecidableEq Thread] in
@[simp] theorem hookLedger_key (item : Bytes × Entry) : (hookLedger Thread).key item = item.2 := rfl

omit [DecidableEq Thread] in
@[simp] theorem closeLedger_key (item : Bytes × Entry) : (closeLedger Thread).key item = item.1 :=
  rfl

/-- Every step keeps the rights to run hooks. -/
theorem Step.hooks_balanced (step : Step aeadOpen serverId state event next)
    (balanced : (hookLedger Thread).Balanced trace state) :
    (hookLedger Thread).Balanced (trace ++ event.toList) next := by
  have unseen : (hookLedger Thread).Balanced (trace ++ (none : Option (Event Thread)).toList)
      state := by
    rw [Option.toList_none, List.append_nil]
    exact balanced
  cases step with
  | tick _ => exact unseen
  | openBegin _ => exact balanced.setFrames rfl fun entry => by simp [Frame.rights]
  | openInsert top => exact balanced.openInsert top (fun _ => rfl) rfl
  | @callRefused thread call token _ status _ _ =>
      intro threads entry
      rw [Ledger.spent_append, Option.toList_some, (spent_refused call token status).1,
        List.append_nil, Ledger.opened_append, List.count_append]
      have bound := balanced threads entry
      omega
  | callBegin _ _ => exact balanced.setFrames rfl fun entry => by simp [Frame.rights]
  | findMissing top _ =>
      exact balanced.setFrames (spent_refused _ _ _).1 fun entry => by simp [top, Frame.rights]
  | findEntry top _ => exact balanced.setFrames rfl fun entry => by simp [top, Frame.rights]
  | @lock _ _ _ _ entry _ mutex top _ =>
      have taken : (hookLedger Thread).Balanced trace (state.setMutex entry mutex) := balanced
      exact taken.setFrames rfl fun item => by simp [top, Frame.rights]
  | @checkMissing _ call _ _ _ _ top _ =>
      exact balanced.setFrames rfl fun item => by
        cases call <;> simp [top, Frame.rights, Call.missing, After.rights]
  | @checkResolveKeep thread token id entry rest top _ _ =>
      have popped : (hookLedger Thread).Balanced
          (trace ++ (some (Event.resolved token id entry)).toList) (state.setFrames thread rest) :=
        balanced.setFrames rfl fun item => by simp [top, Frame.rights]
      exact popped.setHandles
  | checkResolve top _ _ =>
      exact balanced.setFrames rfl fun item => by simp [top, Frame.rights, After.rights]
  | checkExpired top present _ =>
      exact balanced.remove present fun item => by
        simp only [top, stackSum_cons, hookLedger_weight, hookLedger_key, Frame.rights,
          After.rights, List.count_singleton, beq_iff_eq]
        omega
  | checkClose top present =>
      exact balanced.remove present fun item => by
        simp only [top, stackSum_cons, hookLedger_weight, hookLedger_key, Frame.rights,
          After.rights, List.count_singleton, beq_iff_eq]
        omega
  | sweepBegin _ => exact balanced.setFrames rfl fun entry => by simp [Frame.rights]
  | sweepCollect top _ => exact balanced.setFrames rfl fun entry => by simp [top, Frame.rights]
  | sweepDone top => exact balanced.setFrames rfl fun entry => by simp [top, Frame.rights]
  | @sweepLock _ _ entry _ _ mutex top _ =>
      have taken : (hookLedger Thread).Balanced trace (state.setMutex entry mutex) := balanced
      exact taken.setFrames rfl fun item => by simp [top, Frame.rights]
  | sweepRemove top present _ =>
      exact balanced.remove present fun item => by
        simp only [top, stackSum_cons, hookLedger_weight, hookLedger_key, Frame.rights,
          After.rights, List.count_singleton, beq_iff_eq]
        omega
  | sweepKeep top _ =>
      exact balanced.setFrames rfl fun item => by simp [top, Frame.rights, After.rights]
  | @shutdownBegin thread live _ all =>
      -- The map is cleared, and its rights go to this call.
      apply balanced.step { state with entries := [] } thread
        (.shutdownNext live :: state.frames thread) (fun _ => rfl)
      intro entry
      have before : (hookLedger Thread).mapped state entry = live.count entry :=
        (all.count_eq entry).symm
      rw [before]
      simp [Ledger.mapped, Ledger.spent, Frame.rights]
  | shutdownDone top => exact balanced.setFrames rfl fun entry => by simp [top, Frame.rights]
  | @shutdownLock _ entry _ _ mutex top _ =>
      have taken : (hookLedger Thread).Balanced trace (state.setMutex entry mutex) := balanced
      exact taken.setFrames rfl fun item => by
        simp [top, Frame.rights, After.rights, List.count_cons, Nat.add_comm]
  | @hookStart thread entry next rest top _ =>
      -- The right is used up.
      apply balanced.step state thread (.hook entry next :: rest) (fun _ => rfl)
      intro item
      have started : (hookLedger Thread).spent (some (Event.hookStarted thread entry)).toList =
          [entry] := rfl
      rw [started, top]
      simp only [stackSum_cons, hookLedger_weight, Frame.rights, List.count_singleton, beq_iff_eq]
      omega
  | @hookSkip thread entry next rest top _ =>
      apply balanced.step state thread (.finish entry next :: rest) (fun _ => rfl)
      intro item
      rw [top]
      simp [Ledger.spent, Frame.rights]
  | hookEnd top => exact balanced.setFrames rfl fun item => by simp [top, Frame.rights]
  | @hookThrow thread entry next rest top =>
      -- An exception that leaves a shutdown gives up the remaining hooks.
      apply balanced.step state thread (.finish entry .raise :: rest) (fun _ => rfl)
      intro item
      have quiet : (hookLedger Thread).spent (some (Event.hookEnded thread entry)).toList = [] :=
        rfl
      rw [top, quiet]
      simp [Frame.rights, After.rights]
  | @finish _ entry _ _ top =>
      have given : (hookLedger Thread).Balanced trace
          (state.setMutex entry (state.mutexes entry).unlock) := balanced
      exact given.setFrames (hook_spent_after _) fun item => by
        have frames : (state.setMutex entry (state.mutexes entry).unlock).frames _ = _ := top
        rw [frames, stackSum_append, stackSum_cons]
        exact congrArg (· + _) (After.rights_frames _ item)
  | release _ _ => exact unseen.setHandles

/-- Every step keeps the account of closed session ids. -/
theorem Step.closes_balanced (step : Step aeadOpen serverId state event next)
    (balanced : (closeLedger Thread).Balanced trace state) :
    (closeLedger Thread).Balanced (trace ++ event.toList) next := by
  have unseen : (closeLedger Thread).Balanced (trace ++ (none : Option (Event Thread)).toList)
      state := by
    rw [Option.toList_none, List.append_nil]
    exact balanced
  cases step with
  | tick _ => exact unseen
  | openBegin _ => exact balanced.setFrames rfl fun id => by simp [Frame.closes]
  | openInsert top => exact balanced.openInsert top (fun _ => rfl) rfl
  | @callRefused thread call token _ status _ _ =>
      intro threads id
      rw [Ledger.spent_append, Option.toList_some, (spent_refused call token status).2,
        List.append_nil, Ledger.opened_append, List.count_append]
      have bound := balanced threads id
      omega
  | callBegin _ _ => exact balanced.setFrames rfl fun id => by simp [Frame.closes]
  | findMissing top _ =>
      exact balanced.setFrames (spent_refused _ _ _).2 fun id => by simp [top, Frame.closes]
  | findEntry top _ => exact balanced.setFrames rfl fun id => by simp [top, Frame.closes]
  | @lock _ _ _ _ entry _ mutex top _ =>
      have taken : (closeLedger Thread).Balanced trace (state.setMutex entry mutex) := balanced
      exact taken.setFrames rfl fun id => by simp [top, Frame.closes]
  | @checkMissing _ call _ _ _ _ top _ =>
      exact balanced.setFrames rfl fun id => by
        cases call <;> simp [top, Frame.closes, Call.missing, After.closes]
  | @checkResolveKeep thread token id entry rest top _ _ =>
      have popped : (closeLedger Thread).Balanced
          (trace ++ (some (Event.resolved token id entry)).toList) (state.setFrames thread rest) :=
        balanced.setFrames rfl fun item => by simp [top, Frame.closes]
      exact popped.setHandles
  | checkResolve top _ _ =>
      exact balanced.setFrames rfl fun id => by simp [top, Frame.closes, After.closes]
  | checkExpired top present _ =>
      exact balanced.remove present fun id => by simp [top, Frame.closes, After.closes]
  | checkClose top present =>
      exact balanced.remove present fun id => by
        simp only [top, stackSum_cons, closeLedger_weight, closeLedger_key, Frame.closes,
          After.closes, List.count_singleton, beq_iff_eq]
        omega
  | sweepBegin _ => exact balanced.setFrames rfl fun id => by simp [Frame.closes]
  | sweepCollect top _ => exact balanced.setFrames rfl fun id => by simp [top, Frame.closes]
  | sweepDone top => exact balanced.setFrames rfl fun id => by simp [top, Frame.closes]
  | @sweepLock _ _ entry _ _ mutex top _ =>
      have taken : (closeLedger Thread).Balanced trace (state.setMutex entry mutex) := balanced
      exact taken.setFrames rfl fun id => by simp [top, Frame.closes]
  | sweepRemove top present _ =>
      exact balanced.remove present fun id => by simp [top, Frame.closes, After.closes]
  | sweepKeep top _ =>
      exact balanced.setFrames rfl fun id => by simp [top, Frame.closes, After.closes]
  | @shutdownBegin thread live _ all =>
      apply balanced.step { state with entries := [] } thread
        (.shutdownNext live :: state.frames thread) (fun _ => rfl)
      intro id
      simp [Ledger.mapped, Ledger.spent, Frame.closes]
  | shutdownDone top => exact balanced.setFrames rfl fun id => by simp [top, Frame.closes]
  | @shutdownLock _ entry _ _ mutex top _ =>
      have taken : (closeLedger Thread).Balanced trace (state.setMutex entry mutex) := balanced
      exact taken.setFrames rfl fun id => by simp [top, Frame.closes, After.closes]
  | hookStart top _ => exact balanced.setFrames rfl fun id => by simp [top, Frame.closes]
  | hookSkip top _ => exact balanced.setFrames rfl fun id => by simp [top, Frame.closes]
  | hookEnd top => exact balanced.setFrames rfl fun id => by simp [top, Frame.closes]
  | @hookThrow thread entry next rest top =>
      apply balanced.step state thread (.finish entry .raise :: rest) (fun _ => rfl)
      intro id
      have quiet : (closeLedger Thread).spent (some (Event.hookEnded thread entry)).toList = [] :=
        rfl
      rw [top, quiet]
      simp [Frame.closes, After.closes]
  | @finish thread entry next rest top =>
      -- A `close` that returns true spends the unit it kept.
      have given : (closeLedger Thread).Balanced trace
          (state.setMutex entry (state.mutexes entry).unlock) := balanced
      apply given.step _ thread (next.frames ++ rest) (fun _ => rfl)
      intro id
      have frames : (state.setMutex entry (state.mutexes entry).unlock).frames thread = _ := top
      have none : stackSum ((closeLedger Thread).weight id) next.frames = 0 :=
        After.closes_frames next id
      have own : (closeLedger Thread).weight id (.finish entry next) = next.closes id := rfl
      rw [frames, stackSum_append, stackSum_cons, close_spent_after, none, own]
      omega
  | release _ _ => exact unseen.setHandles

end Balances

end VgiRpc.Session
