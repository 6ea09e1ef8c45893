import VgiRpc.Session.Registry

/-!
# Who holds a dispatch mutex

Calls hold dispatch mutexes in their frames, handlers in their handles.  Along
every run the depth of each recursive mutex is the number of places that hold it.
-/

namespace VgiRpc.Session

open VgiRpc.Cpp VgiRpc.Lib

/-! ## What a call holds -/

/-- How often a frame holds the dispatch mutex of an entry. -/
def Frame.holds (entry : Entry) : Frame → Nat
  | .check _ _ _ other | .sweepCheck _ other _ | .removed other _ | .hook other _
  | .finish other _ => if other = entry then 1 else 0
  | .openInsert _ _ _ | .find _ _ _ | .lock _ _ _ _ | .sweepCollect _ | .sweepNext _
  | .shutdownNext _ => 0

/-- A sum over the calls that a thread is in. -/
def stackSum (weight : Frame → Nat) (frames : List Frame) : Nat := (frames.map weight).sum

@[simp] theorem stackSum_nil (weight : Frame → Nat) : stackSum weight [] = 0 := rfl

@[simp] theorem stackSum_cons (weight : Frame → Nat) (frame : Frame) (frames : List Frame) :
    stackSum weight (frame :: frames) = weight frame + stackSum weight frames := by
  simp [stackSum]

@[simp] theorem stackSum_append (weight : Frame → Nat) (first second : List Frame) :
    stackSum weight (first ++ second) = stackSum weight first + stackSum weight second := by
  simp [stackSum]

namespace State

variable {Thread : Type} [DecidableEq Thread]

/-- How often a thread holds the dispatch mutex of an entry. -/
def holding (state : State Thread) (thread : Thread) (entry : Entry) : Nat :=
  stackSum (Frame.holds entry) (state.frames thread) + (state.handles thread).count entry

section Updates

variable (state : State Thread) (thread other : Thread)

@[simp] theorem frames_setFrames (frames : List Frame) :
    (state.setFrames thread frames).frames other =
      if other = thread then frames else state.frames other := by
  by_cases same : other = thread
  · simp [setFrames, State.frames, same]
  · simp [setFrames, State.frames, same]

@[simp] theorem handles_setFrames (frames : List Frame) :
    (state.setFrames thread frames).handles other = state.handles other := by
  by_cases same : other = thread
  · simp [setFrames, State.handles, same]
  · simp [setFrames, State.handles, same]

@[simp] theorem frames_setHandles (handles : List Entry) :
    (state.setHandles thread handles).frames other = state.frames other := by
  by_cases same : other = thread
  · simp [setHandles, State.frames, same]
  · simp [setHandles, State.frames, same]

@[simp] theorem handles_setHandles (handles : List Entry) :
    (state.setHandles thread handles).handles other =
      if other = thread then handles else state.handles other := by
  by_cases same : other = thread
  · simp [setHandles, State.handles, same]
  · simp [setHandles, State.handles, same]

omit [DecidableEq Thread] in
@[simp] theorem frames_erase (id : Bytes) : (state.erase id).frames other = state.frames other := rfl

omit [DecidableEq Thread] in
@[simp] theorem frames_clear (entries : List (Bytes × Entry)) :
    ({ state with entries } : State Thread).frames other = state.frames other := rfl

omit [DecidableEq Thread] in
@[simp] theorem frames_setMutex (entry : Entry) (mutex : RecursiveMutex Thread) :
    (state.setMutex entry mutex).frames other = state.frames other := rfl

end Updates

/-! ## Dispatch mutexes -/

omit [DecidableEq Thread] in
theorem holding_pos {state : State Thread} {thread : Thread} {entry : Entry} {frame : Frame}
    (mem : frame ∈ state.frames thread) (positive : 0 < frame.holds entry) :
    0 < state.holding thread entry := by
  have le := List.single_le_sum (fun _ _ => Nat.zero_le _) _
    (List.mem_map_of_mem (f := Frame.holds entry) mem)
  rw [holding, stackSum]
  omega

/-- Every dispatch mutex knows how often each thread holds it. -/
def LocksTrack (state : State Thread) : Prop :=
  ∀ thread entry, (state.mutexes entry).depth thread = state.holding thread entry

variable {state : State Thread} {thread : Thread} {entry : Entry}

theorem holding_setFrames (state : State Thread) (thread other : Thread) (frames : List Frame)
    (entry : Entry) :
    (state.setFrames thread frames).holding other entry +
        (if other = thread then stackSum (Frame.holds entry) (state.frames thread) else 0) =
      state.holding other entry +
        if other = thread then stackSum (Frame.holds entry) frames else 0 := by
  simp only [holding, frames_setFrames, handles_setFrames]
  by_cases mine : other = thread
  · simp only [mine, if_true]
    omega
  · simp only [mine, if_false]

theorem depth_lock {mutex : RecursiveMutex Thread}
    (locked : (state.mutexes entry).lock thread = some mutex) (other : Thread) (item : Entry) :
    ((state.setMutex entry mutex).mutexes item).depth other =
      (state.mutexes item).depth other + if other = thread ∧ item = entry then 1 else 0 := by
  by_cases this : item = entry
  · simp [setMutex, this, RecursiveMutex.depth_lock locked]
  · simp [setMutex, this]

theorem depth_unlock (holds : 0 < (state.mutexes entry).depth thread) (other : Thread)
    (item : Entry) :
    (state.mutexes item).depth other =
      ((state.setMutex entry (state.mutexes entry).unlock).mutexes item).depth other +
        if other = thread ∧ item = entry then 1 else 0 := by
  by_cases this : item = entry
  · simp [setMutex, this, ← RecursiveMutex.depth_unlock holds]
  · simp [setMutex, this]

/-- Changing a stack without taking or giving back a mutex. -/
theorem LocksTrack.setFrames (tracks : state.LocksTrack) {frames : List Frame}
    (same : ∀ entry, stackSum (Frame.holds entry) frames =
      stackSum (Frame.holds entry) (state.frames thread)) :
    (state.setFrames thread frames).LocksTrack := by
  intro other item
  have before := tracks other item
  have change := holding_setFrames state thread other frames item
  rw [same] at change
  have mutexes : (state.setFrames thread frames).mutexes item = state.mutexes item := rfl
  rw [mutexes]
  omega

theorem LocksTrack.erase (tracks : state.LocksTrack) (id : Bytes) :
    (state.erase id).LocksTrack := tracks

/-- Taking a mutex. -/
theorem LocksTrack.lock (tracks : state.LocksTrack) {frames : List Frame}
    {mutex : RecursiveMutex Thread} (locked : (state.mutexes entry).lock thread = some mutex)
    (more : ∀ item, stackSum (Frame.holds item) frames =
      stackSum (Frame.holds item) (state.frames thread) + if entry = item then 1 else 0) :
    ((state.setMutex entry mutex).setFrames thread frames).LocksTrack := by
  intro other item
  have before := tracks other item
  have change := holding_setFrames (state.setMutex entry mutex) thread other frames item
  have depth := depth_lock locked other item
  have holdingEq : (state.setMutex entry mutex).holding other item = state.holding other item := rfl
  have framesEq : (state.setMutex entry mutex).frames thread = state.frames thread := rfl
  have mutexes : ((state.setMutex entry mutex).setFrames thread frames).mutexes item =
      (state.setMutex entry mutex).mutexes item := rfl
  rw [mutexes, depth]
  rw [more, framesEq, holdingEq] at change
  by_cases mine : other = thread
  · by_cases this : item = entry
    · simp only [mine, this, if_true, and_self] at change before ⊢
      omega
    · simp only [mine, this, if_true, if_false, and_false, Ne.symm this] at change before ⊢
      omega
  · simp only [mine, if_false, false_and] at change ⊢
    omega

/-- Giving a mutex back. -/
theorem LocksTrack.unlock (tracks : state.LocksTrack) {frames : List Frame}
    (less : ∀ item, stackSum (Frame.holds item) (state.frames thread) =
      stackSum (Frame.holds item) frames + if entry = item then 1 else 0) :
    ((state.setMutex entry (state.mutexes entry).unlock).setFrames thread frames).LocksTrack := by
  have holds : 0 < (state.mutexes entry).depth thread := by
    have before := tracks thread entry
    simp only [holding, less entry, if_true] at before
    omega
  intro other item
  have before := tracks other item
  have change := holding_setFrames (state.setMutex entry (state.mutexes entry).unlock) thread
    other frames item
  have depth := depth_unlock holds other item
  have holdingEq : (state.setMutex entry (state.mutexes entry).unlock).holding other item =
      state.holding other item := rfl
  have framesEq : (state.setMutex entry (state.mutexes entry).unlock).frames thread =
      state.frames thread := rfl
  have mutexes : ((state.setMutex entry (state.mutexes entry).unlock).setFrames thread
      frames).mutexes item =
      (state.setMutex entry (state.mutexes entry).unlock).mutexes item := rfl
  rw [mutexes]
  rw [framesEq, less, holdingEq] at change
  by_cases mine : other = thread
  · by_cases this : item = entry
    · simp only [mine, this, if_true, and_self] at change before depth ⊢
      omega
    · simp only [mine, this, if_true, if_false, and_false, Ne.symm this] at change before depth ⊢
      omega
  · simp only [mine, if_false, false_and] at change depth ⊢
    omega

/-- A call hands its mutex to its caller. -/
theorem LocksTrack.keep (tracks : state.LocksTrack) {frames : List Frame}
    (less : ∀ item, stackSum (Frame.holds item) (state.frames thread) =
      stackSum (Frame.holds item) frames + if entry = item then 1 else 0) :
    ((state.setFrames thread frames).setHandles thread
      (entry :: state.handles thread)).LocksTrack := by
  intro other item
  have before := tracks other item
  have mutexes : ((state.setFrames thread frames).setHandles thread
      (entry :: state.handles thread)).mutexes item = state.mutexes item := rfl
  rw [mutexes, before]
  simp only [holding, frames_setHandles, handles_setHandles, frames_setFrames, handles_setFrames]
  by_cases mine : other = thread
  · simp only [mine, if_true, List.count_cons, beq_iff_eq]
    have count := less item
    omega
  · simp only [mine, if_false]

/-- A handler gives a mutex back. -/
theorem LocksTrack.release (tracks : state.LocksTrack) (mine : entry ∈ state.handles thread) :
    ((state.setMutex entry (state.mutexes entry).unlock).setHandles thread
      ((state.handles thread).erase entry)).LocksTrack := by
  have present := List.count_pos_iff.mpr mine
  have holds : 0 < (state.mutexes entry).depth thread := by
    have before := tracks thread entry
    simp only [holding] at before
    omega
  intro other item
  have before := tracks other item
  have depth := depth_unlock holds other item
  have mutexes : ((state.setMutex entry (state.mutexes entry).unlock).setHandles thread
      ((state.handles thread).erase entry)).mutexes item =
      (state.setMutex entry (state.mutexes entry).unlock).mutexes item := rfl
  have framesEq : (state.setMutex entry (state.mutexes entry).unlock).frames other =
      state.frames other := rfl
  have handlesEq : (state.setMutex entry (state.mutexes entry).unlock).handles other =
      state.handles other := rfl
  rw [mutexes]
  simp only [holding, frames_setHandles, handles_setHandles, framesEq, handlesEq] at before ⊢
  by_cases same : other = thread
  · by_cases this : item = entry
    · simp only [same, this, if_true, and_self, List.count_erase_self] at before depth ⊢
      omega
    · simp only [same, this, if_true, if_false, and_false,
        List.count_erase_of_ne this] at before depth ⊢
      omega
  · simp only [same, if_false, false_and] at depth ⊢
    omega

end State

section Steps

variable {Thread : Type} [DecidableEq Thread] {aeadOpen : AeadOpen} {serverId : Bytes}
  {state next : State Thread} {event : Option (Event Thread)}

theorem After.holds_frames (after : After) (entry : Entry) :
    stackSum (Frame.holds entry) after.frames = 0 := by
  cases after <;> rfl

/-- Every step keeps the count of the dispatch mutexes. -/
theorem Step.locksTrack (step : Step aeadOpen serverId state event next)
    (tracks : state.LocksTrack) : next.LocksTrack := by
  cases step with
  | tick _ => exact tracks
  | openBegin _ => exact tracks.setFrames fun entry => by simp [Frame.holds]
  | @openInsert thread _ _ _ rest top =>
      have kept : (state.setFrames thread rest).LocksTrack :=
        tracks.setFrames fun entry => by simp [top, Frame.holds]
      exact kept
  | callRefused _ _ => exact tracks
  | callBegin _ _ => exact tracks.setFrames fun entry => by simp [Frame.holds]
  | findMissing top _ => exact tracks.setFrames fun entry => by simp [top, Frame.holds]
  | findEntry top _ => exact tracks.setFrames fun entry => by simp [top, Frame.holds]
  | lock top locked =>
      exact tracks.lock locked fun item => by simp [top, Frame.holds, Nat.add_comm]
  | checkMissing top _ => exact tracks.setFrames fun entry => by simp [top, Frame.holds]
  | checkResolveKeep top _ _ =>
      exact tracks.keep fun item => by simp [top, Frame.holds, Nat.add_comm]
  | checkResolve top _ _ => exact tracks.setFrames fun entry => by simp [top, Frame.holds]
  | checkExpired top _ _ => exact (tracks.erase _).setFrames fun entry => by simp [top, Frame.holds]
  | checkClose top _ => exact (tracks.erase _).setFrames fun entry => by simp [top, Frame.holds]
  | sweepBegin _ => exact tracks.setFrames fun entry => by simp [Frame.holds]
  | sweepCollect top _ => exact tracks.setFrames fun entry => by simp [top, Frame.holds]
  | sweepDone top => exact tracks.setFrames fun entry => by simp [top, Frame.holds]
  | sweepLock top locked =>
      exact tracks.lock locked fun item => by simp [top, Frame.holds, Nat.add_comm]
  | sweepRemove top _ _ => exact (tracks.erase _).setFrames fun entry => by simp [top, Frame.holds]
  | sweepKeep top _ => exact tracks.setFrames fun entry => by simp [top, Frame.holds]
  | shutdownBegin _ _ =>
      have cleared : ({ state with entries := [] } : State Thread).LocksTrack := tracks
      exact cleared.setFrames fun entry => by simp [Frame.holds]
  | shutdownDone top => exact tracks.setFrames fun entry => by simp [top, Frame.holds]
  | shutdownLock top locked =>
      exact tracks.lock locked fun item => by simp [top, Frame.holds, Nat.add_comm]
  | hookStart top _ => exact tracks.setFrames fun entry => by simp [top, Frame.holds]
  | hookSkip top _ => exact tracks.setFrames fun entry => by simp [top, Frame.holds]
  | hookEnd top => exact tracks.setFrames fun entry => by simp [top, Frame.holds]
  | hookThrow top => exact tracks.setFrames fun entry => by simp [top, Frame.holds]
  | finish top =>
      exact tracks.unlock fun item => by
        simp [top, Frame.holds, After.holds_frames, Nat.add_comm]
  | release _ mine => exact tracks.release mine

end Steps

end VgiRpc.Session
