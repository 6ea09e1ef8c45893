import Mathlib.Algebra.BigOperators.Group.Finset.Basic
import VgiRpc.Crypto.Encoding
import VgiRpc.Lib.Memory
import VgiRpc.Lib.RecursiveMutex

/-!
# The registry of sticky sessions

`SessionRegistry` keeps one entry per live session under a short registry mutex;
each entry has a recursive dispatch mutex that a handler holds for the length of
a call.  The model is a step relation over any number of threads.  An atomic step
is one critical section of the registry mutex, one acquisition or release of a
dispatch mutex, or the start or end of a `close()` hook.

A thread has a stack of calls in progress: the registry may be called again from
inside a hook, and between calls a handler may hold dispatch locks that `resolve`
handed to it.
-/

namespace VgiRpc.Session

open VgiRpc.Cpp VgiRpc.Lib

/-! ## Tokens -/

/-- Why a token did not resolve. -/
inductive SessionLookup where
  | notPresented
  | unsealable
  | wrongWorker
  | missing
  | expired
  deriving DecidableEq, Repr

/-- The AEAD of one key: open a sealed text under associated data. -/
abbrev AeadOpen := (sealed aad : Bytes) → Option Bytes

/-- `SessionRegistry::unseal`.  The frame is the creation time, the length of the
server id, the server id, the session id of 24 characters and the expiry time. -/
def unsealToken (aeadOpen : AeadOpen) (serverId token aad : Bytes) (unixNow : Nat) :
    Except SessionLookup Bytes :=
  if token = [] then
    .error .notPresented
  else
    match Crypto.base64urlDecode token with
    | some (version :: sealed) =>
        if sealed = [] ∨ version ≠ 0x01 then
          .error .unsealable
        else
          match aeadOpen sealed aad with
          | none => .error .unsealable
          | some frame =>
              match frame.drop 8 with
              | [] => .error .unsealable
              | idLen :: rest =>
                  if rest.length < idLen.toNat + 24 + 8 then
                    .error .unsealable
                  else
                    let mintedBy := rest.take idLen.toNat
                    let sessionId := (rest.drop idLen.toNat).take 24
                    let expiresAt := Memory.ofBytesLE ((rest.drop (idLen.toNat + 24)).take 8)
                    if mintedBy ≠ serverId then .error .wrongWorker
                    else if unixNow > expiresAt then .error .expired
                    else .ok sessionId
    | _ => .error .unsealable

/-! ## State -/

/-- An entry object.  The address tells entries apart; `hasState` says whether its
state pointer is set. -/
structure Entry where
  address : Nat
  hasState : Bool
  expiresAt : Int
  deriving DecidableEq, Repr

/-- A call that looks up one token. -/
inductive Call where
  /-- `resolve`; `keepLock` if the caller asked for the dispatch lock. -/
  | resolve (keepLock : Bool)
  | close
  deriving DecidableEq, Repr

/-- What a call does once it gave its dispatch lock back. -/
inductive After where
  /-- Return from `resolve` that already reported OK. -/
  | returnOk
  | resolveRefused (token : Bytes) (status : SessionLookup)
  | closeTrue (token id : Bytes)
  | closeFalse (token : Bytes)
  /-- Go on with the candidates of a sweep. -/
  | sweepOn (candidates : List (Bytes × Entry))
  /-- Go on with the entries of a shutdown. -/
  | shutdownOn (live : List Entry)
  /-- The hook threw, and the exception leaves the call. -/
  | raise
  deriving DecidableEq

/-- Where a call in progress stands. -/
inductive Frame where
  /-- `open` has drawn an id and set the expiry time. -/
  | openInsert (id : Bytes) (hasState : Bool) (expiresAt : Int)
  /-- The token is unsealed, the id has to be looked up. -/
  | find (call : Call) (token id : Bytes)
  /-- The entry was found; waiting for its dispatch mutex. -/
  | lock (call : Call) (token id : Bytes) (entry : Entry)
  /-- The dispatch mutex is held; the id has to be looked up again. -/
  | check (call : Call) (token id : Bytes) (entry : Entry)
  | sweepCollect (now : Int)
  | sweepNext (candidates : List (Bytes × Entry))
  | sweepCheck (id : Bytes) (entry : Entry) (rest : List (Bytes × Entry))
  | shutdownNext (live : List Entry)
  /-- The entry is out of the map and its dispatch mutex is held. -/
  | removed (entry : Entry) (next : After)
  /-- The hook of the entry is running. -/
  | hook (entry : Entry) (next : After)
  /-- About to give the dispatch mutex back. -/
  | finish (entry : Entry) (next : After)
  deriving DecidableEq

/-- A thread: the calls it is in, innermost first, and the dispatch locks that its
handler holds. -/
structure ThreadState where
  frames : List Frame
  handles : List Entry

/-- The state of the registry and of the threads that use it. -/
structure State (Thread : Type) where
  entries : List (Bytes × Entry)
  nextAddress : Nat
  mutexes : Entry → RecursiveMutex Thread
  threads : Thread → ThreadState
  steadyNow : Int
  unixNow : Nat

/-- What an observer sees. -/
inductive Event (Thread : Type) where
  | opened (id : Bytes) (entry : Entry)
  /-- `resolve` decided to return OK, with the dispatch lock held. -/
  | resolved (token id : Bytes) (entry : Entry)
  | resolveRefused (token : Bytes) (status : SessionLookup)
  /-- `close` returned true. -/
  | closed (token id : Bytes)
  /-- `close` returned false. -/
  | closeRefused (token : Bytes)
  | hookStarted (thread : Thread) (entry : Entry)
  | hookEnded (thread : Thread) (entry : Entry)

namespace State

variable {Thread : Type}

/-- A registry without sessions. -/
def initial (steadyNow : Int) (unixNow : Nat) : State Thread :=
  { entries := []
    nextAddress := 0
    mutexes := fun _ => .free
    threads := fun _ => ⟨[], []⟩
    steadyNow := steadyNow
    unixNow := unixNow }

variable (state : State Thread)

def lookup (id : Bytes) : Option Entry := state.entries.lookup id

/-- `entries_[id] = entry`. -/
def insert (id : Bytes) (entry : Entry) : State Thread :=
  { state with entries := (id, entry) :: state.entries.filter fun other => other.1 ≠ id }

def erase (id : Bytes) : State Thread :=
  { state with entries := state.entries.filter fun other => other.1 ≠ id }

def frames (thread : Thread) : List Frame := (state.threads thread).frames

def handles (thread : Thread) : List Entry := (state.threads thread).handles

variable [DecidableEq Thread]

def setFrames (thread : Thread) (frames : List Frame) : State Thread :=
  { state with
    threads := Function.update state.threads thread ⟨frames, state.handles thread⟩ }

def setHandles (thread : Thread) (handles : List Entry) : State Thread :=
  { state with
    threads := Function.update state.threads thread ⟨state.frames thread, handles⟩ }

def setMutex (entry : Entry) (mutex : RecursiveMutex Thread) : State Thread :=
  { state with mutexes := Function.update state.mutexes entry mutex }

/-- Application code is running: outside every call, or inside a hook. -/
def Running (thread : Thread) : Prop :=
  match state.frames thread with
  | [] => True
  | .hook _ _ :: _ => True
  | _ => False

end State

namespace Call

/-- The lookup found nothing. -/
def missing (token : Bytes) : Call → After
  | .resolve _ => .resolveRefused token .missing
  | .close => .closeFalse token

/-- The answer to a token that was refused before or by the first lookup. -/
def refused (Thread : Type) (token : Bytes) (status : SessionLookup) : Call → Event Thread
  | .resolve _ => .resolveRefused token status
  | .close => .closeRefused token

end Call

namespace After

/-- The return that is seen when the dispatch lock is given back. -/
def event (Thread : Type) : After → Option (Event Thread)
  | .resolveRefused token status => some (.resolveRefused token status)
  | .closeTrue token id => some (.closed token id)
  | .closeFalse token => some (.closeRefused token)
  | .returnOk | .sweepOn _ | .shutdownOn _ | .raise => none

/-- The frame to go on with. -/
def frames : After → List Frame
  | .sweepOn candidates => [.sweepNext candidates]
  | .shutdownOn live => [.shutdownNext live]
  | .returnOk | .resolveRefused _ _ | .closeTrue _ _ | .closeFalse _ | .raise => []

end After

/-! ## Steps -/

variable {Thread : Type} [DecidableEq Thread]

/-- One atomic step of the system. -/
inductive Step (aeadOpen : AeadOpen) (serverId : Bytes) :
    State Thread → Option (Event Thread) → State Thread → Prop
  /-- Time passes; only the steady clock never goes back. -/
  | tick {state : State Thread} {steadyNow : Int} {unixNow : Nat} :
      state.steadyNow ≤ steadyNow →
      Step aeadOpen serverId state none { state with steadyNow, unixNow }
  | openBegin {state : State Thread} {thread : Thread} {id : Bytes} {hasState : Bool} {ttl : Int} :
      state.Running thread →
      Step aeadOpen serverId state none (state.setFrames thread
        (.openInsert id hasState (state.steadyNow + ttl) :: state.frames thread))
  | openInsert {state : State Thread} {thread : Thread} {id : Bytes} {hasState : Bool}
      {expiresAt : Int} {rest : List Frame} :
      state.frames thread = .openInsert id hasState expiresAt :: rest →
      Step aeadOpen serverId state
        (some (.opened id ⟨state.nextAddress, hasState, expiresAt⟩))
        { (state.setFrames thread rest).insert id ⟨state.nextAddress, hasState, expiresAt⟩ with
          nextAddress := state.nextAddress + 1 }
  | callRefused {state : State Thread} {thread : Thread} {call : Call} {token aad : Bytes}
      {status : SessionLookup} :
      state.Running thread →
      unsealToken aeadOpen serverId token aad state.unixNow = .error status →
      Step aeadOpen serverId state (some (call.refused Thread token status)) state
  | callBegin {state : State Thread} {thread : Thread} {call : Call} {token aad id : Bytes} :
      state.Running thread →
      unsealToken aeadOpen serverId token aad state.unixNow = .ok id →
      Step aeadOpen serverId state none
        (state.setFrames thread (.find call token id :: state.frames thread))
  | findMissing {state : State Thread} {thread : Thread} {call : Call} {token id : Bytes}
      {rest : List Frame} :
      state.frames thread = .find call token id :: rest → state.lookup id = none →
      Step aeadOpen serverId state (some (call.refused Thread token .missing))
        (state.setFrames thread rest)
  | findEntry {state : State Thread} {thread : Thread} {call : Call} {token id : Bytes}
      {entry : Entry} {rest : List Frame} :
      state.frames thread = .find call token id :: rest → state.lookup id = some entry →
      Step aeadOpen serverId state none
        (state.setFrames thread (.lock call token id entry :: rest))
  | lock {state : State Thread} {thread : Thread} {call : Call} {token id : Bytes} {entry : Entry}
      {rest : List Frame} {mutex : RecursiveMutex Thread} :
      state.frames thread = .lock call token id entry :: rest →
      (state.mutexes entry).lock thread = some mutex →
      Step aeadOpen serverId state none
        ((state.setMutex entry mutex).setFrames thread (.check call token id entry :: rest))
  | checkMissing {state : State Thread} {thread : Thread} {call : Call} {token id : Bytes}
      {entry : Entry} {rest : List Frame} :
      state.frames thread = .check call token id entry :: rest → state.lookup id ≠ some entry →
      Step aeadOpen serverId state none
        (state.setFrames thread (.finish entry (call.missing token) :: rest))
  /-- `resolve` hands the dispatch lock to its caller. -/
  | checkResolveKeep {state : State Thread} {thread : Thread} {token id : Bytes} {entry : Entry}
      {rest : List Frame} :
      state.frames thread = .check (.resolve true) token id entry :: rest →
      state.lookup id = some entry → state.steadyNow ≤ entry.expiresAt →
      Step aeadOpen serverId state (some (.resolved token id entry))
        ((state.setFrames thread rest).setHandles thread (entry :: state.handles thread))
  | checkResolve {state : State Thread} {thread : Thread} {token id : Bytes} {entry : Entry}
      {rest : List Frame} :
      state.frames thread = .check (.resolve false) token id entry :: rest →
      state.lookup id = some entry → state.steadyNow ≤ entry.expiresAt →
      Step aeadOpen serverId state (some (.resolved token id entry))
        (state.setFrames thread (.finish entry .returnOk :: rest))
  | checkExpired {state : State Thread} {thread : Thread} {keepLock : Bool} {token id : Bytes}
      {entry : Entry} {rest : List Frame} :
      state.frames thread = .check (.resolve keepLock) token id entry :: rest →
      state.lookup id = some entry → state.steadyNow > entry.expiresAt →
      Step aeadOpen serverId state none ((state.erase id).setFrames thread
        (.removed entry (.resolveRefused token .expired) :: rest))
  | checkClose {state : State Thread} {thread : Thread} {token id : Bytes} {entry : Entry}
      {rest : List Frame} :
      state.frames thread = .check .close token id entry :: rest →
      state.lookup id = some entry →
      Step aeadOpen serverId state none ((state.erase id).setFrames thread
        (.removed entry (.closeTrue token id) :: rest))
  | sweepBegin {state : State Thread} {thread : Thread} :
      state.Running thread →
      Step aeadOpen serverId state none
        (state.setFrames thread (.sweepCollect state.steadyNow :: state.frames thread))
  | sweepCollect {state : State Thread} {thread : Thread} {now : Int}
      {candidates : List (Bytes × Entry)} {rest : List Frame} :
      state.frames thread = .sweepCollect now :: rest →
      candidates.Perm (state.entries.filter fun item => now > item.2.expiresAt) →
      Step aeadOpen serverId state none
        (state.setFrames thread (.sweepNext candidates :: rest))
  | sweepDone {state : State Thread} {thread : Thread} {rest : List Frame} :
      state.frames thread = .sweepNext [] :: rest →
      Step aeadOpen serverId state none (state.setFrames thread rest)
  | sweepLock {state : State Thread} {thread : Thread} {id : Bytes} {entry : Entry}
      {candidates : List (Bytes × Entry)} {rest : List Frame} {mutex : RecursiveMutex Thread} :
      state.frames thread = .sweepNext ((id, entry) :: candidates) :: rest →
      (state.mutexes entry).lock thread = some mutex →
      Step aeadOpen serverId state none
        ((state.setMutex entry mutex).setFrames thread (.sweepCheck id entry candidates :: rest))
  | sweepRemove {state : State Thread} {thread : Thread} {id : Bytes} {entry : Entry}
      {candidates : List (Bytes × Entry)} {rest : List Frame} :
      state.frames thread = .sweepCheck id entry candidates :: rest →
      state.lookup id = some entry → state.steadyNow > entry.expiresAt →
      Step aeadOpen serverId state none ((state.erase id).setFrames thread
        (.removed entry (.sweepOn candidates) :: rest))
  | sweepKeep {state : State Thread} {thread : Thread} {id : Bytes} {entry : Entry}
      {candidates : List (Bytes × Entry)} {rest : List Frame} :
      state.frames thread = .sweepCheck id entry candidates :: rest →
      ¬(state.lookup id = some entry ∧ state.steadyNow > entry.expiresAt) →
      Step aeadOpen serverId state none
        (state.setFrames thread (.finish entry (.sweepOn candidates) :: rest))
  | shutdownBegin {state : State Thread} {thread : Thread} {live : List Entry} :
      state.Running thread → live.Perm (state.entries.map Prod.snd) →
      Step aeadOpen serverId state none ({ state with entries := [] }.setFrames thread
        (.shutdownNext live :: state.frames thread))
  | shutdownDone {state : State Thread} {thread : Thread} {rest : List Frame} :
      state.frames thread = .shutdownNext [] :: rest →
      Step aeadOpen serverId state none (state.setFrames thread rest)
  | shutdownLock {state : State Thread} {thread : Thread} {entry : Entry} {live : List Entry}
      {rest : List Frame} {mutex : RecursiveMutex Thread} :
      state.frames thread = .shutdownNext (entry :: live) :: rest →
      (state.mutexes entry).lock thread = some mutex →
      Step aeadOpen serverId state none ((state.setMutex entry mutex).setFrames thread
        (.removed entry (.shutdownOn live) :: rest))
  | hookStart {state : State Thread} {thread : Thread} {entry : Entry} {next : After}
      {rest : List Frame} :
      state.frames thread = .removed entry next :: rest → entry.hasState = true →
      Step aeadOpen serverId state (some (.hookStarted thread entry))
        (state.setFrames thread (.hook entry next :: rest))
  | hookSkip {state : State Thread} {thread : Thread} {entry : Entry} {next : After}
      {rest : List Frame} :
      state.frames thread = .removed entry next :: rest → entry.hasState = false →
      Step aeadOpen serverId state none (state.setFrames thread (.finish entry next :: rest))
  | hookEnd {state : State Thread} {thread : Thread} {entry : Entry} {next : After}
      {rest : List Frame} :
      state.frames thread = .hook entry next :: rest →
      Step aeadOpen serverId state (some (.hookEnded thread entry))
        (state.setFrames thread (.finish entry next :: rest))
  | hookThrow {state : State Thread} {thread : Thread} {entry : Entry} {next : After}
      {rest : List Frame} :
      state.frames thread = .hook entry next :: rest →
      Step aeadOpen serverId state (some (.hookEnded thread entry))
        (state.setFrames thread (.finish entry .raise :: rest))
  | finish {state : State Thread} {thread : Thread} {entry : Entry} {next : After}
      {rest : List Frame} :
      state.frames thread = .finish entry next :: rest →
      Step aeadOpen serverId state (next.event Thread)
        ((state.setMutex entry (state.mutexes entry).unlock).setFrames thread
          (next.frames ++ rest))
  /-- A handler lets go of a session. -/
  | release {state : State Thread} {thread : Thread} {entry : Entry} :
      state.Running thread → entry ∈ state.handles thread →
      Step aeadOpen serverId state none
        ((state.setMutex entry (state.mutexes entry).unlock).setHandles thread
          ((state.handles thread).erase entry))

end VgiRpc.Session
