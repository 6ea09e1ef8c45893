import Mathlib.Tactic

/-!
# Recursive mutexes

A mutex that its owner may take again.  Its state is how often each thread holds
it, and at most one thread does.
-/

namespace VgiRpc.Lib

variable {Thread : Type}

/-- A recursive mutex: free, or held by a thread once and `more` times. -/
inductive RecursiveMutex (Thread : Type) where
  | free
  | held (owner : Thread) (more : Nat)
  deriving DecidableEq

namespace RecursiveMutex

variable [DecidableEq Thread] {mutex taken : RecursiveMutex Thread} {thread other : Thread}

/-- How often a thread holds the mutex. -/
def depth : RecursiveMutex Thread → Thread → Nat
  | .free, _ => 0
  | .held owner more, thread => if owner = thread then more + 1 else 0

/-- Take the mutex; `none` if the thread would have to wait. -/
def lock : RecursiveMutex Thread → Thread → Option (RecursiveMutex Thread)
  | .free, thread => some (.held thread 0)
  | .held owner more, thread => if owner = thread then some (.held owner (more + 1)) else none

/-- Give the mutex back once. -/
def unlock : RecursiveMutex Thread → RecursiveMutex Thread
  | .free => .free
  | .held _ 0 => .free
  | .held owner (more + 1) => .held owner more

theorem depth_lock (locked : mutex.lock thread = some taken) :
    taken.depth other = mutex.depth other + if other = thread then 1 else 0 := by
  cases mutex with
  | free =>
      rw [lock, Option.some.injEq] at locked
      rw [← locked]
      by_cases same : other = thread
      · simp [depth, same]
      · simp [depth, same, Ne.symm same]
  | held owner more =>
      rw [lock] at locked
      split at locked
      next mine =>
        rw [Option.some.injEq] at locked
        rw [← locked, mine]
        by_cases same : other = thread
        · simp [depth, same]
        · simp [depth, same, Ne.symm same]
      next => simp at locked

theorem depth_unlock (holds : 0 < mutex.depth thread) :
    mutex.depth other = mutex.unlock.depth other + if other = thread then 1 else 0 := by
  cases mutex with
  | free => simp [depth] at holds
  | held owner more =>
      have mine : owner = thread := by
        by_contra foreign
        simp [depth, foreign] at holds
      rw [mine]
      cases more with
      | zero =>
          by_cases same : other = thread
          · simp [depth, unlock, same]
          · simp [depth, unlock, same, Ne.symm same]
      | succ more =>
          by_cases same : other = thread
          · simp [depth, unlock, same]
          · simp [depth, unlock, same, Ne.symm same]

/-- Two threads never hold a mutex at the same time. -/
theorem eq_of_depth_pos (first : 0 < mutex.depth thread) (second : 0 < mutex.depth other) :
    thread = other := by
  cases mutex with
  | free => simp [depth] at first
  | held owner more =>
      by_contra different
      by_cases mine : owner = thread
      · have foreign : ¬owner = other := by rw [mine]; exact different
        simp [depth, foreign] at second
      · simp [depth, mine] at first

end RecursiveMutex

end VgiRpc.Lib
