import Mathlib.Tactic

/-!
# Scanning a text by position

A scan reads a fixed text at a position that it moves, and an access outside the text is a fault
of its own.  A reader takes its values off the front of what is left.  A scan that follows a
reader never faults.
-/

namespace VgiRpc.Lib

variable {β ε α γ : Type}

/-- Why a scan stops. -/
inductive Fault (ε : Type) where
  /-- An access outside the text. -/
  | outside
  | invalid (error : ε)
  deriving DecidableEq, Repr

/-- A scan of a text from a position. -/
abbrev Scan (β ε α : Type) := ReaderT (List β) (StateT Nat (Except (Fault ε))) α

/-- A reader of the front of a text. -/
abbrev Front (β ε α : Type) := StateT (List β) (Except ε) α

namespace Scan

/-- The next items, or an error if fewer are left. -/
def take (count : Nat) (short : ε) : Scan β ε (List β) := fun text position =>
  if text.length < position then .error .outside
  else if text.length - position < count then .error (.invalid short)
  else if text.length < position + count then .error .outside
  else .ok ((text.drop position).take count, position + count)

def fail (error : ε) : Scan β ε α := fun _ _ => .error (.invalid error)

end Scan

/-- What a scan gives from a position, if a reader gives `read` of what is left there. -/
def Follows (text : List β) (scanned : Except (Fault ε) (α × Nat)) :
    Except ε (α × List β) → Prop
  | .error error => scanned = .error (.invalid error)
  | .ok (value, left) => ∃ position, position ≤ text.length ∧ left = text.drop position ∧
      scanned = .ok (value, position)

/-- From every position inside the text, a scan gives what a reader gives. -/
def Simulates (scan : Scan β ε α) (front : Front β ε α) : Prop :=
  ∀ text position, position ≤ text.length →
    Follows text (scan text position) (front (text.drop position))

theorem Simulates.pure (value : α) :
    Simulates (Pure.pure value : Scan β ε α) (Pure.pure value) := by
  intro text position inside
  exact ⟨position, inside, rfl, rfl⟩

theorem Simulates.bind {scan : Scan β ε α} {front : Front β ε α} {next : α → Scan β ε γ}
    {next' : α → Front β ε γ} (first : Simulates scan front)
    (rest : ∀ value, Simulates (next value) (next' value)) :
    Simulates (scan >>= next) (front >>= next') := by
  intro text position inside
  have step := first text position inside
  change Follows text ((scan text position).bind fun pair => next pair.1 text pair.2)
    ((front (text.drop position)).bind fun pair => next' pair.1 pair.2)
  cases read : front (text.drop position) with
  | error error =>
      rw [read] at step
      rw [show scan text position = _ from step]
      rfl
  | ok pair =>
      rcases pair with ⟨value, left⟩
      rw [read] at step
      rcases step with ⟨moved, within, rfl, scanned⟩
      rw [scanned]
      exact rest value text moved within

theorem Simulates.fail (error : ε) :
    Simulates (Scan.fail error : Scan β ε α) (throw error) := by
  intro text position _
  rfl

/-- Taking items by position is taking them off the front. -/
theorem Simulates.take (count : Nat) (short : ε) :
    Simulates (Scan.take count short : Scan β ε (List β)) fun left =>
      if count > left.length then .error short else .ok (left.take count, left.drop count) := by
  intro text position inside
  rw [Scan.take, if_neg (Nat.not_lt.mpr inside)]
  dsimp only
  rw [List.length_drop]
  by_cases few : text.length - position < count
  · rw [if_pos few, if_pos few]
    rfl
  · rw [if_neg few, if_neg few, if_neg (by omega)]
    refine ⟨position + count, by omega, ?_, rfl⟩
    rw [List.drop_drop]

end VgiRpc.Lib
