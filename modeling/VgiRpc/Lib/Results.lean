import Mathlib.Tactic

/-!
# Results of fallible steps

What a chain of steps gives, and how much of its input a step uses up before it has a result or
fails for another reason than that it waits for more.
-/

namespace VgiRpc.Lib

variable {ε α β : Type}

theorem bind_eq_ok_iff {first : Except ε α} {next : α → Except ε β} {value : β} :
    first >>= next = .ok value ↔ ∃ middle, first = .ok middle ∧ next middle = .ok value := by
  cases first with
  | error failure => simp [bind, Except.bind]
  | ok middle => simp [bind, Except.bind]

theorem mapError_ok_iff {ε' : Type} {outcome : Except ε α} {wrap : ε → ε'} {value : α} :
    outcome.mapError wrap = .ok value ↔ outcome = .ok value := by
  cases outcome with
  | error failure => simp [Except.mapError]
  | ok found => simp [Except.mapError]

theorem bind_ne_error {first : Except ε α} {next : α → Except ε β} {failure : ε}
    (here : first ≠ .error failure) (behind : ∀ value, next value ≠ .error failure) :
    first >>= next ≠ .error failure := by
  cases first with
  | error other => exact fun same => here (congrArg Except.error (Except.error.inj same))
  | ok value => exact behind value

/-- With `before` to use up, a step uses up at most `count`, and waits for more only if that was
not there. -/
def Within (waits : ε → Prop) (left : α → Nat) (before count : Nat) : Except ε α → Prop
  | .ok value => before ≤ left value + count
  | .error failure => waits failure → before ≤ count

namespace Within

variable {waits : ε → Prop} {left : α → Nat} {leftNext : β → Nat} {before count countNext : Nat}

/-- What has been used up before counts as well. -/
theorem earlier {beforeNext : Nat} {result : Except ε α} (within : Within waits left beforeNext countNext result)
    (used : before + countNext ≤ beforeNext + count) : Within waits left before count result := by
  cases result with
  | error failure =>
      intro waiting
      have behind : beforeNext ≤ countNext := within waiting
      omega
  | ok value =>
      have behind : beforeNext ≤ left value + countNext := within
      change before ≤ left value + count
      omega

theorem mono {result : Except ε α} (within : Within waits left before count result)
    (more : count ≤ countNext) : Within waits left before countNext result :=
  within.earlier (Nat.add_le_add_left more before)

theorem of_error {failure : ε} (other : ¬waits failure) :
    Within waits left before count (.error failure) := fun waiting => absurd waiting other

/-- Two steps use up what each of them does. -/
theorem bind {total : Nat} {first : Except ε α} {next : α → Except ε β}
    (within : Within waits left before count first) (fits : count + countNext ≤ total)
    (withinNext : ∀ value, first = .ok value → Within waits leftNext (left value) countNext (next value)) :
    Within waits leftNext before total (first >>= next) := by
  cases first with
  | error failure =>
      intro waiting
      have used : before ≤ count := within waiting
      omega
  | ok value =>
      have used : before ≤ left value + count := within
      exact (withinNext value rfl).earlier (by omega)

/-- A step that neither uses anything up nor waits. -/
theorem bind_of_decided {first : Except ε α} {next : α → Except ε β}
    (decided : ∀ failure, first = .error failure → ¬waits failure)
    (withinNext : ∀ value, first = .ok value → Within waits leftNext before count (next value)) :
    Within waits leftNext before count (first >>= next) := by
  cases first with
  | error failure => exact of_error (decided failure rfl)
  | ok value => exact withinNext value rfl

end Within

end VgiRpc.Lib
