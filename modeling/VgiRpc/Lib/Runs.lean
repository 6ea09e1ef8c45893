import Mathlib.Tactic

/-!
# Runs of a labelled transition system

A step relation whose steps may be visible, and its finite runs with the trace of
their visible events.  A property of traces and states that holds at the start
and is kept by every step holds along every run.
-/

namespace VgiRpc.Lib

variable {σ ε : Type} {step : σ → Option ε → σ → Prop} {start state : σ} {trace : List ε}

/-- The finite runs from a state, with their visible events in order. -/
inductive Run (step : σ → Option ε → σ → Prop) (start : σ) : List ε → σ → Prop
  | refl : Run step start [] start
  | snoc {trace : List ε} {state next : σ} {event : Option ε} :
      Run step start trace state → step state event next →
        Run step start (trace ++ event.toList) next

namespace Run

/-- What holds at the start and is kept by every step holds along every run. -/
theorem invariant {property : List ε → σ → Prop} (initial : property [] start)
    (preserved : ∀ {trace state event next}, property trace state → step state event next →
      property (trace ++ event.toList) next)
    (run : Run step start trace state) : property trace state := by
  induction run with
  | refl => exact initial
  | snoc _ taken ih => exact preserved ih taken

/-- A visible event in a trace was a step from a state that the run reached, and
the rest of the trace is a run from there. -/
theorem exists_step_of_append {before after : List ε} {event : ε}
    (run : Run step start (before ++ event :: after) state) :
    ∃ reached next, Run step start before reached ∧ step reached (some event) next ∧
      Run step next after state := by
  generalize whole : before ++ event :: after = trace at run
  induction run generalizing after with
  | refl => simp at whole
  | @snoc trace state next visible run taken ih =>
      cases visible with
      | none =>
          rw [Option.toList_none, List.append_nil] at whole
          rcases ih whole with ⟨reached, following, prior, here, later⟩
          have extended := later.snoc taken
          rw [Option.toList_none, List.append_nil] at extended
          exact ⟨reached, following, prior, here, extended⟩
      | some last =>
          rw [Option.toList_some] at whole
          rcases List.eq_nil_or_concat after with rfl | ⟨front, final, rfl⟩
          · rcases List.append_inj' whole rfl with ⟨rfl, same⟩
            rw [List.cons.injEq] at same
            rw [same.1]
            exact ⟨state, next, run, taken, .refl⟩
          · rw [List.concat_eq_append, ← List.cons_append, ← List.append_assoc] at whole
            rcases List.append_inj' whole rfl with ⟨prefixEq, same⟩
            rw [List.cons.injEq] at same
            rcases ih prefixEq with ⟨reached, following, prior, here, later⟩
            refine ⟨reached, following, prior, here, ?_⟩
            rw [List.concat_eq_append, same.1]
            exact later.snoc taken

end Run

/-! ## Runs of a step function -/

/-- What every step of a function keeps holds after any number of its steps. -/
theorem foldlM_invariant {action : Type} {step : σ → action → Option σ} {motive : σ → Prop}
    (preserved : ∀ {state next taken}, motive state → step state taken = some next → motive next)
    {actions : List action} (initial : motive start)
    (ran : actions.foldlM step start = some state) : motive state := by
  induction actions generalizing start with
  | nil =>
      rw [← Option.some.inj ran]
      exact initial
  | cons first rest ih =>
      rw [List.foldlM_cons, Option.bind_eq_bind, Option.bind_eq_some_iff] at ran
      rcases ran with ⟨middle, taken, remaining⟩
      exact ih (preserved initial taken) remaining

end VgiRpc.Lib
