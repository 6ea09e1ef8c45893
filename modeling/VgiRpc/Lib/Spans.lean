import Mathlib.Data.List.TakeWhile
import Mathlib.Tactic

/-!
# Spans of a class of letters

The longest front of a text in a class, and what is behind it, where the text is put
together from parts.
-/

namespace VgiRpc.Lib

variable {α : Type} {chosen other : α → Bool} {body tail text : List α}

/-- A word of the class in front of a text that does not go on with it. -/
theorem cut_eq (inside : body.all chosen = true)
    (stops : ∀ byte rest, tail = byte :: rest → chosen byte = false) :
    (body ++ tail).takeWhile chosen = body ∧ (body ++ tail).dropWhile chosen = tail := by
  rw [List.all_eq_true] at inside
  rw [List.takeWhile_append_of_pos inside, List.dropWhile_append_of_pos inside]
  cases tail with
  | nil => exact ⟨List.append_nil body, rfl⟩
  | cons byte rest =>
      have stop := stops byte rest rfl
      rw [List.takeWhile_cons_of_neg (by rw [stop]; decide), List.append_nil,
        List.dropWhile_cons_of_neg (by rw [stop]; decide)]
      exact ⟨rfl, rfl⟩

section Stopped

variable (stops : ∀ byte rest, tail = byte :: rest → chosen byte = false)
include stops

theorem takeWhile_stopped (body : List α) :
    (body ++ tail).takeWhile chosen = body.takeWhile chosen := by
  induction body with
  | nil =>
      cases tail with
      | nil => rfl
      | cons byte rest => exact List.takeWhile_cons_of_neg (by rw [stops byte rest rfl]; decide)
  | cons first more inductionHypothesis =>
      rw [List.cons_append, List.takeWhile_cons, List.takeWhile_cons, inductionHypothesis]

theorem dropWhile_stopped (body : List α) :
    (body ++ tail).dropWhile chosen = body.dropWhile chosen ++ tail := by
  induction body with
  | nil =>
      cases tail with
      | nil => rfl
      | cons byte rest => exact List.dropWhile_cons_of_neg (by rw [stops byte rest rfl]; decide)
  | cons first more inductionHypothesis =>
      rw [List.cons_append, List.dropWhile_cons, List.dropWhile_cons, inductionHypothesis]
      split
      · rfl
      · rfl

end Stopped

/-- What is behind a word of the class begins outside of it. -/
theorem stop_of_dropWhile {byte : α} (behind : text.dropWhile chosen = byte :: tail) : chosen byte = false := by
  have stops := List.head?_dropWhile_not chosen text
  rw [behind] at stops
  exact stops

section Separator

variable [BEq α] [LawfulBEq α] {sep : α}

theorem not_mem_takeWhile_ne : sep ∉ text.takeWhile (· != sep) := by
  intro mem
  have other := @List.mem_takeWhile_imp _ (· != sep) _ _ mem
  exact (bne_iff_ne.mp other) rfl

/-- Behind what is in front of the first separator the text is over, or goes on with it. -/
theorem dropWhile_ne (text : List α) :
    text.dropWhile (· != sep) = [] ∨ ∃ more, text.dropWhile (· != sep) = sep :: more := by
  cases behind : text.dropWhile (· != sep) with
  | nil => exact .inl rfl
  | cons byte more =>
      have stop := @stop_of_dropWhile _ (· != sep) _ _ _ behind
      have same : byte = sep := bne_eq_false_iff_eq.mp stop
      exact .inr ⟨more, by rw [same]⟩

end Separator

/-- Two classes that agree on a text. -/
theorem takeWhile_congr (agree : ∀ byte ∈ text, chosen byte = other byte) :
    text.takeWhile chosen = text.takeWhile other := by
  induction text with
  | nil => rfl
  | cons byte rest inductionHypothesis =>
      rw [List.forall_mem_cons] at agree
      rw [List.takeWhile_cons, List.takeWhile_cons, agree.1, inductionHypothesis agree.2]

theorem dropWhile_congr (agree : ∀ byte ∈ text, chosen byte = other byte) :
    text.dropWhile chosen = text.dropWhile other := by
  induction text with
  | nil => rfl
  | cons byte rest inductionHypothesis =>
      rw [List.forall_mem_cons] at agree
      rw [List.dropWhile_cons, List.dropWhile_cons, agree.1, inductionHypothesis agree.2]

end VgiRpc.Lib
