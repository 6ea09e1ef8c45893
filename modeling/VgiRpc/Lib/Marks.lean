import Mathlib.Tactic

/-!
# Texts cut at a mark

A text is cut where a mark first occurs in it.  What comes behind the text does not move the
place, and a text that the mark is not in yet is shorter than the cut and the mark.
-/

namespace VgiRpc.Lib

variable {α : Type} [DecidableEq α]

/-- What is in front of the first occurrence of a mark, and what is behind it. -/
def cut (mark : List α) : List α → Option (List α × List α)
  | [] => none
  | first :: rest =>
      if mark <+: first :: rest then some ([], (first :: rest).drop mark.length)
      else (cut mark rest).map fun parts => (first :: parts.1, parts.2)

section Cuts

variable {mark text front behind : List α}

/-- The two ways in which a text that is not empty is cut. -/
theorem cut_cons_eq_some_iff {first : α} {rest : List α} :
    cut mark (first :: rest) = some (front, behind) ↔
      (mark <+: first :: rest ∧ front = [] ∧ behind = (first :: rest).drop mark.length) ∨
        (¬mark <+: first :: rest ∧ ∃ start, front = first :: start ∧ cut mark rest = some (start, behind)) := by
  rw [cut]
  by_cases starts : mark <+: first :: rest
  · simp [starts, eq_comm]
  · rw [if_neg starts, Option.map_eq_some_iff]
    constructor
    · rintro ⟨⟨start, tail⟩, found, same⟩
      obtain ⟨rfl, rfl⟩ := Prod.mk.inj same
      exact .inr ⟨starts, start, rfl, found⟩
    · rintro (⟨here, -⟩ | ⟨-, start, rfl, found⟩)
      · exact absurd here starts
      · exact ⟨(start, behind), found, rfl⟩

/-- A text is its two parts with the mark between them. -/
theorem append_of_cut (found : cut mark text = some (front, behind)) : text = front ++ (mark ++ behind) := by
  induction text generalizing front with
  | nil => cases found
  | cons first rest inductionHypothesis =>
      rcases cut_cons_eq_some_iff.mp found with ⟨⟨more, whole⟩, rfl, rfl⟩ | ⟨-, start, rfl, later⟩
      · rw [← whole, List.drop_left, List.nil_append]
      · rw [inductionHypothesis later, List.cons_append]

theorem length_of_cut (found : cut mark text = some (front, behind)) :
    text.length = front.length + mark.length + behind.length := by
  rw [append_of_cut found, List.length_append, List.length_append, Nat.add_assoc]

/-- What follows a text that has been cut is behind the cut. -/
theorem cut_append (found : cut mark text = some (front, behind)) (more : List α) :
    cut mark (text ++ more) = some (front, behind ++ more) := by
  induction text generalizing front with
  | nil => cases found
  | cons first rest inductionHypothesis =>
      rw [List.cons_append, cut_cons_eq_some_iff]
      rcases cut_cons_eq_some_iff.mp found with ⟨starts, rfl, rfl⟩ | ⟨other, start, rfl, later⟩
      · refine .inl ⟨starts.trans (List.prefix_append (first :: rest) more), rfl, ?_⟩
        rw [← List.cons_append, List.drop_append_of_le_length starts.length_le]
      · refine .inr ⟨?_, start, rfl, inductionHypothesis later⟩
        intro starts
        have size := length_of_cut later
        have short : mark.length ≤ (first :: rest).length := by
          rw [List.length_cons]
          omega
        exact other (List.prefix_of_prefix_length_le starts (List.prefix_append (first :: rest) more) short)

/-- A text that goes beyond the mark is cut there already. -/
theorem cut_of_cut_append {more : List α} (present : mark ≠ [])
    (found : cut mark (text ++ more) = some (front, behind))
    (beyond : front.length + mark.length ≤ text.length) : ∃ tail, cut mark text = some (front, tail) := by
  induction text generalizing front with
  | nil =>
      have positive := List.length_pos_iff.mpr present
      rw [List.length_nil] at beyond
      omega
  | cons first rest inductionHypothesis =>
      rw [List.cons_append] at found
      rcases cut_cons_eq_some_iff.mp found with ⟨starts, rfl, -⟩ | ⟨other, start, rfl, later⟩
      · have short : mark.length ≤ (first :: rest).length := by
          rw [List.length_nil, Nat.zero_add] at beyond
          exact beyond
        have here : mark <+: first :: rest :=
          List.prefix_of_prefix_length_le starts (List.prefix_append (first :: rest) more) short
        exact ⟨_, cut_cons_eq_some_iff.mpr (.inl ⟨here, rfl, rfl⟩)⟩
      · have beyondRest : start.length + mark.length ≤ rest.length := by
          rw [List.length_cons, List.length_cons] at beyond
          omega
        obtain ⟨tail, cutRest⟩ := inductionHypothesis later beyondRest
        have notHere : ¬mark <+: first :: rest := fun starts =>
          other (starts.trans (List.prefix_append (first :: rest) more))
        exact ⟨tail, cut_cons_eq_some_iff.mpr (.inr ⟨notHere, start, rfl, cutRest⟩)⟩

/-- A text that is not cut yet ends before the mark does. -/
theorem length_lt_of_cut_append {more : List α} (present : mark ≠ [])
    (found : cut mark (text ++ more) = some (front, behind)) (uncut : cut mark text = none) :
    text.length < front.length + mark.length := by
  by_contra beyond
  obtain ⟨tail, already⟩ := cut_of_cut_append present found (Nat.le_of_not_lt beyond)
  rw [uncut] at already
  cases already

/-- What a text is cut into is cut off again in front of any other text. -/
theorem cut_front (present : mark ≠ []) (found : cut mark text = some (front, behind)) :
    cut mark (front ++ mark) = some (front, []) := by
  have whole := found
  rw [append_of_cut found, ← List.append_assoc] at whole
  obtain ⟨tail, again⟩ := cut_of_cut_append present whole (Nat.le_of_eq List.length_append.symm)
  have parts := append_of_cut again
  rw [List.append_cancel_left_eq, List.self_eq_append_right] at parts
  rw [again, parts]

/-- A mark in front of a text cuts it there. -/
theorem cut_mark (present : mark ≠ []) (behind : List α) : cut mark (mark ++ behind) = some ([], behind) := by
  cases mark with
  | nil => exact absurd rfl present
  | cons first more =>
      rw [List.cons_append, cut_cons_eq_some_iff]
      exact .inl ⟨List.prefix_append (first :: more) behind, rfl, List.drop_left.symm⟩

/-- A front without the first letter of the mark stays in front. -/
theorem cut_append_of_not_mem {first : α} {more : List α} (absent : first ∉ front) :
    cut (first :: more) (front ++ text) =
      (cut (first :: more) text).map fun parts => (front ++ parts.1, parts.2) := by
  induction front with
  | nil => simp
  | cons letter rest inductionHypothesis =>
      rw [List.mem_cons, not_or] at absent
      have other : ¬first :: more <+: letter :: (rest ++ text) := fun starts =>
        absent.1 (List.cons_prefix_cons.mp starts).1
      rw [List.cons_append, cut, if_neg other, inductionHypothesis absent.2, Option.map_map]
      rfl

theorem cut_eq_none_of_not_mem {first : α} {more : List α} (absent : first ∉ text) :
    cut (first :: more) text = none := by
  have whole : cut (first :: more) (text ++ []) = none := cut_append_of_not_mem absent
  rw [List.append_nil] at whole
  exact whole

/-- A front without the first letter of the mark is all that is in front of the mark. -/
theorem cut_append_mark {first : α} {more : List α} (absent : first ∉ front) (behind : List α) :
    cut (first :: more) (front ++ (first :: more ++ behind)) = some (front, behind) := by
  rw [cut_append_of_not_mem absent, cut_mark (List.cons_ne_nil first more), Option.map_some, List.append_nil]

end Cuts

end VgiRpc.Lib
