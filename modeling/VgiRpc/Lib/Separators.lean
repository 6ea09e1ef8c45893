import Mathlib.Tactic

/-!
# Texts joined by a separator

Joining two texts with a separator can be undone if the separator does not occur
behind itself, or not in front of itself.  In general two splits of one text differ by a
shift.
-/

namespace VgiRpc.Lib

variable {α : Type} {front tail front' tail' : List α} {sep : α}

/-- Two splits of one text at a separator: the same, or one is further left. -/
theorem append_cons_eq :
    front ++ sep :: tail = front' ++ sep :: tail' ↔
      (front = front' ∧ tail = tail') ∨
        (∃ middle, front = front' ++ sep :: middle ∧ tail' = middle ++ sep :: tail) ∨
          ∃ middle, front' = front ++ sep :: middle ∧ tail = middle ++ sep :: tail' := by
  constructor
  · intro same
    rcases List.append_eq_append_iff.mp same with ⟨gap, whole, rest⟩ | ⟨gap, whole, rest⟩
    · cases gap with
      | nil =>
          rw [List.append_nil] at whole
          rw [List.nil_append, List.cons.injEq] at rest
          exact .inl ⟨whole.symm, rest.2⟩
      | cons first middle =>
          rw [List.cons_append, List.cons.injEq] at rest
          rw [← rest.1] at whole
          exact .inr (.inr ⟨middle, whole, rest.2⟩)
    · cases gap with
      | nil =>
          rw [List.append_nil] at whole
          rw [List.nil_append, List.cons.injEq] at rest
          exact .inl ⟨whole, rest.2.symm⟩
      | cons first middle =>
          rw [List.cons_append, List.cons.injEq] at rest
          rw [← rest.1] at whole
          exact .inr (.inl ⟨middle, whole, rest.2⟩)
  · intro split
    rcases split with ⟨rfl, rfl⟩ | ⟨middle, rfl, rfl⟩ | ⟨middle, rfl, rfl⟩
    · rfl
    · simp
    · simp

/-- A separator that does not occur behind itself splits a text in one way. -/
theorem append_cons_inj (left : sep ∉ tail) (right : sep ∉ tail') :
    front ++ sep :: tail = front' ++ sep :: tail' ↔ front = front' ∧ tail = tail' := by
  rw [append_cons_eq]
  constructor
  · intro split
    rcases split with same | ⟨middle, -, rfl⟩ | ⟨middle, -, rfl⟩
    · exact same
    · simp at right
    · simp at left
  · intro same
    exact .inl same

/-- A separator that does not occur in front of itself splits a text in one way. -/
theorem append_cons_inj_front (left : sep ∉ front) (right : sep ∉ front') :
    front ++ sep :: tail = front' ++ sep :: tail' ↔ front = front' ∧ tail = tail' := by
  rw [append_cons_eq]
  constructor
  · intro split
    rcases split with same | ⟨middle, rfl, -⟩ | ⟨middle, rfl, -⟩
    · exact same
    · simp at left
    · simp at right
  · intro same
    exact .inl same

/-- A text that goes beyond a prefix without one of its letters has that prefix already. -/
theorem prefix_of_append_cons {mark text rest : List α} (absent : sep ∉ mark)
    (prefixed : mark <+: text ++ sep :: rest) : mark <+: text := by
  rcases prefixed with ⟨more, whole⟩
  rcases List.append_eq_append_iff.mp whole with ⟨gap, longer, -⟩ | ⟨gap, longer, shorter⟩
  · exact ⟨gap, longer.symm⟩
  · cases gap with
    | nil =>
        rw [List.append_nil] at longer
        rw [longer]
    | cons first gap =>
        rw [List.cons_append, List.cons.injEq] at shorter
        rw [longer, shorter.1] at absent
        simp at absent

/-- Words of a class of letters that end at the same kind of place are the same. -/
theorem append_inj_of_class (letter : α → Bool) (word : ∀ byte ∈ front, letter byte = true)
    (word' : ∀ byte ∈ front', letter byte = true)
    (ends : ∀ byte ∈ tail.head?, letter byte = false)
    (ends' : ∀ byte ∈ tail'.head?, letter byte = false) (same : front ++ tail = front' ++ tail') :
    front = front' ∧ tail = tail' := by
  have taken : ∀ {text rest : List α}, (∀ byte ∈ text, letter byte = true) →
      (∀ byte ∈ rest.head?, letter byte = false) → (text ++ rest).takeWhile letter = text := by
    intro text rest inside outside
    rw [List.takeWhile_append_of_pos inside]
    cases rest with
    | nil => simp
    | cons byte rest => simp [outside byte rfl]
  have words := congrArg (List.takeWhile letter) same
  rw [taken word ends, taken word' ends'] at words
  subst words
  exact ⟨rfl, List.append_cancel_left same⟩

/-! ## Lists of texts -/

section Joined

variable {β γ : Type}

/-- The texts of some items, with a separator in front of each but the first. -/
def joined (sep : α) (render : β → List α) : (first : Bool) → List β → List α
  | _, [] => []
  | first, item :: items =>
      (if first then [] else [sep]) ++ render item ++ joined sep render false items

/-- A joined list that is closed by another letter can be read back, if its items can and
none of them begins like the end. -/
theorem joined_unique {close : α} (apart : close ≠ sep) {render : β → List α} {view : β → γ}
    {good : β → Prop} (opens : ∀ item rest rest', render item ++ rest ≠ close :: rest')
    (unique : ∀ {item other}, good item → good other → ∀ {rest rest'},
      render item ++ rest = render other ++ rest' → view item = view other ∧ rest = rest')
    {items others : List β} (fine : ∀ item ∈ items, good item)
    (fine' : ∀ item ∈ others, good item) (first : Bool) {rest rest' : List α}
    (same : joined sep render first items ++ close :: rest =
      joined sep render first others ++ close :: rest') :
    items.map view = others.map view ∧ rest = rest' := by
  have nonempty : ∀ {item : β} {items : List β} {first : Bool} {rest rest' : List α},
      joined sep render first (item :: items) ++ rest ≠ close :: rest' := by
    intro item items first rest rest' whole
    cases first with
    | true =>
        simp only [joined, if_true, List.nil_append, List.append_assoc] at whole
        exact opens _ _ _ whole
    | false =>
        simp only [joined, Bool.false_eq_true, if_false, List.cons_append, List.nil_append,
          List.cons.injEq] at whole
        exact apart whole.1.symm
  induction items generalizing others first with
  | nil =>
      cases others with
      | nil => exact ⟨rfl, (List.cons.inj same).2⟩
      | cons other others => exact absurd same.symm nonempty
  | cons item items ih =>
      cases others with
      | nil => exact absurd same nonempty
      | cons other others =>
          simp only [joined, List.append_assoc, List.append_cancel_left_eq] at same
          rcases unique (fine _ List.mem_cons_self) (fine' _ List.mem_cons_self) same with
            ⟨heads, tails⟩
          rcases ih (fun item listed => fine item (List.mem_cons_of_mem _ listed))
            (fun item listed => fine' item (List.mem_cons_of_mem _ listed)) false tails with
            ⟨views, rests⟩
          exact ⟨by rw [List.map_cons, List.map_cons, heads, views], rests⟩

/-- A joined list shows of its items what their texts show. -/
theorem joined_congr {render : β → List α} {view : β → γ}
    (shows : ∀ {item other}, view item = view other → render item = render other)
    {items others : List β} (views : items.map view = others.map view) (first : Bool) :
    joined sep render first items = joined sep render first others := by
  induction items generalizing others first with
  | nil =>
      cases others with
      | nil => rfl
      | cons other others => cases views
  | cons item items ih =>
      cases others with
      | nil => cases views
      | cons other others =>
          rw [List.map_cons, List.map_cons, List.cons.injEq] at views
          simp only [joined, shows views.1, ih views.2]

end Joined

end VgiRpc.Lib
