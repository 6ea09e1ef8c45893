import Mathlib.Tactic

/-!
# Self-delimiting fields

Texts that are written one after the other without a separator and can be told apart, and
groups of fields whose rows repeat the key of their group.
-/

namespace VgiRpc.Lib

variable {α β : Type}

/-! ## Sequences -/

/-- The text of an item tells the item and where it ends. -/
def SelfDelimiting (good : β → Prop) (render : β → List α) : Prop :=
  ∀ ⦃item other : β⦄, good item → good other → ∀ ⦃rest rest' : List α⦄,
    render item ++ rest = render other ++ rest' → item = other ∧ rest = rest'

/-- A sequence of self-delimiting texts tells its items. -/
theorem SelfDelimiting.flatMap_inj {good : β → Prop} {render : β → List α}
    (delimits : SelfDelimiting good render) (nonempty : ∀ item, render item ≠ [])
    {items others : List β} (fine : ∀ item ∈ items, good item) (fine' : ∀ item ∈ others, good item)
    (same : items.flatMap render = others.flatMap render) : items = others := by
  induction items generalizing others with
  | nil =>
      cases others with
      | nil => rfl
      | cons other others =>
          rw [List.flatMap_nil, List.flatMap_cons] at same
          exact absurd (List.append_eq_nil_iff.mp same.symm).1 (nonempty other)
  | cons item items ih =>
      cases others with
      | nil =>
          rw [List.flatMap_nil, List.flatMap_cons] at same
          exact absurd (List.append_eq_nil_iff.mp same).1 (nonempty item)
      | cons other others =>
          rw [List.forall_mem_cons] at fine fine'
          rw [List.flatMap_cons, List.flatMap_cons] at same
          rcases delimits fine.1 fine'.1 same with ⟨rfl, rest⟩
          rw [ih fine.2 fine'.2 rest]

/-! ## Sorted lists -/

/-- Sorting shows a list up to its order. -/
theorem mergeSort_eq_iff [LE α] [DecidableLE α] [Std.IsLinearOrder α] {items others : List α} :
    (items.mergeSort fun first second => decide (first ≤ second)) =
        (others.mergeSort fun first second => decide (first ≤ second)) ↔ items.Perm others := by
  have trans : ∀ first second third : α, decide (first ≤ second) = true →
      decide (second ≤ third) = true → decide (first ≤ third) = true := by
    intro first second third before after
    exact decide_eq_true (Std.le_trans (of_decide_eq_true before) (of_decide_eq_true after))
  have total : ∀ first second : α,
      (decide (first ≤ second) || decide (second ≤ first)) = true := by
    intro first second
    rw [Bool.or_eq_true, decide_eq_true_eq, decide_eq_true_eq]
    exact Std.le_total
  constructor
  · intro same
    have perm := List.mergeSort_perm items fun first second => decide (first ≤ second)
    rw [same] at perm
    exact perm.symm.trans (List.mergeSort_perm others _)
  · intro perm
    apply List.Perm.eq_of_pairwise _ (List.pairwise_mergeSort trans total items)
      (List.pairwise_mergeSort trans total others)
    · exact ((List.mergeSort_perm items _).trans perm).trans (List.mergeSort_perm others _).symm
    · intro first second _ _ before after
      exact Std.le_antisymm (of_decide_eq_true before) (of_decide_eq_true after)

/-- Items whose images are the same up to their order are, if the map tells them apart. -/
theorem perm_of_map {γ : Type} {view : β → γ} {items others : List β}
    (apart : ∀ item ∈ items, ∀ other ∈ others, view item = view other → item = other)
    (perm : (items.map view).Perm (others.map view)) : items.Perm others := by
  induction items generalizing others with
  | nil =>
      rw [List.map_nil, List.nil_perm, List.map_eq_nil_iff] at perm
      rw [perm]
  | cons item items ih =>
      have listed : view item ∈ others.map view := perm.subset List.mem_cons_self
      rcases List.mem_map.mp listed with ⟨other, member, same⟩
      have equal := apart item List.mem_cons_self other member same.symm
      rw [← equal] at member
      rcases List.append_of_mem member with ⟨front, back, rfl⟩
      rw [List.map_append, List.map_cons, List.map_cons] at perm
      have fewer := (perm.trans List.perm_middle).cons_inv
      rw [← List.map_append] at fewer
      have rest : items.Perm (front ++ back) := by
        apply ih _ fewer
        intro first listed second listed'
        apply apart first (List.mem_cons_of_mem _ listed) second
        rw [List.mem_append] at listed' ⊢
        exact listed'.imp_right (List.mem_cons_of_mem _)
      exact (rest.cons item).trans List.perm_middle.symm

/-! ## Groups -/

/-- A key, what is said about it, and rows that begin with it. -/
structure RowGroup (α : Type) where
  key : α
  header : α
  rows : List (List α)

/-- The fields of a group. -/
def RowGroup.fields (group : RowGroup α) : List α := group.key :: group.header :: group.rows.flatten

/-- Every row has the same number of fields, and begins with the key. -/
def RowGroup.Keyed (width : Nat) (group : RowGroup α) : Prop :=
  ∀ row ∈ group.rows, row.length = width ∧ row.head? = some group.key

/-- Rows end where something else than their key begins. -/
theorem rows_unique {width : Nat} {key : α} {rows others : List (List α)} {rest rest' : List α}
    (keyed : ∀ row ∈ rows, row.length = width ∧ row.head? = some key)
    (keyed' : ∀ row ∈ others, row.length = width ∧ row.head? = some key)
    (ends : rest.head? ≠ some key) (ends' : rest'.head? ≠ some key)
    (same : rows.flatten ++ rest = others.flatten ++ rest') : rows = others ∧ rest = rest' := by
  have begins : ∀ {row : List α} {rows : List (List α)} {rest : List α},
      row.head? = some key → ((row :: rows).flatten ++ rest).head? = some key := by
    intro row rows rest first
    rw [List.flatten_cons, List.append_assoc, List.head?_append, first]
    rfl
  induction rows generalizing others with
  | nil =>
      cases others with
      | nil => exact ⟨rfl, same⟩
      | cons other others =>
          rw [List.flatten_nil, List.nil_append] at same
          rw [same] at ends
          exact absurd (begins (keyed' other List.mem_cons_self).2) ends
  | cons row rows ih =>
      rw [List.forall_mem_cons] at keyed
      cases others with
      | nil =>
          rw [List.flatten_nil, List.nil_append] at same
          rw [← same] at ends'
          exact absurd (begins keyed.1.2) ends'
      | cons other others =>
          rw [List.forall_mem_cons] at keyed'
          rw [List.flatten_cons, List.flatten_cons, List.append_assoc, List.append_assoc] at same
          rcases List.append_inj same (keyed.1.1.trans keyed'.1.1.symm) with ⟨rfl, more⟩
          rcases ih keyed.2 keyed'.2 more with ⟨rfl, tails⟩
          exact ⟨rfl, tails⟩

/-- What follows a group does not begin with its key, if no other group has that key. -/
theorem head_flatMap_fields {key : α} {groups : List (RowGroup α)}
    (absent : ∀ group ∈ groups, group.key ≠ key) :
    (groups.flatMap RowGroup.fields).head? ≠ some key := by
  cases groups with
  | nil => simp
  | cons group groups =>
      rw [List.flatMap_cons, RowGroup.fields, List.cons_append, List.head?_cons]
      intro same
      exact absent group List.mem_cons_self (Option.some.inj same)

/-- The fields of groups with distinct keys tell the groups. -/
theorem groups_injective {width : Nat} {groups others : List (RowGroup α)}
    (keyed : ∀ group ∈ groups, group.Keyed width) (keyed' : ∀ group ∈ others, group.Keyed width)
    (distinct : (groups.map RowGroup.key).Nodup) (distinct' : (others.map RowGroup.key).Nodup)
    (same : groups.flatMap RowGroup.fields = others.flatMap RowGroup.fields) : groups = others := by
  have absent : ∀ {group : RowGroup α} {groups : List (RowGroup α)},
      group.key ∉ groups.map RowGroup.key → ∀ other ∈ groups, other.key ≠ group.key := by
    intro group groups missing other listed equal
    exact missing (List.mem_map.mpr ⟨other, listed, equal⟩)
  induction groups generalizing others with
  | nil =>
      cases others with
      | nil => rfl
      | cons other others => simp [RowGroup.fields] at same
  | cons group groups ih =>
      cases others with
      | nil => simp [RowGroup.fields] at same
      | cons other others =>
          rw [List.map_cons, List.nodup_cons] at distinct distinct'
          rw [List.forall_mem_cons] at keyed keyed'
          rw [List.flatMap_cons, List.flatMap_cons, RowGroup.fields, RowGroup.fields,
            List.cons_append, List.cons_append, List.cons_append, List.cons_append,
            List.cons.injEq, List.cons.injEq] at same
          rcases same with ⟨keys, headers, same⟩
          have other_keyed := keyed'.1
          rw [RowGroup.Keyed, ← keys] at other_keyed
          have missing' := absent distinct'.1
          rw [← keys] at missing'
          rcases rows_unique keyed.1 other_keyed (head_flatMap_fields (absent distinct.1))
            (head_flatMap_fields missing') same with ⟨rows, rest⟩
          have heads : group = other := by
            cases group
            cases other
            simp_all
          rw [heads, ih keyed.2 keyed'.2 distinct.2 distinct'.2 rest]

/-- Groups of rows of an even width have an even number of fields. -/
theorem even_length_flatMap_fields {width : Nat} {groups : List (RowGroup α)}
    (keyed : ∀ group ∈ groups, group.Keyed width) (even : Even width) :
    Even (groups.flatMap RowGroup.fields).length := by
  have rows : ∀ {rows : List (List α)}, (∀ row ∈ rows, row.length = width) →
      Even rows.flatten.length := by
    intro rows widths
    induction rows with
    | nil => simp
    | cons row rows ih =>
        rw [List.forall_mem_cons] at widths
        rw [List.flatten_cons, List.length_append, widths.1]
        exact even.add (ih widths.2)
  induction groups with
  | nil => simp
  | cons group groups ih =>
      rw [List.forall_mem_cons] at keyed
      rw [List.flatMap_cons, List.length_append]
      apply Even.add _ (ih keyed.2)
      have inner := rows fun row listed => (keyed.1 row listed).1
      rw [RowGroup.fields, List.length_cons, List.length_cons]
      exact inner.add even_two

end VgiRpc.Lib
