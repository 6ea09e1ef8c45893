import Mathlib.Tactic

/-!
# Maps as lists in the order of their keys

A map is the list of its entries in strictly increasing order of the keys.  Lookup and
assignment work on any list of entries; assignment keeps the order, and assigning the
entries of a map one after the other builds the same map.
-/

namespace VgiRpc.Lib

variable {κ ν : Type} [LT κ] [DecidableEq κ] [DecidableLT κ]

/-- Set the value of a key: replace it, or insert it before the first greater key. -/
def assign (entries : List (κ × ν)) (key : κ) (value : ν) : List (κ × ν) :=
  match entries with
  | [] => [(key, value)]
  | entry :: rest =>
      if key = entry.1 then (key, value) :: rest
      else if key < entry.1 then (key, value) :: entry :: rest
      else entry :: assign rest key value

attribute [grind =] assign

/-- Assign entries one after the other. -/
def assignAll (entries added : List (κ × ν)) : List (κ × ν) :=
  added.foldl (fun entries entry => assign entries entry.1 entry.2) entries

omit [LT κ] [DecidableLT κ] in
theorem lookup_cons_eq [BEq κ] [LawfulBEq κ] (entry : κ × ν) (entries : List (κ × ν)) (key : κ) :
    (entry :: entries).lookup key = if key = entry.1 then some entry.2 else entries.lookup key := by
  rw [List.lookup_cons]
  by_cases same : key = entry.1
  · simp only [same, beq_self_eq_true, if_true]
  · simp only [beq_false_of_ne same, if_neg same]

@[simp] theorem lookup_assign [BEq κ] [LawfulBEq κ] (entries : List (κ × ν)) (key other : κ) (value : ν) :
    (assign entries key value).lookup other =
      if other = key then some value else entries.lookup other := by
  induction entries with
  | nil =>
      rw [assign, lookup_cons_eq]
  | cons entry rest ih =>
      rw [assign]
      split
      next same =>
        simp only [lookup_cons_eq, ← same]
        split <;> rfl
      next different =>
        split
        next => rw [lookup_cons_eq]
        next =>
          rw [lookup_cons_eq, ih, lookup_cons_eq]
          by_cases first : other = entry.1
          · rw [if_pos first, if_pos first, if_neg]
            intro same
            exact different (same.symm.trans first)
          · rw [if_neg first, if_neg first]

theorem mem_assign {entries : List (κ × ν)} {key : κ} {value : ν} {entry : κ × ν}
    (listed : entry ∈ assign entries key value) : entry = (key, value) ∨ entry ∈ entries := by
  induction entries with
  | nil => exact .inl (List.mem_singleton.mp listed)
  | cons first rest ih =>
      rw [assign] at listed
      split at listed
      next =>
        rcases List.mem_cons.mp listed with same | later
        · exact .inl same
        · exact .inr (List.mem_cons_of_mem _ later)
      next =>
        split at listed
        next => exact List.mem_cons.mp listed
        next =>
          rcases List.mem_cons.mp listed with same | later
          · exact .inr (List.mem_cons.mpr (.inl same))
          · rcases ih later with same | before
            · exact .inl same
            · exact .inr (List.mem_cons_of_mem _ before)

omit [LT κ] [DecidableLT κ] in
theorem mem_of_lookup [BEq κ] [LawfulBEq κ] {entries : List (κ × ν)} {key : κ} {value : ν}
    (found : entries.lookup key = some value) : (key, value) ∈ entries := by
  induction entries with
  | nil => cases found
  | cons entry rest ih =>
      rw [lookup_cons_eq] at found
      split at found
      next same =>
        rw [same, ← Option.some.inj found]
        exact List.mem_cons_self
      next => exact List.mem_cons_of_mem _ (ih found)

theorem mem_assignAll {entries added : List (κ × ν)} {entry : κ × ν}
    (listed : entry ∈ assignAll entries added) : entry ∈ entries ∨ entry ∈ added := by
  induction added generalizing entries with
  | nil => exact .inl listed
  | cons first added ih =>
      rcases ih listed with assigned | later
      · rcases mem_assign assigned with same | before
        · exact .inr (List.mem_cons.mpr (.inl same))
        · exact .inl before
      · exact .inr (List.mem_cons_of_mem _ later)

/-! ## Order -/

/-- The keys increase strictly. -/
def Increasing (entries : List (κ × ν)) : Prop :=
  entries.Pairwise fun first second => first.1 < second.1

section Order

variable [Trans (α := κ) (· < ·) (· < ·) (· < ·)]

section Append

variable [Std.Irrefl (α := κ) (· < ·)]

omit [Trans (α := κ) (· < ·) (· < ·) (· < ·)] in
/-- A greater key goes to the end. -/
theorem assign_of_greater {entries : List (κ × ν)} {key : κ} (value : ν)
    (greater : ∀ entry ∈ entries, entry.1 < key ∧ ¬key < entry.1) :
    assign entries key value = entries ++ [(key, value)] := by
  induction entries with
  | nil => rfl
  | cons entry rest ih =>
      have first := greater entry List.mem_cons_self
      rw [assign, if_neg, if_neg first.2, ih fun other listed =>
        greater other (List.mem_cons_of_mem _ listed), List.cons_append]
      intro same
      rw [same] at first
      exact Std.lt_irrefl first.1

omit [DecidableLT κ] [Trans (α := κ) (· < ·) (· < ·) (· < ·)] in
theorem Increasing.lookup_of_mem [BEq κ] [LawfulBEq κ] {entries : List (κ × ν)} {key : κ} {value : ν}
    (increasing : Increasing entries) (listed : (key, value) ∈ entries) :
    entries.lookup key = some value := by
  induction entries with
  | nil => cases listed
  | cons entry rest ih =>
      rw [Increasing, List.pairwise_cons] at increasing
      rw [lookup_cons_eq]
      rcases List.mem_cons.mp listed with same | later
      · rw [← same, if_pos rfl]
      · rw [if_neg, ih increasing.2 later]
        intro equal
        have less := increasing.1 _ later
        rw [← equal] at less
        exact Std.lt_irrefl less

/-- Assigning the entries of a map behind smaller ones appends them. -/
theorem assignAll_of_increasing {entries added : List (κ × ν)}
    (increasing : Increasing (entries ++ added)) :
    assignAll entries added = entries ++ added := by
  induction added generalizing entries with
  | nil => exact (List.append_nil entries).symm
  | cons entry added ih =>
      have before := (List.pairwise_append.mp increasing).2.2
      have last : assign entries entry.1 entry.2 = entries ++ [entry] := by
        apply assign_of_greater
        intro other listed
        have less := before other listed entry List.mem_cons_self
        exact ⟨less, fun greater => Std.lt_irrefl (Std.lt_trans less greater)⟩
      rw [List.append_cons] at increasing ⊢
      rw [← ih increasing, ← last]
      rfl

end Append

variable [Std.Trichotomous (α := κ) (· < ·)]

theorem Increasing.assign {entries : List (κ × ν)} (increasing : Increasing entries) (key : κ)
    (value : ν) : Increasing (assign entries key value) := by
  induction entries with
  | nil => exact List.pairwise_singleton _ _
  | cons entry rest ih =>
      rw [Increasing, List.pairwise_cons] at increasing
      rw [Lib.assign]
      split
      next same =>
        rw [Increasing, List.pairwise_cons]
        rw [← same] at increasing
        exact increasing
      next different =>
        split
        next less =>
          rw [Increasing, List.pairwise_cons]
          refine ⟨?_, List.pairwise_cons.mpr increasing⟩
          intro other listed
          rcases List.mem_cons.mp listed with rfl | later
          · exact less
          · exact Std.lt_trans less (increasing.1 other later)
        next greater =>
          rw [Increasing, List.pairwise_cons]
          refine ⟨?_, ih increasing.2⟩
          intro other listed
          rcases mem_assign listed with rfl | later
          · rcases Std.lt_trichotomy key entry.1 with less | same | more
            · exact absurd less greater
            · exact absurd same different
            · exact more
          · exact increasing.1 other later

theorem Increasing.assignAll {entries : List (κ × ν)} (increasing : Increasing entries)
    (added : List (κ × ν)) : Increasing (assignAll entries added) := by
  induction added generalizing entries with
  | nil => exact increasing
  | cons entry added ih => exact ih (increasing.assign entry.1 entry.2)

end Order

/-! ## Maps -/

/-- A map, as its entries in order. -/
structure OrderedMap (κ ν : Type) [LT κ] where
  entries : List (κ × ν)
  increasing : Increasing entries

namespace OrderedMap

variable [Trans (α := κ) (· < ·) (· < ·) (· < ·)] [Std.Trichotomous (α := κ) (· < ·)]

/-- The map that assigning entries one after the other builds. -/
def ofEntries (entries : List (κ × ν)) : OrderedMap κ ν :=
  ⟨assignAll [] entries, Increasing.assignAll List.Pairwise.nil entries⟩

theorem ofEntries_entries [Std.Irrefl (α := κ) (· < ·)] (map : OrderedMap κ ν) : ofEntries map.entries = map := by
  have same : assignAll [] map.entries = map.entries := assignAll_of_increasing map.increasing
  cases map with
  | mk entries increasing =>
      simp only [ofEntries, same]

end OrderedMap

end VgiRpc.Lib
