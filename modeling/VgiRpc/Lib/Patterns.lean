import Mathlib.Computability.RegularExpressions
import Mathlib.Tactic

/-!
# Character classes in regular expressions

A class of symbols as a regular expression, and the words that one or more of its
symbols make.
-/

namespace VgiRpc.Lib.Patterns

open RegularExpression

variable {α : Type}

/-- One of the symbols, `[abc]`. -/
def oneOf (symbols : List α) : RegularExpression α := (symbols.map char).sum

/-- Any number of the symbols, `[abc]*`. -/
def anyOf (symbols : List α) : RegularExpression α := (oneOf symbols).star

/-- At least one of the symbols, `[abc]+`. -/
def someOf (symbols : List α) : RegularExpression α := oneOf symbols * anyOf symbols

variable {symbols : List α} {word : List α}

theorem mem_oneOf : word ∈ (oneOf symbols).matches' ↔ ∃ symbol ∈ symbols, word = [symbol] := by
  induction symbols with
  | nil => simp [oneOf]
  | cons symbol symbols ih =>
      have split : (oneOf (symbol :: symbols)).matches' =
          (char symbol).matches' + (oneOf symbols).matches' := by
        rw [← matches'_add, oneOf, oneOf, List.map_cons, List.sum_cons]
      rw [split, Language.mem_add, ih, List.exists_mem_cons_iff, matches'_char]
      exact Iff.rfl

theorem mem_anyOf : word ∈ (anyOf symbols).matches' ↔ ∀ symbol ∈ word, symbol ∈ symbols := by
  rw [anyOf, matches'_star, Language.mem_kstar]
  constructor
  · rintro ⟨pieces, rfl, every⟩ symbol member
    obtain ⟨piece, listed, inside⟩ := List.mem_flatten.mp member
    obtain ⟨known, class_, rfl⟩ := mem_oneOf.mp (every piece listed)
    rw [List.mem_singleton.mp inside]
    exact class_
  · intro every
    refine ⟨word.map fun symbol => [symbol], ?_, ?_⟩
    · induction word with
      | nil => rfl
      | cons symbol word ih =>
          rw [List.map_cons, List.flatten_cons, ← ih fun symbol member =>
            every symbol (List.mem_cons_of_mem _ member), List.singleton_append]
    · intro piece listed
      obtain ⟨symbol, member, rfl⟩ := List.mem_map.mp listed
      exact mem_oneOf.mpr ⟨symbol, every symbol member, rfl⟩

theorem mem_someOf :
    word ∈ (someOf symbols).matches' ↔ word ≠ [] ∧ ∀ symbol ∈ word, symbol ∈ symbols := by
  rw [someOf, matches'_mul, Language.mem_mul]
  constructor
  · rintro ⟨first, single, rest, many, rfl⟩
    obtain ⟨symbol, listed, rfl⟩ := mem_oneOf.mp single
    exact ⟨List.cons_ne_nil _ _, List.forall_mem_cons.mpr ⟨listed, mem_anyOf.mp many⟩⟩
  · rintro ⟨present, every⟩
    cases word with
    | nil => exact absurd rfl present
    | cons symbol word =>
        rw [List.forall_mem_cons] at every
        exact ⟨[symbol], mem_oneOf.mpr ⟨symbol, every.1, rfl⟩, word, mem_anyOf.mpr every.2, rfl⟩

end VgiRpc.Lib.Patterns
